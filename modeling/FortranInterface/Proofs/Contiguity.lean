import Mathlib
import FortranInterface.Proofs.Extents

/-!
Which sections are contiguous. A designator counts as simply contiguous if each of its subscripts by itself leaves no
gap. Its elements stand next to each other only if, moreover, no dimension varies behind one that is selected in part.
-/

namespace FortranInterface

namespace Shape

/-- The places that a subscript selects of a dimension with these bounds. -/
structure Selection where
  lower : Int
  upper : Int
  places : Set Int

namespace Selection

def along (first last stride : Int) : Set Int :=
  {place | ∃ step ∈ stepsWithin first last stride, place = first + step * stride}

def of? (table : Table) (bounds : Bounds) (subscript : Subscript) : Option Selection :=
  ((Origin.declared bounds).run? table).bind fun (lower, upper, _) =>
    match subscript with
    | .index value => (table.foldInteger value).map fun place => ⟨lower, upper, {place}⟩
    | .triplet first last stride =>
      ((Origin.ofTriplet (some bounds) first last stride).run? table).map fun (first, last, stride) =>
        ⟨lower, upper, along first last stride⟩

def Inside (selection : Selection) : Prop :=
  selection.places ⊆ Set.Icc selection.lower selection.upper

/-- The position of an element, where the dimensions behind this one are left at a position of their own. -/
def position (selection : Selection) (place outer : Int) : Int :=
  place - selection.lower + (selection.upper - selection.lower + 1) * outer

end Selection

def selections? (table : Table) : ArraySpec → List Subscript → Option (List Selection)
  | [], [] => some []
  | bounds :: shape, subscript :: subscripts =>
    (Selection.of? table bounds subscript).bind fun selection =>
      (selections? table shape subscripts).map (selection :: ·)
  | _, _ => none

/-- The positions of the selected elements among all elements of the array. The first subscript varies fastest. -/
def positions : List Selection → Set Int
  | [] => {0}
  | selection :: selections =>
    {position | ∃ place ∈ selection.places, ∃ outer ∈ positions selections, position = selection.position place outer}

/-- A dimension may be selected in part only if at most one element is selected of those behind it. -/
def Compact : List Selection → Prop
  | [] => True
  | selection :: selections => selection.places = ∅ ∨ (positions selections).Subsingleton ∨
    selection.places = Set.Icc selection.lower selection.upper ∧ Compact selections

/-! Positions are ordered by the last dimension first. -/

section

variable {selection : Selection} {place other outer further : Int}

theorem position_le_iff (isPlace : place ∈ Set.Icc selection.lower selection.upper)
    (isOther : other ∈ Set.Icc selection.lower selection.upper) :
    selection.position place outer ≤ selection.position other further ↔
      outer < further ∨ outer = further ∧ place ≤ other := by
  obtain ⟨low, high⟩ := isPlace
  obtain ⟨low', high'⟩ := isOther
  have extent : 0 ≤ selection.upper - selection.lower + 1 := by omega
  unfold Selection.position
  rcases lt_trichotomy outer further with less | rfl | more
  · have step := Int.mul_le_mul_of_nonneg_left (Int.add_one_le_of_lt less) extent
    rw [Int.mul_add, Int.mul_one] at step
    omega
  · omega
  · have step := Int.mul_le_mul_of_nonneg_left (Int.add_one_le_of_lt more) extent
    rw [Int.mul_add, Int.mul_one] at step
    omega

theorem exists_position (bounds : selection.lower ≤ selection.upper) (found : Int) :
    ∃ place ∈ Set.Icc selection.lower selection.upper, ∃ outer, selection.position place outer = found := by
  have extent : 0 < selection.upper - selection.lower + 1 := by omega
  have rest := Int.emod_nonneg found extent.ne'
  have below := Int.emod_lt_of_pos found extent
  refine ⟨selection.lower + found % (selection.upper - selection.lower + 1), ⟨by omega, by omega⟩,
    found / (selection.upper - selection.lower + 1), ?_⟩
  rw [Selection.position, add_sub_cancel_left, Int.emod_add_mul_ediv]

end

variable {selection : Selection} {selections : List Selection}

theorem ordConnected_cons_iff (inside : selection.Inside) (connected : selection.places.OrdConnected) :
    (positions (selection :: selections)).OrdConnected ↔ selection.places = ∅ ∨ (positions selections).Subsingleton ∨
      selection.places = Set.Icc selection.lower selection.upper ∧ (positions selections).OrdConnected := by
  constructor
  · intro all
    rcases selection.places.eq_empty_or_nonempty with empty | ⟨place, isPlace⟩
    · exact .inl empty
    have within := inside isPlace
    -- A position between two with the same place is selected, whatever place it has itself.
    have selected {low high outer other : Int} (isLow : low ∈ positions selections)
        (isHigh : high ∈ positions selections) (isOther : other ∈ Set.Icc selection.lower selection.upper)
        (lower : low < outer ∨ low = outer ∧ place ≤ other) (upper : outer < high ∨ outer = high ∧ other ≤ place) :
        other ∈ selection.places ∧ outer ∈ positions selections := by
      obtain ⟨found, isFound, further, isFurther, same⟩ := all.out ⟨place, isPlace, low, isLow, rfl⟩
        ⟨place, isPlace, high, isHigh, rfl⟩
        ⟨(position_le_iff within isOther).mpr lower, (position_le_iff isOther within).mpr upper⟩
      have forth := (position_le_iff isOther (inside isFound)).mp same.le
      have back := (position_le_iff (inside isFound) isOther).mp same.ge
      obtain ⟨rfl, rfl⟩ : other = found ∧ outer = further := by omega
      exact ⟨isFound, isFurther⟩
    refine .inr (or_iff_not_imp_left.mpr fun varies => ⟨inside.antisymm fun other isOther => ?_, ⟨?_⟩⟩)
    · obtain ⟨low, isLow, high, isHigh, less⟩ := (Set.not_subsingleton_iff.mp varies).exists_lt
      rcases le_total place other with after | before
      · exact (selected isLow isHigh isOther (.inr ⟨rfl, after⟩) (.inl less)).1
      · exact (selected isLow isHigh isOther (.inl less) (.inr ⟨rfl, before⟩)).1
    · rintro low isLow high isHigh outer ⟨first, last⟩
      exact (selected isLow isHigh within (by omega) (by omega)).2
  · intro reason
    refine ⟨?_⟩
    rintro _ ⟨first, isFirst, low, isLow, rfl⟩ _ ⟨last, isLast, high, isHigh, rfl⟩ found between
    obtain ⟨middle, isMiddle, outer, rfl⟩ := exists_position ((inside isFirst).1.trans (inside isFirst).2) found
    have lower := (position_le_iff (inside isFirst) isMiddle).mp between.1
    have upper := (position_le_iff isMiddle (inside isLast)).mp between.2
    rcases reason with empty | single | ⟨isWhole, outers⟩
    · rw [empty] at isFirst
      exact isFirst.elim
    · obtain rfl := single isLow isHigh
      obtain rfl : low = outer := by omega
      exact ⟨middle, connected.out isFirst isLast ⟨by omega, by omega⟩, low, isLow, rfl⟩
    · exact ⟨middle, isWhole ▸ isMiddle, outer, outers.out isLow isHigh ⟨by omega, by omega⟩, rfl⟩

theorem positions_ordConnected_iff (inside : ∀ selection ∈ selections, selection.Inside)
    (connected : ∀ selection ∈ selections, selection.places.OrdConnected) :
    (positions selections).OrdConnected ↔ Compact selections := by
  induction selections with
  | nil => exact iff_of_true Set.ordConnected_singleton trivial
  | cons selection selections ih =>
    obtain ⟨inner, insides⟩ := List.forall_mem_cons.mp inside
    obtain ⟨run, runs⟩ := List.forall_mem_cons.mp connected
    rw [ordConnected_cons_iff inner run, ih insides runs, Compact]

variable {table : Table} {shape : ArraySpec} {subscripts : List Subscript}

theorem along_one (first last : Int) : Selection.along first last 1 = Set.Icc first last := by
  ext place
  simp only [Selection.along, stepsWithin, Int.one_pos, if_true, Set.mem_ofPred_eq, Set.mem_Icc]
  constructor
  · rintro ⟨step, within, rfl⟩
    omega
  · exact fun between => ⟨(place - first).toNat, by omega, by omega⟩

theorem connected_of? {bounds : Bounds} {subscript : Subscript}
    (contiguous : table.isContiguousSubscript subscript = true)
    (found : Selection.of? table bounds subscript = some selection) : selection.places.OrdConnected := by
  obtain ⟨⟨lower, upper, _⟩, -, found⟩ := Option.bind_eq_some_iff.mp found
  cases subscript with
  | index value =>
    obtain ⟨place, -, rfl⟩ := Option.map_eq_some_iff.mp found
    exact Set.ordConnected_singleton
  | triplet first last stride =>
    obtain ⟨⟨first, last, step⟩, isRun, rfl⟩ := Option.map_eq_some_iff.mp found
    obtain ⟨_, -, isRun⟩ := Option.bind_eq_some_iff.mp isRun
    obtain ⟨_, -, isRun⟩ := Option.bind_eq_some_iff.mp isRun
    obtain ⟨_, isStep, isRun⟩ := Option.map_eq_some_iff.mp isRun
    have isOne : table.foldInteger (stride.getD (.int 1)) = some 1 := by
      cases stride with
      | none => rfl
      | some stride => exact eq_of_beq contiguous
    cases isOne.symm.trans isStep
    cases isRun
    change (Selection.along first last 1).OrdConnected
    rw [along_one]
    exact Set.ordConnected_Icc

theorem connected_of_selections? (contiguous : ∀ subscript ∈ subscripts, table.isContiguousSubscript subscript = true)
    (found : selections? table shape subscripts = some selections) :
    ∀ selection ∈ selections, selection.places.OrdConnected := by
  fun_induction selections? table shape subscripts generalizing selections with
  | case1 =>
    cases found
    exact nofun
  | case2 bounds shape subscript subscripts ih =>
    obtain ⟨first, others⟩ := List.forall_mem_cons.mp contiguous
    obtain ⟨selection, isFirst, found⟩ := Option.bind_eq_some_iff.mp found
    obtain ⟨rest, isRest, rfl⟩ := Option.map_eq_some_iff.mp found
    exact List.forall_mem_cons.mpr ⟨connected_of? first isFirst, ih others isRest⟩
  | case3 => cases found

/-- The elements that a simply contiguous designator selects within the bounds of an array stand next to each other
exactly if a dimension is selected in part only where those behind it do not vary. -/
theorem simplyContiguous_consecutive_iff (table : Table) (id : SymbolId) (subscripts : List Subscript)
    (coindexed : Bool) (contiguous : table.isSimplyContiguous (.designator id subscripts coindexed) = true)
    (selections : List Selection)
    (found : (table.details id).object?.bind (selections? table ·.shape subscripts) = some selections)
    (inside : ∀ selection ∈ selections, selection.Inside) :
    (positions selections).OrdConnected ↔ Compact selections := by
  obtain ⟨object, -, found⟩ := Option.bind_eq_some_iff.mp found
  have subscriptwise := List.all_eq_true.mp (Bool.and_eq_true_iff.mp contiguous).2
  exact positions_ordConnected_iff inside (connected_of_selections? subscriptwise found)

/-- `REAL :: a(3, 3)` -/
def nineReals : Table :=
  ⟨#[⟨"a", .empty, .empty, .object ⟨some (.intrinsic .real 4 none), [.explicit none (.int 3), .explicit none (.int 3)],
    [], none, false⟩, Table.global, ⟨0, 1⟩⟩], #[Scope.globalScope]⟩

/-- `a(:rows, :2)` -/
def corner (rows : Int) : List Subscript :=
  [.triplet none (some (.int rows)) none, .triplet none (some (.int 2)) none]

theorem selections?_corner (rows : Int) :
    (nineReals.details ⟨0⟩).object?.bind (selections? nineReals ·.shape (corner rows)) =
      some [⟨1, 3, Set.Icc 1 rows⟩, ⟨1, 3, Set.Icc 1 2⟩] := by
  rw [← along_one, ← along_one]
  rfl

theorem simplyContiguous_consecutive_iff_columns :
    nineReals.isSimplyContiguous (.designator ⟨0⟩ (corner 3) false) = true ∧
      (positions [⟨1, 3, Set.Icc 1 3⟩, ⟨1, 3, Set.Icc 1 2⟩]).OrdConnected := by
  refine ⟨rfl, (simplyContiguous_consecutive_iff nineReals ⟨0⟩ (corner 3) false rfl _ (selections?_corner 3) ?_).mpr ?_⟩
  · simp [Selection.Inside, Set.Icc_subset_Icc_iff]
  · exact .inr (.inr ⟨rfl, .inr (.inl Set.subsingleton_singleton)⟩)

/-- `a(:2, :2)` leaves a gap between its two columns. -/
theorem simplyContiguous_not_consecutive :
    nineReals.isSimplyContiguous (.designator ⟨0⟩ (corner 2) false) = true ∧
      (nineReals.details ⟨0⟩).object?.bind (selections? nineReals ·.shape (corner 2)) =
        some [⟨1, 3, Set.Icc 1 2⟩, ⟨1, 3, Set.Icc 1 2⟩] ∧
      ¬(positions [⟨1, 3, Set.Icc 1 2⟩, ⟨1, 3, Set.Icc 1 2⟩]).OrdConnected := by
  refine ⟨rfl, selections?_corner 2, fun connected => ?_⟩
  have first : 0 ∈ positions [⟨1, 3, Set.Icc 1 2⟩, ⟨1, 3, Set.Icc 1 2⟩] :=
    ⟨1, by simp, 0, ⟨1, by simp, 0, rfl, rfl⟩, rfl⟩
  obtain ⟨place, ⟨low, high⟩, _, ⟨_, _, _, rfl, rfl⟩, same⟩ :=
    connected.out first ⟨1, by simp, 1, ⟨2, by simp, 0, rfl, rfl⟩, rfl⟩
      (show 2 ∈ Set.Icc 0 _ by simp [Selection.position])
  simp only [Selection.position] at same
  omega

end Shape

end FortranInterface
