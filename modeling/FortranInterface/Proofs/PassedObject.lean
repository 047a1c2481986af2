import FortranInterface.Proofs.Arrangement
import FortranInterface.Resolution.Lookup

/-!
Where the passed object of a type-bound reference goes. It is put in front of the argument at its
index, but never behind a keyword. So it comes to its dummy argument, and every other argument to the
one that it has in the list without the passed object, exactly if enough arguments stand before the
keywords.
-/

namespace FortranInterface

namespace Arrangement

def shifted (index place : Nat) : Nat :=
  if place < index then place else place + 1

section Shifted

variable {α : Type} {values : List α} {index place : Nat}

theorem shifted_of_lt (before : place < index) : shifted index place = place :=
  if_pos before

theorem shifted_of_not_lt (behind : ¬ place < index) : shifted index place = place + 1 :=
  if_neg behind

theorem shifted_ne (index place : Nat) : shifted index place ≠ index := by
  by_cases before : place < index
  · rw [shifted_of_lt before]
    omega
  · rw [shifted_of_not_lt before]
    omega

theorem exists_shifted_of_ne (other : place ≠ index) : ∃ former, place = shifted index former := by
  by_cases before : place < index
  · exact ⟨place, (shifted_of_lt before).symm⟩
  · refine ⟨place - 1, ?_⟩
    rw [shifted_of_not_lt (by omega)]
    omega

theorem shifted_injective {former other : Nat} (same : shifted index former = shifted index other) :
    former = other := by
  simp only [shifted] at same
  split at same <;> split at same <;> omega

theorem shifted_lt_succ_iff {bound : Nat} (within : index ≤ bound) :
    shifted index place < bound + 1 ↔ place < bound := by
  by_cases before : place < index
  · rw [shifted_of_lt before]
    omega
  · rw [shifted_of_not_lt before]
    omega

theorem getElem?_eraseIdx_eq_shifted (values : List α) (index place : Nat) :
    (values.eraseIdx index)[place]? = values[shifted index place]? := by
  rw [List.getElem?_eraseIdx, shifted]
  split <;> rfl

theorem getElem?_insertIdx_shifted (values : List α) (value : α) (index place : Nat) :
    (values.insertIdx index value)[shifted index place]? = values[place]? := by
  by_cases before : place < index
  · rw [shifted_of_lt before, List.getElem?_insertIdx_of_lt before]
  · rw [shifted_of_not_lt before, List.getElem?_insertIdx_of_gt (by omega), Nat.add_sub_cancel]

end Shifted

section Names

variable {dummies : List Dummy} {keyword : String} {index place : Nat}

theorem placeOf?_eq_some_iff (distinct : (dummies.map Dummy.name).Nodup) :
    placeOf? dummies keyword = some place ↔
      ∃ dummy, dummies[place]? = some dummy ∧ dummy.name.isEmpty = false ∧ dummy.name = keyword := by
  rw [placeOf?, List.findIdx?_eq_some_iff_getElem]
  simp only [Bool.and_eq_true, Bool.not_eq_true', beq_iff_eq]
  constructor
  · rintro ⟨bound, named, -⟩
    exact ⟨dummies[place], List.getElem?_eq_getElem bound, named⟩
  · rintro ⟨dummy, present, named⟩
    obtain ⟨bound, rfl⟩ := List.getElem?_eq_some_iff.mp present
    refine ⟨bound, named, fun earlier before namedEarlier => ?_⟩
    rw [List.Nodup, List.pairwise_map, List.pairwise_iff_getElem] at distinct
    exact distinct earlier place _ bound before (namedEarlier.2.trans named.2.symm)

theorem placeOf?_shifted (distinct : (dummies.map Dummy.name).Nodup)
    (found : placeOf? (dummies.eraseIdx index) keyword = some place) :
    placeOf? dummies keyword = some (shifted index place) := by
  have distinctOthers : ((dummies.eraseIdx index).map Dummy.name).Nodup :=
    distinct.sublist ((List.eraseIdx_sublist dummies index).map Dummy.name)
  rw [placeOf?_eq_some_iff distinctOthers, getElem?_eraseIdx_eq_shifted] at found
  exact (placeOf?_eq_some_iff distinct).mpr found

end Names

section Passed

variable {dummies : List Dummy} {actuals : Actuals} {object : Expr} {span : Span} {index : Nat}

def passed (object : Expr) (span : Span) : Actual :=
  ⟨none, .expr object, true, some span⟩

theorem split_insertIdx (object : Expr) (span : Span) (within : index ≤ (positional actuals).length) :
    positional (actuals.insertIdx index (some (passed object span))) =
        (positional actuals).insertIdx index (some (passed object span)) ∧
      keywordPart (actuals.insertIdx index (some (passed object span))) = keywordPart actuals := by
  induction actuals generalizing index with
  | nil =>
    obtain rfl : index = 0 := Nat.le_zero.mp within
    exact ⟨rfl, rfl⟩
  | cons slot actuals ih =>
    cases index with
    | zero => exact ⟨rfl, rfl⟩
    | succ index =>
      cases byPlace : isPositional slot with
      | false => simp [positional, byPlace] at within
      | true =>
        have whole : positional (slot :: actuals) = slot :: positional actuals :=
          List.takeWhile_cons_of_pos byPlace
        rw [whole, List.length_cons, Nat.add_le_add_iff_right] at within
        obtain ⟨early, late⟩ := ih within
        rw [List.insertIdx_succ_cons, whole, List.insertIdx_succ_cons, ← early]
        refine ⟨List.takeWhile_cons_of_pos byPlace, ?_⟩
        simpa [keywordPart, byPlace] using late

theorem length_positional_insertIdx (object : Expr) (span : Span) (within : index ≤ (positional actuals).length) :
    (positional (actuals.insertIdx index (some (passed object span)))).length = (positional actuals).length + 1 := by
  rw [(split_insertIdx object span within).1, List.length_insertIdx_of_le_length within]

theorem positional_length_le (actuals : Actuals) : (positional actuals).length ≤ actuals.length :=
  (List.takeWhile_prefix isPositional).length_le

theorem goesTo_passed (dummies : List Dummy) (object : Expr) (span : Span)
    (within : index ≤ (positional actuals).length) :
    GoesTo dummies (actuals.insertIdx index (some (passed object span))) index index (passed object span) := by
  refine goesTo_of_lt ?_ ?_
  · rw [length_positional_insertIdx object span within]
    omega
  · rw [List.getElem?_insertIdx_self, if_pos (Nat.le_trans within (positional_length_le actuals))]

theorem goesTo_insertIdx (object : Expr) (span : Span)
    (distinct : (dummies.map Dummy.name).Nodup) (within : index ≤ (positional actuals).length)
    {former place : Nat} {actual : Actual} (goes : GoesTo (dummies.eraseIdx index) actuals former place actual) :
    GoesTo dummies (actuals.insertIdx index (some (passed object span))) (shifted index former)
      (shifted index place) actual := by
  rw [goesTo_iff] at goes ⊢
  rw [length_positional_insertIdx object span within, getElem?_insertIdx_shifted, shifted_lt_succ_iff within]
  obtain ⟨given, ⟨before, rfl⟩ | ⟨behind, keyword, named, found⟩⟩ := goes
  · exact ⟨given, .inl ⟨before, rfl⟩⟩
  · exact ⟨given, .inr ⟨behind, keyword, named, placeOf?_shifted distinct found⟩⟩

theorem matches_insertIdx (object : Expr) (span : Span)
    (distinct : (dummies.map Dummy.name).Nodup) (bound : index < dummies.length)
    (within : index ≤ (positional actuals).length) (fits : Matches (dummies.eraseIdx index) actuals) :
    Matches dummies (actuals.insertIdx index (some (passed object span))) := by
  obtain ⟨early, late⟩ := split_insertIdx object span within
  constructor
  · have short := fits.short
    rw [List.length_eraseIdx_of_lt bound] at short
    rw [length_positional_insertIdx object span within]
    omega
  · rw [late]
    exact fits.keyed
  · rw [late]
    exact fits.distinct
  · rw [early, late]
    intro keyword used
    obtain ⟨place, found, vacant⟩ := fits.vacant keyword used
    refine ⟨shifted index place, placeOf?_shifted distinct found, fun actual => ?_⟩
    rw [getElem?_insertIdx_shifted]
    exact vacant actual

theorem passObject_of_le (within : index ≤ (positional actuals).length) :
    Table.passObject object span actuals (some index) = actuals.insertIdx index (some (passed object span)) :=
  congrArg (actuals.insertIdx · _) (Nat.min_eq_left within)

theorem passObject_of_few (few : (positional actuals).length < index) :
    Table.passObject object span actuals (some index) =
      actuals.insertIdx (positional actuals).length (some (passed object span)) :=
  congrArg (actuals.insertIdx · _) (Nat.min_eq_right (Nat.le_of_lt few))

section Complete

variable (object : Expr) (span : Span) (distinct : (dummies.map Dummy.name).Nodup)
  (bound : index < dummies.length)
  (complete : (ofActuals (dummies.eraseIdx index) actuals).isComplete = true)
include distinct bound complete

variable (within : index ≤ (positional actuals).length)
include within

theorem isComplete_insertIdx :
    (ofActuals dummies (actuals.insertIdx index (some (passed object span)))).isComplete = true :=
  isComplete_iff.mpr (matches_insertIdx object span distinct bound within (isComplete_iff.mp complete))

theorem slots_insertIdx_eq_some_iff (place : Nat) (actual : Actual) :
    (ofActuals dummies (actuals.insertIdx index (some (passed object span)))).slots[shifted index
        place]? = some (some actual) ↔
      (ofActuals (dummies.eraseIdx index) actuals).slots[place]? = some (some actual) := by
  have completeWhole := isComplete_insertIdx object span distinct bound complete within
  rw [slots_eq_some_iff completeWhole, slots_eq_some_iff complete]
  constructor
  · rintro ⟨position, goes⟩
    by_cases isPassed : position = index
    · subst isPassed
      exact absurd (goes.place_eq (goesTo_passed dummies object span within)) (shifted_ne _ _)
    · obtain ⟨former, rfl⟩ := exists_shifted_of_ne isPassed
      have given := goes.1
      rw [getElem?_insertIdx_shifted] at given
      obtain ⟨formerPlace, -, goesBefore⟩ := (isComplete_iff.mp complete).exists_goesTo given
      have places := goes.place_eq (goesTo_insertIdx object span distinct within goesBefore)
      obtain rfl := shifted_injective places
      exact ⟨former, goesBefore⟩
  · rintro ⟨former, goes⟩
    exact ⟨_, goesTo_insertIdx object span distinct within goes⟩

theorem slots_insertIdx :
    (ofActuals dummies (actuals.insertIdx index (some (passed object span)))).slots =
      (ofActuals (dummies.eraseIdx index) actuals).slots.insertIdx index (some (passed object span)) := by
  have completeWhole := isComplete_insertIdx object span distinct bound complete within
  have length := slots_length complete
  rw [List.length_eraseIdx_of_lt bound] at length
  have inside : index ≤ (ofActuals (dummies.eraseIdx index) actuals).slots.length := by omega
  refine slots_ext ?_ fun place actual => ?_
  · rw [slots_length completeWhole, List.length_insertIdx_of_le_length inside]
    omega
  · by_cases isPassed : place = index
    · subst isPassed
      have goes := goesTo_passed dummies object span within
      have held := (slots_eq_some_iff completeWhole place _).mpr ⟨place, goes⟩
      rw [held, List.getElem?_insertIdx_self, if_pos inside]
    · obtain ⟨former, rfl⟩ := exists_shifted_of_ne isPassed
      rw [getElem?_insertIdx_shifted]
      exact slots_insertIdx_eq_some_iff object span distinct bound complete within former actual

end Complete

end Passed

end Arrangement

open Arrangement

/-- The passed object comes to its dummy argument, and every other argument to the one that it has in
the list without the passed object, exactly if no dummy argument before that of the passed object
goes without a positional argument. -/
theorem passed_object_arranged_iff (dummies : List Dummy) (actuals : Actuals) (index : Nat)
    (object : Expr) (span : Span) (distinct : (dummies.map Dummy.name).Nodup)
    (bound : index < dummies.length)
    (complete : (ofActuals (dummies.eraseIdx index) actuals).isComplete = true) :
    (let whole := ofActuals dummies (Table.passObject object span actuals (some index))
     whole.isComplete = true ∧
      whole.slots = (ofActuals (dummies.eraseIdx index) actuals).slots.insertIdx index
        (some ⟨none, .expr object, true, some span⟩)) ↔
      index ≤ (positional actuals).length := by
  constructor
  · rintro ⟨completeWhole, slots⟩
    refine Nat.le_of_not_lt fun few => ?_
    rw [passObject_of_few few] at completeWhole slots
    have goes := goesTo_passed dummies object span (Nat.le_refl (positional actuals).length)
    have held := (slots_eq_some_iff completeWhole _ _).mpr ⟨_, goes⟩
    -- so the passed object would have been in the shorter list already, and by keyword
    rw [slots, List.getElem?_insertIdx_of_lt few, slots_eq_some_iff complete] at held
    obtain ⟨position, goesBefore⟩ := held
    obtain ⟨-, ⟨early, same⟩ | ⟨-, keyword, named, -⟩⟩ := goesTo_iff.mp goesBefore
    · omega
    · cases named
  · intro within
    rw [passObject_of_le within]
    exact ⟨isComplete_insertIdx object span distinct bound complete within,
      slots_insertIdx object span distinct bound complete within⟩

/-- Dummy arguments `a`, `self` and `b`, of which the second takes the passed object. -/
def objectBetween : List Dummy :=
  ["a", "self", "b"].map fun name => .ofObject name (.ofTypeAndShape (.scalar (.plain .integer 4)))

def oneAs (keyword : Option String) : Option Actual :=
  some ⟨keyword, .expr (.literal (.integer 1 4)), false, none⟩

/-- `x%s(1, b=1)` -/
theorem passed_object_arranged_positional :
    (objectBetween.map Dummy.name).Nodup ∧
    (ofActuals (objectBetween.eraseIdx 1) [oneAs none, oneAs "b"]).isComplete = true ∧
    (ofActuals objectBetween
        (Table.passObject (.whole ⟨0⟩) ⟨0, 1⟩ [oneAs none, oneAs "b"] (some 1))).slots =
      [oneAs none, some ⟨none, .expr (.whole ⟨0⟩), true, some ⟨0, 1⟩⟩, oneAs "b"] := by
  have distinct : (objectBetween.map Dummy.name).Nodup := by decide
  have complete : (ofActuals (objectBetween.eraseIdx 1) [oneAs none, oneAs "b"]).isComplete = true := by decide
  have arranged := (passed_object_arranged_iff objectBetween [oneAs none, oneAs "b"] 1 (.whole ⟨0⟩)
    ⟨0, 1⟩ distinct (by decide) complete).mpr (by decide)
  exact ⟨distinct, complete, arranged.2⟩

/-- `x%s(a=1)`: the passed object takes the place of `a`. -/
theorem passed_object_misplaced_keyword :
    (ofActuals (objectBetween.eraseIdx 1) [oneAs "a"]).isComplete = true ∧
    (ofActuals objectBetween
        (Table.passObject (.whole ⟨0⟩) ⟨0, 1⟩ [oneAs "a"] (some 1))).findings =
      [⟨.keywordAfterPositional "a" 1, none⟩] := by
  decide

end FortranInterface
