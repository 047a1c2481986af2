import Mathlib.Data.Set.Card
import Mathlib.Data.Int.Interval
import FortranInterface.Proofs.ConstantFolding

/-!
The extents of data objects and of their sections. An extent that is a literal counts the places of its dimension, and
one that is another expression does not fold; no extent is given only where a bound is missing or the computation would
leave 64-bit words.
-/

namespace FortranInterface

def Bounds.lower? : Bounds → Option Expr
  | explicit lower _ | colon lower | assumedSize lower => some (lower.getD (.int 1))
  | assumedRank => none

def Bounds.upper? : Bounds → Option Expr
  | explicit _ upper => some upper
  | _ => none

namespace Shape

open Folding (Fits foldWith)
open Table (foldInteger)
open Word (fitting fitting_eq_some_iff)

def placesBetween (first last : Int) : Set Int :=
  {place | first ≤ place ∧ place ≤ last}

/-- The steps from the first place on that do not lead beyond the last one. -/
def stepsWithin (first last stride : Int) : Set Nat :=
  {step | if 0 < stride then first + step * stride ≤ last else last ≤ first + step * stride}

theorem mul_le_iff_lt_tdiv {distance stride : Int} (positive : 0 < stride) (step : Nat) :
    step * stride ≤ distance ↔ (step : Int) < max ((distance + stride).tdiv stride) 0 := by
  by_cases reached : 0 ≤ distance + stride
  · have quotient_nonneg := Int.ediv_nonneg reached positive.le
    rw [Int.tdiv_eq_ediv_of_nonneg reached, max_eq_left quotient_nonneg, Int.lt_iff_add_one_le,
      Int.le_ediv_iff_mul_le positive, Int.add_mul, Int.one_mul]
    omega
  · have steps_nonneg := Int.mul_nonneg (Int.natCast_nonneg step) positive.le
    have quotient_nonpos : (distance + stride).tdiv stride ≤ 0 := by
      rw [← Int.neg_nonneg, ← Int.neg_tdiv]
      exact Int.tdiv_nonneg (by omega) positive.le
    omega

theorem mem_stepsWithin_iff {first last stride : Int} (moves : stride ≠ 0) (step : Nat) :
    step ∈ stepsWithin first last stride ↔ step < (max ((last - first + stride).tdiv stride) 0).toNat := by
  rw [Int.lt_toNat, stepsWithin, Set.mem_ofPred_eq]
  split
  · rename_i forward
    rw [← mul_le_iff_lt_tdiv forward]
    omega
  · rename_i backward
    have turned : (last - first + stride).tdiv stride = (first - last + -stride).tdiv (-stride) := by
      rw [Int.tdiv_neg, ← Int.neg_tdiv]
      congr 1
      omega
    rw [turned, ← mul_le_iff_lt_tdiv (by omega), Int.mul_neg]
    omega

theorem encard_stepsWithin {first last stride : Int} (moves : stride ≠ 0) :
    (stepsWithin first last stride).encard = (max ((last - first + stride).tdiv stride) 0).toNat := by
  have steps : stepsWithin first last stride =
      Finset.range (max ((last - first + stride).tdiv stride) 0).toNat := by
    ext step
    rw [mem_stepsWithin_iff moves, Finset.coe_range, Set.mem_Iio]
  rw [steps, Set.encard_coe_eq_coe_finsetCard, Finset.card_range]

theorem encard_placesBetween (first last : Int) :
    (placesBetween first last).encard = (max (last - first + 1) 0).toNat := by
  have places : placesBetween first last = Finset.Icc first last := by
    ext place
    rw [Finset.coe_Icc]
    rfl
  rw [places, Set.encard_coe_eq_coe_finsetCard, Int.card_Icc]
  congr 1
  omega

/-- Where a dimension of a designator comes from: the declared bounds of a whole object, a triplet whose missing parts
have been filled in, or the elements of a vector subscript. -/
inductive Origin where
  | declared (bounds : Bounds)
  | triplet (lower upper : Option Expr) (stride : Expr)
  | vector (index : Expr)

/-- The places that a dimension with known bounds runs through: first, last and the distance between two. -/
def Origin.run? (table : Table) : Origin → Option (Int × Int × Int)
  | declared (.explicit lower upper) =>
    (table.foldInteger (lower.getD (.int 1))).bind fun first =>
      (table.foldInteger upper).map fun last => (first, last, 1)
  | triplet lower upper stride =>
    (lower.bind table.foldInteger).bind fun first =>
      (upper.bind table.foldInteger).bind fun last => (table.foldInteger stride).map fun step => (first, last, step)
  | _ => none

def StaysInWords (first last step : Int) : Prop :=
  step ≠ 0 ∧ Fits (last - first) ∧ Fits (last - first + step) ∧ Fits ((last - first + step).tdiv step)

def measured (first last step : Int) : Option Expr :=
  if step = 0 then none
  else (fitting (last - first)).bind fun distance => (fitting (distance + step)).bind fun reach =>
    (fitting (reach.tdiv step)).bind fun extent => some (.int (max extent 0))

/-- What the extent of a dimension says about the places that it runs through. -/
inductive Origin.Gives (table : Table) : Origin → Option Expr → Prop where
  | declared {lower : Option Expr} {upper : Expr} {first last : Int} {count : Nat} :
      table.foldInteger (lower.getD (.int 1)) = some first → table.foldInteger upper = some last →
      (placesBetween first last).encard = count → Gives table (.declared (.explicit lower upper)) (some (.int count))
  | triplet {lower upper stride : Expr} {first last step : Int} {count : Nat} :
      table.foldInteger lower = some first → table.foldInteger upper = some last →
      table.foldInteger stride = some step → step ≠ 0 → (stepsWithin first last step).encard = count →
      Gives table (.triplet (some lower) (some upper) stride) (some (.int count))
  | unfolded {origin : Origin} {extent : Expr} : table.foldInteger extent = none → Gives table origin (some extent)
  | unknown {origin : Origin} : (∀ first last step, origin.run? table = some (first, last, step) →
      ¬ StaysInWords first last step) → Gives table origin none
  | vector {index : Expr} {extent : Option Expr} : table.shapeOf index = some [extent] →
      Gives table (.vector index) extent

theorem measured_of_within {first last step : Int} (within : StaysInWords first last step) :
    measured first last step = some (.int (max ((last - first + step).tdiv step) 0).toNat) := by
  obtain ⟨moves, distance, reach, extent⟩ := within
  rw [measured, if_neg moves, fitting_eq_some_iff.mpr ⟨rfl, distance⟩, Option.bind_some,
    fitting_eq_some_iff.mpr ⟨rfl, reach⟩, Option.bind_some, fitting_eq_some_iff.mpr ⟨rfl, extent⟩, Option.bind_some,
    Int.toNat_of_nonneg (Int.le_max_right _ _)]

theorem measured_of_not_within {first last step : Int} (beyond : ¬ StaysInWords first last step) :
    measured first last step = none := by
  refine Option.eq_none_iff_forall_ne_some.mpr fun found measures => beyond ?_
  obtain ⟨moves, measures⟩ := Option.ite_none_left_eq_some.mp measures
  obtain ⟨_, isDistance, measures⟩ := Option.bind_eq_some_iff.mp measures
  obtain ⟨rfl, distance⟩ := fitting_eq_some_iff.mp isDistance
  obtain ⟨_, isReach, measures⟩ := Option.bind_eq_some_iff.mp measures
  obtain ⟨rfl, reach⟩ := fitting_eq_some_iff.mp isReach
  obtain ⟨_, isExtent, -⟩ := Option.bind_eq_some_iff.mp measures
  exact ⟨moves, distance, reach, (fitting_eq_some_iff.mp isExtent).2⟩

variable {table : Table}

theorem extentBetween_eq_measured {lower : Option Expr} {upper : Expr} {first last : Int}
    (isFirst : table.foldInteger (lower.getD (.int 1)) = some first) (isLast : table.foldInteger upper = some last) :
    extentBetween table lower upper = measured first last 1 := by
  have between : extentBetween table lower upper = (fitting (last - first)).bind fun difference =>
      (fitting (difference + 1)).map fun extent => .int (max extent 0) := by
    cases lower with
    | none => cases isFirst; rw [extentBetween, isLast]
    | some lower =>
      have isFirst : table.foldInteger lower = some first := isFirst
      simp only [extentBetween, isFirst, isLast]
  rw [between, measured, if_neg Int.one_ne_zero]
  congr 1
  funext difference
  cases reach : fitting (difference + 1) with
  | none => rfl
  | some extent =>
    obtain ⟨rfl, fits⟩ := fitting_eq_some_iff.mp reach
    rw [Option.bind_some, Int.tdiv_one, reach]
    rfl

theorem extentBetween_unfolded {lower : Option Expr} {upper : Expr}
    (unknown : table.foldInteger (lower.getD (.int 1)) = none ∨ table.foldInteger upper = none) :
    ∃ extent, extentBetween table lower upper = some extent ∧ table.foldInteger extent = none := by
  cases lower with
  | none =>
    rcases unknown with unknown | unknown
    · cases unknown
    · exact ⟨upper, by simp only [extentBetween, unknown], unknown⟩
  | some lower =>
    have unknown : table.foldInteger lower = none ∨ table.foldInteger upper = none := unknown
    have difference : table.foldInteger (.binary .add (.binary .subtract upper lower) (.int 1)) = none := by
      simp only [foldInteger, Expr.binary, foldWith] at unknown ⊢
      rcases unknown with unknown | unknown <;> simp [unknown]
    simp only [extentBetween]
    split
    next isLower isUpper => simp [isLower, isUpper] at unknown
    next isUpper => exact ⟨upper, rfl, isUpper⟩
    · exact ⟨_, rfl, difference⟩

theorem gives_extentBetween (table : Table) (lower : Option Expr) (upper : Expr) :
    (Origin.declared (.explicit lower upper)).Gives table (extentBetween table lower upper) := by
  cases isFirst : table.foldInteger (lower.getD (.int 1)) with
  | none =>
    obtain ⟨extent, found, unfolded⟩ := extentBetween_unfolded (.inl isFirst)
    exact found ▸ .unfolded unfolded
  | some first =>
    cases isLast : table.foldInteger upper with
    | none =>
      obtain ⟨extent, found, unfolded⟩ := extentBetween_unfolded (.inr isLast)
      exact found ▸ .unfolded unfolded
    | some last =>
      rw [extentBetween_eq_measured isFirst isLast]
      by_cases within : StaysInWords first last 1
      · rw [measured_of_within within, Int.tdiv_one]
        exact .declared isFirst isLast (encard_placesBetween first last)
      · rw [measured_of_not_within within]
        refine .unknown fun _ _ _ run => ?_
        rw [Origin.run?, isFirst, isLast] at run
        cases run
        exact within

theorem gives_tripletExtent (table : Table) (lower upper : Option Expr) (stride : Expr) :
    (Origin.triplet lower upper stride).Gives table (tripletExtent table lower upper (table.foldInteger stride)) := by
  have unknown (missing : (Origin.triplet lower upper stride).run? table = none) :
      (Origin.triplet lower upper stride).Gives table none :=
    .unknown fun _ _ _ run => by rw [missing] at run; cases run
  cases isFirst : lower.bind table.foldInteger with
  | none =>
    rw [tripletExtent, isFirst]
    exact unknown (by rw [Origin.run?, isFirst]; rfl)
  | some first =>
    cases isLast : upper.bind table.foldInteger with
    | none =>
      rw [tripletExtent, isFirst, isLast]
      exact unknown (by rw [Origin.run?, isFirst, isLast]; rfl)
    | some last =>
      cases isStep : table.foldInteger stride with
      | none =>
        rw [tripletExtent, isFirst, isLast]
        exact unknown (by rw [Origin.run?, isFirst, isLast, isStep]; rfl)
      | some step =>
        have run : (Origin.triplet lower upper stride).run? table = some (first, last, step) := by
          rw [Origin.run?, isFirst, isLast, isStep]; rfl
        have measures : tripletExtent table lower upper (some step) = measured first last step := by
          simp only [tripletExtent, isFirst, isLast]
          rfl
        rw [measures]
        by_cases within : StaysInWords first last step
        · obtain ⟨lower, rfl, isFirst⟩ := Option.bind_eq_some_iff.mp isFirst
          obtain ⟨upper, rfl, isLast⟩ := Option.bind_eq_some_iff.mp isLast
          rw [measured_of_within within]
          exact .triplet isFirst isLast isStep within.1 (encard_stepsWithin within.1)
        · rw [measured_of_not_within within]
          refine .unknown fun _ _ _ found => ?_
          cases run.symm.trans found
          exact within

theorem gives_extentOfBounds (table : Table) (bounds : Bounds) :
    (Origin.declared bounds).Gives table (extentOfBounds table bounds) := by
  cases bounds with
  | explicit lower upper => exact gives_extentBetween table lower upper
  | _ => exact .unknown nofun

/-- A triplet takes its missing bounds from the declaration; a missing stride is 1. -/
def Origin.ofTriplet (bounds : Option Bounds) (lower upper stride : Option Expr) : Origin :=
  .triplet (lower.or (bounds.bind Bounds.lower?)) (upper.or (bounds.bind Bounds.upper?)) (stride.getD (.int 1))

/-- The dimensions of a section, from the given dimension of the object on. A scalar subscript leaves none. -/
def originsFrom (table : Table) (bounds : List Bounds) : Nat → List Subscript → List Origin
  | _, [] => []
  | dimension, .index value :: subscripts =>
    if table.rank value = some 1 then .vector value :: originsFrom table bounds (dimension + 1) subscripts
    else originsFrom table bounds (dimension + 1) subscripts
  | dimension, .triplet lower upper stride :: subscripts =>
    .ofTriplet bounds[dimension]? lower upper stride :: originsFrom table bounds (dimension + 1) subscripts

def origins (table : Table) (bounds : List Bounds) : List Subscript → List Origin
  | [] => bounds.map .declared
  | subscripts => originsFrom table bounds 0 subscripts

variable {object : ObjectDetails} {id : SymbolId}

section

variable (isObject : table.details id = .object object)
include isObject

theorem declaredBounds_of_object (dimension : Nat) :
    declaredBounds table id dimension =
      (object.shape[dimension]?.bind Bounds.lower?, object.shape[dimension]?.bind Bounds.upper?) := by
  rw [declaredBounds, isObject, Details.object?, Option.bind_some]
  rcases object.shape[dimension]? with _ | ⟨_⟩ | ⟨_⟩ | ⟨_⟩ | ⟨_⟩ <;> rfl

theorem gives_sectionExtent (dimension : Nat) (lower upper stride : Option Expr) :
    (Origin.ofTriplet object.shape[dimension]? lower upper stride).Gives table
      (sectionExtent table id dimension lower upper stride) := by
  unfold sectionExtent
  rw [declaredBounds_of_object isObject]
  cases stride <;> exact gives_tripletExtent table _ _ _

theorem gives_ofSubscripts {subscripts : List Subscript} {dimension : Nat} {shape : Shape}
    (found : ofSubscriptsWith table table.symbolShape id dimension subscripts = some shape) :
    List.Forall₂ (Origin.Gives table) (originsFrom table object.shape dimension subscripts) shape := by
  induction subscripts generalizing dimension shape with
  | nil =>
    cases found
    exact .nil
  | cons subscript subscripts ih =>
    cases subscript with
    | triplet lower upper stride =>
      obtain ⟨rest, others, rfl⟩ := Option.map_eq_some_iff.mp found
      exact .cons (gives_sectionExtent isObject dimension lower upper stride) (ih others)
    | index value =>
      have rank : table.rank value = (ofExprWith table table.symbolShape value).map List.length := rfl
      rw [ofSubscriptsWith] at found
      rw [originsFrom, rank]
      split at found
      · cases found
      next extent isShape =>
        obtain ⟨rest, others, rfl⟩ := Option.map_eq_some_iff.mp found
        rw [isShape, if_pos (by rfl)]
        exact .cons (.vector isShape) (ih others)
      next found' notVector isShape =>
        rw [isShape, if_neg]
        · exact ih found
        · intro single
          obtain ⟨extent, rfl⟩ := List.length_eq_one_iff.mp (Option.some_inj.mp single)
          exact notVector extent rfl

end

/-- Every dimension of a whole object or a section of it has an extent that is exact: a literal is the number of places
that the bounds and the stride leave, and what is not a literal does not fold. -/
theorem designator_extents_exact (table : Table) (id : SymbolId) (object : ObjectDetails)
    (isObject : table.details id = .object object) (subscripts : List Subscript) (coindexed : Bool) (shape : Shape)
    (found : table.shapeOf (.designator id subscripts coindexed) = some shape) :
    List.Forall₂ (Origin.Gives table) (origins table object.shape subscripts) shape := by
  cases subscripts with
  | cons subscript subscripts => exact gives_ofSubscripts isObject found
  | nil =>
    have found : table.symbolShape id = some shape := found
    rw [Table.symbolShape_of_object isObject] at found
    obtain ⟨-, found⟩ := Option.ite_none_left_eq_some.mp found
    cases found
    rw [origins, List.forall₂_map_left_iff, List.forall₂_map_right_iff, List.forall₂_same]
    exact fun bounds _ => gives_extentOfBounds table bounds

/-- `REAL :: a(2:9)` -/
def eightReals : Table :=
  ⟨#[⟨"a", .empty, .empty,
    .object ⟨some (.intrinsic .real 4 none), [.explicit (some (.int 2)) (.int 9)], [], none, false⟩,
    Table.global, ⟨0, 1⟩⟩], #[Scope.globalScope]⟩

/-- `a(::3)` -/
def everyThird : Expr :=
  .designator ⟨0⟩ [.triplet none none (some (.int 3))] false

theorem designator_extents_exact_everyThird :
    eightReals.shapeOf everyThird = some [some (.int 3)] ∧ (stepsWithin 2 9 3).encard = 3 := by
  have found : eightReals.shapeOf everyThird = some [some (.int 3)] := by decide +kernel
  refine ⟨found, ?_⟩
  rcases designator_extents_exact eightReals ⟨0⟩ _ rfl _ _ _ found with _ | ⟨gives, -⟩
  generalize isExtent : Expr.int 3 = extent at gives
  cases gives with
  | triplet isFirst isLast isStep _ counted =>
    cases isFirst
    cases isLast
    cases isStep
    cases isExtent
    exact counted
  | unfolded unfolded =>
    cases isExtent
    cases unfolded

end Shape

end FortranInterface
