import FortranInterface.Proofs.ArgumentMatching
import FortranInterface.Proofs.GenericResolution

/-!
The number of arguments never tells apart two procedures that accept the same list. The arguments that are given fill all
required dummy arguments, and no two of them have the same one, so their number lies between the two counts of each
procedure that accepts them.
-/

namespace FortranInterface.Call

open Arrangement Procedure

variable {table : Table} {procedure : Procedure} {actuals : Actuals}

theorem present_length (slots : Actuals) : (present slots).length = slots.countP Option.isSome := by
  rw [present, List.length_filterMap_eq_countP]
  rfl

theorem length_present_slots (fits : fitsGeneric table procedure actuals = true) :
    (present (ofActuals procedure.dummies actuals).slots).length = (present actuals).length :=
  (present_slots_perm (isComplete_iff.mpr (accepted_of_fitsGeneric fits).arranged)).length_eq

theorem present_bounds (fits : fitsGeneric table procedure actuals = true) :
    requiredCount procedure.dummies ≤ (present actuals).length ∧
      (present actuals).length ≤ procedure.dummies.length := by
  have complete := isComplete_iff.mpr (accepted_of_fitsGeneric fits).arranged
  rw [← length_present_slots fits]
  constructor
  · rw [requiredCount, present_length]
    apply countP_le_countP_of_partner (· = ·)
    · intro first second place isFirst isSecond
      rw [isFirst, isSecond]
    · intro place dummy isDummy required
      obtain ⟨index, actual, goes⟩ := exists_goesTo_of_fitsGeneric fits place dummy isDummy required
      exact ⟨place, some actual, (slots_eq_some_iff complete place actual).mpr ⟨index, goes⟩, rfl, rfl⟩
  · rw [← slots_length complete]
    exact List.length_filterMap_le _ _

/-- Two procedures that accept the same list have room for each other's required arguments, so that only the other
rules can tell them apart. -/
theorem arity_guard_sound (table : Table) (first second : Procedure) (actuals : Actuals)
    (fitsFirst : fitsGeneric table first actuals = true) (fitsSecond : fitsGeneric table second actuals = true) :
    requiredCount first.dummies ≤ second.dummies.length ∧ requiredCount second.dummies ≤ first.dummies.length ∧
    first.distinguishable second =
      (first.isFunction != second.isFunction ||
        distinguishedByCounts first.dummies second.dummies || distinguishedByCounts second.dummies first.dummies ||
        distinguishedByPassedObject first.dummies second.dummies ||
        distinguishedByOrder first.dummies second.dummies || distinguishedByOrder second.dummies first.dummies) := by
  obtain ⟨requiredFirst, roomFirst⟩ := present_bounds fitsFirst
  obtain ⟨requiredSecond, roomSecond⟩ := present_bounds fitsSecond
  have countFirst : requiredCount first.dummies ≤ second.dummies.length := by omega
  have countSecond : requiredCount second.dummies ≤ first.dummies.length := by omega
  refine ⟨countFirst, countSecond, ?_⟩
  simp [distinguishable, Nat.not_lt.mpr countFirst, Nat.not_lt.mpr countSecond]

def fillVectorInSteps : Procedure :=
  ⟨none, fillVector.dummies ++ [.ofObject "step" ⟨.scalar (.plain .integer 4), [], .in, .ofList [.optional]⟩],
    .ofList [.subroutine]⟩

/-- `k=n, a=x` can mean both procedures. -/
theorem arity_guard_sound_fillVector :
    fitsGeneric vectorAndCount fillVectorInSteps keywordsReversed = true ∧
    fitsGeneric vectorAndCount fillVector keywordsReversed = true ∧
    requiredCount fillVectorInSteps.dummies ≤ fillVector.dummies.length := by
  have fitsInSteps : fitsGeneric vectorAndCount fillVectorInSteps keywordsReversed = true := by decide
  have fits : fitsGeneric vectorAndCount fillVector keywordsReversed = true := by decide
  exact ⟨fitsInSteps, fits, (arity_guard_sound _ _ _ _ fitsInSteps fits).1⟩

end FortranInterface.Call
