import Mathlib.Data.List.Basic
import FortranInterface.Analysis.Program
import FortranInterface.Proofs.ProcedureEquality

/-!
What a report tells of the interfaces of a program. Every pair of specific procedures that some generic cannot tell
apart is in it once, and so is every reference that suggests another interface than the first reference to the same
procedure does.
-/

namespace FortranInterface

namespace Finding

end Finding

namespace ResolvedProgram

/-- The findings that a grading leaves in the report, each with its diagnostic. -/
def shown (program : ResolvedProgram) (checks : Checks) (grading : Grading) : List (Finding × Diagnostic) :=
  (program.analysis checks).filterMap fun finding => (grading.diagnostic? program.table finding).map (finding, ·)

variable (program : ResolvedProgram) (checks : Checks) (grading : Grading)

end ResolvedProgram

/-! Generics. -/

namespace Analysis

section

variable {α β : Type}

variable [DecidableEq β] (key : α → β)

end

variable {table : Table} {first second : SymbolId} {procedure : Procedure} {generic : GenericDetails}

/-- The interface that a reference suggests for a symbol; only a reference to the symbol suggests one. -/
def suggestion? (table : Table) (id : SymbolId) (reference : Reference) : Option InferredInterface :=
  if reference.callee = .symbol id then inferred? table reference else none

/-- A reference suggests another interface for its procedure than the first one that suggested any. -/
structure Disagreement where
  procedure : SymbolId
  found : InferredInterface
  first : InferredInterface
  span : Span

def Disagreement.finding (disagreement : Disagreement) : Finding :=
  ⟨.distinctReference disagreement.procedure disagreement.found disagreement.first, disagreement.span⟩

/-- What is known is what the first references that suggest anything do suggest. -/
def Remembers (table : Table) (before : List Reference) (known : Inferred) : Prop :=
  ∀ id procedure, table.procedure id = some procedure → procedure.hasExplicitInterface = false →
    known.lookup id = before.findSome? (suggestion? table id)

variable {before middle : List Reference} {known : Inferred} {reference : Reference}

theorem callee_of_referenced? {id : SymbolId} (isReferenced : referenced? table reference = some (id, procedure)) :
    reference.callee = .symbol id ∧ table.procedure id = some procedure := by
  unfold referenced? at isReferenced
  split at isReferenced
  next isCallee =>
    obtain ⟨_, isProcedure, same⟩ := Option.map_eq_some_iff.mp isReferenced
    cases same
    exact ⟨isCallee, isProcedure⟩
  · cases isReferenced

theorem Remembers.remember (remembers : Remembers table before known) :
    Remembers table (before ++ [reference]) (remember table known reference) := by
  intro id procedure isProcedure isImplicit
  rw [List.findSome?_append, ← remembers id procedure isProcedure isImplicit, List.findSome?_singleton, suggestion?,
    Analysis.remember]
  split
  next other found isReferenced =>
    obtain ⟨isCallee, isFound⟩ := callee_of_referenced? isReferenced
    rw [isCallee]
    by_cases isSame : other = id
    · subst isSame
      obtain rfl := Option.some.inj (isFound.symm.trans isProcedure)
      rw [isImplicit, if_pos rfl]
      cases isKnown : known.lookup other with
      | some => simp [isKnown]
      | none => cases inferred? table reference <;> simp [isKnown]
    · have isOther : ¬Callee.symbol other = .symbol id := fun same => isSame (Callee.symbol.inj same)
      rw [if_neg isOther, Option.or_none]
      have differs : (id == other) = false := beq_eq_false_iff_ne.mpr (Ne.symm isSame)
      split
      · rfl
      · cases inferred? table reference <;> simp [List.lookup_cons, differs]
  next isReferenced =>
    have isOther : ¬reference.callee = .symbol id := by
      intro isCallee
      simp [referenced?, isCallee, isProcedure] at isReferenced
    rw [if_neg isOther, Option.or_none]

variable {checks : Checks}

variable {references : List Reference}

end Analysis

namespace ResolvedProgram

open Analysis

variable (program : ResolvedProgram) (checks : Checks) (grading : Grading)

end ResolvedProgram

end FortranInterface
