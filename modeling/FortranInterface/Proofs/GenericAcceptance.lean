import FortranInterface.Proofs.AssociatedDefinability
import FortranInterface.Proofs.ExplicitCheck
import FortranInterface.Proofs.ExternalCheck

/-!
Generic references and ordinary ones are checked by the same rules but for one: where no scope is given, nothing is
protected. What is found without a scope is what is found in any scope less the protected arguments, so that a specific
procedure is accepted exactly if a reference to it in that scope has no other errors.
-/

namespace FortranInterface

namespace CallFault

def isProtection : CallFault → Bool
  | indefinable _ _ (.protectedHere _) => true
  | _ => false

def unprotected (faults : List CallFault) : List CallFault :=
  faults.filter (!·.isProtection)

@[simp] theorem unprotected_append (first second : List CallFault) :
    unprotected (first ++ second) = unprotected first ++ unprotected second :=
  List.filter_append ..

theorem Allows.unprotected_eq {faults : List CallFault} (allows : Allows faults) : unprotected faults = faults := by
  refine List.filter_eq_self.mpr fun fault member => ?_
  have notRefused := List.filterMap_eq_nil_iff.mp allows fault member
  cases fault with
  | indefinable => cases notRefused
  | _ => rfl

end CallFault

section Faults

open CallFault

variable (table : Table) (label : DummyLabel) (dummy : DataObject) (expr : Expr) (isElemental : Bool) (scope : ScopeId)

theorem indefinable?_none :
    indefinable? table expr none = (indefinable? table expr (some scope)).filter fun reason =>
      !(indefinable dummy.intent label reason).isProtection := by
  rw [indefinable?, indefinable?]
  split
  · rfl
  · cases expr.lastSymbol? with
    | none => rfl
    | some id =>
      simp only [Option.bind_some]
      split
      · rfl
      · simp only [Option.map_none, Option.getD_none, Bool.false_eq_true, ↓reduceIte]
        split <;> rfl

theorem definabilityFaults_none :
    definabilityFaults table label dummy expr isElemental none =
      unprotected (definabilityFaults table label dummy expr isElemental (some scope)) := by
  have vector (condition : Bool) :
      unprotected (when condition (vectorSubscript dummy.intent label)) = when condition (vectorSubscript dummy.intent label) :=
    Allows.unprotected_eq (by simp [refused?])
  have asynchronous (condition : Bool) :
      unprotected (when condition (asynchronousVectorSubscript label)) = when condition (asynchronousVectorSubscript label) :=
    Allows.unprotected_eq (by simp [refused?])
  rw [definabilityFaults, definabilityFaults, unprotected_append, asynchronous]
  congr 1
  split
  · rw [unprotected_append, vector, indefinable?_none table label dummy expr scope]
    congr 1
    cases indefinable? table expr (some scope) with
    | none => rfl
    | some reason => cases reason <;> rfl
  · rfl

theorem allows_resultFaults (expected found : Procedure) : Allows (resultFaults label expected found) := by
  rw [resultFaults]
  split
  · split
    · simp [refused?]
    · split <;> simp [refused?]
  · simp [refused?]

theorem allows_procedureFaults (passed : DummyProcedure) (actual : Actual) :
    Allows (procedureFaults table label passed actual) := by
  rw [procedureFaults]
  split
  · simp [refused?]
  · split
    next faults failed =>
      revert failed
      unfold procedureActual
      grind [allows_cons, allows_nil, allows_when, refused?]
    · refine allows_append.mpr ⟨by simp [refused?], ?_⟩
      split
      · rw [interfaceFaults]
        split
        · simp [refused?]
        · split
          · split
            · simp [refused?]
            · exact allows_resultFaults label _ _
          · exact allows_append.mpr ⟨allows_resultFaults label _ _, by simp [refused?]⟩
      · exact allows_nil

theorem dataFaults_none (isElementalCall : Bool) :
    dataFaults table label dummy expr isElementalCall none =
      unprotected (dataFaults table label dummy expr isElementalCall (some scope)) := by
  rw [dataFaults.eq_def, dataFaults.eq_def]
  split
  · exact (Allows.unprotected_eq (by simp [refused?])).symm
  · refine (Allows.unprotected_eq ?_).symm
    rw [nullFaults]
    split <;> simp [refused?]
  · exact (Allows.unprotected_eq (by simp [refused?])).symm
  · split
    · exact (Allows.unprotected_eq (by simp [refused?])).symm
    · simp only [unprotected_append, ← definabilityFaults_none, (allows_typeFaults _ _ _ _ _ _).unprotected_eq,
        (allows_wholeFaults _ _ _ _).unprotected_eq, (allows_contiguityFaults _ _ _ _ _).unprotected_eq,
        (allows_allocatableFaults _ _ _ _ _).unprotected_eq, (allows_pointerFaults _ _ _ _).unprotected_eq,
        (allows_declaredTypeFaults _ _ _ _).unprotected_eq, (allows_targetFaults _ _ _ _).unprotected_eq,
        (allows_lengthFaults _ _ _ _).unprotected_eq]

end Faults

namespace Call

open CallFault Arrangement

variable {table : Table} {procedure : Procedure} {scope : ScopeId} {actuals : Actuals}

def unprotectedFindings (findings : List CallFinding) : List CallFinding :=
  findings.filter (!·.fault.isProtection)

theorem argumentFaults_none (scope : ScopeId) (isElementalCall : Bool) (dummy : Dummy) (actual : Actual) :
    argumentFaults table isElementalCall none dummy actual =
      unprotected (argumentFaults table isElementalCall (some scope) dummy actual) := by
  rw [argumentFaults.eq_def, argumentFaults.eq_def]
  split
  · rfl
  · rfl
  · exact dataFaults_none ..
  · exact (Allows.unprotected_eq (by simp [refused?])).symm
  · exact (allows_procedureFaults ..).unprotected_eq.symm
  · rfl

theorem slotsFindings_none (scope : ScopeId) (isElementalCall : Bool) (index : Nat) (dummies : List Dummy) (slots : Actuals) :
    slotsFindings table isElementalCall none index dummies slots =
      unprotectedFindings (slotsFindings table isElementalCall (some scope) index dummies slots) := by
  induction dummies generalizing index slots with
  | nil => rfl
  | cons dummy dummies ih =>
    cases slots with
    | nil => rfl
    | cons slot slots =>
      rw [slotsFindings, slotsFindings, unprotectedFindings, List.filter_append, ih]
      congr 1
      cases slot with
      | some actual =>
        rw [slotFindings, slotFindings, argumentFaults_none scope, findingsAt, findingsAt, List.filter_map]
        rfl
      | none =>
        rw [slotFindings, slotFindings]
        split <;> rfl

theorem unprotected_conformanceFindings (arrays : List ElementalActual) :
    unprotectedFindings (conformanceFindings arrays) = conformanceFindings arrays := by
  refine List.filter_eq_self.mpr fun finding member => ?_
  cases arrays with
  | nil => cases member
  | cons first others =>
    obtain ⟨other, -, found⟩ := List.mem_filterMap.mp member
    obtain ⟨reason, -, rfl⟩ := Option.map_eq_some_iff.mp found
    rfl

theorem findings_none (scope : ScopeId) :
    (checkExplicit table procedure none actuals).findings =
      unprotectedFindings (checkExplicit table procedure (some scope) actuals).findings := by
  rw [checkExplicit, checkExplicit]
  split
  · simp only [arrangedFindings]
    rw [unprotectedFindings, List.filter_append, slotsFindings_none scope]
    congr 1
    split
    · exact (unprotected_conformanceFindings _).symm
    · rfl
  · refine (List.filter_eq_self.mpr fun finding member => ?_).symm
    have isMisplaced := isMisplaced_of_mem_ofActuals member
    obtain ⟨fault, span⟩ := finding
    cases fault with
    | indefinable => cases isMisplaced
    | _ => rfl

theorem fitsGeneric_iff (scope : ScopeId) :
    fitsGeneric table procedure actuals = true ↔
      ∀ finding ∈ (checkExplicit table procedure (some scope) actuals).findings,
        finding.isError = true → finding.fault.isProtection = true := by
  rw [fitsGeneric, Bool.not_eq_true', List.any_eq_false, findings_none scope]
  simp only [unprotectedFindings, List.mem_filter]
  grind

/-- The part of the messages on a reference that comes from the rules for implicit interfaces. It is empty if the
interface is explicit and the procedure not external. -/
def implicitShare (table : Table) (procedure : Procedure) (scope : ScopeId) (external : Bool) (actuals : Actuals) :
    List Message :=
  if procedure.hasExplicitInterface then
    if external then implicitMessages table procedure true (checkExplicit table procedure (some scope) actuals).slots
    else []
  else implicitMessages table procedure external actuals

theorem protection_of_mem_check {external : Bool} {message : Message}
    (fits : fitsGeneric table procedure actuals = true)
    (member : message ∈ check table procedure scope external actuals) (fatal : message.isFatal = true) :
    message ∈ implicitShare table procedure scope external actuals ∨
      ∃ finding ∈ (checkExplicit table procedure (some scope) actuals).findings,
        finding.fault.isProtection = true ∧ message = finding.message := by
  rw [check] at member
  rw [implicitShare]
  split at member
  next explicit =>
    rw [if_pos explicit]
    rcases List.mem_append.mp member with ofExplicit | ofImplicit
    · rw [explicitMessages] at ofExplicit
      split at ofExplicit
      · -- The warning that takes up all faults is no error.
        obtain rfl := List.mem_singleton.mp ofExplicit
        cases fatal
      · obtain ⟨finding, found, rfl⟩ := List.mem_map.mp ofExplicit
        exact .inr ⟨finding, found, (fitsGeneric_iff scope).mp fits finding found fatal, rfl⟩
    · exact .inl ofImplicit
  next implicit =>
    rw [if_neg implicit]
    exact .inl member

/-- Without a scope the same arguments stand in the same places, and all is found that is found in any scope but that
an argument is protected. Through an explicit interface a specific procedure is therefore accepted exactly if a
reference to it has no errors but these; otherwise the rules for implicit interfaces may add some. -/
theorem generic_match_differs_by_protection (table : Table) (procedure : Procedure) (scope : ScopeId)
    (actuals : Actuals) :
    (checkExplicit table procedure none actuals).slots = (checkExplicit table procedure (some scope) actuals).slots ∧
    (checkExplicit table procedure none actuals).findings =
      unprotectedFindings (checkExplicit table procedure (some scope) actuals).findings ∧
    (procedure.hasExplicitInterface = true →
      check table procedure scope false actuals =
        (checkExplicit table procedure (some scope) actuals).findings.map CallFinding.message) ∧
    (fitsGeneric table procedure actuals = true ↔
      ∀ finding ∈ (checkExplicit table procedure (some scope) actuals).findings,
        finding.isError = true → finding.fault.isProtection = true) ∧
    (fitsGeneric table procedure actuals = true →
      ∀ external, ∀ message ∈ check table procedure scope external actuals, message.isFatal = true →
        message ∈ implicitShare table procedure scope external actuals ∨
          ∃ finding ∈ (checkExplicit table procedure (some scope) actuals).findings,
            finding.fault.isProtection = true ∧ message = finding.message) := by
  refine ⟨by rw [slots_checkExplicit, slots_checkExplicit], findings_none scope, fun explicit => ?_, fitsGeneric_iff scope,
    fun fits external message member fatal => protection_of_mem_check fits member fatal⟩
  rw [check, if_pos explicit]
  exact List.append_nil _

/-- A module with `INTEGER, PROTECTED :: n`, and a main program. -/
def protectedCount : Table :=
  ⟨#[⟨"n", .ofList [.protected], .empty, .object ⟨some (.intrinsic .integer 4 none), [], [], none, false⟩, ⟨1⟩, ⟨0, 1⟩⟩],
    #[.globalScope, ⟨.module, some "m", some ⟨0⟩, none, false, .empty⟩,
      ⟨.mainProgram, some "p", some ⟨0⟩, none, false, .empty⟩]⟩

/-- The specific procedure is accepted, and what the main program does wrong is to define a protected variable. -/
theorem generic_match_protectedCount :
    definesInteger.hasExplicitInterface = true ∧
    fitsGeneric protectedCount definesInteger (wholeActual ⟨0⟩) = true ∧
    (check protectedCount definesInteger ⟨2⟩ false (wholeActual ⟨0⟩)).length = 1 ∧
    ∀ finding ∈ (checkExplicit protectedCount definesInteger (some ⟨2⟩) (wholeActual ⟨0⟩)).findings,
      finding.isError = true → finding.fault.isProtection = true := by
  have fits : fitsGeneric protectedCount definesInteger (wholeActual ⟨0⟩) = true := by decide
  obtain ⟨-, -, -, accepted, -⟩ :=
    generic_match_differs_by_protection protectedCount definesInteger ⟨2⟩ (wholeActual ⟨0⟩)
  exact ⟨by decide, fits, by decide +kernel, accepted.mp fits⟩

/-- An external procedure that would be accepted is in error for a keyword, and one with an implicit interface is
referenced without error but not accepted. -/
theorem generic_match_differs_implicit :
    (fitsGeneric .empty takesScalar (oneKeyword "a") = true ∧
      (checkExplicit .empty takesScalar (some Table.global) (oneKeyword "a")).findings = [] ∧
      (check .empty takesScalar Table.global true (oneKeyword "a")).any Message.isFatal = true) ∧
    check .empty { takesScalar with attributes := .ofList [.implicitInterface] } Table.global false [] = [] ∧
    fitsGeneric .empty { takesScalar with attributes := .ofList [.implicitInterface] } [] = false := by
  refine ⟨by decide, ?_, by decide⟩
  rfl

end Call

end FortranInterface
