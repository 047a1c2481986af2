import FortranInterface.Call.Arrangement
import FortranInterface.Call.ProcedureArgument
import FortranInterface.Procedure.Implicit

/-!
Checks of a whole reference: against an explicit interface, where every actual argument is compared
with its dummy argument, and by the rules for references through an implicit interface.
-/

namespace FortranInterface

namespace Call

open CallFault

def findingsAt (span : Option Span) (faults : List CallFault) : List CallFinding :=
  faults.map fun fault => ⟨fault, span⟩

def labelOf (dummy : Dummy) : DummyLabel :=
  ⟨dummy.name⟩

def argumentFaults (table : Table) (isElementalCall : Bool) (scope : Option ScopeId)
    (dummy : Dummy) (actual : Actual) : List CallFault :=
  match actual.value, dummy.kind with
  | .label _, .alternateReturn => []
  | .label value, _ => [labelForDummy value (labelOf dummy)]
  | .expr value, .object object =>
    dataFaults table (labelOf dummy) object value isElementalCall scope
  | .assumedType symbol, .object object =>
    when (!object.type.isAssumed) (assumedTypeActual (table.symbol symbol).name (labelOf dummy))
  | _, .procedure procedure => procedureFaults table (labelOf dummy) procedure actual
  | _, .alternateReturn => [labelExpected]

def slotFindings (table : Table) (isElementalCall : Bool) (scope : Option ScopeId) (index : Nat)
    (dummy : Dummy) : Option Actual → List CallFinding
  | some actual =>
    findingsAt actual.span (argumentFaults table isElementalCall scope dummy actual)
  | none => if dummy.isOptional then [] else [⟨missingActual dummy.name (index + 1), none⟩]

def slotsFindings (table : Table) (isElementalCall : Bool) (scope : Option ScopeId) (index : Nat) :
    List Dummy → Actuals → List CallFinding
  | dummy :: dummies, slot :: slots =>
    slotFindings table isElementalCall scope index dummy slot ++
      slotsFindings table isElementalCall scope (index + 1) dummies slots
  | _, _ => []

structure ElementalActual where
  label : String
  shape : Shape
  span : Option Span

def elementalActual? (table : Table) (dummy : Dummy) (actual : Actual) : Option ElementalActual := do
  let object ← dummy.object?
  let expr ← actual.expr?
  let typeAndShape ← table.exprTypeAndShape expr
  if object.rank > 0 || typeAndShape.rank == 0 then none
  else
    some ⟨"actual argument associated with " ++ (labelOf dummy).text, typeAndShape.shape,
      actual.span⟩

def elementalActuals (table : Table) : List Dummy → Actuals → List ElementalActual
  | dummy :: dummies, slot :: slots =>
    (slot.bind (elementalActual? table dummy)).toList ++ elementalActuals table dummies slots
  | _, _ => []

/-- The arrays of an elemental reference conform with the first one. -/
def conformanceFindings : List ElementalActual → List CallFinding
  | [] => []
  | first :: others =>
    others.filterMap fun other =>
      (Shape.mismatch? first.label other.label first.shape other.shape).map
        (⟨mismatch ·, other.span⟩)

def arrangedFindings (table : Table) (procedure : Procedure) (scope : Option ScopeId)
    (slots : Actuals) : List CallFinding :=
  slotsFindings table procedure.isElemental scope 0 procedure.dummies slots ++
    if procedure.isElemental then
      conformanceFindings (elementalActuals table procedure.dummies slots)
    else []

def checkExplicit (table : Table) (procedure : Procedure) (scope : Option ScopeId)
    (actuals : Actuals) : Arrangement :=
  let arrangement := Arrangement.ofActuals procedure.dummies actuals
  if arrangement.isComplete then
    { arrangement with findings := arrangedFindings table procedure scope arrangement.slots }
  else arrangement

/-- Whether a reference by a generic name can mean this specific procedure. Warnings do not count,
and nothing is protected. -/
def fitsGeneric (table : Table) (procedure : Procedure) (actuals : Actuals) : Bool :=
  !(checkExplicit table procedure none actuals).findings.any CallFinding.isError

def implicitFaults (procedure : Procedure) : List CallFault :=
  when procedure.isElemental elementalImplicit ++
    when procedure.isBindC bindCImplicit ++
    (match procedure.result with
      | some result => when (!result.canBeReturnedImplicitly) resultImplicit
      | none => []) ++
    procedure.dummies.filterMap fun dummy =>
      dummy.explicitReason?.map (dummyImplicit (labelOf dummy))

def inexpressible (table : Table) (actual : Actual) : List Inexpressible :=
  match actual.value with
  | .label _ => []
  | .assumedType _ => [.assumedType]
  | .expr value =>
    (match table.typeOf value with
      | some type => if type.isPolymorphic then [.polymorphic] else []
      | none => []) ++
      match value.lastSymbol? with
      | some id =>
        let symbol := table.symbol id
        let isAssumedRank := match symbol.details with
          | .object object => object.shape.isAssumedRank
          | _ => false
        (if symbol.corank > 0 then [.coarray] else []) ++
          (if isAssumedRank then [.assumedRank] else []) ++
          (if symbol.has .asynchronous then [.asynchronous] else []) ++
          (if symbol.has .volatile then [.volatile] else [])
      | none => []

def implicitArgumentFaults (table : Table) (actual : Actual) : List CallFault :=
  (actual.keyword.map keywordImplicit).toList ++
    (inexpressible table actual).map actualImplicit

def implicitFindings (table : Table) (actuals : Actuals) : List CallFinding :=
  (actuals.filterMap id).flatMap fun actual =>
    findingsAt actual.span (implicitArgumentFaults table actual)

/-- The warning that takes up the faults of a reference to an external procedure, whose definition
is known but whose interface is not explicit. -/
def wouldBeInError (findings : List CallFinding) : Message :=
  (Message.warning "if the procedure's interface were explicit, this reference would be in error"
    none).attach (findings.map CallFinding.message)

def explicitMessages (external : Bool) (findings : List CallFinding) : List Message :=
  if external && !findings.isEmpty then [wouldBeInError findings]
  else findings.map CallFinding.message

/-- What the rules for implicit interfaces find. An `external` procedure is known by its definition,
so that its own properties count too. -/
def implicitMessages (table : Table) (procedure : Procedure) (external : Bool) (actuals : Actuals) :
    List Message :=
  ((if external then findingsAt none (implicitFaults procedure) else []) ++
    implicitFindings table actuals).map CallFinding.message

/-- The messages on a reference. If an external procedure is referenced through an implicit
interface, the rules for both kinds of interface apply. -/
def check (table : Table) (procedure : Procedure) (scope : ScopeId) (external : Bool)
    (actuals : Actuals) : List Message :=
  if procedure.hasExplicitInterface then
    let arrangement := checkExplicit table procedure (some scope) actuals
    explicitMessages external arrangement.findings ++
      if external then implicitMessages table procedure true arrangement.slots else []
  else implicitMessages table procedure external actuals

end Call

end FortranInterface
