import FortranInterface.Call.DataArgument
import FortranInterface.Procedure.Equality
import FortranInterface.Procedure.OfSymbol

/-!
Checks of an actual argument against a dummy argument that is a procedure.
-/

namespace FortranInterface

/-- A procedure that is passed as an argument. Of one that was wrongly declared the characteristics
are not known. -/
structure ProcedureActual where
  procedure : Option Procedure
  isIntrinsic : Bool
  isPointer : Bool
  spelling : String

section

variable (table : Table) (label : DummyLabel) (dummy : DummyProcedure)

open CallFault

def Callee.isIntrinsicIn : Callee → Bool
  | .intrinsic _ => true
  | .symbol id => (table.symbol id).has .intrinsic

def Callee.isPointerIn : Callee → Bool
  | .intrinsic _ => false
  | .symbol id => (table.symbol id).isPointer

/-- The procedure that an argument passes, or what is wrong with it. A null pointer passes none. -/
def procedureActual : Expr → Except (List CallFault) ProcedureActual
  | .procedure callee =>
    let isIntrinsic := callee.isIntrinsicIn table
    let name := callee.name table
    if isIntrinsic && (Intrinsic.specific? name).isNone then .error [restrictedIntrinsic name label]
    else .ok ⟨table.calleeProcedure callee, isIntrinsic, callee.isPointerIn table, name⟩
  | .call callee actuals =>
    match table.returnedProcedure callee with
    | some procedure => .ok ⟨some procedure, false, true, (Expr.call callee actuals).spelling table⟩
    | none => .error [notProcedure label]
  | .null => .error (when (!dummy.has .pointer && !dummy.has .optional) (nullForProcedure label))
  | _ => .error [notProcedure label]

/-- Where only one side has an explicit interface, functions and subroutines are still told apart,
and the types of results compared. -/
def resultFaults (expected found : Procedure) : List CallFault :=
  if expected.isFunction then
    if found.isSubroutine then [subroutineForFunction label]
    else
      match expected.result.bind FunctionResult.typeAndShape?,
        found.result.bind FunctionResult.typeAndShape? with
      | some expectedShape, some foundShape =>
        when (expectedShape.type ≠ foundShape.type)
          (resultType label foundShape.typeSpelling expectedShape.typeSpelling)
      | _, _ => []
  else when (expected.isSubroutine && found.isFunction) (functionForSubroutine label)

/-- A pure procedure may be passed where a pure one is not asked for, and an elemental intrinsic one
where an elemental one is not. -/
def matchesInterface (expected found : Procedure) (isIntrinsic : Bool) : Bool :=
  let pureRemoved := if expected.isPure then found else found.without .pure
  let expected := expected.without .nullPointer
  let found := pureRemoved.without .nullPointer
  if isIntrinsic then (expected.without .elemental).same (found.without .elemental)
  else expected.same found

def interfaceFaults (actual : ProcedureActual) (found : Procedure) : List CallFault :=
  let expected := dummy.procedure
  if found.isElemental && !actual.isIntrinsic then [elementalActual actual.spelling]
  else if expected.hasExplicitInterface then
    if found.hasExplicitInterface then
      when (!matchesInterface expected found actual.isIntrinsic)
        (procedureInterface actual.spelling label)
    else resultFaults label expected found
  else
    resultFaults label expected found ++
      when (found.isBindC && found.dummies.any Dummy.isOptional)
        (bindCOptional actual.spelling label)

def procedureFaults (actual : Actual) : List CallFault :=
  match actual.expr? with
  | none => [notProcedure label]
  | some expr =>
    match procedureActual table label dummy expr with
    | .error faults => faults
    | .ok passed =>
      when (dummy.has .pointer && dummy.intent ≠ .in && !passed.isPointer)
          (notProcedurePointer label) ++
        match passed.procedure with
        | some found => interfaceFaults label dummy passed found
        | none => []

end

end FortranInterface
