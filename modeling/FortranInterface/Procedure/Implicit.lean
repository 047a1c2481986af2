import FortranInterface.Procedure.Basic

/-!
Which procedures can be referenced where only their name is known, and which properties of a dummy
argument or a result rule that out.
-/

namespace FortranInterface

namespace DataObject

def explicitAttributes : List (DataAttribute × String) :=
  [(.allocatable, "ALLOCATABLE"), (.asynchronous, "ASYNCHRONOUS"), (.optional, "OPTIONAL"),
    (.pointer, "POINTER"), (.target, "TARGET"), (.value, "VALUE"), (.volatile, "VOLATILE")]

def explicitShapes : List (ShapeAttribute × String) :=
  [(.assumedShape, "assumed-shape"), (.assumedRank, "assumed-rank"), (.coarray, "a coarray")]

def explicitReason? (object : DataObject) : Option String :=
  match explicitAttributes.find? fun pair => object.has pair.1 with
  | some pair => some pair.2
  | none =>
    match explicitShapes.find? fun pair => object.typeAndShape.has pair.1 with
    | some pair => some pair.2
    | none => if object.type.isPolymorphic then some "polymorphic" else none

end DataObject

namespace Dummy

def explicitReason? (dummy : Dummy) : Option String :=
  dummy.object?.bind DataObject.explicitReason?

def canBePassedImplicitly (dummy : Dummy) : Bool :=
  dummy.explicitReason?.isNone

end Dummy

namespace FunctionResult

/-- A result that a caller can take without knowing the interface: a scalar that is no pointer, of a
type whose parameters are constant. -/
def canBeReturnedImplicitly (result : FunctionResult) : Bool :=
  !(result.has .pointer || result.has .allocatable) &&
    match result.kind with
    | .data typeAndShape =>
      typeAndShape.rank == 0 &&
        match typeAndShape.type.category with
        | .character =>
          match typeAndShape.length with
          | some length => length.intLiteral?.isSome
          | none => true
        | .derived => !typeAndShape.type.isPolymorphic
        | _ => true
    | .procedurePointer _ => false

end FunctionResult

namespace Procedure

def canBeCalledImplicitly (procedure : Procedure) : Bool :=
  !(procedure.isElemental || procedure.isBindC) &&
    (match procedure.result with
      | some result => result.canBeReturnedImplicitly
      | none => true) &&
    procedure.dummies.all Dummy.canBePassedImplicitly

end Procedure

end FortranInterface
