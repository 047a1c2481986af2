import FortranInterface.Procedure.OfSymbol

/-!
The interface that a reference suggests for a procedure whose own interface is not known.
-/

namespace FortranInterface

namespace Table

def dummyOfExpr (table : Table) (name : String) : Expr → Option Dummy
  | .boz _ | .null => some (.ofObject name (.ofTypeAndShape (.scalar .typeless)))
  | .procedure callee =>
    (table.calleeProcedure callee).map fun procedure =>
      .ofProcedure name (.ofProcedure procedure)
  | expr =>
    (table.exprTypeAndShape expr).map fun typeAndShape =>
      .ofObject name (.ofTypeAndShape typeAndShape)

def dummyOfActual (table : Table) (name : String) (actual : Actual) : Option Dummy :=
  match actual.value with
  | .expr value => table.dummyOfExpr name value
  | .assumedType symbol =>
    (table.objectTypeAndShape symbol).map fun typeAndShape =>
      .ofObject name (.ofTypeAndShape { typeAndShape with type := .assumed })
  | .label _ => some .alternateReturn

def dummiesOfActuals (table : Table) (place : Nat) : Actuals → Option (List Dummy)
  | [] => some []
  | none :: _ => none
  | some actual :: actuals =>
    (table.dummyOfActual ("x" ++ toString place) actual).bind fun dummy =>
      (table.dummiesOfActuals (place + 1) actuals).map (dummy :: ·)

/-- The interface that a reference suggests. That of a function needs a type for its result. -/
def inferredProcedure (table : Table) (callee : Callee) (actuals : Actuals) (isFunction : Bool) :
    Option Procedure :=
  (table.dummiesOfActuals 1 actuals).bind fun dummies =>
    if isFunction then
      (callee.symbol?.bind table.symbolType).map fun type =>
        ⟨some (.ofType type), dummies, .ofList [.implicitInterface]⟩
    else some ⟨none, dummies, .ofList [.implicitInterface, .subroutine]⟩

end Table

end FortranInterface
