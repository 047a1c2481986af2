import FortranInterface.Procedure.Basic

/-!
When two procedures have the same characteristics. The names of dummy arguments, and which of them
takes the passed object, make no difference.
-/

namespace FortranInterface

mutual

def Procedure.same : Procedure → Procedure → Bool
  | ⟨result, dummies, attributes⟩, ⟨result', dummies', attributes'⟩ =>
    sameResults result result' && sameDummies dummies dummies' &&
      decide (attributes = attributes')

def FunctionResult.same : FunctionResult → FunctionResult → Bool
  | ⟨attributes, kind⟩, ⟨attributes', kind'⟩ =>
    decide (attributes = attributes') && kind.same kind'

def ResultKind.same : ResultKind → ResultKind → Bool
  | .data typeAndShape, .data typeAndShape' => decide (typeAndShape = typeAndShape')
  | .procedurePointer procedure, .procedurePointer procedure' => procedure.same procedure'
  | _, _ => false

def Dummy.same : Dummy → Dummy → Bool
  | ⟨_, _, kind⟩, ⟨_, _, kind'⟩ => kind.same kind'

def DummyKind.same : DummyKind → DummyKind → Bool
  | .object object, .object object' => decide (object = object')
  | .procedure procedure, .procedure procedure' => procedure.same procedure'
  | .alternateReturn, .alternateReturn => true
  | _, _ => false

def DummyProcedure.same : DummyProcedure → DummyProcedure → Bool
  | ⟨procedure, intent, attributes⟩, ⟨procedure', intent', attributes'⟩ =>
    procedure.same procedure' && decide (intent = intent') && decide (attributes = attributes')

def sameResults : Option FunctionResult → Option FunctionResult → Bool
  | some result, some result' => result.same result'
  | none, none => true
  | _, _ => false

def sameDummies : List Dummy → List Dummy → Bool
  | dummy :: dummies, dummy' :: dummies' => dummy.same dummy' && sameDummies dummies dummies'
  | [], [] => true
  | _, _ => false

end

end FortranInterface
