import FortranInterface.Procedure.Basic

/-!
The characteristics of a procedure as a line of text. Expressions in them are spelled with the names
of a symbol table.
-/

namespace FortranInterface

namespace Flags

def lead {α : Type} [Enumerated α] (flags : Flags α) : String :=
  String.join (flags.members.map fun flag => (Enumerated.label flag).toUpper ++ " ")

end Flags

namespace Intent

def lead (intent : Intent) : String :=
  if intent = .unspecified then "" else intent.spelling ++ " "

end Intent

section

variable (table : Table)

def DataObject.text (object : DataObject) : String :=
  object.attributes.lead ++ object.intent.lead ++ object.typeAndShape.text table ++
    (if object.coshape.isEmpty then ""
      else " [" ++ commaSeparated (object.coshape.map (·.spelling table)) ++ "]")

mutual

def Procedure.text : Procedure → String
  | ⟨result, dummies, attributes⟩ =>
    (attributes.erase .subroutine).lead ++
      (match result with
        | some _ => "FUNCTION("
        | none => if attributes.has .subroutine then "SUBROUTINE(" else "PROCEDURE(") ++
      String.intercalate ", " (dummyTexts dummies) ++ ")" ++ resultText result

def resultText : Option FunctionResult → String
  | some result => " RESULT(" ++ result.text ++ ")"
  | none => ""

def FunctionResult.text : FunctionResult → String
  | ⟨attributes, kind⟩ => attributes.lead ++ kind.text

def ResultKind.text : ResultKind → String
  | .data typeAndShape => typeAndShape.text table
  | .procedurePointer procedure => "PROCEDURE(" ++ procedure.text ++ ")"

def Dummy.text : Dummy → String
  | ⟨name, pass, kind⟩ =>
    (if name.isEmpty then "" else name ++ "=") ++ kind.text ++ (if pass then " (PASS)" else "")

def DummyKind.text : DummyKind → String
  | .object object => object.text table
  | .procedure procedure => procedure.text
  | .alternateReturn => "*"

def DummyProcedure.text : DummyProcedure → String
  | ⟨procedure, intent, attributes⟩ =>
    attributes.lead ++ intent.lead ++ "PROCEDURE(" ++ procedure.text ++ ")"

def dummyTexts : List Dummy → List String
  | [] => []
  | dummy :: dummies => dummy.text :: dummyTexts dummies

end

end

end FortranInterface
