import FortranInterface.Source.Diagnostic
import FortranInterface.Type.Category

/-!
What can be wrong with names and declarations, and the words for it.
-/

namespace FortranInterface

inductive ResolutionFault where
  -- declarations
  | alreadyDeclared (name : String)
  | resultTypeTwice (name : String)
  | typeTwice (name : String)
  | moduleNotFound (name : String)
  | useAssociated (name : String)
  | notIntrinsic (name : String)
  | interfaceNotFound (name : String)
  | parentNotFound (parent name : String)
  | notExplicit (name : String)
  | procedureNotFound (name : String)
  | bindingTargetNotFound (target binding : String)
  | notTypeBound (name type : String)
  | untyped (name : String)
  -- types
  | derivedTypeNotFound (name : String)
  | unsupportedKind (category : Category) (kind : Int)
  | kindNotConstant
  | literalKind (kind : String)
  | integerTooLarge (digits : String)
  -- expressions
  | unsupportedReference
  | coindexed
  | notDataObject (name : String)
  | subscriptKeyword
  | labelSubscript
  | tripletActual
  | genericActual (name : String)
  | notFunction (name : String)
  | subroutineAsFunction (name : String)
  | calledBefore (name : String)
  | noSpecific (isFunction : Bool) (generic : String)
  | notDerivedObject (spelling : String)
  | notComponent (name type : String)
  | noSpecificBinding (generic : String)
  | notProcedure (name : String)
  | noOperator (op : String) (types : List String)
  -- calls
  | unsupportedCall
  | notSubroutine (name : String)
  | functionAsSubroutine (name : String)
  | referencedBefore (name : String)
  deriving DecidableEq

namespace ResolutionFault

def text : ResolutionFault → String
  | alreadyDeclared name => s!"'{name}' is already declared in this scoping unit"
  | resultTypeTwice name => s!"The type of function result '{name}' is declared more than once"
  | typeTwice name => s!"The type of '{name}' has already been declared"
  | moduleNotFound name => s!"Module '{name}' not found"
  | useAssociated name => s!"'{name}' is use-associated and may not be redeclared"
  | notIntrinsic name => s!"'{name}' is not a known intrinsic procedure"
  | interfaceNotFound name => s!"Procedure interface '{name}' not found"
  | parentNotFound parent name => s!"Parent type '{parent}' of '{name}' not found"
  | notExplicit name => s!"'{name}' is not a procedure with an explicit interface"
  | procedureNotFound name => s!"Procedure '{name}' not found"
  | bindingTargetNotFound target binding =>
    s!"Procedure '{target}' of binding '{binding}' not found"
  | notTypeBound name type => s!"'{name}' is not a type-bound procedure of type '{type}'"
  | untyped name => s!"No explicit type declared for '{name}'"
  | derivedTypeNotFound name => s!"Derived type '{name}' not found"
  | unsupportedKind category kind => category.label ++ s!" kind {kind} is not supported"
  | kindNotConstant => "Kind parameter must be a constant expression"
  | literalKind kind => s!"Kind parameter '{kind}' is not a named integer constant"
  | integerTooLarge digits => s!"Integer literal '{digits}' is too large"
  | unsupportedReference => "Unsupported procedure reference"
  | coindexed => "Only a variable may be coindexed"
  | notDataObject name => s!"'{name}' is not a data object"
  | subscriptKeyword => "A subscript may not have a keyword"
  | labelSubscript => "An alternate return label is not a subscript"
  | tripletActual => "A subscript triplet may not appear as an actual argument"
  | genericActual name => s!"Generic '{name}' may not be passed as an actual argument"
  | notFunction name => s!"'{name}' is not a function"
  | subroutineAsFunction name =>
    s!"'{name}' is a subroutine and may not be referenced as a function"
  | calledBefore name => s!"'{name}' is referenced both as a subroutine and as a function"
  | noSpecific isFunction generic =>
    "No specific " ++ (if isFunction then "function" else "subroutine") ++
      s!" of generic '{generic}' matches the actual arguments"
  | notDerivedObject spelling => s!"'{spelling}' is not an object of derived type"
  | notComponent name type => s!"'{name}' is not a component or binding of type '{type}'"
  | noSpecificBinding generic =>
    s!"No specific binding of generic '{generic}' matches the actual arguments"
  | notProcedure name => s!"'{name}' is not a procedure"
  | noOperator op types =>
    "No intrinsic or user-defined OPERATOR(" ++ op.toUpper ++ ") matches operand types " ++
      String.intercalate " and " types
  | unsupportedCall => "Unsupported CALL target"
  | notSubroutine name => s!"'{name}' is not a subroutine"
  | functionAsSubroutine name => s!"'{name}' is a function and may not be called as a subroutine"
  | referencedBefore name => s!"'{name}' is referenced both as a function and as a subroutine"

end ResolutionFault

structure ResolutionFinding where
  fault : ResolutionFault
  span : Span
  deriving DecidableEq

namespace ResolutionFinding

def diagnostic (finding : ResolutionFinding) : Diagnostic :=
  ⟨.semantic, finding.fault.text, finding.span, []⟩

end ResolutionFinding

end FortranInterface
