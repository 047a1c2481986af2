import FortranInterface.Expr.Equality
import FortranInterface.Symbol.Attribute

/-!
What is known of a symbol: how its name has been used, and what kind of entity it is.
-/

namespace FortranInterface

/-- How the name of a procedure has been used, and whether a type was given by its first letter. -/
inductive Usage where
  | function
  | subroutine
  | implicitlyTyped
  deriving DecidableEq

instance : Enumerated Usage where
  all := [.function, .subroutine, .implicitlyTyped]
  complete := by intro usage; cases usage <;> decide
  label
    | .function => "Function"
    | .subroutine => "Subroutine"
    | .implicitlyTyped => "ImplicitlyTyped"

inductive Intent where
  | unspecified
  | «in»
  | out
  | inOut
  deriving DecidableEq

namespace Intent

def label : Intent → String
  | unspecified => "Default"
  | «in» => "In"
  | out => "Out"
  | inOut => "InOut"

instance : Enumerated Intent where
  all := [unspecified, «in», out, inOut]
  complete := by intro intent; cases intent <;> decide
  label := label

def spelling : Intent → String
  | unspecified => ""
  | «in» => "INTENT(IN)"
  | out => "INTENT(OUT)"
  | inOut => "INTENT(IN OUT)"

end Intent

/-- The length of a character entity: given by an expression, taken from the actual argument, or
decided later. -/
inductive CharLength where
  | explicit (value : Expr)
  | assumed
  | deferred

inductive DeclaredType where
  | intrinsic (category : Category) (kind : Nat) (length : Option CharLength)
  | type (symbol : SymbolId)
  | classOf (symbol : SymbolId)
  | typeStar
  | classStar

namespace DeclaredType

def isTypeStar : DeclaredType → Bool
  | typeStar => true
  | _ => false

end DeclaredType

inductive Bounds where
  | explicit (lower : Option Expr) (upper : Expr)
  /-- The shape of the actual argument, or for a pointer or allocatable one that is set later. -/
  | colon (lower : Option Expr)
  | assumedSize (lower : Option Expr)
  | assumedRank

namespace Bounds

def isColon : Bounds → Bool
  | colon _ => true
  | _ => false

end Bounds

abbrev ArraySpec := List Bounds

namespace ArraySpec

def isAssumedRank : ArraySpec → Bool
  | [.assumedRank] => true
  | _ => false

def isAssumedSize (spec : ArraySpec) : Bool :=
  match spec.getLast? with
  | some (.assumedSize _) => true
  | _ => false

def isColonShape (spec : ArraySpec) : Bool :=
  !spec.isEmpty && spec.all Bounds.isColon

end ArraySpec

structure ObjectDetails where
  type : Option DeclaredType
  shape : ArraySpec
  coshape : ArraySpec
  init : Option Expr
  isDummy : Bool

namespace ObjectDetails

def unknown : ObjectDetails :=
  ⟨none, [], [], none, false⟩

def isArray (object : ObjectDetails) : Bool :=
  !object.shape.isEmpty

end ObjectDetails

/-- A procedure known by the name of another one that has the same interface, or by the type of its
result. -/
structure ProcEntityDetails where
  interface : Option SymbolId
  type : Option DeclaredType
  isDummy : Bool
  passName : Option String

structure SubprogramDetails where
  /-- A place without a symbol is an alternate return. -/
  dummies : List (Option SymbolId)
  result : Option SymbolId
  isInterface : Bool
  isDummy : Bool
  scope : Option ScopeId

namespace SubprogramDetails

def isFunction (subprogram : SubprogramDetails) : Bool :=
  subprogram.result.isSome

end SubprogramDetails

inductive GenericKind where
  | name
  | definedOperator (op : String)
  | intrinsicOperator (op : String)
  | assignment
  deriving DecidableEq

namespace GenericKind

def isOperatorOrAssignment : GenericKind → Bool
  | name => false
  | _ => true

end GenericKind

structure GenericDetails where
  kind : GenericKind
  specifics : List SymbolId

structure DerivedTypeDetails where
  parent : Option SymbolId
  components : List SymbolId
  bindings : List SymbolId
  scope : Option ScopeId

structure BindingDetails where
  procedure : SymbolId
  passName : Option String

inductive Details where
  | object (details : ObjectDetails)
  | associate (selector : Expr)
  | procEntity (details : ProcEntityDetails)
  | subprogram (details : SubprogramDetails)
  | generic (details : GenericDetails)
  | derivedType (details : DerivedTypeDetails)
  | binding (details : BindingDetails)
  | module (scope : ScopeId)
  | mainProgram (scope : ScopeId)
  | unresolved

namespace Details

def isObject : Details → Bool
  | object _ => true
  | _ => false

def isAssociate : Details → Bool
  | associate _ => true
  | _ => false

def isDerivedType : Details → Bool
  | derivedType _ => true
  | _ => false

def isBinding : Details → Bool
  | binding _ => true
  | _ => false

def isProcedure : Details → Bool
  | procEntity _ | subprogram _ | binding _ => true
  | _ => false

def object? : Details → Option ObjectDetails
  | object details => some details
  | _ => none

def subprogram? : Details → Option SubprogramDetails
  | subprogram details => some details
  | _ => none

def generic? : Details → Option GenericDetails
  | generic details => some details
  | _ => none

def isDummy : Details → Bool
  | object details => details.isDummy
  | procEntity details => details.isDummy
  | subprogram details => details.isDummy
  | _ => false

def entityInterface? : Details → Option SymbolId
  | procEntity details => details.interface
  | _ => none

def interface? : Details → Option SymbolId
  | procEntity details => details.interface
  | binding details => some details.procedure
  | _ => none

end Details

end FortranInterface
