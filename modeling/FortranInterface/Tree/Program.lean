import FortranInterface.Symbol.Attribute
import FortranInterface.Tree.Expr

/-!
Declarations, statements and program units as they are written.
-/

namespace FortranInterface.Tree

structure Located where
  name : String
  span : Span
  deriving DecidableEq

inductive Length where
  | expr (value : Expr)
  | assumed
  | deferred

inductive TypeSpec where
  | integer (kind : Option Expr)
  | real (kind : Option Expr)
  | doublePrecision
  | complex (kind : Option Expr)
  | character (length : Option Length) (kind : Option Expr)
  | logical (kind : Option Expr)
  | type (name : String)
  | classOf (name : String)
  | typeStar
  | classStar

inductive Dimension where
  | explicit (lower : Option Expr) (upper : Expr)
  | colon (lower : Option Expr)
  | star (lower : Option Expr)
  | assumedRank

inductive AttributeSpec where
  | plain (attr : Attribute)
  | dimension (dimensions : List Dimension)
  | codimension (dimensions : List Dimension)
  | pass (name : Option String)

/-- Letters from `start` on, or `start` alone. -/
structure LetterRange where
  start : Char
  stop : Option Char

structure ImplicitRule where
  type : TypeSpec
  letters : List LetterRange

structure Entity where
  name : String
  dimensions : Option (List Dimension)
  codimensions : Option (List Dimension)
  length : Option Length
  init : Option Expr
  span : Span

/-- What stands between the parentheses of `PROCEDURE(...)`. -/
inductive InterfaceName where
  | name (name : String)
  | type (type : TypeSpec)

inductive GenericSpec where
  | name (name : String)
  | operator (op : String)
  | assignment

inductive InterfaceKind where
  | unnamed
  | abstract
  | generic (spec : GenericSpec)

inductive Binding where
  | specific (name : String) (procedure interface : Option String)
      (attributes : List AttributeSpec) (span : Span)
  | generic (spec : GenericSpec) (specifics : List String) (span : Span)

structure DoControl where
  index : String
  start : Expr
  stop : Expr
  step : Option Expr

inductive Stmt where
  | call (target : Expr) (arguments : List Arg) (span : Span)
  | assign (left right : Expr) (span : Span)
  | associate (names : List (String × Expr)) (body : List Stmt) (span : Span)
  | conditional (condition : Expr) (thenBody elseBody : List Stmt) (span : Span)
  | loop (control : Option DoControl) (body : List Stmt) (span : Span)
  | print (items : List Expr) (span : Span)
  | leave (span : Span)

/-- A word in front of `SUBROUTINE` or `FUNCTION`. -/
inductive Modifier where
  | pure
  | impure
  | elemental
  | recursive
  | module
  deriving DecidableEq

instance : Enumerated Modifier where
  all := [.pure, .impure, .elemental, .recursive, .module]
  complete := by intro modifier; cases modifier <;> decide
  label
    | .pure => "Pure"
    | .impure => "Impure"
    | .elemental => "Elemental"
    | .recursive => "Recursive"
    | .module => "Module"

inductive SubprogramKind where
  | subroutine
  | function (result : Option String) (type : Option TypeSpec)

inductive DummyName where
  | name (name : String) (span : Span)
  | star (span : Span)

mutual

inductive Decl where
  | use (module : String) (span : Span)
  | implicitNone (span : Span)
  | implicit (rules : List ImplicitRule) (span : Span)
  | entities (type : TypeSpec) (attributes : List AttributeSpec) (entities : List Entity)
      (span : Span)
  | attributes (attr : AttributeSpec) (names : List Located) (span : Span)
  | procedure (interface : Option InterfaceName) (attributes : List AttributeSpec)
      (names : List Located) (span : Span)
  | interface (block : InterfaceBlock)
  | derivedType (definition : DerivedType)

structure InterfaceBlock where
  kind : InterfaceKind
  bodies : List Subprogram
  moduleProcedures : List Located
  span : Span

structure DerivedType where
  name : String
  parent : Option String
  isAbstract : Bool
  components : List Decl
  bindings : List Binding
  span : Span

structure Subprogram where
  kind : SubprogramKind
  name : String
  modifiers : List Modifier
  dummies : List DummyName
  bindC : Bool
  spec : List Decl
  body : List Stmt
  contains : List Subprogram
  span : Span

end

structure MainProgram where
  name : Option String
  spec : List Decl
  body : List Stmt
  contains : List Subprogram
  span : Span

structure Module where
  name : String
  spec : List Decl
  contains : List Subprogram
  span : Span

inductive ProgramUnit where
  | main (program : MainProgram)
  | module (module : Module)
  | subprogram (subprogram : Subprogram)

structure Program where
  units : List ProgramUnit

end FortranInterface.Tree
