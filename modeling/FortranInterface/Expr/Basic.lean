import FortranInterface.Expr.Operator
import FortranInterface.Source.Span
import FortranInterface.Symbol.Id

/-!
Expressions whose names have been resolved, and the actual arguments of calls.
-/

namespace FortranInterface

inductive Literal where
  | integer (value : Int) (kind : Nat)
  | real (text : String) (kind : Nat)
  | complex (realPart imaginaryPart : String) (kind : Nat)
  | character (value : String) (kind : Nat)
  | logical (value : Bool) (kind : Nat)
  deriving DecidableEq

/-- What a reference calls: a procedure of the program, or an intrinsic one known by its name. -/
inductive Callee where
  | symbol (id : SymbolId)
  | intrinsic (name : String)
  deriving DecidableEq

mutual

inductive Expr where
  | literal (value : Literal)
  | array (elementType : DynamicType) (values : List Expr)
  /-- A data object, or elements of one; `coindexed` if it is on another image. -/
  | designator (symbol : SymbolId) (subscripts : List Subscript) (coindexed : Bool)
  | call (callee : Callee) (arguments : List (Option Actual))
  | operation (op : Operator) (operands : List Expr)
  | null
  | boz (text : String)
  | procedure (callee : Callee)

inductive Subscript where
  | index (value : Expr)
  | triplet (lower upper stride : Option Expr)

/-- An actual argument. The object through which a bound procedure is called is passed without
being written in the argument list. -/
structure Actual where
  keyword : Option String
  value : ActualValue
  isPassedObject : Bool
  span : Option Span

inductive ActualValue where
  | expr (value : Expr)
  | assumedType (symbol : SymbolId)
  | label (value : Nat)

end

/-- Actual arguments in order; a place without one is empty. -/
abbrev Actuals := List (Option Actual)

namespace Literal

def type : Literal → DynamicType
  | integer _ kind => .plain .integer kind
  | real _ kind => .plain .real kind
  | complex _ _ kind => .plain .complex kind
  | character _ kind => .plain .character kind
  | logical _ kind => .plain .logical kind

end Literal

namespace Callee

def symbol? : Callee → Option SymbolId
  | symbol id => some id
  | intrinsic _ => none

end Callee

namespace Subscript

def isTriplet : Subscript → Bool
  | index _ => false
  | triplet _ _ _ => true

end Subscript

namespace Expr

def int (value : Int) : Expr :=
  literal (.integer value 4)

def whole (symbol : SymbolId) : Expr :=
  designator symbol [] false

def unary (op : Operator) (operand : Expr) : Expr :=
  operation op [operand]

def binary (op : Operator) (left right : Expr) : Expr :=
  operation op [left, right]

def intLiteral? : Expr → Option Int
  | literal (.integer value _) => some value
  | _ => none

def lastSymbol? : Expr → Option SymbolId
  | designator symbol _ _ => some symbol
  | _ => none

def isNull : Expr → Bool
  | null => true
  | _ => false

def isBoz : Expr → Bool
  | boz _ => true
  | _ => false

def isProcedure : Expr → Bool
  | procedure _ => true
  | _ => false

def isCharacterLiteral : Expr → Bool
  | literal (.character _ _) => true
  | _ => false

mutual

def isConstant : Expr → Bool
  | literal _ | boz _ => true
  | array _ values => areConstant values
  | operation _ operands => areConstant operands
  | _ => false

def areConstant : List Expr → Bool
  | [] => true
  | value :: values => value.isConstant && areConstant values

end

end Expr

namespace Actual

def ofExpr (value : Expr) : Actual :=
  ⟨none, .expr value, false, none⟩

def expr? (actual : Actual) : Option Expr :=
  match actual.value with
  | .expr value => some value
  | _ => none

def assumedType? (actual : Actual) : Option SymbolId :=
  match actual.value with
  | .assumedType symbol => some symbol
  | _ => none

def isLabel (actual : Actual) : Bool :=
  match actual.value with
  | .label _ => true
  | _ => false

end Actual

def Actuals.exprs (actuals : Actuals) : List Expr :=
  actuals.filterMap (·.bind Actual.expr?)

end FortranInterface
