import FortranInterface.Flags
import FortranInterface.Source.Span

/-!
Expressions as they are written. `f(x)` is a call whatever `f` is: a reference to a function, an
element of an array and a section of one have the same form.
-/

namespace FortranInterface.Tree

inductive BinaryOp where
  | add
  | subtract
  | multiply
  | divide
  | power
  | equal
  | notEqual
  | less
  | greater
  | lessEqual
  | greaterEqual
  | and
  | or
  | eqv
  | neqv
  | concat
  deriving DecidableEq

instance : Enumerated BinaryOp where
  all := [.add, .subtract, .multiply, .divide, .power, .equal, .notEqual, .less, .greater,
    .lessEqual, .greaterEqual, .and, .or, .eqv, .neqv, .concat]
  complete := by intro op; cases op <;> decide
  label
    | .add => "Add"
    | .subtract => "Sub"
    | .multiply => "Mul"
    | .divide => "Div"
    | .power => "Pow"
    | .equal => "Eq"
    | .notEqual => "Ne"
    | .less => "Lt"
    | .greater => "Gt"
    | .lessEqual => "Le"
    | .greaterEqual => "Ge"
    | .and => "And"
    | .or => "Or"
    | .eqv => "Eqv"
    | .neqv => "Neqv"
    | .concat => "Concat"

inductive UnaryOp where
  | negate
  | plus
  | not
  deriving DecidableEq

instance : Enumerated UnaryOp where
  all := [.negate, .plus, .not]
  complete := by intro op; cases op <;> decide
  label
    | .negate => "Neg"
    | .plus => "Plus"
    | .not => "Not"

mutual

/-- An expression. Each form ends with the span of its text. -/
inductive Expr where
  | integer (digits : String) (kind : Option String) (span : Span)
  | real (text : String) (kind : Option String) (span : Span)
  | complex (realPart imaginaryPart : Expr) (span : Span)
  | text (value : String) (span : Span)
  | logical (value : Bool) (span : Span)
  | boz (text : String) (span : Span)
  | name (name : String) (span : Span)
  | call (target : Expr) (arguments : List Arg) (span : Span)
  | component (base : Expr) (name : String) (span : Span)
  | coindexed (base : Expr) (span : Span)
  | array (values : List Expr) (span : Span)
  | paren (inner : Expr) (span : Span)
  | binary (op : BinaryOp) (left right : Expr) (span : Span)
  | unary (op : UnaryOp) (operand : Expr) (span : Span)
  | definedBinary (op : String) (left right : Expr) (span : Span)
  | definedUnary (op : String) (operand : Expr) (span : Span)

structure Arg where
  keyword : Option String
  value : ArgValue
  span : Span

inductive ArgValue where
  | expr (value : Expr)
  | label (value : Nat)
  | triplet (lower upper stride : Option Expr)

end

namespace Expr

def span : Expr → Span
  | integer _ _ span => span
  | real _ _ span => span
  | complex _ _ span => span
  | text _ span => span
  | logical _ span => span
  | boz _ span => span
  | name _ span => span
  | call _ _ span => span
  | component _ _ span => span
  | coindexed _ span => span
  | array _ span => span
  | paren _ span => span
  | binary _ _ _ span => span
  | unary _ _ span => span
  | definedBinary _ _ _ span => span
  | definedUnary _ _ span => span

def name? : Expr → Option String
  | name spelling _ => some spelling
  | _ => none

/-- Only a name and a component of something can be followed by arguments. -/
def takesArguments : Expr → Bool
  | name _ _ => true
  | component _ _ _ => true
  | _ => false

end Expr

end FortranInterface.Tree
