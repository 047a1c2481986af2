import FortranInterface.Type.Dynamic

/-!
The operators of the language on typed operands, and the types of their results.
-/

namespace FortranInterface

inductive Operator where
  | parentheses
  | negate
  | add
  | subtract
  | multiply
  | divide
  | power
  | concat
  | equal
  | notEqual
  | less
  | lessEqual
  | greater
  | greaterEqual
  | not
  | and
  | or
  | eqv
  | neqv
  deriving DecidableEq

namespace Operator

def spelling : Operator → String
  | parentheses => "()"
  | negate | subtract => "-"
  | add => "+"
  | multiply => "*"
  | divide => "/"
  | power => "**"
  | concat => "//"
  | equal => "=="
  | notEqual => "/="
  | less => "<"
  | lessEqual => "<="
  | greater => ">"
  | greaterEqual => ">="
  | not => ".NOT."
  | and => ".AND."
  | or => ".OR."
  | eqv => ".EQV."
  | neqv => ".NEQV."

def label : Operator → String
  | parentheses => "Parentheses"
  | negate => "Negate"
  | add => "Add"
  | subtract => "Subtract"
  | multiply => "Multiply"
  | divide => "Divide"
  | power => "Power"
  | concat => "Concat"
  | equal => "Eq"
  | notEqual => "Ne"
  | less => "Lt"
  | lessEqual => "Le"
  | greater => "Gt"
  | greaterEqual => "Ge"
  | not => "Not"
  | and => "And"
  | or => "Or"
  | eqv => "Eqv"
  | neqv => "Neqv"

instance : Enumerated Operator where
  all := [parentheses, negate, add, subtract, multiply, divide, power, concat, equal, notEqual,
    less, lessEqual, greater, greaterEqual, not, and, or, eqv, neqv]
  complete := by intro op; cases op <;> decide
  label := label

def isUnary : Operator → Bool
  | parentheses | negate | not => true
  | _ => false

def isArithmetic : Operator → Bool
  | add | subtract | multiply | divide | power => true
  | _ => false

/-- The type of an arithmetic result: that of the operand of the higher category, and within one
category the larger kind. -/
def numericType? (left right : DynamicType) : Option DynamicType := do
  let leftRank ← left.category.numericRank?
  let rightRank ← right.category.numericRank?
  if leftRank = rightRank then
    return .plain left.category (max left.kind right.kind)
  if leftRank > rightRank then
    return left
  return right

def resultType? (op : Operator) (operands : List (Option DynamicType)) : Option DynamicType :=
  match op with
  | parentheses | negate | concat => operands.head?.join
  | add | subtract | multiply | divide | power =>
    match operands with
    | some left :: some right :: _ => numericType? left right
    | _ => none
  | _ => some (.logical 4)

end Operator

end FortranInterface
