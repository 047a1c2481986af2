import FortranInterface.Symbol.Table
import FortranInterface.Word

/-!
The values of integer constant expressions. Values are those of 64-bit words: an operation whose
exact result does not fit has no value.
-/

namespace FortranInterface

namespace Folding

open Word (fitting)

/-- A power. Exponents are those of 32-bit words without sign. Of an exponent above 64 only the
parity matters: the result is that of 64 or 65, or does not fit either. -/
def power (base exponent : Int) : Option Int :=
  if 0 ≤ exponent ∧ exponent < 4294967296 then
    fitting (base.pow (if exponent ≤ 64 then exponent else 64 + exponent % 2).toNat)
  else none

def applyBinary (op : Operator) (left right : Int) : Option Int :=
  match op with
  | .add => fitting (left + right)
  | .subtract => fitting (left - right)
  | .multiply => fitting (left * right)
  | .divide => if right = 0 then none else fitting (left.tdiv right)
  | .power => power left right
  | _ => none

section

variable (constant : SymbolId → Option Int)

def foldWith : Expr → Option Int
  | .literal (.integer value _) => some value
  | .designator symbol [] _ => constant symbol
  | .operation .parentheses [operand] => foldWith operand
  | .operation .negate [operand] => (foldWith operand).bind fun value => fitting (-value)
  | .operation op [left, right] =>
    (foldWith left).bind fun leftValue =>
      (foldWith right).bind fun rightValue => applyBinary op leftValue rightValue
  | _ => none

end

end Folding

namespace Table

open Folding

/-- The value of a named constant whose definition refers to others at most `links` deep. -/
def constantWithin (table : Table) : Nat → SymbolId → Option Int
  | 0, _ => none
  | links + 1, id =>
    let symbol := table.symbol id
    if symbol.has .parameter then
      (symbol.details.object?.bind (·.init)).bind (foldWith (table.constantWithin links))
    else none

/-- The value of a named constant. A definition that is not circular is no deeper than the
table. -/
def constant (table : Table) (id : SymbolId) : Option Int :=
  table.constantWithin table.symbols.size id

def foldInteger (table : Table) (expr : Expr) : Option Int :=
  foldWith table.constant expr

def fold (table : Table) (expr : Expr) : Expr :=
  match table.foldInteger expr with
  | some value => .int value
  | none => expr

end Table

end FortranInterface
