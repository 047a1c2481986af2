/-!
Decimal numerals: one digit or more, and nothing else.
-/

namespace FortranInterface.Text

def digitValue (c : Char) : Nat :=
  c.toNat - '0'.toNat

def decimalValue (digits : List Char) : Nat :=
  digits.foldl (fun value digit => 10 * value + digitValue digit) 0

def decimal? (text : String) : Option Nat :=
  let digits := text.toList
  if digits ≠ [] ∧ digits.all Char.isDigit then some (decimalValue digits) else none

end FortranInterface.Text
