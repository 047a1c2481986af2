/-!
Integers of fixed width: 64-bit words with and without sign.
-/

namespace FortranInterface.Word

def count : Nat :=
  18446744073709551616

def least : Int :=
  -9223372036854775808

def greatest : Int :=
  9223372036854775807

def fitting (value : Int) : Option Int :=
  if least ≤ value ∧ value ≤ greatest then some value else none

/-- The word with sign that stands for a value, of which any multiple of `count` is taken away. -/
def wrapped (value : Int) : Int :=
  value.bmod count

theorem fitting_eq_some_iff {value found : Int} :
    fitting value = some found ↔ found = value ∧ least ≤ value ∧ value ≤ greatest := by
  unfold fitting
  split
  · rename_i within
    simp [within, eq_comm]
  · rename_i outside
    simp [outside]

end FortranInterface.Word
