import FortranInterface.Flags

/-!
The categories of types. A type of an intrinsic category has a kind; the derived category also
serves types of no name, such as `TYPE(*)`.
-/

namespace FortranInterface

inductive Category where
  | integer
  | real
  | complex
  | character
  | logical
  | derived
  deriving DecidableEq

namespace Category

def all : List Category :=
  [integer, real, complex, character, logical, derived]

def label : Category → String
  | integer => "Integer"
  | real => "Real"
  | complex => "Complex"
  | character => "Character"
  | logical => "Logical"
  | derived => "Derived"

instance : Enumerated Category where
  all := all
  complete := by intro category; cases category <;> decide
  label := label

def isNumeric : Category → Bool
  | integer | real | complex => true
  | _ => false

/-- Where the category stands in arithmetic: an operation has the type of the higher operand. -/
def numericRank? : Category → Option Nat
  | integer => some 0
  | real => some 1
  | complex => some 2
  | _ => none

def defaultKind : Category → Nat
  | integer | real | complex | logical => 4
  | character => 1
  | derived => 0

def validKinds : Category → List Nat
  | integer => [1, 2, 4, 8, 16]
  | real | complex => [2, 4, 8, 10, 16]
  | character => [1, 2, 4]
  | logical => [1, 2, 4, 8]
  | derived => [0]

def isValidKind (category : Category) (kind : Nat) : Bool :=
  decide (kind ∈ category.validKinds)

def keyword : Category → String
  | integer => "INTEGER"
  | real => "REAL"
  | complex => "COMPLEX"
  | character => "CHARACTER"
  | logical => "LOGICAL"
  | derived => "TYPE"

end Category

end FortranInterface
