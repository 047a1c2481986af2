import FortranInterface.Procedure.Equality

/-!
When a type-bound procedure may override an inherited one.
-/

namespace FortranInterface

namespace Procedure

def passedCanOverride (mine theirs : Dummy) : Bool :=
  match mine.object?, theirs.object? with
  | some mine, some theirs => mine.rank == theirs.rank && theirs.type.accepts mine.type
  | _, _ => false

def dummiesCanOverride (passIndex : Option Nat) (index : Nat) : List Dummy → List Dummy → Bool
  | mine :: mines, theirs :: others =>
    (if passIndex = some index then passedCanOverride mine theirs else mine.same theirs) &&
      dummiesCanOverride passIndex (index + 1) mines others
  | [], [] => true
  | _, _ => false

/-- Whether the first procedure may override the second, with the passed object at `passIndex`. A
pure procedure may override one that is not pure, but not the other way. -/
def canOverride (mine theirs : Procedure) (passIndex : Option Nat) : Bool :=
  (mine.isPure || !theirs.isPure) && mine.isElemental == theirs.isElemental &&
    sameResults mine.result theirs.result &&
    dummiesCanOverride passIndex 0 mine.dummies theirs.dummies

end Procedure

end FortranInterface
