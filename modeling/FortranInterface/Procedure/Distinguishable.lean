import FortranInterface.Procedure.Basic

/-!
When two specific procedures may share a generic name, operator or assignment: no reference may
match both of them.
-/

namespace FortranInterface

namespace TypeAndShape

def tkrCompatible (left right : TypeAndShape) : Bool :=
  left.type.tkCompatible right.type &&
    (left.rank == right.rank || left.has .assumedRank || right.has .assumedRank)

end TypeAndShape

namespace DataObject

def tkrCompatible (left right : DataObject) : Bool :=
  left.typeAndShape.tkrCompatible right.typeAndShape

def isPointerNotIn (object : DataObject) : Bool :=
  object.has .pointer && object.intent ≠ .in

/-- Objects are told apart by type, kind and rank, or if one takes only allocatable arguments and
the other only pointers. -/
def distinguishable (left right : DataObject) : Bool :=
  (!left.tkrCompatible right && !right.tkrCompatible left) ||
    (left.has .allocatable && right.isPointerNotIn) ||
    (right.has .allocatable && left.isPointerNotIn)

end DataObject

namespace DummyProcedure

/-- Dummy procedures are told apart by the types of their results, or if one is an array-valued
function and the other no function at all. -/
def distinguishable (left right : DummyProcedure) : Bool :=
  match left.procedure.result, right.procedure.result with
  | some leftResult, some rightResult =>
    match leftResult.typeAndShape?, rightResult.typeAndShape? with
    | some leftShape, some rightShape =>
      !leftShape.tkrCompatible rightShape && !rightShape.tkrCompatible leftShape
    | _, _ => false
  | some result, none | none, some result =>
    match result.typeAndShape? with
    | some shape => shape.rank > 0
    | none => false
  | none, none => false

end DummyProcedure

namespace Dummy

def distinguishable (left right : Dummy) : Bool :=
  match left.kind, right.kind with
  | .object left, .object right => left.distinguishable right
  | .procedure left, .procedure right => left.distinguishable right
  | .alternateReturn, .alternateReturn => false
  | _, _ => true

def isRequired (dummy : Dummy) : Bool :=
  !dummy.isOptional

end Dummy

namespace Procedure

def requiredCount (dummies : List Dummy) : Nat :=
  dummies.countP Dummy.isRequired

def passedObject? (dummies : List Dummy) : Option Dummy :=
  dummies.find? Dummy.pass

def requiredObjects (dummies : List Dummy) : List DataObject :=
  (dummies.filter fun dummy => dummy.isRequired && !dummy.pass).filterMap Dummy.object?

def unpassedObjects (dummies : List Dummy) : List DataObject :=
  (dummies.filter fun dummy => !dummy.pass).filterMap Dummy.object?

/-- One procedure requires more objects like one of its own than the other can take. -/
def distinguishedByObjects (mine theirs : List Dummy) : Bool :=
  (requiredObjects mine).any fun object =>
    (requiredObjects mine).countP object.tkrCompatible >
      (unpassedObjects theirs).countP fun other => !object.distinguishable other

def distinguishedByProcedures (mine theirs : List Dummy) : Bool :=
  mine.countP (fun dummy => dummy.isRequired && dummy.procedure?.isSome) >
    theirs.countP fun dummy => dummy.procedure?.isSome

def distinguishedByCounts (mine theirs : List Dummy) : Bool :=
  distinguishedByObjects mine theirs || distinguishedByProcedures mine theirs

def differsFrom (dummy : Dummy) : Option Dummy → Bool
  | some other => dummy.distinguishable other
  | none => true

/-- The place of the first required dummy argument that differs from the one at its place in the
other list. Passed objects do not count; `index` is the place in the whole list. -/
def firstByPosition? (index : Nat) : List Dummy → List Dummy → Option Nat
  | [], _ => none
  | dummy :: dummies, others =>
    if dummy.pass then firstByPosition? (index + 1) dummies others
    else if dummy.isRequired && differsFrom dummy others.head? then some index
    else firstByPosition? (index + 1) dummies others.tail

def differsByName (others : List Dummy) (dummy : Dummy) : Bool :=
  !dummy.pass && dummy.isRequired &&
    differsFrom dummy (others.find? fun other => !dummy.name.isEmpty && other.name == dummy.name)

/-- The place of the last required dummy argument that differs from the one of its name in the other
list. -/
def lastByName? (mine theirs : List Dummy) : Option Nat :=
  (mine.zipIdx.reverse.find? fun entry => differsByName theirs entry.1).map Prod.snd

/-- A dummy argument that differs by its place stands no later than one that differs by its name. -/
def distinguishedByOrder (mine theirs : List Dummy) : Bool :=
  match firstByPosition? 0 mine (theirs.filter fun dummy => !dummy.pass), lastByName? mine theirs with
  | some first, some last => decide (first ≤ last)
  | _, _ => false

def distinguishedByPassedObject (mine theirs : List Dummy) : Bool :=
  match passedObject? mine, passedObject? theirs with
  | some mine, some theirs => mine.distinguishable theirs
  | _, _ => false

def distinguishable (left right : Procedure) : Bool :=
  left.isFunction != right.isFunction ||
    requiredCount left.dummies > right.dummies.length ||
    requiredCount right.dummies > left.dummies.length ||
    distinguishedByCounts left.dummies right.dummies ||
    distinguishedByCounts right.dummies left.dummies ||
    distinguishedByPassedObject left.dummies right.dummies ||
    distinguishedByOrder left.dummies right.dummies ||
    distinguishedByOrder right.dummies left.dummies

/-- The same for an operator or assignment, where arguments have no keywords and their number is
fixed. -/
def operatorDistinguishable (left right : Procedure) : Bool :=
  left.dummies.length != right.dummies.length ||
    (left.dummies.zip right.dummies).any fun pair => pair.1.distinguishable pair.2

end Procedure

end FortranInterface
