import FortranInterface.Procedure.TypeAndShape

/-!
The characteristics of a procedure: what a reference to it depends on. They describe its result, its
dummy arguments, and through dummy procedures and procedure pointers again procedures.
-/

namespace FortranInterface

inductive DataAttribute where
  | optional
  | allocatable
  | asynchronous
  | contiguous
  | value
  | volatile
  | pointer
  | target
  deriving DecidableEq

instance : Enumerated DataAttribute where
  all := [.optional, .allocatable, .asynchronous, .contiguous, .value, .volatile, .pointer, .target]
  complete := by intro attr; cases attr <;> decide
  label
    | .optional => "Optional"
    | .allocatable => "Allocatable"
    | .asynchronous => "Asynchronous"
    | .contiguous => "Contiguous"
    | .value => "Value"
    | .volatile => "Volatile"
    | .pointer => "Pointer"
    | .target => "Target"

inductive DummyProcedureAttribute where
  | pointer
  | optional
  deriving DecidableEq

instance : Enumerated DummyProcedureAttribute where
  all := [.pointer, .optional]
  complete := by intro attr; cases attr <;> decide
  label
    | .pointer => "Pointer"
    | .optional => "Optional"

inductive ResultAttribute where
  | allocatable
  | pointer
  | contiguous
  deriving DecidableEq

instance : Enumerated ResultAttribute where
  all := [.allocatable, .pointer, .contiguous]
  complete := by intro attr; cases attr <;> decide
  label
    | .allocatable => "Allocatable"
    | .pointer => "Pointer"
    | .contiguous => "Contiguous"

inductive ProcedureAttribute where
  | pure
  | elemental
  | bindC
  | implicitInterface
  | nullPointer
  | subroutine
  deriving DecidableEq

instance : Enumerated ProcedureAttribute where
  all := [.pure, .elemental, .bindC, .implicitInterface, .nullPointer, .subroutine]
  complete := by intro attr; cases attr <;> decide
  label
    | .pure => "Pure"
    | .elemental => "Elemental"
    | .bindC => "BindC"
    | .implicitInterface => "ImplicitInterface"
    | .nullPointer => "NullPointer"
    | .subroutine => "Subroutine"

structure DataObject where
  typeAndShape : TypeAndShape
  coshape : List Expr
  intent : Intent
  attributes : Flags DataAttribute
  deriving DecidableEq

mutual

/-- A procedure is a function if it has a result. An external procedure that is never referenced is
neither a function nor a subroutine. -/
structure Procedure where
  result : Option FunctionResult
  dummies : List Dummy
  attributes : Flags ProcedureAttribute

structure FunctionResult where
  attributes : Flags ResultAttribute
  kind : ResultKind

inductive ResultKind where
  | data (typeAndShape : TypeAndShape)
  | procedurePointer (procedure : Procedure)

/-- A dummy argument. Its name and whether it takes the passed object are no characteristics, but
references by keyword and by a type-bound name need them. -/
structure Dummy where
  name : String
  pass : Bool
  kind : DummyKind

inductive DummyKind where
  | object (object : DataObject)
  | procedure (procedure : DummyProcedure)
  | alternateReturn

structure DummyProcedure where
  procedure : Procedure
  intent : Intent
  attributes : Flags DummyProcedureAttribute

end

namespace DataObject

def ofTypeAndShape (typeAndShape : TypeAndShape) : DataObject :=
  ⟨typeAndShape, [], .unspecified, .empty⟩

def has (object : DataObject) (attr : DataAttribute) : Bool :=
  object.attributes.has attr

def type (object : DataObject) : DynamicType :=
  object.typeAndShape.type

def rank (object : DataObject) : Nat :=
  object.typeAndShape.rank

def isOptional (object : DataObject) : Bool :=
  object.has .optional

end DataObject

namespace DummyProcedure

def ofProcedure (procedure : Procedure) : DummyProcedure :=
  ⟨procedure, .unspecified, .empty⟩

def has (dummy : DummyProcedure) (attr : DummyProcedureAttribute) : Bool :=
  dummy.attributes.has attr

end DummyProcedure

namespace Dummy

def ofObject (name : String) (object : DataObject) : Dummy :=
  ⟨name, false, .object object⟩

def ofProcedure (name : String) (procedure : DummyProcedure) : Dummy :=
  ⟨name, false, .procedure procedure⟩

def alternateReturn : Dummy :=
  ⟨"", false, .alternateReturn⟩

def object? (dummy : Dummy) : Option DataObject :=
  match dummy.kind with
  | .object object => some object
  | _ => none

def procedure? (dummy : Dummy) : Option DummyProcedure :=
  match dummy.kind with
  | .procedure procedure => some procedure
  | _ => none

def isAlternateReturn (dummy : Dummy) : Bool :=
  match dummy.kind with
  | .alternateReturn => true
  | _ => false

def isOptional (dummy : Dummy) : Bool :=
  match dummy.kind with
  | .object object => object.has .optional
  | .procedure procedure => procedure.has .optional
  | .alternateReturn => false

def setOptional (dummy : Dummy) (optional : Bool) : Dummy :=
  match dummy.kind with
  | .object object =>
    { dummy with
      kind := .object { object with attributes := object.attributes.set .optional optional } }
  | .procedure procedure =>
    { dummy with
      kind := .procedure
        { procedure with attributes := procedure.attributes.set .optional optional } }
  | .alternateReturn => dummy

end Dummy

namespace FunctionResult

def ofTypeAndShape (typeAndShape : TypeAndShape) : FunctionResult :=
  ⟨.empty, .data typeAndShape⟩

def ofType (type : DynamicType) : FunctionResult :=
  ofTypeAndShape (.scalar type)

def procedurePointer (procedure : Procedure) : FunctionResult :=
  ⟨.ofList [.pointer], .procedurePointer procedure⟩

def has (result : FunctionResult) (attr : ResultAttribute) : Bool :=
  result.attributes.has attr

def typeAndShape? (result : FunctionResult) : Option TypeAndShape :=
  match result.kind with
  | .data typeAndShape => some typeAndShape
  | .procedurePointer _ => none

def procedurePointer? (result : FunctionResult) : Option Procedure :=
  match result.kind with
  | .data _ => none
  | .procedurePointer procedure => some procedure

/-- A character function whose length the caller declares. -/
def isAssumedLengthCharacter (result : FunctionResult) : Bool :=
  match result.kind with
  | .data typeAndShape =>
    decide (typeAndShape.type.category = .character) && typeAndShape.length.isNone &&
      !result.has .pointer && !result.has .allocatable
  | .procedurePointer _ => false

end FunctionResult

namespace Procedure

def has (procedure : Procedure) (attr : ProcedureAttribute) : Bool :=
  procedure.attributes.has attr

def isFunction (procedure : Procedure) : Bool :=
  procedure.result.isSome

def isSubroutine (procedure : Procedure) : Bool :=
  procedure.has .subroutine

def isPure (procedure : Procedure) : Bool :=
  procedure.has .pure

def isElemental (procedure : Procedure) : Bool :=
  procedure.has .elemental

def isBindC (procedure : Procedure) : Bool :=
  procedure.has .bindC

def hasExplicitInterface (procedure : Procedure) : Bool :=
  !procedure.has .implicitInterface

def without (procedure : Procedure) (attr : ProcedureAttribute) : Procedure :=
  { procedure with attributes := procedure.attributes.erase attr }

/-- The place of the dummy argument that takes the passed object: the one of the given name, or the
first data object. -/
def passIndex? (procedure : Procedure) : Option String → Option Nat
  | some name => procedure.dummies.findIdx? fun dummy => dummy.name.toLower == name.toLower
  | none => procedure.dummies.findIdx? fun dummy => dummy.object?.isSome

end Procedure

end FortranInterface
