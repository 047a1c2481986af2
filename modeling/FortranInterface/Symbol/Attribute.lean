import FortranInterface.Flags

/-!
The attributes an entity can be given, by a declaration or by the statement that opens a procedure.
-/

namespace FortranInterface

inductive Attribute where
  | abstract
  | allocatable
  | asynchronous
  | bindC
  | contiguous
  | deferred
  | elemental
  | external
  | impure
  | intentIn
  | intentInOut
  | intentOut
  | intrinsic
  | noPass
  | optional
  | parameter
  | pointer
  | «private»
  | «protected»
  | «public»
  | pure
  | recursive
  | save
  | target
  | value
  | volatile
  deriving DecidableEq

namespace Attribute

def all : List Attribute :=
  [abstract, allocatable, asynchronous, bindC, contiguous, deferred, elemental, external, impure,
    intentIn, intentInOut, intentOut, intrinsic, noPass, optional, parameter, pointer, «private»,
    «protected», «public», pure, recursive, save, target, value, volatile]

def label : Attribute → String
  | abstract => "Abstract"
  | allocatable => "Allocatable"
  | asynchronous => "Asynchronous"
  | bindC => "BindC"
  | contiguous => "Contiguous"
  | deferred => "Deferred"
  | elemental => "Elemental"
  | external => "External"
  | impure => "Impure"
  | intentIn => "IntentIn"
  | intentInOut => "IntentInOut"
  | intentOut => "IntentOut"
  | intrinsic => "Intrinsic"
  | noPass => "NoPass"
  | optional => "Optional"
  | parameter => "Parameter"
  | pointer => "Pointer"
  | «private» => "Private"
  | «protected» => "Protected"
  | «public» => "Public"
  | pure => "Pure"
  | recursive => "Recursive"
  | save => "Save"
  | target => "Target"
  | value => "Value"
  | volatile => "Volatile"

instance : Enumerated Attribute where
  all := all
  complete := by intro given; cases given <;> decide
  label := label

end Attribute

abbrev Attributes := Flags Attribute

end FortranInterface
