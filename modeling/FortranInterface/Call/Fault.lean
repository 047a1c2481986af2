import FortranInterface.Procedure.TypeAndShape
import FortranInterface.Source.Message

/-!
What can be wrong with a reference to a procedure, and the words for it.
-/

namespace FortranInterface

structure DummyLabel where
  name : String
  deriving DecidableEq

namespace DummyLabel

def tail (label : DummyLabel) : String :=
  if label.name.isEmpty then " argument" else " argument '" ++ label.name.toLower ++ "='"

def text (label : DummyLabel) : String :=
  "dummy" ++ label.tail

def capitalized (label : DummyLabel) : String :=
  "Dummy" ++ label.tail

end DummyLabel

inductive Indefinable where
  | noVariable
  | intentIn (symbol : String)
  | protectedHere (symbol : String)
  deriving DecidableEq

namespace Indefinable

def text : Indefinable → String
  | noVariable => ""
  | intentIn symbol => s!": '{symbol}' is an INTENT(IN) dummy argument"
  | protectedHere symbol => s!": '{symbol}' is PROTECTED in this scope"

end Indefinable

inductive Inexpressible where
  | assumedType
  | polymorphic
  | coarray
  | assumedRank
  | asynchronous
  | volatile
  deriving DecidableEq

namespace Inexpressible

def word : Inexpressible → String
  | assumedType => "Assumed type"
  | polymorphic => "Polymorphic"
  | coarray => "Coarray"
  | assumedRank => "Assumed rank"
  | asynchronous => "ASYNCHRONOUS"
  | volatile => "VOLATILE"

end Inexpressible

inductive CallFault where
  -- matching actual arguments with dummy arguments
  | tooManyActuals (given expected : Nat)
  | repeatedKeyword (keyword : String)
  | positionalAfterKeyword (place : Nat)
  | keywordAfterPositional (keyword : String) (place : Nat)
  | unknownKeyword (keyword : String)
  | missingActual (name : String) (place : Nat)
  -- kinds of arguments
  | labelForDummy (label : Nat) (dummy : DummyLabel)
  | labelExpected
  | assumedTypeActual (symbol : String) (dummy : DummyLabel)
  | bozActual (dummy : DummyLabel)
  | nullForIntent (intent : Intent) (dummy : DummyLabel)
  | nullForNonPointer (dummy : DummyLabel)
  | procedureForData (procedure : String) (dummy : DummyLabel)
  | untypedActual
  -- types and shapes
  | incompatibleType (actual : String) (dummy : DummyLabel) (expected : String)
  | mismatch (mismatch : Mismatch)
  | assumedRankActual (dummy : DummyLabel)
  | pointerElement (dummy : DummyLabel)
  | assumedShapeElement (dummy : DummyLabel)
  | polymorphicScalar (dummy : DummyLabel)
  | wholeScalar (dummy : DummyLabel)
  | coindexedPolymorphic (dummy : DummyLabel)
  | assumedSizeForAssumedShape (dummy : DummyLabel)
  | assumedSizeForValue (dummy : DummyLabel)
  | coarrayForValue (dummy : DummyLabel)
  -- definability
  | indefinable (intent : Intent) (dummy : DummyLabel) (reason : Indefinable)
  | vectorSubscript (intent : Intent) (dummy : DummyLabel)
  | asynchronousVectorSubscript (dummy : DummyLabel)
  | notContiguous (dummy : DummyLabel)
  -- allocatable and pointer arguments
  | coindexedForAllocatable (dummy : DummyLabel)
  | notAllocatable (dummy : DummyLabel)
  | corank (dummy : DummyLabel) (expected found : Nat)
  | contiguousPointer (dummy : DummyLabel)
  | notPointer (dummy : DummyLabel)
  | notPointerOrTarget (dummy : DummyLabel)
  | unlimitedPolymorphism
  | polymorphism
  | declaredTypes
  | targetLost (dummy : DummyLabel) (actual : String)
  -- character lengths
  | lengthDiffers (found expected : Int)
  | lengthShort (isVariable : Bool) (found expected : Int)
  -- procedure arguments
  | notProcedure (dummy : DummyLabel)
  | restrictedIntrinsic (name : String) (dummy : DummyLabel)
  | nullForProcedure (dummy : DummyLabel)
  | notProcedurePointer (dummy : DummyLabel)
  | elementalActual (procedure : String)
  | procedureInterface (procedure : String) (dummy : DummyLabel)
  | subroutineForFunction (dummy : DummyLabel)
  | functionForSubroutine (dummy : DummyLabel)
  | resultType (dummy : DummyLabel) (found expected : String)
  | bindCOptional (procedure : String) (dummy : DummyLabel)
  -- implicit interfaces
  | elementalImplicit
  | bindCImplicit
  | resultImplicit
  | dummyImplicit (dummy : DummyLabel) (reason : String)
  | keywordImplicit (keyword : String)
  | actualImplicit (property : Inexpressible)
  deriving DecidableEq

namespace CallFault

def text : CallFault → String
  | tooManyActuals given expected =>
    s!"Too many actual arguments ({given}) passed to procedure that expects only {expected}"
  | repeatedKeyword keyword =>
    s!"Argument keyword '{keyword}=' appears on more than one effective argument in this procedure " ++
      "reference"
  | positionalAfterKeyword place =>
    s!"Actual argument #{place} without a keyword may not follow an argument with a keyword"
  | keywordAfterPositional keyword place =>
    s!"Keyword argument '{keyword}=' has already been specified positionally (#{place}) in this " ++
      "procedure reference"
  | unknownKeyword keyword =>
    s!"Argument keyword '{keyword}=' is not recognized for this procedure reference"
  | missingActual name place =>
    (if name.isEmpty then s!"Dummy argument #{place}" else s!"Dummy argument '{name}=' (#{place})") ++
      " is not OPTIONAL and is not associated with an actual argument in this procedure reference"
  | labelForDummy label dummy =>
    s!"Alternate return label '*{label}' cannot be associated with " ++ dummy.text
  | labelExpected =>
    "Actual argument associated with an alternate return indicator must be a label"
  | assumedTypeActual symbol dummy =>
    s!"Assumed-type TYPE(*) '{symbol}' may be associated only with an assumed-type TYPE(*) " ++
      dummy.text
  | bozActual dummy => "BOZ literal may not be associated with " ++ dummy.text
  | nullForIntent intent dummy =>
    "A NULL() pointer may not be associated with " ++ intent.spelling ++ " " ++ dummy.text
  | nullForNonPointer dummy =>
    "A NULL() pointer may not be associated with non-POINTER " ++ dummy.text
  | procedureForData procedure dummy =>
    s!"Procedure '{procedure}' may not be associated with data object " ++ dummy.text
  | untypedActual => "Actual argument is not a variable or typed expression"
  | incompatibleType actual dummy expected =>
    s!"Actual argument type '{actual}' is not compatible with " ++ dummy.text ++
      s!" type '{expected}'"
  | mismatch found => found.text
  | assumedRankActual dummy =>
    "Assumed-rank array may not be associated with non-assumed-rank " ++ dummy.text
  | pointerElement dummy =>
    "Element of pointer array may not be associated with a " ++ dummy.text ++ " array"
  | assumedShapeElement dummy =>
    "Element of assumed-shape array may not be associated with a " ++ dummy.text ++ " array"
  | polymorphicScalar dummy =>
    "Polymorphic scalar may not be associated with a " ++ dummy.text ++ " array"
  | wholeScalar dummy =>
    "Whole scalar actual argument may not be associated with a " ++ dummy.text ++ " array"
  | coindexedPolymorphic dummy =>
    "Coindexed polymorphic object may not be associated with a polymorphic " ++ dummy.text
  | assumedSizeForAssumedShape dummy =>
    "Assumed-size array may not be associated with assumed-shape " ++ dummy.text
  | assumedSizeForValue dummy =>
    "Assumed-size array may not be associated with VALUE " ++ dummy.text
  | coarrayForValue dummy => "Coarray may not be associated with VALUE " ++ dummy.text
  | indefinable intent dummy reason =>
    "Actual argument associated with " ++ intent.spelling ++ " " ++ dummy.text ++
      " must be definable" ++ reason.text
  | vectorSubscript intent dummy =>
    "Actual argument associated with " ++ intent.spelling ++ " " ++ dummy.text ++
      " may not have a vector subscript"
  | asynchronousVectorSubscript dummy =>
    "Actual argument associated with ASYNCHRONOUS or VOLATILE " ++ dummy.text ++
      " may not have a vector subscript"
  | notContiguous dummy =>
    "ASYNCHRONOUS or VOLATILE actual argument that is not simply contiguous may not be associated " ++
      "with a contiguous " ++ dummy.text
  | coindexedForAllocatable dummy =>
    "ALLOCATABLE " ++ dummy.text ++
      " must be associated with an ALLOCATABLE actual argument that is not coindexed"
  | notAllocatable dummy =>
    "ALLOCATABLE " ++ dummy.text ++ " must be associated with an ALLOCATABLE actual argument"
  | corank dummy expected found =>
    "ALLOCATABLE " ++ dummy.text ++
      s!" has corank {expected} but actual argument has corank {found}"
  | contiguousPointer dummy =>
    "Actual argument associated with CONTIGUOUS POINTER " ++ dummy.text ++
      " must be simply contiguous"
  | notPointer dummy =>
    "Actual argument associated with POINTER " ++ dummy.text ++
      " must also be POINTER unless INTENT(IN)"
  | notPointerOrTarget dummy =>
    "Actual argument associated with POINTER INTENT(IN) " ++ dummy.text ++
      " must be a pointer or a valid target"
  | unlimitedPolymorphism =>
    "If a POINTER or ALLOCATABLE dummy or actual argument is unlimited polymorphic, both must be so"
  | polymorphism =>
    "If a POINTER or ALLOCATABLE dummy or actual argument is polymorphic, both must be so"
  | declaredTypes =>
    "POINTER or ALLOCATABLE dummy and actual arguments must have the same declared type"
  | targetLost dummy actual =>
    "Any pointer associated with TARGET " ++ dummy.text ++
      s!" during this call will not be associated with the value of '{actual}' afterwards"
  | lengthDiffers found expected =>
    s!"Actual argument variable length '{found}' does not match the expected length '{expected}'"
  | lengthShort isVariable found expected =>
    "Actual argument " ++ (if isVariable then "variable" else "expression") ++
      s!" length '{found}' is less than expected length '{expected}'"
  | notProcedure dummy =>
    "Actual argument associated with procedure " ++ dummy.text ++ " is not a procedure"
  | restrictedIntrinsic name dummy =>
    s!"Intrinsic '{name}' is not an unrestricted specific intrinsic and may not be associated with " ++
      "procedure " ++ dummy.text
  | nullForProcedure dummy =>
    "A NULL() pointer may be associated only with a POINTER or OPTIONAL procedure " ++ dummy.text
  | notProcedurePointer dummy =>
    "Actual argument associated with procedure pointer " ++ dummy.text ++
      " must be a POINTER unless INTENT(IN)"
  | elementalActual procedure =>
    s!"Non-intrinsic ELEMENTAL procedure '{procedure}' may not be passed as an actual argument"
  | procedureInterface procedure dummy =>
    s!"Procedure actual argument '{procedure}' does not match dummy procedure interface of " ++
      dummy.text
  | subroutineForFunction dummy =>
    "Actual argument associated with procedure " ++ dummy.text ++
      " is a subroutine but must be a function"
  | functionForSubroutine dummy =>
    "Actual argument associated with procedure " ++ dummy.text ++
      " is a function but must be a subroutine"
  | resultType dummy found expected =>
    "Actual argument function associated with procedure " ++ dummy.text ++
      s!" has result type '{found}' but '{expected}' is expected"
  | bindCOptional procedure dummy =>
    s!"BIND(C) procedure '{procedure}' with OPTIONAL dummy arguments may not be associated with " ++
      dummy.text ++ ", which has an implicit interface"
  | elementalImplicit => "An ELEMENTAL procedure requires an explicit interface"
  | bindCImplicit => "A BIND(C) procedure requires an explicit interface"
  | resultImplicit => "The function result requires an explicit interface"
  | dummyImplicit dummy reason =>
    dummy.capitalized ++ s!" is {reason}, which requires an explicit interface"
  | keywordImplicit keyword =>
    s!"Keyword '{keyword}=' may not appear in a reference to a procedure with an implicit interface"
  | actualImplicit property => property.word ++ " argument requires an explicit interface"

/-- Only a lost association of a target is no error. -/
def severity : CallFault → Severity
  | targetLost _ _ => .warning
  | _ => .error

end CallFault

structure CallFinding where
  fault : CallFault
  span : Option Span
  deriving DecidableEq

namespace CallFinding

def message (finding : CallFinding) : Message :=
  ⟨finding.fault.severity, finding.fault.text, finding.span, []⟩

def isError (finding : CallFinding) : Bool :=
  finding.fault.severity = .error

end CallFinding

end FortranInterface
