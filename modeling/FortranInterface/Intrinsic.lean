import FortranInterface.Type.Dynamic

/-!
The intrinsic functions: which names are intrinsic, the type of a reference to one, and the
specific functions that may be passed as actual arguments. Names are compared without regard to
case.
-/

namespace FortranInterface.Intrinsic

inductive ResultRule where
  | ofFirst
  /-- The type of the first argument, but real if that one is complex. -/
  | realOfFirst
  | fixed (type : DynamicType)
  deriving DecidableEq

inductive FunctionClass where
  | elemental
  | inquiry
  | reduction
  deriving DecidableEq

structure Generic where
  name : String
  result : ResultRule
  functionClass : FunctionClass

/-- A specific function: the names of its dummy arguments, their common type, and its result. -/
structure Specific where
  name : String
  generic : String
  dummies : List String
  argumentType : DynamicType
  resultType : DynamicType

def integerType : DynamicType :=
  .plain .integer 4

def realType : DynamicType :=
  .plain .real 4

def doubleType : DynamicType :=
  .plain .real 8

def complexType : DynamicType :=
  .plain .complex 4

def characterType : DynamicType :=
  .plain .character 1

def logicalType : DynamicType :=
  .plain .logical 4

def generics : List Generic :=
  [⟨"abs", .realOfFirst, .elemental⟩,
    ⟨"acos", .ofFirst, .elemental⟩,
    ⟨"aimag", .realOfFirst, .elemental⟩,
    ⟨"asin", .ofFirst, .elemental⟩,
    ⟨"atan", .ofFirst, .elemental⟩,
    ⟨"atan2", .ofFirst, .elemental⟩,
    ⟨"conjg", .ofFirst, .elemental⟩,
    ⟨"cos", .ofFirst, .elemental⟩,
    ⟨"cosh", .ofFirst, .elemental⟩,
    ⟨"dble", .fixed doubleType, .elemental⟩,
    ⟨"dim", .ofFirst, .elemental⟩,
    ⟨"exp", .ofFirst, .elemental⟩,
    ⟨"index", .fixed integerType, .elemental⟩,
    ⟨"int", .fixed integerType, .elemental⟩,
    ⟨"len", .fixed integerType, .inquiry⟩,
    ⟨"len_trim", .fixed integerType, .elemental⟩,
    ⟨"log", .ofFirst, .elemental⟩,
    ⟨"log10", .ofFirst, .elemental⟩,
    ⟨"max", .ofFirst, .elemental⟩,
    ⟨"min", .ofFirst, .elemental⟩,
    ⟨"mod", .ofFirst, .elemental⟩,
    ⟨"nint", .fixed integerType, .elemental⟩,
    ⟨"real", .fixed realType, .elemental⟩,
    ⟨"sign", .ofFirst, .elemental⟩,
    ⟨"sin", .ofFirst, .elemental⟩,
    ⟨"sinh", .ofFirst, .elemental⟩,
    ⟨"sqrt", .ofFirst, .elemental⟩,
    ⟨"tan", .ofFirst, .elemental⟩,
    ⟨"tanh", .ofFirst, .elemental⟩,
    ⟨"allocated", .fixed logicalType, .inquiry⟩,
    ⟨"associated", .fixed logicalType, .inquiry⟩,
    ⟨"kind", .fixed integerType, .inquiry⟩,
    ⟨"present", .fixed logicalType, .inquiry⟩,
    ⟨"selected_int_kind", .fixed integerType, .inquiry⟩,
    ⟨"selected_real_kind", .fixed integerType, .inquiry⟩,
    ⟨"size", .fixed integerType, .inquiry⟩,
    ⟨"maxval", .ofFirst, .reduction⟩,
    ⟨"minval", .ofFirst, .reduction⟩,
    ⟨"product", .ofFirst, .reduction⟩,
    ⟨"sum", .ofFirst, .reduction⟩]

def specifics : List Specific :=
  [⟨"abs", "abs", ["a"], realType, realType⟩,
    ⟨"acos", "acos", ["x"], realType, realType⟩,
    ⟨"aimag", "aimag", ["z"], complexType, realType⟩,
    ⟨"alog", "log", ["x"], realType, realType⟩,
    ⟨"alog10", "log10", ["x"], realType, realType⟩,
    ⟨"amod", "mod", ["a", "p"], realType, realType⟩,
    ⟨"asin", "asin", ["x"], realType, realType⟩,
    ⟨"atan", "atan", ["x"], realType, realType⟩,
    ⟨"atan2", "atan2", ["y", "x"], realType, realType⟩,
    ⟨"cabs", "abs", ["a"], complexType, realType⟩,
    ⟨"ccos", "cos", ["x"], complexType, complexType⟩,
    ⟨"cexp", "exp", ["x"], complexType, complexType⟩,
    ⟨"clog", "log", ["x"], complexType, complexType⟩,
    ⟨"conjg", "conjg", ["z"], complexType, complexType⟩,
    ⟨"cos", "cos", ["x"], realType, realType⟩,
    ⟨"cosh", "cosh", ["x"], realType, realType⟩,
    ⟨"csin", "sin", ["x"], complexType, complexType⟩,
    ⟨"csqrt", "sqrt", ["x"], complexType, complexType⟩,
    ⟨"dabs", "abs", ["a"], doubleType, doubleType⟩,
    ⟨"dacos", "acos", ["x"], doubleType, doubleType⟩,
    ⟨"dasin", "asin", ["x"], doubleType, doubleType⟩,
    ⟨"datan", "atan", ["x"], doubleType, doubleType⟩,
    ⟨"datan2", "atan2", ["y", "x"], doubleType, doubleType⟩,
    ⟨"dcos", "cos", ["x"], doubleType, doubleType⟩,
    ⟨"dcosh", "cosh", ["x"], doubleType, doubleType⟩,
    ⟨"ddim", "dim", ["x", "y"], doubleType, doubleType⟩,
    ⟨"dexp", "exp", ["x"], doubleType, doubleType⟩,
    ⟨"dim", "dim", ["x", "y"], realType, realType⟩,
    ⟨"dlog", "log", ["x"], doubleType, doubleType⟩,
    ⟨"dlog10", "log10", ["x"], doubleType, doubleType⟩,
    ⟨"dmod", "mod", ["a", "p"], doubleType, doubleType⟩,
    ⟨"dsign", "sign", ["a", "b"], doubleType, doubleType⟩,
    ⟨"dsin", "sin", ["x"], doubleType, doubleType⟩,
    ⟨"dsinh", "sinh", ["x"], doubleType, doubleType⟩,
    ⟨"dsqrt", "sqrt", ["x"], doubleType, doubleType⟩,
    ⟨"dtan", "tan", ["x"], doubleType, doubleType⟩,
    ⟨"dtanh", "tanh", ["x"], doubleType, doubleType⟩,
    ⟨"exp", "exp", ["x"], realType, realType⟩,
    ⟨"iabs", "abs", ["a"], integerType, integerType⟩,
    ⟨"idim", "dim", ["x", "y"], integerType, integerType⟩,
    ⟨"index", "index", ["string", "substring"], characterType, integerType⟩,
    ⟨"isign", "sign", ["a", "b"], integerType, integerType⟩,
    ⟨"len", "len", ["string"], characterType, integerType⟩,
    ⟨"mod", "mod", ["a", "p"], integerType, integerType⟩,
    ⟨"sign", "sign", ["a", "b"], realType, realType⟩,
    ⟨"sin", "sin", ["x"], realType, realType⟩,
    ⟨"sinh", "sinh", ["x"], realType, realType⟩,
    ⟨"sqrt", "sqrt", ["x"], realType, realType⟩,
    ⟨"tan", "tan", ["x"], realType, realType⟩,
    ⟨"tanh", "tanh", ["x"], realType, realType⟩]

def generic? (name : String) : Option Generic :=
  generics.find? fun generic => generic.name == name.toLower

def specific? (name : String) : Option Specific :=
  specifics.find? fun specific => specific.name == name.toLower

def isIntrinsic (name : String) : Bool :=
  (generic? name).isSome || (specific? name).isSome

def Generic.isElemental (generic : Generic) : Bool :=
  generic.functionClass = .elemental

/-- A specific function is elemental if its generic one is. -/
def Specific.isElemental (specific : Specific) : Bool :=
  ((generic? specific.generic).map Generic.isElemental).getD true

def isElemental (name : String) : Bool :=
  match generic? name with
  | some generic => generic.isElemental
  | none => ((specific? name).map Specific.isElemental).getD false

/-- A reference is scalar whatever the shapes of its arguments. -/
def hasScalarResult (name : String) : Bool :=
  match generic? name with
  | some generic => !generic.isElemental
  | none => false

def resultType? (name : String) (arguments : List (Option DynamicType)) : Option DynamicType :=
  match generic? name with
  | some generic =>
    let first := arguments.head?.join
    match generic.result with
    | .fixed type => some type
    | .ofFirst => first
    | .realOfFirst =>
      first.map fun type => if type.category = .complex then .plain .real type.kind else type
  | none => (specific? name).map Specific.resultType

end FortranInterface.Intrinsic
