import FortranInterface.Type.Category

/-!
The types of entities and expressions, and the two relations between them that calls depend on:
which actual arguments a dummy argument accepts, and which types do not tell two specific
procedures apart.
-/

namespace FortranInterface

/-- A derived type: its name, and the names of the types it extends, from its parent on. -/
structure DerivedName where
  name : String
  ancestors : List String
  deriving DecidableEq

namespace DerivedName

def chain (type : DerivedName) : List String :=
  type.name :: type.ancestors

/-- A type extends itself and each of its ancestors. -/
def isExtensionOf (type ancestor : DerivedName) : Bool :=
  decide (ancestor.name ∈ type.chain)

end DerivedName

/-- A type as far as it is known before a program runs. The length of characters belongs to an
entity, not to its type. -/
inductive DynamicType where
  /-- A type with a kind. In the derived category it is `TYPE(*)`. -/
  | plain (category : Category) (kind : Nat)
  | type (name : DerivedName)
  | classOf (name : DerivedName)
  | unlimited
  deriving DecidableEq

namespace DynamicType

def defaultOf (category : Category) : DynamicType :=
  plain category category.defaultKind

def integer (kind : Nat) : DynamicType :=
  plain .integer kind

def logical (kind : Nat) : DynamicType :=
  plain .logical kind

def assumed : DynamicType :=
  plain .derived 0

/-- What a bit pattern without a type of its own counts as. -/
def typeless : DynamicType :=
  plain .integer 0

def category : DynamicType → Category
  | plain category _ => category
  | _ => .derived

def kind : DynamicType → Nat
  | plain _ kind => kind
  | _ => 0

def derivedName? : DynamicType → Option DerivedName
  | type name | classOf name => some name
  | _ => none

def isPolymorphic : DynamicType → Bool
  | classOf _ | unlimited => true
  | _ => false

def isUnlimited : DynamicType → Bool
  | unlimited => true
  | _ => false

def isAssumed : DynamicType → Bool
  | plain .derived _ => true
  | _ => false

def isTypeless : DynamicType → Bool
  | plain .integer 0 => true
  | _ => false

def declared : DynamicType → DynamicType
  | classOf name => type name
  | unlimited => assumed
  | other => other

/-- Whether something of the second type may be associated with an entity declared with the
first. -/
def accepts : DynamicType → DynamicType → Bool
  | unlimited, that | plain .derived _, that => !that.isTypeless
  | classOf mine, type theirs | classOf mine, classOf theirs => theirs.isExtensionOf mine
  | type mine, type theirs | type mine, classOf theirs => decide (mine.name = theirs.name)
  | plain category kind, plain category' kind' => decide (category = category' ∧ kind = kind')
  | _, _ => false

/-- Whether the second type is too close to the first to tell two procedures apart. -/
def tkCompatible : DynamicType → DynamicType → Bool
  | unlimited, _ | _, unlimited => true
  | plain .derived _, _ | _, plain .derived _ => true
  | classOf mine, type theirs | classOf mine, classOf theirs =>
    decide (mine.name = theirs.name) || theirs.isExtensionOf mine
  | type mine, type theirs | type mine, classOf theirs => decide (mine.name = theirs.name)
  | plain category kind, plain category' kind' => decide (category = category' ∧ kind = kind')
  | _, _ => false

def spelling (self : DynamicType) (length : Option String) : String :=
  match self with
  | classOf name => "CLASS(" ++ name.name ++ ")"
  | type name => "TYPE(" ++ name.name ++ ")"
  | unlimited => "CLASS(*)"
  | plain .derived _ => "TYPE(*)"
  | plain .integer 0 => "TYPELESS"
  | plain .character kind =>
    match length with
    | some length => "CHARACTER(KIND=" ++ toString kind ++ ",LEN=" ++ length ++ ")"
    | none => "CHARACTER(KIND=" ++ toString kind ++ ")"
  | plain category kind => category.keyword ++ "(" ++ toString kind ++ ")"

def text (self : DynamicType) : String :=
  self.spelling none

end DynamicType

end FortranInterface
