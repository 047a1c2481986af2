import FortranInterface.Expr.Spelling
import FortranInterface.Expr.Variable

/-!
The type and shape of an entity or an expression, as far as a reference depends on them, and when
two of them go together.
-/

namespace FortranInterface

inductive ShapeAttribute where
  | assumedRank
  | assumedShape
  | assumedSize
  | deferredShape
  | coarray
  deriving DecidableEq

instance : Enumerated ShapeAttribute where
  all := [.assumedRank, .assumedShape, .assumedSize, .deferredShape, .coarray]
  complete := by intro attr; cases attr <;> decide
  label
    | .assumedRank => "AssumedRank"
    | .assumedShape => "AssumedShape"
    | .assumedSize => "AssumedSize"
    | .deferredShape => "DeferredShape"
    | .coarray => "Coarray"

structure TypeAndShape where
  type : DynamicType
  length : Option Expr
  shape : Shape
  attributes : Flags ShapeAttribute
  corank : Nat
  deriving DecidableEq

/-- Why two types or shapes do not go together. The sides are named as in the message. -/
inductive Mismatch where
  | type (rightIs rightType leftIs leftType : String)
  | rank (leftIs : String) (left : Nat) (rightIs : String) (right : Nat)
  | extent (dimension : Nat) (leftIs : String) (left : Int) (rightIs : String) (right : Int)
  deriving DecidableEq

def Mismatch.text : Mismatch → String
  | type rightIs rightType leftIs leftType =>
    s!"{rightIs} type '{rightType}' is not compatible with {leftIs} type '{leftType}'"
  | rank leftIs left rightIs right =>
    s!"Rank of {leftIs} is {left}, but {rightIs} has rank {right}"
  | extent dimension leftIs left rightIs right =>
    s!"Dimension {dimension} of {leftIs} has extent {left}, but {rightIs} has extent {right}"

namespace Shape

def extentMismatch? (leftIs rightIs : String) (dimension : Nat) : Shape → Shape → Option Mismatch
  | left :: lefts, right :: rights =>
    match left.bind Expr.intLiteral?, right.bind Expr.intLiteral? with
    | some leftExtent, some rightExtent =>
      if leftExtent = rightExtent then
        extentMismatch? leftIs rightIs (dimension + 1) lefts rights
      else some (.extent dimension leftIs leftExtent rightIs rightExtent)
    | _, _ => extentMismatch? leftIs rightIs (dimension + 1) lefts rights
  | _, _ => none

def mismatch? (leftIs rightIs : String) (left right : Shape) : Option Mismatch :=
  if left.length = right.length then extentMismatch? leftIs rightIs 1 left right
  else some (.rank leftIs left.length rightIs right.length)

end Shape

namespace TypeAndShape

def ofShape (type : DynamicType) (shape : Shape) : TypeAndShape :=
  ⟨type, none, shape, .empty, 0⟩

def scalar (type : DynamicType) : TypeAndShape :=
  ofShape type []

def rank (self : TypeAndShape) : Nat :=
  self.shape.length

def has (self : TypeAndShape) (attr : ShapeAttribute) : Bool :=
  self.attributes.has attr

/-- What has an assumed rank has no shape. -/
def withAttribute (self : TypeAndShape) (attr : ShapeAttribute) : TypeAndShape :=
  { self with
    shape := if attr = .assumedRank then [] else self.shape
    attributes := self.attributes.insert attr }

def withCorank (self : TypeAndShape) (corank : Nat) : TypeAndShape :=
  { self with corank, attributes := self.attributes.set .coarray (corank > 0) }

def typeSpelling (self : TypeAndShape) : String :=
  self.type.spelling ((self.length.bind Expr.intLiteral?).map toString)

def dimensionText (table : Table) : Option Expr → String
  | some extent => extent.spelling table
  | none => ":"

def text (self : TypeAndShape) (table : Table) : String :=
  self.type.spelling (self.length.map (·.spelling table)) ++
    String.join (self.attributes.members.map fun attr => " " ++ Enumerated.label attr) ++
    (if self.shape.isEmpty then ""
      else " DIMENSION(" ++ commaSeparated (self.shape.map (dimensionText table)) ++ ")") ++
    (if self.corank > 0 then " CORANK(" ++ toString self.corank ++ ")" else "")

/-- Why the second cannot be associated with the first. In an elemental reference the shapes do not
matter. -/
def mismatch? (left right : TypeAndShape) (leftIs rightIs : String) (isElemental : Bool) :
    Option Mismatch :=
  if left.type.accepts right.type then
    if isElemental then none else Shape.mismatch? leftIs rightIs left.shape right.shape
  else some (.type rightIs right.typeSpelling leftIs left.typeSpelling)

def arrayAttribute? (symbol : Symbol) (shape : ArraySpec) : Option ShapeAttribute :=
  if shape.isAssumedRank then some .assumedRank
  else if shape.isAssumedSize then some .assumedSize
  else if shape.isColonShape then
    if symbol.isPointer || symbol.isAllocatable then some .deferredShape else some .assumedShape
  else none

end TypeAndShape

namespace Table

def objectTypeAndShape (table : Table) (id : SymbolId) : Option TypeAndShape :=
  match table.details id with
  | .object object =>
    (object.type.bind table.typeOfDeclared).map fun type =>
      let declared : TypeAndShape :=
        ⟨type, if type.category = .character then table.symbolLength id else none,
          object.shape.map (Shape.extentOfBounds table), .empty, 0⟩
      let array := match TypeAndShape.arrayAttribute? (table.symbol id) object.shape with
        | some attr => declared.withAttribute attr
        | none => declared
      array.withCorank object.coshape.length
  | _ => none

def exprTypeAndShapeWithin (table : Table) : Nat → Expr → Option TypeAndShape
  | 0, _ => none
  | links + 1, expr =>
    match expr, (table.wholeSymbol? expr).map Symbol.details with
    | .designator id _ _, some (.object _) => table.objectTypeAndShape id
    | _, some (.associate selector) => table.exprTypeAndShapeWithin links selector
    | _, _ =>
      (table.typeOf expr).bind fun type =>
        (table.shapeOf expr).map fun shape =>
          { TypeAndShape.ofShape type shape with
            length := if type.category = .character then table.charLength expr else none }

/-- The type and shape of an expression. A whole object keeps what it was declared with. -/
def exprTypeAndShape (table : Table) (expr : Expr) : Option TypeAndShape :=
  table.exprTypeAndShapeWithin (table.symbols.size + 1) expr

def declaredTypeAndShape (table : Table) (type : DeclaredType) : Option TypeAndShape :=
  (table.typeOfDeclared type).map fun dynamic =>
    { TypeAndShape.scalar dynamic with length := table.lengthOfDeclared type }

def typeAndShapeWithin (table : Table) : Nat → SymbolId → Option TypeAndShape
  | 0, _ => none
  | links + 1, id =>
    match table.details id with
    | .object _ => table.objectTypeAndShape id
    | .associate selector => table.exprTypeAndShape selector
    | .procEntity entity =>
      match entity.interface with
      | some interface => table.typeAndShapeWithin links interface
      | none => entity.type.bind table.declaredTypeAndShape
    | .subprogram subprogram => subprogram.result.bind (table.typeAndShapeWithin links)
    | _ => none

def typeAndShape (table : Table) (id : SymbolId) : Option TypeAndShape :=
  table.typeAndShapeWithin table.symbols.size id

end Table

end FortranInterface
