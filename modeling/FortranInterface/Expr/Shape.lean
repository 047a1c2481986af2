import FortranInterface.Expr.Typing

/-!
The shapes of symbols and expressions: one extent for each dimension, where it is known. A shape is
not known at all where the rank is assumed.
-/

namespace FortranInterface

abbrev Shape := List (Option Expr)

namespace Shape

/-- The shape of an elemental operation: that of the first operand of the highest rank. -/
def elemental : List (Option Shape) → Option Shape :=
  go []
where
  go (longest : Shape) : List (Option Shape) → Option Shape
    | [] => some longest
    | none :: _ => none
    | some shape :: shapes => go (if shape.length > longest.length then shape else longest) shapes

section

variable (table : Table)

/-- The number of elements, if every extent is known. Arithmetic on it is that of 64-bit words. -/
def elementCount (shape : Shape) : Option Int :=
  shape.foldlM (fun count extent => (extent.bind table.foldInteger).map (Word.wrapped <| count * ·)) 1

def ofConstructor (count : Int) : List (Option Shape) → Option Shape
  | [] => some [some (.int count)]
  | none :: _ => none
  | some shape :: shapes =>
    match elementCount table shape with
    | some size => ofConstructor (Word.wrapped (count + size)) shapes
    | none => some [none]

def extentBetween (lower : Option Expr) (upper : Expr) : Option Expr :=
  let lowerValue := match lower with
    | some lower => table.foldInteger lower
    | none => some 1
  match lowerValue, table.foldInteger upper with
  | some lowerValue, some upperValue =>
    (Word.fitting (upperValue - lowerValue)).bind fun difference =>
      (Word.fitting (difference + 1)).map fun extent => .int (max extent 0)
  | some 1, none => some upper
  | _, _ =>
    lower.map fun lower => .binary .add (.binary .subtract upper lower) (.int 1)

def extentOfBounds : Bounds → Option Expr
  | .explicit lower upper => extentBetween table lower upper
  | _ => none

def declaredBounds (id : SymbolId) (dimension : Nat) : Option Expr × Option Expr :=
  match (table.details id).object?.bind (·.shape[dimension]?) with
  | some (.explicit lower upper) => (some (lower.getD (.int 1)), some upper)
  | some (.colon lower) | some (.assumedSize lower) => (some (lower.getD (.int 1)), none)
  | _ => (none, none)

def tripletExtent (lower upper : Option Expr) (stride : Option Int) : Option Expr := do
  let lowerValue ← lower.bind table.foldInteger
  let upperValue ← upper.bind table.foldInteger
  let step ← stride
  if step = 0 then none
  else
    let difference ← Word.fitting (upperValue - lowerValue)
    let reach ← Word.fitting (difference + step)
    let extent ← Word.fitting (reach.tdiv step)
    return .int (max extent 0)

def sectionExtent (id : SymbolId) (dimension : Nat) (lower upper stride : Option Expr) :
    Option Expr :=
  let declared := declaredBounds table id dimension
  tripletExtent table (lower.or declared.1) (upper.or declared.2)
    (match stride with
      | some stride => table.foldInteger stride
      | none => some 1)

def isElementalProcedure (id : SymbolId) : Bool :=
  (table.chain Details.interface? id).any fun id => (table.symbol id).has .elemental

variable (symbolShape : SymbolId → Option Shape)

def ofResultWith (id : SymbolId) : Option Shape :=
  let last := table.chainEnd Details.interface? id
  match table.details last with
  | .subprogram subprogram => subprogram.result.bind symbolShape
  | _ => symbolShape last

mutual

def ofExprWith : Expr → Option Shape
  | .literal _ | .null | .boz _ | .procedure _ => some []
  | .array _ values => ofConstructor table 0 (ofExprsWith values)
  | .designator symbol [] _ => symbolShape symbol
  | .designator symbol subscripts _ => ofSubscriptsWith symbol 0 subscripts
  | .call (.intrinsic name) actuals =>
    if Intrinsic.hasScalarResult name then some [] else elemental (ofActualsWith actuals)
  | .call (.symbol id) actuals =>
    if isElementalProcedure table id then elemental (ofActualsWith actuals)
    else ofResultWith table symbolShape id
  | .operation _ operands => elemental (ofExprsWith operands)

def ofExprsWith : List Expr → List (Option Shape)
  | [] => []
  | value :: values => ofExprWith value :: ofExprsWith values

def ofActualsWith : List (Option Actual) → List (Option Shape)
  | [] => []
  | some ⟨_, .expr value, _, _⟩ :: actuals => ofExprWith value :: ofActualsWith actuals
  | _ :: actuals => ofActualsWith actuals

/-- Each triplet and each vector subscript gives a dimension. -/
def ofSubscriptsWith (id : SymbolId) (dimension : Nat) : List Subscript → Option Shape
  | [] => some []
  | .index value :: subscripts =>
    match ofExprWith value with
    | none => none
    | some [extent] => (ofSubscriptsWith id (dimension + 1) subscripts).map (extent :: ·)
    | some _ => ofSubscriptsWith id (dimension + 1) subscripts
  | .triplet lower upper stride :: subscripts =>
    (ofSubscriptsWith id (dimension + 1) subscripts).map
      (sectionExtent table id dimension lower upper stride :: ·)

end

end

end Shape

namespace Table

def symbolShapeWithin (table : Table) : Nat → SymbolId → Option Shape
  | 0, _ => none
  | links + 1, id =>
    match table.details id with
    | .object object =>
      if object.shape.isAssumedRank then none
      else some (object.shape.map (Shape.extentOfBounds table))
    | .associate selector => Shape.ofExprWith table (table.symbolShapeWithin links) selector
    | .subprogram subprogram =>
      match subprogram.result with
      | some result => table.symbolShapeWithin links result
      | none => some []
    | _ => some []

def symbolShape (table : Table) (id : SymbolId) : Option Shape :=
  table.symbolShapeWithin table.symbols.size id

def shapeOf (table : Table) (expr : Expr) : Option Shape :=
  Shape.ofExprWith table table.symbolShape expr

def rank (table : Table) (expr : Expr) : Option Nat :=
  (table.shapeOf expr).map List.length

end Table

end FortranInterface
