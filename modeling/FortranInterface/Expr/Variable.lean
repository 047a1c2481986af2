import FortranInterface.Expr.Shape

/-!
What an expression designates: whether it is a variable, a pointer or contiguous, and which declared
entity it is the whole of.
-/

namespace FortranInterface

namespace Table

/-- The result of a function, also of one known by a procedure whose interface it has. -/
def functionResult? (table : Table) (id : SymbolId) : Option SymbolId :=
  match table.details (table.chainEnd Details.entityInterface? id) with
  | .subprogram subprogram => subprogram.result
  | _ => none

def isVariableWithin (table : Table) : Nat → Expr → Bool
  | 0, _ => false
  | links + 1, .designator symbol _ _ =>
    match table.details symbol with
    | .object _ => !(table.symbol symbol).has .parameter
    | .associate selector => table.isVariableWithin links selector
    | _ => false
  | _ + 1, .call (.symbol id) _ =>
    match table.functionResult? id with
    | some result => (table.symbol result).isPointer
    | none => false
  | _ + 1, _ => false

/-- A variable designates an object that is not a named constant, or is a reference to a function
with a pointer result. -/
def isVariable (table : Table) (expr : Expr) : Bool :=
  table.isVariableWithin (table.symbols.size + 1) expr

def isArrayValued (table : Table) (expr : Expr) : Bool :=
  match table.rank expr with
  | some rank => rank > 0
  | none => false

def hasVectorSubscript (table : Table) : Expr → Bool
  | .designator _ subscripts _ =>
    subscripts.any fun subscript =>
      match subscript with
      | .index value => table.isArrayValued value
      | .triplet _ _ _ => false
  | _ => false

def isContiguousSubscript (table : Table) : Subscript → Bool
  | .index value => !table.isArrayValued value
  | .triplet _ _ none => true
  | .triplet _ _ (some stride) => table.foldInteger stride == some 1

def isAssumedShapeDummy (symbol : Symbol) : Bool :=
  match symbol.details with
  | .object object =>
    object.isDummy && !symbol.isAllocatable && !symbol.isPointer && object.shape.any Bounds.isColon
  | _ => false

def isSimplyContiguous (table : Table) : Expr → Bool
  | .designator id subscripts _ =>
    let symbol := table.symbol id
    (symbol.has .contiguous || !(symbol.isPointer || isAssumedShapeDummy symbol)) &&
      subscripts.all table.isContiguousSubscript
  | .call _ _ => false
  | _ => true

def wholeSymbol? (table : Table) : Expr → Option Symbol
  | .designator id [] false => some (table.symbol id)
  | _ => none

def isPointer (table : Table) : Expr → Bool
  | .designator id [] _ => (table.symbol id).isPointer
  | .call callee actuals => table.isVariable (.call callee actuals)
  | .null => true
  | _ => false

def isAssumedRank (table : Table) : Expr → Bool
  | .designator id [] _ =>
    match table.details id with
    | .object object => object.shape.isAssumedRank
    | _ => false
  | _ => false

end Table

end FortranInterface
