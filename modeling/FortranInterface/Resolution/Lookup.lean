import FortranInterface.Call.Check

/-!
What names mean in a symbol table: names of a scope, components of a type, and the specific
procedures behind a generic name.
-/

namespace FortranInterface

namespace Table

/-- The symbol a name stands for in a scope and its hosts. The global scope is no host: external
procedures are known only by their interfaces. -/
def visible? (table : Table) (scope : ScopeId) (name : String) : Option SymbolId :=
  ((table.hosts scope).takeWhile (· ≠ global)).findSome? fun host => (table.scope host).find? name

def own? (table : Table) (scope : ScopeId) (name : String) : Option SymbolId :=
  ((table.scope scope).find? name).filter fun id => (table.symbol id).owner = scope

def scopingUnit (table : Table) (scope : ScopeId) : ScopeId :=
  ((table.hosts scope).find? fun host => (table.scope host).kind ≠ .block).getD scope

def parentType? : Details → Option SymbolId
  | .derivedType type => type.parent
  | _ => none

def typeScope? : Details → Option ScopeId
  | .derivedType type => type.scope
  | _ => none

def component? (table : Table) (type : SymbolId) (name : String) : Option SymbolId :=
  (table.chain parentType? type).findSome? fun id =>
    (typeScope? (table.details id)).bind fun scope => (table.scope scope).find? name

def derivedTypeOfWithin (table : Table) : Nat → Expr → Option SymbolId
  | 0, _ => none
  | links + 1, expr =>
    expr.lastSymbol?.bind fun id =>
      match table.details id with
      | .associate selector => table.derivedTypeOfWithin links selector
      | _ =>
        match table.declaredType id with
        | some (.type type) | some (.classOf type) => some type
        | _ => none

def derivedTypeOf? (table : Table) (expr : Expr) : Option SymbolId :=
  table.derivedTypeOfWithin (table.symbols.size + 1) expr

def isDerivedExpr (table : Table) (expr : Expr) : Bool :=
  (table.typeOf expr).map DynamicType.category = some .derived

def isCharacterSymbol (table : Table) (id : SymbolId) : Bool :=
  (table.symbolType id).map DynamicType.category = some .character

def passIndex? (table : Table) (id : SymbolId) : Option Nat :=
  let symbol := table.symbol id
  if symbol.has .noPass then none
  else
    (table.procedure id).bind fun procedure =>
      match symbol.details with
      | .binding _ => procedure.dummies.findIdx? Dummy.pass
      | .procEntity entity =>
        if procedure.hasExplicitInterface then procedure.passIndex? entity.passName else none
      | _ => none

/-- Puts the object of a call through a component into the argument list, at the given place but
not behind a keyword. -/
def passObject (object : Expr) (span : Span) (actuals : Actuals) : Option Nat → Actuals
  | some index =>
    actuals.insertIdx (min index (actuals.takeWhile Arrangement.isPositional).length)
      (some ⟨none, .expr object, true, some span⟩)
  | none => actuals

def fits (table : Table) (isFunction : Bool) (specific : SymbolId) (actuals : Actuals) : Bool :=
  match table.procedure specific with
  | some procedure => procedure.isFunction == isFunction && Call.fitsGeneric table procedure actuals
  | none => false

def specifics (table : Table) (generic : SymbolId) : List SymbolId :=
  match table.details generic with
  | .generic details => details.specifics
  | _ => []

def specificFor? (table : Table) (generic : SymbolId) (actuals : Actuals) (isFunction : Bool) :
    Option SymbolId :=
  (table.specifics generic).find? fun specific => table.fits isFunction specific actuals

def boundSpecificFor? (table : Table) (generic : SymbolId) (object : Expr) (span : Span)
    (actuals : Actuals) (isFunction : Bool) : Option (SymbolId × Actuals) :=
  (table.specifics generic).findSome? fun specific =>
    let passed := passObject object span actuals (table.passIndex? specific)
    if table.fits isFunction specific passed then some (specific, passed) else none

/-- The generics for an operator or assignment: the one in scope, then those bound to the types of
the operands. -/
def operatorGenerics (table : Table) (scope : ScopeId) (name : String) (operands : List Expr) :
    List SymbolId :=
  let inScope := (table.visible? scope name).toList
  let bound := operands.filterMap fun operand =>
    (table.derivedTypeOf? operand).bind fun type => table.component? type name
  ((inScope ++ bound).filter fun id => (table.details id).generic?.isSome).eraseDups

def operatorFor? (table : Table) (scope : ScopeId) (name : String) (operands : List Expr)
    (actuals : Actuals) (isFunction : Bool) : Option (SymbolId × SymbolId) :=
  (table.operatorGenerics scope name operands).findSome? fun generic =>
    (table.specificFor? generic actuals isFunction).map fun specific => (generic, specific)

def integerKindFor (digits : Int) : Int :=
  if digits ≤ 2 then 1 else if digits ≤ 4 then 2 else if digits ≤ 9 then 4
  else if digits ≤ 18 then 8 else 16

def realKindFor (digits : Int) : Int :=
  if digits ≤ 6 then 4 else if digits ≤ 15 then 8 else 16

def kindInquiry? (table : Table) : Expr → Option Int
  | .call (.intrinsic name) actuals =>
    (actuals.head?.join.bind Actual.expr?).bind fun first =>
      match name with
      | "kind" => (table.typeOf first).map fun type => type.kind
      | "selected_int_kind" => (table.foldInteger first).map integerKindFor
      | "selected_real_kind" => (table.foldInteger first).map realKindFor
      | _ => none
  | _ => none

/-- References that ask for a kind are replaced by their value, so that named kinds are constant. -/
def foldKindInquiry (table : Table) (expr : Expr) : Expr :=
  match table.kindInquiry? expr with
  | some value => .int value
  | none => expr

end Table

end FortranInterface
