import FortranInterface.Resolution.State
import FortranInterface.Text.Decimal

/-!
Expressions with their names resolved. An undeclared name gets a type by the rules of its scope, and
such a rule may hold expressions in turn, so the functions here take the type of undeclared names as
an argument.
-/

namespace FortranInterface

namespace Tree.BinaryOp

def operator : BinaryOp → Operator
  | add => .add
  | subtract => .subtract
  | multiply => .multiply
  | divide => .divide
  | power => .power
  | concat => .concat
  | equal => .equal
  | notEqual => .notEqual
  | less => .less
  | lessEqual => .lessEqual
  | greater => .greater
  | greaterEqual => .greaterEqual
  | and => .and
  | or => .or
  | eqv => .eqv
  | neqv => .neqv

end Tree.BinaryOp

namespace Resolve

open Attempt

def byte? (value : Int) : Option Nat :=
  if 0 ≤ value ∧ value < 256 then some value.toNat else none

def literalKind (scope : ScopeId) (kind : Option String) (default : Nat) (span : Span) :
    Attempt Nat := do
  match kind with
  | none => return default
  | some kind =>
    match (Text.decimal? kind).bind fun value => byte? value with
    | some value => return value
    | none =>
      let table ← table
      match ((table.visible? scope kind).bind fun id => table.foldInteger (.whole id)).bind byte? with
      | some value => return value
      | none => fail (.literalKind kind) span

def integerLiteral (scope : ScopeId) (digits : String) (kind : Option String) (span : Span) :
    Attempt Expr := do
  let kind ← literalKind scope kind 4 span
  match (Text.decimal? digits).bind fun value => Word.fitting value with
  | some value => return .literal (.integer value kind)
  | none => fail (.integerTooLarge digits) span

/-- A real literal with the exponent letter `d` is of double precision. -/
def realLiteral (scope : ScopeId) (text : String) (kind : Option String) (span : Span) :
    Attempt Expr := do
  let isDouble := text.toList.any fun c => c = 'd' || c = 'D'
  let kind ← literalKind scope kind (if isDouble then 8 else 4) span
  return .literal (.real text kind)

/-- A complex literal has the larger of the kinds of its real parts. -/
def complexLiteral (realPart imaginaryPart : Expr) : Attempt Expr := do
  let table ← table
  let kinds := [realPart, imaginaryPart].filterMap fun part =>
    match table.typeOf part with
    | some (.plain .real kind) => some kind
    | _ => none
  return .literal (.complex (realPart.spelling table) (imaginaryPart.spelling table)
    (kinds.max?.getD 4))

def arrayConstructor (values : List Expr) : Attempt Expr := do
  let table ← table
  return .array ((values.head?.bind table.typeOf).getD (.integer 4)) values

def reference (scope : ScopeId) (procedure : SymbolId) (generic : Option SymbolId)
    (arguments : Actuals) (isFunction : Bool) (span : Span) : Attempt Expr := do
  refer ⟨scope, .symbol procedure, generic, arguments, isFunction, span⟩
  return .call (.symbol procedure) arguments

def componentOf (base : Expr) (name : String) (span : Span) : Attempt SymbolId := do
  let table ← table
  match table.derivedTypeOf? base with
  | none => fail (.notDerivedObject (base.spelling table)) span
  | some type =>
    match table.component? type name with
    | some component => return component
    | none => fail (.notComponent name (table.symbol type).name) span

def component (base : Expr) (name : String) (span : Span) : Attempt Expr := do
  let component ← componentOf base name span
  return if ((← table).details component).isObject then .whole component
    else .procedure (.symbol component)

def coindexed (base : Expr) (span : Span) : Attempt Expr :=
  match base with
  | .designator symbol subscripts _ => return .designator symbol subscripts true
  | _ => fail .coindexed span

def definedOperation (scope : ScopeId) (op : String) (operands : List Expr) (span : Span) :
    Attempt Expr := do
  let table ← table
  let actuals := operands.map fun operand =>
    some (⟨none, .expr operand, false, some span⟩ : Actual)
  match table.operatorFor? scope ("operator(" ++ op ++ ")") operands actuals true with
  | some (generic, specific) => reference scope specific (some generic) actuals true span
  | none =>
    let types := operands.map fun operand =>
      ((table.typeOf operand).map DynamicType.text).getD "untyped"
    fail (.noOperator op types) span

/-- An operation is defined by the user if an operand is of derived type, or if the operands have
types that the intrinsic operation does not combine. -/
def binary (scope : ScopeId) (op : Operator) (left right : Expr) (span : Span) : Attempt Expr := do
  let table ← table
  let types := [table.typeOf left, table.typeOf right]
  let isDerived := table.isDerivedExpr left || table.isDerivedExpr right
  let isInvalid := types.all Option.isSome && (op.resultType? types).isNone
  if isDerived || isInvalid then
    definedOperation scope op.spelling.toLower [left, right] span
  else return .binary op left right

def unary (scope : ScopeId) (op : Tree.UnaryOp) (operand : Expr) (span : Span) : Attempt Expr := do
  let isDerived := (← table).isDerivedExpr operand
  match op with
  | .plus =>
    if isDerived then definedOperation scope "+" [operand] span else return operand
  | .negate =>
    if isDerived then definedOperation scope "-" [operand] span
    else return .unary .negate operand
  | .not =>
    if isDerived then definedOperation scope ".not." [operand] span
    else return .unary .not operand

def specificOf (generic : SymbolId) (actuals : Actuals) (isFunction : Bool) (span : Span) :
    Attempt SymbolId := do
  let table ← table
  match table.specificFor? generic actuals isFunction with
  | some specific => return specific
  | none => fail (.noSpecific isFunction (table.symbol generic).name) span

def componentReference (scope : ScopeId) (component : SymbolId) (object : Expr) (actuals : Actuals)
    (isFunction : Bool) (span : Span) : Attempt Expr := do
  let table ← table
  let name := (table.symbol component).name
  match table.details component with
  | .binding _ | .procEntity _ =>
    let passed := Table.passObject object span actuals (table.passIndex? component)
    reference scope component none passed isFunction span
  | .generic _ =>
    match table.boundSpecificFor? component object span actuals isFunction with
    | some (specific, passed) => reference scope specific (some component) passed isFunction span
    | none => fail (.noSpecificBinding name) span
  | _ => fail (.notProcedure name) span

def componentCall (scope : ScopeId) (object : Expr) (name : String) (isFunction : Bool)
    (span : Span) (actuals : Attempt Actuals) (subscripts : Attempt (List Subscript)) :
    Attempt Expr := do
  let component ← componentOf object name span
  if ((← table).details component).isObject then
    if isFunction then return .designator component (← subscripts) false
    else fail (.notSubroutine name) span
  else componentReference scope component object (← actuals) isFunction span

/-- A name that is passed as an argument may mean a procedure, or a dummy argument of `TYPE(*)`. A
generic name means the specific procedure of the same name. -/
def specialActual (scope : ScopeId) (name : String) (span : Span) : Attempt ActualValue := do
  let table ← table
  match table.visible? scope name with
  | none => failure
  | some id =>
    match table.details id with
    | .subprogram _ | .procEntity _ => return .expr (.procedure (.symbol id))
    | .generic generic =>
      match generic.specifics.find? fun specific =>
          (table.symbol specific).name == (table.symbol id).name with
      | some specific => return .expr (.procedure (.symbol specific))
      | none =>
        report (.genericActual name) span
        return .expr (.procedure (.symbol id))
    | .object object =>
      match object.type with
      | some .typeStar => if object.isDummy then return .assumedType id else failure
      | _ => failure
    | _ => failure

section

variable (typeOfName : ScopeId → String → Span → Attempt DeclaredType)

/-- Declares an undeclared name as a variable. Without a type it is reported, once. -/
def implicitVariable (scope : ScopeId) (name : String) (span : Span) : Attempt SymbolId := do
  let unit := (← table).scopingUnit scope
  match ← settle (typeOfName unit name span) with
  | some type =>
    let id ← addSymbol unit name .empty (.object { ObjectDetails.unknown with type := some type })
      span
    change fun table => table.addUsage id .implicitlyTyped
    return id
  | none =>
    report (.untyped name) span
    let id ← addSymbol unit name .empty .unresolved span
    change fun table => table.addUsage id .implicitlyTyped
    failure

def implicitProcedure (scope : ScopeId) (name : String) (span : Span) (isFunction : Bool) :
    Resolve SymbolId := do
  let unit := (← table).scopingUnit scope
  if isFunction then
    let type ← (typeOfName unit name span).run
    if type.isNone then
      report (.untyped name) span
    let id ← addSymbol unit name .empty (.procEntity ⟨none, type, false, none⟩) span
    change fun table => (table.addUsage id .function).addUsage id .implicitlyTyped
    return id
  else
    let id ← addSymbol unit name .empty (.procEntity ⟨none, none, false, none⟩) span
    change fun table => table.addUsage id .subroutine
    return id

variable (scope : ScopeId)

def name (name : String) (span : Span) : Attempt Expr := do
  let table ← table
  match table.visible? scope name with
  | none => return .whole (← implicitVariable typeOfName scope name span)
  | some id =>
    match table.details id with
    | .object _ | .associate _ => return .whole id
    | .procEntity _ | .subprogram _ | .generic _ => return .procedure (.symbol id)
    | .unresolved => failure
    | _ => fail (.notDataObject name) span

/-- Inside a function its own name, followed by parentheses, means the function and not the result,
unless the result is an array. -/
def calledSymbol (id : SymbolId) : Attempt SymbolId := do
  let state ← get
  let symbol := state.table.symbol id
  let isArray := match symbol.details with
    | .object object => object.isArray
    | _ => false
  if id ∈ state.results && !isArray then
    match (state.table.scope symbol.owner).symbol with
    | some function => return function
    | none => failure
  else return id

/-- Something in parentheses behind the name of an object: subscripts, a substring, or arguments, by
which the object turns out to be a function. -/
def objectCall (id : SymbolId) (name : String) (span : Span) (actuals : Attempt Actuals)
    (subscripts : Attempt (List Subscript)) : Attempt Expr := do
  let table ← table
  let isScalar := match table.symbolShape id with
    | some shape => shape.isEmpty
    | none => false
  if !isScalar then return .designator id (← subscripts) false
  else if table.isCharacterSymbol id then
    let _ ← subscripts
    return .whole id
  else if (table.details id).isAssociate then fail (.notFunction name) span
  else
    becomeProcedure id
    change fun table => table.addUsage id .function
    reference scope id none (← actuals) true span

def functionCall (name : String) (span : Span) (actuals : Attempt Actuals)
    (subscripts : Attempt (List Subscript)) : Attempt Expr := do
  match (← table).visible? scope name with
  | none =>
    if name = "null" then return .null
    else
      let arguments ← actuals
      if Intrinsic.isIntrinsic name then return .call (.intrinsic name) arguments
      else
        let id ← implicitProcedure typeOfName scope name span true
        reference scope id none arguments true span
  | some found =>
    let id ← calledSymbol found
    let table ← table
    let symbol := table.symbol id
    match symbol.details with
    | .object _ | .associate _ => objectCall scope id name span actuals subscripts
    | .subprogram subprogram =>
      if subprogram.isFunction then reference scope id none (← actuals) true span
      else fail (.subroutineAsFunction name) span
    | .procEntity entity =>
      let isImplicit := entity.interface.isNone
      if isImplicit && symbol.usage.has .subroutine then fail (.calledBefore name) span
      else
        if isImplicit && !symbol.has .intrinsic then
          change fun table => table.addUsage id .function
        reference scope id none (← actuals) true span
    | .generic _ =>
      let arguments ← actuals
      let specific ← specificOf id arguments true span
      reference scope specific (some id) arguments true span
    | .unresolved => failure
    | _ => fail (.notFunction name) span

mutual

def expr : Tree.Expr → Attempt Expr
  | .integer digits kind span => integerLiteral scope digits kind span
  | .real text kind span => realLiteral scope text kind span
  | .complex realPart imaginaryPart _ => do
    let parts ← both (expr realPart) (expr imaginaryPart)
    complexLiteral parts.1 parts.2
  | .text value _ => return .literal (.character value 1)
  | .logical value _ => return .literal (.logical value 4)
  | .boz text _ => return .boz text
  | .name spelling span => name typeOfName scope spelling span
  | .call (.name spelling _) arguments span =>
    functionCall typeOfName scope spelling span (actuals arguments) (subscripts arguments)
  | .call (.component base spelling _) arguments span => do
    let object ← expr base
    componentCall scope object spelling true span (actuals arguments) (subscripts arguments)
  | .call _ _ span => fail .unsupportedReference span
  | .component base spelling span => do
    component (← expr base) spelling span
  | .coindexed base span => do
    coindexed (← expr base) span
  | .array values _ => do
    arrayConstructor (← exprs values)
  | .paren inner _ => do
    return .unary .parentheses (← expr inner)
  | .binary op left right span => do
    let operands ← both (expr left) (expr right)
    binary scope op.operator operands.1 operands.2 span
  | .unary op operand span => do
    unary scope op (← expr operand) span
  | .definedBinary op left right span => do
    let operands ← both (expr left) (expr right)
    definedOperation scope ("." ++ op ++ ".") [operands.1, operands.2] span
  | .definedUnary op operand span => do
    definedOperation scope ("." ++ op ++ ".") [← expr operand] span

def exprs : List Tree.Expr → Attempt (List Expr)
  | [] => return []
  | value :: values => do
    let found ← both (expr value) (exprs values)
    return found.1 :: found.2

def bound : Option Tree.Expr → Attempt (Option Expr)
  | some value => some <$> expr value
  | none => return none

def subscript : Tree.Arg → Attempt Subscript
  | ⟨some _, _, span⟩ => fail .subscriptKeyword span
  | ⟨none, .expr value, _⟩ => .index <$> expr value
  | ⟨none, .triplet lower upper stride, _⟩ => do
    let bounds ← both (bound lower) (both (bound upper) (bound stride))
    return .triplet bounds.1 bounds.2.1 bounds.2.2
  | ⟨none, .label _, span⟩ => fail .labelSubscript span

def subscripts : List Tree.Arg → Attempt (List Subscript)
  | [] => return []
  | argument :: arguments => do
    let found ← both (subscript argument) (subscripts arguments)
    return found.1 :: found.2

def actualValue : Tree.Arg → Attempt ActualValue
  | ⟨_, .label value, _⟩ => return .label value
  | ⟨_, .triplet _ _ _, span⟩ => fail .tripletActual span
  | ⟨_, .expr (.name spelling span), _⟩ => do
    match ← settle (specialActual scope spelling span) with
    | some value => return value
    | none => .expr <$> name typeOfName scope spelling span
  | ⟨_, .expr value, _⟩ => .expr <$> expr value

def actuals : List Tree.Arg → Attempt Actuals
  | [] => return []
  | argument :: arguments => do
    let found ← both (actualValue argument) (actuals arguments)
    return some ⟨argument.keyword.map String.toLower, found.1, false, some argument.span⟩ :: found.2

end

end

end Resolve

end FortranInterface
