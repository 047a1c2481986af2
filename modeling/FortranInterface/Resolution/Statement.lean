import FortranInterface.Resolution.Type

/-!
Statements: the references to procedures in them, and the names that they declare by using them.
-/

namespace FortranInterface

namespace Resolve

open Attempt

def intrinsicSubroutines : List String :=
  ["cpu_time", "date_and_time", "execute_command_line", "get_command", "get_command_argument",
    "get_environment_variable", "move_alloc", "mvbits", "random_number", "random_seed",
    "system_clock"]

def actualList (scope : ScopeId) (arguments : List Tree.Arg) : Attempt Actuals :=
  actuals implicitType scope arguments

def subscriptList (scope : ScopeId) (arguments : List Tree.Arg) : Attempt (List Subscript) :=
  subscripts implicitType scope arguments

/-- The left side of an assignment. If it has parentheses but is neither an array nor a character, it
is a statement function, which is passed over. -/
def assigned (scope : ScopeId) : Tree.Expr → Attempt Expr
  | .call (.name spelling _) arguments span => do
    let table ← table
    let isObject := match table.visible? scope spelling with
      | some id =>
        ((table.details id).isObject || (table.details id).isAssociate) &&
          ((table.symbolShape id).map List.isEmpty != some true || table.isCharacterSymbol id)
      | none => false
    if isObject then
      functionCall implicitType scope spelling span (actualList scope arguments)
        (subscriptList scope arguments)
    else failure
  | left => analyze scope left

def definedAssignment (scope : ScopeId) (left right : Expr) (span : Span) : Resolve Unit := do
  let table ← table
  if table.isDerivedExpr left || table.isDerivedExpr right then
    let actuals := [left, right].map fun side =>
      some (⟨none, .expr side, false, some span⟩ : Actual)
    match table.operatorFor? scope "assignment(=)" [left, right] actuals false with
    | some (generic, specific) =>
      refer ⟨scope, .symbol specific, some generic, actuals, false, span⟩
    | none => return

def calledSubroutine (scope : ScopeId) (name : String) (span : Span) : Attempt SymbolId := do
  match (← table).visible? scope name with
  | some id => return id
  | none =>
    if name ∈ intrinsicSubroutines then failure
    else implicitProcedure implicitType scope name span false

def namedCall (scope : ScopeId) (name : String) (arguments : List Tree.Arg) (span : Span) :
    Attempt Expr := do
  let arguments ← actualList scope arguments
  let id ← calledSubroutine scope name span
  let symbol := (← table).symbol id
  match symbol.details with
  | .subprogram subprogram =>
    if subprogram.isFunction then fail (.functionAsSubroutine name) span
    else reference scope id none arguments false span
  | .procEntity entity =>
    if entity.interface.isSome then reference scope id none arguments false span
    else if symbol.usage.has .function then fail (.referencedBefore name) span
    else
      change fun table => table.addUsage id .subroutine
      reference scope id none arguments false span
  | .object object =>
    if object.isDummy && !object.isArray then
      becomeProcedure id
      change fun table => table.addUsage id .subroutine
      reference scope id none arguments false span
    else fail (.notSubroutine name) span
  | .generic _ =>
    let specific ← specificOf id arguments false span
    reference scope specific (some id) arguments false span
  | .unresolved => failure
  | _ => fail (.notSubroutine name) span

def call (scope : ScopeId) (target : Tree.Expr) (arguments : List Tree.Arg) (span : Span) :
    Attempt Expr :=
  match target with
  | .name spelling _ => namedCall scope spelling arguments span
  | .component base spelling _ => do
    let object ← analyze scope base
    componentCall scope object spelling false span (actualList scope arguments)
      (subscriptList scope arguments)
  | _ => fail .unsupportedCall span

def regardless {α : Type} (attempt : Attempt α) : Resolve Unit := do
  let _ ← attempt.run

def analyzeAll (scope : ScopeId) (values : List Tree.Expr) : Resolve Unit :=
  values.forM fun value => regardless (analyze scope value)

/-- The names of a block, each for its selector. Selectors do not see the names. -/
def associate (scope block : ScopeId) (names : List (String × Tree.Expr)) : Resolve Unit :=
  names.forM fun (name, selector) => do
    match ← (analyze scope selector).run with
    | some value =>
      let _ ← addSymbol block name .empty (.associate value) selector.span
    | none => return

def loopControl (scope : ScopeId) (span : Span) : Option Tree.DoControl → Resolve Unit
  | some control => do
    regardless (name implicitType scope control.index span)
    analyzeAll scope ([control.start, control.stop] ++ control.step.toList)
  | none => return

mutual

def statement (scope : ScopeId) : Tree.Stmt → Resolve Unit
  | .call target arguments span => regardless (call scope target arguments span)
  | .assign left right span => do
    match ← (both (assigned scope left) (analyze scope right)).run with
    | some (left, right) => definedAssignment scope left right span
    | none => return
  | .associate names body _ => do
    let block ← addScope .block none scope none
    associate scope block names
    statements block body
  | .conditional condition thenBody elseBody _ => do
    regardless (analyze scope condition)
    statements scope thenBody
    statements scope elseBody
  | .loop control body span => do
    loopControl scope span control
    statements scope body
  | .print items _ => analyzeAll scope items
  | .leave _ => return

def statements (scope : ScopeId) : List Tree.Stmt → Resolve Unit
  | [] => return
  | first :: rest => do
    statement scope first
    statements scope rest

end

end Resolve

end FortranInterface
