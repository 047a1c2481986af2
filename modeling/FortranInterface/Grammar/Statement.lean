import FortranInterface.Grammar.Expression
import FortranInterface.Grammar.Lookahead

/-!
Reading the statements of an execution part. A statement of no interest here is dropped. An
`ELSE IF` becomes a conditional of its own in the `ELSE` branch and shares the `END IF`.
-/

namespace FortranInterface.Grammar

open FortranInterface.Tree (Stmt DoControl)

variable {n : Nat}

/-! Statements that hold no others. -/

def assignment : Reader n Stmt := do
  let start ← start
  let left ← designator
  unless ← acceptMark .assign do
    unless ← acceptMark .arrow do
      fail "'='"
  let right ← expression
  let span ← spanFrom start
  statementEnd
  return .assign left right span

def calledComponentsWithin : Nat → Tree.Expr → Reader n Tree.Expr
  | 0, base => return base
  | turns + 1, base => do
    if ← acceptMark .percent then
      let component ← name
      calledComponentsWithin turns
        (.component base component.name (base.span.through component.span))
    else
      return base

def callTarget : Reader n Tree.Expr := do
  let first ← name
  calledComponentsWithin (← remaining) (.name first.name first.span)

def call : Reader n Stmt := do
  let start ← start
  expectKeyword .call
  let target ← callTarget
  let items ← if ← isNextMark .leftParen then arguments else pure []
  let span ← spanFrom start
  statementEnd
  return .call target items span

def print : Reader n Stmt := do
  let start ← start
  expectKeyword .print
  unless ← acceptMark .star do
    let _ ← expression
  let items ← afterCommas expression
  let span ← spanFrom start
  statementEnd
  return .print items span

def leave : Reader n Stmt := do
  let span ← here
  skip
  statementEnd
  return .leave span

/-! Statements that hold others. -/

def condition : Reader n Tree.Expr := do
  expectMark .leftParen
  let value ← expression
  expectMark .rightParen
  return value

/-- What steers a loop; a `WHILE` is read and forgotten. -/
def loopControl : Reader n (Option DoControl) := do
  if ← isNextWord "while" then
    skip
    let _ ← condition
    return none
  if ← isAtStatementEnd then
    return none
  let index ← name
  expectMark .assign
  let first ← expression
  expectMark .comma
  let last ← expression
  let step ← if ← acceptMark .comma then some <$> expression else pure none
  return some ⟨index.name, first, last, step⟩

def association : Reader n (String × Tree.Expr) := do
  let associate ← name
  expectMark .arrow
  return (associate.name, ← expression)

def isAtElseIf : Reader n Bool := do
  if ← isNextKeyword .else then
    return (← peekSecond) = some (.keyword .if)
  isNextWord "elseif"

def executionOf (statement : Reader n (Option Stmt)) : Reader n (List Stmt) :=
  many do
    if (← peek).isNone || (← isNextKeyword .contains) || (← isAtEnd) ||
        (← isNextKeyword .else) || (← isNextWord "elseif") then
      return none
    return some (← statement).toList

/-- Where reading statements can be entered: at a statement, or behind the `THEN` of a conditional
that began at `start`. -/
inductive Entry where
  | statement
  | branches (start : Nat) (condition : Tree.Expr)

section

variable (inner : Entry → Reader n (Option Stmt))

def conditional (start : Nat) : Reader n (Option Stmt) := do
  let value ← condition
  if ← acceptKeyword .then then
    statementEnd
    inner (.branches start value)
  else
    let body ← inner .statement
    return some (.conditional value body.toList [] (← spanFrom start))

def loop (start : Nat) : Reader n (Option Stmt) := do
  let control ← loopControl
  statementEnd
  let body ← executionOf (inner .statement)
  constructEnd "do" []
  return some (.loop control body (← spanFrom start))

def associateBlock (start : Nat) : Reader n (Option Stmt) := do
  expectMark .leftParen
  let names ← separated association
  expectMark .rightParen
  statementEnd
  let body ← executionOf (inner .statement)
  constructEnd "associate" []
  return some (.associate names body (← spanFrom start))

def statementOf : Reader (n + 1) (Option Stmt) := do
  if let some (.integer _) ← peek then
    skip
  if startsAssignment (← get).rest then
    return some (← assignment)
  let start ← start
  match ← peek with
  | some (.keyword .call) => return some (← call)
  | some (.keyword .print) => return some (← print)
  | some (.keyword .return) => return some (← leave)
  | some (.keyword .if) => past (conditional inner start)
  | some (.keyword .do) => past (loop inner start)
  | some (.keyword .associate) => past (associateBlock inner start)
  | _ =>
    skipStatement
    return none

def elseIf (start : Nat) : Reader n (List Stmt) := do
  let value ← condition
  expectKeyword .then
  statementEnd
  return (← inner (.branches start value)).toList

def branchesOf (start : Nat) (value : Tree.Expr) : Reader (n + 1) (Option Stmt) := do
  let thenBody ← executionOf (statementOf inner)
  let nested ← Grammar.start
  let elseBody ← do
    if ← isAtElseIf then
      if ← isNextKeyword .else then
        past do
          skip
          elseIf inner nested
      else
        past (elseIf inner nested)
    else
      let body ← do
        if ← acceptKeyword .else then
          statementEnd
          executionOf (statementOf inner)
        else
          pure []
      constructEnd "if" []
      pure body
  return some (.conditional value thenBody elseBody (← spanFrom start))

end

def entryOf : (n : Nat) → Entry → Reader n (Option Stmt)
  | 0, .statement => return none
  | 0, .branches _ _ => fail "end if"
  | n + 1, .statement => statementOf (entryOf n)
  | n + 1, .branches start value => branchesOf (entryOf n) start value

def statement : Reader n (Option Stmt) :=
  entryOf n .statement

def execution : Reader n (List Stmt) :=
  executionOf statement

end FortranInterface.Grammar
