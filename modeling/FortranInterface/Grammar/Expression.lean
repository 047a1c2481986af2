import FortranInterface.Grammar.Cursor
import FortranInterface.Text.Decimal
import FortranInterface.Word

/-!
Reading expressions. The operators bind in layers, from the weakest: defined operators; `.EQV.` and
`.NEQV.`; `.OR.`; `.AND.`; `.NOT.`; one relational operator; `//`; `+` and `-`, with a sign on the
first term; `*` and `/`; `**`, which groups from the right; defined operators in front of an
operand; and what follows a name: arguments, components and image selectors.

Each layer is written over a reader of the layers inside it. Whatever stands behind an opening
bracket, a `.NOT.`, a `**` or a defined operator is read with one token less to go, so a single
recursion on the number of tokens ties the layers together.
-/

namespace FortranInterface.Grammar

open FortranInterface.Tree (Arg ArgValue BinaryOp UnaryOp)

variable {n : Nat}

/-! Operators. -/

abbrev Join := Tree.Expr → Tree.Expr → Tree.Expr

def binary (op : BinaryOp) : Join := fun left right =>
  .binary op left right (left.span.through right.span)

def definedJoin? : Lexeme → Option Join
  | .definedOperator op =>
    some fun left right => .definedBinary op left right (left.span.through right.span)
  | _ => none

def equivalenceJoin? : Lexeme → Option Join
  | .mark .eqv => some (binary .eqv)
  | .mark .neqv => some (binary .neqv)
  | _ => none

def disjunctionJoin? : Lexeme → Option Join
  | .mark .or => some (binary .or)
  | _ => none

def conjunctionJoin? : Lexeme → Option Join
  | .mark .and => some (binary .and)
  | _ => none

def relationJoin? : Lexeme → Option Join
  | .mark .equal => some (binary .equal)
  | .mark .notEqual => some (binary .notEqual)
  | .mark .less => some (binary .less)
  | .mark .lessEqual => some (binary .lessEqual)
  | .mark .greater => some (binary .greater)
  | .mark .greaterEqual => some (binary .greaterEqual)
  | _ => none

def concatenationJoin? : Lexeme → Option Join
  | .mark .concat => some (binary .concat)
  | _ => none

def sumJoin? : Lexeme → Option Join
  | .mark .plus => some (binary .add)
  | .mark .minus => some (binary .subtract)
  | _ => none

def productJoin? : Lexeme → Option Join
  | .mark .star => some (binary .multiply)
  | .mark .slash => some (binary .divide)
  | _ => none

def sign? : Lexeme → Option UnaryOp
  | .mark .minus => some .negate
  | .mark .plus => some .plus
  | _ => none

def joinedWithin (operand : Reader n Tree.Expr) (join? : Lexeme → Option Join) :
    Nat → Tree.Expr → Reader n Tree.Expr
  | 0, left => return left
  | turns + 1, left => do
    match (← peek).bind join? with
    | some join =>
      skip
      joinedWithin operand join? turns (join left (← operand))
    | none => return left

def joined (operand : Reader n Tree.Expr) (join? : Lexeme → Option Join) : Reader n Tree.Expr := do
  let first ← operand
  joinedWithin operand join? (← remaining) first

/-! The layers between two points of recursion. -/

/-- From defined operators down to `.AND.`, over what may follow a `.NOT.`. -/
def expressionOf (negation : Reader n Tree.Expr) : Reader n Tree.Expr :=
  joined (joined (joined (joined negation conjunctionJoin?) disjunctionJoin?) equivalenceJoin?)
    definedJoin?

def relationOf (sum : Reader n Tree.Expr) : Reader n Tree.Expr := do
  let left ← joined sum concatenationJoin?
  match (← peek).bind relationJoin? with
  | some join =>
    skip
    return join left (← joined sum concatenationJoin?)
  | none => return left

/-- Terms with `+` and `-` between them; a sign in front belongs to the first term alone. -/
def sumOf (power : Reader n Tree.Expr) : Reader n Tree.Expr := do
  let start ← start
  let term := joined power productJoin?
  match (← peek).bind sign? with
  | some sign =>
    skip
    let first ← term
    joinedWithin term sumJoin? (← remaining) (.unary sign first ⟨start, first.span.stop⟩)
  | none => joined term sumJoin?

/-! Arguments. -/

/-- The number of a label; one that is no plain numeral of 64 bits counts as zero. -/
def labelValue (text : String) : Nat :=
  match Text.decimal? text with
  | some value => if value < Word.count then value else 0
  | none => 0

def label : Reader n ArgValue := do
  if (← peekSecond).isNone then
    fail "a statement label"
  skip
  match ← peek with
  | some (.integer text) =>
    skip
    return .label (labelValue text)
  | _ => fail "a statement label"

def triplet (expr : Reader n Tree.Expr) (lower : Option Tree.Expr) : Reader n ArgValue := do
  expectMark .colon
  let upper ← do
    match ← peek with
    | some (.mark .comma) | some (.mark .rightParen) | some (.mark .colon) => pure none
    | _ => some <$> expr
  if ← acceptMark .colon then
    return .triplet lower upper (some (← expr))
  return .triplet lower upper none

def argumentValue (expr : Reader n Tree.Expr) : Reader n ArgValue := do
  if ← isNextMark .star then
    label
  else if ← isNextMark .colon then
    triplet expr none
  else
    let value ← expr
    if ← isNextMark .colon then
      triplet expr (some value)
    else
      return .expr value

def keyword? : Reader n (Option String) := do
  match (← peek).bind Lexeme.word?, ← peekSecond with
  | some word, some (.mark .assign) =>
    skip
    skip
    return some word
  | _, _ => return none

def argument (expr : Reader n Tree.Expr) : Reader n Arg := do
  let start ← start
  let keyword ← keyword?
  let value ← argumentValue expr
  return ⟨keyword, value, ← spanFrom start⟩

def argumentsOf (expr : Reader n Tree.Expr) : Reader (n + 1) (List Arg) := do
  if ← isNextMark .leftParen then
    past do
      if ← acceptMark .rightParen then
        return []
      let items ← separated (argument expr)
      expectMark .rightParen
      return items
  else
    fail "'('"

/-! Operands. -/

def imageSelectorWithin : Nat → Reader n Unit
  | 0 => fail "']'"
  | turns + 1 => do
    unless ← acceptMark .rightBracket do
      if ← isAtStatementEnd then
        fail "']'"
      skip
      imageSelectorWithin turns

def imageSelector : Reader n Unit := do
  imageSelectorWithin ((← remaining) + 1)

def selectedWithin (arguments : Reader n (List Arg)) : Nat → Tree.Expr → Reader n Tree.Expr
  | 0, base => return base
  | turns + 1, base => do
    match ← peek with
    | some (.mark .leftParen) =>
      if base.takesArguments then
        let items ← arguments
        selectedWithin arguments turns (.call base items (← spanFrom base.span.start))
      else
        return base
    | some (.mark .percent) =>
      skip
      let component ← name
      selectedWithin arguments turns
        (.component base component.name (← spanFrom base.span.start))
    | some (.mark .leftBracket) =>
      skip
      imageSelector
      selectedWithin arguments turns (.coindexed base (← spanFrom base.span.start))
    | _ => return base

def selected (arguments : Reader n (List Arg)) (base : Reader n Tree.Expr) : Reader n Tree.Expr := do
  let first ← base
  selectedWithin arguments (← remaining) first

def splitKind (spelling : String) : String × Option String :=
  match spelling.toList.span (· ≠ '_') with
  | (digits, _ :: kind) => (String.ofList digits, some (String.ofList (kind.map Char.toLower)))
  | (digits, []) => (String.ofList digits, none)

def atom? : Lexeme → Option (Span → Tree.Expr)
  | .integer spelling =>
    let (digits, kind) := splitKind spelling
    some (.integer digits kind)
  | .real spelling =>
    let (text, kind) := splitKind spelling
    some (.real text kind)
  | .text value => some (.text value)
  | .truth value => some (.logical value)
  | .boz spelling => some (.boz spelling)
  | lexeme => lexeme.word?.map .name

/-- An expression in parentheses, or two of them that make a complex constant; the opening one has
been passed. -/
def parenthesized (expr : Reader n Tree.Expr) (start : Nat) : Reader n Tree.Expr := do
  let first ← expr
  if ← acceptMark .comma then
    let second ← expr
    expectMark .rightParen
    return .complex first second (← spanFrom start)
  expectMark .rightParen
  return .paren first (← spanFrom start)

def arrayConstructor (expr : Reader n Tree.Expr) (start : Nat) : Reader n Tree.Expr := do
  let values ← if ← isNextMark .rightBracket then pure [] else separated expr
  expectMark .rightBracket
  return .array values (← spanFrom start)

def primaryOf (expr : Reader n Tree.Expr) : Reader (n + 1) Tree.Expr := do
  let span ← here
  match ← peek with
  | some (.mark .leftParen) => past (parenthesized expr span.start)
  | some (.mark .leftBracket) => past (arrayConstructor expr span.start)
  | lexeme =>
    match lexeme.bind atom? with
    | some atom =>
      skip
      return atom (← spanFrom span.start)
    | none => fail "an expression"

/-! The recursion. -/

inductive Layer where
  | expression
  | negation
  | sum
  | power
  | operand
  | designator
  | primary

section

variable (inner : Layer → Reader n Tree.Expr)

def designatorOf : Reader (n + 1) Tree.Expr :=
  selected (argumentsOf (inner .expression)) (primaryOf (inner .expression))

def operandOf : Reader (n + 1) Tree.Expr := do
  match ← peek with
  | some (.definedOperator op) =>
    let start ← start
    past do
      let operand ← inner .operand
      return .definedUnary op operand ⟨start, operand.span.stop⟩
  | _ => designatorOf inner

/-- An exponent with a sign reaches as far as a sum does. -/
def powerOf : Reader (n + 1) Tree.Expr := do
  let base ← operandOf inner
  if ← isNextMark .power then
    past do
      let exponent ←
        if ((← peek).bind sign?).isSome then inner .sum else inner .power
      return binary .power base exponent
  else
    return base

def negationOf : Reader (n + 1) Tree.Expr := do
  if ← isNextMark .not then
    let start ← start
    past do
      let operand ← inner .negation
      return .unary .not operand ⟨start, operand.span.stop⟩
  else
    relationOf (sumOf (powerOf inner))

def layer : Layer → Reader (n + 1) Tree.Expr
  | .expression => expressionOf (negationOf inner)
  | .negation => negationOf inner
  | .sum => sumOf (powerOf inner)
  | .power => powerOf inner
  | .operand => operandOf inner
  | .designator => designatorOf inner
  | .primary => primaryOf (inner .expression)

end

/-- The reader of a layer. Where no token is left, no expression begins. -/
def layerOf : (n : Nat) → Layer → Reader n Tree.Expr
  | 0, _ => fail "an expression"
  | n + 1, entry => layer (layerOf n) entry

def expression : Reader n Tree.Expr :=
  layerOf n .expression

def designator : Reader n Tree.Expr :=
  layerOf n .designator

def primary : Reader n Tree.Expr :=
  layerOf n .primary

def arguments : {n : Nat} → Reader n (List Arg)
  | 0 => fail "'('"
  | _ + 1 => argumentsOf expression

end FortranInterface.Grammar
