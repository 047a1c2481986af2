import FortranInterface.Source.Diagnostic
import FortranInterface.Token.Basic
import FortranInterface.Tree.Program

/-!
Reading trees from tokens. A reader moves a cursor over the tokens and gives a tree or a fault; a
fault leaves the cursor where it arose, so that reading can go on behind it.

A reader is made for cursors with at most `n` tokens left. What is nested in a construct is read
past the token that opens the construct, by a reader for one token less, and that is why the
recursion of the grammar is recursion on `n`.
-/

namespace FortranInterface.Grammar

/-- Why tokens do not form a tree: the lexeme at hand, or the end of the text, and what was wanted
in its place. -/
structure Fault where
  found : Option Lexeme
  wanted : String
  span : Span

def Fault.message (fault : Fault) : String :=
  match fault.found with
  | some lexeme => "unexpected " ++ lexeme.description ++ ": expected " ++ fault.wanted
  | none => "unexpected end of input, expected " ++ fault.wanted

def Fault.diagnostic (fault : Fault) : Diagnostic :=
  ⟨.grammar, fault.message, fault.span, []⟩

/-- A place between the tokens of a text of `size` bytes: the tokens behind it, at most `n`, and
where the token before it ends. `faults` are those that have been passed, the last one first. -/
structure Cursor (n : Nat) where
  rest : List Token
  bound : rest.length ≤ n
  before : Nat
  size : Nat
  faults : List Fault

namespace Cursor

variable {n : Nat}

def lexeme? (cursor : Cursor n) : Option Lexeme :=
  cursor.rest.head?.map Token.lexeme

def here (cursor : Cursor n) : Span :=
  match cursor.rest with
  | token :: _ => token.span
  | [] => ⟨cursor.size, cursor.size⟩

def next (cursor : Cursor n) : Cursor n :=
  match cursor.rest, cursor.bound with
  | token :: rest, bound =>
    { cursor with
      rest := rest
      bound := Nat.le_of_succ_le bound
      before := token.span.stop }
  | [], _ => cursor

def past (cursor : Cursor (n + 1)) : Cursor n :=
  match cursor.rest, cursor.bound with
  | token :: rest, bound =>
    { cursor with
      rest := rest
      bound := Nat.le_of_succ_le_succ bound
      before := token.span.stop }
  | [], _ => { cursor with rest := [], bound := Nat.zero_le n }

def widen (cursor : Cursor n) : Cursor (n + 1) :=
  { cursor with bound := Nat.le_succ_of_le cursor.bound }

def ofTokens (tokens : List Token) (size : Nat) : Cursor tokens.length :=
  ⟨tokens, Nat.le_refl _, 0, size, []⟩

end Cursor

abbrev Reader (n : Nat) := EStateM Fault (Cursor n)

variable {n : Nat} {α : Type}

def past (reader : Reader n α) : Reader (n + 1) α := fun cursor =>
  match reader cursor.past with
  | .ok value after => .ok value after.widen
  | .error fault after => .error fault after.widen

def peek : Reader n (Option Lexeme) := do
  return (← get).lexeme?

def peekSecond : Reader n (Option Lexeme) := do
  return (← get).rest[1]?.map Token.lexeme

def remaining : Reader n Nat := do
  return (← get).rest.length

def here : Reader n Span := do
  return (← get).here

def start : Reader n Nat := do
  return (← get).here.start

def spanFrom (start : Nat) : Reader n Span := do
  return ⟨start, (← get).before⟩

def skip : Reader n Unit :=
  modify Cursor.next

def fail (wanted : String) : Reader n α := do
  let cursor ← get
  throw ⟨cursor.lexeme?, wanted, cursor.here⟩

def isNext (lexeme : Lexeme) : Reader n Bool := do
  return (← peek) = some lexeme

def isNextMark (mark : Mark) : Reader n Bool :=
  isNext (.mark mark)

def isNextKeyword (keyword : Keyword) : Reader n Bool :=
  isNext (.keyword keyword)

def isNextWord (word : String) : Reader n Bool := do
  return (← peek).bind Lexeme.word? = some word

def accept (lexeme : Lexeme) : Reader n Bool := do
  if ← isNext lexeme then
    skip
    return true
  return false

def acceptMark (mark : Mark) : Reader n Bool :=
  accept (.mark mark)

def acceptKeyword (keyword : Keyword) : Reader n Bool :=
  accept (.keyword keyword)

def expectMark (mark : Mark) : Reader n Unit := do
  unless ← acceptMark mark do
    fail (Lexeme.mark mark).description

def expectKeyword (keyword : Keyword) : Reader n Unit := do
  unless ← acceptKeyword keyword do
    fail (Lexeme.keyword keyword).description

def isAtStatementEnd : Reader n Bool := do
  match ← peek with
  | none | some .newline => return true
  | some _ => return false

def statementEnd : Reader n Unit := do
  match ← peek with
  | none => return
  | some .newline => skip
  | some _ => fail "end of statement"

/-- A name, for which a keyword may stand. -/
def name : Reader n Tree.Located := do
  match (← peek).bind Lexeme.word? with
  | some word =>
    let span ← here
    skip
    return ⟨word, span⟩
  | none => fail "a name"

/-! Loops. Each turn of a loop takes a token, so the tokens that are left bound the turns. -/

def skipNewlinesWithin : Nat → Reader n Unit
  | 0 => return
  | turns + 1 => do
    if ← accept .newline then
      skipNewlinesWithin turns

def skipNewlines : Reader n Unit := do
  skipNewlinesWithin (← remaining)

def skipToStatementEndWithin : Nat → Reader n Unit
  | 0 => return
  | turns + 1 => do
    unless ← isAtStatementEnd do
      skip
      skipToStatementEndWithin turns

def skipToStatementEnd : Reader n Unit := do
  skipToStatementEndWithin (← remaining)

def skipStatement : Reader n Unit := do
  skipToStatementEnd
  skip

def recover (fault : Fault) : Reader n Unit := do
  modify fun cursor => { cursor with faults := fault :: cursor.faults }
  skipStatement

def moreWithin (item : Reader n α) : Nat → Array α → Reader n (List α)
  | 0, done => return done.toList
  | turns + 1, done => do
    if ← acceptMark .comma then
      moreWithin item turns (done.push (← item))
    else
      return done.toList

def separated (item : Reader n α) : Reader n (List α) := do
  let first ← item
  moreWithin item (← remaining) #[first]

def afterCommas (item : Reader n α) : Reader n (List α) := do
  moreWithin item (← remaining) #[]

def manyWithin (item : Reader n (Option (List α))) : Nat → Array α → Reader n (List α)
  | 0, done => return done.toList
  | turns + 1, done => do
    skipNewlines
    let found ←
      try item
      catch fault =>
        recover fault
        pure (some [])
    match found with
    | some items => manyWithin item turns (done ++ items)
    | none => return done.toList

/-- Items that are statements or longer, until `item` finds no more of them. The fault of an item
is kept, and reading goes on with the statement after it. -/
def many (item : Reader n (Option (List α))) : Reader n (List α) := do
  manyWithin item ((← remaining) + 1) #[]

end FortranInterface.Grammar
