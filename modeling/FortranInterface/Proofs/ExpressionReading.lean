import Mathlib.Data.List.TakeDrop
import FortranInterface.Grammar.Expression
import FortranInterface.Proofs.Reading

/-!
Reading an expression inverts writing it. `Written` is the grammar of expressions, as a relation
between trees and tokens: an operand stands without parentheses only where it binds tightly enough
for its place. The reader of expressions gives back every tree that is written so, up to spans,
and stops behind its last token.

The levels at which expressions bind, from the weakest: 0 for a defined operator between operands,
1 for `.EQV.` and `.NEQV.`, 2 for `.OR.`, 3 for `.AND.`, 4 for `.NOT.`, 5 for a relational operator,
6 for `//`, 7 for `+`, `-` and a sign, 8 for `*` and `/`, 9 for `**`, 10 for a defined operator in
front of its operand, 11 for arguments, components and image selectors, and 12 for what stands alone
or in brackets.
-/

namespace FortranInterface

namespace Tree

/-! Levels. -/

namespace BinaryOp

def mark : BinaryOp → Mark
  | add => .plus
  | subtract => .minus
  | multiply => .star
  | divide => .slash
  | power => .power
  | equal => .equal
  | notEqual => .notEqual
  | less => .less
  | greater => .greater
  | lessEqual => .lessEqual
  | greaterEqual => .greaterEqual
  | and => .and
  | or => .or
  | eqv => .eqv
  | neqv => .neqv
  | concat => .concat

def level : BinaryOp → Nat
  | eqv | neqv => 1
  | or => 2
  | and => 3
  | equal | notEqual | less | greater | lessEqual | greaterEqual => 5
  | concat => 6
  | add | subtract => 7
  | multiply | divide => 8
  | power => 9

/-- How tightly the left operand has to bind. Relational operators do not follow one another, and
`**` groups from the right. -/
def leftLevel : BinaryOp → Nat
  | equal | notEqual | less | greater | lessEqual | greaterEqual => 6
  | power => 10
  | op => op.level

def rightLevel : BinaryOp → Nat
  | power => 9
  | op => op.level + 1

theorem level_le_leftLevel (op : BinaryOp) : op.level ≤ op.leftLevel := by
  cases op <;> decide

end BinaryOp

namespace UnaryOp

def mark : UnaryOp → Mark
  | negate => .minus
  | plus => .plus
  | not => .not

def level : UnaryOp → Nat
  | negate | plus => 7
  | not => 4

def operandLevel : UnaryOp → Nat
  | negate | plus => 8
  | not => 4

end UnaryOp

def Expr.level : Expr → Nat
  | definedBinary _ _ _ _ => 0
  | binary op _ _ _ => op.level
  | unary op _ _ => op.level
  | definedUnary _ _ _ => 10
  | call _ _ _ | component _ _ _ | coindexed _ _ => 11
  | _ => 12

/-! Trees without their spans. -/

def nowhere : Span :=
  ⟨0, 0⟩

mutual

/-- The tree with every span put at the same place. -/
def Expr.bare : Expr → Expr
  | .integer digits kind _ => .integer digits kind nowhere
  | .real text kind _ => .real text kind nowhere
  | .complex realPart imaginaryPart _ => .complex realPart.bare imaginaryPart.bare nowhere
  | .text value _ => .text value nowhere
  | .logical value _ => .logical value nowhere
  | .boz text _ => .boz text nowhere
  | .name spelling _ => .name spelling nowhere
  | .call target arguments _ => .call target.bare (bareArguments arguments) nowhere
  | .component base spelling _ => .component base.bare spelling nowhere
  | .coindexed base _ => .coindexed base.bare nowhere
  | .array values _ => .array (bareValues values) nowhere
  | .paren inner _ => .paren inner.bare nowhere
  | .binary op left right _ => .binary op left.bare right.bare nowhere
  | .unary op operand _ => .unary op operand.bare nowhere
  | .definedBinary op left right _ => .definedBinary op left.bare right.bare nowhere
  | .definedUnary op operand _ => .definedUnary op operand.bare nowhere

def bareValues : List Expr → List Expr
  | [] => []
  | value :: values => value.bare :: bareValues values

def bareBound : Option Expr → Option Expr
  | some value => some value.bare
  | none => none

def ArgValue.bare : ArgValue → ArgValue
  | .expr value => .expr value.bare
  | .label value => .label value
  | .triplet lower upper stride =>
    .triplet (bareBound lower) (bareBound upper) (bareBound stride)

def Arg.bare : Arg → Arg
  | ⟨keyword, value, _⟩ => ⟨keyword, value.bare, nowhere⟩

def bareArguments : List Arg → List Arg
  | [] => []
  | argument :: arguments => argument.bare :: bareArguments arguments

end

theorem bareValues_of_same {found values : List Expr}
    (same : List.Forall₂ (fun value wanted => value.bare = wanted.bare) found values) :
    bareValues found = bareValues values := by
  induction same with
  | nil => rfl
  | cons head _ ih => rw [bareValues, bareValues, head, ih]

theorem bareArguments_of_same {found arguments : List Arg}
    (same : List.Forall₂ (fun argument wanted => argument.bare = wanted.bare) found arguments) :
    bareArguments found = bareArguments arguments := by
  induction same with
  | nil => rfl
  | cons head _ ih => rw [bareArguments, bareArguments, head, ih]

theorem Expr.takesArguments_bare (value : Expr) : value.bare.takesArguments = value.takesArguments := by
  cases value <;> simp only [Expr.bare, takesArguments]

end Tree

namespace Grammar

open FortranInterface.Tree (Arg ArgValue BinaryOp UnaryOp nowhere)

/-! The grammar. -/

inductive Literal : String → Option String → String → Prop
  | plain {text : String} : '_' ∉ text.toList → Literal text none text
  | ofKind {text kind : String} : '_' ∉ text.toList →
    Literal text (some (String.ofList (kind.toList.map Char.toLower))) (text ++ "_" ++ kind)

inductive Optionally {α : Type} (Item : α → List Token → Prop) : Option α → List Token → Prop
  | omitted : Optionally Item none []
  | given {value : α} {tokens : List Token} : Item value tokens → Optionally Item (some value) tokens

mutual

/-- The tokens with which an expression is written. The spans of tree and tokens are free, a keyword
may stand for a name, and an image selector holds any tokens up to its closing bracket. -/
inductive Written : Tree.Expr → List Token → Prop
  | integer {digits spelling : String} {kind : Option String} {span place : Span} :
    Literal digits kind spelling → Written (.integer digits kind span) [⟨.integer spelling, place⟩]
  | real {text spelling : String} {kind : Option String} {span place : Span} :
    Literal text kind spelling → Written (.real text kind span) [⟨.real spelling, place⟩]
  | text {value : String} {span place : Span} : Written (.text value span) [⟨.text value, place⟩]
  | logical {value : Bool} {span place : Span} :
    Written (.logical value span) [⟨.truth value, place⟩]
  | boz {text : String} {span place : Span} : Written (.boz text span) [⟨.boz text, place⟩]
  | name {word : String} {lexeme : Lexeme} {span place : Span} :
    lexeme.word? = some word → Written (.name word span) [⟨lexeme, place⟩]
  | paren {inner : Tree.Expr} {tokens : List Token} {span opening closing : Span} :
    Written inner tokens →
      Written (.paren inner span) (⟨.mark .leftParen, opening⟩ :: (tokens ++ [⟨.mark .rightParen, closing⟩]))
  | complex {realPart imaginaryPart : Tree.Expr} {first second : List Token}
      {span opening comma closing : Span} :
    Written realPart first → Written imaginaryPart second →
      Written (.complex realPart imaginaryPart span)
        (⟨.mark .leftParen, opening⟩ :: (first ++ ⟨.mark .comma, comma⟩ :: (second ++ [⟨.mark .rightParen, closing⟩])))
  | array {values : List Tree.Expr} {tokens : List Token} {span opening closing : Span} :
    Separated Written values tokens →
      Written (.array values span) (⟨.mark .leftBracket, opening⟩ :: (tokens ++ [⟨.mark .rightBracket, closing⟩]))
  | call {target : Tree.Expr} {arguments : List Arg} {tokens items : List Token}
      {span opening closing : Span} :
    target.takesArguments = true → Written target tokens →
      Separated WrittenArgument arguments items →
      Written (.call target arguments span)
        (tokens ++ ⟨.mark .leftParen, opening⟩ :: (items ++ [⟨.mark .rightParen, closing⟩]))
  | component {base : Tree.Expr} {word : String} {lexeme : Lexeme} {tokens : List Token}
      {span percent place : Span} :
    11 ≤ base.level → Written base tokens → lexeme.word? = some word →
      Written (.component base word span) (tokens ++ [⟨.mark .percent, percent⟩, ⟨lexeme, place⟩])
  | coindexed {base : Tree.Expr} {tokens images : List Token} {span opening closing : Span} :
    11 ≤ base.level → Written base tokens →
      (∀ token ∈ images, token.lexeme ≠ .mark .rightBracket ∧ token.lexeme ≠ .newline) →
      Written (.coindexed base span)
        (tokens ++ ⟨.mark .leftBracket, opening⟩ :: (images ++ [⟨.mark .rightBracket, closing⟩]))
  | binary {op : BinaryOp} {left right : Tree.Expr} {before behind : List Token} {span place : Span} :
    op.leftLevel ≤ left.level → op.rightLevel ≤ right.level →
      Written left before → Written right behind →
      Written (.binary op left right span) (before ++ ⟨.mark op.mark, place⟩ :: behind)
  | unary {op : UnaryOp} {operand : Tree.Expr} {tokens : List Token} {span place : Span} :
    op.operandLevel ≤ operand.level → Written operand tokens →
      Written (.unary op operand span) (⟨.mark op.mark, place⟩ :: tokens)
  | definedBinary {op : String} {left right : Tree.Expr} {before behind : List Token}
      {span place : Span} :
    1 ≤ right.level → Written left before → Written right behind →
      Written (.definedBinary op left right span) (before ++ ⟨.definedOperator op, place⟩ :: behind)
  | definedUnary {op : String} {operand : Tree.Expr} {tokens : List Token} {span place : Span} :
    10 ≤ operand.level → Written operand tokens →
      Written (.definedUnary op operand span) (⟨.definedOperator op, place⟩ :: tokens)

inductive WrittenValue : ArgValue → List Token → Prop
  | expr {value : Tree.Expr} {tokens : List Token} :
    Written value tokens → WrittenValue (.expr value) tokens
  | label {value : Nat} {numeral : String} {star place : Span} :
    Text.decimal? numeral = some value → value < Word.count →
      WrittenValue (.label value) [⟨.mark .star, star⟩, ⟨.integer numeral, place⟩]
  | triplet {lower upper : Option Tree.Expr} {before behind : List Token} {place : Span} :
    Optionally Written lower before → Optionally Written upper behind →
      WrittenValue (.triplet lower upper none) (before ++ ⟨.mark .colon, place⟩ :: behind)
  | strided {lower upper : Option Tree.Expr} {stride : Tree.Expr} {before behind last : List Token}
      {place next : Span} :
    Optionally Written lower before → Optionally Written upper behind → Written stride last →
      WrittenValue (.triplet lower upper (some stride))
        (before ++ ⟨.mark .colon, place⟩ :: (behind ++ ⟨.mark .colon, next⟩ :: last))

inductive WrittenArgument : Arg → List Token → Prop
  | positional {value : ArgValue} {tokens : List Token} {span : Span} :
    WrittenValue value tokens → WrittenArgument ⟨none, value, span⟩ tokens
  | keyword {word : String} {lexeme : Lexeme} {value : ArgValue} {tokens : List Token}
      {span place assign : Span} :
    lexeme.word? = some word → WrittenValue value tokens →
      WrittenArgument ⟨some word, value, span⟩ (⟨lexeme, place⟩ :: ⟨.mark .assign, assign⟩ :: tokens)

end

/-! Which lexemes an expression begins with, and which go on with one. -/

def joinsAt? : Lexeme → Option Nat
  | .definedOperator _ => some 0
  | .mark .eqv | .mark .neqv => some 1
  | .mark .or => some 2
  | .mark .and => some 3
  | .mark .equal | .mark .notEqual | .mark .less | .mark .greater | .mark .lessEqual
  | .mark .greaterEqual => some 5
  | .mark .concat => some 6
  | .mark .plus | .mark .minus => some 7
  | .mark .star | .mark .slash => some 8
  | .mark .power => some 9
  | .mark .leftParen | .mark .percent | .mark .leftBracket => some 11
  | _ => none

/-- The highest level of the expressions that begin with a lexeme. -/
def opensAt? : Lexeme → Option Nat
  | .mark .not => some 4
  | .mark .plus | .mark .minus => some 7
  | .definedOperator _ => some 10
  | .mark .leftParen | .mark .leftBracket => some 12
  | .integer _ | .real _ | .text _ | .truth _ | .boz _ | .name _ | .keyword _ => some 12
  | _ => none

/-- The next lexeme does not go on with an expression of the level. -/
def Stops (level : Nat) (tokens : List Token) : Prop :=
  ∀ lexeme joined, next? tokens = some lexeme → joinsAt? lexeme = some joined → joined < level

variable {tokens : List Token}

theorem Stops.mono {level higher : Nat} (stops : Stops level tokens) (le : level ≤ higher) : Stops higher tokens := by
  intro lexeme joined next joins
  exact Nat.lt_of_lt_of_le (stops lexeme joined next joins) le

variable {token : Token}

theorem stops_cons {level joined : Nat} (joins : joinsAt? token.lexeme = some joined) (lt : joined < level) :
    Stops level (token :: tokens) := by
  intro lexeme other next joins'
  cases next
  cases joins.symm.trans joins'
  exact lt

theorem stops_of_ends {level : Nat} (ends : joinsAt? token.lexeme = none) : Stops level (token :: tokens) := by
  intro lexeme other next joins
  cases next
  cases ends.symm.trans joins

theorem stops_primary (tokens : List Token) : Stops 12 tokens := by
  intro lexeme joined _ joins
  unfold joinsAt? at joins
  split at joins <;> grind

variable {lexeme : Lexeme}

theorem Stops.next_ne {level joined : Nat} (stops : Stops level tokens) (joins : joinsAt? lexeme = some joined)
    (le : level ≤ joined) : next? tokens ≠ some lexeme := by
  intro next
  exact absurd (stops lexeme joined next joins) (Nat.not_lt.mpr le)

theorem joinsAt?_mark (op : BinaryOp) : joinsAt? (.mark op.mark) = some op.level := by
  cases op <;> rfl

theorem mark_ne_assign (op : BinaryOp) : Lexeme.mark op.mark ≠ .mark .assign := by
  cases op <;> decide

/-- How the tokens of an expression of the level begin: with a lexeme that can open it, and if that
is a word, without `=` behind it. -/
def Begins (level : Nat) (tokens : List Token) : Prop :=
  ∃ token others opened, tokens = token :: others ∧ opensAt? token.lexeme = some opened ∧
    level ≤ opened ∧ ∀ rest, next? rest ≠ some (.mark .assign) → token.lexeme.word? ≠ none →
      next? (others ++ rest) ≠ some (.mark .assign)

section

variable {level opened : Nat} (opens : opensAt? token.lexeme = some opened) (le : level ≤ opened)
include opens le

theorem begins_single : Begins level [token] :=
  ⟨token, [], opened, rfl, opens, le, fun _ last _ => last⟩

theorem begins_cons {others : List Token} (noWord : token.lexeme.word? = none) : Begins level (token :: others) :=
  ⟨token, others, opened, rfl, opens, le, fun _ _ word => absurd noWord word⟩

end

theorem Begins.append {level lower : Nat} {tokens others : List Token} (begins : Begins level tokens)
    (le : lower ≤ level) (goesOn : token.lexeme ≠ .mark .assign) : Begins lower (tokens ++ token :: others) := by
  obtain ⟨first, between, opened, rfl, opens, level_le, second⟩ := begins
  refine ⟨first, between ++ token :: others, opened, rfl, opens, Nat.le_trans le level_le, ?_⟩
  intro rest _ word
  rw [List.append_assoc]
  exact second _ (by simpa using goesOn) word

theorem opensAt?_of_word {word : String} (named : lexeme.word? = some word) : opensAt? lexeme = some 12 := by
  cases lexeme <;> first | rfl | cases named

theorem eleven_le_of_takesArguments {target : Tree.Expr} (takes : target.takesArguments = true) :
    11 ≤ target.level := by
  cases target <;> simp_all [Tree.Expr.takesArguments, Tree.Expr.level]

variable {value : Tree.Expr} {rest : List Token}

section

variable (written : Written value tokens)
include written

theorem Written.begins : Begins value.level tokens := by
  -- The expression on the left of an operator or a selector has fewer tokens.
  induction count : tokens.length using Nat.strongRecOn generalizing value tokens with
  | ind count ih =>
  subst count
  cases written with
  | integer | real | text | logical | boz => exact begins_single rfl (Nat.le_refl 12)
  | name named => exact begins_single (opensAt?_of_word named) (Nat.le_refl 12)
  | paren | complex | array => exact begins_cons rfl (Nat.le_refl 12) rfl
  | call takes target =>
    exact (ih _ (by simp) target rfl).append (eleven_le_of_takesArguments takes) (by simp)
  | component high base => exact (ih _ (by simp) base rfl).append high (by simp)
  | coindexed high base => exact (ih _ (by simp) base rfl).append high (by simp)
  | @binary op _ _ _ _ _ _ high _ left =>
    have le := Nat.le_trans op.level_le_leftLevel high
    exact (ih _ (by simp) left rfl).append le (mark_ne_assign op)
  | @unary op => cases op <;> exact begins_cons rfl (Nat.le_refl _) rfl
  | definedBinary _ left =>
    exact (ih _ (by simp) left rfl).append (Nat.zero_le _) (by simp)
  | definedUnary => exact begins_cons rfl (Nat.le_refl 10) rfl

theorem Written.next_ne (low : ∀ opened, opensAt? lexeme = some opened → opened < value.level) :
    next? (tokens ++ rest) ≠ some lexeme := by
  obtain ⟨token, others, opened, rfl, opens, le, -⟩ := written.begins
  intro next
  cases next
  exact absurd (low opened opens) (Nat.not_lt.mpr le)

theorem Written.next_ne_mark (rest : List Token) {mark : Mark} (closed : opensAt? (.mark mark) = none) :
    next? (tokens ++ rest) ≠ some (.mark mark) := by
  refine written.next_ne fun opened opens => ?_
  cases closed.symm.trans opens

theorem Written.no_keyword (last : next? rest ≠ some (.mark .assign)) :
    (next? (tokens ++ rest)).bind Lexeme.word? = none ∨ next? (tokens ++ rest).tail ≠ some (.mark .assign) := by
  obtain ⟨token, others, -, rfl, -, -, second⟩ := written.begins
  cases word : token.lexeme.word? with
  | none => exact .inl word
  | some _ => exact .inr (second rest last (by simp [word]))

/-! Operands with operators between them. -/

end

variable {n : Nat}

/-- The reader takes the expressions of the level, and of the levels above, where nothing goes on
with them. -/
def Parses (reader : Reader n Tree.Expr) (level : Nat) : Prop :=
  ∀ ⦃value : Tree.Expr⦄ ⦃tokens rest : List Token⦄, Written value tokens → level ≤ value.level →
    Stops level rest → Reads reader tokens rest (·.bare = value.bare)

/-- An expression of the level whose last operator makes it of two operands of which only the left
one may be of the same level. -/
inductive Splits (level : Nat) (join? : Lexeme → Option Join) : Tree.Expr → List Token → Prop
  | intro {value left right : Tree.Expr} {before behind : List Token} {op : Token} {join : Join} :
    Written left before → level ≤ left.level → Written right behind → level + 1 ≤ right.level →
      join? op.lexeme = some join →
      (∀ first second : Tree.Expr, first.bare = left.bare → second.bare = right.bare →
        (join first second).bare = value.bare) →
      Splits level join? value (before ++ op :: behind)

theorem bare_binary (op : BinaryOp) {left right first second : Tree.Expr} (span : Span)
    (same : first.bare = left.bare) (same' : second.bare = right.bare) :
    (binary op first second).bare = (Tree.Expr.binary op left right span).bare := by
  rw [binary, Tree.Expr.bare, Tree.Expr.bare, same, same']

variable {before behind : List Token} {join? : Lexeme → Option Join}

theorem splits_binary {op : BinaryOp} {left right : Tree.Expr} {span place : Span}
    (high : op.leftLevel ≤ left.level) (higher : op.rightLevel ≤ right.level)
    (writtenLeft : Written left before) (writtenRight : Written right behind)
    (grouped : op.rightLevel = op.leftLevel + 1) (found : join? (.mark op.mark) = some (binary op)) :
    Splits op.leftLevel join? (.binary op left right span) (before ++ ⟨.mark op.mark, place⟩ :: behind) :=
  .intro writtenLeft high writtenRight (grouped ▸ higher) found fun _ _ same same' => bare_binary op span same same'

section

variable {level : Nat} {join? : Lexeme → Option Join} {head operand : Reader n Tree.Expr}
  {Base : Tree.Expr → List Token → Prop}

theorem reads_joinedWithin_end (joins : ∀ lexeme join, join? lexeme = some join → joinsAt? lexeme = some level)
    (stops : Stops level rest) (turns : Nat) (found : Tree.Expr) :
    Reads (joinedWithin operand join? turns found) [] rest (· = found) := by
  cases turns with
  | zero => exact Reads.pure rfl
  | succ turns =>
    refine Reads.peek_bind ?_
    have none_joins : (next? ([] ++ rest)).bind join? = none := by
      refine Option.bind_eq_none_iff.mpr fun lexeme next => ?_
      cases joined : join? lexeme with
      | none => rfl
      | some join => exact absurd next (stops.next_ne (joins _ _ joined) (Nat.le_refl level))
    rw [none_joins]
    exact Reads.pure rfl

section

variable (heads : ∀ {value : Tree.Expr} {tokens rest : List Token}, Base value tokens →
    Stops (level + 1) rest → Reads head tokens rest (·.bare = value.bare))
  (operands : Parses operand (level + 1))
  (joins : ∀ lexeme join, join? lexeme = some join → joinsAt? lexeme = some level)
  (splits : ∀ {value : Tree.Expr} {tokens : List Token}, Written value tokens →
    level ≤ value.level → Base value tokens ∨ Splits level join? value tokens)
include heads operands joins splits

/-- Behind the tokens of an expression the loop has the expression in hand. The induction goes
along the left operands; `more` is what the loop has to take after them. -/
theorem reads_spine {tokens more rest : List Token} {post : Tree.Expr → Prop} (written : Written value tokens)
    (high : level ≤ value.level) (stops : Stops (level + 1) (more ++ rest))
    (goesOn : ∀ found turns, found.bare = value.bare → (more ++ rest).length ≤ turns →
      Reads (joinedWithin operand join? turns found) more rest post) :
    Reads (head >>= fun first => remaining >>= fun turns => joinedWithin operand join? turns first)
      (tokens ++ more) rest post := by
  induction count : tokens.length using Nat.strongRecOn generalizing value tokens more with
  | ind count ih =>
  subst count
  rcases splits written high with base | split
  · refine (heads base stops).bind fun found same => ?_
    exact Reads.remaining_bind (goesOn found _ same (Nat.le_refl _))
  · obtain ⟨left, highLeft, right, highRight, found, bare⟩ := split
    rename_i before behind op join
    rw [List.append_assoc, List.cons_append]
    refine ih _ (by simp) left highLeft (stops_cons (joins _ _ found) (Nat.lt_succ_self level)) ?_ rfl
    intro first turns same enough
    obtain _ | turns := turns
    · simp at enough
    refine Reads.peek_bind ?_
    simp only [List.cons_append, next?_cons, Option.bind_some, found]
    refine Reads.skip_bind ((operands right highRight stops).bind fun second same' => ?_)
    refine goesOn _ turns (bare first second same same') ?_
    simp only [List.length_append, List.length_cons] at enough ⊢
    omega

variable (Base) in
theorem parses_chain :
    Parses (head >>= fun first => remaining >>= fun turns => joinedWithin operand join? turns first) level := by
  intro value tokens rest written high stops
  rw [← List.append_nil tokens]
  refine reads_spine heads operands joins splits written high
    (stops.mono (Nat.le_succ level)) fun found turns same _ => ?_
  refine (reads_joinedWithin_end joins stops turns found).mono ?_
  rintro _ rfl
  exact same

end

theorem Parses.joined (operands : Parses operand (level + 1))
    (joins : ∀ lexeme join, join? lexeme = some join → joinsAt? lexeme = some level)
    (splits : ∀ {value : Tree.Expr} {tokens : List Token}, Written value tokens →
      value.level = level → Splits level join? value tokens) : Parses (joined operand join?) level := by
  refine parses_chain (fun value tokens => Written value tokens ∧ level + 1 ≤ value.level)
    (fun base stops => operands base.1 base.2 stops) operands joins ?_
  intro value tokens written high
  rcases Nat.eq_or_lt_of_le high with same | higher
  · exact .inr (splits written same.symm)
  · exact .inl ⟨written, higher⟩

end

structure JoinsBinary (level : Nat) (join? : Lexeme → Option Join) : Prop where
  joins : ∀ lexeme join, join? lexeme = some join → joinsAt? lexeme = some level
  finds : ∀ op : BinaryOp, op.level = level → join? (.mark op.mark) = some (binary op)

def binaryLayers : List (Nat × (Lexeme → Option Join)) :=
  [(1, equivalenceJoin?), (2, disjunctionJoin?), (3, conjunctionJoin?), (6, concatenationJoin?), (7, sumJoin?),
    (8, productJoin?)]

theorem joinsBinary_of_mem {level : Nat} (member : (level, join?) ∈ binaryLayers) : JoinsBinary level join? := by
  simp only [binaryLayers, List.mem_cons, Prod.mk.injEq, List.not_mem_nil, or_false] at member
  rcases member with ⟨rfl, rfl⟩ | ⟨rfl, rfl⟩ | ⟨rfl, rfl⟩ | ⟨rfl, rfl⟩ | ⟨rfl, rfl⟩ | ⟨rfl, rfl⟩
  all_goals
    refine ⟨fun lexeme join joins => ?_, fun op level => by cases op <;> first | rfl | cases level⟩
    simp only [equivalenceJoin?, disjunctionJoin?, conjunctionJoin?, concatenationJoin?, sumJoin?, productJoin?] at joins
    split at joins <;> first | rfl | cases joins

theorem splits_of_level {level : Nat} (written : Written value tokens) (same : value.level = level)
    (member : (level, join?) ∈ binaryLayers) (unsigned : level ≠ 7) : Splits level join? value tokens := by
  have layered : level = 1 ∨ level = 2 ∨ level = 3 ∨ level = 6 ∨ level = 8 := by
    simp only [binaryLayers, List.mem_cons, Prod.mk.injEq, List.not_mem_nil, or_false] at member
    omega
  cases written with
  | @binary op left right _ _ _ _ high higher writtenLeft writtenRight =>
    have grouped : op.leftLevel = level ∧ op.rightLevel = op.leftLevel + 1 := by
      simp only [Tree.Expr.level] at same
      subst same
      cases op <;> simp_all [BinaryOp.level, BinaryOp.leftLevel, BinaryOp.rightLevel]
    rw [← grouped.1]
    exact splits_binary high higher writtenLeft writtenRight grouped.2 ((joinsBinary_of_mem member).finds op same)
  | @unary op =>
    simp only [Tree.Expr.level] at same
    cases op <;> simp only [UnaryOp.level] at same <;> omega
  | _ => simp only [Tree.Expr.level] at same; omega

theorem Parses.layer {level : Nat} {operand : Reader n Tree.Expr} (operands : Parses operand (level + 1))
    (member : (level, join?) ∈ binaryLayers) (unsigned : level ≠ 7) : Parses (Grammar.joined operand join?) level :=
  operands.joined (joinsBinary_of_mem member).joins fun written same => splits_of_level written same member unsigned

theorem parses_definedOperation {equivalence : Reader n Tree.Expr}
    (equivalences : Parses equivalence 1) : Parses (joined equivalence definedJoin?) 0 := by
  refine equivalences.joined ?_ ?_
  · intro lexeme join joins
    unfold definedJoin? at joins
    split at joins <;> first | rfl | cases joins
  · intro value tokens written same
    cases written with
    | definedBinary high left right =>
      refine .intro left (Nat.zero_le _) right high rfl fun first second same same' => ?_
      rw [Tree.Expr.bare, Tree.Expr.bare, same, same']
    | @binary op => simp only [Tree.Expr.level] at same; cases op <;> cases same
    | @unary op => simp only [Tree.Expr.level] at same; cases op <;> cases same
    | _ => cases same

theorem parses_expressionOf {negation : Reader n Tree.Expr} (negations : Parses negation 4) :
    Parses (expressionOf negation) 0 := by
  have conjunctions : Parses (joined _ conjunctionJoin?) 3 := negations.layer (by simp [binaryLayers]) (by decide)
  have disjunctions : Parses (joined _ disjunctionJoin?) 2 := conjunctions.layer (by simp [binaryLayers]) (by decide)
  have equivalences : Parses (joined _ equivalenceJoin?) 1 := disjunctions.layer (by simp [binaryLayers]) (by decide)
  exact parses_definedOperation equivalences

/-! Sums, of which the first term may have a sign. -/

def signed (term : Reader n Tree.Expr) : Reader n Tree.Expr := do
  let start ← start
  match (← peek).bind sign? with
  | some sign =>
    skip
    let first ← term
    return .unary sign first ⟨start, first.span.stop⟩
  | none => term

theorem sumOf_eq (power : Reader n Tree.Expr) :
    sumOf power = signed (joined power productJoin?) >>= fun first => remaining >>= fun turns =>
      joinedWithin (joined power productJoin?) sumJoin? turns first := by
  simp only [sumOf, signed, bind_assoc]
  refine bind_congr fun start => bind_congr fun next => ?_
  cases next.bind sign? with
  | none => rfl
  | some sign => simp only [bind_assoc, pure_bind]

inductive Signed : Tree.Expr → List Token → Prop
  | plain {value : Tree.Expr} {tokens : List Token} :
    Written value tokens → 8 ≤ value.level → Signed value tokens
  | sign {op : UnaryOp} {operand : Tree.Expr} {tokens : List Token} {span place : Span} :
    sign? (.mark op.mark) = some op → Written operand tokens → 8 ≤ operand.level →
      Signed (.unary op operand span) (⟨.mark op.mark, place⟩ :: tokens)

theorem Written.sign?_next (written : Written value tokens) (high : 8 ≤ value.level) :
    (next? (tokens ++ rest)).bind sign? = none := by
  refine Option.bind_eq_none_iff.mpr fun lexeme next => ?_
  unfold sign?
  split
  · refine absurd next (written.next_ne ?_)
    rintro _ ⟨⟩
    exact high
  · refine absurd next (written.next_ne ?_)
    rintro _ ⟨⟩
    exact high
  · rfl

theorem Signed.reads {term : Reader n Tree.Expr} (terms : Parses term 8) (base : Signed value tokens)
    (stops : Stops 8 rest) : Reads (signed term) tokens rest (·.bare = value.bare) := by
  refine Reads.start_bind fun start => Reads.peek_bind ?_
  cases base with
  | plain written high =>
    rw [written.sign?_next high]
    exact terms written high stops
  | sign found written high =>
    simp only [List.cons_append, next?_cons, Option.bind_some, found]
    rw [← List.append_nil (_ :: _)]
    refine Reads.skip_bind ((terms written high stops).bind fun first same => Reads.pure ?_)
    rw [Tree.Expr.bare, Tree.Expr.bare, same]

theorem parses_sumOf {power : Reader n Tree.Expr} (powers : Parses power 9) : Parses (sumOf power) 7 := by
  have terms : Parses (joined _ productJoin?) 8 := powers.layer (by simp [binaryLayers]) (by decide)
  have sums : JoinsBinary 7 sumJoin? := joinsBinary_of_mem (by simp [binaryLayers])
  rw [sumOf_eq]
  refine parses_chain Signed (fun base stops => base.reads terms stops) terms sums.joins ?_
  intro value tokens written high
  rcases Nat.eq_or_lt_of_le high with same | higher
  · cases written with
    | @binary op _ _ _ _ _ _ left right writtenLeft writtenRight =>
      refine .inr ?_
      have grouped : op.leftLevel = 7 ∧ op.rightLevel = op.leftLevel + 1 := by
        cases op <;> first | decide | cases same
      rw [← grouped.1]
      exact splits_binary left right writtenLeft writtenRight grouped.2 (sums.finds op same.symm)
    | @unary op _ _ _ _ operand written =>
      cases op with
      | not => cases same
      | negate | plus => exact .inl (.sign rfl written operand)
    | _ => cases same
  · exact .inl (.plain written higher)

/-! Relations and negations. -/

theorem relationJoin?_mark {op : BinaryOp} (level : op.level = 5) :
    relationJoin? (.mark op.mark) = some (binary op) := by
  cases op <;> first | rfl | cases level

theorem Stops.relationJoin?_next (stops : Stops 5 tokens) : (next? tokens).bind relationJoin? = none := by
  refine Option.bind_eq_none_iff.mpr fun lexeme next => ?_
  unfold relationJoin?
  split <;> first | rfl | exact absurd next (stops.next_ne rfl (Nat.le_refl 5))

theorem parses_relationOf {sum : Reader n Tree.Expr} (sums : Parses sum 7) : Parses (relationOf sum) 5 := by
  have concatenations : Parses (joined _ concatenationJoin?) 6 := sums.layer (by simp [binaryLayers]) (by decide)
  intro value tokens rest written high stops
  rcases Nat.eq_or_lt_of_le high with same | higher
  · cases written with
    | @binary op _ _ _ _ _ _ left right writtenLeft writtenRight =>
      have operands : op.leftLevel = 6 ∧ op.rightLevel = 6 := by
        cases op <;> first | decide | cases same
      rw [operands.1] at left
      rw [operands.2] at right
      refine (concatenations writtenLeft left
        (stops_cons (joinsAt?_mark op) (Nat.lt_succ_of_le (Nat.le_of_eq same.symm)))).bind fun first same' => ?_
      refine Reads.peek_bind ?_
      simp only [List.cons_append, next?_cons, Option.bind_some, relationJoin?_mark same.symm]
      rw [← List.append_nil (_ :: _)]
      refine Reads.skip_bind ((concatenations writtenRight right
        (stops.mono (Nat.le_succ 5))).bind fun second same'' => Reads.pure ?_)
      exact bare_binary op _ same' same''
    | @unary op => cases op <;> cases same
    | _ => cases same
  · rw [← List.append_nil tokens]
    refine (concatenations written higher (stops.mono (Nat.le_succ 5))).bind fun found same => ?_
    refine Reads.peek_bind ?_
    rw [List.nil_append, stops.relationJoin?_next]
    exact Reads.pure same

/-! The points of recursion. -/

def Layer.level : Layer → Nat
  | .expression => 0
  | .negation => 4
  | .sum => 7
  | .power => 9
  | .operand => 10
  | .designator => 11
  | .primary => 12

section

variable {inner : Layer → Reader n Tree.Expr}

variable (inners : ∀ entry, Parses (inner entry) entry.level)
include inners

theorem parses_negationOf (powers : Parses (powerOf inner) 9) : Parses (negationOf inner) 4 := by
  intro value tokens rest written high stops
  refine Reads.isNextMark_bind ?_
  rcases Nat.eq_or_lt_of_le high with same | higher
  · cases written with
    | @unary op _ tokens _ _ operand written =>
      cases op with
      | not =>
        simp only [UnaryOp.mark, List.cons_append, next?_cons, decide_true, ↓reduceIte]
        refine Reads.start_bind fun start => Reads.past ?_
        rw [← List.append_nil tokens]
        refine (inners .negation written operand stops).bind fun found same => Reads.pure ?_
        rw [Tree.Expr.bare, Tree.Expr.bare, same]
      | negate | plus => cases same
    | @binary op => cases op <;> cases same
    | _ => cases same
  · have other : next? (tokens ++ rest) ≠ some (.mark .not) := by
      refine written.next_ne ?_
      rintro _ ⟨⟩
      exact higher
    simp only [other, decide_false, Bool.false_eq_true, ↓reduceIte]
    exact parses_relationOf (parses_sumOf powers) written higher (stops.mono (Nat.le_succ 4))

theorem parses_powerOf (operands : Parses (operandOf inner) 10) : Parses (powerOf inner) 9 := by
  intro value tokens rest written high stops
  rcases Nat.eq_or_lt_of_le high with same | higher
  · cases written with
    | @binary op _ _ _ behind _ _ left right writtenLeft writtenRight =>
      cases op with
      | power =>
        refine (operands writtenLeft left (stops_cons rfl (Nat.lt_succ_self 9))).bind fun base same' => ?_
        refine Reads.isNextMark_bind ?_
        simp only [BinaryOp.mark, List.cons_append, next?_cons, decide_true, ↓reduceIte]
        refine Reads.past (Reads.peek_bind ?_)
        rw [writtenRight.sign?_next (Nat.le_of_succ_le right), ← List.append_nil behind]
        refine (inners .power writtenRight right stops).bind fun exponent same'' => Reads.pure ?_
        exact bare_binary .power _ same' same''
      | _ => cases same
    | @unary op => cases op <;> cases same
    | _ => cases same
  · rw [← List.append_nil tokens]
    refine (operands written higher (stops.mono (Nat.le_succ 9))).bind fun base same => ?_
    refine Reads.isNextMark_bind ?_
    have other : next? ([] ++ rest) ≠ some (.mark .power) := stops.next_ne rfl (Nat.le_refl 9)
    simp only [other, decide_false, Bool.false_eq_true, ↓reduceIte]
    exact Reads.pure same

theorem parses_operandOf (designators : Parses (designatorOf inner) 11) : Parses (operandOf inner) 10 := by
  intro value tokens rest written high stops
  refine Reads.peek_bind ?_
  rcases Nat.eq_or_lt_of_le high with same | higher
  · cases written with
    | @definedUnary op _ tokens _ _ operand written =>
      simp only [List.cons_append, next?_cons]
      refine Reads.start_bind fun start => Reads.past ?_
      rw [← List.append_nil tokens]
      refine (inners .operand written operand stops).bind fun found same => Reads.pure ?_
      rw [Tree.Expr.bare, Tree.Expr.bare, same]
    | @binary op => cases op <;> cases same
    | @unary op => cases op <;> cases same
    | _ => cases same
  · split
    · rename_i op next
      refine absurd next (written.next_ne ?_)
      rintro _ ⟨⟩
      exact higher
    · exact designators written higher (stops.mono (Nat.le_succ 10))

end

/-! Arguments. -/

variable {place : Span}

section

variable {expr : Reader n Tree.Expr}

def ClosesArgument (tokens : List Token) : Prop :=
  next? tokens = some (.mark .comma) ∨ next? tokens = some (.mark .rightParen)

theorem ClosesArgument.stops (closes : ClosesArgument tokens) : Stops 0 tokens := by
  intro lexeme joined next joins
  rcases closes with comma | paren
  · cases comma.symm.trans next
    cases joins
  · cases paren.symm.trans next
    cases joins

theorem ClosesArgument.next_ne (closes : ClosesArgument tokens) (comma : lexeme ≠ .mark .comma)
    (paren : lexeme ≠ .mark .rightParen) : next? tokens ≠ some lexeme := by
  intro next
  rcases closes with closed | closed
  · exact comma (Option.some.inj (next.symm.trans closed))
  · exact paren (Option.some.inj (next.symm.trans closed))

theorem labelValue_numeral {numeral : String} {value : Nat}
    (reads : Text.decimal? numeral = some value) (fits : value < Word.count) : labelValue numeral = value := by
  rw [labelValue, reads]
  exact if_pos fits

def upperBound (expr : Reader n Tree.Expr) : Reader n (Option Tree.Expr) := do
  match ← peek with
  | some (.mark .comma) | some (.mark .rightParen) | some (.mark .colon) => return none
  | _ => some <$> expr

theorem triplet_eq (lower : Option Tree.Expr) :
    triplet expr lower = do
      expectMark .colon
      let upper ← upperBound expr
      if ← acceptMark .colon then
        return .triplet lower upper (some (← expr))
      return .triplet lower upper none := by
  unfold triplet upperBound
  refine bind_congr fun _ => ?_
  rw [bind_assoc]
  refine bind_congr fun next => ?_
  split <;> simp only [pure_bind]

variable {lower found upper : Option Tree.Expr} {value : ArgValue}

theorem Optionally.no_keyword (written : Optionally Written lower before) :
    (next? ((before ++ ⟨.mark .colon, place⟩ :: behind) ++ rest)).bind Lexeme.word? = none ∨
      next? ((before ++ ⟨.mark .colon, place⟩ :: behind) ++ rest).tail ≠ some (.mark .assign) := by
  cases written with
  | omitted => exact .inl rfl
  | given written =>
    rw [List.append_assoc]
    exact written.no_keyword (by simp)

theorem Optionally.next_ne_paren (written : Optionally Written lower before) :
    next? ((before ++ ⟨.mark .colon, place⟩ :: behind) ++ rest) ≠ some (.mark .rightParen) := by
  cases written with
  | omitted => simp
  | given written =>
    rw [List.append_assoc]
    exact written.next_ne_mark _ rfl

theorem WrittenValue.no_keyword (written : WrittenValue value tokens) (closes : ClosesArgument rest) :
    (next? (tokens ++ rest)).bind Lexeme.word? = none ∨ next? (tokens ++ rest).tail ≠ some (.mark .assign) := by
  cases written with
  | expr written => exact written.no_keyword (closes.next_ne (by decide) (by decide))
  | label => exact .inl rfl
  | triplet lower => exact lower.no_keyword
  | strided lower => exact lower.no_keyword

theorem WrittenArgument.next_ne_paren {written : Arg} (argument : WrittenArgument written tokens)
    (rest : List Token) : next? (tokens ++ rest) ≠ some (.mark .rightParen) := by
  cases argument with
  | positional value =>
    cases value with
    | expr written => exact written.next_ne_mark rest rfl
    | label => simp
    | triplet lower => exact lower.next_ne_paren
    | strided lower => exact lower.next_ne_paren
  | @keyword _ lexeme _ _ _ _ _ named =>
    simp only [List.cons_append, next?_cons, ne_eq, Option.some.injEq]
    rintro rfl
    cases named

variable (exprs : Parses expr 0)
include exprs

theorem reads_upperBound (written : Optionally Written upper tokens)
    (closes : ClosesArgument rest ∨ next? rest = some (.mark .colon)) (stops : Stops 0 rest) :
    Reads (upperBound expr) tokens rest (Tree.bareBound · = Tree.bareBound upper) := by
  refine Reads.peek_bind ?_
  cases written with
  | omitted =>
    rw [List.nil_append]
    rcases closes with (next | next) | next <;> rw [next] <;> exact Reads.pure rfl
  | @given value _ written =>
    split
    · rename_i next
      exact absurd next (written.next_ne_mark rest rfl)
    · rename_i next
      exact absurd next (written.next_ne_mark rest rfl)
    · rename_i next
      exact absurd next (written.next_ne_mark rest rfl)
    · rw [map_eq_pure_bind, ← List.append_nil tokens]
      refine (exprs written (Nat.zero_le _) stops).bind fun found same => Reads.pure ?_
      rw [Tree.bareBound, Tree.bareBound, same]

theorem reads_triplet (same : Tree.bareBound found = Tree.bareBound lower)
    (written : Optionally Written upper behind) (closes : ClosesArgument rest) :
    Reads (triplet expr found) (⟨.mark .colon, place⟩ :: behind) rest
      (·.bare = (ArgValue.triplet lower upper none).bare) := by
  rw [triplet_eq, ← List.append_nil behind]
  refine Reads.expectMark_bind ?_
  refine (reads_upperBound exprs written (.inl closes) closes.stops).bind fun bound same' => ?_
  refine Reads.acceptMark_bind_of_ne (closes.next_ne (by decide) (by decide)) ?_
  refine Reads.pure ?_
  rw [ArgValue.bare, ArgValue.bare, same, same']

theorem reads_triplet_strided {stride : Tree.Expr} {behind last rest : List Token}
    {place next : Span} (same : Tree.bareBound found = Tree.bareBound lower)
    (written : Optionally Written upper behind) (writtenLast : Written stride last) (closes : ClosesArgument rest) :
    Reads (triplet expr found)
      (⟨.mark .colon, place⟩ :: (behind ++ ⟨.mark .colon, next⟩ :: last)) rest
      (·.bare = (ArgValue.triplet lower upper (some stride)).bare) := by
  rw [triplet_eq]
  refine Reads.expectMark_bind ?_
  refine (reads_upperBound exprs written (.inr rfl) (stops_of_ends rfl)).bind fun bound same' => ?_
  refine Reads.acceptMark_bind ?_
  simp only [↓reduceIte]
  rw [← List.append_nil last]
  refine (exprs writtenLast (Nat.zero_le _) closes.stops).bind fun step same'' => Reads.pure ?_
  rw [ArgValue.bare, ArgValue.bare, same, same', Tree.bareBound, Tree.bareBound, same'']

theorem reads_argumentValue_triplet (written : Optionally Written lower before)
    (reads : ∀ found, Tree.bareBound found = Tree.bareBound lower →
      Reads (triplet expr found) (⟨.mark .colon, place⟩ :: behind) rest (·.bare = value.bare)) :
    Reads (argumentValue expr) (before ++ ⟨.mark .colon, place⟩ :: behind) rest (·.bare = value.bare) := by
  unfold argumentValue
  refine Reads.isNextMark_bind ?_
  cases written with
  | omitted =>
    simp only [List.nil_append, List.cons_append, next?_cons]
    refine Reads.isNextMark_bind ?_
    simp only [List.cons_append, next?_cons, decide_true, ↓reduceIte]
    exact reads none rfl
  | given written =>
    rw [List.append_assoc, decide_eq_false (written.next_ne_mark _ rfl)]
    refine Reads.isNextMark_bind ?_
    rw [List.append_assoc, decide_eq_false (written.next_ne_mark _ rfl)]
    refine (exprs written (Nat.zero_le _) (stops_of_ends rfl)).bind fun found same => ?_
    refine Reads.isNextMark_bind ?_
    simp only [List.cons_append, next?_cons, decide_true, ↓reduceIte]
    refine reads (some found) ?_
    rw [Tree.bareBound, Tree.bareBound, same]

theorem WrittenValue.reads (written : WrittenValue value tokens)
    (closes : ClosesArgument rest) : Reads (argumentValue expr) tokens rest (·.bare = value.bare) := by
  cases written with
  | expr written =>
    unfold argumentValue
    refine Reads.isNextMark_bind ?_
    rw [decide_eq_false (written.next_ne_mark rest rfl)]
    refine Reads.isNextMark_bind ?_
    rw [decide_eq_false (written.next_ne_mark rest rfl), ← List.append_nil tokens]
    refine (exprs written (Nat.zero_le _) closes.stops).bind fun found same => ?_
    refine Reads.isNextMark_bind ?_
    rw [List.nil_append, decide_eq_false (closes.next_ne (by decide) (by decide))]
    refine Reads.pure ?_
    rw [ArgValue.bare, ArgValue.bare, same]
  | label reads fits =>
    unfold argumentValue Grammar.label
    refine Reads.isNextMark_bind ?_
    simp only [List.cons_append, next?_cons, decide_true, ↓reduceIte]
    refine Reads.peekSecond_bind ?_
    simp only [List.cons_append, List.tail_cons, next?_cons, Option.isNone_some, Bool.false_eq_true, ↓reduceIte]
    refine Reads.skip_bind (Reads.peek_bind ?_)
    simp only [List.cons_append, next?_cons, labelValue_numeral reads fits]
    exact Reads.skip_bind (Reads.pure rfl)
  | triplet lower upper =>
    exact reads_argumentValue_triplet exprs lower fun found same =>
      reads_triplet exprs same upper closes
  | strided lower upper stride =>
    exact reads_argumentValue_triplet exprs lower fun found same =>
      reads_triplet_strided exprs same upper stride closes

theorem WrittenArgument.reads {written : Arg}
    (argument : WrittenArgument written tokens) (closes : ClosesArgument rest) :
    Reads (Grammar.argument expr) tokens rest (·.bare = written.bare) := by
  unfold Grammar.argument keyword?
  refine Reads.start_bind fun start => ?_
  rw [bind_assoc]
  refine Reads.peek_bind ?_
  rw [bind_assoc]
  refine Reads.peekSecond_bind ?_
  cases argument with
  | positional value =>
    have absent : ∀ word, (next? (tokens ++ rest)).bind Lexeme.word? = some word →
        next? (tokens ++ rest).tail ≠ some (.mark .assign) := by
      intro word found
      rcases value.no_keyword closes with noWord | noAssign
      · cases noWord.symm.trans found
      · exact noAssign
    split
    · rename_i word next assign
      exact absurd assign (absent word next)
    · rw [pure_bind, ← List.append_nil tokens]
      refine (value.reads exprs closes).bind fun found same => ?_
      refine Reads.spanFrom_bind fun span => Reads.pure ?_
      rw [Arg.bare, Arg.bare, same]
  | @keyword word lexeme _ tokens _ _ _ named value =>
    simp only [List.cons_append, next?_cons, Option.bind_some, named, List.tail_cons, bind_assoc,
      pure_bind]
    refine Reads.skip_bind (Reads.skip_bind ?_)
    rw [← List.append_nil tokens]
    refine (value.reads exprs closes).bind fun found same => ?_
    refine Reads.spanFrom_bind fun span => Reads.pure ?_
    rw [Arg.bare, Arg.bare, same]

theorem reads_argumentsOf {arguments : List Arg} {opening closing : Span}
    (written : Separated WrittenArgument arguments tokens) :
    Reads (argumentsOf expr)
      (⟨.mark .leftParen, opening⟩ :: (tokens ++ [⟨.mark .rightParen, closing⟩])) rest
      (Tree.bareArguments · = Tree.bareArguments arguments) := by
  unfold argumentsOf
  refine Reads.isNextMark_bind ?_
  simp only [List.cons_append, next?_cons, decide_true, ↓reduceIte]
  refine Reads.past ?_
  cases written with
  | nil => exact Reads.acceptMark_bind (Reads.pure rfl)
  | @cons argument arguments first others written listed =>
    rw [List.append_assoc]
    refine Reads.acceptMark_bind_of_ne ?_ ?_
    · rw [List.append_assoc]
      exact written.next_ne_paren _
    simp only [Bool.false_eq_true, ↓reduceIte]
    rw [← List.append_assoc]
    refine (reads_separated (fun found wanted : Arg => found.bare = wanted.bare) listed
      (by simp) ?_ written).bind fun found same => ?_
    · rintro argument tokens rest written (comma | rfl)
      · exact written.reads exprs (.inl comma)
      · exact written.reads exprs (.inr rfl)
    · exact Reads.expectMark_bind (Reads.pure (Tree.bareArguments_of_same same))

end

/-! Designators and primaries. -/

variable {images rest : List Token}

section

variable (inside : ∀ token ∈ images, token.lexeme ≠ .mark .rightBracket ∧ token.lexeme ≠ .newline)
include inside

theorem reads_imageSelectorWithin {closing : Span} {turns : Nat} (enough : images.length < turns) :
    Reads (imageSelectorWithin (n := n) turns) (images ++ [⟨.mark .rightBracket, closing⟩]) rest fun _ => True := by
  induction images generalizing turns with
  | nil =>
    obtain _ | turns := turns
    · cases enough
    exact Reads.acceptMark_bind (Reads.pure trivial)
  | cons token images ih =>
    obtain _ | turns := turns
    · cases enough
    have others := inside token (List.mem_cons_self ..)
    refine Reads.acceptMark_bind_of_ne (by simpa using others.1) ?_
    simp only [Bool.false_eq_true, ↓reduceIte]
    refine Reads.isAtStatementEnd_bind_of_ne others.2 (Reads.skip_bind ?_)
    exact ih (fun token mem => inside token (List.mem_cons_of_mem _ mem)) (Nat.lt_of_succ_lt_succ enough)

theorem reads_imageSelector {closing : Span} :
    Reads (imageSelector (n := n)) (images ++ [⟨.mark .rightBracket, closing⟩]) rest fun _ => True := by
  refine Reads.remaining_bind (reads_imageSelectorWithin inside ?_)
  simp only [List.length_append]
  omega

end

section

variable {arguments : Reader n (List Arg)} {base : Reader n Tree.Expr}

theorem reads_selectedWithin_end (stops : Stops 11 rest) (turns : Nat) (found : Tree.Expr) :
    Reads (selectedWithin arguments turns found) [] rest (· = found) := by
  cases turns with
  | zero => exact Reads.pure rfl
  | succ turns =>
    refine Reads.peek_bind ?_
    rw [List.nil_append]
    split
    · rename_i next
      exact absurd next (stops.next_ne rfl (Nat.le_refl 11))
    · rename_i next
      exact absurd next (stops.next_ne rfl (Nat.le_refl 11))
    · rename_i next
      exact absurd next (stops.next_ne rfl (Nat.le_refl 11))
    · exact Reads.pure rfl

theorem reads_selection (lists : ∀ {items : List Arg} {tokens rest : List Token} {opening closing : Span},
      Separated WrittenArgument items tokens →
      Reads arguments
        (⟨.mark .leftParen, opening⟩ :: (tokens ++ [⟨.mark .rightParen, closing⟩])) rest
        (Tree.bareArguments · = Tree.bareArguments items)) (bases : Parses base 12)
    {tokens more rest : List Token} {post : Tree.Expr → Prop} (written : Written value tokens)
    (high : 11 ≤ value.level) (goesOn : ∀ found turns, found.bare = value.bare → (more ++ rest).length ≤ turns →
      Reads (selectedWithin arguments turns found) more rest post) :
    Reads (selected arguments base) (tokens ++ more) rest post := by
  -- Along the bases, as along the left operands of a binary layer.
  induction count : tokens.length using Nat.strongRecOn generalizing value tokens more with
  | ind count ih =>
  subst count
  rcases Nat.eq_or_lt_of_le high with same | higher
  · cases written with
    | @call target items _ _ _ _ _ takes writtenTarget writtenItems =>
      rw [List.append_assoc]
      refine ih _ (by simp) writtenTarget (eleven_le_of_takesArguments takes) ?_ rfl
      intro found turns same enough
      obtain _ | turns := turns
      · simp at enough
      have takes' : found.takesArguments = true := by
        rw [← found.takesArguments_bare, same, target.takesArguments_bare, takes]
      refine Reads.peek_bind ?_
      simp only [List.cons_append, next?_cons, takes', ↓reduceIte]
      refine (lists writtenItems).bind fun list same' => Reads.spanFrom_bind fun span => ?_
      refine goesOn _ turns ?_ ?_
      · rw [Tree.Expr.bare, Tree.Expr.bare, same, same']
      · simp only [List.length_append, List.length_cons] at enough ⊢
        omega
    | component highBase writtenBase named =>
      rw [List.append_assoc]
      refine ih _ (by simp) writtenBase highBase ?_ rfl
      intro found turns same enough
      obtain _ | turns := turns
      · simp at enough
      refine Reads.peek_bind ?_
      simp only [List.cons_append, next?_cons, List.nil_append]
      refine Reads.skip_bind (Reads.name_bind named fun _ => Reads.spanFrom_bind fun span => ?_)
      refine goesOn _ turns ?_ ?_
      · rw [Tree.Expr.bare, Tree.Expr.bare, same]
      · simp only [List.length_append, List.length_cons] at enough ⊢
        omega
    | coindexed highBase writtenBase inside =>
      rw [List.append_assoc]
      refine ih _ (by simp) writtenBase highBase ?_ rfl
      intro found turns same enough
      obtain _ | turns := turns
      · simp at enough
      refine Reads.peek_bind ?_
      simp only [List.cons_append, next?_cons]
      refine Reads.skip_bind ?_
      refine (reads_imageSelector inside).bind fun _ _ => Reads.spanFrom_bind fun span => ?_
      refine goesOn _ turns ?_ ?_
      · rw [Tree.Expr.bare, Tree.Expr.bare, same]
      · simp only [List.length_append, List.length_cons] at enough ⊢
        omega
    | @binary op => cases op <;> cases same
    | @unary op => cases op <;> cases same
    | _ => cases same
  · refine (bases written higher (stops_primary _)).bind fun found same => ?_
    exact Reads.remaining_bind (goesOn found _ same (Nat.le_refl _))

end

theorem span_underscore {letters behind : List Char} (absent : '_' ∉ letters) (boundary : ∀ c ∈ behind.head?, c = '_') :
    (letters ++ behind).span (· ≠ '_') = (letters, behind) := by
  have all : ∀ c ∈ letters, decide (c ≠ '_') = true := by
    intro c mem
    exact decide_eq_true fun same => absent (same ▸ mem)
  rw [List.span_eq_takeWhile_dropWhile, List.takeWhile_append_of_pos all, List.dropWhile_append_of_pos all]
  cases behind with
  | nil => simp
  | cons c behind => simp [boundary c rfl]

theorem Literal.splitKind {digits spelling : String} {kind : Option String}
    (literal : Literal digits kind spelling) : Grammar.splitKind spelling = (digits, kind) := by
  unfold Grammar.splitKind
  cases literal with
  | plain absent =>
    rw [← List.append_nil digits.toList, span_underscore absent (by simp)]
    simp only [String.ofList_toList]
  | @ofKind kind absent =>
    have letters : (digits ++ "_" ++ kind).toList = digits.toList ++ '_' :: kind.toList := by
      simp
    rw [letters, span_underscore absent (by simp)]
    simp only [String.ofList_toList]

variable {expr : Reader n Tree.Expr}

theorem reads_atom {atom : Span → Tree.Expr} (found : atom? lexeme = some atom)
    (same : ∀ span, (atom span).bare = value.bare) :
    Reads (primaryOf expr) [⟨lexeme, place⟩] rest (·.bare = value.bare) := by
  refine Reads.here_bind fun span => Reads.peek_bind ?_
  simp only [List.cons_append, next?_cons]
  split
  · rename_i next
    cases next
    cases found
  · rename_i next
    cases next
    cases found
  · simp only [Option.bind_some, found]
    exact Reads.skip_bind (Reads.spanFrom_bind fun span => Reads.pure (same span))

theorem atom?_of_word {word : String} (named : lexeme.word? = some word) : atom? lexeme = some (.name word) := by
  cases lexeme <;> first | cases named; rfl | cases named

theorem reads_arrayConstructor (exprs : Parses expr 0) {values : List Tree.Expr} {span closing : Span}
    (written : Separated Written values tokens) (start : Nat) :
    Reads (arrayConstructor expr start) (tokens ++ [⟨.mark .rightBracket, closing⟩]) rest
      (·.bare = (Tree.Expr.array values span).bare) := by
  unfold arrayConstructor
  refine Reads.isNextMark_bind ?_
  cases written with
  | nil =>
    simp only [List.nil_append, List.cons_append, next?_cons, decide_true, ↓reduceIte, pure_bind]
    exact Reads.expectMark_bind (Reads.spanFrom_bind fun _ => Reads.pure rfl)
  | @cons value values first others written listed =>
    have other : next? (first ++ others ++ [⟨.mark .rightBracket, closing⟩] ++ rest) ≠
        some (.mark .rightBracket) := by
      simp only [List.append_assoc]
      exact written.next_ne_mark _ rfl
    simp only [other, decide_false, Bool.false_eq_true, ↓reduceIte]
    refine (reads_separated (fun found wanted : Tree.Expr => found.bare = wanted.bare) listed
      (by simp) ?_ written).bind fun found same => ?_
    · rintro value tokens rest written (comma | rfl)
      · exact exprs written (Nat.zero_le _) (ClosesArgument.stops (.inl comma))
      · exact exprs written (Nat.zero_le _) (stops_of_ends rfl)
    · refine Reads.expectMark_bind (Reads.spanFrom_bind fun _ => Reads.pure ?_)
      rw [Tree.Expr.bare, Tree.Expr.bare, Tree.bareValues_of_same same]

theorem parses_primaryOf (exprs : Parses expr 0) : Parses (primaryOf expr) 12 := by
  intro value tokens rest written high stops
  cases written with
  | integer literal =>
    refine reads_atom (by rw [atom?, literal.splitKind]) fun span => ?_
    rw [Tree.Expr.bare, Tree.Expr.bare]
  | real literal =>
    refine reads_atom (by rw [atom?, literal.splitKind]) fun span => ?_
    rw [Tree.Expr.bare, Tree.Expr.bare]
  | text | logical | boz =>
    refine reads_atom rfl fun span => ?_
    rw [Tree.Expr.bare, Tree.Expr.bare]
  | name named =>
    refine reads_atom (atom?_of_word named) fun span => ?_
    rw [Tree.Expr.bare, Tree.Expr.bare]
  | paren written =>
    refine Reads.here_bind fun span => Reads.peek_bind ?_
    simp only [List.cons_append, next?_cons]
    refine Reads.past ?_
    refine (exprs written (Nat.zero_le _) (stops_of_ends rfl)).bind fun found same => ?_
    refine Reads.acceptMark_bind_of_ne (by simp) ?_
    refine Reads.expectMark_bind (Reads.spanFrom_bind fun span => Reads.pure ?_)
    rw [Tree.Expr.bare, Tree.Expr.bare, same]
  | complex realPart imaginaryPart =>
    refine Reads.here_bind fun span => Reads.peek_bind ?_
    simp only [List.cons_append, next?_cons]
    refine Reads.past ?_
    refine (exprs realPart (Nat.zero_le _) (stops_of_ends rfl)).bind fun first same => ?_
    refine Reads.acceptMark_bind ?_
    refine (exprs imaginaryPart (Nat.zero_le _) (stops_of_ends rfl)).bind fun second same' => ?_
    refine Reads.expectMark_bind (Reads.spanFrom_bind fun span => Reads.pure ?_)
    rw [Tree.Expr.bare, Tree.Expr.bare, same, same']
  | array written =>
    refine Reads.here_bind fun span => Reads.peek_bind ?_
    simp only [List.cons_append, next?_cons]
    exact Reads.past (reads_arrayConstructor exprs written _)
  | @binary op => cases op <;> simp [Tree.Expr.level, BinaryOp.level] at high
  | @unary op => cases op <;> simp [Tree.Expr.level, UnaryOp.level] at high
  | _ => simp [Tree.Expr.level] at high

section

variable {inner : Layer → Reader n Tree.Expr}

theorem parses_designatorOf (exprs : Parses (inner .expression) 0) : Parses (designatorOf inner) 11 := by
  intro value tokens rest written high stops
  rw [← List.append_nil tokens]
  refine reads_selection (reads_argumentsOf exprs) (parses_primaryOf exprs) written high fun found turns same _ => ?_
  refine (reads_selectedWithin_end stops turns found).mono ?_
  rintro _ rfl
  exact same

theorem parses_layer (inners : ∀ entry, Parses (inner entry) entry.level) (entry : Layer) :
    Parses (layer inner entry) entry.level := by
  have primaries := parses_primaryOf (inners .expression)
  have designators := parses_designatorOf (inners .expression)
  have operands := parses_operandOf inners designators
  have powers := parses_powerOf inners operands
  have sums := parses_sumOf powers
  have negations := parses_negationOf inners powers
  have expressions := parses_expressionOf negations
  cases entry with
  | expression => exact expressions
  | negation => exact negations
  | sum => exact sums
  | power => exact powers
  | operand => exact operands
  | designator => exact designators
  | primary => exact primaries

end

theorem parses_layerOf (n : Nat) (entry : Layer) : Parses (layerOf n entry) entry.level := by
  induction n generalizing entry with
  | zero =>
    -- An expression has a token, and no cursor has one in front of it.
    intro value tokens rest written high stops cursor at_tokens
    obtain ⟨token, others, -, rfl, -⟩ := written.begins
    have bound := cursor.bound
    simp [at_tokens] at bound
  | succ n ih => exact parses_layer ih entry

def endsExpression : Lexeme → Bool
  | .newline | .mark .comma | .mark .rightParen | .mark .rightBracket | .mark .colon => true
  | _ => false

theorem stops_of_endsExpression (ends : ∀ token ∈ rest.head?, endsExpression token.lexeme = true) : Stops 0 rest := by
  cases rest with
  | nil =>
    intro lexeme joined next
    cases next
  | cons token rest =>
    have ended := ends token rfl
    refine stops_of_ends ?_
    unfold endsExpression at ended
    split at ended <;> simp_all [joinsAt?]

/-- Every expression that is written according to the levels of its operators is read back: in
front of its tokens, whatever ends it, the reader of expressions succeeds, stops behind them and
gives the same tree up to spans. -/
theorem expression_inverts_writing {value : Tree.Expr} {tokens rest : List Token}
    (written : Written value tokens)
    (ends : ∀ token ∈ rest.head?, endsExpression token.lexeme = true)
    (cursor : Cursor n) (at_tokens : cursor.rest = tokens ++ rest) :
    ∃ found after, expression cursor = .ok found after ∧ after.rest = rest ∧ found.bare = value.bare :=
  parses_layerOf n .expression written (Nat.zero_le _) (stops_of_endsExpression ends) cursor at_tokens

/-- `-a ** 2 ** b * (c - 1_I8) .dot. .not. s%f(*10, k=:n:2) == y[3]` -/
def dottedTokens : List Token :=
  [.mark .minus, .name "a", .mark .power, .integer "2", .mark .power, .name "b", .mark .star,
    .mark .leftParen, .name "c", .mark .minus, .integer "1_I8", .mark .rightParen,
    .definedOperator "dot", .mark .not, .name "s", .mark .percent, .name "f", .mark .leftParen,
    .mark .star, .integer "10", .mark .comma, .name "k", .mark .assign, .mark .colon, .name "n",
    .mark .colon, .integer "2", .mark .rightParen, .mark .equal, .name "y", .mark .leftBracket,
    .integer "3", .mark .rightBracket].map fun lexeme => ⟨lexeme, nowhere⟩

def dottedTree : Tree.Expr :=
  let name (word : String) : Tree.Expr := .name word nowhere
  let two : Tree.Expr := .integer "2" none nowhere
  let power := .binary .power (name "a") (.binary .power two (name "b") nowhere) nowhere
  let difference :=
    .binary .subtract (name "c") (.integer "1" (some "i8") nowhere) nowhere
  let product := .binary .multiply power (.paren difference nowhere) nowhere
  let call := .call (.component (name "s") "f" nowhere)
    [⟨none, .label 10, nowhere⟩, ⟨some "k", .triplet none (some (name "n")) (some two), nowhere⟩] nowhere
  let relation := .binary .equal call (.coindexed (name "y") nowhere) nowhere
  .definedBinary "dot" (.unary .negate product nowhere) (.unary .not relation nowhere) nowhere

theorem written_dottedTree : Written dottedTree dottedTokens := by
  have word (word : String) : Written (.name word nowhere) [⟨.name word, nowhere⟩] := .name rfl
  have two : Written (.integer "2" none nowhere) [⟨.integer "2", nowhere⟩] :=
    .integer (.plain (by decide))
  have one : Written (.integer "1" (some "i8") nowhere) [⟨.integer "1_I8", nowhere⟩] :=
    .integer (@Literal.ofKind "1" "I8" (by decide))
  have tower := @Written.binary .power _ _ _ _ nowhere nowhere (by decide) (by decide) two (word "b")
  have power := @Written.binary .power _ _ _ _ nowhere nowhere (by decide) (by decide) (word "a") tower
  have difference := @Written.binary .subtract _ _ _ _ nowhere nowhere (by decide) (by decide) (word "c") one
  have product := @Written.binary .multiply _ _ _ _ nowhere nowhere (by decide) (by decide) power
    (@Written.paren _ _ nowhere nowhere nowhere difference)
  have negated := @Written.unary .negate _ _ nowhere nowhere (by decide) product
  have label := @WrittenArgument.positional _ _ nowhere
    (@WrittenValue.label 10 "10" nowhere nowhere (by decide) (by decide))
  have section' := @WrittenArgument.keyword "k" (.name "k") _ _ nowhere nowhere nowhere rfl
    (@WrittenValue.strided _ _ _ _ _ _ nowhere nowhere .omitted (.given (word "n")) two)
  have target := @Written.component _ "f" (.name "f") _ nowhere nowhere nowhere (by decide) (word "s") rfl
  have call := @Written.call _ _ _ _ nowhere nowhere nowhere rfl target
    (.cons label (@Listed.cons _ _ _ _ _ _ nowhere section' .nil))
  have image := @Written.coindexed _ _ [⟨.integer "3", nowhere⟩] nowhere nowhere nowhere (by decide)
    (word "y") (by decide)
  have relation := @Written.binary .equal _ _ _ _ nowhere nowhere (by decide) (by decide) call image
  have denied := @Written.unary .not _ _ nowhere nowhere (by decide) relation
  exact @Written.definedBinary "dot" _ _ _ _ nowhere nowhere (by decide) negated denied

def dottedCursor : Cursor 34 :=
  ⟨dottedTokens ++ [⟨.mark .rightParen, nowhere⟩], by decide, 0, 80, []⟩

theorem expression_inverts_writing_dotted :
    Written dottedTree dottedTokens ∧
      ∃ found after, expression dottedCursor = .ok found after ∧
        after.rest = [⟨.mark .rightParen, nowhere⟩] ∧ found.bare = dottedTree.bare :=
  ⟨written_dottedTree, expression_inverts_writing written_dottedTree (by simp [endsExpression]) dottedCursor rfl⟩

end Grammar

end FortranInterface
