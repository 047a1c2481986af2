import FortranInterface.Expr.Spelling
import FortranInterface.Proofs.ExpressionReading
import FortranInterface.Proofs.TokenSeparation

/-!
Array sections and their spelling. The spelling of a section by unsigned literals is read back as the same section,
unless a triplet has a stride and no upper bound: its two colons make one token, and no expression goes on with it.
-/

namespace FortranInterface

/-! The lexemes of the parts of a spelling. -/

namespace Scan

def lexemes (text : List Char) : List Lexeme :=
  (tokensFrom 0 text).map Token.lexeme

variable {first : Char} {front : List Char}

theorem lexemes_split {back : List Char} {lexeme : Lexeme}
    (isCut : cut first (front ++ back) = (.lexeme lexeme, front.length)) :
    lexemes (first :: (front ++ back)) = lexeme :: lexemes back := by
  rw [lexemes, tokensFrom_split 0 isCut, tokensFrom_add, List.map_append, List.map_map]
  rfl

theorem cut_digit (isDigit : first.isDigit = true) (rest : List Char) : cut first rest = cutNumber first rest := by
  have digits : first ∈ ['0', '1', '2', '3', '4', '5', '6', '7', '8', '9'] := by
    simp [Char.isDigit, Char.ext_iff, UInt32.le_iff_toNat_le, ← UInt32.toNat_inj] at *
    omega
  simp only [List.mem_cons, List.not_mem_nil, or_false] at digits
  rcases digits with rfl | rfl | rfl | rfl | rfl | rfl | rfl | rfl | rfl | rfl <;> rfl

theorem exists_digits (value : Nat) : ∃ first front, Nat.toDigits 10 value = first :: front ∧
    first.isDigit = true ∧ ∀ c ∈ front, c.isDigit = true := by
  have all {c : Char} (member : c ∈ Nat.toDigits 10 value) : c.isDigit = true :=
    Nat.isDigit_of_mem_toDigits (by decide) (by decide) member
  obtain ⟨first, front, isText⟩ := List.exists_cons_of_ne_nil (Nat.toDigits_ne_nil (n := value) (b := 10))
  rw [isText] at all ⊢
  exact ⟨first, front, rfl, all (List.mem_cons_self ..), fun c member => all (List.mem_cons_of_mem _ member)⟩

theorem lexemes_number (value : Nat) {stop : Char} (ends : stop = ':' ∨ stop = ',' ∨ stop = ')') (back : List Char) :
    lexemes (Nat.toDigits 10 value ++ stop :: back) = .integer value.repr :: lexemes (stop :: back) := by
  obtain ⟨first, front, isText, isDigit, all⟩ := exists_digits value
  rw [Nat.repr, isText]
  refine lexemes_split ?_
  have length : runLength Char.isDigit (front ++ stop :: back) = front.length := by
    rw [runLength_append_of_all all]
    rcases ends with rfl | rfl | rfl <;> rfl
  have isNumber : numberLength (front ++ stop :: back) = (false, front.length) := by
    rw [numberLength_of_ne length List.drop_left (by rcases ends with rfl | rfl | rfl <;> simp)]
    rcases ends with rfl | rfl | rfl <;> rfl
  rw [cut_digit isDigit, cutNumber, isNumber]
  simp only [List.take_left]

theorem cut_letter (isLetter : first.isAlpha = true) (rest : List Char) :
    cut first rest = if isRadixLetter first then cutRadix first rest else cutName first rest := by
  have other {c : Char} (noLetter : c.isAlpha = false) : first ≠ c := by
    rintro rfl
    cases isLetter.symm.trans noLetter
  simp [cut, isBlank, isLetter, @other ' ' rfl, @other '\t' rfl, @other '\r' rfl, @other '\x0c' rfl, @other '!' rfl,
    @other '&' rfl, @other '\n' rfl, @other ';' rfl]

theorem word?_cutName (first : Char) (rest : List Char) :
    ∃ lexeme, lexeme.word? = some (lowered (first :: rest.take (runLength isNameChar rest))) ∧
      cutName first rest = (.lexeme lexeme, runLength isNameChar rest) := by
  rw [cutName]
  split
  next keyword isKeyword =>
    have isSpelling : keyword.spelling == _ := List.find?_some (p := fun keyword => Keyword.spelling keyword == _) isKeyword
    exact ⟨.keyword keyword, congrArg some (beq_iff_eq.mp isSpelling), rfl⟩
  · exact ⟨_, rfl, rfl⟩

theorem lexemes_name (isLetter : first.isAlpha = true) (all : ∀ c ∈ front, isNameChar c = true) (back : List Char) :
    ∃ lexeme, lexeme.word? = some (lowered (first :: front)) ∧
      lexemes (first :: (front ++ '(' :: back)) = lexeme :: lexemes ('(' :: back) := by
  have length : runLength isNameChar (front ++ '(' :: back) = front.length := runLength_append_of_all all _
  obtain ⟨lexeme, isWord, isCut⟩ := word?_cutName first (front ++ '(' :: back)
  rw [length, List.take_left] at isWord
  refine ⟨lexeme, isWord, lexemes_split ?_⟩
  have noRadix : cutRadix first (front ++ '(' :: back) = cutName first (front ++ '(' :: back) := by
    refine cutRadix_name first fun quote digits isRest isQuoted => ?_
    cases front with
    | nil =>
      cases isRest
      cases isQuoted
    | cons c front =>
      cases isRest
      have isName := all quote (List.mem_cons_self ..)
      have cases : quote = '\'' ∨ quote = '"' := by simpa [isQuote] using isQuoted
      rcases cases with rfl | rfl <;> cases isName
  rw [cut_letter isLetter, noRadix, ite_self, isCut, length]

theorem lexemes_mark {back : List Char} {lexeme : Lexeme} (isCut : cut first back = (.lexeme lexeme, 0)) :
    lexemes (first :: back) = lexeme :: lexemes back :=
  @lexemes_split first [] back lexeme isCut

theorem lexemes_sign {sign : Mark} (isCut : ∀ rest, cut first rest = cutMark sign [] rest) (back : List Char) :
    lexemes (first :: back) = .mark sign :: lexemes back :=
  lexemes_mark ((isCut back).trans (by cases back <;> rfl))

theorem lexemes_colon_number (value : Nat) (back : List Char) :
    lexemes (':' :: (Nat.toDigits 10 value ++ back)) = .mark .colon :: lexemes (Nat.toDigits 10 value ++ back) := by
  obtain ⟨first, front, isText, isDigit, -⟩ := exists_digits value
  have other : (first == ':') = false := beq_eq_false_iff_ne.mpr fun isColon => by simp [isColon] at isDigit
  rw [isText]
  refine lexemes_mark ?_
  change cutMark .colon [(':', .doubleColon)] (first :: (front ++ back)) = _
  simp [cutMark, List.lookup_cons, other]

end Scan

/-- What a source is read as, up to spans, if all of it is an expression. -/
def Grammar.readWhole (source : String) : Option Tree.Expr :=
  match expression (Cursor.ofTokens (tokens source) source.utf8ByteSize) with
  | .ok found after => if after.rest = [] then some found.bare else none
  | .error _ _ => none

theorem Grammar.Written.readWhole {value : Tree.Expr} {source : String} (written : Written value (tokens source)) :
    readWhole source = some value.bare := by
  obtain ⟨found, after, isFound, isEnd, same⟩ := parses_layerOf _ .expression written (Nat.zero_le _)
    (fun _ _ isNext => by cases isNext) (.ofTokens (tokens source) source.utf8ByteSize) (List.append_nil _).symm
  simp only [Grammar.readWhole, expression, isFound, isEnd, if_true, same]

/-- A subscript of unsigned literals. -/
inductive PlainSubscript where
  | index (value : Nat)
  | triplet (lower upper stride : Option Nat)

namespace PlainSubscript

open Grammar (Written WrittenArgument Optionally Separated readWhole)

def bound (value : Nat) : Expr :=
  .int value

def subscript : PlainSubscript → Subscript
  | index value => .index (bound value)
  | triplet lower upper stride => .triplet (lower.map bound) (upper.map bound) (stride.map bound)

def numeral (value : Nat) : Tree.Expr :=
  .integer (toString value) none Tree.nowhere

def argument : PlainSubscript → Tree.Arg
  | index value => ⟨none, .expr (numeral value), Tree.nowhere⟩
  | triplet lower upper stride =>
    ⟨none, .triplet (lower.map numeral) (upper.map numeral) (stride.map numeral), Tree.nowhere⟩

/-- The colon of a stride follows the colon behind the lower bound. -/
def fusesColons : PlainSubscript → Bool
  | triplet _ none (some _) => true
  | _ => false

def lexeme (value : Nat) : Lexeme :=
  .integer (toString value)

/-- The lexemes of a subscript in which no colons fuse. -/
def lexemes : PlainSubscript → List Lexeme
  | index value => [lexeme value]
  | triplet lower upper stride => lower.toList.map lexeme ++ .mark .colon ::
    (upper.toList.map lexeme ++ stride.toList.flatMap fun stride => [.mark .colon, lexeme stride])

theorem lexemes_spelling {subscript : PlainSubscript} (apart : subscript.fusesColons = false) (table : Table) {stop : Char}
    (ends : stop = ',' ∨ stop = ')') (back : List Char) :
    Scan.lexemes ((subscript.subscript.spelling table).toList ++ stop :: back) =
      subscript.lexemes ++ Scan.lexemes (stop :: back) := by
  have colon (back : List Char) : Scan.lexemes (':' :: stop :: back) = .mark .colon :: Scan.lexemes (stop :: back) := by
    rcases ends with rfl | rfl <;> exact Scan.lexemes_mark rfl
  have spelled (value : Nat) : (bound value).spelling table = toString value := rfl
  have number (value : Nat) (back : List Char) := Scan.lexemes_number value (.inl rfl) back
  have last (value : Nat) := Scan.lexemes_number value (.inr ends) back
  cases subscript with
  | index value => simp [PlainSubscript.subscript, Subscript.spelling, lexemes, lexeme, spelled, last]
  | triplet lower upper stride =>
    cases lower <;> cases upper <;> cases stride <;> first
      | exact absurd apart Bool.false_ne_true.symm
      | simp [PlainSubscript.subscript, Subscript.spelling, boundSpelling, strideSpelling, lexemes, lexeme, spelled,
          colon, number, last, Scan.lexemes_colon_number]

variable {subscripts : List PlainSubscript} {first : PlainSubscript}

theorem lexemes_listing (apart : ∀ subscript ∈ first :: subscripts, subscript.fusesColons = false) (table : Table)
    (back : List Char) :
    Scan.lexemes ((commaSeparated (subscriptSpellings table ((first :: subscripts).map subscript))).toList ++ ')' :: back) =
      first.lexemes ++ (subscripts.flatMap fun subscript => .mark .comma :: subscript.lexemes) ++
        Scan.lexemes (')' :: back) := by
  induction subscripts generalizing first with
  | nil => simpa [commaSeparated, subscriptSpellings] using lexemes_spelling (apart _ (.head _)) table (.inr rfl) back
  | cons second subscripts ih =>
    obtain ⟨ofFirst, ofOthers⟩ := List.forall_mem_cons.mp apart
    have comma (back : List Char) : Scan.lexemes (',' :: back) = .mark .comma :: Scan.lexemes back :=
      Scan.lexemes_sign (fun _ => rfl) back
    have next := ih ofOthers
    simp only [commaSeparated, subscriptSpellings, String.toList_intercalate, List.map_cons,
      List.intercalate_cons_cons] at next ⊢
    rw [List.append_assoc, List.append_assoc]
    simpa [lexemes_spelling ofFirst table (.inl rfl), comma] using next

variable {tokens : List Token}

theorem written_numeral {value : Nat} {place : Span} : Written (numeral value) [⟨lexeme value, place⟩] := by
  refine .integer (.plain fun member => ?_)
  rw [Nat.toString_eq_repr, Nat.toList_repr] at member
  cases Nat.isDigit_of_mem_toDigits (by decide) (by decide) member

theorem optionally_numeral {value : Option Nat} (isBound : tokens.map Token.lexeme = value.toList.map lexeme) :
    Optionally Written (value.map numeral) tokens := by
  cases value with
  | none =>
    obtain rfl := List.map_eq_nil_iff.mp isBound
    exact .omitted
  | some value =>
    obtain ⟨⟨_, place⟩, rfl, rfl⟩ := List.map_eq_singleton_iff.mp isBound
    exact .given written_numeral

theorem written_argument {subscript : PlainSubscript} (isLexemes : tokens.map Token.lexeme = subscript.lexemes) :
    WrittenArgument subscript.argument tokens := by
  cases subscript with
  | index value =>
    obtain ⟨⟨_, place⟩, rfl, rfl⟩ := List.map_eq_singleton_iff.mp isLexemes
    exact .positional (.expr written_numeral)
  | triplet lower upper stride =>
    obtain ⟨before, rest, rfl, isBefore, isRest⟩ := List.map_eq_append_iff.mp isLexemes
    obtain ⟨⟨_, place⟩, others, rfl, rfl, isOthers⟩ := List.map_eq_cons_iff.mp isRest
    obtain ⟨behind, last, rfl, isBehind, isLast⟩ := List.map_eq_append_iff.mp isOthers
    have lowers := optionally_numeral isBefore
    have uppers := optionally_numeral isBehind
    refine .positional ?_
    cases stride with
    | none =>
      obtain rfl := List.map_eq_nil_iff.mp isLast
      rw [List.append_nil]
      exact .triplet lowers uppers
    | some stride =>
      obtain ⟨⟨_, next⟩, number, rfl, rfl, isNumber⟩ := List.map_eq_cons_iff.mp isLast
      obtain ⟨⟨_, place⟩, rfl, rfl⟩ := List.map_eq_singleton_iff.mp isNumber
      exact .strided lowers uppers written_numeral

theorem separated_arguments
    (isLexemes : tokens.map Token.lexeme =
      first.lexemes ++ subscripts.flatMap fun subscript => .mark .comma :: subscript.lexemes) :
    Separated WrittenArgument ((first :: subscripts).map argument) tokens := by
  obtain ⟨front, others, rfl, isFront, isOthers⟩ := List.map_eq_append_iff.mp isLexemes
  refine .cons (written_argument isFront) ?_
  clear isLexemes isFront
  induction subscripts generalizing others with
  | nil =>
    obtain rfl := List.map_eq_nil_iff.mp isOthers
    exact .nil
  | cons subscript subscripts ih =>
    obtain ⟨comma, behind, rfl, isComma, isBehind⟩ := List.map_eq_append_iff.mp isOthers
    obtain ⟨⟨_, place⟩, front, rfl, rfl, isFront⟩ := List.map_eq_cons_iff.mp isComma
    exact .cons (written_argument isFront) (ih behind isBehind)

/-- A name in the spelling of the language. -/
def IsName (name : String) : Prop :=
  ∃ first rest, name.toList = first :: rest ∧ first.isAlpha = true ∧ ∀ c ∈ rest, Scan.isNameChar c = true

theorem lexemes_section {table : Table} {symbol : SymbolId} (named : IsName (table.symbol symbol).name)
    (apart : ∀ subscript ∈ first :: subscripts, subscript.fusesColons = false) :
    ∃ lexeme : Lexeme, lexeme.word? = some (Scan.lowered (table.symbol symbol).name.toList) ∧
      Scan.lexemes ((Expr.designator symbol ((first :: subscripts).map subscript) false).spelling table).toList =
        lexeme :: .mark .leftParen :: (first.lexemes ++
          (subscripts.flatMap fun subscript => .mark .comma :: subscript.lexemes) ++ [.mark .rightParen]) := by
  obtain ⟨letter, letters, isName, isLetter, all⟩ := named
  let items := commaSeparated (subscriptSpellings table ((first :: subscripts).map subscript))
  obtain ⟨lexeme, isWord, isLexeme⟩ := Scan.lexemes_name isLetter all (items.toList ++ [')'])
  refine ⟨lexeme, by rw [isName, isWord], ?_⟩
  have isSource : ((Expr.designator symbol ((first :: subscripts).map subscript) false).spelling table).toList =
      letter :: (letters ++ '(' :: (items.toList ++ [')'])) := by
    rw [← List.cons_append, ← isName]
    simp [Expr.spelling, subscriptSpellings, items]
  rw [isSource, isLexeme, Scan.lexemes_sign fun _ => rfl, lexemes_listing apart, Scan.lexemes_sign fun _ => rfl]
  simp [Scan.lexemes]

/-- The spelling of a designator is read back, to its last token, as a call of the name with the subscripts as
arguments, if no colons fuse. -/
theorem section_spelling_read (table : Table) (symbol : SymbolId) (subscripts : List PlainSubscript)
    (named : IsName (table.symbol symbol).name) (subscripted : subscripts ≠ [])
    (apart : ∀ subscript ∈ subscripts, subscript.fusesColons = false) :
    readWhole ((Expr.designator symbol (subscripts.map subscript) false).spelling table) =
      some (Tree.Expr.call (.name (Scan.lowered (table.symbol symbol).name.toList) Tree.nowhere)
        (subscripts.map argument) Tree.nowhere).bare := by
  obtain ⟨first, subscripts, rfl⟩ := List.exists_cons_of_ne_nil subscripted
  obtain ⟨lexeme, isWord, isLexemes⟩ := lexemes_section named apart
  obtain ⟨⟨word, place⟩, rest, isTokens, rfl, isRest⟩ := List.map_eq_cons_iff.mp isLexemes
  obtain ⟨⟨_, opening⟩, behind, rfl, rfl, isBehind⟩ := List.map_eq_cons_iff.mp isRest
  obtain ⟨items, last, rfl, isItems, isLast⟩ := List.map_eq_append_iff.mp isBehind
  obtain ⟨⟨_, closing⟩, rfl, rfl⟩ := List.map_eq_singleton_iff.mp isLast
  refine Written.readWhole ?_
  rw [Scan.tokens_eq, isTokens]
  exact @Written.call _ _ [⟨word, place⟩] _ _ opening closing rfl (.name isWord) (separated_arguments isItems)

def grid : Table :=
  ⟨#[⟨"grid", .empty, .empty, .object .unknown, Table.global, ⟨0, 0⟩⟩], #[Scope.globalScope]⟩

def strided (upper : Option Nat) : Expr :=
  .designator ⟨0⟩ ([triplet none upper (some 2), index 7].map subscript) false

theorem section_spelling_read_strided : (strided (some 9)).spelling grid = "grid(:9:2,7)" ∧
    readWhole ((strided (some 9)).spelling grid) = some (Tree.Expr.call
      (.name (Scan.lowered (grid.symbol ⟨0⟩).name.toList) Tree.nowhere)
      ([triplet none (some 9) (some 2), index 7].map argument) Tree.nowhere).bare :=
  ⟨by decide +kernel, section_spelling_read grid ⟨0⟩ [triplet none (some 9) (some 2), index 7]
    ⟨'g', ['r', 'i', 'd'], rfl, rfl, List.all_eq_true.mp rfl⟩ (by simp) (by decide)⟩

theorem section_spelling_lost : (strided none).spelling grid = "grid(::2,7)" ∧ readWhole "grid(::2,7)" = none := by
  decide +kernel

end PlainSubscript

end FortranInterface
