import FortranInterface.Proofs.TokenSeparation

/-!
Upper and lower case make no difference to the tokens of a text. The text in lower case is cut at the same places, into
the same tokens with their own texts in lower case.
-/

namespace FortranInterface

def Lexeme.lower : Lexeme → Lexeme
  | .name spelling => .name spelling.toLower
  | .text value => .text value.toLower
  | .boz spelling => .boz spelling.toLower
  | .real spelling => .real spelling.toLower
  | .integer spelling => .integer spelling.toLower
  | .definedOperator op => .definedOperator op.toLower
  | .stray found => .stray found.toLower
  | .newline => .newline
  | .truth value => .truth value
  | .keyword word => .keyword word
  | .mark sign => .mark sign

def Token.lower (token : Token) : Token :=
  { token with lexeme := token.lexeme.lower }

namespace Scan

def Piece.lower : Piece → Piece
  | .lexeme value => .lexeme value.lower
  | piece => piece

def Cut.lower (found : Cut) : Cut :=
  (found.1.lower, found.2)

/-! Characters. Only the 26 letters of the alphabet have a lower case. -/

def capitals : List Char :=
  (List.range 26).map fun index => Char.ofNat (65 + index)

theorem toLower_eq_or_mem_capitals (c : Char) : c.toLower = c ∨ c ∈ capitals := by
  by_cases isCapital : c.val ≥ 'A'.val ∧ c.val ≤ 'Z'.val
  · right
    have bounds : 65 ≤ c.toNat ∧ c.toNat ≤ 90 := by
      simpa [UInt32.le_iff_toNat_le] using isCapital
    refine List.mem_map.mpr ⟨c.toNat - 65, List.mem_range.mpr (by omega), ?_⟩
    rw [Nat.add_sub_cancel' bounds.1, Char.ofNat_toNat]
  · exact .inl (dif_neg isCapital)

theorem apply_toLower {α : Type} [DecidableEq α] {read : Char → α}
    (same : capitals.all (fun c => read c.toLower = read c) = true) (c : Char) : read c.toLower = read c := by
  rcases toLower_eq_or_mem_capitals c with fixed | member
  · rw [fixed]
  · exact of_decide_eq_true (List.all_eq_true.mp same c member)

theorem utf8Size_toLower (c : Char) : c.toLower.utf8Size = c.utf8Size := apply_toLower (by decide) c

theorem toLower_toLower (c : Char) : c.toLower.toLower = c.toLower := apply_toLower (by decide) c

def Caseless (test : Char → Bool) : Prop :=
  ∀ c, test c.toLower = test c

theorem caseless_of_capitals {test : Char → Bool}
    (same : capitals.all (fun c => test c.toLower = test c) = true) : Caseless test :=
  apply_toLower same

theorem caseless_isBlank : Caseless isBlank := caseless_of_capitals (by decide)

theorem caseless_isSpace : Caseless isSpace := caseless_of_capitals (by decide)

theorem caseless_isGap : Caseless isGap := caseless_of_capitals (by decide)

theorem caseless_isNameChar : Caseless isNameChar := caseless_of_capitals (by decide)

theorem caseless_isHexDigit : Caseless isHexDigit := caseless_of_capitals (by decide)

theorem caseless_isExponentLetter : Caseless isExponentLetter := caseless_of_capitals (by decide)

theorem caseless_isRadixLetter : Caseless isRadixLetter := caseless_of_capitals (by decide)

theorem caseless_isSign : Caseless isSign := caseless_of_capitals (by decide)

theorem caseless_isQuote : Caseless isQuote := caseless_of_capitals (by decide)

theorem caseless_isDigit : Caseless Char.isDigit := caseless_of_capitals (by decide)

theorem caseless_isAlpha : Caseless Char.isAlpha := caseless_of_capitals (by decide)

theorem caseless_ne_newline : Caseless (· ≠ '\n') := caseless_of_capitals (by decide)

theorem toLower_eq_iff (sign : Char) (noLetter : sign.isAlpha = false) (c : Char) : c.toLower = sign ↔ c = sign := by
  rcases toLower_eq_or_mem_capitals c with fixed | member
  · rw [fixed]
  · have letters : capitals.all (fun c => c.isAlpha && c.toLower.isAlpha) = true := by decide
    have isLetter := List.all_eq_true.mp letters c member
    constructor <;> rintro rfl <;> simp [noLetter] at isLetter

theorem toList_toLower (text : String) : text.toLower.toList = text.toList.map Char.toLower :=
  String.toList_map

theorem toLower_ofList (text : List Char) : (String.ofList text).toLower = String.ofList (text.map Char.toLower) := by
  rw [← String.toList_inj, toList_toLower, String.toList_ofList, String.toList_ofList]

theorem byteLength_toLower (text : List Char) : byteLength (text.map Char.toLower) = byteLength text := by
  induction text with
  | nil => rfl
  | cons c rest ih => rw [List.map_cons, byteLength, byteLength, ih, utf8Size_toLower]

/-! Lengths. -/

theorem runLength_toLower {test : Char → Bool} (caseless : Caseless test) (text : List Char) :
    runLength test (text.map Char.toLower) = runLength test text := by
  have same : test ∘ Char.toLower = test := funext caseless
  rw [runLength, List.takeWhile_map, List.length_map, same, runLength]

section

variable (text : List Char)
include text

theorem lowered_toLower : lowered (text.map Char.toLower) = lowered text := by
  have same : Char.toLower ∘ Char.toLower = Char.toLower := funext toLower_toLower
  rw [lowered, List.map_map, same, lowered]

theorem exponentLength_toLower : exponentLength (text.map Char.toLower) = exponentLength text := by
  match text with
  | [] => rfl
  | [letter] => simp [exponentLength]
  | letter :: sign :: digits =>
    have run := runLength_toLower caseless_isDigit (sign :: digits)
    rw [List.map_cons] at run
    simp only [List.map_cons, exponentLength, caseless_isExponentLetter letter, caseless_isSign sign,
      runLength_toLower caseless_isDigit, run]

theorem kindLength_toLower : kindLength (text.map Char.toLower) = kindLength text := by
  cases text with
  | nil => rfl
  | cons mark rest =>
    by_cases isMark : mark = '_'
    · subst isMark
      simp [kindLength, runLength_toLower caseless_isNameChar]
    · have isMark' : mark.toLower ≠ '_' := (toLower_eq_iff '_' rfl mark).not.mpr isMark
      simp [kindLength, isMark, isMark']

theorem realTailLength_toLower : realTailLength (text.map Char.toLower) = realTailLength text := by
  simp only [realTailLength, exponentLength_toLower, ← List.map_drop, kindLength_toLower]

theorem fractionLength_toLower : fractionLength (text.map Char.toLower) = fractionLength text := by
  simp only [fractionLength, runLength_toLower caseless_isDigit, ← List.map_drop, realTailLength_toLower]

end

theorem head?_toLower_eq_iff (sign : Char) (noLetter : sign.isAlpha = false) (text : List Char) :
    (text.map Char.toLower).head? = some sign ↔ text.head? = some sign := by
  cases text with
  | nil => rfl
  | cons c rest => simp [toLower_eq_iff sign noLetter]

theorem numberLength_toLower (rest : List Char) : numberLength (rest.map Char.toLower) = numberLength rest := by
  have isWhole := runLength_toLower caseless_isDigit rest
  have isAfter := (List.map_drop (f := Char.toLower) (l := rest) (i := runLength Char.isDigit rest)).symm
  by_cases isPoint : (rest.drop (runLength Char.isDigit rest)).head? = some '.'
  · obtain ⟨fraction, isFraction⟩ := List.head?_eq_some_iff.mp isPoint
    rw [isFraction, List.map_cons] at isAfter
    rw [numberLength_of_point rfl isFraction, numberLength_of_point isWhole isAfter, fractionLength_toLower]
  · have noPoint := (head?_toLower_eq_iff '.' rfl _).not.mpr isPoint
    rw [numberLength_of_ne rfl rfl isPoint, numberLength_of_ne isWhole isAfter noPoint, exponentLength_toLower,
      kindLength_toLower, realTailLength_toLower]

variable {quote : Char}

theorem quotedReach_toLower (noLetter : quote.isAlpha = false) (before : Nat) (text : List Char) :
    quotedReach quote before (text.map Char.toLower) = quotedReach quote before text := by
  have same (c : Char) := toLower_eq_iff quote noLetter c
  have newline (c : Char) := toLower_eq_iff '\n' rfl c
  fun_induction quotedReach quote before text with
  | case1 => rfl
  | case2 before rest => exact quotedReach_newline quote before _
  | case3 before after noNewline ih => simp [quotedReach, same, newline, noNewline, ih]
  | case4 before next after noQuote noNewline => simp [quotedReach, same, newline, noNewline, noQuote]
  | case5 before noNewline => simp [quotedReach, same, newline, noNewline]
  | case6 before c rest noNewline noQuote ih =>
    rw [List.map_cons, quotedReach_cons_of_ne ((newline c).not.mpr noNewline) ((same c).not.mpr noQuote), ih]

theorem unquotedOnto_toLower (noLetter : quote.isAlpha = false) (shown text : List Char) :
    unquotedOnto quote (shown.map Char.toLower) (text.map Char.toLower) =
      (unquotedOnto quote shown text).map Char.toLower := by
  have same (c : Char) := toLower_eq_iff quote noLetter c
  have fixed : quote.toLower = quote := (same quote).mpr rfl
  fun_induction unquotedOnto quote shown text with
  | case1 shown first second rest twice ih => simpa [unquotedOnto, same, twice, fixed] using ih
  | case2 shown first second rest single ih => simpa [unquotedOnto, same, single] using ih
  | case3 | case4 => simp [unquotedOnto]

theorem remarkLength_toLower (text : List Char) : remarkLength (text.map Char.toLower) = remarkLength text := by
  cases text with
  | nil => rfl
  | cons mark rest =>
    by_cases isMark : mark = '!'
    · subst isMark
      exact congrArg (1 + ·) (runLength_toLower caseless_ne_newline rest)
    · have isMark' : mark.toLower ≠ '!' := (toLower_eq_iff '!' rfl mark).not.mpr isMark
      simp [remarkLength, isMark, isMark']

theorem lineEndLength_toLower (text : List Char) : lineEndLength (text.map Char.toLower) = lineEndLength text := by
  have newline (c : Char) := toLower_eq_iff '\n' rfl c
  have return' (c : Char) := toLower_eq_iff '\r' rfl c
  match text with
  | [] => rfl
  | [first] =>
    by_cases isEnd : first = '\n'
    · subst isEnd
      rfl
    · simp [lineEndLength, isEnd, newline]
  | first :: second :: rest =>
    unfold lineEndLength
    grind

/-! Cuts. -/

theorem stray_toLower (first : Char) (rest : List Char) (count : Nat) :
    stray first.toLower (rest.map Char.toLower) count = (stray first rest count).lower := by
  simp only [stray, Cut.lower, Piece.lower, Lexeme.lower, toLower_ofList, List.map_cons, List.map_take]

theorem toLower_lowered (text : List Char) : (lowered text).toLower = lowered text := by
  rw [lowered, toLower_ofList, ← lowered, lowered_toLower, lowered]

theorem cutName_toLower (first : Char) (rest : List Char) :
    cutName first.toLower (rest.map Char.toLower) = (cutName first rest).lower := by
  have word := lowered_toLower (first :: rest.take (runLength isNameChar rest))
  rw [List.map_cons, List.map_take] at word
  simp only [cutName, runLength_toLower caseless_isNameChar, word]
  split
  · rfl
  · simp [Cut.lower, Piece.lower, Lexeme.lower, toLower_lowered]

theorem cutNumber_toLower (first : Char) (rest : List Char) :
    cutNumber first.toLower (rest.map Char.toLower) = (cutNumber first rest).lower := by
  simp only [cutNumber, numberLength_toLower]
  split <;> simp only [Cut.lower, Piece.lower, Lexeme.lower, toLower_ofList, List.map_cons, List.map_take]

theorem isAlpha_of_isQuote (isQuoted : isQuote quote = true) : quote.isAlpha = false := by
  have isEither : quote = '\'' ∨ quote = '"' := by simpa [isQuote] using isQuoted
  rcases isEither with rfl | rfl <;> rfl

theorem toLower_of_isQuote (isQuoted : isQuote quote = true) : quote.toLower = quote :=
  (toLower_eq_iff quote (isAlpha_of_isQuote isQuoted) quote).mpr rfl

theorem cutText_toLower (isQuoted : isQuote quote = true) (rest : List Char) :
    cutText quote.toLower (rest.map Char.toLower) = (cutText quote rest).lower := by
  have noLetter := isAlpha_of_isQuote isQuoted
  have fixed := toLower_of_isQuote isQuoted
  simp only [cutText, fixed, quotedReach_toLower noLetter]
  split
  next count _ =>
    have inner := unquotedOnto_toLower noLetter [] (rest.take (count - 1))
    rw [List.map_nil, List.map_take] at inner
    simp only [Cut.lower, Piece.lower, Lexeme.lower, toLower_ofList, unquoted, inner]
  · rw [← stray_toLower, fixed]

theorem cutRadix_toLower (first : Char) (rest : List Char) :
    cutRadix first.toLower (rest.map Char.toLower) = (cutRadix first rest).lower := by
  by_cases isPattern : ∃ quote digits, rest = quote :: digits ∧ isQuote quote = true ∧ runLength isHexDigit digits ≠ 0
  · obtain ⟨quote, digits, rfl, isQuoted, some⟩ := isPattern
    have run := runLength_toLower caseless_isHexDigit digits
    have isClosed := head?_toLower_eq_iff quote (isAlpha_of_isQuote isQuoted) (digits.drop (runLength isHexDigit digits))
    have text := stray_toLower first (quote :: digits)
    rw [List.map_cons, toLower_of_isQuote isQuoted] at text ⊢
    rw [cutRadix_digits first isQuoted some, cutRadix_digits _ isQuoted (run ▸ some), run, ← List.map_drop,
      apply_ite Cut.lower, ← text]
    simp only [isClosed, Cut.lower, Piece.lower, Lexeme.lower, toLower_ofList, List.map_cons, List.map_take,
      toLower_of_isQuote isQuoted]
  · have none : ∀ quote digits, rest = quote :: digits → isQuote quote = true → runLength isHexDigit digits = 0 := by
      intro quote digits isText isQuoted
      by_contra some
      exact isPattern ⟨quote, digits, isText, isQuoted, some⟩
    rw [cutRadix_name first none, ← cutName_toLower, cutRadix_name]
    intro quote digits isText isQuoted
    obtain ⟨c, others, rfl, rfl, rfl⟩ := List.map_eq_cons_iff.mp isText
    rw [runLength_toLower caseless_isHexDigit]
    exact none c others rfl (caseless_isQuote c ▸ isQuoted)

theorem cutPoint_open {rest : List Char} (noPoint : rest.head? ≠ some '.') (noDigits : runLength Char.isDigit rest = 0)
    (unclosed : runLength Char.isAlpha rest ≠ 0 → (rest.drop (runLength Char.isAlpha rest)).head? ≠ some '.') :
    cutPoint rest =
      if beginsDottedWord (lowered (rest.take (runLength Char.isAlpha rest))) then stray '.' rest 0
      else stray '.' rest (runLength Char.isAlpha rest) := by
  unfold cutPoint
  split
  · simp at noPoint
  · split
    · simp_all
    · dsimp only
      split
      next none => simp [none, show beginsDottedWord (lowered []) = true from by decide]
      next closed letters => exact absurd closed (unclosed letters)
      · rfl

theorem lower_dottedWord (text : List Char) :
    ((dottedWord? (lowered text)).getD (.definedOperator (lowered text))).lower =
      (dottedWord? (lowered text)).getD (.definedOperator (lowered text)) := by
  have fixed := toLower_lowered text
  unfold dottedWord?
  split <;> simp [Lexeme.lower, fixed]

theorem cutPoint_toLower (rest : List Char) : cutPoint (rest.map Char.toLower) = (cutPoint rest).lower := by
  have isPoint := head?_toLower_eq_iff '.' rfl rest
  have digits := runLength_toLower caseless_isDigit rest
  have letters := runLength_toLower caseless_isAlpha rest
  have word := lowered_toLower (rest.take (runLength Char.isAlpha rest))
  have isClosed := head?_toLower_eq_iff '.' rfl (rest.drop (runLength Char.isAlpha rest))
  rw [List.map_take] at word
  rw [List.map_drop] at isClosed
  by_cases doubled : rest.head? = some '.'
  · obtain ⟨others, rfl⟩ := List.head?_eq_some_iff.mp doubled
    rfl
  · have noPoint := isPoint.not.mpr doubled
    by_cases noDigits : runLength Char.isDigit rest = 0
    · by_cases closed : runLength Char.isAlpha rest ≠ 0 ∧ (rest.drop (runLength Char.isAlpha rest)).head? = some '.'
      · rw [cutPoint_word doubled noDigits closed.1 closed.2, cutPoint_word noPoint (digits.trans noDigits)
          (letters ▸ closed.1) (letters ▸ isClosed.mpr closed.2), letters, word]
        simp only [Cut.lower, Piece.lower, lower_dottedWord]
      · rw [cutPoint_open doubled noDigits (not_and.mp closed), cutPoint_open noPoint (digits.trans noDigits), letters, word,
          apply_ite Cut.lower, ← stray_toLower, ← stray_toLower]
        · rfl
        · intro some isEnd
          rw [letters] at some isEnd
          exact closed ⟨some, isClosed.mp isEnd⟩
    · rw [cutPoint_real doubled noDigits, cutPoint_real noPoint (digits ▸ noDigits), fractionLength_toLower]
      simp only [Cut.lower, Piece.lower, Lexeme.lower, toLower_ofList, List.map_cons, List.map_take]
      rfl

theorem cutContinuation_toLower (rest : List Char) :
    cutContinuation (rest.map Char.toLower) = (cutContinuation rest).lower := by
  rw [cutContinuation_eq rfl rfl rfl rfl, cutContinuation_eq rfl rfl rfl rfl]
  simp only [runLength_toLower caseless_isSpace, runLength_toLower caseless_isGap, ← List.map_drop, remarkLength_toLower,
    lineEndLength_toLower, head?_toLower_eq_iff '&' rfl, apply_ite Cut.lower, ← stray_toLower]
  rfl

variable {pairs : List (Char × Mark)}

theorem lookup_toLower (signs : ∀ pair ∈ pairs, pair.1.isAlpha = false) (c : Char) :
    pairs.lookup c.toLower = pairs.lookup c := by
  induction pairs with
  | nil => rfl
  | cons pair pairs ih =>
    obtain ⟨sign, mark⟩ := pair
    have isSign := toLower_eq_iff sign (signs _ (.head _)) c
    rw [List.lookup_cons, List.lookup_cons, ih fun pair member => signs pair (.tail _ member)]
    grind

theorem cutMark_toLower (single : Mark) (signs : ∀ pair ∈ pairs, pair.1.isAlpha = false) (rest : List Char) :
    cutMark single pairs (rest.map Char.toLower) = (cutMark single pairs rest).lower := by
  cases rest with
  | nil => rfl
  | cons second others =>
    simp only [cutMark, List.map_cons, lookup_toLower signs]
    split <;> rfl

theorem ite_eq_lower {p q : Prop} [Decidable p] [Decidable q] {yes no yes' no' : Cut} (same : p ↔ q)
    (ifYes : q → yes = yes'.lower) (ifNo : no = no'.lower) : (if p then yes else no) = Cut.lower (if q then yes' else no') := by
  by_cases holds : q
  · rw [if_pos (same.mpr holds), if_pos holds, ifYes holds]
  · rw [if_neg (same.not.mpr holds), if_neg holds, ifNo]

theorem cut_toLower (first : Char) (rest : List Char) :
    cut first.toLower (rest.map Char.toLower) = (cut first rest).lower := by
  have sign {c : Char} (noLetter : c.isAlpha = false) := toLower_eq_iff c noLetter first
  have test {test : Char → Bool} (caseless : Caseless test) : test first.toLower = true ↔ test first = true := by
    rw [caseless first]
  have ending : (first.toLower = '\n' || first.toLower = ';') = true ↔ (first = '\n' || first = ';') = true := by
    simp [toLower_eq_iff]
  unfold cut
  refine ite_eq_lower (test caseless_isBlank) (fun _ => ?_) ?_
  · rw [runLength_toLower caseless_isBlank]
    rfl
  refine ite_eq_lower (sign rfl) (fun _ => ?_) ?_
  · rw [commentLength, runLength_toLower caseless_ne_newline]
    rfl
  refine ite_eq_lower (sign rfl) (fun _ => cutContinuation_toLower rest) ?_
  refine ite_eq_lower ending (fun _ => rfl) ?_
  refine ite_eq_lower (test caseless_isRadixLetter) (fun _ => cutRadix_toLower first rest) ?_
  refine ite_eq_lower (test caseless_isAlpha) (fun _ => cutName_toLower first rest) ?_
  refine ite_eq_lower (test caseless_isQuote) (fun isQuoted => cutText_toLower isQuoted rest) ?_
  refine ite_eq_lower (test caseless_isDigit) (fun _ => cutNumber_toLower first rest) ?_
  refine ite_eq_lower (sign rfl) (fun _ => cutPoint_toLower rest) ?_
  repeat refine ite_eq_lower (sign rfl) (fun _ => cutMark_toLower _ (by decide) rest) ?_
  exact stray_toLower first rest 0

theorem tokensFrom_toLower (offset : Nat) (text : List Char) :
    tokensFrom offset (text.map Char.toLower) = (tokensFrom offset text).map Token.lower := by
  induction text using slices_induction generalizing offset with
  | nil => simp
  | cons first rest ih =>
    rw [List.map_cons, tokensFrom_cons, tokensFrom_cons, cut_toLower, Cut.lower, ← List.map_take, ← List.map_cons,
      byteLength_toLower, ← List.map_drop, ih, List.map_append]
    congr 1
    cases (cut first rest).1 <;> rfl

end Scan

/-- The tokens of a text in lower case are those of the text, with their texts in lower case. -/
theorem tokens_toLower (source : String) : tokens source.toLower = (tokens source).map Token.lower := by
  rw [Scan.tokens_eq, Scan.tokens_eq, Scan.toList_toLower, Scan.tokensFrom_toLower]

end FortranInterface
