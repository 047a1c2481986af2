import FortranInterface.Proofs.SourceTiling

/-!
Tokens that stand next to each other can be moved apart. Where a text has no stray tokens, blanks or a continued line
that are put behind one of its tokens leave all tokens as they are, but for the places of those that follow.

A cut looks beyond the piece it takes: the letter behind a digit may open an exponent, and a quote behind a letter a bit
pattern. So the argument is about the text behind a piece up to any place, not about the piece alone.
-/

namespace FortranInterface

namespace Scan

/-- Text that may be put between two tokens: blanks, or the end of a line that is continued on the next one. -/
inductive Separator : List Char → Prop where
  | blanks {text : List Char} : text ≠ [] → (∀ c ∈ text, isSpace c = true) → Separator text
  | continuation {gap : List Char} : (∀ c ∈ gap, isGap c = true) → Separator ('&' :: '\n' :: (gap ++ ['&']))

def opensSeparator (c : Char) : Bool :=
  isSpace c || c = '&'

variable {text : List Char}

theorem Separator.exists_cons (separator : Separator text) :
    ∃ c others, text = c :: others ∧ opensSeparator c = true := by
  cases separator with
  | blanks filled blank =>
    obtain ⟨c, others, rfl⟩ := List.exists_cons_of_ne_nil filled
    exact ⟨c, others, rfl, by simp [opensSeparator, blank c (.head _)]⟩
  | continuation => exact ⟨'&', _, rfl, rfl⟩

/-- The character belongs to no lexeme, but for texts between quotes. -/
structure Parts (c : Char) : Prop where
  name : isNameChar c = false
  digit : c.isDigit = false
  alpha : c.isAlpha = false
  hexDigit : isHexDigit c = false
  exponentLetter : isExponentLetter c = false
  sign : isSign c = false
  quote : isQuote c = false
  point : c ≠ '.'
  underscore : c ≠ '_'

variable {c : Char}

theorem parts_of_opensSeparator (opens : opensSeparator c = true) : c = ' ' ∨ c = '\t' ∨ c = '&' := by
  simpa [opensSeparator, isSpace, or_assoc] using opens

theorem Parts.of_opensSeparator (opens : opensSeparator c = true) : Parts c := by
  rcases parts_of_opensSeparator opens with rfl | rfl | rfl <;> constructor <;> decide

/-! Lengths. Each length that reaches no further than `front` is the same when something else follows `front`. -/

variable {test : Char → Bool} {quote first : Char}

section Lengths

variable {front back : List Char}

theorem runLength_cons (test : Char → Bool) (c : Char) (text : List Char) :
    runLength test (c :: text) = if test c then runLength test text + 1 else 0 := by
  rw [runLength, List.takeWhile_cons]
  split <;> rfl

theorem runLength_le (test : Char → Bool) (text : List Char) : runLength test text ≤ text.length :=
  List.IsPrefix.length_le (List.takeWhile_prefix test)

theorem runLength_append_of_lt (short : runLength test (front ++ back) < front.length) (other : List Char) :
    runLength test (front ++ other) = runLength test (front ++ back) := by
  induction front with
  | nil => simp at short
  | cons c front ih =>
    simp only [List.cons_append, runLength_cons, List.length_cons] at short ⊢
    split
    next holds =>
      rw [if_pos holds] at short
      rw [ih (by omega)]
    · rfl

variable {c : Char} (tail : List Char)

theorem runLength_insert (fails : test c = false) (short : runLength test (front ++ back) ≤ front.length) :
    runLength test (front ++ c :: tail) = runLength test (front ++ back) := by
  rcases Nat.lt_or_eq_of_le short with short | full
  · exact runLength_append_of_lt short _
  · rw [full, runLength, List.takeWhile_append_of_pos]
    · simp [fails]
    · have all := forall_take_runLength test (front ++ back)
      rwa [full, List.take_left] at all

theorem exponentLength_signed {letter sign : Char} (isLetter : isExponentLetter letter = true)
    (signed : isSign sign = true) (digits : List Char) :
    exponentLength (letter :: sign :: digits) =
      if runLength Char.isDigit digits = 0 then 0 else runLength Char.isDigit digits + 2 := by
  simp only [exponentLength, isLetter, signed, if_true]
  split <;> simp_all

theorem exponentLength_unsigned {letter : Char} {digits : List Char} (isLetter : isExponentLetter letter = true)
    (unsigned : digits.head?.any isSign = false) :
    exponentLength (letter :: digits) =
      if runLength Char.isDigit digits = 0 then 0 else runLength Char.isDigit digits + 1 := by
  cases digits with
  | nil => simp [exponentLength, isLetter, runLength]
  | cons first others =>
    have unsigned : isSign first = false := by simpa using unsigned
    simp only [exponentLength, isLetter, unsigned, if_true, Bool.false_eq_true, if_false]
    split <;> simp_all

theorem exponentLength_eq_zero_or (text : List Char) : exponentLength text = 0 ∨ 2 ≤ exponentLength text := by
  match text with
  | [] => exact .inl rfl
  | [letter] => exact .inl (by simp [exponentLength])
  | letter :: sign :: digits =>
    cases isLetter : isExponentLetter letter with
    | false => exact .inl (by simp [exponentLength, isLetter])
    | true =>
      cases signed : isSign sign with
      | true =>
        rw [exponentLength_signed isLetter signed]
        split <;> omega
      | false =>
        rw [exponentLength_unsigned isLetter (by simpa using signed)]
        split <;> omega

variable (parts : Parts c)
include parts

theorem exponentLength_insert (short : exponentLength (front ++ back) ≤ front.length) :
    exponentLength (front ++ c :: tail) = exponentLength (front ++ back) := by
  cases front with
  | nil =>
    have none : exponentLength ([] ++ back) = 0 := Nat.le_zero.mp short
    rw [none]
    simp [exponentLength, parts.exponentLetter]
  | cons letter front =>
    cases isLetter : isExponentLetter letter with
    | false => simp [exponentLength, isLetter]
    | true =>
      have apart (others : List Char) : exponentLength (letter :: c :: others) = 0 := by
        rw [exponentLength_unsigned isLetter (by simp [parts.sign]), runLength_cons]
        simp [parts.digit]
      cases front with
      | nil =>
        have few : exponentLength (letter :: back) ≤ 1 := short
        have many := exponentLength_eq_zero_or (letter :: back)
        have none : exponentLength ([letter] ++ back) = 0 := by
          rw [List.singleton_append]
          omega
        rw [none]
        exact apart tail
      | cons sign front =>
        simp only [List.cons_append, List.length_cons] at short ⊢
        cases signed : isSign sign with
        | true =>
          rw [exponentLength_signed isLetter signed] at short ⊢
          rw [exponentLength_signed isLetter signed, runLength_insert tail parts.digit]
          split at short <;> omega
        | false =>
          rw [exponentLength_unsigned isLetter (by simpa using signed)] at short ⊢
          have digits : runLength Char.isDigit (sign :: front ++ back) ≤ (sign :: front).length := by
            rw [List.cons_append, List.length_cons]
            split at short <;> omega
          have same : runLength Char.isDigit (sign :: (front ++ c :: tail)) =
            runLength Char.isDigit (sign :: (front ++ back)) := runLength_insert tail parts.digit digits
          rw [exponentLength_unsigned isLetter (by simpa using signed), same]

theorem kindLength_insert (short : kindLength (front ++ back) ≤ front.length) :
    kindLength (front ++ c :: tail) = kindLength (front ++ back) := by
  cases front with
  | nil =>
    have none : kindLength ([] ++ back) = 0 := Nat.le_zero.mp short
    rw [none]
    simp [kindLength, parts.underscore]
  | cons mark front =>
    by_cases isMark : mark = '_'
    · subst isMark
      have name : runLength isNameChar (front ++ back) ≤ front.length := by
        simp only [List.cons_append, kindLength, List.length_cons] at short
        split at short <;> omega
      simp [kindLength, runLength_insert tail parts.name name]
    · simp [kindLength, isMark]

theorem realTailLength_insert (short : realTailLength (front ++ back) ≤ front.length) :
    realTailLength (front ++ c :: tail) = realTailLength (front ++ back) := by
  simp only [realTailLength] at short ⊢
  have inside : exponentLength (front ++ back) ≤ front.length := by omega
  rw [List.drop_append_of_le_length inside] at short ⊢
  rw [exponentLength_insert tail parts inside, List.drop_append_of_le_length inside, kindLength_insert tail parts]
  rw [List.length_drop]
  omega

theorem fractionLength_insert (short : fractionLength (front ++ back) ≤ front.length) :
    fractionLength (front ++ c :: tail) = fractionLength (front ++ back) := by
  simp only [fractionLength] at short ⊢
  have inside : runLength Char.isDigit (front ++ back) ≤ front.length := by omega
  rw [List.drop_append_of_le_length inside] at short ⊢
  rw [runLength_insert tail parts.digit inside, List.drop_append_of_le_length inside, realTailLength_insert tail parts]
  rw [List.length_drop]
  omega

omit parts in
theorem numberLength_of_point {rest fraction : List Char} {whole : Nat} (isWhole : runLength Char.isDigit rest = whole)
    (isPoint : rest.drop whole = '.' :: fraction) :
    numberLength rest = (true, whole + 1 + fractionLength fraction) := by
  subst isWhole
  simp [numberLength, isPoint, fractionLength, Nat.add_assoc]

omit parts in
theorem numberLength_of_ne {rest after : List Char} {whole : Nat} (isWhole : runLength Char.isDigit rest = whole)
    (isAfter : rest.drop whole = after) (noPoint : after.head? ≠ some '.') :
    numberLength rest =
      if exponentLength after = 0 then (false, whole + kindLength after) else (true, whole + realTailLength after) := by
  subst isWhole
  simp only [numberLength, isAfter]
  split
  · simp at noPoint
  · split <;> simp_all

omit parts in
theorem runLength_le_numberLength (rest : List Char) : runLength Char.isDigit rest ≤ (numberLength rest).2 := by
  by_cases isPoint : (rest.drop (runLength Char.isDigit rest)).head? = some '.'
  · obtain ⟨fraction, isFraction⟩ := List.head?_eq_some_iff.mp isPoint
    rw [numberLength_of_point rfl isFraction]
    dsimp only
    omega
  · rw [numberLength_of_ne rfl rfl isPoint]
    split <;> exact Nat.le_add_right _ _

theorem numberLength_insert (short : (numberLength (front ++ back)).2 ≤ front.length) :
    numberLength (front ++ c :: tail) = numberLength (front ++ back) := by
  have inside := Nat.le_trans (runLength_le_numberLength _) short
  have isWhole' := runLength_insert tail parts.digit inside
  generalize isWhole : runLength Char.isDigit (front ++ back) = whole at inside isWhole'
  have behind (text : List Char) : (front ++ text).drop whole = front.drop whole ++ text :=
    List.drop_append_of_le_length inside
  have length : front.length = whole + (front.drop whole).length := by
    rw [List.length_drop]
    omega
  rw [length] at short
  generalize front.drop whole = after at behind short
  by_cases isPoint : ∃ fraction, after = '.' :: fraction
  · obtain ⟨fraction, rfl⟩ := isPoint
    simp only [List.cons_append] at behind
    rw [numberLength_of_point isWhole (behind back), List.length_cons] at short
    have places : fractionLength (fraction ++ back) ≤ fraction.length := by
      dsimp only at short
      omega
    rw [numberLength_of_point isWhole' (behind _), numberLength_of_point isWhole (behind _)]
    rw [fractionLength_insert tail parts places]
  · have noPoint' : (after ++ c :: tail).head? ≠ some '.' := by
      cases after with
      | nil => simpa using parts.point
      | cons first others => simpa using isPoint
    have noPoint : (after ++ back).head? ≠ some '.' := by
      cases after with
      | nil =>
        intro isFirst
        obtain ⟨fraction, rfl⟩ := List.head?_eq_some_iff.mp isFirst
        rw [numberLength_of_point isWhole (behind _), List.length_nil] at short
        dsimp only at short
        omega
      | cons first others => simpa using isPoint
    rw [numberLength_of_ne isWhole (behind _) noPoint] at short ⊢
    rw [numberLength_of_ne isWhole' (behind _) noPoint']
    split at short
    next none =>
      have kind : kindLength (after ++ back) ≤ after.length := Nat.le_of_add_le_add_left short
      rw [exponentLength_insert tail parts (none ▸ Nat.zero_le _), kindLength_insert tail parts kind]
      simp [none]
    next some =>
      have real : realTailLength (after ++ back) ≤ after.length := Nat.le_of_add_le_add_left short
      have exponent : exponentLength (after ++ back) ≤ after.length := Nat.le_trans (Nat.le_add_right _ _) real
      rw [exponentLength_insert tail parts exponent, realTailLength_insert tail parts real]
      simp [some]

omit parts in
theorem lt_quotedReach {before : Nat} (closed : (quotedReach quote before text).1 = true) :
    before < (quotedReach quote before text).2 := by
  fun_induction quotedReach quote before text <;> grind

omit parts in
theorem quotedReach_newline (quote : Char) (before : Nat) (rest : List Char) :
    quotedReach quote before ('\n' :: rest) = (false, before) := by
  cases rest <;> simp [quotedReach]

omit parts in
theorem quotedReach_cons_of_ne (noNewline : ¬ first = '\n') (noQuote : ¬ first = quote) (before : Nat)
    (rest : List Char) : quotedReach quote before (first :: rest) = quotedReach quote (before + 1) rest := by
  cases rest <;> simp [quotedReach, noNewline, noQuote]

theorem quotedReach_insert (isQuoted : isQuote quote = true) (before : Nat) (front : List Char)
    (closed : (quotedReach quote before (front ++ back)).1 = true)
    (short : (quotedReach quote before (front ++ back)).2 ≤ before + front.length) :
    quotedReach quote before (front ++ c :: tail) = quotedReach quote before (front ++ back) := by
  have apart : ¬ c = quote := by
    rintro rfl
    simp [parts.quote] at isQuoted
  have beyond := lt_quotedReach closed
  induction before, front using quotedReach.induct quote with
  | case1 before =>
    rw [List.length_nil] at short
    omega
  | case2 before rest => rw [List.cons_append, List.cons_append, quotedReach_newline, quotedReach_newline]
  | case3 before digits noNewline ih =>
    simp only [List.cons_append, quotedReach, noNewline, if_false, if_true, List.length_cons] at closed short ⊢
    exact ih closed (by omega) (lt_quotedReach closed)
  | case4 before second digits noQuote noNewline =>
    simp [quotedReach, noNewline, noQuote]
  | case5 before noNewline =>
    cases back with
    | nil => simp [quotedReach, noNewline, apart]
    | cons next after =>
      simp only [List.cons_append, List.nil_append, quotedReach, noNewline, apart, if_false, if_true] at closed short ⊢
      split at short
      next isNext =>
        rw [if_pos isNext] at closed
        have further := lt_quotedReach closed
        simp only [List.length_cons, List.length_nil] at short
        omega
      next noQuote => rw [if_neg noQuote]
  | case6 before first rest noNewline noQuote ih =>
    simp only [List.cons_append, quotedReach_cons_of_ne noNewline noQuote, List.length_cons] at closed short ⊢
    exact ih closed (by omega) (lt_quotedReach closed)

end Lengths

/-! Cuts. A piece that ends inside `front`, or at its end, is cut in the same way when a separator follows. -/

def Piece.isStray : Piece → Bool
  | .lexeme (.stray _) => true
  | _ => false

def remarkLength : List Char → Nat
  | '!' :: comment => 1 + commentLength comment
  | _ => 0

def lineEndLength : List Char → Nat
  | '\n' :: _ => 1
  | '\r' :: '\n' :: _ => 2
  | _ => 0

variable {rest : List Char}

theorem cutContinuation_eq {spaces remark ending gap : Nat} (isSpaces : runLength isSpace rest = spaces)
    (isRemark : remarkLength (rest.drop spaces) = remark)
    (isEnding : lineEndLength (rest.drop (spaces + remark)) = ending)
    (isGap : runLength isGap (rest.drop (spaces + remark + ending)) = gap) :
    cutContinuation rest =
      if ending = 0 then stray '&' rest (spaces + remark)
      else if (rest.drop (spaces + remark + ending + gap)).head? = some '&' then
        (.continuation, spaces + remark + ending + gap + 1) else (.continuation, spaces + remark + ending + gap) := by
  subst isSpaces isRemark isEnding isGap
  rfl

section Cuts

variable {front back : List Char} {c : Char} (tail : List Char)

theorem head?_drop_append {count : Nat} (inside : count < front.length) (text : List Char) :
    ((front ++ text).drop count).head? = front[count]? := by
  rw [List.head?_drop, List.getElem?_append_left inside]

variable (parts : Parts c)
include parts

theorem cutName_insert (first : Char) (short : (cutName first (front ++ back)).2 ≤ front.length) :
    cutName first (front ++ c :: tail) = cutName first (front ++ back) := by
  have inside : runLength isNameChar (front ++ back) ≤ front.length := by
    simp only [cutName] at short
    split at short <;> exact short
  simp only [cutName, runLength_insert tail parts.name inside, List.take_append_of_le_length inside]

theorem cutNumber_insert (first : Char) (short : (cutNumber first (front ++ back)).2 ≤ front.length) :
    cutNumber first (front ++ c :: tail) = cutNumber first (front ++ back) := by
  have inside : (numberLength (front ++ back)).2 ≤ front.length := by
    simp only [cutNumber] at short
    split at short <;> simp_all
  rw [cutNumber, cutNumber, numberLength_insert tail parts inside]
  split <;> simp_all [List.take_append_of_le_length]

theorem cutText_insert (isQuoted : isQuote quote = true) (isClean : (cutText quote (front ++ back)).1.isStray = false)
    (short : (cutText quote (front ++ back)).2 ≤ front.length) :
    cutText quote (front ++ c :: tail) = cutText quote (front ++ back) := by
  rw [cutText] at isClean short ⊢
  split at isClean
  next count isReach =>
    rw [isReach] at short
    have inside : count ≤ front.length := short
    have same : quotedReach quote 0 (front ++ c :: tail) = quotedReach quote 0 (front ++ back) :=
      quotedReach_insert tail parts isQuoted 0 front (by rw [isReach]) (by rw [isReach]; omega)
    rw [cutText, same, isReach]
    simp only [List.take_append_of_le_length (Nat.le_trans (Nat.sub_le _ 1) inside)]
  · simp [stray, Piece.isStray] at isClean

omit parts in
theorem cutRadix_name (first : Char)
    (noDigits : ∀ quote digits, rest = quote :: digits → isQuote quote = true → runLength isHexDigit digits = 0) :
    cutRadix first rest = cutName first rest := by
  unfold cutRadix
  split
  next quote digits =>
    split
    next isQuoted => simp only [noDigits quote digits rfl isQuoted]
    · rfl
  · rfl

omit parts in
theorem cutRadix_digits (first : Char) {digits : List Char} (isQuoted : isQuote quote = true)
    (some : runLength isHexDigit digits ≠ 0) :
    cutRadix first (quote :: digits) =
      if (digits.drop (runLength isHexDigit digits)).head? = .some quote then
        (.lexeme (.boz (String.ofList (first :: (quote :: digits).take (runLength isHexDigit digits + 2)))),
          runLength isHexDigit digits + 2) else stray first (quote :: digits) (runLength isHexDigit digits + 1) := by
  simp only [cutRadix, isQuoted, if_true]

theorem cutRadix_insert (first : Char) (isClean : (cutRadix first (front ++ back)).1.isStray = false)
    (short : (cutRadix first (front ++ back)).2 ≤ front.length) :
    cutRadix first (front ++ c :: tail) = cutRadix first (front ++ back) := by
  by_cases isPattern : ∃ quote digits, front ++ back = quote :: digits ∧ isQuote quote = true ∧
      runLength isHexDigit digits ≠ 0
  · obtain ⟨quote, digits, isText, isQuoted, some⟩ := isPattern
    rw [isText, cutRadix_digits first isQuoted some] at isClean short
    split at isClean
    next isClosed =>
      rw [if_pos isClosed] at short
      dsimp only at short
      cases front with
      | nil => simp at short
      | cons other front =>
        rw [List.cons_append, List.cons.injEq] at isText
        obtain ⟨rfl, rfl⟩ := isText
        rw [List.length_cons] at short
        have same := runLength_insert tail parts.hexDigit (show runLength isHexDigit (front ++ back) ≤ front.length by omega)
        have stop := head?_drop_append (show runLength isHexDigit (front ++ back) < front.length by omega)
        have within (text : List Char) : (other :: (front ++ text)).take (runLength isHexDigit (front ++ back) + 2) =
            (other :: front).take (runLength isHexDigit (front ++ back) + 2) := by
          rw [← List.cons_append, List.take_append_of_le_length (by rw [List.length_cons]; omega)]
        rw [List.cons_append, List.cons_append, cutRadix_digits first isQuoted some,
          cutRadix_digits first isQuoted (same ▸ some), same, stop, stop, within, within]
        rw [stop] at isClosed
        rw [if_pos isClosed, if_pos isClosed]
    · simp [stray, Piece.isStray] at isClean
  · have none : ∀ quote digits, front ++ back = quote :: digits → isQuote quote = true →
        runLength isHexDigit digits = 0 := by
      intro quote digits isText isQuoted
      by_contra some
      exact isPattern ⟨quote, digits, isText, isQuoted, some⟩
    have none' : ∀ quote digits, front ++ c :: tail = quote :: digits → isQuote quote = true →
        runLength isHexDigit digits = 0 := by
      intro quote digits isText isQuoted
      cases front with
      | nil =>
        obtain ⟨rfl, rfl⟩ := List.cons.inj isText
        simp [parts.quote] at isQuoted
      | cons other front =>
        obtain ⟨rfl, rfl⟩ := List.cons.inj isText
        have run := none other (front ++ back) rfl isQuoted
        exact (runLength_insert tail parts.hexDigit (run ▸ Nat.zero_le _)).trans run
    rw [cutRadix_name first none] at short ⊢
    rw [cutRadix_name first none', cutName_insert tail parts first short]

omit parts in
theorem cutPoint_real (noPoint : rest.head? ≠ some '.') (digits : runLength Char.isDigit rest ≠ 0) :
    cutPoint rest = (.lexeme (.real (String.ofList ('.' :: rest.take (fractionLength rest)))), fractionLength rest) := by
  unfold cutPoint
  split
  · simp at noPoint
  · split <;> simp_all

omit parts in
theorem cutPoint_word (noPoint : rest.head? ≠ some '.') (digits : runLength Char.isDigit rest = 0)
    (letters : runLength Char.isAlpha rest ≠ 0) (closed : (rest.drop (runLength Char.isAlpha rest)).head? = some '.') :
    cutPoint rest = let word := lowered (rest.take (runLength Char.isAlpha rest))
      (.lexeme ((dottedWord? word).getD (.definedOperator word)), runLength Char.isAlpha rest + 1) := by
  unfold cutPoint
  split
  · simp at noPoint
  · split
    · simp_all
    · dsimp only
      split <;> simp_all

omit parts in
theorem cutPoint_cases (isClean : (cutPoint rest).1.isStray = false) :
    rest.head? = some '.' ∨ runLength Char.isDigit rest ≠ 0 ∨
      runLength Char.isAlpha rest ≠ 0 ∧ (rest.drop (runLength Char.isAlpha rest)).head? = some '.' := by
  unfold cutPoint at isClean
  split at isClean
  · exact .inl rfl
  · split at isClean
    next digits => exact .inr (.inl (by omega))
    · dsimp only at isClean
      split at isClean
      · simp [stray, Piece.isStray] at isClean
      next closed letters => exact .inr (.inr ⟨letters, closed⟩)
      · split at isClean <;> simp [stray, Piece.isStray] at isClean

omit parts in
theorem cutPoint_pos (isClean : (cutPoint rest).1.isStray = false) : 0 < (cutPoint rest).2 := by
  by_cases isPoint : rest.head? = some '.'
  · obtain ⟨others, rfl⟩ := List.head?_eq_some_iff.mp isPoint
    exact Nat.one_pos
  · by_cases digits : runLength Char.isDigit rest = 0
    · obtain found | found | ⟨letters, closed⟩ := cutPoint_cases isClean
      · exact absurd found isPoint
      · exact absurd digits found
      · rw [cutPoint_word isPoint digits letters closed]
        exact Nat.succ_pos _
    · rw [cutPoint_real isPoint digits]
      exact Nat.lt_of_lt_of_le (Nat.pos_of_ne_zero digits) (Nat.le_add_right _ _)

theorem cutPoint_insert (isClean : (cutPoint (front ++ back)).1.isStray = false)
    (short : (cutPoint (front ++ back)).2 ≤ front.length) :
    cutPoint (front ++ c :: tail) = cutPoint (front ++ back) := by
  cases front with
  | nil => exact absurd (cutPoint_pos isClean) (Nat.not_lt.mpr short)
  | cons first front =>
    by_cases isPoint : first = '.'
    · subst isPoint
      rfl
    · have noPoint (text : List Char) : (first :: front ++ text).head? ≠ some '.' := by simpa using isPoint
      by_cases digits : runLength Char.isDigit (first :: front ++ back) = 0
      · have digits' : runLength Char.isDigit (first :: front ++ c :: tail) = 0 :=
          (runLength_insert tail parts.digit (digits ▸ Nat.zero_le _)).trans digits
        obtain found | found | ⟨letters, closed⟩ := cutPoint_cases isClean
        · exact absurd found (noPoint back)
        · exact absurd digits found
        · rw [cutPoint_word (noPoint back) digits letters closed] at short ⊢
          have inside : runLength Char.isAlpha (first :: front ++ back) < (first :: front).length := short
          have same := runLength_append_of_lt inside (c :: tail)
          have closed' : ((first :: front ++ c :: tail).drop (runLength Char.isAlpha (first :: front ++ c :: tail))).head? =
              some '.' := by
            rw [head?_drop_append inside] at closed
            rw [same, head?_drop_append inside, closed]
          rw [cutPoint_word (noPoint _) digits' (same ▸ letters) closed', same]
          simp only [List.take_append_of_le_length (Nat.le_of_lt inside)]
      · rw [cutPoint_real (noPoint back) digits] at short ⊢
        have inside : fractionLength (first :: front ++ back) ≤ (first :: front).length := short
        have places := runLength_insert tail parts.digit (Nat.le_trans (Nat.le_add_right _ _) inside)
        rw [cutPoint_real (noPoint _) (places ▸ digits), fractionLength_insert tail parts inside,
          List.take_append_of_le_length inside, List.take_append_of_le_length inside]

omit parts in
theorem cutMark_insert (single : Mark) {pairs : List (Char × Mark)} (unpaired : pairs.lookup c = none)
    (short : (cutMark single pairs (front ++ back)).2 ≤ front.length) :
    cutMark single pairs (front ++ c :: tail) = cutMark single pairs (front ++ back) := by
  cases front with
  | nil =>
    have alone : cutMark single pairs back = (.lexeme (.mark single), 0) := by
      rw [List.nil_append, List.length_nil] at short
      unfold cutMark at short ⊢
      split at short
      · split at short
        · simp at short
        · simp
      · rfl
    rw [List.nil_append, List.nil_append, alone]
    simp [cutMark, unpaired]
  | cons second others => rfl

omit parts in
theorem remarkLength_append (short : remarkLength (front ++ back) < front.length) (other : List Char) :
    remarkLength (front ++ other) = remarkLength (front ++ back) := by
  cases front with
  | nil => simp at short
  | cons first front =>
    by_cases isRemark : first = '!'
    · subst isRemark
      have inside : commentLength (front ++ back) < front.length := by
        rw [List.cons_append, remarkLength, List.length_cons] at short
        omega
      simp only [List.cons_append, remarkLength, commentLength, runLength_append_of_lt inside other]
    · simp [remarkLength, isRemark]

omit parts in
theorem lineEndLength_append (ends : lineEndLength (front ++ back) ≠ 0)
    (short : lineEndLength (front ++ back) < front.length) (other : List Char) :
    lineEndLength (front ++ other) = lineEndLength (front ++ back) := by
  match front with
  | [] => simp at short
  | [first] =>
    rw [List.length_singleton] at short
    omega
  | first :: second :: front =>
    by_cases isEnd : first = '\n'
    · simp [lineEndLength, isEnd]
    · by_cases isReturn : first = '\r' ∧ second = '\n'
      · simp [lineEndLength, isReturn]
      · simp only [List.cons_append]
        unfold lineEndLength
        split <;> simp_all

omit parts in
theorem cutContinuation_clean (isClean : (cutContinuation rest).1.isStray = false) :
    (cutContinuation rest).1 = .continuation := by
  rw [cutContinuation_eq rfl rfl rfl rfl] at isClean ⊢
  split at isClean
  · simp [stray, Piece.isStray] at isClean
  next ends =>
    rw [if_neg ends]
    split <;> rfl

omit parts in
theorem cutContinuation_insert (isClean : (cutContinuation (front ++ back)).1.isStray = false)
    (short : (cutContinuation (front ++ back)).2 < front.length) (other : List Char) :
    cutContinuation (front ++ other) = cutContinuation (front ++ back) := by
  generalize isSpaces : runLength isSpace (front ++ back) = spaces
  generalize isRemark : remarkLength ((front ++ back).drop spaces) = remark
  generalize isEnding : lineEndLength ((front ++ back).drop (spaces + remark)) = ending
  generalize isReach : runLength isGap ((front ++ back).drop (spaces + remark + ending)) = gap
  have isCut := cutContinuation_eq isSpaces isRemark isEnding isReach
  rw [isCut] at isClean short ⊢
  have ends : ¬ ending = 0 := by
    intro none
    simp [none, stray, Piece.isStray] at isClean
  have inside : spaces + remark + ending + gap < front.length := by
    rw [if_neg ends] at short
    split at short <;> dsimp only at short <;> omega
  have behind {count : Nat} (before : count ≤ spaces + remark + ending) (text : List Char) :
      (front ++ text).drop count = front.drop count ++ text :=
    List.drop_append_of_le_length (by omega)
  rw [behind (by omega)] at isRemark isEnding isReach
  have isSpaces' : runLength isSpace (front ++ other) = spaces := by
    have few : runLength isSpace (front ++ back) < front.length := by omega
    rw [runLength_append_of_lt few, isSpaces]
  have isRemark' : remarkLength ((front ++ other).drop spaces) = remark := by
    rw [behind (by omega), remarkLength_append (by rw [isRemark, List.length_drop]; omega), isRemark]
  have isEnding' : lineEndLength ((front ++ other).drop (spaces + remark)) = ending := by
    rw [behind (by omega), lineEndLength_append (isEnding ▸ ends) (by rw [isEnding, List.length_drop]; omega), isEnding]
  have isReach' : runLength isGap ((front ++ other).drop (spaces + remark + ending)) = gap := by
    rw [behind (by omega), runLength_append_of_lt (by rw [isReach, List.length_drop]; omega), isReach]
  rw [cutContinuation_eq isSpaces' isRemark' isEnding' isReach', if_neg ends, if_neg ends, head?_drop_append inside,
    head?_drop_append inside]

/-- A way to cut that gives the same piece when something else follows the front: any text behind a piece that ends
inside the front, and a separator behind a lexeme. -/
def Settled (front back other : List Char) (cutter : List Char → Cut) : Prop :=
  (cutter (front ++ back)).1.isStray = false → (cutter (front ++ back)).2 ≤ front.length →
    (cutter (front ++ back)).2 < front.length ∨ (∃ lexeme, (cutter (front ++ back)).1 = .lexeme lexeme) →
    cutter (front ++ other) = cutter (front ++ back)

omit parts in
theorem Settled.ite {front back other : List Char} {condition : Prop} [Decidable condition]
    {first second : List Char → Cut} (holds : condition → Settled front back other first)
    (fails : ¬ condition → Settled front back other second) :
    Settled front back other fun text => if condition then first text else second text := by
  intro isClean short isLexeme
  by_cases isTrue : condition
  · simp only [isTrue, if_true] at isClean short isLexeme ⊢
    exact holds isTrue isClean short isLexeme
  · simp only [isTrue, if_false] at isClean short isLexeme ⊢
    exact fails isTrue isClean short isLexeme

omit parts in
theorem settled_skip {front back : List Char} {piece : Piece} (isSkipped : ∀ lexeme, piece ≠ .lexeme lexeme)
    (other : List Char) : Settled front back other fun text => (piece, runLength test text) := by
  rintro - - (short | ⟨lexeme, isLexeme⟩)
  · exact Prod.ext rfl (runLength_append_of_lt short other)
  · exact absurd isLexeme (isSkipped lexeme)

omit parts in
theorem settled_cut (opens : opensSeparator c = true) (first : Char) : Settled front back (c :: tail) (cut first) := by
  have parts := Parts.of_opensSeparator opens
  have mark (single : Mark) (pairs : List (Char × Mark)) (unpaired : pairs.lookup c = none) :
      Settled front back (c :: tail) (cutMark single pairs) :=
    fun _ short _ => cutMark_insert tail single unpaired short
  unfold cut
  refine .ite (fun _ => settled_skip (by simp) _) fun _ => ?_
  refine .ite (fun _ => settled_skip (by simp) _) fun _ => ?_
  refine .ite (fun _ isClean _ isLexeme => ?_) fun _ => ?_
  · obtain short | ⟨lexeme, isLexeme⟩ := isLexeme
    · exact cutContinuation_insert isClean short _
    · rw [cutContinuation_clean isClean] at isLexeme
      cases isLexeme
  refine .ite (fun _ _ _ _ => rfl) fun _ => ?_
  refine .ite (fun _ isClean short _ => cutRadix_insert tail parts first isClean short) fun _ => ?_
  refine .ite (fun _ _ short _ => cutName_insert tail parts first short) fun _ => ?_
  refine .ite (fun isQuoted isClean short _ => cutText_insert tail parts isQuoted isClean short) fun _ => ?_
  refine .ite (fun _ _ short _ => cutNumber_insert tail parts first short) fun _ => ?_
  refine .ite (fun _ isClean short _ => cutPoint_insert tail parts isClean short) fun _ => ?_
  rcases parts_of_opensSeparator opens with rfl | rfl | rfl
  all_goals
    repeat refine .ite (fun _ => mark _ _ rfl) fun _ => ?_
    exact fun isClean => absurd isClean (by simp [stray, Piece.isStray])

end Cuts

/-! Separators leave no tokens. -/

theorem isBlank_of_isSpace (space : isSpace c = true) : isBlank c = true := by
  have cases : c = ' ' ∨ c = '\t' := by simpa [isSpace] using space
  rcases cases with rfl | rfl <;> rfl

theorem runLength_append_of_all {front : List Char} (all : ∀ c ∈ front, test c = true) (back : List Char) :
    runLength test (front ++ back) = front.length + runLength test back := by
  rw [runLength, List.takeWhile_append_of_pos all, List.length_append, runLength]

theorem tokensFrom_blanks (offset : Nat) (text : List Char) :
    tokensFrom offset text =
      tokensFrom (offset + byteLength (text.take (runLength isBlank text))) (text.drop (runLength isBlank text)) := by
  cases text with
  | nil => simp [runLength]
  | cons first rest =>
    rw [runLength_cons]
    split
    next blank =>
      have isCut : cut first rest = (.blanks, runLength isBlank rest) := by rw [cut, if_pos blank]
      rw [tokensFrom_cons, isCut]
      rfl
    · simp [byteLength]

theorem tokensFrom_separator {separator : List Char} (separates : Separator separator) (offset : Nat)
    (back : List Char) : tokensFrom offset (separator ++ back) = tokensFrom (offset + byteLength separator) back := by
  cases separates with
  | blanks _ spaces =>
    have all : ∀ c ∈ separator, isBlank c = true := fun c member => isBlank_of_isSpace (spaces c member)
    rw [tokensFrom_blanks offset, runLength_append_of_all all, List.take_length_add_append,
      List.drop_length_add_append, byteLength_append, ← Nat.add_assoc, ← tokensFrom_blanks]
  | @continuation gap all =>
    have reach : runLength isGap (gap ++ '&' :: back) = gap.length := by
      rw [runLength_append_of_all all]
      rfl
    have isCut : cut '&' ('\n' :: (gap ++ '&' :: back)) = (.continuation, gap.length + 2) := by
      have isMark : cut '&' ('\n' :: (gap ++ '&' :: back)) = cutContinuation ('\n' :: (gap ++ '&' :: back)) := by
        rw [cut, if_neg (by decide), if_neg (by decide), if_pos rfl]
      have isSpaces : runLength isSpace ('\n' :: (gap ++ '&' :: back)) = 0 := rfl
      have isRemark : remarkLength (('\n' :: (gap ++ '&' :: back)).drop 0) = 0 := rfl
      have isEnding : lineEndLength (('\n' :: (gap ++ '&' :: back)).drop (0 + 0)) = 1 := rfl
      rw [isMark, cutContinuation_eq isSpaces isRemark isEnding reach]
      simp [Nat.add_comm, Nat.add_left_comm]
    have text : '&' :: '\n' :: (gap ++ ['&']) ++ back = '&' :: '\n' :: (gap ++ '&' :: back) := by simp
    have mark : (gap ++ '&' :: back).take (gap.length + 1) = gap ++ ['&'] := List.take_length_add_append 1
    rw [text, tokensFrom_cons, isCut]
    simp [mark]

/-! Bounds. -/

theorem exponentLength_le (text : List Char) : exponentLength text ≤ text.length := by
  match text with
  | [] => exact Nat.zero_le _
  | letter :: rest =>
    cases isLetter : isExponentLetter letter with
    | false => simp [exponentLength, isLetter]
    | true =>
      cases unsigned : rest.head?.any isSign with
      | false =>
        have bound := runLength_le Char.isDigit rest
        rw [exponentLength_unsigned isLetter unsigned, List.length_cons]
        split <;> omega
      | true =>
        obtain ⟨sign, isHead, signed⟩ := (Option.any_eq_true _ _).mp unsigned
        obtain ⟨digits, rfl⟩ := List.head?_eq_some_iff.mp isHead
        have bound := runLength_le Char.isDigit digits
        rw [exponentLength_signed isLetter signed, List.length_cons, List.length_cons]
        split <;> omega

theorem kindLength_le (text : List Char) : kindLength text ≤ text.length := by
  unfold kindLength
  split
  next rest =>
    have bound := runLength_le isNameChar rest
    rw [List.length_cons]
    split <;> omega
  · exact Nat.zero_le _

theorem realTailLength_le (text : List Char) : realTailLength text ≤ text.length := by
  have exponent := exponentLength_le text
  have kind := kindLength_le (text.drop (exponentLength text))
  rw [List.length_drop] at kind
  simp only [realTailLength]
  omega

theorem fractionLength_le (text : List Char) : fractionLength text ≤ text.length := by
  have places := runLength_le Char.isDigit text
  have real := realTailLength_le (text.drop (runLength Char.isDigit text))
  rw [List.length_drop] at real
  simp only [fractionLength]
  omega

theorem numberLength_le (text : List Char) : (numberLength text).2 ≤ text.length := by
  have whole := runLength_le Char.isDigit text
  have length : (text.drop (runLength Char.isDigit text)).length = _ := List.length_drop
  by_cases isPoint : (text.drop (runLength Char.isDigit text)).head? = some '.'
  · obtain ⟨fraction, isFraction⟩ := List.head?_eq_some_iff.mp isPoint
    have places := fractionLength_le fraction
    rw [isFraction, List.length_cons] at length
    rw [numberLength_of_point rfl isFraction]
    dsimp only
    omega
  · have kind := kindLength_le (text.drop (runLength Char.isDigit text))
    have real := realTailLength_le (text.drop (runLength Char.isDigit text))
    rw [numberLength_of_ne rfl rfl isPoint]
    split <;> dsimp only <;> omega

theorem quotedReach_le (quote : Char) (before : Nat) (text : List Char) :
    (quotedReach quote before text).2 ≤ before + text.length := by
  fun_induction quotedReach quote before text <;> grind

theorem remarkLength_le (text : List Char) : remarkLength text ≤ text.length := by
  unfold remarkLength
  split
  next comment =>
    have bound := runLength_le (· ≠ '\n') comment
    rw [List.length_cons, commentLength]
    omega
  · exact Nat.zero_le _

theorem lineEndLength_le (text : List Char) : lineEndLength text ≤ text.length := by
  unfold lineEndLength
  split <;> simp

theorem lt_length_of_head?_drop {count : Nat} (isNext : (text.drop count).head? = some c) : count < text.length := by
  rw [List.head?_drop] at isNext
  exact (List.getElem?_eq_some_iff.mp isNext).1

theorem cutContinuation_le (rest : List Char) : (cutContinuation rest).2 ≤ rest.length := by
  generalize isSpaces : runLength isSpace rest = spaces
  generalize isRemark : remarkLength (rest.drop spaces) = remark
  generalize isEnding : lineEndLength (rest.drop (spaces + remark)) = ending
  generalize isReach : runLength isGap (rest.drop (spaces + remark + ending)) = gap
  have spacesLe := runLength_le isSpace rest
  have remarkLe := remarkLength_le (rest.drop spaces)
  have endingLe := lineEndLength_le (rest.drop (spaces + remark))
  have gapLe := runLength_le isGap (rest.drop (spaces + remark + ending))
  rw [isSpaces] at spacesLe
  rw [isRemark, List.length_drop] at remarkLe
  rw [isEnding, List.length_drop] at endingLe
  rw [isReach, List.length_drop] at gapLe
  rw [cutContinuation_eq isSpaces isRemark isEnding isReach]
  split
  · rw [stray]
    omega
  · split
    next isMark => exact lt_length_of_head?_drop isMark
    · dsimp only
      omega

theorem cutName_le (first : Char) (rest : List Char) : (cutName first rest).2 ≤ rest.length := by
  have bound := runLength_le isNameChar rest
  simp only [cutName]
  split <;> exact bound

theorem cutRadix_le (first : Char) (rest : List Char) : (cutRadix first rest).2 ≤ rest.length := by
  have isName := cutName_le first rest
  unfold cutRadix
  split
  next quote digits =>
    have bound := runLength_le isHexDigit digits
    split
    · split
      · exact isName
      · split
        next closed => exact Nat.succ_le_succ (lt_length_of_head?_drop closed)
        · exact Nat.succ_le_succ bound
    · exact isName
  · exact isName

theorem cutPoint_le (rest : List Char) : (cutPoint rest).2 ≤ rest.length := by
  have fraction := fractionLength_le rest
  have letters := runLength_le Char.isAlpha rest
  unfold cutPoint
  split
  · exact Nat.succ_le_succ (Nat.zero_le _)
  · split
    · exact fraction
    · dsimp only
      split
      · exact Nat.zero_le _
      next closed _ => exact lt_length_of_head?_drop closed
      · split
        · exact Nat.zero_le _
        · exact letters

theorem cutMark_le (single : Mark) (pairs : List (Char × Mark)) (rest : List Char) :
    (cutMark single pairs rest).2 ≤ rest.length := by
  unfold cutMark
  split
  · split <;> simp
  · exact Nat.zero_le _

theorem cut_le (first : Char) (rest : List Char) : (cut first rest).2 ≤ rest.length := by
  have quoted := quotedReach_le first 0 rest
  have number := numberLength_le rest
  have ite {condition : Prop} [Decidable condition] {yes no : Cut} (holds : yes.2 ≤ rest.length)
      (fails : no.2 ≤ rest.length) : (if condition then yes else no).2 ≤ rest.length := by
    split <;> assumption
  unfold cut
  refine ite (runLength_le _ rest) (ite (runLength_le _ rest) (ite (cutContinuation_le rest) (ite (Nat.zero_le _) ?_)))
  refine ite (cutRadix_le first rest) (ite (cutName_le first rest) (ite ?_ (ite ?_ (ite (cutPoint_le rest) ?_))))
  · rw [cutText]
    split <;> simp_all [stray]
  · rw [cutNumber]
    split <;> simp_all
  · repeat refine ite (cutMark_le _ _ rest) ?_
    exact Nat.zero_le _

/-! The whole text. -/

def shifted (length : Nat) (token : Token) : Token :=
  ⟨token.lexeme, ⟨token.span.start + length, token.span.stop + length⟩⟩

def moved (place length : Nat) (token : Token) : Token :=
  if token.span.start < place then token else shifted length token

theorem tokensFrom_add (offset length : Nat) (text : List Char) :
    tokensFrom (offset + length) text = (tokensFrom offset text).map (shifted length) := by
  induction text using slices_induction generalizing offset with
  | nil => simp
  | cons first rest ih =>
    rw [tokensFrom_cons, tokensFrom_cons, List.map_append, Nat.add_right_comm, ih]
    congr 1
    split <;> simp [shifted, Nat.add_right_comm]

theorem ordered_tokensFrom (offset : Nat) (text : List Char) :
    ∀ token ∈ tokensFrom offset text, offset ≤ token.span.start ∧ token.span.start < token.span.stop :=
  fun token member =>
    have inside := (tiles_tokensFrom offset text).ordered.1 token member
    ⟨inside.1, inside.2.1⟩

theorem map_moved_of_le {place length : Nat} {found : List Token} (behind : ∀ token ∈ found, place ≤ token.span.start) :
    found.map (moved place length) = found.map (shifted length) :=
  List.map_congr_left fun token member => if_neg (Nat.not_lt.mpr (behind token member))

/-- Behind a lexeme at the front of a text, and behind any place further on, the first slice stays as it is. -/
theorem cut_insert {front back separator : List Char} (separates : Separator separator)
    (isClean : (cut first (front ++ back)).1.isStray = false) (short : (cut first (front ++ back)).2 ≤ front.length)
    (isLexeme : (cut first (front ++ back)).2 < front.length ∨ ∃ lexeme, (cut first (front ++ back)).1 = .lexeme lexeme)
    (after : List Char) : cut first (front ++ (separator ++ after)) = cut first (front ++ back) := by
  obtain ⟨c, others, rfl, opens⟩ := separates.exists_cons
  exact settled_cut (others ++ after) opens first isClean short isLexeme

def tokenOf (offset : Nat) (text : List Char) : Piece → List Token
  | .lexeme lexeme => [⟨lexeme, ⟨offset, offset + byteLength text⟩⟩]
  | _ => []

theorem tokensFrom_split {front back : List Char} {piece : Piece} (offset : Nat)
    (isCut : cut first (front ++ back) = (piece, front.length)) :
    tokensFrom offset (first :: (front ++ back)) =
      tokenOf offset (first :: front) piece ++ tokensFrom (offset + byteLength (first :: front)) back := by
  rw [tokensFrom_cons, isCut, List.take_left, List.drop_left]
  cases piece <;> rfl

theorem tokensFrom_insert_first {taken after separator : List Char} {lexeme : Lexeme} (offset : Nat)
    (isCut : cut first (taken ++ after) = (.lexeme lexeme, taken.length))
    (isClean : (Piece.lexeme lexeme).isStray = false) (separates : Separator separator) :
    tokensFrom offset (first :: taken ++ (separator ++ after)) =
      (tokensFrom offset (first :: (taken ++ after))).map
        (moved (offset + byteLength (first :: taken)) (byteLength separator)) := by
  have same := cut_insert separates (by rw [isCut]; exact isClean) (by rw [isCut]) (.inr ⟨lexeme, by rw [isCut]⟩) after
  rw [isCut] at same
  have behind := fun token member =>
    (ordered_tokensFrom (offset + byteLength (first :: taken)) after token member).1
  rw [List.cons_append, tokensFrom_split offset same, tokensFrom_split offset isCut, tokensFrom_separator separates,
    tokensFrom_add, List.map_append, map_moved_of_le behind]
  simp [tokenOf, moved, byteLength_pos]

theorem tokensFrom_insert_later {taken front back separator : List Char} {piece : Piece} {offset stop : Nat}
    (isCut : cut first (taken ++ (front ++ back)) = (piece, taken.length)) (isClean : piece.isStray = false)
    (separates : Separator separator) (filled : front ≠ []) (isBehind : offset + byteLength (first :: taken) ≤ stop)
    (parted : tokensFrom (offset + byteLength (first :: taken)) (front ++ (separator ++ back)) =
      (tokensFrom (offset + byteLength (first :: taken)) (front ++ back)).map (moved stop (byteLength separator))) :
    tokensFrom offset (first :: (taken ++ front) ++ (separator ++ back)) =
      (tokensFrom offset (first :: (taken ++ (front ++ back)))).map (moved stop (byteLength separator)) := by
  have longer : taken.length < (taken ++ front).length := by
    have := List.length_pos_iff.mpr filled
    rw [List.length_append]
    omega
  have isWhole := isCut
  rw [← List.append_assoc] at isWhole
  have same := cut_insert separates (by rw [isWhole]; exact isClean) (by rw [isWhole]; exact Nat.le_of_lt longer)
    (.inl (by rw [isWhole]; exact longer)) back
  rw [isWhole, List.append_assoc] at same
  rw [List.cons_append, List.append_assoc, tokensFrom_split offset same, tokensFrom_split offset isCut, parted,
    List.map_append]
  congr 1
  cases piece with
  | lexeme lexeme =>
    have before : offset < stop := by
      have := byteLength_pos first taken
      omega
    simp [tokenOf, moved, before]
  | blanks | comment | continuation => rfl

/-- Behind a token the text can be parted. The argument goes from slice to slice up to the token. -/
theorem tokensFrom_insert (offset : Nat) (text : List Char)
    (isClean : ∀ token ∈ tokensFrom offset text, ∀ found, token.lexeme ≠ .stray found) (token : Token)
    (member : token ∈ tokensFrom offset text) :
    ∃ front back, text = front ++ back ∧ token.span.stop = offset + byteLength front ∧
      ∀ separator, Separator separator → tokensFrom offset (front ++ (separator ++ back)) =
        (tokensFrom offset text).map (moved token.span.stop (byteLength separator)) := by
  induction text using slices_induction generalizing offset with
  | nil => simp at member
  | cons first rest ih =>
    have bound := cut_le first rest
    generalize isCut : cut first rest = found at bound ih
    obtain ⟨piece, count⟩ := found
    obtain ⟨taken, after, rfl, rfl⟩ : ∃ taken after, rest = taken ++ after ∧ count = taken.length :=
      ⟨rest.take count, rest.drop count, by simp, by simpa using bound⟩
    rw [List.drop_left] at ih
    have isSplit := tokensFrom_split offset isCut
    rw [isSplit] at isClean member
    have noStray : piece.isStray = false := by
      cases piece with
      | lexeme lexeme =>
        have clean := isClean _ (List.mem_append_left _ (List.mem_singleton.mpr rfl))
        cases lexeme <;> simp_all [Piece.isStray]
      | blanks | comment | continuation => rfl
    rcases List.mem_append.mp member with head | later
    · cases piece with
      | lexeme lexeme =>
        obtain rfl := List.mem_singleton.mp head
        exact ⟨first :: taken, after, rfl, rfl, fun _ => tokensFrom_insert_first offset isCut noStray⟩
      | blanks | comment | continuation => simp [tokenOf] at head
    · obtain ⟨front, back, rfl, isStop, parted⟩ :=
        ih _ (fun token member => isClean token (List.mem_append_right _ member)) later
      have ordered := ordered_tokensFrom _ _ token later
      have filled : front ≠ [] := by
        rintro rfl
        rw [byteLength] at isStop
        omega
      refine ⟨first :: (taken ++ front), back, by simp, ?_, fun separator separates => ?_⟩
      · rw [isStop, ← List.cons_append, byteLength_append, Nat.add_assoc]
      · exact tokensFrom_insert_later isCut noStray separates filled (by omega) (parted separator separates)

end Scan

def insertAt (source : String) (offset : Nat) (text : List Char) : String :=
  String.Pos.Raw.extract source 0 ⟨offset⟩ ++ String.ofList text ++
    String.Pos.Raw.extract source ⟨offset⟩ source.rawEndPos

theorem insertAt_append (front back text : List Char) :
    insertAt (String.ofList (front ++ back)) (Scan.byteLength front) text = String.ofList (front ++ (text ++ back)) := by
  have head := String.extract_of_valid [] front back
  have tail := String.extract_of_valid front back []
  simp only [List.nil_append, List.append_nil] at head tail
  have stop : (String.ofList (front ++ back)).rawEndPos = ⟨String.utf8Len front + String.utf8Len back⟩ := by
    rw [← String.utf8Len_append]
    ext
    simp [← Scan.byteLength_eq_utf8Len, ← Scan.byteLength_toList]
  have isHead : String.Pos.Raw.extract (String.ofList (front ++ back)) 0 ⟨String.utf8Len front⟩ = String.ofList front := by
    simpa using head
  rw [insertAt, Scan.byteLength_eq_utf8Len, stop, tail, isHead, ← String.ofList_append, ← String.ofList_append,
    List.append_assoc]

/-- Blanks or a continued line may be put behind any token of a text that has no stray ones. All tokens stay; those
behind the place move by the length of what is put in. -/
theorem tokens_insertAt_separator (source : String)
    (isClean : ∀ token ∈ tokens source, ∀ found, token.lexeme ≠ .stray found) (token : Token)
    (member : token ∈ tokens source) (separator : List Char) (separates : Scan.Separator separator) :
    tokens (insertAt source token.span.stop separator) =
      (tokens source).map (Scan.moved token.span.stop (Scan.byteLength separator)) := by
  rw [Scan.tokens_eq] at isClean member
  obtain ⟨front, back, isText, isStop, parted⟩ := Scan.tokensFrom_insert 0 source.toList isClean token member
  rw [Nat.zero_add] at isStop
  have isSource : source = String.ofList (front ++ back) := by rw [← isText, String.ofList_toList]
  have inserted : insertAt source token.span.stop separator = String.ofList (front ++ (separator ++ back)) := by
    rw [isStop, isSource, insertAt_append]
  rw [inserted, Scan.tokens_eq, Scan.tokens_eq, String.toList_ofList, parted separator separates]

/-- A bit pattern and a comma stay apart from what follows them. -/
theorem tokens_insertAt_separator_pattern :
    (∀ token ∈ tokens "b'1',1e5", ∀ found, token.lexeme ≠ .stray found) ∧
    Scan.Separator ['&', '\n', ' ', '&'] ∧
    tokens (insertAt "b'1',1e5" 5 ['&', '\n', ' ', '&']) =
      (tokens "b'1',1e5").map (Scan.moved 5 (Scan.byteLength ['&', '\n', ' ', '&'])) := by
  have isTokens : tokens "b'1',1e5" =
      [⟨.boz "b'1'", ⟨0, 4⟩⟩, ⟨.mark .comma, ⟨4, 5⟩⟩, ⟨.real "1e5", ⟨5, 8⟩⟩] := by
    decide +kernel
  have isClean : ∀ token ∈ tokens "b'1',1e5", ∀ found, token.lexeme ≠ .stray found := by
    simp [isTokens]
  have blank : ∀ c ∈ [' '], Scan.isGap c = true := List.forall_mem_singleton.mpr rfl
  have separates : Scan.Separator ['&', '\n', ' ', '&'] := .continuation blank
  exact ⟨isClean, separates, tokens_insertAt_separator _ isClean ⟨.mark .comma, ⟨4, 5⟩⟩ (by simp [isTokens]) _ separates⟩

end FortranInterface
