import FortranInterface.Expr.Spelling
import FortranInterface.Proofs.TokenSeparation

/-!
Character literals and their spelling. A quote in the value is written twice, so the text reaches exactly to its last
quote, and what is read between the quotes is the value.
-/

namespace FortranInterface

namespace Scan

variable {value : List Char}

theorem quotedReach_doubled (oneLine : '\n' ∉ value) (before : Nat) :
    quotedReach '\'' before (value.flatMap Literal.doubled ++ ['\'']) =
      (true, before + (value.flatMap Literal.doubled).length + 1) := by
  induction value generalizing before with
  | nil => rfl
  | cons c value ih =>
    obtain ⟨noNewline, others⟩ : ¬ c = '\n' ∧ '\n' ∉ value := by simpa [eq_comm] using oneLine
    rw [List.flatMap_cons, Literal.doubled]
    split
    next isQuote =>
      have twice : quotedReach '\'' before ('\'' :: '\'' :: (value.flatMap Literal.doubled ++ ['\''])) =
        quotedReach '\'' (before + 2) (value.flatMap Literal.doubled ++ ['\'']) := by simp [quotedReach]
      simp [twice, ih others]
      omega
    next noQuote =>
      simp [quotedReach_cons_of_ne noNewline noQuote, ih others]
      omega

theorem unquotedOnto_cons_of_ne {quote first : Char} (noQuote : ¬ first = quote) (shown rest : List Char) :
    unquotedOnto quote shown (first :: rest) = unquotedOnto quote (first :: shown) rest := by
  cases rest <;> simp [unquotedOnto, noQuote]

theorem unquotedOnto_doubled (value shown : List Char) :
    unquotedOnto '\'' shown (value.flatMap Literal.doubled) = shown.reverse ++ value := by
  induction value generalizing shown with
  | nil => simp [unquotedOnto]
  | cons c value ih =>
    rw [List.flatMap_cons, Literal.doubled]
    split
    next isQuote => simp [unquotedOnto, ih, isQuote]
    next noQuote => simp [unquotedOnto_cons_of_ne noQuote, ih]

theorem cut_doubled (oneLine : '\n' ∉ value) :
    cut '\'' (value.flatMap Literal.doubled ++ ['\'']) =
      (.lexeme (.text (String.ofList value)), (value.flatMap Literal.doubled ++ ['\'']).length) := by
  have isText : cut '\'' (value.flatMap Literal.doubled ++ ['\'']) =
      cutText '\'' (value.flatMap Literal.doubled ++ ['\'']) := rfl
  rw [isText, cutText, quotedReach_doubled oneLine]
  simp [unquoted, unquotedOnto_doubled]

end Scan

/-- The spelling of a character literal is one token, with the value of the literal and the span of the whole text. -/
theorem Literal.spelling_read_back (table : Table) (value : String) (kind : Nat) (oneLine : '\n' ∉ value.toList) :
    tokens ((Expr.literal (.character value kind)).spelling table) =
      [⟨.text value, ⟨0, ((Expr.literal (.character value kind)).spelling table).utf8ByteSize⟩⟩] := by
  have isSpelling : ((Expr.literal (.character value kind)).spelling table).toList =
      '\'' :: (value.toList.flatMap doubled ++ ['\'']) := by
    simp [Expr.spelling, spelling]
  rw [Scan.tokens_eq, ← Scan.byteLength_toList, isSpelling, Scan.tokensFrom_cons, Scan.cut_doubled oneLine]
  simp only [List.take_length, List.drop_length, String.ofList_toList, Scan.tokensFrom_nil, Nat.zero_add,
    List.append_nil]

theorem Literal.spelling_read_back_quotes :
    '\n' ∉ "'n'".toList ∧ tokens ((Expr.literal (.character "'n'" 1)).spelling .empty) = [⟨.text "'n'", ⟨0, 7⟩⟩] :=
  ⟨by decide, spelling_read_back .empty "'n'" 1 (by decide)⟩

end FortranInterface
