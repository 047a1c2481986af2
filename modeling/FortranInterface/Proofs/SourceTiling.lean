import FortranInterface.Proofs.Slices

/-!
No part of a source text is lost: the text is the tokens and what is skipped between them, one after the other. Only
blanks, comments and the continuation of a line are skipped, and a stray token holds the text that it stands for.
-/

namespace FortranInterface

namespace Scan

inductive Remark : List Char → Prop where
  | none : Remark []
  | comment {text : List Char} : '\n' ∉ text → Remark ('!' :: text)

/-- The text that may be skipped in one piece. A continued line takes the empty lines behind it along, up to the mark
that may open its continuation. -/
inductive Skipped : List Char → Prop where
  | blanks {text : List Char} : text ≠ [] → (∀ c ∈ text, isBlank c = true) → Skipped text
  | comment {text : List Char} : '\n' ∉ text → Skipped ('!' :: text)
  | continuation {spaces remark ending gap mark : List Char} : (∀ c ∈ spaces, isSpace c = true) → Remark remark →
      ending = ['\n'] ∨ ending = ['\r', '\n'] → (∀ c ∈ gap, isGap c = true) → mark = [] ∨ mark = ['&'] →
      Skipped ('&' :: (spaces ++ remark ++ ending ++ gap ++ mark))

/-- The text from an offset on is tokens and skipped pieces in this order. -/
inductive Tiles : Nat → List Char → List Token → Prop where
  | nil (offset : Nat) : Tiles offset [] []
  | skip {offset : Nat} {piece rest : List Char} {tokens : List Token} : Skipped piece →
      Tiles (offset + byteLength piece) rest tokens → Tiles offset (piece ++ rest) tokens
  | token {offset : Nat} {lexeme : Lexeme} {piece rest : List Char} {tokens : List Token} : piece ≠ [] →
      (∀ found, lexeme = .stray found → found = String.ofList piece) →
      Tiles (offset + byteLength piece) rest tokens →
      Tiles offset (piece ++ rest) (⟨lexeme, ⟨offset, offset + byteLength piece⟩⟩ :: tokens)

/-! What one cut takes. -/

def Cut.Covers (first : Char) (rest : List Char) : Cut → Prop
  | (.lexeme lexeme, count) => ∀ found, lexeme = .stray found → found = String.ofList (first :: rest.take count)
  | (_, count) => Skipped (first :: rest.take count)

theorem take_runLength (test : Char → Bool) (text : List Char) :
    text.take (runLength test text) = text.takeWhile test := by
  exact (List.prefix_iff_eq_take.mp (List.takeWhile_prefix test)).symm

theorem forall_take_runLength (test : Char → Bool) (text : List Char) :
    ∀ c ∈ text.take (runLength test text), test c = true := by
  rw [take_runLength]
  exact List.all_eq_true.mp List.all_takeWhile

theorem newline_notMem_comment (text : List Char) : '\n' ∉ text.take (commentLength text) := by
  intro member
  simpa using forall_take_runLength _ text '\n' member

section

variable (first : Char) (rest : List Char)
include first rest

theorem covers_stray (count : Nat) : (stray first rest count).Covers first rest := by
  intro found isStray
  cases isStray
  rfl

theorem covers_cutName : (cutName first rest).Covers first rest := by
  rw [cutName]
  split <;> simp [Cut.Covers]

theorem covers_cutRadix : (cutRadix first rest).Covers first rest := by
  unfold cutRadix
  split
  · split
    · split
      · exact covers_cutName first _
      · split
        · simp [Cut.Covers]
        · exact covers_stray first _ _
    · exact covers_cutName first _
  · exact covers_cutName first _

theorem covers_cutNumber : (cutNumber first rest).Covers first rest := by
  rw [cutNumber]
  split <;> simp [Cut.Covers]

end

theorem covers_cutText (quote : Char) (rest : List Char) : (cutText quote rest).Covers quote rest := by
  rw [cutText]
  split
  · simp [Cut.Covers]
  · exact covers_stray quote rest _

theorem dottedWord_ne_stray (letters found : String) :
    (dottedWord? letters).getD (.definedOperator letters) ≠ .stray found := by
  unfold dottedWord?
  split <;> simp

theorem covers_cutPoint (rest : List Char) : (cutPoint rest).Covers '.' rest := by
  unfold cutPoint
  split
  · simp [Cut.Covers]
  · split
    · simp [Cut.Covers]
    · dsimp only
      split
      · exact covers_stray '.' rest 0
      · exact fun found isStray => absurd isStray (dottedWord_ne_stray _ found)
      · split
        · exact covers_stray '.' rest 0
        · exact covers_stray '.' rest _

theorem covers_cutMark (first : Char) (single : Mark) (pairs : List (Char × Mark)) (rest : List Char) :
    (cutMark single pairs rest).Covers first rest := by
  unfold cutMark
  split
  · split <;> simp [Cut.Covers]
  · simp [Cut.Covers]

theorem covers_cutContinuation (rest : List Char) : (cutContinuation rest).Covers '&' rest := by
  unfold cutContinuation
  extract_lets spaces remark line ending gap
  have isRemark : Remark ((rest.drop spaces).take remark) := by
    simp only [remark]
    split
    next comment isComment =>
      rw [isComment, Nat.add_comm, List.take_succ_cons]
      exact .comment (newline_notMem_comment comment)
    · exact .none
  split
  · exact covers_stray '&' rest line
  next isEnded =>
    have isEnding : (rest.drop line).take ending = ['\n'] ∨ (rest.drop line).take ending = ['\r', '\n'] := by
      simp only [ending] at isEnded ⊢
      split
      next after isLine => exact .inl (by rw [isLine]; rfl)
      next after isLine => exact .inr (by rw [isLine]; rfl)
      · simp at isEnded
    have isGapped := forall_take_runLength isGap (rest.drop (line + ending))
    have reach : rest.take gap = rest.take spaces ++ (rest.drop spaces).take remark ++ (rest.drop line).take ending ++
        (rest.drop (line + ending)).take (runLength isGap (rest.drop (line + ending))) := by
      rw [← List.take_add, ← List.take_add, ← List.take_add]
    split
    next isMarked =>
      obtain ⟨after, isAfter⟩ := List.head?_eq_some_iff.mp isMarked
      change Skipped ('&' :: rest.take (gap + 1))
      rw [List.take_add, reach, isAfter]
      exact .continuation (forall_take_runLength isSpace rest) isRemark isEnding isGapped (.inr rfl)
    · change Skipped ('&' :: rest.take gap)
      rw [reach, ← List.append_nil (_ ++ _)]
      exact .continuation (forall_take_runLength isSpace rest) isRemark isEnding isGapped (.inl rfl)

theorem covers_cut (first : Char) (rest : List Char) : (cut first rest).Covers first rest := by
  unfold cut
  refine iteInduction (motive := Cut.Covers first rest) (fun isFirst => ?_) fun _ => ?_
  · refine .blanks (List.cons_ne_nil _ _) (List.forall_mem_cons.mpr ⟨isFirst, ?_⟩)
    exact forall_take_runLength isBlank rest
  refine iteInduction (motive := Cut.Covers first rest) (fun isFirst => ?_) fun _ => ?_
  · subst isFirst
    exact .comment (newline_notMem_comment rest)
  refine iteInduction (motive := Cut.Covers first rest) (fun isFirst => ?_) fun _ => ?_
  · subst isFirst
    exact covers_cutContinuation rest
  refine iteInduction (motive := Cut.Covers first rest) (fun _ => by simp [Cut.Covers]) fun _ => ?_
  refine iteInduction (motive := Cut.Covers first rest) (fun _ => covers_cutRadix first rest) fun _ => ?_
  refine iteInduction (motive := Cut.Covers first rest) (fun _ => covers_cutName first rest) fun _ => ?_
  refine iteInduction (motive := Cut.Covers first rest) (fun _ => covers_cutText first rest) fun _ => ?_
  refine iteInduction (motive := Cut.Covers first rest) (fun _ => covers_cutNumber first rest) fun _ => ?_
  refine iteInduction (motive := Cut.Covers first rest) (fun isFirst => ?_) fun _ => ?_
  · subst isFirst
    exact covers_cutPoint rest
  repeat refine iteInduction (motive := Cut.Covers first rest) (fun _ => covers_cutMark first _ _ rest) fun _ => ?_
  exact covers_stray first rest 0

/-! The whole text. -/

theorem tiles_tokensFrom (offset : Nat) (text : List Char) : Tiles offset text (tokensFrom offset text) := by
  induction text using slices_induction generalizing offset with
  | nil =>
    rw [tokensFrom_nil]
    exact .nil offset
  | cons first rest ih =>
    have covers := covers_cut first rest
    have behind := ih (offset + byteLength (first :: rest.take (cut first rest).2))
    rw [tokensFrom_cons]
    generalize cut first rest = found at covers behind ⊢
    obtain ⟨piece, count⟩ := found
    have text : first :: rest = (first :: rest.take count) ++ rest.drop count := by simp
    rw [text]
    cases piece with
    | lexeme lexeme => exact .token (List.cons_ne_nil _ _) covers behind
    | blanks | comment | continuation => exact .skip covers behind

namespace Tiles

variable {offset : Nat} {text : List Char} {found : List Token}

theorem ordered (tiles : Tiles offset text found) :
    (∀ token ∈ found, offset ≤ token.span.start ∧ token.span.start < token.span.stop ∧
      token.span.stop ≤ offset + byteLength text) ∧
    found.Pairwise fun earlier later => earlier.span.stop ≤ later.span.start := by
  induction tiles with
  | nil => simp
  | skip _ _ ih =>
    refine ⟨fun token member => ?_, ih.2⟩
    have inside := ih.1 token member
    rw [byteLength_append]
    omega
  | @token offset lexeme piece rest tokens filled _ _ ih =>
    obtain ⟨c, others, rfl⟩ := List.exists_cons_of_ne_nil filled
    have pos := byteLength_pos c others
    rw [byteLength_append]
    refine ⟨fun token member => ?_, List.pairwise_cons.mpr ⟨fun token member => (ih.1 token member).1, ih.2⟩⟩
    rcases List.mem_cons.mp member with rfl | later
    · dsimp only
      omega
    · have inside := ih.1 token later
      omega

theorem slice (tiles : Tiles offset text found) (front : List Char) (isOffset : offset = byteLength front) :
    ∀ token ∈ found, ∀ text', token.lexeme = .stray text' →
      text' = String.Pos.Raw.extract (String.ofList (front ++ text)) ⟨token.span.start⟩ ⟨token.span.stop⟩ := by
  induction tiles generalizing front with
  | nil => simp
  | @skip offset piece rest tokens _ _ ih =>
    have behind : offset + byteLength piece = byteLength (front ++ piece) := by simp [isOffset]
    simpa using ih _ behind
  | @token offset lexeme piece rest tokens _ strays _ ih =>
    have behind : offset + byteLength piece = byteLength (front ++ piece) := by simp [isOffset]
    refine List.forall_mem_cons.mpr ⟨fun text isStray => ?_, by simpa using ih _ behind⟩
    have slice := String.extract_of_valid front piece rest
    rw [strays text isStray, isOffset, byteLength_eq_utf8Len, byteLength_eq_utf8Len, ← List.append_assoc, slice]

end Tiles

end Scan

/-- A source text is its tokens and skipped pieces in order. Tokens are not empty and follow each other, and the text
of a stray token is the text at its span. -/
theorem tokens_tile_source (source : String) :
    Scan.Tiles 0 source.toList (tokens source) ∧
    (∀ token ∈ tokens source, token.span.start < token.span.stop ∧ token.span.stop ≤ source.utf8ByteSize) ∧
    (tokens source).Pairwise (fun earlier later => earlier.span.stop ≤ later.span.start) ∧
    ∀ token ∈ tokens source, ∀ found, token.lexeme = .stray found →
      found = String.Pos.Raw.extract source ⟨token.span.start⟩ ⟨token.span.stop⟩ := by
  have tiles := Scan.tiles_tokensFrom 0 source.toList
  rw [← Scan.tokens_eq] at tiles
  obtain ⟨inside, ordered⟩ := tiles.ordered
  refine ⟨tiles, fun token member => ?_, ordered, fun token member found isStray => ?_⟩
  · obtain ⟨-, filled, bound⟩ := inside token member
    rw [Nat.zero_add, Scan.byteLength_toList] at bound
    exact ⟨filled, bound⟩
  · have slice := tiles.slice [] rfl token member found isStray
    rwa [List.nil_append, String.ofList_toList] at slice

end FortranInterface
