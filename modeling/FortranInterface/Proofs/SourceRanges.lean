import FortranInterface.Proofs.Advance.ProgramUnit
import FortranInterface.Proofs.Sites.Analysis
import FortranInterface.Proofs.SourceTiling

/-!
Every span is a range of the source text. Tokens are cut between characters, the tree takes its spans from the tokens,
and resolution and analysis take theirs from the tree.
-/

namespace FortranInterface

def Boundary (source : String) (offset : Nat) : Prop :=
  String.Pos.Raw.IsValid source ⟨offset⟩

def Span.IsRange (source : String) (span : Span) : Prop :=
  span.Within source.utf8ByteSize ∧ Boundary source span.start ∧ Boundary source span.stop

namespace Boundary

variable {source : String} {offset : Nat}

theorem le_size (boundary : Boundary source offset) : offset ≤ source.utf8ByteSize :=
  String.Pos.Raw.IsValid.le_utf8ByteSize boundary

theorem of_append {front back : List Char} (isSource : source.toList = front ++ back) :
    Boundary source (Scan.byteLength front) := by
  refine String.Pos.Raw.isValid_iff_exists_append.mpr ⟨String.ofList front, String.ofList back, ?_, ?_⟩
  · rw [← String.ofList_append, ← isSource, String.ofList_toList]
  · rw [Scan.byteLength_eq_utf8Len, String.Pos.Raw.ext_iff, String.byteIdx_rawEndPos, String.utf8ByteSize_ofList]

theorem zero (source : String) : Boundary source 0 :=
  of_append (List.nil_append _).symm

theorem size (source : String) : Boundary source source.utf8ByteSize := by
  rw [← Scan.byteLength_toList]
  exact of_append (List.append_nil _).symm

end Boundary

theorem Span.sound_eq_isRange (source : String) : Span.Sound (Boundary source) = Span.IsRange source := by
  funext span
  refine propext ⟨fun ⟨ordered, start, stop⟩ => ⟨⟨ordered, stop.le_size⟩, start, stop⟩, ?_⟩
  exact fun ⟨⟨ordered, _⟩, start, stop⟩ => ⟨ordered, start, stop⟩

def Sites.ofSource (source : String) : Sites where
  site := Span.IsRange source
  inside := Span.Inside
  origin := ⟨⟨Nat.le_refl 0, Nat.zero_le _⟩, Boundary.zero source, Boundary.zero source⟩

/-! Tokens. -/

namespace Scan

theorem Tiles.inOrder {source : String} {offset : Nat} {text : List Char} {found : List Token}
    (tiles : Tiles offset text found) (front : List Char) (isSource : source.toList = front ++ text)
    {before : Nat} (isBefore : before ≤ byteLength front) (isOffset : offset = byteLength front) :
    Grammar.InOrder (Boundary source) source.utf8ByteSize before found := by
  induction tiles generalizing front before with
  | nil => exact Nat.le_trans isBefore (Boundary.of_append isSource).le_size
  | @skip offset piece rest tokens _ _ ih =>
    have behind : offset + byteLength piece = byteLength (front ++ piece) := by simp [isOffset]
    refine ih (front ++ piece) (by simp [isSource]) ?_ behind
    rw [← behind]
    omega
  | @token offset lexeme piece rest tokens _ _ _ ih =>
    have behind : offset + byteLength piece = byteLength (front ++ piece) := by simp [isOffset]
    have isSource' : source.toList = (front ++ piece) ++ rest := by simp [isSource]
    have start : Boundary source offset := isOffset ▸ Boundary.of_append isSource
    have stop : Boundary source (offset + byteLength piece) := behind ▸ Boundary.of_append isSource'
    refine ⟨isOffset ▸ isBefore, ⟨Nat.le_add_right _ _, start, stop⟩, ?_⟩
    exact ih (front ++ piece) isSource' (Nat.le_of_eq behind) behind

end Scan

theorem inOrder_tokens (source : String) : Grammar.InOrder (Boundary source) source.utf8ByteSize 0 (tokens source) := by
  rw [Scan.tokens_eq]
  exact (Scan.tiles_tokensFrom 0 source.toList).inOrder [] rfl (Nat.le_refl 0) rfl

/-! The tree and its faults. -/

namespace Tree.Program

variable {edge : Nat → Prop} {tokens : List Token} {size : Nat}

theorem sited_ofTokens (isOrigin : edge 0) (isSize : edge size) (inOrder : Grammar.InOrder edge size 0 tokens) :
    match ofTokens tokens size with
    | .ok program => program.Sited (Span.Sound edge) Span.Inside
    | .error diagnostics => ∀ diagnostic ∈ diagnostics, diagnostic.span.Sound edge := by
  have sound : (Grammar.Cursor.ofTokens tokens size).Sound edge := ⟨isOrigin, isSize, inOrder⟩
  have read := Grammar.gives_program edge (Grammar.Cursor.ofTokens tokens size) (.refl _)
  -- The front of the text has no faults, so each one is told at a token or at the end.
  have faultsSound {after : Grammar.Cursor tokens.length}
      (reaches : (Grammar.Cursor.ofTokens tokens size).Reaches after) :
      ∀ fault ∈ after.faults, fault.span.Sound edge := by
    intro fault member
    rcases reaches.faults fault member with none | marked
    · cases none
    · exact sound.marked marked
  have diagnosticsSound {faults : List Grammar.Fault} (areSound : ∀ fault ∈ faults, fault.span.Sound edge) :
      ∀ diagnostic ∈ faults.reverse.map Grammar.Fault.diagnostic, diagnostic.span.Sound edge := by
    intro diagnostic member
    obtain ⟨fault, isFault, rfl⟩ := List.mem_map.mp member
    exact areSound fault (List.mem_reverse.mp isFault)
  unfold ofTokens
  split at read
  next found after isRead =>
    rw [isRead]
    dsimp only
    by_cases clean : after.faults.isEmpty = true
    · rw [if_pos clean]
      exact read.2 sound
    · rw [if_neg clean]
      exact diagnosticsSound (faultsSound read.1)
  next fault after isRead =>
    rw [isRead]
    exact diagnosticsSound (List.forall_mem_cons.mpr ⟨sound.marked read.2, faultsSound read.1⟩)

theorem sound_strays (sound : ∀ token ∈ tokens, token.span.Sound edge) :
    ∀ diagnostic ∈ tokens.filterMap strayDiagnostic?, diagnostic.span.Sound edge := by
  intro diagnostic member
  obtain ⟨token, isToken, isStray⟩ := List.mem_filterMap.mp member
  unfold strayDiagnostic? at isStray
  split at isStray
  · obtain rfl := Option.some.inj isStray
    exact sound token isToken
  · cases isStray

end Tree.Program

/-- Whatever is read from a text, its spans are ranges of the text, and so are those of all that is told of it. In each
expression the parts stand inside the whole. -/
theorem spans_are_ranges (source : String) :
    (match Tree.Program.ofTokens (tokens source) source.utf8ByteSize with
      | .ok program =>
        program.Sited (Span.IsRange source) Span.Inside ∧
        (∀ diagnostic ∈ program.resolve.diagnostics, diagnostic.span.IsRange source) ∧
        ∀ checks grading, ∀ diagnostic ∈ program.resolve.check checks grading, diagnostic.span.IsRange source
      | .error diagnostics => ∀ diagnostic ∈ diagnostics, diagnostic.span.IsRange source) ∧
    ∀ diagnostics, Tree.Program.ofSource source = .error diagnostics →
      ∀ diagnostic ∈ diagnostics, diagnostic.span.IsRange source := by
  have inOrder := inOrder_tokens source
  have read := Tree.Program.sited_ofTokens (Boundary.zero source) (Boundary.size source) inOrder
  have strays := Tree.Program.sound_strays inOrder.sound
  rw [Span.sound_eq_isRange] at read strays
  refine ⟨?_, fun diagnostics isError => ?_⟩
  · split at read
    next program isProgram =>
      have resolved : program.resolve.Sited (Sites.ofSource source) := program.sited_resolve read
      exact ⟨read, resolved.diagnostics, resolved.check⟩
    next diagnostics isError => exact read
  · unfold Tree.Program.ofSource at isError
    dsimp only at isError
    split at isError
    · rw [isError] at read
      exact read
    · obtain rfl := Except.error.inj isError
      exact strays

/-- A call through an implicit interface, with a character of two bytes in front of another reference. -/
def accentedCall : String :=
  "call f('é', g(1))\nend"

/-- The spans of both references count the bytes of the character. -/
theorem spans_are_ranges_accentedCall :
    ∃ program, Tree.Program.ofTokens (tokens accentedCall) accentedCall.utf8ByteSize = .ok program ∧
      program.Sited (Span.IsRange accentedCall) Span.Inside ∧
      (program.resolve.check ⟨true, true⟩ ⟨⟨[]⟩, false⟩).map Diagnostic.span = [⟨13, 17⟩, ⟨0, 18⟩] ∧
      Span.IsRange accentedCall ⟨13, 17⟩ ∧ Span.IsRange accentedCall ⟨0, 18⟩ := by
  have told : (Tree.Program.ofTokens (tokens accentedCall) accentedCall.utf8ByteSize).toOption.map (fun program =>
      (program.resolve.check ⟨true, true⟩ ⟨⟨[]⟩, false⟩).map Diagnostic.span) = some [⟨13, 17⟩, ⟨0, 18⟩] := by
    decide +kernel
  have ranges := (spans_are_ranges accentedCall).1
  cases isRead : Tree.Program.ofTokens (tokens accentedCall) accentedCall.utf8ByteSize with
  | error diagnostics =>
    rw [isRead] at told
    cases told
  | ok program =>
    rw [isRead] at told ranges
    have spans : (program.resolve.check ⟨true, true⟩ ⟨⟨[]⟩, false⟩).map Diagnostic.span = [⟨13, 17⟩, ⟨0, 18⟩] :=
      Option.some.inj told
    have all : ∀ span ∈ (program.resolve.check ⟨true, true⟩ ⟨⟨[]⟩, false⟩).map Diagnostic.span,
        Span.IsRange accentedCall span := by
      intro span member
      obtain ⟨diagnostic, isTold, rfl⟩ := List.mem_map.mp member
      exact ranges.2.2 ⟨true, true⟩ ⟨⟨[]⟩, false⟩ diagnostic isTold
    rw [spans] at all
    exact ⟨program, rfl, ranges.1, spans, all _ (by simp), all _ (by simp)⟩

end FortranInterface
