import FortranInterface.Grammar.Lookahead

/-!
Readers only go forward. `Advances` says of a reader that wherever it stops, with a tree or with a fault, it has taken
tokens from the front of what was left, that its faults are told at such a token or at the end of the text, and what
holds of the tree it gives.
-/

namespace FortranInterface

def Span.Sound (edge : Nat → Prop) (span : Span) : Prop :=
  span.start ≤ span.stop ∧ edge span.start ∧ edge span.stop

def Span.Inside (inner outer : Span) : Prop :=
  outer.start ≤ inner.start ∧ inner.stop ≤ outer.stop

namespace Grammar

variable {n m k : Nat} {α β : Type}

def lastStop (before : Nat) : List Token → Nat
  | [] => before
  | token :: rest => lastStop token.span.stop rest

theorem lastStop_append (before : Nat) (first second : List Token) :
    lastStop before (first ++ second) = lastStop (lastStop before first) second := by
  induction first generalizing before with
  | nil => rfl
  | cons token rest ih => exact ih _

/-- Tokens that stand one behind the other between two places, with their ends at edges. -/
def InOrder (edge : Nat → Prop) (size : Nat) : Nat → List Token → Prop
  | before, [] => before ≤ size
  | before, token :: rest =>
    before ≤ token.span.start ∧ token.span.Sound edge ∧ InOrder edge size token.span.stop rest

theorem InOrder.append {edge : Nat → Prop} {size before : Nat} {first second : List Token} (isEdge : edge before)
    (inOrder : InOrder edge size before (first ++ second)) :
    before ≤ lastStop before first ∧ edge (lastStop before first) ∧
      InOrder edge size (lastStop before first) second := by
  induction first generalizing before with
  | nil => exact ⟨Nat.le_refl _, isEdge, inOrder⟩
  | cons token rest ih =>
    obtain ⟨start, sound, behind⟩ := inOrder
    obtain ⟨reach, others⟩ := ih sound.2.2 behind
    exact ⟨Nat.le_trans (Nat.le_trans start sound.1) reach, others⟩

theorem InOrder.sound {edge : Nat → Prop} {size before : Nat} {tokens : List Token}
    (inOrder : InOrder edge size before tokens) : ∀ token ∈ tokens, token.span.Sound edge := by
  induction tokens generalizing before with
  | nil => simp
  | cons token rest ih => exact List.forall_mem_cons.mpr ⟨inOrder.2.1, ih inOrder.2.2⟩

namespace Cursor

def left (cursor : Cursor n) : Nat :=
  cursor.rest.length

def Marks (cursor : Cursor n) (span : Span) : Prop :=
  span = ⟨cursor.size, cursor.size⟩ ∨ ∃ token ∈ cursor.rest, span = token.span

/-- One cursor is reached from another one by taking tokens and keeping faults. -/
structure Reaches (cursor : Cursor n) (after : Cursor m) : Prop where
  taken : ∃ taken, cursor.rest = taken ++ after.rest ∧ after.before = lastStop cursor.before taken
  size : after.size = cursor.size
  faults : ∀ fault ∈ after.faults, fault ∈ cursor.faults ∨ cursor.Marks fault.span

/-- The tokens that are left stand in order behind the cursor. -/
structure Sound (edge : Nat → Prop) (cursor : Cursor n) : Prop where
  before : edge cursor.before
  size : edge cursor.size
  inOrder : InOrder edge cursor.size cursor.before cursor.rest

variable {cursor : Cursor n} {middle : Cursor m} {after : Cursor k} {edge : Nat → Prop}

theorem here_marked (cursor : Cursor n) : cursor.Marks cursor.here := by
  unfold here Marks
  split
  next token rest isRest => exact .inr ⟨token, by simp [isRest], rfl⟩
  · exact .inl rfl

theorem rest_eq_nil_of_left (none : cursor.left = 0) : cursor.rest = [] :=
  List.length_eq_zero_iff.mp none

namespace Reaches

theorem refl (cursor : Cursor n) : cursor.Reaches cursor :=
  ⟨⟨[], rfl, rfl⟩, rfl, fun _ member => .inl member⟩

theorem marks (reaches : cursor.Reaches middle) {span : Span} (marked : middle.Marks span) : cursor.Marks span := by
  obtain ⟨taken, isRest, -⟩ := reaches.taken
  rcases marked with rfl | ⟨token, member, rfl⟩
  · exact .inl (by rw [reaches.size])
  · exact .inr ⟨token, by simp [isRest, member], rfl⟩

theorem trans (first : cursor.Reaches middle) (second : middle.Reaches after) : cursor.Reaches after := by
  obtain ⟨taken, isRest, isBefore⟩ := first.taken
  obtain ⟨more, isMore, isAfter⟩ := second.taken
  refine ⟨⟨taken ++ more, ?_, ?_⟩, second.size.trans first.size, fun fault member => ?_⟩
  · rw [isRest, isMore, List.append_assoc]
  · rw [isAfter, isBefore, lastStop_append]
  · rcases second.faults fault member with earlier | marked
    · exact first.faults fault earlier
    · exact .inr (first.marks marked)

theorem left_le (reaches : cursor.Reaches middle) : middle.left ≤ cursor.left := by
  obtain ⟨taken, isRest, -⟩ := reaches.taken
  rw [left, left, isRest, List.length_append]
  omega

end Reaches

namespace Sound

variable (sound : cursor.Sound edge)
include sound

theorem reached (reaches : cursor.Reaches middle) : middle.Sound edge ∧ cursor.before ≤ middle.before := by
  obtain ⟨taken, isRest, isBefore⟩ := reaches.taken
  have inOrder := sound.inOrder
  rw [isRest] at inOrder
  obtain ⟨further, isEdge, others⟩ := inOrder.append sound.before
  rw [← isBefore] at further isEdge others
  refine ⟨⟨isEdge, ?_, ?_⟩, further⟩
  · rw [reaches.size]
    exact sound.size
  · rw [reaches.size]
    exact others

theorem of_reaches (reaches : cursor.Reaches middle) : middle.Sound edge :=
  (sound.reached reaches).1

theorem before_le (reaches : cursor.Reaches middle) : cursor.before ≤ middle.before :=
  (sound.reached reaches).2

theorem marked {span : Span} (marked : cursor.Marks span) : span.Sound edge := by
  rcases marked with rfl | ⟨token, member, rfl⟩
  · exact ⟨Nat.le_refl _, sound.size, sound.size⟩
  · exact sound.inOrder.sound token member

theorem here : cursor.here.Sound edge :=
  sound.marked cursor.here_marked

theorem before_le_start : cursor.before ≤ cursor.here.start := by
  have inOrder := sound.inOrder
  unfold Cursor.here
  split
  next token rest isRest =>
    rw [isRest] at inOrder
    exact inOrder.1
  next isRest =>
    rw [isRest] at inOrder
    exact inOrder

variable (reaches : cursor.Reaches middle)
include reaches

theorem start_le_before (shorter : middle.left < cursor.left) : cursor.here.start ≤ middle.before := by
  obtain ⟨taken, isRest, isBefore⟩ := reaches.taken
  cases taken with
  | nil =>
    rw [left, left, isRest, List.nil_append] at shorter
    exact absurd shorter (Nat.lt_irrefl _)
  | cons token others =>
    have inOrder := sound.inOrder
    rw [isRest] at inOrder
    have further := (inOrder.2.2.append inOrder.2.1.2.2).1
    have isHere : cursor.here = token.span := by
      rw [Cursor.here, isRest]
      rfl
    rw [isHere, isBefore]
    exact Nat.le_trans inOrder.2.1.1 further

theorem start_le_start : cursor.here.start ≤ middle.here.start := by
  rcases Nat.lt_or_eq_of_le reaches.left_le with shorter | same
  · exact Nat.le_trans (sound.start_le_before reaches shorter) (sound.of_reaches reaches).before_le_start
  · obtain ⟨taken, isRest, -⟩ := reaches.taken
    have none : taken = [] := by
      rw [left, left, isRest, List.length_append] at same
      exact List.length_eq_zero_iff.mp (by omega)
    have isHere : middle.here = cursor.here := by
      rw [Cursor.here, Cursor.here, isRest, none, reaches.size, List.nil_append]
    exact Nat.le_of_eq (congrArg Span.start isHere.symm)

theorem span (shorter : middle.left < cursor.left) : Span.Sound edge ⟨cursor.here.start, middle.before⟩ :=
  ⟨sound.start_le_before reaches shorter, sound.here.2.1, (sound.of_reaches reaches).before⟩

end Sound

/-! Taking the next token. -/

theorem reaches_next (cursor : Cursor n) : cursor.Reaches cursor.next := by
  obtain ⟨rest, bound, before, size, faults⟩ := cursor
  cases rest with
  | nil => exact .refl _
  | cons token rest => exact ⟨⟨[token], rfl, rfl⟩, rfl, fun _ member => .inl member⟩

theorem left_next (cursor : Cursor n) : cursor.next.left = cursor.left - 1 := by
  obtain ⟨rest, bound, before, size, faults⟩ := cursor
  cases rest <;> rfl

theorem reaches_past (cursor : Cursor (n + 1)) : cursor.Reaches cursor.past := by
  obtain ⟨rest, bound, before, size, faults⟩ := cursor
  cases rest with
  | nil => exact ⟨⟨[], rfl, rfl⟩, rfl, fun _ member => .inl member⟩
  | cons token rest => exact ⟨⟨[token], rfl, rfl⟩, rfl, fun _ member => .inl member⟩

theorem left_past (cursor : Cursor (n + 1)) : cursor.past.left = cursor.left - 1 := by
  obtain ⟨rest, bound, before, size, faults⟩ := cursor
  cases rest <;> rfl

theorem reaches_widen (cursor : Cursor n) : cursor.Reaches cursor.widen :=
  ⟨⟨[], rfl, rfl⟩, rfl, fun _ member => .inl member⟩

theorem left_pos_of_lexeme (isNext : cursor.lexeme? ≠ none) : 0 < cursor.left := by
  rw [left, List.length_pos_iff]
  intro none
  rw [lexeme?, none] at isNext
  exact isNext rfl

end Cursor

/-! The judgement and its rules. -/

/-- Read from a cursor that is reached from an origin, the reader goes on, and the postcondition holds of what it gives
and of where it stops. A fault is told where a token was left at the origin, or at the end. -/
def Advances (origin : Cursor m) (reader : Reader n α) (cursor : Cursor n) (post : α → Cursor n → Prop) : Prop :=
  origin.Reaches cursor → match reader cursor with
  | .ok value after => origin.Reaches after ∧ post value after
  | .error fault after => origin.Reaches after ∧ origin.Marks fault.span

namespace Advances

variable {origin : Cursor m} {cursor : Cursor n} {reader : Reader n α} {next : α → Reader n β}
  {middle : α → Cursor n → Prop} {post : β → Cursor n → Prop}

theorem pure {value : β} (holds : post value cursor) : Advances origin (pure value) cursor post :=
  fun reaches => ⟨reaches, holds⟩

theorem fail {wanted : String} : Advances origin (fail wanted : Reader n β) cursor post :=
  fun reaches => ⟨reaches, reaches.marks cursor.here_marked⟩

theorem fail_bind {wanted : String} : Advances origin (Grammar.fail wanted >>= next) cursor post :=
  fun reaches => ⟨reaches, reaches.marks cursor.here_marked⟩

theorem bind (first : Advances cursor reader cursor middle)
    (second : ∀ value after, origin.Reaches after → cursor.Reaches after → middle value after →
      Advances origin (next value) after post) : Advances origin (reader >>= next) cursor post := by
  intro reaches
  have outcome := first (.refl cursor)
  simp only [Bind.bind, EStateM.bind]
  cases isResult : reader cursor with
  | ok value after =>
    rw [isResult] at outcome
    exact second value after (reaches.trans outcome.1) outcome.1 outcome.2 (reaches.trans outcome.1)
  | error fault after =>
    rw [isResult] at outcome
    exact ⟨reaches.trans outcome.1, reaches.marks outcome.2⟩

theorem mono {reader : Reader n β} {stronger : β → Cursor n → Prop} (advances : Advances cursor reader cursor stronger)
    (weaken : ∀ value after, origin.Reaches after → cursor.Reaches after → stronger value after → post value after) :
    Advances origin reader cursor post := by
  intro reaches
  have outcome := advances (.refl cursor)
  cases isResult : reader cursor with
  | ok value after =>
    rw [isResult] at outcome
    exact ⟨reaches.trans outcome.1, weaken value after (reaches.trans outcome.1) outcome.1 outcome.2⟩
  | error fault after =>
    rw [isResult] at outcome
    exact ⟨reaches.trans outcome.1, reaches.marks outcome.2⟩

theorem forward {stronger : α → Cursor n → Prop} (advances : Advances cursor reader cursor stronger) :
    Advances origin reader cursor fun _ _ => True :=
  mono advances fun _ _ _ _ _ => trivial

theorem map {function : α → β} (first : Advances cursor reader cursor middle)
    (holds : ∀ value after, origin.Reaches after → cursor.Reaches after → middle value after →
      post (function value) after) : Advances origin (function <$> reader) cursor post :=
  bind first fun value after reaches fromCursor middle => pure (holds value after reaches fromCursor middle)

theorem join (rest : α → Reader n β) {reader : Reader n β}
    (second : ∀ value after, origin.Reaches after → cursor.Reaches after → middle value after →
      Advances origin (rest value) after post)
    (ways : (∀ value after, origin.Reaches after → cursor.Reaches after → middle value after →
      Advances origin (rest value) after post) → Advances origin reader cursor post) :
    Advances origin reader cursor post :=
  ways second

theorem look {value : α} (isLook : reader cursor = .ok value cursor)
    (second : Advances origin (next value) cursor post) : Advances origin (reader >>= next) cursor post := by
  intro reaches
  simp only [Bind.bind, EStateM.bind, isLook]
  exact second reaches

theorem past {cursor : Cursor (n + 1)} {reader : Reader n β} {post : β → Cursor (n + 1) → Prop}
    (advances : Advances cursor reader cursor.past fun value after => post value after.widen) :
    Advances origin (past reader) cursor post := by
  intro reaches
  have outcome := advances cursor.reaches_past
  unfold Grammar.past
  cases isResult : reader cursor.past with
  | ok value after =>
    rw [isResult] at outcome
    exact ⟨(reaches.trans outcome.1).trans after.reaches_widen, outcome.2⟩
  | error fault after =>
    rw [isResult] at outcome
    exact ⟨(reaches.trans outcome.1).trans after.reaches_widen, reaches.marks outcome.2⟩

end Advances

/-! Readers of single tokens. -/

section Tokens

variable (cursor : Cursor n)

theorem advances_skip : Advances cursor skip cursor fun _ after =>
    after.left = cursor.left - 1 ∧ (0 < cursor.left → cursor.here.stop = after.before) := by
  refine fun _ => ⟨cursor.reaches_next, cursor.left_next, fun some => ?_⟩
  obtain ⟨_ | ⟨token, rest⟩, bound, before, size, faults⟩ := cursor
  · exact absurd some (Nat.lt_irrefl 0)
  · rfl

variable {cursor} {origin : Cursor m} {post : β → Cursor n → Prop}

namespace Advances

theorem skip {next : Unit → Reader n β}
    (second : ∀ after, origin.Reaches after → cursor.Reaches after → after.left = cursor.left - 1 →
      (0 < cursor.left → cursor.here.stop = after.before) → Advances origin (next ()) after post) :
    Advances origin (skip >>= next) cursor post :=
  .bind (advances_skip cursor) fun _ after reaches fromCursor passed => second after reaches fromCursor passed.1 passed.2

theorem accept {lexeme : Lexeme} {next : Bool → Reader n β}
    (taken : ∀ after, origin.Reaches after → cursor.Reaches after → after.left < cursor.left →
      Advances origin (next true) after post) (other : Advances origin (next false) cursor post) :
    Advances origin (accept lexeme >>= next) cursor post := by
  unfold Grammar.accept
  rw [bind_assoc]
  refine .look rfl ?_
  split
  next isNext =>
    have some : 0 < cursor.left := Cursor.left_pos_of_lexeme (by simp [of_decide_eq_true isNext])
    rw [bind_assoc]
    refine .skip fun after reaches fromCursor passed _ => ?_
    rw [pure_bind]
    exact taken after reaches fromCursor (by omega)
  · rw [pure_bind]
    exact other

end Advances

variable (cursor)

theorem advances_expectMark (mark : Mark) :
    Advances cursor (expectMark mark) cursor fun _ after => after.left < cursor.left :=
  .accept (fun _ _ _ shorter => .pure shorter) .fail

theorem advances_expectKeyword (keyword : Keyword) :
    Advances cursor (expectKeyword keyword) cursor fun _ after => after.left < cursor.left :=
  .accept (fun _ _ _ shorter => .pure shorter) .fail

variable {cursor} in
theorem Advances.lastMark {mark : Mark} {value : β}
    (holds : ∀ after : Cursor n, after.left < cursor.left → post value after) :
    Advances origin (do expectMark mark; return value) cursor post :=
  .bind (advances_expectMark cursor mark) fun _ after _ _ shorter => .pure (holds after shorter)

theorem advances_statementEnd : Advances cursor statementEnd cursor fun _ _ => True := by
  unfold statementEnd
  refine .look rfl ?_
  split
  · exact .pure trivial
  · exact (advances_skip cursor).forward
  · exact .fail

theorem advances_name : Advances cursor name cursor fun found after =>
    after.left < cursor.left ∧ found.span = ⟨cursor.here.start, after.before⟩ := by
  unfold name
  refine .look rfl ?_
  split
  next word isWord =>
    have some : 0 < cursor.left := by
      refine Cursor.left_pos_of_lexeme fun none => ?_
      simp [none] at isWord
    refine .look rfl (.skip fun after _ _ passed isStop => .pure ⟨by omega, ?_⟩)
    rw [← isStop some]
  · exact .fail

end Tokens

/-! Loops. -/

section Loops

theorem isAtStatementEnd_eq (cursor : Cursor n) :
    isAtStatementEnd cursor = .ok (cursor.lexeme?.all (· = .newline)) cursor := by
  obtain ⟨rest, bound, before, size, faults⟩ := cursor
  cases rest with
  | nil => rfl
  | cons token rest =>
    obtain ⟨lexeme, span⟩ := token
    cases lexeme <;> rfl

theorem advances_skipNewlinesWithin (turns : Nat) (cursor : Cursor n) :
    Advances cursor (skipNewlinesWithin turns) cursor fun _ _ => True := by
  induction turns generalizing cursor with
  | zero => exact .pure trivial
  | succ turns ih => exact .accept (fun after _ _ _ => (ih after).forward) (.pure trivial)

theorem advances_skipNewlines (cursor : Cursor n) : Advances cursor skipNewlines cursor fun _ _ => True :=
  .look rfl (advances_skipNewlinesWithin _ cursor)

theorem advances_skipToStatementEndWithin (turns : Nat) (cursor : Cursor n) :
    Advances cursor (skipToStatementEndWithin turns) cursor fun _ _ => True := by
  induction turns generalizing cursor with
  | zero => exact .pure trivial
  | succ turns ih =>
    refine .look (isAtStatementEnd_eq cursor) ?_
    split
    · exact .pure trivial
    · exact .skip fun after _ _ _ _ => (ih after).forward

theorem advances_skipToStatementEnd (cursor : Cursor n) :
    Advances cursor skipToStatementEnd cursor fun _ after =>
      cursor.lexeme?.any (· ≠ .newline) = true → after.left < cursor.left := by
  refine .look rfl ?_
  change Advances cursor (skipToStatementEndWithin cursor.left) cursor _
  cases isLeft : cursor.left with
  | zero =>
    refine .pure fun inside => ?_
    simp [Cursor.lexeme?, Cursor.rest_eq_nil_of_left isLeft] at inside
  | succ turns =>
    refine .look (isAtStatementEnd_eq cursor) ?_
    split
    next isEnd =>
      refine .pure fun inside => ?_
      cases isNext : cursor.lexeme? <;> simp_all
    · refine .skip fun after _ _ passed _ => ?_
      refine .mono (advances_skipToStatementEndWithin turns after) fun _ last _ further _ _ => ?_
      have := further.left_le
      omega

theorem advances_skipStatement (cursor : Cursor n) :
    Advances cursor skipStatement cursor fun _ after => 0 < cursor.left → after.left < cursor.left := by
  refine .bind (advances_skipToStatementEnd cursor) fun _ middle _ reaches _ => ?_
  refine .mono (advances_skip middle) fun _ after _ _ passed some => ?_
  have := reaches.left_le
  omega

section

variable {cursor : Cursor n} {word : String} (isEnd : endWord? cursor.rest = some word)
include isEnd

theorem lexeme_of_endWord : cursor.lexeme?.any (· ≠ .newline) = true := by
  rw [Cursor.lexeme?]
  unfold endWord? at isEnd
  split at isEnd
  next isRest => simp [isRest]
  next isRest => simp [isRest]
  · simp at isEnd

theorem left_pos_of_endWord : 0 < cursor.left := by
  refine Cursor.left_pos_of_lexeme fun none => ?_
  have inside := lexeme_of_endWord isEnd
  simp [none] at inside

end

theorem advances_constructEnd (word : String) (others : List String) (cursor : Cursor n) :
    Advances cursor (constructEnd word others) cursor fun _ after => after.left < cursor.left := by
  have behind (after : Cursor n) (shorter : after.left < cursor.left) :
      Advances cursor statementEnd after fun _ last => last.left < cursor.left :=
    .mono (advances_statementEnd after) fun _ last _ further _ => Nat.lt_of_le_of_lt further.left_le shorter
  unfold constructEnd
  refine .look rfl ?_
  split
  next isEnd =>
    have some := left_pos_of_endWord isEnd
    exact .skip fun after _ _ passed _ => behind after (by omega)
  next found _ isEnd =>
    split
    · exact .bind (advances_skipToStatementEnd cursor) fun _ after _ _ passed => behind after (passed (lexeme_of_endWord isEnd))
    · exact .fail_bind
  · exact .fail_bind

section Lists

variable {item : Reader n α} {within : Nat → Nat → α → Prop} {edge : Nat → Prop}

def Widens (within : Nat → Nat → α → Prop) : Prop :=
  ∀ ⦃lo lo' hi hi' value⦄, within lo hi value → lo' ≤ lo → hi ≤ hi' → within lo' hi' value

variable (widens : Widens within)
include widens

section

variable (items : ∀ cursor, Advances cursor item cursor fun value after =>
  cursor.Sound edge → within cursor.here.start after.before value)
include items

theorem advances_moreWithin (origin : Cursor n) (turns : Nat) (done : Array α) (cursor : Cursor n)
    (reaches : origin.Reaches cursor)
    (fitting : origin.Sound edge → ∀ value ∈ done, within origin.here.start cursor.before value) :
    Advances cursor (moreWithin item turns done) cursor fun values after =>
      origin.Sound edge → ∀ value ∈ values, within origin.here.start after.before value := by
  induction turns generalizing done cursor with
  | zero => exact .pure (by simpa using fitting)
  | succ turns ih =>
    refine .accept (fun middle _ reached _ => ?_) (.pure (by simpa using fitting))
    refine .bind (items middle) fun value after _ further fit => ?_
    have farther := reached.trans further
    refine .mono (ih (done.push value) after (reaches.trans farther) ?_) fun _ _ _ _ all => all
    intro sound found member
    have reachesMiddle := reaches.trans reached
    rcases Array.mem_push.mp member with earlier | rfl
    · exact widens (fitting sound found earlier) (Nat.le_refl _) ((sound.of_reaches reaches).before_le farther)
    · exact widens (fit (sound.of_reaches reachesMiddle)) (sound.start_le_start reachesMiddle) (Nat.le_refl _)

theorem advances_afterCommas (cursor : Cursor n) :
    Advances cursor (afterCommas item) cursor fun values after =>
      cursor.Sound edge → ∀ value ∈ values, within cursor.here.start after.before value :=
  .look rfl (advances_moreWithin widens items cursor _ #[] cursor (.refl cursor) (by simp))

end

theorem advances_separated
    (items : ∀ cursor, Advances cursor item cursor fun value after =>
      after.left < cursor.left ∧ (cursor.Sound edge → within cursor.here.start after.before value))
    (cursor : Cursor n) :
    Advances cursor (separated item) cursor fun values after => after.left < cursor.left ∧
      (cursor.Sound edge → ∀ value ∈ values, within cursor.here.start after.before value) := by
  refine .bind (items cursor) fun first middle reaches _ ⟨shorter, fit⟩ => .look rfl ?_
  have others (next : Cursor n) : Advances next item next fun value after =>
      next.Sound edge → within next.here.start after.before value :=
    .mono (items next) fun _ _ _ _ both => both.2
  refine .mono (advances_moreWithin widens others cursor _ #[first] middle reaches (by simpa using fit)) ?_
  exact fun _ _ _ further all => ⟨Nat.lt_of_le_of_lt further.left_le shorter, all⟩

end Lists

variable {origin : Cursor n} {handler : Fault → Reader n α}

theorem tryCatch_ok {reader : Reader n α} {cursor after : Cursor n} {value : α}
    (isOk : reader cursor = .ok value after) : tryCatch reader handler cursor = .ok value after := by
  change EStateM.tryCatch reader handler cursor = _
  delta EStateM.tryCatch
  dsimp only
  rw [isOk]

theorem tryCatch_error {reader : Reader n α} {cursor after : Cursor n} {fault : Fault}
    (isError : reader cursor = .error fault after) : tryCatch reader handler cursor = handler fault after := by
  change EStateM.tryCatch reader handler cursor = _
  delta EStateM.tryCatch
  dsimp only
  rw [isError]
  rfl

theorem advances_recovered {item : Reader n (Option (List α))} {post : Option (List α) → Cursor n → Prop}
    (cursor : Cursor n) (first : Advances cursor item cursor post) :
    Advances cursor (try item catch fault => do recover fault; pure (some [])) cursor fun found after =>
      post found after ∨ found = some [] ∧ (0 < cursor.left → after.left < cursor.left) := by
  intro _
  have outcome := first (.refl cursor)
  cases isResult : item cursor with
  | ok found after =>
    rw [isResult] at outcome
    rw [tryCatch_ok isResult]
    exact ⟨outcome.1, .inl outcome.2⟩
  | error fault stopped =>
    rw [isResult] at outcome
    rw [tryCatch_error isResult]
    obtain ⟨reaches, marked⟩ := outcome
    let kept : Cursor n := { stopped with faults := fault :: stopped.faults }
    have reachesKept : cursor.Reaches kept := by
      refine ⟨reaches.taken, reaches.size, fun other member => ?_⟩
      rcases List.mem_cons.mp member with rfl | earlier
      · exact .inr marked
      · exact reaches.faults other earlier
    have skipped : Advances cursor (do skipStatement; pure (some [])) kept fun (found : Option (List α)) after =>
        post found after ∨ found = some [] ∧ (0 < cursor.left → after.left < cursor.left) := by
      refine .bind (advances_skipStatement kept) fun _ after _ further passed => .pure (.inr ⟨rfl, fun some => ?_⟩)
      have := reachesKept.left_le
      have := further.left_le
      rcases Nat.eq_zero_or_pos kept.left with none | left
      · omega
      · have := passed left
        omega
    exact skipped reachesKept

variable {item : Reader n (Option (List α))} {good : α → Prop}

variable (items : ∀ cursor, origin.Reaches cursor →
  Advances cursor item cursor fun found _ => ∀ values ∈ found, ∀ value ∈ values, good value)
include items

theorem advances_manyWithin (turns : Nat) (done : Array α) (cursor : Cursor n) (reaches : origin.Reaches cursor)
    (all : ∀ value ∈ done, good value) :
    Advances cursor (manyWithin item turns done) cursor fun values _ => ∀ value ∈ values, good value := by
  induction turns generalizing done cursor with
  | zero => exact .pure (by simpa using all)
  | succ turns ih =>
    refine .bind (advances_skipNewlines cursor) fun _ middle _ reached _ => ?_
    have reached := reaches.trans reached
    refine .bind (advances_recovered middle (items middle reached)) fun found after _ further goods => ?_
    cases found with
    | none => exact .pure (by simpa using all)
    | some values =>
      refine .mono (ih (done ++ values) after (reached.trans further) ?_) fun _ _ _ _ all => all
      intro value member
      have split : value ∈ done ∨ value ∈ values := by
        rwa [← Array.mem_toList_iff, Array.toList_appendList, List.mem_append, Array.mem_toList_iff] at member
      rcases split, goods with ⟨earlier | found, goods | ⟨none, -⟩⟩
      · exact all value earlier
      · exact all value earlier
      · exact goods values rfl value found
      · obtain rfl := Option.some.inj none
        simp at found

theorem advances_many : Advances origin (many item) origin fun values _ => ∀ value ∈ values, good value :=
  .look rfl (advances_manyWithin items _ #[] origin (.refl origin) (by simp))

end Loops

end Grammar

end FortranInterface
