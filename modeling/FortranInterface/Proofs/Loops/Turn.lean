import FortranInterface.Proofs.Advance.Declaration

/-!
Loops as turns. A loop of the grammar is written with a bound on its turns. Here it is taken apart: a single turn either
ends the loop or gives the state for the next turn, and `Runs` repeats turns without any bound. Where each turn that
goes on takes a token, the loop ends, and the bound that the grammar computes never cuts it short.
-/

namespace FortranInterface.Grammar

variable {n : Nat} {σ α β : Type}

/-- A turn of a loop: it gives the state to go on with, or what the loop gives. -/
abbrev Turn (n : Nat) (σ β : Type) := σ → Reader n (σ ⊕ β)

/-- Turn after turn, until one ends the loop. -/
inductive Runs (turn : Turn n σ β) : σ → Cursor n → EStateM.Result Fault (Cursor n) β → Prop where
  | done {state : σ} {value : β} {cursor after : Cursor n} (isTurn : turn state cursor = .ok (.inr value) after) :
      Runs turn state cursor (.ok value after)
  | fault {state : σ} {fault : Fault} {cursor after : Cursor n} (isTurn : turn state cursor = .error fault after) :
      Runs turn state cursor (.error fault after)
  | again {state next : σ} {cursor after : Cursor n} {result : EStateM.Result Fault (Cursor n) β}
      (isTurn : turn state cursor = .ok (.inl next) after) (others : Runs turn next after result) :
      Runs turn state cursor result

def Forward (turn : Turn n σ β) : Prop :=
  ∀ state cursor, Advances cursor (turn state) cursor fun outcome after =>
    outcome.isLeft = true → after.left < cursor.left

def Iterates (turn : Turn n σ β) (within : Nat → σ → Reader n β) : Prop :=
  ∀ turns state, within (turns + 1) state = turn state >>= Sum.elim (within turns) pure

def Cursor.spent (before size : Nat) (faults : List Fault) : Cursor n :=
  ⟨[], Nat.zero_le n, before, size, faults⟩

variable {cursor : Cursor n}

theorem Cursor.eq_spent (none : cursor.left = 0) : cursor = .spent cursor.before cursor.size cursor.faults := by
  obtain ⟨rest, bound, before, size, faults⟩ := cursor
  obtain rfl : rest = [] := Cursor.rest_eq_nil_of_left none
  rfl

namespace Iterates

variable {turn : Turn n σ β} {within : Nat → σ → Reader n β}

-- The turns that are left exceed the tokens that are left, by the slack; only without slack can they run out together.
variable (iterates : Iterates turn within) (forward : Forward turn)
include iterates forward

theorem runs_of_base {slack : Nat}
    (base : ∀ state cursor, cursor.left + slack ≤ 0 → Runs turn state cursor (within 0 state cursor)) (turns : Nat)
    (state : σ) (cursor : Cursor n) (enough : cursor.left + slack ≤ turns) :
    Runs turn state cursor (within turns state cursor) := by
  induction turns generalizing state cursor with
  | zero => exact base state cursor enough
  | succ turns ih =>
    have outcome := forward state cursor (.refl cursor)
    rw [iterates]
    simp only [Bind.bind, EStateM.bind]
    cases isTurn : turn state cursor with
    | error fault after => exact .fault isTurn
    | ok result after =>
      rw [isTurn] at outcome
      cases result with
      | inr value => exact .done isTurn
      | inl next =>
        have shorter := outcome.2 rfl
        exact .again isTurn (ih next after (by omega))

theorem runs (state : σ) (cursor : Cursor n) : Runs turn state cursor (within (cursor.left + 1) state cursor) :=
  iterates.runs_of_base forward (fun _ _ (none : _ + 1 ≤ 0) => absurd none (Nat.not_succ_le_zero _)) _ state cursor
    (Nat.le_refl _)

theorem runs_left
    (ends : ∀ state before size faults, ∃ value,
      turn state (.spent before size faults) = .ok (.inr value) (.spent before size faults) ∧
      within 0 state (.spent before size faults) = .ok value (.spent before size faults))
    (state : σ) (cursor : Cursor n) : Runs turn state cursor (within cursor.left state cursor) := by
  refine iterates.runs_of_base forward (fun state cursor (none : cursor.left + 0 ≤ 0) => ?_) _ state cursor (Nat.le_refl _)
  rw [Cursor.eq_spent (Nat.le_zero.mp none)]
  obtain ⟨value, isTurn, isLast⟩ := ends state cursor.before cursor.size cursor.faults
  rw [isLast]
  exact .done isTurn

end Iterates

def NeverFaults (turn : Turn n σ β) : Prop :=
  ∀ state cursor, ∃ outcome after, turn state cursor = .ok outcome after

theorem Runs.ok {turn : Turn n σ β} {state : σ} {result : EStateM.Result Fault (Cursor n) β}
    (runs : Runs turn state cursor result) (never : NeverFaults turn) : ∃ value after, result = .ok value after := by
  induction runs with
  | done isTurn => exact ⟨_, _, rfl⟩
  | @fault state _ cursor _ isTurn =>
    obtain ⟨outcome, after, isOk⟩ := never state cursor
    rw [isTurn] at isOk
    cases isOk
  | again _ _ ih => exact ih

/-! Newlines, and the rest of a statement. -/

def newlineTurn : Turn n Unit Unit := fun _ => do
  if ← accept .newline then return .inl () else return .inr ()

def statementTurn : Turn n Unit Unit := fun _ => do
  if ← isAtStatementEnd then return .inr ()
  skip
  return .inl ()

theorem accept_eq (lexeme : Lexeme) (cursor : Cursor n) :
    accept lexeme cursor = if cursor.lexeme? = some lexeme then .ok true cursor.next else .ok false cursor := by
  have isLook : accept lexeme cursor = (if decide (cursor.lexeme? = some lexeme) = true then do skip; return true
    else return false : Reader n Bool) cursor := rfl
  rw [isLook]
  by_cases isNext : cursor.lexeme? = some lexeme
  · rw [if_pos isNext, if_pos (decide_eq_true isNext)]
    rfl
  · rw [if_neg isNext, if_neg (by simpa using isNext)]
    rfl

theorem forward_newlineTurn : Forward (newlineTurn : Turn n Unit Unit) :=
  fun _ _ => .accept (fun _ _ _ shorter => .pure fun _ => shorter) (.pure (by simp))

theorem iterates_skipNewlines : Iterates newlineTurn fun turns _ => (skipNewlinesWithin turns : Reader n Unit) := by
  intro turns state
  unfold newlineTurn
  simp only [skipNewlinesWithin, bind_assoc]
  congr 1
  funext taken
  cases taken <;> simp

theorem runs_skipNewlines (cursor : Cursor n) : Runs newlineTurn () cursor (skipNewlines cursor) :=
  iterates_skipNewlines.runs_left forward_newlineTurn (fun _ _ _ _ => ⟨(), rfl, rfl⟩) () cursor

theorem forward_statementTurn : Forward (statementTurn : Turn n Unit Unit) := by
  intro _ cursor
  refine .look (isAtStatementEnd_eq cursor) ?_
  split
  · exact .pure (by simp)
  next inside =>
    have isLeft : 0 < cursor.left := Cursor.left_pos_of_lexeme fun none => by simp [none] at inside
    exact .skip fun after _ _ passed _ => .pure fun _ => by omega

theorem iterates_skipToStatementEnd :
    Iterates statementTurn fun turns _ => (skipToStatementEndWithin turns : Reader n Unit) := by
  intro turns state
  unfold statementTurn
  simp only [skipToStatementEndWithin, bind_assoc]
  congr 1
  funext isEnd
  cases isEnd <;> simp

theorem runs_skipToStatementEnd (cursor : Cursor n) : Runs statementTurn () cursor (skipToStatementEnd cursor) :=
  iterates_skipToStatementEnd.runs_left forward_statementTurn (fun _ _ _ _ => ⟨(), rfl, rfl⟩) () cursor

theorem neverFaults_newlineTurn : NeverFaults (newlineTurn : Turn n Unit Unit) := by
  intro _ cursor
  by_cases isNext : cursor.lexeme? = some .newline
  · exact ⟨.inl (), cursor.next, by simp [newlineTurn, Bind.bind, EStateM.bind, accept_eq, isNext]; rfl⟩
  · exact ⟨.inr (), cursor, by simp [newlineTurn, Bind.bind, EStateM.bind, accept_eq, isNext]; rfl⟩

theorem neverFaults_statementTurn : NeverFaults (statementTurn : Turn n Unit Unit) := by
  intro _ cursor
  cases isEnd : cursor.lexeme?.all (· = .newline) with
  | true => exact ⟨.inr (), cursor, by simp [statementTurn, Bind.bind, EStateM.bind, isAtStatementEnd_eq, isEnd]; rfl⟩
  | false => exact ⟨.inl (), cursor.next, by simp [statementTurn, Bind.bind, EStateM.bind, isAtStatementEnd_eq, isEnd]; rfl⟩

theorem skipNewlines_ok (cursor : Cursor n) : ∃ after, skipNewlines cursor = .ok () after := by
  obtain ⟨_, after, isOk⟩ := (runs_skipNewlines cursor).ok neverFaults_newlineTurn
  exact ⟨after, isOk⟩

theorem recover_ok (fault : Fault) (cursor : Cursor n) : ∃ after, recover fault cursor = .ok () after := by
  obtain ⟨_, after, isOk⟩ := (runs_skipToStatementEnd { cursor with faults := fault :: cursor.faults }).ok
    neverFaults_statementTurn
  refine ⟨after.next, ?_⟩
  have isRecover : recover fault cursor = (do skipToStatementEnd; skip : Reader n Unit)
    { cursor with faults := fault :: cursor.faults } := rfl
  simp only [isRecover, Bind.bind, EStateM.bind, isOk]
  rfl

/-! Lists. -/

def moreTurn (item : Reader n α) : Turn n (Array α) (List α) := fun done => do
  if ← acceptMark .comma then return .inl (done.push (← item)) else return .inr done.toList

def manyTurn (item : Reader n (Option (List α))) : Turn n (Array α) (List α) := fun done => do
  skipNewlines
  let found ←
    try item
    catch fault =>
      recover fault
      pure (some [])
  match found with
  | some items => return .inl (done ++ items)
  | none => return .inr done.toList

section

variable {item : Reader n α}

theorem forward_moreTurn {post : Cursor n → α → Cursor n → Prop}
    (items : ∀ cursor, Advances cursor item cursor (post cursor)) : Forward (moreTurn item) := by
  intro done cursor
  refine .accept (fun middle _ _ shorter => ?_) (.pure (by simp))
  refine .bind (items middle) fun value after _ further _ => .pure fun _ => ?_
  have := further.left_le
  omega

theorem iterates_moreWithin : Iterates (moreTurn item) (moreWithin item) := by
  intro turns done
  unfold moreTurn
  simp only [moreWithin, bind_assoc]
  congr 1
  funext taken
  cases taken <;> simp

end

section

variable {item : Reader n (Option (List α))}

theorem iterates_manyWithin : Iterates (manyTurn item) (manyWithin item) := by
  intro turns done
  unfold manyTurn
  simp only [manyWithin, bind_assoc]
  congr 1
  funext _
  congr 1
  funext found
  cases found <;> simp

variable (item) in
theorem manyTurn_cases (done : Array α) (cursor : Cursor n) :
    (∃ last after, item last = .ok none after ∧ manyTurn item done cursor = .ok (.inr done.toList) after) ∨
      ∃ next after, manyTurn item done cursor = .ok (.inl next) after := by
  obtain ⟨middle, isMiddle⟩ := skipNewlines_ok cursor
  simp only [manyTurn, Bind.bind, EStateM.bind, isMiddle]
  cases isItem : item middle with
  | ok found after =>
    rw [tryCatch_ok isItem]
    cases found with
    | none => exact .inl ⟨middle, after, isItem, rfl⟩
    | some items => exact .inr ⟨_, _, rfl⟩
  | error fault stopped =>
    obtain ⟨after, isRecovered⟩ := recover_ok fault stopped
    refine .inr ⟨done ++ ([] : List α), after, ?_⟩
    simp only [tryCatch_error isItem, EStateM.bind, isRecovered]
    rfl

theorem Runs.ended {done : Array α} {result : EStateM.Result Fault (Cursor n) (List α)}
    (runs : Runs (manyTurn item) done cursor result) :
    ∃ values last after, result = .ok values after ∧ item last = .ok none after := by
  induction runs with
  | again _ _ ih => exact ih
  | @done done _ cursor _ isTurn =>
    obtain ⟨last, after, isNone, isStop⟩ | ⟨next, after, goesOn⟩ := manyTurn_cases item done cursor
    · rw [isStop] at isTurn
      cases isTurn
      exact ⟨_, last, _, rfl, isNone⟩
    · rw [goesOn] at isTurn
      cases isTurn
  | @fault done _ cursor _ isTurn =>
    obtain ⟨last, after, isNone, isStop⟩ | ⟨next, after, goesOn⟩ := manyTurn_cases item done cursor
    · rw [isStop] at isTurn
      cases isTurn
    · rw [goesOn] at isTurn
      cases isTurn

-- A fault at the end of the text could not be passed over, so an item must not fault there.
theorem forward_manyTurn (strict : ∀ cursor, Advances cursor item cursor fun found after =>
      found.isSome = true → after.left < cursor.left)
    (rests : ∀ cursor, cursor.left = 0 → item cursor = .ok none cursor) : Forward (manyTurn item) := by
  intro done cursor
  refine .bind (advances_skipNewlines cursor) fun _ middle _ toMiddle _ => ?_
  have := toMiddle.left_le
  rcases Nat.eq_zero_or_pos middle.left with none | isLeft
  · exact .look (tryCatch_ok (rests middle none)) (.pure (by simp))
  · refine .bind (advances_recovered middle (strict middle)) fun found after _ _ passed => ?_
    cases found with
    | none => exact .pure (by simp)
    | some items =>
      refine .pure fun _ => ?_
      rcases passed with shorter | ⟨-, shorter⟩
      · exact Nat.lt_of_lt_of_le (shorter rfl) this
      · exact Nat.lt_of_lt_of_le (shorter isLeft) this

end

end FortranInterface.Grammar
