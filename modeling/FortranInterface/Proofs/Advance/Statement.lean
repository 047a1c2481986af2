import FortranInterface.Grammar.Statement
import FortranInterface.Proofs.Advance.Declaration

/-!
Readers of statements go forward, and the spans of what they give are ranges of the text.
-/

namespace FortranInterface.Grammar

open FortranInterface.Tree (Stmt DoControl)

variable {n : Nat} (edge : Nat → Prop)

theorem takes_designator : Takes edge (designator : Reader n Tree.Expr) (Ranged edge Tree.Expr.Sited) :=
  fun cursor => .mono (spans_designator cursor) fun _ _ _ _ both => ⟨both.1, fun sound => (both.2 sound).2.2⟩

/-! Statements that hold no others. -/

theorem takes_assignment : Takes edge (assignment : Reader n Stmt) (Ranged edge Stmt.Sited) := by
  intro cursor
  unfold assignment
  refine .look rfl ((takes_designator edge).bind fun left target _ _ shorter isLeft => ?_)
  extract_lets rest
  have go (after : Cursor n) (fromTarget : target.Reaches after) : Advances cursor (rest ()) after
      (Taken edge cursor (Ranged edge Stmt.Sited)) := by
    have := fromTarget.left_le
    refine (takes_expression edge).bind fun right _ _ _ _ isRight => .closed (by omega) fun sound isSpan => ?_
    simpa only [Stmt.Sited] using ⟨isSpan, isLeft sound, isRight sound⟩
  refine .accept (fun after _ fromTarget _ => go after fromTarget) ?_
  exact .accept (fun after _ fromTarget _ => go after fromTarget) .fail_bind

theorem advances_calledComponentsWithin (turns : Nat) (base : Tree.Expr) (cursor : Cursor n) :
    Advances cursor (calledComponentsWithin turns base) cursor fun expr after =>
      cursor.Sound edge → ∀ lo, base.Within edge lo cursor.before → expr.Within edge lo after.before := by
  induction turns generalizing base cursor with
  | zero => exact .pure fun _ _ within => within
  | succ turns ih =>
    refine .accept (fun percent _ _ _ => ?_) (.pure fun _ _ within => within)
    refine .bind (advances_name percent) fun component middle reaches _ ⟨_, isSpan⟩ => ?_
    refine .mono (ih _ middle) fun expr after _ _ isExpr sound lo isBase => ?_
    refine isExpr (sound.of_reaches reaches) lo ⟨isBase.1, ?_, ?_⟩
    · simp only [Tree.Expr.span, Span.through, isSpan]
      exact Nat.le_refl _
    · simp only [Tree.Expr.Sited, Span.through, isSpan]
      exact isBase.first (sound.before_le reaches) (sound.of_reaches reaches).before

theorem takes_callTarget : Takes edge (callTarget : Reader n Tree.Expr) (Ranged edge Tree.Expr.Sited) := by
  intro cursor
  refine .bind (advances_name cursor) fun first middle toMiddle _ ⟨shorter, isSpan⟩ => .look rfl ?_
  refine .mono (advances_calledComponentsWithin edge _ _ middle) fun expr after _ further isExpr => ⟨?_, fun sound => ?_⟩
  · exact Nat.lt_of_le_of_lt further.left_le shorter
  · have isFirst : (Tree.Expr.name first.name first.span).Within edge cursor.here.start middle.before := by
      rw [isSpan]
      refine ⟨Nat.le_refl _, Nat.le_refl _, ?_⟩
      simpa only [Tree.Expr.Sited] using sound.span toMiddle shorter
    exact (isExpr (sound.of_reaches toMiddle) _ isFirst).2.2

theorem takes_call : Takes edge (call : Reader n Stmt) (Ranged edge Stmt.Sited) := by
  intro cursor
  unfold call
  refine .look rfl (.bind (advances_expectKeyword cursor .call) fun _ _ _ _ shorter => ?_)
  refine (takes_callTarget edge).bind fun target called _ _ _ isTarget => .look rfl ?_
  extract_lets rest
  have go (items : List Tree.Arg) (after : Cursor n) (fromCalled : called.Reaches after)
      (areItems : cursor.Sound edge → ∀ item ∈ items, item.Sited (Span.Sound edge) Span.Inside) :
      Advances cursor (rest items) after (Taken edge cursor (Ranged edge Stmt.Sited)) := by
    have := fromCalled.left_le
    refine .closed (by omega) fun sound isSpan => ?_
    simpa only [Stmt.Sited] using ⟨isSpan, isTarget sound, areItems sound⟩
  have takesArguments : Takes edge (arguments : Reader n (List Tree.Arg)) fun items =>
      ∀ item ∈ items, item.Sited (Span.Sound edge) Span.Inside :=
    fun cursor => .mono (advances_arguments cursor) fun _ _ _ _ both =>
      ⟨both.1, fun sound item member => (both.2 sound item member).2.2⟩
  split
  · exact takesArguments.bind fun items after _ fromCalled _ areItems => go items after fromCalled areItems
  · exact go [] called (.refl _) (by simp)

theorem takes_print : Takes edge (print : Reader n Stmt) (Ranged edge Stmt.Sited) := by
  intro cursor
  unfold print
  refine .look rfl (.bind (advances_expectKeyword cursor .print) fun _ opened _ _ shorter => ?_)
  extract_lets rest
  have go (after : Cursor n) (fromOpened : opened.Reaches after) : Advances cursor (rest ()) after
      (Taken edge cursor (Ranged edge Stmt.Sited)) := by
    refine (gives_afterCommas (takes_expression edge).gives).bind fun items _ _ toItems areItems => ?_
    have := fromOpened.left_le
    have := toItems.left_le
    refine .closed (by omega) fun sound isSpan => ?_
    simpa only [Stmt.Sited] using ⟨isSpan, areItems sound⟩
  refine .accept (fun after _ fromOpened _ => go after fromOpened) ?_
  exact (takes_expression edge).bind fun _ after _ fromOpened _ _ => go after fromOpened

theorem advances_leave (cursor : Cursor n) (isLeft : 0 < cursor.left) :
    Advances cursor leave cursor (Taken edge cursor (Ranged edge Stmt.Sited)) := by
  refine .look rfl (.skip fun middle _ _ passed _ => ?_)
  refine .bind (advances_statementEnd middle) fun _ after _ further _ => .pure ⟨?_, fun sound => ?_⟩
  · have := further.left_le
    omega
  · simpa only [Stmt.Sited] using sound.here

/-! Statements that hold others. -/

theorem takes_condition : Takes edge (condition : Reader n Tree.Expr) (Ranged edge Tree.Expr.Sited) := by
  intro cursor
  refine .bind (advances_expectMark cursor .leftParen) fun _ _ _ _ _ => ?_
  refine (takes_expression edge).bind fun value closing _ _ _ isValue => ?_
  exact .lastMark fun _ _ => ⟨by omega, isValue⟩

theorem gives_loopControl : Gives edge (loopControl : Reader n (Option DoControl)) fun found =>
    ∀ control ∈ found, control.Sited (Span.Sound edge) Span.Inside := by
  intro cursor
  unfold loopControl
  refine .look rfl ?_
  split
  · exact .skip fun _ _ _ _ _ => (takes_condition edge).bind fun _ _ _ _ _ _ => .pure (by simp)
  · refine .look (isAtStatementEnd_eq cursor) ?_
    split
    · exact .pure (by simp)
    · refine .bind (advances_name cursor) fun index named _ _ _ => ?_
      refine .bind (advances_expectMark named .assign) fun _ _ _ _ _ => ?_
      refine (takes_expression edge).bind fun first started _ _ _ isFirst => ?_
      refine .bind (advances_expectMark started .comma) fun _ _ _ _ _ => ?_
      refine (takes_expression edge).bind fun last _ _ _ _ isLast => ?_
      refine (takes_expression edge).gives.optional fun step _ _ _ isStep => .pure fun sound control isSome => ?_
      obtain rfl := Option.some.inj isSome
      exact ⟨isFirst sound, isLast sound, isStep sound⟩

theorem takes_association : Takes edge (association : Reader n (String × Tree.Expr)) fun entry =>
    entry.2.Sited (Span.Sound edge) Span.Inside := by
  intro cursor
  refine .bind (advances_name cursor) fun _ named _ _ ⟨_, _⟩ => ?_
  refine .bind (advances_expectMark named .arrow) fun _ _ _ _ _ => ?_
  exact (takes_expression edge).bind fun _ _ _ _ _ isValue => .pure ⟨by omega, isValue⟩

omit edge in
theorem isAtElseIf_eq (cursor : Cursor n) :
    ∃ found, isAtElseIf cursor = .ok found cursor ∧ (found = true → 0 < cursor.left) := by
  have isLook : isAtElseIf cursor = (if decide (cursor.lexeme? = some (.keyword .else)) = true then
      EStateM.Result.ok (decide (cursor.rest[1]?.map Token.lexeme = some (.keyword .if))) cursor
    else .ok (decide (cursor.lexeme?.bind Lexeme.word? = some "elseif")) cursor) := by
    have unfolded : isAtElseIf cursor = (if decide (cursor.lexeme? = some (.keyword .else)) = true then do
      return decide ((← peekSecond) = some (.keyword .if))
    else isNextWord "elseif" : Reader n Bool) cursor := rfl
    rw [unfolded]
    split <;> rfl
  rw [isLook]
  split
  next isElse => exact ⟨_, rfl, fun _ => Cursor.left_pos_of_lexeme (by simp [of_decide_eq_true isElse])⟩
  · refine ⟨_, rfl, fun isWord => Cursor.left_pos_of_lexeme fun none => ?_⟩
    simp [none] at isWord

def ReadsStatement (reader : Reader n (Option Stmt)) : Prop :=
  ∀ cursor, Advances cursor reader cursor fun found after => (0 < cursor.left → after.left < cursor.left) ∧
    (cursor.Sound edge → ∀ stmt ∈ found, stmt.Sited (Span.Sound edge) Span.Inside)

def ClosesStatement (reader : Nat → Reader n (Option Stmt)) : Prop :=
  ∀ cursor start, Advances cursor (reader start) cursor fun found _ =>
    cursor.Sound edge → edge start → start ≤ cursor.before → ∀ stmt ∈ found, stmt.Sited (Span.Sound edge) Span.Inside

def ClosesBranches (reader : Nat → Tree.Expr → Reader n (Option Stmt)) : Prop :=
  ∀ cursor start value, Advances cursor (reader start value) cursor fun found _ =>
    cursor.Sound edge → edge start → start ≤ cursor.before → value.Sited (Span.Sound edge) Span.Inside →
      ∀ stmt ∈ found, stmt.Sited (Span.Sound edge) Span.Inside

variable {edge}

theorem ClosesStatement.past {reader : Nat → Reader n (Option Stmt)} (closes : ClosesStatement edge reader)
    (cursor : Cursor (n + 1)) (isLeft : 0 < cursor.left) :
    Advances cursor (Grammar.past (reader cursor.here.start)) cursor
      (Taken edge cursor fun found => ∀ stmt ∈ found, stmt.Sited (Span.Sound edge) Span.Inside) := by
  have passed := cursor.left_past
  refine .past (.mono (closes cursor.past cursor.here.start) fun found after _ further all => ⟨?_, fun sound => ?_⟩)
  · change after.left < cursor.left
    have := further.left_le
    omega
  · exact all (sound.of_reaches cursor.reaches_past) sound.here.2.1
      (sound.start_le_before cursor.reaches_past (by omega))

variable {statement : Reader n (Option Stmt)}

theorem items_executionOf (reads : ReadsStatement edge statement) :
    Items edge (do
      if (← peek).isNone || (← isNextKeyword .contains) || (← isAtEnd) ||
          (← isNextKeyword .else) || (← isNextWord "elseif") then
        return none
      return some (← statement).toList) (Ranged edge Stmt.Sited) := by
  intro cursor
  refine .look rfl (.look rfl (.look rfl (.look rfl (.look rfl ?_))))
  split
  · exact Items.none
  next goesOn =>
    have isLeft : 0 < cursor.left := Cursor.left_pos_of_lexeme fun none => by simp [none] at goesOn
    refine .bind (reads cursor) fun found after _ _ ⟨passed, all⟩ => .pure ⟨fun _ => passed isLeft, ?_⟩
    rintro sound _ ⟨⟩ stmt member
    exact all sound stmt (Option.mem_toList.mp member)

theorem gives_executionOf (reads : ReadsStatement edge statement) :
    Gives edge (executionOf statement) fun body => ∀ stmt ∈ body, stmt.Sited (Span.Sound edge) Span.Inside :=
  (items_executionOf reads).many

section

variable {inner : Entry → Reader n (Option Stmt)} (reads : ReadsStatement edge (inner .statement))
include reads

theorem closes_loop : ClosesStatement edge (loop inner) := by
  intro cursor start
  unfold loop
  refine (gives_loopControl edge).bind fun control steered _ _ isControl => ?_
  refine .bind (advances_statementEnd steered) fun _ _ _ _ _ => ?_
  refine (gives_executionOf reads).bind fun body ended _ _ areBody => ?_
  refine .bind (advances_constructEnd "do" [] ended) fun _ after toAfter _ _ => .look rfl (.pure ?_)
  rintro sound isEdge below _ ⟨⟩
  simp only [Stmt.Sited, Tree.sitedStmts_iff]
  exact ⟨⟨Nat.le_trans below (sound.before_le toAfter), isEdge, (sound.of_reaches toAfter).before⟩, isControl sound,
    areBody sound⟩

theorem closes_associateBlock : ClosesStatement edge (associateBlock inner) := by
  intro cursor start
  unfold associateBlock
  refine .bind (advances_expectMark cursor .leftParen) fun _ _ _ _ _ => ?_
  refine (takes_separated (takes_association edge)).bind fun names closing _ _ _ areNames => ?_
  refine .bind (advances_expectMark closing .rightParen) fun _ closed _ _ _ => ?_
  refine .bind (advances_statementEnd closed) fun _ _ _ _ _ => ?_
  refine (gives_executionOf reads).bind fun body ended _ _ areBody => ?_
  refine .bind (advances_constructEnd "associate" [] ended) fun _ after toAfter _ _ => .look rfl (.pure ?_)
  rintro sound isEdge below _ ⟨⟩
  simp only [Stmt.Sited, Tree.sitedStmts_iff]
  exact ⟨⟨Nat.le_trans below (sound.before_le toAfter), isEdge, (sound.of_reaches toAfter).before⟩, areNames sound,
    areBody sound⟩

variable (branches : ClosesBranches edge fun start value => inner (.branches start value))
include branches

theorem closes_conditional : ClosesStatement edge (conditional inner) := by
  intro cursor start
  unfold conditional
  refine (takes_condition edge).bind fun value tested toTested _ _ isValue => ?_
  refine .accept (fun then_ _ _ _ => ?_) ?_
  · refine .bind (advances_statementEnd then_) fun _ body toBody _ _ => ?_
    refine .mono (branches body start value) fun found _ _ _ all sound isEdge below => ?_
    exact all (sound.of_reaches toBody) isEdge (Nat.le_trans below (sound.before_le toBody)) (isValue sound)
  · refine .bind (reads tested) fun body after toAfter _ ⟨_, all⟩ => .look rfl (.pure ?_)
    rintro sound isEdge below _ ⟨⟩
    simp only [Stmt.Sited, Tree.sitedStmts_iff]
    refine ⟨⟨Nat.le_trans below (sound.before_le toAfter), isEdge, (sound.of_reaches toAfter).before⟩, isValue sound, ?_,
      by simp⟩
    exact fun stmt member => all (sound.of_reaches toTested) stmt (Option.mem_toList.mp member)

theorem reads_statementOf : ReadsStatement edge (statementOf inner) := by
  intro cursor
  unfold statementOf
  refine .look rfl ?_
  extract_lets rest
  -- A label in front of the statement may have been passed.
  have go (first : Cursor (n + 1)) (toFirst : cursor.Reaches first) : Advances cursor (rest ()) first
      fun found after => (0 < cursor.left → after.left < cursor.left) ∧
        (cursor.Sound edge → ∀ stmt ∈ found, stmt.Sited (Span.Sound edge) Span.Inside) := by
    have := toFirst.left_le
    have single {reader : Reader (n + 1) Stmt} (takes : Advances first reader first
        (Taken edge first (Ranged edge Stmt.Sited))) :
        Advances cursor (do return some (← reader)) first fun found after =>
          (0 < cursor.left → after.left < cursor.left) ∧
            (cursor.Sound edge → ∀ stmt ∈ found, stmt.Sited (Span.Sound edge) Span.Inside) := by
      refine .bind takes fun stmt after _ _ ⟨shorter, isStmt⟩ => .pure ⟨fun _ => by omega, ?_⟩
      rintro sound _ ⟨⟩
      exact isStmt (sound.of_reaches toFirst)
    have nested {reader : Reader (n + 1) (Option Stmt)} (takes : Advances first reader first
        (Taken edge first fun found => ∀ stmt ∈ found, stmt.Sited (Span.Sound edge) Span.Inside)) :
        Advances cursor reader first fun found after => (0 < cursor.left → after.left < cursor.left) ∧
          (cursor.Sound edge → ∀ stmt ∈ found, stmt.Sited (Span.Sound edge) Span.Inside) :=
      .mono takes fun _ _ _ _ ⟨shorter, all⟩ => ⟨fun _ => by omega, fun sound => all (sound.of_reaches toFirst)⟩
    refine .look rfl ?_
    split
    · exact single (takes_assignment edge first)
    · refine .look rfl (.look rfl ?_)
      split
      · exact single (takes_call edge first)
      · exact single (takes_print edge first)
      next isNext => exact single (advances_leave edge first (Cursor.left_pos_of_lexeme (by simp [isNext])))
      next isNext =>
        exact nested ((closes_conditional reads branches).past first (Cursor.left_pos_of_lexeme (by simp [isNext])))
      next isNext => exact nested ((closes_loop reads).past first (Cursor.left_pos_of_lexeme (by simp [isNext])))
      next isNext => exact nested ((closes_associateBlock reads).past first (Cursor.left_pos_of_lexeme (by simp [isNext])))
      · refine .bind (advances_skipStatement first) fun _ after _ further passed => .pure ⟨fun isLeft => ?_, by simp⟩
        have := further.left_le
        omega
  split
  · exact .skip fun first toFirst _ _ _ => go first toFirst
  · exact go cursor (.refl cursor)

omit reads in
theorem closes_elseIf (cursor : Cursor n) (start : Nat) : Advances cursor (elseIf inner start) cursor fun body _ =>
    cursor.Sound edge → edge start → start ≤ cursor.before → ∀ stmt ∈ body, stmt.Sited (Span.Sound edge) Span.Inside := by
  unfold elseIf
  refine (takes_condition edge).bind fun value tested _ _ _ isValue => ?_
  refine .bind (advances_expectKeyword tested .then) fun _ then_ _ _ _ => ?_
  refine .bind (advances_statementEnd then_) fun _ body toBody _ _ => ?_
  refine .bind (branches body start value) fun found _ _ _ all => .pure fun sound isEdge below stmt member => ?_
  exact all (sound.of_reaches toBody) isEdge (Nat.le_trans below (sound.before_le toBody)) (isValue sound) stmt
    (Option.mem_toList.mp member)

theorem closes_branchesOf : ClosesBranches edge (branchesOf inner) := by
  intro cursor start value
  unfold branchesOf
  have statements := gives_executionOf (reads_statementOf reads branches)
  refine statements.bind fun thenBody middle toMiddle _ areThen => .look rfl ?_
  obtain ⟨isElseIf, isLook, isLeft⟩ := isAtElseIf_eq middle
  refine .look isLook ?_
  extract_lets rest ended
  have go (elseBody : List Stmt) (after : Cursor (n + 1)) (toAfter : cursor.Reaches after)
      (areElse : cursor.Sound edge → ∀ stmt ∈ elseBody, stmt.Sited (Span.Sound edge) Span.Inside) :
      Advances cursor (rest elseBody) after fun found _ => cursor.Sound edge → edge start → start ≤ cursor.before →
        value.Sited (Span.Sound edge) Span.Inside → ∀ stmt ∈ found, stmt.Sited (Span.Sound edge) Span.Inside := by
    refine .look rfl (.pure ?_)
    rintro sound isEdge below isValue _ ⟨⟩
    simp only [Stmt.Sited, Tree.sitedStmts_iff]
    exact ⟨⟨Nat.le_trans below (sound.before_le toAfter), isEdge, (sound.of_reaches toAfter).before⟩, isValue,
      areThen sound, areElse sound⟩
  have nested (next : Cursor n) (toNext : middle.Reaches next) (shorter : next.left < middle.left) :
      Advances middle (elseIf inner middle.here.start) next fun body _ =>
        middle.Sound edge → ∀ stmt ∈ body, stmt.Sited (Span.Sound edge) Span.Inside := by
    refine .mono (closes_elseIf branches next middle.here.start) fun body _ _ _ all sound => ?_
    exact all (sound.of_reaches toNext) sound.here.2.1 (sound.start_le_before toNext shorter)
  have passed := middle.left_past
  have finish (body : List Stmt) (after : Cursor (n + 1))
      (areBody : cursor.Sound edge → ∀ stmt ∈ body, stmt.Sited (Span.Sound edge) Span.Inside) :
      Advances cursor (ended body) after fun found _ => cursor.Sound edge → edge start → start ≤ cursor.before →
        value.Sited (Span.Sound edge) Span.Inside → ∀ stmt ∈ found, stmt.Sited (Span.Sound edge) Span.Inside :=
    .bind (advances_constructEnd "if" [] after) fun _ last toLast _ _ => go body last toLast areBody
  split
  next found =>
    have some := isLeft found
    have chain {reader : Reader (n + 1) (List Stmt)} (first : Advances middle reader middle fun body _ =>
        middle.Sound edge → ∀ stmt ∈ body, stmt.Sited (Span.Sound edge) Span.Inside) :=
      Advances.bind first fun body after toAfter _ all =>
        go body after toAfter fun sound => all (sound.of_reaches toMiddle)
    refine .look rfl ?_
    split
    · exact chain (.past (.skip fun next toNext _ fewer _ => nested next toNext (by omega)))
    · exact chain (.past (nested middle.past middle.reaches_past (by omega)))
  · refine .accept (fun else_ _ _ _ => ?_) (finish [] middle (by simp))
    refine .bind (advances_statementEnd else_) fun _ _ _ _ _ => ?_
    exact statements.bind fun body after _ _ areBody => finish body after areBody

end

theorem reads_entryOf (n : Nat) : ReadsStatement edge (entryOf n .statement) ∧
    ClosesBranches edge fun start value => entryOf n (.branches start value) := by
  induction n with
  | zero =>
    refine ⟨fun cursor => .pure ⟨fun isLeft => ?_, by simp⟩, fun _ _ _ => .fail⟩
    exact absurd (Nat.lt_of_lt_of_le isLeft cursor.bound) (Nat.lt_irrefl 0)
  | succ n ih => exact ⟨reads_statementOf ih.1 ih.2, closes_branchesOf ih.1 ih.2⟩

variable (edge)

theorem gives_execution : Gives edge (execution : Reader n (List Stmt)) fun body =>
    ∀ stmt ∈ body, stmt.Sited (Span.Sound edge) Span.Inside :=
  gives_executionOf (reads_entryOf n).1

end FortranInterface.Grammar
