import FortranInterface.Grammar.Expression
import FortranInterface.Proofs.Advance.Cursor
import FortranInterface.Proofs.Sites.Tree

/-!
Where expressions stand. The span of an expression reaches from the first token that was taken for it to the last one,
so it is a range of the text, and the spans of its parts stand inside it.
-/

namespace FortranInterface

namespace Tree

variable {edge : Nat → Prop} {lo lo' hi hi' middle : Nat}

def Expr.Within (edge : Nat → Prop) (lo hi : Nat) (expr : Expr) : Prop :=
  lo ≤ expr.span.start ∧ expr.span.stop ≤ hi ∧ expr.Sited (Span.Sound edge) Span.Inside

def ArgValue.Within (edge : Nat → Prop) (lo hi : Nat) : ArgValue → Prop
  | .expr value => value.Within edge lo hi
  | .label _ => True
  | .triplet lower upper stride =>
    (∀ value ∈ lower, value.Within edge lo hi) ∧ (∀ value ∈ upper, value.Within edge lo hi) ∧
      ∀ value ∈ stride, value.Within edge lo hi

def Arg.Within (edge : Nat → Prop) (lo hi : Nat) (argument : Arg) : Prop :=
  lo ≤ argument.span.start ∧ argument.span.stop ≤ hi ∧ argument.Sited (Span.Sound edge) Span.Inside

namespace Expr.Within

variable {expr left right : Expr} {span : Span}

theorem mono (within : expr.Within edge lo hi) (lower : lo' ≤ lo) (higher : hi ≤ hi') : expr.Within edge lo' hi' :=
  ⟨Nat.le_trans lower within.1, Nat.le_trans within.2.1 higher, within.2.2⟩

theorem widens : Grammar.Widens (Expr.Within edge) :=
  fun _ _ _ _ _ => mono

section

variable (within : expr.Within edge lo hi)
include within

theorem sound : expr.span.Sound edge :=
  within.2.2.span

theorem part (start : span.start ≤ lo) (stop : hi ≤ span.stop) :
    expr.span.Inside span ∧ expr.Sited (Span.Sound edge) Span.Inside :=
  ⟨⟨Nat.le_trans start within.1, Nat.le_trans within.2.1 stop⟩, within.2.2⟩

theorem first (stop : hi ≤ hi') (last : edge hi') :
    Span.Sound edge ⟨expr.span.start, hi'⟩ ∧ expr.span.Inside ⟨expr.span.start, hi'⟩ ∧
      expr.Sited (Span.Sound edge) Span.Inside := by
  have sound := within.sound
  have reach := Nat.le_trans within.2.1 stop
  exact ⟨⟨Nat.le_trans sound.1 reach, sound.2.1, last⟩, ⟨Nat.le_refl _, reach⟩, within.2.2⟩

theorem last (start : lo' ≤ lo) (first : edge lo') :
    Span.Sound edge ⟨lo', expr.span.stop⟩ ∧ expr.span.Inside ⟨lo', expr.span.stop⟩ ∧
      expr.Sited (Span.Sound edge) Span.Inside := by
  have sound := within.sound
  have reach := Nat.le_trans start within.1
  exact ⟨⟨Nat.le_trans reach sound.1, first, sound.2.2⟩, ⟨reach, Nat.le_refl _⟩, within.2.2⟩

end

theorem through (first : left.Within edge lo middle) (second : right.Within edge middle hi) :
    (left.span.through right.span).Sound edge ∧
      (left.span.Inside (left.span.through right.span) ∧ left.Sited (Span.Sound edge) Span.Inside) ∧
      right.span.Inside (left.span.through right.span) ∧ right.Sited (Span.Sound edge) Span.Inside := by
  have sound := first.sound
  have sound' := second.sound
  have order : left.span.stop ≤ right.span.start := Nat.le_trans first.2.1 second.1
  have across : left.span.start ≤ right.span.start := Nat.le_trans sound.1 order
  have across' : left.span.stop ≤ right.span.stop := Nat.le_trans order sound'.1
  exact ⟨⟨Nat.le_trans across sound'.1, sound.2.1, sound'.2.2⟩, ⟨⟨Nat.le_refl _, across'⟩, first.2.2⟩,
    ⟨across, Nat.le_refl _⟩, second.2.2⟩

end Expr.Within

theorem Arg.Within.widens : Grammar.Widens (Arg.Within edge) :=
  fun _ _ _ _ _ within lower higher => ⟨Nat.le_trans lower within.1, Nat.le_trans within.2.1 higher, within.2.2⟩

theorem Arg.within {keyword : Option String} {value : ArgValue} (within : value.Within edge lo hi)
    (sound : Span.Sound edge ⟨lo, hi⟩) : Arg.Within edge lo hi ⟨keyword, value, ⟨lo, hi⟩⟩ := by
  refine ⟨Nat.le_refl _, Nat.le_refl _, ?_⟩
  have bound (part : Option Expr) (all : ∀ value ∈ part, value.Within edge lo hi) :
      SitedBound (Span.Sound edge) Span.Inside ⟨lo, hi⟩ part :=
    sitedBound_iff.mpr fun value member => (all value member).part (Nat.le_refl _) (Nat.le_refl _)
  cases value with
  | expr value =>
    simp only [Arg.Sited]
    exact ⟨sound, within.part (Nat.le_refl _) (Nat.le_refl _)⟩
  | label =>
    simp only [Arg.Sited]
    exact sound
  | triplet lower upper stride =>
    simp only [Arg.Sited]
    exact ⟨sound, bound _ within.1, bound _ within.2.1, bound _ within.2.2⟩

end Tree

namespace Grammar

open FortranInterface.Tree (Arg ArgValue BinaryOp UnaryOp)

variable {n : Nat} {edge : Nat → Prop}

/-- The reader takes tokens, and gives an expression that is written with just these. -/
def Spans (edge : Nat → Prop) (reader : Reader n Tree.Expr) : Prop :=
  ∀ cursor, Advances cursor reader cursor fun expr after =>
    after.left < cursor.left ∧ (cursor.Sound edge → expr.Within edge cursor.here.start after.before)

def Joins (edge : Nat → Prop) (join : Join) : Prop :=
  ∀ {left right : Tree.Expr} {lo middle hi : Nat}, left.Within edge lo middle → right.Within edge middle hi →
    (join left right).Within edge lo hi

theorem joins_binary (op : BinaryOp) : Joins edge (binary op) := by
  intro left right lo middle hi first second
  refine ⟨first.1, second.2.1, ?_⟩
  simp only [binary, Tree.Expr.Sited]
  exact first.through second

def AllJoin (edge : Nat → Prop) (join? : Lexeme → Option Join) : Prop :=
  ∀ lexeme join, join? lexeme = some join → Joins edge join

theorem allJoin_defined : AllJoin edge definedJoin? := by
  intro lexeme join isJoin left right lo middle hi first second
  unfold definedJoin? at isJoin
  split at isJoin
  · obtain rfl := Option.some.inj isJoin
    refine ⟨first.1, second.2.1, ?_⟩
    simp only [Tree.Expr.Sited]
    exact first.through second
  · cases isJoin

variable {join? : Lexeme → Option Join}

theorem allJoin_of_binary (binaries : ∀ lexeme join, join? lexeme = some join → ∃ op, join = binary op) :
    AllJoin edge join? := by
  intro lexeme join isJoin
  obtain ⟨op, rfl⟩ := binaries lexeme join isJoin
  exact joins_binary op

theorem allJoin_equivalence : AllJoin edge equivalenceJoin? := by
  refine allJoin_of_binary fun lexeme join isJoin => ?_
  unfold equivalenceJoin? at isJoin
  split at isJoin <;> cases isJoin <;> exact ⟨_, rfl⟩

theorem allJoin_disjunction : AllJoin edge disjunctionJoin? := by
  refine allJoin_of_binary fun lexeme join isJoin => ?_
  unfold disjunctionJoin? at isJoin
  split at isJoin
  · obtain rfl := Option.some.inj isJoin
    exact ⟨_, rfl⟩
  · cases isJoin

theorem allJoin_conjunction : AllJoin edge conjunctionJoin? := by
  refine allJoin_of_binary fun lexeme join isJoin => ?_
  unfold conjunctionJoin? at isJoin
  split at isJoin
  · obtain rfl := Option.some.inj isJoin
    exact ⟨_, rfl⟩
  · cases isJoin

theorem allJoin_relation : AllJoin edge relationJoin? := by
  refine allJoin_of_binary fun lexeme join isJoin => ?_
  unfold relationJoin? at isJoin
  split at isJoin <;> cases isJoin <;> exact ⟨_, rfl⟩

theorem allJoin_concatenation : AllJoin edge concatenationJoin? := by
  refine allJoin_of_binary fun lexeme join isJoin => ?_
  unfold concatenationJoin? at isJoin
  split at isJoin
  · obtain rfl := Option.some.inj isJoin
    exact ⟨_, rfl⟩
  · cases isJoin

theorem allJoin_sum : AllJoin edge sumJoin? := by
  refine allJoin_of_binary fun lexeme join isJoin => ?_
  unfold sumJoin? at isJoin
  split at isJoin <;> cases isJoin <;> exact ⟨_, rfl⟩

theorem allJoin_product : AllJoin edge productJoin? := by
  refine allJoin_of_binary fun lexeme join isJoin => ?_
  unfold productJoin? at isJoin
  split at isJoin <;> cases isJoin <;> exact ⟨_, rfl⟩

/-! Layers. -/

variable {operand : Reader n Tree.Expr}

theorem advances_joinedWithin (spans : Spans edge operand) (joins : AllJoin edge join?) (turns : Nat)
    (left : Tree.Expr) (cursor : Cursor n) :
    Advances cursor (joinedWithin operand join? turns left) cursor fun expr after =>
      cursor.Sound edge → ∀ lo, left.Within edge lo cursor.before → expr.Within edge lo after.before := by
  induction turns generalizing left cursor with
  | zero => exact .pure fun _ _ within => within
  | succ turns ih =>
    refine .look rfl ?_
    split
    next join isJoin =>
      obtain ⟨lexeme, -, isJoin⟩ := Option.bind_eq_some_iff.mp isJoin
      refine .skip fun middle reaches _ _ _ => ?_
      refine .bind (spans middle) fun right after reached _ ⟨_, isRight⟩ => ?_
      refine .mono (ih (join left right) after) fun expr last _ _ isExpr sound lo isLeft => ?_
      have soundMiddle := sound.of_reaches reaches
      have order := Nat.le_trans (sound.before_le reaches) soundMiddle.before_le_start
      refine isExpr (sound.of_reaches reached) lo (joins lexeme join isJoin isLeft ?_)
      exact (isRight soundMiddle).mono order (Nat.le_refl _)
    · exact .pure fun _ _ within => within

theorem spans_joined (spans : Spans edge operand) (joins : AllJoin edge join?) : Spans edge (joined operand join?) := by
  intro cursor
  refine .bind (spans cursor) fun first middle reaches _ ⟨shorter, isFirst⟩ => .look rfl ?_
  refine .mono (advances_joinedWithin spans joins _ first middle) fun expr after _ further isExpr => ?_
  refine ⟨Nat.lt_of_le_of_lt further.left_le shorter, fun sound => ?_⟩
  exact isExpr (sound.of_reaches reaches) _ (isFirst sound)

theorem spans_expressionOf {negation : Reader n Tree.Expr} (spans : Spans edge negation) :
    Spans edge (expressionOf negation) :=
  spans_joined (spans_joined (spans_joined (spans_joined spans allJoin_conjunction) allJoin_disjunction)
    allJoin_equivalence) allJoin_defined

theorem spans_relationOf {sum : Reader n Tree.Expr} (spans : Spans edge sum) : Spans edge (relationOf sum) := by
  intro cursor
  have operand : Spans edge (joined sum concatenationJoin?) := spans_joined spans allJoin_concatenation
  refine .bind (operand cursor) fun left middle reaches _ ⟨shorter, isLeft⟩ => .look rfl ?_
  split
  next join isJoin =>
    obtain ⟨lexeme, -, isJoin⟩ := Option.bind_eq_some_iff.mp isJoin
    refine .skip fun behind reachesBehind fromMiddle _ _ => ?_
    refine .bind (operand behind) fun right after _ further ⟨_, isRight⟩ => .pure ?_
    have := fromMiddle.left_le
    have := further.left_le
    refine ⟨by omega, fun sound => ?_⟩
    have soundMiddle := sound.of_reaches reaches
    have soundBehind := sound.of_reaches reachesBehind
    have order := Nat.le_trans (soundMiddle.before_le fromMiddle) soundBehind.before_le_start
    exact allJoin_relation lexeme join isJoin (isLeft sound) ((isRight soundBehind).mono order (Nat.le_refl _))
  · exact .pure ⟨shorter, isLeft⟩

theorem spans_sumOf {power : Reader n Tree.Expr} (spans : Spans edge power) : Spans edge (sumOf power) := by
  intro cursor
  have term : Spans edge (joined power productJoin?) := spans_joined spans allJoin_product
  refine .look rfl (.look rfl ?_)
  split
  next sign isSign =>
    refine .skip fun behind reaches _ _ _ => ?_
    refine .bind (term behind) fun first middle reached _ ⟨shorter, isFirst⟩ => .look rfl ?_
    refine .mono (advances_joinedWithin term allJoin_sum _ _ middle) fun expr after _ further isExpr => ?_
    have := reaches.left_le
    have := further.left_le
    refine ⟨by omega, fun sound => isExpr (sound.of_reaches reached) _ ?_⟩
    have isFirst := isFirst (sound.of_reaches reaches)
    refine ⟨Nat.le_refl _, isFirst.2.1, ?_⟩
    simp only [Tree.Expr.Sited]
    exact isFirst.last (sound.start_le_start reaches) sound.here.2.1
  · exact spans_joined term allJoin_sum cursor

/-! Arguments. -/

theorem advances_label (cursor : Cursor n) :
    Advances cursor label cursor fun value after => after.left < cursor.left ∧ ∀ lo hi, value.Within edge lo hi := by
  unfold label
  refine .look rfl ?_
  split
  · exact .fail_bind
  next isSecond =>
    have some : 0 < cursor.left := by
      rw [Cursor.left, List.length_pos_iff]
      intro none
      simp [none] at isSecond
    refine .skip fun middle _ _ passed _ => .look rfl ?_
    split
    · refine .skip fun after _ _ further _ => .pure ⟨by omega, fun _ _ => trivial⟩
    · exact .fail

theorem within_of_reaches {cursor opened closed after : Cursor n} {value : Tree.Expr} {lo : Nat}
    (isValue : opened.Sound edge → value.Within edge opened.here.start closed.before) (sound : cursor.Sound edge)
    (below : lo ≤ cursor.here.start) (reaches : cursor.Reaches opened) (reached : cursor.Reaches closed)
    (further : closed.Reaches after) : value.Within edge lo after.before :=
  (isValue (sound.of_reaches reaches)).mono (Nat.le_trans below (sound.start_le_start reaches))
    ((sound.of_reaches reached).before_le further)

variable {expr : Reader n Tree.Expr}

theorem advances_triplet (spans : Spans edge expr) (lower : Option Tree.Expr) (cursor : Cursor n) :
    Advances cursor (triplet expr lower) cursor fun value after => after.left < cursor.left ∧
      (cursor.Sound edge → ∀ lo ≤ cursor.here.start, (∀ bound ∈ lower, bound.Within edge lo cursor.before) →
        value.Within edge lo after.before) := by
  unfold triplet
  refine .bind (advances_expectMark cursor .colon) fun _ opened reaches _ shorter => ?_
  refine .look rfl ?_
  extract_lets rest
  refine .join rest (fun upper middle reached further
    (isUpper : ∀ value ∈ upper, opened.Sound edge → value.Within edge opened.here.start middle.before) => ?_) ?_
  · have := further.left_le
    refine .accept (fun colon toColon fromMiddle _ => ?_) (.pure ⟨by omega, fun sound lo below isLower => ?_⟩)
    · refine .bind (spans colon) fun stride after toAfter fromColon ⟨_, isStride⟩ => .pure ⟨by omega, ?_⟩
      intro sound lo below isLower
      refine ⟨fun value member => ?_, fun value member => ?_, ?_⟩
      · exact (isLower value member).mono (Nat.le_refl _) (sound.before_le toAfter)
      · exact within_of_reaches (isUpper value member) sound below reaches reached (fromMiddle.trans fromColon)
      · rintro _ ⟨⟩
        exact within_of_reaches isStride sound below toColon toAfter (.refl _)
    · refine ⟨fun value member => ?_, fun value member => ?_, by simp⟩
      · exact (isLower value member).mono (Nat.le_refl _) (sound.before_le reached)
      · exact within_of_reaches (isUpper value member) sound below reaches reached (.refl _)
  · intro go
    split
    · exact .bind (.pure (by simp)) go
    · exact .bind (.pure (by simp)) go
    · exact .bind (.pure (by simp)) go
    · refine .bind (.map (spans opened) fun value after _ _ ⟨_, isValue⟩ => ?_) go
      rintro _ ⟨⟩
      exact isValue

theorem advances_argumentValue (spans : Spans edge expr) (cursor : Cursor n) :
    Advances cursor (argumentValue expr) cursor fun value after => after.left < cursor.left ∧
      (cursor.Sound edge → ∀ lo ≤ cursor.here.start, value.Within edge lo after.before) := by
  unfold argumentValue
  refine .look rfl ?_
  split
  · exact .mono (advances_label cursor) fun _ _ _ _ ⟨shorter, isLabel⟩ => ⟨shorter, fun _ lo _ => isLabel lo _⟩
  · refine .look rfl ?_
    split
    · refine .mono (advances_triplet spans none cursor) fun _ _ _ _ ⟨shorter, isTriplet⟩ => ⟨shorter, ?_⟩
      exact fun sound lo below => isTriplet sound lo below (by simp)
    · refine .bind (spans cursor) fun value middle reaches _ ⟨shorter, isValue⟩ => .look rfl ?_
      have isValue (sound : cursor.Sound edge) (lo : Nat) (below : lo ≤ cursor.here.start) :
          value.Within edge lo middle.before :=
        within_of_reaches isValue sound below (.refl _) reaches (.refl _)
      split
      · refine .mono (advances_triplet spans (some value) middle) fun _ _ _ further ⟨_, isTriplet⟩ => ⟨by omega, ?_⟩
        intro sound lo below
        refine isTriplet (sound.of_reaches reaches) lo (Nat.le_trans below (sound.start_le_start reaches)) ?_
        rintro _ ⟨⟩
        exact isValue sound lo below
      · exact .pure ⟨shorter, isValue⟩

theorem advances_keyword? (cursor : Cursor n) : Advances cursor keyword? cursor fun _ _ => True := by
  unfold keyword?
  refine .look rfl (.look rfl ?_)
  split
  · exact .skip fun _ _ _ _ _ => .skip fun _ _ _ _ _ => .pure trivial
  · exact .pure trivial

theorem advances_argument (spans : Spans edge expr) (cursor : Cursor n) :
    Advances cursor (argument expr) cursor fun value after => after.left < cursor.left ∧
      (cursor.Sound edge → value.Within edge cursor.here.start after.before) := by
  unfold argument
  refine .look rfl (.bind (advances_keyword? cursor) fun _ middle reaches _ _ => ?_)
  refine .bind (advances_argumentValue spans middle) fun value after reached _ ⟨shorter, isValue⟩ => .look rfl (.pure ?_)
  have shorter : after.left < cursor.left := Nat.lt_of_lt_of_le shorter reaches.left_le
  refine ⟨shorter, fun sound => Tree.Arg.within ?_ (sound.span reached shorter)⟩
  exact isValue (sound.of_reaches reaches) _ (sound.start_le_start reaches)

theorem advances_argumentsOf (spans : Spans edge expr) (cursor : Cursor (n + 1)) :
    Advances cursor (argumentsOf expr) cursor fun values after => after.left < cursor.left ∧
      (cursor.Sound edge → ∀ value ∈ values, value.Within edge cursor.here.start after.before) := by
  unfold argumentsOf
  refine .look rfl ?_
  split
  next isNext =>
    have some : 0 < cursor.left := Cursor.left_pos_of_lexeme (by simp [of_decide_eq_true isNext])
    have passed := cursor.left_past
    refine .past (.accept (fun after _ fromPast shorter => .pure ⟨?_, by simp⟩) ?_)
    · change after.left < cursor.left
      omega
    · refine .bind (advances_separated Arg.Within.widens (advances_argument spans) cursor.past) ?_
      intro values middle toMiddle fromPast ⟨shorter, all⟩
      refine .bind (advances_expectMark middle .rightParen) fun _ after toAfter further _ => .pure ⟨?_, fun sound value member => ?_⟩
      · change after.left < cursor.left
        omega
      · have start := sound.start_le_start cursor.reaches_past
        have stop := (sound.of_reaches toMiddle).before_le further
        exact Arg.Within.widens (all (sound.of_reaches cursor.reaches_past) value member) start stop
  · exact .fail

/-! Operands. -/

theorem advances_imageSelectorWithin (turns : Nat) (cursor : Cursor n) :
    Advances cursor (imageSelectorWithin turns) cursor fun _ _ => True := by
  induction turns generalizing cursor with
  | zero => exact .fail
  | succ turns ih =>
    refine .accept (fun _ _ _ _ => .pure trivial) (.look (isAtStatementEnd_eq cursor) ?_)
    split
    · exact .fail_bind
    · exact .skip fun after _ _ _ _ => (ih after).forward

theorem advances_imageSelector (cursor : Cursor n) : Advances cursor imageSelector cursor fun _ _ => True :=
  .look rfl (advances_imageSelectorWithin _ cursor)

section

variable {arguments : Reader n (List Arg)}
  (lists : ∀ cursor, Advances cursor arguments cursor fun values after => after.left < cursor.left ∧
    (cursor.Sound edge → ∀ value ∈ values, value.Within edge cursor.here.start after.before))
include lists

theorem advances_selectedWithin (turns : Nat) (base : Tree.Expr) (cursor : Cursor n) :
    Advances cursor (selectedWithin arguments turns base) cursor fun expr after =>
      cursor.Sound edge → ∀ lo, base.Within edge lo cursor.before → expr.Within edge lo after.before := by
  induction turns generalizing base cursor with
  | zero => exact .pure fun _ _ within => within
  | succ turns ih =>
    -- What follows the base begins with the base and ends where the cursor has come to.
    have first (middle : Cursor n) (reaches : cursor.Reaches middle) (sound : cursor.Sound edge) (lo : Nat)
        (isBase : base.Within edge lo cursor.before) :=
      isBase.first (sound.before_le reaches) (sound.of_reaches reaches).before
    unfold selectedWithin
    refine .look rfl ?_
    split
    · split
      · refine .bind (lists cursor) fun values middle reaches _ ⟨_, all⟩ => .look rfl ?_
        refine .mono (ih _ middle) fun expr after _ _ isExpr sound lo isBase => ?_
        refine isExpr (sound.of_reaches reaches) lo ⟨isBase.1, Nat.le_refl _, ?_⟩
        obtain ⟨isSite, isPart⟩ := first middle reaches sound lo isBase
        have order : base.span.start ≤ cursor.here.start :=
          Nat.le_trans isBase.sound.1 (Nat.le_trans isBase.2.1 sound.before_le_start)
        simp only [Tree.Expr.Sited]
        refine ⟨isSite, isPart, Tree.sitedArgs_iff.mpr fun value member => ?_⟩
        obtain ⟨start, stop, sited⟩ := all sound value member
        exact ⟨⟨Nat.le_trans order start, stop⟩, sited⟩
      · exact .pure fun _ _ within => within
    · refine .skip fun percent _ _ _ _ => ?_
      refine .bind (advances_name percent) fun component middle reaches _ _ => .look rfl ?_
      refine .mono (ih _ middle) fun expr after _ _ isExpr sound lo isBase => ?_
      refine isExpr (sound.of_reaches reaches) lo ⟨isBase.1, Nat.le_refl _, ?_⟩
      simp only [Tree.Expr.Sited]
      exact first middle reaches sound lo isBase
    · refine .skip fun bracket _ _ _ _ => ?_
      refine .bind (advances_imageSelector bracket) fun _ middle reaches _ _ => .look rfl ?_
      refine .mono (ih _ middle) fun expr after _ _ isExpr sound lo isBase => ?_
      refine isExpr (sound.of_reaches reaches) lo ⟨isBase.1, Nat.le_refl _, ?_⟩
      simp only [Tree.Expr.Sited]
      exact first middle reaches sound lo isBase
    · exact .pure fun _ _ within => within

theorem spans_selected {base : Reader n Tree.Expr} (spans : Spans edge base) :
    Spans edge (selected arguments base) := by
  intro cursor
  refine .bind (spans cursor) fun first middle reaches _ ⟨shorter, isFirst⟩ => .look rfl ?_
  refine .mono (advances_selectedWithin lists _ first middle) fun expr after _ further isExpr => ?_
  refine ⟨Nat.lt_of_le_of_lt further.left_le shorter, fun sound => ?_⟩
  exact isExpr (sound.of_reaches reaches) _ (isFirst sound)

end

/-- Something in brackets is read behind a token that opens it. -/
def Closes (edge : Nat → Prop) (reader : Nat → Reader n Tree.Expr) : Prop :=
  ∀ cursor start, Advances cursor (reader start) cursor fun expr after =>
    cursor.Sound edge → edge start → start ≤ cursor.before → expr.Within edge start after.before

theorem closes_parenthesized (spans : Spans edge expr) : Closes edge (parenthesized expr) := by
  intro cursor start
  unfold parenthesized
  refine .bind (spans cursor) fun first middle reaches _ ⟨_, isFirst⟩ => ?_
  have part (after : Cursor n) (further : middle.Reaches after) (sound : cursor.Sound edge) (below : start ≤ cursor.before) :
      first.Within edge start after.before :=
    within_of_reaches isFirst sound (Nat.le_trans below sound.before_le_start) (.refl _) reaches further
  have span (after : Cursor n) (reached : cursor.Reaches after) (sound : cursor.Sound edge) (isEdge : edge start)
      (below : start ≤ cursor.before) : Span.Sound edge ⟨start, after.before⟩ :=
    ⟨Nat.le_trans below (sound.before_le reached), isEdge, (sound.of_reaches reached).before⟩
  refine .accept (fun comma toComma fromMiddle _ => ?_) ?_
  · refine .bind (spans comma) fun second closing toClosing fromComma ⟨_, isSecond⟩ => ?_
    refine .bind (advances_expectMark closing .rightParen) fun _ after reached fromClosing _ => .look rfl (.pure ?_)
    intro sound isEdge below
    refine ⟨Nat.le_refl _, Nat.le_refl _, ?_⟩
    simp only [Tree.Expr.Sited]
    refine ⟨span after reached sound isEdge below, ?_, ?_⟩
    · have isPart := part after (fromMiddle.trans (fromComma.trans fromClosing)) sound below
      exact isPart.part (Nat.le_refl _) (Nat.le_refl _)
    · have isPart := within_of_reaches isSecond sound (Nat.le_trans below sound.before_le_start) toComma toClosing fromClosing
      exact isPart.part (Nat.le_refl _) (Nat.le_refl _)
  · refine .bind (advances_expectMark middle .rightParen) fun _ after reached further _ => .look rfl (.pure ?_)
    intro sound isEdge below
    refine ⟨Nat.le_refl _, Nat.le_refl _, ?_⟩
    simp only [Tree.Expr.Sited]
    exact ⟨span after reached sound isEdge below, (part after further sound below).part (Nat.le_refl _) (Nat.le_refl _)⟩

theorem closes_arrayConstructor (spans : Spans edge expr) : Closes edge (arrayConstructor expr) := by
  intro cursor start
  unfold arrayConstructor
  refine .look rfl ?_
  extract_lets rest
  refine .join rest (fun values middle reaches _
    (all : cursor.Sound edge → ∀ value ∈ values, value.Within edge cursor.here.start middle.before) => ?_) fun go => ?_
  · refine .bind (advances_expectMark middle .rightBracket) fun _ after reached further _ => .look rfl (.pure ?_)
    intro sound isEdge below
    refine ⟨Nat.le_refl _, Nat.le_refl _, ?_⟩
    simp only [Tree.Expr.Sited]
    refine ⟨⟨Nat.le_trans below (sound.before_le reached), isEdge, (sound.of_reaches reached).before⟩, ?_⟩
    refine Tree.sitedExprs_iff.mpr fun value member => (all sound value member).part ?_ ?_
    · exact Nat.le_trans below sound.before_le_start
    · exact (sound.of_reaches reaches).before_le further
  · split
    · exact .bind (.pure (by simp)) go
    · refine .bind (.mono (advances_separated Tree.Expr.Within.widens spans cursor) ?_) go
      exact fun _ _ _ _ both => both.2

theorem atom_sited {lexeme : Lexeme} {atom : Span → Tree.Expr} (isAtom : atom? lexeme = some atom)
    {site : Span → Prop} (inside : Span → Span → Prop) {span : Span} (holds : site span) :
    (atom span).span = span ∧ (atom span).Sited site inside := by
  unfold atom? at isAtom
  split at isAtom
  case h_6 =>
    obtain ⟨word, -, rfl⟩ := Option.map_eq_some_iff.mp isAtom
    exact ⟨rfl, by simpa only [Tree.Expr.Sited] using holds⟩
  all_goals
    obtain rfl := Option.some.inj isAtom
    exact ⟨rfl, by simpa only [Tree.Expr.Sited] using holds⟩

theorem spans_past {reader : Nat → Reader n Tree.Expr} (closes : Closes edge reader) (cursor : Cursor (n + 1))
    (some : 0 < cursor.left) :
    Advances cursor (past (reader cursor.here.start)) cursor fun expr after =>
      after.left < cursor.left ∧ (cursor.Sound edge → expr.Within edge cursor.here.start after.before) := by
  have passed := cursor.left_past
  refine .past (.mono (closes cursor.past cursor.here.start) fun expr after _ further isExpr => ⟨?_, fun sound => ?_⟩)
  · change after.left < cursor.left
    have := further.left_le
    omega
  · exact isExpr (sound.of_reaches cursor.reaches_past) sound.here.2.1
      (sound.start_le_before cursor.reaches_past (by omega))

theorem spans_primaryOf (spans : Spans edge expr) : Spans edge (primaryOf expr) := by
  intro cursor
  unfold primaryOf
  refine .look rfl (.look rfl ?_)
  split
  next isNext => exact spans_past (closes_parenthesized spans) cursor (Cursor.left_pos_of_lexeme (by simp [isNext]))
  next isNext => exact spans_past (closes_arrayConstructor spans) cursor (Cursor.left_pos_of_lexeme (by simp [isNext]))
  · split
    next atom isAtom =>
      obtain ⟨lexeme, isNext, isAtom⟩ := Option.bind_eq_some_iff.mp isAtom
      have some : 0 < cursor.left := Cursor.left_pos_of_lexeme (by simp [isNext])
      refine .skip fun after reaches _ passed _ => .look rfl (.pure ⟨by omega, fun sound => ?_⟩)
      obtain ⟨isSpan, sited⟩ := atom_sited isAtom Span.Inside (sound.span reaches (by omega))
      exact ⟨Nat.le_of_eq (by rw [isSpan]), Nat.le_of_eq (by rw [isSpan]), sited⟩
    · exact .fail

theorem closes_unary (spans : Spans edge operand) (operation : Tree.Expr → Span → Tree.Expr)
    (isSpan : ∀ expr span, (operation expr span).span = span)
    (isSited : ∀ expr span, (operation expr span).Sited (Span.Sound edge) Span.Inside ↔
      span.Sound edge ∧ expr.span.Inside span ∧ expr.Sited (Span.Sound edge) Span.Inside) :
    Closes edge fun start => do
      let expr ← operand
      return operation expr ⟨start, expr.span.stop⟩ := by
  intro cursor start
  refine .bind (spans cursor) fun expr after _ _ ⟨_, isExpr⟩ => .pure fun sound isEdge below => ?_
  have isExpr := isExpr sound
  refine ⟨Nat.le_of_eq (by rw [isSpan]), by rw [isSpan]; exact isExpr.2.1, (isSited _ _).mpr ?_⟩
  exact isExpr.last (Nat.le_trans below sound.before_le_start) isEdge

/-! The recursion. -/

section

variable {inner : Layer → Reader n Tree.Expr} (spans : ∀ entry, Spans edge (inner entry))
include spans

theorem spans_designatorOf : Spans edge (designatorOf inner) :=
  spans_selected (advances_argumentsOf (spans .expression)) (spans_primaryOf (spans .expression))

theorem spans_operandOf : Spans edge (operandOf inner) := by
  intro cursor
  unfold operandOf
  refine .look rfl ?_
  split
  next op isNext =>
    have some : 0 < cursor.left := Cursor.left_pos_of_lexeme (by simp [isNext])
    have closes := closes_unary (spans .operand) (.definedUnary op) (fun _ _ => rfl) fun _ _ => by
      simp only [Tree.Expr.Sited]
    exact .look rfl (spans_past closes cursor some)
  · exact spans_designatorOf spans cursor

theorem spans_powerOf : Spans edge (powerOf inner) := by
  intro cursor
  unfold powerOf
  refine .bind (spans_operandOf spans cursor) fun base middle reaches _ ⟨shorter, isBase⟩ => .look rfl ?_
  split
  · refine .past (.look rfl ?_)
    extract_lets rest
    have exponent (entry : Layer) : Advances middle (inner entry >>= rest) middle.past fun expr after =>
        after.widen.left < cursor.left ∧ (cursor.Sound edge → expr.Within edge cursor.here.start after.widen.before) := by
      refine .bind (spans entry middle.past) fun expr after toAfter _ ⟨_, isExpr⟩ => .pure ⟨?_, fun sound => ?_⟩
      · change after.left < cursor.left
        exact Nat.lt_of_le_of_lt toAfter.left_le shorter
      · have soundMiddle := sound.of_reaches reaches
        have soundPast := soundMiddle.of_reaches middle.reaches_past
        have order := Nat.le_trans (soundMiddle.before_le middle.reaches_past) soundPast.before_le_start
        exact joins_binary .power (isBase sound) ((isExpr soundPast).mono order (Nat.le_refl _))
    split
    · exact exponent .sum
    · exact exponent .power
  · exact .pure ⟨shorter, isBase⟩

theorem spans_negationOf : Spans edge (negationOf inner) := by
  intro cursor
  unfold negationOf
  refine .look rfl ?_
  split
  next isNext =>
    have some : 0 < cursor.left := Cursor.left_pos_of_lexeme (by simp [of_decide_eq_true isNext])
    have closes := closes_unary (spans .negation) (.unary .not) (fun _ _ => rfl) fun _ _ => by
      simp only [Tree.Expr.Sited]
    exact .look rfl (spans_past closes cursor some)
  · exact spans_relationOf (spans_sumOf (spans_powerOf spans)) cursor

theorem spans_layer (entry : Layer) : Spans edge (layer inner entry) := by
  cases entry with
  | expression => exact spans_expressionOf (spans_negationOf spans)
  | negation => exact spans_negationOf spans
  | sum => exact spans_sumOf (spans_powerOf spans)
  | power => exact spans_powerOf spans
  | operand => exact spans_operandOf spans
  | designator => exact spans_designatorOf spans
  | primary => exact spans_primaryOf (spans .expression)

end

theorem spans_layerOf (n : Nat) (entry : Layer) : Spans edge (layerOf n entry) := by
  induction n generalizing entry with
  | zero => exact fun _ => .fail
  | succ n ih => exact spans_layer ih entry

theorem spans_expression : Spans edge (expression : Reader n Tree.Expr) :=
  spans_layerOf n .expression

theorem spans_designator : Spans edge (designator : Reader n Tree.Expr) :=
  spans_layerOf n .designator

theorem spans_primary : Spans edge (primary : Reader n Tree.Expr) :=
  spans_layerOf n .primary

theorem advances_arguments (cursor : Cursor n) :
    Advances cursor arguments cursor fun values after => after.left < cursor.left ∧
      (cursor.Sound edge → ∀ value ∈ values, value.Within edge cursor.here.start after.before) := by
  cases n with
  | zero => exact .fail
  | succ n => exact advances_argumentsOf spans_expression cursor

end Grammar

end FortranInterface
