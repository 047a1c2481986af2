import FortranInterface.Grammar.Declaration
import FortranInterface.Proofs.Advance.Expression

/-!
Readers of declarations go forward, and the spans of what they give are ranges of the text.
-/

namespace FortranInterface.Grammar

open FortranInterface.Tree

variable {n : Nat} {α β : Type} {edge : Nat → Prop}

/-- From a sound cursor the reader gives something with a property. -/
def Gives (edge : Nat → Prop) (reader : Reader n α) (good : α → Prop) : Prop :=
  ∀ cursor, Advances cursor reader cursor fun value _ => cursor.Sound edge → good value

/-- The reader takes a token at least, and from a sound cursor it gives something with a property. -/
def Takes (edge : Nat → Prop) (reader : Reader n α) (good : α → Prop) : Prop :=
  ∀ cursor, Advances cursor reader cursor fun value after =>
    after.left < cursor.left ∧ (cursor.Sound edge → good value)

abbrev Taken {m : Nat} (edge : Nat → Prop) (origin : Cursor m) (good : α → Prop) (value : α) (after : Cursor n) : Prop :=
  after.left < origin.left ∧ (origin.Sound edge → good value)

/-- The spans in a tree are ranges of the text, and those of its parts stand inside. -/
abbrev Ranged (edge : Nat → Prop) (sited : (Span → Prop) → (Span → Span → Prop) → α → Prop) : α → Prop :=
  sited (Span.Sound edge) Span.Inside

section

variable {m : Nat} {reader : Reader n α} {good : α → Prop} {next : α → Reader n β} {origin : Cursor m}
  {cursor : Cursor n} {post : β → Cursor n → Prop}

theorem Gives.bind (gives : Gives edge reader good)
    (second : ∀ value after, origin.Reaches after → cursor.Reaches after → (origin.Sound edge → good value) →
      Advances origin (next value) after post) : Advances origin (reader >>= next) cursor post := by
  intro reaches
  refine Advances.bind (gives cursor) (fun value after toAfter further isGood => ?_) reaches
  exact second value after toAfter further fun sound => isGood (sound.of_reaches reaches)

theorem Takes.bind (takes : Takes edge reader good)
    (second : ∀ value after, origin.Reaches after → cursor.Reaches after → after.left < cursor.left →
      (origin.Sound edge → good value) → Advances origin (next value) after post) :
    Advances origin (reader >>= next) cursor post := by
  intro reaches
  refine Advances.bind (takes cursor) (fun value after toAfter further ⟨shorter, isGood⟩ => ?_) reaches
  exact second value after toAfter further shorter fun sound => isGood (sound.of_reaches reaches)

theorem Takes.last (takes : Takes edge reader good) : Advances origin reader cursor (Taken edge origin good) := by
  intro reaches
  refine Advances.mono (takes cursor) (fun value after _ _ ⟨shorter, isGood⟩ => ⟨?_, fun sound => ?_⟩) reaches
  · exact Nat.lt_of_lt_of_le shorter reaches.left_le
  · exact isGood (sound.of_reaches reaches)

theorem Gives.optional (gives : Gives edge reader good) {lexeme : Lexeme} {rest : Option α → Reader n β}
    (second : ∀ found after, origin.Reaches after → cursor.Reaches after →
      (origin.Sound edge → ∀ value ∈ found, good value) → Advances origin (rest found) after post) :
    Advances origin (do
      let found ← if ← accept lexeme then some <$> reader else pure none
      rest found) cursor post := by
  refine .accept (fun opened _ fromCursor _ => ?_) ?_
  · have found : Advances opened (some <$> reader) opened fun found _ => opened.Sound edge → ∀ value ∈ found, good value :=
      .map (gives opened) fun value _ _ _ isGood sound _ isSome => Option.some.inj isSome ▸ isGood sound
    intro reaches
    refine Advances.bind found (fun found after toAfter further all => ?_) reaches
    exact second found after toAfter (fromCursor.trans further) fun sound => all (sound.of_reaches reaches)
  · intro reaches
    exact second none cursor reaches (.refl _) (by simp) reaches

theorem Advances.closed {good : β → Prop} {tree : Span → β} {origin : Cursor n} (shorter : cursor.left < origin.left)
    (isGood : origin.Sound edge → Span.Sound edge ⟨origin.here.start, cursor.before⟩ →
      good (tree ⟨origin.here.start, cursor.before⟩)) :
    Advances origin (do let span ← spanFrom origin.here.start; statementEnd; return tree span) cursor
      (Taken edge origin good) := by
  intro reaches
  refine Advances.look rfl (.bind (advances_statementEnd cursor) fun _ after _ further _ => .pure ⟨?_, fun sound => ?_⟩) reaches
  · have := further.left_le
    omega
  · exact isGood sound (sound.span reaches shorter)

theorem Takes.gives (takes : Takes edge reader good) : Gives edge reader good :=
  fun cursor => .mono (takes cursor) fun _ _ _ _ both => both.2

end

variable {reader : Reader n α} {good : α → Prop}

theorem Takes.map (takes : Takes edge reader good) {function : α → β}
    {other : β → Prop} (implies : ∀ value, good value → other (function value)) :
    Takes edge (function <$> reader) other :=
  fun cursor => .map (takes cursor) fun value _ _ _ both => ⟨both.1, fun sound => implies value (both.2 sound)⟩

theorem takes_separated {item : Reader n α} (takes : Takes edge item good) :
    Takes edge (separated item) fun values => ∀ value ∈ values, good value :=
  have widens : Widens fun _ _ => good := fun _ _ _ _ _ holds _ _ => holds
  advances_separated widens takes

theorem gives_afterCommas {item : Reader n α} (gives : Gives edge item good) :
    Gives edge (afterCommas item) fun values => ∀ value ∈ values, good value :=
  have widens : Widens fun _ _ => good := fun _ _ _ _ _ holds _ _ => holds
  advances_afterCommas widens gives

def Items (edge : Nat → Prop) (item : Reader n (Option (List α))) (good : α → Prop) : Prop :=
  ∀ cursor, Advances cursor item cursor fun found after => (found.isSome = true → after.left < cursor.left) ∧
    (cursor.Sound edge → ∀ values ∈ found, ∀ value ∈ values, good value)

theorem Items.many {item : Reader n (Option (List α))} (items : Items edge item good) :
    Gives edge (many item) fun values => ∀ value ∈ values, good value := by
  intro cursor
  have goods (next : Cursor n) (reaches : cursor.Reaches next) : Advances next item next fun found _ =>
      ∀ values ∈ found, ∀ value ∈ values, cursor.Sound edge → good value :=
    .mono (items next) fun _ _ _ _ ⟨_, all⟩ values isFound value member sound =>
      all (sound.of_reaches reaches) values isFound value member
  exact .mono (advances_many goods) fun _ _ _ _ all sound value member => all value member sound

variable {origin cursor : Cursor n}

theorem Items.none :
    Advances origin (pure none) cursor fun (found : Option (List α)) after =>
      (found.isSome = true → after.left < origin.left) ∧
        (origin.Sound edge → ∀ values ∈ found, ∀ value ∈ values, good value) :=
  .pure ⟨by simp, by simp⟩

variable {cursor : Cursor n}

theorem Takes.item (takes : Takes edge reader good) :
    Advances cursor (do return some [← reader]) cursor fun (found : Option (List α)) after =>
      (found.isSome = true → after.left < cursor.left) ∧
        (cursor.Sound edge → ∀ values ∈ found, ∀ value ∈ values, good value) := by
  refine takes.bind fun value after _ _ shorter isGood => .pure ⟨fun _ => shorter, fun sound values isSome => ?_⟩
  obtain rfl := Option.some.inj isSome
  simpa using isGood sound

variable (edge)

theorem takes_name : Takes edge (name : Reader n Located) fun found => found.span.Sound edge := by
  intro cursor
  refine .mono (advances_name cursor) fun found after reaches _ ⟨shorter, isSpan⟩ => ⟨shorter, fun sound => ?_⟩
  dsimp only
  rw [isSpan]
  exact sound.span reaches shorter

theorem takes_expression : Takes edge (expression : Reader n Tree.Expr) (Ranged edge Tree.Expr.Sited) :=
  fun cursor => .mono (spans_expression cursor) fun _ _ _ _ both => ⟨both.1, fun sound => (both.2 sound).2.2⟩

theorem takes_primary : Takes edge (primary : Reader n Tree.Expr) (Ranged edge Tree.Expr.Sited) :=
  fun cursor => .mono (spans_primary cursor) fun _ _ _ _ both => ⟨both.1, fun sound => (both.2 sound).2.2⟩

/-! Types. -/

theorem advances_acceptNamed (keyword : Keyword) (cursor : Cursor n) :
    Advances cursor (acceptNamed keyword) cursor fun _ _ => True := by
  unfold acceptNamed
  refine .look rfl (.look rfl ?_)
  split
  · exact .skip fun _ _ _ _ _ => .skip fun _ _ _ _ _ => .pure trivial
  · exact .pure trivial

theorem gives_kindSelector : Gives edge (kindSelector : Reader n (Option Tree.Expr)) fun kind =>
    ∀ value ∈ kind, value.Sited (Span.Sound edge) Span.Inside := by
  intro cursor
  refine .accept (fun opened _ _ _ => ?_) (.pure (by simp))
  refine .bind (advances_acceptNamed .kind opened) fun _ named _ _ _ => ?_
  refine (takes_expression edge).bind fun kind closing _ _ _ isKind => ?_
  refine .lastMark fun _ _ => fun sound => ?_
  exact fun _ isSome => Option.some.inj isSome ▸ isKind sound

theorem takes_length : Takes edge (length : Reader n Length) (Ranged edge Length.Sited) := by
  intro cursor
  refine .accept (fun _ _ _ shorter => .pure ⟨shorter, fun _ => trivial⟩) ?_
  refine .accept (fun _ _ _ shorter => .pure ⟨shorter, fun _ => trivial⟩) ?_
  exact (takes_expression edge).bind fun _ _ _ _ shorter isValue => .pure ⟨shorter, isValue⟩

theorem takes_starLength : Takes edge (starLength : Reader n Length) (Ranged edge Length.Sited) := by
  intro cursor
  refine .accept (fun opened _ _ shorter => ?_) ?_
  · refine (takes_length edge).bind fun value closing _ _ _ isValue => ?_
    exact .lastMark fun _ _ => ⟨by omega, isValue⟩
  · exact (takes_primary edge).bind fun _ _ _ _ shorter isValue => .pure ⟨shorter, isValue⟩

def SitedParameters (found : CharacterParameters) : Prop :=
  (∀ value ∈ found.1, value.Sited (Span.Sound edge) Span.Inside) ∧
    ∀ value ∈ found.2, value.Sited (Span.Sound edge) Span.Inside

theorem takes_characterParameter (found : CharacterParameters) :
    Takes edge (characterParameter found : Reader n CharacterParameters) fun next =>
      SitedParameters edge found → SitedParameters edge next := by
  obtain ⟨given, kind⟩ := found
  have isLength : Takes edge (do return (some (← length), kind) : Reader n CharacterParameters) fun next =>
      SitedParameters edge (given, kind) → SitedParameters edge next := by
    refine fun cursor => (takes_length edge).bind fun value _ _ _ shorter isValue => .pure ⟨shorter, ?_⟩
    exact fun sound sited => ⟨fun _ isSome => Option.some.inj isSome ▸ isValue sound, sited.2⟩
  have isKind : Takes edge (do return (given, some (← expression)) : Reader n CharacterParameters) fun next =>
      SitedParameters edge (given, kind) → SitedParameters edge next := by
    refine fun cursor => (takes_expression edge).bind fun value _ _ _ shorter isValue => .pure ⟨shorter, ?_⟩
    exact fun sound sited => ⟨sited.1, fun _ isSome => Option.some.inj isSome ▸ isValue sound⟩
  intro cursor
  unfold characterParameter
  refine .bind (advances_acceptNamed .len cursor) fun _ afterLength _ _ _ => ?_
  split
  · exact isLength.last
  · refine .bind (advances_acceptNamed .kind afterLength) fun _ _ _ _ _ => ?_
    split
    · exact isKind.last
    · split
      · exact isLength.last
      · exact isKind.last

theorem gives_characterParametersWithin (turns : Nat) (found : CharacterParameters) :
    Gives edge (characterParametersWithin turns found : Reader n CharacterParameters) fun next =>
      SitedParameters edge found → SitedParameters edge next := by
  induction turns generalizing found with
  | zero => exact fun _ => .pure fun _ sited => sited
  | succ turns ih =>
    intro cursor
    refine (takes_characterParameter edge found).bind fun next middle _ _ _ isNext => ?_
    refine .accept (fun comma toComma _ _ => ?_) (.pure isNext)
    refine .mono (ih next comma) fun _ _ _ _ isLast sound sited => ?_
    exact isLast (sound.of_reaches toComma) (isNext sound sited)

theorem gives_characterParameters :
    Gives edge (characterParameters : Reader n CharacterParameters) (SitedParameters edge) := by
  have none : SitedParameters edge (none, none) := ⟨by simp, by simp⟩
  intro cursor
  refine .accept (fun star _ _ _ => ?_) (.accept (fun opened _ _ _ => .look rfl ?_) (.pure fun _ => none))
  · refine (takes_starLength edge).bind fun value _ _ _ _ isValue => .pure fun sound => ⟨?_, by simp⟩
    exact fun _ isSome => Option.some.inj isSome ▸ isValue sound
  · refine (gives_characterParametersWithin edge _ _).bind fun found closing _ _ isFound => ?_
    exact .lastMark fun _ _ => fun sound => isFound sound none

theorem takes_derivedSpec (star : TypeSpec) (named : String → TypeSpec)
    (isStar : star.Sited (Span.Sound edge) Span.Inside)
    (isNamed : ∀ name, (named name).Sited (Span.Sound edge) Span.Inside) :
    Takes edge (derivedSpec star named : Reader n TypeSpec) (Ranged edge TypeSpec.Sited) := by
  intro cursor
  unfold derivedSpec
  refine .bind (advances_expectMark cursor .leftParen) fun _ opened _ _ shorter => ?_
  extract_lets rest
  refine .join rest (fun type closing _ fromOpened (isType : type.Sited (Span.Sound edge) Span.Inside) => ?_) fun go => ?_
  · have := fromOpened.left_le
    exact .lastMark fun _ _ => ⟨by omega, fun _ => isType⟩
  · refine .accept (fun star _ toStar _ => ?_) ?_
    · exact .bind (.pure isStar) fun type closing reached further => go type closing reached (toStar.trans further)
    · exact .bind (.map (advances_name opened) fun found _ _ _ _ => isNamed found.name) go

theorem takes_typeSpec : Takes edge (typeSpec : Reader n TypeSpec) (Ranged edge TypeSpec.Sited) := by
  intro cursor
  unfold typeSpec
  refine .look rfl ?_
  -- A kind selector may be missing, but the keyword in front of it has been taken.
  have kinded (isNext : cursor.lexeme? ≠ none) {type : Option Tree.Expr → TypeSpec}
      (isType : ∀ kind, (∀ value ∈ kind, value.Sited (Span.Sound edge) Span.Inside) →
        (type kind).Sited (Span.Sound edge) Span.Inside) :
      Advances cursor (do skip; return type (← kindSelector)) cursor
        (Taken edge cursor (Ranged edge TypeSpec.Sited)) := by
    have some := Cursor.left_pos_of_lexeme isNext
    refine .skip fun middle _ _ passed _ => ?_
    refine (gives_kindSelector edge).bind fun kind after _ further isKind => .pure ⟨?_, fun sound => ?_⟩
    · have := further.left_le
      omega
    · exact isType kind (isKind sound)
  split
  next isNext => exact kinded (by simp [isNext]) fun _ all => all
  next isNext => exact kinded (by simp [isNext]) fun _ all => all
  next isNext =>
    refine .skip fun middle _ _ passed _ => ?_
    exact .bind (advances_expectKeyword middle .precision) fun _ _ _ _ _ => .pure ⟨by omega, fun _ => trivial⟩
  next isNext => exact kinded (by simp [isNext]) fun _ all => all
  next isNext => exact kinded (by simp [isNext]) fun _ all => all
  next isNext =>
    have some : 0 < cursor.left := Cursor.left_pos_of_lexeme (by simp [isNext])
    refine .skip fun middle _ _ passed _ => ?_
    refine (gives_characterParameters edge).bind fun found after _ further isFound => .pure ⟨?_, isFound⟩
    have := further.left_le
    omega
  · exact .skip fun _ _ _ _ _ => (takes_derivedSpec edge .typeStar .type trivial fun _ => trivial).last
  · exact .skip fun _ _ _ _ _ => (takes_derivedSpec edge .classStar .classOf trivial fun _ => trivial).last
  · exact .fail

/-! Dimensions. -/

theorem takes_dimension (close : Mark) :
    Takes edge (dimension close : Reader n Dimension) (Ranged edge Dimension.Sited) := by
  intro cursor
  unfold dimension
  refine .accept (fun _ _ _ shorter => .pure ⟨shorter, fun _ => trivial⟩) ?_
  refine .accept (fun _ _ _ shorter => .pure ⟨shorter, fun _ _ isSome => nomatch isSome⟩) ?_
  refine .accept (fun _ _ _ shorter => .pure ⟨shorter, fun _ _ isSome => nomatch isSome⟩) ?_
  refine (takes_expression edge).bind fun first middle _ _ shorter isFirst => ?_
  have isLower (sound : cursor.Sound edge) : ∀ value ∈ some first, value.Sited (Span.Sound edge) Span.Inside :=
    fun _ isSome => Option.some.inj isSome ▸ isFirst sound
  refine .accept (fun colon _ _ passed => ?_) (.pure ⟨shorter, fun sound => ⟨by simp, isFirst sound⟩⟩)
  refine .accept (fun star _ _ further => .pure ⟨by omega, isLower⟩) (.look rfl (.look rfl ?_))
  split
  · exact .pure ⟨by omega, isLower⟩
  · refine (takes_expression edge).bind fun upper _ _ _ _ isUpper => .pure ⟨by omega, fun sound => ?_⟩
    exact ⟨isLower sound, isUpper sound⟩

theorem takes_dimensions (close : Mark) : Takes edge (dimensions close : Reader n (List Dimension)) fun found =>
    ∀ dimension ∈ found, dimension.Sited (Span.Sound edge) Span.Inside := by
  intro cursor
  refine (takes_separated (takes_dimension edge close)).bind fun found middle _ _ _ all => ?_
  exact .lastMark fun _ _ => ⟨by omega, all⟩

/-! Attributes. -/

theorem advances_intent (cursor : Cursor n) :
    Advances cursor intent cursor fun _ after => after.left < cursor.left := by
  unfold intent
  refine .bind (advances_expectMark cursor .leftParen) fun _ opened _ _ shorter => ?_
  extract_lets rest
  have go (found : Attribute) (closing : Cursor n) (fromOpened : opened.Reaches closing) :
      Advances cursor (rest found) closing fun _ after => after.left < cursor.left := by
    have := fromOpened.left_le
    exact .lastMark fun _ _ => (by omega)
  refine .accept (fun isIn _ toIn _ => .accept (fun isOut _ further _ => ?_) ?_) ?_
  · exact go _ isOut (toIn.trans further)
  · exact go _ isIn toIn
  · refine .accept (fun isOut _ toOut _ => go _ isOut toOut) ?_
    exact .accept (fun isBoth _ toBoth _ => go _ isBoth toBoth) .fail_bind

theorem advances_closingParenWithin (turns level : Nat) (cursor : Cursor n) :
    Advances cursor (closingParenWithin turns level) cursor fun _ _ => True := by
  induction turns generalizing level cursor with
  | zero => exact .pure trivial
  | succ turns ih =>
    cases level with
    | zero => exact .pure trivial
    | succ level =>
      refine .look (isAtStatementEnd_eq cursor) ?_
      split
      · exact .pure trivial
      · refine .look rfl ?_
        extract_lets rest
        have go (level : Nat) : Advances cursor (rest level) cursor fun _ _ => True :=
          .skip fun after _ _ _ _ => (ih level after).forward
        split <;> rw [pure_bind] <;> exact go _

theorem advances_bindC (cursor : Cursor n) : Advances cursor bindC cursor fun _ after => after.left < cursor.left := by
  unfold bindC
  refine .bind (advances_expectKeyword cursor .bind) fun _ opened _ _ shorter => ?_
  refine .bind (advances_expectMark opened .leftParen) fun _ inside _ _ _ => .look rfl ?_
  have finish : Advances cursor (do closingParenWithin (← remaining) 1) inside fun _ after =>
      after.left < cursor.left := by
    refine .look rfl (.mono (advances_closingParenWithin _ 1 inside) fun _ _ _ further _ => ?_)
    have := further.left_le
    omega
  split
  · exact finish
  · exact .fail_bind

theorem gives_passSpec : Gives edge (passSpec : Reader n AttributeSpec) (Ranged edge AttributeSpec.Sited) := by
  intro cursor
  refine .accept (fun opened _ _ _ => ?_) (.pure fun _ => trivial)
  refine .bind (advances_name opened) fun _ closing _ _ _ => ?_
  exact .lastMark fun _ _ => fun _ => trivial

theorem takes_attributeSpec :
    Takes edge (attributeSpec : Reader n AttributeSpec) (Ranged edge AttributeSpec.Sited) := by
  intro cursor
  unfold attributeSpec
  refine .look rfl ?_
  split
  · exact .bind (advances_bindC cursor) fun _ _ _ _ shorter => .pure ⟨shorter, fun _ => trivial⟩
  · refine .skip fun word _ _ _ _ => .bind (advances_expectMark word .leftBracket) fun _ _ _ _ _ => ?_
    exact (takes_dimensions edge .rightBracket).bind fun _ _ _ _ _ all => .pure ⟨by omega, all⟩
  · refine .skip fun word _ _ _ _ => .bind (advances_expectMark word .leftParen) fun _ _ _ _ _ => ?_
    exact (takes_dimensions edge .rightParen).bind fun _ _ _ _ _ all => .pure ⟨by omega, all⟩
  · refine .skip fun word _ _ _ _ => .bind (advances_intent word) fun _ _ _ _ _ => .pure ⟨by omega, fun _ => trivial⟩
  next isNext =>
    have some : 0 < cursor.left := Cursor.left_pos_of_lexeme (by simp [isNext])
    refine .skip fun word toWord _ passed _ => .mono (gives_passSpec edge word) fun _ _ _ further isPass => ⟨?_, ?_⟩
    · have := further.left_le
      omega
    · exact fun sound => isPass (sound.of_reaches toWord)
  next isNext =>
    have some : 0 < cursor.left := Cursor.left_pos_of_lexeme (by simp [isNext])
    split
    · exact .skip fun _ _ _ _ _ => .pure ⟨by omega, fun _ => trivial⟩
    · exact .fail
  · exact .fail

/-! Declarations. -/

theorem gives_names : Gives edge (names : Reader n (List Located)) fun found =>
    ∀ name ∈ found, name.span.Sound edge := by
  intro cursor
  refine .look (isAtStatementEnd_eq cursor) ?_
  split
  · exact .pure (by simp)
  · exact (takes_separated (takes_name edge)).gives cursor

theorem takes_use : Takes edge (use : Reader n Decl) (Ranged edge Decl.Sited) := by
  intro cursor
  unfold use
  refine .look rfl (.bind (advances_expectKeyword cursor .use) fun _ opened _ _ shorter => ?_)
  extract_lets rest
  have go (middle : Cursor n) (fromOpened : opened.Reaches middle) : Advances cursor (rest ()) middle
      (Taken edge cursor (Ranged edge Decl.Sited)) := by
    have := fromOpened.left_le
    refine .bind (advances_name middle) fun module named toNamed _ _ => .look rfl ?_
    refine .bind (advances_skipStatement named) fun _ after _ further _ => .pure ?_
    have := further.left_le
    refine ⟨by omega, fun sound => ?_⟩
    simp only [Decl.Sited]
    exact sound.span toNamed (by omega)
  refine .accept (fun comma _ toComma _ => ?_) ?_
  · refine .bind (advances_name comma) fun _ nature toNature fromComma _ => ?_
    exact .bind (advances_expectMark nature .doubleColon) fun _ middle _ further _ =>
      go middle ((toComma.trans fromComma).trans further)
  · exact .accept (fun middle _ further _ => go middle further) (go opened (.refl _))

theorem advances_letter (cursor : Cursor n) : Advances cursor letter cursor fun _ after => after.left < cursor.left :=
  .bind (advances_name cursor) fun _ _ _ _ both => .pure both.1

theorem takes_letterRange : Takes edge (letterRange : Reader n LetterRange) fun _ => True := by
  intro cursor
  refine .bind (advances_letter cursor) fun _ middle _ _ shorter => ?_
  refine .accept (fun minus _ _ _ => ?_) (.pure ⟨shorter, fun _ => trivial⟩)
  exact .bind (advances_letter minus) fun _ _ _ _ _ => .pure ⟨by omega, fun _ => trivial⟩

theorem takes_implicitRule : Takes edge (implicitRule : Reader n ImplicitRule) (Ranged edge ImplicitRule.Sited) := by
  intro cursor
  refine (takes_typeSpec edge).bind fun type named _ _ _ isType => ?_
  refine .bind (advances_expectMark named .leftParen) fun _ opened _ _ _ => ?_
  refine (takes_separated (takes_letterRange edge)).bind fun _ closing _ _ _ _ => ?_
  exact .lastMark fun _ _ => ⟨by omega, isType⟩

theorem takes_implicit : Takes edge (implicit : Reader n Decl) (Ranged edge Decl.Sited) := by
  intro cursor
  refine .look rfl (.bind (advances_expectKeyword cursor .implicit) fun _ opened _ _ shorter => ?_)
  refine .accept (fun none _ _ _ => .closed (by omega) fun _ isSpan => ?_) ?_
  · simpa only [Decl.Sited] using isSpan
  · refine (takes_separated (takes_implicitRule edge)).bind fun rules _ _ _ _ all => .closed (by omega) fun sound isSpan => ?_
    simpa only [Decl.Sited] using ⟨isSpan, all sound⟩

theorem takes_entity : Takes edge (entity : Reader n Entity) (Ranged edge Entity.Sited) := by
  intro cursor
  refine (takes_name edge).bind fun declared named _ _ shorter isName => ?_
  refine (takes_dimensions edge .rightParen).gives.optional fun extent afterExtent _ toExtent isExtent => ?_
  refine (takes_dimensions edge .rightBracket).gives.optional fun coextent afterCoextent _ toCoextent isCoextent => ?_
  refine (takes_starLength edge).gives.optional fun length afterLength _ toLength isLength => ?_
  have := toExtent.left_le
  have := toCoextent.left_le
  have := toLength.left_le
  have built (init : Option Tree.Expr) (after : Cursor n) (fromLength : afterLength.Reaches after)
      (isInit : cursor.Sound edge → ∀ value ∈ init, value.Sited (Span.Sound edge) Span.Inside) :
      after.left < cursor.left ∧ (cursor.Sound edge → Entity.Sited (Span.Sound edge) Span.Inside
        ⟨declared.name, extent, coextent, length, init, declared.span⟩) := by
    have := fromLength.left_le
    exact ⟨by omega, fun sound => ⟨isName sound, isExtent sound, isCoextent sound, isLength sound, isInit sound⟩⟩
  have initial : Takes edge (some <$> expression : Reader n (Option Tree.Expr)) fun init =>
      ∀ value ∈ init, value.Sited (Span.Sound edge) Span.Inside :=
    (takes_expression edge).map fun _ isValue _ isSome => Option.some.inj isSome ▸ isValue
  refine .accept (fun opened _ fromLength _ => ?_) (.accept (fun opened _ fromLength _ => ?_) ?_)
  · exact initial.bind fun init after _ further _ isInit => .pure (built init after (fromLength.trans further) isInit)
  · exact initial.bind fun init after _ further _ isInit => .pure (built init after (fromLength.trans further) isInit)
  · exact .pure (built none afterLength (.refl _) (by simp))

theorem Advances.colons {next : Reader n β} {post : β → Cursor n → Prop}
    (second : ∀ after, origin.Reaches after → cursor.Reaches after → Advances origin next after post) :
    Advances origin (do let _ ← acceptMark .doubleColon; next) cursor post :=
  .accept (fun after reaches further _ => second after reaches further)
    fun reaches => second cursor reaches (.refl _) reaches

theorem takes_entities : Takes edge (entities : Reader n Decl) (Ranged edge Decl.Sited) := by
  intro cursor
  refine .look rfl ((takes_typeSpec edge).bind fun type typed _ _ shorter isType => ?_)
  refine (gives_afterCommas (takes_attributeSpec edge).gives).bind fun attributes _ _ toAttributes areAttributes => ?_
  refine .colons fun _ _ toColons => ?_
  refine (takes_separated (takes_entity edge)).bind fun declared _ _ _ _ areDeclared => ?_
  have := toAttributes.left_le
  have := toColons.left_le
  refine .closed (by omega) fun sound isSpan => ?_
  simpa only [Decl.Sited] using ⟨isSpan, isType sound, areAttributes sound, areDeclared sound⟩

theorem takes_attributeStatement : Takes edge (attributeStatement : Reader n Decl) (Ranged edge Decl.Sited) := by
  intro cursor
  refine .look rfl ((takes_attributeSpec edge).bind fun attr _ _ _ shorter isAttribute => .colons fun _ _ toColons => ?_)
  refine (gives_names edge).bind fun listed _ _ toNames areNames => ?_
  have := toColons.left_le
  have := toNames.left_le
  refine .closed (by omega) fun sound isSpan => ?_
  simpa only [Decl.Sited] using ⟨isSpan, isAttribute sound, areNames sound⟩

theorem gives_interfaceName : Gives edge (interfaceName : Reader n (Option InterfaceName)) fun found =>
    ∀ name ∈ found, name.Sited (Span.Sound edge) Span.Inside := by
  intro cursor
  unfold interfaceName
  refine .accept (fun opened _ _ _ => ?_) (.pure (by simp))
  refine .accept (fun _ _ _ _ => .pure (by simp)) (.look rfl ?_)
  extract_lets closed rest
  have close (found : InterfaceName) (after : Cursor n)
      (isFound : cursor.Sound edge → found.Sited (Span.Sound edge) Span.Inside) :
      Advances cursor (closed found) after fun found _ =>
        cursor.Sound edge → ∀ name ∈ found, name.Sited (Span.Sound edge) Span.Inside :=
    .lastMark fun _ _ => fun sound _ isSome =>
      Option.some.inj isSome ▸ isFound sound
  have go (isType : Bool) : Advances cursor (rest isType) opened fun found _ =>
      cursor.Sound edge → ∀ name ∈ found, name.Sited (Span.Sound edge) Span.Inside := by
    have isSpec : Takes edge (.type <$> typeSpec : Reader n InterfaceName) (Ranged edge InterfaceName.Sited) :=
      (takes_typeSpec edge).map fun _ isType => isType
    have isName : Takes edge ((.name ·.name) <$> name : Reader n InterfaceName)
        (Ranged edge InterfaceName.Sited) :=
      (takes_name edge).map fun _ _ => trivial
    cases isType with
    | true => exact isSpec.bind fun found after _ _ _ isFound => close found after isFound
    | false => exact isName.bind fun found after _ _ _ isFound => close found after isFound
  split
  · exact .look rfl (go _)
  · exact .look rfl (go _)
  · exact go _
  · exact go false

theorem takes_procedureName : Takes edge (procedureName : Reader n Located) fun found => found.span.Sound edge := by
  intro cursor
  refine (takes_name edge).bind fun found middle _ _ shorter isFound => ?_
  refine .accept (fun arrow _ _ _ => ?_) (.pure ⟨shorter, isFound⟩)
  exact (takes_expression edge).bind fun _ _ _ _ _ _ => .pure ⟨by omega, isFound⟩

theorem takes_procedure : Takes edge (procedure : Reader n Decl) (Ranged edge Decl.Sited) := by
  intro cursor
  refine .look rfl (.bind (advances_expectKeyword cursor .procedure) fun _ _ _ _ shorter => ?_)
  refine (gives_interfaceName edge).bind fun interface _ _ toInterface isInterface => ?_
  refine (gives_afterCommas (takes_attributeSpec edge).gives).bind fun attributes _ _ toAttributes areAttributes => ?_
  refine .colons fun _ _ toColons => ?_
  refine (takes_separated (takes_procedureName edge)).bind fun listed _ _ _ _ areListed => ?_
  have := toInterface.left_le
  have := toAttributes.left_le
  have := toColons.left_le
  refine .closed (by omega) fun sound isSpan => ?_
  simpa only [Decl.Sited] using ⟨isSpan, isInterface sound, areAttributes sound, areListed sound⟩

/-! Generic specifications. -/

theorem advances_operatorSpec (cursor : Cursor n) : Advances cursor operatorSpec cursor fun _ _ => True := by
  unfold operatorSpec
  refine .look rfl ?_
  split
  · exact .fail_bind
  · refine .skip fun opened _ _ _ _ => .look rfl ?_
    split
    · exact .skip fun closing _ _ _ _ => .lastMark fun _ _ => trivial
    · exact .fail

theorem advances_genericSpec (cursor : Cursor n) : Advances cursor genericSpec cursor fun _ _ => True := by
  unfold genericSpec
  refine .look rfl (.look rfl ?_)
  split
  · exact .skip fun opened _ _ _ _ => (advances_operatorSpec opened).forward
  · refine .skip fun _ _ _ _ _ => .skip fun opened _ _ _ _ => ?_
    refine .bind (advances_expectMark opened .assign) fun _ closing _ _ _ => ?_
    exact .lastMark fun _ _ => trivial
  · exact .bind (advances_name cursor) fun _ _ _ _ _ => .pure trivial

/-! Derived types. -/

theorem advances_typeHeaderWithin (turns : Nat) (header : TypeHeader) (cursor : Cursor n) :
    Advances cursor (typeHeaderWithin turns header) cursor fun _ _ => True := by
  induction turns generalizing header cursor with
  | zero => exact .pure trivial
  | succ turns ih =>
    unfold typeHeaderWithin
    refine .accept (fun comma _ _ _ => .look rfl ?_) (.pure trivial)
    split
    · refine .skip fun opened _ _ _ _ => .bind (advances_expectMark opened .leftParen) fun _ named _ _ _ => ?_
      refine .bind (advances_name named) fun _ closing _ _ _ => ?_
      exact .bind (advances_expectMark closing .rightParen) fun _ after _ _ _ => (ih _ after).forward
    · exact .skip fun after _ _ _ _ => (ih _ after).forward
    · exact .bind (advances_bindC comma) fun _ after _ _ _ => (ih _ after).forward
    · exact .skip fun after _ _ _ _ => (ih _ after).forward
    · exact .skip fun after _ _ _ _ => (ih _ after).forward
    · exact .fail

theorem items_skipStatement {α : Type} {good : α → Prop} (some : 0 < cursor.left) :
    Advances cursor (do skipStatement; return Option.some []) cursor fun (found : Option (List α)) after =>
      (found.isSome = true → after.left < cursor.left) ∧
        (cursor.Sound edge → ∀ values ∈ found, ∀ value ∈ values, good value) := by
  refine .bind (advances_skipStatement cursor) fun _ after _ _ passed => .pure ⟨fun _ => passed some, ?_⟩
  rintro - _ ⟨⟩
  simp

theorem items_component : Items edge (component : Reader n (Option (List Decl))) (Ranged edge Decl.Sited) := by
  intro cursor
  unfold component
  refine .look rfl (.look rfl (.look rfl ?_))
  split
  · exact Items.none
  · refine .look rfl ?_
    split
    · exact (takes_procedure edge).item
    next isNext => exact items_skipStatement edge (Cursor.left_pos_of_lexeme (by simp [isNext]))
    next isNext => exact items_skipStatement edge (Cursor.left_pos_of_lexeme (by simp [isNext]))
    next isNext => exact items_skipStatement edge (Cursor.left_pos_of_lexeme (by simp [isNext]))
    · exact (takes_entities edge).item

theorem takes_bindingTarget (interface : Option String) (attributes : List AttributeSpec) :
    Takes edge (bindingTarget interface attributes : Reader n Binding) fun binding =>
      (∀ attr ∈ attributes, attr.Sited (Span.Sound edge) Span.Inside) → binding.Sited (Span.Sound edge) Span.Inside := by
  intro cursor
  unfold bindingTarget
  refine .bind (advances_name cursor) fun bound named toNamed _ ⟨shorter, isSpan⟩ => ?_
  extract_lets rest
  have go (target : Option String) (after : Cursor n) (toAfter : cursor.Reaches after) (fromNamed : named.Reaches after) :
      Advances cursor (rest target) after fun binding last => last.left < cursor.left ∧
        (cursor.Sound edge → (∀ attr ∈ attributes, attr.Sited (Span.Sound edge) Span.Inside) →
          binding.Sited (Span.Sound edge) Span.Inside) := by
    have := fromNamed.left_le
    refine .look rfl (.pure ⟨by omega, fun sound areAttributes => ⟨?_, areAttributes⟩⟩)
    rw [isSpan]
    exact sound.span toAfter (by omega)
  refine .accept (fun arrow _ toArrow _ => ?_) (go none named toNamed (.refl _))
  have target : Takes edge ((some ·.name) <$> name : Reader n (Option String)) fun _ => True :=
    (takes_name edge).map fun _ _ => trivial
  exact target.bind fun found after toAfter further _ _ => go found after toAfter (toArrow.trans further)

theorem takes_specificBindings (cursor : Cursor n) (isLeft : 0 < cursor.left) :
    Advances cursor specificBindings cursor
      (Taken edge cursor fun found => ∀ binding ∈ found, binding.Sited (Span.Sound edge) Span.Inside) := by
  unfold specificBindings
  refine .skip fun opened _ _ passed _ => ?_
  refine (gives_interfaceName edge).bind fun interface named _ toNamed _ => ?_
  extract_lets rest
  have := toNamed.left_le
  have go (interface : Option String) : Advances cursor (rest interface) named
      (Taken edge cursor fun found => ∀ binding ∈ found, binding.Sited (Span.Sound edge) Span.Inside) := by
    refine (gives_afterCommas (takes_attributeSpec edge).gives).bind fun attributes _ _ toAttributes areAttributes => ?_
    refine .colons fun _ _ toColons => ?_
    refine (takes_separated (takes_bindingTarget edge interface attributes)).bind fun found last _ _ _ areFound => ?_
    refine .bind (advances_statementEnd last) fun _ after _ further _ => .pure ⟨?_, fun sound binding member => ?_⟩
    · have := toAttributes.left_le
      have := toColons.left_le
      have := further.left_le
      omega
    · exact areFound sound binding member (areAttributes sound)
  split
  · exact go _
  · exact .fail_bind
  · exact go none

theorem advances_bindingAccessWithin (turns : Nat) (cursor : Cursor n) :
    Advances cursor (bindingAccessWithin turns) cursor fun _ _ => True := by
  induction turns generalizing cursor with
  | zero => exact .pure trivial
  | succ turns ih =>
    refine .accept (fun comma _ _ _ => ?_) (.pure trivial)
    exact .skip fun after _ _ _ _ => (ih after).forward

theorem takes_genericBinding (cursor : Cursor n) (some : 0 < cursor.left) :
    Advances cursor genericBinding cursor
      (Taken edge cursor fun found => ∀ binding ∈ found, binding.Sited (Span.Sound edge) Span.Inside) := by
  unfold genericBinding
  refine .look rfl (.skip fun opened _ _ passed _ => .look rfl ?_)
  refine .bind (advances_bindingAccessWithin _ opened) fun _ access _ toAccess _ => ?_
  refine .bind (advances_expectMark access .doubleColon) fun _ colons _ _ _ => ?_
  refine .bind (advances_genericSpec colons) fun spec specified _ toSpec _ => ?_
  refine .bind (advances_expectMark specified .arrow) fun _ arrow _ _ _ => ?_
  refine (gives_names edge).bind fun specifics listed _ toNames _ => ?_
  have := toAccess.left_le
  have := toSpec.left_le
  have := toNames.left_le
  refine .closed (by omega) fun _ isSpan binding member => ?_
  obtain rfl := List.mem_singleton.mp member
  exact isSpan

theorem items_of_list {α : Type} {reader : Reader n (List α)} {good : α → Prop}
    (takes : Advances cursor reader cursor fun found after =>
      after.left < cursor.left ∧ (cursor.Sound edge → ∀ value ∈ found, good value)) :
    Advances cursor (do return some (← reader)) cursor fun (found : Option (List α)) after =>
      (found.isSome = true → after.left < cursor.left) ∧
        (cursor.Sound edge → ∀ values ∈ found, ∀ value ∈ values, good value) := by
  refine .bind takes fun found _ _ _ ⟨shorter, all⟩ => .pure ⟨fun _ => shorter, ?_⟩
  rintro sound _ ⟨⟩
  exact all sound

theorem items_bindings : Items edge (bindings : Reader n (Option (List Binding))) (Ranged edge Binding.Sited) := by
  intro cursor
  unfold bindings
  refine .look rfl (.look rfl ?_)
  split
  · exact Items.none
  next goesOn =>
    have isLeft : 0 < cursor.left := Cursor.left_pos_of_lexeme fun none => by simp [none] at goesOn
    refine .look rfl ?_
    split
    · exact items_of_list edge (takes_specificBindings edge cursor isLeft)
    · exact items_of_list edge (takes_genericBinding edge cursor isLeft)
    · exact items_skipStatement edge isLeft

theorem takes_derivedType : Takes edge (derivedType : Reader n DerivedType) fun definition =>
    (Decl.derivedType definition).Sited (Span.Sound edge) Span.Inside := by
  intro cursor
  unfold derivedType
  refine .look rfl (.bind (advances_expectKeyword cursor .type) fun _ opened _ _ shorter => .look rfl ?_)
  refine .bind (advances_typeHeaderWithin _ _ opened) fun header headed _ toHeader _ => ?_
  refine .colons fun colons _ toColons => .bind (advances_name colons) fun declared named _ _ ⟨_, _⟩ => ?_
  refine .bind (advances_statementEnd named) fun _ body _ toBody _ => ?_
  refine (items_component edge).many.bind fun components middle _ toMiddle areComponents => ?_
  have := toHeader.left_le
  have := toColons.left_le
  have := toBody.left_le
  have := toMiddle.left_le
  extract_lets rest
  have go (bound : List Binding) (after : Cursor n) (fromMiddle : middle.Reaches after)
      (areBound : cursor.Sound edge → ∀ binding ∈ bound, binding.Sited (Span.Sound edge) Span.Inside) :
      Advances cursor (rest bound) after
        (Taken edge cursor fun definition => (Decl.derivedType definition).Sited (Span.Sound edge) Span.Inside) := by
    have := fromMiddle.left_le
    refine .bind (advances_constructEnd "type" [] after) fun _ last toLast _ _ => .look rfl (.pure ⟨by omega, ?_⟩)
    intro sound
    simp only [Decl.Sited, sitedDecls_iff]
    exact ⟨sound.span toLast (by omega), areComponents sound, areBound sound⟩
  refine .accept (fun contains _ toContains _ => ?_) (go [] middle (.refl _) (by simp))
  refine .bind (advances_statementEnd contains) fun _ inside _ toInside _ => ?_
  refine (items_bindings edge).many.bind fun bound after _ further areBound => ?_
  exact go bound after ((toContains.trans toInside).trans further) areBound

end FortranInterface.Grammar
