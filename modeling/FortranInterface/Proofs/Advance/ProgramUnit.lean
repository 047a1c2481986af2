import FortranInterface.Grammar.ProgramUnit
import FortranInterface.Proofs.Advance.Statement

/-!
Readers of program units go forward, and the spans of what they give are ranges of the text.
-/

namespace FortranInterface.Grammar

open FortranInterface.Tree

variable {n : Nat} {edge : Nat → Prop}

def InterfaceItem.Sited (edge : Nat → Prop) : InterfaceItem → Prop
  | .body unit => unit.Sited (Span.Sound edge) Span.Inside
  | .named listed => listed.span.Sound edge

section

variable {subprogram : Reader n Subprogram}
  (takes : Takes edge subprogram (Ranged edge Subprogram.Sited))
include takes

theorem items_interfaceItem : Items edge (interfaceItem subprogram) (InterfaceItem.Sited edge) := by
  intro cursor
  unfold interfaceItem
  refine .look rfl (.look rfl ?_)
  split
  · exact Items.none
  next goesOn =>
    have isLeft : 0 < cursor.left := Cursor.left_pos_of_lexeme fun none => by simp [none] at goesOn
    refine .look rfl ?_
    split
    · refine takes.bind fun unit after _ _ shorter isUnit => .pure ⟨fun _ => shorter, ?_⟩
      rintro sound _ ⟨⟩ item isItem
      obtain rfl := List.mem_singleton.mp isItem
      exact isUnit sound
    · refine .look rfl (.look rfl (.look rfl ?_))
      extract_lets listing
      have go (opened : Cursor n) (_ : cursor.Reaches opened) (shorter : opened.left < cursor.left) :
          Advances cursor (listing ()) opened fun found after => (found.isSome = true → after.left < cursor.left) ∧
            (cursor.Sound edge → ∀ values ∈ found, ∀ value ∈ values, value.Sited edge) := by
        refine .colons fun _ _ toColons => ?_
        refine (gives_names edge).bind fun listed ended _ toNames areNames => ?_
        refine .bind (advances_statementEnd ended) fun _ after _ toAfter _ => .pure ⟨fun _ => ?_, ?_⟩
        · have := toColons.left_le
          have := toNames.left_le
          have := toAfter.left_le
          omega
        · rintro sound _ ⟨⟩ item member
          obtain ⟨name, isListed, rfl⟩ := List.mem_map.mp member
          exact areNames sound name isListed
      split
      · refine .skip fun opened toOpened _ passed _ => ?_
        split
        · exact .skip fun behind toBehind _ further _ => go behind toBehind (by omega)
        · exact go opened toOpened (by omega)
      · exact .fail

theorem takes_interfaceBlock (isAbstract : Bool) : Takes edge (interfaceBlock subprogram isAbstract) fun block =>
    (Decl.interface block).Sited (Span.Sound edge) Span.Inside := by
  intro cursor
  unfold interfaceBlock
  refine .look rfl (.bind (advances_expectKeyword cursor .interface) fun _ opened _ _ shorter => ?_)
  extract_lets rest
  have go (kind : InterfaceKind) (after : Cursor n) (fromOpened : opened.Reaches after) :
      Advances cursor (rest kind) after
        (Taken edge cursor fun block => (Decl.interface block).Sited (Span.Sound edge) Span.Inside) := by
    refine .bind (advances_statementEnd after) fun _ inside _ toInside _ => ?_
    refine (items_interfaceItem takes).many.bind fun items closing _ toClosing areItems => ?_
    refine .bind (advances_constructEnd "interface" [] closing) fun _ last toLast _ _ => .look rfl (.pure ?_)
    have := fromOpened.left_le
    have := toInside.left_le
    have := toClosing.left_le
    refine ⟨by omega, fun sound => ?_⟩
    simp only [Decl.Sited, sitedSubprograms_iff]
    refine ⟨sound.span toLast (by omega), fun body member => ?_, fun name member => ?_⟩
    · obtain ⟨item, isItem, isBody⟩ := List.mem_filterMap.mp member
      have sited := areItems sound item isItem
      cases item <;> cases isBody
      exact sited
    · obtain ⟨item, isItem, isName⟩ := List.mem_filterMap.mp member
      have sited := areItems sound item isItem
      cases item <;> cases isName
      exact sited
  split
  · exact go .abstract opened (.refl _)
  · refine .look (isAtStatementEnd_eq opened) ?_
    split
    · exact go .unnamed opened (.refl _)
    · have generic : Advances opened (InterfaceKind.generic <$> genericSpec) opened fun _ _ => True :=
        .map (advances_genericSpec opened) fun _ _ _ _ _ => trivial
      exact .bind generic fun kind after _ fromOpened _ => go kind after fromOpened

theorem takes_declaration {opening : Keyword} {second : Option Lexeme} {declaration : Reader n Decl}
    (isDeclaration : declaration? subprogram opening second = some declaration) :
    Takes edge declaration (Ranged edge Decl.Sited) := by
  unfold declaration? at isDeclaration
  split at isDeclaration
  · obtain rfl := Option.some.inj isDeclaration
    exact takes_entities edge
  · split at isDeclaration
    · obtain rfl := Option.some.inj isDeclaration
      exact takes_use edge
    · obtain rfl := Option.some.inj isDeclaration
      exact takes_implicit edge
    · split at isDeclaration
      · obtain rfl := Option.some.inj isDeclaration
        exact takes_entities edge
      · obtain rfl := Option.some.inj isDeclaration
        exact (takes_derivedType edge).map fun _ sited => sited
    · obtain rfl := Option.some.inj isDeclaration
      exact takes_entities edge
    · obtain rfl := Option.some.inj isDeclaration
      exact takes_procedure edge
    · obtain rfl := Option.some.inj isDeclaration
      exact (takes_interfaceBlock takes false).map fun _ sited => sited
    · split at isDeclaration
      · obtain rfl := Option.some.inj isDeclaration
        intro cursor
        refine .skip fun opened _ _ _ _ => ?_
        exact (takes_interfaceBlock takes true).bind fun _ _ _ _ _ sited => .pure ⟨by omega, sited⟩
      · cases isDeclaration
    · split at isDeclaration
      · obtain rfl := Option.some.inj isDeclaration
        exact takes_attributeStatement edge
      · cases isDeclaration

theorem items_specificationItem : Items edge (specificationItem subprogram) (Ranged edge Decl.Sited) := by
  intro cursor
  unfold specificationItem
  refine .look rfl (.look rfl (.look rfl ?_))
  split
  · exact Items.none
  · refine .look rfl ?_
    split
    · refine .look rfl ?_
      split
      next declaration isDeclaration => exact (takes_declaration takes isDeclaration).item
      · exact Items.none
    · exact Items.none

theorem gives_specification : Gives edge (specification subprogram) fun spec =>
    ∀ decl ∈ spec, decl.Sited (Span.Sound edge) Span.Inside :=
  (items_specificationItem takes).many

theorem items_containedItem : Items edge (containedItem subprogram) (Ranged edge Subprogram.Sited) := by
  intro cursor
  unfold containedItem
  refine .look rfl (.look rfl ?_)
  split
  · exact Items.none
  · refine .look rfl ?_
    split
    · exact takes.item
    · exact .fail

theorem gives_containedPart : Gives edge (containedPart subprogram) fun contained =>
    ∀ inner ∈ contained, inner.Sited (Span.Sound edge) Span.Inside := by
  intro cursor
  refine .bind (advances_skipNewlines cursor) fun _ _ _ _ _ => ?_
  refine .accept (fun contains _ _ _ => ?_) (.pure (by simp))
  refine .bind (advances_statementEnd contains) fun _ inside toInside _ _ => ?_
  refine .mono ((items_containedItem takes).many inside) fun _ _ _ _ all sound => all (sound.of_reaches toInside)

end

/-! Procedures. -/

variable (edge)

theorem takes_dummyName : Takes edge (dummyName : Reader n DummyName) (DummyName.Sited (Span.Sound edge)) := by
  intro cursor
  unfold dummyName
  refine .look rfl ?_
  split
  next isNext =>
    have isLeft : 0 < cursor.left := Cursor.left_pos_of_lexeme (by simp [of_decide_eq_true isNext])
    exact .look rfl (.skip fun _ _ _ _ _ => .pure ⟨by omega, fun sound => sound.here⟩)
  · exact (takes_name edge).bind fun _ _ _ _ shorter isName => .pure ⟨shorter, isName⟩

theorem gives_dummyNames : Gives edge (dummyNames : Reader n (List DummyName)) fun dummies =>
    ∀ dummy ∈ dummies, dummy.Sited (Span.Sound edge) := by
  intro cursor
  refine .accept (fun opened _ _ _ => ?_) (.pure (by simp))
  refine .accept (fun _ _ _ _ => .pure (by simp)) ?_
  refine (takes_separated (takes_dummyName edge)).bind fun found closing _ _ _ all => ?_
  exact .lastMark fun _ _ => all

variable {edge}

omit edge in
theorem advances_headerTailWithin (isFunction : Bool) (turns : Nat) (tail : HeaderTail) (cursor : Cursor n) :
    Advances cursor (headerTailWithin isFunction turns tail) cursor fun _ _ => True := by
  induction turns generalizing tail cursor with
  | zero => exact .pure trivial
  | succ turns ih =>
    unfold headerTailWithin
    refine .look rfl ?_
    split
    · refine .skip fun result _ _ _ _ => .bind (advances_expectMark result .leftParen) fun _ opened _ _ _ => ?_
      refine .bind (advances_name opened) fun _ closing _ _ _ => ?_
      exact .bind (advances_expectMark closing .rightParen) fun _ after _ _ _ => (ih _ after).forward
    · refine .look rfl ?_
      split
      · exact .bind (advances_bindC cursor) fun _ after _ _ _ => (ih _ after).forward
      · exact .pure trivial

section

variable {subprogram : Reader n Subprogram}
  (takes : Takes edge subprogram (Ranged edge Subprogram.Sited))
include takes

theorem advances_subprogramBody (heading : Heading) (isFunction : Bool) (cursor : Cursor n) :
    Advances cursor (subprogramBody subprogram heading isFunction) cursor fun unit after => after.left < cursor.left ∧
      (cursor.Sound edge → edge heading.start → heading.start ≤ cursor.before →
        (∀ type ∈ heading.type, type.Sited (Span.Sound edge) Span.Inside) →
          unit.Sited (Span.Sound edge) Span.Inside) := by
  unfold subprogramBody
  refine .bind (advances_name cursor) fun declared named _ _ ⟨shorter, _⟩ => ?_
  refine (gives_dummyNames edge).bind fun dummies _ _ toDummies areDummies => .look rfl ?_
  refine .bind (advances_headerTailWithin isFunction _ _ _) fun tail headed _ toTail _ => ?_
  refine .bind (advances_statementEnd headed) fun _ _ _ toEnd _ => ?_
  refine (gives_specification takes).bind fun spec _ _ toSpec isSpec => ?_
  refine (gives_execution edge).bind fun body _ _ toBody isBody => ?_
  refine (gives_containedPart takes).bind fun contained closing _ toContained areContained => ?_
  refine .bind (advances_constructEnd "subroutine" ["function", "procedure"] closing) fun _ after toAfter _ _ => ?_
  refine .look rfl (.pure ?_)
  have := toDummies.left_le
  have := toTail.left_le
  have := toEnd.left_le
  have := toSpec.left_le
  have := toBody.left_le
  have := toContained.left_le
  refine ⟨by omega, fun sound isEdge below isType => ?_⟩
  simp only [Subprogram.Sited, sitedDecls_iff, sitedStmts_iff, sitedSubprograms_iff]
  refine ⟨⟨Nat.le_trans below (sound.before_le toAfter), isEdge, (sound.of_reaches toAfter).before⟩, ?_, areDummies sound,
    isSpec sound, isBody sound, areContained sound⟩
  cases isFunction
  · trivial
  · exact isType

theorem advances_subprogramWithin (turns : Nat) (heading : Heading) (cursor : Cursor (n + 1)) :
    Advances cursor (subprogramWithin subprogram turns heading) cursor fun unit after => after.left < cursor.left ∧
      (cursor.Sound edge → edge heading.start → heading.start ≤ cursor.here.start →
        (∀ type ∈ heading.type, type.Sited (Span.Sound edge) Span.Inside) →
          unit.Sited (Span.Sound edge) Span.Inside) := by
  induction turns generalizing heading cursor with
  | zero => exact .fail
  | succ turns ih =>
    have passed := cursor.left_past
    have body (isFunction : Bool) (isLeft : 0 < cursor.left) :
        Advances cursor (past (subprogramBody subprogram heading isFunction)) cursor fun unit after =>
          after.left < cursor.left ∧ (cursor.Sound edge → edge heading.start → heading.start ≤ cursor.here.start →
            (∀ type ∈ heading.type, type.Sited (Span.Sound edge) Span.Inside) →
              unit.Sited (Span.Sound edge) Span.Inside) := by
      have shorter : cursor.past.left < cursor.left := by omega
      refine .past (.mono (advances_subprogramBody takes heading isFunction cursor.past) ?_)
      refine fun unit after _ _ ⟨fewer, isUnit⟩ => ⟨Nat.lt_trans fewer shorter, fun sound isEdge below isType => ?_⟩
      exact isUnit (sound.of_reaches cursor.reaches_past) isEdge
        (Nat.le_trans below (sound.start_le_before cursor.reaches_past shorter)) isType
    unfold subprogramWithin
    refine .look rfl ?_
    split
    next isNext => exact body false (Cursor.left_pos_of_lexeme (by simp [isNext]))
    next isNext => exact body true (Cursor.left_pos_of_lexeme (by simp [isNext]))
    · split
      · refine .skip fun middle _ toMiddle _ _ => .mono (ih _ middle) ?_
        refine fun unit after _ _ ⟨fewer, isUnit⟩ => ⟨Nat.lt_of_lt_of_le fewer toMiddle.left_le, ?_⟩
        intro sound isEdge below isType
        exact isUnit (sound.of_reaches toMiddle) isEdge (Nat.le_trans below (sound.start_le_start toMiddle)) isType
      · refine (takes_typeSpec edge).bind fun type middle _ toMiddle _ isType => .mono (ih _ middle) ?_
        refine fun unit after _ _ ⟨fewer, isUnit⟩ => ⟨Nat.lt_of_lt_of_le fewer toMiddle.left_le, ?_⟩
        intro sound isEdge below _
        refine isUnit (sound.of_reaches toMiddle) isEdge (Nat.le_trans below (sound.start_le_start toMiddle)) ?_
        rintro _ ⟨⟩
        exact isType sound

end

theorem takes_subprogramOf (n : Nat) : Takes edge (subprogramOf n) (Ranged edge Subprogram.Sited) := by
  induction n with
  | zero => exact fun _ => .fail
  | succ n ih =>
    refine fun cursor => .look rfl (.look rfl (.mono (advances_subprogramWithin ih _ _ cursor) ?_))
    refine fun unit after _ _ ⟨shorter, isUnit⟩ => ⟨shorter, fun sound => ?_⟩
    exact isUnit sound sound.here.2.1 (Nat.le_refl _) (by simp)

variable (edge)

theorem takes_subprogram : Takes edge (subprogram : Reader n Subprogram) (Ranged edge Subprogram.Sited) :=
  takes_subprogramOf n

/-! Program units. -/

theorem takes_mainProgram : Takes edge (mainProgram : Reader n MainProgram) (Ranged edge MainProgram.Sited) := by
  intro cursor
  unfold mainProgram
  refine .look rfl ?_
  extract_lets rest
  have go (declared : Option String) (opened : Cursor n) (toOpened : cursor.Reaches opened) :
      Advances cursor (rest declared) opened (Taken edge cursor (Ranged edge MainProgram.Sited)) := by
    refine (gives_specification (takes_subprogram edge)).bind fun spec _ _ toSpec isSpec => ?_
    refine (gives_execution edge).bind fun body _ _ toBody isBody => ?_
    refine (gives_containedPart (takes_subprogram edge)).bind fun contained closing _ toContained areContained => ?_
    refine .bind (advances_constructEnd "program" [] closing) fun _ after toAfter _ _ => .look rfl (.pure ?_)
    have := toOpened.left_le
    have := toSpec.left_le
    have := toBody.left_le
    have := toContained.left_le
    refine ⟨by omega, fun sound => ?_⟩
    simp only [MainProgram.Sited, sitedDecls_iff, sitedStmts_iff, sitedSubprograms_iff]
    exact ⟨sound.span toAfter (by omega), isSpec sound, isBody sound, areContained sound⟩
  refine .accept (fun named _ _ _ => ?_) (go none cursor (.refl _))
  refine .bind (advances_name named) fun declared ended _ _ _ => ?_
  exact .bind (advances_statementEnd ended) fun _ opened toOpened _ _ => go _ opened toOpened

theorem takes_moduleUnit : Takes edge (moduleUnit : Reader n Module) (Ranged edge Module.Sited) := by
  intro cursor
  unfold moduleUnit
  refine .look rfl (.bind (advances_expectKeyword cursor .module) fun _ named _ _ shorter => ?_)
  refine .bind (advances_name named) fun declared ended _ _ _ => ?_
  refine .bind (advances_statementEnd ended) fun _ _ toOpened _ _ => ?_
  refine (gives_specification (takes_subprogram edge)).bind fun spec _ _ toSpec isSpec => ?_
  refine (gives_containedPart (takes_subprogram edge)).bind fun contained closing toClosing _ areContained => ?_
  refine .bind (advances_constructEnd "module" [] closing) fun _ after toAfter _ _ => .look rfl (.pure ?_)
  have := toClosing.left_le
  refine ⟨by omega, fun sound => ?_⟩
  simp only [Module.Sited, sitedDecls_iff, sitedSubprograms_iff]
  exact ⟨sound.span toAfter (by omega), isSpec sound, areContained sound⟩

theorem takes_programUnit : Takes edge (programUnit : Reader n ProgramUnit) (Ranged edge ProgramUnit.Sited) := by
  intro cursor
  unfold programUnit
  refine .look rfl ?_
  split
  · exact (takes_subprogram edge).bind fun _ _ _ _ shorter isUnit => .pure ⟨shorter, isUnit⟩
  · refine .look rfl ?_
    split
    · exact (takes_moduleUnit edge).bind fun _ _ _ _ shorter isUnit => .pure ⟨shorter, isUnit⟩
    · exact (takes_mainProgram edge).bind fun _ _ _ _ shorter isUnit => .pure ⟨shorter, isUnit⟩

theorem items_programItem :
    Items edge (programItem : Reader n (Option (List ProgramUnit))) (Ranged edge ProgramUnit.Sited) := by
  intro cursor
  refine .look rfl ?_
  split
  · exact Items.none
  · exact (takes_programUnit edge).item

theorem gives_program : Gives edge (program : Reader n Program) (Ranged edge Program.Sited) :=
  fun _ => (items_programItem edge).many.bind fun _ _ _ _ areUnits => .pure areUnits

end FortranInterface.Grammar
