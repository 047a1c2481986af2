import FortranInterface.Proofs.Loops.Grammar

/-!
Reading ends. Every loop of the grammar either stops in a turn or leaves the cursor further on, also where a fault is
passed over, so repeating its turns without a bound comes to an end, with what the bounded loop gives. A whole program
is read to the last token, whatever the tokens are.
-/

namespace FortranInterface.Grammar

open FortranInterface.Tree

inductive ListItem : {n : Nat} → {α : Type} → Reader n α → Prop where
  | argument {n : Nat} : ListItem (argument (expression : Reader n Tree.Expr))
  | expression {n : Nat} : ListItem (expression : Reader n Tree.Expr)
  | dimension {n : Nat} (close : Mark) : ListItem (dimension close : Reader n Dimension)
  | attributeSpec {n : Nat} : ListItem (attributeSpec : Reader n AttributeSpec)
  | name {n : Nat} : ListItem (name : Reader n Located)
  | letterRange {n : Nat} : ListItem (letterRange : Reader n LetterRange)
  | implicitRule {n : Nat} : ListItem (implicitRule : Reader n ImplicitRule)
  | entity {n : Nat} : ListItem (entity : Reader n Entity)
  | procedureName {n : Nat} : ListItem (procedureName : Reader n Located)
  | bindingTarget {n : Nat} (interface : Option String) (attributes : List AttributeSpec) :
      ListItem (bindingTarget interface attributes : Reader n Binding)
  | dummyName {n : Nat} : ListItem (dummyName : Reader n DummyName)
  | association {n : Nat} : ListItem (association : Reader n (String × Tree.Expr))

def executionItem {n : Nat} (statement : Reader n (Option Stmt)) : Reader n (Option (List Stmt)) := do
  if (← peek).isNone || (← isNextKeyword .contains) || (← isAtEnd) ||
      (← isNextKeyword .else) || (← isNextWord "elseif") then
    return none
  return some (← statement).toList

inductive StatementItem : {n : Nat} → {α : Type} → Reader n (Option (List α)) → Prop where
  | programUnit {n : Nat} : StatementItem (programItem : Reader n (Option (List ProgramUnit)))
  | contained {n : Nat} : StatementItem (containedItem subprogram : Reader n (Option (List Subprogram)))
  | specification {n : Nat} : StatementItem (specificationItem subprogram : Reader n (Option (List Decl)))
  | interfaceBody {n : Nat} : StatementItem (interfaceItem subprogram : Reader n (Option (List InterfaceItem)))
  | component {n : Nat} : StatementItem (component : Reader n (Option (List Decl)))
  | binding {n : Nat} : StatementItem (bindings : Reader n (Option (List Binding)))
  | execution {n : Nat} : StatementItem (executionItem statement : Reader n (Option (List Stmt)))

inductive LayerOperand : {n : Nat} → Reader n Tree.Expr → (Lexeme → Option Join) → Prop where
  | product {n : Nat} : LayerOperand (powerOf (layerOf n)) productJoin?
  | sum {n : Nat} : LayerOperand (joined (powerOf (layerOf n)) productJoin?) sumJoin?
  | concatenation {n : Nat} : LayerOperand (sumOf (powerOf (layerOf n))) concatenationJoin?
  | conjunction {n : Nat} : LayerOperand (negationOf (layerOf n)) conjunctionJoin?
  | disjunction {n : Nat} : LayerOperand (joined (negationOf (layerOf n)) conjunctionJoin?) disjunctionJoin?
  | equivalence {n : Nat} : LayerOperand
      (joined (joined (negationOf (layerOf n)) conjunctionJoin?) disjunctionJoin?) equivalenceJoin?
  | defined {n : Nat} : LayerOperand
      (joined (joined (joined (negationOf (layerOf n)) conjunctionJoin?) disjunctionJoin?) equivalenceJoin?)
      definedJoin?

/-- The loops of the grammar: what a turn does, and the loop with the bound that is computed for it. -/
inductive GrammarLoop : {n : Nat} → {σ β : Type} → Turn n σ β → (σ → Reader n β) → Prop where
  | newlines {n : Nat} : GrammarLoop (newlineTurn : Turn n Unit Unit) fun _ => skipNewlines
  | restOfStatement {n : Nat} : GrammarLoop (statementTurn : Turn n Unit Unit) fun _ => skipToStatementEnd
  | list {n : Nat} {α : Type} {item : Reader n α} (isItem : ListItem item) :
      GrammarLoop (moreTurn item) fun done => do moreWithin item (← remaining) done
  | statements {n : Nat} {α : Type} {item : Reader n (Option (List α))} (isItem : StatementItem item) :
      GrammarLoop (manyTurn item) fun done => do manyWithin item ((← remaining) + 1) done
  | operators {n : Nat} {operand : Reader n Tree.Expr} {join? : Lexeme → Option Join}
      (isOperand : LayerOperand operand join?) :
      GrammarLoop (joinedTurn operand join?) fun left => do joinedWithin operand join? (← remaining) left
  | imageSelector {n : Nat} : GrammarLoop (imageSelectorTurn : Turn n Unit Unit) fun _ => imageSelector
  | selectors {n : Nat} : GrammarLoop (selectedTurn (arguments : Reader n (List Arg)))
      fun base => do selectedWithin arguments (← remaining) base
  | calledComponents {n : Nat} : GrammarLoop (calledComponentsTurn : Turn n Tree.Expr Tree.Expr)
      fun base => do calledComponentsWithin (← remaining) base
  | characterParameters {n : Nat} :
      GrammarLoop (characterParametersTurn : Turn n CharacterParameters CharacterParameters)
        fun found => do characterParametersWithin ((← remaining) + 1) found
  | closingParen {n : Nat} : GrammarLoop (closingParenTurn : Turn n Nat Unit)
      fun level => do closingParenWithin (← remaining) level
  | typeHeader {n : Nat} : GrammarLoop (typeHeaderTurn : Turn n TypeHeader TypeHeader)
      fun header => do typeHeaderWithin (← remaining) header
  | bindingAccess {n : Nat} : GrammarLoop (bindingAccessTurn : Turn n Unit Unit)
      fun _ => do bindingAccessWithin (← remaining)
  | headerTail {n : Nat} (isFunction : Bool) : GrammarLoop (headerTailTurn isFunction : Turn n HeaderTail HeaderTail)
      fun tail => do headerTailWithin isFunction (← remaining) tail
  | heading {n : Nat} : GrammarLoop (headingTurn (subprogramOf n))
      fun heading => do subprogramWithin (subprogramOf n) ((← remaining) + 1) heading

variable {n : Nat} {α σ β : Type}

abbrev anywhere : Nat → Prop := fun _ => True

theorem ListItem.forward {item : Reader n α} (isItem : ListItem item) : Forward (moreTurn item) := by
  cases isItem with
  | argument =>
    have spans : Spans anywhere (Grammar.expression : Reader n Tree.Expr) := spans_expression
    exact forward_moreTurn (advances_argument spans)
  | expression => exact forward_moreTurn (takes_expression anywhere)
  | dimension close => exact forward_moreTurn (takes_dimension anywhere close)
  | attributeSpec => exact forward_moreTurn (takes_attributeSpec anywhere)
  | name => exact forward_moreTurn (takes_name anywhere)
  | letterRange => exact forward_moreTurn (takes_letterRange anywhere)
  | implicitRule => exact forward_moreTurn (takes_implicitRule anywhere)
  | entity => exact forward_moreTurn (takes_entity anywhere)
  | procedureName => exact forward_moreTurn (takes_procedureName anywhere)
  | bindingTarget interface attributes => exact forward_moreTurn (takes_bindingTarget anywhere interface attributes)
  | dummyName => exact forward_moreTurn (takes_dummyName anywhere)
  | association => exact forward_moreTurn (takes_association anywhere)

variable {item : Reader n (Option (List α))}

theorem Items.strict {edge : Nat → Prop} {good : α → Prop} (items : Items edge item good) (cursor : Cursor n) :
    Advances cursor item cursor fun found after => found.isSome = true → after.left < cursor.left :=
  .mono (items cursor) fun _ _ _ _ both => both.1

theorem StatementItem.rests (isItem : StatementItem item) (cursor : Cursor n) (none : cursor.left = 0) :
    item cursor = .ok .none cursor := by
  rw [Cursor.eq_spent none]
  cases isItem with
  | specification =>
    change (if startsSubprogram [] = true then _ else _ : Reader n (Option (List Decl))) _ = _
    rw [if_neg (by simp [startsSubprogram])]
    rfl
  | _ => rfl

theorem StatementItem.forward (isItem : StatementItem item) : Forward (manyTurn item) := by
  refine forward_manyTurn ?_ isItem.rests
  cases isItem with
  | programUnit => exact (items_programItem anywhere).strict
  | contained => exact (items_containedItem (takes_subprogram anywhere)).strict
  | specification => exact (items_specificationItem (takes_subprogram anywhere)).strict
  | interfaceBody => exact (items_interfaceItem (takes_subprogram anywhere)).strict
  | component => exact (items_component anywhere).strict
  | binding => exact (items_bindings anywhere).strict
  | execution =>
    have reads : ReadsStatement anywhere (statement : Reader n (Option Stmt)) := (reads_entryOf n).1
    exact (items_executionOf reads).strict

theorem LayerOperand.forward {operand : Reader n Tree.Expr} {join? : Lexeme → Option Join}
    (isOperand : LayerOperand operand join?) : Forward (joinedTurn operand join?) := by
  have power (n : Nat) : Spans anywhere (powerOf (layerOf n)) := spans_powerOf (spans_layerOf n)
  have negation (n : Nat) : Spans anywhere (negationOf (layerOf n)) := spans_negationOf (spans_layerOf n)
  cases isOperand with
  | product => exact forward_joinedTurn (power _)
  | sum => exact forward_joinedTurn (spans_joined (power _) allJoin_product)
  | concatenation => exact forward_joinedTurn (spans_sumOf (power _))
  | conjunction => exact forward_joinedTurn (negation _)
  | disjunction => exact forward_joinedTurn (spans_joined (negation _) allJoin_conjunction)
  | equivalence =>
    exact forward_joinedTurn (spans_joined (spans_joined (negation _) allJoin_conjunction) allJoin_disjunction)
  | defined =>
    exact forward_joinedTurn
      (spans_joined (spans_joined (spans_joined (negation _) allJoin_conjunction) allJoin_disjunction) allJoin_equivalence)

namespace GrammarLoop

variable {turn : Turn n σ β} {loop : σ → Reader n β}

theorem forward (isLoop : GrammarLoop turn loop) : Forward turn := by
  cases isLoop with
  | newlines => exact forward_newlineTurn
  | restOfStatement => exact forward_statementTurn
  | list isItem => exact isItem.forward
  | statements isItem => exact isItem.forward
  | operators isOperand => exact isOperand.forward
  | imageSelector => exact forward_imageSelectorTurn
  | selectors =>
    refine forward_selectedTurn fun cursor => ?_
    have strict : Advances cursor arguments cursor fun values after => after.left < cursor.left ∧
        (cursor.Sound anywhere → ∀ value ∈ values, value.Within anywhere cursor.here.start after.before) :=
      advances_arguments cursor
    exact .mono strict fun _ _ _ _ both => both.1
  | calledComponents => exact forward_calledComponentsTurn
  | characterParameters => exact forward_characterParametersTurn
  | closingParen => exact forward_closingParenTurn
  | typeHeader => exact forward_typeHeaderTurn
  | bindingAccess => exact forward_bindingAccessTurn
  | headerTail isFunction => exact forward_headerTailTurn isFunction
  | heading => exact forward_headingTurn (takes_subprogram anywhere)

theorem runs (isLoop : GrammarLoop turn loop) (state : σ) (cursor : Cursor n) :
    Runs turn state cursor (loop state cursor) := by
  have forward := isLoop.forward
  cases isLoop with
  | newlines => exact runs_skipNewlines cursor
  | restOfStatement => exact runs_skipToStatementEnd cursor
  | statements => exact iterates_manyWithin.runs forward state cursor
  | imageSelector => exact iterates_imageSelectorWithin.runs forward state cursor
  | characterParameters => exact iterates_characterParametersWithin.runs forward state cursor
  | heading => exact (iterates_subprogramWithin _).runs forward state cursor
  -- The others have as many turns as there are tokens; without tokens a turn only stops.
  | list => exact iterates_moreWithin.runs_left forward (fun _ _ _ _ => ⟨_, rfl, rfl⟩) state cursor
  | operators => exact iterates_joinedWithin.runs_left forward (fun _ _ _ _ => ⟨_, rfl, rfl⟩) state cursor
  | selectors => exact (iterates_selectedWithin _).runs_left forward (fun _ _ _ _ => ⟨_, rfl, rfl⟩) state cursor
  | calledComponents => exact iterates_calledComponentsWithin.runs_left forward (fun _ _ _ _ => ⟨_, rfl, rfl⟩) state cursor
  | closingParen =>
    refine iterates_closingParenWithin.runs_left forward (fun state _ _ _ => ?_) state cursor
    cases state <;> exact ⟨_, rfl, rfl⟩
  | typeHeader => exact iterates_typeHeaderWithin.runs_left forward (fun _ _ _ _ => ⟨_, rfl, rfl⟩) state cursor
  | bindingAccess => exact iterates_bindingAccessWithin.runs_left forward (fun _ _ _ _ => ⟨_, rfl, rfl⟩) state cursor
  | headerTail isFunction =>
    refine (iterates_headerTailWithin isFunction).runs_left forward (fun state _ _ _ => ?_) state cursor
    cases isFunction <;> exact ⟨_, rfl, rfl⟩

end GrammarLoop

theorem rest_of_programItem {last after : Cursor n} (isNone : programItem last = .ok .none after) : after.rest = [] := by
  cases isNext : last.rest with
  | nil =>
    have isLast : programItem last = (if last.lexeme?.isNone = true then pure .none else do
      return some [← programUnit] : Reader n (Option (List ProgramUnit))) last := rfl
    rw [isLast, if_pos (by simp [Cursor.lexeme?, isNext])] at isNone
    cases isNone
    exact isNext
  | cons token rest =>
    have isLast : programItem last = (if last.lexeme?.isNone = true then pure .none else do
      return some [← programUnit] : Reader n (Option (List ProgramUnit))) last := rfl
    rw [isLast, if_neg (by simp [Cursor.lexeme?, isNext])] at isNone
    simp only [Bind.bind, EStateM.bind] at isNone
    cases isUnit : programUnit last with
    | ok unit after =>
      rw [isUnit] at isNone
      cases isNone
    | error fault after =>
      rw [isUnit] at isNone
      cases isNone

theorem program_ok (cursor : Cursor n) : ∃ found after, program cursor = .ok found after ∧ after.rest = [] := by
  have isLoop : GrammarLoop (manyTurn (programItem : Reader n _)) _ := .statements .programUnit
  obtain ⟨units, last, after, isUnits, isNone⟩ := (isLoop.runs #[] cursor).ended
  refine ⟨⟨units⟩, after, ?_, rest_of_programItem isNone⟩
  have isProgram : program cursor = (do return ⟨← many programItem⟩ : Reader n Program) cursor := rfl
  have isMany : many programItem cursor = .ok units after := isUnits
  simp only [isProgram, Bind.bind, EStateM.bind, isMany]
  rfl

/-! The recursion of the grammar. What is nested is read by readers for one token less. The readers for no tokens at all
answer as the others do where no token is left. -/

section

variable {cursor : Cursor n} (none : cursor.left = 0)
include none

theorem layerOf_end (entry : Layer) : layerOf n entry cursor = .error ⟨.none, "an expression", cursor.here⟩ cursor := by
  rw [Cursor.eq_spent none]
  cases n with
  | zero => rfl
  | succ n => cases entry <;> rfl

theorem arguments_end : arguments cursor = .error ⟨.none, "'('", cursor.here⟩ cursor := by
  rw [Cursor.eq_spent none]
  cases n <;> rfl

theorem subprogramOf_end : subprogramOf n cursor = .error ⟨.none, "a type specification", cursor.here⟩ cursor := by
  rw [Cursor.eq_spent none]
  cases n <;> rfl

theorem statement_end : entryOf n .statement cursor = .ok .none cursor := by
  rw [Cursor.eq_spent none]
  cases n <;> rfl

theorem branches_end (start : Nat) (value : Tree.Expr) :
    entryOf n (.branches start value) cursor = .error ⟨.none, "end if", cursor.here⟩ cursor := by
  rw [Cursor.eq_spent none]
  cases n <;> rfl

end

/-- What the readers of nested constructs answer at the end of the text, for any number of tokens. -/
structure DescentEnds (cursor : Cursor n) : Prop where
  expression : ∀ entry, layerOf n entry cursor = .error ⟨none, "an expression", cursor.here⟩ cursor
  arguments : arguments cursor = .error ⟨none, "'('", cursor.here⟩ cursor
  subprogram : subprogramOf n cursor = .error ⟨none, "a type specification", cursor.here⟩ cursor
  statement : entryOf n .statement cursor = .ok none cursor
  branches : ∀ start value, entryOf n (.branches start value) cursor = .error ⟨none, "end if", cursor.here⟩ cursor

/-- Every turn of a loop of the grammar ends the loop or leaves the cursor further on, and the loop comes to an end
without a bound on its turns, with what it gives within the bound. Nor does the recursion stop before the text does. So
any tokens at all are read to the last one. -/
theorem reading_ends :
    (∀ {n : Nat} {σ β : Type} {turn : Turn n σ β} {loop : σ → Reader n β}, GrammarLoop turn loop →
      Forward turn ∧ ∀ state cursor, Runs turn state cursor (loop state cursor)) ∧
    (∀ {n : Nat} (cursor : Cursor n), cursor.left = 0 → DescentEnds cursor) ∧
    ∀ (tokens : List Token) (size : Nat), ∃ found after,
      program (Cursor.ofTokens tokens size) = .ok found after ∧ after.rest = [] := by
  refine ⟨fun isLoop => ⟨isLoop.forward, isLoop.runs⟩, fun cursor none => ?_, fun tokens size => program_ok _⟩
  exact ⟨layerOf_end none, arguments_end none, subprogramOf_end none, statement_end none, branches_end none⟩

theorem reading_ends_stray :
    GrammarLoop (manyTurn programItem) (fun done => do manyWithin programItem ((← remaining) + 1) done : _ → Reader 1 _) ∧
    Runs (manyTurn programItem) #[] (Cursor.ofTokens [⟨.stray "?", ⟨0, 1⟩⟩] 1)
      (many programItem (Cursor.ofTokens [⟨.stray "?", ⟨0, 1⟩⟩] 1)) ∧
    DescentEnds (Cursor.ofTokens [] 1) :=
  ⟨.statements .programUnit, (reading_ends.1 (.statements .programUnit)).2 #[] _, reading_ends.2.1 _ rfl⟩

end FortranInterface.Grammar
