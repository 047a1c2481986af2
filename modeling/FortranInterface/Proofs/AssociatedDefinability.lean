import Mathlib.Data.List.Perm.Subperm
import FortranInterface.Proofs.Arrangement
import FortranInterface.Proofs.Resolution.Change

/-!
Definability of arguments that are associate names. A name that stands for the whole of an object, through
other names or not, has the type and shape of the object and is a variable if the object is one. Whether
the object may be defined is asked of the name alone: a dummy argument that the procedure defines is
refused the name and the object together only if the name is protected where the object is protected or
has INTENT(IN).
-/

namespace FortranInterface

namespace Table

/-- A name that stands for the whole of `id`, through so many selectors. -/
inductive StandsFor (table : Table) (id : SymbolId) : Nat → SymbolId → Prop
  | selector {name} : table.details name = .associate (.whole id) → StandsFor table id 1 name
  | link {name next steps} : table.details name = .associate (.whole next) →
      StandsFor table id steps next → StandsFor table id (steps + 1) name

variable {table : Table} {id name : SymbolId} {steps : Nat} {object : ObjectDetails}

theorem isVariableWithin_object (isObject : table.details id = .object object) (links : Nat) :
    table.isVariableWithin (links + 1) (.whole id) = !(table.symbol id).has .parameter := by
  simp only [Expr.whole, isVariableWithin, isObject]

theorem exprTypeAndShapeWithin_object (isObject : table.details id = .object object) (links : Nat) :
    table.exprTypeAndShapeWithin (links + 1) (.whole id) = table.objectTypeAndShape id := by
  rw [details] at isObject
  simp only [Expr.whole, exprTypeAndShapeWithin, wholeSymbol?, Option.map_some, isObject]

namespace StandsFor

theorem isAssociate (chain : table.StandsFor id steps name) : ∃ selector, table.details name = .associate selector := by
  cases chain with
  | selector found => exact ⟨_, found⟩
  | link found _ => exact ⟨_, found⟩

theorem lt_size (chain : table.StandsFor id steps name) : name.index < table.symbols.size := by
  obtain ⟨selector, found⟩ := chain.isAssociate
  exact lt_size_of_ne_unresolved (by rw [found]; nofun)

section

variable (isObject : table.details id = .object object)
include isObject

variable (chain : table.StandsFor id steps name)
include chain

theorem steps_eq {others : Nat} (other : table.StandsFor id others name) : steps = others := by
  -- the object ends every chain, so none goes on where another one ends
  have ends : ∀ others, ¬ table.StandsFor id others id := by
    intro others beyond
    obtain ⟨selector, found⟩ := beyond.isAssociate
    rw [isObject] at found
    cases found
  induction chain generalizing others with
  | selector found =>
    cases other with
    | selector _ => rfl
    | link foundOther beyond =>
      rw [found] at foundOther
      cases foundOther
      exact absurd beyond (ends _)
  | link found chain ih =>
    cases other with
    | selector foundOther =>
      rw [found] at foundOther
      cases foundOther
      exact absurd chain (ends _)
    | link foundOther other =>
      rw [found] at foundOther
      cases foundOther
      rw [ih other]

theorem names : ∃ names : List SymbolId,
    names.length = steps ∧ names.Nodup ∧ ∀ other ∈ names, ∃ fewer, fewer ≤ steps ∧ table.StandsFor id fewer other := by
  induction chain with
  | @selector name found =>
    refine ⟨[name], rfl, List.pairwise_singleton _ name, fun other member => ?_⟩
    obtain rfl := List.mem_singleton.mp member
    exact ⟨1, Nat.le_refl 1, .selector found⟩
  | @link name next steps found chain ih =>
    obtain ⟨names, length, distinct, inner⟩ := ih
    have fresh : name ∉ names := by
      intro member
      obtain ⟨fewer, bound, again⟩ := inner name member
      have same := (StandsFor.link found chain).steps_eq isObject again
      omega
    refine ⟨name :: names, congrArg (· + 1) length, List.nodup_cons.mpr ⟨fresh, distinct⟩, ?_⟩
    intro other member
    rcases List.mem_cons.mp member with rfl | member
    · exact ⟨steps + 1, Nat.le_refl _, .link found chain⟩
    · obtain ⟨fewer, bound, inside⟩ := inner other member
      exact ⟨fewer, Nat.le_succ_of_le bound, inside⟩

theorem steps_le_size : steps ≤ table.symbols.size := by
  obtain ⟨names, length, distinct, inner⟩ := chain.names isObject
  have inTable : names ⊆ table.ids := by
    intro other member
    obtain ⟨fewer, -, inside⟩ := inner other member
    exact List.mem_map.mpr ⟨other.index, List.mem_range.mpr inside.lt_size, rfl⟩
  have bound := (List.subperm_of_subset distinct inTable).length_le
  simpa [length, ids] using bound

theorem answer_eq {α : Type} (answer : Nat → Expr → α) {value : α}
    (follows : ∀ links name selector, table.details name = .associate selector →
      answer (links + 1) (.whole name) = answer links selector)
    (ends : ∀ links, answer (links + 1) (.whole id) = value) :
    answer (table.symbols.size + 1) (.whole name) = value := by
  have bound := chain.steps_le_size isObject
  rw [← Nat.sub_add_cancel bound]
  generalize table.symbols.size - steps = links
  clear bound
  induction chain with
  | selector found => rw [follows _ _ _ found, ends]
  | link found _ ih => rw [follows _ _ _ found, ← Nat.add_assoc, ih]

theorem isVariable_eq : table.isVariable (.whole name) = !(table.symbol id).has .parameter := by
  refine chain.answer_eq isObject table.isVariableWithin ?_ (isVariableWithin_object isObject)
  intro links name selector found
  simp only [Expr.whole, isVariableWithin, found]

theorem exprTypeAndShape_eq : table.exprTypeAndShape (.whole name) = table.objectTypeAndShape id := by
  refine chain.answer_eq isObject table.exprTypeAndShapeWithin ?_ (exprTypeAndShapeWithin_object isObject)
  intro links name selector found
  rw [details] at found
  simp only [Expr.whole, exprTypeAndShapeWithin, wholeSymbol?, Option.map_some, found]

end

end StandsFor

end Table

namespace CallFault

def refused? : CallFault → Option DummyLabel
  | indefinable _ dummy _ => some dummy
  | _ => none

def Allows (faults : List CallFault) : Prop :=
  faults.filterMap refused? = []

@[simp] theorem allows_nil : Allows [] := rfl

variable {faults : List CallFault}

@[simp] theorem allows_cons {fault : CallFault} : Allows (fault :: faults) ↔ fault.refused? = none ∧ Allows faults := by
  cases found : fault.refused? <;> simp [Allows, found]

@[simp] theorem allows_append {first second : List CallFault} :
    Allows (first ++ second) ↔ Allows first ∧ Allows second := by
  simp [Allows, List.filterMap_append]

@[simp] theorem allows_when {condition : Bool} {fault : CallFault} :
    Allows (when condition fault) ↔ (condition = true → fault.refused? = none) := by
  cases condition <;> simp [when]

@[simp] theorem allows_ofMismatch? {found : Option Mismatch} : Allows (ofMismatch? found) := by
  cases found <;> simp [ofMismatch?, refused?]

theorem Allows.before (allows : Allows faults) (others : List CallFault) :
    (faults ++ others).filterMap refused? = others.filterMap refused? := by
  rw [List.filterMap_append, allows, List.nil_append]

theorem Allows.behind (allows : Allows faults) (others : List CallFault) :
    (others ++ faults).filterMap refused? = others.filterMap refused? := by
  rw [List.filterMap_append, allows, List.append_nil]

end CallFault

section Faults

open CallFault

variable (table : Table) (label : DummyLabel) (dummy : DataObject) (expr : Expr)
  (actual : TypeAndShape) (isElemental : Bool) (scope : Option ScopeId)

theorem allows_scalarForArrayFaults : Allows (scalarForArrayFaults table label dummy expr) := by
  simp only [scalarForArrayFaults]
  split
  · split
    · split <;> simp [refused?]
    · split
      · simp [refused?]
      · split <;> simp [refused?]
  · split
    · exact allows_nil
    · split <;> simp [refused?]

theorem allows_typeFaults : Allows (typeFaults table label dummy expr actual isElemental) := by
  simp only [typeFaults, shapeFaults]
  split
  · exact allows_ofMismatch?
  · refine allows_append.mpr ⟨by simp [refused?], ?_⟩
    split
    · exact allows_nil
    · split
      · simp [refused?]
      · split
        · exact allows_scalarForArrayFaults table label dummy expr
        · split <;> simp

theorem allows_wholeFaults : Allows (wholeFaults label dummy expr actual) := by
  simp [wholeFaults, refused?]

theorem allows_contiguityFaults : Allows (contiguityFaults table label dummy expr actual) := by
  simp [contiguityFaults, refused?]

theorem allows_allocatableFaults : Allows (allocatableFaults table label dummy expr actual) := by
  rw [allocatableFaults]
  split
  · exact allows_nil
  · split
    · simp [refused?]
    · split <;> simp [refused?]

theorem allows_pointerFaults : Allows (pointerFaults table label dummy expr) := by
  simp only [pointerFaults]
  split
  · exact allows_nil
  · refine allows_append.mpr ⟨by simp [refused?], ?_⟩
    split
    · exact allows_nil
    · split <;> simp [refused?]

theorem allows_declaredTypeFaults : Allows (declaredTypeFaults table dummy expr actual) := by
  rw [declaredTypeFaults]
  split
  · split
    · simp [refused?]
    · split <;> simp [refused?]
  · exact allows_nil

theorem allows_targetFaults : Allows (targetFaults table label dummy expr) := by
  simp [targetFaults, refused?]

theorem allows_lengthFaults : Allows (lengthFaults table dummy expr actual) := by
  simp only [lengthFaults]
  split
  · split
    · split <;> simp [refused?]
    · exact allows_nil
  · exact allows_nil

theorem refused_definabilityFaults (defined : dummy.isDefined = true) :
    (definabilityFaults table label dummy expr isElemental scope).filterMap refused? =
      if (indefinable? table expr scope).isSome then [label] else [] := by
  simp only [definabilityFaults, defined, if_true]
  rw [Allows.behind (by simp [refused?]), Allows.behind (by simp [refused?])]
  cases indefinable? table expr scope <;> simp [refused?]

theorem refused_dataFaults_whole (id : SymbolId) (isElementalCall : Bool) (defined : dummy.isDefined = true) :
    (dataFaults table label dummy (.whole id) isElementalCall scope).filterMap refused? =
      if (table.exprTypeAndShape (.whole id)).isSome && (indefinable? table (.whole id) scope).isSome
      then [label] else [] := by
  cases typed : table.exprTypeAndShape (.whole id) with
  | none =>
    rw [Expr.whole] at typed ⊢
    simp [dataFaults, typed, refused?]
  | some actual =>
    rw [Expr.whole] at typed ⊢
    simp only [dataFaults, typed]
    rw [(allows_lengthFaults _ _ _ _).behind, (allows_targetFaults _ _ _ _).behind,
      (allows_declaredTypeFaults _ _ _ _).behind, (allows_pointerFaults _ _ _ _).behind,
      (allows_allocatableFaults _ _ _ _ _).behind, (allows_contiguityFaults _ _ _ _ _).behind,
      List.append_assoc, (allows_typeFaults _ _ _ _ _ _).before, (allows_wholeFaults _ _ _ _).before,
      refused_definabilityFaults _ _ _ _ _ _ defined, Option.isSome_some, Bool.true_and]

end Faults

namespace Table

/-- A variable that may not be defined in a scope: an INTENT(IN) dummy argument, or one that is protected
there. -/
def isGuarded (table : Table) (scope : Option ScopeId) (id : SymbolId) : Bool :=
  (table.details id).isDummy && (table.symbol id).has .intentIn || (scope.map (table.isProtectedFrom id)).getD false

variable {table : Table} {scope : Option ScopeId} {id : SymbolId}

theorem isSome_indefinable?_whole :
    (indefinable? table (.whole id) scope).isSome = (!table.isVariable (.whole id) || table.isGuarded scope id) := by
  rw [indefinable?, isGuarded]
  cases isVariable : table.isVariable (.whole id) with
  | false => rfl
  | true =>
    simp only [Expr.whole, Expr.lastSymbol?, Option.bind_some, details, Bool.not_true,
      Bool.false_or, Bool.false_eq_true, ↓reduceIte]
    split
    next isIn => simp [isIn]
    next notIn =>
      rw [Bool.eq_false_iff.mpr notIn, Bool.false_or]
      split <;> simp_all

end Table

namespace Call

open CallFault Arrangement Table

def refusals (table : Table) (procedure : Procedure) (scope : Option ScopeId) (actuals : Actuals) :
    List DummyLabel :=
  (checkExplicit table procedure scope actuals).findings.filterMap (·.fault.refused?)

variable {table : Table} {procedure : Procedure} {scope : Option ScopeId} {actuals : Actuals}

def slotRefusals (table : Table) (isElementalCall : Bool) (scope : Option ScopeId) (dummy : Dummy)
    (actual : Actual) : List DummyLabel :=
  (argumentFaults table isElementalCall scope dummy actual).filterMap refused?

theorem refusals_slotFindings (isElementalCall : Bool) (index : Nat) (dummy : Dummy) (actual : Actual) :
    (slotFindings table isElementalCall scope index dummy (some actual)).filterMap
      (·.fault.refused?) = slotRefusals table isElementalCall scope dummy actual := by
  rw [slotFindings, findingsAt, List.filterMap_map]
  rfl

theorem refusals_conformanceFindings (actuals : List ElementalActual) :
    (conformanceFindings actuals).filterMap (·.fault.refused?) = [] := by
  cases actuals with
  | nil => rfl
  | cons first others =>
    rw [conformanceFindings, List.filterMap_filterMap, List.filterMap_eq_nil_iff]
    intro other _
    cases Shape.mismatch? first.label other.label first.shape other.shape <;> rfl

theorem refusals_of_complete (complete : (ofActuals procedure.dummies actuals).isComplete = true) :
    refusals table procedure scope actuals =
      (slotsFindings table procedure.isElemental scope 0 procedure.dummies
        (ofActuals procedure.dummies actuals).slots).filterMap (·.fault.refused?) := by
  rw [refusals, checkExplicit]
  simp only [complete, if_true, arrangedFindings]
  rw [List.filterMap_append]
  split
  · rw [refusals_conformanceFindings, List.append_nil]
  · rw [List.filterMap_nil, List.append_nil]

variable {dummy : Dummy}

theorem refusals_around {dummies : List Dummy} {slots : Actuals} {place : Nat} (table : Table)
    (scope : Option ScopeId) (isElementalCall : Bool) (index : Nat) (atDummies : dummies[place]? = some dummy)
    (length : slots.length = dummies.length) : ∃ before behind : List DummyLabel, ∀ actual,
      (slotsFindings table isElementalCall scope index dummies
          (slots.set place (some actual))).filterMap (·.fault.refused?) =
        before ++ (slotRefusals table isElementalCall scope dummy actual ++ behind) := by
  induction dummies generalizing index slots place with
  | nil => simp at atDummies
  | cons first dummies ih =>
    cases slots with
    | nil => cases length
    | cons slot slots =>
      cases place with
      | zero =>
        obtain rfl := Option.some_inj.mp atDummies
        refine ⟨[], (slotsFindings table isElementalCall scope (index + 1) dummies
          slots).filterMap (·.fault.refused?), fun actual => ?_⟩
        rw [List.set_cons_zero, slotsFindings, List.filterMap_append, refusals_slotFindings, List.nil_append]
      | succ place =>
        obtain ⟨before, behind, around⟩ := ih (index + 1) atDummies (Nat.succ.inj length)
        refine ⟨(slotFindings table isElementalCall scope index first slot).filterMap
          (·.fault.refused?) ++ before, behind, fun actual => ?_⟩
        rw [List.set_cons_succ, slotsFindings, List.filterMap_append, around, ← List.append_assoc]

theorem refusals_set_iff {index place : Nat} {actual : Actual}
    (complete : (ofActuals procedure.dummies actuals).isComplete = true)
    (goes : GoesTo procedure.dummies actuals index place actual) (atDummies : procedure.dummies[place]? = some dummy)
    (other : Actual) (keyword : other.keyword = actual.keyword) :
    refusals table procedure scope actuals =
        refusals table procedure scope (actuals.set index (some other)) ↔
      slotRefusals table procedure.isElemental scope dummy actual =
        slotRefusals table procedure.isElemental scope dummy other := by
  obtain ⟨completeOther, slotsOther⟩ := slots_set complete goes keyword
  have kept : (ofActuals procedure.dummies actuals).slots =
      (ofActuals procedure.dummies actuals).slots.set place (some actual) := by
    have held := (slots_eq_some_iff complete place actual).mpr ⟨index, goes⟩
    obtain ⟨bound, present⟩ := List.getElem?_eq_some_iff.mp held
    rw [← present, List.set_getElem_self]
  obtain ⟨before, behind, around⟩ :=
    refusals_around table scope procedure.isElemental 0 atDummies (slots_length complete)
  rw [refusals_of_complete complete, refusals_of_complete completeOther, slotsOther, kept,
    List.set_set, around, around, List.append_cancel_left_eq, List.append_cancel_right_eq]

theorem slotRefusals_whole {isElementalCall : Bool} {dataObject : DataObject} {actual : Actual} {id : SymbolId}
    (isData : dummy.kind = .object dataObject) (defined : dataObject.isDefined = true)
    (isWhole : actual.value = .expr (.whole id)) :
    slotRefusals table isElementalCall scope dummy actual =
      if (table.exprTypeAndShape (.whole id)).isSome && (indefinable? table (.whole id) scope).isSome
      then [labelOf dummy] else [] := by
  rw [slotRefusals, argumentFaults, isData, isWhole]
  exact refused_dataFaults_whole table (labelOf dummy) dataObject scope id isElementalCall defined

/-- A dummy argument that is defined refuses an associate name and the object that it stands for together
exactly if the object has no type or is a named constant, or if the name is guarded just as the object
is. -/
theorem definable_through_associate_iff {id name : SymbolId} {steps index place : Nat}
    {object : ObjectDetails} {actual : Actual} {dummy : Dummy} {dataObject : DataObject}
    (chain : table.StandsFor id steps name) (isObject : table.details id = .object object)
    (complete : (ofActuals procedure.dummies actuals).isComplete = true)
    (goes : GoesTo procedure.dummies actuals index place actual)
    (isName : actual.value = .expr (.whole name))
    (atDummies : procedure.dummies[place]? = some dummy) (isData : dummy.kind = .object dataObject)
    (defined : dataObject.isDefined = true) :
    refusals table procedure scope actuals =
        refusals table procedure scope (actuals.set index (some { actual with value := .expr (.whole id) })) ↔
      table.exprTypeAndShape (.whole id) = none ∨ (table.symbol id).has .parameter = true ∨
        table.isGuarded scope name = table.isGuarded scope id := by
  have typed : table.exprTypeAndShape (.whole name) = table.exprTypeAndShape (.whole id) :=
    (chain.exprTypeAndShape_eq isObject).trans (exprTypeAndShapeWithin_object isObject _).symm
  have isVariable : table.isVariable (.whole id) = !(table.symbol id).has .parameter :=
    isVariableWithin_object isObject _
  rw [refusals_set_iff complete goes atDummies { actual with value := .expr (.whole id) } rfl,
    slotRefusals_whole isData defined isName, slotRefusals_whole isData defined rfl, typed,
    isSome_indefinable?_whole, isSome_indefinable?_whole, chain.isVariable_eq isObject, isVariable]
  cases table.exprTypeAndShape (.whole id) <;> cases (table.symbol id).has .parameter <;>
    cases table.isGuarded scope name <;> cases table.isGuarded scope id <;> simp

/-- An integer `x`, a name `y` for `x` and a name `z` for `y`. -/
def twoNames (attributes : Flags Attribute) (isDummy : Bool) : Table :=
  ⟨#[⟨"x", attributes, .empty,
      .object ⟨some (.intrinsic .integer 4 none), [], [], none, isDummy⟩, ⟨0⟩, ⟨0, 1⟩⟩,
    ⟨"y", .empty, .empty, .associate (.whole ⟨0⟩), ⟨0⟩, ⟨2, 3⟩⟩,
    ⟨"z", .empty, .empty, .associate (.whole ⟨1⟩), ⟨0⟩, ⟨4, 5⟩⟩], #[.globalScope]⟩

def definesInteger : Procedure :=
  ⟨none, [.ofObject "k" ⟨.scalar (.plain .integer 4), [], .out, .empty⟩], .ofList [.subroutine]⟩

def wholeActual (id : SymbolId) : Actuals :=
  [some ⟨none, .expr (.whole id), false, none⟩]

theorem definable_through_associate_constant :
    refusals (twoNames (.ofList [.parameter]) false) definesInteger (some ⟨0⟩) (wholeActual ⟨2⟩) =
        [⟨"k"⟩] ∧
      refusals (twoNames (.ofList [.parameter]) false) definesInteger (some ⟨0⟩) (wholeActual ⟨2⟩) =
        refusals (twoNames (.ofList [.parameter]) false) definesInteger (some ⟨0⟩) (wholeActual ⟨0⟩) := by
  have chain : (twoNames (.ofList [.parameter]) false).StandsFor ⟨0⟩ 2 ⟨2⟩ :=
    .link rfl (.selector rfl)
  have complete : (ofActuals definesInteger.dummies (wholeActual ⟨2⟩)).isComplete = true := by decide
  have goes : GoesTo definesInteger.dummies (wholeActual ⟨2⟩) 0 0 ⟨none, .expr (.whole ⟨2⟩), false, none⟩ := ⟨rfl, rfl⟩
  refine ⟨by decide, ?_⟩
  exact (definable_through_associate_iff chain rfl complete goes rfl rfl rfl rfl).mpr (.inr (.inl rfl))

/-- An INTENT(IN) dummy argument is refused, but not under another name. -/
theorem indefinable_through_associate_missed :
    refusals (twoNames (.ofList [.intentIn]) true) definesInteger (some ⟨0⟩) (wholeActual ⟨0⟩) =
        [⟨"k"⟩] ∧
      refusals (twoNames (.ofList [.intentIn]) true) definesInteger (some ⟨0⟩) (wholeActual ⟨1⟩) = [] := by
  decide

end Call

end FortranInterface
