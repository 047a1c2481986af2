import FortranInterface.Proofs.Resolution.Program

/-!
Types of undeclared names in nested scoping units. A unit starts with the rules of its host, and adds its own
behind them. So a name has the type that the innermost unit with something to say about it gives, exactly
if the rules that come first are not those of an outer unit that the inner ones mean to replace.
-/

namespace FortranInterface

open Tree (ImplicitRule TypeSpec)

/-- What the statements of a scoping unit say about undeclared names. -/
inductive ImplicitPart where
  | silent
  | implicitNone
  | implicit (rules : List ImplicitRule)

namespace ImplicitPart

def apply : ImplicitPart → ImplicitTyping → ImplicitTyping
  | silent, typing => typing
  | implicitNone, typing => typing.disable
  | implicit rules, typing => rules.foldl ImplicitTyping.addRule typing

def typing (parts : List ImplicitPart) : ImplicitTyping :=
  parts.foldr apply .default

def decided? (letter : Char) : List ImplicitPart → Option (Option TypeSpec)
  | [] => none
  | silent :: outer => decided? letter outer
  | implicitNone :: _ => some none
  | implicit rules :: outer =>
    match rules.find? (·.covers letter) with
    | some rule => some (some rule.type)
    | none => decided? letter outer

def typeOf? (parts : List ImplicitPart) (name : String) : Option TypeSpec :=
  name.toList.head?.bind fun first =>
    (decided? first.toLower parts).getD (some (ImplicitTyping.defaultType first.toLower))

def outermost? (letter : Char) : List ImplicitPart → Option ImplicitRule
  | [] => none
  | implicit rules :: outer => (outermost? letter outer).or (rules.find? (·.covers letter))
  | _ :: outer => outermost? letter outer

def isDisabled : List ImplicitPart → Bool
  | [] => false
  | implicitNone :: _ => true
  | silent :: outer => isDisabled outer
  | implicit rules :: outer => rules.isEmpty && isDisabled outer

variable {letter : Char} {parts : List ImplicitPart}

theorem foldl_addRule (rules : List ImplicitRule) (typing : ImplicitTyping) :
    rules.foldl ImplicitTyping.addRule typing = ⟨rules.isEmpty && typing.disabled, typing.rules ++ rules⟩ := by
  induction rules generalizing typing with
  | nil => simp
  | cons rule rules ih => simp [ih, ImplicitTyping.addRule]

theorem disabled_typing (parts : List ImplicitPart) : (typing parts).disabled = isDisabled parts := by
  induction parts with
  | nil => rfl
  | cons part outer ih =>
    cases part with
    | silent => exact ih
    | implicitNone => rfl
    | implicit rules =>
      change (rules.foldl ImplicitTyping.addRule (typing outer)).disabled = _
      rw [foldl_addRule, ih]
      rfl

theorem find?_typing (letter : Char) (parts : List ImplicitPart) :
    (typing parts).rules.find? (·.covers letter) = outermost? letter parts := by
  induction parts with
  | nil => rfl
  | cons part outer ih =>
    cases part with
    | silent => exact ih
    | implicitNone => exact ih
    | implicit rules =>
      change (rules.foldl ImplicitTyping.addRule (typing outer)).rules.find? _ = _
      rw [foldl_addRule, List.find?_append, ih]
      rfl

theorem decided?_ne_none {rule : ImplicitRule} (covered : outermost? letter parts = some rule) :
    decided? letter parts ≠ none := by
  induction parts with
  | nil => cases covered
  | cons part outer ih =>
    cases part with
    | silent => exact ih covered
    | implicitNone => simp [decided?]
    | implicit rules =>
      rw [decided?]
      cases found : rules.find? (·.covers letter) with
      | some => simp
      | none =>
        rw [outermost?, found, Option.or_none] at covered
        exact ih covered

open Classical in
theorem decided?_of_uncovered (uncovered : outermost? letter parts = none) :
    decided? letter parts = if implicitNone ∈ parts then some none else none := by
  induction parts with
  | nil => rfl
  | cons part outer ih =>
    cases part with
    | silent =>
      rw [decided?, ih uncovered]
      simp
    | implicitNone => simp [decided?]
    | implicit rules =>
      rw [outermost?, Option.or_eq_none_iff] at uncovered
      rw [decided?, uncovered.2]
      simp [ih uncovered.1]

theorem isDisabled_of_mem (disabled : isDisabled parts = true) : implicitNone ∈ parts := by
  induction parts with
  | nil => cases disabled
  | cons part outer ih =>
    cases part with
    | silent => exact .tail _ (ih disabled)
    | implicitNone => exact .head _
    | implicit rules => exact .tail _ (ih (Bool.and_eq_true_iff.mp disabled).2)

/-- The rules give a name the type by host association exactly if the innermost unit that decides agrees with
the outermost rule for the letter, and if there is none, `IMPLICIT NONE` is the last word wherever it is
said. -/
theorem typeOf?_typing_iff {name : String} {first : Char} (isFirst : name.toList.head? = some first) :
    (typing parts).typeOf? name = typeOf? parts name ↔
      (∀ rule, outermost? first.toLower parts = some rule →
        decided? first.toLower parts = some (some rule.type)) ∧
      (outermost? first.toLower parts = none → implicitNone ∈ parts → isDisabled parts = true) := by
  obtain ⟨rest, isName⟩ : ∃ rest, name.toList = first :: rest := List.head?_eq_some_iff.mp isFirst
  rw [ImplicitTyping.typeOf?, isName]
  simp only [find?_typing, disabled_typing]
  rw [typeOf?, isFirst, Option.bind_some]
  cases covered : outermost? first.toLower parts with
  | some rule =>
    obtain ⟨decision, decides⟩ := Option.ne_none_iff_exists'.mp (decided?_ne_none covered)
    rw [decides, Option.getD_some]
    constructor
    · intro same
      refine ⟨fun other isOther => ?_, nofun⟩
      obtain rfl := Option.some_inj.mp isOther
      exact congrArg some same.symm
    · rintro ⟨agrees, -⟩
      exact (Option.some_inj.mp (agrees rule rfl)).symm
  | none =>
    rw [decided?_of_uncovered covered]
    by_cases said : implicitNone ∈ parts
    · simp [said]
    · have enabled : isDisabled parts = false :=
        Bool.eq_false_iff.mpr fun disabled => said (isDisabled_of_mem disabled)
      simp [said, enabled]

end ImplicitPart

namespace Resolution

structure Sound (state : Resolution) : Prop where
  nonempty : 0 < state.table.scopes.size
  inside : ∀ scope, state.implicit.lookup scope ≠ none → scope ≠ Table.global ∧ scope.index < state.table.scopes.size

/-- Neither the hosts of a scope nor the rules of one of them change. -/
structure KeepsRules (scope : ScopeId) (state next : Resolution) : Prop where
  hosts : next.table.hosts scope = state.table.hosts scope
  rules : ∀ host ∈ state.table.hosts scope, next.implicit.lookup host = state.implicit.lookup host

variable {state next : Resolution} {scope : ScopeId}

theorem lookup_cons_of_ne {rules : List (ScopeId × ImplicitTyping)} {typing : ImplicitTyping}
    {other : ScopeId} (apart : other ≠ scope) : ((scope, typing) :: rules).lookup other = rules.lookup other := by
  rw [List.lookup_cons, beq_false_of_ne apart]

theorem findSome?_congr {α β : Type} {first second : α → Option β} {values : List α}
    (same : ∀ value ∈ values, first value = second value) : values.findSome? first = values.findSome? second := by
  induction values with
  | nil => rfl
  | cons value values ih =>
    rw [List.findSome?_cons, List.findSome?_cons, same value (.head _),
      ih fun other member => same other (.tail _ member)]

theorem KeepsRules.implicitFor_eq (keeps : KeepsRules scope state next) :
    next.implicitFor scope = state.implicitFor scope := by
  rw [implicitFor, implicitFor, keeps.hosts, findSome?_congr keeps.rules]

theorem implicitFor_of_lookup {typing : ImplicitTyping} (own : state.implicit.lookup scope = some typing) :
    state.implicitFor scope = typing := by
  obtain ⟨outer, isHosts⟩ := state.table.hosts_eq scope
  rw [implicitFor, isHosts, List.findSome?_cons, own]
  rfl

theorem implicitFor_of_inside {host : ScopeId} (inside : state.table.Inside host scope)
    (own : state.implicit.lookup scope = none) : state.implicitFor scope = state.implicitFor host := by
  rw [implicitFor, inside.hosts_eq, List.findSome?_cons, own]
  rfl

theorem implicitFor_global (sound : Sound state) : state.implicitFor Table.global = .default := by
  have isHosts : state.table.hosts Table.global = [Table.global] := by
    rw [Table.hosts]
    split
    · exact if_neg (Nat.not_lt_zero _)
    · rfl
  have own : state.implicit.lookup Table.global = none :=
    Classical.byContradiction fun known => (sound.inside _ known).1 rfl
  rw [implicitFor, isHosts, List.findSome?_cons, own]
  rfl

theorem Sound.lookup_of_not_lt (sound : Sound state) (beyond : ¬ scope.index < state.table.scopes.size) :
    state.implicit.lookup scope = none :=
  Classical.byContradiction fun known => beyond (sound.inside scope known).2

end Resolution

namespace Resolve

open Resolution

variable {state : Resolution}

abbrev Calm {α : Type} (computation : Resolve α) : Prop :=
  Keeps (fun state => (state.implicit, state.table.scopes.size)) computation

theorem calm_addSymbol (scope : ScopeId) (name : String) (attributes : Attributes) (details : Details)
    (span : Span) : Calm (addSymbol scope name attributes details span) :=
  fun _ => Prod.ext rfl Array.size_modify

theorem calm_subprogramSymbol (host : ScopeId) (name : String) (span : Span) (isInterface : Bool) :
    Calm (subprogramSymbol host name span isInterface) := by
  have added : Calm (do return (← addSymbol host name .empty .unresolved span, false)) :=
    .bind (calm_addSymbol _ _ _ _ _) fun _ => .pure _
  refine .bind .table fun table => ?_
  split
  · exact .ite (.pure _) (.ite (.pure _) (.bind (fun _ => rfl) fun _ => added))
  · exact added

theorem calm_declareDummy (scope : ScopeId) (dummy : Tree.DummyName) : Calm (declareDummy scope dummy) := by
  cases dummy with
  | name => exact .bind (calm_addSymbol _ _ _ _ _) fun _ => .pure _
  | star => exact .pure _

theorem calm_declareResult (scope : ScopeId) (subprogram : Tree.Subprogram) :
    Calm (declareResult scope subprogram) := by
  unfold declareResult
  split
  · exact .pure _
  · exact .bind (calm_addSymbol _ _ _ _ _) fun _ => .bind (fun _ => rfl) fun _ => .pure _

structure Made (scope : ScopeId) (own : Option ImplicitTyping) (state next : Resolution) : Prop where
  index : scope.index = state.table.scopes.size
  size : next.table.scopes.size = state.table.scopes.size + 1
  rules : next.implicit = (own.map fun typing => (scope, typing)).toList ++ state.implicit

theorem Made.calm {α : Type} {scope : ScopeId} {own : Option ImplicitTyping} {next : Resolution}
    {computation : Resolve α} (made : Made scope own state next) (calm : Calm computation) :
    Made scope own state (computation.run next).2 :=
  have same := Prod.ext_iff.mp (calm next)
  ⟨made.index, same.2.trans made.size, same.1.trans made.rules⟩

theorem made_addScope {kind : ScopeKind} {name : Option String} {parent : ScopeId} {symbol : Option SymbolId} :
    Made ((addScope kind name parent symbol).run state).1 none state ((addScope kind name parent symbol).run state).2 :=
  ⟨rfl, Array.size_push _, rfl⟩

theorem made_declareSubprogram (host : ScopeId) (subprogram : Tree.Subprogram) (role : SubprogramRole) :
    Made ((declareSubprogram host subprogram role).run state).1.2
      (if role.isInterface then some .default else none) state
      ((declareSubprogram host subprogram role).run state).2 := by
  obtain ⟨rules, scopes⟩ := Prod.ext_iff.mp
    (calm_subprogramSymbol host subprogram.name subprogram.span role.isInterface state)
  rw [declareSubprogram_eq, run_bind]
  generalize (subprogramSymbol host subprogram.name subprogram.span role.isInterface).run state = first
    at rules scopes ⊢
  obtain ⟨⟨id, isDummy⟩, first⟩ := first
  rw [run_bind]
  have opened : Made ((addScope (if role.isInterface then .interface else .subprogram)
      (some subprogram.name) host (some id)).run first).1 none state ((addScope
        (if role.isInterface then .interface else .subprogram) (some subprogram.name) host
        (some id)).run first).2 :=
    ⟨scopes, (Array.size_push _).trans (congrArg (· + 1) scopes), rules⟩
  generalize (addScope _ _ host (some id)).run first = second at opened ⊢
  obtain ⟨inner, second⟩ := second
  have complete : Calm (fillSubprogram subprogram role id isDummy inner) :=
    .bind (.mapM (calm_declareDummy inner)) fun _ => .bind (calm_declareResult inner subprogram)
      fun _ => .bind (fun _ => rfl) fun _ => .pure _
  cases role.isInterface with
  | false => exact opened.calm complete
  | true =>
    have ruled : Made inner (some .default) state
        { second with
          table := second.table.modifyScope inner fun found => { found with implicitNone := false }
          implicit := (inner, .default) :: second.implicit } :=
      ⟨opened.index, Array.size_modify.trans opened.size, congrArg _ opened.rules⟩
    exact ruled.calm complete

theorem inside_declareSubprogram {host : ScopeId} (subprogram : Tree.Subprogram) (role : SubprogramRole)
    (isHost : host.index < state.table.scopes.size) :
    ((declareSubprogram host subprogram role).run state).2.table.Inside host
        ((declareSubprogram host subprogram role).run state).1.2 ∧
      state.table.Widens ((declareSubprogram host subprogram role).run state).2.table := by
  have leads : Leads (.anywhere false) state (declareSubprogram host subprogram role) fun found next =>
      host.index < state.table.scopes.size → Declared host subprogram.name found.2 state.table next.table :=
    leads_declareSubprogram (Mode.anywhere.subprogram subprogram)
  obtain ⟨evolves, declared⟩ := leads (Mode.anywhere.state state)
  exact ⟨(declared isHost).inside, evolves.widens⟩

theorem made_unitScope (kind : ScopeKind) (name : String) (details : ScopeId → Details) (span : Span) :
    Made ((unitScope kind name details span).run state).1 none state
      ((unitScope kind name details span).run state).2 := by
  have rest (scope : ScopeId) : Calm (do
      let id ← addSymbol Table.global name .empty (details scope) span
      change fun table => table.modifyScope scope fun found => { found with symbol := some id }
      return scope) :=
    .bind (calm_addSymbol _ _ _ _ _) fun _ => .bind (fun _ => Prod.ext rfl Array.size_modify) fun _ => .pure _
  have opened : Made ⟨state.table.scopes.size⟩ none state
      ((addScope kind (some name) Table.global none).run state).2 := made_addScope
  exact opened.calm (rest ⟨state.table.scopes.size⟩)

theorem inside_unitScope {kind : ScopeKind} {name : String} {details : ScopeId → Details} {span : Span}
    (fresh : ∀ scope table, Table.Fresh table (details scope)) (nonempty : 0 < state.table.scopes.size) :
    ((unitScope kind name details span).run state).2.table.Inside Table.global
      ((unitScope kind name details span).run state).1 := by
  have leads : Leads (.anywhere false) state (unitScope kind name details span) _ := leads_unitScope trivial fresh
  exact (leads (Mode.anywhere.state state)).2 nonempty

end Resolve

namespace Resolution

open Resolve

/-- A state in which a scope has the rules that the nested units make, the innermost first. -/
structure Ruled (state : Resolution) (scope : ScopeId) (typing : ImplicitTyping) : Prop where
  sound : Sound state
  inner : scope ≠ Table.global
  bound : scope.index < state.table.scopes.size
  typing : state.implicitFor scope = typing

variable {state next : Resolution} {scope host : ScopeId} {typing : ImplicitTyping}

theorem Sound.of_made {own : Option ImplicitTyping} (sound : Sound state)
    (made : Made scope own state next) : Sound next := by
  have inner : scope ≠ Table.global := by
    rintro rfl
    exact Nat.ne_of_gt sound.nonempty made.index.symm
  refine ⟨made.size ▸ Nat.succ_pos _, fun other known => ?_⟩
  by_cases here : other = scope
  · subst here
    exact ⟨inner, by rw [made.index, made.size]; omega⟩
  · have before : state.implicit.lookup other ≠ none := by
      rw [made.rules] at known
      cases own with
      | none => exact known
      | some => exact fun unknown => known ((lookup_cons_of_ne here).trans unknown)
    obtain ⟨local_, bound⟩ := sound.inside other before
    exact ⟨local_, by rw [made.size]; omega⟩

theorem Made.lookup_none (made : Made scope none state next) (sound : Sound state) :
    next.implicit.lookup scope = none := by
  rw [made.rules]
  exact sound.lookup_of_not_lt (Nat.not_lt.mpr (Nat.le_of_eq made.index.symm))

namespace Ruled

theorem of_unit (sound : Sound state) (made : Made scope none state next)
    (inside : next.table.Inside Table.global scope) : Ruled next scope .default := by
  refine ⟨sound.of_made made, inside.ne_global, inside.bound, ?_⟩
  rw [implicitFor_of_inside inside (Made.lookup_none made sound), implicitFor_global (sound.of_made made)]

theorem of_interface (sound : Sound state) (made : Made scope (some .default) state next) :
    Ruled next scope .default := by
  refine ⟨sound.of_made made, ?_, by rw [made.index, made.size]; omega, implicitFor_of_lookup ?_⟩
  · rintro rfl
    exact Nat.ne_of_gt sound.nonempty made.index.symm
  · rw [made.rules]
    exact List.lookup_cons_self

theorem of_contained (ruled : Ruled state host typing) (made : Made scope none state next)
    (inside : next.table.Inside host scope) (widens : state.table.Widens next.table) : Ruled next scope typing := by
  have keeps : KeepsRules host state next :=
    ⟨Table.hosts_of_widens widens ruled.bound, fun _ _ => by rw [made.rules]; rfl⟩
  refine ⟨ruled.sound.of_made made, inside.ne_global, inside.bound, ?_⟩
  rw [implicitFor_of_inside inside (Made.lookup_none made ruled.sound), keeps.implicitFor_eq, ruled.typing]

variable (ruled : Ruled state scope typing)
include ruled

theorem changeImplicit (change : ImplicitTyping → ImplicitTyping) :
    Ruled ((changeImplicit scope change).run state).2 scope (change typing) := by
  refine ⟨⟨ruled.sound.nonempty, fun other known => ?_⟩, ruled.inner, ruled.bound, ?_⟩
  · by_cases here : other = scope
    · subst here
      exact ⟨ruled.inner, ruled.bound⟩
    · exact ruled.sound.inside other fun unknown => known ((lookup_cons_of_ne here).trans unknown)
  · rw [← ruled.typing]
    exact implicitFor_of_lookup List.lookup_cons_self

theorem keepsRules (sound : Sound next) (widens : state.table.Widens next.table) (keeps : KeepsRules scope state next) :
    Ruled next scope typing :=
  ⟨sound, ruled.inner, Nat.lt_of_lt_of_le ruled.bound widens.size, keeps.implicitFor_eq.trans ruled.typing⟩

theorem setImplicitNone : Ruled { state with table := state.table.setImplicitNone scope } scope typing := by
  have widens : state.table.Widens (state.table.setImplicitNone scope) :=
    Table.widens_modifyScope (fun _ => rfl) fun _ _ known => known
  have size : (state.table.setImplicitNone scope).scopes.size = state.table.scopes.size :=
    Array.size_modify
  have keeps : KeepsRules scope state { state with table := state.table.setImplicitNone scope } :=
    ⟨Table.hosts_of_widens widens ruled.bound, fun _ _ => rfl⟩
  have sound : Sound { state with table := state.table.setImplicitNone scope } :=
    ⟨size ▸ ruled.sound.nonempty, fun other known => size ▸ ruled.sound.inside other known⟩
  exact ruled.keepsRules sound widens keeps

theorem implicit (rules : List ImplicitRule) :
    Ruled ((rules.forM fun rule => Resolve.changeImplicit scope (·.addRule rule)).run state).2 scope
      (rules.foldl ImplicitTyping.addRule typing) := by
  induction rules generalizing state typing with
  | nil => exact ruled
  | cons rule rules ih => exact ih (ruled.changeImplicit (·.addRule rule))

end Ruled

/-- Nested scoping units while a program is resolved: what the unit of a scope and those around it have said
so far, the innermost first. A chain of units starts with a program unit or with an interface body. -/
inductive Nests : Resolution → ScopeId → List ImplicitPart → Prop where
  | module {state : Resolution} (name : String) (span : Span) : Sound state →
      Nests ((unitScope .module name .module span).run state).2
        ((unitScope .module name .module span).run state).1 [.silent]
  | main {state : Resolution} (name : String) (span : Span) : Sound state →
      Nests ((unitScope .mainProgram name .mainProgram span).run state).2
        ((unitScope .mainProgram name .mainProgram span).run state).1 [.silent]
  | external {state : Resolution} (subprogram : Tree.Subprogram) : Sound state →
      Nests ((declareSubprogram Table.global subprogram .external).run state).2
        ((declareSubprogram Table.global subprogram .external).run state).1.2 [.silent]
  | body {state : Resolution} (host : ScopeId) (subprogram : Tree.Subprogram) (isAbstract : Bool) :
      Sound state →
      Nests ((declareSubprogram host subprogram (.interface isAbstract)).run state).2
        ((declareSubprogram host subprogram (.interface isAbstract)).run state).1.2 [.silent]
  | contained {state : Resolution} {host : ScopeId} {parts : List ImplicitPart}
      (subprogram : Tree.Subprogram) : Nests state host parts →
      Nests ((declareSubprogram host subprogram .contained).run state).2
        ((declareSubprogram host subprogram .contained).run state).1.2 (.silent :: parts)
  | implicitNone {state : Resolution} {scope : ScopeId} {outer : List ImplicitPart} (span : Span) :
      Nests state scope (.silent :: outer) →
      Nests ((declaration scope (.implicitNone span)).run state).2 scope (.implicitNone :: outer)
  | implicit {state : Resolution} {scope : ScopeId} {outer : List ImplicitPart}
      (rules : List ImplicitRule) (span : Span) : Nests state scope (.silent :: outer) →
      Nests ((declaration scope (.implicit rules span)).run state).2 scope (.implicit rules :: outer)
  | meanwhile {state next : Resolution} {scope : ScopeId} {parts : List ImplicitPart} :
      Nests state scope parts → Sound next → state.table.Widens next.table →
      KeepsRules scope state next → Nests next scope parts

theorem Nests.ruled {parts : List ImplicitPart} (nests : Nests state scope parts) :
    Ruled state scope (ImplicitPart.typing parts) := by
  induction nests with
  | module name span sound =>
    exact .of_unit sound (made_unitScope _ _ _ _) (inside_unitScope (fun scope _ => .module scope) sound.nonempty)
  | main name span sound =>
    exact .of_unit sound (made_unitScope _ _ _ _)
      (inside_unitScope (fun scope _ => .mainProgram scope) sound.nonempty)
  | external subprogram sound =>
    exact .of_unit sound (made_declareSubprogram _ _ _)
      (inside_declareSubprogram subprogram .external sound.nonempty).1
  | body host subprogram isAbstract sound =>
    exact .of_interface sound (made_declareSubprogram host subprogram (.interface isAbstract))
  | contained subprogram nests ih =>
    obtain ⟨inside, widens⟩ := inside_declareSubprogram subprogram .contained ih.bound
    exact ih.of_contained (made_declareSubprogram _ _ _) inside widens
  | implicitNone span nests ih =>
    rw [declaration]
    exact (ih.changeImplicit ImplicitTyping.disable).setImplicitNone
  | implicit rules span nests ih =>
    rw [declaration]
    exact ih.implicit rules
  | meanwhile nests sound widens keeps ih => exact ih.keepsRules sound widens keeps

/-- In nested units a name has the type that host association gives it, exactly if the innermost unit that
decides about its letter agrees with the outermost one that has a rule for it, and if none has one, the
innermost unit that says anything says `IMPLICIT NONE` wherever one of them says so. -/
theorem implicit_typing_iff {parts : List ImplicitPart} (nests : Nests state scope parts) {name : String}
    {first : Char} (isFirst : name.toList.head? = some first) :
    (state.implicitFor scope).typeOf? name = ImplicitPart.typeOf? parts name ↔
      (∀ rule, ImplicitPart.outermost? first.toLower parts = some rule →
        ImplicitPart.decided? first.toLower parts = some (some rule.type)) ∧
      (ImplicitPart.outermost? first.toLower parts = none → .implicitNone ∈ parts →
        ImplicitPart.isDisabled parts = true) := by
  rw [nests.ruled.typing]
  exact ImplicitPart.typeOf?_typing_iff isFirst

theorem sound_start : Sound start :=
  ⟨Nat.one_pos, fun _ known => absurd rfl known⟩

def realForX : ImplicitRule :=
  ⟨.real none, [⟨'x', none⟩]⟩

theorem implicit_typing_realForX : ∃ state scope,
    Nests state scope [.implicit [realForX], .implicitNone] ∧
      (state.implicitFor scope).typeOf? "x1" = ImplicitPart.typeOf? [.implicit [realForX], .implicitNone] "x1" := by
  have silent := Nests.module "m" ⟨0, 1⟩ sound_start
  have outer := Nests.implicitNone ⟨0, 1⟩ silent
  have inner := Nests.contained ⟨.subroutine, "s", [], [], false, [], [], [], ⟨0, 1⟩⟩ outer
  have nests := Nests.implicit [realForX] ⟨0, 1⟩ inner
  have isFirst : "x1".toList.head? = some 'x' := rfl
  refine ⟨_, _, nests, (implicit_typing_iff nests isFirst).mpr ⟨fun rule covered => ?_, nofun⟩⟩
  cases covered
  rfl

def integerForAll : ImplicitRule :=
  ⟨.integer none, [⟨'a', 'z'⟩]⟩

def rulesInside : Tree.Program :=
  ⟨[.module ⟨"m", [.implicit [integerForAll] ⟨0, 1⟩],
    [⟨.subroutine, "s", [], [.name "x" ⟨0, 1⟩], false, [.implicit [realForX] ⟨0, 1⟩], [], [], ⟨0, 1⟩⟩],
    ⟨0, 1⟩⟩]⟩

/-- The rule of the module goes before that of the subroutine. -/
theorem implicit_typing_hidden_rulesInside :
    rulesInside.resolve.findings = [] ∧
      rulesInside.resolve.table.symbolType ⟨2⟩ = some (.plain .integer 4) ∧
      ImplicitPart.typeOf? [.implicit [realForX], .implicit [integerForAll]] "x" = some (.real none) := by
  exact ⟨by decide +kernel, by decide +kernel, rfl⟩

end Resolution

end FortranInterface
