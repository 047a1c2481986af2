import FortranInterface.Resolution.Lookup

/-!
The names of scopes while a table grows. Scopes are never moved, and a name that a scope has it keeps, so
what can be seen from a scope stays visible.
-/

namespace FortranInterface.Table

structure Widens (table next : Table) : Prop where
  size : table.scopes.size ≤ next.scopes.size
  parent : ∀ scope : ScopeId, scope.index < table.scopes.size → (next.scope scope).parent = (table.scope scope).parent
  names : ∀ scope name, (table.scope scope).find? name ≠ none → (next.scope scope).find? name ≠ none

variable {table next : Table} {scope : ScopeId} {name : String}

namespace Widens

theorem of_scopes_eq (same : next.scopes = table.scopes) : table.Widens next := by
  have sameScope (scope : ScopeId) : next.scope scope = table.scope scope := by
    simp only [Table.scope, same]
  refine ⟨Nat.le_of_eq (by rw [same]), fun scope _ => by rw [sameScope], fun scope name known => ?_⟩
  rwa [sameScope]

theorem trans {middle : Table} (first : table.Widens middle) (second : middle.Widens next) : table.Widens next := by
  refine ⟨Nat.le_trans first.size second.size, fun scope inside => ?_, fun scope name known => ?_⟩
  · rw [second.parent scope (Nat.lt_of_lt_of_le inside first.size), first.parent scope inside]
  · exact second.names scope name (first.names scope name known)

end Widens

theorem getD_modify {α : Type} (items : Array α) (index place : Nat) (change : α → α) (missing : α) :
    (items.modify index change).getD place missing =
      if place = index ∧ index < items.size then change (items.getD index missing) else items.getD place missing := by
  simp only [Array.getD_eq_getD_getElem?, Array.getElem?_modify]
  by_cases same : index = place
  · subst same
    by_cases bound : index < items.size <;> simp [bound]
  · simp [same, Ne.symm same]

theorem scope_modifyScope (table : Table) (id other : ScopeId) (change : Scope → Scope) :
    (table.modifyScope id change).scope other =
      if other = id ∧ id.index < table.scopes.size then change (table.scope id) else table.scope other := by
  obtain ⟨index⟩ := id
  obtain ⟨place⟩ := other
  simp only [ScopeId.mk.injEq]
  exact getD_modify table.scopes index place change Scope.globalScope

theorem widens_modifyScope {id : ScopeId} {change : Scope → Scope}
    (parent : ∀ scope, (change scope).parent = scope.parent)
    (names : ∀ scope name, scope.find? name ≠ none → (change scope).find? name ≠ none) :
    table.Widens (table.modifyScope id change) := by
  refine ⟨Nat.le_of_eq Array.size_modify.symm, fun scope _ => ?_, fun scope name known => ?_⟩
  · rw [scope_modifyScope]
    split
    next here => rw [parent, here.1]
    · rfl
  · rw [scope_modifyScope]
    split
    next here => exact names _ _ (here.1 ▸ known)
    · exact known

theorem widens_bindName (scope : ScopeId) (name : String) (id : SymbolId) :
    table.Widens (table.bindName scope name id) := by
  refine widens_modifyScope (fun _ => rfl) fun found other known => ?_
  rw [Scope.find?, NameMap.find?_insert]
  split
  · exact Option.some_ne_none _
  · exact known

theorem scope_addScope (table : Table) (kind : ScopeKind) (name : Option String) (parent : ScopeId)
    (symbol : Option SymbolId) (other : ScopeId) :
    (table.addScope kind name parent symbol).2.scope other =
      if other.index = table.scopes.size then
        ⟨kind, name, some parent, symbol, (table.scope parent).implicitNone, .empty⟩ else table.scope other := by
  simp only [addScope, scope, Array.getD_eq_getD_getElem?, Array.getElem?_push]
  split <;> rfl

theorem widens_addScope (kind : ScopeKind) (name : Option String) (parent : ScopeId)
    (symbol : Option SymbolId) : table.Widens (table.addScope kind name parent symbol).2 := by
  refine ⟨?_, fun scope inside => ?_, fun scope other known => ?_⟩
  · exact Nat.le_trans (Nat.le_succ _) (Nat.le_of_eq (Array.size_push _).symm)
  · rw [scope_addScope, if_neg (Nat.ne_of_lt inside)]
  · rw [scope_addScope, if_neg]
    · exact known
    · intro outside
      simp [Table.scope, Array.getD, outside, Scope.find?, Scope.globalScope] at known

theorem scope_addSymbol_of_ne {attributes : Attributes} {details : Details} {span : Span}
    {other : ScopeId} (apart : other ≠ scope) :
    (table.addSymbol scope name attributes details span).2.scope other = table.scope other := by
  rw [addSymbol, bindName, scope_modifyScope, if_neg fun here => apart here.1]
  rfl

theorem find?_addSymbol {attributes : Attributes} {details : Details} {span : Span}
    (inside : scope.index < table.scopes.size) (other : String) :
    ((table.addSymbol scope name attributes details span).2.scope scope).find? other =
      if other.toLower = name.toLower then some ⟨table.symbols.size⟩ else (table.scope scope).find? other := by
  rw [addSymbol, bindName, scope_modifyScope, if_pos ⟨rfl, inside⟩, Scope.find?, NameMap.find?_insert]
  rfl

/-! What a scope sees. -/

theorem hosts_eq (table : Table) (scope : ScopeId) : ∃ outer, table.hosts scope = scope :: outer := by
  rw [hosts]
  split
  · split <;> exact ⟨_, rfl⟩
  · exact ⟨_, rfl⟩

theorem visible?_eq_or (inner : scope ≠ global) : ∃ outer,
    table.visible? scope name = ((table.scope scope).find? name).or outer := by
  obtain ⟨outer, isHosts⟩ := table.hosts_eq scope
  rw [visible?, isHosts, List.takeWhile_cons, if_pos (decide_eq_true inner), List.findSome?_cons]
  cases (table.scope scope).find? name with
  | none => exact ⟨_, rfl⟩
  | some => exact ⟨none, rfl⟩

theorem visible?_of_find? {id : SymbolId} (inner : scope ≠ global)
    (known : (table.scope scope).find? name = some id) : table.visible? scope name = some id := by
  obtain ⟨outer, isVisible⟩ : ∃ outer, table.visible? scope name = (some id).or outer :=
    known ▸ visible?_eq_or inner
  rw [isVisible]
  rfl

theorem hosts_of_parent_eq (same : ∀ inner : ScopeId, inner.index ≤ scope.index →
    (next.scope inner).parent = (table.scope inner).parent) : next.hosts scope = table.hosts scope := by
  induction scope using hosts.induct table with
  | case1 scope parent isParent less ih =>
    rw [hosts, same scope (Nat.le_refl _), isParent, hosts, isParent]
    simp only [if_pos less]
    rw [ih fun inner within => same inner (Nat.le_trans within (Nat.le_of_lt less))]
  | case2 scope parent isParent notLess =>
    rw [hosts, same scope (Nat.le_refl _), isParent, hosts, isParent]
    simp only [if_neg notLess]
  | case3 scope isParent => rw [hosts, same scope (Nat.le_refl _), isParent, hosts, isParent]

theorem hosts_of_widens (widens : table.Widens next) (inside : scope.index < table.scopes.size) :
    next.hosts scope = table.hosts scope :=
  hosts_of_parent_eq fun inner within => widens.parent inner (Nat.lt_of_le_of_lt within inside)

structure Inside (table : Table) (outer inner : ScopeId) : Prop where
  parent : (table.scope inner).parent = some outer
  later : outer.index < inner.index
  bound : inner.index < table.scopes.size

namespace Inside

variable {outer inner : ScopeId}

variable (inside : table.Inside outer inner)
include inside

theorem of_widens (widens : table.Widens next) : next.Inside outer inner :=
  ⟨(widens.parent inner inside.bound).trans inside.parent, inside.later, Nat.lt_of_lt_of_le inside.bound widens.size⟩

theorem ne_global : inner ≠ global := by
  rintro rfl
  exact Nat.not_lt_zero _ inside.later

theorem hosts_eq : table.hosts inner = inner :: table.hosts outer := by
  rw [hosts, inside.parent]
  exact if_pos inside.later

theorem visible?_eq : table.visible? inner name = ((table.scope inner).find? name).or (table.visible? outer name) := by
  rw [visible?, inside.hosts_eq, List.takeWhile_cons, if_pos (decide_eq_true inside.ne_global), List.findSome?_cons]
  cases (table.scope inner).find? name <;> rfl

theorem visible?_ne_none (known : table.visible? outer name ≠ none) : table.visible? inner name ≠ none := by
  rw [inside.visible?_eq]
  cases (table.scope inner).find? name with
  | none => exact known
  | some => exact Option.some_ne_none _

end Inside

def Offers (table : Table) (scope : ScopeId) (name : String) : Prop :=
  ∃ id, (table.scope scope).find? name = some id ∧ (table.details id).isProcedure = true

theorem Offers.visible? (offers : table.Offers scope name) (inner : scope ≠ global) :
    ∃ id, (table.visible? scope name).filter (fun id => (table.details id).isProcedure) = some id := by
  obtain ⟨id, known, isProcedure⟩ := offers
  exact ⟨id, by simp [visible?_of_find? inner known, isProcedure]⟩

theorem visible?_ne_none_iff : table.visible? scope name ≠ none ↔
    ∃ host ∈ (table.hosts scope).takeWhile (· ≠ global), (table.scope host).find? name ≠ none := by
  simp only [visible?, ne_eq, List.findSome?_eq_none_iff, Classical.not_forall, exists_prop]

theorem visible?_ne_none_of_widens (widens : table.Widens next)
    (inside : scope.index < table.scopes.size) (known : table.visible? scope name ≠ none) :
    next.visible? scope name ≠ none := by
  obtain ⟨host, member, named⟩ := visible?_ne_none_iff.mp known
  refine visible?_ne_none_iff.mpr ⟨host, ?_, widens.names host name named⟩
  rwa [hosts_of_widens widens inside]

theorem visible?_of_scopes_eq (same : next.scopes = table.scopes) (scope : ScopeId) (name : String) :
    next.visible? scope name = table.visible? scope name := by
  have sameScope (scope : ScopeId) : next.scope scope = table.scope scope := by
    simp only [Table.scope, same]
  have sameHosts : next.hosts scope = table.hosts scope :=
    hosts_of_parent_eq fun inner _ => by rw [sameScope]
  simp only [visible?, sameHosts, sameScope]

end FortranInterface.Table
