import FortranInterface.Proofs.Lockstep.Renumbering

/-!
The table of a resolved program is well formed. Whatever is mentioned in it is in it; names stand for symbols
of that name; and hosts, types that are extended and the selectors of associate names come before what is
built on them. So the walks along these links end by themselves and never leave the table.
-/

namespace FortranInterface

namespace Table

variable (table : Table)

def Has (id : SymbolId) : Prop :=
  id.index < table.symbols.size

def HasScope (scope : ScopeId) : Prop :=
  scope.index < table.scopes.size

structure WellFormedSymbol (id : SymbolId) : Prop where
  owner : table.HasScope (table.symbol id).owner
  symbols : ∀ other ∈ (table.details id).symbols, table.Has other
  scopes : ∀ scope ∈ (table.details id).scopes, table.HasScope scope
  extended : ∀ type parent, table.details id = .derivedType type → type.parent = some parent → parent.index < id.index
  selected : ∀ selector, table.details id = .associate selector → ∀ other ∈ selector.symbols, other.index < id.index

structure WellFormedScope (scope : ScopeId) : Prop where
  host : ∀ host, (table.scope scope).parent = some host → host.index < scope.index
  symbol : ∀ id, (table.scope scope).symbol = some id → table.Has id
  names : ∀ name id, (name, id) ∈ (table.scope scope).names.entries →
    table.Has id ∧ name = (table.symbol id).name.toLower

structure WellFormed : Prop where
  symbol : ∀ id, table.Has id → table.WellFormedSymbol id
  scope : ∀ scope, table.HasScope scope → table.WellFormedScope scope

def selected? : Details → Option SymbolId
  | .associate selector => selector.lastSymbol?
  | _ => none

/-! Links that lead to what comes before. -/

variable {table} {next : Details → Option SymbolId}

theorem chainWithin_ends (descends : ∀ id other, next (table.details id) = some other → other.index < id.index)
    {links : Nat} {id : SymbolId} (enough : id.index ≤ links) :
    next (table.details ((table.chainWithin next links id).getLastD id)) = none ∧
      ∀ other ∈ table.chainWithin next links id, other.index ≤ id.index := by
  induction links generalizing id with
  | zero =>
    refine ⟨?_, fun other member => ?_⟩
    · cases isNext : next (table.details id) with
      | none => exact isNext
      | some other => exact absurd (descends id other isNext) (by omega)
    · obtain rfl := List.mem_singleton.mp member
      exact Nat.le_refl _
  | succ links ih =>
    cases isNext : next (table.details id) with
    | none =>
      rw [chainWithin, isNext]
      refine ⟨isNext, fun other member => ?_⟩
      obtain rfl := List.mem_singleton.mp member
      exact Nat.le_refl _
    | some following =>
      have less := descends id following isNext
      obtain ⟨ends, within⟩ := @ih following (by omega)
      refine ⟨?_, fun other member => ?_⟩
      · rw [getLastD_chainWithin isNext]
        exact ends
      · rw [chainWithin, isNext] at member
        rcases List.mem_cons.mp member with rfl | later
        · exact Nat.le_refl _
        · exact Nat.le_trans (within other later) (Nat.le_of_lt less)

theorem hosts_end (descends : ∀ scope host, (table.scope scope).parent = some host → host.index < scope.index)
    (scope : ScopeId) :
    (∃ last, (table.hosts scope).getLast? = some last ∧ (table.scope last).parent = none) ∧
      ∀ host ∈ table.hosts scope, host.index ≤ scope.index := by
  induction scope using hosts.induct table with
  | case1 scope parent isParent less ih =>
    obtain ⟨⟨last, isLast, ends⟩, within⟩ := ih
    rw [hosts, isParent]
    simp only [if_pos less]
    refine ⟨⟨last, ?_, ends⟩, fun host member => ?_⟩
    · rw [List.getLast?_cons, isLast]
      rfl
    · rcases List.mem_cons.mp member with rfl | outer
      · exact Nat.le_refl _
      · exact Nat.le_trans (within host outer) (Nat.le_of_lt less)
  | case2 scope parent isParent notLess => exact absurd (descends scope parent isParent) notLess
  | case3 scope isParent =>
    rw [hosts, isParent]
    refine ⟨⟨scope, rfl, isParent⟩, fun host member => ?_⟩
    obtain rfl := List.mem_singleton.mp member
    exact Nat.le_refl _

end Table

structure Table.ChainEnds (table : Table) (next : Details → Option SymbolId) (id : SymbolId) : Prop where
  last : next (table.details (table.chainEnd next id)) = none
  inside : ∀ other ∈ table.chain next id, table.Has other

theorem Table.chainEnds {table : Table} {next : Details → Option SymbolId}
    (descends : ∀ id other, next (table.details id) = some other → other.index < id.index)
    {id : SymbolId} (has : table.Has id) : table.ChainEnds next id := by
  have walked := chainWithin_ends descends (Nat.le_of_lt has)
  exact ⟨walked.1, fun other member => Nat.lt_of_le_of_lt (walked.2 other member) has⟩

structure Table.HostsEnd (table : Table) (scope : ScopeId) : Prop where
  last : ∃ last, (table.hosts scope).getLast? = some last ∧ (table.scope last).parent = none
  inside : ∀ host ∈ table.hosts scope, table.HasScope host

structure Reference.Inside (table : Table) (reference : Reference) : Prop where
  scope : table.HasScope reference.scope
  symbols : ∀ id ∈ reference.symbols, table.Has id

/-! A run in lockstep with itself. -/

open Lockstep (renumbered)

namespace Matched

variable {state state' : Resolution}
  (matched : Matched (renumbered id Function.injective_id fun _ => false) state state')
include matched

theorem wellFormedSymbol (id : SymbolId) (has : state.table.Has id) : state.table.WellFormedSymbol id := by
  have alike := matched.alike.symbol (show (Lockstep.upTo _ _).symbols id id from ⟨rfl, has⟩)
  refine ⟨alike.owner.2, ?_, ?_, ?_, ?_⟩
  · intro other member
    obtain ⟨_, paired⟩ := alike.details.covers other member
    exact paired.2
  · intro scope member
    obtain ⟨_, paired⟩ := alike.details.coversScopes scope member
    exact paired.2
  · intro type parent isType isParent
    refine matched.tables.orderly.rests id parent ?_
    rw [isType, Details.earlier, isParent]
    exact .head _
  · intro selector isAssociate other member
    refine matched.tables.orderly.rests id other ?_
    rw [isAssociate]
    exact member

theorem wellFormedScope (scope : ScopeId) (has : state.table.HasScope scope) : state.table.WellFormedScope scope := by
  have alike := matched.alike.scope (show (Lockstep.upTo _ _).scopes scope scope from ⟨rfl, has⟩)
  refine ⟨fun host isHost => matched.tables.orderly.host_lt isHost, ?_, ?_⟩
  · intro id isSymbol
    obtain ⟨_, paired⟩ := Pairing.covers_toList alike.symbol id (by simp [isSymbol])
    exact paired.2
  · intro name id member
    have isFound := NameMap.find?_of_mem alike.sorted member
    have named := matched.tables.orderly.named isFound
    refine ⟨named.bound, ?_⟩
    rw [named.name, matched.tables.orderly.lower scope name id isFound]

theorem reference_inside (reference : Reference) (member : reference ∈ state.references.toList) :
    reference.Inside state.table := by
  obtain ⟨reference', _, alike⟩ := forall₂_exists matched.references member
  refine ⟨alike.scope.2, fun id mentioned => ?_⟩
  have covers := (alike.callee.covers.append (Pairing.covers_toList alike.generic)).append
    (Actuals.Alike.covers alike.arguments)
  obtain ⟨_, paired⟩ := covers id mentioned
  exact paired.2

theorem parentType?_lt (id other : SymbolId)
    (isParent : Table.parentType? (state.table.details id) = some other) : other.index < id.index := by
  refine matched.tables.orderly.rests id other ?_
  generalize state.table.details id = details at isParent
  cases details with
  | derivedType type => exact Option.mem_toList.mpr isParent
  | _ => cases isParent

theorem selected?_lt (id other : SymbolId)
    (isSelected : Table.selected? (state.table.details id) = some other) : other.index < id.index := by
  refine matched.tables.orderly.rests id other ?_
  generalize state.table.details id = details at isSelected
  cases details with
  | associate selector =>
    cases selector with
    | designator =>
      cases isSelected
      exact .head _
    | _ => cases isSelected
  | _ => cases isSelected

theorem hostsEnd (scope : ScopeId) (has : state.table.HasScope scope) : state.table.HostsEnd scope := by
  have walked := Table.hosts_end (fun _ _ => matched.tables.orderly.host_lt) scope
  exact ⟨walked.1, fun host member => Nat.lt_of_le_of_lt (walked.2 host member) has⟩

end Matched

/-- For every program, all that is mentioned in the table and in the references is in the table, names stand
for symbols of the same name in lower case, and what something is built on has a smaller number. Therefore the
walks through hosts, extended types and selectors end without leaving the table. -/
theorem Tree.Program.resolve_wellFormed (program : Tree.Program) :
    program.resolve.table.WellFormed ∧
      (∀ reference ∈ program.resolve.references, reference.Inside program.resolve.table) ∧
      (∀ scope, program.resolve.table.HasScope scope → program.resolve.table.HostsEnd scope) ∧
      (∀ id, program.resolve.table.Has id →
        program.resolve.table.ChainEnds Table.parentType? id ∧ program.resolve.table.ChainEnds Table.selected? id) := by
  have matched := ((matched_start fun _ => false).program (fun _ _ => rfl) program).matched
  refine ⟨⟨matched.wellFormedSymbol, matched.wellFormedScope⟩, matched.reference_inside,
    matched.hostsEnd, fun id has => ⟨?_, ?_⟩⟩
  · exact Table.chainEnds matched.parentType?_lt has
  · exact Table.chainEnds matched.selected?_lt has

end FortranInterface
