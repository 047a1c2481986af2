import Mathlib.Data.List.Perm.Subperm
import FortranInterface.Proofs.Lockstep.Program

/-!
Runs whose tables have the same scopes, and the same symbols in other places. From then on they report
the same faults, though perhaps in another order, and their modules offer the same names.
-/

namespace FortranInterface

def Pairing.through (place : Nat → Nat) (avoided : Tree.Mention → Bool) : Pairing :=
  ⟨fun id id' => id'.index = place id.index, fun scope scope' => scope = scope',
    fun category kind => ∃ spelling, avoided (.suffix category spelling) = false ∧ Tree.Spells spelling kind⟩

variable {place : Nat → Nat} {avoided : Tree.Mention → Bool}

theorem Pairing.exact_through (injective : place.Injective) : (Pairing.through place avoided).Exact := by
  refine ⟨?_, ?_⟩
  · rintro ⟨first⟩ ⟨first'⟩ ⟨second⟩ ⟨second'⟩ paired other
    simp only [Pairing.through] at paired other
    simp only [SymbolId.mk.injEq, paired, other]
    exact injective.eq_iff.symm
  · rintro first _ second _ rfl rfl
    exact Iff.rfl

theorem range_map_perm (injective : place.Injective) {count : Nat} (within : ∀ index < count, place index < count) :
    ((List.range count).map place).Perm (List.range count) := by
  have distinct : ((List.range count).map place).Nodup := List.nodup_range.map injective
  have inside : (List.range count).map place ⊆ List.range count := by
    intro index member
    obtain ⟨source, isSource, rfl⟩ := List.mem_map.mp member
    exact List.mem_range.mpr (within source (List.mem_range.mp isSource))
  exact (List.subperm_of_subset distinct inside).perm_of_length_le (by simp)

namespace Tree.Mention

def inRule (avoided : Mention → Bool) : Mention → Bool
  | .ruled mention => avoided mention || mention.inRule avoided
  | .stored mention => mention.inRule avoided
  | .suffix category spelling => avoided (.suffix category spelling)
  | _ => false

theorem inRule_of_none (mention : Mention) : mention.inRule (fun _ => false) = false := by
  induction mention with
  | stored mention ih => exact ih
  | ruled mention ih => exact ih
  | _ => rfl

end Tree.Mention

namespace Lockstep

/-- Runs that differ only in the places of their symbols, by programs in which some mentions are avoided in
the rules for undeclared names, and some suffixes altogether. -/
def renumbered (place : Nat → Nat) (injective : place.Injective) (avoided : Tree.Mention → Bool) :
    Lockstep where
  pairing := .through place avoided
  exempt _ _ := false
  gained _ := none
  exact := Pairing.exact_through injective
  global := rfl
  allows mention := mention.inRule avoided = false
  bodies mention := mention.inRule avoided = false
  kept _ _ := False
  settled _ _ _ _ _ := False
  exports _ := True
  extra := []
  compares _ _ := rfl
  suffixed allowed _ spells := ⟨_, allowed, spells⟩
  looksAt allowed := allowed
  applies allowed := (Bool.or_eq_false_iff.mp allowed).2
  leaves := id
  apart := nofun
  settles := nofun
  renews _ _ _ _ _ := id
  shows _ _ := rfl

variable {injective : place.Injective}

theorem strict_renumbered : (renumbered place injective avoided).Strict :=
  ⟨fun _ => ⟨fun _ _ _ _ => id, fun _ => rfl⟩, fun _ => trivial⟩

theorem allows_renumbered (mention : Tree.Mention) : (renumbered place injective fun _ => false).allows mention :=
  mention.inRule_of_none

end Lockstep

open Lockstep (renumbered strict_renumbered allows_renumbered)

theorem find?_empty_scope (scope : ScopeId) (key : String) : (Table.empty.scope scope).names.find? key = none := by
  obtain ⟨_ | place⟩ := scope <;> rfl

theorem matched_start (avoided : Tree.Mention → Bool) :
    Matched (renumbered id Function.injective_id avoided) .start .start where
  tables :=
    { alike :=
        { exact := Lockstep.exact_upTo _ _
          global := ⟨rfl, Nat.zero_lt_one⟩
          bounded := (·.2)
          symbol := fun paired => absurd paired.2 (Nat.not_lt_zero _)
          scope := by
            rintro ⟨scope⟩ _ ⟨rfl, bound⟩
            obtain rfl : scope = 0 := Nat.lt_one_iff.mp bound
            exact ⟨rfl, .none, .none, .nil, .nil, .nil⟩
          symbol_lt := fun paired => absurd paired.2 (Nat.not_lt_zero _)
          scope_lt := by
            rintro _ _ ⟨rfl, bound⟩
            exact bound
          size_le := Nat.le_refl _ }
      symbolsAhead := fun _ => rfl
      scopesAhead := fun _ => rfl
      kept := nofun
      settled := nofun
      orderly :=
        { host_lt := by
            rintro ⟨_ | place⟩ host isHost <;> cases isHost
          rests := fun _ => nofun
          lower := fun scope key id isFound => by cases (find?_empty_scope scope key).symm.trans isFound
          named := fun {scope key id} isFound => by cases (find?_empty_scope scope key).symm.trans isFound
          gained := fun isGained => absurd rfl isGained
          exported := fun _ _ => rfl
          exempt_lt := nofun }
      lower' := fun scope key id isFound => by cases (find?_empty_scope scope key).symm.trans isFound }
  implicit := fun _ => rfl
  rules := nofun
  rules_lt := nofun
  privateByDefault := fun _ => ⟨nofun, nofun⟩
  private_lt := nofun
  modules := .nil
  results := .nil
  generics := .nil
  bindings := .nil
  bodies := .nil
  references := .nil
  faults := .refl _

theorem Table.map_symbols {α : Type} (table : Table) (view : Symbol → Option α) :
    table.symbols.toList.filterMap view =
      (List.range table.symbols.size).filterMap fun index => view (table.symbol ⟨index⟩) := by
  have same : table.symbols.toList = (List.range table.symbols.size).map fun index => table.symbol ⟨index⟩ := by
    refine List.ext_getElem (by simp) fun index bound _ => ?_
    have within : index < table.symbols.size := by simpa using bound
    simp [Table.symbol, Array.getD, within]
  rw [same, List.filterMap_map]
  rfl

theorem Resolve.reportUntyped_eq (state : Resolution) :
    (reportUntyped.run state).2 = { state with findings := (reportUntyped.run state).2.findings } := by
  have single (symbol : Symbol) :
      Keeps (fun state : Resolution => { state with findings := #[] }) (reportSymbol symbol) := by
    unfold reportSymbol
    split
    · exact .ite (fun _ => rfl) (.pure _)
    · exact .pure _
  have all (symbols : List Symbol) :
      Keeps (fun state : Resolution => { state with findings := #[] })
        (symbols.foldlM (fun _ => reportSymbol) PUnit.unit) := by
    induction symbols with
    | nil => exact .pure _
    | cons symbol symbols ih => exact (single symbol).bind fun _ => ih
  have kept := all state.table.symbols.toList state
  rw [← forM_reportSymbol] at kept
  generalize isLast : (reportUntyped.run state).2 = last
  have same : { last with findings := #[] } = { state with findings := #[] } := isLast ▸ kept
  cases last
  cases state
  simpa using same

def Resolution.obtained (state : Resolution) (module : String) : List String :=
  let opened := (Resolve.addScope .subprogram none Table.global none).run state
  let used := (Resolve.useModule opened.1 module ⟨0, 0⟩).run opened.2
  (used.2.table.scope opened.1).names.entries.map Prod.fst

namespace Matched

variable {injective : place.Injective} {state state' : Resolution}
  (matched : Matched (renumbered place injective avoided) state state')
include matched

section

variable (same : place state.table.symbols.size = state.table.symbols.size)
include same

theorem perm_untyped :
    (state'.table.symbols.toList.filterMap Resolve.untypedFault?).Perm
      (state.table.symbols.toList.filterMap Resolve.untypedFault?) := by
  have size : state'.table.symbols.size = state.table.symbols.size := (matched.tables.symbolsAhead 0).trans same
  have pair (index : Nat) (bound : index < state.table.symbols.size) :
      ((renumbered place injective avoided).upTo state.table).symbols ⟨index⟩ ⟨place index⟩ :=
    ⟨rfl, bound⟩
  have within (index : Nat) (bound : index < state.table.symbols.size) :
      place index < state.table.symbols.size :=
    size ▸ matched.alike.symbol_lt (pair index bound)
  have views (index : Nat) (bound : index < state.table.symbols.size) :
      Resolve.untypedFault? (state.table.symbol ⟨index⟩) = Resolve.untypedFault? (state'.table.symbol ⟨place index⟩) :=
    Resolve.untypedFault?_alike (matched.alike.symbol (pair index bound))
  have moved : (List.range state.table.symbols.size).filterMap
        (fun index => Resolve.untypedFault? (state.table.symbol ⟨index⟩)) =
      ((List.range state.table.symbols.size).map place).filterMap
        fun index => Resolve.untypedFault? (state'.table.symbol ⟨index⟩) := by
    rw [List.filterMap_map]
    exact List.filterMap_congr fun index member => views index (List.mem_range.mp member)
  rw [Table.map_symbols, Table.map_symbols, moved, size]
  exact ((range_map_perm injective within).filterMap _).symm

theorem reportUntyped :
    Reaches (renumbered place injective avoided) state Unrelated (Resolve.reportUntyped.run state)
      (Resolve.reportUntyped.run state') := by
  have faults : (Resolve.reportUntyped.run state').2.faults.Perm (Resolve.reportUntyped.run state).2.faults := by
    rw [(Resolve.reportUntyped_run state).2, (Resolve.reportUntyped_run state').2]
    exact matched.faults.append (matched.perm_untyped same)
  refine ⟨?_, ?_, trivial⟩
  · rw [Resolve.reportUntyped_eq state]
    exact .refl _
  · rw [Resolve.reportUntyped_eq state, Resolve.reportUntyped_eq state'] at faults ⊢
    exact { matched with faults := faults }

end

theorem program_of_permits (ahead : ∀ index, state.table.symbols.size ≤ index → place index = index)
    {later : Tree.Program}
    (permits : ∀ unit ∈ later.units, (renumbered place injective avoided).Permits unit.mentions) :
    Reaches (renumbered place injective avoided) state Unrelated ((Resolve.program later).run state)
      ((Resolve.program later).run state') := by
  have units := Resolve.runs_programUnits strict_renumbered matched.alike.global permits state state'
    matched (.refl _)
  have bodies := Resolve.runs_bodies id _ _ units.matched (.refl _)
  have grows := units.grows.trans bodies.grows
  have last := bodies.matched.reportUntyped (ahead _ grows.symbols_le)
  exact ⟨grows.trans last.grows, last.matched, trivial⟩

omit matched in
theorem program (matched : Matched (renumbered place injective fun _ => false) state state')
    (ahead : ∀ index, state.table.symbols.size ≤ index → place index = index) (later : Tree.Program) :
    Reaches (renumbered place injective fun _ => false) state Unrelated ((Resolve.program later).run state)
      ((Resolve.program later).run state') :=
  matched.program_of_permits ahead fun _ _ mention _ => allows_renumbered mention

theorem obtained (module : String) : state.obtained module = state'.obtained module := by
  have plain (scope : ScopeId) : (renumbered place injective avoided).Plain scope :=
    strict_renumbered.plain scope
  have opened := Resolve.runs_addScope .subprogram none none matched.alike.global .none
    state state' matched (.refl _)
  have used := Resolve.runs_useModule opened.related.1 (plain _).free
    (show (renumbered place injective avoided).allows (.module module) from rfl) ⟨0, 0⟩ _ _ opened.matched (.refl _)
  have names := (used.matched.alike.scope (used.grows.scopes opened.related.1)).names
  rw [NameMap.compared_of_shown _ (plain _).shown, NameMap.compared_of_shown _ (plain _).shown] at names
  have same := List.forall₂_map_left_iff.mpr (List.forall₂_map_right_iff.mpr (names.imp fun _ _ entry => entry.1))
  rwa [List.forall₂_eq_eq_eq] at same

end Matched

end FortranInterface
