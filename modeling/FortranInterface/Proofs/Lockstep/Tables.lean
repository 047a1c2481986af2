import Mathlib.Data.String.Basic
import FortranInterface.Proofs.Alike.Lookup
import FortranInterface.Proofs.Alike.Mentioned
import FortranInterface.Proofs.Lockstep.Mentions
import FortranInterface.Proofs.Resolution.Change

/-!
Two tables that are built in lockstep. Each way in which the resolver changes a table keeps them alike, if
it is made on both sides for paired symbols and scopes.
-/

namespace FortranInterface

variable {pairing : Pairing}

theorem relIsSome {α β : Type} {related : α → β → Prop} {found : Option α} {found' : Option β}
    (same : Option.Rel related found found') : found.isSome = found'.isSome := by
  cases same <;> rfl

theorem toLower_toLower (name : String) : name.toLower.toLower = name.toLower := by
  have idempotent (letter : Char) : letter.toLower.toLower = letter.toLower := by
    unfold Char.toLower
    grind
  unfold String.toLower
  rw [String.map_map]
  exact congrArg (String.map · name) (funext idempotent)

variable {name : String} {id : SymbolId} {exempt : String → Bool}

namespace NameMap

def Lower (map : NameMap) : Prop :=
  ∀ key id, map.find? key = some id → key.toLower = key

variable {map : NameMap}

theorem lower_insert (lower : map.Lower) (name : String) (id : SymbolId) : (map.insert name.toLower id).Lower := by
  intro key other isFound
  rw [find?_insert] at isFound
  split at isFound
  next same => rw [same, toLower_toLower]
  · exact lower key other isFound

variable {entries : List (String × SymbolId)}

theorem insertInto_of_forall_lt (id : SymbolId) (behind : ∀ entry ∈ entries, name < entry.1) :
    insertInto name id entries = (name, id) :: entries := by
  cases entries with
  | nil => rfl
  | cons entry rest =>
    have first := behind entry (.head _)
    rw [insertInto, if_neg (lt_asymm first), if_neg (ne_of_gt first)]

variable {entry : String × SymbolId}

theorem mem_insertInto (member : entry ∈ insertInto name id entries) : entry = (name, id) ∨ entry ∈ entries := by
  induction entries with
  | nil => exact .inl (List.mem_singleton.mp member)
  | cons first rest ih =>
    rw [insertInto] at member
    split at member
    · rcases List.mem_cons.mp member with rfl | later
      · exact .inr (.head _)
      · exact (ih later).imp_right (.tail _)
    · split at member
      · rcases List.mem_cons.mp member with rfl | later
        · exact .inl rfl
        · exact .inr (.tail _ later)
      · exact List.mem_cons.mp member

theorem pairwise_insertInto (name : String) (id : SymbolId)
    (sorted : entries.Pairwise fun first second => first.1 < second.1) :
    (insertInto name id entries).Pairwise fun first second => first.1 < second.1 := by
  induction entries with
  | nil => exact .cons nofun .nil
  | cons first rest ih =>
    obtain ⟨behind, later⟩ := List.pairwise_cons.mp sorted
    rw [insertInto]
    split
    next less =>
      refine .cons (fun entry member => ?_) (ih later)
      rcases mem_insertInto member with rfl | old
      · exact less
      · exact behind entry old
    next notLess =>
      split
      next same => exact .cons (fun entry member => same ▸ behind entry member) later
      next other =>
        have before : name < first.1 := lt_of_le_of_ne (not_lt.mp notLess) (Ne.symm other)
        refine .cons (fun entry member => ?_) sorted
        rcases List.mem_cons.mp member with rfl | old
        · exact before
        · exact lt_trans before (behind entry old)

theorem compared_insert_of_exempt (map : NameMap) (id : SymbolId) (hidden : exempt name = true) :
    (map.insert name id).compared exempt = map.compared exempt := by
  unfold compared insert
  induction map.entries with
  | nil => simp [insertInto, hidden]
  | cons first rest ih =>
    rw [insertInto]
    split
    · simp only [List.filter_cons, ih]
    · split
      next same => simp [same, hidden]
      · simp [hidden]

theorem compared_insert (map : NameMap) (sorted : map.Sorted) (id : SymbolId) (shown : exempt name = false) :
    (map.insert name id).compared exempt = insertInto name id (map.compared exempt) := by
  obtain ⟨entries⟩ := map
  simp only [compared, insert]
  simp only [Sorted] at sorted
  induction entries with
  | nil => simp [insertInto, shown]
  | cons first rest ih =>
    obtain ⟨behind, later⟩ := List.pairwise_cons.mp sorted
    by_cases less : first.1 < name
    · rw [insertInto, if_pos less, List.filter_cons, List.filter_cons, ih later]
      split
      · rw [insertInto, if_pos less]
      · rfl
    · rw [insertInto, if_neg less]
      by_cases same : first.1 = name
      · simp [same, shown, insertInto]
      · have before : name < first.1 := lt_of_le_of_ne (not_lt.mp less) (Ne.symm same)
        rw [if_neg same, List.filter_cons_of_pos (by simp [shown]), insertInto_of_forall_lt]
        intro entry member
        rcases List.mem_cons.mp (List.mem_of_mem_filter member) with rfl | old
        · exact before
        · exact lt_trans before (behind entry old)

theorem insertInto_alike (name : String) {id id' : SymbolId} (paired : pairing.symbols id id')
    {entries entries' : List (String × SymbolId)} (alike : List.Forall₂ (EntryAlike pairing) entries entries') :
    List.Forall₂ (EntryAlike pairing) (insertInto name id entries) (insertInto name id' entries') := by
  induction alike with
  | nil => exact .cons ⟨rfl, paired⟩ .nil
  | cons first rest ih =>
    rw [insertInto, insertInto, first.1]
    split
    · exact .cons first ih
    · split
      · exact .cons ⟨rfl, paired⟩ rest
      · exact .cons ⟨rfl, paired⟩ (.cons first rest)

theorem compared_of_shown (map : NameMap) (shown : ∀ key, exempt key = false) : map.compared exempt = map.entries :=
  List.filter_eq_self.mpr fun entry _ => by simp [shown entry.1]

theorem find?_of_mem (sorted : map.Sorted) (member : entry ∈ map.entries) : map.find? entry.1 = some entry.2 := by
  obtain ⟨entries⟩ := map
  simp only [find?]
  simp only [Sorted] at sorted
  induction entries with
  | nil => cases member
  | cons first rest ih =>
    obtain ⟨behind, later⟩ := List.pairwise_cons.mp sorted
    obtain ⟨key, id⟩ := first
    rw [List.lookup_cons]
    rcases List.mem_cons.mp member with rfl | old
    · rw [beq_self_eq_true]
    · rw [beq_eq_false_iff_ne.mpr (ne_of_gt (behind entry old))]
      exact ih later old

def insertAll (entries : List (String × SymbolId)) (map : NameMap) : NameMap :=
  entries.foldl (fun map entry => map.insert entry.1.toLower entry.2) map

theorem sorted_insertAll (entries : List (String × SymbolId)) (sorted : map.Sorted) :
    (insertAll entries map).Sorted := by
  induction entries generalizing map with
  | nil => exact sorted
  | cons entry rest ih => exact ih (pairwise_insertInto _ _ sorted)

theorem lower_insertAll (entries : List (String × SymbolId)) (lower : map.Lower) : (insertAll entries map).Lower := by
  induction entries generalizing map with
  | nil => exact lower
  | cons entry rest ih => exact ih (lower_insert lower _ _)

theorem mem_of_find?_insertAll {key : String} (isFound : (insertAll entries map).find? key = some id) :
    (∃ entry ∈ entries, entry.1.toLower = key ∧ entry.2 = id) ∨ map.find? key = some id := by
  induction entries generalizing map with
  | nil => exact .inr isFound
  | cons entry rest ih =>
    rcases ih isFound with ⟨other, member, same⟩ | earlier
    · exact .inl ⟨other, .tail _ member, same⟩
    · rw [find?_insert] at earlier
      split at earlier
      next here => exact .inl ⟨entry, .head _, here.symm, Option.some.inj earlier⟩
      · exact .inr earlier

theorem compared_insertAll (sorted : map.Sorted) (exempt : String → Bool)
    (lower : ∀ entry ∈ entries, entry.1.toLower = entry.1) :
    (insertAll entries map).compared exempt =
      (entries.filter fun entry => !exempt entry.1).foldl
        (fun found entry => insertInto entry.1 entry.2 found) (map.compared exempt) := by
  induction entries generalizing map with
  | nil => rfl
  | cons entry rest ih =>
    have later := ih (pairwise_insertInto entry.1.toLower entry.2 sorted)
      fun other member => lower other (.tail _ member)
    have same := lower entry (.head _)
    refine later.trans ?_
    rw [same]
    by_cases hidden : exempt entry.1 = true
    · rw [List.filter_cons_of_neg (by simp [hidden])]
      congr 1
      exact compared_insert_of_exempt map entry.2 hidden
    · have shown := Bool.eq_false_iff.mpr hidden
      rw [List.filter_cons_of_pos (by simp [shown]), List.foldl_cons]
      congr 1
      exact compared_insert map sorted entry.2 shown

theorem foldl_insertInto_alike {entries entries' found found' : List (String × SymbolId)}
    (alike : List.Forall₂ (EntryAlike pairing) entries entries')
    (base : List.Forall₂ (EntryAlike pairing) found found') :
    List.Forall₂ (EntryAlike pairing) (entries.foldl (fun found entry => insertInto entry.1 entry.2 found) found)
      (entries'.foldl (fun found entry => insertInto entry.1 entry.2 found) found') := by
  induction alike generalizing found found' with
  | nil => exact base
  | cons first _ ih =>
    refine ih ?_
    dsimp only
    rw [first.1]
    exact insertInto_alike _ first.2 base

end NameMap

theorem Scope.Alike.bind {scope scope' : Scope} (alike : scope.Alike pairing exempt scope') (name : String)
    {id id' : SymbolId} (paired : pairing.symbols id id') :
    Scope.Alike pairing exempt { scope with names := scope.names.insert name id }
      { scope' with names := scope'.names.insert name id' } := by
  refine ⟨alike.kind, alike.parent, alike.symbol, ?_, NameMap.pairwise_insertInto name id alike.sorted,
    NameMap.pairwise_insertInto name id' alike.sorted'⟩
  by_cases hidden : exempt name = true
  · simpa only [NameMap.compared_insert_of_exempt _ _ hidden] using alike.names
  · have shown := Bool.eq_false_iff.mpr hidden
    rw [NameMap.compared_insert _ alike.sorted _ shown, NameMap.compared_insert _ alike.sorted' _ shown]
    exact NameMap.insertInto_alike name paired alike.names

/-- The number that a suffix consists of is the kind. A suffix that is a name may stand for any kind. -/
def Tree.Spells (spelling : String) (kind : Nat) : Prop :=
  ∀ value, (Text.decimal? spelling).bind (fun value => Resolve.byte? value) = some value → value = kind

/-- What two runs have in common, in which respects they may differ, and what may be mentioned. -/
structure Lockstep extends Leeway where
  pairing : Pairing
  allows : Tree.Mention → Prop
  /-- What bodies may mention, which are looked at last. -/
  bodies : Tree.Mention → Prop
  /-- Symbols of the second table that have no partner. -/
  kept : SymbolId → Symbol → Prop
  /-- Names that keep their meanings in paired scopes. -/
  settled : ScopeId → ScopeId → String → Option SymbolId → Option SymbolId → Prop
  /-- Modules that may be used. -/
  exports : ScopeId → Prop
  /-- What is reported in the second run only. -/
  extra : List ResolutionFault
  exact : pairing.Exact
  global : pairing.scopes Table.global Table.global
  compares : ∀ {key}, allows (.name key) → ∀ scope, exempt scope key = false
  suffixed : ∀ {category spelling}, allows (.suffix category spelling) → ∀ {kind}, Tree.Spells spelling kind →
    pairing.suffixes category kind
  looksAt : ∀ {mention}, allows (.stored mention) → allows mention
  applies : ∀ {mention}, allows (.ruled mention) → allows mention
  leaves : ∀ {mention}, allows mention → bodies mention
  apart : ∀ {id' symbol}, kept id' symbol → ∀ id, ¬pairing.symbols id id'
  settles : ∀ {scope scope' key found found'}, settled scope scope' key found found' →
    pairing.scopes scope scope' ∧ scope ≠ Table.global
  renews : ∀ {key}, allows (.defined key) → ∀ scope scope' found found', ¬settled scope scope' key found found'
  shows : ∀ {scope}, exports scope → ∀ key, exempt scope key = false

variable {lock : Lockstep}

namespace Lockstep

/-- What is paired of a table that is not complete. -/
def upTo (lock : Lockstep) (table : Table) : Pairing :=
  ⟨fun id id' => lock.pairing.symbols id id' ∧ id.index < table.symbols.size,
    fun scope scope' => lock.pairing.scopes scope scope' ∧ scope.index < table.scopes.size, lock.pairing.suffixes⟩

theorem exact_upTo (lock : Lockstep) (table : Table) : (lock.upTo table).Exact :=
  ⟨fun first second => lock.exact.symbols first.1 second.1, fun first second => lock.exact.scopes first.1 second.1⟩

theorem upTo_congr (lock : Lockstep) {table next : Table}
    (symbols : next.symbols.size = table.symbols.size) (scopes : next.scopes.size = table.scopes.size) :
    lock.upTo next = lock.upTo table := by
  simp only [upTo, symbols, scopes]

theorem upTo_le (lock : Lockstep) {table next : Table}
    (symbols : table.symbols.size ≤ next.symbols.size) (scopes : table.scopes.size ≤ next.scopes.size) :
    (lock.upTo table).Le (lock.upTo next) :=
  ⟨fun paired => ⟨paired.1, Nat.lt_of_lt_of_le paired.2 symbols⟩,
    fun paired => ⟨paired.1, Nat.lt_of_lt_of_le paired.2 scopes⟩, id⟩

def Permits (lock : Lockstep) (mentions : List Tree.Mention) : Prop :=
  ∀ mention ∈ mentions, lock.allows mention

def Binds (lock : Lockstep) (scope : ScopeId) (key : String) : Prop :=
  ∀ scope' found found', ¬lock.settled scope scope' key found found'

def Free (lock : Lockstep) (scope : ScopeId) : Prop :=
  ∀ key, lock.Binds scope key

/-- A scope in which the two runs do not differ, nor anything is settled. -/
structure Plain (lock : Lockstep) (scope : ScopeId) : Prop where
  free : lock.Free scope
  shown : ∀ key, lock.exempt scope key = false

theorem Permits.cons {mention : Tree.Mention} {mentions : List Tree.Mention} :
    lock.Permits (mention :: mentions) ↔ lock.allows mention ∧ lock.Permits mentions :=
  List.forall_mem_cons

theorem Permits.append {first second : List Tree.Mention} :
    lock.Permits (first ++ second) ↔ lock.Permits first ∧ lock.Permits second :=
  List.forall_mem_append

theorem compares_of_name (lock : Lockstep) (allowed : lock.allows (.ofName name)) : lock.Compares name :=
  lock.compares allowed

theorem binds_of_defined (lock : Lockstep) (allowed : lock.allows (.ofDefined name)) (scope : ScopeId) :
    lock.Binds scope name.toLower :=
  lock.renews allowed scope

end Lockstep

structure Table.Settles (table : Table) (scope : ScopeId) (key : String) (found : Option SymbolId) :
    Prop where
  bound : scope.index < table.scopes.size
  meaning : (table.scope scope).names.find? key = found

def Table.Owns (table : Table) (scope : ScopeId) (found : Option SymbolId) : Prop :=
  ∃ id, found = some id ∧ id.index < table.symbols.size ∧ (table.symbol id).owner = scope

structure Table.Named (table : Table) (id : SymbolId) (key : String) : Prop where
  bound : id.index < table.symbols.size
  name : (table.symbol id).name = key

/-- What holds of the first table by itself: names stand for symbols that have them, hosts and what a symbol
is built on come first, and where the tables may differ is known in advance. -/
structure Table.Orderly (lock : Lockstep) (table : Table) : Prop where
  host_lt : ∀ {scope host}, (table.scope scope).parent = some host → host.index < scope.index
  rests : ∀ id, (table.details id).Rests id
  lower : ∀ scope, (table.scope scope).names.Lower
  named : ∀ {scope key id}, (table.scope scope).names.find? key = some id → table.Named id key
  gained : ∀ {id}, lock.gained id ≠ none → ∃ key, table.Named id key ∧ ¬lock.allows (.defined key)
  exported : ∀ {scope key id}, lock.exports scope → (table.scope scope).names.find? key = some id →
    lock.gained id = none
  exempt_lt : ∀ {scope key}, lock.exempt scope key = true → scope.index < table.scopes.size

/-- Tables that are built in lockstep. What is added next will be paired. -/
structure Tables (lock : Lockstep) (table table' : Table) : Prop where
  alike : Table.Alike (lock.upTo table) lock.toLeeway table table'
  symbolsAhead : ∀ count, lock.pairing.symbols ⟨table.symbols.size + count⟩ ⟨table'.symbols.size + count⟩
  scopesAhead : ∀ count, lock.pairing.scopes ⟨table.scopes.size + count⟩ ⟨table'.scopes.size + count⟩
  kept : ∀ {id' symbol}, lock.kept id' symbol → id'.index < table'.symbols.size ∧ table'.symbol id' = symbol
  settled : ∀ {scope scope' key found found'}, lock.settled scope scope' key found found' →
    table.Settles scope key found ∧ table'.Settles scope' key found' ∧
      (lock.allows (.name key) → table.Owns scope found)
  orderly : table.Orderly lock
  lower' : ∀ scope, (table'.scope scope).names.Lower

namespace Table

theorem size_modifySymbol (table : Table) (id : SymbolId) (change : Symbol → Symbol) :
    (table.modifySymbol id change).symbols.size = table.symbols.size :=
  Array.size_modify

theorem size_modifyScope (table : Table) (id : ScopeId) (change : Scope → Scope) :
    (table.modifyScope id change).scopes.size = table.scopes.size :=
  Array.size_modify

theorem symbol_modifyScope (table : Table) (id : ScopeId) (change : Scope → Scope)
    (symbol : SymbolId) : (table.modifyScope id change).symbol symbol = table.symbol symbol :=
  rfl

theorem modifyScope_modifyScope (table : Table) (id : ScopeId) (first second : Scope → Scope) :
    (table.modifyScope id first).modifyScope id second = table.modifyScope id fun scope => second (first scope) := by
  simp only [modifyScope, Table.mk.injEq, true_and]
  refine Array.ext (by simp) fun place bound bound' => ?_
  simp only [Array.getElem_modify]
  split <;> rfl

theorem foldl_bindName (table : Table) (scope : ScopeId) (entries : List (String × SymbolId)) :
    entries.foldl (fun table entry => table.bindName scope entry.1 entry.2) table =
      table.modifyScope scope fun found => { found with names := NameMap.insertAll entries found.names } := by
  induction entries generalizing table with
  | nil =>
    refine congrArg (Table.mk table.symbols) ?_
    refine Array.ext Array.size_modify.symm fun place bound bound' => ?_
    rw [Array.getElem_modify]
    split <;> rfl
  | cons entry rest ih =>
    rw [List.foldl_cons, ih, bindName, modifyScope_modifyScope]
    rfl

theorem size_addScope (table : Table) (kind : ScopeKind) (name : Option String) (parent : ScopeId)
    (symbol : Option SymbolId) : (table.addScope kind name parent symbol).2.scopes.size = table.scopes.size + 1 :=
  Array.size_push _

variable {table : Table} {scope : ScopeId} {key : String} {found : Option SymbolId}

theorem Settles.modifyScope (settles : table.Settles scope key found) {id : ScopeId} {change : Scope → Scope}
    (names : scope = id → (change (table.scope id)).names.find? key = (table.scope id).names.find? key) :
    (table.modifyScope id change).Settles scope key found := by
  refine ⟨by rw [size_modifyScope]; exact settles.bound, ?_⟩
  rw [scope_modifyScope]
  split
  next here => rw [names here.1, ← here.1, settles.meaning]
  · exact settles.meaning

theorem Settles.addScope (settles : table.Settles scope key found) (kind : ScopeKind)
    (name : Option String) (parent : ScopeId) (symbol : Option SymbolId) :
    (table.addScope kind name parent symbol).2.Settles scope key found := by
  refine ⟨by rw [size_addScope]; exact Nat.lt_succ_of_lt settles.bound, ?_⟩
  rw [scope_addScope, if_neg (Nat.ne_of_lt settles.bound), settles.meaning]

variable {change : Symbol → Symbol}

theorem Owns.modifySymbol (owns : table.Owns scope found) (owner : ∀ symbol, (change symbol).owner = symbol.owner) :
    (table.modifySymbol id change).Owns scope found := by
  obtain ⟨own, isFound, bound, isOwner⟩ := owns
  refine ⟨own, isFound, by rwa [size_modifySymbol], ?_⟩
  rw [symbol_modifySymbol]
  split
  next here => rw [owner, ← here.1, isOwner]
  · exact isOwner

theorem Owns.push (owns : table.Owns scope found) (added : Symbol) :
    Owns { table with symbols := table.symbols.push added } scope found := by
  obtain ⟨own, isFound, bound, isOwner⟩ := owns
  refine ⟨own, isFound, Nat.lt_of_lt_of_eq (Nat.lt_succ_of_lt bound) (Array.size_push _).symm, ?_⟩
  rw [symbol_push, if_neg (Nat.ne_of_lt bound), isOwner]

theorem Named.modifySymbol (named : table.Named id key) (other : SymbolId)
    (name : ∀ symbol, (change symbol).name = symbol.name) : (table.modifySymbol other change).Named id key := by
  refine ⟨by rw [size_modifySymbol]; exact named.bound, ?_⟩
  rw [symbol_modifySymbol]
  split
  next here => rw [name, ← here.1, named.name]
  · exact named.name

theorem Named.push (named : table.Named id key) (added : Symbol) :
    Named { table with symbols := table.symbols.push added } id key := by
  refine ⟨Nat.lt_of_lt_of_eq (Nat.lt_succ_of_lt named.bound) (Array.size_push _).symm, ?_⟩
  rw [symbol_push, if_neg (Nat.ne_of_lt named.bound), named.name]

theorem Named.unique {other : String} (named : table.Named id key) (also : table.Named id other) : key = other :=
  named.name.symm.trans also.name

namespace Orderly

variable {lock : Lockstep} (orderly : table.Orderly lock)
include orderly

theorem plain_of_defined (named : table.Named id key) (allowed : lock.allows (.defined key)) :
    lock.gained id = none := by
  by_contra isGained
  obtain ⟨other, also, forbidden⟩ := orderly.gained isGained
  exact forbidden (named.unique also ▸ allowed)

theorem plain_next : lock.gained ⟨table.symbols.size⟩ = none := by
  by_contra isGained
  obtain ⟨_, named, _⟩ := orderly.gained isGained
  exact Nat.lt_irrefl _ named.bound

theorem modifySymbol (id : SymbolId) (name : ∀ symbol, (change symbol).name = symbol.name)
    (rests : (change (table.symbol id)).details.Rests id) :
    (table.modifySymbol id change).Orderly lock where
  host_lt := orderly.host_lt
  rests := fun other => by
    rw [details, symbol_modifySymbol]
    split
    next here => exact here.1 ▸ rests
    · exact orderly.rests other
  lower := orderly.lower
  named := fun isFound => (orderly.named isFound).modifySymbol id name
  gained := fun isGained => by
    obtain ⟨key, named, forbidden⟩ := orderly.gained isGained
    exact ⟨key, named.modifySymbol id name, forbidden⟩
  exported := orderly.exported
  exempt_lt := orderly.exempt_lt

theorem modifyScope {change : Scope → Scope} (parent : (change (table.scope scope)).parent = (table.scope scope).parent)
    (lower : (change (table.scope scope)).names.Lower)
    (named : ∀ key id, (change (table.scope scope)).names.find? key = some id →
      table.Named id key ∧ (lock.exports scope → lock.gained id = none)) :
    (table.modifyScope scope change).Orderly lock where
  host_lt := fun {other host} isHost => by
    rw [scope_modifyScope] at isHost
    split at isHost
    next here => exact here.1 ▸ orderly.host_lt (parent ▸ isHost)
    · exact orderly.host_lt isHost
  rests := orderly.rests
  lower := fun other => by
    rw [scope_modifyScope]
    split
    · exact lower
    · exact orderly.lower other
  named := fun {other key id} isFound => by
    rw [scope_modifyScope] at isFound
    split at isFound
    · exact ⟨(named key id isFound).1.bound, (named key id isFound).1.name⟩
    · exact ⟨(orderly.named isFound).bound, (orderly.named isFound).name⟩
  gained := fun isGained => by
    obtain ⟨key, named, forbidden⟩ := orderly.gained isGained
    exact ⟨key, ⟨named.bound, named.name⟩, forbidden⟩
  exported := fun {other key id} exports isFound => by
    rw [scope_modifyScope] at isFound
    split at isFound
    next here => exact (named key id isFound).2 (here.1 ▸ exports)
    · exact orderly.exported exports isFound
  exempt_lt := by
    rw [size_modifyScope]
    exact orderly.exempt_lt

theorem push {added : Symbol} (rests : added.details.Rests ⟨table.symbols.size⟩) :
    Orderly lock { table with symbols := table.symbols.push added } where
  host_lt := orderly.host_lt
  rests := fun id => by
    rw [details, symbol_push]
    split
    next here =>
      intro other member
      rw [here]
      exact rests other member
    · exact orderly.rests id
  lower := orderly.lower
  named := fun isFound => (orderly.named isFound).push added
  gained := fun isGained => by
    obtain ⟨key, named, forbidden⟩ := orderly.gained isGained
    exact ⟨key, named.push added, forbidden⟩
  exported := orderly.exported
  exempt_lt := orderly.exempt_lt

theorem addScope (kind : ScopeKind) (name : Option String) {parent : ScopeId}
    (bound : parent.index < table.scopes.size) (symbol : Option SymbolId) :
    (table.addScope kind name parent symbol).2.Orderly lock where
  host_lt := fun {scope host} isHost => by
    rw [scope_addScope] at isHost
    split at isHost
    next here =>
      obtain rfl := Option.some.inj isHost
      exact here ▸ bound
    · exact orderly.host_lt isHost
  rests := orderly.rests
  lower := fun other => by
    rw [scope_addScope]
    split
    · exact fun _ _ isFound => by cases isFound
    · exact orderly.lower other
  named := fun isFound => by
    rw [scope_addScope] at isFound
    split at isFound
    · cases isFound
    · exact ⟨(orderly.named isFound).bound, (orderly.named isFound).name⟩
  gained := fun isGained => by
    obtain ⟨key, named, forbidden⟩ := orderly.gained isGained
    exact ⟨key, ⟨named.bound, named.name⟩, forbidden⟩
  exported := fun exports isFound => by
    rw [scope_addScope] at isFound
    split at isFound
    · cases isFound
    · exact orderly.exported exports isFound
  exempt_lt := fun isExempt => by
    rw [size_addScope]
    exact Nat.lt_succ_of_lt (orderly.exempt_lt isExempt)

end Orderly

end Table

namespace Tables

variable {lock : Lockstep} {table table' : Table} (tables : Tables lock table table')
  {id id' : SymbolId} {scope scope' : ScopeId}
include tables

variable {details details' : Details}

section

variable (paired : (lock.upTo table).symbols id id')
include paired

theorem modifySymbol {change change' : Symbol → Symbol}
    (alike : (change (table.symbol id)).Alike (lock.upTo table) (lock.gained id) (change' (table'.symbol id')))
    (owner : ∀ symbol, (change symbol).owner = symbol.owner) (name : ∀ symbol, (change symbol).name = symbol.name)
    (rests : (change (table.symbol id)).details.Rests id) :
    Tables lock (table.modifySymbol id change) (table'.modifySymbol id' change') := by
  have size := table.size_modifySymbol id change
  have size' := table'.size_modifySymbol id' change'
  have same : lock.upTo (table.modifySymbol id change) = lock.upTo table :=
    lock.upTo_congr size rfl
  refine ⟨⟨lock.exact_upTo _, same ▸ tables.alike.global, (·.2), ?_, ?_, ?_, ?_, ?_⟩, ?_, ?_, ?_, ?_,
    tables.orderly.modifySymbol id name rests, tables.lower'⟩
  · intro other other' pair
    rw [same] at pair ⊢
    rw [Table.symbol_modifySymbol, Table.symbol_modifySymbol]
    have iff := lock.exact.symbols pair.1 paired.1
    by_cases here : other = id
    · subst here
      obtain rfl := iff.mp rfl
      rw [if_pos ⟨rfl, paired.2⟩, if_pos ⟨rfl, tables.alike.symbol_lt paired⟩]
      exact alike
    · have here' : other' ≠ id' := fun equal => here (iff.mpr equal)
      rw [if_neg fun both => here both.1, if_neg fun both => here' both.1]
      exact tables.alike.symbol pair
  · intro other other' pair
    rw [same] at pair ⊢
    exact tables.alike.scope pair
  · intro other other' pair
    rw [same] at pair
    rw [size']
    exact tables.alike.symbol_lt pair
  · intro other other' pair
    rw [same] at pair
    exact tables.alike.scope_lt pair
  · rw [size, size']
    exact tables.alike.size_le
  · rw [size, size']
    exact tables.symbolsAhead
  · exact tables.scopesAhead
  · intro hole symbol kept
    rw [size', Table.symbol_modifySymbol, if_neg]
    · exact tables.kept kept
    · rintro ⟨rfl, -⟩
      exact lock.apart kept _ paired.1
  · intro scope scope' key found found' settled
    obtain ⟨left, right, own⟩ := tables.settled settled
    exact ⟨⟨left.bound, left.meaning⟩, ⟨right.bound, right.meaning⟩, fun allowed => (own allowed).modifySymbol owner⟩

theorem setDetails (alike : details.Alike (lock.upTo table) details') (rests : details.Rests id) :
    Tables lock (table.setDetails id details) (table'.setDetails id' details') :=
  have before := tables.alike.symbol paired
  tables.modifySymbol paired
    ⟨before.name, before.usage, alike, before.owner, before.has, before.access⟩ (fun _ => rfl) (fun _ => rfl)
    rests

theorem addUsage (usage : Usage) : Tables lock (table.addUsage id usage) (table'.addUsage id' usage) :=
  have before := tables.alike.symbol paired
  tables.modifySymbol paired
    ⟨before.name, congrArg (·.insert usage) before.usage, before.details, before.owner, before.has,
      before.access⟩ (fun _ => rfl) (fun _ => rfl) (tables.orderly.rests id)

theorem addAttribute (attr : Attribute) : Tables lock (table.addAttribute id attr) (table'.addAttribute id' attr) := by
  have before := tables.alike.symbol paired
  refine tables.modifySymbol paired
    ⟨before.name, before.usage, before.details, before.owner, fun other => ?_, before.access⟩
    (fun _ => rfl) (fun _ => rfl) (tables.orderly.rests id)
  have same := before.has other
  simp only [Symbol.has] at same
  simp only [Symbol.has, Flags.has_insert, same, Bool.or_assoc]

end

variable {change change' : Scope → Scope}

section

variable (paired : (lock.upTo table).scopes scope scope')
include paired

theorem modifyScope
    (alike : (change (table.scope scope)).Alike (lock.upTo table) (lock.exempt scope) (change' (table'.scope scope')))
    (names : ∀ key, ¬lock.Binds scope key →
      (change (table.scope scope)).names.find? key = (table.scope scope).names.find? key ∧
      (change' (table'.scope scope')).names.find? key = (table'.scope scope').names.find? key)
    (parent : (change (table.scope scope)).parent = (table.scope scope).parent)
    (lower : (change (table.scope scope)).names.Lower) (lower' : (change' (table'.scope scope')).names.Lower)
    (named : ∀ key id, (change (table.scope scope)).names.find? key = some id →
      table.Named id key ∧ (lock.exports scope → lock.gained id = none)) :
    Tables lock (table.modifyScope scope change) (table'.modifyScope scope' change') := by
  have size := table.size_modifyScope scope change
  have size' := table'.size_modifyScope scope' change'
  have same : lock.upTo (table.modifyScope scope change) = lock.upTo table :=
    lock.upTo_congr rfl size
  refine ⟨⟨lock.exact_upTo _, same ▸ tables.alike.global, (·.2), ?_, ?_, ?_, ?_, ?_⟩, ?_, ?_, ?_, ?_,
    tables.orderly.modifyScope parent lower named, ?_⟩
  · intro other other' pair
    rw [same] at pair ⊢
    exact tables.alike.symbol pair
  · intro other other' pair
    rw [same] at pair ⊢
    rw [Table.scope_modifyScope, Table.scope_modifyScope]
    have iff := lock.exact.scope_eq_iff pair.1 paired.1
    by_cases here : other = scope
    · subst here
      obtain rfl := iff.mp rfl
      rw [if_pos ⟨rfl, paired.2⟩, if_pos ⟨rfl, tables.alike.scope_lt paired⟩]
      exact alike
    · have here' : other' ≠ scope' := fun equal => here (iff.mpr equal)
      rw [if_neg fun both => here both.1, if_neg fun both => here' both.1]
      exact tables.alike.scope pair
  · intro other other' pair
    rw [same] at pair
    exact tables.alike.symbol_lt pair
  · intro other other' pair
    rw [same] at pair
    rw [size']
    exact tables.alike.scope_lt pair
  · exact tables.alike.size_le
  · exact tables.symbolsAhead
  · rw [size, size']
    exact tables.scopesAhead
  · exact tables.kept
  · intro other other' key found found' settled
    obtain ⟨left, right, own⟩ := tables.settled settled
    have iff := lock.exact.scope_eq_iff (lock.settles settled).1 paired.1
    have kept (here : other = scope) := names key fun binds => binds _ _ _ (here ▸ settled)
    exact ⟨left.modifyScope fun here => (kept here).1, right.modifyScope fun here =>
      (kept (iff.mpr here)).2, own⟩
  · intro other
    rw [Table.scope_modifyScope]
    split
    · exact lower'
    · exact tables.lower' other

theorem bindName (binds : lock.Binds scope name.toLower) (symbols : (lock.upTo table).symbols id id')
    (named : table.Named id name.toLower) (plain : lock.gained id = none) :
    Tables lock (table.bindName scope name id) (table'.bindName scope' name id') := by
  have alike := (tables.alike.scope paired).bind name.toLower symbols
  refine tables.modifyScope paired alike (fun key settled => ?_) rfl
    (NameMap.lower_insert (tables.orderly.lower scope) name id)
    (NameMap.lower_insert (tables.lower' scope') name id') fun key other isFound => ?_
  · have differs : key ≠ name.toLower := by
      rintro rfl
      exact settled binds
    rw [NameMap.find?_insert, NameMap.find?_insert, if_neg differs, if_neg differs]
    exact ⟨rfl, rfl⟩
  · rw [NameMap.find?_insert] at isFound
    split at isFound
    next same =>
      obtain rfl := Option.some.inj isFound
      exact ⟨same ▸ named, fun _ => plain⟩
    · exact ⟨tables.orderly.named isFound, fun exports => tables.orderly.exported exports isFound⟩

theorem bindNames (free : lock.Free scope) {entries entries' : List (String × SymbolId)}
    (alike : List.Forall₂ (EntryAlike (lock.upTo table)) (entries.filter fun entry => !lock.exempt scope entry.1)
      (entries'.filter fun entry => !lock.exempt scope entry.1))
    (lower : ∀ entry ∈ entries, entry.1.toLower = entry.1) (lower' : ∀ entry ∈ entries', entry.1.toLower = entry.1)
    (named : ∀ entry ∈ entries, table.Named entry.2 entry.1 ∧ lock.gained entry.2 = none) :
    Tables lock (entries.foldl (fun table entry => table.bindName scope entry.1 entry.2) table)
      (entries'.foldl (fun table entry => table.bindName scope' entry.1 entry.2) table') := by
  rw [Table.foldl_bindName, Table.foldl_bindName]
  have before := tables.alike.scope paired
  refine tables.modifyScope paired ⟨before.kind, before.parent, before.symbol, ?_,
    NameMap.sorted_insertAll _ before.sorted, NameMap.sorted_insertAll _ before.sorted'⟩
    (fun key settled => absurd (free key) settled) rfl (NameMap.lower_insertAll _ (tables.orderly.lower scope))
    (NameMap.lower_insertAll _ (tables.lower' scope')) fun key id isFound => ?_
  · simp only [NameMap.compared_insertAll before.sorted _ lower,
      NameMap.compared_insertAll before.sorted' _ lower']
    exact NameMap.foldl_insertInto_alike alike before.names
  · rcases NameMap.mem_of_find?_insertAll isFound with ⟨entry, member, same, rfl⟩ | earlier
    · rw [← same, lower entry member]
      exact ⟨(named entry member).1, fun _ => (named entry member).2⟩
    · exact ⟨tables.orderly.named earlier, fun exports => tables.orderly.exported exports earlier⟩

theorem modifyScope_of_names
    (alike : (change (table.scope scope)).Alike (lock.upTo table) (lock.exempt scope) (change' (table'.scope scope')))
    (parent : (change (table.scope scope)).parent = (table.scope scope).parent)
    (names : ∀ scope, (change scope).names = scope.names) (names' : ∀ scope, (change' scope).names = scope.names) :
    Tables lock (table.modifyScope scope change) (table'.modifyScope scope' change') := by
  refine tables.modifyScope paired alike (fun _ _ => by rw [names, names']; exact ⟨rfl, rfl⟩) parent
    (by rw [names]; exact tables.orderly.lower scope) (by rw [names']; exact tables.lower' scope')
    fun key id isFound => ?_
  rw [names] at isFound
  exact ⟨tables.orderly.named isFound, fun exports => tables.orderly.exported exports isFound⟩

end

theorem next_symbol (added : Symbol) :
    (lock.upTo { table with symbols := table.symbols.push added }).symbols ⟨table.symbols.size⟩
      ⟨table'.symbols.size⟩ :=
  ⟨tables.symbolsAhead 0, Nat.lt_of_lt_of_eq (Nat.lt_succ_self _) (Array.size_push _).symm⟩

omit tables in
theorem le_push (added : Symbol) :
    (lock.upTo table).Le (lock.upTo { table with symbols := table.symbols.push added }) :=
  lock.upTo_le (Nat.le_trans (Nat.le_succ _) (Nat.le_of_eq (Array.size_push _).symm)) (Nat.le_refl _)

theorem push {added added' : Symbol} (alike : added.Alike (lock.upTo table) none added') :
    Tables lock { table with symbols := table.symbols.push added }
      { table' with symbols := table'.symbols.push added' } := by
  have le : (lock.upTo table).Le (lock.upTo { table with symbols := table.symbols.push added }) :=
    le_push added
  have size : (table.symbols.push added).size = table.symbols.size + 1 := Array.size_push _
  have size' : (table'.symbols.push added').size = table'.symbols.size + 1 := Array.size_push _
  have old {other other' : SymbolId}
      (pair : (lock.upTo { table with symbols := table.symbols.push added }).symbols other other')
      (earlier : ¬other.index = table.symbols.size) : (lock.upTo table).symbols other other' := by
    have bound : other.index < (table.symbols.push added).size := pair.2
    exact ⟨pair.1, by omega⟩
  have last {other other' : SymbolId}
      (pair : (lock.upTo { table with symbols := table.symbols.push added }).symbols other other') :
      other.index = table.symbols.size ↔ other'.index = table'.symbols.size := by
    have iff := lock.exact.symbols pair.1 (tables.symbolsAhead 0)
    obtain ⟨other⟩ := other
    obtain ⟨other'⟩ := other'
    simpa using iff
  refine ⟨⟨lock.exact_upTo _, le.scopes tables.alike.global, (·.2), ?_, ?_, ?_, ?_, ?_⟩, ?_, ?_, ?_, ?_,
    tables.orderly.push ?_, tables.lower'⟩
  · intro other other' pair
    rw [Table.symbol_push, Table.symbol_push]
    by_cases here : other.index = table.symbols.size
    · rw [if_pos here, if_pos ((last pair).mp here)]
      obtain ⟨place⟩ := other
      obtain rfl : place = table.symbols.size := here
      rw [tables.orderly.plain_next]
      exact alike.mono le
    · rw [if_neg here, if_neg fun here' => here ((last pair).mpr here')]
      exact (tables.alike.symbol (old pair here)).mono le
  · exact fun pair => (tables.alike.scope pair).mono le
  · intro other other' pair
    simp only [size']
    by_cases here : other.index = table.symbols.size
    · have := (last pair).mp here
      omega
    · exact Nat.lt_succ_of_lt (tables.alike.symbol_lt (old pair here))
  · exact fun pair => tables.alike.scope_lt pair
  · simp only [size, size']
    exact Nat.succ_le_succ tables.alike.size_le
  · intro count
    simp only [size, size', Nat.add_assoc]
    exact tables.symbolsAhead _
  · exact tables.scopesAhead
  · intro hole symbol kept
    obtain ⟨bound, isSymbol⟩ := tables.kept kept
    rw [Table.symbol_push, if_neg (Nat.ne_of_lt bound)]
    simp only [size']
    exact ⟨Nat.lt_succ_of_lt bound, isSymbol⟩
  · intro scope scope' key found found' settled
    obtain ⟨left, right, own⟩ := tables.settled settled
    exact ⟨⟨left.bound, left.meaning⟩, ⟨right.bound, right.meaning⟩, fun allowed => (own allowed).push added⟩
  · intro id member
    obtain ⟨_, pair⟩ := alike.details.covers id (added.details.earlier_subset member)
    exact pair.2

theorem addSymbol (paired : (lock.upTo table).scopes scope scope') (binds : lock.Binds scope name.toLower)
    {attributes attributes' : Attributes} (has : ∀ attr, attributes.has attr = attributes'.has attr)
    (alike : details.Alike (lock.upTo table) details') (span span' : Span) :
    Tables lock (table.addSymbol scope name attributes details span).2
      (table'.addSymbol scope' name attributes' details' span').2 := by
  have same : Symbol.Alike (lock.upTo table) none
      ⟨name.toLower, attributes, .empty, details, scope, span⟩
      ⟨name.toLower, attributes', .empty, details', scope', span'⟩ :=
    ⟨rfl, rfl, alike, paired, fun attr => by simp [Symbol.has, has attr], nofun⟩
  have pushed := tables.push same
  refine pushed.bindName ((le_push _).scopes paired) binds (tables.next_symbol _) ⟨?_, ?_⟩ tables.orderly.plain_next
  · exact Nat.lt_of_lt_of_eq (Nat.lt_succ_self _) (Array.size_push _).symm
  · rw [Table.symbol_push, if_pos rfl]

theorem next_scope (kind : ScopeKind) (name : Option String) (parent : ScopeId) (symbol : Option SymbolId) :
    (lock.upTo (table.addScope kind name parent symbol).2).scopes ⟨table.scopes.size⟩ ⟨table'.scopes.size⟩ :=
  ⟨tables.scopesAhead 0, Nat.lt_of_lt_of_eq (Nat.lt_succ_self _) (table.size_addScope kind name parent symbol).symm⟩

theorem plain_next : lock.Plain ⟨table.scopes.size⟩ := by
  refine ⟨fun _ _ _ _ settled => ?_, fun key => Bool.eq_false_iff.mpr fun isExempt => ?_⟩
  · exact Nat.lt_irrefl _ (tables.settled settled).1.bound
  · exact Nat.lt_irrefl _ (tables.orderly.exempt_lt isExempt)

omit tables in
theorem le_addScope (kind : ScopeKind) (name : Option String) (parent : ScopeId) (symbol : Option SymbolId) :
    (lock.upTo table).Le (lock.upTo (table.addScope kind name parent symbol).2) :=
  lock.upTo_le (Nat.le_refl _)
    (Nat.le_trans (Nat.le_succ _) (Nat.le_of_eq (table.size_addScope kind name parent symbol).symm))

theorem addScope (kind : ScopeKind) (name name' : Option String) {parent parent' : ScopeId}
    (parents : (lock.upTo table).scopes parent parent') {symbol symbol' : Option SymbolId}
    (symbols : Option.Rel (lock.upTo table).symbols symbol symbol') :
    Tables lock (table.addScope kind name parent symbol).2 (table'.addScope kind name' parent' symbol').2 := by
  have le : (lock.upTo table).Le (lock.upTo (table.addScope kind name parent symbol).2) :=
    le_addScope kind name parent symbol
  have size := table.size_addScope kind name parent symbol
  have size' := table'.size_addScope kind name' parent' symbol'
  have old {other other' : ScopeId}
      (pair : (lock.upTo (table.addScope kind name parent symbol).2).scopes other other')
      (earlier : ¬other.index = table.scopes.size) : (lock.upTo table).scopes other other' := by
    have bound := pair.2
    exact ⟨pair.1, by omega⟩
  have last {other other' : ScopeId}
      (pair : (lock.upTo (table.addScope kind name parent symbol).2).scopes other other') :
      other.index = table.scopes.size ↔ other'.index = table'.scopes.size := by
    have iff := lock.exact.scope_eq_iff pair.1 (tables.scopesAhead 0)
    obtain ⟨other⟩ := other
    obtain ⟨other'⟩ := other'
    simpa using iff
  refine ⟨⟨lock.exact_upTo _, le.scopes tables.alike.global, (·.2), ?_, ?_, ?_, ?_, ?_⟩, ?_, ?_, ?_, ?_,
    tables.orderly.addScope kind name parents.2 symbol, ?_⟩
  · exact fun pair => (tables.alike.symbol pair).mono le
  · intro other other' pair
    rw [Table.scope_addScope, Table.scope_addScope]
    by_cases here : other.index = table.scopes.size
    · rw [if_pos here, if_pos ((last pair).mp here)]
      exact ⟨rfl, .some (le.scopes parents), relMono le.symbols symbols, .nil, .nil, .nil⟩
    · rw [if_neg here, if_neg fun here' => here ((last pair).mpr here')]
      exact (tables.alike.scope (old pair here)).mono le
  · exact fun pair => tables.alike.symbol_lt pair
  · intro other other' pair
    rw [size']
    by_cases here : other.index = table.scopes.size
    · have := (last pair).mp here
      omega
    · exact Nat.lt_succ_of_lt (tables.alike.scope_lt (old pair here))
  · exact tables.alike.size_le
  · exact tables.symbolsAhead
  · intro count
    simp only [size, size', Nat.add_assoc]
    exact tables.scopesAhead _
  · exact tables.kept
  · intro scope scope' key found found' settled
    obtain ⟨left, right, own⟩ := tables.settled settled
    exact ⟨left.addScope kind name parent symbol, right.addScope kind name' parent' symbol', own⟩
  · intro other
    rw [Table.scope_addScope]
    split
    · exact fun _ _ isFound => by cases isFound
    · exact tables.lower' other

theorem binds_of_foreign (allowed : lock.allows (.ofName name))
    (foreign : ∀ id, (table.scope scope).find? name = some id → (table.symbol id).owner ≠ scope) :
    lock.Binds scope name.toLower := by
  intro scope' found found' settled
  obtain ⟨settles, -, own⟩ := tables.settled settled
  obtain ⟨id, isFound, -, isOwner⟩ := own allowed
  exact foreign id (settles.meaning.trans isFound) isOwner

end Tables

def Table.Unsettled (lock : Lockstep) (table : Table) (scope : ScopeId) (key : String) : Prop :=
  ∀ host ∈ table.hosts scope, lock.Binds host key

theorem Table.mem_takeWhile_of_mem_hosts {table : Table} {scope host : ScopeId}
    (member : host ∈ table.hosts scope) (inner : host ≠ global) :
    host ∈ (table.hosts scope).takeWhile (· ≠ global) := by
  induction scope using hosts.induct table with
  | case1 scope parent isParent less ih =>
    rw [hosts, isParent] at member ⊢
    simp only [if_pos less] at member ⊢
    have notGlobal : scope ≠ global := by
      rintro rfl
      exact Nat.not_lt_zero _ less
    rw [List.takeWhile_cons, if_pos (decide_eq_true notGlobal)]
    rcases List.mem_cons.mp member with rfl | outer
    · exact .head _
    · exact .tail _ (ih outer)
  | case2 scope parent isParent notLess =>
    rw [hosts, isParent] at member ⊢
    simp only [if_neg notLess] at member ⊢
    obtain rfl := List.mem_singleton.mp member
    simp [inner]
  | case3 scope isParent =>
    rw [hosts, isParent] at member ⊢
    obtain rfl := List.mem_singleton.mp member
    simp [inner]

theorem Tables.unsettled_of_visible? {table table' : Table} (tables : Tables lock table table')
    {scope : ScopeId} (allowed : lock.allows (.ofName name)) (unknown : table.visible? scope name = none) :
    table.Unsettled lock scope name.toLower := by
  intro host member scope' found found' settled
  obtain ⟨settles, -, own⟩ := tables.settled settled
  obtain ⟨id, isFound, -, -⟩ := own allowed
  have inner := Table.mem_takeWhile_of_mem_hosts member (lock.settles settled).2
  refine Table.visible?_ne_none_iff.mpr ⟨host, inner, ?_⟩ unknown
  have isKnown : (table.scope host).find? name = some id := settles.meaning.trans isFound
  exact isKnown ▸ Option.some_ne_none id

theorem Tables.named_of_visible? {table table' : Table} (tables : Tables lock table table') {scope : ScopeId}
    (isKnown : table.visible? scope name = some id) : table.Named id name.toLower := by
  obtain ⟨host, -, isFound⟩ := List.exists_of_findSome?_eq_some isKnown
  exact tables.orderly.named isFound

theorem Table.scopingUnit_mem_hosts (table : Table) (scope : ScopeId) :
    table.scopingUnit scope ∈ table.hosts scope := by
  unfold scopingUnit
  cases isFound : (table.hosts scope).find? fun host => (table.scope host).kind ≠ .block with
  | none =>
    obtain ⟨outer, isHosts⟩ := table.hosts_eq scope
    rw [isHosts]
    exact .head _
  | some unit => exact List.mem_of_find?_eq_some isFound

end FortranInterface
