import FortranInterface.Proofs.Lockstep.Tables
import FortranInterface.Proofs.Resolution.Step

/-!
Two runs of the resolver in lockstep. A pair of computations runs if it takes matched states to matched
states and its results are related; the rules here say how such pairs are put together.
-/

namespace FortranInterface

/-- Symbols and scopes are only added. Symbols keep their names and stay in the scopes that own them, and
scopes in their hosts. -/
structure Table.Grows (table next : Table) : Prop where
  symbols_le : table.symbols.size ≤ next.symbols.size
  scopes_le : table.scopes.size ≤ next.scopes.size
  owner : ∀ id : SymbolId, id.index < table.symbols.size → (next.symbol id).owner = (table.symbol id).owner
  name : ∀ id : SymbolId, id.index < table.symbols.size → (next.symbol id).name = (table.symbol id).name
  parent : ∀ scope : ScopeId, scope.index < table.scopes.size → (next.scope scope).parent = (table.scope scope).parent

namespace Table.Grows

variable {table middle next : Table}

theorem refl (table : Table) : table.Grows table :=
  ⟨Nat.le_refl _, Nat.le_refl _, fun _ _ => rfl, fun _ _ => rfl, fun _ _ => rfl⟩

theorem trans (first : table.Grows middle) (second : middle.Grows next) : table.Grows next := by
  refine ⟨Nat.le_trans first.symbols_le second.symbols_le, Nat.le_trans first.scopes_le second.scopes_le,
    fun id bound => ?_, fun id bound => ?_, fun scope bound => ?_⟩
  · rw [second.owner id (Nat.lt_of_lt_of_le bound first.symbols_le), first.owner id bound]
  · rw [second.name id (Nat.lt_of_lt_of_le bound first.symbols_le), first.name id bound]
  · rw [second.parent scope (Nat.lt_of_lt_of_le bound first.scopes_le), first.parent scope bound]

variable {lock : Lockstep}

section

variable (grows : table.Grows next)
include grows

theorem le : (lock.upTo table).Le (lock.upTo next) :=
  lock.upTo_le grows.symbols_le grows.scopes_le

theorem symbols {id id' : SymbolId} (paired : (lock.upTo table).symbols id id') : (lock.upTo next).symbols id id' :=
  grows.le.symbols paired

theorem scopes {scope scope' : ScopeId} (paired : (lock.upTo table).scopes scope scope') :
    (lock.upTo next).scopes scope scope' :=
  grows.le.scopes paired

theorem named {id : SymbolId} {key : String} (named : table.Named id key) : next.Named id key :=
  ⟨Nat.lt_of_lt_of_le named.bound grows.symbols_le, (grows.name id named.bound).trans named.name⟩

variable {scope : ScopeId} (bound : scope.index < table.scopes.size)
include bound

theorem hosts : next.hosts scope = table.hosts scope :=
  hosts_of_parent_eq fun inner within => grows.parent inner (Nat.lt_of_le_of_lt within bound)

theorem unsettled {key : String} (unsettled : table.Unsettled lock scope key) : next.Unsettled lock scope key := by
  unfold Unsettled
  rwa [grows.hosts bound]

end

theorem modifySymbol (table : Table) (id : SymbolId) {change : Symbol → Symbol}
    (owner : ∀ symbol, (change symbol).owner = symbol.owner) (name : ∀ symbol, (change symbol).name = symbol.name) :
    table.Grows (table.modifySymbol id change) := by
  refine ⟨Nat.le_of_eq (table.size_modifySymbol id change).symm, Nat.le_refl _, fun other _ => ?_,
    fun other _ => ?_, fun _ _ => rfl⟩
  · rw [symbol_modifySymbol]
    split
    next here => rw [owner, here.1]
    · rfl
  · rw [symbol_modifySymbol]
    split
    next here => rw [name, here.1]
    · rfl

theorem setDetails (table : Table) (id : SymbolId) (details : Details) : table.Grows (table.setDetails id details) :=
  modifySymbol table id (fun _ => rfl) fun _ => rfl

theorem modifyScope (table : Table) (id : ScopeId) {change : Scope → Scope}
    (parent : ∀ scope, (change scope).parent = scope.parent) : table.Grows (table.modifyScope id change) := by
  refine ⟨Nat.le_refl _, Nat.le_of_eq (table.size_modifyScope id change).symm, fun _ _ => rfl,
    fun _ _ => rfl, fun other _ => ?_⟩
  rw [scope_modifyScope]
  split
  next here => rw [parent, here.1]
  · rfl

theorem bindName (table : Table) (scope : ScopeId) (name : String) (id : SymbolId) :
    table.Grows (table.bindName scope name id) :=
  modifyScope table scope fun _ => rfl

theorem addSymbol (table : Table) (scope : ScopeId) (name : String) (attributes : Attributes)
    (details : Details) (span : Span) : table.Grows (table.addSymbol scope name attributes details span).2 := by
  let added : Symbol := ⟨name.toLower, attributes, .empty, details, scope, span⟩
  let larger : Table := { table with symbols := table.symbols.push added }
  have pushed : table.Grows larger := by
    refine ⟨?_, Nat.le_refl _, fun id bound => ?_, fun id bound => ?_, fun _ _ => rfl⟩
    · exact Nat.le_trans (Nat.le_succ _) (Nat.le_of_eq (Array.size_push _).symm)
    · rw [symbol_push, if_neg (Nat.ne_of_lt bound)]
    · rw [symbol_push, if_neg (Nat.ne_of_lt bound)]
  exact pushed.trans (bindName larger _ _ _)

theorem addScope (table : Table) (kind : ScopeKind) (name : Option String) (parent : ScopeId)
    (symbol : Option SymbolId) : table.Grows (table.addScope kind name parent symbol).2 := by
  refine ⟨Nat.le_refl _, ?_, fun _ _ => rfl, fun _ _ => rfl, fun scope bound => ?_⟩
  · exact Nat.le_trans (Nat.le_succ _) (Nat.le_of_eq (table.size_addScope kind name parent symbol).symm)
  · rw [scope_addScope, if_neg (Nat.ne_of_lt bound)]

end Table.Grows

open Tree (Mention)

structure PendingGeneric.Alike (lock : Lockstep) (pairing : Pairing) (pending pending' : PendingGeneric) :
    Prop where
  scope : pairing.scopes pending.scope pending'.scope
  generic : pairing.symbols pending.generic pending'.generic
  names : pending.names = pending'.names
  stored : lock.Permits ((pending.names.map Tree.Located.mention).map Mention.stored)

structure PendingBindings.Alike (lock : Lockstep) (pairing : Pairing)
    (pending pending' : PendingBindings) : Prop where
  type : pairing.symbols pending.type pending'.type
  typeScope : pairing.scopes pending.typeScope pending'.typeScope
  scope : pairing.scopes pending.scope pending'.scope
  bindings : pending.bindings = pending'.bindings
  stored : lock.Permits ((pending.bindings.flatMap Tree.Binding.mentions).map Mention.stored)
  free : lock.Free pending.typeScope

variable {larger pairing : Pairing}

theorem PendingGeneric.Alike.mono {lock : Lockstep} (le : pairing.Le larger) {pending pending' : PendingGeneric}
    (alike : pending.Alike lock pairing pending') : pending.Alike lock larger pending' :=
  { alike with scope := le.scopes alike.scope, generic := le.symbols alike.generic }

theorem PendingBindings.Alike.mono {lock : Lockstep} (le : pairing.Le larger) {pending pending' : PendingBindings}
    (alike : pending.Alike lock pairing pending') : pending.Alike lock larger pending' :=
  { alike with
    type := le.symbols alike.type
    typeScope := le.scopes alike.typeScope
    scope := le.scopes alike.scope }

structure Reference.Alike (pairing : Pairing) (reference reference' : Reference) : Prop where
  scope : pairing.scopes reference.scope reference'.scope
  callee : reference.callee.Alike pairing reference'.callee
  generic : Option.Rel pairing.symbols reference.generic reference'.generic
  arguments : Actuals.Alike pairing reference.arguments reference'.arguments

variable {reference reference' : Reference}

theorem Reference.Alike.mono (le : pairing.Le larger) (alike : reference.Alike pairing reference') :
    reference.Alike larger reference' :=
  ⟨le.scopes alike.scope, alike.callee.mono le, relMono le.symbols alike.generic, Actuals.Alike.mono le alike.arguments⟩

structure ModuleAlike (lock : Lockstep) (pairing : Pairing) (entry entry' : String × ScopeId) : Prop where
  name : entry.1 = entry'.1
  scope : pairing.scopes entry.2 entry'.2
  exports : lock.allows (.module entry.1) → lock.exports entry.2

def Resolution.faults (state : Resolution) : List ResolutionFault :=
  state.findings.toList.map ResolutionFinding.fault

structure Matched (lock : Lockstep) (state state' : Resolution) : Prop where
  tables : Tables lock state.table state'.table
  implicit : ∀ {scope scope'}, lock.pairing.scopes scope scope' →
    state.implicit.lookup scope = state'.implicit.lookup scope'
  rules : ∀ entry ∈ state.implicit, lock.Permits (Tree.ruleMentions entry.2.rules)
  rules_lt : ∀ entry ∈ state.implicit, entry.1.index < state.table.scopes.size
  privateByDefault : ∀ {scope scope'}, lock.pairing.scopes scope scope' →
    (scope ∈ state.privateByDefault ↔ scope' ∈ state'.privateByDefault)
  private_lt : ∀ scope ∈ state.privateByDefault, scope.index < state.table.scopes.size
  modules : List.Forall₂ (ModuleAlike lock (lock.upTo state.table)) state.modules state'.modules
  results : List.Forall₂ (lock.upTo state.table).symbols state.results state'.results
  generics : List.Forall₂ (PendingGeneric.Alike lock (lock.upTo state.table)) state.pendingGenerics
    state'.pendingGenerics
  bindings : List.Forall₂ (PendingBindings.Alike lock (lock.upTo state.table)) state.pendingBindings
    state'.pendingBindings
  bodies : List.Forall₂ (fun entry entry' => (lock.upTo state.table).scopes entry.1 entry'.1 ∧
    entry.2 = entry'.2 ∧ ∀ mention ∈ Tree.stmtMentions entry.2, lock.bodies mention) state.bodies state'.bodies
  references : List.Forall₂ (Reference.Alike (lock.upTo state.table)) state.references.toList state'.references.toList
  faults : state'.faults.Perm (lock.extra ++ state.faults)

theorem forall₂_exists {α β : Type} {related : α → β → Prop} {values : List α} {values' : List β}
    (alike : List.Forall₂ related values values') {value : α} (member : value ∈ values) :
    ∃ value' ∈ values', related value value' := by
  induction alike with
  | nil => cases member
  | cons first _ ih =>
    rcases List.mem_cons.mp member with rfl | later
    · exact ⟨_, .head _, first⟩
    · obtain ⟨value', member', pair⟩ := ih later
      exact ⟨value', .tail _ member', pair⟩

namespace Matched

variable {lock : Lockstep} {state state' : Resolution} (matched : Matched lock state state')
include matched

theorem alike : Table.Alike (lock.upTo state.table) lock.toLeeway state.table state'.table :=
  matched.tables.alike

theorem isResult_iff {id id' : SymbolId} (paired : lock.pairing.symbols id id') :
    id ∈ state.results ↔ id' ∈ state'.results := by
  constructor
  · intro member
    obtain ⟨other', member', pair⟩ := forall₂_exists matched.results member
    exact (lock.exact.symbols pair.1 paired).mp rfl ▸ member'
  · intro member'
    obtain ⟨other, member, pair⟩ := forall₂_exists matched.results.flip member'
    exact (lock.exact.symbols pair.1 paired).mpr rfl ▸ member

theorem withTable {next next' : Table} (grows : state.table.Grows next) (tables : Tables lock next next') :
    Matched lock { state with table := next } { state' with table := next' } := by
  exact { matched with
    tables
    rules_lt := fun entry member => Nat.lt_of_lt_of_le (matched.rules_lt entry member) grows.scopes_le
    private_lt := fun scope member => Nat.lt_of_lt_of_le (matched.private_lt scope member) grows.scopes_le
    modules := matched.modules.imp fun _ _ entry => { entry with scope := grows.scopes entry.scope }
    results := matched.results.imp fun _ _ pair => grows.symbols pair
    generics := matched.generics.imp fun _ _ pending => pending.mono grows.le
    bindings := matched.bindings.imp fun _ _ pending => pending.mono grows.le
    bodies := matched.bodies.imp fun _ _ entry => ⟨grows.scopes entry.1, entry.2⟩
    references := matched.references.imp fun _ _ reference => reference.mono grows.le }

theorem implicitFor {scope scope' : ScopeId} (paired : (lock.upTo state.table).scopes scope scope') :
    state.implicitFor scope = state'.implicitFor scope' := by
  unfold Resolution.implicitFor
  refine congrArg (Option.getD · ImplicitTyping.default) ?_
  have chain := matched.alike.hosts scope paired
  generalize state.table.hosts scope = hosts, state'.table.hosts scope' = hosts' at chain
  induction chain with
  | nil => rfl
  | cons first _ ih => rw [List.findSome?_cons, List.findSome?_cons, matched.implicit first.1, ih]

omit matched in
theorem mem_of_lookup {scope : ScopeId} {typing : ImplicitTyping}
    {entries : List (ScopeId × ImplicitTyping)} (isFound : entries.lookup scope = some typing) :
    ∃ entry ∈ entries, entry.2 = typing := by
  induction entries with
  | nil => simp at isFound
  | cons first rest ih =>
    obtain ⟨host, rules⟩ := first
    rw [List.lookup_cons] at isFound
    split at isFound
    · exact ⟨_, .head _, Option.some.inj isFound⟩
    · obtain ⟨entry, member, same⟩ := ih isFound
      exact ⟨entry, .tail _ member, same⟩

theorem implicitFor_permits (scope : ScopeId) : lock.Permits (Tree.ruleMentions (state.implicitFor scope).rules) := by
  unfold Resolution.implicitFor
  cases isFound : (state.table.hosts scope).findSome? fun host => state.implicit.lookup host with
  | none => exact fun mention member => by simp [ImplicitTyping.default, Tree.ruleMentions] at member
  | some typing =>
    obtain ⟨host, -, isRules⟩ := List.exists_of_findSome?_eq_some isFound
    obtain ⟨entry, member, rfl⟩ := mem_of_lookup isRules
    exact matched.rules entry member

end Matched

structure Reaches {α α' : Type} (lock : Lockstep) (state : Resolution)
    (related : Pairing → α → α' → Prop) (result : α × Resolution) (result' : α' × Resolution) : Prop where
  grows : state.table.Grows result.2.table
  matched : Matched lock result.2 result'.2
  related : related (lock.upTo result.2.table) result.1 result'.1

variable {α α' β β' : Type} {lock : Lockstep} {world : Table}

def Unrelated (_ : Pairing) (_ : α) (_ : α') : Prop :=
  True

def Persists (related : Pairing → α → α' → Prop) : Prop :=
  ∀ smaller larger value value', smaller.Le larger → related smaller value value' → related larger value value'

variable {related : Pairing → α → α' → Prop}

theorem Persists.rel (persists : Persists related) : Persists fun pairing => Option.Rel (related pairing) :=
  fun _ _ _ _ le => relMono (persists _ _ _ _ le)

theorem Persists.forall₂ (persists : Persists related) : Persists fun pairing => List.Forall₂ (related pairing) :=
  fun _ _ _ _ le alike => alike.imp fun _ _ => persists _ _ _ _ le

theorem persists_symbols : Persists fun pairing => pairing.symbols :=
  fun _ _ _ _ le => le.symbols

theorem persists_scopes : Persists fun pairing => pairing.scopes :=
  fun _ _ _ _ le => le.scopes

theorem persists_expr : Persists Expr.Alike :=
  fun _ _ _ _ le => Expr.Alike.mono le

theorem persists_subscript : Persists Subscript.Alike :=
  fun _ _ _ _ le => Subscript.Alike.mono le

theorem persists_actualValue : Persists ActualValue.Alike :=
  fun _ _ _ _ le => ActualValue.Alike.mono le

theorem persists_bounds : Persists Bounds.Alike :=
  fun _ _ _ _ le => Bounds.Alike.mono le

namespace Resolve

/-- Computations that can be made in lockstep, from some time on when the first table is as given. -/
def Runs (lock : Lockstep) (world : Table) (step : Resolve α) (step' : Resolve α')
    (related : Pairing → α → α' → Prop) : Prop :=
  ∀ state state', Matched lock state state' → world.Grows state.table →
    Reaches lock state related (step.run state) (step'.run state')

namespace Runs

variable {step : Resolve α} {step' : Resolve α'} {rest : α → Resolve β} {rest' : α' → Resolve β'}
  {middle : Pairing → α → α' → Prop} {related : Pairing → β → β' → Prop}

theorem pure {value : β} {value' : β'} (holds : ∀ later, world.Grows later → related (lock.upTo later) value value') :
    Runs lock world (Pure.pure value) (Pure.pure value') related :=
  fun _ _ matched le => ⟨.refl _, matched, holds _ le⟩

theorem bind (first : Runs lock world step step' middle)
    (second : ∀ later value value', world.Grows later → middle (lock.upTo later) value value' →
      Runs lock later (rest value) (rest' value') related) :
    Runs lock world (step >>= rest) (step' >>= rest') related := by
  intro state state' matched le
  have early := first state state' matched le
  have late := second _ _ _ (le.trans early.grows) early.related _ _ early.matched (.refl _)
  exact ⟨early.grows.trans late.grows, late.matched, late.related⟩

/-- The rest may depend on what is known of the first run alone. -/
theorem bind_knowing (fact : Table → α → Prop) (first : Runs lock world step step' middle)
    (knows : ∀ state state', Matched lock state state' → world.Grows state.table →
      fact (step.run state).2.table (step.run state).1)
    (second : ∀ later value value', world.Grows later → middle (lock.upTo later) value value' →
      fact later value → Runs lock later (rest value) (rest' value') related) :
    Runs lock world (step >>= rest) (step' >>= rest') related := by
  intro state state' matched le
  have early := first state state' matched le
  have late := second _ _ _ (le.trans early.grows) early.related (knows state state' matched le) _ _
    early.matched (.refl _)
  exact ⟨early.grows.trans late.grows, late.matched, late.related⟩

theorem mono {later : Table} (runs : Runs lock world step step' middle) (grows : world.Grows later) :
    Runs lock later step step' middle :=
  fun state state' matched more => runs state state' matched (grows.trans more)

section

variable {mapping : α → β} {mapping' : α' → β'} (first : Runs lock world step step' middle)
  (implies : ∀ later value value', world.Grows later → middle (lock.upTo later) value value' →
    related (lock.upTo later) (mapping value) (mapping' value'))
include first implies

theorem map : Runs lock world (mapping <$> step) (mapping' <$> step') related := by
  intro state state' matched le
  have reached := first state state' matched le
  exact ⟨reached.grows, reached.matched, implies _ _ _ (le.trans reached.grows) reached.related⟩

theorem bind_pure :
    Runs lock world (step >>= fun value => Pure.pure (mapping value))
      (step' >>= fun value => Pure.pure (mapping' value)) related :=
  map first implies

end

theorem get_bind {rest : Resolution → Resolve β} {rest' : Resolution → Resolve β'}
    (second : ∀ state state', Matched lock state state' → world.Grows state.table →
      Runs lock state.table (rest state) (rest' state') related) :
    Runs lock world (get >>= rest) (get >>= rest') related :=
  fun state state' matched le => second state state' matched le state state' matched (.refl _)

theorem table_bind {rest : Table → Resolve β} {rest' : Table → Resolve β'}
    (second : ∀ table table', Tables lock table table' → world.Grows table →
      Runs lock table (rest table) (rest' table') related) :
    Runs lock world (table >>= rest) (table >>= rest') related :=
  fun state state' matched le => second _ _ matched.tables le state state' matched (.refl _)

theorem ite {condition condition' : Prop} [Decidable condition] [Decidable condition']
    {first second : Resolve β} {first' second' : Resolve β'} (iff : condition ↔ condition')
    (runsFirst : condition → Runs lock world first first' related)
    (runsSecond : ¬condition → Runs lock world second second' related) :
    Runs lock world (if condition then first else second) (if condition' then first' else second') related := by
  by_cases holds : condition
  · rw [if_pos holds, if_pos (iff.mp holds)]
    exact runsFirst holds
  · rw [if_neg holds, if_neg fun holds' => holds (iff.mpr holds')]
    exact runsSecond holds

theorem forM₂ {relation : α → α' → Prop} {step : α → Resolve PUnit} {step' : α' → Resolve PUnit}
    {values : List α} {values' : List α'} (related : List.Forall₂ relation values values')
    (steps : ∀ later value value', world.Grows later → relation value value' →
      Runs lock later (step value) (step' value') Unrelated) :
    Runs lock world (values.forM step) (values'.forM step') Unrelated := by
  induction related generalizing world with
  | nil => exact .pure fun _ _ => trivial
  | cons first _ ih =>
    refine .bind (steps _ _ _ (.refl _) first) fun larger _ _ le _ => ih fun wider value value' more => ?_
    exact steps wider value value' (le.trans more)

theorem forM {step step' : α → Resolve PUnit} {values : List α}
    (steps : ∀ later value, world.Grows later → value ∈ values → Runs lock later (step value) (step' value) Unrelated) :
    Runs lock world (values.forM step) (values.forM step') Unrelated := by
  induction values generalizing world with
  | nil => exact .pure fun _ _ => trivial
  | cons first rest ih =>
    refine .bind (steps _ _ (.refl _) (.head _)) fun larger _ _ le _ => ih fun wider value more member => ?_
    exact steps wider value (le.trans more) (.tail _ member)

theorem mapM {step : α → Resolve β} {step' : α → Resolve β'} {values : List α} (persists : Persists related)
    (steps : ∀ later value, world.Grows later → value ∈ values → Runs lock later (step value) (step' value) related) :
    Runs lock world (values.mapM step) (values.mapM step') fun larger => List.Forall₂ (related larger) := by
  induction values generalizing world with
  | nil => exact .pure fun _ _ => .nil
  | cons first rest ih =>
    rw [List.mapM_cons, List.mapM_cons]
    refine .bind (steps _ _ (.refl _) (.head _)) fun larger _ _ le here => ?_
    refine .bind (ih fun wider value more member => steps wider value (le.trans more) (.tail _ member))
      fun wider _ _ more others => ?_
    exact .pure fun _ most => .cons (persists _ _ _ _ (more.trans most).le here)
      (persists.forall₂ _ _ _ _ most.le others)

theorem modify {change change' : Resolution → Resolution}
    (changes : ∀ state state', Matched lock state state' → world.Grows state.table →
      state.table.Grows (change state).table ∧ Matched lock (change state) (change' state')) :
    Runs lock world (modify change) (modify change') Unrelated := by
  intro state state' matched le
  obtain ⟨grows, next⟩ := changes state state' matched le
  exact ⟨grows, next, trivial⟩

theorem change {change change' : Table → Table}
    (changes : ∀ table table', Tables lock table table' → world.Grows table →
      table.Grows (change table) ∧ Tables lock (change table) (change' table')) :
    Runs lock world (Resolve.change change) (Resolve.change change') Unrelated := by
  refine .modify fun state state' matched le => ?_
  obtain ⟨grows, tables⟩ := changes _ _ matched.tables le
  exact ⟨grows, matched.withTable grows tables⟩

end Runs

variable {id id' : SymbolId} {scope scope' : ScopeId}

theorem runs_report (fault : ResolutionFault) (span span' : Span) :
    Runs lock world (report fault span) (report fault span') Unrelated := by
  refine .modify fun state state' matched _ => ⟨.refl _, { matched with faults := ?_ }⟩
  have before := matched.faults
  simp only [Resolution.faults, Array.toList_push, List.map_append, List.map_cons, List.map_nil] at before ⊢
  rw [← List.append_assoc]
  exact before.append_right _

theorem runs_refer (alike : reference.Alike (lock.upTo world) reference') :
    Runs lock world (refer reference) (refer reference') Unrelated := by
  refine .modify fun state state' matched le => ⟨.refl _, { matched with references := ?_ }⟩
  rw [Array.toList_push, Array.toList_push]
  exact List.rel_append matched.references (.cons (alike.mono le.le) .nil)

theorem runs_addSymbol (paired : (lock.upTo world).scopes scope scope') {name : String}
    (binds : lock.Binds scope name.toLower) {attributes attributes' : Attributes}
    (has : ∀ attr, attributes.has attr = attributes'.has attr) {details details' : Details}
    (alike : details.Alike (lock.upTo world) details') (span span' : Span) :
    Runs lock world (addSymbol scope name attributes details span)
      (addSymbol scope' name attributes' details' span') fun larger => larger.symbols := by
  intro state state' matched le
  have grows := Table.Grows.addSymbol state.table scope name attributes details span
  have tables := matched.tables.addSymbol (le.scopes paired) binds has (alike.mono le.le) span span'
  refine ⟨grows, matched.withTable grows tables, matched.tables.symbolsAhead 0, ?_⟩
  exact Nat.lt_of_lt_of_eq (Nat.lt_succ_self _) (Array.size_push _).symm

theorem addSymbol_named (scope : ScopeId) (name : String) (attributes : Attributes) (details : Details)
    (span : Span) (state : Resolution) :
    ((addSymbol scope name attributes details span).run state).2.table.Named
      ((addSymbol scope name attributes details span).run state).1 name.toLower := by
  refine ⟨Nat.lt_of_lt_of_eq (Nat.lt_succ_self _) (Array.size_push _).symm, ?_⟩
  change ((state.table.addSymbol scope name attributes details span).2.symbol ⟨_⟩).name = name.toLower
  rw [Table.addSymbol, Table.bindName, Table.symbol_modifyScope, Table.symbol_push, if_pos rfl]

theorem run_table_bind (rest : Table → Resolve α) (state : Resolution) :
    (table >>= rest).run state = (rest state.table).run state :=
  rfl

theorem runs_addScope (kind : ScopeKind) (name name' : Option String)
    (paired : (lock.upTo world).scopes scope scope') {symbol symbol' : Option SymbolId}
    (symbols : Option.Rel (lock.upTo world).symbols symbol symbol') :
    Runs lock world (addScope kind name scope symbol) (addScope kind name' scope' symbol')
      fun larger inner inner' => larger.scopes inner inner' ∧ lock.Plain inner := by
  intro state state' matched le
  have grows := Table.Grows.addScope state.table kind name scope symbol
  have tables := matched.tables.addScope kind name name' (le.scopes paired) (relMono le.symbols symbols)
  exact ⟨grows, matched.withTable grows tables, matched.tables.next_scope kind name scope symbol,
    matched.tables.plain_next⟩

theorem runs_setImplicit (paired : (lock.upTo world).scopes scope scope') {typing : ImplicitTyping}
    (permits : lock.Permits (Tree.ruleMentions typing.rules)) :
    Runs lock world (setImplicit scope typing) (setImplicit scope' typing) Unrelated := by
  refine .modify fun state state' matched le => ⟨.refl _, { matched with
    implicit := fun {other other'} pair => ?_
    rules := fun entry member => ?_
    rules_lt := fun entry member => ?_ }⟩
  · have iff := lock.exact.scope_eq_iff pair (le.scopes paired).1
    simp only [List.lookup_cons]
    by_cases here : other = scope
    · simp [here, iff.mp here]
    · have here' : other' ≠ scope' := fun equal => here (iff.mpr equal)
      simp only [beq_eq_false_iff_ne.mpr here, beq_eq_false_iff_ne.mpr here']
      exact matched.implicit pair
  · rcases List.mem_cons.mp member with rfl | old
    · exact permits
    · exact matched.rules entry old
  · rcases List.mem_cons.mp member with rfl | old
    · exact (le.scopes paired).2
    · exact matched.rules_lt entry old

theorem runs_changeImplicit (paired : (lock.upTo world).scopes scope scope') {change : ImplicitTyping → ImplicitTyping}
    (permits : ∀ typing : ImplicitTyping, lock.Permits (Tree.ruleMentions typing.rules) →
      lock.Permits (Tree.ruleMentions (change typing).rules)) :
    Runs lock world (changeImplicit scope change) (changeImplicit scope' change) Unrelated := by
  refine .get_bind fun state state' matched le => ?_
  have pair := le.scopes paired
  rw [← matched.implicitFor pair]
  exact runs_setImplicit pair (permits _ (matched.implicitFor_permits scope))

variable (paired : (lock.upTo world).symbols id id')
include paired

theorem runs_addUsage (usage : Usage) :
    Runs lock world (change fun table => table.addUsage id usage)
      (change fun table => table.addUsage id' usage) Unrelated :=
  .change fun table _ tables le =>
    ⟨.modifySymbol table id (fun _ => rfl) fun _ => rfl, tables.addUsage (le.symbols paired) usage⟩

theorem runs_addUsages (first second : Usage) :
    Runs lock world (change fun table => (table.addUsage id first).addUsage id second)
      (change fun table => (table.addUsage id' first).addUsage id' second) Unrelated := by
  refine .change fun table table' tables le => ?_
  have once : table.Grows (table.addUsage id first) := .modifySymbol table id (fun _ => rfl) fun _ => rfl
  have pair := le.symbols paired
  refine ⟨once.trans (.modifySymbol _ id (fun _ => rfl) fun _ => rfl), ?_⟩
  exact (tables.addUsage pair first).addUsage (once.symbols pair) second

theorem Runs.details {change change' : Table → Table}
    (changes : ∀ table table', world.Grows table → (table.details id).Alike (lock.upTo table) (table'.details id') →
      (table.details id).Rests id → (change table = table ∧ change' table' = table') ∨ ∃ details details',
        change table = table.setDetails id details ∧ change' table' = table'.setDetails id' details' ∧
        Details.Alike (lock.upTo table) details details' ∧ details.Rests id) :
    Runs lock world (Resolve.change change) (Resolve.change change') Unrelated := by
  refine .change fun table table' tables le => ?_
  have pair := le.symbols paired
  rcases changes table table' le (tables.alike.details pair) (tables.orderly.rests id) with
    ⟨same, same'⟩ | ⟨details, details', set, set', alike, rests⟩
  · rw [same, same']
    exact ⟨.refl table, tables⟩
  · rw [set, set']
    exact ⟨.setDetails table id details, tables.setDetails pair alike rests⟩

theorem runs_becomeProcedure : Runs lock world (becomeProcedure id) (becomeProcedure id') Unrelated := by
  refine .details paired fun table table' le alike _ => ?_
  generalize table.details id = details, table'.details id' = details' at alike
  cases alike with
  | @object object object' alike =>
    have isArray : object.isArray = object'.isArray := by
      simp only [ObjectDetails.isArray, alike.shape.isEmpty]
    simp only [← isArray]
    split
    · exact .inl ⟨rfl, rfl⟩
    · exact .inr ⟨_, _, rfl, rfl, .procEntity ⟨.none, alike.type, alike.isDummy, rfl⟩, nofun⟩
  | _ => exact .inl ⟨rfl, rfl⟩

end Resolve

namespace Attempt

/-- Attempts that can be made in lockstep. Either both succeed, with related results, or none. -/
def Runs (lock : Lockstep) (world : Table) (attempt : Attempt α) (attempt' : Attempt α')
    (related : Pairing → α → α' → Prop) : Prop :=
  Resolve.Runs lock world attempt.run attempt'.run fun larger => Option.Rel (related larger)

namespace Runs

variable {attempt : Attempt α} {attempt' : Attempt α'} {rest : α → Attempt β} {rest' : α' → Attempt β'}
  {middle : Pairing → α → α' → Prop} {related : Pairing → β → β' → Prop}

theorem pure {value : β} {value' : β'} (holds : ∀ later, world.Grows later → related (lock.upTo later) value value') :
    Runs lock world (Pure.pure value) (Pure.pure value') related :=
  Resolve.Runs.pure fun larger le => .some (holds larger le)

theorem failure : Runs lock world (failure : Attempt β) (failure : Attempt β') related :=
  Resolve.Runs.pure fun _ _ => .none

theorem bind (first : Runs lock world attempt attempt' middle)
    (second : ∀ later value value', world.Grows later → middle (lock.upTo later) value value' →
      Runs lock later (rest value) (rest' value') related) :
    Runs lock world (attempt >>= rest) (attempt' >>= rest') related := by
  rw [Runs, OptionT.run_bind, OptionT.run_bind]
  refine Resolve.Runs.bind first fun larger found found' le holds => ?_
  cases holds with
  | none => exact .pure fun _ _ => .none
  | some holds => exact second larger _ _ le holds

theorem mono {later : Table} (runs : Runs lock world attempt attempt' middle)
    (grows : world.Grows later) : Runs lock later attempt attempt' middle :=
  Resolve.Runs.mono runs grows

section

variable {mapping : α → β} {mapping' : α' → β'} (first : Runs lock world attempt attempt' middle)
  (implies : ∀ later value value', world.Grows later → middle (lock.upTo later) value value' →
    related (lock.upTo later) (mapping value) (mapping' value'))
include first implies

theorem map : Runs lock world (mapping <$> attempt) (mapping' <$> attempt') related := by
  rw [Runs, OptionT.run_map, OptionT.run_map]
  refine Resolve.Runs.map first fun larger found found' le holds => ?_
  cases holds with
  | none => exact .none
  | some holds => exact .some (implies larger _ _ le holds)

theorem bind_pure :
    Runs lock world (attempt >>= fun value => Pure.pure (mapping value))
      (attempt' >>= fun value => Pure.pure (mapping' value)) related := by
  have mapped := first.map implies
  rwa [map_eq_pure_bind, map_eq_pure_bind] at mapped

end

theorem lift {step : Resolve α} {step' : Resolve α'} (runs : Resolve.Runs lock world step step' middle) :
    Runs lock world (liftM step) (liftM step') middle := by
  intro state state' matched le
  have reached := runs state state' matched le
  exact ⟨reached.grows, reached.matched, .some reached.related⟩

theorem table_bind {rest : Table → Attempt β} {rest' : Table → Attempt β'}
    (second : ∀ table table', Tables lock table table' → world.Grows table →
      Runs lock table (rest table) (rest' table') related) :
    Runs lock world (liftM Resolve.table >>= rest) (liftM Resolve.table >>= rest') related :=
  fun state state' matched le => second _ _ matched.tables le state state' matched (.refl _)

theorem get_bind {rest : Resolution → Attempt β} {rest' : Resolution → Attempt β'}
    (second : ∀ state state', Matched lock state state' → world.Grows state.table →
      Runs lock state.table (rest state) (rest' state') related) :
    Runs lock world (get >>= rest) (get >>= rest') related :=
  fun state state' matched le => second state state' matched le state state' matched (.refl _)

theorem lift_bind {step : Resolve α} {step' : Resolve α'} (first : Resolve.Runs lock world step step' middle)
    (second : ∀ later value value', world.Grows later → middle (lock.upTo later) value value' →
      Runs lock later (rest value) (rest' value') related) :
    Runs lock world (liftM step >>= rest) (liftM step' >>= rest') related :=
  (lift first).bind second

theorem ite {condition condition' : Prop} [Decidable condition] [Decidable condition']
    {first second : Attempt β} {first' second' : Attempt β'} (iff : condition ↔ condition')
    (runsFirst : condition → Runs lock world first first' related)
    (runsSecond : ¬condition → Runs lock world second second' related) :
    Runs lock world (if condition then first else second) (if condition' then first' else second') related :=
  Resolve.Runs.ite iff runsFirst runsSecond

theorem fail (fault : ResolutionFault) (span span' : Span) :
    Runs lock world (fail fault span : Attempt β) (fail fault span' : Attempt β') related :=
  lift_bind (Resolve.runs_report fault span span') fun _ _ _ _ _ => .failure

theorem both {other : Attempt β} {other' : Attempt β'} (persists : Persists middle)
    (first : Runs lock world attempt attempt' middle) (second : Runs lock world other other' related) :
    Runs lock world (both attempt other) (both attempt' other') fun larger found found' =>
      middle larger found.1 found'.1 ∧ related larger found.2 found'.2 := by
  refine Resolve.Runs.bind first fun larger left left' le here => ?_
  refine Resolve.Runs.bind_pure (second.mono le) fun wider right right' more there => ?_
  cases here with
  | none => exact .none
  | some here =>
    cases there with
    | none => exact .none
    | some there => exact .some ⟨persists _ _ _ _ more.le here, there⟩

theorem settle (runs : Runs lock world attempt attempt' middle) :
    Runs lock world (settle attempt) (settle attempt') fun larger => Option.Rel (middle larger) :=
  lift runs

end Runs

end Attempt

end FortranInterface
