import FortranInterface.Proofs.Lockstep.Renumbering

/-!
A statement that says who has access to a variable of a module may stand in front of the declaration of the
variable or behind it: the same faults are reported, and the module offers the same names. In front of the
declaration it makes an object of which nothing is known, and the declaration of a variable completes it. A
derived type or a generic does not: the object is left without a type.
-/

namespace FortranInterface

open Tree (Mention)

variable {key : String}

namespace Tree

namespace Mention

def concerns (key : String) : Mention → Bool
  | .name other | .called other | .defined other => other == key
  | .module _ | .suffix _ _ => false
  | .stored mention | .ruled mention => mention.concerns key

def redefines (key : String) : Mention → Bool
  | .defined other => other == key
  | .stored mention | .ruled mention => mention.redefines key
  | _ => false

def uses (module : String) : Mention → Bool
  | .module spelling => spelling == module
  | .stored mention | .ruled mention => mention.uses module
  | _ => false

def isPlain : Mention → Bool
  | .name _ | .called _ | .suffix _ _ => true
  | _ => false

theorem redefines_of_concerns {mention : Mention} (other : mention.concerns key = false) :
    mention.redefines key = false := by
  induction mention with
  | defined => exact other
  | stored mention ih => exact ih other
  | ruled mention ih => exact ih other
  | _ => rfl

theorem uses_of_isPlain {module : String} {mention : Mention} (plain : mention.isPlain = true) :
    mention.uses module = false := by
  cases mention with
  | name | called | suffix => rfl
  | _ => cases plain

end Mention

theorem plain_suffixMentions (category : Category) (spelling : Option String) :
    ∀ mention ∈ suffixMentions category spelling, mention.isPlain = true := by
  cases spelling with
  | none => exact nofun
  | some => simp [suffixMentions, optionMentions, Mention.ofName, Mention.isPlain]

mutual

theorem Expr.plain_mentions : (value : Expr) → ∀ mention ∈ value.mentions, mention.isPlain = true
  | .integer _ kind _ => plain_suffixMentions .integer kind
  | .real _ kind _ => plain_suffixMentions .real kind
  | .complex realPart imaginaryPart _ =>
    List.forall_mem_append.mpr ⟨realPart.plain_mentions, imaginaryPart.plain_mentions⟩
  | .text _ _ => nofun
  | .logical _ _ => nofun
  | .boz _ _ => nofun
  | .name _ _ => List.forall_mem_singleton.mpr rfl
  | .call callee arguments _ => by
    cases callee with
    | name =>
      exact List.forall_mem_cons.mpr ⟨rfl, List.forall_mem_cons.mpr ⟨rfl, plain_argumentMentions arguments⟩⟩
    | component base =>
      have parts := List.forall_mem_append.mpr ⟨base.plain_mentions, plain_argumentMentions arguments⟩
      exact List.forall_mem_cons.mpr ⟨rfl, parts⟩
    | _ => exact nofun
  | .component base _ _ => List.forall_mem_cons.mpr ⟨rfl, base.plain_mentions⟩
  | .coindexed base _ => base.plain_mentions
  | .array values _ => plain_exprMentions values
  | .paren inner _ => inner.plain_mentions
  | .binary _ left right _ =>
    List.forall_mem_cons.mpr ⟨rfl, List.forall_mem_append.mpr ⟨left.plain_mentions, right.plain_mentions⟩⟩
  | .unary _ operand _ => List.forall_mem_cons.mpr ⟨rfl, operand.plain_mentions⟩
  | .definedBinary _ left right _ =>
    List.forall_mem_cons.mpr ⟨rfl, List.forall_mem_append.mpr ⟨left.plain_mentions, right.plain_mentions⟩⟩
  | .definedUnary _ operand _ => List.forall_mem_cons.mpr ⟨rfl, operand.plain_mentions⟩

theorem plain_exprMentions : (values : List Expr) → ∀ mention ∈ exprMentions values, mention.isPlain = true
  | [] => nofun
  | value :: values => List.forall_mem_append.mpr ⟨value.plain_mentions, plain_exprMentions values⟩

theorem plain_boundMentions : (bound : Option Expr) → ∀ mention ∈ boundMentions bound, mention.isPlain = true
  | some value => value.plain_mentions
  | none => nofun

theorem Arg.plain_mentions : (argument : Arg) → ∀ mention ∈ argument.mentions, mention.isPlain = true
  | ⟨_, .expr value, _⟩ => value.plain_mentions
  | ⟨_, .label _, _⟩ => nofun
  | ⟨_, .triplet lower upper stride, _⟩ =>
    List.forall_mem_append.mpr ⟨List.forall_mem_append.mpr
      ⟨plain_boundMentions lower, plain_boundMentions upper⟩, plain_boundMentions stride⟩

theorem plain_argumentMentions :
    (arguments : List Arg) → ∀ mention ∈ argumentMentions arguments, mention.isPlain = true
  | [] => nofun
  | argument :: arguments =>
    List.forall_mem_append.mpr ⟨argument.plain_mentions, plain_argumentMentions arguments⟩

end

theorem TypeSpec.plain_mentions (type : TypeSpec) : ∀ mention ∈ type.mentions, mention.isPlain = true := by
  cases type with
  | integer kind | real kind | complex kind | logical kind => exact plain_boundMentions kind
  | character length kind =>
    refine List.forall_mem_append.mpr ⟨?_, plain_boundMentions kind⟩
    rcases length with _ | ⟨value⟩ | _ | _
    · exact nofun
    · exact value.plain_mentions
    · exact nofun
    · exact nofun
  | type | classOf => exact List.forall_mem_singleton.mpr rfl
  | doublePrecision | typeStar | classStar => exact nofun

end Tree

/-! Places in the second table, in which the symbol of the variable is made earlier. -/

def pushed (hole index : Nat) : Nat :=
  if index < hole then index else index + 1

def moved (first last index : Nat) : Nat :=
  if index = last then first else if index < last then pushed first index else index

theorem pushed_injective (hole : Nat) : (pushed hole).Injective := by
  intro first second same
  unfold pushed at same
  grind

theorem pushed_ne (hole index : Nat) : pushed hole index ≠ hole := by
  unfold pushed
  grind

theorem moved_injective {first last : Nat} (order : first ≤ last) : (moved first last).Injective := by
  intro one other same
  unfold moved pushed at same
  grind

theorem moved_of_lt {first last index : Nat} (earlier : index < last) : moved first last index = pushed first index := by
  unfold moved
  rw [if_neg (Nat.ne_of_lt earlier), if_pos earlier]

theorem moved_last (first last : Nat) : moved first last last = first :=
  if_pos rfl

theorem moved_of_gt {first last index : Nat} (later : last < index) : moved first last index = index := by
  unfold moved
  rw [if_neg (Nat.ne_of_gt later), if_neg (Nat.lt_asymm later)]

def accessOnly (attr : Attribute) : Attributes :=
  Flags.empty.insert attr

def unknownObject (scope : ScopeId) (name : String) (attr : Attribute) (span : Span) : Symbol :=
  ⟨name.toLower, accessOnly attr, .empty, .object .unknown, scope, span⟩

namespace Lockstep

/-- Runs in which a name of a scope may have different meanings. It is not mentioned, nor the module to which
the scope belongs. -/
def differing (place : Nat → Nat) (injective : place.Injective) (scope : ScopeId)
    (inner : scope ≠ Table.global) (key module : String) (found found' : Option SymbolId)
    (kept : SymbolId → Symbol → Prop) (apart : ∀ id symbol, kept id symbol → ∀ index, place index ≠ id.index)
    (extra : List ResolutionFault) : Lockstep where
  pairing := .through place fun _ => false
  exempt other name := decide (other = scope) && name == key
  gained _ := none
  exact := Pairing.exact_through injective
  global := rfl
  allows mention := mention.concerns key = false ∧ mention.uses module = false
  bodies _ := True
  kept := kept
  settled one other name meaning meaning' :=
    one = scope ∧ other = scope ∧ name = key ∧ meaning = found ∧ meaning' = found'
  exports other := other ≠ scope
  extra := extra
  compares allowed _ := by
    have notKey := allowed.1
    simp only [Mention.concerns] at notKey
    simp [notKey]
  suffixed _ _ spells := ⟨_, rfl, spells⟩
  looksAt allowed := allowed
  applies allowed := allowed
  leaves _ := trivial
  apart isKept id paired := apart _ _ isKept id.index paired.symm
  settles := by
    rintro _ _ _ _ _ ⟨rfl, rfl, -⟩
    exact ⟨rfl, inner⟩
  renews := by
    rintro _ allowed _ _ _ _ ⟨-, -, rfl, -⟩
    simp [Mention.concerns] at allowed
  shows other _ := by simp [other]

abbrev unmentioned (scope : ScopeId) (inner : scope ≠ Table.global) (key module : String)
    (found : Option SymbolId) : Lockstep :=
  differing id Function.injective_id scope inner key module found found (fun _ _ => False) nofun []

/-- A run and one in which a statement has made an object for a name of a scope, and perhaps reported a fault. -/
abbrev awaiting (count : Nat) (scope : ScopeId) (inner : scope ≠ Table.global) (name module : String)
    (found : Option SymbolId) (attr : Attribute) (span : Span) (extra : List ResolutionFault) : Lockstep :=
  differing (pushed count) (pushed_injective count) scope inner name.toLower module found (some ⟨count⟩)
    (fun id symbol => id = ⟨count⟩ ∧ symbol = unknownObject scope name attr span)
    (by rintro _ _ ⟨rfl, -⟩ index; exact pushed_ne _ index) extra

/-- Runs in which a name of a scope stands for a variable that only the second one has given an attribute.
Nothing else gets the name, and the module to which the scope belongs is not used. -/
def gaining (first last : Nat) (order : first ≤ last) (scope : ScopeId) (inner : scope ≠ Table.global)
    (key module : String) (attr : Attribute) : Lockstep where
  pairing := .through (moved first last) fun _ => false
  exempt _ _ := false
  gained id := if id.index = last then some attr else none
  exact := Pairing.exact_through (moved_injective order)
  global := rfl
  allows mention := mention.redefines key = false ∧ mention.uses module = false
  bodies _ := True
  kept _ _ := False
  settled one other name meaning meaning' :=
    one = scope ∧ other = scope ∧ name = key ∧ meaning = some ⟨last⟩ ∧ meaning' = some ⟨first⟩
  exports other := other ≠ scope
  extra := []
  compares _ _ := rfl
  suffixed _ _ spells := ⟨_, rfl, spells⟩
  looksAt allowed := allowed
  applies allowed := allowed
  leaves _ := trivial
  apart := nofun
  settles := by
    rintro _ _ _ _ _ ⟨rfl, rfl, -⟩
    exact ⟨rfl, inner⟩
  renews := by
    rintro _ allowed _ _ _ _ ⟨-, -, rfl, -⟩
    simp [Mention.redefines] at allowed
  shows _ _ := rfl

end Lockstep

variable {state state' : Resolution}

section

variable {lock other : Lockstep} (matched : Matched lock state state')
include matched

theorem Matched.relock {table table' : Table} (tables : Tables other table table')
    (le : (lock.upTo state.table).Le (other.upTo table)) (size : state.table.scopes.size ≤ table.scopes.size)
    (scopes : ∀ {scope scope'}, other.pairing.scopes scope scope' → lock.pairing.scopes scope scope')
    (rules : ∀ entry ∈ state.implicit, other.Permits (Tree.ruleMentions entry.2.rules))
    (exports : ∀ entry ∈ state.modules, other.allows (.module entry.1) → other.exports entry.2)
    (generics : List.Forall₂ (PendingGeneric.Alike other (other.upTo table)) state.pendingGenerics
      state'.pendingGenerics)
    (bindings : List.Forall₂ (PendingBindings.Alike other (other.upTo table)) state.pendingBindings
      state'.pendingBindings)
    (bodies : ∀ mention, other.bodies mention) {findings findings' : Array ResolutionFinding}
    (faults : (findings'.toList.map ResolutionFinding.fault).Perm
      (other.extra ++ findings.toList.map ResolutionFinding.fault)) :
    Matched other { state with table, findings } { state' with table := table', findings := findings' } where
  tables := tables
  implicit := fun paired => matched.implicit (scopes paired)
  rules := rules
  rules_lt := fun entry member => Nat.lt_of_lt_of_le (matched.rules_lt entry member) size
  privateByDefault := fun paired => matched.privateByDefault (scopes paired)
  private_lt := fun scope member => Nat.lt_of_lt_of_le (matched.private_lt scope member) size
  modules := by
    have both := (List.forall₂_and_left _ _).mpr ⟨exports, matched.modules⟩
    exact both.imp fun _ _ entry => ⟨entry.2.name, le.scopes entry.2.scope, entry.1⟩
  results := matched.results.imp fun _ _ => le.symbols
  generics := generics
  bindings := bindings
  bodies := matched.bodies.imp fun _ _ entry => ⟨le.scopes entry.1, entry.2.1, fun mention _ => bodies mention⟩
  references := matched.references.imp fun _ _ reference => reference.mono le
  faults := faults

theorem Matched.waiting {table : Table} (le : (lock.upTo state.table).Le (other.upTo table))
    (allows : ∀ mention, lock.allows mention → other.allows mention)
    (free : ∀ scope, lock.Free scope → other.Free scope) :
    List.Forall₂ (PendingGeneric.Alike other (other.upTo table)) state.pendingGenerics state'.pendingGenerics ∧
      List.Forall₂ (PendingBindings.Alike other (other.upTo table)) state.pendingBindings state'.pendingBindings := by
  refine ⟨matched.generics.imp fun _ _ pending => ?_, matched.bindings.imp fun _ _ pending => ?_⟩
  · exact ⟨le.scopes pending.scope, le.symbols pending.generic, pending.names,
      fun mention member => allows mention (pending.stored mention member)⟩
  · exact ⟨le.symbols pending.type, le.scopes pending.typeScope, le.scopes pending.scope, pending.bindings,
      fun mention member => allows mention (pending.stored mention member), free _ pending.free⟩

/-! The tables while the variable is missing in the first one. -/

end

variable {pairing : Pairing}

namespace NameMap

theorem filter_keys_alike (hides : String → Bool) {entries entries' : List (String × SymbolId)}
    (alike : List.Forall₂ (EntryAlike pairing) entries entries') :
    List.Forall₂ (EntryAlike pairing) (entries.filter fun entry => !hides entry.1)
      (entries'.filter fun entry => !hides entry.1) := by
  induction alike with
  | nil => exact .nil
  | cons first _ ih =>
    rw [List.filter_cons, List.filter_cons, first.1]
    split
    · exact .cons first ih
    · exact ih

theorem entries_eq_insertInto {map : NameMap} (sorted : map.Sorted) {id : SymbolId} (isFound : map.find? key = some id) :
    map.entries = insertInto key id (map.compared (· == key)) := by
  obtain ⟨entries⟩ := map
  simp only [compared, find?] at isFound ⊢
  simp only [Sorted] at sorted
  induction entries with
  | nil => cases isFound
  | cons first rest ih =>
    obtain ⟨behind, later⟩ := List.pairwise_cons.mp sorted
    obtain ⟨name, other⟩ := first
    rw [List.lookup_cons] at isFound
    by_cases here : name = key
    · subst here
      rw [beq_self_eq_true] at isFound
      obtain rfl := Option.some.inj isFound
      have others : rest.filter (fun entry => !(entry.1 == name)) = rest :=
        List.filter_eq_self.mpr fun entry member => by simp [ne_of_gt (behind entry member)]
      rw [List.filter_cons_of_neg (by simp), others, insertInto_of_forall_lt other behind]
    · rw [beq_eq_false_iff_ne.mpr (Ne.symm here)] at isFound
      have tail := ih later isFound
      rw [List.filter_cons_of_pos (by simp [here]), insertInto]
      have less : name < key := by
        obtain ⟨entry, member, isKey⟩ : ∃ entry ∈ rest, entry.1 = key := by
          obtain ⟨_, _, rfl, -⟩ := List.lookup_eq_some_iff.mp isFound
          exact ⟨(key, id), by simp, rfl⟩
        exact isKey ▸ behind entry member
      rw [if_pos less, ← tail]

end NameMap

theorem Scope.Alike.ignoring {scope scope' : Scope} (alike : scope.Alike pairing (fun _ => false) scope')
    (exempt : String → Bool) : scope.Alike pairing exempt scope' := by
  have names := alike.names
  rw [NameMap.compared_of_shown _ fun _ => rfl, NameMap.compared_of_shown _ fun _ => rfl] at names
  exact ⟨alike.kind, alike.parent, alike.symbol, NameMap.filter_keys_alike exempt names, alike.sorted, alike.sorted'⟩

section

variable (table : Table) (scope : ScopeId) (name : String) (attributes : Attributes) (details : Details) (span : Span)
include table scope name attributes details span

theorem Table.symbol_addSymbol (id : SymbolId) :
    (table.addSymbol scope name attributes details span).2.symbol id =
      if id.index = table.symbols.size then ⟨name.toLower, attributes, .empty, details, scope, span⟩
      else table.symbol id := by
  rw [addSymbol, bindName, symbol_modifyScope, symbol_push]

theorem Table.size_addSymbol :
    (table.addSymbol scope name attributes details span).2.symbols.size = table.symbols.size + 1 :=
  Array.size_push _

theorem Table.scopes_addSymbol :
    (table.addSymbol scope name attributes details span).2.scopes.size = table.scopes.size :=
  Array.size_modify

end

variable {last : Nat}

section Module

open Lockstep (differing unmentioned awaiting gaining renumbered)

variable {scope : ScopeId} {inner : scope ≠ Table.global} {name module : String} {table table' : Table}
  {found : Option SymbolId} {attr : Attribute} {span : Span}

theorem Tables.ignoring
    (tables : Tables (renumbered id Function.injective_id fun mention => mention.concerns key) table table)
    (bound : scope.index < table.scopes.size) :
    Tables (unmentioned scope inner key module ((table.scope scope).names.find? key)) table table where
  alike :=
    { exact := Lockstep.exact_upTo _ _
      global := tables.alike.global
      bounded := (·.2)
      symbol := fun paired => tables.alike.symbol paired
      scope := fun paired => (tables.alike.scope paired).ignoring _
      symbol_lt := fun paired => tables.alike.symbol_lt paired
      scope_lt := fun paired => tables.alike.scope_lt paired
      size_le := tables.alike.size_le }
  symbolsAhead := tables.symbolsAhead
  scopesAhead := tables.scopesAhead
  kept := nofun
  settled := by
    rintro _ _ _ _ _ ⟨rfl, rfl, rfl, rfl, rfl⟩
    exact ⟨⟨bound, rfl⟩, ⟨bound, rfl⟩, fun allowed => by simp [differing, Mention.concerns] at allowed⟩
  orderly :=
    { host_lt := tables.orderly.host_lt
      rests := tables.orderly.rests
      lower := tables.orderly.lower
      named := tables.orderly.named
      gained := fun isGained => absurd rfl isGained
      exported := fun _ _ => rfl
      exempt_lt := fun isExempt => by
        simp only [differing, Bool.and_eq_true, decide_eq_true_eq] at isExempt
        exact isExempt.1 ▸ bound }
  lower' := tables.lower'

def Table.withUnknown (table : Table) (scope : ScopeId) (name : String) (attr : Attribute) (span : Span) : Table :=
  (table.addSymbol scope name .empty (.object .unknown) span).2.addAttribute ⟨table.symbols.size⟩ attr

theorem Table.symbol_withUnknown (id : SymbolId) :
    (table.withUnknown scope name attr span).symbol id =
      if id.index = table.symbols.size then unknownObject scope name attr span else table.symbol id := by
  rw [withUnknown, addAttribute, symbol_modifySymbol, symbol_addSymbol, size_addSymbol, symbol_addSymbol]
  obtain ⟨index⟩ := id
  by_cases here : index = table.symbols.size
  · subst here
    rw [if_pos ⟨rfl, Nat.lt_succ_self _⟩, if_pos rfl, if_pos rfl]
    rfl
  · rw [if_neg fun both => here (SymbolId.mk.inj both.1), if_neg here, if_neg here]

theorem Table.size_withUnknown : (table.withUnknown scope name attr span).symbols.size = table.symbols.size + 1 :=
  Array.size_modify.trans (size_addSymbol table scope name .empty (.object .unknown) span)

theorem Table.scopes_withUnknown : (table.withUnknown scope name attr span).scopes.size = table.scopes.size :=
  scopes_addSymbol table scope name .empty (.object .unknown) span

theorem Table.scope_addSymbol (bound : scope.index < table.scopes.size) (attributes : Attributes)
    (details : Details) (other : ScopeId) :
    (table.addSymbol scope name attributes details span).2.scope other =
      if other = scope then
        { table.scope scope with
          names := (table.scope scope).names.insert name.toLower ⟨table.symbols.size⟩ }
      else table.scope other := by
  rw [addSymbol, bindName, scope_modifyScope]
  simp only [bound, and_true]
  rfl

theorem Table.scope_withUnknown (bound : scope.index < table.scopes.size) (other : ScopeId) :
    (table.withUnknown scope name attr span).scope other =
      if other = scope then
        { table.scope scope with
          names := (table.scope scope).names.insert name.toLower ⟨table.symbols.size⟩ }
      else table.scope other :=
  scope_addSymbol bound .empty (.object .unknown) other

theorem awaiting_le (attr : Attribute) (span : Span) (extra : List ResolutionFault) :
    ((unmentioned scope inner name.toLower module found).upTo table).Le
      ((awaiting table.symbols.size scope inner name module found attr span extra).upTo table) :=
  ⟨fun {_ _} pair => ⟨pair.1.trans (if_pos pair.2).symm, pair.2⟩, fun pair => pair, id⟩

theorem Tables.withUnknown (tables : Tables (unmentioned scope inner name.toLower module found) table table)
    (attr : Attribute) (span : Span) (extra : List ResolutionFault) :
    Tables (awaiting table.symbols.size scope inner name module found attr span extra) table
      (table.withUnknown scope name attr span) := by
  obtain ⟨settles, -, -⟩ := tables.settled ⟨rfl, rfl, rfl, rfl, rfl⟩
  have bound := settles.bound
  have scopes (other : ScopeId) :
      (table.withUnknown scope name attr span).scope other = _ := Table.scope_withUnknown bound other
  have place {index : Nat} (earlier : index < table.symbols.size) : pushed table.symbols.size index = index :=
    if_pos earlier
  refine
    { alike :=
        { exact := Lockstep.exact_upTo _ _
          global := ⟨rfl, tables.alike.global.2⟩
          bounded := (·.2)
          symbol := ?_
          scope := ?_
          symbol_lt := ?_
          scope_lt := fun pair => ?_
          size_le := ?_ }
      symbolsAhead := fun count => ?_
      scopesAhead := fun count => ?_
      kept := ?_
      settled := ?_
      orderly :=
        { host_lt := tables.orderly.host_lt
          rests := tables.orderly.rests
          lower := tables.orderly.lower
          named := tables.orderly.named
          gained := fun isGained => absurd rfl isGained
          exported := fun _ _ => rfl
          exempt_lt := tables.orderly.exempt_lt }
      lower' := fun other => ?_ }
  · rintro ⟨index⟩ ⟨index'⟩ ⟨isPlace, within⟩
    obtain rfl : index' = index := isPlace.trans (place within)
    rw [Table.symbol_withUnknown, if_neg (Nat.ne_of_lt within)]
    exact (tables.alike.symbol ⟨rfl, within⟩).mono (awaiting_le attr span extra)
  · rintro other _ ⟨rfl, within⟩
    have before := (tables.alike.scope ⟨rfl, within⟩).mono (awaiting_le attr span extra)
    rw [scopes]
    split
    next here =>
      subst here
      refine ⟨before.kind, before.parent, before.symbol, ?_, before.sorted,
        NameMap.pairwise_insertInto _ _ before.sorted'⟩
      rw [NameMap.compared_insert_of_exempt]
      · exact before.names
      · simp [differing]
    · exact before
  · rintro ⟨index⟩ ⟨index'⟩ ⟨isPlace, within⟩
    rw [Table.size_withUnknown, isPlace.trans (place within)]
    exact Nat.lt_succ_of_lt within
  · obtain ⟨rfl, within⟩ := pair
    rw [Table.scopes_withUnknown]
    exact within
  · rw [Table.size_withUnknown]
    exact Nat.le_succ _
  · change (table.withUnknown scope name attr span).symbols.size + count = pushed _ (table.symbols.size + count)
    rw [Table.size_withUnknown, pushed, if_neg (by omega)]
    omega
  · rw [Table.scopes_withUnknown]
    exact tables.scopesAhead count
  · rintro _ _ ⟨rfl, rfl⟩
    rw [Table.size_withUnknown, Table.symbol_withUnknown, if_pos rfl]
    exact ⟨Nat.lt_succ_self _, rfl⟩
  · rintro _ _ _ _ _ ⟨rfl, rfl, rfl, rfl, rfl⟩
    refine ⟨settles, ⟨by rw [Table.scopes_withUnknown]; exact bound, ?_⟩, fun allowed => ?_⟩
    · rw [scopes, if_pos rfl, NameMap.find?_insert, if_pos rfl]
    · simp [differing, Mention.concerns] at allowed
  · rw [scopes]
    split
    · exact NameMap.lower_insert (tables.lower' scope) name _
    · exact tables.lower' other

variable {count : Nat} {extra : List ResolutionFault}

theorem Tables.awaiting_size
    (tables : Tables (awaiting count scope inner name module found attr span extra) table table') :
    count ≤ table.symbols.size ∧ table'.symbols.size = table.symbols.size + 1 := by
  have next : table'.symbols.size = pushed count table.symbols.size := tables.symbolsAhead 0
  have within : count < table'.symbols.size := (tables.kept ⟨rfl, rfl⟩).1
  unfold pushed at next
  split at next <;> omega

theorem NameMap.insert_alike {map map' : NameMap} (sorted : map.Sorted) (sorted' : map'.Sorted) {id id' : SymbolId}
    (isFound : map'.find? key = some id') (paired : pairing.symbols id id')
    (alike : List.Forall₂ (EntryAlike pairing) (map.compared (· == key)) (map'.compared (· == key))) :
    List.Forall₂ (EntryAlike pairing) (map.insert key id).entries map'.entries := by
  have inserted : (map.insert key id).find? key = some id := by rw [find?_insert, if_pos rfl]
  have sortedInsert : (map.insert key id).Sorted := pairwise_insertInto key id sorted
  have others : (map.insert key id).compared (· == key) = map.compared (· == key) :=
    compared_insert_of_exempt map id (beq_self_eq_true key)
  rw [entries_eq_insertInto sortedInsert inserted, others, entries_eq_insertInto sorted' isFound]
  exact insertInto_alike key paired alike

theorem exempt_awaiting :
    (awaiting count scope inner name module found attr span extra).exempt scope = (· == name.toLower) := by
  funext key
  simp [differing]

theorem exempt_awaiting_of_ne {other : ScopeId} (apart : other ≠ scope) :
    (awaiting count scope inner name module found attr span extra).exempt other = fun _ => false := by
  funext key
  simp [differing, apart]

variable {order : count ≤ last}

theorem gained_last : (gaining count last order scope inner key module attr).gained ⟨last⟩ = some attr :=
  if_pos rfl

theorem gained_of_ne (order : count ≤ last) {id : SymbolId} (apart : id.index ≠ last) :
    (gaining count last order scope inner key module attr).gained id = none :=
  if_neg apart

theorem gaining_le (order : count ≤ table.symbols.size) (place : Span) :
    ((awaiting count scope inner name module found attr span extra).upTo table).Le
      ((gaining count table.symbols.size order scope inner name.toLower module attr).upTo
        (table.addSymbol scope name .empty (.object .unknown) place).2) := by
  refine ⟨fun {_ _} pair => ⟨pair.1.trans (moved_of_lt pair.2).symm, ?_⟩, fun pair => ⟨pair.1, ?_⟩, id⟩
  · exact Nat.lt_of_lt_of_eq (Nat.lt_succ_of_lt pair.2) (Table.size_addSymbol ..).symm
  · exact Nat.lt_of_lt_of_eq pair.2 (Table.scopes_addSymbol ..).symm

theorem Tables.declared (tables : Tables (awaiting count scope inner name module found attr span extra) table table')
    (isAccess : attr.isAccess = true) (place : Span) (order : count ≤ table.symbols.size) :
    Tables (gaining count table.symbols.size order scope inner name.toLower module attr)
      (table.addSymbol scope name .empty (.object .unknown) place).2 table' := by
  obtain ⟨settles, settles', -⟩ := tables.settled ⟨rfl, rfl, rfl, rfl, rfl⟩
  obtain ⟨-, isUnknown⟩ := tables.kept ⟨rfl, rfl⟩
  have bound := settles.bound
  have size' := tables.awaiting_size.2
  have size := table.size_addSymbol scope name .empty (.object .unknown) place
  have sameScopes := table.scopes_addSymbol scope name .empty (.object .unknown) place
  have scopes (other : ScopeId) :
      (table.addSymbol scope name .empty (.object .unknown) place).2.scope other = _ :=
    Table.scope_addSymbol bound .empty (.object .unknown) other
  have symbols := table.symbol_addSymbol scope name .empty (.object .unknown) place
  have le : ((awaiting count scope inner name module found attr span extra).upTo table).Le _ := gaining_le order place
  generalize (table.addSymbol scope name .empty (.object .unknown) place).2 = next at size sameScopes scopes symbols le
  have paired : ((gaining count table.symbols.size order scope inner name.toLower module attr).upTo next).symbols
      ⟨table.symbols.size⟩ ⟨count⟩ :=
    ⟨(moved_last _ _).symm, Nat.lt_of_lt_of_eq (Nat.lt_succ_self _) size.symm⟩
  have named : next.Named ⟨table.symbols.size⟩ name.toLower :=
    ⟨paired.2, by rw [symbols, if_pos rfl]⟩
  have keeps {id : SymbolId} {key : String} (before : table.Named id key) : next.Named id key := by
    refine ⟨Nat.lt_of_lt_of_eq (Nat.lt_succ_of_lt before.bound) size.symm, ?_⟩
    rw [symbols, if_neg (Nat.ne_of_lt before.bound), before.name]
  refine
    { alike :=
        { exact := Lockstep.exact_upTo _ _
          global := ⟨rfl, Nat.lt_of_lt_of_eq tables.alike.global.2 sameScopes.symm⟩
          bounded := (·.2)
          symbol := ?_
          scope := ?_
          symbol_lt := ?_
          scope_lt := fun pair => tables.alike.scope_lt ⟨pair.1, Nat.lt_of_lt_of_eq pair.2 sameScopes⟩
          size_le := by rw [size, size'] }
      symbolsAhead := fun ahead => ?_
      scopesAhead := fun ahead => by rw [sameScopes]; exact tables.scopesAhead ahead
      kept := False.elim
      settled := ?_
      orderly :=
        { host_lt := ?_
          rests := ?_
          lower := fun other => ?_
          named := ?_
          gained := ?_
          exported := ?_
          exempt_lt := fun isExempt => absurd isExempt Bool.false_ne_true }
      lower' := tables.lower' }
  · rintro ⟨index⟩ ⟨index'⟩ ⟨isPlace, within⟩
    by_cases here : index = table.symbols.size
    · subst here
      obtain rfl : index' = count := isPlace.trans (moved_last _ _)
      rw [symbols, if_pos rfl, isUnknown, gained_last]
      refine ⟨rfl, rfl, .object ⟨.none, .nil, .nil, .none, rfl⟩, ⟨rfl, ?_⟩, fun other => ?_, ?_⟩
      · exact Nat.lt_of_lt_of_eq bound sameScopes.symm
      · simp only [unknownObject, accessOnly, Symbol.has, Flags.has_insert, Flags.has_empty, Option.some.injEq,
          Bool.or_false, Bool.false_or, eq_comm]
      · rintro _ ⟨⟩
        exact isAccess
    · have earlier : index < table.symbols.size := by
        rw [size] at within
        exact Nat.lt_of_le_of_ne (Nat.le_of_lt_succ within) here
      rw [symbols, if_neg here, gained_of_ne order here]
      exact (tables.alike.symbol ⟨isPlace.trans (moved_of_lt earlier), earlier⟩).mono le
  · rintro other _ ⟨rfl, within⟩
    rw [sameScopes] at within
    have before := (tables.alike.scope ⟨rfl, within⟩).mono le
    rw [scopes]
    split
    next here =>
      subst here
      rw [exempt_awaiting] at before
      refine ⟨before.kind, before.parent, before.symbol, ?_, NameMap.pairwise_insertInto _ _ before.sorted,
        before.sorted'⟩
      have shown (key : String) :
          (gaining count table.symbols.size order other inner name.toLower module attr).exempt other key = false :=
        rfl
      rw [NameMap.compared_of_shown _ shown, NameMap.compared_of_shown _ shown]
      exact NameMap.insert_alike before.sorted before.sorted' settles'.meaning paired before.names
    next apart =>
      rw [exempt_awaiting_of_ne apart] at before
      exact before
  · rintro ⟨index⟩ ⟨index'⟩ ⟨isPlace, within⟩
    rw [size] at within
    rw [size', isPlace]
    change moved count table.symbols.size index < _
    unfold moved pushed
    simp only at within
    split <;> (try split) <;> (try split) <;> omega
  · change table'.symbols.size + ahead = moved count table.symbols.size (next.symbols.size + ahead)
    rw [moved_of_gt (by omega), size, size']
  · rintro _ _ _ _ _ ⟨rfl, rfl, rfl, rfl, rfl⟩
    refine ⟨⟨Nat.lt_of_lt_of_eq bound sameScopes.symm, ?_⟩, settles', fun _ => ⟨_, rfl, paired.2, ?_⟩⟩
    · rw [scopes, if_pos rfl, NameMap.find?_insert, if_pos rfl]
    · rw [symbols, if_pos rfl]
  · intro other host isHost
    rw [scopes] at isHost
    split at isHost
    next here => exact here ▸ tables.orderly.host_lt isHost
    · exact tables.orderly.host_lt isHost
  · intro id
    rw [Table.details, symbols]
    split
    · exact List.forall_mem_nil _
    · exact tables.orderly.rests id
  · rw [scopes]
    split
    · exact NameMap.lower_insert (tables.orderly.lower scope) name _
    · exact tables.orderly.lower other
  · intro other key id isFound
    rw [scopes] at isFound
    split at isFound
    · rw [NameMap.find?_insert] at isFound
      split at isFound
      next same =>
        obtain rfl := Option.some.inj isFound
        exact same ▸ named
      · exact keeps (tables.orderly.named isFound)
    · exact keeps (tables.orderly.named isFound)
  · rintro ⟨index⟩ isGained
    by_cases here : index = table.symbols.size
    · subst here
      exact ⟨_, named, by simp [gaining, Mention.redefines]⟩
    · exact absurd (gained_of_ne order here) isGained
  · intro other key id apart isFound
    rw [scopes, if_neg apart] at isFound
    exact gained_of_ne order (Nat.ne_of_lt (tables.orderly.named isFound).bound)

theorem levelled_le :
    ((gaining count last order scope inner key module attr).upTo table).Le
      ((renumbered (moved count last) (moved_injective order) fun _ => false).upTo (table.addAttribute ⟨last⟩ attr)) :=
  ⟨fun pair => ⟨pair.1, Nat.lt_of_lt_of_eq pair.2 Array.size_modify.symm⟩, fun pair => pair, id⟩

theorem Tables.levelled (tables : Tables (gaining count last order scope inner key module attr) table table') :
    Tables (renumbered (moved count last) (moved_injective order) fun _ => false)
      (table.addAttribute ⟨last⟩ attr) table' := by
  obtain ⟨-, -, owns⟩ := tables.settled ⟨rfl, rfl, rfl, rfl, rfl⟩
  have bound : last < table.symbols.size := by
    obtain ⟨_, ⟨⟩, bound, -⟩ := owns ⟨rfl, rfl⟩
    exact bound
  have size : (table.addAttribute ⟨last⟩ attr).symbols.size = table.symbols.size := Array.size_modify
  have named {id : SymbolId} {name : String} (before : table.Named id name) :
      (table.addAttribute ⟨last⟩ attr).Named id name :=
    before.modifySymbol ⟨last⟩ fun _ => rfl
  refine
    { alike :=
        { exact := Lockstep.exact_upTo _ _
          global := ⟨rfl, tables.alike.global.2⟩
          bounded := (·.2)
          symbol := ?_
          scope := fun pair => (tables.alike.scope pair).mono levelled_le
          symbol_lt := fun pair => tables.alike.symbol_lt ⟨pair.1, Nat.lt_of_lt_of_eq pair.2 size⟩
          scope_lt := fun pair => tables.alike.scope_lt pair
          size_le := by rw [size]; exact tables.alike.size_le }
      symbolsAhead := fun ahead => by rw [size]; exact tables.symbolsAhead ahead
      scopesAhead := tables.scopesAhead
      kept := False.elim
      settled := False.elim
      orderly :=
        { host_lt := tables.orderly.host_lt
          rests := fun id => by
            rw [Table.details, Table.addAttribute, Table.symbol_modifySymbol]
            split
            next here => exact here.1 ▸ tables.orderly.rests ⟨last⟩
            · exact tables.orderly.rests id
          lower := tables.orderly.lower
          named := fun isFound => named (tables.orderly.named isFound)
          gained := fun isGained => absurd rfl isGained
          exported := fun _ _ => rfl
          exempt_lt := fun isExempt => absurd isExempt Bool.false_ne_true }
      lower' := tables.lower' }
  rintro ⟨index⟩ id' ⟨isPlace, within⟩
  have before := (tables.alike.symbol ⟨isPlace, Nat.lt_of_lt_of_eq within size⟩).mono levelled_le
  rw [Table.addAttribute, Table.symbol_modifySymbol]
  by_cases here : index = last
  · subst here
    rw [gained_last] at before
    rw [if_pos ⟨rfl, bound⟩]
    refine ⟨before.name, before.usage, before.details, before.owner, fun other => ?_, fun _ isNone => by cases isNone⟩
    have nothing : decide ((none : Option Attribute) = some other) = false := rfl
    change _ = (_ || decide ((none : Option Attribute) = some other))
    rw [before.has other, nothing, Bool.or_false]
    simp only [Symbol.has, Flags.has_insert, Option.some.injEq, eq_comm, Bool.or_comm]
  · rw [gained_of_ne order here] at before
    rw [if_neg fun both => here (SymbolId.mk.inj both.1)]
    exact before

end Module

/-! The states. -/

namespace Resolve

variable {state : Resolution} {scope : ScopeId} {name : String}

theorem localEntity_of_own {id : SymbolId} (isFound : (state.table.scope scope).find? name = some id)
    (isOwner : (state.table.symbol id).owner = scope) (span : Span) :
    (localEntity scope name span).run state = (id, state) := by
  rw [localEntity, run_table_bind]
  simp only [isFound, isOwner, if_true]
  rfl

def foreignFaults (found : Option SymbolId) (name : String) : List ResolutionFault :=
  if found.isSome then [.useAssociated name] else []

theorem localEntity_of_foreign
    (foreign : ∀ id, (state.table.scope scope).find? name = some id → (state.table.symbol id).owner ≠ scope)
    (span : Span) :
    ∃ findings : Array ResolutionFinding,
      (localEntity scope name span).run state = (⟨state.table.symbols.size⟩,
        { state with
          table := (state.table.addSymbol scope name .empty (.object .unknown) span).2
          findings }) ∧
      findings.toList.map ResolutionFinding.fault =
        state.faults ++ foreignFaults ((state.table.scope scope).find? name) name := by
  rw [localEntity, run_table_bind]
  cases isFound : (state.table.scope scope).find? name with
  | none => exact ⟨state.findings, rfl, (List.append_nil _).symm⟩
  | some id =>
    simp only [if_neg (foreign id isFound)]
    exact ⟨state.findings.push ⟨.useAssociated name, span⟩, rfl, by simp [foreignFaults, Resolution.faults]⟩

theorem run_statement {attr : Attribute} (isAccess : attr.isAccess = true) (span place : Span) :
    declaration scope (.attributes (.plain attr) [⟨name, span⟩] place) =
      (do
        let id ← localEntity scope name span
        addAttribute id attr) := by
  rw [declaration]
  cases attr with
  | «public» | «private» => rfl
  | _ => cases isAccess

end Resolve

section Module

open Lockstep (differing unmentioned awaiting gaining renumbered)
open Resolve (foreignFaults)

variable {scope : ScopeId} {inner : scope ≠ Table.global} {name module : String} {state state' : Resolution}
  {found : Option SymbolId} {attr : Attribute} {span : Span} {count : Nat} {extra : List ResolutionFault}

theorem ne_of_free_differing {place : Nat → Nat} {injective : place.Injective} {found' : Option SymbolId}
    {kept : SymbolId → Symbol → Prop} {apart : ∀ id symbol, kept id symbol → ∀ index, place index ≠ id.index}
    {other : ScopeId}
    (free : (differing place injective scope inner key module found found' kept apart extra).Free other) :
    other ≠ scope := by
  rintro rfl
  exact free key other found found' ⟨rfl, rfl, rfl, rfl, rfl⟩

theorem Matched.to_unmentioned
    (matched : Matched (renumbered id Function.injective_id fun mention => mention.concerns key) state state)
    (bound : scope.index < state.table.scopes.size) (idle : state.Idle)
    (modules : ∀ entry ∈ state.modules, entry.1 ≠ module → entry.2 ≠ scope) :
    Matched (unmentioned scope inner key module ((state.table.scope scope).names.find? key)) state state := by
  refine matched.relock (matched.tables.ignoring bound) ⟨fun pair => pair, fun pair => pair, id⟩
    (Nat.le_refl _) (fun pair => pair) (fun entry member mention isMention => ?_) (fun entry member allowed => ?_)
    (by rw [idle.generics]; exact .nil) (by rw [idle.bindings]; exact .nil) (fun _ => trivial) (.refl _)
  · have permitted := matched.rules entry member mention isMention
    obtain ⟨ruled, isRuled, rfl⟩ := List.mem_map.mp isMention
    obtain ⟨rule, -, isType⟩ := List.mem_flatMap.mp isRuled
    have plain : ruled.uses module = false := Mention.uses_of_isPlain (rule.type.plain_mentions ruled isType)
    exact ⟨(Bool.or_eq_false_iff.mp permitted).1, plain⟩
  · refine modules entry member fun same => ?_
    simp [differing, Mention.uses, same] at allowed

theorem Matched.to_awaiting (matched : Matched (unmentioned scope inner name.toLower module found) state state)
    (foreign : ∀ id, (state.table.scope scope).find? name = some id → (state.table.symbol id).owner ≠ scope)
    (isAccess : attr.isAccess = true) (span place : Span) :
    Matched (awaiting state.table.symbols.size scope inner name module found attr span (foreignFaults found name))
      state ((Resolve.declaration scope (.attributes (.plain attr) [⟨name, span⟩] place)).run state).2 := by
  obtain ⟨settles, -, -⟩ := matched.tables.settled ⟨rfl, rfl, rfl, rfl, rfl⟩
  obtain ⟨findings, isRun, faults⟩ := Resolve.localEntity_of_foreign foreign span
  have isFound : (state.table.scope scope).find? name = found := settles.meaning
  rw [isFound] at faults
  rw [Resolve.run_statement isAccess, Resolve.run_bind, isRun]
  have tables := matched.tables.withUnknown attr span (foreignFaults found name)
  have free (other : ScopeId) (isFree : (unmentioned scope inner name.toLower module found).Free other) :
      (awaiting state.table.symbols.size scope inner name module found attr span
        (foreignFaults found name)).Free other := by
    rintro key _ _ _ ⟨isScope, -⟩
    exact ne_of_free_differing isFree isScope
  obtain ⟨generics, bindings⟩ := matched.waiting (awaiting_le _ _ _) (fun _ allowed => allowed) free
  refine matched.relock tables (awaiting_le _ _ _) (Nat.le_refl _) (fun pair => pair) matched.rules
    (fun entry member allowed => ?_) generics bindings (fun _ => trivial) ?_
  · obtain ⟨_, -, alike⟩ := forall₂_exists matched.modules member
    exact alike.exports allowed
  · rw [faults]
    exact List.perm_append_comm

theorem Matched.to_gaining
    (matched : Matched (awaiting count scope inner name module found attr span (foreignFaults found name)) state state')
    (foreign : ∀ id, found = some id → (state.table.symbol id).owner ≠ scope) (isAccess : attr.isAccess = true)
    (order : count ≤ state.table.symbols.size) (place : Span) :
    (Resolve.localEntity scope name place).run state' = (⟨count⟩, state') ∧
      Reaches (gaining count state.table.symbols.size order scope inner name.toLower module attr) state
        (fun larger => larger.symbols) ((Resolve.localEntity scope name place).run state) (⟨count⟩, state') ∧
      ((awaiting count scope inner name module found attr span (foreignFaults found name)).upTo state.table).Le
        ((gaining count state.table.symbols.size order scope inner name.toLower module attr).upTo
          ((Resolve.localEntity scope name place).run state).2.table) := by
  obtain ⟨settles, settles', -⟩ := matched.tables.settled ⟨rfl, rfl, rfl, rfl, rfl⟩
  obtain ⟨-, isUnknown⟩ := matched.tables.kept ⟨rfl, rfl⟩
  have isFound : (state.table.scope scope).find? name = found := settles.meaning
  obtain ⟨findings, isRun, faults⟩ := Resolve.localEntity_of_foreign (isFound ▸ foreign) place
  rw [isFound] at faults
  have isOwner : (state'.table.symbol ⟨count⟩).owner = scope := by rw [isUnknown]; rfl
  refine ⟨Resolve.localEntity_of_own settles'.meaning isOwner place, ?_⟩
  rw [isRun]
  have tables := matched.tables.declared isAccess place order
  have size := state.table.size_addSymbol scope name .empty (.object .unknown) place
  have sameScopes := state.table.scopes_addSymbol scope name .empty (.object .unknown) place
  have allows (mention : Mention)
      (allowed : (awaiting count scope inner name module found attr span (foreignFaults found name)).allows mention) :
      (gaining count state.table.symbols.size order scope inner name.toLower module attr).allows mention :=
    ⟨Mention.redefines_of_concerns allowed.1, allowed.2⟩
  obtain ⟨generics, bindings⟩ := matched.waiting (gaining_le order place) allows fun other isFree key _ _ _ settled =>
    ne_of_free_differing isFree settled.1
  refine ⟨⟨.addSymbol _ _ _ _ _ _, ?_, (moved_last _ _).symm, ?_⟩, gaining_le order place⟩
  rotate_left
  · exact Nat.lt_of_lt_of_eq (Nat.lt_succ_self _) size.symm
  refine matched.relock tables (gaining_le order place) (Nat.le_of_eq sameScopes.symm) (fun pair => pair)
    (fun entry member mention isMention => allows mention (matched.rules entry member mention isMention))
    (fun entry member allowed => ?_) generics bindings (fun _ => trivial) ?_
  · obtain ⟨_, -, alike⟩ := forall₂_exists matched.modules member
    exact alike.exports ⟨rfl, allowed.2⟩
  · rw [faults]
    exact matched.faults.trans List.perm_append_comm

theorem Matched.to_renumbered {order : count ≤ last}
    (matched : Matched (gaining count last order scope inner name.toLower module attr) state state')
    (isAccess : attr.isAccess = true) (span place : Span) :
    Matched (renumbered (moved count last) (moved_injective order) fun _ => false)
      ((Resolve.declaration scope (.attributes (.plain attr) [⟨name, span⟩] place)).run state).2 state' ∧
      last < ((Resolve.declaration scope (.attributes (.plain attr) [⟨name, span⟩] place)).run
        state).2.table.symbols.size ∧
      scope.index < ((Resolve.declaration scope (.attributes (.plain attr) [⟨name, span⟩] place)).run
        state).2.table.scopes.size := by
  obtain ⟨settles, -, owns⟩ := matched.tables.settled ⟨rfl, rfl, rfl, rfl, rfl⟩
  obtain ⟨_, ⟨⟩, bound, isOwner⟩ := owns ⟨rfl, rfl⟩
  rw [Resolve.run_statement isAccess, Resolve.run_bind, Resolve.localEntity_of_own settles.meaning isOwner span]
  have tables := matched.tables.levelled
  have size : (state.table.addAttribute ⟨last⟩ attr).symbols.size = state.table.symbols.size := Array.size_modify
  refine ⟨?_, Nat.lt_of_lt_of_eq bound size.symm, settles.bound⟩
  obtain ⟨generics, bindings⟩ := matched.waiting levelled_le (fun mention _ => mention.inRule_of_none)
    fun other _ key _ _ _ => id
  exact matched.relock tables levelled_le (Nat.le_refl _) (fun pair => pair)
    (fun _ _ mention _ => mention.inRule_of_none) (fun _ _ _ => trivial) generics bindings
    (fun mention => mention.inRule_of_none) matched.faults

end Module

end FortranInterface
