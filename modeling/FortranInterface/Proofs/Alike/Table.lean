import FortranInterface.Proofs.Alike.Data
import FortranInterface.Resolution.Lookup

/-!
Tables that are alike: paired symbols and scopes hold the same but for the names of other symbols and
scopes. A leeway says in which respects the two tables may differ all the same. Names then mean paired
symbols.
-/

namespace FortranInterface

variable {pairing larger : Pairing}

/-! What is declared of a symbol. -/

inductive CharLength.Alike (pairing : Pairing) : CharLength → CharLength → Prop where
  | explicit {value value' : Expr} : value.Alike pairing value' →
      Alike pairing (.explicit value) (.explicit value')
  | assumed : Alike pairing .assumed .assumed
  | deferred : Alike pairing .deferred .deferred

inductive DeclaredType.Alike (pairing : Pairing) : DeclaredType → DeclaredType → Prop where
  | intrinsic {category : Category} {kind : Nat} {length length' : Option CharLength} :
      category.isValidKind kind = true → Option.Rel (CharLength.Alike pairing) length length' →
      Alike pairing (.intrinsic category kind length) (.intrinsic category kind length')
  | type {id id' : SymbolId} : pairing.symbols id id' → Alike pairing (.type id) (.type id')
  | classOf {id id' : SymbolId} : pairing.symbols id id' → Alike pairing (.classOf id) (.classOf id')
  | typeStar : Alike pairing .typeStar .typeStar
  | classStar : Alike pairing .classStar .classStar

inductive Bounds.Alike (pairing : Pairing) : Bounds → Bounds → Prop where
  | explicit {lower lower' : Option Expr} {upper upper' : Expr} :
      Option.Rel (Expr.Alike pairing) lower lower' → upper.Alike pairing upper' →
      Alike pairing (.explicit lower upper) (.explicit lower' upper')
  | colon {lower lower' : Option Expr} : Option.Rel (Expr.Alike pairing) lower lower' →
      Alike pairing (.colon lower) (.colon lower')
  | assumedSize {lower lower' : Option Expr} : Option.Rel (Expr.Alike pairing) lower lower' →
      Alike pairing (.assumedSize lower) (.assumedSize lower')
  | assumedRank : Alike pairing .assumedRank .assumedRank

abbrev ArraySpec.Alike (pairing : Pairing) : ArraySpec → ArraySpec → Prop :=
  List.Forall₂ (Bounds.Alike pairing)

structure ObjectDetails.Alike (pairing : Pairing) (object object' : ObjectDetails) : Prop where
  type : Option.Rel (DeclaredType.Alike pairing) object.type object'.type
  shape : ArraySpec.Alike pairing object.shape object'.shape
  coshape : ArraySpec.Alike pairing object.coshape object'.coshape
  init : Option.Rel (Expr.Alike pairing) object.init object'.init
  isDummy : object.isDummy = object'.isDummy

structure ProcEntityDetails.Alike (pairing : Pairing) (entity entity' : ProcEntityDetails) : Prop where
  interface : Option.Rel pairing.symbols entity.interface entity'.interface
  type : Option.Rel (DeclaredType.Alike pairing) entity.type entity'.type
  isDummy : entity.isDummy = entity'.isDummy
  passName : entity.passName = entity'.passName

structure SubprogramDetails.Alike (pairing : Pairing) (subprogram subprogram' : SubprogramDetails) :
    Prop where
  dummies : List.Forall₂ (Option.Rel pairing.symbols) subprogram.dummies subprogram'.dummies
  result : Option.Rel pairing.symbols subprogram.result subprogram'.result
  isInterface : subprogram.isInterface = subprogram'.isInterface
  isDummy : subprogram.isDummy = subprogram'.isDummy
  scope : Option.Rel pairing.scopes subprogram.scope subprogram'.scope

structure GenericDetails.Alike (pairing : Pairing) (generic generic' : GenericDetails) : Prop where
  kind : generic.kind = generic'.kind
  specifics : List.Forall₂ pairing.symbols generic.specifics generic'.specifics

structure DerivedTypeDetails.Alike (pairing : Pairing) (type type' : DerivedTypeDetails) : Prop where
  parent : Option.Rel pairing.symbols type.parent type'.parent
  components : List.Forall₂ pairing.symbols type.components type'.components
  bindings : List.Forall₂ pairing.symbols type.bindings type'.bindings
  scope : Option.Rel pairing.scopes type.scope type'.scope

structure BindingDetails.Alike (pairing : Pairing) (binding binding' : BindingDetails) : Prop where
  procedure : pairing.symbols binding.procedure binding'.procedure
  passName : binding.passName = binding'.passName

inductive Details.Alike (pairing : Pairing) : Details → Details → Prop where
  | object {object object' : ObjectDetails} : object.Alike pairing object' →
      Alike pairing (.object object) (.object object')
  | associate {selector selector' : Expr} : selector.Alike pairing selector' →
      Alike pairing (.associate selector) (.associate selector')
  | procEntity {entity entity' : ProcEntityDetails} : entity.Alike pairing entity' →
      Alike pairing (.procEntity entity) (.procEntity entity')
  | subprogram {subprogram subprogram' : SubprogramDetails} : subprogram.Alike pairing subprogram' →
      Alike pairing (.subprogram subprogram) (.subprogram subprogram')
  | generic {generic generic' : GenericDetails} : generic.Alike pairing generic' →
      Alike pairing (.generic generic) (.generic generic')
  | derivedType {type type' : DerivedTypeDetails} : type.Alike pairing type' →
      Alike pairing (.derivedType type) (.derivedType type')
  | binding {binding binding' : BindingDetails} : binding.Alike pairing binding' →
      Alike pairing (.binding binding) (.binding binding')
  | module {scope scope' : ScopeId} : pairing.scopes scope scope' →
      Alike pairing (.module scope) (.module scope')
  | mainProgram {scope scope' : ScopeId} : pairing.scopes scope scope' →
      Alike pairing (.mainProgram scope) (.mainProgram scope')
  | unresolved : Alike pairing .unresolved .unresolved

section

variable (le : pairing.Le larger)
include le

theorem CharLength.Alike.mono {length length' : CharLength} (alike : length.Alike pairing length') :
    length.Alike larger length' := by
  cases alike with
  | explicit alike => exact .explicit (alike.mono le)
  | assumed => exact .assumed
  | deferred => exact .deferred

theorem DeclaredType.Alike.mono {type type' : DeclaredType} (alike : type.Alike pairing type') :
    type.Alike larger type' := by
  cases alike with
  | intrinsic valid length => exact .intrinsic valid (relMono (·.mono le) length)
  | type paired => exact .type (le.symbols paired)
  | classOf paired => exact .classOf (le.symbols paired)
  | typeStar => exact .typeStar
  | classStar => exact .classStar

theorem Bounds.Alike.mono {bounds bounds' : Bounds} (alike : bounds.Alike pairing bounds') :
    bounds.Alike larger bounds' := by
  cases alike with
  | explicit lower upper => exact .explicit (relMono (·.mono le) lower) (upper.mono le)
  | colon lower => exact .colon (relMono (·.mono le) lower)
  | assumedSize lower => exact .assumedSize (relMono (·.mono le) lower)
  | assumedRank => exact .assumedRank

theorem ArraySpec.Alike.mono {spec spec' : ArraySpec} (alike : ArraySpec.Alike pairing spec spec') :
    ArraySpec.Alike larger spec spec' :=
  alike.imp fun _ _ bounds => bounds.mono le

theorem SubprogramDetails.Alike.mono {subprogram subprogram' : SubprogramDetails}
    (alike : subprogram.Alike pairing subprogram') : subprogram.Alike larger subprogram' :=
  ⟨alike.dummies.imp fun _ _ => relMono le.symbols, relMono le.symbols alike.result, alike.isInterface,
    alike.isDummy, relMono le.scopes alike.scope⟩

theorem Details.Alike.mono {details details' : Details} (alike : details.Alike pairing details') :
    details.Alike larger details' := by
  cases alike with
  | object alike =>
    exact .object ⟨relMono (·.mono le) alike.type, alike.shape.mono le, alike.coshape.mono le,
      relMono (·.mono le) alike.init, alike.isDummy⟩
  | associate alike => exact .associate (alike.mono le)
  | procEntity alike =>
    exact .procEntity ⟨relMono le.symbols alike.interface, relMono (·.mono le) alike.type,
      alike.isDummy, alike.passName⟩
  | subprogram alike => exact .subprogram (alike.mono le)
  | generic alike => exact .generic ⟨alike.kind, alike.specifics.imp fun _ _ => le.symbols⟩
  | derivedType alike =>
    exact .derivedType ⟨relMono le.symbols alike.parent,
      alike.components.imp fun _ _ => le.symbols, alike.bindings.imp fun _ _ => le.symbols,
      relMono le.scopes alike.scope⟩
  | binding alike => exact .binding ⟨le.symbols alike.procedure, alike.passName⟩
  | module paired => exact .module (le.scopes paired)
  | mainProgram paired => exact .mainProgram (le.scopes paired)
  | unresolved => exact .unresolved

end

/-! Symbols and scopes. -/

def Attribute.isAccess : Attribute → Bool
  | .public | .private => true
  | _ => false

/-- Symbols that are alike, wherever they stand in the text. The second one may have `gained` an attribute
that says who has access to it. -/
structure Symbol.Alike (pairing : Pairing) (gained : Option Attribute) (symbol symbol' : Symbol) : Prop where
  name : symbol.name = symbol'.name
  usage : symbol.usage = symbol'.usage
  details : symbol.details.Alike pairing symbol'.details
  owner : pairing.scopes symbol.owner symbol'.owner
  has : ∀ attr, symbol'.has attr = (symbol.has attr || decide (gained = some attr))
  access : ∀ attr, gained = some attr → attr.isAccess = true

def NameMap.compared (map : NameMap) (exempt : String → Bool) : List (String × SymbolId) :=
  map.entries.filter fun entry => !exempt entry.1

def NameMap.Sorted (map : NameMap) : Prop :=
  map.entries.Pairwise fun first second => first.1 < second.1

def EntryAlike (pairing : Pairing) (entry entry' : String × SymbolId) : Prop :=
  entry.1 = entry'.1 ∧ pairing.symbols entry.2 entry'.2

/-- Scopes that are alike, but for `exempt` names. -/
structure Scope.Alike (pairing : Pairing) (exempt : String → Bool) (scope scope' : Scope) : Prop where
  kind : scope.kind = scope'.kind
  parent : Option.Rel pairing.scopes scope.parent scope'.parent
  symbol : Option.Rel pairing.symbols scope.symbol scope'.symbol
  names : List.Forall₂ (EntryAlike pairing) (scope.names.compared exempt) (scope'.names.compared exempt)
  sorted : scope.names.Sorted
  sorted' : scope'.names.Sorted

theorem EntryAlike.mono (le : pairing.Le larger) {entry entry' : String × SymbolId}
    (alike : EntryAlike pairing entry entry') : EntryAlike larger entry entry' :=
  ⟨alike.1, le.symbols alike.2⟩

variable {gained : Option Attribute}

theorem Symbol.Alike.mono (le : pairing.Le larger) {symbol symbol' : Symbol}
    (alike : symbol.Alike pairing gained symbol') : symbol.Alike larger gained symbol' :=
  ⟨alike.name, alike.usage, alike.details.mono le, le.scopes alike.owner, alike.has, alike.access⟩

variable {exempt : String → Bool}

theorem Scope.Alike.mono (le : pairing.Le larger) {scope scope' : Scope}
    (alike : scope.Alike pairing exempt scope') : scope.Alike larger exempt scope' :=
  ⟨alike.kind, relMono le.scopes alike.parent, relMono le.symbols alike.symbol,
    alike.names.imp fun _ _ entry => entry.mono le, alike.sorted, alike.sorted'⟩

theorem Symbol.Alike.plain {symbol symbol' : Symbol} (alike : symbol.Alike pairing gained symbol') (attr : Attribute)
    (other : attr.isAccess = false) : symbol.has attr = symbol'.has attr := by
  have notGained : gained ≠ some attr := fun isGained => by simp [alike.access attr isGained] at other
  rw [alike.has attr, decide_eq_false notGained, Bool.or_false]

variable {name : String}

theorem NameMap.lookup_compared (map : NameMap) (compared : exempt name = false) :
    (map.compared exempt).lookup name = map.find? name := by
  unfold NameMap.find? NameMap.compared
  induction map.entries with
  | nil => rfl
  | cons entry rest ih =>
    obtain ⟨key, id⟩ := entry
    by_cases same : name = key
    · simp [← same, compared]
    · by_cases hidden : exempt key
      · simpa [List.lookup_cons, hidden, beq_eq_false_iff_ne.mpr same] using ih
      · simpa [List.lookup_cons, hidden, beq_eq_false_iff_ne.mpr same] using ih

theorem lookup_alike (name : String) {entries entries' : List (String × SymbolId)}
    (alike : List.Forall₂ (EntryAlike pairing) entries entries') :
    Option.Rel pairing.symbols (entries.lookup name) (entries'.lookup name) := by
  induction alike with
  | nil => exact .none
  | @cons entry entry' _ _ first _ ih =>
    obtain ⟨key, id⟩ := entry
    obtain ⟨key', id'⟩ := entry'
    obtain ⟨same, paired⟩ := first
    simp only at same
    subst same
    by_cases here : name = key
    · simpa [List.lookup_cons, here] using Option.Rel.some paired
    · simpa [List.lookup_cons, beq_eq_false_iff_ne.mpr here] using ih

theorem Scope.Alike.find? {scope scope' : Scope} (alike : scope.Alike pairing exempt scope')
    (compared : exempt name.toLower = false) : Option.Rel pairing.symbols (scope.find? name) (scope'.find? name) := by
  have found := lookup_alike name.toLower alike.names
  rwa [NameMap.lookup_compared _ compared, NameMap.lookup_compared _ compared] at found

/-- Where two tables that are compared may differ. -/
structure Leeway where
  exempt : ScopeId → String → Bool
  gained : SymbolId → Option Attribute

def Leeway.Compares (leeway : Leeway) (name : String) : Prop :=
  ∀ scope, leeway.exempt scope name.toLower = false

/-- Tables that say the same of paired symbols and scopes. Nothing has two partners, so that names mean paired
symbols. -/
structure Table.Alike (pairing : Pairing) (leeway : Leeway) (table table' : Table) : Prop where
  exact : pairing.Exact
  global : pairing.scopes Table.global Table.global
  bounded : ∀ {id id'}, pairing.symbols id id' → id.index < table.symbols.size
  symbol : ∀ {id id'}, pairing.symbols id id' →
    (table.symbol id).Alike pairing (leeway.gained id) (table'.symbol id')
  scope : ∀ {scope scope'}, pairing.scopes scope scope' →
    (table.scope scope).Alike pairing (leeway.exempt scope) (table'.scope scope')
  symbol_lt : ∀ {id id'}, pairing.symbols id id' → id'.index < table'.symbols.size
  scope_lt : ∀ {scope scope'}, pairing.scopes scope scope' → scope'.index < table'.scopes.size
  size_le : table.symbols.size ≤ table'.symbols.size

namespace Table.Alike

variable {leeway : Leeway} {table table' : Table} (alike : Table.Alike pairing leeway table table')
include alike

theorem details {id id' : SymbolId} (paired : pairing.symbols id id') :
    (table.details id).Alike pairing (table'.details id') :=
  (alike.symbol paired).details

variable {scope scope' : ScopeId}

theorem eq_global_iff (paired : pairing.scopes scope scope') : scope = Table.global ↔ scope' = Table.global :=
  alike.exact.scope_eq_iff paired alike.global

theorem hosts (scope : ScopeId) {scope' : ScopeId} (paired : pairing.scopes scope scope') :
    List.Forall₂ pairing.scopes (table.hosts scope) (table'.hosts scope') := by
  rw [Table.hosts, Table.hosts]
  have parents := (alike.scope paired).parent
  generalize found : (table.scope scope).parent = parent, (table'.scope scope').parent = parent' at parents
  cases parents with
  | none => exact .cons paired .nil
  | @some parent parent' parents =>
    have order := alike.exact.scopes parents paired
    by_cases inner : parent.index < scope.index
    · simp only [inner, order.mp inner, if_true]
      exact .cons paired (hosts parent parents)
    · have inner' : ¬parent'.index < scope'.index := fun less => inner (order.mpr less)
      simp only [inner, inner', if_false]
      exact .cons paired .nil
termination_by scope.index

variable (paired : pairing.scopes scope scope')
include paired

theorem visible? (compared : leeway.Compares name) :
    Option.Rel pairing.symbols (table.visible? scope name) (table'.visible? scope' name) := by
  unfold Table.visible?
  have chain := alike.hosts scope paired
  generalize table.hosts scope = hosts, table'.hosts scope' = hosts' at chain
  induction chain with
  | nil => exact .none
  | @cons host host' _ _ first _ ih =>
    have ends := alike.eq_global_iff first
    by_cases last : host = Table.global
    · simp [last, ends.mp last]
    · have last' : host' ≠ Table.global := fun equal => last (ends.mpr equal)
      have found := (alike.scope first).find? (compared host)
      simp only [List.takeWhile_cons, ne_eq, last, last', not_false_iff, decide_true, if_true, List.findSome?_cons]
      exact relCases found ih fun _ _ paired => .some paired

theorem own? (compared : leeway.Compares name) :
    Option.Rel pairing.symbols (table.own? scope name) (table'.own? scope' name) := by
  unfold Table.own?
  have found := (alike.scope paired).find? (compared scope)
  refine relCases found .none fun id id' found => ?_
  have owner := alike.exact.scope_eq_iff (alike.symbol found).owner paired
  by_cases own : (table.symbol id).owner = scope
  · simpa [Option.filter, own, owner.mp own] using Option.Rel.some found
  · have own' : (table'.symbol id').owner ≠ scope' := fun equal => own (owner.mpr equal)
    simp [Option.filter, own, own']

theorem scopingUnit : pairing.scopes (table.scopingUnit scope) (table'.scopingUnit scope') := by
  unfold Table.scopingUnit
  have chain := alike.hosts scope paired
  generalize table.hosts scope = hosts, table'.hosts scope' = hosts' at chain
  induction chain with
  | nil => exact paired
  | @cons host host' _ _ first _ ih =>
    have kind := (alike.scope first).kind
    by_cases block : (table.scope host).kind = .block
    · simpa [block, ← kind] using ih
    · simpa [block, ← kind] using first

end Table.Alike

end FortranInterface
