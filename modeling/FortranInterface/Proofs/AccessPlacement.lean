import FortranInterface.Proofs.AccessStatement
import FortranInterface.Proofs.ResolvedProcedures

/-!
Where a statement about access to a variable of a module may stand. Two programs that differ only in its place,
in front of the declaration of the variable or behind it, are resolved in lockstep: until the statement has been
met by one of them, until the variable is declared in both, until both have met the statement, and to the end.
-/

namespace FortranInterface

open Tree (Mention)
open Lockstep (Permits unmentioned awaiting gaining renumbered strict_renumbered allows_renumbered)
open Resolve (foreignFaults)

namespace Tree

/-- A declaration of a variable that does not look at its name before. It may declare others with it. -/
inductive Decl.Introduces (name : String) : Decl → Prop
  | entity {type : TypeSpec} {attributes : List AttributeSpec} {before after : List Entity} {entity : Entity}
      {span : Span} : entity.name = name →
      (∀ mention ∈ type.mentions ++ attributes.flatMap AttributeSpec.mentions ++
        before.flatMap Entity.mentions ++ optionMentions Length.mentions entity.length,
        mention.concerns name.toLower = false) →
      Introduces name (.entities type attributes (before ++ entity :: after) span)
  | attributed {attr : AttributeSpec} {before after : List Located} {place span : Span} :
      (∀ mention ∈ attr.mentions ++ before.map Located.mention, mention.concerns name.toLower = false) →
      Introduces name (.attributes attr (before ++ ⟨name, place⟩ :: after) span)

/-- A specification part, cut in front of the declaration of a variable and behind it. -/
structure CutSpecification where
  uses : List Decl
  front : List Decl
  between : List Decl
  declared : Decl
  behind : List Decl
  rest : List Decl

namespace CutSpecification

def upToEarly (cut : CutSpecification) (statement : Decl) : List Decl :=
  cut.front ++ statement :: (cut.between ++ cut.declared :: cut.behind)

def upToLate (cut : CutSpecification) (statement : Decl) : List Decl :=
  cut.front ++ (cut.between ++ cut.declared :: (cut.behind ++ [statement]))

def early (cut : CutSpecification) (statement : Decl) : List Decl :=
  cut.uses ++ (cut.upToEarly statement ++ cut.rest)

def late (cut : CutSpecification) (statement : Decl) : List Decl :=
  cut.uses ++ (cut.upToLate statement ++ cut.rest)

/-- A variable of a module is declared where the specification part is cut. All modules are used before, the
name of the variable is not mentioned before, and it does not become the name of anything else. The module does
not use itself. -/
structure Declares (cut : CutSpecification) (name module : String) : Prop where
  uses : ∀ decl ∈ cut.uses, decl.isUse = true
  unmentioned : ∀ mention ∈ declMentions (cut.front ++ cut.between), mention.concerns name.toLower = false
  introduces : cut.declared.Introduces name
  keeps : ∀ mention ∈ declMentions (cut.declared :: cut.behind), mention.redefines name.toLower = false
  separate : ∀ mention ∈ declMentions (cut.front ++ cut.between ++ cut.declared :: cut.behind),
    mention.uses module = false
  used : ∀ decl ∈ cut.front ++ cut.between ++ cut.behind, decl.isUse = false

end CutSpecification

theorem module_of_mem_uses {uses : List Decl} (isUse : ∀ decl ∈ uses, decl.isUse = true) {mention : Mention}
    (member : mention ∈ declMentions uses) : ∃ spelling, mention = .module spelling := by
  induction uses with
  | nil => simp [declMentions] at member
  | cons decl rest ih =>
    have first := isUse decl (.head _)
    rw [declMentions] at member
    rcases List.mem_append.mp member with inFirst | inRest
    · cases decl with
      | use spelling _ =>
        rw [Decl.mentions] at inFirst
        exact ⟨spelling, List.mem_singleton.mp inFirst⟩
      | _ => cases first
    · exact ih (fun other later => isUse other (.tail _ later)) inRest

end Tree

/-! The declaration of the variable. -/

section Declaration

variable {scope : ScopeId} {inner : scope ≠ Table.global} {name module : String} {state state' : Resolution}
  {found : Option SymbolId} {attr : Attribute} {span : Span} {count : Nat}

/-- A name that a scope has from elsewhere, if it has it. -/
def Table.Foreign (table : Table) (scope : ScopeId) (found : Option SymbolId) : Prop :=
  ∀ id, found = some id → id.index < table.symbols.size ∧ (table.symbol id).owner ≠ scope

theorem Table.Foreign.grows {table next : Table} (foreign : table.Foreign scope found) (grows : table.Grows next) :
    next.Foreign scope found := by
  intro id isFound
  obtain ⟨bound, apart⟩ := foreign id isFound
  exact ⟨Nat.lt_of_lt_of_le bound grows.symbols_le, by rwa [grows.owner id bound]⟩

theorem Matched.through_local {α : Type} {first : Resolve α} {second : α → SymbolId → Resolve Unit}
    {related : Pairing → α → α → Prop} (persists : Persists related)
    (matched : Matched (awaiting count scope inner name module found attr span (foreignFaults found name)) state state')
    (foreign : state.table.Foreign scope found) (isAccess : attr.isAccess = true) (place : Span)
    (firsts : Resolve.Runs (awaiting count scope inner name module found attr span (foreignFaults found name))
      state.table first first related)
    (seconds : ∀ {last : Nat} {world : Table} {value value' : α} {id id' : SymbolId} (order : count ≤ last),
      ((gaining count last order scope inner name.toLower module attr).upTo world).scopes scope scope →
      related ((gaining count last order scope inner name.toLower module attr).upTo world) value value' →
      ((gaining count last order scope inner name.toLower module attr).upTo world).symbols id id' →
      Resolve.Runs (gaining count last order scope inner name.toLower module attr) world (second value id)
        (second value' id') Unrelated) :
    ∃ last, ∃ order : count ≤ last, Matched (gaining count last order scope inner name.toLower module attr)
      ((first >>= fun value => Resolve.localEntity scope name place >>= second value).run state).2
      ((first >>= fun value => Resolve.localEntity scope name place >>= second value).run state').2 := by
  have before := firsts state state' matched (.refl _)
  have order := before.matched.tables.awaiting_size.1
  obtain ⟨isOld, gained, le⟩ := before.matched.to_gaining
    (fun id isFound => (foreign.grows before.grows id isFound).2) isAccess order place
  obtain ⟨settles, -, -⟩ := gained.matched.tables.settled ⟨rfl, rfl, rfl, rfl, rfl⟩
  have after := seconds order ⟨rfl, settles.bound⟩ (persists _ _ _ _ le before.related) gained.related _ _
    gained.matched (.refl _)
  refine ⟨_, order, ?_⟩
  rw [Resolve.run_bind, Resolve.run_bind, Resolve.run_bind, Resolve.run_bind, isOld]
  exact after.matched

theorem Resolve.forM_middle {α : Type} (step : α → Resolve Unit) (before after : List α) (value : α) :
    (before ++ value :: after).forM step = (do before.forM step; step value; after.forM step) :=
  List.forM_append

theorem Resolve.declareAttributes_middle (attr : Tree.AttributeSpec) (before after : List Tree.Located)
    (name : Tree.Located) :
    declareAttributes scope attr (before ++ name :: after) =
      (before ++ name :: after).forM (declareAttribute scope attr) := by
  unfold declareAttributes
  split
  next isEmpty => simp at isEmpty
  · rfl

section Introduced

variable {decl : Tree.Decl}
  (matched : Matched (awaiting count scope inner name module found attr span (foreignFaults found name)) state state')
  (foreign : state.table.Foreign scope found) (isAccess : attr.isAccess = true)
include matched foreign isAccess

theorem Matched.introduced_entity {type : Tree.TypeSpec} {attributes : List Tree.AttributeSpec}
    {before after : List Tree.Entity} {entity : Tree.Entity} (isName : entity.name = name)
    (early : (awaiting count scope inner name module found attr span (foreignFaults found name)).Permits
      (type.mentions ++ attributes.flatMap Tree.AttributeSpec.mentions ++ before.flatMap Tree.Entity.mentions ++
        Tree.optionMentions Tree.Length.mentions entity.length))
    (late : ∀ {last : Nat} (order : count ≤ last),
      (gaining count last order scope inner name.toLower module attr).Permits
        (type.mentions ++ attributes.flatMap Tree.AttributeSpec.mentions ++
          (entity :: after).flatMap Tree.Entity.mentions)) (place : Span) :
    ∃ last, ∃ order : count ≤ last, Matched (gaining count last order scope inner name.toLower module attr)
      ((Resolve.declaration scope (.entities type attributes (before ++ entity :: after) place)).run state).2
      ((Resolve.declaration scope (.entities type attributes (before ++ entity :: after) place)).run state').2 := by
  subst isName
  have split : (before ++ entity :: after).forM (Resolve.declareEntity scope type attributes) = (do
      let declared ← (do
        before.forM (Resolve.declareEntity scope type attributes)
        (Resolve.declaredType scope type entity.length entity.span).run)
      let id ← Resolve.localEntity scope entity.name entity.span
      Resolve.declareLocal scope attributes entity declared id
      after.forM (Resolve.declareEntity scope type attributes)) := by
    rw [Resolve.forM_middle, Resolve.declareEntity_eq]
    simp only [bind_assoc]
  rw [Resolve.declaration, split]
  have persists : Persists DeclaredType.Alike := fun _ _ _ _ le => DeclaredType.Alike.mono le
  refine matched.through_local persists.rel foreign isAccess entity.span ?_ fun order paired types pair => ?_
  · obtain ⟨settles, -, -⟩ := matched.tables.settled ⟨rfl, rfl, rfl, rfl, rfl⟩
    simp only [Permits.append] at early
    obtain ⟨⟨⟨inType, inAttributes⟩, inBefore⟩, inLength⟩ := early
    exact .bind (Resolve.runs_entities ⟨rfl, settles.bound⟩ inType inAttributes inBefore) fun _ _ _ le _ =>
      Resolve.runs_declaredType (le.scopes ⟨rfl, settles.bound⟩) inType inLength _
  · have permits := late order
    simp only [List.flatMap_cons, Permits.append] at permits
    obtain ⟨⟨inType, inAttributes⟩, inEntity, inAfter⟩ := permits
    exact .bind (Resolve.runs_declareLocal paired pair inAttributes inEntity types) fun _ _ _ le _ =>
      Resolve.runs_entities (le.scopes paired) inType inAttributes inAfter

theorem Matched.introduced_attributed {spec : Tree.AttributeSpec} {before after : List Tree.Located} {place : Span}
    (early : (awaiting count scope inner name module found attr span (foreignFaults found name)).Permits
      (spec.mentions ++ before.map Tree.Located.mention))
    (late : ∀ {last : Nat} (order : count ≤ last),
      (gaining count last order scope inner name.toLower module attr).Permits
        (spec.mentions ++ after.map Tree.Located.mention)) (statementPlace : Span) :
    ∃ last, ∃ order : count ≤ last, Matched (gaining count last order scope inner name.toLower module attr)
      ((Resolve.declaration scope (.attributes spec (before ++ ⟨name, place⟩ :: after) statementPlace)).run state).2
      ((Resolve.declaration scope (.attributes spec (before ++ ⟨name, place⟩ :: after) statementPlace)).run
        state').2 := by
  have split : (before ++ ⟨name, place⟩ :: after).forM (Resolve.declareAttribute scope spec) = (do
      before.forM (Resolve.declareAttribute scope spec)
      let id ← Resolve.localEntity scope name place
      Resolve.attributeLocal scope spec place id
      after.forM (Resolve.declareAttribute scope spec)) := by
    rw [Resolve.forM_middle, Resolve.declareAttribute_eq]
    simp only [bind_assoc]
  have names {lock : Lockstep} {world : Table} {names : List Tree.Located}
      (paired : (lock.upTo world).scopes scope scope)
      (permits : lock.Permits (spec.mentions ++ names.map Tree.Located.mention)) :
      Resolve.Runs lock world (names.forM (Resolve.declareAttribute scope spec))
        (names.forM (Resolve.declareAttribute scope spec)) Unrelated :=
    .forM fun _ name le member => Resolve.runs_declareAttribute (le.scopes paired) (Permits.append.mp permits).1
      ((Permits.append.mp permits).2 _ (List.mem_map_of_mem member))
  rw [Resolve.declaration, Resolve.declareAttributes_middle, split]
  obtain ⟨settles, -, -⟩ := matched.tables.settled ⟨rfl, rfl, rfl, rfl, rfl⟩
  refine matched.through_local (fun _ _ _ _ _ _ => trivial) foreign isAccess place
    (names ⟨rfl, settles.bound⟩ early) fun order paired _ pair => ?_
  exact .bind (Resolve.runs_attributeLocal paired pair (Permits.append.mp (late order)).1 place) fun _ _ _ le _ =>
    names (le.scopes paired) (late order)

theorem Matched.introduced (introduces : decl.Introduces name)
    (keeps : ∀ mention ∈ decl.mentions, mention.redefines name.toLower = false)
    (separate : ∀ mention ∈ decl.mentions, mention.uses module = false) :
    ∃ last, ∃ order : count ≤ last, Matched (gaining count last order scope inner name.toLower module attr)
      ((Resolve.declaration scope decl).run state).2 ((Resolve.declaration scope decl).run state').2 := by
  cases introduces with
  | entity isName quiet =>
    refine matched.introduced_entity foreign isAccess isName
      (fun mention member => ⟨quiet mention member, separate mention ?_⟩)
      (fun _ mention member => ⟨keeps mention ?_, separate mention ?_⟩) _
    all_goals
      simp only [Tree.Decl.mentions, Tree.Entity.mentions, List.flatMap_append, List.flatMap_cons,
        List.mem_append, List.mem_cons] at member ⊢
      tauto
  | attributed quiet =>
    refine matched.introduced_attributed foreign isAccess
      (fun mention member => ⟨quiet mention member, separate mention ?_⟩)
      (fun _ mention member => ⟨keeps mention ?_, separate mention ?_⟩) _
    all_goals
      simp only [Tree.Decl.mentions, List.map_append, List.map_cons, List.mem_append, List.mem_cons] at member ⊢
      tauto

end Introduced

end Declaration

/-! The module. -/

namespace Resolve

theorem declarations_append (scope : ScopeId) (first second : List Tree.Decl) :
    declarations scope (first ++ second) = (do declarations scope first; declarations scope second) := by
  induction first with
  | nil => rw [List.nil_append, declarations, pure_bind]
  | cons decl rest ih => rw [List.cons_append, declarations, declarations, ih, bind_assoc]

theorem run_declarations_append (scope : ScopeId) (first second : List Tree.Decl) (state : Resolution) :
    ((declarations scope (first ++ second)).run state).2 =
      ((declarations scope second).run ((declarations scope first).run state).2).2 := by
  rw [declarations_append, run_bind]

theorem run_declarations_cons (scope : ScopeId) (first : Tree.Decl) (rest : List Tree.Decl) (state : Resolution) :
    ((declarations scope (first :: rest)).run state).2 =
      ((declarations scope rest).run ((declaration scope first).run state).2).2 := by
  rw [declarations, run_bind]

theorem openUnit_append (scope : ScopeId) (first second : List Tree.Decl) (contains : List Tree.Subprogram)
    (body : List Tree.Stmt) (header : Option Tree.Subprogram) :
    openUnit scope (first ++ second) contains body header =
      (do declarations scope first; openUnit scope second contains body header) := by
  rw [openUnit, openUnit, declarations_append, bind_assoc]

def withoutNames (state : Resolution) :
    Array Symbol × Nat × List (String × ScopeId) × List PendingGeneric × List PendingBindings :=
  (state.table.symbols, state.table.scopes.size, state.modules, state.pendingGenerics, state.pendingBindings)

theorem keeps_useModule (scope : ScopeId) (name : String) (span : Span) :
    Keeps withoutNames (useModule scope name span) := by
  refine .bind .get fun state => ?_
  split
  · exact fun _ => rfl
  next module _ =>
    simp only [Table.foldl_bindName]
    exact fun _ => Prod.ext rfl (Prod.ext Array.size_modify rfl)

theorem keeps_uses (scope : ScopeId) {uses : List Tree.Decl} (isUse : ∀ decl ∈ uses, decl.isUse = true) :
    Keeps withoutNames (declarations scope uses) := by
  induction uses with
  | nil => rw [declarations]; exact .pure _
  | cons decl rest ih =>
    rw [declarations]
    have first := isUse decl (.head _)
    refine .bind ?_ fun _ => ih fun other member => isUse other (.tail _ member)
    cases decl with
    | use name span => rw [declaration]; exact keeps_useModule scope name span
    | _ => cases first

end Resolve

theorem Matched.declarations {lock : Lockstep} {state state' : Resolution} (matched : Matched lock state state')
    {scope scope' : ScopeId} (paired : (lock.upTo state.table).scopes scope scope') {decls : List Tree.Decl}
    (permits : lock.Permits (Tree.declMentions decls)) (noUse : ∀ decl ∈ decls, decl.isUse = false) :
    Reaches lock state Unrelated ((Resolve.declarations scope decls).run state)
      ((Resolve.declarations scope' decls).run state') :=
  Resolve.runs_declarations decls paired permits (fun decl member isUse => by simp [noUse decl member] at isUse)
    state state' matched (.refl _)

/-- States that differ only in the order of the symbols which they have so far. -/
def Resolution.Reordered (scope : ScopeId) (state state' : Resolution) : Prop :=
  ∃ (shift : Nat → Nat) (injective : shift.Injective),
    Matched (renumbered shift injective fun _ => false) state state' ∧ scope.index < state.table.scopes.size ∧
      ∀ index, state.table.symbols.size ≤ index → shift index = index

/-- A module has been opened, and nothing has been declared in it. -/
structure Resolution.Opened (state : Resolution) (scope : ScopeId) (module : String) (avoided : Mention → Bool) :
    Prop where
  matched : Matched (renumbered id Function.injective_id avoided) state state
  inner : scope ≠ Table.global
  bound : scope.index < state.table.scopes.size
  idle : state.Idle
  modules : ∀ entry ∈ state.modules, entry.1 ≠ module → entry.2 ≠ scope
  foreign : ∀ id : SymbolId, id.index < state.table.symbols.size → (state.table.symbol id).owner ≠ scope

namespace Resolution

variable {state : Resolution} {scope : ScopeId} {module : String} {avoided : Mention → Bool}

theorem opened_openModule (matched : Matched (renumbered id Function.injective_id avoided) state state)
    (idle : state.Idle) (module : String) (span : Span) :
    ((Resolve.openModule module span).run state).2.Opened ((Resolve.openModule module span).run state).1 module
      avoided := by
  have reached := Resolve.runs_openModule strict_renumbered matched.alike.global module span state state
    matched (.refl _)
  have earlier {scope : ScopeId} (bound : scope.index < state.table.scopes.size) :
      scope ≠ ⟨state.table.scopes.size⟩ := by
    rintro rfl
    exact Nat.lt_irrefl _ bound
  refine ⟨reached.matched, (earlier matched.alike.global.2).symm, ?_, ⟨idle.generics, idle.bindings⟩, ?_, ?_⟩
  · exact reached.related.2
  · intro entry member apart
    rcases List.mem_cons.mp member with rfl | old
    · exact absurd rfl apart
    · obtain ⟨_, -, alike⟩ := forall₂_exists matched.modules old
      exact earlier alike.scope.2
  · intro id bound
    let wider := (state.table.addScope .module (some module) Table.global none).2
    have size : id.index < wider.symbols.size + 1 :=
      Nat.lt_of_lt_of_eq bound (wider.size_addSymbol Table.global module .empty (.module _) span)
    change ((wider.addSymbol Table.global module .empty (.module _) span).2.symbol id).owner ≠ _
    rw [Table.symbol_addSymbol]
    split
    · exact earlier matched.alike.global.2
    next old =>
      have within : id.index < state.table.symbols.size := Nat.lt_of_le_of_ne (Nat.le_of_lt_succ size) old
      exact earlier (matched.alike.symbol ⟨rfl, within⟩).owner.2

theorem Opened.uses (opened : state.Opened scope module avoided) {uses : List Tree.Decl}
    (isUse : ∀ decl ∈ uses, decl.isUse = true) :
    ((Resolve.declarations scope uses).run state).2.Opened scope module avoided := by
  have kept := Resolve.keeps_uses scope isUse state
  simp only [Resolve.withoutNames, Prod.mk.injEq] at kept
  obtain ⟨symbols, scopes, modules, generics, bindings⟩ := kept
  have permits : (renumbered id Function.injective_id avoided).Permits (Tree.declMentions uses) := by
    intro mention member
    obtain ⟨spelling, rfl⟩ := Tree.module_of_mem_uses isUse member
    rfl
  have reached := Resolve.runs_declarations uses (⟨rfl, opened.bound⟩ :
      ((renumbered id Function.injective_id avoided).upTo state.table).scopes scope scope)
    permits (fun _ _ _ => (strict_renumbered.plain scope).free) state state opened.matched (.refl _)
  refine ⟨reached.matched, opened.inner, ?_, ⟨?_, ?_⟩, ?_, ?_⟩
  · rw [scopes]; exact opened.bound
  · rw [generics]; exact opened.idle.generics
  · rw [bindings]; exact opened.idle.bindings
  · rw [modules]; exact opened.modules
  · intro id
    rw [Table.symbol, symbols]
    exact opened.foreign id

theorem Opened.placed {name : String} (opened : state.Opened scope module fun mention => mention.concerns name.toLower)
    {cut : Tree.CutSpecification} (declares : cut.Declares name module) {attr : Attribute} (isAccess : attr.isAccess = true)
    (span span' place place' : Span) :
    Reordered scope
      ((Resolve.declarations scope (cut.upToLate (.attributes (.plain attr) [⟨name, span⟩] place))).run state).2
      ((Resolve.declarations scope (cut.upToEarly (.attributes (.plain attr) [⟨name, span'⟩] place'))).run
        state).2 := by
  obtain ⟨-, quiet, introduces, keeps, separate, noUse⟩ := declares
  simp only [Tree.declMentions_append, Tree.declMentions, List.forall_mem_append] at quiet keeps separate noUse
  have start : Matched (unmentioned scope opened.inner _ module _) state state :=
    opened.matched.to_unmentioned opened.bound opened.idle opened.modules
  have foreign : state.table.Foreign scope ((state.table.scope scope).names.find? name.toLower) := by
    intro id isFound
    have bound := (start.tables.orderly.named isFound).bound
    exact ⟨bound, opened.foreign id bound⟩
  -- Neither run has met the statement.
  have front := start.declarations ⟨rfl, opened.bound⟩
    (fun mention member => ⟨quiet.1 mention member, separate.1.1 mention member⟩) noUse.1.1
  have foreign := foreign.grows front.grows
  obtain ⟨settles, -, -⟩ := front.matched.tables.settled ⟨rfl, rfl, rfl, rfl, rfl⟩
  have waiting := front.matched.to_awaiting (fun id isFound => (foreign id (settles.meaning.symm.trans isFound)).2)
    isAccess span' place'
  -- The second run has met it, and the variable has not been declared.
  have between := waiting.declarations ⟨rfl, settles.bound⟩
    (fun mention member => ⟨quiet.2 mention member, separate.1.2 mention member⟩) noUse.1.2
  obtain ⟨last, order, gained⟩ := between.matched.introduced (foreign.grows between.grows) isAccess introduces
    keeps.1 separate.2.1
  obtain ⟨settles, -, -⟩ := gained.tables.settled ⟨rfl, rfl, rfl, rfl, rfl⟩
  -- The variable has been declared, and the first run has not met the statement.
  have behind := gained.declarations ⟨rfl, settles.bound⟩
    (fun mention member => ⟨keeps.2 mention member, separate.2.2 mention member⟩) noUse.2
  obtain ⟨matched, within, bound⟩ := behind.matched.to_renumbered isAccess span place
  unfold Tree.CutSpecification.upToLate Tree.CutSpecification.upToEarly
  simp only [Resolve.run_declarations_append, Resolve.run_declarations_cons]
  exact ⟨moved _ last, moved_injective order, matched, bound, fun index later =>
    moved_of_gt (Nat.lt_of_lt_of_le within later)⟩

theorem runs_moduleRest {shift : Nat → Nat} {injective : shift.Injective} {world : Table}
    (paired : ((renumbered shift injective fun _ => false).upTo world).scopes scope scope) (rest : List Tree.Decl)
    (contains : List Tree.Subprogram) :
    Resolve.Runs (renumbered shift injective fun _ => false) world
      (Resolve.openUnit scope rest contains [] none >>= fun children => Resolve.subprogramUnits children contains)
      (Resolve.openUnit scope rest contains [] none >>= fun children => Resolve.subprogramUnits children contains)
      Unrelated := by
  have permits (mentions : List Mention) : (renumbered shift injective fun _ => false).Permits mentions :=
    fun mention _ => allows_renumbered mention
  refine .bind (Resolve.runs_openUnit strict_renumbered paired (permits _) (permits _) nofun fun _ _ => permits _) ?_
  exact fun _ _ _ _ children => Resolve.runs_subprogramUnits strict_renumbered contains children (permits _)

section Reordered

variable {state' : Resolution} (reordered : Reordered scope state state')
include reordered

theorem Reordered.openUnit (rest : List Tree.Decl) (contains : List Tree.Subprogram) :
    Reordered scope
      ((Resolve.openUnit scope rest contains [] none >>= fun children =>
        Resolve.subprogramUnits children contains).run state).2
      ((Resolve.openUnit scope rest contains [] none >>= fun children =>
        Resolve.subprogramUnits children contains).run state').2 := by
  obtain ⟨shift, injective, matched, bound, ahead⟩ := reordered
  have reached := runs_moduleRest ⟨rfl, bound⟩ rest contains state state' matched (.refl _)
  exact ⟨shift, injective, reached.matched, Nat.lt_of_lt_of_le bound reached.grows.scopes_le,
    fun index later => ahead index (Nat.le_trans reached.grows.symbols_le later)⟩

theorem Reordered.program (later : Tree.Program) :
    ((Resolve.program later).run state').2.faults.Perm ((Resolve.program later).run state).2.faults ∧
      ∀ module, ((Resolve.program later).run state').2.obtained module =
        ((Resolve.program later).run state).2.obtained module := by
  obtain ⟨shift, injective, matched, -, ahead⟩ := reordered
  have last := (matched.program ahead later).matched
  exact ⟨last.faults, fun module => (last.obtained module).symm⟩

end Reordered

end Resolution

namespace Tree.Program

def obtained (program : Program) (module : String) : List String :=
  ((Resolve.program program).run .start).2.obtained module

def around (before after : List ProgramUnit) (module : Module) : Program :=
  ⟨before ++ .module module :: after⟩

theorem run_around (before after : List ProgramUnit) (module : Module) (uses first rest : List Decl) :
    ((Resolve.program (around before after { module with spec := uses ++ (first ++ rest) })).run .start).2 =
      let opened := (Resolve.openModule module.name module.span).run ((before.forM Resolve.programUnit).run .start).2
      ((Resolve.program ⟨after⟩).run
        ((Resolve.openUnit opened.1 rest module.contains [] none >>= fun children =>
          Resolve.subprogramUnits children module.contains).run
            ((Resolve.declarations opened.1 first).run
              ((Resolve.declarations opened.1 uses).run opened.2).2).2).2).2 := by
  rw [Resolve.program, around, Resolve.forM_middle, Resolve.programUnit_module]
  simp only [Resolve.openUnit_append, bind_assoc]
  rfl

/-- A statement about access to a variable may be moved from behind the declaration of the variable to any place
in front of it. The same faults are reported, and from every module the same names are obtained. -/
theorem access_statement_moves (before after : List ProgramUnit) (module : Module) {cut : CutSpecification}
    {name : String} (declares : cut.Declares name module.name)
    (rules : ∀ unit ∈ before, ∀ mention ∈ unit.mentions,
      mention.inRule (fun inner => inner.concerns name.toLower) = false)
    {attr : Attribute} (isAccess : attr.isAccess = true) (span span' place place' : Span) :
    let late := around before after
      { module with spec := cut.late (.attributes (.plain attr) [⟨name, span⟩] place) }
    let early := around before after
      { module with spec := cut.early (.attributes (.plain attr) [⟨name, span'⟩] place') }
    (early.resolve.findings.map ResolutionFinding.fault).Perm (late.resolve.findings.map ResolutionFinding.fault) ∧
      ∀ used, early.obtained used = late.obtained used := by
  intro late early
  have start := matched_start fun mention => mention.concerns name.toLower
  have units := Resolve.runs_programUnits strict_renumbered start.alike.global rules .start .start start
    (.refl _)
  have idle := Resolve.idle_programUnits before .start ⟨rfl, rfl⟩
  have opened := (Resolution.opened_openModule units.matched idle module.name module.span).uses declares.uses
  have placed := opened.placed declares isAccess span span' place place'
  have last := (placed.openUnit cut.rest module.contains).program ⟨after⟩
  simp only [← run_around] at last
  exact last

def plainEntity (name : String) (init : Option Expr) : Entity :=
  ⟨name, none, none, none, init, somewhere⟩

def isPrivate (name : String) : Decl :=
  .attributes (.plain .private) [⟨name, somewhere⟩] somewhere

/-- Declares `n` and `x` as arrays. There is a variable `x` of another module, too. -/
def arrays : CutSpecification where
  uses := [.use "a" somewhere]
  front := [.implicitNone somewhere]
  between := [.entities (.integer none) [.plain .parameter]
    [plainEntity "k" (some (.integer "3" none somewhere))] somewhere]
  declared := .entities (.real none) [.dimension [.explicit none (.name "k" somewhere)]]
    ([plainEntity "n" none] ++ plainEntity "x" none :: []) somewhere
  behind := [.attributes (.plain .target) [⟨"x", somewhere⟩] somewhere]
  rest := []

def aroundArrays (spec : List Decl) : Program :=
  around [.module ⟨"a", [.entities (.integer none) [] [plainEntity "x" none] somewhere], [], somewhere⟩]
    [.main ⟨none, [.use "m" somewhere], [], [], somewhere⟩] ⟨"m", spec, [], somewhere⟩

theorem access_statement_moves_arrays :
    arrays.Declares "x" "m" ∧
      ((aroundArrays (arrays.early (isPrivate "x"))).resolve.findings.map ResolutionFinding.fault).Perm
        ((aroundArrays (arrays.late (isPrivate "x"))).resolve.findings.map ResolutionFinding.fault) ∧
      ∀ used, (aroundArrays (arrays.early (isPrivate "x"))).obtained used =
        (aroundArrays (arrays.late (isPrivate "x"))).obtained used :=
  have declares : arrays.Declares "x" "m" :=
    ⟨by decide, by decide +kernel, .entity rfl (by decide +kernel), by decide +kernel, by decide +kernel, by decide⟩
  ⟨declares, access_statement_moves _ _ ⟨"m", [], [], somewhere⟩ declares (by decide +kernel) rfl somewhere
    somewhere somewhere somewhere⟩

/-- In front of a derived type or a generic the statement makes an object that is left without a type, and the
name can be obtained. -/
theorem access_statement_spent_on_object :
    let type : Decl := .derivedType ⟨"t", none, false, [], [], somewhere⟩
    let generic : Decl := .interface ⟨.generic (.name "g"), [], [], somewhere⟩
    let module (spec : List Decl) : Program := around [] [] ⟨"m", spec, [], somewhere⟩
    let faults (spec : List Decl) := (module spec).resolve.findings.map ResolutionFinding.fault
    (faults [type, isPrivate "t"] = [] ∧ (module [type, isPrivate "t"]).obtained "m" = []) ∧
      (faults [isPrivate "t", type] = [.untyped "t"] ∧ (module [isPrivate "t", type]).obtained "m" = ["t"]) ∧
      (faults [generic, isPrivate "g"] = [] ∧ (module [generic, isPrivate "g"]).obtained "m" = []) ∧
      faults [isPrivate "g", generic] = [.untyped "g"] ∧ (module [isPrivate "g", generic]).obtained "m" = ["g"] := by
  decide +kernel

end Tree.Program

end FortranInterface
