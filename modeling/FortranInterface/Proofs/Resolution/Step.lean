import FortranInterface.Proofs.Resolution.Change

/-!
Computations of the resolver as steps between states. A computation is steady if all it does to the state
are changes; the rules here say how computations are put together from steady ones.
-/

namespace FortranInterface

open Resolution

variable {α β γ : Type} {mode : Mode} {state : Resolution}
variable {condition : Prop}

namespace Resolve

theorem run_bind (computation : Resolve α) (rest : α → Resolve β) (state : Resolution) :
    (computation >>= rest).run state = (rest (computation.run state).1).run (computation.run state).2 :=
  rfl

/-- From a state that is sited, a computation goes on step by step, quietly or not, and ends as the
postcondition says. -/
def Leads (mode : Mode) (state : Resolution) (computation : Resolve α)
    (post : α → Resolution → Prop) : Prop :=
  state.Sited mode.toSites → Evolves mode state (computation.run state).2 ∧
    post (computation.run state).1 (computation.run state).2

/-- A computation that can be made in every state. -/
def Steady (mode : Mode) (computation : Resolve α) : Prop :=
  ∀ state, Leads mode state computation fun _ _ => True

namespace Leads

variable {computation : Resolve α} {rest : α → Resolve β} {middle : α → Resolution → Prop}
  {post : β → Resolution → Prop}

theorem pure {value : α} {post : α → Resolution → Prop} (holds : post value state) :
    Leads mode state (Pure.pure value) post :=
  fun _ => ⟨.refl state, holds⟩

theorem sited {post : α → Resolution → Prop}
    (leads : state.Sited mode.toSites → Leads mode state computation post) : Leads mode state computation post :=
  fun sited => leads sited sited

theorem bind (first : Leads mode state computation middle)
    (second : ∀ value next, Evolves mode state next → middle value next → Leads mode next (rest value) post) :
    Leads mode state (computation >>= rest) post := by
  intro sited
  obtain ⟨evolves, holds⟩ := first sited
  obtain ⟨further, later⟩ := second _ _ evolves holds (evolves.sited sited)
  exact ⟨evolves.trans further, later⟩

section

variable (leads : Leads mode state computation middle)
include leads

theorem mono {weaker : α → Resolution → Prop}
    (implies : ∀ value next, Evolves mode state next → middle value next → weaker value next) :
    Leads mode state computation weaker :=
  fun sited => ⟨(leads sited).1, implies _ _ (leads sited).1 (leads sited).2⟩

theorem and {also : α → Resolution → Prop} (holds : also (computation.run state).1 (computation.run state).2) :
    Leads mode state computation fun value next => middle value next ∧ also value next :=
  fun sited => ⟨(leads sited).1, (leads sited).2, holds⟩

theorem steady : Leads mode state computation fun _ _ => True :=
  leads.mono fun _ _ _ _ => trivial

end

theorem ite [Decidable condition] {first second : Resolve β} (leadsFirst : condition → Leads mode state first post)
    (leadsSecond : ¬ condition → Leads mode state second post) :
    Leads mode state (if condition then first else second) post := by
  split
  next holds => exact leadsFirst holds
  next fails => exact leadsSecond fails

theorem get_bind {rest : Resolution → Resolve β} (second : Leads mode state (rest state) post) :
    Leads mode state (get >>= rest) post :=
  second

theorem table_bind {rest : Table → Resolve β} (second : Leads mode state (rest state.table) post) :
    Leads mode state (table >>= rest) post :=
  second

variable {step : α → Resolve PUnit}

theorem loop {values : List α} (invariant : Resolution → Prop) (holds : invariant state)
    (steps : ∀ value ∈ values, ∀ next, Evolves mode state next → invariant next →
      Leads mode next (step value) fun _ last => invariant last) :
    Leads mode state (values.forM step) fun _ next => invariant next := by
  induction values generalizing state with
  | nil => exact .pure holds
  | cons value values ih =>
    refine .bind (steps value (.head _) state (.refl state) holds) fun _ next evolves kept => ?_
    refine ih kept fun other member last later => ?_
    exact steps other (.tail _ member) last (evolves.trans later)

/-- What each step of a loop needs of its state has to follow from the state at the start. -/
theorem forM {values : List α}
    (steps : ∀ value ∈ values, ∀ next, Evolves mode state next → Leads mode next (step value) fun _ _ => True) :
    Leads mode state (values.forM step) fun _ _ => True :=
  .loop (fun _ => True) trivial fun value member next evolves _ => steps value member next evolves

theorem modify {change : Resolution → Resolution} {post : Unit → Resolution → Prop}
    (isChange : Change mode state (change state)) (holds : post () (change state)) :
    Leads mode state (modify change) post :=
  fun _ => ⟨.of_change isChange, holds⟩

theorem change {change : Table → Table} {post : Unit → Resolution → Prop}
    (isChange : Table.Change mode.toSites state.table (change state.table))
    (holds : post () { state with table := change state.table }) :
    Leads mode state (Resolve.change change) post :=
  modify (.table isChange) holds

theorem change_bind {change : Table → Table} {rest : Unit → Resolve β}
    (isChange : Table.Change mode.toSites state.table (change state.table))
    (second : ∀ next, Evolves mode state next → Leads mode next (rest ()) post) :
    Leads mode state (Resolve.change change >>= rest) post :=
  have changed : Leads mode state (Resolve.change change) fun _ _ => True := .change isChange trivial
  .bind changed fun _ next evolves _ => second next evolves

end Leads

namespace Steady

variable {computation : Resolve α} {rest : α → Resolve β}

theorem pure (value : α) : Steady mode (Pure.pure value : Resolve α) :=
  fun _ => .pure trivial

theorem bind (first : Steady mode computation) (second : ∀ value, Steady mode (rest value)) :
    Steady mode (computation >>= rest) :=
  fun state => (first state).bind fun value next _ _ => second value next

theorem get_bind {rest : Resolution → Resolve β}
    (second : ∀ state, state.Sited mode.toSites → Steady mode (rest state)) : Steady mode (get >>= rest) :=
  fun state sited => second state sited state sited

theorem table_bind {rest : Table → Resolve β}
    (second : ∀ table, table.Sited mode.toSites → Steady mode (rest table)) : Steady mode (table >>= rest) :=
  .get_bind fun state sited => second state.table sited.table

theorem modify {change : Resolution → Resolution}
    (isChange : ∀ state, Change mode state (change state)) : Steady mode (modify change) :=
  fun state => .modify (isChange state) trivial

theorem change {change : Table → Table} (isChange : ∀ table, Table.Change mode.toSites table (change table)) :
    Steady mode (Resolve.change change) :=
  fun _ => .change (isChange _) trivial

theorem changes {change : Table → Table}
    (areChanges : ∀ table, Relation.ReflTransGen (Table.Change mode.toSites) table (change table)) :
    Steady mode (Resolve.change change) := by
  have evolves (state : Resolution) (next : Table)
      (changes : Relation.ReflTransGen (Table.Change mode.toSites) state.table next) :
      Evolves mode state { state with table := next } := by
    induction changes with
    | refl => exact .refl state
    | tail _ change ih => exact ih.trans (.of_change (.table change))
  exact fun state _ => ⟨evolves state _ (areChanges state.table), trivial⟩

theorem map (mapping : α → β) (first : Steady mode computation) : Steady mode (mapping <$> computation) :=
  first.bind fun value => .pure (mapping value)

theorem ite [Decidable condition] {first second : Resolve α} (steadyFirst : Steady mode first)
    (steadySecond : Steady mode second) : Steady mode (if condition then first else second) :=
  fun state => .ite (fun _ => steadyFirst state) fun _ => steadySecond state

theorem forM {step : α → Resolve PUnit} {values : List α}
    (steady : ∀ value ∈ values, Steady mode (step value)) : Steady mode (values.forM step) :=
  fun _ => .forM fun value member next _ => steady value member next

theorem mapM {step : α → Resolve β} {values : List α} (steady : ∀ value ∈ values, Steady mode (step value)) :
    Steady mode (values.mapM step) := by
  induction values with
  | nil => exact .pure _
  | cons value values ih =>
    rw [List.mapM_cons]
    refine (steady value (.head _)).bind fun _ => ?_
    exact (ih fun other member => steady other (.tail _ member)).bind fun _ => .pure _

end Steady

def Keeps {γ : Type} (view : Resolution → γ) (computation : Resolve α) : Prop :=
  ∀ state, view (computation.run state).2 = view state

namespace Keeps

variable {γ : Type} {view : Resolution → γ} {computation : Resolve α} {rest : α → Resolve β}

theorem pure (value : α) : Keeps view (Pure.pure value) :=
  fun _ => rfl

theorem bind (first : Keeps view computation) (second : ∀ value, Keeps view (rest value)) :
    Keeps view (computation >>= rest) :=
  fun state => (second _ _).trans (first state)

theorem get : Keeps view get :=
  fun _ => rfl

theorem table : Keeps view table :=
  fun _ => rfl

theorem ite [Decidable condition] {first second : Resolve α} (keepsFirst : Keeps view first)
    (keepsSecond : Keeps view second) : Keeps view (if condition then first else second) := by
  split
  · exact keepsFirst
  · exact keepsSecond

theorem forM {step : α → Resolve PUnit} {values : List α} (keeps : ∀ value, Keeps view (step value)) :
    Keeps view (values.forM step) := by
  induction values with
  | nil => exact .pure _
  | cons value values ih => exact (keeps value).bind fun _ => ih

theorem mapM {step : α → Resolve β} {values : List α} (keeps : ∀ value, Keeps view (step value)) :
    Keeps view (values.mapM step) := by
  induction values with
  | nil => exact .pure _
  | cons value values ih =>
    rw [List.mapM_cons]
    exact (keeps value).bind fun _ => ih.bind fun _ => .pure _

end Keeps

variable {span : Span}

theorem steady_report {fault : ResolutionFault} (isSite : mode.site span)
    (found : mode.quiet = true → fault.isMissing = false) : Steady mode (report fault span) :=
  .modify fun state => .report state isSite found

theorem leads_note {change : Resolution → Resolution} (sameTable : (change state).table = state.table)
    (sameReferences : (change state).references = state.references)
    (sameFindings : (change state).findings = state.findings)
    (keeps : state.Sited mode.toSites → (change state).Sited mode.toSites)
    (sameWaiting : mode.quiet = true → (change state).pendingGenerics = state.pendingGenerics ∧
      (change state).pendingBindings = state.pendingBindings) :
    Leads mode state (modify change) fun _ next => next.table = state.table :=
  .modify (.note sameTable sameReferences sameFindings keeps sameWaiting) sameTable

theorem steady_note {change : Resolution → Resolution} (sameTable : ∀ state, (change state).table = state.table)
    (sameReferences : ∀ state, (change state).references = state.references)
    (sameFindings : ∀ state, (change state).findings = state.findings)
    (keeps : ∀ state : Resolution, state.Sited mode.toSites → (change state).Sited mode.toSites)
    (sameGenerics : ∀ state, (change state).pendingGenerics = state.pendingGenerics)
    (sameBindings : ∀ state, (change state).pendingBindings = state.pendingBindings) : Steady mode (modify change) :=
  fun state => (leads_note (sameTable state) (sameReferences state) (sameFindings state) (keeps state)
    fun _ => ⟨sameGenerics state, sameBindings state⟩).steady

variable {scope : ScopeId}

theorem leads_setImplicit {typing : ImplicitTyping} (sited : typing.Sited mode.toSites) :
    Leads mode state (setImplicit scope typing) fun _ next => next.table = state.table :=
  leads_note rfl rfl rfl
    (fun before => { before with implicit := List.forall_mem_cons.mpr ⟨sited, before.implicit⟩ })
    fun _ => ⟨rfl, rfl⟩

theorem steady_changeImplicit {change : ImplicitTyping → ImplicitTyping}
    (keeps : ∀ typing, typing.Sited mode.toSites → (change typing).Sited mode.toSites) :
    Steady mode (changeImplicit scope change) :=
  .get_bind fun _ sited _ => (leads_setImplicit (keeps _ (sited.implicitFor scope))).steady

structure Opened (table : Table) (inner outer : ScopeId) (next : Table) : Prop where
  index : inner.index = table.scopes.size
  bound : inner.index < next.scopes.size
  parent : (next.scope inner).parent = some outer
  others : ∀ other, other ≠ inner → next.scope other = table.scope other

theorem leads_addScope {kind : ScopeKind} {name : Option String} {parent : ScopeId} {symbol : Option SymbolId} :
    Leads mode state (addScope kind name parent symbol) fun inner next =>
      Opened state.table inner parent next.table := by
  refine fun _ => ⟨.of_change (.table (.scopes (Table.widens_addScope kind name parent symbol))), ?_⟩
  refine ⟨rfl, Nat.lt_of_lt_of_eq (Nat.lt_succ_self _) (Array.size_push _).symm, ?_, ?_⟩
  · exact congrArg Scope.parent ((Table.scope_addScope _ _ _ _ _ _).trans (if_pos rfl))
  · intro other apart
    refine (Table.scope_addScope _ _ _ _ _ _).trans (if_neg fun last => apart ?_)
    exact congrArg ScopeId.mk last

theorem steady_addScope (kind : ScopeKind) (name : Option String) (parent : ScopeId)
    (symbol : Option SymbolId) : Steady mode (addScope kind name parent symbol) :=
  fun _ => leads_addScope.steady

structure Extends (table next : Table) : Prop where
  size : table.symbols.size ≤ next.symbols.size
  details : ∀ id : SymbolId, id.index < table.symbols.size → next.details id = table.details id

namespace Extends

variable {table middle next : Table}

theorem of_symbols_eq (same : next.symbols = table.symbols) : Extends table next :=
  ⟨Nat.le_of_eq (congrArg Array.size same.symm), fun id _ => by simp [Table.details, Table.symbol, same]⟩

theorem trans (first : Extends table middle) (second : Extends middle next) : Extends table next := by
  refine ⟨Nat.le_trans first.size second.size, fun id bound => ?_⟩
  rw [second.details id (Nat.lt_of_lt_of_le bound first.size), first.details id bound]

theorem isObject (extension : Extends table next) {id : SymbolId}
    (isObject : (table.details id).isObject = true) : (next.details id).isObject = true := by
  have bound := Table.lt_size_of_isArgument (Table.isArgument_of_isObject isObject)
  rwa [extension.details id bound]

end Extends

structure Added (table : Table) (id : SymbolId) (details : Details) (next : Table) : Prop where
  index : id.index = table.symbols.size
  bound : id.index < next.symbols.size
  details : next.details id = details
  others : Extends table next

theorem leads_addSymbol {name : String} {attributes : Attributes} {details : Details} (isSite : mode.site span)
    (fresh : state.table.Fresh details) :
    Leads mode state (addSymbol scope name attributes details span) fun id next =>
      Added state.table id details next.table := by
  let added : Symbol := ⟨name.toLower, attributes, .empty, details, scope, span⟩
  let larger : Table := { state.table with symbols := state.table.symbols.push added }
  have size : larger.symbols.size = state.table.symbols.size + 1 := Array.size_push added
  have pushed : ∀ id, larger.details id =
      if id.index = state.table.symbols.size then details else state.table.details id :=
    state.table.details_push added
  have grows : Change mode state { state with table := larger } := .table (.add fresh isSite)
  have names : larger.Widens (larger.bindName scope name ⟨state.table.symbols.size⟩) :=
    Table.widens_bindName _ _ _
  refine fun _ => ⟨(Evolves.of_change grows).trans (.of_change (.table (.scopes names))), rfl, ?_, ?_, ?_, ?_⟩
  · exact Nat.lt_of_lt_of_eq (Nat.lt_succ_self _) size.symm
  · exact (pushed ⟨_⟩).trans (if_pos rfl)
  · exact Nat.le_of_lt (Nat.lt_of_lt_of_eq (Nat.lt_succ_self _) size.symm)
  · exact fun id bound => (pushed id).trans (if_neg (Nat.ne_of_lt bound))

theorem steady_addSymbol {name : String} {attributes : Attributes} {details : Details} (isSite : mode.site span)
    (fresh : ∀ table, Table.Fresh table details) : Steady mode (addSymbol scope name attributes details span) :=
  fun state => (leads_addSymbol isSite (fresh state.table)).steady

theorem steady_addUsage (id : SymbolId) (usage : Usage) : Steady mode (change fun table => table.addUsage id usage) :=
  .change fun table => .addUsage table id usage

theorem leads_refer {reference : Reference} (sited : reference.Sited mode.toSites)
    (isProcedure : ∀ id, reference.callee = .symbol id → (state.table.details id).isProcedure = true) :
    Leads mode state (refer reference) fun _ _ => True :=
  .modify (.refer isProcedure sited) trivial

theorem leads_becomeProcedure (id : SymbolId) :
    Leads mode state (becomeProcedure id) fun _ next =>
      ∀ object, state.table.details id = .object object → object.isArray = false →
        (next.table.details id).isProcedure = true := by
  unfold becomeProcedure
  refine .change ?_ ?_
  · split
    next object isObject =>
      split
      · exact .same _
      · exact .setDetails isObject (.procedure _ fun interface impossible => by cases impossible)
    · exact .same _
  · intro object isObject scalar
    have bound := Table.lt_size_of_object isObject
    simp [isObject, scalar, Table.setDetails, Table.details_modifySymbol, bound, Details.isProcedure]

theorem steady_becomeProcedure (id : SymbolId) : Steady mode (becomeProcedure id) :=
  fun _ => (leads_becomeProcedure id).steady

end Resolve

namespace Attempt

open Resolve

def Steady (mode : Mode) (attempt : Attempt α) : Prop :=
  Resolve.Steady mode attempt.run

def Gives (mode : Mode) (attempt : Attempt α) (good : α → Prop) : Prop :=
  ∀ state, Leads mode state attempt.run fun result _ => ∀ value ∈ result, good value

def Tries (mode : Mode) (state : Resolution) (attempt : Attempt α)
    (post : α → Resolution → Prop) : Prop :=
  Leads mode state attempt.run fun result next => ∀ value, result = some value → post value next

namespace Tries

variable {attempt : Attempt α} {rest : α → Attempt β} {middle : α → Resolution → Prop}
  {post : β → Resolution → Prop}

theorem pure {value : α} {post : α → Resolution → Prop} (holds : post value state) :
    Tries mode state (Pure.pure value) post :=
  Leads.pure fun _ same => Option.some_inj.mp same ▸ holds

theorem bind (first : Tries mode state attempt middle)
    (second : ∀ value next, Evolves mode state next → middle value next → Tries mode next (rest value) post) :
    Tries mode state (attempt >>= rest) post := by
  rw [Tries, OptionT.run_bind]
  refine Leads.bind first fun result next evolves holds => ?_
  cases result with
  | none => exact .pure fun _ impossible => by simp at impossible
  | some value => exact second value next evolves (holds value rfl)

theorem lift {computation : Resolve α} {post : α → Resolution → Prop}
    (leads : Leads mode state computation post) : Tries mode state (liftM computation) post :=
  Leads.bind leads fun _ _ _ holds => .pure fun _ same => Option.some_inj.mp same ▸ holds

theorem table_bind {rest : Table → Attempt β} (second : Tries mode state (rest state.table) post) :
    Tries mode state (liftM Resolve.table >>= rest) post :=
  second

theorem ite [Decidable condition] {first second : Attempt β} (triesFirst : condition → Tries mode state first post)
    (triesSecond : ¬ condition → Tries mode state second post) :
    Tries mode state (if condition then first else second) post := by
  split
  next holds => exact triesFirst holds
  next fails => exact triesSecond fails

theorem failure : Tries mode state (failure : Attempt β) post :=
  Leads.pure fun _ impossible => by cases impossible

theorem fail {fault : ResolutionFault} {span : Span} (isSite : mode.site span)
    (found : mode.quiet = true → fault.isMissing = false) : Tries mode state (fail fault span) post :=
  .bind (.lift (steady_report isSite found state)) fun _ _ _ _ => .failure

end Tries

namespace Steady

variable {attempt : Attempt α} {rest : α → Attempt β}

theorem tries (steady : Steady mode attempt) (state : Resolution) : Tries mode state attempt fun _ _ => True :=
  (steady state).mono fun _ _ _ _ _ _ => trivial

theorem of_tries (tries : ∀ state, Tries mode state attempt fun _ _ => True) : Steady mode attempt :=
  fun state => (tries state).steady

theorem pure (value : α) : Steady mode (Pure.pure value : Attempt α) :=
  Resolve.Steady.pure _

theorem bind (first : Steady mode attempt) (second : ∀ value, Steady mode (rest value)) :
    Steady mode (attempt >>= rest) :=
  of_tries fun state => (first.tries state).bind fun value next _ _ => (second value).tries next

theorem lift {computation : Resolve α} (steady : Resolve.Steady mode computation) : Steady mode (liftM computation) :=
  of_tries fun state => .lift (steady state)

theorem get_bind {rest : Resolution → Attempt β}
    (second : ∀ state, state.Sited mode.toSites → Steady mode (rest state)) : Steady mode (get >>= rest) :=
  fun state sited => second state sited state sited

theorem table_bind {rest : Table → Attempt β} (second : ∀ table, table.Sited mode.toSites → Steady mode (rest table)) :
    Steady mode (liftM Resolve.table >>= rest) :=
  fun state sited => second state.table sited.table state sited

theorem failure : Steady mode (failure : Attempt α) :=
  Resolve.Steady.pure _

theorem fail {fault : ResolutionFault} {span : Span} (isSite : mode.site span)
    (found : mode.quiet = true → fault.isMissing = false) : Steady mode (fail fault span : Attempt α) :=
  .bind (.lift (steady_report isSite found)) fun _ => .failure

theorem map (mapping : α → β) (steady : Steady mode attempt) : Steady mode (mapping <$> attempt) :=
  .bind steady fun value => .pure (mapping value)

theorem ite [Decidable condition] {first second : Attempt α} (steadyFirst : Steady mode first)
    (steadySecond : Steady mode second) : Steady mode (if condition then first else second) :=
  Resolve.Steady.ite steadyFirst steadySecond

theorem both {other : Attempt β} (steady : Steady mode attempt) (steadyOther : Steady mode other) :
    Steady mode (both attempt other) :=
  Resolve.Steady.bind steady fun _ => Resolve.Steady.bind steadyOther fun _ => .pure _

theorem settle (steady : Steady mode attempt) : Steady mode (settle attempt) :=
  .lift steady

end Steady

namespace Gives

variable {attempt : Attempt α} {good : α → Prop}

theorem tries (gives : Gives mode attempt good) (state : Resolution) :
    Tries mode state attempt fun value _ => good value :=
  gives state

theorem pure {value : α} (holds : good value) : Gives mode (Pure.pure value) good :=
  fun _ => Tries.pure holds

theorem bind {rest : α → Attempt β} (gives : Gives mode attempt good)
    (second : ∀ value, good value → Steady mode (rest value)) : Steady mode (attempt >>= rest) :=
  .of_tries fun state => (gives.tries state).bind fun value next _ holds => (second value holds).tries next

theorem both_bind {other : Attempt β} {rest : β × α → Attempt γ} {last : γ → Prop} (first : Steady mode other)
    (gives : Gives mode attempt good) (second : ∀ value result, good result → Gives mode (rest (value, result)) last) :
    Gives mode (both other attempt >>= rest) last := by
  have pairs (state : Resolution) : Tries mode state (both other attempt) fun pair _ => good pair.2 := by
    refine Leads.bind (first state) fun left next _ _ => Leads.bind (gives next) fun right _ _ holds => .pure ?_
    cases left with
    | none => exact fun _ impossible => by cases impossible
    | some left =>
      cases right with
      | none => exact fun _ impossible => by cases impossible
      | some right => exact fun _ isPair => Option.some.inj isPair ▸ holds right rfl
  exact fun state => Tries.bind (pairs state) fun pair next _ holds => second pair.1 pair.2 holds next

end Gives

end Attempt

end FortranInterface
