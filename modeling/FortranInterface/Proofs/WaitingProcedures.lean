import FortranInterface.Proofs.ResolvedProcedures

/-!
Generic interfaces and bindings name procedures that may be declared later, so they wait until the
subprograms of their scoping unit are declared. An interface body ends a specification part of its own,
and with it all that waits is looked up. If no interface body stands behind a declaration that waits, all
contained procedures are found.
-/

namespace FortranInterface

open Resolution

namespace Tree

def listed (names : List String) (name : String) : Bool :=
  (names.map String.toLower).contains name.toLower

def Decl.hasBodies : Decl → Bool
  | .interface block => !block.bodies.isEmpty
  | _ => false

def Decl.waits : Decl → Bool
  | .interface ⟨.generic _, _, names, _⟩ => !names.isEmpty
  | .derivedType type => !type.bindings.isEmpty
  | _ => false

/-- Specific procedures of a generic are among those that can be seen, and bindings are to subprograms of
the unit itself. Nothing else in an interface body or a type waits. -/
def Decl.isResolvable (own seen : List String) : Decl → Bool
  | .interface ⟨.unnamed, bodies, _, _⟩ => bodiesSettled bodies
  | .interface ⟨.abstract, bodies, _, _⟩ => bodiesSettled bodies
  | .interface ⟨.generic _, bodies, names, _⟩ =>
    bodiesSettled bodies && names.all fun name => listed seen name.name
  | .derivedType ⟨_, _, _, components, bindings, _⟩ =>
    components.all Decl.isSimple && bindings.all fun binding => binding.target?.all (listed own)
  | _ => true

def bodiesInFront : List Decl → Bool
  | [] => true
  | first :: rest => (!first.waits || rest.all fun later => !later.hasBodies) && bodiesInFront rest

def specIsOrderly (own seen : List String) (spec : List Decl) : Bool :=
  spec.all (Decl.isResolvable own seen) && bodiesInFront spec

mutual

/-- A subprogram, inside units with other subprograms, whose declarations can be resolved in order. -/
def Subprogram.isOrderly (hosts : List String) : Subprogram → Bool
  | ⟨_, _, _, _, _, spec, _, contains, _⟩ =>
    let own := contains.map Subprogram.name
    specIsOrderly own (own ++ hosts) spec && areOrderly (own ++ hosts) contains

def areOrderly (seen : List String) : List Subprogram → Bool
  | [] => true
  | first :: rest => first.isOrderly seen && areOrderly seen rest

end

def unitIsOrderly (spec : List Decl) (contains : List Subprogram) : Bool :=
  let own := contains.map Subprogram.name
  specIsOrderly own (own ++ []) spec && areOrderly (own ++ []) contains

def ProgramUnit.isOrderly : ProgramUnit → Bool
  | .module unit => unitIsOrderly unit.spec unit.contains
  | .main unit => unitIsOrderly unit.spec unit.contains
  | .subprogram external => external.isOrderly []

end Tree

namespace Resolve

variable {scope : ScopeId} {own seen : List String} {state next : Resolution}
variable {α : Type} {computation : Resolve α} {post : α → Resolution → Prop}

theorem Leads.loudly (leads : Leads (.anywhere true) state computation post) :
    Leads (.anywhere false) state computation fun value next => post value next ∧ Evolves (.anywhere true) state next :=
  fun _ =>
    have ⟨evolves, holds⟩ := leads (Mode.anywhere.state state)
    ⟨evolves.loud, holds, evolves⟩

structure Settled (state : Resolution) : Prop where
  tidy : state.Tidy
  idle : state.Idle

theorem Settled.of_evolves (settled : Settled state) (evolves : Evolves (.anywhere true) state next) : Settled next :=
  ⟨evolves.tidy rfl settled.tidy, evolves.idle rfl settled.idle⟩

theorem Leads.settled (leads : Leads (.anywhere true) state computation post) (settled : Settled state) :
    Leads (.anywhere false) state computation fun value next => post value next ∧ Settled next :=
  leads.loudly.mono fun _ _ _ holds => ⟨holds.1, settled.of_evolves holds.2⟩

/-! While the specification part of a scope is declared. -/

/-- All that waits is of one scope, and names procedures that this scope will have or see. -/
structure Waiting (scope : ScopeId) (own seen : List String) (state : Resolution) : Prop where
  tidy : state.Tidy
  generics : ∀ pending ∈ state.pendingGenerics, pending.scope = scope ∧
    ∀ name ∈ pending.names, Tree.listed seen name.name = true
  bindings : ∀ pending ∈ state.pendingBindings, pending.scope = scope ∧ scope ≠ pending.typeScope ∧
    ∀ binding ∈ pending.bindings, ∀ target, binding.target? = some target → Tree.listed own target = true

namespace Waiting

theorem of_settled (settled : Settled state) : Waiting scope own seen state := by
  refine ⟨settled.tidy, ?_, ?_⟩
  · rw [settled.idle.generics]
    exact nofun
  · rw [settled.idle.bindings]
    exact nofun

theorem of_evolves (waiting : Waiting scope own seen state) (evolves : Evolves (.anywhere true) state next) :
    Waiting scope own seen next := by
  refine ⟨evolves.tidy rfl waiting.tidy, ?_, ?_⟩
  · rw [(evolves.waiting rfl).1]
    exact waiting.generics
  · rw [(evolves.waiting rfl).2]
    exact waiting.bindings

end Waiting

structure Awaits (scope : ScopeId) (own seen : List String) (waits : Bool) (state next : Resolution) :
    Prop where
  waiting : Waiting scope own seen next
  idle : waits = false → state.Idle → next.Idle

theorem Awaits.of_evolves {waits : Bool} (waiting : Waiting scope own seen state)
    (evolves : Evolves (.anywhere true) state next) : Awaits scope own seen waits state next :=
  ⟨waiting.of_evolves evolves, fun _ => evolves.idle rfl⟩

theorem leads_quietBodies {isAbstract : Bool} {bodies : List Tree.Subprogram}
    (settled : Tree.bodiesSettled bodies = true) (ready : bodies.isEmpty = false → state.Idle) :
    Leads (.anywhere true) state (interfaceBodies scope isAbstract bodies) fun _ _ => True := by
  cases bodies with
  | nil =>
    rw [interfaceBodies]
    exact .pure trivial
  | cons =>
    exact leads_interfaceBodies state scope isAbstract _ (Mode.anywhere.subprograms _) fun _ =>
      ⟨settled, ready rfl⟩

theorem leads_waitingGeneric {spec : Tree.GenericSpec} {generic : SymbolId}
    {specifics : List SymbolId} {names : List Tree.Located} (waiting : Waiting scope own seen state)
    (known : names.all (fun name => Tree.listed seen name.name) = true) :
    Leads (.anywhere false) state (closeGeneric scope spec generic specifics names) fun _ next =>
      Awaits scope own seen (!names.isEmpty) state next := by
  have bound : Leads (.anywhere true) state (change fun table => table.bindName scope spec.key generic)
      fun _ _ => True := .change (.scopes (Table.widens_bindName _ _ _)) trivial
  refine .bind bound.loudly fun _ first _ toFirst => ?_
  refine .bind leads_addSpecifics.loudly fun _ second _ toSecond => ?_
  have quietly := toFirst.2.trans toSecond.2
  refine .ite (fun isWaiting => ?_) fun _ => ?_
  · refine .modify (.note rfl rfl rfl (fun _ => Mode.anywhere.state _) nofun) ⟨?_, fun settled => ?_⟩
    case refine_2 => simp [settled] at isWaiting
    have before := waiting.of_evolves quietly
    refine ⟨before.tidy, fun pending member => ?_, before.bindings⟩
    rcases List.mem_append.mp member with earlier | added
    · exact before.generics pending earlier
    · obtain rfl := List.mem_singleton.mp added
      exact ⟨rfl, List.all_eq_true.mp known⟩
  · exact .pure (.of_evolves waiting quietly)

theorem steady_simpleDeclarations {decls : List Tree.Decl}
    (simple : decls.all Tree.Decl.isSimple = true) : Steady (.anywhere true) (declarations scope decls) := by
  induction decls with
  | nil =>
    rw [declarations]
    exact .pure _
  | cons first rest ih =>
    rw [declarations]
    rw [List.all_cons, Bool.and_eq_true] at simple
    exact .bind (steady_simpleDeclaration simple.1 (Mode.anywhere.decl _)) fun _ => ih simple.2

variable {name : String} {spec : List Tree.Decl}

section

variable (waiting : Waiting scope own seen state)
include waiting

variable (isHost : scope.index < state.table.scopes.size)
include isHost

theorem leads_waitingType {parent : Option String} {isAbstract : Bool} {components : List Tree.Decl}
    {bindings : List Tree.Binding} {span : Span} (simple : components.all Tree.Decl.isSimple = true)
    (known : bindings.all (fun binding => binding.target?.all (Tree.listed own)) = true) :
    Leads (.anywhere false) state
      (declaration scope (.derivedType ⟨name, parent, isAbstract, components, bindings, span⟩))
      fun _ next => Awaits scope own seen (!bindings.isEmpty) state next := by
  rw [declaration]
  refine .bind (steady_parentType trivial state).loudly fun parent first _ toFirst => ?_
  refine .bind (leads_addSymbol trivial (.derivedType _)).loudly fun id second _ toSecond => ?_
  refine .bind leads_addScope.loudly fun typeScope third _ toThird => .table_bind ?_
  refine .bind (steady_simpleDeclarations simple third).loudly fun _ fourth _ toFourth => .table_bind ?_
  refine .bind (steady_setTypeParts fourth).loudly fun _ fifth _ toFifth => ?_
  have toThere := toFirst.2.trans toSecond.2
  have quietly := ((toThere.trans toThird.2).trans toFourth.2).trans toFifth.2
  have apart : scope ≠ typeScope := by
    intro same
    have bound := Nat.lt_of_lt_of_le isHost toThere.widens.size
    rw [← toThird.1.index, same] at bound
    exact Nat.lt_irrefl _ bound
  refine .ite (fun isWaiting => ?_) fun _ => ?_
  · refine .modify (.note rfl rfl rfl (fun _ => Mode.anywhere.state _) nofun) ⟨?_, fun settled => ?_⟩
    case refine_2 => simp [settled] at isWaiting
    have before := waiting.of_evolves quietly
    refine ⟨before.tidy, before.generics, fun pending member => ?_⟩
    rcases List.mem_append.mp member with earlier | added
    · exact before.bindings pending earlier
    · obtain rfl := List.mem_singleton.mp added
      refine ⟨rfl, apart, fun binding bound target isTarget => ?_⟩
      simpa [isTarget] using List.all_eq_true.mp known binding bound
  · exact .pure (.of_evolves waiting quietly)

theorem leads_waiting {decl : Tree.Decl} (resolvable : decl.isResolvable own seen = true)
    (ready : decl.hasBodies = true → state.Idle) :
    Leads (.anywhere false) state (declaration scope decl) fun _ next =>
      Awaits scope own seen decl.waits state next := by
  cases decl with
  | interface block =>
    obtain ⟨kind, bodies, names, span⟩ := block
    have idle (given : bodies.isEmpty = false) : state.Idle :=
      ready (by simp [Tree.Decl.hasBodies, given])
    cases kind with
    | unnamed | abstract =>
      rw [declaration]
      rw [Tree.Decl.isResolvable] at resolvable
      exact .bind (leads_quietBodies resolvable idle).loudly fun _ next _ quietly =>
        .pure (.of_evolves waiting quietly.2)
    | generic spec =>
      rw [declaration]
      rw [Tree.Decl.isResolvable, Bool.and_eq_true] at resolvable
      refine .bind (steady_genericSymbol trivial state).loudly fun generic first _ toFirst => ?_
      have ready := fun given => toFirst.2.idle rfl (idle given)
      refine .bind (leads_quietBodies resolvable.1 ready).loudly fun specifics second _ toSecond => ?_
      have quietly := toFirst.2.trans toSecond.2
      refine (leads_waitingGeneric (waiting.of_evolves quietly) resolvable.2).mono ?_
      exact fun _ next _ awaits => ⟨awaits.waiting, fun settled isIdle =>
        awaits.idle settled (quietly.idle rfl isIdle)⟩
  | derivedType definition =>
    obtain ⟨name, parent, isAbstract, components, bindings, span⟩ := definition
    rw [Tree.Decl.isResolvable, Bool.and_eq_true] at resolvable
    exact leads_waitingType waiting isHost resolvable.1 resolvable.2
  | use | implicitNone | implicit | entities | attributes | procedure =>
    exact (steady_simpleDeclaration rfl (Mode.anywhere.decl _) state).loudly.mono fun _ _ _ quietly =>
      .of_evolves waiting quietly.2

theorem leads_waitingDeclarations (resolvable : spec.all (Tree.Decl.isResolvable own seen) = true)
    (inFront : Tree.bodiesInFront spec = true) (ready : state.Idle ∨ spec.all (fun decl => !decl.hasBodies) = true) :
    Leads (.anywhere false) state (declarations scope spec) fun _ next => Waiting scope own seen next := by
  induction spec generalizing state with
  | nil =>
    rw [declarations]
    exact .pure waiting
  | cons first rest ih =>
    rw [declarations]
    rw [List.all_cons, Bool.and_eq_true] at resolvable
    rw [Tree.bodiesInFront, Bool.and_eq_true] at inFront
    have idle (hasBodies : first.hasBodies = true) : state.Idle :=
      ready.resolve_right fun without => by simp [hasBodies] at without
    refine .bind (leads_waiting waiting isHost resolvable.1 idle) fun _ next evolves awaits => ?_
    refine ih awaits.waiting (Nat.lt_of_lt_of_le isHost evolves.widens.size) resolvable.2 inFront.2 ?_
    -- Either the declaration adds nothing that waits, or no interface body comes later.
    cases waits : first.waits with
    | true => exact .inr (by simpa [waits] using inFront.1)
    | false =>
      refine ready.imp (awaits.idle waits) fun without => ?_
      rw [List.all_cons, Bool.and_eq_true] at without
      exact without.2

end

/-! When the subprograms of a scope are declared. -/

/-- A scope of a program unit that sees procedures of some names. -/
structure Sees (scope : ScopeId) (names : List String) (table : Table) : Prop where
  inner : scope ≠ Table.global
  bound : scope.index < table.scopes.size
  visible : ∀ name, Tree.listed names name = true → table.visible? scope name ≠ none

namespace Sees

variable {names : List String} {table : Table} {inner : ScopeId}

theorem of_widens {next : Table} (sees : Sees scope names table) (widens : table.Widens next) : Sees scope names next :=
  ⟨sees.inner, Nat.lt_of_lt_of_le sees.bound widens.size, fun name isListed =>
    Table.visible?_ne_none_of_widens widens sees.bound (sees.visible name isListed)⟩

theorem of_inside (sees : Sees scope names table) (inside : table.Inside scope inner) : Sees inner names table := by
  refine ⟨inside.ne_global, inside.bound, fun name isListed => ?_⟩
  exact inside.visible?_ne_none (sees.visible name isListed)

end Sees

theorem listed_iff {names : List String} :
    Tree.listed names name = true ↔ ∃ other ∈ names, other.toLower = name.toLower := by
  simp [Tree.listed]

variable {table : Table}

theorem offers_of_listed {names : List String} (offers : ∀ other ∈ names, table.Offers scope other)
    (isListed : Tree.listed names name = true) : table.Offers scope name := by
  obtain ⟨other, member, same⟩ := listed_iff.mp isListed
  obtain ⟨id, isFound, isProcedure⟩ := offers other member
  refine ⟨id, ?_, isProcedure⟩
  rwa [Scope.find?, ← same]

variable {contains : List Tree.Subprogram}

theorem leads_contained (isHost : scope.index < state.table.scopes.size) :
    Leads (.anywhere true) state (contains.mapM fun child => Prod.snd <$> declareSubprogram scope child .contained)
      fun children next => (∀ child ∈ children, next.table.Inside scope child) ∧
        (∀ child ∈ contains, next.table.Offers scope child.name) ∧
        ∀ name, state.table.Offers scope name → next.table.Offers scope name := by
  induction contains generalizing state with
  | nil => exact .pure ⟨nofun, nofun, fun _ => id⟩
  | cons child rest ih =>
    rw [List.mapM_cons]
    have declared : Leads (.anywhere true) state (Prod.snd <$> declareSubprogram scope child .contained)
        fun inner next => Declared scope child.name inner state.table next.table :=
      .bind (leads_declareSubprogram (Mode.anywhere.subprogram _)) fun _ _ _ declared => .pure (declared isHost)
    refine .bind declared fun inner middle evolves made => ?_
    refine .bind (ih (Nat.lt_of_lt_of_le isHost evolves.widens.size)) ?_
    rintro children next further ⟨inside, offers, kept⟩
    refine .pure ⟨?_, ?_, fun name offered => kept name (made.others name offered)⟩
    · exact List.forall_mem_cons.mpr ⟨made.inside.of_widens further.widens, inside⟩
    · exact List.forall_mem_cons.mpr ⟨kept child.name made.offers, offers⟩

theorem leads_resolveWaiting (waiting : Waiting scope own seen state)
    (sees : Sees scope seen state.table) (offers : ∀ name ∈ own, state.table.Offers scope name) :
    Leads (.anywhere false) state resolvePending fun _ next => Settled next := by
  have taken : Leads (.anywhere false) state (modify fun state => { state with pendingGenerics := [] })
      fun _ next => next = { state with pendingGenerics := [] } :=
    .modify (.note rfl rfl rfl (fun _ => Mode.anywhere.state _) nofun) rfl
  refine .get_bind (.bind taken fun _ first _ isFirst => ?_)
  have known : ∀ pending ∈ state.pendingGenerics, ∀ name ∈ pending.names,
      first.table.visible? pending.scope name.name ≠ none := by
    intro pending member name named
    obtain ⟨rfl, listed⟩ := waiting.generics pending member
    rw [isFirst]
    exact sees.visible name.name (listed name named)
  refine .bind (leads_resolveGenerics (fun _ _ _ _ => trivial) fun _ => known).loudly ?_
  refine fun _ second _ resolved => .get_bind ?_
  obtain ⟨sameScopes, quietly⟩ := resolved
  have sameWaiting := quietly.waiting rfl
  subst isFirst
  have taken : Leads (.anywhere false) second (modify fun state => { state with pendingBindings := [] })
      fun _ next => next = { second with pendingBindings := [] } :=
    .modify (.note rfl rfl rfl (fun _ => Mode.anywhere.state _) nofun) rfl
  refine .bind taken fun _ third _ isThird => ?_
  have bindable : Bindable second.pendingBindings third.table := by
    rw [isThird, sameWaiting.2]
    refine ⟨fun pending member binding bound target isTarget => ?_, fun pending member => ?_, ?_⟩
    · obtain ⟨rfl, -, listed⟩ := waiting.bindings pending member
      obtain ⟨id, named, isProcedure⟩ :=
        offers_of_listed offers (listed binding bound target isTarget)
      refine ⟨id, ?_, quietly.isProcedure isProcedure⟩
      rwa [Table.scope, sameScopes]
    · rw [(waiting.bindings pending member).1]
      exact sees.inner
    · intro pending member other isOther
      rw [(waiting.bindings other isOther).1]
      exact (waiting.bindings pending member).2.1
  refine (leads_declareBindings (fun _ _ _ _ => Mode.anywhere.binding _) fun _ => bindable).loudly.mono ?_
  intro _ last _ further
  have tidy : third.Tidy := by
    rw [isThird]
    exact quietly.tidy rfl waiting.tidy
  have idle : third.Idle := by
    rw [isThird]
    exact ⟨sameWaiting.1, rfl⟩
  exact ⟨further.2.tidy rfl tidy, further.2.idle rfl idle⟩

/-! Program units. -/

theorem Sees.append {hosts : List String} (sees : Sees scope hosts table)
    (offers : ∀ name ∈ own, table.Offers scope name) : Sees scope (own ++ hosts) table := by
  refine ⟨sees.inner, sees.bound, fun name isListed => ?_⟩
  rw [Tree.listed, List.map_append, List.contains_append, Bool.or_eq_true] at isListed
  rcases isListed with isOwn | isHosts
  · obtain ⟨id, named, -⟩ := offers_of_listed offers isOwn
    rw [Table.visible?_of_find? sees.inner named]
    exact Option.some_ne_none id
  · exact sees.visible name isHosts

theorem leads_openUnit {body : List Tree.Stmt} {header : Option Tree.Subprogram} {hosts : List String}
    (settled : Settled state) (sees : Sees scope hosts state.table) (isOwn : own = contains.map Tree.Subprogram.name)
    (orderly : Tree.specIsOrderly own (own ++ hosts) spec = true) :
    Leads (.anywhere false) state (openUnit scope spec contains body header) fun children next =>
      Settled next ∧ ∀ child ∈ children, Sees child (own ++ hosts) next.table := by
  rw [Tree.specIsOrderly, Bool.and_eq_true] at orderly
  have declared := leads_waitingDeclarations (.of_settled settled) sees.bound orderly.1 orderly.2 (.inl settled.idle)
  refine .bind declared fun _ first toFirst waiting => ?_
  have typed : Leads (.anywhere true) first (header.forM (typeResult scope)) fun _ _ => True := by
    cases header with
    | none => exact .pure trivial
    | some => exact steady_typeResult (Mode.anywhere.subprogram _) first
  refine .bind typed.loudly fun _ second toSecond typed => ?_
  have isHost := (sees.of_widens (toFirst.trans toSecond).widens).bound
  refine .bind (leads_contained isHost).loudly fun children third toThird made => ?_
  obtain ⟨⟨inside, offers, -⟩, quietly⟩ := made
  have seesHosts := sees.of_widens ((toFirst.trans toSecond).trans toThird).widens
  have offersOwn : ∀ name ∈ own, third.table.Offers scope name := by
    simpa [isOwn] using offers
  have seesAll := seesHosts.append offersOwn
  have waitingThird := (waiting.of_evolves typed.2).of_evolves quietly
  have closed : Leads (.anywhere false) third (closeSpecification scope) fun _ next => True ∧ Settled next :=
    .bind (leads_resolveWaiting waitingThird seesAll offersOwn) fun _ fourth _ settledFourth =>
      (steady_applyImplicitTypes fourth).settled settledFourth
  refine .bind closed fun _ last toLast settledLast => ?_
  have seen : ∀ child ∈ children, Sees child (own ++ hosts) last.table := fun child member =>
    (seesAll.of_inside (inside child member)).of_widens toLast.widens
  refine .ite (fun _ => ?_) fun _ => .pure ⟨settledLast.2, seen⟩
  refine .bind ((leads_note rfl rfl rfl (fun _ => Mode.anywhere.state _) fun _ => ⟨rfl, rfl⟩).settled settledLast.2) ?_
  exact fun _ next _ noted => .pure ⟨noted.2, noted.1 ▸ seen⟩

mutual

theorem leads_subprogramUnit (state : Resolution) (scope : ScopeId) (hosts : List String) :
    (subprogram : Tree.Subprogram) → Settled state → Sees scope hosts state.table →
    subprogram.isOrderly hosts = true →
    Leads (.anywhere false) state (subprogramUnit scope subprogram) fun _ next => Settled next
  | ⟨_, _, _, _, _, _, _, contains, _⟩, settled, sees, orderly => by
    rw [Tree.Subprogram.isOrderly, Bool.and_eq_true] at orderly
    rw [subprogramUnit]
    refine .bind (leads_openUnit settled sees rfl orderly.1) fun children next _ opened => ?_
    exact leads_subprogramUnits next _ children contains opened.1 opened.2 orderly.2

theorem leads_subprogramUnits (state : Resolution) (seen : List String) :
    (scopes : List ScopeId) → (subprograms : List Tree.Subprogram) → Settled state →
    (∀ scope ∈ scopes, Sees scope seen state.table) → Tree.areOrderly seen subprograms = true →
    Leads (.anywhere false) state (subprogramUnits scopes subprograms) fun _ next => Settled next
  | scope :: scopes, first :: rest, settled, sees, orderly => by
    rw [Tree.areOrderly, Bool.and_eq_true] at orderly
    rw [subprogramUnits]
    refine .bind (leads_subprogramUnit state scope seen first settled (sees scope (.head _)) orderly.1) ?_
    intro _ next evolves settledNext
    refine leads_subprogramUnits next seen scopes rest settledNext (fun other member => ?_) orderly.2
    exact (sees other (.tail _ member)).of_widens evolves.widens
  | [], _, settled, _, _ => by
    unfold subprogramUnits
    exact .pure settled
  | _ :: _, [], settled, _, _ => by
    unfold subprogramUnits
    exact .pure settled

end

structure Ready (state : Resolution) : Prop where
  settled : Settled state
  global : Table.global.index < state.table.scopes.size

theorem sees_of_inside {outer : ScopeId} (inside : table.Inside outer scope) : Sees scope [] table :=
  ⟨inside.ne_global, inside.bound, fun _ isListed => by simp [Tree.listed] at isListed⟩

theorem leads_unit {body : List Tree.Stmt} (settled : Settled state) (sees : Sees scope [] state.table)
    (orderly : Tree.unitIsOrderly spec contains = true) :
    Leads (.anywhere false) state
      (do
        let children ← openUnit scope spec contains body none
        subprogramUnits children contains) fun _ next => Settled next := by
  rw [Tree.unitIsOrderly, Bool.and_eq_true] at orderly
  refine .bind (leads_openUnit settled sees rfl orderly.1) fun children next _ opened => ?_
  exact leads_subprogramUnits next _ children contains opened.1 opened.2 orderly.2

theorem leads_programUnit {unit : Tree.ProgramUnit} (ready : Ready state) (orderly : unit.isOrderly = true) :
    Leads (.anywhere false) state (programUnit unit) fun _ next => Settled next := by
  cases unit with
  | module unit =>
    have fresh (scope : ScopeId) (table : Table) : table.Fresh (.module scope) := .module scope
    refine .bind ((leads_unitScope trivial fresh).settled ready.settled) ?_
    rintro scope first _ ⟨inside, settled⟩
    refine .bind ((leads_note rfl rfl rfl (fun _ => Mode.anywhere.state _) fun _ => ⟨rfl, rfl⟩).settled settled) ?_
    rintro _ second _ ⟨sameTable, settledSecond⟩
    exact leads_unit settledSecond (sameTable ▸ sees_of_inside (inside ready.global)) orderly
  | main unit =>
    have fresh (scope : ScopeId) (table : Table) : table.Fresh (.mainProgram scope) :=
      .mainProgram scope
    refine .bind ((leads_unitScope trivial fresh).settled ready.settled) ?_
    exact fun scope first _ opened => leads_unit opened.2 (sees_of_inside (opened.1 ready.global)) orderly
  | subprogram external =>
    refine .bind ((leads_declareSubprogram (Mode.anywhere.subprogram _)).settled ready.settled) ?_
    intro found next _ holds
    exact leads_subprogramUnit next found.2 [] external holds.2 (sees_of_inside (holds.1 ready.global).inside) orderly

theorem leads_orderlyProgram {program : Tree.Program} (ready : Ready state)
    (orderly : ∀ unit ∈ program.units, unit.isOrderly = true) :
    Leads (.anywhere false) state (Resolve.program program) fun _ next => next.Tidy := by
  have units : Leads (.anywhere false) state (program.units.forM programUnit) fun _ next => Ready next := by
    refine .loop Ready ready fun unit member next _ readyNext => ?_
    refine (leads_programUnit readyNext (orderly unit member)).mono fun _ last evolves settled => ?_
    exact ⟨settled, Nat.lt_of_lt_of_le readyNext.global evolves.widens.size⟩
  refine .bind units fun _ middle _ readyMiddle => .get_bind ?_
  have bodies : Steady (.anywhere true) (middle.bodies.forM fun entry => statements entry.1 entry.2) :=
    .forM fun entry _ =>
      steady_statements entry.1 entry.2 (Tree.sitedStmts_iff.mpr fun stmt _ => Mode.anywhere.stmt stmt)
  refine .bind ((bodies middle).settled readyMiddle.settled) fun _ last _ settled => ?_
  exact (leads_reportUntyped.settled settled.2).mono fun _ _ _ reported => reported.2.tidy

end Resolve

namespace Tree.Program

/-- If in every program unit no interface body stands behind a declaration that waits for procedures, none
of the procedures it names is missing. -/
theorem contained_procedures_found (program : Program)
    (orderly : ∀ unit ∈ program.units, unit.isOrderly = true) :
    ∀ finding ∈ program.resolve.findings,
      (∀ name, finding.fault ≠ .procedureNotFound name) ∧
        ∀ target binding, finding.fault ≠ .bindingTargetNotFound target binding := by
  have ready : Resolve.Ready .start :=
    ⟨⟨fun _ member => by simp [start] at member, ⟨rfl, rfl⟩⟩, Nat.zero_lt_one⟩
  have tidy := (Resolve.leads_orderlyProgram ready orderly sited_start).2
  intro finding member
  have found := tidy finding (Array.mem_toList_iff.mp member)
  refine ⟨fun name missing => ?_, fun target binding missing => ?_⟩
  · simp [missing, ResolutionFault.isMissing] at found
  · simp [missing, ResolutionFault.isMissing] at found

/-- Interface bodies, in front of or behind a generic and a type that name the contained subroutine `s`. -/
def withBodies (before behind : List Subprogram) : Program :=
  ⟨[.module ⟨"m",
    [.interface ⟨.unnamed, before, [], somewhere⟩,
      .interface ⟨.generic (.name "g"), [], [⟨"s", somewhere⟩], somewhere⟩,
      .derivedType ⟨"t", none, false, [], [.specific "b" (some "s") none [.plain .noPass] somewhere], somewhere⟩,
      .interface ⟨.unnamed, behind, [], somewhere⟩],
    [subroutine "s" "x" []], somewhere⟩]⟩

theorem contained_procedures_found_bodyBefore :
    (∀ unit ∈ (withBodies [subroutine "e" "x" []] []).units, unit.isOrderly = true) ∧
      ∀ finding ∈ (withBodies [subroutine "e" "x" []] []).resolve.findings,
        (∀ name, finding.fault ≠ .procedureNotFound name) ∧
          ∀ target binding, finding.fault ≠ .bindingTargetNotFound target binding :=
  have orderly : ∀ unit ∈ (withBodies [subroutine "e" "x" []] []).units, unit.isOrderly = true := by
    decide +kernel
  ⟨orderly, contained_procedures_found (withBodies [subroutine "e" "x" []] []) orderly⟩

/-- An interface body behind them makes the contained subroutine missing, for both. -/
theorem contained_procedures_missing_bodyBehind :
    (withBodies [] [subroutine "e" "x" []]).resolve.findings.map ResolutionFinding.fault =
      [.procedureNotFound "s", .bindingTargetNotFound "s" "b"] := by
  decide +kernel

end Tree.Program

end FortranInterface
