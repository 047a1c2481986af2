import FortranInterface.Proofs.Resolution.Expression
import FortranInterface.Resolution.Declaration

/-!
Declarations are steady. Interfaces of procedures are looked up before they are used, and a subprogram
has its symbol before its dummy arguments and its result have theirs. A symbol stands where its name is
declared, and what has to wait keeps its spans.
-/

namespace FortranInterface

namespace Tree

def Binding.target? : Binding → Option String
  | specific name procedure interface _ _ => some ((interface.or procedure).getD name)
  | generic _ _ _ => none

def Decl.isSimple : Decl → Bool
  | .interface _ | .derivedType _ => false
  | _ => true

/-! Declarations after which nothing waits for a procedure. -/

mutual

def Decl.isSettled : Decl → Bool
  | .interface ⟨.unnamed, bodies, _, _⟩ => bodiesSettled bodies
  | .interface ⟨.abstract, bodies, _, _⟩ => bodiesSettled bodies
  | .interface ⟨.generic _, bodies, names, _⟩ => names.isEmpty && bodiesSettled bodies
  | .derivedType ⟨_, _, _, components, bindings, _⟩ => bindings.isEmpty && areSettled components
  | _ => true

def areSettled : List Decl → Bool
  | [] => true
  | first :: rest => first.isSettled && areSettled rest

def bodiesSettled : List Subprogram → Bool
  | [] => true
  | first :: rest => first.isSettled && bodiesSettled rest

def Subprogram.isSettled : Subprogram → Bool
  | ⟨_, _, _, _, _, spec, _, _, _⟩ => areSettled spec

end

end Tree

namespace Resolve

open Resolution

variable {mode : Mode} {state : Resolution} {scope : ScopeId} {span : Span} {id : SymbolId}

/-! Entities. -/

variable {name : String}

theorem steady_localEntity (isSite : mode.site span) : Steady mode (localEntity scope name span) := by
  have added : Steady mode (addSymbol scope name .empty (.object .unknown) span) :=
    steady_addSymbol isSite fun _ => .object _
  refine .table_bind fun table _ => ?_
  dsimp only
  split
  · exact .ite (.pure _) (.bind (steady_report isSite fun _ => rfl) fun _ => added)
  · exact added

theorem steady_setPassName {name : Option String} : Steady mode (setPassName id name) := by
  refine .change fun table => ?_
  split
  next isEntity => exact .setDetails isEntity (.retyped rfl)
  · exact .same table

theorem steady_addAttribute {attr : Attribute} : Steady mode (addAttribute id attr) :=
  .change fun _ => .symbol (.same _) fun _ => rfl

variable {attr : Tree.AttributeSpec}

theorem steady_applyAttribute (isSite : mode.site span) : Steady mode (applyAttribute id span attr) := by
  unfold applyAttribute
  split
  · exact .bind (steady_becomeProcedure id) fun _ => steady_addAttribute
  · have rest : Steady mode (becomeProcedure id >>= fun _ => addAttribute id .intrinsic) :=
      .bind (steady_becomeProcedure id) fun _ => steady_addAttribute
    exact .table_bind fun table _ => .ite (.bind (steady_report isSite fun _ => rfl) fun _ => rest) rest
  · exact steady_addAttribute
  · exact steady_setPassName
  · exact .pure _
  · exact .pure _

variable {attributes : List Tree.AttributeSpec}

theorem steady_applyAttributes (isSite : mode.site span) : Steady mode (applyAttributes id span attributes) :=
  .forM fun _ _ => steady_applyAttribute isSite

theorem turns_declaredDetails {table : Table} {type : Option DeclaredType} {shape coshape : ArraySpec}
    {init : Option Expr} (details : Details) :
    table.Turns id details (declaredDetails type shape coshape init details).1 := by
  cases details with
  | object => exact .object _ _
  | procEntity => exact .retyped rfl
  | _ => exact .same _

theorem sited_given {own : Option (List Tree.Dimension)}
    {dimensions? : Tree.AttributeSpec → Option (List Tree.Dimension)}
    (sitedOwn : ∀ found ∈ own, ∀ dimension ∈ found, dimension.Sited mode.site mode.inside)
    (sitedAttributes : ∀ attr ∈ attributes, ∀ found ∈ dimensions? attr, ∀ dimension ∈ found,
      dimension.Sited mode.site mode.inside) :
    ∀ found ∈ own.or (attributes.findSome? dimensions?), ∀ dimension ∈ found,
      dimension.Sited mode.site mode.inside := by
  intro found isFound
  rcases Option.or_eq_some_iff.mp isFound with isOwn | ⟨-, isAttribute⟩
  · exact sitedOwn found isOwn
  · obtain ⟨attr, member, isGiven⟩ := List.exists_of_findSome?_eq_some isAttribute
    exact sitedAttributes attr member found isGiven

theorem steady_declareEntity {type : Tree.TypeSpec} {entity : Tree.Entity}
    (sitedType : type.Sited mode.site mode.inside)
    (sitedAttributes : ∀ attr ∈ attributes, attr.Sited mode.site mode.inside)
    (sited : entity.Sited mode.site mode.inside) : Steady mode (declareEntity scope type attributes entity) := by
  obtain ⟨isSite, sitedDimensions, sitedCodimensions, sitedLength, sitedInit⟩ := sited
  refine .bind (steady_declaredType isSite sitedType sitedLength) fun declared => ?_
  refine .bind (steady_localEntity isSite) fun id => ?_
  refine .bind (steady_optionalSpec (sited_given sitedDimensions fun attr member found isFound => ?_)) fun shape => ?_
  · have sitedAttribute := sitedAttributes attr member
    cases attr <;> cases isFound
    exact sitedAttribute
  refine .bind (steady_optionalSpec (sited_given sitedCodimensions fun attr member found isFound => ?_)) fun _ => ?_
  · have sitedAttribute := sitedAttributes attr member
    cases attr <;> cases isFound
    exact sitedAttribute
  dsimp only
  split
  -- With and without an initial value the same steps follow.
  all_goals
    refine .bind (by first | exact steady_analyze _ _ (sitedInit _ ‹_›) | exact .pure _) fun init => ?_
    refine .table_bind fun table _ => .bind (steady_applyAttributes isSite) fun _ state => .table_bind ?_
    refine .change_bind (.setDetails rfl (turns_declaredDetails _)) fun next _ => ?_
    exact Steady.ite (steady_report isSite fun _ => rfl) (.pure _) next

theorem steady_setShape {shape : ArraySpec} : Steady mode (setShape id shape) := by
  refine .change fun table => ?_
  split
  next isObject => exact .setDetails isObject (.object _ _)
  · exact .same table

theorem steady_declareAttribute {name : Tree.Located} (sited : attr.Sited mode.site mode.inside)
    (isSite : mode.site name.span) : Steady mode (declareAttribute scope attr name) := by
  refine .bind (steady_localEntity isSite) fun id => ?_
  split
  · exact .bind (steady_arraySpec sited) fun _ => steady_setShape
  · exact steady_applyAttribute isSite

variable {names : List Tree.Located}

theorem steady_declareAttributes (sited : attr.Sited mode.site mode.inside)
    (areSites : ∀ name ∈ names, mode.site name.span) : Steady mode (declareAttributes scope attr names) := by
  unfold declareAttributes
  split
  · exact steady_note (fun _ => rfl) (fun _ => rfl) (fun _ => rfl) (fun _ sited => { sited with })
      (fun _ => rfl) fun _ => rfl
  · exact .forM fun name member => steady_declareAttribute sited (areSites name member)

variable {interface : Option Tree.InterfaceName}

section

variable (isSite : mode.site span) (sited : ∀ name ∈ interface, name.Sited mode.site mode.inside)
include isSite sited

theorem leads_namedInterface :
    Leads mode state (namedInterface scope span interface) fun found next =>
      ∀ id, found.1 = some id → (next.table.details id).isProcedure = true := by
  unfold namedInterface
  split
  · refine .table_bind ?_
    split
    next found =>
      have isProcedure := (Option.filter_eq_some_iff.mp found).2
      exact .pure fun id same => Option.some_inj.mp same ▸ isProcedure
    · exact .bind (steady_report isSite (fun _ => rfl) state) fun _ _ _ _ => .pure fun _ impossible => by
        cases impossible
  next spec =>
    refine .bind (steady_declaredType isSite (sited (.type spec) rfl) (by simp) state) ?_
    exact fun _ _ _ _ => .pure fun _ impossible => by cases impossible
  · exact .pure fun _ impossible => by cases impossible

theorem steady_declareProcedures (areSites : ∀ name ∈ names, mode.site name.span) :
    Steady mode (declareProcedures scope interface attributes names span) := by
  refine fun state => .bind (leads_namedInterface isSite sited) fun found next _ isProcedure => ?_
  obtain ⟨symbol, type⟩ := found
  refine .forM fun name member later evolves => ?_
  refine .bind (steady_localEntity (areSites name member) later) fun id last further _ => ?_
  refine .change_bind ?_ fun final _ => steady_applyAttributes (areSites name member) final
  refine .setDetails rfl (.procedure _ fun interface same => ?_)
  exact (evolves.trans further).isProcedure (isProcedure interface same)

end

/-! Modules. -/

theorem steady_useModule (isSite : mode.site span) : Steady mode (useModule scope name span) := by
  have bindings (exported : List (String × SymbolId)) (table : Table) :
      Relation.ReflTransGen (Table.Change mode.toSites) table
        (exported.foldl (fun table entry => table.bindName scope entry.1 entry.2) table) := by
    induction exported generalizing table with
    | nil => exact .refl
    | cons entry exported ih => exact .head (.scopes (Table.widens_bindName _ _ _)) (ih _)
  refine .get_bind fun state _ => ?_
  split
  · exact steady_report isSite fun _ => rfl
  · exact .changes (bindings _)

/-! Subprograms. -/

def OnlyNamesIn (scope : ScopeId) (table next : Table) : Prop :=
  ∀ other, other ≠ scope → next.scope other = table.scope other

namespace OnlyNamesIn

variable {table middle next : Table}

theorem of_scopes_eq (same : next.scopes = table.scopes) : OnlyNamesIn scope table next :=
  fun _ _ => by simp only [Table.scope, same]

theorem trans (first : OnlyNamesIn scope table middle) (second : OnlyNamesIn scope middle next) :
    OnlyNamesIn scope table next :=
  fun other apart => (second other apart).trans (first other apart)

end OnlyNamesIn

theorem leads_addNamed {attributes : Attributes} {details : Details} (isSite : mode.site span)
    (fresh : state.table.Fresh details) :
    Leads mode state (addSymbol scope name attributes details span) fun id next =>
      Added state.table id details next.table ∧ OnlyNamesIn scope state.table next.table :=
  (leads_addSymbol isSite fresh).and fun _ apart => Table.scope_addSymbol_of_ne apart

structure Named (scope : ScopeId) (name : String) (id : SymbolId) (table next : Table) : Prop where
  bound : id.index < next.symbols.size
  size : next.scopes.size = table.scopes.size
  here : scope.index < table.scopes.size → (next.scope scope).find? name = some id
  others : scope.index < table.scopes.size → ∀ other, other.toLower ≠ name.toLower →
    (next.scope scope).find? other = (table.scope scope).find? other

theorem leads_subprogramSymbol {isInterface : Bool} (isSite : mode.site span) :
    Leads mode state (subprogramSymbol scope name span isInterface) fun found next =>
      Named scope name found.1 state.table next.table := by
  have added (middle : Resolution) (same : middle.table = state.table) :
      Leads mode middle
        (do
          let id ← addSymbol scope name .empty .unresolved span
          return (id, false)) fun found next => Named scope name found.1 state.table next.table := by
    rw [← same]
    refine .bind (.and (leads_addSymbol isSite .unresolved) ?_) fun id next _ made => .pure made.2
    refine ⟨?_, Array.size_modify, fun inside => ?_, fun inside other apart => ?_⟩
    · exact Nat.lt_of_lt_of_eq (Nat.lt_succ_self _) (Array.size_push _).symm
    · exact (Table.find?_addSymbol inside name).trans (if_pos rfl)
    · exact (Table.find?_addSymbol inside other).trans (if_neg apart)
  have found {id : SymbolId} (isOwn : state.table.own? scope name = some id)
      (known : state.table.details id ≠ .unresolved) : Named scope name id state.table state.table :=
    ⟨Table.lt_size_of_ne_unresolved known, rfl, fun _ => (Option.filter_eq_some_iff.mp isOwn).1, fun _ _ _ => rfl⟩
  refine .table_bind ?_
  dsimp only
  split
  next id isOwn =>
    -- What is a dummy argument or an untouched object is something in the table.
    refine .ite (fun isDummy => .pure (found isOwn fun unresolved => ?_)) fun _ => ?_
    · simp [unresolved, Details.isDummy] at isDummy
    · refine .ite (fun isUntouched => .pure (found isOwn fun unresolved => ?_)) fun _ => ?_
      · simp [unresolved] at isUntouched
      · have reported : Leads mode state (report (.alreadyDeclared name) span) fun _ next =>
            next.table = state.table := .modify (.report state isSite fun _ => rfl) rfl
        exact .bind reported fun _ next _ same => added next same
  · exact added state rfl

structure Arguments (table : Table) (named : List (Option SymbolId)) (next : Table) : Prop where
  others : Extends table next
  made : ∀ link, some link ∈ named → table.symbols.size ≤ link.index ∧ (next.details link).isObject = true

namespace Arguments

variable {table middle next : Table} {named more : List (Option SymbolId)}

theorem of_none : Arguments table [none] table :=
  ⟨.of_symbols_eq rfl, fun _ member => by simp at member⟩

theorem of_added {object : ObjectDetails} (added : Added table id (.object object) next) :
    Arguments table [some id] next := by
  refine ⟨added.others, fun link member => ?_⟩
  obtain rfl : link = id := by simpa using member
  refine ⟨Nat.le_of_eq added.index.symm, ?_⟩
  rw [added.details]
  rfl

theorem append (first : Arguments table named middle) (second : Arguments middle more next) :
    Arguments table (named ++ more) next := by
  refine ⟨first.others.trans second.others, fun link member => ?_⟩
  rcases List.mem_append.mp member with early | late
  · obtain ⟨later, isObject⟩ := first.made link early
    exact ⟨later, second.others.isObject isObject⟩
  · obtain ⟨later, isObject⟩ := second.made link late
    exact ⟨Nat.le_trans first.others.size later, isObject⟩

end Arguments

theorem leads_declareDummy {dummy : Tree.DummyName} (sited : dummy.Sited mode.site) :
    Leads mode state (declareDummy scope dummy) fun found next =>
      Arguments state.table [found] next.table ∧ OnlyNamesIn scope state.table next.table := by
  cases dummy with
  | star => exact .pure ⟨.of_none, .of_scopes_eq rfl⟩
  | name =>
    exact .bind (leads_addNamed sited (.object _)) fun id next _ added =>
      .pure (added.imp_left .of_added)

theorem leads_declareDummies {dummies : List Tree.DummyName} (sited : ∀ dummy ∈ dummies, dummy.Sited mode.site) :
    Leads mode state (dummies.mapM (declareDummy scope)) fun found next =>
      Arguments state.table found next.table ∧ OnlyNamesIn scope state.table next.table := by
  induction dummies generalizing state with
  | nil => exact .pure ⟨⟨.of_symbols_eq rfl, fun _ member => by simp at member⟩, .of_scopes_eq rfl⟩
  | cons dummy dummies ih =>
    rw [List.mapM_cons]
    obtain ⟨sitedFirst, sitedOthers⟩ := List.forall_mem_cons.mp sited
    refine .bind (leads_declareDummy sitedFirst) fun first middle _ made => ?_
    refine .bind (ih sitedOthers) fun rest next _ madeRest => .pure ?_
    exact ⟨made.1.append madeRest.1, made.2.trans madeRest.2⟩

variable {subprogram : Tree.Subprogram}

theorem leads_declareResult (isSite : mode.site subprogram.span) :
    Leads mode state (declareResult scope subprogram) fun found next =>
      Arguments state.table [found] next.table ∧ OnlyNamesIn scope state.table next.table := by
  unfold declareResult
  split
  · exact .pure ⟨.of_none, .of_scopes_eq rfl⟩
  · refine .bind (leads_addNamed isSite (.object _)) fun id next _ added => ?_
    refine .bind (leads_note rfl rfl rfl (fun sited => { sited with }) fun _ => ⟨rfl, rfl⟩)
      fun _ last _ sameTable => .pure ?_
    rw [sameTable]
    exact added.imp_left .of_added

def fillSubprogram (subprogram : Tree.Subprogram) (role : SubprogramRole) (id : SymbolId) (isDummy : Bool)
    (scope : ScopeId) : Resolve (SymbolId × ScopeId) := do
  let dummies ← subprogram.dummies.mapM (declareDummy scope)
  let result ← declareResult scope subprogram
  change fun table =>
    table.modifySymbol id fun symbol =>
      { symbol with
        attributes := symbol.attributes.union (subprogram.attributes role)
        details := .subprogram ⟨dummies, result, role.isInterface, isDummy, some scope⟩ }
  return (id, scope)

def openBody (scope : ScopeId) : Resolve Unit := do
  change fun table => table.modifyScope scope fun found => { found with implicitNone := false }
  setImplicit scope .default

theorem declareSubprogram_eq (host : ScopeId) (subprogram : Tree.Subprogram) (role : SubprogramRole) :
    declareSubprogram host subprogram role =
      (do
        let found ← subprogramSymbol host subprogram.name subprogram.span role.isInterface
        let scope ← addScope (if role.isInterface then .interface else .subprogram) (some subprogram.name)
          host (some found.1)
        if role.isInterface then
          openBody scope
        fillSubprogram subprogram role found.1 found.2 scope) :=
  rfl

theorem leads_openBody : Leads mode state (openBody scope) fun _ next => OnlyNamesIn scope state.table next.table := by
  have widens : state.table.Widens (state.table.modifyScope scope fun found => { found with implicitNone := false }) :=
    Table.widens_modifyScope (fun _ => rfl) fun _ _ known => known
  have changed : Leads mode state
      (change fun table => table.modifyScope scope fun found => { found with implicitNone := false })
      fun _ next => OnlyNamesIn scope state.table next.table := by
    refine .change (.scopes widens) fun other apart => ?_
    rw [Table.scope_modifyScope, if_neg fun here => apart here.1]
  refine .bind changed fun _ middle _ others => ?_
  exact (leads_setImplicit fun _ member => by cases member).mono fun _ _ _ same => same ▸ others

variable {role : SubprogramRole}

theorem leads_fillSubprogram {isDummy : Bool} (sited : subprogram.Sited mode.site mode.inside)
    (bound : id.index < state.table.symbols.size) :
    Leads mode state (fillSubprogram subprogram role id isDummy scope) fun found next => found = (id, scope) ∧
      (next.table.details id).isProcedure = true ∧ OnlyNamesIn scope state.table next.table := by
  refine .bind (leads_declareDummies sited.dummies) fun dummies middle _ madeDummies => ?_
  refine .bind (leads_declareResult sited.span) fun result next _ madeResult => ?_
  have made := madeDummies.1.append madeResult.1
  have isSubprogram : Leads mode next
      (change fun table =>
        table.modifySymbol id fun symbol =>
          { symbol with
            attributes := symbol.attributes.union (subprogram.attributes role)
            details := .subprogram ⟨dummies, result, role.isInterface, isDummy, some scope⟩ })
      fun _ last => (last.table.details id).isProcedure = true ∧ last.table.scopes = next.table.scopes := by
    refine .change (.symbol (.subprogram _ fun link member => ?_) fun _ => rfl) ⟨?_, rfl⟩
    · have named : some link ∈ dummies ++ [result] := by
        rw [List.mem_append, List.mem_singleton]
        exact (Table.mem_links_iff.mp member).imp_right Eq.symm
      obtain ⟨later, isObject⟩ := made.made link named
      exact ⟨Nat.lt_of_lt_of_le bound later, isObject⟩
    · have inside := Nat.lt_of_lt_of_le bound made.others.size
      rw [Table.details_modifySymbol, if_pos ⟨rfl, inside⟩]
      rfl
  refine .bind isSubprogram fun _ last _ isProcedure => .pure ⟨rfl, isProcedure.1, ?_⟩
  exact (madeDummies.2.trans madeResult.2).trans (.of_scopes_eq isProcedure.2)

/-- A subprogram has a scope of its own, and its name stands for it where it is declared. -/
structure Declared (scope : ScopeId) (name : String) (inner : ScopeId) (table next : Table) : Prop where
  inside : next.Inside scope inner
  offers : next.Offers scope name
  others : ∀ other, table.Offers scope other → next.Offers scope other

theorem Declared.of_named {inner : ScopeId} {middle next : Resolution} (isHost : scope.index < state.table.scopes.size)
    (named : Named scope name id state.table middle.table) (evolves : Evolves mode state next)
    (inside : next.table.Inside scope inner) (isProcedure : (next.table.details id).isProcedure = true)
    (others : next.table.scope scope = middle.table.scope scope) :
    Declared scope name inner state.table next.table := by
  have offers : next.table.Offers scope name := ⟨id, by rw [others, named.here isHost], isProcedure⟩
  refine ⟨inside, offers, fun other offered => ?_⟩
  by_cases same : other.toLower = name.toLower
  · obtain ⟨found, isFound, isFoundProcedure⟩ := offers
    refine ⟨found, ?_, isFoundProcedure⟩
    rwa [Scope.find?, same]
  · obtain ⟨found, isFound, wasProcedure⟩ := offered
    refine ⟨found, ?_, evolves.isProcedure wasProcedure⟩
    rw [others, named.others isHost other same, isFound]

section

variable (sited : subprogram.Sited mode.site mode.inside)
include sited

theorem leads_declareSubprogram :
    Leads mode state (declareSubprogram scope subprogram role) fun found next =>
      scope.index < state.table.scopes.size → Declared scope subprogram.name found.2 state.table next.table := by
  rw [declareSubprogram_eq]
  refine .bind (leads_subprogramSymbol sited.span) fun found first toFirst named => ?_
  refine .bind leads_addScope fun inner second toSecond opened => ?_
  have finished {third : Resolution} (toThird : Evolves mode second third)
      (others : OnlyNamesIn inner second.table third.table) :
      Leads mode third (fillSubprogram subprogram role found.1 found.2 inner) fun made next =>
        scope.index < state.table.scopes.size → Declared scope subprogram.name made.2 state.table next.table := by
    have bound := Nat.lt_of_lt_of_le named.bound (toSecond.trans toThird).size_le
    refine (leads_fillSubprogram sited bound).mono ?_
    rintro made next toNext ⟨rfl, isProcedure, later⟩ isHost
    have further := toThird.trans toNext
    have before : scope.index < inner.index := by rw [opened.index, named.size]; exact isHost
    have apart : scope ≠ inner := fun same => Nat.ne_of_lt before (congrArg ScopeId.index same)
    have inside : next.table.Inside scope inner := by
      refine ⟨?_, before, Nat.lt_of_lt_of_le opened.bound further.widens.size⟩
      rw [further.widens.parent inner opened.bound, opened.parent]
    refine .of_named isHost named ((toFirst.trans toSecond).trans further) inside isProcedure ?_
    rw [later scope apart, others scope apart, opened.others scope apart]
  refine .ite (fun _ => ?_) fun _ => finished (.refl second) (.of_scopes_eq rfl)
  exact .bind leads_openBody fun _ third toThird others => finished toThird others

theorem steady_declareSubprogram : Steady mode (declareSubprogram scope subprogram role) :=
  fun _ => (leads_declareSubprogram sited).steady

theorem steady_typeResult : Steady mode (typeResult scope subprogram) := by
  have isSite := sited.span
  refine .table_bind fun table _ => ?_
  split
  next spec _ isKind _ =>
    have sitedKind := sited.kind
    rw [isKind] at sitedKind
    refine .bind (steady_declaredType isSite (sitedKind spec rfl) (by simp)) fun type state => .table_bind ?_
    split
    next isObject =>
      refine .ite (fun _ => ?_) fun _ => steady_report isSite (fun _ => rfl) state
      exact .change (.setDetails isObject (.object _ _)) trivial
    · exact .pure trivial
  · exact .pure _

end

/-! Generic names and bindings. -/

theorem leads_changeGeneric {alter : GenericDetails → GenericDetails} :
    Leads mode state
      (change fun table =>
        match table.details id with
        | .generic details => table.setDetails id (.generic (alter details))
        | _ => table) fun _ next => next.table.scopes = state.table.scopes := by
  refine .change ?_ ?_
  · split
    next isGeneric => exact .setDetails isGeneric (.generic _ _)
    · exact .same _
  · dsimp only
    split <;> rfl

variable {specifics : List SymbolId}

theorem leads_addSpecifics :
    Leads mode state (addSpecifics id specifics) fun _ next =>
      next.table.scopes = state.table.scopes :=
  leads_changeGeneric

variable {spec : Tree.GenericSpec}

theorem steady_genericSymbol (isSite : mode.site span) : Steady mode (genericSymbol scope spec span) := by
  have added (inherited : List SymbolId) :
      Steady mode (addSymbol scope spec.key .empty (.generic ⟨spec.kind, inherited⟩) span) :=
    steady_addSymbol isSite fun _ => .generic _
  refine .table_bind fun table _ => ?_
  dsimp only
  split
  · exact .ite (.pure _) (added _)
  · exact added []

theorem leads_namedSpecific {name : Tree.Located} (isSite : mode.site name.span)
    (known : mode.quiet = true → state.table.visible? scope name.name ≠ none) :
    Leads mode state (namedSpecific scope name) fun _ next => next.table = state.table := by
  have reported (fault : ResolutionFault) (found : mode.quiet = true → fault.isMissing = false) :
      Leads mode state (report fault name.span >>= fun _ => pure (none : Option SymbolId))
        fun _ next => next.table = state.table :=
    fun _ => ⟨.of_change (.report state isSite found), rfl⟩
  refine .table_bind ?_
  split
  · split
    · exact .pure rfl
    · exact .ite (fun _ => .pure rfl) fun _ => reported _ fun _ => rfl
    · exact reported _ fun _ => rfl
  next unknown => exact reported _ fun isQuiet => absurd unknown (known isQuiet)

theorem leads_namedSpecifics (areSites : ∀ name ∈ names, mode.site name.span)
    (known : mode.quiet = true → ∀ name ∈ names, state.table.visible? scope name.name ≠ none) :
    Leads mode state (names.mapM (namedSpecific scope)) fun _ next => next.table = state.table := by
  induction names generalizing state with
  | nil => exact .pure rfl
  | cons name names ih =>
    rw [List.mapM_cons]
    obtain ⟨isSite, areOthers⟩ := List.forall_mem_cons.mp areSites
    refine .bind (leads_namedSpecific isSite fun isQuiet => known isQuiet name (.head _)) ?_
    intro first middle _ sameTable
    rw [← sameTable]
    refine .bind (ih areOthers fun isQuiet other member => ?_) fun rest next _ same => .pure same
    rw [sameTable]
    exact known isQuiet other (.tail _ member)

theorem leads_resolveGenerics {generics : List PendingGeneric}
    (areSites : ∀ pending ∈ generics, ∀ name ∈ pending.names, mode.site name.span)
    (known : mode.quiet = true → ∀ pending ∈ generics, ∀ name ∈ pending.names,
      state.table.visible? pending.scope name.name ≠ none) :
    Leads mode state (generics.forM resolveGeneric) fun _ next =>
      next.table.scopes = state.table.scopes := by
  refine .loop (fun next => next.table.scopes = state.table.scopes) rfl ?_
  intro pending member next _ sameScopes
  have sees (name : String) : next.table.visible? pending.scope name =
      state.table.visible? pending.scope name := Table.visible?_of_scopes_eq sameScopes _ _
  refine .bind (leads_namedSpecifics (areSites pending member) fun isQuiet name named => ?_) ?_
  · rw [sees]
    exact known isQuiet pending member name named
  · intro specifics middle _ same
    exact leads_addSpecifics.mono fun _ last _ kept => by rw [kept, same, sameScopes]

theorem leads_addBinding {binding : SymbolId} :
    Leads mode state (addBinding id binding) fun _ next =>
      next.table.scopes = state.table.scopes := by
  refine .change ?_ ?_
  · split
    next isType => exact .setDetails isType (.derivedType _ _)
    · exact .same _
  · dsimp only
    split <;> rfl

variable {pending : PendingBindings}

section

variable (isSite : mode.site span)
include isSite

theorem leads_addBound {type : SymbolId} {attributes : Attributes} {details : Details}
    (fresh : state.table.Fresh details) :
    Leads mode state
      (do
        let id ← addSymbol scope name attributes details span
        addBinding type id) fun _ next => OnlyNamesIn scope state.table next.table := by
  refine .bind (leads_addNamed isSite fresh) fun id next _ kept => leads_addBinding.mono ?_
  intro _ last _ same other apart
  rw [← kept.2 other apart]
  exact OnlyNamesIn.of_scopes_eq same other apart

theorem leads_declareSpecificBinding {name target : String}
    (known : mode.quiet = true → pending.scope ≠ Table.global ∧ state.table.Offers pending.scope target) :
    Leads mode state (declareSpecificBinding pending name target attributes span) fun _ next =>
      OnlyNamesIn pending.typeScope state.table next.table := by
  refine .table_bind ?_
  split
  next missing =>
    have isFound (isQuiet : mode.quiet = true) : False := by
      obtain ⟨inner, offers⟩ := known isQuiet
      obtain ⟨id, found⟩ := offers.visible? inner
      simp [missing] at found
    exact .modify (.report state isSite fun isQuiet => (isFound isQuiet).elim) fun _ _ => rfl
  next procedure found =>
    have isProcedure := (Option.filter_eq_some_iff.mp found).2
    exact leads_addBound isSite (.binding isProcedure)

theorem leads_namedBindings {names : List String} :
    Leads mode state (names.mapM (namedBinding id span)) fun _ next =>
      next.table = state.table := by
  induction names generalizing state with
  | nil => exact .pure rfl
  | cons name names ih =>
    rw [List.mapM_cons]
    have named : Leads mode state (namedBinding id span name) fun _ next =>
        next.table = state.table := by
      refine .table_bind ?_
      split
      · exact .pure rfl
      · exact fun _ => ⟨.of_change (.report state isSite fun _ => rfl), rfl⟩
    refine .bind named fun first middle _ same => .bind ih fun rest last _ sameLater => .pure ?_
    rw [sameLater, same]

theorem leads_declareGenericBinding {specifics : List String} :
    Leads mode state (declareGenericBinding pending spec specifics span) fun _ next =>
      OnlyNamesIn pending.typeScope state.table next.table := by
  refine .table_bind (.bind (leads_namedBindings isSite) fun named next _ same => .table_bind ?_)
  rw [← same]
  split
  · exact leads_changeGeneric.mono fun _ _ _ sameScopes => .of_scopes_eq sameScopes
  · exact leads_addBound isSite (.generic _)

end

/-- Bindings to procedures of the scopes in which their types are declared, which are no scopes of
types. -/
structure Bindable (bindings : List PendingBindings) (table : Table) : Prop where
  offers : ∀ pending ∈ bindings, ∀ binding ∈ pending.bindings, ∀ target,
    binding.target? = some target → table.Offers pending.scope target
  inner : ∀ pending ∈ bindings, pending.scope ≠ Table.global
  apart : ∀ pending ∈ bindings, ∀ other ∈ bindings, other.scope ≠ pending.typeScope

variable {bindings : List PendingBindings}

theorem leads_declareBinding {binding : Tree.Binding} (member : pending ∈ bindings)
    (bound : binding ∈ pending.bindings) (sited : binding.Sited mode.site mode.inside)
    (known : mode.quiet = true → Bindable bindings state.table) :
    Leads mode state (declareBinding pending binding) fun _ next =>
      mode.quiet = true → Bindable bindings next.table := by
  have kept {next : Resolution} (evolves : Evolves mode state next)
      (others : OnlyNamesIn pending.typeScope state.table next.table) (isQuiet : mode.quiet = true) :
      Bindable bindings next.table := by
    obtain ⟨offers, inner, apart⟩ := known isQuiet
    refine ⟨fun other isOther binding bound target isTarget => ?_, inner, apart⟩
    obtain ⟨id, named, isProcedure⟩ := offers other isOther binding bound target isTarget
    refine ⟨id, ?_, evolves.isProcedure isProcedure⟩
    rwa [others other.scope (apart pending member other isOther)]
  cases binding with
  | specific name procedure interface attributes span =>
    have offered (isQuiet : mode.quiet = true) : pending.scope ≠ Table.global ∧
        state.table.Offers pending.scope ((interface.or procedure).getD name) := by
      obtain ⟨offers, inner, -⟩ := known isQuiet
      exact ⟨inner pending member, offers pending member _ bound _ rfl⟩
    exact (leads_declareSpecificBinding sited.1 offered).mono fun _ _ => kept
  | generic => exact (leads_declareGenericBinding sited).mono fun _ _ => kept

theorem leads_declareBindings
    (sited : ∀ pending ∈ bindings, ∀ binding ∈ pending.bindings, binding.Sited mode.site mode.inside)
    (known : mode.quiet = true → Bindable bindings state.table) :
    Leads mode state (bindings.forM fun pending => pending.bindings.forM (declareBinding pending)) fun _ _ => True := by
  let served (next : Resolution) : Prop := mode.quiet = true → Bindable bindings next.table
  refine .steady (.loop served known fun pending member next _ knownNext => ?_)
  exact .loop served knownNext fun binding bound last _ =>
    leads_declareBinding member bound (sited pending member binding bound)

theorem leads_resolvePending (idle : mode.quiet = true → state.Idle) :
    Leads mode state resolvePending fun _ _ => True := by
  refine .sited fun sited => .get_bind (.bind (leads_note rfl rfl rfl ?_ fun isQuiet => ?_) fun _ next evolves _ => ?_)
  · exact fun sited => { sited with generics := by simp }
  · exact ⟨(idle isQuiet).generics.symm, rfl⟩
  refine .bind (leads_resolveGenerics sited.generics fun isQuiet => ?_) fun _ middle further _ => ?_
  · simp [(idle isQuiet).generics]
  · have idleMiddle := fun isQuiet => (evolves.trans further).idle isQuiet (idle isQuiet)
    refine .sited fun sited => .get_bind (.bind (leads_note rfl rfl rfl ?_ fun isQuiet => ?_) fun _ last _ _ => ?_)
    · exact fun sited => { sited with bindings := by simp }
    · exact ⟨rfl, (idleMiddle isQuiet).bindings.symm⟩
    refine leads_declareBindings sited.bindings fun isQuiet => ?_
    rw [(idleMiddle isQuiet).bindings]
    exact ⟨nofun, nofun, nofun⟩

/-! Undeclared names. -/

theorem steady_typeImplicitly : Steady mode (typeImplicitly scope name id) := by
  refine .table_bind fun table sited => .bind (steady_implicitType _ _ _ (sited.symbol id)) fun type => ?_
  split
  · refine .changes fun table => .head (b := table.addUsage id .implicitlyTyped) (.addUsage _ _ _) ?_
    dsimp only
    split
    next isObject => exact .single (.setDetails isObject (.object _ _))
    · exact .refl
  · exact .pure _

theorem steady_applyImplicitTypes : Steady mode (applyImplicitTypes scope) :=
  .table_bind fun _ _ => .forM fun _ _ => steady_typeImplicitly

theorem leads_closeSpecification (idle : mode.quiet = true → state.Idle) :
    Leads mode state (closeSpecification scope) fun _ _ => True :=
  .bind (leads_resolvePending idle) fun _ next _ _ => steady_applyImplicitTypes next

/-! Derived types and interfaces. -/

theorem steady_parentType {parent : Option String} (isSite : mode.site span) :
    Steady mode (parentType scope name span parent) := by
  cases parent with
  | none => exact .pure _
  | some =>
    refine .table_bind fun table _ => ?_
    split
    · exact .pure _
    · exact .bind (steady_report isSite fun _ => rfl) fun _ => .pure _

theorem steady_setTypeParts {components : List SymbolId} : Steady mode (setTypeParts id components scope) := by
  refine .change fun table => ?_
  split
  next isType => exact .setDetails isType (.derivedType _ _)
  · exact .same table

theorem leads_closeGeneric (areSites : ∀ name ∈ names, mode.site name.span) (settled : mode.quiet = true → names = []) :
    Leads mode state (closeGeneric scope spec id specifics names) fun _ _ => True := by
  refine .change_bind (.scopes (Table.widens_bindName _ _ _)) fun next _ => ?_
  refine .bind leads_addSpecifics fun _ last _ _ => .ite (fun isWaiting => ?_) fun _ => .pure trivial
  refine (leads_note rfl rfl rfl (fun sited => { sited with generics := ?_ }) fun isQuiet => ?_).steady
  · exact List.forall_mem_append.mpr ⟨sited.generics, List.forall_mem_singleton.mpr areSites⟩
  · simp [settled isQuiet] at isWaiting

theorem steady_simpleDeclaration {decl : Tree.Decl} (simple : decl.isSimple = true)
    (sited : decl.Sited mode.site mode.inside) : Steady mode (declaration scope decl) := by
  rw [Tree.Decl.Sited.eq_def] at sited
  cases decl with
  | use => rw [declaration]; exact steady_useModule sited
  | implicitNone =>
    rw [declaration]
    have widens (table : Table) : table.Widens (table.setImplicitNone scope) :=
      Table.widens_modifyScope (fun _ => rfl) fun _ _ known => known
    refine .bind (steady_changeImplicit fun _ sited => sited) fun _ => ?_
    exact .change fun table => .scopes (widens table)
  | implicit =>
    rw [declaration]
    refine .forM fun rule member => steady_changeImplicit fun typing sitedTyping => ?_
    exact List.forall_mem_append.mpr ⟨sitedTyping, List.forall_mem_singleton.mpr (sited.2 rule member)⟩
  | entities =>
    rw [declaration]
    exact .forM fun entity member => steady_declareEntity sited.2.1 sited.2.2.1 (sited.2.2.2 entity member)
  | attributes => rw [declaration]; exact steady_declareAttributes sited.2.1 sited.2.2
  | procedure => rw [declaration]; exact steady_declareProcedures sited.1 sited.2.1 sited.2.2.2
  | interface | derivedType => cases simple

mutual

theorem leads_declaration (state : Resolution) (scope : ScopeId) : (decl : Tree.Decl) →
    decl.Sited mode.site mode.inside → (mode.quiet = true → decl.isSettled = true ∧ state.Idle) →
    Leads mode state (declaration scope decl) fun _ _ => True
  | .use _ _, sited, _ | .implicitNone _, sited, _ | .implicit _ _, sited, _ | .entities _ _ _ _, sited, _
  | .attributes _ _ _, sited, _ | .procedure _ _ _ _, sited, _ => steady_simpleDeclaration rfl sited state
  | .interface ⟨.unnamed, bodies, _, _⟩, sited, settled => by
    rw [declaration]
    rw [Tree.Decl.Sited] at sited
    rw [Tree.Decl.isSettled] at settled
    exact .bind (leads_interfaceBodies state scope false bodies sited.2.1 settled) fun _ _ _ _ => .pure trivial
  | .interface ⟨.abstract, bodies, _, _⟩, sited, settled => by
    rw [declaration]
    rw [Tree.Decl.Sited] at sited
    rw [Tree.Decl.isSettled] at settled
    exact .bind (leads_interfaceBodies state scope true bodies sited.2.1 settled) fun _ _ _ _ => .pure trivial
  | .interface ⟨.generic _, bodies, _, _⟩, sited, settled => by
    rw [declaration]
    rw [Tree.Decl.Sited] at sited
    rw [Tree.Decl.isSettled, Bool.and_eq_true] at settled
    refine .bind (steady_genericSymbol sited.1 state) fun generic next evolves _ => ?_
    refine .bind (leads_interfaceBodies next scope false bodies sited.2.1 fun isQuiet => ?_) fun _ _ _ _ => ?_
    · exact ⟨(settled isQuiet).1.2, evolves.idle isQuiet (settled isQuiet).2⟩
    · exact leads_closeGeneric sited.2.2 fun isQuiet => List.isEmpty_iff.mp (settled isQuiet).1.1
  | .derivedType ⟨_, _, _, components, _, _⟩, sited, settled => by
    rw [declaration]
    rw [Tree.Decl.Sited] at sited
    rw [Tree.Decl.isSettled, Bool.and_eq_true] at settled
    refine .bind (steady_parentType sited.1 state) fun parent first toFirst _ => ?_
    refine .bind (leads_addSymbol sited.1 (.derivedType _)) fun id second toSecond _ => ?_
    refine .bind (steady_addScope _ _ _ _ second) fun typeScope third toThird _ => .table_bind ?_
    have evolves := (toFirst.trans toSecond).trans toThird
    refine .bind (leads_declarations third typeScope components sited.2.1 fun isQuiet => ?_) ?_
    · exact ⟨(settled isQuiet).1.2, evolves.idle isQuiet (settled isQuiet).2⟩
    · intro _ fourth _ _
      refine .table_bind (.bind (steady_setTypeParts fourth) fun _ last _ _ => ?_)
      refine .ite (fun isWaiting => ?_) fun _ => .pure trivial
      refine (leads_note rfl rfl rfl (fun before => { before with bindings := ?_ }) fun isQuiet => ?_).steady
      · exact List.forall_mem_append.mpr ⟨before.bindings, List.forall_mem_singleton.mpr sited.2.2⟩
      · simp [List.isEmpty_iff.mp (settled isQuiet).1.1] at isWaiting

theorem leads_declarations (state : Resolution) (scope : ScopeId) : (decls : List Tree.Decl) →
    Tree.SitedDecls mode.site mode.inside decls →
    (mode.quiet = true → Tree.areSettled decls = true ∧ state.Idle) →
    Leads mode state (declarations scope decls) fun _ _ => True
  | [], _, _ => by rw [declarations]; exact .pure trivial
  | first :: rest, sited, settled => by
    rw [declarations]
    rw [Tree.SitedDecls] at sited
    rw [Tree.areSettled, Bool.and_eq_true] at settled
    refine .bind (leads_declaration state scope first sited.1 fun isQuiet => ?_) fun _ next evolves _ => ?_
    · exact (settled isQuiet).imp_left And.left
    · refine leads_declarations next scope rest sited.2 fun isQuiet => ?_
      exact ⟨(settled isQuiet).1.2, evolves.idle isQuiet (settled isQuiet).2⟩

theorem leads_interfaceBodies (state : Resolution) (scope : ScopeId) (isAbstract : Bool) :
    (bodies : List Tree.Subprogram) → Tree.SitedSubprograms mode.site mode.inside bodies →
    (mode.quiet = true → Tree.bodiesSettled bodies = true ∧ state.Idle) →
    Leads mode state (interfaceBodies scope isAbstract bodies) fun _ _ => True
  | [], _, _ => by rw [interfaceBodies]; exact .pure trivial
  | first :: rest, sited, settled => by
    rw [interfaceBodies]
    rw [Tree.SitedSubprograms] at sited
    rw [Tree.bodiesSettled, Bool.and_eq_true] at settled
    refine .bind (leads_interfaceBody state scope isAbstract first sited.1 fun isQuiet => ?_) ?_
    · exact (settled isQuiet).imp_left And.left
    · intro id next evolves _
      refine .bind (leads_interfaceBodies next scope isAbstract rest sited.2 fun isQuiet => ?_) ?_
      · exact ⟨(settled isQuiet).1.2, evolves.idle isQuiet (settled isQuiet).2⟩
      · exact fun _ _ _ _ => .pure trivial

theorem leads_interfaceBody (state : Resolution) (scope : ScopeId) (isAbstract : Bool) :
    (body : Tree.Subprogram) → body.Sited mode.site mode.inside →
    (mode.quiet = true → body.isSettled = true ∧ state.Idle) →
    Leads mode state (interfaceBody scope isAbstract body) fun _ _ => True
  | ⟨_, _, _, _, _, spec, _, _, _⟩, sited, settled => by
    rw [interfaceBody]
    rw [Tree.Subprogram.isSettled] at settled
    refine .bind (steady_declareSubprogram sited state) fun found next evolves _ => ?_
    refine .bind (leads_declarations next found.2 spec sited.spec fun isQuiet => ?_) fun _ middle further _ => ?_
    · exact (settled isQuiet).imp_right (evolves.idle isQuiet)
    · refine .bind (steady_typeResult sited middle) fun _ last more _ => ?_
      refine .bind (leads_closeSpecification fun isQuiet => ?_) fun _ _ _ _ => .pure trivial
      exact ((evolves.trans further).trans more).idle isQuiet (settled isQuiet).2

end

theorem steady_declarations (loud : mode.quiet = false) (scope : ScopeId) {decls : List Tree.Decl}
    (sited : Tree.SitedDecls mode.site mode.inside decls) : Steady mode (declarations scope decls) :=
  fun state => leads_declarations state scope decls sited fun isQuiet => by simp [loud] at isQuiet

end Resolve

end FortranInterface
