import FortranInterface.Proofs.Resolution.Declaration
import FortranInterface.Resolution.Program

/-!
Statements and whole programs are steady, so the table of a resolved program is linked, all its references
are to procedures and all its spans are sites. A program without findings leaves no object without a type.
-/

namespace FortranInterface

open Resolution

namespace Resolve

variable {mode : Mode} {state : Resolution} {scope : ScopeId} {span : Span}

/-! Statements. -/

variable {arguments : List Tree.Arg}

section

variable (sited : ∀ argument ∈ arguments, argument.Sited mode.site mode.inside)
include sited

theorem gives_actualList : Attempt.Gives mode (actualList scope arguments) (Actuals.Sited mode.toSites) :=
  gives_actuals steady_implicitType arguments sited

theorem steady_subscriptList : Attempt.Steady mode (subscriptList scope arguments) :=
  steady_subscripts steady_implicitType arguments sited

end

theorem steady_assigned {left : Tree.Expr} (sited : left.Sited mode.site mode.inside) :
    Attempt.Steady mode (assigned scope left) := by
  unfold assigned
  split
  · rw [Tree.Expr.Sited] at sited
    obtain ⟨isSite, -, areInside⟩ := sited
    have sitedArguments := fun argument member => (Tree.sitedArgs_iff.mp areInside argument member).2
    refine .table_bind fun table _ => .ite ?_ .failure
    exact steady_functionCall steady_implicitType isSite (gives_actualList sitedArguments)
      (steady_subscriptList sitedArguments)
  · exact steady_analyze _ _ sited

theorem steady_definedAssignment {left right : Expr} (isSite : mode.site span) :
    Steady mode (definedAssignment scope left right span) := by
  refine fun state => .table_bind (.ite (fun _ => ?_) fun _ => .pure trivial)
  dsimp only
  split
  next found =>
    refine leads_refer ⟨isSite, sited_operands isSite [left, right]⟩ fun id isSymbol => ?_
    cases isSymbol
    exact Table.isProcedure_of_operatorFor found
  · exact .pure trivial

variable {name : String}

theorem steady_calledSubroutine (isSite : mode.site span) : Attempt.Steady mode (calledSubroutine scope name span) := by
  refine .table_bind fun table _ => ?_
  split
  · exact .pure _
  · refine .ite .failure (.lift fun state => ?_)
    exact (leads_implicitProcedure steady_implicitType isSite).steady

theorem steady_namedCall (isSite : mode.site span)
    (sited : ∀ argument ∈ arguments, argument.Sited mode.site mode.inside) :
    Attempt.Steady mode (namedCall scope name arguments span) := by
  refine .of_tries fun state => .bind ((gives_actualList sited).tries state) fun actuals first _ areSited => ?_
  refine .bind ((steady_calledSubroutine isSite).tries first) fun id second _ _ => .table_bind ?_
  dsimp only
  split
  next isSubprogram =>
    refine .ite (fun _ => .fail isSite fun _ => rfl) fun _ => tries_reference isSite areSited ?_
    rw [Table.details, isSubprogram]
    rfl
  next entity isEntity =>
    have isProcedure : (second.table.details id).isProcedure = true := by
      rw [Table.details, isEntity]
      rfl
    refine .ite (fun _ => tries_reference isSite areSited isProcedure) fun _ => ?_
    refine .ite (fun _ => .fail isSite fun _ => rfl) fun _ => ?_
    exact .bind (.lift (steady_addUsage id _ second)) fun _ _ evolves _ =>
      tries_reference isSite areSited (evolves.isProcedure isProcedure)
  next object isObject =>
    refine .ite (fun isScalar => ?_) fun _ => .fail isSite fun _ => rfl
    refine .bind (.lift (leads_becomeProcedure id)) fun _ third _ becomes => ?_
    refine .bind (.lift (steady_addUsage id _ third)) fun _ _ evolves _ => ?_
    refine tries_reference isSite areSited (evolves.isProcedure (becomes object isObject ?_))
    simpa using (Bool.and_eq_true_iff.mp isScalar).2
  · exact tries_specificReference isSite areSited
  · exact .failure
  · exact .fail isSite fun _ => rfl

theorem steady_call {target : Tree.Expr} (isSite : mode.site span) (sitedTarget : target.Sited mode.site mode.inside)
    (sited : ∀ argument ∈ arguments, argument.Sited mode.site mode.inside) :
    Attempt.Steady mode (call scope target arguments span) := by
  unfold call
  split
  · exact steady_namedCall isSite sited
  · rw [Tree.Expr.Sited] at sitedTarget
    exact .bind (steady_analyze _ _ sitedTarget.2.2) fun _ =>
      steady_componentCall isSite (gives_actualList sited) (steady_subscriptList sited)
  · exact .fail isSite fun _ => rfl

theorem steady_regardless {α : Type} {attempt : Attempt α} (steady : Attempt.Steady mode attempt) :
    Steady mode (regardless attempt) :=
  .bind steady fun _ => .pure _

theorem steady_analyzeAll {values : List Tree.Expr} (sited : ∀ value ∈ values, value.Sited mode.site mode.inside) :
    Steady mode (analyzeAll scope values) :=
  .forM fun value member => steady_regardless (steady_analyze scope value (sited value member))

theorem steady_associate {block : ScopeId} {names : List (String × Tree.Expr)}
    (sited : ∀ entry ∈ names, entry.2.Sited mode.site mode.inside) : Steady mode (associate scope block names) := by
  refine .forM fun entry member => .bind (steady_analyze scope entry.2 (sited entry member)) fun value => ?_
  split
  · exact .bind (steady_addSymbol (sited entry member).span fun _ => .associate _) fun _ => .pure _
  · exact .pure _

theorem steady_loopControl {control : Option Tree.DoControl} (isSite : mode.site span)
    (sited : ∀ steers ∈ control, steers.Sited mode.site mode.inside) :
    Steady mode (loopControl scope span control) := by
  cases control with
  | none => exact .pure _
  | some control =>
    obtain ⟨sitedStart, sitedStop, sitedStep⟩ := sited control rfl
    refine .bind (steady_regardless (steady_name steady_implicitType isSite)) fun _ => steady_analyzeAll ?_
    intro value member
    simp only [List.cons_append, List.nil_append, List.mem_cons, Option.mem_toList] at member
    rcases member with rfl | rfl | isStep
    · exact sitedStart
    · exact sitedStop
    · exact sitedStep value isStep

mutual

theorem steady_statement (scope : ScopeId) : (stmt : Tree.Stmt) → stmt.Sited mode.site mode.inside →
    Steady mode (statement scope stmt)
  | .call _ _ _, sited => by
    rw [Tree.Stmt.Sited] at sited
    rw [statement]
    exact steady_regardless (steady_call sited.1 sited.2.1 sited.2.2)
  | .assign _ right _, sited => by
    rw [Tree.Stmt.Sited] at sited
    rw [statement]
    have steadyLeft : Attempt.Steady mode (assigned scope _) := steady_assigned sited.2.1
    refine .bind (Attempt.Steady.both steadyLeft (steady_analyze scope right sited.2.2)) fun sides => ?_
    split
    · exact steady_definedAssignment sited.1
    · exact .pure _
  | .associate _ body _, sited => by
    rw [Tree.Stmt.Sited] at sited
    rw [statement]
    refine .bind (steady_addScope _ _ _ _) fun block => ?_
    exact .bind (steady_associate sited.2.1) fun _ => steady_statements block body sited.2.2
  | .conditional condition thenBody elseBody _, sited => by
    rw [Tree.Stmt.Sited] at sited
    rw [statement]
    refine .bind (steady_regardless (steady_analyze scope condition sited.2.1)) fun _ => ?_
    exact .bind (steady_statements scope thenBody sited.2.2.1) fun _ => steady_statements scope elseBody sited.2.2.2
  | .loop _ body _, sited => by
    rw [Tree.Stmt.Sited] at sited
    rw [statement]
    exact .bind (steady_loopControl sited.1 sited.2.1) fun _ => steady_statements scope body sited.2.2
  | .print _ _, sited => by
    rw [Tree.Stmt.Sited] at sited
    rw [statement]
    exact steady_analyzeAll sited.2
  | .leave _, _ => by rw [statement]; exact .pure _

theorem steady_statements (scope : ScopeId) : (stmts : List Tree.Stmt) →
    Tree.SitedStmts mode.site mode.inside stmts → Steady mode (statements scope stmts)
  | [], _ => by rw [statements]; exact .pure _
  | first :: rest, sited => by
    rw [Tree.SitedStmts] at sited
    rw [statements]
    exact .bind (steady_statement scope first sited.1) fun _ => steady_statements scope rest sited.2

end

/-! Program units, which may leave procedures to wait. -/

theorem steady_openUnit {spec : List Tree.Decl} {contains : List Tree.Subprogram} {body : List Tree.Stmt}
    {header : Option Tree.Subprogram} (loud : mode.quiet = false)
    (sitedSpec : Tree.SitedDecls mode.site mode.inside spec)
    (sitedContains : Tree.SitedSubprograms mode.site mode.inside contains)
    (sitedBody : Tree.SitedStmts mode.site mode.inside body)
    (sitedHeader : ∀ unit ∈ header, unit.Sited mode.site mode.inside) :
    Steady mode (openUnit scope spec contains body header) := by
  have typed : Steady mode (header.forM (typeResult scope)) := by
    cases header with
    | none => exact .pure _
    | some unit => exact steady_typeResult (sitedHeader unit rfl)
  refine .bind (steady_declarations loud scope sitedSpec) fun _ => .bind typed fun _ => ?_
  have sitedChildren := Tree.sitedSubprograms_iff.mp sitedContains
  refine .bind (.mapM fun child member => .map _ (steady_declareSubprogram (sitedChildren child member)))
    fun children => ?_
  refine .bind (fun state => leads_closeSpecification fun isQuiet => by simp [loud] at isQuiet) fun _ => ?_
  refine .ite (.bind (steady_note (fun _ => rfl) (fun _ => rfl) (fun _ => rfl) (fun _ sited => ?_) (fun _ => rfl)
    fun _ => rfl) fun _ => .pure _) (.pure _)
  refine { sited with bodies := List.forall_mem_append.mpr ⟨sited.bodies, List.forall_mem_singleton.mpr ?_⟩ }
  exact Tree.sitedStmts_iff.mp sitedBody

mutual

theorem steady_subprogramUnit (loud : mode.quiet = false) (scope : ScopeId) : (subprogram : Tree.Subprogram) →
    subprogram.Sited mode.site mode.inside → Steady mode (subprogramUnit scope subprogram)
  | ⟨_, _, _, _, _, _, _, contains, _⟩, sited => by
    have header := sited
    rw [Tree.Subprogram.Sited] at sited
    obtain ⟨-, -, -, sitedSpec, sitedBody, sitedContains⟩ := sited
    rw [subprogramUnit]
    refine .bind (steady_openUnit loud sitedSpec sitedContains sitedBody ?_) fun children =>
      steady_subprogramUnits loud children contains sitedContains
    rintro _ ⟨⟩
    exact header

theorem steady_subprogramUnits (loud : mode.quiet = false) : (scopes : List ScopeId) →
    (subprograms : List Tree.Subprogram) → Tree.SitedSubprograms mode.site mode.inside subprograms →
    Steady mode (subprogramUnits scopes subprograms)
  | scope :: scopes, first :: rest, sited => by
    rw [Tree.SitedSubprograms] at sited
    rw [subprogramUnits]
    refine .bind (steady_subprogramUnit loud scope first sited.1) fun _ => ?_
    exact steady_subprogramUnits loud scopes rest sited.2
  | [], _, _ => by unfold subprogramUnits; exact .pure _
  | _ :: _, [], _ => by unfold subprogramUnits; exact .pure _

end

variable {details : ScopeId → Details}

section

variable (isSite : mode.site span) (fresh : ∀ scope table, Table.Fresh table (details scope))
include isSite fresh

theorem leads_unitScope {kind : ScopeKind} :
    Leads mode state (unitScope kind name details span) fun scope next =>
      0 < state.table.scopes.size → next.table.Inside Table.global scope := by
  refine .bind leads_addScope fun scope first _ opened => ?_
  refine .bind (leads_addSymbol isSite (fresh scope first.table)) fun id second toSecond _ => ?_
  have widens : second.table.Widens
      (second.table.modifyScope scope fun found => { found with symbol := some id }) :=
    Table.widens_modifyScope (fun _ => rfl) fun _ _ known => known
  refine .change_bind (.scopes widens) fun third toThird => .pure fun nonempty => ?_
  have inside : first.table.Inside Table.global scope :=
    ⟨opened.parent, by rw [opened.index]; exact nonempty, opened.bound⟩
  exact inside.of_widens (toSecond.trans toThird).widens

theorem steady_unitScope {kind : ScopeKind} : Steady mode (unitScope kind name details span) :=
  fun _ => (leads_unitScope isSite fresh).steady

end

theorem steady_programUnit {unit : Tree.ProgramUnit} (loud : mode.quiet = false)
    (sited : unit.Sited mode.site mode.inside) : Steady mode (programUnit unit) := by
  cases unit with
  | module =>
    obtain ⟨isSite, sitedSpec, sitedContains⟩ := sited
    refine .bind (steady_unitScope isSite fun scope _ => .module scope) fun scope => ?_
    refine .bind (steady_note (fun _ => rfl) (fun _ => rfl) (fun _ => rfl) (fun _ sited => { sited with })
      (fun _ => rfl) fun _ => rfl) fun _ => ?_
    have sitedBody : Tree.SitedStmts mode.site mode.inside [] := by rw [Tree.SitedStmts]; trivial
    exact .bind (steady_openUnit loud sitedSpec sitedContains sitedBody nofun) fun children =>
      steady_subprogramUnits loud children _ sitedContains
  | main =>
    obtain ⟨isSite, sitedSpec, sitedBody, sitedContains⟩ := sited
    refine .bind (steady_unitScope isSite fun scope _ => .mainProgram scope) fun scope => ?_
    exact .bind (steady_openUnit loud sitedSpec sitedContains sitedBody nofun) fun children =>
      steady_subprogramUnits loud children _ sitedContains
  | subprogram =>
    exact .bind (steady_declareSubprogram sited) fun found => steady_subprogramUnit loud found.2 _ sited

/-! What waits in a specification part is gone at its end. -/

abbrev Patient {α : Type} (computation : Resolve α) : Prop :=
  Keeps (fun state => (state.pendingGenerics, state.pendingBindings)) computation

theorem Patient.idle {α : Type} {computation : Resolve α} (patient : Patient computation)
    (idle : state.Idle) : (computation.run state).2.Idle := by
  obtain ⟨generics, bindings⟩ := Prod.ext_iff.mp (patient state)
  exact ⟨generics.trans idle.generics, bindings.trans idle.bindings⟩

theorem idle_bind {α β : Type} {computation : Resolve α} {rest : α → Resolve β} (first : (computation.run state).2.Idle)
    (second : ∀ value next, next.Idle → ((rest value).run next).2.Idle) : ((computation >>= rest).run state).2.Idle :=
  second _ _ first

theorem idle_last {α β : Type} {computation : Resolve α} {rest : α → Resolve β}
    (second : ∀ value next, ((rest value).run next).2.Idle) : ((computation >>= rest).run state).2.Idle :=
  second _ _

theorem patient_report (fault : ResolutionFault) (span : Span) : Patient (report fault span) :=
  fun _ => rfl

theorem patient_change (change : Table → Table) : Patient (Resolve.change change) :=
  fun _ => rfl

theorem patient_namedSpecific (name : Tree.Located) : Patient (namedSpecific scope name) := by
  have reported (fault : ResolutionFault) :
      Patient (do report fault name.span; return none : Resolve (Option SymbolId)) :=
    .bind (patient_report _ _) fun _ => .pure _
  refine .bind .table fun table => ?_
  split
  · split
    · exact .pure _
    · exact .ite (.pure _) (reported _)
    · exact reported _
  · exact reported _

theorem patient_resolveGeneric (pending : PendingGeneric) : Patient (resolveGeneric pending) :=
  .bind (.mapM patient_namedSpecific) fun _ => patient_change _

theorem patient_addBound (typeScope : ScopeId) (type : SymbolId) (name : String) (attributes : Attributes)
    (details : Details) (span : Span) :
    Patient (addSymbol typeScope name attributes details span >>= addBinding type) :=
  .bind (fun _ => rfl) fun _ => patient_change _

theorem patient_namedBinding (type : SymbolId) (span : Span) (name : String) :
    Patient (namedBinding type span name) := by
  refine .bind .table fun table => ?_
  split
  · exact .pure _
  · exact .bind (patient_report _ _) fun _ => .pure _

theorem patient_declareBinding (pending : PendingBindings) (binding : Tree.Binding) :
    Patient (declareBinding pending binding) := by
  cases binding with
  | specific name procedure interface attributes span =>
    refine .bind .table fun table => ?_
    split
    · exact patient_report _ _
    · exact patient_addBound _ _ _ _ _ _
  | generic spec specifics span =>
    refine .bind .table fun before => .bind (.mapM (patient_namedBinding _ _)) fun named => ?_
    refine .bind .table fun table => ?_
    split
    · exact patient_change _
    · exact patient_addBound _ _ _ _ _ _

theorem idle_resolvePending (state : Resolution) : (resolvePending.run state).2.Idle := by
  have generics : Patient (state.pendingGenerics.forM resolveGeneric) := .forM patient_resolveGeneric
  have first := Prod.ext_iff.mp (generics { state with pendingGenerics := [] })
  generalize isMiddle : ((state.pendingGenerics.forM resolveGeneric).run
    { state with pendingGenerics := [] }).2 = middle at first
  have bindings : Patient (middle.pendingBindings.forM fun pending =>
      pending.bindings.forM (declareBinding pending)) :=
    .forM fun pending => .forM (patient_declareBinding pending)
  have idle : Idle { middle with pendingBindings := [] } := ⟨first.1, rfl⟩
  have last := Patient.idle bindings idle
  rw [← isMiddle] at last
  exact last

theorem idle_closeSpecification (scope : ScopeId) (state : Resolution) :
    ((closeSpecification scope).run state).2.Idle :=
  have typed : Evolves (.anywhere true) _ _ :=
    (steady_applyImplicitTypes (resolvePending.run state).2 (Mode.anywhere.state _)).1
  typed.idle rfl (idle_resolvePending state)

theorem idle_openUnit (scope : ScopeId) (spec : List Tree.Decl) (contains : List Tree.Subprogram)
    (body : List Tree.Stmt) (header : Option Tree.Subprogram) (state : Resolution) :
    ((openUnit scope spec contains body header).run state).2.Idle := by
  refine idle_last fun _ _ => idle_last fun _ _ => idle_last fun children _ => ?_
  refine idle_bind (idle_closeSpecification scope _) fun _ next idle => ?_
  have noted : Patient (do
      if !body.isEmpty then
        modify fun state => { state with bodies := state.bodies ++ [(scope, body)] }
      return children : Resolve (List ScopeId)) :=
    .ite (.bind (fun _ => rfl) fun _ => .pure _) (.pure _)
  exact noted.idle idle

mutual

theorem idle_subprogramUnit (scope : ScopeId) : (subprogram : Tree.Subprogram) → (state : Resolution) →
    ((subprogramUnit scope subprogram).run state).2.Idle
  | ⟨kind, name, modifiers, dummies, bindC, spec, body, contains, span⟩, state => by
    rw [subprogramUnit]
    exact idle_bind (idle_openUnit scope spec contains body _ state) fun children =>
      idle_subprogramUnits children contains

theorem idle_subprogramUnits : (scopes : List ScopeId) → (subprograms : List Tree.Subprogram) →
    (state : Resolution) → state.Idle → ((subprogramUnits scopes subprograms).run state).2.Idle
  | scope :: scopes, first :: rest, state, _ => by
    rw [subprogramUnits]
    exact idle_bind (idle_subprogramUnit scope first state) fun _ => idle_subprogramUnits scopes rest
  | [], _, _, idle => by unfold subprogramUnits; exact idle
  | _ :: _, [], _, idle => by unfold subprogramUnits; exact idle

end

theorem idle_programUnit (unit : Tree.ProgramUnit) (state : Resolution) : ((programUnit unit).run state).2.Idle := by
  have opened (scope : ScopeId) (spec : List Tree.Decl) (contains : List Tree.Subprogram)
      (body : List Tree.Stmt) (state : Resolution) :
      ((openUnit scope spec contains body none >>= fun children =>
        subprogramUnits children contains).run state).2.Idle :=
    idle_bind (idle_openUnit scope spec contains body none state) fun children =>
      idle_subprogramUnits children contains
  cases unit with
  | module unit =>
    exact idle_last fun scope _ => idle_last fun _ => opened scope unit.spec unit.contains []
  | main unit => exact idle_last fun scope => opened scope unit.spec unit.contains unit.body
  | subprogram unit => exact idle_last fun found => idle_subprogramUnit found.2 unit

theorem idle_programUnits (units : List Tree.ProgramUnit) (state : Resolution) (idle : state.Idle) :
    ((units.forM programUnit).run state).2.Idle := by
  induction units generalizing state with
  | nil => exact idle
  | cons unit units ih => exact idle_bind (idle_programUnit unit state) fun _ => ih

/-! Objects without a type. -/

def HasType (symbol : Symbol) : Prop :=
  ∀ object, symbol.details = .object object → object.type.isSome = true

def reportSymbol (symbol : Symbol) : Resolve PUnit :=
  match symbol.details with
  | .object object =>
    if object.type.isNone then report (.untyped symbol.name) symbol.span else pure ()
  | _ => pure ()

structure Reported (state : Resolution) (symbols : List Symbol) (next : Resolution) : Prop where
  table : next.table = state.table
  typed : next.findings = #[] → state.findings = #[] ∧ ∀ symbol ∈ symbols, HasType symbol

namespace Reported

theorem of_hasType {symbol : Symbol} (hasType : HasType symbol) : Reported state [symbol] state := by
  refine ⟨rfl, fun none => ⟨none, fun other member => ?_⟩⟩
  obtain rfl := List.mem_singleton.mp member
  exact hasType

theorem append {first second : List Symbol} {middle next : Resolution}
    (reported : Reported state first middle) (rest : Reported middle second next) :
    Reported state (first ++ second) next := by
  refine ⟨rest.table.trans reported.table, fun none => ?_⟩
  obtain ⟨noneBefore, typedRest⟩ := rest.typed none
  obtain ⟨noneAtStart, typedFirst⟩ := reported.typed noneBefore
  refine ⟨noneAtStart, fun symbol member => ?_⟩
  exact (List.mem_append.mp member).elim (typedFirst symbol) (typedRest symbol)

end Reported

theorem leads_reportSymbol {symbol : Symbol} (isSite : mode.site symbol.span) :
    Leads mode state (reportSymbol symbol) fun _ next => Reported state [symbol] next := by
  unfold reportSymbol
  split
  next object isObject =>
    refine .ite (fun _ => .modify (.report state isSite fun _ => rfl) ⟨rfl, fun none => ?_⟩) fun typed => ?_
    · simp at none
    · refine .pure (.of_hasType fun other isOther => ?_)
      obtain rfl := Details.object.inj (isObject.symm.trans isOther)
      simpa [Option.isSome_iff_ne_none] using typed
  next notObject => exact .pure (.of_hasType fun object isObject => absurd isObject (notObject object))

theorem leads_reportSymbols {symbols : List Symbol} (areSites : ∀ symbol ∈ symbols, mode.site symbol.span) :
    Leads mode state (symbols.foldlM (fun _ => reportSymbol) PUnit.unit) fun _ next =>
      Reported state symbols next := by
  induction symbols generalizing state with
  | nil => exact .pure ⟨rfl, fun none => ⟨none, fun _ member => by cases member⟩⟩
  | cons symbol symbols ih =>
    obtain ⟨isSite, areOthers⟩ := List.forall_mem_cons.mp areSites
    rw [List.foldlM_cons]
    refine .bind (leads_reportSymbol isSite) fun _ middle _ reported => ?_
    exact Leads.mono (ih areOthers) fun _ next _ rest => reported.append rest

theorem forM_reportSymbol (symbols : Array Symbol) :
    (symbols.forM reportSymbol : Resolve PUnit) = symbols.toList.foldlM (fun _ => reportSymbol) PUnit.unit := by
  rw [Array.forM, Array.foldlM_toList]

theorem leads_reportUntyped :
    Leads mode state reportUntyped fun _ next => Reported state state.table.symbols.toList next := by
  have reported : Leads mode state (state.table.symbols.forM reportSymbol) fun _ next =>
      Reported state state.table.symbols.toList next := by
    rw [forM_reportSymbol]
    exact .sited fun sited => leads_reportSymbols fun symbol member =>
      sited.table symbol (Array.mem_toList_iff.mp member)
  exact .table_bind reported

theorem typed_of_hasType {table : Table} (typed : ∀ symbol ∈ table.symbols.toList, HasType symbol) : table.Typed := by
  intro id object isObject
  have bound := Table.lt_size_of_object isObject
  refine typed (table.symbol id) ?_ object isObject
  simp [Table.symbol, Array.getD, bound]

theorem leads_program {program : Tree.Program} (loud : mode.quiet = false)
    (sited : program.Sited mode.site mode.inside) :
    Leads mode state (Resolve.program program) fun _ next => next.findings = #[] → next.table.Typed := by
  have units : Steady mode (program.units.forM programUnit) :=
    .forM fun unit member => steady_programUnit loud (sited unit member)
  refine .bind (units state) fun _ middle _ _ => .sited fun sitedMiddle => .get_bind ?_
  have bodies : Steady mode (middle.bodies.forM fun entry => statements entry.1 entry.2) :=
    .forM fun entry member =>
      steady_statements entry.1 entry.2 (Tree.sitedStmts_iff.mpr (sitedMiddle.bodies entry member))
  refine .bind (bodies middle) fun _ last _ _ => leads_reportUntyped.mono ?_
  intro _ next _ reported none
  rw [reported.table]
  exact typed_of_hasType (reported.typed none).2

end Resolve

structure ResolvedProgram.Sited (sites : Sites) (program : ResolvedProgram) : Prop where
  table : program.table.Sited sites
  references : ∀ reference ∈ program.references, reference.Sited sites
  findings : ∀ finding ∈ program.findings, sites.site finding.span

namespace Tree.Program

theorem sited_resolve {sites : Sites} {program : Program} (sited : program.Sited sites.site sites.inside) :
    program.resolve.Sited sites := by
  let mode : Mode := ⟨sites, false⟩
  have leads : Resolve.Leads mode .start (Resolve.program program) _ := Resolve.leads_program rfl sited
  have state := (leads sited_start).1.sited sited_start
  refine ⟨state.table, fun reference member => ?_, fun finding member => ?_⟩
  · exact state.references reference (Array.mem_toList_iff.mp member)
  · exact state.findings finding (Array.mem_toList_iff.mp member)

variable (program : Tree.Program)

theorem leads_resolve :
    Resolve.Leads (.anywhere false) .start (Resolve.program program) fun _ next =>
      next.findings = #[] → next.table.Typed :=
  Resolve.leads_program rfl (Mode.anywhere.program program)

theorem linked_state : Resolution.Linked ((Resolve.program program).run .start).2 :=
  (program.leads_resolve sited_start).1.linked linked_start

theorem linked_resolve : program.resolve.table.Linked :=
  program.linked_state.table

theorem isProcedure_of_mem_references {reference : Reference}
    (member : reference ∈ program.resolve.references) {id : SymbolId} (isSymbol : reference.callee = .symbol id) :
    (program.resolve.table.details id).isProcedure = true :=
  program.linked_state.references reference (Array.mem_toList_iff.mp member) id isSymbol

theorem typed_of_findings_eq_nil (none : program.resolve.findings = []) : program.resolve.table.Typed :=
  (program.leads_resolve sited_start).2 (Array.toList_eq_nil_iff.mp none)

end Tree.Program

end FortranInterface
