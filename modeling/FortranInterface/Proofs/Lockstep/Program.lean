import FortranInterface.Proofs.Lockstep.Declaration
import FortranInterface.Proofs.Resolution.Program

/-!
Statements and whole programs are resolved in lockstep.
-/

namespace FortranInterface

open Lockstep (Permits)

/-- Two runs that differ only in the order of their symbols. -/
structure Lockstep.Strict (lock : Lockstep) : Prop where
  plain : ∀ scope, lock.Plain scope
  exports : ∀ scope, lock.exports scope

namespace Resolve

open Attempt

variable {lock : Lockstep} {world : Table} {scope scope' : ScopeId} {id id' : SymbolId}

/-! Statements. -/

section Statements

variable (paired : (lock.upTo world).scopes scope scope')
include paired

theorem runs_assigned {left : Tree.Expr} (permits : lock.Permits left.mentions) :
    Attempt.Runs lock world (assigned scope left) (assigned scope' left) Expr.Alike := by
  have simple := analyzes_analyze left paired permits
  unfold assigned
  split
  next spelling _ arguments span =>
    rw [Tree.Expr.mentions, Permits.cons, Permits.cons] at permits
    obtain ⟨allowed, -, permitsArguments⟩ := permits
    refine .table_bind fun table table' tables le => ?_
    refine .ite ?_ (fun _ => ?_) fun _ => .failure
    · have found := tables.alike.visible? (le.scopes paired)
        (lock.compares_of_name allowed)
      refine relCases found .rfl fun id id' pair => ?_
      have details := tables.alike.details pair
      have shapes := tables.alike.symbolShape pair
      have isEmpty : (table.symbolShape id).map List.isEmpty = (table'.symbolShape id').map List.isEmpty := by
        generalize table.symbolShape id = shape, table'.symbolShape id' = shape' at shapes
        cases shapes with
        | none => rfl
        | some same => cases same <;> rfl
      simp only [details.isObject, details.isAssociate, isEmpty, tables.alike.isCharacterSymbol pair]
    · have inside := le.scopes paired
      exact runs_functionCall (runs_actuals typesNames_implicitType inside arguments permitsArguments)
        (runs_subscripts typesNames_implicitType inside arguments permitsArguments) typesNames_implicitType inside
        allowed span
  · exact simple

theorem runs_definedAssignment (allowed : lock.allows (.ofName "assignment(=)"))
    {left left' right right' : Expr} (lefts : left.Alike (lock.upTo world) left')
    (rights : right.Alike (lock.upTo world) right') (span : Span) :
    Runs lock world (definedAssignment scope left right span) (definedAssignment scope' left' right' span)
      Unrelated := by
  refine .table_bind fun table table' tables le => ?_
  have lefts := lefts.mono le.le
  have rights := rights.mono le.le
  have sides : List.Forall₂ (Expr.Alike (lock.upTo table)) [left, right] [left', right'] :=
    .cons lefts (.cons rights .nil)
  refine .ite ?_ (fun _ => ?_) fun _ => .pure fun _ _ => trivial
  · rw [tables.alike.isDerivedExpr lefts, tables.alike.isDerivedExpr rights]
  · have found := tables.alike.operatorFor? (le.scopes paired)
      (lock.compares_of_name allowed) sides (operandActuals sides span) false
    dsimp only
    exact relCases found (.pure fun _ _ => trivial) fun _ _ pair =>
      runs_refer ⟨le.scopes paired, .symbol pair.2, .some pair.1, operandActuals sides span⟩

theorem runs_calledSubroutine {name : String} (allowed : lock.allows (.ofName name)) (span : Span) :
    Attempt.Runs lock world (calledSubroutine scope name span) (calledSubroutine scope' name span)
      fun larger => larger.symbols := by
  refine .table_bind fun table table' tables le => ?_
  have found := tables.alike.visible? (le.scopes paired) (lock.compares_of_name allowed)
  generalize isKnown : table.visible? scope name = here, table'.visible? scope' name = here' at found
  cases found with
  | some pair => exact .pure fun _ more => more.symbols pair
  | none =>
    refine .ite Iff.rfl (fun _ => .failure) fun _ => .lift ?_
    exact runs_implicitProcedure typesNames_implicitType (le.scopes paired)
      (tables.unsettled_of_visible? allowed isKnown) span false

theorem runs_namedCall {name : String} (allowed : lock.allows (.ofName name)) {arguments : List Tree.Arg}
    (permits : lock.Permits (Tree.argumentMentions arguments)) (span : Span) :
    Attempt.Runs lock world (namedCall scope name arguments span) (namedCall scope' name arguments span)
      Expr.Alike := by
  refine .bind (runs_actuals typesNames_implicitType paired arguments permits) fun _ actuals actuals' le alike => ?_
  refine .bind (runs_calledSubroutine (le.scopes paired) allowed span) fun _ id id' more pair => ?_
  refine .table_bind fun table table' tables most => ?_
  have since := le.trans (more.trans most)
  have pair := most.symbols pair
  have alike := alike.mono (more.trans most).le
  have symbols := tables.alike.symbol pair
  have details := symbols.details
  have refer {later : Table} (grows : table.Grows later) : Attempt.Runs lock later
      (reference scope id none actuals false span) (reference scope' id' none actuals' false span)
      Expr.Alike :=
    runs_reference ((since.trans grows).scopes paired) (grows.symbols pair) .none (alike.mono grows.le) _ _
  dsimp only
  rw [symbols.usage]
  generalize (table.symbol id).details = before, (table'.symbol id').details = before' at details
  cases details with
  | subprogram same =>
    refine .ite ?_ (fun _ => .fail _ _ _) fun _ => refer (.refl _)
    rw [same.isFunction]
  | procEntity same =>
    refine .ite ?_ (fun _ => refer (.refl _)) fun _ => .ite Iff.rfl (fun _ => .fail _ _ _) fun _ => ?_
    · rw [relIsSome same.interface]
    · exact .lift_bind (runs_addUsage pair _) fun _ _ _ next _ => refer next
  | object same =>
    refine .ite ?_ (fun _ => ?_) fun _ => .fail _ _ _
    · simp only [same.isDummy, ObjectDetails.isArray, same.shape.isEmpty]
    · refine .lift_bind (runs_becomeProcedure pair) fun _ _ _ next _ => ?_
      exact .lift_bind (runs_addUsage (next.symbols pair) _) fun _ _ _ last _ => refer (next.trans last)
  | generic =>
    refine .bind (runs_specificOf pair alike _ _) fun _ _ _ next chosen => ?_
    exact runs_reference ((since.trans next).scopes paired) chosen (.some (next.symbols pair))
      (alike.mono next.le) _ _
  | unresolved => exact .failure
  | _ => exact .fail _ _ _

theorem runs_call (target : Tree.Expr) (arguments : List Tree.Arg) (span : Span)
    (permits : lock.Permits (Tree.Stmt.call target arguments span).mentions) :
    Attempt.Runs lock world (call scope target arguments span) (call scope' target arguments span) Expr.Alike := by
  cases target with
  | name =>
    rw [Tree.Stmt.mentions, Permits.cons] at permits
    exact runs_namedCall paired permits.1 permits.2 span
  | component base =>
    rw [Tree.Stmt.mentions, Permits.cons, Permits.append] at permits
    obtain ⟨allowed, permitsBase, permitsArguments⟩ := permits
    exact .bind (analyzes_analyze base paired permitsBase) fun _ _ _ le object =>
      have inside := le.scopes paired
      runs_componentCall inside object allowed false span
        (runs_actuals typesNames_implicitType inside arguments permitsArguments)
        (runs_subscripts typesNames_implicitType inside arguments permitsArguments)
  | _ => exact .fail _ _ _

omit paired in
theorem runs_regardless {α α' : Type} {attempt : Attempt α} {attempt' : Attempt α'}
    {related : Pairing → α → α' → Prop} (runs : Attempt.Runs lock world attempt attempt' related) :
    Runs lock world (regardless attempt) (regardless attempt') Unrelated :=
  .bind runs fun _ _ _ _ _ => .pure fun _ _ => trivial

theorem runs_analyzeAll {values : List Tree.Expr} (permits : ∀ value ∈ values, lock.Permits value.mentions) :
    Runs lock world (analyzeAll scope values) (analyzeAll scope' values) Unrelated :=
  .forM fun _ value le member => runs_regardless (analyzes_analyze value (le.scopes paired) (permits value member))

theorem runs_associate {block block' : ScopeId} (blocks : (lock.upTo world).scopes block block')
    (free : lock.Free block) {names : List (String × Tree.Expr)}
    (permits : ∀ entry ∈ names, lock.Permits entry.2.mentions) :
    Runs lock world (associate scope block names) (associate scope' block' names) Unrelated := by
  refine .forM fun _ entry le member => ?_
  obtain ⟨name, selector⟩ := entry
  refine .bind (analyzes_analyze selector (le.scopes paired) (permits _ member)) fun _ value value' more values => ?_
  cases values with
  | none => exact .pure fun _ _ => trivial
  | some alike =>
    exact .bind (runs_addSymbol ((le.trans more).scopes blocks) (free _) (fun _ => rfl) (.associate alike) _ _)
      fun _ _ _ _ _ => .pure fun _ _ => trivial

theorem runs_loopControl (span : Span) {control : Option Tree.DoControl}
    (permits : lock.Permits (Tree.optionMentions Tree.DoControl.mentions control)) :
    Runs lock world (loopControl scope span control) (loopControl scope' span control) Unrelated := by
  cases control with
  | none => exact .pure fun _ _ => trivial
  | some control =>
    rw [Tree.optionMentions, Tree.DoControl.mentions, Permits.cons, Permits.append, Permits.append] at permits
    obtain ⟨allowed, ⟨permitsStart, permitsStop⟩, permitsStep⟩ := permits
    refine .bind (runs_regardless (runs_name typesNames_implicitType paired allowed span)) fun _ _ _ le _ => ?_
    refine runs_analyzeAll (le.scopes paired) (List.forall_mem_append.mpr ⟨?_, fun value member => ?_⟩)
    · exact List.forall_mem_cons.mpr ⟨permitsStart, List.forall_mem_singleton.mpr permitsStop⟩
    · rw [Option.mem_toList.mp member] at permitsStep
      exact permitsStep

end Statements

theorem permits_of_mem_exprs {values : List Tree.Expr} (permits : lock.Permits (Tree.exprMentions values)) :
    ∀ value ∈ values, lock.Permits value.mentions := by
  induction values with
  | nil => exact nofun
  | cons first rest ih =>
    rw [Tree.exprMentions, Permits.append] at permits
    exact List.forall_mem_cons.mpr ⟨permits.1, ih permits.2⟩

mutual

theorem runs_statement : (statement : Tree.Stmt) → {world : Table} → {scope scope' : ScopeId} →
    (lock.upTo world).scopes scope scope' → lock.Permits statement.mentions →
    Runs lock world (Resolve.statement scope statement) (Resolve.statement scope' statement) Unrelated
  | .call target arguments span, _, _, _, paired, permits => by
    rw [Resolve.statement, Resolve.statement]
    exact runs_regardless (runs_call paired target arguments span permits)
  | .assign left right span, _, _, _, paired, permits => by
    rw [Resolve.statement, Resolve.statement]
    rw [Tree.Stmt.mentions, Permits.cons, Permits.append] at permits
    obtain ⟨allowed, permitsLeft, permitsRight⟩ := permits
    refine .bind (Attempt.Runs.both persists_expr (runs_assigned paired permitsLeft)
      (analyzes_analyze right paired permitsRight)) fun _ found found' le sides => ?_
    cases sides with
    | none => exact .pure fun _ _ => trivial
    | some sides => exact runs_definedAssignment (le.scopes paired) allowed sides.1 sides.2 span
  | .associate names body _, _, _, _, paired, permits => by
    rw [Resolve.statement, Resolve.statement]
    rw [Tree.Stmt.mentions, Permits.append] at permits
    refine .bind (runs_addScope _ _ _ paired .none) fun _ block block' le opened => ?_
    refine .bind (runs_associate (le.scopes paired) opened.1 opened.2.free fun entry member mention mentioned =>
      permits.1 mention (List.mem_flatMap.mpr ⟨entry, member, .tail _ mentioned⟩)) fun _ _ _ more _ => ?_
    exact runs_statements body (more.scopes opened.1) permits.2
  | .conditional condition thenBody elseBody _, _, _, _, paired, permits => by
    rw [Resolve.statement, Resolve.statement]
    rw [Tree.Stmt.mentions, Permits.append, Permits.append] at permits
    refine .bind (runs_regardless (analyzes_analyze condition paired permits.1.1)) fun _ _ _ le _ => ?_
    refine .bind (runs_statements thenBody (le.scopes paired) permits.1.2) fun _ _ _ more _ => ?_
    exact runs_statements elseBody ((le.trans more).scopes paired) permits.2
  | .loop control body span, _, _, _, paired, permits => by
    rw [Resolve.statement, Resolve.statement]
    rw [Tree.Stmt.mentions, Permits.append] at permits
    exact .bind (runs_loopControl paired span permits.1) fun _ _ _ le _ =>
      runs_statements body (le.scopes paired) permits.2
  | .print items _, _, _, _, paired, permits => by
    rw [Resolve.statement, Resolve.statement]
    exact runs_analyzeAll paired (permits_of_mem_exprs permits)
  | .leave _, _, _, _, _, _ => by
    rw [Resolve.statement, Resolve.statement]
    exact .pure fun _ _ => trivial

theorem runs_statements : (body : List Tree.Stmt) → {world : Table} → {scope scope' : ScopeId} →
    (lock.upTo world).scopes scope scope' → lock.Permits (Tree.stmtMentions body) →
    Runs lock world (statements scope body) (statements scope' body) Unrelated
  | [], _, _, _, _, _ => by
    rw [statements, statements]
    exact .pure fun _ _ => trivial
  | first :: rest, _, _, _, paired, permits => by
    rw [statements, statements]
    rw [Tree.stmtMentions, Permits.append] at permits
    exact .bind (runs_statement first paired permits.1) fun _ _ _ le _ =>
      runs_statements rest (le.scopes paired) permits.2

end

/-! Program units. -/

variable {contains : List Tree.Subprogram}

theorem runs_children (paired : (lock.upTo world).scopes scope scope')
    (permits : lock.Permits (Tree.subprogramMentions contains)) :
    Runs lock world (contains.mapM fun child => Prod.snd <$> declareSubprogram scope child .contained)
      (contains.mapM fun child => Prod.snd <$> declareSubprogram scope' child .contained)
      fun larger => List.Forall₂ larger.scopes := by
  refine .mapM persists_scopes fun _ child le member => ?_
  have mentions := permits_of_mem permits member
  obtain ⟨kind, name, modifiers, dummies, bindC, spec, body, contains, span⟩ := child
  rw [Tree.Subprogram.mentions, Permits.cons, Permits.cons] at mentions
  exact .map (runs_declareSubprogram (le.scopes paired) _ mentions.1 mentions.2.1 _) fun _ _ _ _ same => same.2.1

variable {header : Option Tree.Subprogram}

theorem runs_typeHeader (paired : (lock.upTo world).scopes scope scope')
    (permits : ∀ subprogram, header = some subprogram → lock.Permits subprogram.kind.mentions) :
    Runs lock world (header.forM (typeResult scope)) (header.forM (typeResult scope')) Unrelated := by
  cases header with
  | none => exact .pure fun _ _ => trivial
  | some subprogram => exact runs_typeResult paired (permits _ rfl)

def openModule (name : String) (span : Span) : Resolve ScopeId := do
  let scope ← unitScope .module name .module span
  modify fun state => { state with modules := (name, scope) :: state.modules }
  return scope

theorem programUnit_module (module : Tree.Module) :
    programUnit (.module module) =
      (do
        let scope ← openModule module.name module.span
        let children ← openUnit scope module.spec module.contains [] none
        subprogramUnits children module.contains) :=
  rfl

theorem runs_bodies (ready : ∀ {mention}, lock.bodies mention → lock.allows mention) :
    Runs lock world (do (← get).bodies.forM fun (scope, body) => statements scope body)
      (do (← get).bodies.forM fun (scope, body) => statements scope body) Unrelated := by
  refine .get_bind fun state state' matched _ => ?_
  refine .forM₂ matched.bodies fun _ entry entry' le same => ?_
  obtain ⟨inner, body⟩ := entry
  obtain ⟨inner', body'⟩ := entry'
  obtain ⟨pair, rfl, left⟩ : _ ∧ body = body' ∧ _ := same
  exact runs_statements body (le.scopes pair) fun mention member => ready (left mention member)

section Units

variable (strict : lock.Strict)
include strict

theorem runs_openUnit (paired : (lock.upTo world).scopes scope scope') {spec : List Tree.Decl}
    (permits : lock.Permits (Tree.declMentions spec))
    (permitsContained : lock.Permits (Tree.subprogramMentions contains)) {body : List Tree.Stmt}
    (permitsBody : lock.Permits (Tree.stmtMentions body))
    (permitsHeader : ∀ subprogram, header = some subprogram → lock.Permits subprogram.kind.mentions) :
    Runs lock world (openUnit scope spec contains body header) (openUnit scope' spec contains body header)
      fun larger => List.Forall₂ larger.scopes := by
  have plain := strict.plain scope
  refine .bind (runs_declarations spec paired permits fun _ _ _ => plain.free) fun _ _ _ le _ => ?_
  refine .bind (runs_typeHeader (le.scopes paired) permitsHeader) fun _ _ _ more _ => ?_
  refine .bind (runs_children ((le.trans more).scopes paired) permitsContained)
    fun _ children children' most alike => ?_
  have since := le.trans (more.trans most)
  refine .bind (runs_closeSpecification (since.scopes paired) plain.shown) fun _ _ _ last _ => ?_
  have result {later : Table} (grows : Table.Grows _ later) :
      Runs lock later (pure children) (pure children') fun larger => List.Forall₂ larger.scopes :=
    .pure fun _ final => alike.imp fun _ _ => (last.trans (grows.trans final)).scopes
  refine .ite Iff.rfl (fun _ => ?_) fun _ => result (.refl _)
  refine .bind (.modify fun state state' matched next => ⟨.refl _, { matched with bodies := ?_ }⟩)
    fun _ _ _ next _ => result next
  exact List.rel_append matched.bodies (.cons ⟨(since.trans (last.trans next)).scopes paired, rfl,
    fun mention member => lock.leaves (permitsBody mention member)⟩ .nil)

-- A list of subprograms asks for it only through its subprograms.
set_option linter.unusedSectionVars false in
mutual

theorem runs_subprogramUnit : (subprogram : Tree.Subprogram) → {world : Table} → {scope scope' : ScopeId} →
    (lock.upTo world).scopes scope scope' → lock.Permits subprogram.mentions →
    Runs lock world (subprogramUnit scope subprogram) (subprogramUnit scope' subprogram) Unrelated
  | ⟨kind, name, modifiers, dummies, bindC, spec, body, contains, span⟩, _, _, _, paired, permits => by
    rw [subprogramUnit, subprogramUnit]
    rw [Tree.Subprogram.mentions, Permits.cons, Permits.cons, Permits.append, Permits.append, Permits.append,
      Permits.append] at permits
    obtain ⟨-, -, ⟨⟨⟨permitsKind, -⟩, permitsSpec⟩, permitsBody⟩, permitsContained⟩ := permits
    refine .bind (runs_openUnit strict paired permitsSpec permitsContained permitsBody fun header isHeader => ?_)
      fun _ _ _ _ children => ?_
    · obtain rfl := Option.some.inj isHeader
      exact permitsKind
    · exact runs_subprogramUnits contains children permitsContained

theorem runs_subprogramUnits : (subprograms : List Tree.Subprogram) → {world : Table} →
    {scopes scopes' : List ScopeId} → List.Forall₂ (lock.upTo world).scopes scopes scopes' →
    lock.Permits (Tree.subprogramMentions subprograms) →
    Runs lock world (subprogramUnits scopes subprograms) (subprogramUnits scopes' subprograms) Unrelated
  | [], _, _, _, alike, _ => by
    rw [subprogramUnits.eq_def, subprogramUnits.eq_def]
    cases alike with
    | nil | cons => exact .pure fun _ _ => trivial
  | first :: rest, _, _, _, alike, permits => by
    cases alike with
    | nil =>
      rw [subprogramUnits.eq_def]
      exact .pure fun _ _ => trivial
    | cons pair others =>
      rw [subprogramUnits, subprogramUnits]
      rw [Tree.subprogramMentions, Permits.append] at permits
      exact .bind (runs_subprogramUnit first pair permits.1) fun _ _ _ le _ =>
        runs_subprogramUnits rest (others.imp fun _ _ => le.scopes) permits.2

end

variable (outside : (lock.upTo world).scopes Table.global Table.global)
include outside

omit strict in
theorem runs_unitScope (kind : ScopeKind) (name : String) {details : ScopeId → Details}
    (alike : ∀ {pairing : Pairing} {scope scope'}, pairing.scopes scope scope' →
      (details scope).Alike pairing (details scope')) (span : Span) :
    Runs lock world (unitScope kind name details span) (unitScope kind name details span)
      fun larger => larger.scopes := by
  have binds : lock.Binds Table.global name.toLower := fun _ _ _ settled => (lock.settles settled).2 rfl
  refine .bind (runs_addScope _ _ _ outside .none) fun _ inner inner' le opened => ?_
  refine .bind (runs_addSymbol (le.scopes outside) binds (fun _ => rfl) (alike opened.1) _ _)
    fun _ id id' more pair => ?_
  refine .bind (.change fun table table' tables most => ⟨.modifyScope table inner fun _ => rfl, ?_⟩)
    fun _ _ _ most _ => .pure fun _ last => (more.trans (most.trans last)).scopes opened.1
  have inside := (more.trans most).scopes opened.1
  have before := tables.alike.scope inside
  exact tables.modifyScope_of_names inside ⟨before.kind, before.parent, .some (most.symbols pair),
    before.names, before.sorted, before.sorted'⟩ rfl (fun _ => rfl) fun _ => rfl

theorem runs_openModule (name : String) (span : Span) :
    Runs lock world (openModule name span) (openModule name span) fun larger => larger.scopes := by
  refine .bind (runs_unitScope outside _ _ (fun paired => .module paired) _) fun _ inner inner' le pair => ?_
  refine .bind (.modify fun state state' matched more => ⟨.refl _, { matched with modules := ?_ }⟩)
    fun _ _ _ more _ => .pure fun _ most => (more.trans most).scopes pair
  exact .cons ⟨rfl, more.scopes pair, fun _ => strict.exports inner⟩ matched.modules

theorem runs_programUnit {unit : Tree.ProgramUnit} (permits : lock.Permits unit.mentions) :
    Runs lock world (programUnit unit) (programUnit unit) Unrelated := by
  cases unit with
  | module unit =>
    rw [Tree.ProgramUnit.mentions, Tree.Module.mentions, Permits.cons, Permits.cons, Permits.append] at permits
    obtain ⟨-, -, permitsSpec, permitsContained⟩ := permits
    rw [programUnit_module]
    refine .bind (runs_openModule strict outside _ _) fun _ inner inner' le pair => ?_
    refine .bind (runs_openUnit strict pair permitsSpec permitsContained nofun nofun) fun _ _ _ _ children => ?_
    exact runs_subprogramUnits strict _ children permitsContained
  | main program =>
    rw [Tree.ProgramUnit.mentions, Tree.MainProgram.mentions, Permits.cons, Permits.cons, Permits.append,
      Permits.append] at permits
    obtain ⟨-, -, ⟨permitsSpec, permitsBody⟩, permitsContained⟩ := permits
    refine .bind (runs_unitScope outside _ _ (fun paired => .mainProgram paired) _) fun _ inner inner' le pair => ?_
    refine .bind (runs_openUnit strict pair permitsSpec permitsContained permitsBody nofun) fun _ _ _ _ children => ?_
    exact runs_subprogramUnits strict _ children permitsContained
  | subprogram unit =>
    have mentions := permits
    obtain ⟨kind, name, modifiers, dummies, bindC, spec, body, contains, span⟩ := unit
    rw [Tree.ProgramUnit.mentions, Tree.Subprogram.mentions, Permits.cons, Permits.cons] at mentions
    refine .bind (runs_declareSubprogram outside _ mentions.1 mentions.2.1 _) fun _ _ _ _ same => ?_
    exact runs_subprogramUnit strict _ same.2.1 permits

theorem runs_programUnits {units : List Tree.ProgramUnit} (permits : ∀ unit ∈ units, lock.Permits unit.mentions) :
    Runs lock world (units.forM programUnit) (units.forM programUnit) Unrelated :=
  .forM fun _ unit le member => runs_programUnit strict (le.scopes outside) (permits unit member)

end Units

/-! Objects that are left without a type. -/

def untypedFault? (symbol : Symbol) : Option ResolutionFault :=
  match symbol.details with
  | .object object => if object.type.isNone then some (.untyped symbol.name) else none
  | _ => none

theorem untypedFault?_alike {pairing : Pairing} {gained : Option Attribute} {symbol symbol' : Symbol}
    (alike : symbol.Alike pairing gained symbol') : untypedFault? symbol = untypedFault? symbol' := by
  have details := alike.details
  unfold untypedFault?
  rw [alike.name]
  generalize symbol.details = found, symbol'.details = found' at details
  cases details with
  | object same => simp only [← Option.not_isSome, relIsSome same.type]
  | _ => rfl

theorem reportSymbol_run (symbol : Symbol) (state : Resolution) :
    ((reportSymbol symbol).run state).2.table = state.table ∧
      ((reportSymbol symbol).run state).2.faults = state.faults ++ (untypedFault? symbol).toList := by
  unfold reportSymbol untypedFault?
  cases symbol.details with
  | object object =>
    dsimp only
    split
    · refine ⟨rfl, ?_⟩
      change (state.findings.push _).toList.map ResolutionFinding.fault = _
      simp [Resolution.faults]
    · exact ⟨rfl, (List.append_nil _).symm⟩
  | _ => exact ⟨rfl, (List.append_nil _).symm⟩

theorem reportSymbols_run (symbols : List Symbol) (state : Resolution) :
    ((symbols.foldlM (fun _ => reportSymbol) PUnit.unit).run state).2.table = state.table ∧
      ((symbols.foldlM (fun _ => reportSymbol) PUnit.unit).run state).2.faults =
        state.faults ++ symbols.filterMap untypedFault? := by
  induction symbols generalizing state with
  | nil => exact ⟨rfl, (List.append_nil _).symm⟩
  | cons first rest ih =>
    obtain ⟨table, faults⟩ := reportSymbol_run first state
    obtain ⟨tables, all⟩ := ih ((reportSymbol first).run state).2
    refine ⟨tables.trans table, all.trans ?_⟩
    rw [faults, List.append_assoc, List.filterMap_cons]
    cases untypedFault? first <;> rfl

theorem reportUntyped_run (state : Resolution) :
    (reportUntyped.run state).2.table = state.table ∧
      (reportUntyped.run state).2.faults = state.faults ++ state.table.symbols.toList.filterMap untypedFault? := by
  have reported := reportSymbols_run state.table.symbols.toList state
  rw [← forM_reportSymbol] at reported
  exact reported

end Resolve

end FortranInterface
