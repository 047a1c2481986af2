import Mathlib.Logic.Relation
import FortranInterface.Proofs.Resolution.Names
import FortranInterface.Proofs.Sites.State

/-!
What can happen to a symbol table while a program is resolved. Every step is one of a few changes, and
what links symbols to each other is an invariant of these changes: a subprogram was made before its dummy
arguments and its result, a binding after its procedure, and interfaces are procedures. So is where things
stand in the text: each span that is put into a state is a site.
-/

namespace FortranInterface

def SubprogramDetails.links (subprogram : SubprogramDetails) : List SymbolId :=
  subprogram.dummies.filterMap id ++ subprogram.result.toList

def Details.isArgument : Details → Bool
  | object _ | procEntity _ | subprogram _ => true
  | _ => false

namespace Table

inductive Fresh (table : Table) : Details → Prop where
  | object (details : ObjectDetails) : Fresh table (.object details)
  | associate (selector : Expr) : Fresh table (.associate selector)
  | procEntity (type : Option DeclaredType) (isDummy : Bool) (passName : Option String) :
      Fresh table (.procEntity ⟨none, type, isDummy, passName⟩)
  | generic (details : GenericDetails) : Fresh table (.generic details)
  | derivedType (details : DerivedTypeDetails) : Fresh table (.derivedType details)
  | binding {details : BindingDetails} :
      (table.details details.procedure).isProcedure = true → Fresh table (.binding details)
  | module (scope : ScopeId) : Fresh table (.module scope)
  | mainProgram (scope : ScopeId) : Fresh table (.mainProgram scope)
  | unresolved : Fresh table .unresolved

inductive Turns (table : Table) (id : SymbolId) : Details → Details → Prop where
  | same (details : Details) : Turns table id details details
  | object (before after : ObjectDetails) : Turns table id (.object before) (.object after)
  | retyped {before after : ProcEntityDetails} : after.interface = before.interface →
      Turns table id (.procEntity before) (.procEntity after)
  | procedure (before : Details) {after : ProcEntityDetails} :
      (∀ interface, after.interface = some interface → (table.details interface).isProcedure = true) →
      Turns table id before (.procEntity after)
  | generic (before after : GenericDetails) : Turns table id (.generic before) (.generic after)
  | derivedType (before after : DerivedTypeDetails) :
      Turns table id (.derivedType before) (.derivedType after)
  | subprogram (before : Details) {after : SubprogramDetails} :
      (∀ link ∈ after.links, id.index < link.index ∧ (table.details link).isObject = true) →
      Turns table id before (.subprogram after)

inductive Change (sites : Sites) : Table → Table → Prop where
  | scopes {table : Table} {scopes : Array Scope} : table.Widens { table with scopes } →
      Change sites table { table with scopes }
  | symbol {table : Table} {id : SymbolId} {change : Symbol → Symbol} :
      table.Turns id (table.details id) (change (table.symbol id)).details →
      (∀ symbol, (change symbol).span = symbol.span) → Change sites table (table.modifySymbol id change)
  | add {table : Table} {symbol : Symbol} : table.Fresh symbol.details → sites.site symbol.span →
      Change sites table { table with symbols := table.symbols.push symbol }

/-- The symbols that the details of a procedure name are of the right kind, and were made in the right
order. -/
def LinkedAt (table : Table) (id : SymbolId) : Details → Prop
  | .subprogram subprogram => ∀ link ∈ subprogram.links,
    id.index < link.index ∧ (table.details link).isArgument = true
  | .procEntity entity => ∀ interface, entity.interface = some interface →
    (table.details interface).isProcedure = true
  | .binding binding => binding.procedure.index < id.index ∧
    (table.details binding.procedure).isProcedure = true
  | _ => True

def Linked (table : Table) : Prop :=
  ∀ id, table.LinkedAt id (table.details id)

variable {sites : Sites} {table next : Table} {id : SymbolId} {before after : Details}

theorem details_of_not_lt (outside : ¬ id.index < table.symbols.size) : table.details id = .unresolved := by
  simp [details, symbol, Symbol.missing, Array.getD, outside]

theorem lt_size_of_ne_unresolved (known : table.details id ≠ .unresolved) : id.index < table.symbols.size :=
  Classical.byContradiction fun outside => known (details_of_not_lt outside)

theorem lt_size_of_isProcedure (isProcedure : (table.details id).isProcedure = true) :
    id.index < table.symbols.size := by
  refine lt_size_of_ne_unresolved fun unresolved => ?_
  rw [unresolved] at isProcedure
  exact Bool.false_ne_true isProcedure

theorem lt_size_of_isArgument (isArgument : (table.details id).isArgument = true) : id.index < table.symbols.size := by
  refine lt_size_of_ne_unresolved fun unresolved => ?_
  rw [unresolved] at isArgument
  exact Bool.false_ne_true isArgument

variable {object : ObjectDetails}

section

variable (isObject : table.details id = .object object)
include isObject

theorem lt_size_of_object : id.index < table.symbols.size := by
  refine lt_size_of_ne_unresolved fun unresolved => ?_
  rw [unresolved] at isObject
  cases isObject

theorem symbolType_of_object : table.symbolType id = object.type.bind table.typeOfDeclared := by
  obtain ⟨links, size⟩ := Nat.exists_eq_add_one_of_ne_zero (Nat.ne_zero_of_lt (lt_size_of_object isObject))
  rw [symbolType, size, symbolTypeWithin, isObject]

theorem symbolShape_of_object :
    table.symbolShape id =
      if object.shape.isAssumedRank then none else some (object.shape.map (Shape.extentOfBounds table)) := by
  obtain ⟨links, size⟩ := Nat.exists_eq_add_one_of_ne_zero (Nat.ne_zero_of_lt (lt_size_of_object isObject))
  rw [symbolShape, size, symbolShapeWithin, isObject]

end

theorem symbol_modifySymbol (table : Table) (id other : SymbolId) (change : Symbol → Symbol) :
    (table.modifySymbol id change).symbol other =
      if other = id ∧ id.index < table.symbols.size then change (table.symbol id) else table.symbol other := by
  obtain ⟨index⟩ := id
  obtain ⟨place⟩ := other
  simp only [SymbolId.mk.injEq]
  exact getD_modify table.symbols index place change Symbol.missing

theorem details_modifySymbol (table : Table) (id other : SymbolId) (change : Symbol → Symbol) :
    (table.modifySymbol id change).details other =
      if other = id ∧ id.index < table.symbols.size then (change (table.symbol id)).details
      else table.details other := by
  rw [details, symbol_modifySymbol]
  split <;> rfl

theorem symbol_push (table : Table) (added : Symbol) (other : SymbolId) :
    { table with symbols := table.symbols.push added }.symbol other =
      if other.index = table.symbols.size then added else table.symbol other := by
  simp only [symbol, Array.getD_eq_getD_getElem?, Array.getElem?_push]
  split <;> rfl

theorem details_push (table : Table) (added : Symbol) (other : SymbolId) :
    { table with symbols := table.symbols.push added }.details other =
      if other.index = table.symbols.size then added.details else table.details other := by
  rw [details, symbol_push]
  split <;> rfl

theorem Turns.isProcedure (turns : table.Turns id before after)
    (isProcedure : before.isProcedure = true) : after.isProcedure = true := by
  cases turns <;> first | exact isProcedure | rfl

theorem Turns.isArgument (turns : table.Turns id before after)
    (isArgument : before.isArgument = true) : after.isArgument = true := by
  cases turns <;> first | exact isArgument | rfl

namespace Change

theorem same (table : Table) : Change sites table table :=
  .scopes (.of_scopes_eq rfl)

theorem widens (change : Change sites table next) : table.Widens next := by
  cases change with
  | scopes widens => exact widens
  | symbol | add => exact .of_scopes_eq rfl

variable {id : SymbolId}

theorem setDetails {before after : Details} (isBefore : table.details id = before)
    (turns : table.Turns id before after) : Change sites table (table.setDetails id after) :=
  .symbol (isBefore ▸ turns) fun _ => rfl

theorem addUsage (table : Table) (id : SymbolId) (usage : Usage) : Change sites table (table.addUsage id usage) :=
  .symbol (.same _) fun _ => rfl

theorem sited (change : Change sites table next) (sited : table.Sited sites) : next.Sited sites := by
  cases change with
  | scopes => exact sited
  | symbol _ same => exact sited.modifySymbol _ same
  | add _ isSite =>
    intro symbol member
    rcases Array.mem_push.mp member with earlier | rfl
    · exact sited symbol earlier
    · exact isSite

theorem details_eq_or_turns {change : Symbol → Symbol}
    (turns : table.Turns id (table.details id) (change (table.symbol id)).details) (other : SymbolId) :
    table.Turns id (table.details other) ((table.modifySymbol id change).details other) := by
  rw [details_modifySymbol]
  split
  next here => exact here.1 ▸ turns
  · exact .same _

variable (change : Change sites table next)
include change

theorem isProcedure (isProcedure : (table.details id).isProcedure = true) : (next.details id).isProcedure = true := by
  cases change with
  | scopes => exact isProcedure
  | symbol turns => exact (details_eq_or_turns turns id).isProcedure isProcedure
  | add fresh =>
    have bound := lt_size_of_isProcedure isProcedure
    rwa [details_push, if_neg (by omega)]

theorem isArgument (isArgument : (table.details id).isArgument = true) : (next.details id).isArgument = true := by
  cases change with
  | scopes => exact isArgument
  | symbol turns => exact (details_eq_or_turns turns id).isArgument isArgument
  | add fresh =>
    have bound := lt_size_of_isArgument isArgument
    rwa [details_push, if_neg (by omega)]

theorem size_le : table.symbols.size ≤ next.symbols.size := by
  cases change with
  | scopes => exact Nat.le_refl _
  | symbol => exact Nat.le_of_eq Array.size_modify.symm
  | add => exact Nat.le_trans (Nat.le_succ _) (Nat.le_of_eq (Array.size_push _).symm)

end Change

theorem isArgument_of_isObject {details : Details} (isObject : details.isObject = true) :
    details.isArgument = true := by
  cases details <;> first | rfl | exact isObject

theorem LinkedAt.of_change (change : Change sites table next) (linked : table.LinkedAt id after) :
    next.LinkedAt id after := by
  cases after with
  | subprogram => exact fun link member => (linked link member).imp_right change.isArgument
  | procEntity => exact fun interface isInterface => change.isProcedure (linked interface isInterface)
  | binding => exact linked.imp_right change.isProcedure
  | _ => trivial

theorem LinkedAt.of_turns (turns : table.Turns id before after) (linked : table.LinkedAt id before) :
    table.LinkedAt id after := by
  cases turns with
  | same => exact linked
  | object | generic | derivedType => trivial
  | retyped sameInterface =>
    intro interface isInterface
    exact linked interface (sameInterface ▸ isInterface)
  | procedure _ interfaces => exact interfaces
  | subprogram _ links =>
    exact fun link member => (links link member).imp_right isArgument_of_isObject

theorem LinkedAt.of_fresh (fresh : table.Fresh after) : table.LinkedAt ⟨table.symbols.size⟩ after := by
  cases fresh with
  | binding isProcedure => exact ⟨lt_size_of_isProcedure isProcedure, isProcedure⟩
  | procEntity => exact fun interface isInterface => by simp at isInterface
  | _ => trivial

theorem linked_empty : Linked .empty := by
  intro id
  rw [details_of_not_lt (Nat.not_lt_zero _)]
  trivial

theorem Linked.of_change (change : Change sites table next) (linked : Linked table) : Linked next := by
  intro id
  refine LinkedAt.of_change change ?_
  cases change with
  | scopes => exact linked id
  | symbol turns =>
    rw [details_modifySymbol]
    split
    next here =>
      obtain ⟨rfl, -⟩ := here
      exact .of_turns turns (linked _)
    · exact linked id
  | add fresh =>
    rw [details_push]
    split
    next last =>
      obtain ⟨index⟩ := id
      obtain rfl : index = _ := last
      exact .of_fresh fresh
    · exact linked id

end Table

def ResolutionFault.isMissing : ResolutionFault → Bool
  | procedureNotFound _ | bindingTargetNotFound _ _ => true
  | _ => false

namespace Resolution

/-- One step of resolving a program. A quiet step leaves what waits as it is, and reports no missing
procedure. -/
inductive Change (mode : Mode) : Resolution → Resolution → Prop where
  | table {state : Resolution} {next : Table} : Table.Change mode.toSites state.table next →
      Change mode state { state with table := next }
  | refer {state : Resolution} {reference : Reference} :
      (∀ id, reference.callee = .symbol id → (state.table.details id).isProcedure = true) →
      reference.Sited mode.toSites →
      Change mode state { state with references := state.references.push reference }
  | report (state : Resolution) {finding : ResolutionFinding} : mode.site finding.span →
      (mode.quiet = true → finding.fault.isMissing = false) →
      Change mode state { state with findings := state.findings.push finding }
  | note {state next : Resolution} : next.table = state.table →
      next.references = state.references → next.findings = state.findings →
      (state.Sited mode.toSites → next.Sited mode.toSites) →
      (mode.quiet = true → next.pendingGenerics = state.pendingGenerics ∧
        next.pendingBindings = state.pendingBindings) →
      Change mode state next

def Evolves (mode : Mode) : Resolution → Resolution → Prop :=
  Relation.ReflTransGen (Change mode)

structure Idle (state : Resolution) : Prop where
  generics : state.pendingGenerics = []
  bindings : state.pendingBindings = []

def Tidy (state : Resolution) : Prop :=
  ∀ finding ∈ state.findings, finding.fault.isMissing = false

structure Linked (state : Resolution) : Prop where
  table : Table.Linked state.table
  references : ∀ reference ∈ state.references, ∀ id, reference.callee = .symbol id →
    (state.table.details id).isProcedure = true

variable {mode : Mode} {state next : Resolution} {id : SymbolId}

theorem Change.isProcedure (change : Change mode state next)
    (isProcedure : (state.table.details id).isProcedure = true) : (next.table.details id).isProcedure = true := by
  cases change with
  | table change => exact change.isProcedure isProcedure
  | refer | report => exact isProcedure
  | note sameTable => rwa [sameTable]

theorem Linked.of_change (change : Change mode state next) (linked : Linked state) : Linked next := by
  refine ⟨?_, ?_⟩
  · cases change with
    | table change => exact linked.table.of_change change
    | refer | report => exact linked.table
    | note sameTable =>
      rw [sameTable]
      exact linked.table
  · intro reference member id isSymbol
    have keeps := fun earlier => change.isProcedure (linked.references reference earlier id isSymbol)
    cases change with
    | table | report => exact keeps member
    | refer isProcedure =>
      rcases Array.mem_push.mp member with earlier | rfl
      · exact keeps earlier
      · exact isProcedure id isSymbol
    | note _ sameReferences => exact keeps (sameReferences ▸ member)

namespace Evolves

theorem refl (state : Resolution) : Evolves mode state state :=
  Relation.ReflTransGen.refl

theorem trans {middle : Resolution} (first : Evolves mode state middle) (second : Evolves mode middle next) :
    Evolves mode state next :=
  Relation.ReflTransGen.trans first second

theorem of_change (change : Change mode state next) : Evolves mode state next :=
  Relation.ReflTransGen.single change

section

variable (evolves : Evolves mode state next)
include evolves

theorem isProcedure (isProcedure : (state.table.details id).isProcedure = true) :
    (next.table.details id).isProcedure = true := by
  induction evolves with
  | refl => exact isProcedure
  | tail _ change ih => exact change.isProcedure ih

theorem size_le : state.table.symbols.size ≤ next.table.symbols.size := by
  induction evolves with
  | refl => exact Nat.le_refl _
  | tail _ change ih =>
    refine Nat.le_trans ih ?_
    cases change with
    | table change => exact change.size_le
    | refer | report => exact Nat.le_refl _
    | note sameTable => exact Nat.le_of_eq (by rw [sameTable])

theorem widens : state.table.Widens next.table := by
  induction evolves with
  | refl => exact .of_scopes_eq rfl
  | tail _ change ih =>
    refine ih.trans ?_
    cases change with
    | table change => exact change.widens
    | refer | report => exact .of_scopes_eq rfl
    | note sameTable => exact .of_scopes_eq (by rw [sameTable])

theorem sited (sited : state.Sited mode.toSites) : next.Sited mode.toSites := by
  induction evolves with
  | refl => exact sited
  | tail _ change ih =>
    cases change with
    | table change => exact { ih with table := change.sited ih.table }
    | refer _ isReference =>
      refine { ih with references := fun reference member => ?_ }
      rcases Array.mem_push.mp member with earlier | rfl
      · exact ih.references reference earlier
      · exact isReference
    | report isSite =>
      refine { ih with findings := fun finding member => ?_ }
      rcases Array.mem_push.mp member with earlier | rfl
      · exact ih.findings finding earlier
      · exact isSite
    | note _ _ _ keeps => exact keeps ih

end

theorem loud {quiet : Bool} (evolves : Evolves (.anywhere quiet) state next) :
    Evolves (.anywhere false) state next := by
  refine Relation.ReflTransGen.mono (fun before after change => ?_) _ _ evolves
  cases change with
  | table change => exact .table change
  | refer isProcedure isReference => exact .refer isProcedure isReference
  | report isSite => exact .report _ isSite nofun
  | note sameTable sameReferences sameFindings keeps => exact .note sameTable sameReferences sameFindings keeps nofun

variable (evolves : Evolves mode state next)
include evolves

theorem waiting (isQuiet : mode.quiet = true) :
    next.pendingGenerics = state.pendingGenerics ∧ next.pendingBindings = state.pendingBindings := by
  induction evolves with
  | refl => exact ⟨rfl, rfl⟩
  | tail _ change ih =>
    cases change with
    | table | refer | report => exact ih
    | note _ _ _ _ same => exact ⟨(same isQuiet).1.trans ih.1, (same isQuiet).2.trans ih.2⟩

theorem idle (isQuiet : mode.quiet = true) (idle : Idle state) : Idle next :=
  ⟨(evolves.waiting isQuiet).1.trans idle.generics, (evolves.waiting isQuiet).2.trans idle.bindings⟩

theorem tidy (isQuiet : mode.quiet = true) (tidy : Tidy state) : Tidy next := by
  induction evolves with
  | refl => exact tidy
  | tail _ change ih =>
    cases change with
    | table | refer => exact ih
    | report _ found =>
      intro finding member
      rcases Array.mem_push.mp member with earlier | rfl
      · exact ih finding earlier
      · exact found isQuiet
    | note _ _ same => exact fun finding member => ih finding (same ▸ member)

theorem linked (linked : Linked state) : Linked next := by
  induction evolves with
  | refl => exact linked
  | tail _ change ih => exact ih.of_change change

end Evolves

theorem linked_start : Linked start :=
  ⟨Table.linked_empty, fun reference member => by simp [start] at member⟩

end Resolution

end FortranInterface
