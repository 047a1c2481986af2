import FortranInterface.Resolution.Fault
import FortranInterface.Resolution.Implicit
import FortranInterface.Resolution.Lookup

/-!
The state in which a program is resolved: the symbol table as far as it has been built, what has to
wait until later, and what has been found.
-/

namespace FortranInterface

/-- A reference to a procedure, by a call, a function reference, a defined operation or a defined
assignment. -/
structure Reference where
  scope : ScopeId
  callee : Callee
  generic : Option SymbolId
  arguments : Actuals
  isFunction : Bool
  span : Span

structure PendingGeneric where
  scope : ScopeId
  generic : SymbolId
  names : List Tree.Located

structure PendingBindings where
  type : SymbolId
  typeScope : ScopeId
  scope : ScopeId
  bindings : List Tree.Binding

structure Resolution where
  table : Table
  implicit : List (ScopeId × ImplicitTyping)
  /-- The modules whose names are private unless declared public. -/
  privateByDefault : List ScopeId
  modules : List (String × ScopeId)
  results : List SymbolId
  pendingGenerics : List PendingGeneric
  pendingBindings : List PendingBindings
  /-- The statements of each scoping unit, which are looked at when all is declared. -/
  bodies : List (ScopeId × List Tree.Stmt)
  references : Array Reference
  findings : Array ResolutionFinding

namespace Resolution

def start : Resolution :=
  ⟨.empty, [], [], [], [], [], [], [], #[], #[]⟩

/-- The rules for undeclared names in a scope: its own, or those of the nearest host that has any. -/
def implicitFor (state : Resolution) (scope : ScopeId) : ImplicitTyping :=
  ((state.table.hosts scope).findSome? fun host => state.implicit.lookup host).getD .default

end Resolution

abbrev Resolve := StateM Resolution

/-- A step that may give up, after it has reported why. What it did before remains. -/
abbrev Attempt := OptionT Resolve

namespace Resolve

def report (fault : ResolutionFault) (span : Span) : Resolve Unit :=
  modify fun state => { state with findings := state.findings.push ⟨fault, span⟩ }

def table : Resolve Table :=
  return (← get).table

def change (change : Table → Table) : Resolve Unit :=
  modify fun state => { state with table := change state.table }

def addSymbol (scope : ScopeId) (name : String) (attributes : Attributes) (details : Details)
    (span : Span) : Resolve SymbolId :=
  modifyGet fun state =>
    let added := state.table.addSymbol scope name attributes details span
    (added.1, { state with table := added.2 })

def addScope (kind : ScopeKind) (name : Option String) (parent : ScopeId)
    (symbol : Option SymbolId) : Resolve ScopeId :=
  modifyGet fun state =>
    let added := state.table.addScope kind name parent symbol
    (added.1, { state with table := added.2 })

def setImplicit (scope : ScopeId) (typing : ImplicitTyping) : Resolve Unit :=
  modify fun state => { state with implicit := (scope, typing) :: state.implicit }

def changeImplicit (scope : ScopeId) (change : ImplicitTyping → ImplicitTyping) : Resolve Unit := do
  setImplicit scope (change ((← get).implicitFor scope))

def refer (reference : Reference) : Resolve Unit :=
  modify fun state => { state with references := state.references.push reference }

/-- An object that is named as a procedure becomes a procedure; its type is that of the result. An
array stays what it is. -/
def becomeProcedure (id : SymbolId) : Resolve Unit :=
  change fun table =>
    match table.details id with
    | .object object =>
      if object.isArray then table
      else table.setDetails id (.procEntity ⟨none, object.type, object.isDummy, none⟩)
    | _ => table

end Resolve

namespace Attempt

variable {α β : Type}

def fail (fault : ResolutionFault) (span : Span) : Attempt α := do
  Resolve.report fault span
  failure

def both (first : Attempt α) (second : Attempt β) : Attempt (α × β) :=
  OptionT.mk do
    let left ← first.run
    let right ← second.run
    return match left, right with
      | some left, some right => some (left, right)
      | _, _ => none

def settle (attempt : Attempt α) : Attempt (Option α) :=
  OptionT.lift attempt.run

end Attempt

end FortranInterface
