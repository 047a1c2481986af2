import FortranInterface.Resolution.Declaration
import FortranInterface.Resolution.Statement

/-!
Whole programs: the declarations of all program units first, then the statements.
-/

namespace FortranInterface

namespace Resolve

/-- Declares what a scoping unit specifies and the subprograms that it contains. The scopes of those
are the result; the statements wait. -/
def openUnit (scope : ScopeId) (spec : List Tree.Decl) (contains : List Tree.Subprogram)
    (body : List Tree.Stmt) (header : Option Tree.Subprogram) : Resolve (List ScopeId) := do
  declarations scope spec
  header.forM (typeResult scope)
  let children ← contains.mapM fun child =>
    Prod.snd <$> declareSubprogram scope child .contained
  closeSpecification scope
  if !body.isEmpty then
    modify fun state => { state with bodies := state.bodies ++ [(scope, body)] }
  return children

mutual

def subprogramUnit (scope : ScopeId) : Tree.Subprogram → Resolve Unit
  | ⟨kind, name, modifiers, dummies, bindC, spec, body, contains, span⟩ => do
    let children ← openUnit scope spec contains body
      (some ⟨kind, name, modifiers, dummies, bindC, spec, body, contains, span⟩)
    subprogramUnits children contains

def subprogramUnits : List ScopeId → List Tree.Subprogram → Resolve Unit
  | scope :: scopes, first :: rest => do
    subprogramUnit scope first
    subprogramUnits scopes rest
  | _, _ => return

end

def unnamedMain : String :=
  "_main"

def unitScope (kind : ScopeKind) (name : String) (details : ScopeId → Details) (span : Span) :
    Resolve ScopeId := do
  let scope ← addScope kind (some name) Table.global none
  let id ← addSymbol Table.global name .empty (details scope) span
  change fun table => table.modifyScope scope fun found => { found with symbol := some id }
  return scope

def programUnit : Tree.ProgramUnit → Resolve Unit
  | .module module => do
    let scope ← unitScope .module module.name .module module.span
    modify fun state => { state with modules := (module.name, scope) :: state.modules }
    subprogramUnits (← openUnit scope module.spec module.contains [] none) module.contains
  | .main program => do
    let scope ← unitScope .mainProgram (program.name.getD unnamedMain) .mainProgram program.span
    subprogramUnits (← openUnit scope program.spec program.contains program.body none)
      program.contains
  | .subprogram subprogram => do
    let (_, scope) ← declareSubprogram Table.global subprogram .external
    subprogramUnit scope subprogram

def reportUntyped : Resolve Unit := do
  (← table).symbols.forM fun symbol =>
    match symbol.details with
    | .object object => if object.type.isNone then report (.untyped symbol.name) symbol.span
      else pure ()
    | _ => pure ()

def program (program : Tree.Program) : Resolve Unit := do
  program.units.forM programUnit
  (← get).bodies.forM fun (scope, body) => statements scope body
  reportUntyped

end Resolve

structure ResolvedProgram where
  table : Table
  references : List Reference
  findings : List ResolutionFinding

namespace Tree.Program

def resolve (program : Program) : ResolvedProgram :=
  let state := ((Resolve.program program).run .start).2
  ⟨state.table, state.references.toList, state.findings.toList⟩

end Tree.Program

namespace ResolvedProgram

def diagnostics (program : ResolvedProgram) : List Diagnostic :=
  program.findings.map ResolutionFinding.diagnostic

end ResolvedProgram

end FortranInterface
