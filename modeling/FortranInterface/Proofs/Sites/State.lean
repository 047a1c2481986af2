import FortranInterface.Proofs.Sites.Tree
import FortranInterface.Resolution.State

/-!
The spans in the state of resolving a program. A state is sited if all its spans are sites: those of symbols, references
and findings, and those in the trees that it keeps for later.
-/

namespace FortranInterface

/-- What a site is, and when a span stands inside another one. The span of a symbol that is not in the
table is a site. -/
structure Sites where
  site : Span → Prop
  inside : Span → Span → Prop
  origin : site ⟨0, 0⟩

variable (sites : Sites)

def Actual.Sited (actual : Actual) : Prop :=
  ∀ span ∈ actual.span, sites.site span

def Actuals.Sited (actuals : Actuals) : Prop :=
  ∀ slot ∈ actuals, ∀ actual ∈ slot, actual.Sited sites

structure Reference.Sited (reference : Reference) : Prop where
  span : sites.site reference.span
  arguments : Actuals.Sited sites reference.arguments

def Table.Sited (table : Table) : Prop :=
  ∀ symbol ∈ table.symbols, sites.site symbol.span

def ImplicitTyping.Sited (typing : ImplicitTyping) : Prop :=
  ∀ rule ∈ typing.rules, rule.Sited sites.site sites.inside

structure Resolution.Sited (state : Resolution) : Prop where
  table : state.table.Sited sites
  implicit : ∀ entry ∈ state.implicit, entry.2.Sited sites
  generics : ∀ pending ∈ state.pendingGenerics, ∀ name ∈ pending.names, sites.site name.span
  bindings : ∀ pending ∈ state.pendingBindings, ∀ binding ∈ pending.bindings, binding.Sited sites.site sites.inside
  bodies : ∀ entry ∈ state.bodies, ∀ stmt ∈ entry.2, stmt.Sited sites.site sites.inside
  references : ∀ reference ∈ state.references, reference.Sited sites
  findings : ∀ finding ∈ state.findings, sites.site finding.span

variable {sites} {α β : Type}

namespace Table

variable {table : Table}

theorem Sited.symbol (sited : table.Sited sites) (id : SymbolId) : sites.site (table.symbol id).span := by
  rw [Table.symbol, Array.getD]
  split
  · exact sited _ (Array.getElem_mem _)
  · exact sites.origin

theorem Sited.modifySymbol (sited : table.Sited sites) (id : SymbolId) {change : Symbol → Symbol}
    (same : ∀ symbol, (change symbol).span = symbol.span) : (table.modifySymbol id change).Sited sites := by
  intro symbol member
  obtain ⟨index, bound, rfl⟩ := Array.mem_iff_getElem.mp member
  have inside : index < table.symbols.size := by simpa [Table.modifySymbol] using bound
  have isSpan : ((table.modifySymbol id change).symbols[index]).span = (table.symbols[index]).span := by
    simp only [Table.modifySymbol, Array.getElem_modify]
    split
    · exact same _
    · rfl
  rw [isSpan]
  exact sited _ (Array.getElem_mem inside)

end Table

theorem Resolution.Sited.implicitFor {state : Resolution} (sited : state.Sited sites) (scope : ScopeId) :
    (state.implicitFor scope).Sited sites := by
  rw [Resolution.implicitFor]
  cases isFound : (state.table.hosts scope).findSome? fun host => state.implicit.lookup host with
  | none => exact fun _ member => by cases member
  | some typing =>
    obtain ⟨host, -, isTyping⟩ := List.exists_of_findSome?_eq_some isFound
    obtain ⟨before, after, isEntry, -⟩ := List.lookup_eq_some_iff.mp isTyping
    exact sited.implicit (host, typing) (by simp [isEntry])

/-- How a program is resolved: between which sites, and whether quietly. -/
structure Mode extends Sites where
  quiet : Bool

def Mode.anywhere (quiet : Bool) : Mode where
  site _ := True
  inside _ _ := True
  origin := trivial
  quiet := quiet

theorem Resolution.sited_start : Resolution.start.Sited sites where
  table := fun _ member => by simp [start, Table.empty] at member
  implicit := fun _ member => by cases member
  generics := fun _ member => by cases member
  bindings := fun _ member => by cases member
  bodies := fun _ member => by cases member
  references := fun _ member => by simp [start] at member
  findings := fun _ member => by simp [start] at member

namespace Mode.anywhere

variable {quiet : Bool}

theorem binding (binding : Tree.Binding) : binding.Sited (anywhere quiet).site (anywhere quiet).inside :=
  Tree.Binding.sited_of_all (fun _ => trivial) (fun _ _ => trivial) binding

theorem stmt (stmt : Tree.Stmt) : stmt.Sited (anywhere quiet).site (anywhere quiet).inside :=
  Tree.Stmt.sited_of_all (fun _ => trivial) (fun _ _ => trivial) stmt

theorem state (state : Resolution) : state.Sited (anywhere quiet).toSites where
  table _ _ := trivial
  implicit _ _ rule _ := Tree.TypeSpec.sited_of_all (fun _ => trivial) (fun _ _ => trivial) rule.type
  generics _ _ _ _ := trivial
  bindings _ _ given _ := binding given
  bodies _ _ given _ := stmt given
  references _ _ := ⟨trivial, fun _ _ _ _ _ _ => trivial⟩
  findings _ _ := trivial

theorem subprogram (subprogram : Tree.Subprogram) : subprogram.Sited (anywhere quiet).site (anywhere quiet).inside :=
  (Tree.sited_of_all (fun _ => trivial) fun _ _ => trivial).2.2.2 subprogram

theorem subprograms (subprograms : List Tree.Subprogram) :
    Tree.SitedSubprograms (anywhere quiet).site (anywhere quiet).inside subprograms :=
  (Tree.sited_of_all (fun _ => trivial) fun _ _ => trivial).2.2.1 subprograms

theorem decl (decl : Tree.Decl) : decl.Sited (anywhere quiet).site (anywhere quiet).inside :=
  (Tree.sited_of_all (fun _ => trivial) fun _ _ => trivial).1 decl

theorem program (program : Tree.Program) : program.Sited (anywhere quiet).site (anywhere quiet).inside :=
  Tree.Program.sited_of_all (fun _ => trivial) (fun _ _ => trivial) program

end Mode.anywhere

end FortranInterface
