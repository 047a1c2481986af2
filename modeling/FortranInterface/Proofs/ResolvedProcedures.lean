import FortranInterface.Analysis.Reference
import FortranInterface.Proofs.Resolution.Program

/-!
The procedures of a resolved program. Only a procedure that is declared with an interface from which it
can be reached makes the search for characteristics run in a circle, and a reference is checked if
nothing on the way from its procedure is unknown.
-/

namespace FortranInterface

open Relation

namespace Tree.Program

/-- In the table of a program a cycle of links leads through a procedure entity and its interface.
Where there is none, every walk ends, and the characteristics of a symbol are put together from those of
the symbols that it follows, however many links are allowed. Where there is one, no number of links is
enough. -/
theorem procedure_walks_end (program : Tree.Program) :
    ((∀ id, ¬ TransGen program.resolve.table.Follows id id) ↔ ∀ id, ¬ program.resolve.table.Loops id) ∧
    ∀ id,
      (program.resolve.table.Ends id ↔
        ∀ other, ReflTransGen program.resolve.table.Follows id other → ¬ program.resolve.table.Loops other) ∧
      (program.resolve.table.Ends id →
        Acc (fun link id => program.resolve.table.Follows id link) id ∧
        program.resolve.table.procedure id = program.resolve.table.procedureStep program.resolve.table.procedure id ∧
        ∀ links, program.resolve.table.symbols.size ≤ links →
          program.resolve.table.procedureWithin links id = program.resolve.table.procedure id) ∧
      (¬ program.resolve.table.Ends id → ∀ links, program.resolve.table.procedureWithin links id = none) := by
  have linked := program.linked_resolve
  generalize program.resolve.table = table at linked
  refine ⟨⟨fun noCycle id => ?_, fun noLoop id => ?_⟩, fun id => ⟨Table.ends_iff linked, ?_, ?_⟩⟩
  · have ends : table.Ends id := fun other _ => noCycle other
    exact (Table.ends_iff linked).mp ends id .refl
  · exact (Table.ends_iff linked).mpr (fun other _ => noLoop other) id .refl
  · intro ends
    exact ⟨ends.acc, Table.procedure_eq_step ends, fun links enough => Table.procedureWithin_eq_procedure ends enough⟩
  · intro circular links
    cases found : table.procedureWithin links id with
    | none => rfl
    | some procedure => exact absurd (Table.ends_of_isSome linked (by rw [found]; rfl)) circular

def somewhere : Span :=
  ⟨0, 1⟩

def subroutine (name dummy : String) (spec : List Tree.Decl) : Tree.Subprogram :=
  ⟨.subroutine, name, [], [.name dummy somewhere], false, spec, [], [], somewhere⟩

def declares (name interface : String) : Tree.Decl :=
  .procedure (some (.name interface)) [] [⟨name, somewhere⟩] somewhere

/-- A module with a subroutine whose dummy argument `p` has the interface of `f`. -/
def passesProcedure : Tree.Program :=
  ⟨[.module ⟨"m",
    [.interface ⟨.abstract, [subroutine "f" "x" []], [], somewhere⟩],
    [subroutine "s" "p" [declares "p" "f"]], somewhere⟩]⟩

theorem procedure_walks_end_passesProcedure :
    passesProcedure.resolve.table.Ends ⟨3⟩ ∧
      passesProcedure.resolve.table.procedure ⟨3⟩ =
        passesProcedure.resolve.table.procedureStep passesProcedure.resolve.table.procedure ⟨3⟩ := by
  have ends (id : SymbolId) (links : List SymbolId)
      (followed : passesProcedure.resolve.table.followed id = links)
      (all : ∀ link ∈ links, passesProcedure.resolve.table.Ends link) :
      passesProcedure.resolve.table.Ends id :=
    .of_follow fun link follows => all link (followed ▸ follows)
  have dummy := ends ⟨2⟩ [] (by decide +kernel) (by simp)
  have interface := ends ⟨1⟩ [⟨2⟩] (by decide +kernel) (by simpa using dummy)
  have procedure := ends ⟨4⟩ [⟨1⟩] (by decide +kernel) (by simpa using interface)
  have caller := ends ⟨3⟩ [⟨4⟩] (by decide +kernel) (by simpa using procedure)
  exact ⟨caller, ((passesProcedure.procedure_walks_end.2 ⟨3⟩).2.1 caller).2.1⟩

/-- A module with a subroutine whose dummy argument has the interface of the subroutine. -/
def passesItself : Tree.Program :=
  ⟨[.module ⟨"m", [], [subroutine "s" "p" [declares "p" "s"]], somewhere⟩]⟩

/-- A subroutine that takes a procedure like itself is declared without an error, and has no
characteristics. -/
theorem procedure_walk_circular_passesItself :
    passesItself.resolve.findings = [] ∧
      TransGen passesItself.resolve.table.Follows ⟨1⟩ ⟨1⟩ ∧
      passesItself.resolve.table.procedure ⟨1⟩ = none := by
  have forth : passesItself.resolve.table.Follows ⟨1⟩ ⟨2⟩ := by decide +kernel
  have back : passesItself.resolve.table.Follows ⟨2⟩ ⟨1⟩ := by decide +kernel
  exact ⟨by decide +kernel, .head forth (.single back), by decide +kernel⟩

/-- If a program has no findings, a reference to a procedure is checked if every walk from the procedure
ends and meets no symbol that is blocked; if not, nothing is ever found in the reference. -/
theorem reference_checked_iff (program : Tree.Program) (clean : program.resolve.findings = [])
    (reference : Reference) (member : reference ∈ program.resolve.references) (id : SymbolId)
    (isSymbol : reference.callee = .symbol id) :
    ((program.resolve.table.calleeProcedure reference.callee).isSome = true ↔ program.resolve.table.Grounded id) ∧
    (program.resolve.table.Grounded id →
      ∃ procedure, Analysis.referenced? program.resolve.table reference = some (id, procedure)) ∧
    (¬ program.resolve.table.Grounded id → ∀ checks known,
      Analysis.referenceFindings program.resolve.table checks known reference = []) := by
  have isProcedure := program.isProcedure_of_mem_references member isSymbol
  have known := Table.isSome_procedure_iff program.linked_resolve (program.typed_of_findings_eq_nil clean) isProcedure
  rw [isSymbol]
  refine ⟨known, fun grounded => ?_, fun unknown checks inferred => ?_⟩
  · obtain ⟨procedure, found⟩ := Option.isSome_iff_exists.mp (known.mpr grounded)
    exact ⟨procedure, by simp [Analysis.referenced?, isSymbol, found]⟩
  · have notFound : program.resolve.table.procedure id = none :=
      Option.not_isSome_iff_eq_none.mp fun isSome => unknown (known.mp isSome)
    simp [Analysis.referenceFindings, Analysis.referenced?, isSymbol, notFound]

/-- A program that calls a procedure `q` with the interface of `f`. -/
def callsDeclared : Tree.Program :=
  ⟨[.main ⟨none,
    [.interface ⟨.unnamed, [subroutine "f" "x" []], [], somewhere⟩, declares "q" "f"],
    [.call (.name "q" somewhere) [⟨none, .expr (.real "1.0" none somewhere), somewhere⟩] somewhere],
    [], somewhere⟩]⟩

theorem reference_checked_callsDeclared :
    callsDeclared.resolve.findings = [] ∧ ∃ reference ∈ callsDeclared.resolve.references,
      reference.callee = .symbol ⟨3⟩ ∧ callsDeclared.resolve.table.Grounded ⟨3⟩ := by
  have clean : callsDeclared.resolve.findings = [] := by decide +kernel
  have named : Callee.symbol ⟨3⟩ ∈ callsDeclared.resolve.references.map Reference.callee := by
    decide +kernel
  have isKnown : (callsDeclared.resolve.table.calleeProcedure (.symbol ⟨3⟩)).isSome = true := by
    decide +kernel
  obtain ⟨reference, member, isSymbol⟩ := List.mem_map.mp named
  refine ⟨clean, reference, member, isSymbol, ?_⟩
  have checked := callsDeclared.reference_checked_iff clean reference member ⟨3⟩ isSymbol
  rw [isSymbol] at checked
  exact checked.1.mp isKnown

/-- A program that refers to a function `f` of which only the name is declared, with a keyword. -/
def refersToExternal : Tree.Program :=
  ⟨[.main ⟨some "p",
    [.attributes (.plain .external) [⟨"f", somewhere⟩] somewhere],
    [.assign (.name "x" somewhere)
      (.call (.name "f" somewhere) [⟨some "a", .expr (.integer "1" none somewhere), somewhere⟩] somewhere) somewhere],
    [], somewhere⟩]⟩

theorem reference_unchecked_refersToExternal :
    refersToExternal.resolve.findings = [] ∧ ∃ reference ∈ refersToExternal.resolve.references,
      reference.callee = .symbol ⟨1⟩ ∧
      (refersToExternal.resolve.table.symbol ⟨1⟩).has .intrinsic = false ∧
      refersToExternal.resolve.table.calleeProcedure reference.callee = none := by
  have named : Callee.symbol ⟨1⟩ ∈ refersToExternal.resolve.references.map Reference.callee := by
    decide +kernel
  have unknown : refersToExternal.resolve.table.calleeProcedure (.symbol ⟨1⟩) = none := by
    decide +kernel
  obtain ⟨reference, member, isSymbol⟩ := List.mem_map.mp named
  exact ⟨by decide +kernel, reference, member, isSymbol, by decide +kernel, by rw [isSymbol, unknown]⟩

end Tree.Program

end FortranInterface
