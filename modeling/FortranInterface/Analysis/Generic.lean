import FortranInterface.Analysis.Finding
import FortranInterface.Procedure.Distinguishable

/-!
Generics with specific procedures that no reference can tell apart. A pair of procedures is reported
once, for the first generic that has it.
-/

namespace FortranInterface

namespace Analysis

/-- Pairs of elements, each with one that stands behind it. -/
def pairs {α : Type} : List α → List (α × α)
  | [] => []
  | first :: others => others.map (fun other => (first, other)) ++ pairs others

def freshBy {α β : Type} [DecidableEq β] (key : α → β) (seen : List β) : List α → List α
  | [] => []
  | first :: others =>
    if key first ∈ seen then freshBy key seen others
    else first :: freshBy key (key first :: seen) others

def mayShare (kind : GenericKind) (first second : Procedure) : Bool :=
  if kind.isOperatorOrAssignment then first.operatorDistinguishable second
  else first.distinguishable second

def knownSpecifics (table : Table) (generic : GenericDetails) : List (SymbolId × Procedure) :=
  generic.specifics.filterMap fun id => (table.procedure id).map fun procedure => (id, procedure)

structure Clash where
  generic : SymbolId
  first : SymbolId
  second : SymbolId
  deriving DecidableEq

def clashesOf (table : Table) (id : SymbolId) : List Clash :=
  match (table.details id).generic? with
  | none => []
  | some generic =>
    (pairs (knownSpecifics table generic)).filterMap fun (first, second) =>
      if first.1 = second.1 || mayShare generic.kind first.2 second.2 then none
      else some ⟨id, first.1, second.1⟩

def clashes (table : Table) : List Clash :=
  freshBy (fun clash => (clash.first, clash.second)) [] (table.ids.flatMap (clashesOf table))

def genericFindings (table : Table) : List Finding :=
  (clashes table).map fun clash =>
    ⟨.indistinguishable clash.generic clash.first clash.second, (table.symbol clash.generic).span⟩

end Analysis

end FortranInterface
