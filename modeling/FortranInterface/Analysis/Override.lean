import FortranInterface.Analysis.Finding
import FortranInterface.Procedure.Override

/-!
Type-bound procedures that override inherited ones without having a compatible interface.
-/

namespace FortranInterface

namespace Analysis

/-- The binding that the ancestors of a type provide for a name. A component hides it. -/
def inheritedBinding? (table : Table) (parent : SymbolId) (name : String) : Option SymbolId :=
  (table.component? parent name).filter fun id => (table.details id).isBinding

/-- Whether a binding may override an inherited one. Nothing is said where the characteristics of one
of them are not known. -/
def overrides (table : Table) (binding overridden : SymbolId) : Bool :=
  match table.procedure binding, table.procedure overridden with
  | some mine, some theirs =>
    mine.canOverride theirs
      (if (table.symbol binding).has .noPass then none else mine.dummies.findIdx? Dummy.pass)
  | _, _ => true

def overrideFinding? (table : Table) (parent binding : SymbolId) : Option Finding :=
  if (table.details binding).isBinding then
    (inheritedBinding? table parent (table.symbol binding).name).bind fun overridden =>
      if overrides table binding overridden then none
      else some ⟨.incompatibleOverride binding overridden, (table.symbol binding).span⟩
  else none

def overrideFindingsOf (table : Table) (type : SymbolId) : List Finding :=
  match table.details type with
  | .derivedType ⟨some parent, _, bindings, _⟩ =>
    bindings.filterMap (overrideFinding? table parent)
  | _ => []

def overrideFindings (table : Table) : List Finding :=
  table.ids.flatMap (overrideFindingsOf table)

end Analysis

end FortranInterface
