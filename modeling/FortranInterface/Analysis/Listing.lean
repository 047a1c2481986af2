import FortranInterface.Analysis.Generic
import FortranInterface.Analysis.Reference

/-!
The listing of the characteristics of every procedure of a program.
-/

namespace FortranInterface.ResolvedProgram

def qualifiedName (table : Table) (symbol : Symbol) : String :=
  match (table.scope symbol.owner).name with
  | some scope => scope ++ "::" ++ symbol.name
  | none => symbol.name

def procedureLine? (table : Table) (id : SymbolId) : Option String :=
  let symbol := table.symbol id
  if symbol.details.isProcedure then
    some (qualifiedName table symbol ++ ": " ++
      match table.procedure id with
      | some procedure => procedure.text table
      | none => "(not a procedure)")
  else none

def implicitCallee? (table : Table) (reference : Reference) : Option (SymbolId × Reference) :=
  reference.callee.symbol?.bind fun id =>
    match table.details id with
    | .procEntity ⟨none, _, _, _⟩ => some (id, reference)
    | _ => none

def inferredLine? (table : Table) (id : SymbolId) (reference : Reference) : Option String :=
  (Analysis.inferred? table reference).map fun inferred =>
    (table.symbol id).name ++ " (inferred from first reference): " ++ inferred.procedure.text table

def listing (program : ResolvedProgram) : List String :=
  program.table.ids.filterMap (procedureLine? program.table) ++
    (Analysis.freshBy Prod.fst [] (program.references.filterMap (implicitCallee? program.table))).filterMap
      fun (id, reference) => inferredLine? program.table id reference

end FortranInterface.ResolvedProgram
