import FortranInterface.Analysis.Finding
import FortranInterface.Procedure.OfReference

/-!
Checks of the references of a program. A procedure whose interface is not explicit is known by its
references alone, and the first one that suggests an interface decides for those behind it.
-/

namespace FortranInterface

structure Checks where
  implicitReferences : Bool
  externalDefinitions : Bool

namespace Analysis

def referenced? (table : Table) (reference : Reference) : Option (SymbolId × Procedure) :=
  match reference.callee with
  | .symbol id => (table.procedure id).map fun procedure => (id, procedure)
  | .intrinsic _ => none

def inferred? (table : Table) (reference : Reference) : Option InferredInterface :=
  (table.inferredProcedure reference.callee reference.arguments reference.isFunction).map fun procedure =>
    ⟨procedure, reference.span⟩

abbrev Inferred := List (SymbolId × InferredInterface)

def remember (table : Table) (known : Inferred) (reference : Reference) : Inferred :=
  match referenced? table reference with
  | some (id, procedure) =>
    if procedure.hasExplicitInterface || (known.lookup id).isSome then known
    else
      match inferred? table reference with
      | some inferred => (id, inferred) :: known
      | none => known
  | none => known

def distinctFault? (table : Table) (known : Inferred) (id : SymbolId) (reference : Reference) :
    Option AnalysisFault :=
  (inferred? table reference).bind fun found =>
    (known.lookup id).bind fun previous =>
      if previous.procedure.same found.procedure then none
      else some (.distinctReference id found previous)

def definition? (table : Table) (name : String) : Option SymbolId :=
  ((table.scope Table.global).find? name).filter fun id =>
    match (table.details id).subprogram? with
    | some subprogram => !subprogram.isInterface
    | none => false

def definedProcedure? (table : Table) (checks : Checks) (id : SymbolId) : Option Procedure :=
  if checks.externalDefinitions then
    (definition? table (table.symbol id).name).bind table.procedure
  else none

def interfaceFaults (table : Table) (checks : Checks) (known : Inferred) (id : SymbolId)
    (reference : Reference) : List AnalysisFault :=
  (if checks.implicitReferences then [.implicitReference id] else []) ++
    (distinctFault? table known id reference).toList

def argumentFindings (table : Table) (procedure : Procedure) (isExternal : Bool)
    (reference : Reference) : List Finding :=
  (Call.check table procedure reference.scope isExternal reference.arguments).map fun message =>
    ⟨.call isExternal message, message.span.getD reference.span⟩

def referenceFindings (table : Table) (checks : Checks) (known : Inferred) (reference : Reference) :
    List Finding :=
  match referenced? table reference with
  | none => []
  | some (id, procedure) =>
    if procedure.hasExplicitInterface then argumentFindings table procedure false reference
    else
      (interfaceFaults table checks known id reference).map (fun fault => ⟨fault, reference.span⟩) ++
        match definedProcedure? table checks id with
        | some defined => argumentFindings table defined true reference
        | none => argumentFindings table procedure false reference

/-- The findings on references in their order, where `known` is what those before them suggested. -/
def referencesFindings (table : Table) (checks : Checks) (known : Inferred) :
    List Reference → List Finding
  | [] => []
  | reference :: others =>
    referenceFindings table checks known reference ++
      referencesFindings table checks (remember table known reference) others

end Analysis

end FortranInterface
