import FortranInterface.Analysis.Generic
import FortranInterface.Analysis.Override
import FortranInterface.Analysis.Reference

/-!
The analysis of a whole program.
-/

namespace FortranInterface.ResolvedProgram

def analysis (program : ResolvedProgram) (checks : Checks) : List Finding :=
  program.findings.map (fun finding => ⟨.resolution finding.fault, finding.span⟩) ++
    Analysis.referencesFindings program.table checks [] program.references ++
    Analysis.genericFindings program.table ++ Analysis.overrideFindings program.table

def check (program : ResolvedProgram) (checks : Checks) (grading : Grading) : List Diagnostic :=
  (program.analysis checks).filterMap (grading.diagnostic? program.table)

end FortranInterface.ResolvedProgram
