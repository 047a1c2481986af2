import FortranInterface.Analysis.Program

/-!
What the settings for warnings can do to a report. The entries of a report do not depend on them: the settings
take entries of groups out and say whether those that are left are errors, and there is only one list of
entries from which every report comes in this way.
-/

namespace FortranInterface

/-- An entry of a report before it is graded. One that belongs to no group is an error under all settings. -/
structure ReportEntry where
  group : Option WarningGroup
  message : String
  span : Span
  notes : List String

namespace ReportEntry

def isSilenced (entry : ReportEntry) (grading : Grading) : Bool :=
  entry.group.any fun group => grading.directives.named.contains (.allow, group.name)

def isRaised (entry : ReportEntry) (grading : Grading) : Bool :=
  entry.group.all fun group => grading.warningsAreErrors ||
    grading.directives.named.contains (.error, group.name) || grading.directives.named.contains (.deny, group.name)

def diagnostic (entry : ReportEntry) (grading : Grading) : Diagnostic :=
  ⟨if entry.isRaised grading then .semantic else .warning, entry.message, entry.span, entry.notes⟩

variable {entry : ReportEntry}

end ReportEntry

namespace Grading

def report (grading : Grading) (entries : List ReportEntry) : List Diagnostic :=
  (entries.filter fun entry => !entry.isSilenced grading).map fun entry => entry.diagnostic grading

end Grading

namespace ReportEntry

end ReportEntry

def Finding.entry (table : Table) (finding : Finding) : ReportEntry :=
  ⟨finding.fault.group?, finding.fault.text table, finding.span, finding.fault.notes table⟩

namespace Grading

variable (grading : Grading)

end Grading

namespace ResolvedProgram

def entries (program : ResolvedProgram) (checks : Checks) : List ReportEntry :=
  (program.analysis checks).map (Finding.entry program.table)

end ResolvedProgram

namespace ResolvedProgram

end ResolvedProgram

end FortranInterface
