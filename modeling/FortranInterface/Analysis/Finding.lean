import FortranInterface.Analysis.Directive
import FortranInterface.Procedure.Text
import FortranInterface.Resolution.Program

/-!
What the analysis of a program finds. Some findings are errors whatever the settings are; the others
belong to a group of warnings, and the settings say what becomes of a group.
-/

namespace FortranInterface

inductive WarningGroup where
  | argument
  | externalInterface
  | implicitInterface
  | implicitReference
  deriving DecidableEq

namespace WarningGroup

instance : Enumerated WarningGroup where
  all := [argument, externalInterface, implicitInterface, implicitReference]
  complete := by intro group; cases group <;> decide
  label
    | argument => "argument"
    | externalInterface => "external_interface"
    | implicitInterface => "implicit_interface"
    | implicitReference => "implicit_reference"

def name (group : WarningGroup) : String :=
  Enumerated.label group

end WarningGroup

structure InferredInterface where
  procedure : Procedure
  span : Span

inductive AnalysisFault where
  | resolution (fault : ResolutionFault)
  /-- A message on the arguments of a reference. The procedure may be external, with a definition
  that the reference does not see. -/
  | call (isExternal : Bool) (message : Message)
  | implicitReference (procedure : SymbolId)
  | distinctReference (procedure : SymbolId) (found previous : InferredInterface)
  | indistinguishable (generic first second : SymbolId)
  | incompatibleOverride (binding overridden : SymbolId)

namespace AnalysisFault

/-- The group to which a fault belongs. A fault without a group is always an error. -/
def group? : AnalysisFault → Option WarningGroup
  | call isExternal message =>
    match message.severity with
    | .error => none
    | .warning => some (if isExternal then .externalInterface else .argument)
  | implicitReference _ => some .implicitReference
  | distinctReference .. => some .implicitInterface
  | resolution _ | indistinguishable .. | incompatibleOverride .. => none

def text (table : Table) : AnalysisFault → String
  | resolution fault => fault.text
  | call _ message => message.text
  | implicitReference procedure =>
    "'" ++ (table.symbol procedure).name ++ "' is referenced through an implicit interface"
  | distinctReference procedure found _ =>
    "Reference to the procedure '" ++ (table.symbol procedure).name ++
      "' has an implicit interface that is distinct from another reference: " ++
      found.procedure.text table
  | indistinguishable generic first second =>
    "Generic '" ++ (table.symbol generic).name ++ "' may not have specific procedures '" ++
      (table.symbol first).name ++ "' and '" ++ (table.symbol second).name ++
      "' as their interfaces are not distinguishable"
  | incompatibleOverride .. =>
    "A type-bound procedure and its override must have compatible interfaces"

def notes (table : Table) : AnalysisFault → List String
  | call _ message => message.notes.map Message.text
  | distinctReference _ _ previous =>
    ["previous reference at bytes " ++ toString previous.span.start ++ ".." ++
      toString previous.span.stop ++ ": " ++ previous.procedure.text table]
  | incompatibleOverride binding overridden =>
    ["overridden binding '" ++ (table.symbol binding).name ++ "' of type '" ++
      (table.scope (table.symbol overridden).owner).name.getD "" ++ "'"]
  | resolution _ | implicitReference _ | indistinguishable .. => []

end AnalysisFault

structure Finding where
  fault : AnalysisFault
  span : Span

structure Grading where
  directives : Directives
  warningsAreErrors : Bool

namespace Grading

def allows (grading : Grading) (group : WarningGroup) : Bool :=
  grading.directives.asks .allow group.name

def raises (grading : Grading) (group : WarningGroup) : Bool :=
  grading.warningsAreErrors || grading.directives.asks .error group.name ||
    grading.directives.asks .deny group.name

/-- The kind of diagnostic for a fault of a group. A group that is allowed has none. -/
def kind? (grading : Grading) : Option WarningGroup → Option DiagnosticKind
  | none => some .semantic
  | some group =>
    if grading.allows group then none
    else if grading.raises group then some .semantic
    else some .warning

def diagnostic? (grading : Grading) (table : Table) (finding : Finding) : Option Diagnostic :=
  (grading.kind? finding.fault.group?).map fun kind =>
    ⟨kind, finding.fault.text table, finding.span, finding.fault.notes table⟩

end Grading

end FortranInterface
