import FortranInterface.Source.Span

/-!
What the checker tells about a source text.
-/

namespace FortranInterface

inductive DiagnosticKind where
  | lexical
  | grammar
  | semantic
  | warning
  deriving DecidableEq

structure Diagnostic where
  kind : DiagnosticKind
  message : String
  span : Span
  notes : List String
  deriving DecidableEq

namespace DiagnosticKind

def label : DiagnosticKind → String
  | lexical => "Lex"
  | grammar => "Parse"
  | semantic => "Semantic"
  | warning => "Warning"

end DiagnosticKind

namespace Diagnostic

def isError (diagnostic : Diagnostic) : Bool :=
  diagnostic.kind ≠ .warning

def text (diagnostic : Diagnostic) : String :=
  diagnostic.kind.label ++ ": " ++ diagnostic.message

end Diagnostic

end FortranInterface
