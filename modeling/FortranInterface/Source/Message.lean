import FortranInterface.Flags
import FortranInterface.Source.Diagnostic

/-!
Messages about a reference, before it is known where the reference stands, and the log in which
they are gathered. Checking never stops at the first problem.
-/

namespace FortranInterface

inductive Severity where
  | error
  | warning
  deriving DecidableEq

namespace Severity

instance : Enumerated Severity where
  all := [error, warning]
  complete := by intro severity; cases severity <;> decide
  label
    | error => "Error"
    | warning => "Warning"

def diagnosticKind : Severity → DiagnosticKind
  | error => .semantic
  | warning => .warning

def lead : Severity → String
  | error => "error: "
  | warning => "warning: "

end Severity

structure Message where
  severity : Severity
  text : String
  span : Option Span
  notes : List Message

namespace Message

def error (text : String) (span : Option Span) : Message :=
  ⟨.error, text, span, []⟩

def warning (text : String) (span : Option Span) : Message :=
  ⟨.warning, text, span, []⟩

def isFatal (message : Message) : Bool :=
  message.severity = .error

def attach (message : Message) (notes : List Message) : Message :=
  { message with notes := message.notes ++ notes }

def diagnostic (message : Message) (place : Span) : Diagnostic :=
  ⟨message.severity.diagnosticKind, message.text, message.span.getD place,
    message.notes.map Message.text⟩

def shown (message : Message) : String :=
  message.severity.lead ++ message.text ++
    String.join (message.notes.map fun note => "\n  note: " ++ note.text)

end Message

structure MessageLog where
  messages : List Message
  place : Option Span

namespace MessageLog

def empty : MessageLog :=
  ⟨[], none⟩

def add (log : MessageLog) (message : Message) : MessageLog :=
  { log with messages := log.messages ++ [message] }

def moveTo (log : MessageLog) (place : Option Span) : MessageLog :=
  { log with place }

def say (log : MessageLog) (text : String) : MessageLog :=
  log.add (.error text log.place)

def sayAt (log : MessageLog) (place : Option Span) (text : String) : MessageLog :=
  log.add (.error text (place.or log.place))

def warn (log : MessageLog) (text : String) : MessageLog :=
  log.add (.warning text log.place)

def note (log : MessageLog) (notes : List Message) : MessageLog :=
  match log.messages.reverse with
  | last :: before => { log with messages := before.reverse ++ [last.attach notes] }
  | [] => log

def annex (log : MessageLog) (messages : List Message) : MessageLog :=
  { log with messages := log.messages ++ messages }

def gather (log : MessageLog) (message : Message) : MessageLog :=
  { log with messages := [message.attach log.messages] }

def hasFatal (log : MessageLog) : Bool :=
  log.messages.any Message.isFatal

end MessageLog

end FortranInterface
