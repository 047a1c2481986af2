import FortranInterface.Analysis.Listing
import FortranInterface.Analysis.Program
import FortranInterface.CommandLine.Request
import FortranInterface.Grammar.ProgramUnit
import FortranInterface.Tree.Outline

/-!
What a command line brings about: lines of output, lines of errors and an exit code.
-/

namespace FortranInterface.CommandLine

structure Outcome where
  exitCode : Nat
  output : List String
  errors : List String
  deriving DecidableEq

namespace Outcome

def success (output : List String) : Outcome :=
  ⟨0, output, []⟩

def failure (errors : List String) : Outcome :=
  ⟨1, [], errors⟩

def textOf (lines : List String) : String :=
  String.join (lines.map (· ++ "\n"))

end Outcome

def programName : String :=
  "f90check"

def versionNumber : String :=
  "0.1.0"

def help : List String :=
  ["Usage: f90check [OPTIONS] <COMMAND> <input>",
    "",
    "Commands:",
    "  lex <input>          Lex the input file and print tokens",
    "  parse <input>        Parse the input file and print the AST",
    "  check <input>        Check every procedure reference in the input file",
    "  dump <input>         Print the characteristics of every procedure",
    "",
    "Options:",
    "  --Wall               Enable all warnings",
    "  --Werror             Treat warnings as errors",
    "  --implicit-external  Check calls to external procedures against their definitions",
    "  --quiet              Suppress all output except errors",
    "  --help               Show this help message",
    "  --version            Show version information",
    "",
    "Source directives:",
    "  !#allow(<group>)     Silence a warning group",
    "  !#deny(<group>)      Report a warning group as errors",
    "  !#error(<group>)     Same as deny"]

def version : List String :=
  [programName ++ " version: " ++ versionNumber]

def subcommandVersion (subcommand : Subcommand) : String :=
  programName ++ "-" ++ subcommand.name ++ " " ++ versionNumber

def subcommandHelp (subcommand : Subcommand) : List String :=
  [subcommandVersion subcommand] ++
    (if subcommand.summary.isEmpty then [] else [subcommand.summary]) ++
    ["", "USAGE:",
      "    " ++ programName ++ " " ++ subcommand.name ++
        (if subcommand.takesInput then " <input>" else ""),
      "", "FLAGS:",
      "    -h, --help       Prints help information",
      "    -V, --version    Prints version information"] ++
    if subcommand.takesInput then ["", "ARGS:", "    <input>    Input .f90 file"] else []

def tokenLine (token : Token) : String :=
  let kind :=
    match token.lexeme.label with
    | (name, some text) => name ++ "(" ++ Text.quoted text ++ ")"
    | (name, none) => name
  "Token \x7b kind: " ++ kind ++ ", span: " ++ toString token.span.start ++ ".." ++
    toString token.span.stop ++ " \x7d"

def diagnosticLines (diagnostic : Diagnostic) : List String :=
  diagnostic.text :: diagnostic.notes.map ("  note: " ++ ·)

def parsing (source : String) (next : Tree.Program → Outcome) : Outcome :=
  match Tree.Program.ofSource source with
  | .ok program => next program
  | .error faults => .failure (faults.flatMap diagnosticLines)

def checksOf (switches : List Switch) : Checks :=
  ⟨decide (.allWarnings ∈ switches), decide (.externalDefinitions ∈ switches)⟩

def gradingOf (switches : List Switch) (source : String) : Grading :=
  ⟨.ofSource source, decide (.warningsAreErrors ∈ switches)⟩

/-- The lines that tell of diagnostics. If the output is to be quiet, only errors are told. -/
def report (isQuiet : Bool) (diagnostics : List Diagnostic) : List String :=
  if isQuiet then (diagnostics.filter Diagnostic.isError).map Diagnostic.text
  else diagnostics.flatMap diagnosticLines

/-- A check fails by an error, or by any diagnostic where warnings are errors. -/
def checkOutcome (switches : List Switch) (source : String) (program : Tree.Program) : Outcome :=
  let isQuiet := decide (.quiet ∈ switches)
  let diagnostics := program.resolve.check (checksOf switches) (gradingOf switches source)
  let fails := diagnostics.any Diagnostic.isError ||
    (decide (.warningsAreErrors ∈ switches) && !diagnostics.isEmpty)
  ⟨if fails then 1 else 0, if diagnostics.isEmpty && !isQuiet then ["No problems found."] else [],
    report isQuiet diagnostics⟩

def dumpOutcome (program : Tree.Program) : Outcome :=
  let resolved := program.resolve
  ⟨0, [String.intercalate "\n" resolved.listing], resolved.diagnostics.map Diagnostic.text⟩

def unreadable (path : String) : Outcome :=
  .failure ["Error: failed to read " ++ path]

def Request.outcome (request : Request) (text : Option String) : Outcome :=
  match request, text with
  | .help, _ => .success CommandLine.help
  | .version, _ => .success CommandLine.version
  | .subcommandHelp subcommand, _ => .success (CommandLine.subcommandHelp subcommand)
  | .subcommandVersion subcommand, _ => .success [CommandLine.subcommandVersion subcommand]
  | .lex path, none | .parse path, none | .check path _, none | .dump path, none => unreadable path
  | .lex _, some source => .success ((tokens source).map tokenLine)
  | .parse _, some source => parsing source fun program => .success program.outline
  | .check _ switches, some source => parsing source (checkOutcome switches source)
  | .dump _, some source => parsing source dumpOutcome

def outcome {m : Type → Type} [Monad m] (read : String → m (Option String)) (words : List String) :
    m Outcome :=
  match Request.ofWords words with
  | .error fault => pure (.failure [fault.text])
  | .ok request => do
    match request.path? with
    | some path => return request.outcome (← read path)
    | none => return request.outcome none

end FortranInterface.CommandLine
