import FortranInterface.Flags

/-!
What the words of a command line ask for. Switches stand before the subcommand, and none of them
twice. Behind the word `--` nothing is a switch or a subcommand, not even the same word again.
-/

namespace FortranInterface.CommandLine

inductive Switch where
  | allWarnings
  | warningsAreErrors
  | externalDefinitions
  | quiet
  | help
  | version
  deriving DecidableEq

namespace Switch

instance : Enumerated Switch where
  all := [allWarnings, warningsAreErrors, externalDefinitions, quiet, help, version]
  complete := by intro switch; cases switch <;> decide
  label
    | allWarnings => "Wall"
    | warningsAreErrors => "Werror"
    | externalDefinitions => "implicit-external"
    | quiet => "quiet"
    | help => "help"
    | version => "version"

def ofLetter? : Char → Option Switch
  | 'q' => some quiet
  | 'h' => some help
  | 'v' => some version
  | _ => none

end Switch

inductive Subcommand where
  | lex
  | parse
  | check
  | dump
  | help
  deriving DecidableEq

namespace Subcommand

instance : Enumerated Subcommand where
  all := [lex, parse, check, dump, help]
  complete := by intro subcommand; cases subcommand <;> decide
  label
    | lex => "lex"
    | parse => "parse"
    | check => "check"
    | dump => "dump"
    | help => "help"

def name (subcommand : Subcommand) : String :=
  Enumerated.label subcommand

def summary : Subcommand → String
  | lex => "Lex only: dump tokens"
  | parse => "Parse only: dump AST"
  | check => "Resolve names and check every procedure reference"
  | dump => "Print the characteristics of every procedure"
  | help => ""

def takesInput (subcommand : Subcommand) : Bool :=
  subcommand ≠ help

end Subcommand

inductive UsageFault where
  | unexpected (word : String)
  | repeated (switch : Switch)
  | missingInput (subcommand : Subcommand)
  deriving DecidableEq

namespace UsageFault

def text : UsageFault → String
  | unexpected word =>
    "error: Found argument '" ++ word ++
      "' which wasn't expected, or isn't valid in this context"
  | repeated switch =>
    "error: The argument '--" ++ Enumerated.label switch ++
      "' was provided more than once, but cannot be used multiple times"
  | missingInput _ =>
    "error: The following required arguments were not provided:\n    <input>"

end UsageFault

inductive Request where
  | help
  | version
  | subcommandHelp (subcommand : Subcommand)
  | subcommandVersion (subcommand : Subcommand)
  | lex (path : String)
  | parse (path : String)
  | check (path : String) (switches : List Switch)
  | dump (path : String)
  deriving DecidableEq

namespace Request

def path? : Request → Option String
  | lex path | parse path | check path _ | dump path => some path
  | help | version | subcommandHelp _ | subcommandVersion _ => none

end Request

/-- The name in a word that begins with two hyphens. More hyphens do not count, nor does what is
written behind an equals sign. -/
def longName (word : List Char) : String :=
  String.ofList ((word.dropWhile (· = '-')).takeWhile (· ≠ '='))

def switchesOf? (word : String) : Option (List Switch) :=
  match word.toList with
  | '-' :: '-' :: rest => (Enumerated.ofLabel? Switch (longName rest)).map fun switch => [switch]
  | '-' :: letter :: letters => (letter :: letters).mapM Switch.ofLetter?
  | _ => none

/-- Words with the switches in front taken off, down to the subcommand if there is one. -/
structure Split where
  switches : List Switch
  subcommand : Option (Subcommand × List String)

def Split.asksHelp (found : Split) : Bool :=
  decide (.help ∈ found.switches) || found.subcommand.map Prod.fst = some .help

def split (isTrailing : Bool) (switches : List Switch) : List String → Except UsageFault Split
  | [] => .ok ⟨switches, none⟩
  | word :: words =>
    if isTrailing then .error (.unexpected word)
    else if word = "--" then split true switches words
    else
      match Enumerated.ofLabel? Subcommand word with
      | some subcommand => .ok ⟨switches, some (subcommand, words)⟩
      | none =>
        match switchesOf? word with
        | some more => split false (switches ++ more) words
        | none => .error (.unexpected word)

inductive Ending where
  | run (path : Option String)
  | help
  | version

/-- A word behind a subcommand that is read as a switch. The first letter decides. -/
def endingOf? (word : String) : Option Ending :=
  match word.toList with
  | '-' :: '-' :: rest =>
    match longName rest with
    | "help" => some .help
    | "version" => some .version
    | _ => none
  | '-' :: 'h' :: _ => some .help
  | '-' :: 'V' :: _ => some .version
  | _ => none

def looksLikeSwitch (word : String) : Bool :=
  match word.toList with
  | '-' :: _ :: _ => true
  | _ => false

def ending (subcommand : Subcommand) (isTrailing : Bool) (path : Option String) :
    List String → Except UsageFault Ending
  | [] => .ok (.run path)
  | word :: words =>
    if !isTrailing && word = "--" then ending subcommand true path words
    else if !isTrailing && looksLikeSwitch word then
      match endingOf? word with
      | some found => .ok found
      | none => .error (.unexpected word)
    else if subcommand.takesInput && path.isNone then
      ending subcommand isTrailing (some word) words
    else .error (.unexpected word)

def repeated? : List Switch → Option Switch
  | [] => none
  | switch :: others => if switch ∈ others then some switch else repeated? others

def subcommandRequest (switches : List Switch) (subcommand : Subcommand) (path : Option String) :
    Except UsageFault Request :=
  match subcommand, path with
  | .help, _ => .ok .help
  | .lex, some path => .ok (.lex path)
  | .parse, some path => .ok (.parse path)
  | .check, some path => .ok (.check path switches)
  | .dump, some path => .ok (.dump path)
  | _, none => .error (.missingInput subcommand)

/-- The request of words that have all been read. Help goes before the version, and both go before
what the subcommand does. -/
def Split.settled (found : Split) (request : Request) : Except UsageFault Request :=
  match repeated? found.switches with
  | some switch => .error (.repeated switch)
  | none =>
    if found.asksHelp then .ok .help
    else if .version ∈ found.switches then .ok .version
    else .ok request

def Request.ofWords (words : List String) : Except UsageFault Request := do
  let found ← split false [] words
  match found.subcommand with
  | none => found.settled .help
  | some (subcommand, rest) =>
    match ← ending subcommand false none rest with
    | .help => .ok (.subcommandHelp subcommand)
    | .version => .ok (.subcommandVersion subcommand)
    | .run path => found.settled (← subcommandRequest found.switches subcommand path)

end FortranInterface.CommandLine
