import FortranInterface.Flags
import FortranInterface.Text.Blank

/-!
Directives: comments of a source text that say how groups of warnings are treated. A directive is a
line of its own, such as an exclamation mark, a number sign and the words `allow(argument)`.
-/

namespace FortranInterface

inductive Treatment where
  | allow
  | deny
  | error
  deriving DecidableEq

namespace Treatment

instance : Enumerated Treatment where
  all := [allow, deny, error]
  complete := by intro treatment; cases treatment <;> decide
  label
    | allow => "allow"
    | deny => "deny"
    | error => "error"

def opening (treatment : Treatment) : List Char :=
  (Enumerated.label treatment).toList ++ ['(']

end Treatment

structure Directives where
  named : List (Treatment × String)

namespace Directives

/-- What stands between an opening and a closing parenthesis at the end. -/
def enclosed? (opening text : List Char) : Option (List Char) :=
  if opening.isPrefixOf text then
    let rest := text.drop opening.length
    if rest.getLast? = some ')' then some rest.dropLast else none
  else none

/-- The words of a directive. Names of groups are told apart without regard to case. -/
def ofWords? (words : List Char) : Option (Treatment × String) :=
  (Enumerated.all : List Treatment).findSome? fun treatment =>
    (enclosed? treatment.opening words).map fun name =>
      (treatment, String.ofList ((Text.trimmed name).map Char.toLower))

def ofLine? (line : List Char) : Option (Treatment × String) :=
  match Text.trimmed line with
  | '!' :: '#' :: words => ofWords? (Text.trimmed words)
  | _ => none

def ofSource (source : String) : Directives :=
  ⟨(source.splitOn "\n").filterMap fun line => ofLine? line.toList⟩

def asks (directives : Directives) (treatment : Treatment) (group : String) : Bool :=
  decide ((treatment, group) ∈ directives.named)

def names (directives : Directives) (treatment : Treatment) : List String :=
  ((directives.named.filter fun item => item.1 = treatment).map Prod.snd).mergeSort.eraseDups

end Directives

end FortranInterface
