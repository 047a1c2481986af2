import FortranInterface.Tree.Program

/-!
The types of undeclared names: rules that go by the first letter.
-/

namespace FortranInterface

namespace Tree.LetterRange

def covers (range : LetterRange) (letter : Char) : Bool :=
  match range.stop with
  | some stop => decide (range.start ≤ letter ∧ letter ≤ stop)
  | none => decide (letter = range.start)

end Tree.LetterRange

namespace Tree.ImplicitRule

def covers (rule : ImplicitRule) (letter : Char) : Bool :=
  rule.letters.any fun range => range.covers letter

end Tree.ImplicitRule

/-- The rules of a scoping unit. If they are disabled, a name that no rule covers has no type. -/
structure ImplicitTyping where
  disabled : Bool
  rules : List Tree.ImplicitRule

namespace ImplicitTyping

def default : ImplicitTyping :=
  ⟨false, []⟩

def disable (typing : ImplicitTyping) : ImplicitTyping :=
  { typing with disabled := true }

def addRule (typing : ImplicitTyping) (rule : Tree.ImplicitRule) : ImplicitTyping :=
  ⟨false, typing.rules ++ [rule]⟩

def defaultType (letter : Char) : Tree.TypeSpec :=
  if letter ∈ ['i', 'j', 'k', 'l', 'm', 'n'] then .integer none else .real none

/-- The type of an undeclared name. The first rule that covers its letter decides. -/
def typeOf? (typing : ImplicitTyping) (name : String) : Option Tree.TypeSpec :=
  match name.toList with
  | [] => none
  | first :: _ =>
    let letter := first.toLower
    match typing.rules.find? fun rule => rule.covers letter with
    | some rule => some rule.type
    | none => if typing.disabled then none else some (defaultType letter)

end ImplicitTyping

end FortranInterface
