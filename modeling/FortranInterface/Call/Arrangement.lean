import FortranInterface.Call.Fault
import FortranInterface.Procedure.Basic

/-!
Which actual argument goes with which dummy argument. The arguments before the first keyword go by
their places, the others by their keywords.
-/

namespace FortranInterface

structure Arrangement where
  slots : Actuals
  findings : List CallFinding

namespace Arrangement

/-- An argument that goes by its place. An empty place does not end the list. -/
def isPositional : Option Actual → Bool
  | some actual => actual.keyword.isNone
  | none => true

/-- The arguments that go by keyword, from `place` on. The keywords in `seen` have been used. -/
def keywordActuals (place : Nat) (seen : List String) :
    Actuals → List (String × Actual) × List CallFinding
  | [] => ([], [])
  | none :: actuals => keywordActuals (place + 1) seen actuals
  | some actual :: actuals =>
    match actual.keyword with
    | some keyword =>
      if keyword ∈ seen then
        let others := keywordActuals (place + 1) seen actuals
        (others.1, ⟨.repeatedKeyword keyword, actual.span⟩ :: others.2)
      else
        let others := keywordActuals (place + 1) (keyword :: seen) actuals
        ((keyword, actual) :: others.1, others.2)
    | none =>
      let others := keywordActuals (place + 1) seen actuals
      (others.1, ⟨.positionalAfterKeyword place, actual.span⟩ :: others.2)

def placeOf? (dummies : List Dummy) (keyword : String) : Option Nat :=
  dummies.findIdx? fun dummy => !dummy.name.isEmpty && dummy.name == keyword

def putKeyword (dummies : List Dummy) (arrangement : Arrangement) (entry : String × Actual) :
    Arrangement :=
  match placeOf? dummies entry.1 with
  | some index =>
    match arrangement.slots[index]? with
    | some none => { arrangement with slots := arrangement.slots.set index (some entry.2) }
    | _ =>
      { arrangement with
        findings := arrangement.findings ++
          [⟨.keywordAfterPositional entry.1 (index + 1), entry.2.span⟩] }
  | none =>
    { arrangement with
      findings := arrangement.findings ++ [⟨.unknownKeyword entry.1, entry.2.span⟩] }

/-- Arranges actual arguments for the given dummy arguments. If there are too many without a keyword
they stay as they are. -/
def ofActuals (dummies : List Dummy) (actuals : Actuals) : Arrangement :=
  let positional := actuals.takeWhile isPositional
  if positional.length > dummies.length then
    ⟨actuals, [⟨.tooManyActuals actuals.length dummies.length, none⟩]⟩
  else
    let keywords := keywordActuals (positional.length + 1) [] (actuals.dropWhile isPositional)
    let slots := positional ++ List.replicate (dummies.length - positional.length) none
    keywords.1.foldl (putKeyword dummies) ⟨slots, keywords.2⟩

def isComplete (arrangement : Arrangement) : Bool :=
  arrangement.findings.isEmpty

end Arrangement

end FortranInterface
