import FortranInterface.Grammar.Cursor

/-!
What a statement is, told from its first tokens: the end of a construct, an assignment, or the
opening statement of a procedure.
-/

namespace FortranInterface.Grammar

variable {n : Nat}

/-! Ends of constructs. -/

def fusedEnds : List String :=
  ["subroutine", "function", "module", "program", "interface", "type", "do", "if", "associate"]

/-- The word behind `end` in a statement that ends a construct; it is empty where none follows. -/
def endWord? : List Token → Option String
  | ⟨.keyword .end, _⟩ :: next => some ((next.head?.bind (·.lexeme.word?)).getD "")
  | ⟨.name word, _⟩ :: _ => fusedEnds.find? fun fused => word == "end" ++ fused
  | _ => none

def isAtEnd : Reader n Bool := do
  return (endWord? (← get).rest).isSome

def constructEnd (word : String) (others : List String) : Reader n Unit := do
  match endWord? (← get).rest with
  | some "" => skip
  | some found =>
    if found = word ∨ found ∈ others then
      skipToStatementEnd
    else
      fail ("end " ++ word)
  | none => fail ("end " ++ word)
  statementEnd

/-! Assignments. -/

/-- Whether `=` or `=>` follows, behind subscripts and components; `depth` counts the brackets that
are open. -/
def reachesAssignment : Nat → List Token → Bool
  | 0, token :: rest =>
    match token.lexeme with
    | .mark .leftParen | .mark .leftBracket => reachesAssignment 1 rest
    | .mark .percent =>
      match rest with
      | component :: after => component.lexeme.word?.isSome && reachesAssignment 0 after
      | [] => false
    | .mark .assign | .mark .arrow => true
    | _ => false
  | depth + 1, token :: rest =>
    match token.lexeme with
    | .mark .leftParen | .mark .leftBracket => reachesAssignment (depth + 2) rest
    | .mark .rightParen | .mark .rightBracket => reachesAssignment depth rest
    | .newline => false
    | _ => reachesAssignment (depth + 1) rest
  | _, [] => false

def startsAssignment : List Token → Bool
  | token :: rest => token.lexeme.word?.isSome && reachesAssignment 0 rest
  | [] => false

/-! Opening statements of procedures. -/

def isModifier : Lexeme → Bool
  | .keyword .pure | .keyword .impure | .keyword .elemental | .keyword .recursive => true
  | _ => false

def namesType : Lexeme → Bool
  | .keyword word => word.namesType
  | _ => false

def opensProcedure : Lexeme → Bool
  | .keyword .subroutine | .keyword .function => true
  | _ => false

def behindParens : Nat → List Token → Option (List Token)
  | level, token :: rest =>
    match token.lexeme with
    | .mark .leftParen => behindParens (level + 1) rest
    | .mark .rightParen => if level ≤ 1 then some rest else behindParens (level - 1) rest
    | .newline => none
    | _ => behindParens level rest
  | _, [] => none

theorem behindParens_length {count : Nat} {rest after : List Token}
    (found : behindParens count rest = some after) : after.length < rest.length := by
  induction rest generalizing count with
  | nil => simp [behindParens] at found
  | cons token rest ih =>
      simp only [behindParens] at found
      split at found
      · have := ih found
        simp only [List.length_cons]
        omega
      · split at found
        · simp only [Option.some.injEq] at found
          subst found
          simp
        · have := ih found
          simp only [List.length_cons]
          omega
      · simp at found
      · have := ih found
        simp only [List.length_cons]
        omega

def behindPrecision : List Token → List Token
  | ⟨.keyword .precision, _⟩ :: rest => rest
  | rest => rest

def behindStar : List Token → List Token
  | ⟨.mark .star, _⟩ :: rest => rest.drop 1
  | rest => rest

def behindType (rest : List Token) : Option (List Token) :=
  match behindStar (behindPrecision rest) with
  | ⟨.mark .leftParen, _⟩ :: inside => behindParens 1 inside
  | after => some after

theorem behindPrecision_length (rest : List Token) :
    (behindPrecision rest).length ≤ rest.length := by
  unfold behindPrecision
  split <;> simp

theorem behindStar_length (rest : List Token) : (behindStar rest).length ≤ rest.length := by
  unfold behindStar
  split
  · simp only [List.length_drop, List.length_cons]
    omega
  · exact Nat.le_refl _

theorem behindType_length {rest after : List Token} (found : behindType rest = some after) :
    after.length ≤ rest.length := by
  have shorter := Nat.le_trans (behindStar_length (behindPrecision rest))
    (behindPrecision_length rest)
  unfold behindType at found
  split at found
  · rename_i inside matched
    have inner := behindParens_length found
    rw [matched] at shorter
    simp only [List.length_cons] at shorter
    omega
  · simp only [Option.some.injEq] at found
    subst found
    omega

def startsSubprogram : List Token → Bool
  | [] => false
  | ⟨lexeme, _⟩ :: rest =>
    let following := rest.head?.map Token.lexeme
    if isModifier lexeme then startsSubprogram rest
    else if lexeme = .keyword .module then
      following.any (fun next => opensProcedure next || namesType next || isModifier next) &&
        startsSubprogram rest
    else if namesType lexeme ||
        ((lexeme = .keyword .type || lexeme = .keyword .class) &&
          following = some (.mark .leftParen)) then
      match _found : behindType rest with
      | some after => startsSubprogram after
      | none => false
    else opensProcedure lexeme && (following.bind Lexeme.word?).isSome
termination_by tokens => tokens.length
decreasing_by
  · simp
  · simp
  · have := behindType_length _found
    simp only [List.length_cons]
    omega

def isAtSubprogram : Reader n Bool := do
  return startsSubprogram (← get).rest

end FortranInterface.Grammar
