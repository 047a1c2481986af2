import FortranInterface.Proofs.Advance.ProgramUnit
import FortranInterface.Proofs.Loops.Turn

/-!
The turns of the single loops of the grammar. Each turn that goes on takes a token.
-/

namespace FortranInterface.Grammar

open FortranInterface.Tree

variable {n : Nat}

/-! Expressions. -/

def joinedTurn (operand : Reader n Tree.Expr) (join? : Lexeme → Option Join) : Turn n Tree.Expr Tree.Expr :=
  fun left => do
    match (← peek).bind join? with
    | some join =>
      skip
      return .inl (join left (← operand))
    | none => return .inr left

section

variable {operand : Reader n Tree.Expr} {join? : Lexeme → Option Join}

theorem iterates_joinedWithin : Iterates (joinedTurn operand join?) (joinedWithin operand join?) := by
  intro turns left
  unfold joinedTurn
  simp only [joinedWithin, bind_assoc]
  congr 1
  funext lexeme
  cases lexeme.bind join? <;> simp

theorem forward_joinedTurn {post : Cursor n → Tree.Expr → Cursor n → Prop}
    (operands : ∀ cursor, Advances cursor operand cursor (post cursor)) : Forward (joinedTurn operand join?) := by
  intro left cursor
  refine .look rfl ?_
  split
  next join isJoin =>
    have isLeft : 0 < cursor.left := Cursor.left_pos_of_lexeme fun none => by simp [none] at isJoin
    refine .skip fun middle _ _ passed _ => .bind (operands middle) fun value after _ further _ => .pure fun _ => ?_
    have := further.left_le
    omega
  · exact .pure (by simp)

end

def imageSelectorTurn : Turn n Unit Unit := fun _ => do
  if ← acceptMark .rightBracket then return .inr ()
  if ← isAtStatementEnd then
    fail "']'"
  skip
  return .inl ()

theorem iterates_imageSelectorWithin :
    Iterates imageSelectorTurn fun turns _ => (imageSelectorWithin turns : Reader n Unit) := by
  intro turns _
  unfold imageSelectorTurn
  simp only [imageSelectorWithin, bind_assoc]
  congr 1
  funext taken
  cases taken
  · simp only [Bool.false_eq_true, if_false, bind_assoc]
    congr 1
    funext isEnd
    cases isEnd <;> simp [bind_assoc]
  · simp

theorem forward_imageSelectorTurn : Forward (imageSelectorTurn : Turn n Unit Unit) := by
  intro _ cursor
  refine .accept (fun _ _ _ _ => .pure (by simp)) (.look (isAtStatementEnd_eq cursor) ?_)
  split
  · exact .fail_bind
  next inside =>
    have isLeft : 0 < cursor.left := Cursor.left_pos_of_lexeme fun none => by simp [none] at inside
    exact .skip fun after _ _ passed _ => .pure fun _ => by omega

def selectedTurn (arguments : Reader n (List Arg)) : Turn n Tree.Expr Tree.Expr := fun base => do
  match ← peek with
  | some (.mark .leftParen) =>
    if base.takesArguments then
      let items ← arguments
      return .inl (.call base items (← spanFrom base.span.start))
    else
      return .inr base
  | some (.mark .percent) =>
    skip
    let component ← name
    return .inl (.component base component.name (← spanFrom base.span.start))
  | some (.mark .leftBracket) =>
    skip
    imageSelector
    return .inl (.coindexed base (← spanFrom base.span.start))
  | _ => return .inr base

theorem iterates_selectedWithin (arguments : Reader n (List Arg)) :
    Iterates (selectedTurn arguments) (selectedWithin arguments) := by
  intro turns base
  unfold selectedTurn
  simp only [selectedWithin, bind_assoc]
  congr 1
  funext lexeme
  split
  · cases base.takesArguments <;> simp
  · simp
  · simp
  · simp

theorem forward_selectedTurn {arguments : Reader n (List Arg)}
    (strict : ∀ cursor, Advances cursor arguments cursor fun _ after => after.left < cursor.left) :
    Forward (selectedTurn arguments) := by
  intro base cursor
  unfold selectedTurn
  refine .look rfl ?_
  split
  · split
    · exact .bind (strict cursor) fun _ _ _ _ shorter => .look rfl (.pure fun _ => shorter)
    · exact .pure (by simp)
  next isNext =>
    have isLeft : 0 < cursor.left := Cursor.left_pos_of_lexeme (by simp [isNext])
    refine .skip fun percent _ _ passed _ => .bind (advances_name percent) fun _ after _ _ ⟨shorter, _⟩ => ?_
    exact .look rfl (.pure fun _ => by omega)
  next isNext =>
    have isLeft : 0 < cursor.left := Cursor.left_pos_of_lexeme (by simp [isNext])
    refine .skip fun opened _ _ passed _ => .bind (advances_imageSelector opened) fun _ after _ further _ => ?_
    have := further.left_le
    exact .look rfl (.pure fun _ => by omega)
  · exact .pure (by simp)

def calledComponentsTurn : Turn n Tree.Expr Tree.Expr := fun base => do
  if ← acceptMark .percent then
    let component ← name
    return .inl (.component base component.name (base.span.through component.span))
  else
    return .inr base

theorem iterates_calledComponentsWithin :
    Iterates calledComponentsTurn (calledComponentsWithin : Nat → Tree.Expr → Reader n Tree.Expr) := by
  intro turns base
  unfold calledComponentsTurn
  simp only [calledComponentsWithin, bind_assoc]
  congr 1
  funext taken
  cases taken <;> simp

theorem forward_calledComponentsTurn : Forward (calledComponentsTurn : Turn n Tree.Expr Tree.Expr) := by
  intro base cursor
  refine .accept (fun percent _ _ _ => ?_) (.pure (by simp))
  exact .bind (advances_name percent) fun _ _ _ _ ⟨_, _⟩ => .pure fun _ => by omega

/-! Declarations. -/

def characterParametersTurn : Turn n CharacterParameters CharacterParameters := fun found => do
  let found ← characterParameter found
  if ← acceptMark .comma then return .inl found else return .inr found

theorem iterates_characterParametersWithin : Iterates characterParametersTurn
    (characterParametersWithin : Nat → CharacterParameters → Reader n CharacterParameters) := by
  intro turns found
  unfold characterParametersTurn
  simp only [characterParametersWithin, bind_assoc]
  congr 1
  funext found
  congr 1
  funext taken
  cases taken <;> simp

theorem forward_characterParametersTurn :
    Forward (characterParametersTurn : Turn n CharacterParameters CharacterParameters) := by
  intro found cursor
  refine (takes_characterParameter (fun _ => True) found).bind fun _ _ _ _ _ _ => ?_
  exact .accept (fun _ _ _ _ => .pure fun _ => by omega) (.pure (by simp))

def closingParenTurn : Turn n Nat Unit
  | 0 => return .inr ()
  | level + 1 => do
    if ← isAtStatementEnd then return .inr ()
    let level ← do
      match ← peek with
      | some (.mark .leftParen) => pure (level + 2)
      | some (.mark .rightParen) => pure level
      | _ => pure (level + 1)
    skip
    return .inl level

theorem iterates_closingParenWithin : Iterates closingParenTurn (closingParenWithin : Nat → Nat → Reader n Unit) := by
  intro turns level
  cases level with
  | zero => simp [closingParenTurn, closingParenWithin]
  | succ level =>
    unfold closingParenTurn
    simp only [closingParenWithin, bind_assoc]
    congr 1
    funext isEnd
    cases isEnd
    · simp only [Bool.false_eq_true, if_false, bind_assoc]
      congr 1
      funext lexeme
      split <;> simp
    · simp

theorem forward_closingParenTurn : Forward (closingParenTurn : Turn n Nat Unit) := by
  intro level cursor
  cases level with
  | zero => exact .pure (by simp)
  | succ level =>
    unfold closingParenTurn
    refine .look (isAtStatementEnd_eq cursor) ?_
    split
    · exact .pure (by simp)
    next inside =>
      have isLeft : 0 < cursor.left := Cursor.left_pos_of_lexeme fun none => by simp [none] at inside
      have go (level : Nat) : Advances cursor (do skip; return .inl level : Reader n (Nat ⊕ Unit)) cursor
          fun outcome after => outcome.isLeft = true → after.left < cursor.left :=
        .skip fun _ _ _ passed _ => .pure fun _ => by omega
      refine .look rfl ?_
      split <;> exact go _

def typeHeaderTurn : Turn n TypeHeader TypeHeader := fun header => do
  unless ← acceptMark .comma do
    return .inr header
  match ← peek with
  | some (.keyword .extends) =>
    skip
    expectMark .leftParen
    let parent ← name
    expectMark .rightParen
    return .inl { header with parent := some parent.name }
  | some (.keyword .abstract) =>
    skip
    return .inl { header with isAbstract := true }
  | some (.keyword .bind) =>
    bindC
    return .inl header
  | some (.keyword .public) | some (.keyword .private) =>
    skip
    return .inl header
  | _ => fail "a type attribute"

theorem fail_then {α β : Type} {wanted : String} (next : α → Reader n β) : fail wanted >>= next = fail wanted :=
  rfl

theorem iterates_typeHeaderWithin :
    Iterates typeHeaderTurn (typeHeaderWithin : Nat → TypeHeader → Reader n TypeHeader) := by
  intro turns header
  unfold typeHeaderTurn
  simp only [typeHeaderWithin, bind_assoc]
  congr 1
  funext taken
  cases taken
  · simp
  · simp only [if_true, bind_assoc]
    congr 1
    funext lexeme
    split
    · simp
    · simp
    · simp
    · simp
    · simp
    · simp [fail_then]

theorem forward_typeHeaderTurn : Forward (typeHeaderTurn : Turn n TypeHeader TypeHeader) := by
  intro header cursor
  refine .accept (fun comma _ _ shorter => ?_) (.pure (by simp))
  refine .look rfl ?_
  split
  · refine .skip fun extends_ _ _ _ _ => .bind (advances_expectMark extends_ .leftParen) fun _ opened _ _ _ => ?_
    refine .bind (advances_name opened) fun _ closing _ _ ⟨_, _⟩ => ?_
    exact .lastMark fun _ _ => fun _ => by omega
  · exact .skip fun _ _ _ _ _ => .pure fun _ => by omega
  · exact .bind (advances_bindC comma) fun _ _ _ _ _ => .pure fun _ => by omega
  · exact .skip fun _ _ _ _ _ => .pure fun _ => by omega
  · exact .skip fun _ _ _ _ _ => .pure fun _ => by omega
  · exact .fail

def bindingAccessTurn : Turn n Unit Unit := fun _ => do
  if ← acceptMark .comma then
    skip
    return .inl ()
  else
    return .inr ()

theorem iterates_bindingAccessWithin :
    Iterates bindingAccessTurn fun turns _ => (bindingAccessWithin turns : Reader n Unit) := by
  intro turns _
  unfold bindingAccessTurn
  simp only [bindingAccessWithin, bind_assoc]
  congr 1
  funext taken
  cases taken <;> simp

theorem forward_bindingAccessTurn : Forward (bindingAccessTurn : Turn n Unit Unit) :=
  fun _ _ => .accept (fun _ _ _ _ => .skip fun _ _ _ _ _ => .pure fun _ => by omega) (.pure (by simp))

/-! Procedures. -/

def headerTailTurn (isFunction : Bool) : Turn n HeaderTail HeaderTail := fun tail => do
  if isFunction && (← isNextKeyword .result) then
    skip
    expectMark .leftParen
    let result ← name
    expectMark .rightParen
    return .inl { tail with result := some result.name }
  else if ← isNextKeyword .bind then
    bindC
    return .inl { tail with bindC := true }
  else
    return .inr tail

theorem iterates_headerTailWithin (isFunction : Bool) :
    Iterates (headerTailTurn isFunction) (headerTailWithin isFunction : Nat → HeaderTail → Reader n HeaderTail) := by
  intro turns tail
  unfold headerTailTurn
  simp only [headerTailWithin, bind_assoc]
  congr 1
  funext isResult
  cases isFunction && isResult
  · simp only [Bool.false_eq_true, if_false, bind_assoc]
    congr 1
    funext isBind
    cases isBind <;> simp
  · simp

theorem forward_headerTailTurn (isFunction : Bool) :
    Forward (headerTailTurn isFunction : Turn n HeaderTail HeaderTail) := by
  intro tail cursor
  unfold headerTailTurn
  refine .look rfl ?_
  split
  · refine .skip fun result _ toResult _ _ => .bind (advances_expectMark result .leftParen) fun _ opened _ _ _ => ?_
    have := toResult.left_le
    refine .bind (advances_name opened) fun _ closing _ _ ⟨_, _⟩ => ?_
    exact .lastMark fun _ _ => fun _ => by omega
  · refine .look rfl ?_
    split
    · exact .bind (advances_bindC cursor) fun _ _ _ _ shorter => .pure fun _ => shorter
    · exact .pure (by simp)

def headingTurn (subprogram : Reader n Subprogram) : Turn (n + 1) Heading Subprogram := fun heading => do
  match ← peek with
  | some (.keyword .subroutine) => return .inr (← past (subprogramBody subprogram heading false))
  | some (.keyword .function) => return .inr (← past (subprogramBody subprogram heading true))
  | lexeme =>
    match lexeme.bind modifier? with
    | some modifier =>
      skip
      return .inl { heading with modifiers := heading.modifiers ++ [modifier] }
    | none =>
      let type ← typeSpec
      return .inl { heading with type := some type }

theorem iterates_subprogramWithin (subprogram : Reader n Subprogram) :
    Iterates (headingTurn subprogram) (subprogramWithin subprogram) := by
  intro turns heading
  unfold headingTurn
  simp only [subprogramWithin, bind_assoc]
  congr 1
  funext lexeme
  split
  · simp
  · simp
  · cases isModifier : lexeme.bind modifier? <;> simp [isModifier]

theorem forward_headingTurn {edge : Nat → Prop} {subprogram : Reader n Subprogram}
    (takes : Takes edge subprogram (Subprogram.Sited (Span.Sound edge) Span.Inside)) :
    Forward (headingTurn subprogram) := by
  intro heading cursor
  have body (isFunction : Bool) : Advances cursor (do
      return Sum.inr (← past (subprogramBody subprogram heading isFunction)) : Reader (n + 1) (Heading ⊕ Subprogram)) cursor
        fun outcome after => outcome.isLeft = true → after.left < cursor.left := by
    have inside : Advances cursor (past (subprogramBody subprogram heading isFunction)) cursor fun _ _ => True :=
      .past fun reaches => (advances_subprogramBody takes heading isFunction cursor.past).forward reaches
    exact .bind inside fun _ _ _ _ _ => .pure (by simp)
  unfold headingTurn
  refine .look rfl ?_
  split
  · exact body false
  · exact body true
  · split
    next modifier isModifier =>
      have isLeft : 0 < cursor.left := Cursor.left_pos_of_lexeme fun none => by simp [none] at isModifier
      exact .skip fun _ _ _ passed _ => .pure fun _ => by omega
    · exact (takes_typeSpec edge).bind fun _ _ _ _ shorter _ => .pure fun _ => shorter

end FortranInterface.Grammar
