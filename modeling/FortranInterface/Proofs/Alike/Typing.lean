import FortranInterface.Proofs.Alike.Links

/-!
Expressions that are alike have the same value and the same type in tables that are alike, and lengths
that are alike.
-/

namespace FortranInterface

set_option linter.unusedSectionVars false

variable {pairing : Pairing} {full : Bool}

theorem Lift.refl_of {α : Type} {related : α → α → Prop} {found : Option α}
    (related_self : ∀ value, found = some value → related value value) : Lift full related found found :=
  ⟨fun same => ⟨_, same, related_self _ same⟩, fun _ missing => missing⟩

theorem Lift.refl {α : Type} (found : Option α) : Lift full Eq found found :=
  .refl_of fun _ _ => rfl

theorem Lift.bind_same {α γ δ : Type} {other : γ → δ → Prop} {found : Option α} {next : α → Option γ}
    {next' : α → Option δ} (lifts : ∀ value, Lift full other (next value) (next' value)) :
    Lift full other (found.bind next) (found.bind next') :=
  (refl found).bind fun same => same ▸ lifts _

theorem Lift.head {α β : Type} {related : α → β → Prop} {found : List (Option α)}
    {found' : List (Option β)} (lifts : List.Forall₂ (Lift full related) found found') :
    Lift full related found.head?.join found'.head?.join := by
  cases lifts with
  | nil => exact none_none
  | cons first _ => exact first

/-! Values of constants. -/

namespace Folding

def combine : Operator → List (Option Int) → Option Int
  | .parentheses, [operand] => operand
  | .negate, [operand] => operand.bind fun value => Word.fitting (-value)
  | op, [left, right] =>
    left.bind fun leftValue => right.bind fun rightValue => applyBinary op leftValue rightValue
  | _, _ => none

theorem foldWith_operation (constant : SymbolId → Option Int) (op : Operator) (operands : List Expr) :
    foldWith constant (.operation op operands) = combine op (operands.map (foldWith constant)) := by
  rcases operands with _ | ⟨left, _ | ⟨right, _ | ⟨third, rest⟩⟩⟩ <;> cases op <;> rfl

theorem lift_combine (op : Operator) {values values' : List (Option Int)}
    (lifts : List.Forall₂ (Lift full Eq) values values') : Lift full Eq (combine op values) (combine op values') := by
  cases lifts with
  | nil => cases op <;> exact .none_none
  | cons first rest =>
    cases rest with
    | nil =>
      cases op with
      | parentheses => exact first
      | negate => exact first.bind fun same => by subst same; exact .refl _
      | _ => exact .none_none
    | cons second rest =>
      cases rest with
      | nil =>
        cases op <;>
          exact first.bind fun same => second.bind fun same' => by
            subst same same'
            exact .refl _
      | cons _ _ => cases op <;> exact .none_none

section

variable {constant constant' : SymbolId → Option Int}
  (constants : ∀ {id id'}, pairing.symbols id id' → Lift full Eq (constant id) (constant' id'))
include constants

mutual

theorem lift_foldWith : {expr expr' : Expr} → expr.Alike pairing expr' →
    Lift full Eq (foldWith constant expr) (foldWith constant' expr')
  | .literal value, _, alike => by cases alike; cases value <;> exact .refl _
  | .array _ _, _, alike => by cases alike; exact .none_none
  | .designator _ _ _, _, alike => by
    cases alike with
    | designator _ paired subscripts =>
      cases subscripts with
      | nil => exact constants paired
      | cons _ _ => exact .none_none
  | .call _ _, _, alike => by cases alike; exact .none_none
  | .operation op operands, _, alike => by
    cases alike with
    | operation _ alike =>
      rw [foldWith_operation, foldWith_operation]
      exact lift_combine op (lift_folds operands alike)
  | .null, _, alike => by cases alike; exact .none_none
  | .boz _, _, alike => by cases alike; exact .none_none
  | .procedure _, _, alike => by cases alike; exact .none_none

theorem lift_folds : (exprs : List Expr) → {exprs' : List Expr} →
    List.Forall₂ (Expr.Alike pairing) exprs exprs' →
    List.Forall₂ (Lift full Eq) (exprs.map (foldWith constant)) (exprs'.map (foldWith constant'))
  | [], _, alike => by cases alike; exact .nil
  | _ :: rest, _, alike => by
    cases alike with
    | cons first others => exact .cons (lift_foldWith first) (lift_folds rest others)

end

end

end Folding

/-! Types. -/

theorem Lift.types_eq {found found' : Option DynamicType} (lift : Lift true (DynamicType.Alike pairing) found found') :
    found = found' := by
  cases lift.rel with
  | none => rfl
  | some alike => rw [alike.same]

theorem Operator.knows_numericType? {left right type : DynamicType} (knownLeft : pairing.KnowsFloat left)
    (knownRight : pairing.KnowsFloat right) (found : numericType? left right = some type) :
    pairing.KnowsFloat type := by
  obtain ⟨leftRank, isLeft, found⟩ := Option.bind_eq_some_iff.mp found
  obtain ⟨rightRank, isRight, found⟩ := Option.bind_eq_some_iff.mp found
  split at found
  next same =>
    cases found
    have categories : left.category = right.category := by
      subst same
      generalize left.category = first, right.category = second at isLeft isRight
      cases first <;> cases isLeft <;> cases second <;> first | rfl | cases isRight
    intro isFloat
    rcases max_choice left.kind right.kind with isMax | isMax
    · rw [isMax]
      exact knownLeft isFloat
    · rw [isMax, categories]
      exact knownRight (categories ▸ isFloat)
  · split at found <;> cases found
    · exact knownLeft
    · exact knownRight

theorem Operator.lift_resultType? (op : Operator) {types types' : List (Option DynamicType)}
    (lifts : List.Forall₂ (Lift full (DynamicType.Alike pairing)) types types') :
    Lift full (DynamicType.Alike pairing) (op.resultType? types) (op.resultType? types') := by
  have arithmetic : Lift full (DynamicType.Alike pairing) (add.resultType? types) (add.resultType? types') := by
    cases lifts with
    | nil => exact .none_none
    | @cons left left' _ _ first rest =>
      cases rest with
      | nil => rcases left with _ | left <;> rcases left' with _ | left' <;> exact .none_none
      | @cons right right' _ _ second _ =>
        have both : Lift full (DynamicType.Alike pairing) (left.bind fun left => right.bind (numericType? left))
            (left'.bind fun left => right'.bind (numericType? left)) := by
          refine first.bind fun ⟨same, known⟩ => second.bind fun ⟨same', known'⟩ => ?_
          subst same same'
          exact .refl_of fun _ found => ⟨rfl, knows_numericType? known known' found⟩
        rcases left with _ | left <;> rcases left' with _ | left' <;>
          rcases right with _ | right <;> rcases right' with _ | right' <;> exact both
  cases op with
  | parentheses => exact .head lifts
  | negate => exact .head lifts
  | concat => exact .head lifts
  | add => exact arithmetic
  | subtract => exact arithmetic
  | multiply => exact arithmetic
  | divide => exact arithmetic
  | power => exact arithmetic
  | _ => exact .some_some ⟨rfl, nofun⟩

def DynamicType.hasValidKind (type : DynamicType) : Bool :=
  type.category.isValidKind type.kind

def Intrinsic.ResultRule.hasValidKind : ResultRule → Bool
  | fixed type => type.hasValidKind
  | ofFirst | realOfFirst => true

theorem Intrinsic.lift_resultType? (name : String) {types types' : List (Option DynamicType)}
    (lifts : List.Forall₂ (Lift full (DynamicType.Alike pairing)) types types') :
    Lift full (DynamicType.Alike pairing) (resultType? name types) (resultType? name types') := by
  unfold resultType?
  cases isGeneric : generic? name with
  | none =>
    have valid : specifics.all (·.resultType.hasValidKind) = true := by decide
    refine .refl_of fun type found => ⟨rfl, ?_⟩
    obtain ⟨specific, isSpecific, rfl⟩ := Option.map_eq_some_iff.mp found
    exact fun _ => .inl (List.all_eq_true.mp valid _ (List.mem_of_find?_eq_some isSpecific))
  | some generic =>
    have valid : generics.all (·.result.hasValidKind) = true := by decide
    have valid := List.all_eq_true.mp valid _ (List.mem_of_find?_eq_some isGeneric)
    simp only
    generalize generic.result = result at valid
    cases result with
    | fixed type => exact .some_some ⟨rfl, fun _ => .inl valid⟩
    | ofFirst => exact .head lifts
    | realOfFirst =>
      refine (Lift.head lifts).map fun ⟨same, known⟩ => ?_
      subst same
      split
      next isComplex =>
        have known := known (by rw [isComplex]; rfl)
        rw [Pairing.Knows, isComplex] at known
        exact ⟨rfl, fun _ => known⟩
      · exact ⟨rfl, known⟩

namespace Typing

section

variable {symbolType symbolType' : SymbolId → Option DynamicType}
  (types : ∀ {id id'}, pairing.symbols id id' → Lift full (DynamicType.Alike pairing) (symbolType id) (symbolType' id'))
include types

mutual

theorem lift_typeOfWith : {expr expr' : Expr} → expr.Alike pairing expr' →
    Lift full (DynamicType.Alike pairing) (typeOfWith symbolType expr) (typeOfWith symbolType' expr')
  | .literal _, _, .literal known => .some_some ⟨rfl, fun _ => known⟩
  | .array _ _, _, .array known _ => .some_some ⟨rfl, known⟩
  | .designator _ _ _, _, alike => by
    cases alike with
    | designator _ paired _ => exact types paired
  | .call _ actuals, _, alike => by
    cases alike with
    | call callee alike =>
      cases callee with
      | symbol paired => exact types paired
      | intrinsic name => exact Intrinsic.lift_resultType? name (lift_actualTypesWith actuals alike)
  | .operation op operands, _, alike => by
    cases alike with
    | operation _ alike => exact op.lift_resultType? (lift_typesWith operands alike)
  | .null, _, alike => by cases alike; exact .none_none
  | .boz _, _, .boz _ => .some_some ⟨rfl, nofun⟩
  | .procedure _, _, alike => by cases alike; exact .none_none

theorem lift_typesWith : (exprs : List Expr) → {exprs' : List Expr} →
    List.Forall₂ (Expr.Alike pairing) exprs exprs' →
    List.Forall₂ (Lift full (DynamicType.Alike pairing)) (typesWith symbolType exprs) (typesWith symbolType' exprs')
  | [], _, alike => by cases alike; exact .nil
  | _ :: rest, _, alike => by
    cases alike with
    | cons first others => exact .cons (lift_typeOfWith first) (lift_typesWith rest others)

theorem lift_actualTypesWith : (actuals : List (Option Actual)) → {actuals' : Actuals} →
    Actuals.Alike pairing actuals actuals' →
    List.Forall₂ (Lift full (DynamicType.Alike pairing)) (actualTypesWith symbolType actuals)
      (actualTypesWith symbolType' actuals')
  | [], _, alike => by cases alike; exact .nil
  | none :: rest, _, alike => by
    cases alike with
    | cons first others => cases first; exact .cons .none_none (lift_actualTypesWith rest others)
  | some ⟨_, .expr _, _, _⟩ :: rest, _, alike => by
    cases alike with
    | cons first others =>
      cases first with
      | some first =>
        cases first with
        | mk _ _ _ value =>
          cases value with
          | expr value => exact .cons (lift_typeOfWith value) (lift_actualTypesWith rest others)
  | some ⟨_, .assumedType _, _, _⟩ :: rest, _, alike | some ⟨_, .label _, _, _⟩ :: rest, _, alike => by
    cases alike with
    | cons first others =>
      cases first with
      | some first =>
        cases first with
        | mk _ _ _ value => cases value; exact .cons .none_none (lift_actualTypesWith rest others)

end

end

/-! Lengths. -/

def combineLengths (value : Expr → Option Int) : Operator → List (Option Expr) → Option Expr
  | .parentheses, [operand] => operand
  | .concat, [left, right] =>
    (left.bind value).bind fun leftLength =>
      (right.bind value).bind fun rightLength =>
        (Word.fitting (leftLength + rightLength)).map Expr.int
  | _, _ => none

theorem charLengthWith_operation (table : Table) (symbolLength : SymbolId → Option Expr) (op : Operator)
    (operands : List Expr) : charLengthWith table symbolLength (.operation op operands) =
      combineLengths table.foldInteger op (operands.map (charLengthWith table symbolLength)) := by
  rcases operands with _ | ⟨left, _ | ⟨right, _ | ⟨third, rest⟩⟩⟩ <;> cases op <;> rfl

theorem lift_combineLengths {value value' : Expr → Option Int}
    (values : ∀ {expr expr' : Expr}, expr.Alike pairing expr' → value expr = value' expr') (op : Operator)
    {lengths lengths' : List (Option Expr)} (lifts : List.Forall₂ (Lift full (Expr.Alike pairing)) lengths lengths') :
    Lift full (Expr.Alike pairing) (combineLengths value op lengths) (combineLengths value' op lengths') := by
  cases lifts with
  | nil => cases op <;> exact .none_none
  | cons first rest =>
    cases rest with
    | nil =>
      cases op with
      | parentheses => exact first
      | _ => exact .none_none
    | cons second rest =>
      cases rest with
      | nil =>
        cases op with
        | concat =>
          have folded {length length' : Option Expr}
              (lift : Lift full (Expr.Alike pairing) length length') :
              Lift full Eq (length.bind value) (length'.bind value') :=
            lift.bind fun alike => by rw [values alike]; exact .refl _
          refine (folded first).bind fun same => (folded second).bind fun same' => ?_
          subst same same'
          exact (Lift.refl _).map fun same => by subst same; exact .int _
        | _ => exact .none_none
      | cons _ _ => cases op <;> exact .none_none

section

variable {table table' : Table}
  (values : ∀ {expr expr' : Expr}, expr.Alike pairing expr' → table.foldInteger expr = table'.foldInteger expr')
  {symbolLength symbolLength' : SymbolId → Option Expr}
  (lengths : ∀ {id id'}, pairing.symbols id id' → Lift full (Expr.Alike pairing) (symbolLength id) (symbolLength' id'))
include values lengths

mutual

theorem lift_charLengthWith : {expr expr' : Expr} → expr.Alike pairing expr' →
    Lift full (Expr.Alike pairing) (charLengthWith table symbolLength expr) (charLengthWith table' symbolLength' expr')
  | .literal value, _, alike => by
    cases alike
    cases value with
    | character value _ => exact .some_some (.int _)
    | _ => exact .none_none
  | .array _ elements, _, alike => by
    cases alike with
    | array _ alike =>
      have first := Lift.head (lift_charLengths elements alike)
      cases alike with
      | nil => exact .none_none
      | cons _ _ => exact first
  | .designator _ _ _, _, alike => by
    cases alike with
    | designator _ paired _ => exact lengths paired
  | .call _ _, _, alike => by
    cases alike with
    | call callee _ =>
      cases callee with
      | symbol paired => exact lengths paired
      | intrinsic _ => exact .none_none
  | .operation op operands, _, alike => by
    cases alike with
    | operation _ alike =>
      rw [charLengthWith_operation, charLengthWith_operation]
      exact lift_combineLengths values op (lift_charLengths operands alike)
  | .null, _, alike => by cases alike; exact .none_none
  | .boz _, _, alike => by cases alike; exact .none_none
  | .procedure _, _, alike => by cases alike; exact .none_none

theorem lift_charLengths : (exprs : List Expr) → {exprs' : List Expr} →
    List.Forall₂ (Expr.Alike pairing) exprs exprs' →
    List.Forall₂ (Lift full (Expr.Alike pairing)) (exprs.map (charLengthWith table symbolLength))
      (exprs'.map (charLengthWith table' symbolLength'))
  | [], _, alike => by cases alike; exact .nil
  | _ :: rest, _, alike => by
    cases alike with
    | cons first others => exact .cons (lift_charLengthWith first) (lift_charLengths rest others)

end

end

end Typing

/-! In tables that are alike. -/

theorem Details.Alike.object? {details details' : Details} (alike : details.Alike pairing details') :
    Option.Rel (ObjectDetails.Alike pairing) details.object? details'.object? := by
  cases alike with
  | object alike => exact .some alike
  | _ => exact .none

namespace Table.Alike

variable {leeway : Leeway} {table table' : Table} (alike : Table.Alike pairing leeway table table')
include alike

variable {id id' : SymbolId}

theorem constant (paired : pairing.symbols id id') : table.constant id = table'.constant id' := by
  refine (Lift.of_enough_links table.constantWithin table'.constantWithin _
    (fun _ => rfl) (fun _ => rfl) ?_ @alike.bounded (Nat.le_refl _) alike.size_le paired).eq
  intro full count count' answers id id' paired
  simp only [constantWithin]
  rw [(alike.symbol paired).plain .parameter rfl]
  split
  · have objects : Lift full _ _ _ := Lift.of_rel (alike.details paired).object?
    exact (objects.bind fun same => .of_rel same.init).bind (Folding.lift_foldWith answers)
  · exact .none_none

variable {expr expr' : Expr}

theorem foldInteger (same : expr.Alike pairing expr') : table.foldInteger expr = table'.foldInteger expr' :=
  (Folding.lift_foldWith (fun paired => by rw [alike.constant paired]; exact .refl _) same).eq

theorem fold (same : expr.Alike pairing expr') : (table.fold expr).Alike pairing (table'.fold expr') := by
  unfold Table.fold
  rw [alike.foldInteger same]
  split
  · exact .int _
  · exact same

theorem derivedChain (paired : pairing.symbols id id') :
    table.derivedChainWithin table.symbols.size id = table'.derivedChainWithin table'.symbols.size id' := by
  refine (Lift.of_enough_links table.derivedChainWithin table'.derivedChainWithin _
    (fun _ => rfl) (fun _ => rfl) ?_ @alike.bounded (Nat.le_refl _) alike.size_le paired).eq
  intro full count count' answers id id' paired
  simp only [derivedChainWithin]
  rw [(alike.symbol paired).name]
  have details := alike.details paired
  generalize table.details id = found, table'.details id' = found' at details
  cases details with
  | derivedType same =>
    have parents := same.parent
    simp only
    exact relCases parents (.refl _) fun _ _ parents => (answers parents).map fun same => by rw [same]
  | _ => exact .none_none

theorem derivedName? (paired : pairing.symbols id id') : table.derivedName? id = table'.derivedName? id' := by
  unfold Table.derivedName?
  rw [alike.derivedChain paired]

variable {type type' : DeclaredType}

theorem lift_typeOfDeclared {full : Bool} (same : type.Alike pairing type') :
    Lift full (DynamicType.Alike pairing) (table.typeOfDeclared type) (table'.typeOfDeclared type') := by
  cases same with
  | intrinsic valid => exact .some_some ⟨rfl, fun _ => .inl valid⟩
  | type paired | classOf paired =>
    simp only [Table.typeOfDeclared, alike.derivedName? paired]
    exact (Lift.refl _).map fun same => ⟨by rw [same], nofun⟩
  | typeStar | classStar => exact .some_some ⟨rfl, nofun⟩

theorem lift_symbolType (paired : pairing.symbols id id') :
    Lift true (DynamicType.Alike pairing) (table.symbolType id) (table'.symbolType id') := by
  refine (Lift.of_enough_links table.symbolTypeWithin table'.symbolTypeWithin _
    (fun _ => rfl) (fun _ => rfl) ?_ @alike.bounded (Nat.le_refl _) alike.size_le paired)
  intro full count count' answers id id' paired
  simp only [symbolTypeWithin]
  have details := alike.details paired
  generalize table.details id = found, table'.details id' = found' at details
  cases details with
  | object same => exact (Lift.of_rel same.type).bind alike.lift_typeOfDeclared
  | associate same => exact Typing.lift_typeOfWith answers same
  | procEntity same =>
    have types := same.type
    simp only
    exact relCases types ((Lift.of_rel same.interface).bind answers) fun _ _ types => alike.lift_typeOfDeclared types
  | subprogram same => exact (Lift.of_rel same.result).bind answers
  | binding same => exact answers same.procedure
  | _ => exact .none_none

theorem lift_typeOf (same : expr.Alike pairing expr') :
    Lift true (DynamicType.Alike pairing) (table.typeOf expr) (table'.typeOf expr') :=
  Typing.lift_typeOfWith alike.lift_symbolType same

theorem typeOf (same : expr.Alike pairing expr') : table.typeOf expr = table'.typeOf expr' :=
  (alike.lift_typeOf same).types_eq

theorem declaredType (paired : pairing.symbols id id') :
    Option.Rel (DeclaredType.Alike pairing) (table.declaredType id) (table'.declaredType id') := by
  refine (Lift.of_enough_links table.declaredTypeWithin table'.declaredTypeWithin _
    (fun _ => rfl) (fun _ => rfl) ?_ @alike.bounded (Nat.le_refl _) alike.size_le paired).rel
  intro full count count' answers id id' paired
  simp only [declaredTypeWithin]
  have details := alike.details paired
  generalize table.details id = found, table'.details id' = found' at details
  cases details with
  | object same => exact .of_rel same.type
  | procEntity same =>
    have types := same.type
    simp only
    exact relCases types ((Lift.of_rel same.interface).bind answers) fun _ _ types => .some_some types
  | subprogram same => exact (Lift.of_rel same.result).bind answers
  | _ => exact .none_none

theorem lengthOfDeclared (same : type.Alike pairing type') :
    Option.Rel (Expr.Alike pairing) (table.lengthOfDeclared type) (table'.lengthOfDeclared type') := by
  cases same with
  | @intrinsic category _ _ _ _ length =>
    cases category with
    | character =>
      cases length with
      | none => exact .some (.int _)
      | some length =>
        cases length with
        | explicit value => exact .some (alike.fold value)
        | assumed => exact .none
        | deferred => exact .none
    | _ => exact .none
  | _ => exact .none

theorem symbolLength (paired : pairing.symbols id id') :
    Option.Rel (Expr.Alike pairing) (table.symbolLength id) (table'.symbolLength id') := by
  refine (Lift.of_enough_links table.symbolLengthWithin table'.symbolLengthWithin _
    (fun _ => rfl) (fun _ => rfl) ?_ @alike.bounded (Nat.le_refl _) alike.size_le paired).rel
  intro full count count' answers id id' paired
  simp only [symbolLengthWithin]
  have declared : Lift full (Expr.Alike pairing)
      ((table.declaredType id).bind table.lengthOfDeclared)
      ((table'.declaredType id').bind table'.lengthOfDeclared) :=
    (Lift.of_rel (alike.declaredType paired)).bind fun same => .of_rel (alike.lengthOfDeclared same)
  have details := alike.details paired
  generalize table.details id = found, table'.details id' = found' at details
  cases details with
  | associate same => exact Typing.lift_charLengthWith alike.foldInteger answers same
  | _ => exact declared

theorem charLength (same : expr.Alike pairing expr') :
    Option.Rel (Expr.Alike pairing) (table.charLength expr) (table'.charLength expr') :=
  (Typing.lift_charLengthWith alike.foldInteger (fun paired => .of_rel (alike.symbolLength paired)) same).rel

end Table.Alike

end FortranInterface
