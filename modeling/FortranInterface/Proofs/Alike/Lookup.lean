import FortranInterface.Proofs.Alike.Call

/-!
Names, components and generics mean paired symbols in tables that are alike.
-/

namespace FortranInterface

set_option linter.unusedSectionVars false

variable {pairing : Pairing}
variable {details details' : Details}

section

variable (alike : details.Alike pairing details')
include alike

theorem Details.Alike.isDerivedType : details.isDerivedType = details'.isDerivedType := by
  cases alike <;> rfl

theorem Details.Alike.isProcedure : details.isProcedure = details'.isProcedure := by
  cases alike <;> rfl

theorem Details.Alike.isBinding : details.isBinding = details'.isBinding := by
  cases alike <;> rfl

theorem Details.Alike.isAssociate : details.isAssociate = details'.isAssociate := by
  cases alike <;> rfl

theorem Details.Alike.generic? : Option.Rel (GenericDetails.Alike pairing) details.generic? details'.generic? := by
  cases alike with
  | generic same => exact .some same
  | _ => exact .none

theorem Details.Alike.subprogram? :
    Option.Rel (SubprogramDetails.Alike pairing) details.subprogram? details'.subprogram? := by
  cases alike with
  | subprogram same => exact .some same
  | _ => exact .none

theorem Details.Alike.typeScope? :
    Option.Rel pairing.scopes (Table.typeScope? details) (Table.typeScope? details') := by
  cases alike with
  | derivedType same => exact same.scope
  | _ => exact .none

theorem Details.Alike.isGeneric : details.generic?.isSome = details'.generic?.isSome := by
  cases alike <;> rfl

end

variable {actuals actuals' : Actuals}

theorem Actuals.Alike.passObject {object object' : Expr} (same : object.Alike pairing object') (span : Span)
    (alike : Actuals.Alike pairing actuals actuals') (index : Option Nat) :
    Actuals.Alike pairing (Table.passObject object span actuals index)
      (Table.passObject object' span actuals' index) := by
  cases index with
  | none => exact alike
  | some index =>
    simp only [Table.passObject, (Arrangement.takeWhile_isPositional alike).length_eq]
    generalize min index _ = place
    induction alike generalizing place with
    | nil =>
      cases place with
      | zero => exact .cons (.some (.mk _ _ _ (.expr same))) .nil
      | succ place => exact .nil
    | cons first rest ih =>
      cases place with
      | zero => exact .cons (.some (.mk _ _ _ (.expr same))) (.cons first rest)
      | succ place => exact .cons first (ih place)

section

variable {α β γ δ : Type} {related : α → β → Prop} {items : List α} {items' : List β} {test : α → Bool}
  {test' : β → Bool} (alike : List.Forall₂ related items items')
include alike

theorem find?_alike (tests : ∀ {item item'}, related item item' → test item = test' item') :
    Option.Rel related (items.find? test) (items'.find? test') := by
  induction alike with
  | nil => exact .none
  | cons first _ ih =>
    simp only [List.find?_cons, tests first]
    split
    · exact .some first
    · exact ih

theorem findSome?_alike {other : γ → δ → Prop} {find : α → Option γ} {find' : β → Option δ}
    (finds : ∀ {item item'}, related item item' → Option.Rel other (find item) (find' item')) :
    Option.Rel other (items.findSome? find) (items'.findSome? find') := by
  induction alike with
  | nil => exact .none
  | @cons item item' _ _ first _ ih =>
    have here := finds first
    simp only [List.findSome?_cons]
    exact relCases here ih fun _ _ here => .some here

theorem filter_alike_of_mem (tests : ∀ {item item'}, item ∈ items → related item item' → test item = test' item') :
    List.Forall₂ related (items.filter test) (items'.filter test') := by
  induction alike with
  | nil => exact .nil
  | cons first _ ih =>
    have later := ih fun member => tests (.tail _ member)
    simp only [List.filter_cons, tests (.head _) first]
    split
    · exact .cons first later
    · exact later

theorem filter_alike (tests : ∀ {item item'}, related item item' → test item = test' item') :
    List.Forall₂ related (items.filter test) (items'.filter test') :=
  filter_alike_of_mem alike fun _ => tests

end

theorem eraseDups_alike (exact : pairing.Exact) {ids ids' : List SymbolId}
    (alike : List.Forall₂ pairing.symbols ids ids') : List.Forall₂ pairing.symbols ids.eraseDups ids'.eraseDups := by
  match alike with
  | .nil => exact .nil
  | @List.Forall₂.cons _ _ _ id id' rest rest' first others =>
    rw [List.eraseDups_cons, List.eraseDups_cons]
    have fewer : List.Forall₂ pairing.symbols (rest.filter fun other => !other == id)
        (rest'.filter fun other => !other == id') := by
      refine filter_alike others fun {other other'} paired => ?_
      have same := exact.symbols paired first
      by_cases equal : other = id
      · simp [equal, same.mp equal]
      · have equal' : other' ≠ id' := fun equal' => equal (same.mpr equal')
        simp [equal, equal']
    exact .cons first (eraseDups_alike exact fewer)
termination_by ids.length
decreasing_by
  have := List.length_filter_le (fun other => !other == id) rest
  simp only [List.length_cons]
  omega

theorem Lift.derivedType (full : Bool) {type type' : Option DeclaredType} :
    Option.Rel (DeclaredType.Alike pairing) type type' → Lift full pairing.symbols
      (match type with
        | some (.type type) | some (.classOf type) => some type
        | _ => none)
      (match type' with
        | some (.type type) | some (.classOf type) => some type
        | _ => none) := by
  intro same
  cases same with
  | none => exact .none_none
  | some same =>
    cases same with
    | type paired => exact .some_some paired
    | classOf paired => exact .some_some paired
    | _ => exact .none_none

namespace Table.Alike

variable {leeway : Leeway} {table table' : Table} (alike : Table.Alike pairing leeway table table')
include alike

theorem filter_details {found found' : Option SymbolId}
    (same : Option.Rel pairing.symbols found found') {test : Details → Bool}
    (tests : ∀ {details details' : Details}, details.Alike pairing details' →
      test details = test details') :
    Option.Rel pairing.symbols (found.filter fun id => test (table.details id))
      (found'.filter fun id => test (table'.details id)) := by
  cases same with
  | none => exact .none
  | some pair =>
    simp only [Option.filter, tests (alike.details pair)]
    split
    · exact .some pair
    · exact .none

variable {name : String} {scope scope' : ScopeId}

theorem visible?_filter (paired : pairing.scopes scope scope') (compared : leeway.Compares name) {test : Details → Bool}
    (tests : ∀ {details details' : Details}, details.Alike pairing details' →
      test details = test details') :
    Option.Rel pairing.symbols ((table.visible? scope name).filter fun id => test (table.details id))
      ((table'.visible? scope' name).filter fun id => test (table'.details id)) :=
  alike.filter_details (alike.visible? paired compared) tests

theorem component? {type type' : SymbolId} (paired : pairing.symbols type type') (compared : leeway.Compares name) :
    Option.Rel pairing.symbols (table.component? type name) (table'.component? type' name) := by
  refine alike.chain_findSome? (fun details => ?_) (fun paired => ?_) paired
  · cases details with
    | derivedType same => exact same.parent
    | _ => exact .none
  · have scopes := (alike.details paired).typeScope?
    exact ((Lift.of_rel scopes).bind fun scopes => .of_rel ((alike.scope scopes).find? (compared _))).rel

variable {expr expr' : Expr}

theorem derivedTypeOf? (same : expr.Alike pairing expr') :
    Option.Rel pairing.symbols (table.derivedTypeOf? expr) (table'.derivedTypeOf? expr') := by
  refine (alike.through_selectors table.derivedTypeOfWithin table'.derivedTypeOfWithin
    (fun _ => rfl) (fun _ => rfl) ?_ same).rel
  intro full count count' answers expr expr' same
  simp only [derivedTypeOfWithin]
  refine (Lift.of_rel same.lastSymbol?).bind fun {id id'} paired => ?_
  have here := answers paired
  have declared := Lift.derivedType full (alike.declaredType paired)
  have details := alike.details paired
  unfold throughSelector at here
  generalize table.details id = found, table'.details id' = found' at details here
  cases details with
  | associate => exact here
  | _ => exact declared

theorem isDerivedExpr (same : expr.Alike pairing expr') : table.isDerivedExpr expr = table'.isDerivedExpr expr' := by
  simp only [Table.isDerivedExpr, alike.typeOf same]

variable {id id' : SymbolId}

theorem isCharacterSymbol (paired : pairing.symbols id id') :
    table.isCharacterSymbol id = table'.isCharacterSymbol id' := by
  simp only [Table.isCharacterSymbol, (alike.lift_symbolType paired).types_eq]

theorem passIndex? (paired : pairing.symbols id id') : table.passIndex? id = table'.passIndex? id' := by
  have symbols := alike.symbol paired
  have details := symbols.details
  have procedures := alike.procedure paired
  simp only [Table.passIndex?]
  rw [symbols.plain .noPass rfl]
  split
  · rfl
  · refine relCases procedures rfl fun _ _ procedures => ?_
    simp only [Option.bind_some]
    generalize (table.symbol id).details = details, (table'.symbol id').details = details' at details
    cases details with
    | binding => exact findIdx?_alike procedures.dummies fun same => same.pass
    | procEntity same =>
      simp only
      rw [procedures.hasExplicitInterface, same.passName, procedures.passIndex?]
    | _ => rfl

theorem fits (isFunction : Bool) (paired : pairing.symbols id id') (same : Actuals.Alike pairing actuals actuals') :
    table.fits isFunction id actuals = table'.fits isFunction id' actuals' := by
  have procedures := alike.procedure paired
  simp only [Table.fits]
  generalize table.procedure id = found, table'.procedure id' = found' at procedures
  cases procedures with
  | none => rfl
  | some procedures => simp only [procedures.isFunction, alike.fitsGeneric procedures same]

theorem specifics (paired : pairing.symbols id id') :
    List.Forall₂ pairing.symbols (table.specifics id) (table'.specifics id') := by
  have details := alike.details paired
  simp only [Table.specifics]
  generalize table.details id = found, table'.details id' = found' at details
  cases details with
  | generic same => exact same.specifics
  | _ => exact .nil

theorem specificFor? (paired : pairing.symbols id id')
    (same : Actuals.Alike pairing actuals actuals') (isFunction : Bool) :
    Option.Rel pairing.symbols (table.specificFor? id actuals isFunction)
      (table'.specificFor? id' actuals' isFunction) :=
  find?_alike (alike.specifics paired) fun paired => alike.fits isFunction paired same

def ChosenAlike (pairing : Pairing) (chosen chosen' : SymbolId × Actuals) : Prop :=
  pairing.symbols chosen.1 chosen'.1 ∧ Actuals.Alike pairing chosen.2 chosen'.2

theorem boundSpecificFor? (paired : pairing.symbols id id') {object object' : Expr}
    (objects : object.Alike pairing object') (span : Span)
    (same : Actuals.Alike pairing actuals actuals') (isFunction : Bool) :
    Option.Rel (ChosenAlike pairing) (table.boundSpecificFor? id object span actuals isFunction)
      (table'.boundSpecificFor? id' object' span actuals' isFunction) := by
  refine findSome?_alike (alike.specifics paired) fun {specific specific'} paired => ?_
  have passed := same.passObject objects span (table.passIndex? specific)
  simp only
  rw [← alike.passIndex? paired, alike.fits isFunction paired passed]
  split
  · exact .some ⟨paired, passed⟩
  · exact .none

variable {operands operands' : List Expr}

section

variable (paired : pairing.scopes scope scope') (compared : leeway.Compares name)
  (same : List.Forall₂ (Expr.Alike pairing) operands operands')
include paired compared same

theorem operatorGenerics :
    List.Forall₂ pairing.symbols (table.operatorGenerics scope name operands)
      (table'.operatorGenerics scope' name operands') := by
  refine eraseDups_alike alike.exact (filter_alike (List.rel_append ?_ ?_)
    fun paired => (alike.details paired).isGeneric)
  · have found := alike.visible? paired compared
    exact relCases found .nil fun _ _ found => .cons found .nil
  · refine List.rel_filterMap (fun _ _ same => ?_) same
    exact ((Lift.of_rel (alike.derivedTypeOf? same)).bind fun types =>
      .of_rel (alike.component? types compared)).rel

theorem operatorFor? (passed : Actuals.Alike pairing actuals actuals') (isFunction : Bool) :
    Option.Rel (fun found found' => pairing.symbols found.1 found'.1 ∧
        pairing.symbols found.2 found'.2) (table.operatorFor? scope name operands actuals isFunction)
      (table'.operatorFor? scope' name operands' actuals' isFunction) :=
  findSome?_alike (alike.operatorGenerics paired compared same) fun generics =>
    ((Lift.of_rel (alike.specificFor? generics passed isFunction)).map fun specifics =>
      ⟨generics, specifics⟩).rel

end

theorem foldKindInquiry (same : expr.Alike pairing expr') :
    (table.foldKindInquiry expr).Alike pairing (table'.foldKindInquiry expr') := by
  have inquiry : table.kindInquiry? expr = table'.kindInquiry? expr' := by
    cases same with
    | @call callee callee' actuals actuals' callees same =>
      cases callees with
      | symbol => rfl
      | intrinsic name =>
        simp only [kindInquiry?]
        have first : Option.Rel (Expr.Alike pairing) (actuals.head?.join.bind Actual.expr?)
            (actuals'.head?.join.bind Actual.expr?) := by
          cases same with
          | nil => exact .none
          | cons first _ => exact ((Lift.of_rel first).bind fun same => .of_rel same.expr?).rel
        generalize actuals.head?.join.bind Actual.expr? = found,
          actuals'.head?.join.bind Actual.expr? = found' at first
        cases first with
        | none => rfl
        | some first => simp only [Option.bind_some, alike.typeOf first, alike.foldInteger first]
    | _ => rfl
  simp only [Table.foldKindInquiry]
  rw [inquiry]
  split
  · exact .int _
  · exact same

end Table.Alike

end FortranInterface
