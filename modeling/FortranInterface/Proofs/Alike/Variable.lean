import FortranInterface.Proofs.Alike.Shape

/-!
Expressions that are alike are variables together, are spelled in the same way, and have types and shapes
that are alike.
-/

namespace FortranInterface

set_option linter.unusedSectionVars false

variable {pairing : Pairing}
variable {expr expr' : Expr}

namespace Table

def yes? : Bool → Option Unit
  | true => some ()
  | false => none

def throughSelector {α : Type} (table : Table) (answer : Nat → Expr → Option α) (links : Nat)
    (id : SymbolId) : Option α :=
  match table.details id with
  | .associate selector => answer links selector
  | _ => none

namespace Alike

variable {leeway : Leeway} {table table' : Table} (alike : Table.Alike pairing leeway table table')
include alike

theorem through_selectors {α β : Type} {related : α → β → Prop} (answer : Nat → Expr → Option α)
    (answer' : Nat → Expr → Option β) (start : ∀ expr, answer 0 expr = none) (start' : ∀ expr, answer' 0 expr = none)
    (step : ∀ full count count', (∀ {id id'}, pairing.symbols id id' →
        Lift full related (table.throughSelector answer count id) (table'.throughSelector answer' count' id')) →
      ∀ {expr expr' : Expr}, expr.Alike pairing expr' →
        Lift full related (answer (count + 1) expr) (answer' (count' + 1) expr')) (same : expr.Alike pairing expr') :
    Lift true related (answer (table.symbols.size + 1) expr) (answer' (table'.symbols.size + 1) expr') := by
  refine step _ _ _ (fun paired => ?_) same
  refine Lift.of_enough_links (table.throughSelector answer) (table'.throughSelector answer') _
    (fun id => ?_) (fun id => ?_) ?_ @alike.bounded (Nat.le_refl _) alike.size_le paired
  · unfold throughSelector
    split
    · exact start _
    · rfl
  · unfold throughSelector
    split
    · exact start' _
    · rfl
  · intro full count count' answers id id' paired
    have details := alike.details paired
    simp only [throughSelector]
    generalize table.details id = found, table'.details id' = found' at details
    cases details with
    | associate same => exact step _ _ _ answers same
    | _ => exact .none_none

theorem functionResult? {id id' : SymbolId} (paired : pairing.symbols id id') :
    Option.Rel pairing.symbols (table.functionResult? id) (table'.functionResult? id') := by
  unfold Table.functionResult?
  rcases alike.chainEnd (·.entityInterface?) paired with ends | ⟨⟨_, last⟩, _, last'⟩
  · have details := alike.details ends
    generalize table.details _ = found, table'.details _ = found' at details
    cases details with
    | subprogram same => exact same.result
    | _ => exact .none
  · generalize table.details _ = found at last
    generalize table'.details _ = found' at last'
    cases found <;> simp [Details.entityInterface?] at last
    cases found' <;> simp [Details.entityInterface?] at last'
    exact .none

theorem lift_isVariableWithin {full : Bool} {count count' : Nat}
    (answers : ∀ {id id'}, pairing.symbols id id' →
      Lift full Eq (table.throughSelector (fun links expr => yes? (table.isVariableWithin links expr)) count id)
        (table'.throughSelector (fun links expr => yes? (table'.isVariableWithin links expr)) count' id'))
    (same : expr.Alike pairing expr') :
    Lift full Eq (yes? (table.isVariableWithin (count + 1) expr))
      (yes? (table'.isVariableWithin (count' + 1) expr')) := by
  cases same with
  | @designator id id' _ _ _ paired _ =>
    have here := answers paired
    have symbols := alike.symbol paired
    have details := alike.details paired
    simp only [isVariableWithin, symbols.plain .parameter rfl]
    unfold throughSelector at here
    generalize table.details id = found, table'.details id' = found' at details here
    cases details with
    | object => exact .refl _
    | associate => exact here
    | _ => exact .none_none
  | call callee _ =>
    cases callee with
    | @symbol id id' paired =>
      have results := alike.functionResult? paired
      simp only [isVariableWithin]
      refine relCases results .none_none fun _ _ results => ?_
      simp only [Symbol.isPointer, (alike.symbol results).plain .pointer rfl]
      exact .refl _
    | intrinsic _ => exact .none_none
  | _ => exact .none_none

section

variable (same : expr.Alike pairing expr')
include same

theorem isVariable : table.isVariable expr = table'.isVariable expr' := by
  have answers : yes? (table.isVariable expr) = yes? (table'.isVariable expr') := by
    refine (alike.through_selectors (fun links expr => yes? (table.isVariableWithin links expr))
      (fun links expr => yes? (table'.isVariableWithin links expr)) (fun _ => rfl) (fun _ => rfl) ?_
      same).eq
    exact fun full count count' answers _ _ same => alike.lift_isVariableWithin answers same
  cases found : table.isVariable expr <;> cases found' : table'.isVariable expr' <;>
    simp_all [yes?]

theorem isArrayValued : table.isArrayValued expr = table'.isArrayValued expr' := by
  unfold Table.isArrayValued
  rw [alike.rank same]

theorem hasVectorSubscript : table.hasVectorSubscript expr = table'.hasVectorSubscript expr' := by
  cases same with
  | designator _ _ subscripts =>
    simp only [Table.hasVectorSubscript]
    induction subscripts with
    | nil => rw [List.any_nil, List.any_nil]
    | cons first _ ih =>
      cases first with
      | index value => simp only [List.any_cons, alike.isArrayValued value, ih]
      | triplet => simp only [List.any_cons, ih]
  | _ => rfl

end

theorem isContiguousSubscript {subscript subscript' : Subscript} (same : subscript.Alike pairing subscript') :
    table.isContiguousSubscript subscript = table'.isContiguousSubscript subscript' := by
  cases same with
  | index value => simp only [Table.isContiguousSubscript, alike.isArrayValued value]
  | triplet _ _ stride =>
    cases stride with
    | none => rfl
    | some stride => simp only [Table.isContiguousSubscript, alike.foldInteger stride]

end Alike

end Table

namespace Symbol.Alike

variable {gained : Option Attribute} {symbol symbol' : Symbol} (alike : symbol.Alike pairing gained symbol')
include alike

theorem isPointer : symbol.isPointer = symbol'.isPointer :=
  alike.plain .pointer rfl

theorem isAllocatable : symbol.isAllocatable = symbol'.isAllocatable :=
  alike.plain .allocatable rfl

theorem intent : symbol.intent = symbol'.intent := by
  simp only [Symbol.intent, alike.plain .intentIn rfl, alike.plain .intentOut rfl, alike.plain .intentInOut rfl]

theorem isAssumedShapeDummy : Table.isAssumedShapeDummy symbol = Table.isAssumedShapeDummy symbol' := by
  have details := alike.details
  simp only [Table.isAssumedShapeDummy, alike.isAllocatable, alike.isPointer]
  generalize symbol.details = found, symbol'.details = found' at details
  cases details with
  | object same => simp only [same.isDummy, ArraySpec.Alike.any_isColon same.shape]
  | _ => rfl

end Symbol.Alike

namespace Table.Alike

variable {leeway : Leeway} {table table' : Table} (alike : Table.Alike pairing leeway table table')
include alike

section

variable (same : expr.Alike pairing expr')
include same

theorem isSimplyContiguous : table.isSimplyContiguous expr = table'.isSimplyContiguous expr' := by
  cases same with
  | @designator _ _ found found' _ paired subscripts =>
    have symbols := alike.symbol paired
    have all : found.all table.isContiguousSubscript = found'.all table'.isContiguousSubscript := by
      induction subscripts with
      | nil => rw [List.all_nil, List.all_nil]
      | cons first _ ih => simp only [List.all_cons, alike.isContiguousSubscript first, ih]
    simp only [Table.isSimplyContiguous, symbols.plain .contiguous rfl, symbols.isPointer,
      symbols.isAssumedShapeDummy, all]
  | _ => rfl

theorem wholeSymbol? :
    Option.Rel (fun symbol symbol' => ∃ gained, symbol.Alike pairing gained symbol')
      (table.wholeSymbol? expr) (table'.wholeSymbol? expr') := by
  cases same with
  | designator coindexed paired subscripts =>
    cases subscripts with
    | nil =>
      cases coindexed with
      | false => exact .some ⟨_, alike.symbol paired⟩
      | true => exact .none
    | cons _ _ => exact .none
  | _ => exact .none

theorem isPointer : table.isPointer expr = table'.isPointer expr' := by
  have designated := alike.isVariable same
  cases same with
  | designator _ paired subscripts =>
    cases subscripts with
    | nil => exact (alike.symbol paired).isPointer
    | cons _ _ => rfl
  | call => exact designated
  | _ => rfl

end

theorem calleeName {callee callee' : Callee} (same : callee.Alike pairing callee') :
    callee.name table = callee'.name table' := by
  cases same with
  | symbol paired => exact (alike.symbol paired).name
  | intrinsic => rfl

/-! Spellings. -/

omit alike in
theorem spellings {exprs exprs' : List Expr}
    (same : List.Forall₂ (fun expr expr' => expr.spelling table = expr'.spelling table') exprs exprs') :
    FortranInterface.spellings table exprs = FortranInterface.spellings table' exprs' := by
  induction same with
  | nil => rfl
  | cons first _ ih => simp only [FortranInterface.spellings, first, ih]

omit alike in
theorem boundSpelling {bound bound' : Option Expr}
    (same : Option.Rel (fun expr expr' => expr.spelling table = expr'.spelling table') bound bound') :
    FortranInterface.boundSpelling table bound = FortranInterface.boundSpelling table' bound' ∧
      strideSpelling table bound = strideSpelling table' bound' := by
  cases same with
  | none => exact ⟨rfl, rfl⟩
  | some same => simp only [FortranInterface.boundSpelling, strideSpelling, same, and_self]

omit alike in
theorem subscriptSpellings {subscripts subscripts' : List Subscript}
    (same : List.Forall₂ (fun one one' => one.spelling table = one'.spelling table') subscripts subscripts') :
    FortranInterface.subscriptSpellings table subscripts = FortranInterface.subscriptSpellings table' subscripts' := by
  induction same with
  | nil => rfl
  | cons first _ ih => simp only [FortranInterface.subscriptSpellings, first, ih]

omit alike in
theorem actualSpellings {actuals actuals' : Actuals}
    (same : List.Forall₂ (Option.Rel fun one one' => one.spelling table = one'.spelling table') actuals actuals') :
    FortranInterface.actualSpellings table actuals = FortranInterface.actualSpellings table' actuals' := by
  induction same with
  | nil => rfl
  | cons first _ ih => cases first <;> simp only [FortranInterface.actualSpellings, *]

theorem closed_spelling : Closed pairing (fun expr expr' => expr.spelling table = expr'.spelling table')
    (fun one one' => one.spelling table = one'.spelling table') (fun one one' => one.spelling table = one'.spelling table')
    (fun one one' => one.spelling table = one'.spelling table') where
  literal _ := rfl
  array _ same := by simp only [Expr.spelling, spellings same]
  designator _ paired same := by simp only [Expr.spelling, (alike.symbol paired).name, subscriptSpellings same]
  call callee same := by simp only [Expr.spelling, alike.calleeName callee, actualSpellings same]
  operation _ _ _ same := by simp only [Expr.spelling, spellings same]
  null := rfl
  boz _ := rfl
  procedure callee := by simp only [Expr.spelling, alike.calleeName callee]
  index same := by simp only [Subscript.spelling, same]
  triplet lower upper stride := by
    simp only [Subscript.spelling, boundSpelling lower, boundSpelling upper, boundSpelling stride]
  passed _ _ _ _ _ same := by simp only [Actual.spelling, same]
  ofExpr same := by simp only [ActualValue.spelling, same]
  assumedType paired := (alike.symbol paired).name
  label _ := rfl

theorem spelling {expr expr' : Expr} (same : expr.Alike pairing expr') : expr.spelling table = expr'.spelling table' :=
  same.within alike.closed_spelling

end Table.Alike

/-! Types and shapes. -/

structure TypeAndShape.Alike (pairing : Pairing) (typeAndShape typeAndShape' : TypeAndShape) : Prop where
  type : typeAndShape.type = typeAndShape'.type
  length : Option.Rel (Expr.Alike pairing) typeAndShape.length typeAndShape'.length
  shape : Shape.Alike pairing typeAndShape.shape typeAndShape'.shape
  attributes : typeAndShape.attributes = typeAndShape'.attributes
  corank : typeAndShape.corank = typeAndShape'.corank

theorem Expr.Alike.intLiteral? (alike : expr.Alike pairing expr') : expr.intLiteral? = expr'.intLiteral? := by
  cases alike <;> rfl

theorem bind_intLiteral? {value value' : Option Expr} (same : Option.Rel (Expr.Alike pairing) value value') :
    value.bind Expr.intLiteral? = value'.bind Expr.intLiteral? := by
  cases same with
  | none => rfl
  | some same => exact same.intLiteral?

namespace TypeAndShape.Alike

variable {first first' second second' : TypeAndShape} (alike : first.Alike pairing first')
include alike

theorem rank : first.rank = first'.rank :=
  alike.shape.length_eq

theorem has (attr : ShapeAttribute) : first.has attr = first'.has attr := by
  simp only [TypeAndShape.has, alike.attributes]

theorem withAttribute (attr : ShapeAttribute) :
    (first.withAttribute attr).Alike pairing (first'.withAttribute attr) := by
  refine ⟨alike.type, alike.length, ?_, by simp only [TypeAndShape.withAttribute, alike.attributes], alike.corank⟩
  simp only [TypeAndShape.withAttribute]
  split
  · exact .nil
  · exact alike.shape

theorem withCorank (corank : Nat) : (first.withCorank corank).Alike pairing (first'.withCorank corank) :=
  ⟨alike.type, alike.length, alike.shape, by simp only [TypeAndShape.withCorank, alike.attributes], rfl⟩

theorem typeSpelling : first.typeSpelling = first'.typeSpelling := by
  simp only [TypeAndShape.typeSpelling, alike.type, bind_intLiteral? alike.length]

theorem eq_iff (exact : pairing.Exact) (other : second.Alike pairing second') : first = second ↔ first' = second' := by
  obtain ⟨type, length, shape, attributes, corank⟩ := first
  obtain ⟨type', length', shape', attributes', corank'⟩ := first'
  obtain ⟨otherType, otherLength, otherShape, otherAttributes, otherCorank⟩ := second
  obtain ⟨otherType', otherLength', otherShape', otherAttributes', otherCorank'⟩ := second'
  have types := alike.type
  have lengths := iffBound exact alike.length other.length
  have shapes {shape shape' other other' : Shape} (same : Shape.Alike pairing shape shape')
      (others : Shape.Alike pairing other other') : shape = other ↔ shape' = other' := by
    induction same generalizing other other' with
    | nil => cases others <;> simp
    | cons first _ ih =>
      cases others with
      | nil => simp
      | cons second others => simp [iffBound exact first second, ih others]
  have shapes := shapes alike.shape other.shape
  have otherTypes := other.type
  have attributesEq := alike.attributes
  have otherAttributesEq := other.attributes
  have coranks := alike.corank
  have otherCoranks := other.corank
  simp only at types lengths shapes otherTypes attributesEq otherAttributesEq coranks otherCoranks
  subst types otherTypes attributesEq otherAttributesEq coranks otherCoranks
  simp [lengths, shapes]

end TypeAndShape.Alike

variable {left left' right right' : Shape}

theorem Shape.extentMismatch?_eq (leftIs rightIs : String) (dimension : Nat) (lefts : Shape.Alike pairing left left')
    (rights : Shape.Alike pairing right right') :
    extentMismatch? leftIs rightIs dimension left right = extentMismatch? leftIs rightIs dimension left' right' := by
  induction lefts generalizing dimension right right' with
  | nil => cases rights <;> rfl
  | cons first _ ih =>
    cases rights with
    | nil => rfl
    | cons second rights =>
      simp only [extentMismatch?, bind_intLiteral? first, bind_intLiteral? second, ih _ rights]

theorem Shape.mismatch?_eq (leftIs rightIs : String) (lefts : Shape.Alike pairing left left')
    (rights : Shape.Alike pairing right right') :
    mismatch? leftIs rightIs left right = mismatch? leftIs rightIs left' right' := by
  simp only [mismatch?, lefts.length_eq, rights.length_eq, extentMismatch?_eq _ _ _ lefts rights]

theorem TypeAndShape.Alike.mismatch? {left left' right right' : TypeAndShape}
    (lefts : left.Alike pairing left') (rights : right.Alike pairing right') (leftIs rightIs : String)
    (isElemental : Bool) :
    left.mismatch? right leftIs rightIs isElemental = left'.mismatch? right' leftIs rightIs isElemental := by
  simp only [TypeAndShape.mismatch?, lefts.type, rights.type, lefts.typeSpelling, rights.typeSpelling,
    Shape.mismatch?_eq leftIs rightIs lefts.shape rights.shape]

namespace Table

def partsTypeAndShape (table : Table) (expr : Expr) : Option TypeAndShape :=
  (table.typeOf expr).bind fun type =>
    (table.shapeOf expr).map fun shape =>
      { TypeAndShape.ofShape type shape with
        length := if type.category = .character then table.charLength expr else none }

namespace Alike

variable {leeway : Leeway} {table table' : Table} (alike : Table.Alike pairing leeway table table')
include alike

theorem objectTypeAndShape {id id' : SymbolId} (paired : pairing.symbols id id') :
    Option.Rel (TypeAndShape.Alike pairing) (table.objectTypeAndShape id) (table'.objectTypeAndShape id') := by
  have lengths := alike.symbolLength paired
  have symbols := alike.symbol paired
  have details := alike.details paired
  simp only [Table.objectTypeAndShape]
  generalize table.details id = found, table'.details id' = found' at details
  cases details with
  | @object object object' same =>
    have kinds : TypeAndShape.arrayAttribute? (table.symbol id) object.shape =
        TypeAndShape.arrayAttribute? (table'.symbol id') object'.shape := by
      simp only [TypeAndShape.arrayAttribute?, ArraySpec.Alike.isAssumedRank same.shape,
        ArraySpec.Alike.isAssumedSize same.shape, ArraySpec.Alike.isColonShape same.shape,
        symbols.isPointer, symbols.isAllocatable]
    have types := ((Lift.of_rel same.type).bind alike.lift_typeOfDeclared).types_eq
    simp only [types, kinds, same.coshape.length_eq]
    cases object'.type.bind table'.typeOfDeclared with
    | none => exact .none
    | some type =>
      refine .some (TypeAndShape.Alike.withCorank ?_ _)
      have declared : TypeAndShape.Alike pairing
          ⟨type, if type.category = .character then table.symbolLength id else none,
            object.shape.map (Shape.extentOfBounds table), .empty, 0⟩
          ⟨type, if type.category = .character then table'.symbolLength id' else none,
            object'.shape.map (Shape.extentOfBounds table'), .empty, 0⟩ := by
        refine ⟨rfl, ?_, Shape.map_extentOfBounds alike same.shape, rfl, rfl⟩
        simp only
        split
        · exact lengths
        · exact .none
      split
      · exact declared.withAttribute _
      · exact declared
  | _ => exact .none

theorem partsTypeAndShape (same : expr.Alike pairing expr') :
    Option.Rel (TypeAndShape.Alike pairing) (table.partsTypeAndShape expr) (table'.partsTypeAndShape expr') := by
  have lengths := alike.charLength same
  have shapes := alike.shapeOf same
  simp only [Table.partsTypeAndShape, alike.typeOf same]
  cases table'.typeOf expr' with
  | none => exact .none
  | some type =>
    simp only [Option.bind_some]
    refine relCases shapes .none fun _ _ shapes => ?_
    refine .some ⟨rfl, ?_, shapes, rfl, rfl⟩
    simp only
    split
    · exact lengths
    · exact .none

theorem exprTypeAndShape (same : expr.Alike pairing expr') :
    Option.Rel (TypeAndShape.Alike pairing) (table.exprTypeAndShape expr) (table'.exprTypeAndShape expr') := by
  refine (alike.through_selectors table.exprTypeAndShapeWithin table'.exprTypeAndShapeWithin
    (fun _ => rfl) (fun _ => rfl) ?_ same).rel
  intro full count count' answers expr expr' same
  have parts := alike.partsTypeAndShape same
  have of_parts (table : Table) (count : Nat) {expr : Expr} (partial_ : table.wholeSymbol? expr = none) :
      table.exprTypeAndShapeWithin (count + 1) expr = table.partsTypeAndShape expr := by
    simp only [exprTypeAndShapeWithin, partial_]
    cases expr <;> rfl
  have whole := alike.wholeSymbol? same
  cases same with
  | @designator id id' _ _ coindexed paired subscripts =>
    cases subscripts with
    | nil =>
      cases coindexed with
      | true =>
        rw [of_parts _ _ rfl, of_parts _ _ rfl]
        exact .of_rel parts
      | false =>
        have here := answers paired
        have objects := alike.objectTypeAndShape paired
        have details := alike.details paired
        simp only [exprTypeAndShapeWithin, Table.wholeSymbol?, Option.map_some]
        unfold throughSelector at here
        unfold Table.details at details here
        generalize (table.symbol id).details = found, (table'.symbol id').details = found' at details here
        cases details with
        | object => exact .of_rel objects
        | associate => exact here
        | _ => exact .of_rel parts
    | cons _ _ =>
      rw [of_parts _ _ rfl, of_parts _ _ rfl]
      exact .of_rel parts
  | _ =>
    rw [of_parts _ _ rfl, of_parts _ _ rfl]
    exact .of_rel parts

end Alike

end Table

end FortranInterface
