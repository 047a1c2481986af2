import Mathlib.Data.List.Forall2
import FortranInterface.Symbol.Table

/-!
Data that differ only in the symbols and scopes they name. A pairing says which symbols and scopes of two
tables stand for each other; what is alike is the same but for the paired names.
-/

namespace FortranInterface

namespace Category

def isFloat : Category → Bool
  | real | complex => true
  | _ => false

/-- A complex number is made of real ones. -/
def ofParts : Category → Category
  | complex => real
  | category => category

end Category

/-- Symbols and scopes of two tables that stand for each other, and the kinds that a suffix may give to a literal. -/
structure Pairing where
  symbols : SymbolId → SymbolId → Prop
  scopes : ScopeId → ScopeId → Prop
  suffixes : Category → Nat → Prop

namespace Pairing

def Knows (pairing : Pairing) (type : DynamicType) : Prop :=
  type.category.isValidKind type.kind = true ∨ pairing.suffixes type.category.ofParts type.kind

/-- The type is real or complex only with a kind that is known. -/
def KnowsFloat (pairing : Pairing) (type : DynamicType) : Prop :=
  type.category.isFloat = true → pairing.Knows type

structure Le (pairing larger : Pairing) : Prop where
  symbols : ∀ {id id'}, pairing.symbols id id' → larger.symbols id id'
  scopes : ∀ {scope scope'}, pairing.scopes scope scope' → larger.scopes scope scope'
  knows : ∀ {type}, pairing.Knows type → larger.Knows type

structure Exact (pairing : Pairing) : Prop where
  symbols : ∀ {first first' second second'}, pairing.symbols first first' →
    pairing.symbols second second' → (first = second ↔ first' = second')
  scopes : ∀ {first first' second second'}, pairing.scopes first first' →
    pairing.scopes second second' → (first.index < second.index ↔ first'.index < second'.index)

theorem Exact.scope_eq_iff {pairing : Pairing} (exact : pairing.Exact) {first first' second second' : ScopeId}
    (paired : pairing.scopes first first') (other : pairing.scopes second second') :
    first = second ↔ first' = second' := by
  obtain ⟨first⟩ := first
  obtain ⟨first'⟩ := first'
  obtain ⟨second⟩ := second
  obtain ⟨second'⟩ := second'
  have before := exact.scopes paired other
  have behind := exact.scopes other paired
  simp only [ScopeId.mk.injEq] at before behind ⊢
  omega

end Pairing

structure DynamicType.Alike (pairing : Pairing) (type type' : DynamicType) : Prop where
  same : type = type'
  known : pairing.KnowsFloat type

inductive Callee.Alike (pairing : Pairing) : Callee → Callee → Prop where
  | symbol {id id' : SymbolId} : pairing.symbols id id' → Alike pairing (.symbol id) (.symbol id')
  | intrinsic (name : String) : Alike pairing (.intrinsic name) (.intrinsic name)

mutual

inductive Expr.Alike (pairing : Pairing) : Expr → Expr → Prop where
  | literal {value : Literal} : pairing.Knows value.type → Expr.Alike pairing (.literal value) (.literal value)
  | array {type : DynamicType} {values values' : List Expr} :
      pairing.KnowsFloat type → List.Forall₂ (Expr.Alike pairing) values values' →
      Expr.Alike pairing (.array type values) (.array type values')
  | designator {id id' : SymbolId} {subscripts subscripts' : List Subscript} (coindexed : Bool) :
      pairing.symbols id id' → List.Forall₂ (Subscript.Alike pairing) subscripts subscripts' →
      Expr.Alike pairing (.designator id subscripts coindexed) (.designator id' subscripts' coindexed)
  | call {callee callee' : Callee} {actuals actuals' : Actuals} : callee.Alike pairing callee' →
      List.Forall₂ (Option.Rel (Actual.Alike pairing)) actuals actuals' →
      Expr.Alike pairing (.call callee actuals) (.call callee' actuals')
  | operation (op : Operator) {operands operands' : List Expr} :
      List.Forall₂ (Expr.Alike pairing) operands operands' →
      Expr.Alike pairing (.operation op operands) (.operation op operands')
  | null : Expr.Alike pairing .null .null
  | boz (text : String) : Expr.Alike pairing (.boz text) (.boz text)
  | procedure {callee callee' : Callee} : callee.Alike pairing callee' →
      Expr.Alike pairing (.procedure callee) (.procedure callee')

inductive Subscript.Alike (pairing : Pairing) : Subscript → Subscript → Prop where
  | index {value value' : Expr} : Expr.Alike pairing value value' →
      Subscript.Alike pairing (.index value) (.index value')
  | triplet {lower lower' upper upper' stride stride' : Option Expr} :
      Option.Rel (Expr.Alike pairing) lower lower' → Option.Rel (Expr.Alike pairing) upper upper' →
      Option.Rel (Expr.Alike pairing) stride stride' →
      Subscript.Alike pairing (.triplet lower upper stride) (.triplet lower' upper' stride')

inductive Actual.Alike (pairing : Pairing) : Actual → Actual → Prop where
  | mk (keyword : Option String) {value value' : ActualValue} (isPassed : Bool) (span : Option Span) :
      ActualValue.Alike pairing value value' →
      Actual.Alike pairing ⟨keyword, value, isPassed, span⟩ ⟨keyword, value', isPassed, span⟩

inductive ActualValue.Alike (pairing : Pairing) : ActualValue → ActualValue → Prop where
  | expr {value value' : Expr} : Expr.Alike pairing value value' →
      ActualValue.Alike pairing (.expr value) (.expr value')
  | assumedType {id id' : SymbolId} : pairing.symbols id id' →
      ActualValue.Alike pairing (.assumedType id) (.assumedType id')
  | label (value : Nat) : ActualValue.Alike pairing (.label value) (.label value)

end

theorem Expr.Alike.int {pairing : Pairing} (value : Int) : (Expr.int value).Alike pairing (.int value) :=
  .literal (.inl rfl)

abbrev Actuals.Alike (pairing : Pairing) : Actuals → Actuals → Prop :=
  List.Forall₂ (Option.Rel (Actual.Alike pairing))

variable {pairing larger : Pairing}

theorem relMono {α β : Type} {first second : α → β → Prop} (imp : ∀ {a b}, first a b → second a b)
    {found : Option α} {found' : Option β} (related : Option.Rel first found found') :
    Option.Rel second found found' := by
  cases related with
  | none => exact .none
  | some related => exact .some (imp related)

@[elab_as_elim]
theorem relCases {α β : Type} {related : α → β → Prop} {motive : Option α → Option β → Prop} {found : Option α}
    {found' : Option β} (alike : Option.Rel related found found') (none : motive none none)
    (some : ∀ value value', related value value' → motive (some value) (some value')) : motive found found' := by
  cases alike with
  | none => exact none
  | some pair => exact some _ _ pair

theorem Callee.Alike.mono (le : pairing.Le larger) {callee callee' : Callee}
    (alike : callee.Alike pairing callee') : callee.Alike larger callee' := by
  cases alike with
  | symbol paired => exact .symbol (le.symbols paired)
  | intrinsic name => exact .intrinsic name

/-- Relations that hold of whatever is put together alike from parts of which they hold. -/
structure Closed (pairing : Pairing) (expr : Expr → Expr → Prop) (subscript : Subscript → Subscript → Prop)
    (actual : Actual → Actual → Prop) (value : ActualValue → ActualValue → Prop) : Prop where
  literal {literal : Literal} : pairing.Knows literal.type → expr (.literal literal) (.literal literal)
  array {type : DynamicType} {values values' : List Expr} : pairing.KnowsFloat type → List.Forall₂ expr values values' →
    expr (.array type values) (.array type values')
  designator {id id' : SymbolId} {subscripts subscripts' : List Subscript} (coindexed : Bool) :
    pairing.symbols id id' → List.Forall₂ subscript subscripts subscripts' →
    expr (.designator id subscripts coindexed) (.designator id' subscripts' coindexed)
  call {callee callee' : Callee} {actuals actuals' : Actuals} : callee.Alike pairing callee' →
    List.Forall₂ (Option.Rel actual) actuals actuals' → expr (.call callee actuals) (.call callee' actuals')
  operation (op : Operator) {operands operands' : List Expr} : List.Forall₂ expr operands operands' →
    expr (.operation op operands) (.operation op operands')
  null : expr .null .null
  boz (text : String) : expr (.boz text) (.boz text)
  procedure {callee callee' : Callee} : callee.Alike pairing callee' → expr (.procedure callee) (.procedure callee')
  index {place place' : Expr} : expr place place' → subscript (.index place) (.index place')
  triplet {lower lower' upper upper' stride stride' : Option Expr} : Option.Rel expr lower lower' →
    Option.Rel expr upper upper' → Option.Rel expr stride stride' →
    subscript (.triplet lower upper stride) (.triplet lower' upper' stride')
  passed (keyword : Option String) {given given' : ActualValue} (isPassed : Bool) (span : Option Span) :
    value given given' → actual ⟨keyword, given, isPassed, span⟩ ⟨keyword, given', isPassed, span⟩
  ofExpr {given given' : Expr} : expr given given' → value (.expr given) (.expr given')
  assumedType {id id' : SymbolId} : pairing.symbols id id' → value (.assumedType id) (.assumedType id')
  label (label : Nat) : value (.label label) (.label label)

section

variable {related : Expr → Expr → Prop} {subscripts : Subscript → Subscript → Prop}
  {actuals : Actual → Actual → Prop} {values : ActualValue → ActualValue → Prop} (closed : Closed pairing related subscripts actuals values)
include closed

theorem Expr.Alike.within {expr expr' : Expr} (alike : expr.Alike pairing expr') : related expr expr' :=
  @Expr.Alike.rec pairing (fun expr expr' _ => related expr expr') (fun one one' _ => subscripts one one')
    (fun one one' _ => actuals one one') (fun one one' _ => values one one')
    (fun all all' _ => List.Forall₂ related all all') (fun all all' _ => List.Forall₂ subscripts all all')
    (fun all all' _ => List.Forall₂ (Option.Rel actuals) all all') (fun one one' _ => Option.Rel related one one')
    (fun one one' _ => Option.Rel actuals one one') closed.literal (fun known _ => closed.array known)
    (fun coindexed paired _ => closed.designator coindexed paired) (fun callee _ => closed.call callee)
    (fun op _ _ _ => closed.operation op) closed.null closed.boz closed.procedure (fun _ => closed.index)
    (fun _ _ _ => closed.triplet) (fun keyword _ _ isPassed span _ => closed.passed keyword isPassed span)
    (fun _ => closed.ofExpr) closed.assumedType closed.label .nil (fun _ _ => .cons) .nil (fun _ _ => .cons) .nil
    (fun _ _ => .cons) (fun _ => .some) .none (fun _ => .some) .none _ _ alike

theorem Subscript.Alike.within {subscript subscript' : Subscript} (alike : subscript.Alike pairing subscript') :
    subscripts subscript subscript' := by
  cases alike with
  | index alike => exact closed.index (alike.within closed)
  | triplet lower upper stride =>
    exact closed.triplet (relMono (·.within closed) lower) (relMono (·.within closed) upper)
      (relMono (·.within closed) stride)

theorem ActualValue.Alike.within {value value' : ActualValue} (alike : value.Alike pairing value') :
    values value value' := by
  cases alike with
  | expr alike => exact closed.ofExpr (alike.within closed)
  | assumedType paired => exact closed.assumedType paired
  | label value => exact closed.label value

theorem Actuals.Alike.within {given given' : Actuals} (alike : Actuals.Alike pairing given given') :
    List.Forall₂ (Option.Rel actuals) given given' := by
  refine alike.imp fun _ _ => relMono fun alike => ?_
  obtain ⟨keyword, isPassed, span, alike⟩ := alike
  exact closed.passed keyword isPassed span (alike.within closed)

end

section

variable (le : pairing.Le larger)
include le

theorem closed_larger :
    Closed pairing (Expr.Alike larger) (Subscript.Alike larger) (Actual.Alike larger) (ActualValue.Alike larger) where
  literal known := .literal (le.knows known)
  array known := .array fun isFloat => le.knows (known isFloat)
  designator coindexed paired := .designator coindexed (le.symbols paired)
  call callee := .call (callee.mono le)
  operation := .operation
  null := .null
  boz := .boz
  procedure callee := .procedure (callee.mono le)
  index := .index
  triplet := .triplet
  passed := .mk
  ofExpr := .expr
  assumedType paired := .assumedType (le.symbols paired)
  label := .label

theorem Expr.Alike.mono {expr expr' : Expr} (alike : expr.Alike pairing expr') : expr.Alike larger expr' :=
  alike.within (closed_larger le)

theorem Subscript.Alike.mono {subscript subscript' : Subscript} (alike : subscript.Alike pairing subscript') :
    subscript.Alike larger subscript' :=
  alike.within (closed_larger le)

theorem ActualValue.Alike.mono {value value' : ActualValue} (alike : value.Alike pairing value') :
    value.Alike larger value' :=
  alike.within (closed_larger le)

theorem Actuals.Alike.mono {actuals actuals' : Actuals} (alike : Actuals.Alike pairing actuals actuals') :
    Actuals.Alike larger actuals actuals' :=
  alike.within (closed_larger le)

end

/-! With an exact pairing, what is alike to the same thing is the same. -/

theorem Callee.Alike.eq_iff (exact : pairing.Exact) {first first' second second' : Callee}
    (alike : first.Alike pairing first') (other : second.Alike pairing second') :
    first = second ↔ first' = second' := by
  cases alike with
  | symbol paired =>
    cases other with
    | symbol other => simpa using exact.symbols paired other
    | intrinsic => exact ⟨nofun, nofun⟩
  | intrinsic =>
    cases other with
    | symbol => exact ⟨nofun, nofun⟩
    | intrinsic => exact Iff.rfl

/-- Two things are each the same as what is related. -/
def Meets {α : Type} (related : α → α → Prop) (first first' : α) : Prop :=
  ∀ ⦃second second'⦄, related second second' → (first = second ↔ first' = second')

section

variable {α : Type} {related : α → α → Prop}

theorem Meets.list {first first' : List α} (alike : List.Forall₂ (Meets related) first first') :
    Meets (List.Forall₂ related) first first' := by
  intro second second' other
  induction alike generalizing second second' with
  | nil => cases other <;> simp
  | cons meets _ ih =>
    cases other with
    | nil => simp
    | cons other others => simp [meets other, ih others]

theorem Meets.option {first first' : Option α} (alike : Option.Rel (Meets related) first first') :
    Meets (Option.Rel related) first first' := by
  intro second second' other
  cases alike with
  | none => cases other <;> simp
  | some meets =>
    cases other with
    | none => simp
    | some other => simp [meets other]

end

variable (exact : pairing.Exact)
include exact

theorem closed_meets :
    Closed pairing (Meets (Expr.Alike pairing)) (Meets (Subscript.Alike pairing)) (Meets (Actual.Alike pairing))
      (Meets (ActualValue.Alike pairing)) where
  literal _ _ _ other := by cases other <;> simp
  array _ alike _ _ other := by
    cases other with
    | array _ other => simp [Meets.list alike other]
    | _ => simp
  designator _ paired alike _ _ other := by
    cases other with
    | designator _ otherPaired other => simp [exact.symbols paired otherPaired, Meets.list alike other]
    | _ => simp
  call callee alike _ _ other := by
    cases other with
    | call otherCallee other =>
      simp [callee.eq_iff exact otherCallee, Meets.list (alike.imp fun _ _ => Meets.option) other]
    | _ => simp
  operation _ _ _ alike _ _ other := by
    cases other with
    | operation _ other => simp [Meets.list alike other]
    | _ => simp
  null _ _ other := by cases other <;> simp
  boz _ _ _ other := by cases other <;> simp
  procedure callee _ _ other := by
    cases other with
    | procedure otherCallee => simp [callee.eq_iff exact otherCallee]
    | _ => simp
  index meets _ _ other := by
    cases other with
    | index other => simp [meets other]
    | triplet => simp
  triplet lower upper stride _ _ other := by
    cases other with
    | index => simp
    | triplet otherLower otherUpper otherStride =>
      simp [Meets.option lower otherLower, Meets.option upper otherUpper, Meets.option stride otherStride]
  passed _ _ _ _ _ meets _ _ other := by
    cases other with
    | mk _ _ _ other => simp [meets other]
  ofExpr meets _ _ other := by
    cases other with
    | expr other => simp [meets other]
    | _ => simp
  assumedType paired _ _ other := by
    cases other with
    | assumedType other => simpa using exact.symbols paired other
    | _ => simp
  label _ _ _ other := by cases other <;> simp

theorem Expr.Alike.meets {expr expr' : Expr} (alike : expr.Alike pairing expr') :
    Meets (Expr.Alike pairing) expr expr' :=
  alike.within (closed_meets exact)

theorem iffExprs {first first' : List Expr} (alike : List.Forall₂ (Expr.Alike pairing) first first') :
    Meets (List.Forall₂ (Expr.Alike pairing)) first first' :=
  Meets.list (alike.imp fun _ _ => Expr.Alike.meets exact)

theorem iffBound {first first' : Option Expr} (alike : Option.Rel (Expr.Alike pairing) first first') :
    Meets (Option.Rel (Expr.Alike pairing)) first first' :=
  Meets.option (relMono (Expr.Alike.meets exact) alike)

end FortranInterface
