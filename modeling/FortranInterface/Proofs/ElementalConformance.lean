import FortranInterface.Proofs.ExplicitCheck

/-!
Arrays in elemental references. Each of them is compared with the first one only: two others have the same rank, but they
can differ in a dimension in which the extent of the first is not known.
-/

namespace FortranInterface

namespace Shape

def literalAt (shape : Shape) (dimension : Nat) : Option Int :=
  shape[dimension]?.join.bind Expr.intLiteral?

def AgreeAt (left right : Shape) (dimension : Nat) : Prop :=
  ∀ first second, left.literalAt dimension = some first → right.literalAt dimension = some second → first = second

theorem conforms_iff {left right : Shape} :
    Conforms left right ↔ left.length = right.length ∧ ∀ dimension, AgreeAt left right dimension := by
  have literal {shape : Shape} {dimension : Nat} {value : Int} : shape.literalAt dimension = some value ↔
      ∃ extent, shape[dimension]? = some (some extent) ∧ extent.intLiteral? = some value := by
    rw [literalAt, Option.bind_eq_some_iff]
    simp only [Option.join_eq_some_iff]
  constructor
  · rintro ⟨rank, extents⟩
    refine ⟨rank, fun dimension first second isFirst isSecond => ?_⟩
    obtain ⟨_, atLeft, isFirst⟩ := literal.mp isFirst
    obtain ⟨_, atRight, isSecond⟩ := literal.mp isSecond
    exact extents _ _ _ _ _ atLeft atRight isFirst isSecond
  · rintro ⟨rank, agree⟩
    refine ⟨rank, fun dimension _ _ first second atLeft atRight isFirst isSecond => ?_⟩
    exact agree dimension first second (literal.mpr ⟨_, atLeft, isFirst⟩) (literal.mpr ⟨_, atRight, isSecond⟩)

theorem conforms_refl (shape : Shape) : Conforms shape shape :=
  conforms_iff.mpr ⟨rfl, fun _ _ _ isFirst isSecond => Option.some_inj.mp (isFirst.symm.trans isSecond)⟩

/-- Shapes that conform with a common one conform with each other if they agree where that one leaves the extent open. -/
theorem conforms_iff_of_common {common left right : Shape} (toLeft : Conforms common left)
    (toRight : Conforms common right) :
    Conforms left right ↔ ∀ dimension, common.literalAt dimension = none → AgreeAt left right dimension := by
  rw [conforms_iff] at toLeft toRight ⊢
  constructor
  · rintro ⟨-, agree⟩ dimension -
    exact agree dimension
  · intro agree
    refine ⟨toLeft.1.symm.trans toRight.1, fun dimension => ?_⟩
    cases known : common.literalAt dimension with
    | none => exact agree dimension known
    | some extent =>
      intro first second isFirst isSecond
      exact (toLeft.2 dimension extent first known isFirst).symm.trans
        (toRight.2 dimension extent second known isSecond)

end Shape

namespace Call

open Arrangement CallFault

variable {table : Table} {procedure : Procedure} {scope : Option ScopeId} {actuals : Actuals}

/-- An array of the given shape goes to the dummy argument at a place, which is a scalar data object. -/
inductive TakesArray (table : Table) (procedure : Procedure) (actuals : Actuals) : Nat → Shape → Prop where
  | passed {index place : Nat} {actual : Actual} {dummy : Dummy} {object : DataObject} {expr : Expr}
      {typeAndShape : TypeAndShape} : GoesTo procedure.dummies actuals index place actual →
      procedure.dummies[place]? = some dummy → dummy.object? = some object → object.rank = 0 →
      actual.expr? = some expr → table.exprTypeAndShape expr = some typeAndShape → typeAndShape.rank ≠ 0 →
      TakesArray table procedure actuals place typeAndShape.shape

def elementalAt (table : Table) (dummies : List Dummy) (slots : Actuals) (place : Nat) : Option ElementalActual :=
  dummies[place]?.bind fun dummy => slots[place]?.join.bind (elementalActual? table dummy)

variable {place : Nat}

theorem takesArray_iff (complete : (ofActuals procedure.dummies actuals).isComplete = true) {shape : Shape} :
    TakesArray table procedure actuals place shape ↔
      ∃ found, elementalAt table procedure.dummies (ofActuals procedure.dummies actuals).slots place = some found ∧
        found.shape = shape := by
  simp only [elementalAt, elementalActual?, Option.bind_eq_bind, Option.bind_eq_some_iff, Option.join_eq_some_iff,
    slots_eq_some_iff complete, Option.ite_none_left_eq_some]
  constructor
  · rintro ⟨goes, atDummies, isObject, scalar, isExpr, typed, array⟩
    exact ⟨_, ⟨_, atDummies, _, ⟨_, goes⟩, _, isObject, _, isExpr, _, typed, by simp [scalar, array], rfl⟩, rfl⟩
  · rintro ⟨_, ⟨_, atDummies, _, ⟨_, goes⟩, _, isObject, _, isExpr, _, typed, ranks, isFound⟩, rfl⟩
    cases isFound
    simp only [Bool.or_eq_true, decide_eq_true_eq, beq_iff_eq, not_or, Nat.not_lt, Nat.le_zero] at ranks
    exact .passed goes atDummies isObject ranks.1 isExpr typed ranks.2

section

variable {dummies : List Dummy} {slots : Actuals} {found : ElementalActual}
  (isFound : elementalAt table dummies slots place = some found)
include isFound

theorem mem_elementalActuals : found ∈ elementalActuals table dummies slots := by
  induction dummies generalizing slots place with
  | nil => cases isFound
  | cons dummy dummies ih =>
    cases slots with
    | nil => cases place <;> simp [elementalAt] at isFound
    | cons slot slots =>
      rw [elementalActuals, List.mem_append]
      cases place with
      | zero => exact .inl (Option.mem_toList.mpr (by cases slot <;> exact isFound))
      | succ place => exact .inr (ih isFound)

theorem head?_elementalActuals (isFirst : ∀ earlier < place, elementalAt table dummies slots earlier = none) :
    (elementalActuals table dummies slots).head? = some found := by
  induction dummies generalizing slots place with
  | nil => cases isFound
  | cons dummy dummies ih =>
    cases slots with
    | nil => cases place <;> simp [elementalAt] at isFound
    | cons slot slots =>
      have here : elementalAt table (dummy :: dummies) (slot :: slots) 0 = slot.bind (elementalActual? table dummy) := by
        cases slot <;> rfl
      rw [elementalActuals, ← here]
      cases place with
      | zero => rw [isFound]; rfl
      | succ place =>
        rw [isFirst 0 place.succ_pos]
        exact ih isFound fun earlier before => isFirst (earlier + 1) (Nat.succ_lt_succ before)

end

theorem conforms_of_conformanceFindings {arrays : List ElementalActual} {first found : ElementalActual}
    (clean : ∀ finding ∈ conformanceFindings arrays, finding.isError = false) (isFirst : arrays.head? = some first)
    (member : found ∈ arrays) : Shape.Conforms first.shape found.shape := by
  cases arrays with
  | nil => cases isFirst
  | cons head others =>
    cases isFirst
    rcases List.mem_cons.mp member with rfl | member
    · exact Shape.conforms_refl _
    · have agree : Shape.mismatch? first.label found.label first.shape found.shape = none := by
        refine Option.eq_none_iff_forall_ne_some.mpr fun reason differs => ?_
        have isError := clean ⟨mismatch reason, found.span⟩
          (List.mem_filterMap.mpr ⟨found, member, by rw [differs]; rfl⟩)
        cases isError
      exact Shape.conforms_of_mismatch? agree

/-- In an elemental reference without errors all arrays that go to scalars have the same rank, and two of them conform
exactly if they agree in each dimension in which the first one has no literal extent. -/
theorem elemental_arrays_conform_iff (elemental : procedure.isElemental = true)
    (clean : ∀ finding ∈ (checkExplicit table procedure scope actuals).findings, finding.isError = false)
    {origin place other : Nat} {first left right : Shape}
    (isFirst : TakesArray table procedure actuals origin first)
    (noneBefore : ∀ earlier < origin, ∀ shape, ¬ TakesArray table procedure actuals earlier shape)
    (isLeft : TakesArray table procedure actuals place left)
    (isRight : TakesArray table procedure actuals other right) :
    left.length = right.length ∧
      (Shape.Conforms left right ↔
        ∀ dimension, first.literalAt dimension = none → Shape.AgreeAt left right dimension) := by
  have complete := isComplete_iff.mpr (accepted_of_no_error clean).arranged
  rw [checkExplicit, if_pos complete] at clean
  have conformance : ∀ finding ∈ conformanceFindings (elementalActuals table procedure.dummies
      (ofActuals procedure.dummies actuals).slots), finding.isError = false := fun finding found =>
    clean finding (List.mem_append_right _ (by rw [if_pos elemental]; exact found))
  simp only [takesArray_iff complete] at isFirst noneBefore isLeft isRight
  obtain ⟨firstFound, atOrigin, rfl⟩ := isFirst
  obtain ⟨leftFound, atPlace, rfl⟩ := isLeft
  obtain ⟨rightFound, atOther, rfl⟩ := isRight
  have head := head?_elementalActuals atOrigin fun earlier before =>
    Option.eq_none_iff_forall_ne_some.mpr fun found isFound => noneBefore earlier before _ ⟨found, isFound, rfl⟩
  have toLeft := conforms_of_conformanceFindings conformance head (mem_elementalActuals atPlace)
  have toRight := conforms_of_conformanceFindings conformance head (mem_elementalActuals atOther)
  exact ⟨toLeft.rank.symm.trans toRight.rank, Shape.conforms_iff_of_common toLeft toRight⟩

/-- `REAL :: a(:), b(5), c(6)` -/
def openAndFixed : Table :=
  let vector (name : String) (bounds : Bounds) : Symbol :=
    ⟨name, .empty, .empty, .object ⟨some (.intrinsic .real 4 none), [bounds], [], none, true⟩, ⟨0⟩, ⟨0, 1⟩⟩
  ⟨#[vector "a" (.colon none), vector "b" (.explicit none (.int 5)), vector "c" (.explicit none (.int 6))],
    #[.globalScope]⟩

def elementalTriple : Procedure :=
  let real (name : String) : Dummy := .ofObject name ⟨.scalar (.plain .real 4), [], .in, .empty⟩
  ⟨none, [real "x", real "y", real "z"], .ofList [.elemental, .subroutine]⟩

def thirdBehind (third : SymbolId) : Actuals :=
  [⟨0⟩, ⟨1⟩, third].map fun id => some (.ofExpr (.whole id))

theorem isComplete_thirdBehind (third : SymbolId) :
    (ofActuals elementalTriple.dummies (thirdBehind third)).isComplete = true :=
  rfl

theorem elemental_arrays_conform_repeated :
    elementalTriple.isElemental = true ∧
    (∀ finding ∈ (checkExplicit openAndFixed elementalTriple none (thirdBehind ⟨1⟩)).findings,
      finding.isError = false) ∧
    TakesArray openAndFixed elementalTriple (thirdBehind ⟨1⟩) 0 [none] ∧
    TakesArray openAndFixed elementalTriple (thirdBehind ⟨1⟩) 1 [some (.int 5)] ∧
    TakesArray openAndFixed elementalTriple (thirdBehind ⟨1⟩) 2 [some (.int 5)] ∧
    Shape.Conforms [some (.int 5)] [some (.int 5)] := by
  have clean : ∀ finding ∈ (checkExplicit openAndFixed elementalTriple none (thirdBehind ⟨1⟩)).findings,
      finding.isError = false := by decide
  have complete := isComplete_thirdBehind ⟨1⟩
  have isFirst : TakesArray openAndFixed elementalTriple (thirdBehind ⟨1⟩) 0 [none] :=
    (takesArray_iff complete).mpr ⟨_, rfl, rfl⟩
  have isSecond : TakesArray openAndFixed elementalTriple (thirdBehind ⟨1⟩) 1 [some (.int 5)] :=
    (takesArray_iff complete).mpr ⟨_, rfl, rfl⟩
  have isThird : TakesArray openAndFixed elementalTriple (thirdBehind ⟨1⟩) 2 [some (.int 5)] :=
    (takesArray_iff complete).mpr ⟨_, rfl, rfl⟩
  refine ⟨rfl, clean, isFirst, isSecond, isThird, ?_⟩
  have noneBefore : ∀ earlier < 0, ∀ shape, ¬ TakesArray openAndFixed elementalTriple (thirdBehind ⟨1⟩) earlier shape :=
    fun _ before => absurd before (Nat.not_lt_zero _)
  refine (elemental_arrays_conform_iff rfl clean isFirst noneBefore isSecond isThird).2.mpr ?_
  intro dimension _ left right isLeft isRight
  exact Option.some_inj.mp (isLeft.symm.trans isRight)

/-- With `c` in the third place no error is found, but the second and the third array have 5 and 6 elements. -/
theorem elemental_arrays_apart :
    elementalTriple.isElemental = true ∧
    (checkExplicit openAndFixed elementalTriple none (thirdBehind ⟨2⟩)).findings = [] ∧
    TakesArray openAndFixed elementalTriple (thirdBehind ⟨2⟩) 1 [some (.int 5)] ∧
    TakesArray openAndFixed elementalTriple (thirdBehind ⟨2⟩) 2 [some (.int 6)] ∧
    ¬ Shape.Conforms [some (.int 5)] [some (.int 6)] := by
  have complete := isComplete_thirdBehind ⟨2⟩
  refine ⟨rfl, by decide, (takesArray_iff complete).mpr ⟨_, rfl, rfl⟩, (takesArray_iff complete).mpr ⟨_, rfl, rfl⟩, ?_⟩
  intro conform
  exact absurd (conform.extents 0 _ _ 5 6 rfl rfl rfl rfl) (by decide)

end Call

end FortranInterface
