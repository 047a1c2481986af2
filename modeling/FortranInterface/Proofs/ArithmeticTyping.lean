import Mathlib.Order.Bounds.Basic
import FortranInterface.Expr.Typing

/-!
The types of sums, differences, products and quotients of real and complex values. A result is complex if some leaf is,
but its kind is the largest of the leaves of its own category: a real leaf does not widen a complex result.
-/

namespace FortranInterface

/-- An arithmetic expression, and its leaves by category and kind. -/
inductive Arithmetic (table : Table) : Expr → List (Category × Nat) → Prop where
  | leaf {expr : Expr} {category : Category} {kind : Nat} : table.typeOf expr = some (.plain category kind) →
      category = .real ∨ category = .complex → Arithmetic table expr [(category, kind)]
  | negate {operand : Expr} {leaves : List (Category × Nat)} : Arithmetic table operand leaves →
      Arithmetic table (.unary .negate operand) leaves
  | binary {op : Operator} {left right : Expr} {first second : List (Category × Nat)} :
      op ∈ [.add, .subtract, .multiply, .divide] → Arithmetic table left first → Arithmetic table right second →
      Arithmetic table (.binary op left right) (first ++ second)

namespace Arithmetic

variable {table : Table} {expr : Expr} {leaves first second : List (Category × Nat)}

def widest (leaves : List (Category × Nat)) : Category :=
  if leaves.any (·.1 = .complex) then .complex else .real

def kindsOf (category : Category) (leaves : List (Category × Nat)) : Set Nat :=
  {kind | (category, kind) ∈ leaves}

def kinds (leaves : List (Category × Nat)) : Set Nat :=
  {kind | kind ∈ leaves.map Prod.snd}

theorem kindsOf_append (category : Category) :
    kindsOf category (first ++ second) = kindsOf category first ∪ kindsOf category second := by
  ext kind
  simp [kindsOf]

theorem kindsOf_complex (noComplex : leaves.any (·.1 = .complex) = false) : kindsOf .complex leaves = ∅ := by
  ext kind
  simp only [List.any_eq_false, decide_eq_true_eq] at noComplex
  exact ⟨fun member => noComplex _ member rfl, False.elim⟩

theorem typeOf_binary {op : Operator} (isOp : op ∈ [.add, .subtract, .multiply, .divide]) {left right : Expr}
    {ofLeft ofRight : DynamicType} (isLeft : table.typeOf left = some ofLeft)
    (isRight : table.typeOf right = some ofRight) :
    table.typeOf (.binary op left right) = Operator.numericType? ofLeft ofRight := by
  have isResult : table.typeOf (.binary op left right) = op.resultType? [table.typeOf left, table.typeOf right] := rfl
  rw [isResult, isLeft, isRight]
  simp only [List.mem_cons, List.not_mem_nil, or_false] at isOp
  rcases isOp with rfl | rfl | rfl | rfl <;> rfl

theorem typeOf_widest (arithmetic : Arithmetic table expr leaves) :
    ∃ kind, table.typeOf expr = some (.plain (widest leaves) kind) ∧
      IsGreatest (kindsOf (widest leaves) leaves) kind := by
  induction arithmetic with
  | @leaf expr category kind isType isLeaf =>
    refine ⟨kind, ?_⟩
    rcases isLeaf with rfl | rfl <;> simp [isType, widest, kindsOf, IsGreatest, upperBounds]
  | negate _ ih => exact ih
  | @binary op left right first second isOp _ _ ofLeft ofRight =>
    obtain ⟨one, isLeft, greatest⟩ := ofLeft
    obtain ⟨other, isRight, greatest'⟩ := ofRight
    rw [typeOf_binary isOp isLeft isRight]
    unfold widest at greatest greatest' ⊢
    rw [List.any_append]
    -- A category that only one of the operands has decides alone.
    cases isFirst : first.any (·.1 = .complex) <;> cases isSecond : second.any (·.1 = .complex) <;>
      simp only [isFirst, isSecond, Bool.or_self, Bool.or_true, Bool.true_or, Bool.false_eq_true, if_true, if_false,
        kindsOf_append] at greatest greatest' ⊢
    · exact ⟨_, rfl, greatest.union greatest'⟩
    · exact ⟨other, rfl, by rwa [kindsOf_complex isFirst, Set.empty_union]⟩
    · exact ⟨one, rfl, by rwa [kindsOf_complex isSecond, Set.union_empty]⟩
    · exact ⟨_, rfl, greatest.union greatest'⟩

end Arithmetic

open Arithmetic

/-- The type has the widest category of the leaves and the largest kind in this category. That is the largest kind of
all exactly if a leaf of this category has it. -/
theorem Table.arithmetic_type_widest_iff {table : Table} {expr : Expr} {leaves : List (Category × Nat)}
    (arithmetic : Arithmetic table expr leaves) :
    ∃ kind, table.typeOf expr = some (.plain (widest leaves) kind) ∧ IsGreatest (kindsOf (widest leaves) leaves) kind ∧
      (IsGreatest (kinds leaves) kind ↔ ∃ wide, (widest leaves, wide) ∈ leaves ∧ IsGreatest (kinds leaves) wide) := by
  obtain ⟨kind, isType, greatest⟩ := arithmetic.typeOf_widest
  refine ⟨kind, isType, greatest, fun isLargest => ⟨kind, greatest.1, isLargest⟩, ?_⟩
  rintro ⟨wide, member, isLargest⟩
  have same : kind = wide := le_antisymm (isLargest.2 (List.mem_map.mpr ⟨_, greatest.1, rfl⟩)) (greatest.2 member)
  rwa [same]

def product (real complex : Nat) : Expr :=
  .unary .negate (.binary .multiply (.literal (.complex "1.0" "1.0" complex)) (.literal (.real "1.0" real)))

theorem arithmetic_product (real complex : Nat) :
    Arithmetic .empty (product real complex) [(.complex, complex), (.real, real)] :=
  .negate (.binary (by decide) (.leaf rfl (.inr rfl)) (.leaf rfl (.inl rfl)))

theorem Table.arithmetic_type_widest_iff_double :
    Arithmetic .empty (product 4 8) [(.complex, 8), (.real, 4)] ∧
      ∃ kind, Table.empty.typeOf (product 4 8) = some (.plain .complex kind) ∧
        IsGreatest (kinds [(.complex, 8), (.real, 4)]) kind := by
  have arithmetic := arithmetic_product 4 8
  obtain ⟨kind, isType, -, isLargest⟩ := arithmetic_type_widest_iff arithmetic
  have largest : IsGreatest (kinds [(.complex, 8), (.real, 4)]) 8 := by
    simp [kinds, IsGreatest, upperBounds]
  exact ⟨arithmetic, kind, isType, isLargest.mpr ⟨8, .head _, largest⟩⟩

/-- A double precision factor is lost in a complex product of single precision. -/
theorem Table.arithmetic_type_narrow :
    Arithmetic .empty (product 8 4) [(.complex, 4), (.real, 8)] ∧
      IsGreatest (kinds [(.complex, 4), (.real, 8)]) 8 ∧
      Table.empty.typeOf (product 8 4) = some (.plain .complex 4) := by
  exact ⟨arithmetic_product 8 4, by simp [kinds, IsGreatest, upperBounds], rfl⟩

end FortranInterface
