import FortranInterface.Expr.Basic

/-!
Equality of expressions and actual arguments is decidable.
-/

namespace FortranInterface

mutual

def Expr.same : Expr → Expr → Bool
  | .literal value, .literal value' => decide (value = value')
  | .array type values, .array type' values' => decide (type = type') && sameExprs values values'
  | .designator symbol subscripts coindexed, .designator symbol' subscripts' coindexed' =>
    decide (symbol = symbol') && sameSubscripts subscripts subscripts' &&
      decide (coindexed = coindexed')
  | .call callee actuals, .call callee' actuals' =>
    decide (callee = callee') && sameActuals actuals actuals'
  | .operation op operands, .operation op' operands' =>
    decide (op = op') && sameExprs operands operands'
  | .null, .null => true
  | .boz text, .boz text' => decide (text = text')
  | .procedure callee, .procedure callee' => decide (callee = callee')
  | _, _ => false

def sameExprs : List Expr → List Expr → Bool
  | [], [] => true
  | value :: values, value' :: values' => value.same value' && sameExprs values values'
  | _, _ => false

def sameBound : Option Expr → Option Expr → Bool
  | none, none => true
  | some value, some value' => value.same value'
  | _, _ => false

def Subscript.same : Subscript → Subscript → Bool
  | .index value, .index value' => value.same value'
  | .triplet lower upper stride, .triplet lower' upper' stride' =>
    sameBound lower lower' && sameBound upper upper' && sameBound stride stride'
  | _, _ => false

def sameSubscripts : List Subscript → List Subscript → Bool
  | [], [] => true
  | subscript :: subscripts, subscript' :: subscripts' =>
    subscript.same subscript' && sameSubscripts subscripts subscripts'
  | _, _ => false

def Actual.same : Actual → Actual → Bool
  | ⟨keyword, value, passed, span⟩, ⟨keyword', value', passed', span'⟩ =>
    decide (keyword = keyword') && value.same value' && decide (passed = passed') &&
      decide (span = span')

def ActualValue.same : ActualValue → ActualValue → Bool
  | .expr value, .expr value' => value.same value'
  | .assumedType symbol, .assumedType symbol' => decide (symbol = symbol')
  | .label value, .label value' => decide (value = value')
  | _, _ => false

def samePlace : Option Actual → Option Actual → Bool
  | none, none => true
  | some actual, some actual' => actual.same actual'
  | _, _ => false

def sameActuals : List (Option Actual) → List (Option Actual) → Bool
  | [], [] => true
  | place :: places, place' :: places' => samePlace place place' && sameActuals places places'
  | _, _ => false

end

mutual

theorem Expr.same_iff : (left right : Expr) → (left.same right = true ↔ left = right)
  | .literal _, right => by cases right <;> simp [Expr.same]
  | .array _ values, right => by cases right <;> simp [Expr.same, sameExprs_iff values]
  | .designator _ subscripts _, right => by
    cases right <;> simp [Expr.same, sameSubscripts_iff subscripts, and_assoc]
  | .call _ actuals, right => by cases right <;> simp [Expr.same, sameActuals_iff actuals]
  | .operation _ operands, right => by cases right <;> simp [Expr.same, sameExprs_iff operands]
  | .null, right => by cases right <;> simp [Expr.same]
  | .boz _, right => by cases right <;> simp [Expr.same]
  | .procedure _, right => by cases right <;> simp [Expr.same]

theorem sameExprs_iff : (left right : List Expr) → (sameExprs left right = true ↔ left = right)
  | [], right => by cases right <;> simp [sameExprs]
  | value :: values, right => by
    cases right <;> simp [sameExprs, value.same_iff, sameExprs_iff values]

theorem sameBound_iff : (left right : Option Expr) → (sameBound left right = true ↔ left = right)
  | none, right => by cases right <;> simp [sameBound]
  | some value, right => by cases right <;> simp [sameBound, value.same_iff]

theorem Subscript.same_iff : (left right : Subscript) → (left.same right = true ↔ left = right)
  | .index value, right => by cases right <;> simp [Subscript.same, value.same_iff]
  | .triplet lower upper stride, right => by
    cases right <;>
      simp [Subscript.same, sameBound_iff lower, sameBound_iff upper, sameBound_iff stride,
        and_assoc]

theorem sameSubscripts_iff : (left right : List Subscript) →
    (sameSubscripts left right = true ↔ left = right)
  | [], right => by cases right <;> simp [sameSubscripts]
  | subscript :: subscripts, right => by
    cases right <;>
      simp [sameSubscripts, subscript.same_iff, sameSubscripts_iff subscripts]

theorem Actual.same_iff : (left right : Actual) → (left.same right = true ↔ left = right)
  | ⟨_, value, _, _⟩, ⟨_, _, _, _⟩ => by
    simp [Actual.same, value.same_iff, and_assoc]

theorem ActualValue.same_iff : (left right : ActualValue) →
    (left.same right = true ↔ left = right)
  | .expr value, right => by cases right <;> simp [ActualValue.same, value.same_iff]
  | .assumedType _, right => by cases right <;> simp [ActualValue.same]
  | .label _, right => by cases right <;> simp [ActualValue.same]

theorem samePlace_iff : (left right : Option Actual) →
    (samePlace left right = true ↔ left = right)
  | none, right => by cases right <;> simp [samePlace]
  | some actual, right => by cases right <;> simp [samePlace, actual.same_iff]

theorem sameActuals_iff : (left right : List (Option Actual)) →
    (sameActuals left right = true ↔ left = right)
  | [], right => by cases right <;> simp [sameActuals]
  | place :: places, right => by
    cases right <;> simp [sameActuals, samePlace_iff place, sameActuals_iff places]

end

instance : DecidableEq Expr := fun left right =>
  decidable_of_iff _ (Expr.same_iff left right)

instance : DecidableEq Actual := fun left right =>
  decidable_of_iff _ (Actual.same_iff left right)

end FortranInterface
