import FortranInterface.Proofs.Alike.Typing
import FortranInterface.Proofs.Resolution.Change
import FortranInterface.Resolution.Program

/-!
The values that integer expressions fold to. An expression has one exactly if it can be derived from the literals and
the named constants in it by exact arithmetic that stays within 64-bit words; a definition that is circular has none.
The types and shapes of the constants play no part, so that what folds need not be an integer or a scalar.
-/

namespace FortranInterface

theorem Details.object?_eq_some_iff {details : Details} {object : ObjectDetails} :
    details.object? = some object ↔ details = .object object := by
  cases details <;> simp [object?]

variable {op : Operator}

namespace Folding

open Word (fitting fitting_eq_some_iff)

theorem pow_of_cube_eq {base : Int} (cube : base * base * base = base) (start count : Nat) :
    base.pow (start + 1 + 2 * count) = base.pow (start + 1) := by
  have pow_succ (exponent : Nat) : base.pow (exponent + 1) = base.pow exponent * base :=
    Int.pow_succ base exponent
  induction count with
  | zero => rfl
  | succ count ih =>
    rw [Nat.mul_succ, ← Nat.add_assoc, pow_succ, pow_succ, ih, pow_succ, Int.mul_assoc, Int.mul_assoc,
      ← Int.mul_assoc base, cube]

theorem fitting_pow_eq_none {base : Int} {exponent : Nat} (large : 2 ≤ base.natAbs) (many : 64 ≤ exponent) :
    fitting (base.pow exponent) = none := by
  have size : (base.pow exponent).natAbs = base.natAbs.pow exponent :=
    Int.natAbs_pow base exponent
  have bound : Nat.pow 2 64 ≤ base.natAbs.pow exponent :=
    Nat.le_trans (Nat.pow_le_pow_right (by decide) many) (Nat.pow_le_pow_left large exponent)
  have word : Nat.pow 2 64 = Word.count := by decide
  rw [word, ← size, Word.count] at bound
  rw [fitting, Word.least, Word.greatest, if_neg]
  omega

theorem power_eq (base exponent : Int) : power base exponent =
    if 0 ≤ exponent ∧ exponent < 4294967296 then fitting (base.pow exponent.toNat) else none := by
  unfold power
  split
  · rename_i within
    split
    · rfl
    · rename_i beyond
      -- The powers of -1, 0 and 1 repeat; those of any other base do not fit.
      rcases Nat.lt_or_ge base.natAbs 2 with small | large
      · have cube : base * base * base = base := by
          obtain rfl | rfl | rfl : base = 0 ∨ base = 1 ∨ base = -1 := by omega
          all_goals rfl
        have exact_exponent : exponent.toNat =
            63 + (exponent % 2).toNat + 1 + 2 * ((exponent.toNat - 64) / 2) := by omega
        have reduced : (64 + exponent % 2).toNat = 63 + (exponent % 2).toNat + 1 := by omega
        rw [reduced, exact_exponent, pow_of_cube_eq cube]
      · rw [fitting_pow_eq_none large (by omega), fitting_pow_eq_none large (by omega)]
  · rfl

/-- The exact result of an operation on two integers. -/
inductive Computes : Operator → Int → Int → Int → Prop where
  | add (left right : Int) : Computes .add left right (left + right)
  | subtract (left right : Int) : Computes .subtract left right (left - right)
  | multiply (left right : Int) : Computes .multiply left right (left * right)
  | divide (left : Int) {right : Int} : right ≠ 0 → Computes .divide left right (left.tdiv right)
  | power (left : Int) {right : Int} : 0 ≤ right → right < 4294967296 →
      Computes .power left right (left.pow right.toNat)

def Fits (value : Int) : Prop :=
  Word.least ≤ value ∧ value ≤ Word.greatest

theorem applyBinary_eq_some_iff {left right value : Int} :
    applyBinary op left right = some value ↔ Computes op left right value ∧ Fits value := by
  constructor
  · intro found
    cases op with
    | add =>
      obtain ⟨rfl, fits⟩ := fitting_eq_some_iff.mp found
      exact ⟨.add left right, fits⟩
    | subtract =>
      obtain ⟨rfl, fits⟩ := fitting_eq_some_iff.mp found
      exact ⟨.subtract left right, fits⟩
    | multiply =>
      obtain ⟨rfl, fits⟩ := fitting_eq_some_iff.mp found
      exact ⟨.multiply left right, fits⟩
    | divide =>
      obtain ⟨divisor, found⟩ := Option.ite_none_left_eq_some.mp found
      obtain ⟨rfl, fits⟩ := fitting_eq_some_iff.mp found
      exact ⟨.divide left divisor, fits⟩
    | power =>
      rw [applyBinary, power_eq] at found
      obtain ⟨within, found⟩ := Option.ite_none_right_eq_some.mp found
      obtain ⟨rfl, fits⟩ := fitting_eq_some_iff.mp found
      exact ⟨.power left within.1 within.2, fits⟩
    | _ => simp [applyBinary] at found
  · rintro ⟨computes, fits⟩
    have found : fitting value = some value := fitting_eq_some_iff.mpr ⟨rfl, fits⟩
    cases computes with
    | add | subtract | multiply => exact found
    | divide _ divisor => rw [applyBinary, if_neg divisor, found]
    | power _ least below => rw [applyBinary, power_eq, if_pos ⟨least, below⟩, found]

end Folding

variable {table : Table}

namespace Table

open Folding

def Same (table : Table) (id id' : SymbolId) : Prop :=
  id = id' ∧ id.index < table.symbols.size

def init? (table : Table) (id : SymbolId) : Option Expr :=
  (table.details id).object?.bind (·.init)

end Table

variable {expr : Expr} {value : Int}

namespace Folding

/-- The derivations of a value. -/
inductive Evaluates (table : Table) : Expr → Int → Prop where
  | literal (value : Int) (kind : Nat) : Evaluates table (.literal (.integer value kind)) value
  | constant {id : SymbolId} {object : ObjectDetails} {init : Expr} {value : Int} (coindexed : Bool) :
      (table.symbol id).has .parameter = true → table.details id = .object object → object.init = some init →
      Evaluates table init value → Evaluates table (.designator id [] coindexed) value
  | parentheses {operand : Expr} {value : Int} : Evaluates table operand value →
      Evaluates table (.operation .parentheses [operand]) value
  | negate {operand : Expr} {value : Int} : Evaluates table operand value → Fits (-value) →
      Evaluates table (.operation .negate [operand]) (-value)
  | binary {op : Operator} {left right : Expr} {leftValue rightValue value : Int} :
      Evaluates table left leftValue → Evaluates table right rightValue →
      Computes op leftValue rightValue value → Fits value → Evaluates table (.operation op [left, right]) value

theorem Evaluates.of_foldWith {constant : SymbolId → Option Int}
    (constants : ∀ id coindexed value, constant id = some value → Evaluates table (.designator id [] coindexed) value)
    (found : foldWith constant expr = some value) : Evaluates table expr value := by
  fun_induction foldWith constant expr generalizing value with
  | case1 literal kind =>
    cases found
    exact .literal literal kind
  | case2 id coindexed => exact constants id coindexed value found
  | case3 operand ih => exact .parentheses (ih found)
  | case4 operand ih =>
    obtain ⟨operandValue, operandFound, found⟩ := Option.bind_eq_some_iff.mp found
    obtain ⟨rfl, fits⟩ := Word.fitting_eq_some_iff.mp found
    exact .negate (ih operandFound) fits
  | case5 op left right leftIh rightIh =>
    obtain ⟨leftValue, leftFound, found⟩ := Option.bind_eq_some_iff.mp found
    obtain ⟨rightValue, rightFound, found⟩ := Option.bind_eq_some_iff.mp found
    obtain ⟨computes, fits⟩ := applyBinary_eq_some_iff.mp found
    exact .binary (leftIh leftFound) (rightIh rightFound) computes fits
  | case6 => cases found

theorem Evaluates.of_constantWithin (links : Nat) (id : SymbolId) (coindexed : Bool) (value : Int)
    (found : table.constantWithin links id = some value) : Evaluates table (.designator id [] coindexed) value := by
  induction links generalizing id coindexed value with
  | zero => cases found
  | succ links ih =>
    obtain ⟨parameter, found⟩ := Option.ite_none_right_eq_some.mp found
    obtain ⟨init, initialized, found⟩ := Option.bind_eq_some_iff.mp found
    obtain ⟨object, isObject, initialized⟩ := Option.bind_eq_some_iff.mp initialized
    rw [Details.object?_eq_some_iff] at isObject
    exact .constant coindexed parameter isObject initialized (.of_foldWith ih found)

end Folding

namespace Table

open Folding

theorem evaluates_of_foldInteger (found : table.foldInteger expr = some value) : Evaluates table expr value :=
  .of_foldWith (.of_constantWithin _) found

end Table

/-! The types and shapes of expressions that fold. -/

/-- A data object stands in an expression as one of the operands, or as the whole of it. -/
inductive Expr.HasOperand (id : SymbolId) : Expr → Prop where
  | whole (coindexed : Bool) : HasOperand id (.designator id [] coindexed)
  | operand (op : Operator) {operands : List Expr} {operand : Expr} : operand ∈ operands → HasOperand id operand →
      HasOperand id (.operation op operands)

theorem Expr.forall_hasOperand_operation_iff {operands : List Expr} {holds : SymbolId → Prop} :
    (∀ id, (operation op operands).HasOperand id → holds id) ↔
      ∀ operand ∈ operands, ∀ id, operand.HasOperand id → holds id := by
  constructor
  · intro all operand member id has
    exact all id (.operand op member has)
  · rintro all id (_ | ⟨_, member, has⟩)
    exact all _ member id has

theorem DynamicType.category_plain (category : Category) (kind : Nat) : (plain category kind).category = category :=
  rfl

theorem Operator.category_numericType?_eq_integer_iff (left right : DynamicType) :
    (numericType? left right).map DynamicType.category = some .integer ↔
      left.category = .integer ∧ right.category = .integer := by
  cases left' : left.category <;> cases right' : right.category <;>
    simp [numericType?, left', right', Category.numericRank?, DynamicType.category_plain]

theorem Operator.category_resultType?_eq_integer_iff (arithmetic : op.isArithmetic = true)
    (left right : Option DynamicType) :
    (op.resultType? [left, right]).map DynamicType.category = some .integer ↔
      left.map DynamicType.category = some .integer ∧ right.map DynamicType.category = some .integer := by
  have numeric : op.resultType? [left, right] = left.bind fun left => right.bind (numericType? left) := by
    cases op <;> simp [isArithmetic] at arithmetic <;> cases left <;> cases right <;> rfl
  rw [numeric]
  cases left with
  | none => simp
  | some left =>
    cases right with
    | none => simp
    | some right =>
      simpa only [Option.bind_some, Option.map_some, Option.some_inj] using
        category_numericType?_eq_integer_iff left right

theorem Shape.elemental_eq_some_nil_iff {shapes : List (Option Shape)} :
    elemental shapes = some [] ↔ ∀ shape ∈ shapes, shape = some [] := by
  have go_iff (longest : Shape) : elemental.go longest shapes = some [] ↔
      longest = [] ∧ ∀ shape ∈ shapes, shape = some [] := by
    induction shapes generalizing longest with
    | nil => simp [elemental.go]
    | cons shape shapes ih =>
      cases shape with
      | none => simp [elemental.go]
      | some shape =>
        rw [elemental.go, ih, List.forall_mem_cons]
        split
        · cases shape <;> simp_all
        · cases longest <;> simp_all
  simp [elemental, go_iff]

namespace Table

open Folding

variable {table : Table} {id : SymbolId} {object : ObjectDetails}

theorem exists_type_eq_integer {type : Option DeclaredType}
    (isInteger : (type.bind table.typeOfDeclared).map DynamicType.category = some .integer) :
    ∃ kind length, type = some (.intrinsic .integer kind length) := by
  cases type with
  | none => cases isInteger
  | some type =>
    cases type with
    | intrinsic category kind length =>
      cases isInteger
      exact ⟨kind, length, rfl⟩
    | type symbol | classOf symbol =>
      cases named : table.derivedName? symbol <;> simp [typeOfDeclared, named, DynamicType.category] at isInteger
    | typeStar | classStar => cases isInteger

def DeclaredIntegerScalar (table : Table) (id : SymbolId) : Prop :=
  ∃ object kind length, table.details id = .object object ∧
    object.type = some (.intrinsic .integer kind length) ∧ object.shape = []

def IsIntegerScalar (table : Table) (expr : Expr) : Prop :=
  (table.typeOf expr).map DynamicType.category = some .integer ∧ table.shapeOf expr = some []

theorem isIntegerScalar_whole_iff (isObject : table.details id = .object object) (coindexed : Bool) :
    table.IsIntegerScalar (.designator id [] coindexed) ↔ table.DeclaredIntegerScalar id := by
  have type : table.typeOf (.designator id [] coindexed) = table.symbolType id := rfl
  have shape : table.shapeOf (.designator id [] coindexed) = table.symbolShape id := rfl
  rw [IsIntegerScalar, type, shape, symbolType_of_object isObject, symbolShape_of_object isObject,
    DeclaredIntegerScalar]
  constructor
  · rintro ⟨isInteger, isScalar⟩
    obtain ⟨kind, length, type⟩ := exists_type_eq_integer isInteger
    split at isScalar
    · cases isScalar
    · exact ⟨object, kind, length, isObject, type, List.map_eq_nil_iff.mp (Option.some_inj.mp isScalar)⟩
  · rintro ⟨_, kind, length, same, type, shape⟩
    cases isObject.symm.trans same
    simp [type, shape, typeOfDeclared, DynamicType.category_plain, ArraySpec.isAssumedRank]

theorem isIntegerScalar_unary_iff (unary : op = .parentheses ∨ op = .negate) (operand : Expr) :
    table.IsIntegerScalar (.operation op [operand]) ↔ table.IsIntegerScalar operand := by
  have shape : table.shapeOf (.operation op [operand]) = Shape.elemental [table.shapeOf operand] := rfl
  have type : table.typeOf (.operation op [operand]) = table.typeOf operand := by
    rcases unary with rfl | rfl <;> rfl
  rw [IsIntegerScalar, shape, type, Shape.elemental_eq_some_nil_iff, List.forall_mem_singleton]
  rfl

theorem isIntegerScalar_binary_iff (arithmetic : op.isArithmetic = true) (left right : Expr) :
    table.IsIntegerScalar (.operation op [left, right]) ↔ table.IsIntegerScalar left ∧ table.IsIntegerScalar right := by
  have shape : table.shapeOf (.operation op [left, right]) =
      Shape.elemental [table.shapeOf left, table.shapeOf right] := rfl
  have type : table.typeOf (.operation op [left, right]) = op.resultType? [table.typeOf left, table.typeOf right] := rfl
  rw [IsIntegerScalar, shape, type, Operator.category_resultType?_eq_integer_iff arithmetic,
    Shape.elemental_eq_some_nil_iff, List.forall_mem_cons, List.forall_mem_singleton, and_and_and_comm]
  rfl

theorem isIntegerScalar_iff_of_evaluates (evaluates : Evaluates table expr value) :
    table.IsIntegerScalar expr ↔ ∀ id, expr.HasOperand id → table.DeclaredIntegerScalar id := by
  induction evaluates with
  | literal value kind => exact iff_of_true ⟨rfl, rfl⟩ nofun
  | @constant id object init value coindexed _ isObject _ _ _ =>
    rw [isIntegerScalar_whole_iff isObject]
    refine ⟨?_, fun declared => declared id (.whole coindexed)⟩
    rintro declared _ ⟨⟩
    exact declared
  | @parentheses operand value _ ih =>
    rw [isIntegerScalar_unary_iff (.inl rfl), ih, Expr.forall_hasOperand_operation_iff, List.forall_mem_singleton]
  | @negate operand value _ fits ih =>
    rw [isIntegerScalar_unary_iff (.inr rfl), ih, Expr.forall_hasOperand_operation_iff, List.forall_mem_singleton]
  | @binary op left right leftValue rightValue value _ _ computes fits leftIh rightIh =>
    rw [isIntegerScalar_binary_iff (by cases computes <;> rfl), leftIh, rightIh,
      Expr.forall_hasOperand_operation_iff, List.forall_mem_cons, List.forall_mem_singleton]

/-- Folding looks at the values of named constants and not at how they are declared: what folds is an integer and no
array exactly if all constants among its operands are declared so. -/
theorem folded_integer_scalar_iff (table : Table) (expr : Expr) {value : Int}
    (found : table.foldInteger expr = some value) :
    ((table.typeOf expr).map DynamicType.category = some .integer ∧ table.shapeOf expr = some []) ↔
      ∀ id, expr.HasOperand id → table.DeclaredIntegerScalar id :=
  isIntegerScalar_iff_of_evaluates (evaluates_of_foldInteger found)

/-- `INTEGER, PARAMETER :: n = 3` -/
def three : Table :=
  ⟨#[⟨"n", .ofList [.parameter], .empty,
    .object ⟨some (.intrinsic .integer 4 none), [], [], some (.int 3), false⟩, global, ⟨0, 1⟩⟩], #[Scope.globalScope]⟩

theorem folded_integer_scalar_doubled :
    three.foldInteger (.binary .multiply (.whole ⟨0⟩) (.int 2)) = some 6 ∧
      three.rank (.binary .multiply (.whole ⟨0⟩) (.int 2)) = some 0 := by
  have found : three.foldInteger (.binary .multiply (.whole ⟨0⟩) (.int 2)) = some 6 := by decide
  have declared : three.DeclaredIntegerScalar ⟨0⟩ := ⟨_, 4, none, rfl, rfl, rfl⟩
  have scalar := (folded_integer_scalar_iff three _ found).mpr (by
    rw [Expr.binary, Expr.forall_hasOperand_operation_iff]
    simp only [List.forall_mem_cons, List.not_mem_nil, false_implies, implies_true, and_true]
    refine ⟨?_, nofun⟩
    rintro _ ⟨⟩
    exact declared)
  exact ⟨found, congrArg (·.map List.length) scalar.2⟩

end Table

open FortranInterface.Tree in
/-- `REAL, PARAMETER :: x = 7` and `INTEGER, PARAMETER :: n = x / 2 * 2, a(2) = 3, k = a` -/
def mixedConstants : Program :=
  let span : Span := ⟨0, 1⟩
  let number (digits : String) : Tree.Expr := .integer digits none span
  let constant (type : TypeSpec) (name : String) (dimensions : Option (List Dimension)) (init : Tree.Expr) : Decl :=
    .entities type [.plain .parameter] [⟨name, dimensions, none, none, some init, span⟩] span
  ⟨[.module ⟨"m", [
    constant (.real none) "x" none (number "7"),
    constant (.integer none) "n" none
      (.binary .multiply (.binary .divide (.name "x" span) (number "2") span) (number "2") span),
    constant (.integer none) "a" (some [.explicit none (number "2")]) (number "3"),
    constant (.integer none) "k" none (.name "a" span)], [], span⟩]⟩

/-- What `n` is defined by is a real number, and what `k` is defined by an array; both fold. -/
theorem folded_real_and_array :
    mixedConstants.resolve.findings = [] ∧
      (mixedConstants.resolve.table.init? ⟨2⟩).bind mixedConstants.resolve.table.foldInteger = some 6 ∧
      (mixedConstants.resolve.table.init? ⟨2⟩).bind mixedConstants.resolve.table.typeOf = some (.plain .real 4) ∧
      (mixedConstants.resolve.table.init? ⟨4⟩).bind mixedConstants.resolve.table.foldInteger = some 3 ∧
      (mixedConstants.resolve.table.init? ⟨4⟩).bind mixedConstants.resolve.table.rank = some 1 := by
  decide +kernel

end FortranInterface
