import FortranInterface.Expr.Shape

/-!
The extent of an array constructor. It is the number of elements of all its values, as far as a 64-bit word can tell: the
arithmetic wraps instead of giving up, so that the extent is right exactly if the number fits.
-/

namespace FortranInterface

namespace Word

end Word

namespace Shape

open Word (wrapped greatest)

section

variable (table : Table)

def exactSize : Shape → Option Int
  | [] => some 1
  | extent :: shape =>
    (extent.bind table.foldInteger).bind fun count => (exactSize shape).map (count * ·)

mutual

/-- The exact number of elements that a value of an array constructor has. It may be a constructor again. -/
def exactCount : Expr → Option Int
  | .array _ values => exactTotal values
  | value => (table.shapeOf value).bind (exactSize table)

def exactTotal : List Expr → Option Int
  | [] => some 0
  | value :: values => (exactCount value).bind fun count => (exactTotal values).map (count + ·)

end

theorem foldlM_eq_map_exactSize (shape : Shape) (count : Int) :
    shape.foldlM (fun count extent => (extent.bind table.foldInteger).map (wrapped <| count * ·)) (wrapped count) =
      (exactSize table shape).map fun size => wrapped (count * size) := by
  induction shape generalizing count with
  | nil => rw [exactSize, Option.map_some, Int.mul_one]; rfl
  | cons extent shape ih =>
    rw [List.foldlM_cons, exactSize]
    cases extent.bind table.foldInteger with
    | none => rfl
    | some size =>
      have step : wrapped (wrapped count * size) = wrapped (count * size) := Int.bmod_mul_bmod
      simp only [Option.map_some, Option.bind_eq_bind, Option.bind_some, step, ih, Option.map_map]
      congr 1
      funext others
      rw [Function.comp, Int.mul_assoc]

theorem elementCount_eq_wrapped (shape : Shape) : elementCount table shape = (exactSize table shape).map wrapped := by
  refine (foldlM_eq_map_exactSize table shape 1).trans ?_
  simp only [Int.one_mul]

theorem bind_elementCount (found : Option Shape) :
    found.bind (elementCount table) = (found.bind (exactSize table)).map wrapped := by
  cases found with
  | none => rfl
  | some shape => exact elementCount_eq_wrapped table shape

def Constructed (count : Int) (total : Option Int) (found : Option Shape) : Prop :=
  match total with
  | some total => found = some [some (.int (wrapped (count + total)))]
  | none => found = none ∨ found = some [none]

mutual

theorem elementCount_shapeOf :
    (value : Expr) → (table.shapeOf value).bind (elementCount table) = (exactCount table value).map wrapped
  | .array type values => by
    have constructed : Constructed 0 (exactTotal table values) (table.shapeOf (.array type values)) :=
      constructed_ofConstructor values 0
    rw [exactCount]
    cases known : exactTotal table values with
    | none =>
      rw [known] at constructed
      rcases constructed with found | found <;> rw [found] <;> rfl
    | some total =>
      rw [known] at constructed
      have extent : elementCount table [some (.int (wrapped total))] = some (wrapped (1 * wrapped total)) := rfl
      rw [constructed, Int.zero_add, Option.bind_some, extent, Int.one_mul]
      exact congrArg some Int.bmod_bmod
  | .literal _ | .designator .. | .call .. | .operation .. | .null | .boz _ | .procedure _ => bind_elementCount table _
termination_by structural x => x

theorem constructed_ofConstructor : (values : List Expr) → (count : Int) →
    Constructed count (exactTotal table values)
      (ofConstructor table (wrapped count) (ofExprsWith table table.symbolShape values))
  | [], count => by
    rw [exactTotal, Constructed, Int.add_zero]
    rfl
  | value :: values, count => by
    have first := elementCount_shapeOf value
    rw [exactTotal, ofExprsWith]
    change Constructed _ _ (ofConstructor table _ (table.shapeOf value :: _))
    cases shaped : table.shapeOf value with
    | none =>
      rw [shaped] at first
      rw [Option.map_eq_none_iff.mp first.symm]
      exact .inl rfl
    | some shape =>
      rw [shaped, Option.bind_some] at first
      rw [ofConstructor, first]
      cases exactCount table value with
      | none => exact .inr rfl
      | some size =>
        have sum : wrapped (wrapped count + wrapped size) = wrapped (count + size) :=
          Int.bmod_add_bmod.trans Int.add_bmod_bmod
        have others := constructed_ofConstructor values (count + size)
        simp only [Option.map_some, Option.bind_some, sum]
        cases known : exactTotal table values with
        | none => rwa [known] at others
        | some total =>
          rw [known, Constructed, Int.add_assoc] at others
          exact others
termination_by structural x => x

end

end

variable {table : Table} {type : DynamicType} {values : List Expr}

end Shape

end FortranInterface
