import FortranInterface.Procedure.Equality

/-!
Equality of characteristics is identity of what is left when the dummy arguments lose their names and their marks for
the passed object, also those of the procedures inside a procedure. `relabel` gives all of them new ones, each by the
place where it stands: the way from the outermost procedure inwards, zero for the result and `n + 1` for the dummy
argument behind `n` others.
-/

namespace FortranInterface

abbrev Labelling := List Nat → String × Bool

mutual

def Procedure.relabel (label : Labelling) (place : List Nat) : Procedure → Procedure
  | ⟨result, dummies, attributes⟩ =>
    ⟨relabelResult label (0 :: place) result, relabelDummies label place 1 dummies, attributes⟩

def FunctionResult.relabel (label : Labelling) (place : List Nat) : FunctionResult → FunctionResult
  | ⟨attributes, kind⟩ => ⟨attributes, kind.relabel label place⟩

def ResultKind.relabel (label : Labelling) (place : List Nat) : ResultKind → ResultKind
  | .data typeAndShape => .data typeAndShape
  | .procedurePointer procedure => .procedurePointer (procedure.relabel label place)

def Dummy.relabel (label : Labelling) (place : List Nat) : Dummy → Dummy
  | ⟨_, _, kind⟩ => ⟨(label place).1, (label place).2, kind.relabel label place⟩

def DummyKind.relabel (label : Labelling) (place : List Nat) : DummyKind → DummyKind
  | .object object => .object object
  | .procedure procedure => .procedure (procedure.relabel label place)
  | .alternateReturn => .alternateReturn

def DummyProcedure.relabel (label : Labelling) (place : List Nat) : DummyProcedure → DummyProcedure
  | ⟨procedure, intent, attributes⟩ => ⟨procedure.relabel label place, intent, attributes⟩

def relabelResult (label : Labelling) (place : List Nat) : Option FunctionResult → Option FunctionResult
  | some result => some (result.relabel label place)
  | none => none

def relabelDummies (label : Labelling) (place : List Nat) (index : Nat) : List Dummy → List Dummy
  | dummy :: dummies => dummy.relabel label (index :: place) :: relabelDummies label place (index + 1) dummies
  | [] => []

end

def Procedure.unlabelled (procedure : Procedure) : Procedure :=
  procedure.relabel (fun _ => ("", false)) []

/-! Two procedures are equal exactly if one labelling makes them identical. -/

section

variable (label : Labelling)

mutual

theorem Procedure.same_iff : (first : Procedure) → (place : List Nat) → (second : Procedure) →
    (first.same second = true ↔ first.relabel label place = second.relabel label place)
  | ⟨result, dummies, _⟩, place, ⟨_, _, _⟩ => by
    simp [Procedure.same, Procedure.relabel, sameResults_iff result (0 :: place),
      sameDummies_iff dummies place 1, and_assoc]
termination_by structural first => first

theorem sameResults_iff : (first : Option FunctionResult) → (place : List Nat) → (second : Option FunctionResult) →
    (sameResults first second = true ↔ relabelResult label place first = relabelResult label place second)
  | none, _, second => by cases second <;> simp [sameResults, relabelResult]
  | some ⟨_, .data _⟩, _, second => by
    rcases second with _ | ⟨_, _ | _⟩ <;>
      simp [sameResults, relabelResult, FunctionResult.same, FunctionResult.relabel, ResultKind.same, ResultKind.relabel]
  | some ⟨_, .procedurePointer procedure⟩, place, second => by
    rcases second with _ | ⟨_, _ | _⟩ <;>
      simp [sameResults, relabelResult, FunctionResult.same, FunctionResult.relabel, ResultKind.same, ResultKind.relabel,
        procedure.same_iff place]
termination_by structural first => first

theorem sameDummies_iff : (first : List Dummy) → (place : List Nat) → (index : Nat) → (second : List Dummy) →
    (sameDummies first second = true ↔ relabelDummies label place index first = relabelDummies label place index second)
  | [], _, _, second => by cases second <;> simp [sameDummies, relabelDummies]
  | ⟨_, _, .procedure ⟨procedure, _, _⟩⟩ :: dummies, place, index, second => by
    rcases second with _ | ⟨⟨_, _, _ | ⟨_, _, _⟩ | _⟩, _⟩ <;>
      simp [sameDummies, relabelDummies, Dummy.same, Dummy.relabel, DummyKind.same, DummyKind.relabel,
        DummyProcedure.same, DummyProcedure.relabel, procedure.same_iff (index :: place),
        sameDummies_iff dummies place (index + 1), and_assoc]
  | ⟨_, _, .object _⟩ :: dummies, place, index, second
  | ⟨_, _, .alternateReturn⟩ :: dummies, place, index, second => by
    rcases second with _ | ⟨⟨_, _, _ | _ | _⟩, _⟩ <;>
      simp [sameDummies, relabelDummies, Dummy.same, Dummy.relabel, DummyKind.same, DummyKind.relabel,
        sameDummies_iff dummies place (index + 1)]
termination_by structural first => first

end

mutual

theorem Procedure.relabel_same : (procedure : Procedure) → (place : List Nat) →
    (procedure.relabel label place).same procedure = true
  | ⟨result, dummies, _⟩, place => by
    simp [Procedure.same, Procedure.relabel, relabelResult_same result, relabelDummies_same dummies]
termination_by structural procedure => procedure

theorem relabelResult_same : (result : Option FunctionResult) → (place : List Nat) →
    sameResults (relabelResult label place result) result = true
  | none, _ => by simp [sameResults, relabelResult]
  | some ⟨_, .data _⟩, _ => by
    simp [sameResults, relabelResult, FunctionResult.same, FunctionResult.relabel, ResultKind.same, ResultKind.relabel]
  | some ⟨_, .procedurePointer procedure⟩, place => by
    simp [sameResults, relabelResult, FunctionResult.same, FunctionResult.relabel, ResultKind.same, ResultKind.relabel,
      procedure.relabel_same]
termination_by structural result => result

theorem relabelDummies_same : (dummies : List Dummy) → (place : List Nat) → (index : Nat) →
    sameDummies (relabelDummies label place index dummies) dummies = true
  | [], _, _ => by simp [sameDummies, relabelDummies]
  | ⟨_, _, .procedure ⟨procedure, _, _⟩⟩ :: dummies, _, _ => by
    simp [sameDummies, relabelDummies, Dummy.same, Dummy.relabel, DummyKind.same, DummyKind.relabel,
      DummyProcedure.same, DummyProcedure.relabel, procedure.relabel_same, relabelDummies_same dummies]
  | ⟨_, _, .object _⟩ :: dummies, _, _ | ⟨_, _, .alternateReturn⟩ :: dummies, _, _ => by
    simp [sameDummies, relabelDummies, Dummy.same, Dummy.relabel, DummyKind.same, DummyKind.relabel,
      relabelDummies_same dummies]
termination_by structural dummies => dummies

end

end

namespace Procedure

theorem same_iff_unlabelled (first second : Procedure) :
    first.same second = true ↔ first.unlabelled = second.unlabelled :=
  same_iff _ first [] second

theorem same_equivalence : Equivalence fun first second : Procedure => first.same second = true where
  refl procedure := (same_iff_unlabelled procedure procedure).mpr rfl
  symm {first second} same := (same_iff_unlabelled second first).mpr ((same_iff_unlabelled first second).mp same).symm
  trans {first second third} same same' := (same_iff_unlabelled first third).mpr
    (((same_iff_unlabelled first second).mp same).trans ((same_iff_unlabelled second third).mp same'))

/-- Equality ignores exactly the labels of dummy arguments: equal procedures are those that are identical without
them. So it is an equivalence, and new labels for any dummy arguments on either side change nothing. -/
theorem equality_ignores_labels :
    (∀ first second : Procedure, first.same second = true ↔ first.unlabelled = second.unlabelled) ∧
      Equivalence (fun first second : Procedure => first.same second = true) ∧
      ∀ (first second : Procedure) (label other : Labelling),
        (first.relabel label []).same (second.relabel other []) = first.same second := by
  refine ⟨same_iff_unlabelled, same_equivalence, fun first second label other => ?_⟩
  have relabelled := relabel_same label first []
  have relabelled' := relabel_same other second []
  rw [Bool.eq_iff_iff]
  constructor
  · intro same
    exact same_equivalence.trans (same_equivalence.symm relabelled) (same_equivalence.trans same relabelled')
  · intro same
    exact same_equivalence.trans relabelled (same_equivalence.trans same (same_equivalence.symm relabelled'))

end Procedure

end FortranInterface
