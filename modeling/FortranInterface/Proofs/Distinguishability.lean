import Mathlib.Data.List.Zip
import FortranInterface.Proofs.ArityGuard

/-!
The rules that tell two specific procedures apart, as a relation between procedures. It is symmetric, and a dummy argument that
is made optional never helps. A procedure is told apart from itself only by the count of its objects, which takes an allocatable
object and a pointer for alike on one side and not on the other.
-/

namespace FortranInterface

namespace Procedure

theorem distinguishedByPassedObject_comm (mine theirs : List Dummy) :
    distinguishedByPassedObject mine theirs = distinguishedByPassedObject theirs mine := by
  rw [distinguishedByPassedObject, distinguishedByPassedObject]
  cases passedObject? mine <;> cases passedObject? theirs <;> simp [Dummy.distinguishable_comm]

/-- The order of two procedures does not matter, neither under a generic name nor for an operator or assignment. -/
theorem distinguishability_symmetric (first second : Procedure) :
    first.distinguishable second = second.distinguishable first ∧
      first.operatorDistinguishable second = second.operatorDistinguishable first := by
  constructor
  · rw [distinguishable, distinguishable, distinguishedByPassedObject_comm, bne_comm]
    ac_rfl
  · rw [operatorDistinguishable, operatorDistinguishable, bne_comm, ← List.zip_swap, List.any_map]
    simp [Function.comp_def, Dummy.distinguishable_comm]

end Procedure

/-! A procedure and itself. -/

theorem DataObject.tkrCompatible_self (object : DataObject) : object.tkrCompatible object = true := by
  simp [tkrCompatible, TypeAndShape.tkrCompatible, DynamicType.tkCompatible_self]

theorem DummyProcedure.not_distinguishable_self (dummy : DummyProcedure) : dummy.distinguishable dummy = false := by
  rw [distinguishable]
  cases dummy.procedure.result with
  | none => rfl
  | some result =>
    cases isData : result.typeAndShape? <;>
      simp [isData, TypeAndShape.tkrCompatible, DynamicType.tkCompatible_self]

namespace Dummy

/-- A data object is not both allocatable and a pointer. -/
def HasOneStorage (dummy : Dummy) : Prop :=
  ∀ object ∈ dummy.object?, (object.has .allocatable && object.has .pointer) = false

instance (dummy : Dummy) : Decidable dummy.HasOneStorage :=
  inferInstanceAs (Decidable (∀ object ∈ dummy.object?, _))

theorem not_distinguishable_self {dummy : Dummy} (single : dummy.HasOneStorage) :
    dummy.distinguishable dummy = false := by
  rw [distinguishable]
  cases isKind : dummy.kind with
  | object object =>
    have exclusive := single object (by rw [object?, isKind]; rfl)
    simp only [DataObject.distinguishable, object.tkrCompatible_self, DataObject.isPointerNotIn]
    cases isAllocatable : object.has .allocatable <;> simp_all
  | procedure procedure => exact procedure.not_distinguishable_self
  | alternateReturn => rfl

end Dummy

theorem countP_lt_countP_iff {α : Type} (elements : List α) (fewer more : α → Bool) :
    elements.countP fewer < elements.countP more ↔
      (elements.countP fun element => fewer element && !more element) <
        elements.countP fun element => more element && !fewer element := by
  have ofFewer := List.countP_eq_countP_filter_add elements fewer more
  have ofMore := List.countP_eq_countP_filter_add elements more fewer
  simp only [List.countP_filter] at ofFewer ofMore
  have common : (elements.countP fun element => fewer element && more element) =
      elements.countP fun element => more element && fewer element := by
    simp only [Bool.and_comm]
  omega

namespace Procedure

theorem requiredObjects_eq_filter (dummies : List Dummy) :
    requiredObjects dummies = (unpassedObjects dummies).filter fun object => !object.isOptional := by
  rw [requiredObjects, unpassedObjects, List.filter_filterMap, List.filterMap_filter, List.filterMap_filter]
  congr
  funext dummy
  rw [Dummy.isRequired, Dummy.isOptional, Dummy.object?]
  cases dummy.kind <;> cases dummy.pass <;> simp [DataObject.isOptional, Option.filter]

theorem not_distinguishedByProcedures_self (dummies : List Dummy) :
    distinguishedByProcedures dummies dummies = false := by
  rw [distinguishedByProcedures, decide_eq_false_iff_not, Nat.not_lt]
  exact List.countP_mono_left fun dummy _ test => (Bool.and_eq_true_iff.mp test).2

theorem firstByPosition?_self {dummies : List Dummy} (single : ∀ dummy ∈ dummies, dummy.HasOneStorage) (index : Nat) :
    firstByPosition? index dummies (dummies.filter fun dummy => !dummy.pass) = none := by
  induction dummies generalizing index with
  | nil => rfl
  | cons dummy dummies ih =>
    rw [List.forall_mem_cons] at single
    cases passes : dummy.pass <;>
      simp [firstByPosition?, passes, differsFrom, Dummy.not_distinguishable_self single.1, ih single.2]

theorem distinguishable_self_eq {procedure : Procedure} (single : ∀ dummy ∈ procedure.dummies, dummy.HasOneStorage) :
    procedure.distinguishable procedure = distinguishedByObjects procedure.dummies procedure.dummies := by
  have room : requiredCount procedure.dummies ≤ procedure.dummies.length := List.countP_le_length
  have passed : distinguishedByPassedObject procedure.dummies procedure.dummies = false := by
    rw [distinguishedByPassedObject]
    cases isPassed : passedObject? procedure.dummies with
    | none => rfl
    | some dummy => exact Dummy.not_distinguishable_self (single dummy (List.mem_of_find?_eq_some isPassed))
  simp [distinguishable, Nat.not_lt.mpr room, distinguishedByCounts, not_distinguishedByProcedures_self, passed,
    distinguishedByOrder, firstByPosition?_self single]

/-- A procedure is told apart from itself exactly if, for one of its required objects, more required objects are compatible with
it and still told apart from it, as allocatable from pointer, than there are objects like it that are optional or compatible only
the other way round. -/
theorem self_distinguishable_iff (procedure : Procedure) (single : ∀ dummy ∈ procedure.dummies, dummy.HasOneStorage) :
    procedure.distinguishable procedure = true ↔ ∃ object ∈ requiredObjects procedure.dummies,
      (unpassedObjects procedure.dummies).countP (fun other =>
          !object.distinguishable other && !(object.tkrCompatible other && !other.isOptional)) <
        (requiredObjects procedure.dummies).countP fun other =>
          object.tkrCompatible other && object.distinguishable other := by
  rw [distinguishable_self_eq single, distinguishedByObjects, List.any_eq_true]
  refine exists_congr fun object => and_congr_right fun _ => ?_
  rw [decide_eq_true_eq, gt_iff_lt, requiredObjects_eq_filter, List.countP_filter, countP_lt_countP_iff,
    List.countP_filter]
  simp only [Bool.not_not, Bool.and_right_comm]

def scalarsWith (attributes : List (String × List DataAttribute)) : Procedure :=
  ⟨none, attributes.map fun entry => .ofObject entry.1 ⟨.scalar (.plain .real 4), [], .unspecified, .ofList entry.2⟩,
    .ofList [.subroutine]⟩

def storagesWithSpares : Procedure :=
  scalarsWith [("a", [.allocatable]), ("p", [.pointer]), ("b", [.optional, .allocatable]), ("q", [.optional, .pointer])]

theorem self_distinguishable_storagesWithSpares :
    (∀ dummy ∈ storagesWithSpares.dummies, dummy.HasOneStorage) ∧
      storagesWithSpares.distinguishable storagesWithSpares = false := by
  have single : ∀ dummy ∈ storagesWithSpares.dummies, dummy.HasOneStorage := by decide
  exact ⟨single, Bool.eq_false_iff.mpr (mt (self_distinguishable_iff storagesWithSpares single).mp (by decide))⟩

def bothStorages : Procedure :=
  scalarsWith [("a", [.allocatable]), ("p", [.pointer])]

theorem self_distinguishable_bothStorages :
    (∀ dummy ∈ bothStorages.dummies, dummy.HasOneStorage) ∧ bothStorages.distinguishable bothStorages = true := by
  decide

end Procedure

/-! Dummy arguments made optional. -/

theorem Flags.insert_insert {α : Type} [DecidableEq α] [Enumerated α] (flags : Flags α) (value : α) :
    (flags.insert value).insert value = flags.insert value := by
  simp [insert, ofList, Enumerated.complete]

theorem DataObject.distinguishable_setOptional (object other : DataObject) (optional : Bool) :
    object.distinguishable { other with attributes := other.attributes.set .optional optional } =
      object.distinguishable other := by
  cases optional <;> simp [distinguishable, isPointerNotIn, has, Flags.set, tkrCompatible]

namespace Dummy

/-- The dummy argument made optional. An alternate return stays as it is. -/
abbrev loosened (dummy : Dummy) : Dummy :=
  dummy.setOptional true

variable (dummy other : Dummy)

theorem loosened_loosened : dummy.loosened.loosened = dummy.loosened := by
  obtain ⟨name, pass, kind⟩ := dummy
  cases kind <;> simp [setOptional, Flags.set, Flags.insert_insert]

theorem loosened_name : dummy.loosened.name = dummy.name := by
  obtain ⟨name, pass, kind⟩ := dummy
  cases kind <;> rfl

theorem loosened_pass : dummy.loosened.pass = dummy.pass := by
  obtain ⟨name, pass, kind⟩ := dummy
  cases kind <;> rfl

theorem procedure?_loosened : dummy.loosened.procedure?.isSome = dummy.procedure?.isSome := by
  obtain ⟨name, pass, kind⟩ := dummy
  cases kind <;> rfl

theorem any_object?_loosened (object : DataObject) :
    (dummy.loosened.object?.any fun other => !object.distinguishable other) =
      dummy.object?.any fun other => !object.distinguishable other := by
  obtain ⟨name, pass, kind⟩ := dummy
  cases kind <;> simp [object?, setOptional, DataObject.distinguishable_setOptional]

theorem distinguishable_loosened : dummy.distinguishable other.loosened = dummy.distinguishable other := by
  obtain ⟨name, pass, kind⟩ := dummy
  obtain ⟨name', pass', kind'⟩ := other
  cases kind <;> cases kind' <;>
    simp [distinguishable, setOptional, DataObject.distinguishable_setOptional, DummyProcedure.distinguishable]

variable {dummy}

theorem loosened_eq_of_isRequired (required : dummy.loosened.isRequired = true) : dummy.loosened = dummy := by
  obtain ⟨name, pass, kind⟩ := dummy
  cases kind <;>
    simp_all [isRequired, isOptional, setOptional, DataObject.has, DummyProcedure.has, Flags.set]

end Dummy

namespace Procedure

open Dummy

variable {mine theirs : List Dummy} {place : Nat}

theorem differsFrom_loosened (dummy : Dummy) (other : Option Dummy) :
    differsFrom dummy (other.map loosened) = differsFrom dummy other := by
  cases other <;> simp [differsFrom, distinguishable_loosened]

theorem distinguishedByCounts_loosened (mine theirs : List Dummy) :
    distinguishedByCounts mine (theirs.map loosened) = distinguishedByCounts mine theirs := by
  simp only [distinguishedByCounts, distinguishedByObjects, unpassedObjects, countP_objects, distinguishedByProcedures,
    List.countP_map, Function.comp_def, loosened_pass, any_object?_loosened, procedure?_loosened]

theorem distinguishedByPassedObject_loosened (mine theirs : List Dummy) :
    distinguishedByPassedObject mine (theirs.map loosened) = distinguishedByPassedObject mine theirs := by
  simp only [distinguishedByPassedObject, passedObject?, List.find?_map, Function.comp_def, loosened_pass]
  cases mine.find? _ <;> cases theirs.find? _ <;> simp [distinguishable_loosened]

theorem firstByPosition?_loosened (index : Nat) (mine theirs : List Dummy) :
    firstByPosition? index mine (theirs.map loosened) = firstByPosition? index mine theirs := by
  induction mine generalizing index theirs with
  | nil => rfl
  | cons dummy dummies ih =>
    simp only [firstByPosition?, List.head?_map, differsFrom_loosened, ← List.map_tail, ih]

theorem distinguishedByOrder_loosened (mine theirs : List Dummy) :
    distinguishedByOrder mine (theirs.map loosened) = distinguishedByOrder mine theirs := by
  simp only [distinguishedByOrder, List.filter_map, Function.comp_def, loosened_pass, firstByPosition?_loosened,
    lastByName?, differsByName, List.find?_map, loosened_name, differsFrom_loosened]

theorem modify_loosened_eq (rule : List Dummy → Bool) (blind : ∀ dummies, rule (dummies.map loosened) = rule dummies) :
    rule (mine.modify place loosened) = rule mine := by
  have same : (mine.modify place loosened).map loosened = mine.map loosened := by
    induction mine generalizing place with
    | nil => simp
    | cons dummy dummies ih => cases place <;> simp [loosened_loosened, ih]
  rw [← blind, same, blind]

theorem filter_isRequired_loosened (mine : List Dummy) (place : Nat) :
    ((mine.modify place loosened).filter isRequired).Sublist (mine.filter isRequired) := by
  induction mine generalizing place with
  | nil => simp
  | cons dummy dummies ih =>
    cases place with
    | zero =>
      rw [List.modify_zero_cons]
      by_cases required : dummy.loosened.isRequired = true
      · rw [loosened_eq_of_isRequired required]
      · rw [List.filter_cons_of_neg required]
        exact (List.sublist_cons_self dummy dummies).filter isRequired
    | succ place =>
      rw [List.modify_succ_cons, List.filter_cons, List.filter_cons]
      split
      · exact (ih place).cons_cons dummy
      · exact ih place

theorem requiredCount_loosened (mine : List Dummy) (place : Nat) :
    requiredCount (mine.modify place loosened) ≤ requiredCount mine := by
  rw [requiredCount, requiredCount, List.countP_eq_length_filter, List.countP_eq_length_filter]
  exact (filter_isRequired_loosened mine place).length_le

theorem requiredObjects_loosened (mine : List Dummy) (place : Nat) :
    (requiredObjects (mine.modify place loosened)).Sublist (requiredObjects mine) := by
  have split (dummies : List Dummy) :
      requiredObjects dummies = ((dummies.filter isRequired).filter fun dummy => !dummy.pass).filterMap object? := by
    simp only [requiredObjects, List.filter_filter, Bool.and_comm]
  rw [split, split]
  exact ((filter_isRequired_loosened mine place).filter _).filterMap _

theorem distinguishedByCounts_of_loosened (counts : distinguishedByCounts (mine.modify place loosened) theirs = true) :
    distinguishedByCounts mine theirs = true := by
  rw [distinguishedByCounts, Bool.or_eq_true] at counts ⊢
  rcases counts with byObjects | byProcedures
  · obtain ⟨object, member, more⟩ := List.any_eq_true.mp byObjects
    have sublist := requiredObjects_loosened mine place
    refine .inl (List.any_eq_true.mpr ⟨object, sublist.subset member, ?_⟩)
    rw [decide_eq_true_eq] at more ⊢
    exact Nat.lt_of_lt_of_le more sublist.countP_le
  · rw [distinguishedByProcedures, decide_eq_true_eq] at byProcedures ⊢
    refine .inr (Nat.lt_of_lt_of_le byProcedures ?_)
    have count := (filter_isRequired_loosened mine place).countP_le (p := fun dummy => dummy.procedure?.isSome)
    simpa only [List.countP_filter, Bool.and_comm] using count

theorem le_of_firstByPosition? {index first : Nat} (found : firstByPosition? index mine theirs = some first) :
    index ≤ first := by
  fun_induction firstByPosition? index mine theirs <;> grind

theorem firstByPosition?_le {index later : Nat}
    (found : firstByPosition? index (mine.modify place loosened) theirs = some later) :
    ∃ first ≤ later, firstByPosition? index mine theirs = some first := by
  induction mine generalizing index place theirs with
  | nil => simp [firstByPosition?] at found
  | cons dummy dummies ih =>
    cases place with
    | zero =>
      rw [List.modify_zero_cons] at found
      by_cases required : dummy.loosened.isRequired = true
      · rw [loosened_eq_of_isRequired required] at found
        exact ⟨later, Nat.le_refl later, found⟩
      · have bound : index ≤ later := le_of_firstByPosition? found
        simp only [firstByPosition?, loosened_pass, required] at found ⊢
        grind
    | succ place =>
      rw [List.modify_succ_cons] at found
      simp only [firstByPosition?] at found ⊢
      grind

theorem lastByName?_concat (dummies : List Dummy) (dummy : Dummy) :
    lastByName? (dummies ++ [dummy]) theirs =
      if differsByName theirs dummy then some dummies.length else lastByName? dummies theirs := by
  simp only [lastByName?, List.zipIdx_append, List.reverse_append, List.zipIdx_singleton, List.reverse_singleton,
    List.singleton_append, List.find?_cons]
  split <;> simp_all

theorem exists_lastByName? {dummy : Dummy} (present : mine[place]? = some dummy)
    (differs : differsByName theirs dummy = true) : ∃ last, lastByName? mine theirs = some last ∧ place ≤ last := by
  induction mine using List.reverseRecOn with
  | nil => simp at present
  | append_singleton dummies final ih =>
    rw [lastByName?_concat]
    by_cases differsFinal : differsByName theirs final = true
    · have bound := (List.getElem?_eq_some_iff.mp present).1
      rw [List.length_append, List.length_singleton] at bound
      exact ⟨dummies.length, if_pos differsFinal, Nat.le_of_lt_succ bound⟩
    · rw [if_neg differsFinal]
      rw [List.getElem?_append] at present
      grind

theorem getElem?_of_isRequired {index : Nat} {dummy : Dummy}
    (present : (mine.modify place loosened)[index]? = some dummy) (required : dummy.isRequired = true) :
    mine[index]? = some dummy := by
  rw [List.getElem?_modify] at present
  obtain ⟨given, isGiven, rfl⟩ := Option.map_eq_some_iff.mp present
  rw [isGiven]
  split at required
  next same => rw [if_pos same, loosened_eq_of_isRequired required]
  next other => rw [if_neg other]

theorem distinguishedByOrder_of_loosened (order : distinguishedByOrder (mine.modify place loosened) theirs = true) :
    distinguishedByOrder mine theirs = true := by
  rw [distinguishedByOrder] at order
  split at order
  next later earlier isLater isEarlier =>
    rw [decide_eq_true_eq] at order
    obtain ⟨first, before, isFirst⟩ := firstByPosition?_le isLater
    obtain ⟨dummy, present, differs⟩ := differsByName_of_lastByName? isEarlier
    have required : dummy.isRequired = true := by
      simp only [differsByName, Bool.and_eq_true] at differs
      exact differs.1.2
    obtain ⟨last, isLast, behind⟩ := exists_lastByName? (getElem?_of_isRequired present required) differs
    simp only [distinguishedByOrder, isFirst, isLast, decide_eq_true_eq]
    omega
  · cases order

/-- Procedures that cannot be told apart still cannot if a dummy argument of one is made optional. -/
theorem optional_never_disambiguates (first second : Procedure) (place : Nat)
    (ambiguous : first.distinguishable second = false) :
    { first with dummies := first.dummies.modify place (·.setOptional true) }.distinguishable second = false := by
  simp only [distinguishable, Bool.or_eq_false_iff, decide_eq_false_iff_not, Nat.not_lt] at ambiguous ⊢
  obtain ⟨⟨⟨⟨⟨⟨⟨kind, room⟩, roomSecond⟩, counts⟩, countsSecond⟩, passed⟩, order⟩, orderSecond⟩ := ambiguous
  refine ⟨⟨⟨⟨⟨⟨⟨kind, ?_⟩, ?_⟩, ?_⟩, ?_⟩, ?_⟩, ?_⟩, ?_⟩
  · exact Nat.le_trans (requiredCount_loosened first.dummies place) room
  · rwa [List.length_modify]
  · exact Bool.eq_false_iff.mpr (mt distinguishedByCounts_of_loosened (Bool.eq_false_iff.mp counts))
  · exact (modify_loosened_eq _ (distinguishedByCounts_loosened _)).trans countsSecond
  · rw [distinguishedByPassedObject_comm] at passed ⊢
    exact (modify_loosened_eq _ (distinguishedByPassedObject_loosened _)).trans passed
  · exact Bool.eq_false_iff.mpr (mt distinguishedByOrder_of_loosened (Bool.eq_false_iff.mp order))
  · exact (modify_loosened_eq _ (distinguishedByOrder_loosened _)).trans orderSecond

theorem optional_never_disambiguates_fillVector :
    Call.fillVectorInSteps.distinguishable Call.fillVector = false ∧
      { Call.fillVectorInSteps with
          dummies := Call.fillVectorInSteps.dummies.modify 1 (·.setOptional true) }.distinguishable
        Call.fillVector = false := by
  have ambiguous : Call.fillVectorInSteps.distinguishable Call.fillVector = false := by decide
  exact ⟨ambiguous, optional_never_disambiguates _ _ 1 ambiguous⟩

end Procedure

end FortranInterface
