import Mathlib.Data.List.Perm.Subperm
import Mathlib.Data.List.Nodup
import Mathlib.Data.List.Pairwise
import FortranInterface.Proofs.Characterization
import FortranInterface.Proofs.SharedArgument

/-!
References by a generic name. A list of arguments that discerns two distinguishable procedures is
accepted by at most one of them, so the order of specific procedures does not matter for it. There are
lists that do not discern, and distinguishable procedures that both accept them.
-/

namespace FortranInterface

variable {place : Nat}

section Counting

variable {α β : Type}

def places (test : α → Bool) (elements : List α) : List Nat :=
  (List.range elements.length).filter fun place => elements[place]?.any test

theorem mem_places_iff {test : α → Bool} {elements : List α} :
    place ∈ places test elements ↔ ∃ element, elements[place]? = some element ∧ test element = true := by
  rw [places, List.mem_filter, List.mem_range]
  constructor
  · rintro ⟨bound, passes⟩
    have present := List.getElem?_eq_getElem bound
    exact ⟨elements[place], present, by simpa [present] using passes⟩
  · rintro ⟨element, present, passes⟩
    exact ⟨(List.getElem?_eq_some_iff.mp present).1, by simpa [present] using passes⟩

theorem length_places (test : α → Bool) (elements : List α) : (places test elements).length = elements.countP test := by
  have asRange : (List.range elements.length).map (elements[·]?) = elements.map some := by
    apply List.ext_getElem?
    intro place
    by_cases bound : place < elements.length <;> simp [bound]
  calc (places test elements).length
      = (List.range elements.length).countP (fun place => elements[place]?.any test) := by
        rw [places, ← List.countP_eq_length_filter]
    _ = ((List.range elements.length).map (elements[·]?)).countP (Option.any test) := by
        rw [List.countP_map]
        rfl
    _ = elements.countP test := by
        rw [asRange, List.countP_map]
        rfl

theorem countP_le_countP_of_partner {mine : List α} {theirs : List β} {testMine : α → Bool}
    {testTheirs : β → Bool} (Partner : Nat → Nat → Prop)
    (single : ∀ first second place, Partner first place → Partner second place → first = second)
    (partner : ∀ place element, mine[place]? = some element → testMine element = true →
      ∃ other counterpart, theirs[other]? = some counterpart ∧ testTheirs counterpart = true ∧ Partner place other) :
    mine.countP testMine ≤ theirs.countP testTheirs := by
  have exists_other : ∀ place, ∃ other, place ∈ places testMine mine →
      other ∈ places testTheirs theirs ∧ Partner place other := by
    intro place
    by_cases member : place ∈ places testMine mine
    · obtain ⟨element, present, passes⟩ := mem_places_iff.mp member
      obtain ⟨other, counterpart, presentOther, passesOther, isPartner⟩ :=
        partner place element present passes
      exact ⟨other, fun _ => ⟨mem_places_iff.mpr ⟨counterpart, presentOther, passesOther⟩, isPartner⟩⟩
    · exact ⟨0, fun impossible => absurd impossible member⟩
  choose other isOther using exists_other
  have nodup : ((places testMine mine).map other).Nodup := by
    refine List.Nodup.map_on ?_ (List.nodup_range.filter _)
    intro first memberFirst second memberSecond same
    exact single first second (other first) (isOther first memberFirst).2 (same ▸ (isOther second memberSecond).2)
  have subset : (places testMine mine).map other ⊆ places testTheirs theirs := by
    intro place member
    obtain ⟨source, memberSource, rfl⟩ := List.mem_map.mp member
    exact (isOther source memberSource).1
  have bounded := (List.subperm_of_subset nodup subset).length_le
  rwa [List.length_map, length_places, length_places] at bounded

end Counting

namespace DataObject

theorem distinguishable_comm (left right : DataObject) : left.distinguishable right = right.distinguishable left := by
  rw [distinguishable, distinguishable, Bool.and_comm, Bool.or_assoc, Bool.or_assoc]
  congr 1
  exact Bool.or_comm _ _

end DataObject

namespace DummyProcedure

theorem distinguishable_comm (left right : DummyProcedure) :
    left.distinguishable right = right.distinguishable left := by
  rw [distinguishable, distinguishable]
  cases left.procedure.result <;> cases right.procedure.result
  · rfl
  · rfl
  · rfl
  · dsimp only
    split <;> split <;> simp_all [Bool.and_comm]

end DummyProcedure

namespace Dummy

theorem distinguishable_comm (left right : Dummy) : left.distinguishable right = right.distinguishable left := by
  rw [distinguishable, distinguishable]
  cases left.kind with
  | object left => cases right.kind <;> simp [left.distinguishable_comm]
  | procedure left => cases right.kind <;> simp [left.distinguishable_comm]
  | alternateReturn => cases right.kind <;> rfl

variable {left right : Dummy} (alike : left.distinguishable right = false)
include alike

theorem procedure?_isSome_of_not_distinguishable (isProcedure : left.procedure?.isSome = true) :
    right.procedure?.isSome = true := by
  rw [distinguishable] at alike
  rw [procedure?] at isProcedure ⊢
  cases kind : left.kind <;> cases kind' : right.kind <;> simp_all

theorem object?_of_not_distinguishable {object : DataObject} (isObject : left.object? = some object) :
    ∃ other, right.object? = some other ∧ object.distinguishable other = false := by
  rw [distinguishable] at alike
  rw [object?] at isObject ⊢
  cases kind : left.kind <;> cases kind' : right.kind <;> simp_all

end Dummy

variable {actual : Actual} {index : Nat} {dummies : List Dummy}

namespace Procedure

open Arrangement

def passesAt (dummies : List Dummy) (place : Nat) : Bool :=
  dummies[place]?.any Dummy.pass

/-- A list of arguments that goes with two lists of dummy arguments, so that no argument goes to two
that are distinguishable. -/
structure Shared (mine theirs : List Dummy) (actuals : Actuals) : Prop where
  matchesMine : Matches mine actuals
  matchesTheirs : Matches theirs actuals
  requiredMine : ∀ place dummy, mine[place]? = some dummy → dummy.isRequired = true →
    ∃ index actual, GoesTo mine actuals index place actual
  requiredTheirs : ∀ place dummy, theirs[place]? = some dummy → dummy.isRequired = true →
    ∃ index actual, GoesTo theirs actuals index place actual
  alike : ∀ index place other actual dummy counterpart,
    GoesTo mine actuals index place actual → GoesTo theirs actuals index other actual →
    mine[place]? = some dummy → theirs[other]? = some counterpart →
    dummy.distinguishable counterpart = false

def Partner (mine theirs : List Dummy) (actuals : Actuals) (place other : Nat) : Prop :=
  ∃ index actual, GoesTo mine actuals index place actual ∧ GoesTo theirs actuals index other actual

variable {dummy : Dummy}

namespace Shared

variable {mine theirs : List Dummy} {actuals : Actuals} (shared : Shared mine theirs actuals)
include shared

theorem symm : Shared theirs mine actuals where
  matchesMine := shared.matchesTheirs
  matchesTheirs := shared.matchesMine
  requiredMine := shared.requiredTheirs
  requiredTheirs := shared.requiredMine
  alike index place other actual dummy counterpart goes goesOther present presentOther := by
    rw [dummy.distinguishable_comm]
    exact shared.alike index other place actual counterpart dummy goesOther goes presentOther present

theorem partner_single {first second other : Nat} (isFirst : Partner mine theirs actuals first other)
    (isSecond : Partner mine theirs actuals second other) : first = second := by
  obtain ⟨index, actual, goesFirst, goesOther⟩ := isFirst
  obtain ⟨index', actual', goesSecond, goesOther'⟩ := isSecond
  obtain rfl := shared.matchesTheirs.index_eq_of_goesTo goesOther goesOther'
  exact Option.some_inj.mp (goesFirst.2.symm.trans goesSecond.2)

theorem exists_counterpart (goes : GoesTo mine actuals index place actual) (present : mine[place]? = some dummy) :
    ∃ other counterpart, theirs[other]? = some counterpart ∧
      GoesTo theirs actuals index other actual ∧ dummy.distinguishable counterpart = false := by
  obtain ⟨other, bound, goesOther⟩ := shared.matchesTheirs.exists_goesTo goes.1
  have presentOther := List.getElem?_eq_getElem bound
  exact ⟨other, theirs[other], presentOther, goesOther,
    shared.alike index place other actual dummy _ goes goesOther present presentOther⟩

theorem exists_partner (present : mine[place]? = some dummy) (required : dummy.isRequired = true) :
    ∃ other counterpart, theirs[other]? = some counterpart ∧
      Partner mine theirs actuals place other ∧ dummy.distinguishable counterpart = false := by
  obtain ⟨index, actual, goes⟩ := shared.requiredMine place dummy present required
  obtain ⟨other, counterpart, presentOther, goesOther, alike⟩ :=
    shared.exists_counterpart goes present
  exact ⟨other, counterpart, presentOther, ⟨index, actual, goes, goesOther⟩, alike⟩

theorem requiredCount_le : requiredCount mine ≤ theirs.length := by
  have bounded : requiredCount mine ≤ theirs.countP fun _ => true := by
    refine countP_le_countP_of_partner (Partner mine theirs actuals)
      (fun _ _ _ => shared.partner_single) fun place dummy present required => ?_
    obtain ⟨other, counterpart, presentOther, isPartner, -⟩ :=
      shared.exists_partner present required
    exact ⟨other, counterpart, presentOther, rfl, isPartner⟩
  exact Nat.le_trans bounded List.countP_le_length

theorem not_distinguishedByProcedures : distinguishedByProcedures mine theirs = false := by
  rw [distinguishedByProcedures, decide_eq_false_iff_not, Nat.not_lt]
  refine countP_le_countP_of_partner (Partner mine theirs actuals)
    (fun _ _ _ => shared.partner_single) fun place dummy present test => ?_
  rw [Bool.and_eq_true] at test
  obtain ⟨other, counterpart, presentOther, isPartner, alike⟩ :=
    shared.exists_partner present test.1
  exact ⟨other, counterpart, presentOther, Dummy.procedure?_isSome_of_not_distinguishable alike test.2, isPartner⟩

end Shared

theorem countP_objects (dummies : List Dummy) (keep : Dummy → Bool) (test : DataObject → Bool) :
    ((dummies.filter keep).filterMap Dummy.object?).countP test =
      dummies.countP fun dummy => keep dummy && dummy.object?.any test := by
  rw [List.countP_filterMap, List.countP_filter]
  congr
  funext dummy
  rw [Bool.and_comm]
  cases dummy.object? <;> rfl

theorem mem_objects {keep : Dummy → Bool} {object : DataObject} (present : dummies[place]? = some dummy)
    (kept : keep dummy = true) (isObject : dummy.object? = some object) :
    object ∈ (dummies.filter keep).filterMap Dummy.object? := by
  refine List.mem_filterMap.mpr ⟨dummy, ?_, isObject⟩
  exact List.mem_filter.mpr ⟨List.mem_of_getElem? present, kept⟩

/-- Objects that one procedure cannot tell apart are told apart from the same objects of the other.
This holds unless some of them are polymorphic, of assumed type or rank, pointers or allocatable. -/
def AlikeTogether (mine theirs : List Dummy) : Prop :=
  ∀ object ∈ requiredObjects mine, ∀ similar ∈ requiredObjects mine,
    ∀ other ∈ unpassedObjects theirs, object.tkrCompatible similar = true →
      similar.distinguishable other = false → object.distinguishable other = false

theorem passesAt_tail (dummies : List Dummy) (place : Nat) :
    passesAt dummies.tail place = passesAt dummies (place + 1) := by
  rw [passesAt, passesAt, List.getElem?_tail]

theorem filter_of_passed (passed : passesAt dummies 0 = true) :
    (dummies.filter fun dummy => !dummy.pass) = dummies.tail.filter fun dummy => !dummy.pass := by
  cases dummies with
  | nil => rfl
  | cons dummy dummies => exact List.filter_cons_of_neg (by simpa [passesAt] using passed)

theorem filter_of_unpassed (unpassed : passesAt dummies 0 = false) :
    (dummies.filter fun dummy => !dummy.pass).head? = dummies[0]? ∧
      (dummies.filter fun dummy => !dummy.pass).tail = dummies.tail.filter fun dummy => !dummy.pass := by
  cases dummies with
  | nil => exact ⟨rfl, rfl⟩
  | cons dummy dummies =>
    rw [List.filter_cons_of_pos (by simpa [passesAt] using unpassed)]
    exact ⟨rfl, rfl⟩

variable {mine theirs : List Dummy}

theorem differsFrom_of_firstByPosition? (passed : ∀ place, passesAt mine place = passesAt theirs place)
    (first : firstByPosition? index mine (theirs.filter fun dummy => !dummy.pass) = some place) :
    ∃ offset dummy, place = index + offset ∧ mine[offset]? = some dummy ∧
      dummy.isRequired = true ∧ differsFrom dummy theirs[offset]? = true := by
  induction mine generalizing theirs index with
  | nil => simp [firstByPosition?] at first
  | cons dummy dummies ih =>
    have passedLater : ∀ place, passesAt dummies place = passesAt theirs.tail place := by
      intro place
      rw [passesAt_tail]
      exact passed (place + 1)
    have later : firstByPosition? (index + 1) dummies
          (theirs.tail.filter fun dummy => !dummy.pass) = some place →
        ∃ offset found, place = index + offset ∧ (dummy :: dummies)[offset]? = some found ∧
          found.isRequired = true ∧ differsFrom found theirs[offset]? = true := by
      intro firstLater
      obtain ⟨offset, found, rfl, present, required, differs⟩ := ih passedLater firstLater
      rw [List.getElem?_tail] at differs
      exact ⟨offset + 1, found, by omega, present, required, differs⟩
    have together : dummy.pass = passesAt theirs 0 := passed 0
    rw [firstByPosition?] at first
    by_cases passes : dummy.pass = true
    · rw [if_pos passes, filter_of_passed (together.symm.trans passes)] at first
      exact later first
    · rw [if_neg passes] at first
      rw [Bool.not_eq_true] at passes
      obtain ⟨head, tail⟩ := filter_of_unpassed (together.symm.trans passes)
      rw [head, tail] at first
      by_cases differs : (dummy.isRequired && differsFrom dummy theirs[0]?) = true
      · rw [if_pos differs, Option.some_inj] at first
        rw [Bool.and_eq_true] at differs
        exact ⟨0, dummy, first.symm, rfl, differs.1, differs.2⟩
      · rw [if_neg differs] at first
        exact later first

theorem differsByName_of_lastByName? (last : lastByName? mine theirs = some place) :
    ∃ dummy, mine[place]? = some dummy ∧ differsByName theirs dummy = true := by
  rw [lastByName?, Option.map_eq_some_iff] at last
  obtain ⟨entry, found, rfl⟩ := last
  have member := List.mem_reverse.mp (List.mem_of_find?_eq_some found)
  have differs := List.find?_some found
  exact ⟨entry.1, List.mem_zipIdx_iff_getElem?.mp member, differs⟩

theorem find?_of_placeOf? {keyword : String} (found : placeOf? dummies keyword = some place) :
    ∃ dummy, dummies[place]? = some dummy ∧ dummies.find? (fun other =>
      !keyword.isEmpty && other.name == keyword) = some dummy := by
  rw [placeOf?, List.findIdx?_eq_some_iff_getElem] at found
  obtain ⟨bound, named, before⟩ := found
  refine ⟨dummies[place], List.getElem?_eq_getElem bound, ?_⟩
  rw [List.find?_eq_some_iff_getElem]
  rw [Bool.and_eq_true, beq_iff_eq] at named
  refine ⟨by simp [← named.2, named.1], place, bound, rfl, fun earlier isEarlier => ?_⟩
  have unnamed := before earlier isEarlier
  have nonempty : keyword.isEmpty = false := by
    rw [← named.2]
    exact Bool.not_eq_true' _ ▸ named.1
  by_cases same : dummies[earlier].name = keyword
  · simp [same, nonempty] at unnamed
  · simp [same]

theorem passesAt_of_passedObject? (found : passedObject? dummies = some dummy) :
    ∃ place, dummies[place]? = some dummy ∧ passesAt dummies place = true ∧
      ∀ earlier < place, passesAt dummies earlier = false := by
  rw [passedObject?, List.find?_eq_some_iff_getElem] at found
  obtain ⟨passes, place, bound, rfl, before⟩ := found
  refine ⟨place, List.getElem?_eq_getElem bound, by simp [passesAt, bound, passes], ?_⟩
  intro earlier isEarlier
  have bound : earlier < dummies.length := by omega
  simpa [passesAt, bound] using before earlier isEarlier

/-- No keyword names a place that was left empty before the first keyword. -/
def Ungapped (dummies : List Dummy) (actuals : Actuals) : Prop :=
  ∀ index place actual, GoesTo dummies actuals index place actual → (positional actuals)[place]? ≠ some none

namespace Ungapped

variable {dummies : List Dummy} {actuals : Actuals}

theorem of_given (given : ∀ slot ∈ actuals, slot.isSome = true) : Ungapped dummies actuals := by
  intro index place actual _ gap
  have member := (List.takeWhile_sublist isPositional).subset (List.mem_of_getElem? gap)
  exact Bool.false_ne_true (given none member)

theorem index_lt (ungapped : Ungapped dummies actuals) (fits : Matches dummies actuals)
    (goes : GoesTo dummies actuals index place actual) (early : place < (positional actuals).length) :
    index < (positional actuals).length := by
  refine Classical.byContradiction fun late => ?_
  have present := List.getElem?_eq_getElem early
  cases slot : (positional actuals)[place] with
  | none => exact ungapped index place actual goes (present.trans (congrArg some slot))
  | some other => exact fits.vacant_of_goesTo late goes other (present.trans (congrArg some slot))

end Ungapped

/-- What a list of arguments has to have in common with two lists of dummy arguments: passed objects
stand at the same places of both and are given there, keywords fill no gaps, and similar objects are
similar to the same objects. -/
structure Aligned (mine theirs : List Dummy) (actuals : Actuals) : Prop where
  passed : ∀ place, passesAt mine place = passesAt theirs place
  given : ∀ place, passesAt mine place = true → ∃ actual, (positional actuals)[place]? = some (some actual)
  ungappedMine : Ungapped mine actuals
  ungappedTheirs : Ungapped theirs actuals
  togetherMine : AlikeTogether mine theirs
  togetherTheirs : AlikeTogether theirs mine

theorem Aligned.symm {actuals : Actuals} (aligned : Aligned mine theirs actuals) :
    Aligned theirs mine actuals where
  passed place := (aligned.passed place).symm
  given place passes := aligned.given place ((aligned.passed place).trans passes)
  ungappedMine := aligned.ungappedTheirs
  ungappedTheirs := aligned.ungappedMine
  togetherMine := aligned.togetherTheirs
  togetherTheirs := aligned.togetherMine

namespace Shared

variable {mine theirs : List Dummy} {actuals : Actuals} (shared : Shared mine theirs actuals)
include shared

theorem passesAt_of_partner (aligned : Aligned mine theirs actuals) {place other : Nat}
    (partner : Partner mine theirs actuals place other) (passes : passesAt theirs other = true) :
    passesAt mine place = true := by
  have passesMine := (aligned.passed other).trans passes
  obtain ⟨actual, isPositional⟩ := aligned.given other passesMine
  obtain ⟨early, isGiven⟩ := (positional_eq_some_iff other actual).mp isPositional
  have itself : Partner mine theirs actuals other other :=
    ⟨other, actual, goesTo_of_lt early isGiven, goesTo_of_lt early isGiven⟩
  rwa [shared.partner_single partner itself]

theorem not_distinguishedByObjects (aligned : Aligned mine theirs actuals) :
    distinguishedByObjects mine theirs = false := by
  rw [distinguishedByObjects, List.any_eq_false]
  intro object member
  rw [decide_eq_true_eq, Nat.not_lt, requiredObjects, unpassedObjects, countP_objects, countP_objects]
  refine countP_le_countP_of_partner (Partner mine theirs actuals)
    (fun _ _ _ => shared.partner_single) fun place dummy present test => ?_
  simp only [Bool.and_eq_true, Bool.not_eq_true', Option.any_eq_true] at test
  obtain ⟨⟨required, unpassed⟩, similar, isObject, compatible⟩ := test
  obtain ⟨other, counterpart, presentOther, isPartner, alike⟩ :=
    shared.exists_partner present required
  obtain ⟨found, isFound, indistinct⟩ := Dummy.object?_of_not_distinguishable alike isObject
  have unpassedOther : counterpart.pass = false := by
    refine Bool.eq_false_iff.mpr fun passes => ?_
    have passesMine := shared.passesAt_of_partner aligned isPartner (by simpa [passesAt, presentOther] using passes)
    simp [passesAt, present, unpassed] at passesMine
  have apart := aligned.togetherMine object member similar
    (mem_objects present (by simp [required, unpassed]) isObject) found
    (mem_objects presentOther (by simp [unpassedOther]) isFound) compatible indistinct
  exact ⟨other, counterpart, presentOther, by simp [unpassedOther, isFound, apart], isPartner⟩

theorem not_differsFrom_of_lt (ungapped : Ungapped mine actuals) (present : mine[place]? = some dummy)
    (required : dummy.isRequired = true) (early : place < (positional actuals).length) :
    differsFrom dummy theirs[place]? = false := by
  obtain ⟨index, actual, goes⟩ := shared.requiredMine place dummy present required
  have earlyIndex := ungapped.index_lt shared.matchesMine goes early
  obtain ⟨other, counterpart, presentOther, goesOther, alike⟩ :=
    shared.exists_counterpart goes present
  have samePlace := goes.2.symm.trans (goesTo_of_lt earlyIndex goes.1).2
  have sameOther := goesOther.2.symm.trans (goesTo_of_lt earlyIndex goes.1).2
  rw [Option.some_inj] at samePlace sameOther
  rw [samePlace, ← sameOther, presentOther]
  exact alike

theorem not_differsFrom_of_not_lt (present : mine[place]? = some dummy)
    (required : dummy.isRequired = true) (late : ¬ place < (positional actuals).length) :
    differsFrom dummy (theirs.find? fun other =>
      !dummy.name.isEmpty && other.name == dummy.name) = false := by
  obtain ⟨index, actual, goes⟩ := shared.requiredMine place dummy present required
  obtain ⟨other, counterpart, presentOther, goesOther, alike⟩ :=
    shared.exists_counterpart goes present
  rcases goesTo_iff.mp goes with ⟨-, ⟨early, rfl⟩ | ⟨lateIndex, keyword, named, found⟩⟩
  · exact absurd early late
  · rcases goesTo_iff.mp goesOther with ⟨-, ⟨early, -⟩ | ⟨-, again, namedAgain, foundOther⟩⟩
    · exact absurd early lateIndex
    · obtain rfl : keyword = again := Option.some_inj.mp (named.symm.trans namedAgain)
      obtain ⟨self, presentSelf, isName⟩ := name_of_placeOf? found
      obtain rfl : dummy = self := Option.some_inj.mp (present.symm.trans presentSelf)
      obtain ⟨target, presentTarget, isFound⟩ := find?_of_placeOf? foundOther
      obtain rfl : counterpart = target :=
        Option.some_inj.mp (presentOther.symm.trans presentTarget)
      rw [isName, isFound]
      exact alike

theorem not_distinguishedByOrder (aligned : Aligned mine theirs actuals) :
    distinguishedByOrder mine theirs = false := by
  rw [distinguishedByOrder]
  split
  next first last isFirst isLast =>
    rw [decide_eq_false_iff_not]
    intro ordered
    obtain ⟨offset, dummy, rfl, present, required, differs⟩ :=
      differsFrom_of_firstByPosition? aligned.passed isFirst
    obtain ⟨named, presentNamed, differsNamed⟩ := differsByName_of_lastByName? isLast
    simp only [differsByName, Bool.and_eq_true] at differsNamed
    obtain ⟨⟨-, requiredNamed⟩, differsNamed⟩ := differsNamed
    by_cases early : offset < (positional actuals).length
    · rw [shared.not_differsFrom_of_lt aligned.ungappedMine present required early] at differs
      exact Bool.false_ne_true differs
    · rw [shared.not_differsFrom_of_not_lt presentNamed requiredNamed (by omega)] at differsNamed
      exact Bool.false_ne_true differsNamed
  · rfl

theorem not_distinguishedByPassedObject (aligned : Aligned mine theirs actuals) :
    distinguishedByPassedObject mine theirs = false := by
  rw [distinguishedByPassedObject]
  split
  next dummy counterpart isMine isTheirs =>
    obtain ⟨place, present, atPlace, before⟩ := passesAt_of_passedObject? isMine
    obtain ⟨other, presentOther, atOther, beforeOther⟩ := passesAt_of_passedObject? isTheirs
    have same : place = other := by
      rcases Nat.lt_trichotomy place other with less | same | greater
      · rw [aligned.passed place, beforeOther place less] at atPlace
        exact absurd atPlace Bool.false_ne_true
      · exact same
      · rw [← aligned.passed other, before other greater] at atOther
        exact absurd atOther Bool.false_ne_true
    subst same
    obtain ⟨actual, isPositional⟩ := aligned.given place atPlace
    obtain ⟨early, isGiven⟩ := (positional_eq_some_iff place actual).mp isPositional
    exact shared.alike place place place actual _ _ (goesTo_of_lt early isGiven)
      (goesTo_of_lt early isGiven) present presentOther
  · rfl

end Shared

end Procedure

namespace Call

open Arrangement Procedure

/-- A list from which it can be seen which of two procedures is meant, since each of its arguments shows
to which of its two dummy arguments it belongs. -/
structure Discerning (table : Table) (first second : Procedure) (actuals : Actuals) : Prop
    extends Aligned first.dummies second.dummies actuals where
  arguments : ∀ index place other actual dummy counterpart,
    GoesTo first.dummies actuals index place actual →
    GoesTo second.dummies actuals index other actual →
    first.dummies[place]? = some dummy → second.dummies[other]? = some counterpart →
    actual.Discerns table dummy counterpart

variable {table : Table} {first second : Procedure} {actuals : Actuals}

theorem accepted_of_fitsGeneric (fits : fitsGeneric table first actuals = true) :
    Accepted table first none actuals := by
  rw [fitsGeneric, Bool.not_eq_true', List.any_eq_false] at fits
  exact accepted_of_no_error fun finding member => Bool.eq_false_iff.mpr (fits finding member)

theorem exists_goesTo_of_fitsGeneric (fits : fitsGeneric table first actuals = true) (place : Nat)
    (dummy : Dummy) (present : first.dummies[place]? = some dummy) (required : dummy.isRequired = true) :
    ∃ index actual, GoesTo first.dummies actuals index place actual := by
  rw [Dummy.isRequired, Bool.not_eq_true'] at required
  exact (accepted_of_fitsGeneric fits).required place dummy present required

theorem shared_of_fitsGeneric (plainFirst : first.isElemental = false)
    (plainSecond : second.isElemental = false) (discerning : Discerning table first second actuals)
    (fitsFirst : fitsGeneric table first actuals = true) (fitsSecond : fitsGeneric table second actuals = true) :
    Shared first.dummies second.dummies actuals := by
  have acceptedFirst := accepted_of_fitsGeneric fitsFirst
  have acceptedSecond := accepted_of_fitsGeneric fitsSecond
  refine ⟨acceptedFirst.arranged, acceptedSecond.arranged, exists_goesTo_of_fitsGeneric fitsFirst,
    exists_goesTo_of_fitsGeneric fitsSecond, ?_⟩
  intro index place other actual dummy counterpart goes goesOther present presentOther
  have cleanFirst := acceptedFirst.arguments index place actual dummy goes present
  have cleanSecond := acceptedSecond.arguments index other actual counterpart goesOther presentOther
  rw [plainFirst] at cleanFirst
  rw [plainSecond] at cleanSecond
  exact Dummy.not_distinguishable_of_noError (discerning.arguments index place other actual dummy
    counterpart goes goesOther present presentOther) cleanFirst cleanSecond

theorem not_distinguishable_of_shared (sameKind : first.isFunction = second.isFunction)
    (aligned : Aligned first.dummies second.dummies actuals) (shared : Shared first.dummies second.dummies actuals) :
    first.distinguishable second = false := by
  have backward := shared.symm
  have countFirst : ¬ requiredCount first.dummies > second.dummies.length :=
    Nat.not_lt.mpr shared.requiredCount_le
  have countSecond : ¬ requiredCount second.dummies > first.dummies.length :=
    Nat.not_lt.mpr backward.requiredCount_le
  simp [Procedure.distinguishable, distinguishedByCounts, sameKind, countFirst, countSecond,
    shared.not_distinguishedByObjects aligned, shared.not_distinguishedByProcedures,
    backward.not_distinguishedByObjects aligned.symm, backward.not_distinguishedByProcedures,
    shared.not_distinguishedByPassedObject aligned, shared.not_distinguishedByOrder aligned,
    backward.not_distinguishedByOrder aligned.symm]

theorem not_fitsGeneric_both (plainFirst : first.isElemental = false)
    (plainSecond : second.isElemental = false) (sameKind : first.isFunction = second.isFunction)
    (distinguishable : first.distinguishable second = true) (discerning : Discerning table first second actuals) :
    ¬ (fitsGeneric table first actuals = true ∧ fitsGeneric table second actuals = true) := by
  rintro ⟨fitsFirst, fitsSecond⟩
  have shared := shared_of_fitsGeneric plainFirst plainSecond discerning fitsFirst fitsSecond
  rw [not_distinguishable_of_shared sameKind discerning.toAligned shared] at distinguishable
  exact Bool.false_ne_true distinguishable

theorem find?_eq_of_perm {α : Type} {test : α → Bool} {elements reordered : List α} (perm : elements.Perm reordered)
    (unique : ∀ first ∈ elements, ∀ second ∈ elements, test first = true → test second = true →
      first = second) : elements.find? test = reordered.find? test := by
  cases found : elements.find? test with
  | none =>
    symm
    rw [List.find?_eq_none] at found ⊢
    exact fun element member => found element (perm.mem_iff.mpr member)
  | some element =>
    have passes := List.find?_some found
    have member := List.mem_of_find?_eq_some found
    cases foundReordered : reordered.find? test with
    | none =>
      rw [List.find?_eq_none] at foundReordered
      exact absurd passes (foundReordered element (perm.mem_iff.mp member))
    | some other =>
      have memberOther := perm.mem_iff.mpr (List.mem_of_find?_eq_some foundReordered)
      rw [unique element member other memberOther passes (List.find?_some foundReordered)]

/-- No list that discerns two distinguishable procedures is accepted by both. If the specific procedures
of a generic are distinguishable and a list discerns any two of them, their order does not matter. -/
theorem generic_resolution_unambiguous (table : Table) (actuals : Actuals) :
    (∀ first second : Procedure, first.isElemental = false → second.isElemental = false →
      first.isFunction = second.isFunction → first.distinguishable second = true →
      Discerning table first second actuals →
      ¬ (fitsGeneric table first actuals = true ∧ fitsGeneric table second actuals = true)) ∧
    ∀ generic reordered isFunction, (table.specifics generic).Perm (table.specifics reordered) →
      (table.specifics generic).Pairwise (fun one other => one ≠ other →
        ∀ first second, table.procedure one = some first → table.procedure other = some second →
          first.isElemental = false ∧ second.isElemental = false ∧
            first.distinguishable second = true ∧ Discerning table first second actuals) →
      table.specificFor? generic actuals isFunction = table.specificFor? reordered actuals isFunction := by
  refine ⟨fun first second => not_fitsGeneric_both, ?_⟩
  intro generic reordered isFunction perm apart
  have unique : (table.specifics generic).Pairwise fun one other =>
      table.fits isFunction one actuals = true → table.fits isFunction other actuals = true → one = other := by
    refine apart.imp fun {one other} apart fitsOne fitsOther => ?_
    refine Classical.byContradiction fun differ => ?_
    obtain ⟨first, isFirst, kindFirst, acceptsFirst⟩ := Table.procedure_of_fits fitsOne
    obtain ⟨second, isSecond, kindSecond, acceptsSecond⟩ := Table.procedure_of_fits fitsOther
    obtain ⟨plainFirst, plainSecond, distinguishable, discerning⟩ :=
      apart differ first second isFirst isSecond
    exact not_fitsGeneric_both plainFirst plainSecond (kindFirst.trans kindSecond.symm)
      distinguishable discerning ⟨acceptsFirst, acceptsSecond⟩
  have symmetric : Std.Symm fun one other => table.fits isFunction one actuals = true →
      table.fits isFunction other actuals = true → one = other :=
    ⟨fun one other same fitsOther fitsOne => (same fitsOne fitsOther).symm⟩
  refine find?_eq_of_perm perm fun one memberOne other memberOther => ?_
  exact unique.forall_of_forall (fun one _ _ _ => rfl) memberOne memberOther

section Overloads

def realArray (extents : List Int) : TypeAndShape :=
  .ofShape (.plain .real 4) (extents.map fun extent => some (.int extent))

def declaredArray (name : String) (extents : List Int) : Symbol :=
  ⟨name, .empty, .empty, .object ⟨some (.intrinsic .real 4 none),
    extents.map fun extent => .explicit none (.int extent), [], none, true⟩, Table.global, ⟨0, 1⟩⟩

def declaredSubroutine (name : String) (dummy : SymbolId) : Symbol :=
  ⟨name, .empty, .empty, .subprogram ⟨[some dummy], none, false, false, none⟩, Table.global, ⟨0, 1⟩⟩

def declaredGeneric (name : String) (specifics : List SymbolId) : Symbol :=
  ⟨name, .empty, .empty, .generic ⟨.name, specifics⟩, Table.global, ⟨0, 1⟩⟩

/-- An array `x`, subroutines that take a vector, a matrix and an integer, and generics that name two of
them in either order. -/
def overloads : Table :=
  ⟨#[declaredArray "x" [4], declaredArray "v" [4], declaredSubroutine "vector" ⟨1⟩,
    declaredArray "m" [2, 2], declaredSubroutine "matrix" ⟨3⟩,
    ⟨"n", .empty, .empty, .object ⟨some (.intrinsic .integer 4 none), [], [], none, true⟩, Table.global, ⟨0, 1⟩⟩,
    declaredSubroutine "integer" ⟨5⟩, declaredGeneric "vectorOrMatrix" [⟨2⟩, ⟨4⟩],
    declaredGeneric "matrixOrVector" [⟨4⟩, ⟨2⟩], declaredGeneric "vectorOrInteger" [⟨2⟩, ⟨6⟩],
    declaredGeneric "integerOrVector" [⟨6⟩, ⟨2⟩]], #[.globalScope]⟩

def subroutineOf (dummies : List Dummy) : Procedure :=
  ⟨none, dummies, .ofList [.subroutine]⟩

def takesVector : Procedure :=
  subroutineOf [.ofObject "v" (.ofTypeAndShape (realArray [4]))]

def takesMatrix : Procedure :=
  subroutineOf [.ofObject "m" (.ofTypeAndShape (realArray [2, 2]))]

def takesInteger : Procedure :=
  subroutineOf [.ofObject "n" (.ofTypeAndShape (.scalar (.plain .integer 4)))]

def givesArray : Actuals :=
  [some (.ofExpr (.whole ⟨0⟩))]

theorem goesTo_givesArray (goes : GoesTo dummies givesArray index place actual) :
    index = 0 ∧ place = 0 ∧ actual = .ofExpr (.whole ⟨0⟩) := by
  obtain ⟨given, isPlace⟩ := goes
  cases index with
  | zero =>
    have sameActual : Actual.ofExpr (.whole ⟨0⟩) = actual :=
      Option.some_inj.mp (Option.some_inj.mp given)
    have samePlace : 0 = place := Option.some_inj.mp isPlace
    exact ⟨rfl, samePlace.symm, sameActual.symm⟩
  | succ index => simp [givesArray] at given

theorem discerning_vector_integer : Discerning overloads takesVector takesInteger givesArray where
  passed place := by cases place <;> rfl
  given place passes := by
    cases place <;> simp [passesAt, takesVector, subroutineOf, Dummy.ofObject] at passes
  ungappedMine := .of_given (by decide)
  ungappedTheirs := .of_given (by decide)
  togetherMine := by unfold AlikeTogether; decide
  togetherTheirs := by unfold AlikeTogether; decide
  arguments index place other actual dummy counterpart goes goesOther present presentOther := by
    obtain ⟨rfl, rfl, rfl⟩ := goesTo_givesArray goes
    obtain ⟨-, rfl, -⟩ := goesTo_givesArray goesOther
    obtain rfl := Option.some_inj.mp present
    obtain rfl := Option.some_inj.mp presentOther
    refine ⟨rfl, fun expr given => ?_⟩
    obtain rfl := Option.some_inj.mp given
    have typed : overloads.exprTypeAndShape (.whole ⟨0⟩) = some (realArray [4]) := rfl
    refine ⟨rfl, rfl, ⟨fun found isFound => ?_, fun found isFound => ?_, fun id isWhole => ?_⟩⟩
    · obtain rfl := Option.some_inj.mp (typed.symm.trans isFound)
      simp only [List.forall_mem_cons]
      exact ⟨fun _ => rfl, fun impossible => absurd impossible (by decide), by simp⟩
    · obtain rfl := Option.some_inj.mp (typed.symm.trans isFound)
      intro object _ type name isDerived
      exact absurd isDerived (by simp [realArray, TypeAndShape.ofShape, DynamicType.derivedName?])
    · cases isWhole
      decide

theorem generic_resolution_unambiguous_vector_integer :
    Discerning overloads takesVector takesInteger givesArray ∧
    ¬ (fitsGeneric overloads takesVector givesArray = true ∧ fitsGeneric overloads takesInteger givesArray = true) ∧
    overloads.specificFor? ⟨9⟩ givesArray false = overloads.specificFor? ⟨10⟩ givesArray false := by
  have forward := discerning_vector_integer
  refine ⟨forward, ?_, ?_⟩
  · exact (generic_resolution_unambiguous overloads givesArray).1 takesVector takesInteger
      (by decide) (by decide) (by decide) (by decide) forward
  · refine (generic_resolution_unambiguous overloads givesArray).2 ⟨9⟩ ⟨10⟩ false
      (List.Perm.swap _ _ _) ?_
    have vector : overloads.procedure ⟨2⟩ = some takesVector := rfl
    have integer : overloads.procedure ⟨6⟩ = some takesInteger := rfl
    refine List.pairwise_pair.mpr fun _ first second isFirst isSecond => ?_
    obtain rfl := Option.some_inj.mp (vector.symm.trans isFirst)
    obtain rfl := Option.some_inj.mp (integer.symm.trans isSecond)
    exact ⟨by decide, by decide, by decide, forward⟩

/-- Arrays of explicit shape are told apart by their ranks, but elements are passed to them in sequence,
whatever the rank of the argument. Which procedure is referenced then depends on their order. -/
theorem generic_resolution_ambiguous_in_sequence :
    takesVector.isElemental = false ∧ takesMatrix.isElemental = false ∧
      takesVector.isFunction = takesMatrix.isFunction ∧
      takesVector.distinguishable takesMatrix = true ∧
      fitsGeneric overloads takesVector givesArray = true ∧
      fitsGeneric overloads takesMatrix givesArray = true ∧
      overloads.specificFor? ⟨7⟩ givesArray false ≠ overloads.specificFor? ⟨8⟩ givesArray false := by
  decide

def scalarOf (type : DynamicType) : DataObject :=
  .ofTypeAndShape (.scalar type)

def pointerTo (type : DynamicType) : Procedure :=
  subroutineOf [.ofObject "p" { scalarOf type with attributes := .ofList [.pointer] }]

/-- A null pointer does not show its type. -/
example : (pointerTo (.plain .real 4)).distinguishable (pointerTo (.plain .integer 4)) = true ∧
    fitsGeneric .empty (pointerTo (.plain .real 4)) [some (.ofExpr .null)] = true ∧
    fitsGeneric .empty (pointerTo (.plain .integer 4)) [some (.ofExpr .null)] = true := by
  decide

def twoScalars (first second : DynamicType) : Procedure :=
  subroutineOf [.ofObject "a" (scalarOf first), .ofObject "b" (scalarOf second)]

/-- An integer and `CLASS(*)` are similar, but `CLASS(*)` is also similar to a real. -/
example :
    let anySecond := twoScalars (.plain .integer 4) .unlimited
    let realSecond := twoScalars (.plain .integer 4) (.plain .real 4)
    let actuals := [some (.ofExpr (.int 1)), some (.ofExpr (.literal (.real "2.0" 4)))]
    anySecond.distinguishable realSecond = true ∧
      fitsGeneric .empty anySecond actuals = true ∧ fitsGeneric .empty realSecond actuals = true := by
  decide

end Overloads

end Call

end FortranInterface
