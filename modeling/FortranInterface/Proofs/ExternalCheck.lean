import FortranInterface.Call.Check
import FortranInterface.Proofs.Arrangement

/-!
What the rules for implicit interfaces say of a reference to an external procedure whose definition is
known. They are applied to the arguments that are left after these have been arranged for the dummy
arguments, and arguments that find no place are not among them. Of the procedure itself they name each
property that rules out an implicit interface.
-/

namespace FortranInterface

variable {actual : Actual}

namespace Arrangement

def IsFirst (actuals : Actuals) (index : Nat) (keyword : String) : Prop :=
  ∀ earlier < index, ∀ actual, actuals[earlier]? = some (some actual) → actual.keyword ≠ some keyword

def NamesVacant (dummies : List Dummy) (actuals : Actuals) (keyword : String) : Prop :=
  ∃ place, placeOf? dummies keyword = some place ∧ ∀ actual, (positional actuals)[place]? ≠ some (some actual)

/-- The argument at an index of the list is still there when the list has been arranged: it goes by its
place, or it is the first one with its keyword and the keyword names a vacant place. A list with too many
arguments that go by their places stays as it is. -/
def Kept (dummies : List Dummy) (actuals : Actuals) (index : Nat) (actual : Actual) : Prop :=
  actuals[index]? = some (some actual) ∧
    (dummies.length < (positional actuals).length ∨ index < (positional actuals).length ∨
      ∃ keyword, actual.keyword = some keyword ∧ IsFirst actuals index keyword ∧ NamesVacant dummies actuals keyword)

variable {dummies : List Dummy} {actuals : Actuals} {arrangement : Arrangement}
  {entries : List (String × Actual)}

theorem isFirst_zero (actuals : Actuals) (keyword : String) : IsFirst actuals 0 keyword := by
  intro earlier before
  omega

theorem isFirst_cons_succ (slot : Option Actual) (actuals : Actuals) (index : Nat) (keyword : String) :
    IsFirst (slot :: actuals) (index + 1) keyword ↔
      slot.bind Actual.keyword ≠ some keyword ∧ IsFirst actuals index keyword := by
  constructor
  · intro first
    refine ⟨?_, fun earlier before actual given => ?_⟩
    · cases slot with
      | none => simp
      | some actual => exact first 0 (by omega) actual rfl
    · exact first (earlier + 1) (by omega) actual (by simpa using given)
  · rintro ⟨differs, first⟩ earlier before actual given
    cases earlier with
    | zero =>
      obtain rfl : slot = some actual := by simpa using given
      exact differs
    | succ earlier => exact first earlier (by omega) actual (by simpa using given)

theorem exists_isFirst_cons (slot : Option Actual) (actuals : Actuals) (keyword : String) (actual : Actual) :
    (∃ index, (slot :: actuals)[index]? = some (some actual) ∧ actual.keyword = some keyword ∧
        IsFirst (slot :: actuals) index keyword) ↔
      slot = some actual ∧ actual.keyword = some keyword ∨
        slot.bind Actual.keyword ≠ some keyword ∧
          ∃ index, actuals[index]? = some (some actual) ∧ actual.keyword = some keyword ∧
            IsFirst actuals index keyword := by
  constructor
  · rintro ⟨index, given, named, first⟩
    cases index with
    | zero => exact .inl ⟨by simpa using given, named⟩
    | succ index =>
      obtain ⟨differs, first⟩ := (isFirst_cons_succ slot actuals index keyword).mp first
      exact .inr ⟨differs, index, by simpa using given, named, first⟩
  · rintro (⟨rfl, named⟩ | ⟨differs, index, given, named, first⟩)
    · exact ⟨0, rfl, named, isFirst_zero _ _⟩
    · refine ⟨index + 1, by simpa using given, named, ?_⟩
      exact (isFirst_cons_succ slot actuals index keyword).mpr ⟨differs, first⟩

theorem mem_keywordActuals_iff (place : Nat) (seen : List String) (actuals : Actuals)
    (keyword : String) (actual : Actual) :
    (keyword, actual) ∈ (keywordActuals place seen actuals).1 ↔
      keyword ∉ seen ∧ ∃ index, actuals[index]? = some (some actual) ∧
        actual.keyword = some keyword ∧ IsFirst actuals index keyword := by
  fun_induction keywordActuals place seen actuals with
  | case1 => simp
  | case2 place seen actuals ih =>
    rw [ih, exists_isFirst_cons]
    simp
  | case3 place seen given actuals word named used others ih =>
    simp only [others, ih, exists_isFirst_cons]
    grind
  | case4 place seen given actuals word named fresh others ih =>
    simp only [others, List.mem_cons, ih, exists_isFirst_cons]
    grind
  | case5 place seen given actuals unnamed others ih =>
    simp only [others, ih, exists_isFirst_cons]
    grind

theorem nodup_keywordActuals (place : Nat) (seen : List String) (actuals : Actuals) :
    ((keywordActuals place seen actuals).1.map Prod.fst).Nodup := by
  fun_induction keywordActuals place seen actuals with
  | case1 => exact List.nodup_nil
  | case2 place seen actuals ih => exact ih
  | case3 | case5 => assumption
  | case4 place seen given actuals word named fresh others ih =>
    refine List.nodup_cons.mpr ⟨fun again => ?_, ih⟩
    obtain ⟨⟨same, actual⟩, member, rfl⟩ := List.mem_map.mp again
    have unseen := ((mem_keywordActuals_iff _ _ _ _ _).mp member).1
    exact unseen List.mem_cons_self

theorem namesVacant_iff (short : (positional actuals).length ≤ dummies.length) (keyword : String) :
    NamesVacant dummies actuals keyword ↔
      ∃ place, placeOf? dummies keyword = some place ∧ (initialSlots dummies actuals)[place]? = some none := by
  refine exists_congr fun place => and_congr_right fun found => ?_
  exact (initialSlots_vacant_iff short (placeOf?_lt found)).symm

theorem getElem?_keywordPart (actuals : Actuals) (offset : Nat) :
    actuals[(positional actuals).length + offset]? = (keywordPart actuals)[offset]? := by
  rw [getElem?_eq_ite, if_neg (by omega), Nat.add_sub_cancel_left]

theorem exists_offset_of_keyword {index : Nat} {keyword : String} (given : actuals[index]? = some (some actual))
    (named : actual.keyword = some keyword) :
    ∃ offset, index = (positional actuals).length + offset ∧ (keywordPart actuals)[offset]? = some (some actual) := by
  by_cases before : index < (positional actuals).length
  · rw [keyword_eq_none_of_lt before given] at named
    simp at named
  · obtain ⟨offset, rfl⟩ := Nat.exists_eq_add_of_le (Nat.le_of_not_lt before)
    exact ⟨offset, rfl, (getElem?_keywordPart actuals offset).symm.trans given⟩

theorem exists_isFirst_keywordPart (keyword : String) (actual : Actual) :
    (∃ index, (keywordPart actuals)[index]? = some (some actual) ∧ actual.keyword = some keyword ∧
        IsFirst (keywordPart actuals) index keyword) ↔
      ∃ index, actuals[index]? = some (some actual) ∧ actual.keyword = some keyword ∧
        IsFirst actuals index keyword := by
  constructor
  · rintro ⟨offset, given, named, first⟩
    refine ⟨_, (getElem?_keywordPart actuals offset).trans given, named, ?_⟩
    intro earlier before other present again
    obtain ⟨gap, rfl, later⟩ := exists_offset_of_keyword present again
    exact first gap (by omega) other later again
  · rintro ⟨index, given, named, first⟩
    obtain ⟨offset, rfl, late⟩ := exists_offset_of_keyword given named
    refine ⟨offset, late, named, fun gap before other present => ?_⟩
    exact first _ (by omega) other ((getElem?_keywordPart actuals gap).trans present)

theorem mem_slots_iff (dummies : List Dummy) (actuals : Actuals) (actual : Actual) :
    some actual ∈ (ofActuals dummies actuals).slots ↔ ∃ index, Kept dummies actuals index actual := by
  by_cases short : (positional actuals).length ≤ dummies.length
  · have distinct := nodup_keywordActuals ((positional actuals).length + 1) [] (keywordPart actuals)
    rw [ofActuals_of_short short, List.mem_iff_getElem?]
    simp only [slots_foldl_putKeyword_iff distinct, initialSlots_eq_some_iff, positional_eq_some_iff,
      mem_keywordActuals_iff, exists_isFirst_keywordPart, Kept, namesVacant_iff short]
    constructor
    · rintro ⟨place, ⟨before, given⟩ | ⟨vacant, keyword, ⟨-, index, given, named, first⟩, found⟩⟩
      · exact ⟨place, given, .inr (.inl before)⟩
      · exact ⟨index, given, .inr (.inr ⟨keyword, named, first, place, found, vacant⟩)⟩
    · rintro ⟨index, given, tooMany | before | ⟨keyword, named, first, place, found, vacant⟩⟩
      · omega
      · exact ⟨index, .inl ⟨before, given⟩⟩
      · exact ⟨place, .inr ⟨vacant, keyword, ⟨by simp, index, given, named, first⟩, found⟩⟩
  · have tooMany : dummies.length < (positional actuals).length := by omega
    rw [(ofActuals_of_long tooMany).1, List.mem_iff_getElem?]
    simp only [Kept, tooMany, true_or, and_true]

theorem Matches.kept (fits : Matches dummies actuals) {index : Nat} (given : actuals[index]? = some (some actual)) :
    Kept dummies actuals index actual := by
  refine ⟨given, .inr ?_⟩
  by_cases before : index < (positional actuals).length
  · exact .inl before
  · have member := mem_keywordPart_of_not_lt before given
    obtain ⟨keyword, named⟩ := Option.ne_none_iff_exists'.mp (fits.keyed actual member)
    have vacant := fits.vacant keyword (mem_keywords_of_mem member named)
    refine .inr ⟨keyword, named, fun earlier ahead other present again => ?_, vacant⟩
    obtain ⟨offset, rfl, late⟩ := exists_offset_of_keyword given named
    obtain ⟨gap, rfl, later⟩ := exists_offset_of_keyword present again
    have same := index_eq_of_keyword_eq fits.distinct late later named again
    omega

end Arrangement

namespace Call

open Arrangement CallFault

variable {table : Table} {procedure unknown : Procedure} {scope : ScopeId} {actuals : Actuals}
  {message : Message}

def argumentMessages (table : Table) (actual : Actual) : List Message :=
  (findingsAt actual.span (implicitArgumentFaults table actual)).map CallFinding.message

theorem mem_implicitFindings_iff (actuals : Actuals) :
    message ∈ (implicitFindings table actuals).map CallFinding.message ↔
      ∃ actual, some actual ∈ actuals ∧ message ∈ argumentMessages table actual := by
  simp only [implicitFindings, argumentMessages, List.map_flatMap, List.mem_flatMap, List.mem_filterMap,
    id_eq, exists_eq_right]

/-! The words for faults of a procedure and of its arguments differ, in most cases by their first letters. -/

def initial? (fault : CallFault) : Option Char :=
  fault.text.toList.head?

theorem head?_append {first rest : String} {letter : Char} (begins : first.toList.head? = some letter) :
    (first ++ rest).toList.head? = some letter := by
  rw [String.toList_append, List.head?_append, begins, Option.some_or]

theorem initial?_keywordImplicit (keyword : String) : initial? (keywordImplicit keyword) = some 'K' :=
  head?_append (head?_append (by decide : "Keyword '".toList.head? = some 'K'))

theorem initial?_dummyImplicit (label : DummyLabel) (reason : String) :
    initial? (dummyImplicit label reason) = some 'D' :=
  head?_append (head?_append (by decide : "Dummy".toList.head? = some 'D'))

theorem mem_implicitFaults {fault : CallFault} (member : fault ∈ implicitFaults procedure) :
    fault ∈ [elementalImplicit, bindCImplicit, resultImplicit] ∨
      ∃ label reason, fault = dummyImplicit label reason := by
  simp only [implicitFaults, when, List.mem_append, List.mem_filterMap, Option.map_eq_some_iff] at member
  grind

theorem mem_implicitArgumentFaults {fault : CallFault} (member : fault ∈ implicitArgumentFaults table actual) :
    (∃ keyword, fault = keywordImplicit keyword) ∨ ∃ property, fault = actualImplicit property := by
  simp only [implicitArgumentFaults, List.mem_append, Option.mem_toList, Option.map_eq_some_iff, List.mem_map] at member
  grind

theorem text_ne_of_mem_implicitFaults {own fault : CallFault} (ofProcedure : own ∈ implicitFaults procedure)
    (ofArgument : fault ∈ implicitArgumentFaults table actual) : own.text ≠ fault.text := by
  have apart : initial? own ≠ initial? fault → own.text ≠ fault.text := fun differ same =>
    differ (congrArg (·.toList.head?) same)
  have plain : ∀ property, ∀ own ∈ [elementalImplicit, bindCImplicit, resultImplicit],
      own.text ≠ (actualImplicit property).text := by
    intro property
    cases property <;> decide
  have notKeyword : ∀ own ∈ [elementalImplicit, bindCImplicit, resultImplicit], initial? own ≠ some 'K' := by decide
  have notDummy : ∀ property, initial? (actualImplicit property) ≠ some 'D' := by
    intro property
    cases property <;> decide
  rcases mem_implicitFaults ofProcedure with isPlain | ⟨label, reason, rfl⟩ <;>
    rcases mem_implicitArgumentFaults ofArgument with ⟨keyword, rfl⟩ | ⟨property, rfl⟩
  · exact apart (by rw [initial?_keywordImplicit]; exact notKeyword own isPlain)
  · exact plain property own isPlain
  · exact apart (by rw [initial?_keywordImplicit, initial?_dummyImplicit]; decide)
  · exact apart (by rw [initial?_dummyImplicit]; exact (notDummy property).symm)

theorem error_of_mem_argumentMessages (raised : message ∈ argumentMessages table actual) :
    message.severity = .error ∧ ∀ procedure,
      message ∉ (findingsAt none (implicitFaults procedure)).map CallFinding.message := by
  simp only [argumentMessages, findingsAt, List.map_map, List.mem_map] at raised
  obtain ⟨fault, member, rfl⟩ := raised
  refine ⟨?_, fun procedure again => ?_⟩
  · rcases mem_implicitArgumentFaults member with ⟨keyword, rfl⟩ | ⟨property, rfl⟩ <;> rfl
  · simp only [findingsAt, List.map_map, List.mem_map] at again
    obtain ⟨own, ofProcedure, same⟩ := again
    exact text_ne_of_mem_implicitFaults ofProcedure member (congrArg Message.text same)

theorem slots_checkExplicit (table : Table) (procedure : Procedure) (scope : Option ScopeId) (actuals : Actuals) :
    (checkExplicit table procedure scope actuals).slots = (ofActuals procedure.dummies actuals).slots := by
  rw [checkExplicit]
  split <;> rfl

theorem mem_check_implicit_iff (implicit : unknown.hasExplicitInterface = false) :
    message ∈ check table unknown scope false actuals ↔
      ∃ (index : Nat) (actual : Actual), actuals[index]? = some (some actual) ∧
        message ∈ argumentMessages table actual := by
  have asImplicit : check table unknown scope false actuals =
      (implicitFindings table actuals).map CallFinding.message := by
    simp [check, implicit, implicitMessages]
  rw [asImplicit, mem_implicitFindings_iff]
  simp only [List.mem_iff_getElem? (l := actuals)]
  constructor
  · rintro ⟨actual, ⟨index, given⟩, raised⟩
    exact ⟨index, actual, given, raised⟩
  · rintro ⟨index, actual, given, raised⟩
    exact ⟨actual, ⟨index, given⟩, raised⟩

/-- Of what the rules say of arguments, a check against the definition of an external procedure shows what
concerns the arguments that are kept. -/
theorem mem_check_external_iff (explicit : procedure.hasExplicitInterface = true)
    (raised : message ∈ argumentMessages table actual) :
    message ∈ check table procedure scope true actuals ↔
      ∃ index kept, Kept procedure.dummies actuals index kept ∧ message ∈ argumentMessages table kept := by
  obtain ⟨isError, notOwn⟩ := error_of_mem_argumentMessages raised
  have notAttached : message ∉
      explicitMessages true (checkExplicit table procedure (some scope) actuals).findings := by
    intro member
    rw [explicitMessages] at member
    split at member
    · obtain rfl := List.mem_singleton.mp member
      simp [wouldBeInError, Message.warning, Message.attach] at isError
    next empty => simp_all
  rw [check, if_pos explicit, List.mem_append, or_iff_right notAttached, if_pos rfl, implicitMessages,
    if_pos rfl, List.map_append, List.mem_append, or_iff_right (notOwn procedure), slots_checkExplicit,
    mem_implicitFindings_iff]
  simp only [mem_slots_iff]
  constructor
  · rintro ⟨kept, ⟨index, isKept⟩, again⟩
    exact ⟨index, kept, isKept, again⟩
  · rintro ⟨index, kept, isKept, again⟩
    exact ⟨kept, ⟨index, isKept⟩, again⟩

/-- A check against the definition of an external procedure shows all that is wrong with a reference under an
implicit interface exactly if each fault of an argument that finds no place is also one of an argument that is
kept. -/
theorem implicit_errors_shown_iff (explicit : procedure.hasExplicitInterface = true)
    (implicit : unknown.hasExplicitInterface = false) :
    (∀ message ∈ check table unknown scope false actuals,
        message ∈ check table procedure scope true actuals) ↔
      ∀ (index : Nat) (actual : Actual), actuals[index]? = some (some actual) →
        ¬ Kept procedure.dummies actuals index actual →
        ∀ message ∈ argumentMessages table actual, ∃ index kept,
          Kept procedure.dummies actuals index kept ∧ message ∈ argumentMessages table kept := by
  constructor
  · intro shown index actual given _ message raised
    refine (mem_check_external_iff explicit raised).mp (shown message ?_)
    exact (mem_check_implicit_iff implicit).mpr ⟨index, actual, given, raised⟩
  · intro covered message found
    obtain ⟨index, actual, given, raised⟩ := (mem_check_implicit_iff implicit).mp found
    refine (mem_check_external_iff explicit raised).mpr ?_
    by_cases kept : Kept procedure.dummies actuals index actual
    · exact ⟨index, actual, kept, raised⟩
    · exact covered index actual given kept message raised

def takesScalar : Procedure :=
  ⟨none, [.ofObject "a" (.ofTypeAndShape (.scalar (.plain .real 4)))], .ofList [.subroutine]⟩

def unknownInterface : Procedure :=
  ⟨none, [], .ofList [.implicitInterface, .subroutine]⟩

def oneKeyword (keyword : String) : Actuals :=
  [some ⟨some keyword, .expr (.literal (.real "1.0" 4)), false, none⟩]

theorem implicit_errors_shown_known_keyword :
    takesScalar.hasExplicitInterface = true ∧ unknownInterface.hasExplicitInterface = false ∧
      (check .empty unknownInterface Table.global false (oneKeyword "a")).length = 1 ∧
      ∀ message ∈ check .empty unknownInterface Table.global false (oneKeyword "a"),
        message ∈ check .empty takesScalar Table.global true (oneKeyword "a") := by
  have fits : Matches takesScalar.dummies (oneKeyword "a") := isComplete_iff.mp (by decide)
  refine ⟨by decide, by decide, by decide, ?_⟩
  refine (implicit_errors_shown_iff (by decide) (by decide)).mpr fun index actual given dropped => ?_
  exact absurd (fits.kept given) dropped

/-- The keyword `b=` finds no place: under an implicit interface it is an error, but nothing but a warning
is shown. -/
theorem implicit_error_hidden_unknown_keyword :
    (∃ message ∈ check .empty unknownInterface Table.global false (oneKeyword "b"),
        message.text = (keywordImplicit "b").text ∧
          message ∉ check .empty takesScalar Table.global true (oneKeyword "b")) ∧
      (check .empty takesScalar Table.global true (oneKeyword "b")).map Message.severity = [.warning] := by
  have onlyWarning : (check .empty takesScalar Table.global true (oneKeyword "b")).map
      Message.severity = [.warning] := by decide
  refine ⟨⟨_, List.mem_singleton_self _, rfl, fun shown => ?_⟩, onlyWarning⟩
  have isWarning := List.mem_map_of_mem (f := Message.severity) shown
  rw [onlyWarning] at isWarning
  simp [CallFinding.message, CallFault.severity] at isWarning

/-- How often a fault is found if each property of a procedure that rules out an implicit interface is reported once:
ELEMENTAL, BIND(C), a result that cannot be returned, and the reason of each data object that has one. -/
def obstacleCount (procedure : Procedure) : CallFault → Nat
  | elementalImplicit => if procedure.isElemental then 1 else 0
  | bindCImplicit => if procedure.isBindC then 1 else 0
  | resultImplicit => if procedure.result.any (!·.canBeReturnedImplicitly) then 1 else 0
  | dummyImplicit label reason => procedure.dummies.countP fun dummy =>
    labelOf dummy = label ∧ dummy.object?.bind DataObject.explicitReason? = some reason
  | _ => 0

theorem count_when (condition : Bool) (found fault : CallFault) :
    (when condition found).count fault = if condition ∧ found = fault then 1 else 0 := by
  cases condition <;> simp [when, List.count_singleton]

theorem implicitFaults_eq (procedure : Procedure) :
    implicitFaults procedure = when procedure.isElemental elementalImplicit ++ when procedure.isBindC bindCImplicit ++
      when (procedure.result.any (!·.canBeReturnedImplicitly)) resultImplicit ++
      procedure.dummies.filterMap fun dummy => dummy.explicitReason?.map (dummyImplicit (labelOf dummy)) := by
  rw [implicitFaults]
  cases procedure.result <;> rfl

theorem count_implicitFaults (procedure : Procedure) (fault : CallFault) :
    (implicitFaults procedure).count fault = obstacleCount procedure fault := by
  have sameReason (dummy : Dummy) (label : DummyLabel) (reason : String) :
      (dummy.explicitReason?.map (dummyImplicit (labelOf dummy)) == some (dummyImplicit label reason)) =
        decide (labelOf dummy = label ∧ dummy.object?.bind DataObject.explicitReason? = some reason) := by
    rw [Bool.eq_iff_iff, beq_iff_eq, decide_eq_true_iff, Dummy.explicitReason?]
    cases dummy.object?.bind DataObject.explicitReason? <;> simp
  rw [implicitFaults_eq, List.count_append, List.count_append, List.count_append, count_when, count_when, count_when,
    List.count_filterMap]
  cases fault with
  | dummyImplicit label reason => simp [obstacleCount, sameReason]
  | _ => simp [obstacleCount]

theorem implicitFaults_eq_nil_iff (procedure : Procedure) :
    implicitFaults procedure = [] ↔ procedure.canBeCalledImplicitly = true := by
  rw [implicitFaults_eq, Procedure.canBeCalledImplicitly]
  simp only [List.append_eq_nil_iff, List.filterMap_eq_nil_iff, Option.map_eq_none_iff, Bool.and_eq_true, when,
    List.all_eq_true, Dummy.canBePassedImplicitly]
  cases procedure.result <;> simp

/-- A procedure can be called through an implicit interface exactly if nothing is found against it; otherwise each of
its obstacles is found once. -/
theorem implicit_eligibility_agrees (procedure : Procedure) :
    (implicitFaults procedure = [] ↔ procedure.canBeCalledImplicitly = true) ∧
      ∀ fault, (implicitFaults procedure).count fault = obstacleCount procedure fault :=
  ⟨implicitFaults_eq_nil_iff procedure, count_implicitFaults procedure⟩

end Call

end FortranInterface
