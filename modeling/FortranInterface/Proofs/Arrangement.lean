import FortranInterface.Call.Arrangement

/-!
Which argument lists can be arranged, and where the arguments go. An arrangement is complete exactly
if the arguments match the dummy arguments by place and by keyword, and then each of them stands at
the place that it names and at no other.
-/

namespace FortranInterface.Arrangement

def positional (actuals : Actuals) : Actuals :=
  actuals.takeWhile isPositional

def keywordPart (actuals : Actuals) : Actuals :=
  actuals.dropWhile isPositional

def keywords (actuals : Actuals) : List String :=
  actuals.filterMap fun slot => slot.bind Actual.keyword

def keyedActual? : Option Actual → Option (String × Actual)
  | some actual => actual.keyword.map fun keyword => (keyword, actual)
  | none => none

def placeFor? (dummies : List Dummy) (actuals : Actuals) (index : Nat) : Option Nat :=
  if index < (positional actuals).length then some index
  else (actuals[index]?.join.bind Actual.keyword).bind (placeOf? dummies)

def GoesTo (dummies : List Dummy) (actuals : Actuals) (index place : Nat) (actual : Actual) : Prop :=
  actuals[index]? = some (some actual) ∧ placeFor? dummies actuals index = some place

/-- The arguments can be given to the dummy arguments, each to one of its own. -/
structure Matches (dummies : List Dummy) (actuals : Actuals) : Prop where
  short : (positional actuals).length ≤ dummies.length
  keyed : ∀ actual, some actual ∈ keywordPart actuals → actual.keyword ≠ none
  distinct : (keywords (keywordPart actuals)).Nodup
  vacant : ∀ keyword ∈ keywords (keywordPart actuals), ∃ place,
    placeOf? dummies keyword = some place ∧ ∀ actual, (positional actuals)[place]? ≠ some (some actual)

variable {dummies : List Dummy} {actuals : Actuals} {arrangement : Arrangement}
  {entries : List (String × Actual)}

theorem positional_append_keywordPart (actuals : Actuals) : positional actuals ++ keywordPart actuals = actuals :=
  List.takeWhile_append_dropWhile

variable {keyword : String} {place : Nat}

theorem name_of_placeOf? (found : placeOf? dummies keyword = some place) :
    ∃ dummy, dummies[place]? = some dummy ∧ dummy.name = keyword := by
  rw [placeOf?, List.findIdx?_eq_some_iff_getElem] at found
  obtain ⟨bound, named, _⟩ := found
  rw [Bool.and_eq_true, beq_iff_eq] at named
  exact ⟨dummies[place], List.getElem?_eq_getElem bound, named.2⟩

theorem placeOf?_lt (found : placeOf? dummies keyword = some place) : place < dummies.length := by
  obtain ⟨dummy, present, _⟩ := name_of_placeOf? found
  exact (List.getElem?_eq_some_iff.mp present).1

theorem placeOf?_injective {first second : String} (foundFirst : placeOf? dummies first = some place)
    (foundSecond : placeOf? dummies second = some place) : first = second := by
  obtain ⟨dummy, present, named⟩ := name_of_placeOf? foundFirst
  obtain ⟨other, presentOther, namedOther⟩ := name_of_placeOf? foundSecond
  rw [present, Option.some_inj] at presentOther
  rw [← named, ← namedOther, presentOther]

theorem keywordActuals_findings_eq_nil_iff (place : Nat) (seen : List String) (actuals : Actuals) :
    (keywordActuals place seen actuals).2 = [] ↔
      (∀ actual, some actual ∈ actuals → actual.keyword ≠ none) ∧ (keywords actuals).Nodup ∧
        ∀ keyword ∈ keywords actuals, keyword ∉ seen := by
  fun_induction keywordActuals place seen actuals with
  | case1 => simp [keywords]
  | case2 place seen actuals ih =>
    rw [ih]
    simp [keywords]
  | case3 place seen actual actuals keyword named used others ih =>
    simp [keywords, named, used]
  | case4 place seen actual actuals keyword named fresh others ih =>
    simp only [others, ih]
    simp [keywords, named, fresh]
    grind
  | case5 place seen actual actuals unnamed others ih => simp [unnamed]

theorem keywordActuals_entries (place : Nat) (seen : List String) (actuals : Actuals)
    (clean : (keywordActuals place seen actuals).2 = []) :
    (keywordActuals place seen actuals).1 = actuals.filterMap keyedActual? := by
  fun_induction keywordActuals place seen actuals with
  | case1 => rfl
  | case2 place seen actuals ih =>
    rw [ih clean]
    rfl
  | case3 | case5 => simp at clean
  | case4 place seen actual actuals keyword named fresh others ih =>
    simp [keyedActual?, named, others, ih clean]

theorem map_fst_keywordEntries (actuals : Actuals) :
    (actuals.filterMap keyedActual?).map Prod.fst = keywords actuals := by
  rw [List.map_filterMap, keywords]
  congr
  funext slot
  cases slot with
  | none => rfl
  | some actual => cases named : actual.keyword <;> simp [keyedActual?, named]

theorem putKeyword_slots_length (dummies : List Dummy) (arrangement : Arrangement) (entry : String × Actual) :
    (putKeyword dummies arrangement entry).slots.length = arrangement.slots.length := by
  rw [putKeyword]
  split
  · split <;> simp
  · rfl

theorem foldl_putKeyword_slots_length (dummies : List Dummy) (entries : List (String × Actual))
    (arrangement : Arrangement) :
    (entries.foldl (putKeyword dummies) arrangement).slots.length = arrangement.slots.length := by
  induction entries generalizing arrangement with
  | nil => rfl
  | cons entry entries ih => rw [List.foldl_cons, ih, putKeyword_slots_length]

variable {entry : String × Actual}

theorem putKeyword_of_vacant (found : placeOf? dummies entry.1 = some place)
    (vacant : arrangement.slots[place]? = some none) :
    putKeyword dummies arrangement entry =
      { arrangement with slots := arrangement.slots.set place (some entry.2) } := by
  rw [putKeyword, found]
  simp only [vacant]

theorem putKeyword_findings_of_not_vacant
    (taken : ∀ place, placeOf? dummies entry.1 = some place → arrangement.slots[place]? ≠ some none) :
    (putKeyword dummies arrangement entry).findings ≠ [] := by
  rw [putKeyword]
  split
  next place found =>
    split
    next vacant => exact absurd vacant (taken place found)
    · simp
  · simp

theorem foldl_putKeyword_findings_ne_nil (dummies : List Dummy) (entries : List (String × Actual))
    (faulty : arrangement.findings ≠ []) : (entries.foldl (putKeyword dummies) arrangement).findings ≠ [] := by
  induction entries generalizing arrangement with
  | nil => exact faulty
  | cons entry entries ih =>
    apply ih
    rw [putKeyword]
    split
    · split <;> simp [faulty]
    · simp

section

variable (distinct : (entries.map Prod.fst).Nodup)
include distinct

theorem foldl_putKeyword_findings_eq_nil_iff :
    (entries.foldl (putKeyword dummies) arrangement).findings = [] ↔
      arrangement.findings = [] ∧ ∀ entry ∈ entries, ∃ place,
        placeOf? dummies entry.1 = some place ∧ arrangement.slots[place]? = some none := by
  induction entries generalizing arrangement with
  | nil => simp
  | cons entry entries ih =>
    rw [List.map_cons, List.nodup_cons] at distinct
    obtain ⟨unused, distinct⟩ := distinct
    rw [List.foldl_cons]
    by_cases fits : ∃ place, placeOf? dummies entry.1 = some place ∧ arrangement.slots[place]? = some none
    · obtain ⟨place, found, vacant⟩ := fits
      have apart : ∀ other ∈ entries, ∀ otherPlace,
          placeOf? dummies other.1 = some otherPlace → otherPlace ≠ place := by
        rintro other member otherPlace foundOther rfl
        have same := placeOf?_injective found foundOther
        exact unused (same ▸ List.mem_map_of_mem member)
      rw [putKeyword_of_vacant found vacant, ih distinct]
      simp only [List.forall_mem_cons]
      constructor
      · rintro ⟨clean, rest⟩
        refine ⟨clean, ⟨place, found, vacant⟩, fun other member => ?_⟩
        obtain ⟨otherPlace, foundOther, vacantOther⟩ := rest other member
        have differ := apart other member otherPlace foundOther
        rw [List.getElem?_set_ne differ.symm] at vacantOther
        exact ⟨otherPlace, foundOther, vacantOther⟩
      · rintro ⟨clean, -, rest⟩
        refine ⟨clean, fun other member => ?_⟩
        obtain ⟨otherPlace, foundOther, vacantOther⟩ := rest other member
        have differ := apart other member otherPlace foundOther
        exact ⟨otherPlace, foundOther, by rwa [List.getElem?_set_ne differ.symm]⟩
    · have faulty : (putKeyword dummies arrangement entry).findings ≠ [] :=
        putKeyword_findings_of_not_vacant fun place found vacant => fits ⟨place, found, vacant⟩
      constructor
      · intro clean
        exact absurd clean (foldl_putKeyword_findings_ne_nil dummies entries faulty)
      · rintro ⟨-, all⟩
        exact absurd (all entry List.mem_cons_self) fits

theorem slots_foldl_putKeyword_iff (place : Nat) (actual : Actual) :
    (entries.foldl (putKeyword dummies) arrangement).slots[place]? = some (some actual) ↔
      arrangement.slots[place]? = some (some actual) ∨
        arrangement.slots[place]? = some none ∧
          ∃ keyword, (keyword, actual) ∈ entries ∧ placeOf? dummies keyword = some place := by
  induction entries generalizing arrangement with
  | nil => simp
  | cons entry entries ih =>
    obtain ⟨word, given⟩ := entry
    obtain ⟨unused, distinct⟩ := List.nodup_cons.mp distinct
    rw [List.foldl_cons, ih distinct]
    by_cases fits : ∃ named, placeOf? dummies word = some named ∧ arrangement.slots[named]? = some none
    · obtain ⟨named, found, vacant⟩ := fits
      have bound : named < arrangement.slots.length := (List.getElem?_eq_some_iff.mp vacant).1
      rw [putKeyword_of_vacant found vacant]
      by_cases same : place = named
      · subst same
        have only : ∀ keyword, placeOf? dummies keyword = some place → keyword = word :=
          fun keyword other => placeOf?_injective other found
        simp only [List.getElem?_set_self bound, vacant, List.mem_cons]
        grind
      · have apart : placeOf? dummies word ≠ some place := fun again => by
          rw [found, Option.some_inj] at again
          exact same again.symm
        simp only [List.getElem?_set_ne (Ne.symm same), List.mem_cons]
        grind
    · have unchanged : (putKeyword dummies arrangement (word, given)).slots = arrangement.slots := by
        rw [putKeyword]
        split
        next named found =>
          split
          next vacant => exact absurd ⟨named, found, vacant⟩ fits
          · rfl
        · rfl
      rw [unchanged]
      grind

theorem foldl_putKeyword_slots_iff (clean : (entries.foldl (putKeyword dummies) arrangement).findings = [])
    (place : Nat) (actual : Actual) :
    (entries.foldl (putKeyword dummies) arrangement).slots[place]? = some (some actual) ↔
      arrangement.slots[place]? = some (some actual) ∨
        ∃ keyword, (keyword, actual) ∈ entries ∧ placeOf? dummies keyword = some place := by
  have fits := ((foldl_putKeyword_findings_eq_nil_iff distinct).mp clean).2
  rw [slots_foldl_putKeyword_iff distinct]
  refine or_congr_right (and_iff_right_of_imp ?_)
  rintro ⟨keyword, member, found⟩
  obtain ⟨named, isNamed, vacant⟩ := fits _ member
  rwa [Option.some.inj (found.symm.trans isNamed)]

end

def initialSlots (dummies : List Dummy) (actuals : Actuals) : Actuals :=
  positional actuals ++ List.replicate (dummies.length - (positional actuals).length) none

theorem ofActuals_of_short (short : (positional actuals).length ≤ dummies.length) :
    ofActuals dummies actuals =
      let keywords := keywordActuals ((positional actuals).length + 1) [] (keywordPart actuals)
      keywords.1.foldl (putKeyword dummies) ⟨initialSlots dummies actuals, keywords.2⟩ := by
  have notMore : ¬ (positional actuals).length > dummies.length := by omega
  rw [positional] at notMore
  simp only [ofActuals, notMore, ↓reduceIte]
  rfl

theorem ofActuals_of_long (long : dummies.length < (positional actuals).length) :
    (ofActuals dummies actuals).slots = actuals ∧ (ofActuals dummies actuals).isComplete = false := by
  rw [positional] at long
  simp [ofActuals, long, isComplete]

theorem initialSlots_length (short : (positional actuals).length ≤ dummies.length) :
    (initialSlots dummies actuals).length = dummies.length := by
  simp [initialSlots]
  omega

theorem initialSlots_eq_some_iff (dummies : List Dummy) (place : Nat) (actual : Actual) :
    (initialSlots dummies actuals)[place]? = some (some actual) ↔
      (positional actuals)[place]? = some (some actual) := by
  rw [initialSlots, List.getElem?_append]
  split
  · rfl
  next beyond =>
    rw [List.getElem?_eq_none (Nat.le_of_not_lt beyond), List.getElem?_replicate]
    split <;> simp

theorem initialSlots_vacant_iff (short : (positional actuals).length ≤ dummies.length) (bound : place < dummies.length) :
    (initialSlots dummies actuals)[place]? = some none ↔
      ∀ actual, (positional actuals)[place]? ≠ some (some actual) := by
  rw [← initialSlots_length short] at bound
  have present := List.getElem?_eq_getElem bound
  simp only [ne_eq, ← initialSlots_eq_some_iff dummies]
  cases held : (initialSlots dummies actuals)[place] <;> simp [present, held]

/-- An arrangement is complete exactly if the arguments match the dummy arguments. -/
theorem isComplete_iff : (ofActuals dummies actuals).isComplete = true ↔ Matches dummies actuals := by
  rw [isComplete, List.isEmpty_iff]
  by_cases short : (positional actuals).length ≤ dummies.length
  · have clean := keywordActuals_findings_eq_nil_iff ((positional actuals).length + 1) []
      (keywordPart actuals)
    have entries := keywordActuals_entries ((positional actuals).length + 1) [] (keywordPart actuals)
    rw [ofActuals_of_short short]
    generalize keywordActuals ((positional actuals).length + 1) [] (keywordPart actuals) = found at clean entries ⊢
    have vacancy : ∀ keyword, (∃ place, placeOf? dummies keyword = some place ∧
          (initialSlots dummies actuals)[place]? = some none) ↔
        ∃ place, placeOf? dummies keyword = some place ∧
          ∀ actual, (positional actuals)[place]? ≠ some (some actual) := by
      intro keyword
      refine exists_congr fun place => and_congr_right fun named => ?_
      exact initialSlots_vacant_iff short (placeOf?_lt named)
    have keywordsOf : found.2 = [] → found.1.map Prod.fst = keywords (keywordPart actuals) := by
      intro empty
      rw [entries empty, map_fst_keywordEntries]
    constructor
    · intro complete
      have empty : found.2 = [] := by
        refine Classical.byContradiction fun faulty => ?_
        exact foldl_putKeyword_findings_ne_nil dummies found.1 faulty complete
      obtain ⟨keyed, distinct, -⟩ := clean.mp empty
      rw [← keywordsOf empty] at distinct
      rw [foldl_putKeyword_findings_eq_nil_iff distinct] at complete
      refine ⟨short, keyed, keywordsOf empty ▸ distinct, fun keyword used => ?_⟩
      rw [← keywordsOf empty, List.mem_map] at used
      obtain ⟨entry, member, rfl⟩ := used
      exact (vacancy entry.1).mp (complete.2 entry member)
    · rintro ⟨-, keyed, distinct, vacant⟩
      have empty := clean.mpr ⟨keyed, distinct, by simp⟩
      rw [← keywordsOf empty] at distinct vacant
      rw [foldl_putKeyword_findings_eq_nil_iff distinct]
      refine ⟨empty, fun entry member => (vacancy entry.1).mpr ?_⟩
      exact vacant entry.1 (List.mem_map_of_mem member)
  · have tooMany : (positional actuals).length > dummies.length := by omega
    rw [positional] at tooMany
    simp only [ofActuals, tooMany, ↓reduceIte]
    exact ⟨fun impossible => by simp at impossible, fun fits => absurd fits.short short⟩

theorem slots_length (complete : (ofActuals dummies actuals).isComplete = true) :
    (ofActuals dummies actuals).slots.length = dummies.length := by
  have short := (isComplete_iff.mp complete).short
  rw [ofActuals_of_short short, foldl_putKeyword_slots_length, initialSlots_length short]

theorem getElem?_eq_ite (actuals : Actuals) (index : Nat) :
    actuals[index]? = if index < (positional actuals).length then (positional actuals)[index]?
      else (keywordPart actuals)[index - (positional actuals).length]? := by
  rw [← List.getElem?_append, positional_append_keywordPart]

theorem positional_eq_some_iff (place : Nat) (actual : Actual) :
    (positional actuals)[place]? = some (some actual) ↔
      place < (positional actuals).length ∧ actuals[place]? = some (some actual) := by
  rw [getElem?_eq_ite actuals place]
  by_cases bound : place < (positional actuals).length
  · simp [bound]
  · simp [bound]

variable {actual : Actual}

theorem keyword_eq_none_of_mem (early : some actual ∈ positional actuals) : actual.keyword = none := by
  have byPlace : isPositional (some actual) = true := List.all_eq_true.mp List.all_takeWhile _ early
  exact Option.isNone_iff_eq_none.mp byPlace

variable {index : Nat}

theorem keyword_eq_none_of_lt (before : index < (positional actuals).length)
    (given : actuals[index]? = some (some actual)) : actual.keyword = none := by
  apply keyword_eq_none_of_mem
  exact List.mem_of_getElem? ((positional_eq_some_iff index actual).mpr ⟨before, given⟩)

theorem mem_keywordEntries_iff (keyword : String) (actual : Actual) :
    (keyword, actual) ∈ (keywordPart actuals).filterMap keyedActual? ↔
      ∃ index, ¬ index < (positional actuals).length ∧
        actuals[index]? = some (some actual) ∧ actual.keyword = some keyword := by
  have entry : ∀ slot, keyedActual? slot = some (keyword, actual) ↔
      slot = some actual ∧ actual.keyword = some keyword := by
    intro slot
    cases slot with
    | none => simp [keyedActual?]
    | some given =>
      simp only [keyedActual?, Option.map_eq_some_iff, Prod.mk.injEq, Option.some_inj]
      constructor
      · rintro ⟨word, named, rfl, rfl⟩
        exact ⟨rfl, named⟩
      · rintro ⟨rfl, named⟩
        exact ⟨keyword, named, rfl, rfl⟩
  rw [List.mem_filterMap]
  simp only [entry, List.mem_iff_getElem?]
  constructor
  · rintro ⟨slot, ⟨offset, present⟩, rfl, named⟩
    have beyond : ¬ (positional actuals).length + offset < (positional actuals).length := by omega
    refine ⟨(positional actuals).length + offset, beyond, ?_, named⟩
    rw [getElem?_eq_ite, if_neg beyond, Nat.add_sub_cancel_left]
    exact present
  · rintro ⟨index, beyond, present, named⟩
    rw [getElem?_eq_ite, if_neg beyond] at present
    exact ⟨some actual, ⟨_, present⟩, rfl, named⟩

theorem goesTo_of_lt (early : index < (positional actuals).length) (given : actuals[index]? = some (some actual)) :
    GoesTo dummies actuals index index actual := by
  rw [GoesTo, placeFor?, if_pos early]
  exact ⟨given, rfl⟩

theorem goesTo_iff :
    GoesTo dummies actuals index place actual ↔
      actuals[index]? = some (some actual) ∧
        (index < (positional actuals).length ∧ index = place ∨
          ¬ index < (positional actuals).length ∧
            ∃ keyword, actual.keyword = some keyword ∧ placeOf? dummies keyword = some place) := by
  rw [GoesTo]
  refine and_congr_right fun given => ?_
  by_cases early : index < (positional actuals).length
  · simp [placeFor?, early]
  · simp [placeFor?, early, given, Option.bind_eq_some_iff]

theorem GoesTo.place_eq {index place other : Nat} {actual given : Actual}
    (goes : GoesTo dummies actuals index place actual)
    (goesOther : GoesTo dummies actuals index other given) : place = other :=
  Option.some_inj.mp (goes.2.symm.trans goesOther.2)

theorem slots_eq_some_iff (complete : (ofActuals dummies actuals).isComplete = true) (place : Nat) (actual : Actual) :
    (ofActuals dummies actuals).slots[place]? = some (some actual) ↔
      ∃ index, GoesTo dummies actuals index place actual := by
  have fits := isComplete_iff.mp complete
  have clean := (keywordActuals_findings_eq_nil_iff ((positional actuals).length + 1) []
    (keywordPart actuals)).mpr ⟨fits.keyed, fits.distinct, by simp⟩
  have entries := keywordActuals_entries _ _ _ clean
  have distinct := fits.distinct
  rw [← map_fst_keywordEntries, ← entries] at distinct
  rw [isComplete, List.isEmpty_iff, ofActuals_of_short fits.short] at complete
  rw [ofActuals_of_short fits.short, foldl_putKeyword_slots_iff distinct complete, initialSlots_eq_some_iff,
    positional_eq_some_iff, entries]
  simp only [mem_keywordEntries_iff, goesTo_iff]
  constructor
  · rintro (⟨early, given⟩ | ⟨keyword, ⟨index, late, given, named⟩, found⟩)
    · exact ⟨place, given, .inl ⟨early, rfl⟩⟩
    · exact ⟨index, given, .inr ⟨late, keyword, named, found⟩⟩
  · rintro ⟨index, given, ⟨early, rfl⟩ | ⟨late, keyword, named, found⟩⟩
    · exact .inl ⟨early, given⟩
    · exact .inr ⟨keyword, ⟨index, late, given, named⟩, found⟩

theorem mem_keywordPart_of_not_lt {slot : Option Actual} (late : ¬ index < (positional actuals).length)
    (given : actuals[index]? = some slot) : slot ∈ keywordPart actuals := by
  rw [getElem?_eq_ite, if_neg late] at given
  exact List.mem_of_getElem? given

theorem mem_keywords_of_mem (member : some actual ∈ actuals) (named : actual.keyword = some keyword) :
    keyword ∈ keywords actuals :=
  List.mem_filterMap.mpr ⟨some actual, member, named⟩

variable {other : Actual}

theorem index_eq_of_keyword_eq {slots : Actuals} (distinct : (keywords slots).Nodup) {first second : Nat}
    (given : slots[first]? = some (some actual)) (givenOther : slots[second]? = some (some other))
    (named : actual.keyword = some keyword) (namedOther : other.keyword = some keyword) : first = second := by
  rw [List.Nodup, keywords, List.pairwise_filterMap, List.pairwise_iff_getElem] at distinct
  obtain ⟨bound, given⟩ := List.getElem?_eq_some_iff.mp given
  obtain ⟨boundOther, givenOther⟩ := List.getElem?_eq_some_iff.mp givenOther
  rcases Nat.lt_trichotomy first second with before | same | behind
  · refine absurd rfl (distinct first second bound boundOther before keyword ?_ keyword ?_)
    · rw [given, Option.bind_some, named]
    · rw [givenOther, Option.bind_some, namedOther]
  · exact same
  · refine absurd rfl (distinct second first boundOther bound behind keyword ?_ keyword ?_)
    · rw [givenOther, Option.bind_some, namedOther]
    · rw [given, Option.bind_some, named]

namespace Matches

variable (fits : Matches dummies actuals)
include fits

theorem exists_goesTo (given : actuals[index]? = some (some actual)) :
    ∃ place, place < dummies.length ∧ GoesTo dummies actuals index place actual := by
  by_cases early : index < (positional actuals).length
  · exact ⟨index, Nat.lt_of_lt_of_le early fits.short, goesTo_of_lt early given⟩
  · have member := mem_keywordPart_of_not_lt early given
    obtain ⟨keyword, named⟩ := Option.ne_none_iff_exists'.mp (fits.keyed actual member)
    obtain ⟨place, found, -⟩ := fits.vacant keyword (mem_keywords_of_mem member named)
    exact ⟨place, placeOf?_lt found, goesTo_iff.mpr ⟨given, .inr ⟨early, keyword, named, found⟩⟩⟩

theorem vacant_of_goesTo (late : ¬ index < (positional actuals).length)
    (goes : GoesTo dummies actuals index place actual) (other : Actual) :
    (positional actuals)[place]? ≠ some (some other) := by
  have member := mem_keywordPart_of_not_lt late goes.1
  rcases goesTo_iff.mp goes with ⟨-, ⟨early, -⟩ | ⟨-, keyword, named, found⟩⟩
  · exact absurd early late
  · obtain ⟨vacantPlace, foundAgain, vacant⟩ :=
      fits.vacant keyword (mem_keywords_of_mem member named)
    rw [found, Option.some_inj] at foundAgain
    subst foundAgain
    exact vacant other

theorem index_eq_of_goesTo {first second place : Nat} (goes : GoesTo dummies actuals first place actual)
    (goesOther : GoesTo dummies actuals second place other) : first = second := by
  rcases goesTo_iff.mp goes with ⟨given, ⟨early, rfl⟩ | ⟨late, keyword, named, found⟩⟩
  · rcases goesTo_iff.mp goesOther with ⟨-, ⟨-, same⟩ | ⟨late, -⟩⟩
    · exact same.symm
    · have taken := (positional_eq_some_iff _ _).mpr ⟨early, given⟩
      exact absurd taken (fits.vacant_of_goesTo late goesOther actual)
  · rcases goesTo_iff.mp goesOther with
      ⟨givenOther, ⟨early, rfl⟩ | ⟨lateOther, word, namedOther, foundOther⟩⟩
    · have taken := (positional_eq_some_iff _ _).mpr ⟨early, givenOther⟩
      exact absurd taken (fits.vacant_of_goesTo late goes other)
    · have same := placeOf?_injective found foundOther
      subst same
      rw [getElem?_eq_ite, if_neg late] at given
      rw [getElem?_eq_ite, if_neg lateOther] at givenOther
      have offsets := index_eq_of_keyword_eq fits.distinct given givenOther named namedOther
      omega

end Matches

theorem slots_ext {slots others : Actuals} (length : slots.length = others.length)
    (same : ∀ (place : Nat) (actual : Actual),
      slots[place]? = some (some actual) ↔ others[place]? = some (some actual)) : slots = others := by
  refine List.ext_getElem length fun place bound boundOther => ?_
  have atPlace := same place
  simp only [List.getElem?_eq_getElem bound, List.getElem?_eq_getElem boundOther, Option.some_inj] at atPlace
  exact Option.ext atPlace

/-! Another argument in the place of one with the same keyword goes to the same dummy argument. -/

section Replaced

/-- What the arrangement looks at: which places are empty, and the keywords. -/
def pattern (actuals : Actuals) : List (Option (Option String)) :=
  actuals.map (Option.map Actual.keyword)

def isPositionalIn : Option (Option String) → Bool
  | some keyword => keyword.isNone
  | none => true

theorem isPositionalIn_map : isPositionalIn ∘ Option.map Actual.keyword = isPositional := by
  funext slot
  cases slot <;> rfl

theorem pattern_positional (actuals : Actuals) :
    pattern (positional actuals) = (pattern actuals).takeWhile isPositionalIn := by
  rw [pattern, pattern, List.takeWhile_map, isPositionalIn_map, positional]

theorem pattern_keywordPart (actuals : Actuals) :
    pattern (keywordPart actuals) = (pattern actuals).dropWhile isPositionalIn := by
  rw [pattern, pattern, List.dropWhile_map, isPositionalIn_map, keywordPart]

theorem keywords_eq_pattern (actuals : Actuals) : keywords actuals = (pattern actuals).filterMap Option.join := by
  rw [pattern, List.filterMap_map, keywords]
  congr
  funext slot
  cases slot <;> rfl

variable {others : Actuals} (same : pattern actuals = pattern others)
include same

theorem pattern_getElem? (index : Nat) :
    actuals[index]?.map (Option.map Actual.keyword) = others[index]?.map (Option.map Actual.keyword) := by
  rw [← List.getElem?_map, ← List.getElem?_map]
  exact congrArg (·[index]?) same

theorem length_positional_eq : (positional actuals).length = (positional others).length := by
  have lengths := congrArg List.length ((pattern_positional actuals).trans (same ▸ (pattern_positional others).symm))
  simpa [pattern] using lengths

theorem placeFor?_eq (dummies : List Dummy) (index : Nat) :
    placeFor? dummies actuals index = placeFor? dummies others index := by
  have read (slot : Option (Option Actual)) :
      slot.join.bind Actual.keyword = (slot.map (Option.map Actual.keyword)).join.join := by
    rcases slot with _ | _ | actual <;> rfl
  rw [placeFor?, placeFor?, length_positional_eq same, read, read, pattern_getElem? same]

theorem Matches.of_pattern (fits : Matches dummies actuals) : Matches dummies others := by
  have early : pattern (positional actuals) = pattern (positional others) := by
    rw [pattern_positional, pattern_positional, same]
  have late : pattern (keywordPart actuals) = pattern (keywordPart others) := by
    rw [pattern_keywordPart, pattern_keywordPart, same]
  have words : keywords (keywordPart actuals) = keywords (keywordPart others) := by
    rw [keywords_eq_pattern, keywords_eq_pattern, late]
  refine ⟨length_positional_eq same ▸ fits.short, ?_, words ▸ fits.distinct, ?_⟩
  · intro other member named
    have inPattern : some none ∈ pattern (keywordPart others) :=
      List.mem_map.mpr ⟨some other, member, by rw [Option.map_some, named]⟩
    rw [← late, pattern, List.mem_map] at inPattern
    obtain ⟨slot, memberBefore, isUnnamed⟩ := inPattern
    obtain ⟨actual, rfl, unnamed⟩ := Option.map_eq_some_iff.mp isUnnamed
    exact fits.keyed actual memberBefore unnamed
  · rw [← words]
    intro keyword used
    obtain ⟨place, found, vacant⟩ := fits.vacant keyword used
    refine ⟨place, found, fun other held => ?_⟩
    have slots := pattern_getElem? early place
    rw [held, Option.map_some, Option.map_some, Option.map_eq_some_iff] at slots
    obtain ⟨slot, heldBefore, present⟩ := slots
    obtain ⟨actual, rfl, -⟩ := Option.map_eq_some_iff.mp present
    exact vacant actual heldBefore

omit same in
theorem slots_set (complete : (ofActuals dummies actuals).isComplete = true)
    (goes : GoesTo dummies actuals index place actual) (keyword : other.keyword = actual.keyword) :
    (ofActuals dummies (actuals.set index (some other))).isComplete = true ∧
      (ofActuals dummies (actuals.set index (some other))).slots =
        (ofActuals dummies actuals).slots.set place (some other) := by
  obtain ⟨inside, given⟩ := List.getElem?_eq_some_iff.mp goes.1
  have same : pattern actuals = pattern (actuals.set index (some other)) := by
    rw [pattern, pattern, List.map_set, Option.map_some, keyword, ← Option.map_some, ← given,
      ← List.getElem_map (Option.map Actual.keyword), List.set_getElem_self]
    simpa using inside
  have fits := isComplete_iff.mp complete
  have completeOther := isComplete_iff.mpr (fits.of_pattern same)
  refine ⟨completeOther, slots_ext ?_ fun slot found => ?_⟩
  · rw [slots_length completeOther, List.length_set, slots_length complete]
  · rw [slots_eq_some_iff completeOther]
    simp only [GoesTo, ← placeFor?_eq same]
    by_cases here : slot = place
    · subst here
      have held := (slots_eq_some_iff complete slot actual).mpr ⟨index, goes⟩
      rw [List.getElem?_set_self (List.getElem?_eq_some_iff.mp held).1]
      constructor
      · rintro ⟨position, present, placed⟩
        by_cases replaced : index = position
        · rwa [← replaced, List.getElem?_set_self inside] at present
        · rw [List.getElem?_set_ne replaced] at present
          exact absurd (fits.index_eq_of_goesTo goes ⟨present, placed⟩) replaced
      · intro equal
        exact ⟨index, by rw [List.getElem?_set_self inside, equal], goes.2⟩
    · rw [List.getElem?_set_ne (Ne.symm here), slots_eq_some_iff complete]
      refine exists_congr fun position => and_congr_left fun placed => ?_
      have apart : position ≠ index := by
        rintro rfl
        exact here (Option.some_inj.mp (placed.symm.trans goes.2))
      rw [List.getElem?_set_ne (Ne.symm apart)]

end Replaced

end FortranInterface.Arrangement
