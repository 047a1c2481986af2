import Mathlib.Data.List.Basic
import Mathlib.Data.List.Pairwise
import FortranInterface.Proofs.Arrangement

/-!
Argument matching is exact. The rules are read off the list of arguments alone: they hold if and only if the list can be
arranged, and then every argument has one slot, the one of its place or of the first dummy argument that it names.
-/

namespace FortranInterface.Arrangement

/-- The first dummy argument of a name stands at this place. An empty name names nothing. -/
structure FirstNamed (dummies : List Dummy) (keyword : String) (place : Nat) : Prop where
  filled : keyword ≠ ""
  named : ∃ dummy, dummies[place]? = some dummy ∧ dummy.name = keyword
  first : ∀ earlier < place, ∀ dummy, dummies[earlier]? = some dummy → dummy.name ≠ keyword

/-- The rules for the arguments of a reference. -/
structure Regular (dummies : List Dummy) (actuals : Actuals) : Prop where
  short : (positional actuals).length ≤ dummies.length
  keywordsLast : actuals.Pairwise fun earlier later => ∀ actual other, earlier = some actual → later = some other →
    actual.keyword ≠ none → other.keyword ≠ none
  distinct : (keywords actuals).Nodup
  vacant : ∀ keyword ∈ keywords actuals, ∃ place, FirstNamed dummies keyword place ∧
    ∀ actual, (positional actuals)[place]? ≠ some (some actual)

def Given (dummies : List Dummy) (actuals : Actuals) (place : Nat) (actual : Actual) : Prop :=
  (positional actuals)[place]? = some (some actual) ∨
    ∃ keyword, some actual ∈ actuals ∧ actual.keyword = some keyword ∧ FirstNamed dummies keyword place

variable {dummies : List Dummy} {actuals : Actuals} {arrangement : Arrangement} {entries : List (String × Actual)}

variable {place : Nat}

theorem placeOf?_iff_firstNamed {keyword : String} :
    placeOf? dummies keyword = some place ↔ FirstNamed dummies keyword place := by
  constructor
  · intro found
    rw [placeOf?, List.findIdx?_eq_some_iff_getElem] at found
    obtain ⟨bound, isNamed, before⟩ := found
    simp only [Bool.and_eq_true, Bool.not_eq_true', String.isEmpty_eq_false_iff, beq_iff_eq] at isNamed before
    refine ⟨isNamed.2 ▸ isNamed.1, ⟨_, List.getElem?_eq_getElem bound, isNamed.2⟩, fun earlier early dummy present same => ?_⟩
    obtain ⟨inside, rfl⟩ := List.getElem?_eq_some_iff.mp present
    exact before earlier early ⟨same ▸ isNamed.2 ▸ isNamed.1, same⟩
  · rintro ⟨filled, ⟨dummy, present, named⟩, first⟩
    obtain ⟨bound, rfl⟩ := List.getElem?_eq_some_iff.mp present
    rw [placeOf?, List.findIdx?_eq_some_iff_getElem]
    refine ⟨bound, by simp [named, filled], fun earlier early => ?_⟩
    have apart := first earlier early _ (List.getElem?_eq_getElem (Nat.lt_trans early bound))
    simp [apart]

/-! The rules, and what the arrangement looks at. -/

theorem keywords_keywordPart (actuals : Actuals) : keywords (keywordPart actuals) = keywords actuals := by
  have early : keywords (positional actuals) = [] := by
    rw [keywords, List.filterMap_eq_nil_iff]
    intro slot member
    cases slot with
    | none => rfl
    | some actual => exact keyword_eq_none_of_mem member
  have whole : keywords (positional actuals ++ keywordPart actuals) = _ := List.filterMap_append
  rw [positional_append_keywordPart, ← keywords, ← keywords, early, List.nil_append] at whole
  exact whole.symm

theorem exists_of_keywordPart_eq_cons {slot : Option Actual} {rest : Actuals} (late : keywordPart actuals = slot :: rest) :
    ∃ actual, slot = some actual ∧ actual.keyword ≠ none := by
  have fails := List.head?_dropWhile_not isPositional actuals
  rw [← keywordPart, late] at fails
  cases slot with
  | none => simp [isPositional] at fails
  | some actual => exact ⟨actual, rfl, by simpa [isPositional, Option.isSome_iff_ne_none] using fails⟩

theorem keywordsLast_iff :
    (actuals.Pairwise fun earlier later => ∀ actual other, earlier = some actual → later = some other →
      actual.keyword ≠ none → other.keyword ≠ none) ↔
    ∀ actual, some actual ∈ keywordPart actuals → actual.keyword ≠ none := by
  constructor
  · intro ordered actual member
    rw [← positional_append_keywordPart actuals, List.pairwise_append] at ordered
    cases late : keywordPart actuals with
    | nil => simp [late] at member
    | cons slot rest =>
      obtain ⟨first, rfl, isKeyed⟩ := exists_of_keywordPart_eq_cons late
      rw [late] at member ordered
      rcases List.mem_cons.mp member with same | behind
      · rwa [Option.some_inj.mp same]
      · exact (List.pairwise_cons.mp ordered.2.1).1 _ behind first actual rfl rfl isKeyed
  · intro keyed
    rw [← positional_append_keywordPart actuals, List.pairwise_append]
    refine ⟨List.pairwise_of_forall_mem_list ?_, List.pairwise_of_forall_mem_list ?_, ?_⟩
    · rintro _ early _ - actual other rfl rfl isKeyed
      exact absurd (keyword_eq_none_of_mem early) isKeyed
    · rintro _ - _ late actual other rfl rfl -
      exact keyed other late
    · rintro _ - _ late actual other rfl rfl -
      exact keyed other late

theorem regular_iff_matches : Regular dummies actuals ↔ Matches dummies actuals := by
  have words := keywords_keywordPart actuals
  constructor
  · rintro ⟨short, ordered, distinct, vacant⟩
    refine ⟨short, keywordsLast_iff.mp ordered, words ▸ distinct, ?_⟩
    simpa only [words, placeOf?_iff_firstNamed] using vacant
  · rintro ⟨short, keyed, distinct, vacant⟩
    refine ⟨short, keywordsLast_iff.mpr keyed, words ▸ distinct, ?_⟩
    simpa only [words, placeOf?_iff_firstNamed] using vacant

/-! Where the arguments go. -/

theorem given_iff_goesTo {actual : Actual} :
    Given dummies actuals place actual ↔ ∃ index, GoesTo dummies actuals index place actual := by
  simp only [goesTo_iff, Given, ← placeOf?_iff_firstNamed, positional_eq_some_iff]
  constructor
  · rintro (⟨early, given⟩ | ⟨keyword, member, named, found⟩)
    · exact ⟨place, given, .inl ⟨early, rfl⟩⟩
    · obtain ⟨index, given⟩ := List.mem_iff_getElem?.mp member
      refine ⟨index, given, .inr ⟨fun early => ?_, keyword, named, found⟩⟩
      have byPlace := keyword_eq_none_of_lt early given
      simp [named] at byPlace
  · rintro ⟨index, given, ⟨early, rfl⟩ | ⟨-, keyword, named, found⟩⟩
    · exact .inl ⟨early, given⟩
    · exact .inr ⟨keyword, List.mem_of_getElem? given, named, found⟩

theorem slots_eq_none (complete : (ofActuals dummies actuals).isComplete = true) (inside : place < dummies.length)
    (free : ¬ ∃ actual, Given dummies actuals place actual) :
    (ofActuals dummies actuals).slots[place]? = some none := by
  rw [← slots_length complete] at inside
  have present := List.getElem?_eq_getElem inside
  cases held : (ofActuals dummies actuals).slots[place] with
  | none => rw [present, held]
  | some actual =>
    rw [held, slots_eq_some_iff complete, ← given_iff_goesTo] at present
    exact absurd ⟨actual, present⟩ free

/-! No argument is lost, and none is given twice. -/

def present (slots : Actuals) : List Actual :=
  slots.filterMap id

theorem present_set_perm {slots : Actuals} (vacant : slots[place]? = some none) (actual : Actual) :
    (present (slots.set place (some actual))).Perm (actual :: present slots) := by
  induction slots generalizing place with
  | nil => simp at vacant
  | cons slot slots ih =>
    cases place with
    | zero =>
      obtain rfl : slot = none := by simpa using vacant
      exact .refl _
    | succ place =>
      have behind := ih (by simpa using vacant)
      cases slot with
      | none => exact behind
      | some other => exact (behind.cons other).trans (.swap actual other _)

theorem present_foldl_putKeyword (clean : (entries.foldl (putKeyword dummies) arrangement).findings = []) :
    (present (entries.foldl (putKeyword dummies) arrangement).slots).Perm
      (entries.map Prod.snd ++ present arrangement.slots) := by
  induction entries generalizing arrangement with
  | nil => exact .refl _
  | cons entry entries ih =>
    rw [List.foldl_cons] at clean ⊢
    by_cases fits : ∃ place, placeOf? dummies entry.1 = some place ∧ arrangement.slots[place]? = some none
    · obtain ⟨place, found, vacant⟩ := fits
      have others := ih clean
      rw [putKeyword_of_vacant found vacant] at others ⊢
      have here := (present_set_perm vacant entry.2).append_left (entries.map Prod.snd)
      exact others.trans (here.trans List.perm_middle)
    · have faulty : (putKeyword dummies arrangement entry).findings ≠ [] :=
        putKeyword_findings_of_not_vacant fun place found vacant => fits ⟨place, found, vacant⟩
      exact absurd clean (foldl_putKeyword_findings_ne_nil dummies entries faulty)

theorem map_snd_keywordEntries (keyed : ∀ actual, some actual ∈ actuals → actual.keyword ≠ none) :
    (actuals.filterMap keyedActual?).map Prod.snd = present actuals := by
  rw [List.map_filterMap, present]
  refine List.filterMap_congr fun slot member => ?_
  cases slot with
  | none => rfl
  | some actual =>
    obtain ⟨keyword, named⟩ := Option.ne_none_iff_exists'.mp (keyed actual member)
    simp [keyedActual?, named]

theorem ofActuals_of_keyed (short : (positional actuals).length ≤ dummies.length)
    (keyed : ∀ actual, some actual ∈ keywordPart actuals → actual.keyword ≠ none)
    (distinct : (keywords (keywordPart actuals)).Nodup) :
    ofActuals dummies actuals =
      ((keywordPart actuals).filterMap keyedActual?).foldl (putKeyword dummies) ⟨initialSlots dummies actuals, []⟩ := by
  have clean := (keywordActuals_findings_eq_nil_iff ((positional actuals).length + 1) []
    (keywordPart actuals)).mpr ⟨keyed, distinct, by simp⟩
  simp only [ofActuals_of_short short, keywordActuals_entries _ _ _ clean, clean]

theorem present_slots_perm (complete : (ofActuals dummies actuals).isComplete = true) :
    (present (ofActuals dummies actuals).slots).Perm (present actuals) := by
  have fits := isComplete_iff.mp complete
  have early : present (initialSlots dummies actuals) = present (positional actuals) := by
    simp [present, initialSlots, List.filterMap_append]
  have whole : present (positional actuals) ++ present (keywordPart actuals) = present actuals := by
    rw [present, present, ← List.filterMap_append, positional_append_keywordPart, present]
  rw [isComplete, List.isEmpty_iff] at complete
  rw [ofActuals_of_keyed fits.short fits.keyed fits.distinct] at complete ⊢
  have held := present_foldl_putKeyword complete
  rw [map_snd_keywordEntries fits.keyed, early] at held
  exact whole ▸ held.trans List.perm_append_comm

/-- A list of arguments is arranged exactly if it keeps the rules, and a message is given exactly if it does not. An
arrangement has one slot for each dummy argument, with the argument that belongs there or with none, and holds each
argument of the list once. -/
theorem argument_matching_exact (dummies : List Dummy) (actuals : Actuals) :
    ((ofActuals dummies actuals).isComplete = true ↔ Regular dummies actuals) ∧
    ((ofActuals dummies actuals).findings ≠ [] ↔ (ofActuals dummies actuals).isComplete = false) ∧
    ((ofActuals dummies actuals).isComplete = true →
      (ofActuals dummies actuals).slots.length = dummies.length ∧
      (∀ place actual, Given dummies actuals place actual →
        (ofActuals dummies actuals).slots[place]? = some (some actual)) ∧
      (∀ place < dummies.length, (¬ ∃ actual, Given dummies actuals place actual) →
        (ofActuals dummies actuals).slots[place]? = some none) ∧
      (present (ofActuals dummies actuals).slots).Perm (present actuals)) := by
  refine ⟨isComplete_iff.trans regular_iff_matches.symm, ?_, fun complete => ⟨slots_length complete, ?_, ?_, ?_⟩⟩
  · simp [isComplete]
  · intro place actual given
    exact (slots_eq_some_iff complete place actual).mpr (given_iff_goesTo.mp given)
  · exact fun place inside free => slots_eq_none complete inside free
  · exact present_slots_perm complete

end FortranInterface.Arrangement
