import Mathlib.Data.List.Nodup
import FortranInterface.Proofs.ArgumentMatching
import FortranInterface.Proofs.ExplicitCheck

/-!
The order of keyword arguments does not matter. Arguments with different keywords go to different slots, so two of them
can be put in either order, and hence all of them in any order.
-/

namespace FortranInterface.Arrangement

variable {dummies : List Dummy} {front rest reordered : Actuals}

/-! One step, for the slots alone. -/

def fill (slots : Actuals) (actual : Actual) (place : Nat) : Actuals :=
  if slots[place]? = some none then slots.set place (some actual) else slots

def putSlot (dummies : List Dummy) (slots : Actuals) (entry : String × Actual) : Actuals :=
  (placeOf? dummies entry.1).elim slots (fill slots entry.2)

theorem slots_putKeyword (arrangement : Arrangement) (entry : String × Actual) :
    (putKeyword dummies arrangement entry).slots = putSlot dummies arrangement.slots entry := by
  rw [putKeyword, putSlot]
  cases placeOf? dummies entry.1 with
  | none => rfl
  | some place =>
    simp only [Option.elim_some, fill]
    split
    next vacant => rw [if_pos vacant]
    next taken => rw [if_neg taken]

theorem slots_foldl_putKeyword (entries : List (String × Actual)) (arrangement : Arrangement) :
    (entries.foldl (putKeyword dummies) arrangement).slots = entries.foldl (putSlot dummies) arrangement.slots := by
  induction entries generalizing arrangement with
  | nil => rfl
  | cons entry entries ih => rw [List.foldl_cons, List.foldl_cons, ih, slots_putKeyword]

theorem fill_comm {place other : Nat} (apart : place ≠ other) (slots : Actuals) (actual given : Actual) :
    fill (fill slots actual place) given other = fill (fill slots given other) actual place := by
  by_cases vacant : slots[place]? = some none <;> by_cases vacantOther : slots[other]? = some none <;>
    simp [fill, vacant, vacantOther, List.getElem?_set_ne apart, List.getElem?_set_ne apart.symm,
      List.set_comm _ _ apart]

/-- Different keywords name different places, so it does not matter which argument is put first. -/
theorem putSlot_comm {first second : String × Actual} (apart : first.1 ≠ second.1) (slots : Actuals) :
    putSlot dummies (putSlot dummies slots first) second = putSlot dummies (putSlot dummies slots second) first := by
  simp only [putSlot]
  cases foundFirst : placeOf? dummies first.1 with
  | none => rfl
  | some place =>
    cases foundSecond : placeOf? dummies second.1 with
    | none => rfl
    | some other =>
      apply fill_comm
      rintro rfl
      exact apart (placeOf?_injective foundFirst foundSecond)

/-! All keyword arguments. -/

structure Keyed (actuals : Actuals) : Prop where
  keyed : ∀ slot ∈ actuals, ∃ actual, slot = some actual ∧ actual.keyword ≠ none
  distinct : (keywords actuals).Nodup

theorem Keyed.keyword_ne_none (keyed : Keyed rest) {actual : Actual} (member : some actual ∈ rest) :
    actual.keyword ≠ none := by
  obtain ⟨given, isGiven, named⟩ := keyed.keyed _ member
  rwa [Option.some_inj.mp isGiven]

theorem Keyed.perm (keyed : Keyed rest) (order : rest.Perm reordered) : Keyed reordered where
  keyed slot member := keyed.keyed slot (order.mem_iff.mpr member)
  distinct := (order.filterMap _).nodup_iff.mp keyed.distinct

theorem Keyed.split (keyed : Keyed rest) (byPlace : ∀ slot ∈ front, isPositional slot = true) :
    positional (front ++ rest) = front ∧ keywordPart (front ++ rest) = rest := by
  have none : rest.takeWhile isPositional = [] ∧ rest.dropWhile isPositional = rest := by
    cases rest with
    | nil => exact ⟨rfl, rfl⟩
    | cons slot rest =>
      obtain ⟨actual, rfl, named⟩ := keyed.keyed slot (.head _)
      simp [isPositional, named]
  constructor
  · rw [positional, List.takeWhile_append_of_pos byPlace, none.1, List.append_nil]
  · rw [keywordPart, List.dropWhile_append_of_pos byPlace, none.2]

theorem foldl_putSlot_perm {entries others : List (String × Actual)} (order : entries.Perm others)
    (distinct : (entries.map Prod.fst).Nodup) (slots : Actuals) :
    entries.foldl (putSlot dummies) slots = others.foldl (putSlot dummies) slots := by
  refine order.foldl_eq' (fun first memberFirst second memberSecond slots => ?_) slots
  by_cases same : first = second
  · rw [same]
  · refine putSlot_comm (fun sameKeyword => same ?_) slots
    exact List.inj_on_of_nodup_map distinct memberFirst memberSecond sameKeyword

theorem slots_eq_of_perm (keyed : Keyed rest) (order : rest.Perm reordered)
    (byPlace : ∀ slot ∈ front, isPositional slot = true) (short : front.length ≤ dummies.length) :
    (ofActuals dummies (front ++ rest)).slots = (ofActuals dummies (front ++ reordered)).slots := by
  have slots {rest : Actuals} (keyed : Keyed rest) : (ofActuals dummies (front ++ rest)).slots =
      (rest.filterMap keyedActual?).foldl (putSlot dummies) (front ++ List.replicate (dummies.length - front.length) none) := by
    obtain ⟨isFront, isRest⟩ := keyed.split byPlace
    rw [ofActuals_of_keyed, slots_foldl_putKeyword, isRest, initialSlots, isFront]
    · rwa [isFront]
    · rw [isRest]
      intro actual
      exact keyed.keyword_ne_none
    · rw [isRest]
      exact keyed.distinct
  rw [slots keyed, slots (keyed.perm order)]
  refine foldl_putSlot_perm (order.filterMap _) ?_ _
  rw [map_fst_keywordEntries]
  exact keyed.distinct

theorem Keyed.matches_iff (keyed : Keyed rest) (byPlace : ∀ slot ∈ front, isPositional slot = true) :
    Matches dummies (front ++ rest) ↔ front.length ≤ dummies.length ∧
      ∀ keyword ∈ keywords rest, ∃ place, placeOf? dummies keyword = some place ∧
        ∀ actual, front[place]? ≠ some (some actual) := by
  obtain ⟨isFront, isRest⟩ := keyed.split byPlace
  constructor
  · rintro ⟨short, -, -, vacant⟩
    simp only [isFront, isRest] at short vacant
    exact ⟨short, vacant⟩
  · rintro ⟨short, vacant⟩
    constructor <;> simp only [isFront, isRest]
    · exact short
    · intro actual
      exact keyed.keyword_ne_none
    · exact keyed.distinct
    · exact vacant

theorem isComplete_eq_of_perm (dummies : List Dummy) (keyed : Keyed rest) (order : rest.Perm reordered)
    (byPlace : ∀ slot ∈ front, isPositional slot = true) :
    (ofActuals dummies (front ++ rest)).isComplete = (ofActuals dummies (front ++ reordered)).isComplete := by
  have words (keyword : String) : keyword ∈ keywords rest ↔ keyword ∈ keywords reordered :=
    (order.filterMap _).mem_iff
  rw [Bool.eq_iff_iff, isComplete_iff, isComplete_iff, keyed.matches_iff byPlace, (keyed.perm order).matches_iff byPlace]
  simp only [words]

end FortranInterface.Arrangement

namespace FortranInterface.Call

open Arrangement

/-- Keyword arguments in another order are arranged in the same way, and what is found about them is the same. Only where
there are too many arguments in front of the keywords is nothing arranged, and both lists are left as they are. -/
theorem keyword_order_irrelevant (table : Table) (procedure : Procedure) (scope : Option ScopeId)
    (front rest reordered : Actuals) (byPlace : ∀ slot ∈ front, isPositional slot = true) (keyed : Keyed rest)
    (order : rest.Perm reordered) :
    (ofActuals procedure.dummies (front ++ rest)).isComplete =
      (ofActuals procedure.dummies (front ++ reordered)).isComplete ∧
    (front.length ≤ procedure.dummies.length →
      (ofActuals procedure.dummies (front ++ rest)).slots = (ofActuals procedure.dummies (front ++ reordered)).slots) ∧
    (procedure.dummies.length < front.length →
      (ofActuals procedure.dummies (front ++ rest)).isComplete = false ∧
      (ofActuals procedure.dummies (front ++ rest)).slots = front ++ rest ∧
      (ofActuals procedure.dummies (front ++ reordered)).slots = front ++ reordered) ∧
    ((ofActuals procedure.dummies (front ++ rest)).isComplete = true →
      (checkExplicit table procedure scope (front ++ rest)).findings =
        (checkExplicit table procedure scope (front ++ reordered)).findings) := by
  have verdict := isComplete_eq_of_perm procedure.dummies keyed order byPlace
  have isFront := (keyed.split byPlace).1
  have isFront' := ((keyed.perm order).split byPlace).1
  refine ⟨verdict, slots_eq_of_perm keyed order byPlace, fun long => ?_, fun complete => ?_⟩
  · have left := ofActuals_of_long (isFront.symm ▸ long)
    have left' := ofActuals_of_long (isFront'.symm ▸ long)
    exact ⟨left.2, left.1, left'.1⟩
  · have short := (isComplete_iff.mp complete).short
    rw [isFront] at short
    have slots := slots_eq_of_perm keyed order byPlace short
    simp only [checkExplicit, complete, verdict ▸ complete, if_true, slots]

theorem keyword_order_irrelevant_fillVector :
    Keyed keywordsReversed ∧ keywordsReversed.Perm keywordsReversed.reverse ∧
    (checkExplicit vectorAndCount fillVector none keywordsReversed).findings =
      (checkExplicit vectorAndCount fillVector none keywordsReversed.reverse).findings := by
  have keyed : Keyed keywordsReversed := ⟨by simp [keywordsReversed], by decide⟩
  have order := keywordsReversed.reverse_perm.symm
  have same := keyword_order_irrelevant vectorAndCount fillVector none [] keywordsReversed _ (by simp) keyed order
  exact ⟨keyed, order, same.2.2.2 (by decide)⟩

/-- A reference with one argument too many in front of `k=n, a=x` keeps the order of its keywords. -/
theorem keyword_order_kept_beyond_dummies :
    Keyed keywordsReversed ∧ keywordsReversed.Perm keywordsReversed.reverse ∧
    let front := [some ⟨none, .expr (.whole ⟨1⟩), false, none⟩]
    (∀ slot ∈ front, isPositional slot = true) ∧
      (ofActuals [] (front ++ keywordsReversed)).slots ≠ (ofActuals [] (front ++ keywordsReversed.reverse)).slots := by
  refine ⟨⟨by simp [keywordsReversed], by decide⟩, keywordsReversed.reverse_perm.symm, by decide, fun same => ?_⟩
  exact absurd (congrArg keywords same) (by decide)

end FortranInterface.Call
