import Mathlib.Data.Finset.Card
import Mathlib.Tactic.Common
import FortranInterface.Proofs.Alike.Table

/-!
Answers that follow links from one symbol to the next. The number of links they may follow is the size of
the table, so it is not the same in two tables; that it is enough in the first one makes the answers alike.
-/

namespace FortranInterface

/-- If the first answer is there, so is the second, and they are related. If the comparison is `full`,
this holds the other way too. -/
structure Lift {α β : Type} (full : Bool) (related : α → β → Prop) (found : Option α)
    (found' : Option β) : Prop where
  forth : ∀ {value}, found = some value → ∃ value', found' = some value' ∧ related value value'
  back : full = true → found = none → found' = none

namespace Lift

variable {α β γ δ : Type} {full : Bool} {related : α → β → Prop} {other : γ → δ → Prop}

theorem none_none : Lift full related none none :=
  ⟨nofun, fun _ _ => rfl⟩

theorem none_left (found' : Option β) : Lift false related none found' :=
  ⟨nofun, nofun⟩

theorem some_some {value : α} {value' : β} (holds : related value value') :
    Lift full related (some value) (some value') :=
  ⟨fun found => ⟨value', rfl, by cases found; exact holds⟩, nofun⟩

variable {found' : Option β} {found : Option α}

theorem of_rel (rel : Option.Rel related found found') : Lift full related found found' := by
  cases rel with
  | none => exact none_none
  | some holds => exact some_some holds

theorem rel (lift : Lift true related found found') : Option.Rel related found found' := by
  cases found with
  | none => rw [lift.back rfl rfl]; exact .none
  | some value =>
    obtain ⟨value', same, holds⟩ := lift.forth rfl
    rw [same]
    exact .some holds

theorem eq {found found' : Option α} (lift : Lift true Eq found found') : found = found' := by
  cases lift.rel with
  | none => rfl
  | some holds => rw [holds]

theorem bind {next : α → Option γ} {next' : β → Option δ} (lift : Lift full related found found')
    (then_ : ∀ {value value'}, related value value' → Lift full other (next value) (next' value')) :
    Lift full other (found.bind next) (found'.bind next') := by
  cases found with
  | none =>
    cases full with
    | false => exact none_left _
    | true => rw [lift.back rfl rfl]; exact none_none
  | some value =>
    obtain ⟨value', same, holds⟩ := lift.forth rfl
    rw [same]
    exact then_ holds

theorem map {change : α → γ} {change' : β → δ} (lift : Lift full related found found')
    (then_ : ∀ {value value'}, related value value' → other (change value) (change' value')) :
    Lift full other (found.map change) (found'.map change') := by
  rw [Option.map_eq_bind, Option.map_eq_bind]
  exact lift.bind fun holds => some_some (then_ holds)

/-! Links are counted. In the first table the answers are complete when as many links have been followed
as there are symbols: with each link more, some symbol has to get its first answer. -/

section

variable {links : Nat → SymbolId → Option α} {links' : Nat → SymbolId → Option β}
  {paired : SymbolId → SymbolId → Prop} {size : Nat}
  (start : ∀ id, links 0 id = none) (start' : ∀ id, links' 0 id = none)
  (step : ∀ full count count',
    (∀ {id id'}, paired id id' → Lift full related (links count id) (links' count' id')) →
    ∀ {id id'}, paired id id' → Lift full related (links (count + 1) id) (links' (count' + 1) id'))
include start start' step

theorem of_same_links (count : Nat) : ∀ {id id'}, paired id id' →
    Lift true related (links count id) (links' count id') := by
  induction count with
  | zero =>
    intro id id' _
    rw [start, start']
    exact none_none
  | succ count ih => exact step _ _ _ ih

omit start' in
theorem of_more_links (count more : Nat) : ∀ {id id'}, paired id id' →
    Lift false related (links count id) (links' (count + more) id') := by
  induction count with
  | zero =>
    intro id id' _
    rw [start]
    exact none_left _
  | succ count ih =>
    rw [Nat.succ_add]
    exact step _ _ _ ih

open Classical in
noncomputable def answered (links : Nat → SymbolId → Option α) (paired : SymbolId → SymbolId → Prop)
    (size count : Nat) : Finset Nat :=
  (Finset.range size).filter fun index => (links count ⟨index⟩).isSome ∧ ∃ id', paired ⟨index⟩ id'

omit start start' step in
theorem card_answered_le (count : Nat) : (answered links paired size count).card ≤ size := by
  classical
  unfold answered
  exact (Finset.card_filter_le _ _).trans (by simp)

theorem answered_subset (count more : Nat) :
    answered links paired size count ⊆ answered links paired size (count + more) := by
  intro index inside
  simp only [answered, Finset.mem_filter] at inside ⊢
  obtain ⟨below, found, id', pair⟩ := inside
  refine ⟨below, ?_, id', pair⟩
  obtain ⟨value, found⟩ := Option.isSome_iff_exists.mp found
  have later : Lift false related (links count ⟨index⟩) (links' (count + more) id') :=
    of_more_links start step count more pair
  obtain ⟨value', found', _⟩ := later.forth found
  by_contra missing
  have missing' := (of_same_links start start' step (count + more) pair).back rfl (by simpa using missing)
  simp [missing'] at found'

theorem answered_eq_of_eq {count : Nat} (inRange : ∀ {id id'}, paired id id' → id.index < size)
    (stable : answered links paired size count = answered links paired size (count + 1)) (more : Nat) :
    answered links paired size (count + more) = answered links paired size (count + more + 1) := by
  have full_of_eq {count : Nat}
      (stable : answered links paired size count = answered links paired size (count + 1)) {id id'}
      (pair : paired id id') : Lift true related (links count id) (links' (count + 1) id') := by
    have later : Lift false related (links count id) (links' (count + 1) id') :=
      of_more_links start step count 1 pair
    refine ⟨later.forth, fun _ missing => ?_⟩
    apply (of_same_links start start' step (count + 1) pair).back rfl
    by_contra found
    have inside : id.index ∈ answered links paired size (count + 1) := by
      simp only [answered, Finset.mem_filter, Finset.mem_range]
      exact ⟨inRange pair, Option.isSome_iff_ne_none.mpr found, id', pair⟩
    rw [← stable] at inside
    simp only [answered, Finset.mem_filter] at inside
    simp [missing] at inside
  induction more with
  | zero => exact stable
  | succ more ih =>
    apply Finset.Subset.antisymm (answered_subset start start' step _ 1)
    intro index inside
    simp only [answered, Finset.mem_filter] at inside ⊢
    obtain ⟨below, found, id', pair⟩ := inside
    refine ⟨below, ?_, id', pair⟩
    by_contra missing
    have missing' := (step _ _ _ (full_of_eq ih) pair).back rfl (by simpa [Nat.add_assoc] using missing)
    obtain ⟨value, found⟩ := Option.isSome_iff_exists.mp found
    obtain ⟨value', found', _⟩ :=
      (of_same_links start start' step (count + more + 1 + 1) pair).forth found
    simp [missing'] at found'

variable (size) in
theorem exists_answered_eq : ∃ count ≤ size,
    answered links paired size count = answered links paired size (count + 1) := by
  by_contra never
  simp only [not_exists, not_and] at never
  have count_le_card (count : Nat) (bound : count ≤ size + 1) :
      count ≤ (answered links paired size count).card := by
    induction count with
    | zero => exact Nat.zero_le _
    | succ count ih =>
      have grows := Finset.card_lt_card
        ((answered_subset start start' step count 1).ssubset_of_ne (never count (by omega)))
      have before := ih (by omega)
      omega
  have large := count_le_card (size + 1) (Nat.le_refl _)
  have small : (answered links paired size (size + 1)).card ≤ size := card_answered_le _
  omega

variable (links links' size) in
/-- As many links as there are symbols are enough. -/
theorem of_enough_links (inRange : ∀ {id id'}, paired id id' → id.index < size) {count count' : Nat}
    (enough : size ≤ count) (more : count ≤ count') {id id' : SymbolId} (pair : paired id id') :
    Lift true related (links count id) (links' count' id') := by
  obtain ⟨still, bound, stable⟩ := exists_answered_eq size start start' step
  have constant (more : Nat) :
      answered links paired size (still + more) = answered links paired size still := by
    induction more with
    | zero => rfl
    | succ more ih => exact (answered_eq_of_eq start start' step inRange stable more).symm.trans ih
  obtain ⟨gap, rfl⟩ := Nat.exists_eq_add_of_le more
  have later : Lift false related (links count id) (links' (count + gap) id') :=
    of_more_links start step count gap pair
  refine ⟨later.forth, fun _ missing => ?_⟩
  apply (of_same_links start start' step (count + gap) pair).back rfl
  by_contra found
  have inside : id.index ∈ answered links paired size (count + gap) := by
    simp only [answered, Finset.mem_filter, Finset.mem_range]
    exact ⟨inRange pair, Option.isSome_iff_ne_none.mpr found, id', pair⟩
  have same := constant (count - still)
  have same' := constant (count + gap - still)
  rw [Nat.add_sub_cancel' (by omega)] at same same'
  rw [same', ← same] at inside
  simp only [answered, Finset.mem_filter] at inside
  simp [missing] at inside

end

end Lift

end FortranInterface
