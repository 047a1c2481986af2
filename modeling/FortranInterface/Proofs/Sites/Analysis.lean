import FortranInterface.Analysis.Program
import FortranInterface.Proofs.Resolution.Program

/-!
The findings of the analysis stand at sites: at an actual argument, at a reference, or where a symbol is declared.
-/

namespace FortranInterface

variable {sites : Sites} {actuals : Actuals} {table : Table}

def CallFinding.Sited (sites : Sites) (finding : CallFinding) : Prop :=
  ∀ span ∈ finding.span, sites.site span

/-! Arranging arguments. -/

variable {dummies : List Dummy}

namespace Arrangement

structure Sited (sites : Sites) (arrangement : Arrangement) : Prop where
  slots : Actuals.Sited sites arrangement.slots
  findings : ∀ finding ∈ arrangement.findings, finding.Sited sites

theorem sited_keywordActuals {place : Nat} {seen : List String} (sited : Actuals.Sited sites actuals) :
    (∀ entry ∈ (keywordActuals place seen actuals).1, entry.2.Sited sites) ∧
      ∀ finding ∈ (keywordActuals place seen actuals).2, finding.Sited sites := by
  fun_induction keywordActuals place seen actuals with
  | case1 => exact ⟨by simp, by simp⟩
  | case2 place seen actuals ih => exact ih (List.forall_mem_cons.mp sited).2
  | case3 place seen actual actuals keyword isKeyword isSeen others ih =>
    obtain ⟨first, rest⟩ := List.forall_mem_cons.mp sited
    exact ⟨(ih rest).1, List.forall_mem_cons.mpr ⟨first actual rfl, (ih rest).2⟩⟩
  | case4 place seen actual actuals keyword isKeyword isNew others ih =>
    obtain ⟨first, rest⟩ := List.forall_mem_cons.mp sited
    exact ⟨List.forall_mem_cons.mpr ⟨first actual rfl, (ih rest).1⟩, (ih rest).2⟩
  | case5 place seen actual actuals isPositional others ih =>
    obtain ⟨first, rest⟩ := List.forall_mem_cons.mp sited
    exact ⟨(ih rest).1, List.forall_mem_cons.mpr ⟨first actual rfl, (ih rest).2⟩⟩

variable {arrangement : Arrangement}

theorem Sited.found (sited : arrangement.Sited sites) {finding : CallFinding} (isSited : finding.Sited sites) :
    Sited sites { arrangement with findings := arrangement.findings ++ [finding] } := by
  refine ⟨sited.slots, fun other member => ?_⟩
  rcases List.mem_append.mp member with earlier | last
  · exact sited.findings other earlier
  · obtain rfl := List.mem_singleton.mp last
    exact isSited

theorem sited_putKeyword {entry : String × Actual} (sited : arrangement.Sited sites) (isSited : entry.2.Sited sites) :
    (putKeyword dummies arrangement entry).Sited sites := by
  unfold putKeyword
  split
  · split
    · refine ⟨fun slot member actual isActual => ?_, sited.findings⟩
      rcases List.mem_or_eq_of_mem_set member with earlier | rfl
      · exact sited.slots slot earlier actual isActual
      · obtain rfl := Option.some.inj isActual
        exact isSited
    · exact sited.found isSited
  · exact sited.found isSited

theorem sited_ofActuals (sited : Actuals.Sited sites actuals) : (ofActuals dummies actuals).Sited sites := by
  have all (entries : List (String × Actual)) (areSited : ∀ entry ∈ entries, entry.2.Sited sites)
      (arrangement : Arrangement) (start : arrangement.Sited sites) :
      (entries.foldl (putKeyword dummies) arrangement).Sited sites := by
    induction entries generalizing arrangement with
    | nil => exact start
    | cons entry entries ih =>
      obtain ⟨first, rest⟩ := List.forall_mem_cons.mp areSited
      exact ih rest _ (sited_putKeyword start first)
  unfold ofActuals
  dsimp only
  split
  · refine ⟨sited, fun finding member => ?_⟩
    obtain rfl := List.mem_singleton.mp member
    exact fun _ impossible => by cases impossible
  · have behind : Actuals.Sited sites (actuals.dropWhile isPositional) :=
      fun slot member => sited slot ((List.dropWhile_sublist _).mem member)
    refine all _ (sited_keywordActuals behind).1 _ ⟨fun slot member => ?_, (sited_keywordActuals behind).2⟩
    rcases List.mem_append.mp member with positional | empty
    · exact sited slot ((List.takeWhile_sublist _).mem positional)
    · obtain rfl := List.eq_of_mem_replicate empty
      exact fun _ impossible => by cases impossible

end Arrangement

/-! Checking a call. -/

variable {procedure : Procedure}

namespace Call

theorem sited_findingsAt {span : Option Span} {faults : List CallFault} (isSite : ∀ found ∈ span, sites.site found) :
    ∀ finding ∈ findingsAt span faults, finding.Sited sites := by
  intro finding member
  obtain ⟨fault, -, rfl⟩ := List.mem_map.mp member
  exact isSite

variable {scope : Option ScopeId}

theorem sited_slotFindings {isElementalCall : Bool} {index : Nat} {dummy : Dummy} {slot : Option Actual}
    (sited : ∀ actual ∈ slot, actual.Sited sites) :
    ∀ finding ∈ slotFindings table isElementalCall scope index dummy slot, finding.Sited sites := by
  cases slot with
  | some actual => exact sited_findingsAt (sited actual rfl)
  | none =>
    intro finding member
    rw [slotFindings] at member
    split at member
    · cases member
    · obtain rfl := List.mem_singleton.mp member
      exact fun _ impossible => by cases impossible

theorem sited_slotsFindings {isElementalCall : Bool} {index : Nat} (sited : Actuals.Sited sites actuals) :
    ∀ finding ∈ slotsFindings table isElementalCall scope index dummies actuals, finding.Sited sites := by
  induction dummies generalizing actuals index with
  | nil =>
    intro finding member
    rw [slotsFindings] at member
    · cases member
    · simp
  | cons dummy dummies ih =>
    cases actuals with
    | nil =>
      intro finding member
      rw [slotsFindings] at member
      · cases member
      · simp
    | cons slot slots =>
      obtain ⟨first, rest⟩ := List.forall_mem_cons.mp sited
      intro finding member
      rw [slotsFindings] at member
      rcases List.mem_append.mp member with here | later
      · exact sited_slotFindings first finding here
      · exact ih rest finding later

theorem sited_elementalActual {dummy : Dummy} {actual : Actual} {found : ElementalActual} (sited : actual.Sited sites)
    (isFound : elementalActual? table dummy actual = some found) : ∀ span ∈ found.span, sites.site span := by
  simp only [elementalActual?, Option.bind_eq_bind, Option.bind_eq_some_iff] at isFound
  obtain ⟨object, -, expr, -, typeAndShape, -, isFound⟩ := isFound
  split at isFound
  · cases isFound
  · obtain rfl := Option.some.inj isFound
    exact sited

theorem sited_elementalActuals (sited : Actuals.Sited sites actuals) :
    ∀ found ∈ elementalActuals table dummies actuals, ∀ span ∈ found.span, sites.site span := by
  induction dummies generalizing actuals with
  | nil =>
    intro found member
    rw [elementalActuals] at member
    · cases member
    · simp
  | cons dummy dummies ih =>
    cases actuals with
    | nil =>
      intro found member
      rw [elementalActuals] at member
      · cases member
      · simp
    | cons slot slots =>
      obtain ⟨first, rest⟩ := List.forall_mem_cons.mp sited
      intro found member
      rw [elementalActuals] at member
      rcases List.mem_append.mp member with here | later
      · obtain ⟨actual, isActual, isFound⟩ := Option.bind_eq_some_iff.mp (Option.mem_toList.mp here)
        exact sited_elementalActual (first actual isActual) isFound
      · exact ih rest found later

theorem sited_conformanceFindings {found : List ElementalActual}
    (sited : ∀ actual ∈ found, ∀ span ∈ actual.span, sites.site span) :
    ∀ finding ∈ conformanceFindings found, finding.Sited sites := by
  cases found with
  | nil => simp [conformanceFindings]
  | cons first others =>
    intro finding member
    obtain ⟨other, isOther, isFinding⟩ := List.mem_filterMap.mp member
    obtain ⟨fault, -, rfl⟩ := Option.map_eq_some_iff.mp isFinding
    exact sited other (.tail _ isOther)

theorem sited_checkExplicit (sited : Actuals.Sited sites actuals) :
    (checkExplicit table procedure scope actuals).Sited sites := by
  have arranged : (Arrangement.ofActuals procedure.dummies actuals).Sited sites := Arrangement.sited_ofActuals sited
  unfold checkExplicit
  dsimp only
  split
  · refine ⟨arranged.slots, fun finding member => ?_⟩
    rcases List.mem_append.mp member with slot | conformance
    · exact sited_slotsFindings arranged.slots finding slot
    · split at conformance
      · exact sited_conformanceFindings (sited_elementalActuals arranged.slots) finding conformance
      · cases conformance
  · exact arranged

theorem sited_implicitFindings (sited : Actuals.Sited sites actuals) :
    ∀ finding ∈ implicitFindings table actuals, finding.Sited sites := by
  intro finding member
  obtain ⟨actual, isActual, isFinding⟩ := List.mem_flatMap.mp member
  obtain ⟨slot, isSlot, isGiven⟩ := List.mem_filterMap.mp isActual
  exact sited_findingsAt (sited slot isSlot actual isGiven) finding isFinding

theorem sited_messages {findings : List CallFinding} (sited : ∀ finding ∈ findings, finding.Sited sites) :
    ∀ message ∈ findings.map CallFinding.message, ∀ span ∈ message.span, sites.site span := by
  intro message member
  obtain ⟨finding, isFinding, rfl⟩ := List.mem_map.mp member
  exact sited finding isFinding

theorem sited_implicitMessages {external : Bool} (sited : Actuals.Sited sites actuals) :
    ∀ message ∈ implicitMessages table procedure external actuals, ∀ span ∈ message.span, sites.site span := by
  refine sited_messages fun finding member => ?_
  rcases List.mem_append.mp member with own | arguments
  · split at own
    · exact sited_findingsAt (by simp) finding own
    · cases own
  · exact sited_implicitFindings sited finding arguments

theorem sited_check {scope : ScopeId} {external : Bool} (sited : Actuals.Sited sites actuals) :
    ∀ message ∈ check table procedure scope external actuals, ∀ span ∈ message.span, sites.site span := by
  intro message member
  unfold check at member
  split at member
  · have explicit : (checkExplicit table procedure (some scope) actuals).Sited sites := sited_checkExplicit sited
    rcases List.mem_append.mp member with compared | implicit
    · unfold explicitMessages at compared
      split at compared
      · obtain rfl := List.mem_singleton.mp compared
        exact fun _ impossible => by cases impossible
      · exact sited_messages explicit.findings message compared
    · split at implicit
      · exact sited_implicitMessages explicit.slots message implicit
      · cases implicit
  · exact sited_implicitMessages sited message member

end Call

/-! The analysis. -/

namespace Analysis

theorem sited_argumentFindings {isExternal : Bool} {reference : Reference} (sited : reference.Sited sites) :
    ∀ finding ∈ argumentFindings table procedure isExternal reference, sites.site finding.span := by
  intro finding member
  obtain ⟨message, isMessage, rfl⟩ := List.mem_map.mp member
  have spans := Call.sited_check sited.arguments message isMessage
  dsimp only
  cases isSpan : message.span with
  | none => exact sited.span
  | some span => exact spans span isSpan

theorem sited_referenceFindings {checks : Checks} {known : Inferred} {reference : Reference}
    (sited : reference.Sited sites) :
    ∀ finding ∈ referenceFindings table checks known reference, sites.site finding.span := by
  intro finding member
  unfold referenceFindings at member
  split at member
  · cases member
  · split at member
    · exact sited_argumentFindings sited finding member
    · rcases List.mem_append.mp member with interface | arguments
      · obtain ⟨fault, -, rfl⟩ := List.mem_map.mp interface
        exact sited.span
      · split at arguments
        · exact sited_argumentFindings sited finding arguments
        · exact sited_argumentFindings sited finding arguments

theorem sited_referencesFindings {checks : Checks} {known : Inferred} {references : List Reference}
    (sited : ∀ reference ∈ references, reference.Sited sites) :
    ∀ finding ∈ referencesFindings table checks known references, sites.site finding.span := by
  induction references generalizing known with
  | nil => simp [referencesFindings]
  | cons reference others ih =>
    obtain ⟨first, rest⟩ := List.forall_mem_cons.mp sited
    intro finding member
    rcases List.mem_append.mp member with here | later
    · exact sited_referenceFindings first finding here
    · exact ih rest finding later

theorem sited_genericFindings (sited : table.Sited sites) :
    ∀ finding ∈ genericFindings table, sites.site finding.span := by
  intro finding member
  obtain ⟨clash, -, rfl⟩ := List.mem_map.mp member
  exact sited.symbol clash.generic

theorem sited_overrideFindings (sited : table.Sited sites) :
    ∀ finding ∈ overrideFindings table, sites.site finding.span := by
  intro finding member
  obtain ⟨type, -, isFinding⟩ := List.mem_flatMap.mp member
  unfold overrideFindingsOf at isFinding
  split at isFinding
  · obtain ⟨binding, -, found⟩ := List.mem_filterMap.mp isFinding
    unfold overrideFinding? at found
    split at found
    · obtain ⟨overridden, -, found⟩ := Option.bind_eq_some_iff.mp found
      split at found
      · cases found
      · obtain rfl := Option.some.inj found
        exact sited.symbol binding
    · cases found
  · cases isFinding

end Analysis

namespace ResolvedProgram

variable {program : ResolvedProgram}

variable (sited : program.Sited sites)
include sited

theorem Sited.diagnostics : ∀ diagnostic ∈ program.diagnostics, sites.site diagnostic.span := by
  intro diagnostic member
  obtain ⟨finding, isFinding, rfl⟩ := List.mem_map.mp member
  exact sited.findings finding isFinding

theorem Sited.analysis (checks : Checks) : ∀ finding ∈ program.analysis checks, sites.site finding.span := by
  intro finding member
  simp only [ResolvedProgram.analysis, List.mem_append] at member
  rcases member with ((resolution | reference) | generic) | override
  · obtain ⟨found, isFound, rfl⟩ := List.mem_map.mp resolution
    exact sited.findings found isFound
  · exact Analysis.sited_referencesFindings sited.references finding reference
  · exact Analysis.sited_genericFindings sited.table finding generic
  · exact Analysis.sited_overrideFindings sited.table finding override

theorem Sited.check (checks : Checks) (grading : Grading) :
    ∀ diagnostic ∈ program.check checks grading, sites.site diagnostic.span := by
  intro diagnostic member
  obtain ⟨finding, isFinding, isDiagnostic⟩ := List.mem_filterMap.mp member
  obtain ⟨kind, -, rfl⟩ := Option.map_eq_some_iff.mp isDiagnostic
  exact sited.analysis checks finding isFinding

end ResolvedProgram

end FortranInterface
