import FortranInterface.Call.Check
import FortranInterface.Proofs.Arrangement

/-!
What a reference that is found without error guarantees. Through an explicit interface every required
dummy argument gets an argument, and each argument that is an expression has a type, rank and
attributes that its dummy argument allows.
-/

namespace FortranInterface

namespace CallFault

/-- Nothing worse than a warning was found. -/
def NoError (faults : List CallFault) : Prop :=
  ∀ fault ∈ faults, fault.severity ≠ .error

@[simp] theorem noError_nil : NoError [] := by
  simp [NoError]

@[simp] theorem noError_cons {fault : CallFault} {faults : List CallFault} :
    NoError (fault :: faults) ↔ fault.severity ≠ .error ∧ NoError faults := by
  simp [NoError]

@[simp] theorem noError_append {first second : List CallFault} :
    NoError (first ++ second) ↔ NoError first ∧ NoError second := by
  simp only [NoError, List.forall_mem_append]

@[simp] theorem noError_when {condition : Bool} {fault : CallFault} :
    NoError (when condition fault) ↔ (condition = true → fault.severity ≠ .error) := by
  cases condition <;> simp [when]

@[simp] theorem noError_ofMismatch? {found : Option Mismatch} : NoError (ofMismatch? found) ↔ found = none := by
  cases found <;> simp [ofMismatch?, severity]

@[simp] theorem noError_toList_map {α : Type} {found : Option α} {fault : α → CallFault}
    (isError : ∀ value, (fault value).severity = .error) : NoError (found.map fault).toList ↔ found = none := by
  cases found <;> simp [isError]

def isMisplaced : CallFault → Bool
  | tooManyActuals _ _ | repeatedKeyword _ | positionalAfterKeyword _ | keywordAfterPositional _ _
  | unknownKeyword _ => true
  | _ => false

end CallFault

namespace Shape

/-- Equal ranks, and no dimension with two different literal extents. -/
structure Conforms (left right : Shape) : Prop where
  rank : left.length = right.length
  extents : ∀ (place : Nat) (leftExtent rightExtent : Expr) (first second : Int),
    left[place]? = some (some leftExtent) → right[place]? = some (some rightExtent) →
      leftExtent.intLiteral? = some first → rightExtent.intLiteral? = some second → first = second

theorem extents_of_extentMismatch? {leftIs rightIs : String} {dimension : Nat} {left right : Shape}
    (agree : extentMismatch? leftIs rightIs dimension left right = none) (place : Nat)
    {leftExtent rightExtent : Expr} {first second : Int} (atLeft : left[place]? = some (some leftExtent))
    (atRight : right[place]? = some (some rightExtent)) (literalLeft : leftExtent.intLiteral? = some first)
    (literalRight : rightExtent.intLiteral? = some second) : first = second := by
  induction left generalizing right dimension place with
  | nil => simp at atLeft
  | cons extent extents ih =>
    cases right with
    | nil => simp at atRight
    | cons other others =>
      rw [extentMismatch?] at agree
      cases place with
      | zero =>
        simp only [List.getElem?_cons_zero, Option.some_inj] at atLeft atRight
        subst atLeft atRight
        simp only [Option.bind_some, literalLeft, literalRight] at agree
        split at agree
        next same => exact same
        · simp at agree
      | succ place =>
        simp only [List.getElem?_cons_succ] at atLeft atRight
        have rest : ∃ next, extentMismatch? leftIs rightIs next extents others = none := by
          split at agree
          · split at agree
            · exact ⟨_, agree⟩
            · simp at agree
          · exact ⟨_, agree⟩
        obtain ⟨next, agree⟩ := rest
        exact ih agree place atLeft atRight

theorem conforms_of_mismatch? {leftIs rightIs : String} {left right : Shape}
    (agree : mismatch? leftIs rightIs left right = none) : Conforms left right := by
  rw [mismatch?] at agree
  split at agree
  next rank =>
    refine ⟨rank, fun place leftExtent rightExtent first second atLeft atRight => ?_⟩
    exact extents_of_extentMismatch? agree place atLeft atRight
  · simp at agree

end Shape

/-- An expression that has a type of its own: no bit pattern, null pointer or procedure. -/
def Expr.isTyped : Expr → Bool
  | .boz _ | .null | .procedure _ => false
  | _ => true

namespace DataObject

/-- What a dummy data object can rely on in an argument that it was found to fit. The argument is
elemental where a scalar of an elemental procedure takes it. -/
structure Receives (table : Table) (dummy : DataObject) (expr : Expr) (actual : TypeAndShape)
    (isElemental : Bool) : Prop where
  type : dummy.type.accepts actual.type = true
  shape : isElemental = false → dummy.typeAndShape.has .assumedRank = false →
    dummy.rank = 0 ∨ dummy.reshapes = true → Shape.Conforms dummy.typeAndShape.shape actual.shape
  definable : dummy.isDefined = true → table.isVariable expr = true
  pointer : dummy.has .pointer = true → table.isPointer expr = true ∨
    dummy.intent = .in ∧ ∃ id, expr.lastSymbol? = some id ∧ (table.symbol id).canBeTarget = true
  allocatable : dummy.has .allocatable = true → ∃ id, expr = .whole id ∧
    (table.symbol id).isAllocatable = true ∧ dummy.typeAndShape.corank = actual.corank

section

variable {table : Table} {label : DummyLabel} {dummy : DataObject} {expr : Expr}
  {actual : TypeAndShape} {isElemental isElementalCall : Bool} {scope : Option ScopeId}

open CallFault

theorem not_noError_scalarForArrayFaults (reshapes : dummy.reshapes = true) :
    ¬ NoError (scalarForArrayFaults table label dummy expr) := by
  intro clean
  unfold scalarForArrayFaults at clean
  simp only [reshapes, Bool.not_true, Bool.false_and, Bool.false_eq_true, ↓reduceIte] at clean
  split at clean <;> split at clean <;> simp [severity] at clean

theorem conforms_of_noError_shapeFaults (clean : NoError (shapeFaults table label dummy expr actual isElemental))
    (whole : isElemental = false) (ranked : dummy.typeAndShape.has .assumedRank = false)
    (strict : dummy.rank = 0 ∨ dummy.reshapes = true) : Shape.Conforms dummy.typeAndShape.shape actual.shape := by
  simp only [shapeFaults, whole, ranked, Bool.or_self, Bool.false_eq_true, ↓reduceIte] at clean
  split at clean
  · simp [severity] at clean
  · split at clean
    next scalar =>
      have array : dummy.rank ≠ 0 := by
        simp only [Bool.and_eq_true, decide_eq_true_eq] at scalar
        exact Nat.pos_iff_ne_zero.mp scalar.1
      exact absurd clean (not_noError_scalarForArrayFaults (strict.resolve_left array))
    · split at clean
      · rw [noError_ofMismatch?] at clean
        exact Shape.conforms_of_mismatch? clean
      next loose =>
        rcases strict with scalar | reshapes
        · simp [show dummy.typeAndShape.rank = 0 from scalar] at loose
        · simp [reshapes] at loose

section

variable (clean : NoError (typeFaults table label dummy expr actual isElemental))
include clean

theorem conforms_of_noError_typeFaults (whole : isElemental = false)
    (ranked : dummy.typeAndShape.has .assumedRank = false) (strict : dummy.rank = 0 ∨ dummy.reshapes = true) :
    Shape.Conforms dummy.typeAndShape.shape actual.shape := by
  rw [typeFaults] at clean
  split at clean
  · rw [noError_ofMismatch?, TypeAndShape.mismatch?] at clean
    split at clean
    · exact Shape.conforms_of_mismatch? clean
    · simp at clean
  · rw [noError_append] at clean
    exact conforms_of_noError_shapeFaults clean.2 whole ranked strict

theorem accepts_of_noError_typeFaults : dummy.type.accepts actual.type = true := by
  rw [typeFaults] at clean
  split at clean
  · rw [noError_ofMismatch?, TypeAndShape.mismatch?] at clean
    split at clean
    next accepted => exact accepted
    · simp at clean
  · rw [noError_append, noError_when] at clean
    refine Classical.byContradiction fun refused => ?_
    rw [Bool.not_eq_true] at refused
    exact clean.1 (by rw [Bool.not_eq_true']; exact refused) rfl

end

theorem isVariable_of_noError_definabilityFaults
    (clean : NoError (definabilityFaults table label dummy expr isElemental scope))
    (defined : dummy.isDefined = true) : table.isVariable expr = true := by
  simp only [definabilityFaults, defined, ↓reduceIte, noError_append] at clean
  obtain ⟨⟨definable, -⟩, -⟩ := clean
  rw [noError_toList_map fun _ => rfl, indefinable?] at definable
  split at definable
  · simp at definable
  next isVariable => simpa using isVariable

theorem pointer_of_noError_pointerFaults (clean : NoError (pointerFaults table label dummy expr))
    (pointer : dummy.has .pointer = true) :
    table.isPointer expr = true ∨
      dummy.intent = .in ∧ ∃ id, expr.lastSymbol? = some id ∧ (table.symbol id).canBeTarget = true := by
  simp only [pointerFaults, pointer, Bool.not_true, Bool.false_eq_true, ↓reduceIte, noError_append] at clean
  obtain ⟨-, clean⟩ := clean
  split at clean
  next isPointer => exact .inl isPointer
  · split at clean
    · simp [severity] at clean
    next intentIn =>
      rw [noError_when, Bool.not_eq_true'] at clean
      have target : isPointerToTarget table dummy expr = true := by
        refine Classical.byContradiction fun none => ?_
        exact clean (Bool.eq_false_iff.mpr none) rfl
      simp only [isPointerToTarget, Bool.and_eq_true] at target
      refine .inr ⟨by simpa using intentIn, ?_⟩
      cases named : expr.lastSymbol? with
      | none => simp [named] at target
      | some id => exact ⟨id, rfl, by simpa [named] using target.2⟩

theorem whole_of_noError_allocatableFaults (clean : NoError (allocatableFaults table label dummy expr actual))
    (allocatable : dummy.has .allocatable = true) :
    ∃ id, expr = .whole id ∧ (table.symbol id).isAllocatable = true ∧ dummy.typeAndShape.corank = actual.corank := by
  simp only [allocatableFaults, allocatable, Bool.not_true, Bool.false_eq_true, ↓reduceIte] at clean
  split at clean
  · simp [severity] at clean
  · split at clean
    · simp [severity] at clean
    next isWhole =>
      have corank : dummy.typeAndShape.corank = actual.corank := by
        refine Classical.byContradiction fun differ => ?_
        rw [noError_when, bne_iff_ne] at clean
        exact clean differ rfl
      simp only [isAllocatableWhole, Table.wholeSymbol?, Bool.not_eq_true', Bool.not_eq_false] at isWhole
      split at isWhole
      next id _ => exact ⟨id, rfl, by simpa using isWhole, corank⟩
      · simp at isWhole

variable (typed : expr.isTyped = true) (clean : NoError (dataFaults table label dummy expr isElementalCall scope))
include typed clean

theorem noError_dataFaults_of_isTyped :
    ∃ actual, table.exprTypeAndShape expr = some actual ∧
      NoError (typeFaults table label dummy expr actual (dummy.rank == 0 && isElementalCall)) ∧
      NoError (definabilityFaults table label dummy expr (dummy.rank == 0 && isElementalCall) scope) ∧
      NoError (allocatableFaults table label dummy expr actual) ∧ NoError (pointerFaults table label dummy expr) := by
  unfold dataFaults at clean
  split at clean
  · simp [Expr.isTyped] at typed
  · simp [Expr.isTyped] at typed
  · simp [Expr.isTyped] at typed
  · split at clean
    · simp [severity] at clean
    next actual found =>
      simp only [noError_append] at clean
      obtain ⟨⟨⟨⟨⟨⟨⟨⟨types, -⟩, definable⟩, -⟩, allocatable⟩, pointer⟩, -⟩, -⟩, -⟩ := clean
      exact ⟨actual, found, types, definable, allocatable, pointer⟩

theorem receives_of_noError :
    ∃ actual, table.exprTypeAndShape expr = some actual ∧
      dummy.Receives table expr actual (dummy.rank == 0 && isElementalCall) := by
  obtain ⟨actual, found, types, definable, allocatable, pointer⟩ :=
    noError_dataFaults_of_isTyped typed clean
  exact ⟨actual, found,
    { type := accepts_of_noError_typeFaults types
      shape := conforms_of_noError_typeFaults types
      definable := isVariable_of_noError_definabilityFaults definable
      pointer := pointer_of_noError_pointerFaults pointer
      allocatable := whole_of_noError_allocatableFaults allocatable }⟩

end

end DataObject

variable {finding : CallFinding} {dummies : List Dummy}

namespace Arrangement

variable {actuals : Actuals}

theorem isMisplaced_of_mem_keywordActuals {place : Nat} {seen : List String}
    (member : finding ∈ (keywordActuals place seen actuals).2) : finding.fault.isMisplaced = true := by
  fun_induction keywordActuals place seen actuals with
  | case1 => simp at member
  | case2 place seen actuals ih => exact ih member
  | case3 place seen actual actuals keyword named used others ih
  | case5 place seen actual actuals unnamed others ih =>
    rcases List.mem_cons.mp member with rfl | member
    · rfl
    · exact ih member
  | case4 place seen actual actuals keyword named fresh others ih => exact ih member

variable {arrangement : Arrangement}

theorem isMisplaced_of_mem_putKeyword {entry : String × Actual}
    (member : finding ∈ (putKeyword dummies arrangement entry).findings) :
    finding ∈ arrangement.findings ∨ finding.fault.isMisplaced = true := by
  rw [putKeyword] at member
  split at member
  · split at member
    · exact .inl member
    · rcases List.mem_append.mp member with member | added
      · exact .inl member
      · exact .inr (List.mem_singleton.mp added ▸ rfl)
  · rcases List.mem_append.mp member with member | added
    · exact .inl member
    · exact .inr (List.mem_singleton.mp added ▸ rfl)

theorem isMisplaced_of_mem_foldl_putKeyword {entries : List (String × Actual)}
    (member : finding ∈ (entries.foldl (putKeyword dummies) arrangement).findings) :
    finding ∈ arrangement.findings ∨ finding.fault.isMisplaced = true := by
  induction entries generalizing arrangement with
  | nil => exact .inl member
  | cons entry entries ih =>
    rcases ih member with earlier | isMisplaced
    · exact isMisplaced_of_mem_putKeyword earlier
    · exact .inr isMisplaced

variable (member : finding ∈ (ofActuals dummies actuals).findings)
include member

theorem isMisplaced_of_mem_ofActuals : finding.fault.isMisplaced = true := by
  rw [ofActuals] at member
  split at member
  · exact List.mem_singleton.mp member ▸ rfl
  · rcases isMisplaced_of_mem_foldl_putKeyword member with earlier | isMisplaced
    · exact isMisplaced_of_mem_keywordActuals earlier
    · exact isMisplaced

theorem isError_of_mem_ofActuals : finding.isError = true := by
  have isMisplaced := isMisplaced_of_mem_ofActuals member
  obtain ⟨fault, span⟩ := finding
  cases fault with
  | targetLost => cases isMisplaced
  | _ => rfl

end Arrangement

namespace Call

open CallFault Arrangement

variable {table : Table} {procedure : Procedure} {scope : Option ScopeId} {actuals : Actuals}
  {isElementalCall : Bool}

theorem mem_slotsFindings_iff {index : Nat} {slots : Actuals} :
    finding ∈ slotsFindings table isElementalCall scope index dummies slots ↔
      ∃ place dummy slot, dummies[place]? = some dummy ∧ slots[place]? = some slot ∧
        finding ∈ slotFindings table isElementalCall scope (index + place) dummy slot := by
  induction dummies generalizing slots index with
  | nil => simp [slotsFindings]
  | cons dummy dummies ih =>
    cases slots with
    | nil => simp [slotsFindings]
    | cons slot slots =>
      rw [slotsFindings, List.mem_append, ih]
      constructor
      · rintro (first | ⟨place, other, otherSlot, atDummies, atSlots, found⟩)
        · exact ⟨0, dummy, slot, rfl, rfl, first⟩
        · refine ⟨place + 1, other, otherSlot, atDummies, atSlots, ?_⟩
          rwa [Nat.add_assoc, Nat.add_comm 1 place] at found
      · rintro ⟨place, other, otherSlot, atDummies, atSlots, found⟩
        cases place with
        | zero =>
          simp only [List.getElem?_cons_zero, Option.some_inj] at atDummies atSlots
          subst atDummies atSlots
          exact .inl found
        | succ place =>
          refine .inr ⟨place, other, otherSlot, atDummies, atSlots, ?_⟩
          rwa [Nat.add_assoc, Nat.add_comm 1 place]

structure Accepted (table : Table) (procedure : Procedure) (scope : Option ScopeId)
    (actuals : Actuals) : Prop where
  arranged : Matches procedure.dummies actuals
  required : ∀ place dummy, procedure.dummies[place]? = some dummy → dummy.isOptional = false →
    ∃ index actual, GoesTo procedure.dummies actuals index place actual
  arguments : ∀ index place actual dummy, GoesTo procedure.dummies actuals index place actual →
    procedure.dummies[place]? = some dummy → NoError (argumentFaults table procedure.isElemental scope dummy actual)

theorem accepted_of_no_error
    (clean : ∀ finding ∈ (checkExplicit table procedure scope actuals).findings, finding.isError = false) :
    Accepted table procedure scope actuals := by
  rw [checkExplicit] at clean
  split at clean
  next complete =>
    have length := slots_length complete
    have harmless : ∀ place dummy slot, procedure.dummies[place]? = some dummy →
        (ofActuals procedure.dummies actuals).slots[place]? = some slot →
        ∀ finding ∈ slotFindings table procedure.isElemental scope place dummy slot, finding.isError = false := by
      intro place dummy slot atDummies atSlots finding found
      refine clean finding (List.mem_append_left _ ?_)
      exact mem_slotsFindings_iff.mpr ⟨place, dummy, slot, atDummies, atSlots, by simpa using found⟩
    refine ⟨isComplete_iff.mp complete, ?_, ?_⟩
    · intro place dummy atDummies required
      have bound : place < (ofActuals procedure.dummies actuals).slots.length :=
        length ▸ (List.getElem?_eq_some_iff.mp atDummies).1
      have atSlots := List.getElem?_eq_getElem bound
      cases held : (ofActuals procedure.dummies actuals).slots[place] with
      | none =>
        rw [held] at atSlots
        have quiet := harmless place dummy none atDummies atSlots
        simp [slotFindings, required, CallFinding.isError, severity] at quiet
      | some actual =>
        rw [held, slots_eq_some_iff complete] at atSlots
        obtain ⟨index, goes⟩ := atSlots
        exact ⟨index, actual, goes⟩
    · intro index place actual dummy goes atDummies fault member
      have atSlots := (slots_eq_some_iff complete place actual).mpr ⟨index, goes⟩
      have quiet := harmless place dummy (some actual) atDummies atSlots ⟨fault, actual.span⟩
        (List.mem_map_of_mem member)
      simpa [CallFinding.isError] using quiet
  next incomplete =>
    refine absurd ?_ incomplete
    rw [isComplete, List.isEmpty_iff, List.eq_nil_iff_forall_not_mem]
    intro finding member
    have isError := isError_of_mem_ofActuals member
    rw [clean finding member] at isError
    exact Bool.false_ne_true isError

/-- A reference that is checked without error leaves no required dummy argument without an argument,
and gives a data object no typed expression that it cannot receive. -/
theorem checkExplicit_sound
    (clean : ∀ finding ∈ (checkExplicit table procedure scope actuals).findings, finding.isError = false) :
    (∀ place dummy, procedure.dummies[place]? = some dummy → dummy.isOptional = false →
      ∃ index actual, GoesTo procedure.dummies actuals index place actual) ∧
    ∀ index place actual dummy object expr, GoesTo procedure.dummies actuals index place actual →
      procedure.dummies[place]? = some dummy → dummy.kind = .object object →
      actual.value = .expr expr → expr.isTyped = true →
      ∃ typeAndShape, table.exprTypeAndShape expr = some typeAndShape ∧
        object.Receives table expr typeAndShape (object.rank == 0 && procedure.isElemental) := by
  have accepted := accepted_of_no_error clean
  refine ⟨accepted.required, ?_⟩
  intro index place actual dummy object expr goes atDummies isObject isExpr typed
  have quiet := accepted.arguments index place actual dummy goes atDummies
  simp only [argumentFaults, isObject, isExpr] at quiet
  exact DataObject.receives_of_noError typed quiet

def vectorAndCount : Table :=
  ⟨#[⟨"x", .ofList [.allocatable], .empty,
      .object ⟨some (.intrinsic .real 4 none), [.colon none], [], none, false⟩, ⟨0⟩, ⟨0, 1⟩⟩,
    ⟨"n", .empty, .empty, .object ⟨some (.intrinsic .integer 4 none), [], [], none, false⟩, ⟨0⟩,
      ⟨2, 3⟩⟩], #[.globalScope]⟩

def allocatableVector : DataObject :=
  ⟨(TypeAndShape.ofShape (.plain .real 4) [none]).withAttribute .deferredShape, [], .inOut, .ofList [.allocatable]⟩

def fillVector : Procedure :=
  ⟨none, [.ofObject "a" allocatableVector,
    .ofObject "k" ⟨.scalar (.plain .integer 4), [], .out, .empty⟩], .ofList [.subroutine]⟩

def keywordsReversed : Actuals :=
  [some ⟨some "k", .expr (.whole ⟨1⟩), false, none⟩, some ⟨some "a", .expr (.whole ⟨0⟩), false, none⟩]

theorem checkExplicit_sound_keywordsReversed :
    (∀ finding ∈ (checkExplicit vectorAndCount fillVector none keywordsReversed).findings, finding.isError = false) ∧
    GoesTo fillVector.dummies keywordsReversed 1 0 ⟨some "a", .expr (.whole ⟨0⟩), false, none⟩ ∧
    ∃ typeAndShape, vectorAndCount.exprTypeAndShape (.whole ⟨0⟩) = some typeAndShape ∧
      allocatableVector.Receives vectorAndCount (.whole ⟨0⟩) typeAndShape false := by
  have clean : ∀ finding ∈ (checkExplicit vectorAndCount fillVector none keywordsReversed).findings,
      finding.isError = false := by decide
  have goes : GoesTo fillVector.dummies keywordsReversed 1 0
      ⟨some "a", .expr (.whole ⟨0⟩), false, none⟩ := ⟨rfl, by decide⟩
  exact ⟨clean, goes, (checkExplicit_sound clean).2 1 0 _ _ allocatableVector _ goes rfl rfl rfl rfl⟩

end Call

end FortranInterface
