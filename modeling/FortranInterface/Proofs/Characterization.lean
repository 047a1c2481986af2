import Mathlib.Data.Finset.Card
import FortranInterface.Proofs.Resolution.Change

/-!
How the characteristics of a procedure are found. They are put together from those of the symbols that
the procedure is linked to, so they are known if every walk along the links ends and meets only symbols
that are themselves known. The number of symbols is a bound on the length of such a walk.
-/

namespace FortranInterface.Table

open Relation

/-- The symbols whose characteristics are part of those of a symbol. -/
def followed (table : Table) (id : SymbolId) : List SymbolId :=
  match table.details id with
  | .subprogram subprogram => subprogram.links
  | .procEntity entity =>
    if (table.symbol id).has .intrinsic then [] else entity.interface.toList
  | .binding binding => [binding.procedure]
  | _ => []

def Follows (table : Table) (id link : SymbolId) : Prop :=
  link ∈ table.followed id

instance (table : Table) (id link : SymbolId) : Decidable (table.Follows id link) :=
  inferInstanceAs (Decidable (link ∈ table.followed id))

/-- A symbol that has no characteristics, whatever it is linked to: an object or function whose type is
not known, or an intrinsic function that is not specific. -/
def isBlocked (table : Table) (id : SymbolId) : Bool :=
  match table.details id with
  | .object object => object.type.any fun type => (table.typeOfDeclared type).isNone
  | .procEntity entity =>
    if (table.symbol id).has .intrinsic then (Intrinsic.specific? (table.symbol id).name).isNone
    else
      entity.interface.isNone && !(table.symbol id).usage.has .subroutine &&
        match entity.type with
        | some type => (table.typeOfDeclared type).isNone
        | none => (table.symbol id).usage.has .function
  | _ => false

/-- No walk from a symbol comes to a cycle. -/
def Ends (table : Table) (id : SymbolId) : Prop :=
  ∀ other, ReflTransGen table.Follows id other → ¬ TransGen table.Follows other other

/-- Every walk from a symbol ends, and on the way there is nothing without characteristics. -/
structure Grounded (table : Table) (id : SymbolId) : Prop where
  ends : table.Ends id
  clear : ∀ other, ReflTransGen table.Follows id other → table.isBlocked other = false

def Typed (table : Table) : Prop :=
  ∀ id object, table.details id = .object object → object.type.isSome = true

def procedureStep (table : Table) (known : SymbolId → Option Procedure) (id : SymbolId) :
    Option Procedure :=
  match table.details id with
  | .subprogram subprogram =>
    subprogramWith table known (Procedure.declaredAttributes (table.symbol id)) subprogram
  | .procEntity entity =>
    if (table.symbol id).has .intrinsic then
      (Intrinsic.specific? (table.symbol id).name).map Procedure.ofSpecific
    else
      match entity.interface with
      | some interface => known interface
      | none =>
        table.unknownInterface (table.symbol id) (Procedure.declaredAttributes (table.symbol id)) entity
  | .binding binding =>
    (known binding.procedure).map fun found =>
      if (table.symbol id).has .noPass then found else found.markPassed binding.passName
  | _ => none

variable {table : Table} {id link : SymbolId} {links : Nat}

theorem procedureWithin_succ (table : Table) (links : Nat) :
    table.procedureWithin (links + 1) = procedureStep table (table.procedureWithin links) :=
  rfl

theorem isProcedure_of_procedureStep {known : SymbolId → Option Procedure} {procedure : Procedure}
    (found : procedureStep table known id = some procedure) : (table.details id).isProcedure = true := by
  unfold procedureStep at found
  split at found
  next isSubprogram => rw [isSubprogram]; rfl
  next isEntity => rw [isEntity]; rfl
  next isBinding => rw [isBinding]; rfl
  · cases found

theorem isProcedure_of_procedure {procedure : Procedure} (found : table.procedure id = some procedure) :
    (table.details id).isProcedure = true := by
  rw [Table.procedure] at found
  cases size : table.symbols.size with
  | zero =>
    rw [size] at found
    cases found
  | succ links =>
    rw [size, procedureWithin_succ] at found
    exact isProcedure_of_procedureStep found

/-! Specific procedures. -/

section Specific

variable {isFunction : Bool} {generic : SymbolId} {actuals : Actuals}

theorem procedure_of_fits (fits : table.fits isFunction id actuals = true) :
    ∃ procedure, table.procedure id = some procedure ∧ procedure.isFunction = isFunction ∧
      Call.fitsGeneric table procedure actuals = true := by
  rw [Table.fits] at fits
  split at fits
  next procedure found =>
    rw [Bool.and_eq_true, beq_iff_eq] at fits
    exact ⟨procedure, found, fits⟩
  · simp at fits

theorem isProcedure_of_fits (fits : table.fits isFunction id actuals = true) :
    (table.details id).isProcedure = true := by
  obtain ⟨procedure, found, -⟩ := procedure_of_fits fits
  exact isProcedure_of_procedure found

theorem isProcedure_of_specificFor (found : table.specificFor? generic actuals isFunction = some id) :
    (table.details id).isProcedure = true := by
  rw [specificFor?] at found
  have fits := List.find?_some found
  exact isProcedure_of_fits fits

theorem isProcedure_of_boundSpecificFor {object : Expr} {span : Span} {passed : Actuals}
    (found : table.boundSpecificFor? generic object span actuals isFunction = some (id, passed)) :
    (table.details id).isProcedure = true := by
  obtain ⟨specific, -, isFound⟩ := List.exists_of_findSome?_eq_some found
  dsimp only at isFound
  split at isFound
  next fits =>
    cases isFound
    exact isProcedure_of_fits fits
  · cases isFound

theorem isProcedure_of_operatorFor {scope : ScopeId} {name : String} {operands : List Expr}
    (found : table.operatorFor? scope name operands actuals isFunction = some (generic, id)) :
    (table.details id).isProcedure = true := by
  obtain ⟨other, -, isFound⟩ := List.exists_of_findSome?_eq_some found
  obtain ⟨specific, isSpecific, same⟩ := Option.map_eq_some_iff.mp isFound
  cases same
  exact isProcedure_of_specificFor isSpecific

end Specific

/-! One step. -/

section Step

variable {known other : SymbolId → Option Procedure}

theorem mapM_congr_of_mem {α β : Type} {first second : α → Option β} {values : List α}
    (agree : ∀ value ∈ values, first value = second value) : values.mapM first = values.mapM second := by
  induction values with
  | nil => rfl
  | cons value values ih =>
    rw [List.mapM_cons, List.mapM_cons, agree value (by simp), ih fun other member => agree other (by simp [member])]

theorem isSome_mapM_iff {α β : Type} {function : α → Option β} {values : List α} :
    (values.mapM function).isSome = true ↔ ∀ value ∈ values, (function value).isSome = true := by
  induction values with
  | nil => simp
  | cons value values ih =>
    rw [List.mapM_cons, List.forall_mem_cons, ← ih]
    cases function value with
    | none => simp
    | some found => cases values.mapM function <;> simp

variable {subprogram : SubprogramDetails}

theorem mem_links_iff : link ∈ subprogram.links ↔ some link ∈ subprogram.dummies ∨ subprogram.result = some link := by
  simp [SubprogramDetails.links]

variable {attributes : Flags ProcedureAttribute}

theorem subprogramWith_congr (agree : ∀ link ∈ subprogram.links, known link = other link) :
    subprogramWith table known attributes subprogram = subprogramWith table other attributes subprogram := by
  have dummies : subprogram.dummies.mapM (placeWith table known) =
      subprogram.dummies.mapM (placeWith table other) := by
    refine mapM_congr_of_mem fun dummy member => ?_
    cases dummy with
    | none => rfl
    | some link =>
      rw [placeWith, placeWith, dummyWith, dummyWith, dummyProcedureWith, dummyProcedureWith,
        agree link (mem_links_iff.mpr (.inl member))]
  rw [subprogramWith, subprogramWith, dummies]
  cases result : subprogram.result with
  | none => rfl
  | some link =>
    simp only [functionResultWith, agree link (mem_links_iff.mpr (.inr result))]

theorem procedureStep_congr (agree : ∀ link, table.Follows id link → known link = other link) :
    procedureStep table known id = procedureStep table other id := by
  unfold Follows followed at agree
  unfold procedureStep
  split
  next subprogram isSubprogram =>
    simp only [isSubprogram] at agree
    exact subprogramWith_congr agree
  next entity isEntity =>
    simp only [isEntity] at agree
    split
    · rfl
    next plain =>
      split
      next interface isInterface => exact agree interface (by simp [plain, isInterface])
      · rfl
  next binding isBinding =>
    simp only [isBinding] at agree
    rw [agree binding.procedure (by simp)]
  · rfl

def isKnownWith (table : Table) (known : SymbolId → Option Procedure) (id : SymbolId) : Bool :=
  if (table.details id).isObject then (table.objectTypeAndShape id).isSome else (known id).isSome

theorem isSome_dummyWith : (dummyWith table known id).isSome = table.isKnownWith known id := by
  simp only [dummyWith, isKnownWith, dataObject, dummyProcedureWith, details]
  by_cases isObject : (table.symbol id).details.isObject = true <;> simp [isObject]

theorem isSome_functionResultWith : (functionResultWith table known id).isSome = table.isKnownWith known id := by
  simp only [functionResultWith, isKnownWith, details]
  by_cases isObject : (table.symbol id).details.isObject = true <;> simp [isObject]

theorem isSome_subprogramWith_iff :
    (subprogramWith table known attributes subprogram).isSome = true ↔
      ∀ link ∈ subprogram.links, table.isKnownWith known link = true := by
  have dummies : (subprogram.dummies.mapM (placeWith table known)).isSome = true ↔
      ∀ link, some link ∈ subprogram.dummies → table.isKnownWith known link = true := by
    rw [isSome_mapM_iff]
    constructor
    · intro all link member
      rw [← isSome_dummyWith]
      exact all (some link) member
    · intro all dummy member
      cases dummy with
      | none => rfl
      | some link => exact isSome_dummyWith.trans (all link member)
  simp only [mem_links_iff, or_imp, forall_and, ← dummies]
  rw [subprogramWith]
  cases subprogram.result with
  | none => simp
  | some link =>
    cases found : functionResultWith table known link with
    | none => simp [← isSome_functionResultWith, found]
    | some result => simp [← isSome_functionResultWith, found]

theorem isKnownWith_of_isObject (typed : table.Typed) (isObject : (table.details id).isObject = true) :
    table.isKnownWith known id = !table.isBlocked id := by
  rw [isKnownWith, if_pos isObject, objectTypeAndShape, isBlocked]
  cases isDetails : table.details id with
  | object object =>
    have hasType := typed id object isDetails
    cases type : object.type with
    | none => simp [type] at hasType
    | some declared => simp [type]
  | _ => simp [isDetails, Details.isObject] at isObject

theorem isSome_unknownInterface {symbol : Symbol} {entity : ProcEntityDetails} :
    (table.unknownInterface symbol attributes entity).isSome =
      (symbol.usage.has .subroutine ||
        !match entity.type with
          | some type => (table.typeOfDeclared type).isNone
          | none => symbol.usage.has .function) := by
  unfold unknownInterface
  cases symbol.usage.has .subroutine with
  | true => rfl
  | false =>
    cases entity.type with
    | some type => simp
    | none => cases symbol.usage.has .function <;> rfl

theorem isKnownWith_of_isProcedure (isProcedure : (table.details id).isProcedure = true) :
    table.isKnownWith known id = (known id).isSome := by
  have notObject : (table.details id).isObject = false := by
    cases isDetails : table.details id with
    | object => simp [isDetails, Details.isProcedure] at isProcedure
    | _ => rfl
  simp [isKnownWith, notObject]

theorem isSome_procedureStep_iff (linked : table.LinkedAt id (table.details id))
    (isProcedure : (table.details id).isProcedure = true) :
    (procedureStep table known id).isSome = true ↔
      table.isBlocked id = false ∧ ∀ link, table.Follows id link → table.isKnownWith known link = true := by
  unfold Follows followed procedureStep isBlocked
  cases isDetails : table.details id with
  | subprogram subprogram => simpa using isSome_subprogramWith_iff
  | procEntity entity =>
    rw [isDetails] at linked
    by_cases isIntrinsic : (table.symbol id).has .intrinsic = true
    · simp [isIntrinsic]
    · cases isInterface : entity.interface with
      | some interface =>
        simp [isIntrinsic, isInterface, isKnownWith_of_isProcedure (linked interface isInterface)]
      | none => simp [isIntrinsic, isInterface, isSome_unknownInterface, or_iff_not_imp_left]
  | binding binding =>
    rw [isDetails] at linked
    simp [isKnownWith_of_isProcedure linked.2]
  | _ =>
    rw [isDetails] at isProcedure
    cases isProcedure

end Step

/-! Walks. -/

theorem lt_size_of_follows (follows : table.Follows id link) : id.index < table.symbols.size := by
  refine lt_size_of_isProcedure ?_
  unfold Follows followed at follows
  cases isDetails : table.details id with
  | subprogram | procEntity | binding => rfl
  | _ => simp [isDetails] at follows

open Classical in
noncomputable def reach (table : Table) (id : SymbolId) : Finset Nat :=
  (Finset.range table.symbols.size).filter fun index => ReflTransGen table.Follows id ⟨index⟩

theorem mem_reach_iff {index : Nat} : index ∈ table.reach id ↔
    index < table.symbols.size ∧ ReflTransGen table.Follows id ⟨index⟩ := by
  simp [reach]

theorem card_reach_le : (table.reach id).card ≤ table.symbols.size := by
  have within : table.reach id ⊆ Finset.range table.symbols.size :=
    fun index member => Finset.mem_range.mpr (mem_reach_iff.mp member).1
  simpa using Finset.card_le_card within

theorem index_mem_reach (bound : id.index < table.symbols.size) : id.index ∈ table.reach id :=
  mem_reach_iff.mpr ⟨bound, .refl⟩

/-- Behind a link there is less to reach, unless it leads back. -/
theorem card_reach_lt (follows : table.Follows id link) (noCycle : ¬ TransGen table.Follows id id) :
    (table.reach link).card < (table.reach id).card := by
  have within : table.reach link ⊆ table.reach id := by
    intro index member
    obtain ⟨bound, reaches⟩ := mem_reach_iff.mp member
    exact mem_reach_iff.mpr ⟨bound, .head follows reaches⟩
  have here : id.index ∉ table.reach link :=
    fun member => noCycle (.head' follows (mem_reach_iff.mp member).2)
  refine Finset.card_lt_card ((Finset.ssubset_iff_of_subset within).mpr ⟨id.index, ?_, here⟩)
  exact index_mem_reach (lt_size_of_follows follows)

namespace Ends

theorem follow (ends : table.Ends id) (follows : table.Follows id link) : table.Ends link :=
  fun other reaches => ends other (.head follows reaches)

theorem of_follow (ends : ∀ link, table.Follows id link → table.Ends link) : table.Ends id := by
  intro other reaches
  obtain rfl | ⟨link, follows, rest⟩ := ReflTransGen.cases_head reaches
  -- A symbol on a cycle would be met again behind one of its links.
  · intro cycle
    obtain ⟨link, follows, rest⟩ := TransGen.head'_iff.mp cycle
    exact ends link follows id rest cycle
  · exact ends link follows other rest

theorem acc (ends : table.Ends id) : Acc (fun link id => table.Follows id link) id := by
  -- Behind every link there is less to reach.
  induction size : (table.reach id).card using Nat.strong_induction_on generalizing id with
  | _ size ih =>
    subst size
    refine .intro id fun link follows => ?_
    exact ih _ (card_reach_lt follows (ends id .refl)) (ends.follow follows) rfl

end Ends

theorem procedureWithin_succ_eq (ends : table.Ends id) (enough : (table.reach id).card ≤ links) :
    table.procedureWithin (links + 1) id = table.procedureWithin links id := by
  -- Each link that is followed leaves less to reach, so the bound stays large enough.
  induction links generalizing id with
  | zero =>
    have outside : ¬ id.index < table.symbols.size := by
      intro bound
      have isEmpty := Finset.card_eq_zero.mp (Nat.le_zero.mp enough)
      have member := index_mem_reach bound
      simp [isEmpty] at member
    rw [procedureWithin_succ, procedureStep, details_of_not_lt outside]
    rfl
  | succ links ih =>
    rw [procedureWithin_succ, procedureWithin_succ table links]
    refine procedureStep_congr fun link follows => ih (ends.follow follows) ?_
    have less := card_reach_lt follows (ends id .refl)
    omega

theorem procedureWithin_eq_procedure (ends : table.Ends id) (enough : table.symbols.size ≤ links) :
    table.procedureWithin links id = table.procedure id := by
  induction links, enough using Nat.le_induction with
  | base => rfl
  | succ links enough ih => rw [procedureWithin_succ_eq ends (card_reach_le.trans enough), ih]

theorem procedure_eq_step (ends : table.Ends id) : table.procedure id = procedureStep table table.procedure id :=
  (procedureWithin_eq_procedure ends (Nat.le_succ _)).symm

/-! Procedures whose characteristics are known. -/

namespace Grounded

theorem follow (grounded : table.Grounded id) (follows : table.Follows id link) : table.Grounded link :=
  ⟨grounded.ends.follow follows, fun other reaches => grounded.clear other (.head follows reaches)⟩

end Grounded

theorem not_follows_of_isObject (isObject : (table.details id).isObject = true) : ¬ table.Follows id link := by
  unfold Follows followed
  cases isDetails : table.details id with
  | object => simp
  | _ => simp [isDetails, Details.isObject] at isObject

theorem isProcedure_of_follows (linked : table.Linked) (follows : table.Follows id link)
    (notObject : (table.details link).isObject = false) : (table.details link).isProcedure = true := by
  have here := linked id
  unfold Follows followed at follows
  cases isDetails : table.details id with
  | subprogram subprogram =>
    rw [isDetails] at here follows
    have isArgument := (here link follows).2
    cases isLink : table.details link with
    | procEntity | subprogram | binding => rfl
    | _ => simp_all [Details.isArgument, Details.isObject]
  | procEntity entity =>
    rw [isDetails] at here follows
    by_cases isIntrinsic : (table.symbol id).has .intrinsic = true
    · simp [isIntrinsic] at follows
    · exact here link (by simpa [isIntrinsic] using follows)
  | binding binding =>
    rw [isDetails] at here follows
    obtain rfl := List.mem_singleton.mp follows
    exact here.2
  | _ => simp [isDetails] at follows

section Known

variable (linked : table.Linked)
include linked

theorem isKnownWith_of_isSome (isSome : (table.procedureWithin (links + 1) id).isSome = true) :
    table.isBlocked id = false ∧
      ∀ link, table.Follows id link → table.isKnownWith (table.procedureWithin links) link = true := by
  rw [procedureWithin_succ] at isSome
  obtain ⟨procedure, found⟩ := Option.isSome_iff_exists.mp isSome
  exact (isSome_procedureStep_iff (linked id) (isProcedure_of_procedureStep found)).mp isSome

theorem ends_of_isSome (isSome : (table.procedureWithin links id).isSome = true) : table.Ends id := by
  induction links generalizing id with
  | zero => cases isSome
  | succ links ih =>
    obtain ⟨-, all⟩ := isKnownWith_of_isSome linked isSome
    refine .of_follow fun link follows => ?_
    have isKnown := all link follows
    cases isObject : (table.details link).isObject with
    | true => exact .of_follow fun _ follows => absurd follows (not_follows_of_isObject isObject)
    | false => exact ih (by simpa [isKnownWith, isObject] using isKnown)

variable (typed : table.Typed)
include typed

theorem clear_of_isSome (isSome : (table.procedureWithin links id).isSome = true) (other : SymbolId)
    (reaches : ReflTransGen table.Follows id other) : table.isBlocked other = false := by
  induction links generalizing id with
  | zero => cases isSome
  | succ links ih =>
    obtain ⟨clear, all⟩ := isKnownWith_of_isSome linked isSome
    obtain rfl | ⟨link, follows, rest⟩ := ReflTransGen.cases_head reaches
    · exact clear
    · have isKnown := all link follows
      cases isObject : (table.details link).isObject with
      | true =>
        obtain rfl | ⟨_, follows, -⟩ := ReflTransGen.cases_head rest
        · simpa [isKnownWith_of_isObject typed isObject] using isKnown
        · exact absurd follows (not_follows_of_isObject isObject)
      | false => exact ih (by simpa [isKnownWith, isObject] using isKnown) rest

theorem isSome_of_grounded (grounded : table.Grounded id)
    (isProcedure : (table.details id).isProcedure = true) (enough : (table.reach id).card ≤ links) :
    (table.procedureWithin links id).isSome = true := by
  induction links generalizing id with
  | zero =>
    have member := index_mem_reach (lt_size_of_isProcedure isProcedure)
    simp [Finset.card_eq_zero.mp (Nat.le_zero.mp enough)] at member
  | succ links ih =>
    rw [procedureWithin_succ, isSome_procedureStep_iff (linked id) isProcedure]
    refine ⟨grounded.clear id .refl, fun link follows => ?_⟩
    cases isObject : (table.details link).isObject with
    | true =>
      rw [isKnownWith_of_isObject typed isObject]
      simp [grounded.clear link (.single follows)]
    | false =>
      have less := card_reach_lt follows (grounded.ends id .refl)
      have isLinkProcedure := isProcedure_of_follows linked follows isObject
      rw [isKnownWith_of_isProcedure isLinkProcedure]
      exact ih (grounded.follow follows) isLinkProcedure (by omega)

/-- The characteristics of a procedure are known if every walk from it ends and meets nothing that is
blocked, and only then. -/
theorem isSome_procedure_iff (isProcedure : (table.details id).isProcedure = true) :
    (table.procedure id).isSome = true ↔ table.Grounded id :=
  ⟨fun isSome => ⟨ends_of_isSome linked isSome, clear_of_isSome linked typed isSome⟩,
    fun grounded => isSome_of_grounded linked typed grounded isProcedure card_reach_le⟩

end Known

/-! Cycles. -/

def weight (table : Table) (id : SymbolId) : Nat :=
  if (table.details id).isBinding then table.symbols.size + id.index
  else table.symbols.size - id.index

def Loops (table : Table) (id : SymbolId) : Prop :=
  ∃ interface, (table.details id).entityInterface? = some interface ∧
    (table.symbol id).has .intrinsic = false ∧ ReflTransGen table.Follows interface id

theorem follows_of_entityInterface {interface : SymbolId}
    (isInterface : (table.details id).entityInterface? = some interface)
    (plain : (table.symbol id).has .intrinsic = false) : table.Follows id interface := by
  unfold Follows followed
  cases isDetails : table.details id with
  | procEntity entity =>
    rw [isDetails] at isInterface
    simpa [plain, Details.entityInterface?] using isInterface
  | _ => simp [isDetails, Details.entityInterface?] at isInterface

variable (linked : table.Linked)
include linked

theorem weight_lt (follows : table.Follows id link) (back : ReflTransGen table.Follows link id)
    (noLoop : ¬ table.Loops id) : table.weight link < table.weight id := by
  have bound := lt_size_of_follows follows
  have here := linked id
  unfold Follows followed at follows
  cases isDetails : table.details id with
  | subprogram subprogram =>
    rw [isDetails] at here follows
    -- What a subprogram is linked to was made after it, and is no binding.
    obtain ⟨later, isArgument⟩ := here link follows
    have notBinding : (table.details link).isBinding = false := by
      cases isLink : table.details link with
      | binding => simp [isLink, Details.isArgument] at isArgument
      | _ => rfl
    rw [weight, weight, notBinding, isDetails]
    exact Nat.sub_lt_sub_left bound later
  | procEntity entity =>
    -- This is the only way back.
    rw [isDetails] at follows
    by_cases isIntrinsic : (table.symbol id).has .intrinsic = true
    · simp [isIntrinsic] at follows
    · have isInterface : entity.interface = some link := by simpa [isIntrinsic] using follows
      refine absurd ⟨link, ?_, Bool.eq_false_iff.mpr isIntrinsic, back⟩ noLoop
      rw [isDetails]
      exact isInterface
  | binding binding =>
    rw [isDetails] at here follows
    obtain rfl := List.mem_singleton.mp follows
    have earlier := here.1
    have isBinding : (table.details id).isBinding = true := by rw [isDetails]; rfl
    rw [weight, weight, if_pos isBinding]
    split <;> omega
  | _ => simp [isDetails] at follows

theorem weight_lt_of_transGen (noLoop : ∀ other, ReflTransGen table.Follows id other → ¬ table.Loops other)
    (forth : TransGen table.Follows id link) (back : ReflTransGen table.Follows link id) :
    table.weight link < table.weight id := by
  induction forth with
  | single follows => exact weight_lt linked follows back (noLoop id .refl)
  | tail earlier follows ih =>
    have first := ih (.head follows back)
    have second := weight_lt linked follows (back.trans earlier.to_reflTransGen) (noLoop _ earlier.to_reflTransGen)
    omega

/-- Only the interface of a procedure entity can close a cycle. -/
theorem ends_iff : table.Ends id ↔ ∀ other, ReflTransGen table.Follows id other → ¬ table.Loops other := by
  constructor
  · rintro ends other reaches ⟨interface, isInterface, plain, back⟩
    exact ends other reaches (.head' (follows_of_entityInterface isInterface plain) back)
  · intro noLoop other reaches cycle
    exact Nat.lt_irrefl _ (weight_lt_of_transGen linked
      (fun further more => noLoop further (reaches.trans more)) cycle .refl)

end FortranInterface.Table
