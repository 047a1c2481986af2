import Mathlib.Data.List.Infix
import FortranInterface.Procedure.Distinguishable
import FortranInterface.Proofs.ExplicitCheck

/-!
When two dummy arguments take the same argument. Dummy arguments that count as distinguishable take
none in common if the argument shows its type, rank and attributes, and if a procedure that it passes
is known with an explicit interface. What one type accepts through another it accepts itself, unless
polymorphism is lost on the way.
-/

namespace FortranInterface

namespace DerivedName

/-- Where the name of another type stands among the names of a type, the ancestors of the other
follow it. Types of one name are then one type. -/
def Coherent (type other : DerivedName) : Prop :=
  ∀ names, other.name :: names <:+ type.chain → names = other.ancestors

variable {type mine theirs : DerivedName}

theorem chain_suffix_of_isExtensionOf (coherent : type.Coherent mine)
    (extension : type.isExtensionOf mine = true) : mine.chain <:+ type.chain := by
  rw [isExtensionOf, decide_eq_true_eq] at extension
  obtain ⟨before, names, split⟩ := List.append_of_mem extension
  have suffix : mine.name :: names <:+ type.chain := ⟨before, split.symm⟩
  rw [chain, ← coherent names suffix]
  exact suffix

theorem isExtensionOf_of_chain_suffix (suffix : mine.chain <:+ theirs.chain) : theirs.isExtensionOf mine = true := by
  rw [isExtensionOf, decide_eq_true_eq]
  exact suffix.subset List.mem_cons_self

theorem isExtensionOf_trans (coherent : type.Coherent theirs) (extension : type.isExtensionOf theirs = true)
    (extended : theirs.isExtensionOf mine = true) : type.isExtensionOf mine = true := by
  rw [isExtensionOf, decide_eq_true_eq] at extended ⊢
  exact (chain_suffix_of_isExtensionOf coherent extension).subset extended
theorem isExtensionOf_or_isExtensionOf (coherentMine : type.Coherent mine)
    (coherentTheirs : type.Coherent theirs) (ofMine : type.isExtensionOf mine = true)
    (ofTheirs : type.isExtensionOf theirs = true) :
    theirs.isExtensionOf mine = true ∨ mine.isExtensionOf theirs = true := by
  have suffixMine := chain_suffix_of_isExtensionOf coherentMine ofMine
  have suffixTheirs := chain_suffix_of_isExtensionOf coherentTheirs ofTheirs
  rcases List.suffix_or_suffix_of_suffix suffixMine suffixTheirs with shorter | longer
  · exact .inl (isExtensionOf_of_chain_suffix shorter)
  · exact .inr (isExtensionOf_of_chain_suffix longer)

def lineage (type : DerivedName) : List DerivedName :=
  type.chain.tails.filterMap fun names => names.head?.map (⟨·, names.tail⟩)

theorem mem_lineage {spec : DerivedName} (suffix : spec.chain <:+ type.chain) : spec ∈ type.lineage :=
  List.mem_filterMap.mpr ⟨spec.chain, (List.mem_tails _ _).mpr suffix, rfl⟩

theorem isExtensionOf_of_name_eq (coherent : type.Coherent mine) (same : mine.name = type.name)
    (extension : type.isExtensionOf theirs = true) : mine.isExtensionOf theirs = true := by
  have ancestors := coherent type.ancestors (same ▸ List.suffix_refl type.chain)
  rw [isExtensionOf, chain] at extension ⊢
  rwa [same, ← ancestors]

end DerivedName

namespace DynamicType

def CoherentWith (actual declared : DynamicType) : Prop :=
  ∀ type name, actual.derivedName? = some type → declared.derivedName? = some name → type.Coherent name

inductive TakenBy (actual : DynamicType) : DynamicType → Prop where
  | unlimited : TakenBy actual .unlimited
  | assumed (kind : Nat) : TakenBy actual (.plain .derived kind)
  | same : actual.derivedName? = none → TakenBy actual actual
  | extension {name type : DerivedName} : actual.derivedName? = some type →
      type.isExtensionOf name = true → TakenBy actual (.classOf name)
  | named {name type : DerivedName} : actual.derivedName? = some type → name.name = type.name →
      TakenBy actual (.type name)

variable {actual declared : DynamicType}

theorem takenBy_of_accepts (accepted : declared.accepts actual = true) : actual.TakenBy declared := by
  cases declared with
  | unlimited => exact .unlimited
  | plain category kind =>
    by_cases assumed : category = .derived
    · exact assumed ▸ .assumed kind
    · cases actual with
      | plain category' kind' =>
        have same : category = category' ∧ kind = kind' := by
          cases category <;> simp_all [accepts]
        rw [same.1, same.2]
        exact .same rfl
      | type | classOf | unlimited => cases category <;> simp_all [accepts]
  | type name =>
    cases actual with
    | type _ | classOf _ => exact .named rfl (by simpa [accepts] using accepted)
    | plain | unlimited => simp [accepts] at accepted
  | classOf name =>
    cases actual with
    | type _ | classOf _ => exact .extension rfl (by simpa [accepts] using accepted)
    | plain | unlimited => simp [accepts] at accepted

theorem tkCompatible_self (type : DynamicType) : type.tkCompatible type = true := by
  cases type with
  | plain category kind => cases category <;> simp [tkCompatible]
  | type | classOf | unlimited => simp [tkCompatible]

theorem tkCompatible_assumed_left (kind : Nat) (type : DynamicType) :
    (plain .derived kind).tkCompatible type = true := by
  cases type <;> simp [tkCompatible]

theorem tkCompatible_unlimited_right (type : DynamicType) : type.tkCompatible .unlimited = true := by
  cases type <;> simp [tkCompatible]

theorem tkCompatible_classOf_type {mine theirs : DerivedName} (extension : theirs.isExtensionOf mine = true) :
    (classOf mine).tkCompatible (type theirs) = true := by
  simp [tkCompatible, extension]

theorem tkCompatible_of_accepts {mine theirs actual : DynamicType}
    (coherentMine : actual.CoherentWith mine) (coherentTheirs : actual.CoherentWith theirs)
    (acceptsMine : mine.accepts actual = true) (acceptsTheirs : theirs.accepts actual = true) :
    mine.tkCompatible theirs = true ∨ theirs.tkCompatible mine = true := by
  cases takenBy_of_accepts acceptsMine with
  | unlimited => exact .inr (tkCompatible_unlimited_right theirs)
  | assumed kind => exact .inl (tkCompatible_assumed_left kind theirs)
  | same plain =>
    cases takenBy_of_accepts acceptsTheirs with
    | unlimited => exact .inl (tkCompatible_unlimited_right mine)
    | assumed kind => exact .inr (tkCompatible_assumed_left kind mine)
    | same => exact .inl (tkCompatible_self mine)
    | extension typed | named typed => simp [plain] at typed
  | @extension name type typed ofMine =>
    cases takenBy_of_accepts acceptsTheirs with
    | unlimited => exact .inl (tkCompatible_unlimited_right _)
    | assumed kind => exact .inr (tkCompatible_assumed_left kind _)
    | same plain => simp [plain] at typed
    | @extension other again typedAgain ofTheirs =>
      obtain rfl : type = again := Option.some_inj.mp (typed.symm.trans typedAgain)
      rcases DerivedName.isExtensionOf_or_isExtensionOf (coherentMine type name typed rfl)
        (coherentTheirs type other typed rfl) ofMine ofTheirs with longer | shorter
      · exact .inl (by simp [tkCompatible, longer])
      · exact .inr (by simp [tkCompatible, shorter])
    | @named other again typedAgain sameName =>
      obtain rfl : type = again := Option.some_inj.mp (typed.symm.trans typedAgain)
      have extension := DerivedName.isExtensionOf_of_name_eq (coherentTheirs type other typed rfl) sameName ofMine
      exact .inl (tkCompatible_classOf_type extension)
  | @named name type typed sameName =>
    cases takenBy_of_accepts acceptsTheirs with
    | unlimited => exact .inl (tkCompatible_unlimited_right _)
    | assumed kind => exact .inr (tkCompatible_assumed_left kind _)
    | same plain => simp [plain] at typed
    | @extension other again typedAgain ofTheirs =>
      obtain rfl : type = again := Option.some_inj.mp (typed.symm.trans typedAgain)
      have extension := DerivedName.isExtensionOf_of_name_eq (coherentMine type name typed rfl) sameName ofTheirs
      exact .inr (tkCompatible_classOf_type extension)
    | @named other again typedAgain sameOther =>
      obtain rfl : type = again := Option.some_inj.mp (typed.symm.trans typedAgain)
      exact .inl (by simp [tkCompatible, sameName, sameOther])

def lineage (type : DynamicType) : List DerivedName :=
  type.derivedName?.elim [] DerivedName.lineage

/-- Derived types of one name are one type, wherever they stand above some of the given types. -/
def NameConsistent (types : List DynamicType) : Prop :=
  ∀ mine ∈ types.flatMap lineage, ∀ theirs ∈ types.flatMap lineage, mine.name = theirs.name → mine = theirs

instance (types : List DynamicType) : Decidable (NameConsistent types) :=
  inferInstanceAs (Decidable (∀ mine ∈ types.flatMap lineage, _))

theorem coherentWith_of_nameConsistent {types : List DynamicType} (consistent : NameConsistent types)
    (isActual : actual ∈ types) (isDeclared : declared ∈ types) : actual.CoherentWith declared := by
  intro type name typed named names suffix
  have above : (⟨name.name, names⟩ : DerivedName) ∈ types.flatMap lineage := by
    refine List.mem_flatMap.mpr ⟨actual, isActual, ?_⟩
    rw [lineage, typed]
    exact DerivedName.mem_lineage suffix
  have itself : name ∈ types.flatMap lineage := by
    refine List.mem_flatMap.mpr ⟨declared, isDeclared, ?_⟩
    rw [lineage, named]
    exact DerivedName.mem_lineage (List.suffix_refl name.chain)
  exact congrArg DerivedName.ancestors (consistent _ above _ itself rfl)

/-- Two types that accept an argument of a third do not tell two procedures apart. -/
theorem common_acceptance_tkCompatible (first second actual : DynamicType)
    (consistent : NameConsistent [first, second, actual])
    (acceptsFirst : first.accepts actual = true) (acceptsSecond : second.accepts actual = true) :
    first.tkCompatible second = true ∨ second.tkCompatible first = true :=
  tkCompatible_of_accepts (coherentWith_of_nameConsistent consistent (by simp) (by simp))
    (coherentWith_of_nameConsistent consistent (by simp) (by simp)) acceptsFirst acceptsSecond

/-- `CLASS(b)` and `CLASS(a)`, where `c` extends `b` and `b` extends `a`. Only the second is compatible with the first. -/
theorem common_acceptance_tkCompatible_extendedTwice :
    NameConsistent [.classOf ⟨"b", ["a"]⟩, .classOf ⟨"a", []⟩, .type ⟨"c", ["b", "a"]⟩] ∧
      (classOf ⟨"b", ["a"]⟩).tkCompatible (.classOf ⟨"a", []⟩) = false ∧
      (classOf ⟨"a", []⟩).tkCompatible (.classOf ⟨"b", ["a"]⟩) = true := by
  have consistent : NameConsistent [.classOf ⟨"b", ["a"]⟩, .classOf ⟨"a", []⟩, .type ⟨"c", ["b", "a"]⟩] := by decide
  have forward : (classOf ⟨"b", ["a"]⟩).tkCompatible (.classOf ⟨"a", []⟩) = false := by decide
  refine ⟨consistent, forward, ?_⟩
  have either := common_acceptance_tkCompatible _ _ _ consistent (by decide) (by decide)
  rwa [forward, or_iff_right Bool.false_ne_true] at either

/-! Acceptance along a chain of types. -/

theorem accepts_self (type : DynamicType) : type.accepts type = true := by
  cases type with
  | plain category kind => cases category <;> simp [accepts, isTypeless]
  | type | classOf => simp [accepts, DerivedName.isExtensionOf, DerivedName.chain]
  | unlimited => rfl

theorem isTypeless_of_accepts (accepted : declared.accepts actual = true) (typeless : actual.isTypeless = true) :
    declared.isTypeless = true := by
  cases takenBy_of_accepts accepted with
  | unlimited | assumed => simp [accepts, typeless] at accepted
  | same => exact typeless
  | extension typed | named typed => cases actual <;> simp_all [isTypeless, derivedName?]

theorem exists_isExtensionOf_of_accepts {name : DerivedName} (named : declared.derivedName? = some name)
    (accepted : declared.accepts actual = true) :
    ∃ type, actual.derivedName? = some type ∧ type.isExtensionOf name = true := by
  cases takenBy_of_accepts accepted with
  | unlimited | assumed => simp [derivedName?] at named
  | same plain => simp [plain] at named
  | extension typed extension => exact ⟨_, typed, Option.some_inj.mp named ▸ extension⟩
  | named typed same =>
    refine ⟨_, typed, ?_⟩
    rw [DerivedName.isExtensionOf, DerivedName.chain, ← Option.some_inj.mp named, same]
    simp

theorem accepts_type {name type : DerivedName} (typed : actual.derivedName? = some type) :
    (DynamicType.type name).accepts actual = decide (name.name = type.name) := by
  cases actual <;> simp_all [accepts, derivedName?]

/-- A type without polymorphism takes what is declared with `CLASS` of its name, but no proper extension that this may
stand for. -/
def Narrows (declared middle actual : DynamicType) : Prop :=
  ∃ name other type, declared = .type name ∧ middle = .classOf other ∧ actual.derivedName? = some type ∧
    type.name ≠ name.name

theorem accepts_iff_not_narrows {declared middle actual : DynamicType} (coherent : actual.CoherentWith middle)
    (first : declared.accepts middle = true) (second : middle.accepts actual = true) :
    declared.accepts actual = true ↔ ¬ Narrows declared middle actual := by
  have typed_of : declared.accepts middle = !middle.isTypeless → (!actual.isTypeless) = true := by
    intro rule
    rw [rule, Bool.not_eq_true'] at first
    by_contra typeless
    simp [isTypeless_of_accepts second (by simpa using typeless)] at first
  cases takenBy_of_accepts first with
  | unlimited => exact iff_of_true (typed_of rfl) (by simp [Narrows])
  | assumed kind => exact iff_of_true (typed_of rfl) (by simp [Narrows])
  | same plain =>
    refine iff_of_true second ?_
    rintro ⟨name, other, type, rfl, -⟩
    simp [derivedName?] at plain
  | extension named extension =>
    obtain ⟨type, typed, extended⟩ := exists_isExtensionOf_of_accepts named second
    refine iff_of_true ?_ (by simp [Narrows])
    have longer := DerivedName.isExtensionOf_trans (coherent type _ typed named) extended extension
    cases actual <;> simp_all [accepts, derivedName?]
  | named named same =>
    obtain ⟨type, typed, -⟩ := exists_isExtensionOf_of_accepts named second
    rw [accepts_type typed, decide_eq_true_eq]
    cases middle with
    | plain | unlimited => simp [derivedName?] at named
    | type other =>
      rw [accepts_type typed, decide_eq_true_eq] at second
      rw [← Option.some_inj.mp named] at same
      exact iff_of_true (same.trans second) (by simp [Narrows])
    | classOf other => simp [Narrows, typed, eq_comm]

/-- Among types whose names are used consistently every type accepts itself, and what it accepts accepts in turn only
what it accepts too, unless the type in the middle is the polymorphic form of the first one. -/
theorem acceptance_chains (types : List DynamicType) (consistent : NameConsistent types) :
    (∀ type ∈ types, type.accepts type = true) ∧
      ∀ declared ∈ types, ∀ middle ∈ types, ∀ actual ∈ types, declared.accepts middle = true →
        middle.accepts actual = true → (declared.accepts actual = true ↔ ¬ Narrows declared middle actual) :=
  ⟨fun type _ => accepts_self type, fun _ _ _ isMiddle _ isActual =>
    accepts_iff_not_narrows (coherentWith_of_nameConsistent consistent isActual isMiddle)⟩

theorem acceptance_chains_extendedTwice :
    NameConsistent [.classOf ⟨"a", []⟩, .classOf ⟨"b", ["a"]⟩, .type ⟨"c", ["b", "a"]⟩] ∧
      (classOf ⟨"a", []⟩).accepts (.type ⟨"c", ["b", "a"]⟩) = true := by
  have consistent : NameConsistent [.classOf ⟨"a", []⟩, .classOf ⟨"b", ["a"]⟩, .type ⟨"c", ["b", "a"]⟩] := by decide
  have chains := (acceptance_chains _ consistent).2 (.classOf ⟨"a", []⟩) (by decide)
    (.classOf ⟨"b", ["a"]⟩) (by decide) (.type ⟨"c", ["b", "a"]⟩) (by decide)
  exact ⟨consistent, (chains (by decide) (by decide)).mpr (by simp [Narrows])⟩

/-- `TYPE(a)` takes a `CLASS(a)` and this takes an extension of `a`, which `TYPE(a)` does not. -/
theorem acceptance_not_transitive_polymorphic :
    NameConsistent [.type ⟨"a", []⟩, .classOf ⟨"a", []⟩, .type ⟨"b", ["a"]⟩] ∧
      (type ⟨"a", []⟩).accepts (.classOf ⟨"a", []⟩) = true ∧
      (classOf ⟨"a", []⟩).accepts (.type ⟨"b", ["a"]⟩) = true ∧
      (type ⟨"a", []⟩).accepts (.type ⟨"b", ["a"]⟩) = false := by
  decide

end DynamicType

namespace DataObject

/-- An array of explicit shape or assumed size takes elements in sequence, whatever their rank. -/
def takesSequence (object : DataObject) : Bool :=
  object.rank != 0 && !object.reshapes && !object.typeAndShape.has .assumedRank

variable {table : Table} {expr : Expr} {actual : TypeAndShape} {first second : DataObject}

theorem rank_eq_of_receives (receives : first.Receives table expr actual false)
    (unsequenced : first.takesSequence = true → actual.rank = first.rank) :
    first.typeAndShape.has .assumedRank = true ∨ first.rank = actual.rank := by
  by_cases ranked : first.typeAndShape.has .assumedRank = true
  · exact .inl ranked
  · rw [Bool.not_eq_true] at ranked
    by_cases strict : first.rank = 0 ∨ first.reshapes = true
    · exact .inr (receives.shape rfl ranked strict).rank
    · refine .inr (unsequenced ?_).symm
      rw [not_or, Bool.not_eq_true] at strict
      simp [takesSequence, ranked, strict]

theorem not_pointer_of_receives (receives : first.Receives table expr actual false)
    (other : second.Receives table expr actual false)
    (single : ∀ id, expr = .whole id → ¬ ((table.symbol id).isAllocatable = true ∧ (table.symbol id).isPointer = true))
    (allocatable : first.has .allocatable = true) : second.isPointerNotIn = false := by
  obtain ⟨id, rfl, isAllocatable, -⟩ := receives.allocatable allocatable
  refine Bool.eq_false_iff.mpr fun pointer => ?_
  rw [isPointerNotIn, Bool.and_eq_true, decide_eq_true_eq] at pointer
  rcases other.pointer pointer.1 with isPointer | ⟨intentIn, -⟩
  · exact single id rfl ⟨isAllocatable, isPointer⟩
  · exact pointer.2 intentIn

/-- What an argument has to show so that it cannot belong to two distinguishable objects. -/
structure Shows (table : Table) (first second : DataObject) (expr : Expr) : Prop where
  ranks : ∀ actual, table.exprTypeAndShape expr = some actual →
    ∀ object ∈ [first, second], object.takesSequence = true → actual.rank = object.rank
  types : ∀ actual, table.exprTypeAndShape expr = some actual →
    ∀ object ∈ [first, second], actual.type.CoherentWith object.type
  single : ∀ id, expr = .whole id → ¬ ((table.symbol id).isAllocatable = true ∧ (table.symbol id).isPointer = true)

theorem not_distinguishable_of_receives (shows : Shows table first second expr)
    (typed : table.exprTypeAndShape expr = some actual) (receives : first.Receives table expr actual false)
    (other : second.Receives table expr actual false) : first.distinguishable second = false := by
  have types := shows.types actual typed
  have ranks := shows.ranks actual typed
  have compatible := DynamicType.tkCompatible_of_accepts (types first (by simp))
    (types second (by simp)) receives.type other.type
  have sameRank : first.typeAndShape.has .assumedRank = true ∨
      second.typeAndShape.has .assumedRank = true ∨
      first.typeAndShape.rank = second.typeAndShape.rank := by
    rcases rank_eq_of_receives receives (ranks first (by simp)) with assumed | rankFirst
    · exact .inl assumed
    · rcases rank_eq_of_receives other (ranks second (by simp)) with assumed | rankSecond
      · exact .inr (.inl assumed)
      · exact .inr (.inr (rankFirst.trans rankSecond.symm))
  have alike : (!first.tkrCompatible second && !second.tkrCompatible first) = false := by
    rcases compatible with forward | backward
    · have : first.tkrCompatible second = true := by
        rcases sameRank with assumed | assumed | same <;>
          simp_all [tkrCompatible, TypeAndShape.tkrCompatible, type]
      simp [this]
    · have : second.tkrCompatible first = true := by
        rcases sameRank with assumed | assumed | same <;>
          simp_all [tkrCompatible, TypeAndShape.tkrCompatible, type]
      simp [this]
  have pointerSecond := not_pointer_of_receives receives other shows.single
  have pointerFirst := not_pointer_of_receives other receives shows.single
  rw [distinguishable, alike]
  cases allocatableFirst : first.has .allocatable <;>
    cases allocatableSecond : second.has .allocatable <;> simp_all

end DataObject

/-! Dummy procedures. -/

variable {mine theirs : Option FunctionResult}

theorem sameResults_isSome (same : sameResults mine theirs = true) : mine.isSome = theirs.isSome := by
  cases mine <;> cases theirs <;> simp_all [sameResults]

theorem typeAndShape?_eq_of_sameResults (same : sameResults mine theirs = true) :
    mine.bind FunctionResult.typeAndShape? = theirs.bind FunctionResult.typeAndShape? := by
  cases mine with
  | none => cases theirs <;> simp_all [sameResults]
  | some result =>
    cases theirs with
    | none => simp [sameResults] at same
    | some other =>
      obtain ⟨attributes, kind⟩ := result
      obtain ⟨attributes', kind'⟩ := other
      cases kind <;> cases kind' <;>
        simp_all [sameResults, FunctionResult.same, ResultKind.same, FunctionResult.typeAndShape?]

theorem sameResults_of_matchesInterface {expected found : Procedure} {isIntrinsic : Bool}
    (fits : matchesInterface expected found isIntrinsic = true) : sameResults expected.result found.result = true := by
  have inner : ∀ {left right : Procedure}, left.same right = true →
      sameResults left.result right.result = true := by
    rintro ⟨result, dummies, attributes⟩ ⟨result', dummies', attributes'⟩ same
    simp only [Procedure.same, Bool.and_eq_true] at same
    exact same.1.1
  rw [matchesInterface] at fits
  split at fits <;> split at fits <;> (have same := inner fits; exact same)

namespace DummyProcedure

variable {first second : DummyProcedure}

theorem not_distinguishable_of_sameResults {result : Option FunctionResult}
    (sameFirst : sameResults first.procedure.result result = true)
    (sameSecond : sameResults second.procedure.result result = true) : first.distinguishable second = false := by
  have known := (sameResults_isSome sameFirst).trans (sameResults_isSome sameSecond).symm
  have types := (typeAndShape?_eq_of_sameResults sameFirst).trans (typeAndShape?_eq_of_sameResults sameSecond).symm
  rw [distinguishable]
  cases mine : first.procedure.result with
  | none => cases theirs : second.procedure.result <;> simp_all
  | some left =>
    cases theirs : second.procedure.result with
    | none => simp [mine, theirs] at known
    | some right =>
      simp only [mine, theirs, Option.bind_some] at types
      simp only [types]
      cases right.typeAndShape? with
      | none => rfl
      | some shape => simp [TypeAndShape.tkrCompatible, DynamicType.tkCompatible_self]

def passed? (table : Table) : Expr → Option Procedure
  | .procedure callee => table.calleeProcedure callee
  | .call callee _ => table.returnedProcedure callee
  | _ => none

/-- The procedures on both sides and the one that is passed are known with explicit interfaces. -/
structure Shows (table : Table) (first second : DummyProcedure) (expr : Expr) : Prop where
  interfaces : ∀ dummy ∈ [first, second], dummy.procedure.hasExplicitInterface = true
  known : expr.isProcedure = true → passed? table expr ≠ none
  explicit : ∀ found, passed? table expr = some found → found.hasExplicitInterface = true

open CallFault

variable {table : Table} {label : DummyLabel} {dummy : DummyProcedure} {actual : Actual}
  {expr : Expr}

variable {passed : ProcedureActual}

theorem passed?_of_procedureActual (passes : procedureActual table label dummy expr = .ok passed) :
    passed.procedure = passed? table expr ∧
      (expr.isProcedure = true ∨ ∃ callee arguments, expr = .call callee arguments ∧
        table.returnedProcedure callee ≠ none) := by
  unfold procedureActual at passes
  split at passes
  next callee =>
    dsimp only at passes
    split at passes
    · simp at passes
    · obtain rfl := Except.ok.inj passes
      exact ⟨rfl, .inl rfl⟩
  next callee arguments =>
    split at passes
    next found returned =>
      obtain rfl := Except.ok.inj passes
      exact ⟨returned.symm, .inr ⟨callee, arguments, rfl, by simp [returned]⟩⟩
    · simp at passes
  · simp at passes
  · simp at passes

theorem not_noError_of_procedureActual {faults : List CallFault} (present : expr.isNull = false)
    (fails : procedureActual table label dummy expr = .error faults) : ¬ NoError faults := by
  unfold procedureActual at fails
  split at fails
  · dsimp only at fails
    split at fails
    · simp [← Except.error.inj fails, severity]
    · simp at fails
  · split at fails
    · simp at fails
    · simp [← Except.error.inj fails, severity]
  · simp [Expr.isNull] at present
  · simp [← Except.error.inj fails, severity]

theorem passes_of_noError (given : actual.expr? = some expr) (present : expr.isNull = false)
    (clean : NoError (procedureFaults table label dummy actual)) :
    ∃ passed, procedureActual table label dummy expr = .ok passed ∧
      ∀ found, passed.procedure = some found → NoError (interfaceFaults label dummy passed found) := by
  simp only [procedureFaults, given] at clean
  split at clean
  next faults fails => exact absurd clean (not_noError_of_procedureActual present fails)
  next passed passes =>
    refine ⟨passed, passes, fun found isFound => ?_⟩
    rw [noError_append, isFound] at clean
    exact clean.2

theorem sameResults_of_noError {found : Procedure} (interface : dummy.procedure.hasExplicitInterface = true)
    (explicit : found.hasExplicitInterface = true) (clean : NoError (interfaceFaults label dummy passed found)) :
    sameResults dummy.procedure.result found.result = true := by
  rw [interfaceFaults] at clean
  split at clean
  · simp [severity] at clean
  · rw [noError_when, Bool.not_eq_true'] at clean
    have fits : matchesInterface dummy.procedure found passed.isIntrinsic = true := by
      refine Classical.byContradiction fun differ => ?_
      exact clean (Bool.eq_false_iff.mpr differ) rfl
    exact sameResults_of_matchesInterface fits

theorem not_distinguishable_of_noError {labelSecond : DummyLabel} (given : actual.expr? = some expr)
    (present : expr.isNull = false) (shows : Shows table first second expr)
    (cleanFirst : NoError (procedureFaults table label first actual))
    (cleanSecond : NoError (procedureFaults table labelSecond second actual)) :
    first.distinguishable second = false := by
  obtain ⟨passed, passes, interface⟩ := passes_of_noError given present cleanFirst
  obtain ⟨passed', passes', interface'⟩ := passes_of_noError given present cleanSecond
  obtain ⟨isPassed, kind⟩ := passed?_of_procedureActual passes
  have isPassed' := (passed?_of_procedureActual passes').1
  have isSome : passed? table expr ≠ none := by
    rcases kind with isProcedure | ⟨callee, arguments, rfl, returned⟩
    · exact shows.known isProcedure
    · exact returned
  obtain ⟨found, isFound⟩ := Option.ne_none_iff_exists'.mp isSome
  have explicit := shows.explicit found isFound
  exact not_distinguishable_of_sameResults
    (sameResults_of_noError (shows.interfaces first (by simp)) explicit (interface found (isPassed.trans isFound)))
    (sameResults_of_noError (shows.interfaces second (by simp)) explicit (interface' found (isPassed'.trans isFound)))

end DummyProcedure

namespace Actual

/-- An argument from which it can be seen to which of two dummy arguments it belongs. It is no null
pointer, bit pattern or `TYPE(*)`, and no function that returns a procedure where one side takes data
and the other a procedure. -/
def Discerns (table : Table) (actual : Actual) (first second : Dummy) : Prop :=
  match first.kind, second.kind with
  | .object first, .object second =>
    actual.assumedType? = none ∧ ∀ expr, actual.expr? = some expr →
      expr.isNull = false ∧ expr.isBoz = false ∧ DataObject.Shows table first second expr
  | .procedure first, .procedure second =>
    ∀ expr, actual.expr? = some expr → expr.isNull = false ∧ DummyProcedure.Shows table first second expr
  | .object _, .procedure _ | .procedure _, .object _ =>
    ∀ expr, actual.expr? = some expr →
      expr.isNull = false ∧ (expr.isProcedure = false → DummyProcedure.passed? table expr = none)
  | _, _ => True

theorem exists_expr {actual : Actual} (unassumed : actual.assumedType? = none)
    (unlabelled : actual.isLabel = false) : ∃ expr, actual.expr? = some expr := by
  obtain ⟨keyword, value, isPassedObject, span⟩ := actual
  cases value with
  | expr value => exact ⟨value, rfl⟩
  | assumedType => simp [assumedType?] at unassumed
  | label => simp [isLabel] at unlabelled

end Actual

namespace Dummy

open CallFault Call

variable {table : Table} {actual : Actual} {first second : Dummy} {scope : Option ScopeId}

theorem noError_object {object : DataObject} (isObject : first.kind = .object object)
    (clean : NoError (argumentFaults table false scope first actual)) :
    actual.isLabel = false ∧ ∀ expr, actual.expr? = some expr →
      NoError (dataFaults table (labelOf first) object expr false scope) := by
  obtain ⟨keyword, value, isPassedObject, span⟩ := actual
  cases value with
  | expr value =>
    refine ⟨rfl, fun expr given => ?_⟩
    obtain rfl : value = expr := Option.some_inj.mp given
    simpa [argumentFaults, isObject] using clean
  | assumedType id => exact ⟨rfl, fun expr given => by simp [Actual.expr?] at given⟩
  | label value => simp [argumentFaults, isObject, severity] at clean

variable {procedure : DummyProcedure}

theorem noError_procedure (isProcedure : first.kind = .procedure procedure)
    (clean : NoError (argumentFaults table false scope first actual)) :
    actual.isLabel = false ∧ NoError (procedureFaults table (labelOf first) procedure actual) ∧
      ∃ expr, actual.expr? = some expr := by
  obtain ⟨keyword, value, isPassedObject, span⟩ := actual
  cases value with
  | expr value => exact ⟨rfl, by simpa [argumentFaults, isProcedure] using clean, value, rfl⟩
  | assumedType id =>
    simp [argumentFaults, isProcedure, procedureFaults, Actual.expr?, severity] at clean
  | label value => simp [argumentFaults, isProcedure, severity] at clean

theorem noError_alternateReturn (isReturn : first.kind = .alternateReturn)
    (clean : NoError (argumentFaults table false scope first actual)) : actual.isLabel = true := by
  obtain ⟨keyword, value, isPassedObject, span⟩ := actual
  cases value with
  | expr | assumedType => simp [argumentFaults, isReturn, severity] at clean
  | label => rfl

variable {label label' : DummyLabel}

theorem not_distinguishable_of_objects {mine theirs : DataObject} {expr : Expr} (present : expr.isNull = false)
    (patternless : expr.isBoz = false) (shows : DataObject.Shows table mine theirs expr)
    (cleanMine : NoError (dataFaults table label mine expr false scope))
    (cleanTheirs : NoError (dataFaults table label' theirs expr false scope)) :
    mine.distinguishable theirs = false := by
  have typed : expr.isTyped = true := by
    cases expr with
    | null => simp [Expr.isNull] at present
    | boz => simp [Expr.isBoz] at patternless
    | procedure => simp [dataFaults, severity] at cleanMine
    | _ => rfl
  obtain ⟨actual, isTyped, receives⟩ := DataObject.receives_of_noError typed cleanMine
  obtain ⟨again, isTyped', other⟩ := DataObject.receives_of_noError typed cleanTheirs
  obtain rfl : actual = again := Option.some_inj.mp (isTyped.symm.trans isTyped')
  rw [Bool.and_false] at receives other
  exact DataObject.not_distinguishable_of_receives shows isTyped receives other

theorem false_of_object_and_procedure {object : DataObject} {expr : Expr} (given : actual.expr? = some expr)
    (present : expr.isNull = false) (unpassed : expr.isProcedure = false → DummyProcedure.passed? table expr = none)
    (asProcedure : NoError (procedureFaults table label procedure actual))
    (asObject : NoError (dataFaults table label' object expr false scope)) : False := by
  obtain ⟨passed, passes, -⟩ := DummyProcedure.passes_of_noError given present asProcedure
  rcases (DummyProcedure.passed?_of_procedureActual passes).2 with
    isProcedure | ⟨callee, arguments, rfl, returned⟩
  · cases expr with
    | procedure callee => simp [dataFaults, severity] at asObject
    | _ => simp [Expr.isProcedure] at isProcedure
  · exact returned (unpassed rfl)

theorem not_distinguishable_of_noError (discerns : actual.Discerns table first second)
    (cleanFirst : NoError (argumentFaults table false scope first actual))
    (cleanSecond : NoError (argumentFaults table false scope second actual)) :
    first.distinguishable second = false := by
  rw [Actual.Discerns] at discerns
  rw [distinguishable]
  cases isFirst : first.kind with
  | object mine =>
    obtain ⟨unlabelled, asMine⟩ := noError_object isFirst cleanFirst
    cases isSecond : second.kind with
    | object theirs =>
      simp only [isFirst, isSecond] at discerns ⊢
      obtain ⟨expr, given⟩ := Actual.exists_expr discerns.1 unlabelled
      obtain ⟨present, patternless, shows⟩ := discerns.2 expr given
      have asTheirs := (noError_object isSecond cleanSecond).2 expr given
      exact not_distinguishable_of_objects present patternless shows (asMine expr given) asTheirs
    | procedure theirs =>
      simp only [isFirst, isSecond] at discerns
      obtain ⟨-, asTheirs, expr, given⟩ := noError_procedure isSecond cleanSecond
      obtain ⟨present, unpassed⟩ := discerns expr given
      exact (false_of_object_and_procedure given present unpassed asTheirs (asMine expr given)).elim
    | alternateReturn =>
      rw [noError_alternateReturn isSecond cleanSecond] at unlabelled
      exact absurd unlabelled.symm Bool.false_ne_true
  | procedure mine =>
    obtain ⟨unlabelled, asMine, expr, given⟩ := noError_procedure isFirst cleanFirst
    cases isSecond : second.kind with
    | object theirs =>
      simp only [isFirst, isSecond] at discerns
      have asTheirs := (noError_object isSecond cleanSecond).2 expr given
      obtain ⟨present, unpassed⟩ := discerns expr given
      exact (false_of_object_and_procedure given present unpassed asMine asTheirs).elim
    | procedure theirs =>
      simp only [isFirst, isSecond] at discerns ⊢
      obtain ⟨-, asTheirs, -⟩ := noError_procedure isSecond cleanSecond
      obtain ⟨present, shows⟩ := discerns expr given
      exact DummyProcedure.not_distinguishable_of_noError given present shows asMine asTheirs
    | alternateReturn =>
      rw [noError_alternateReturn isSecond cleanSecond] at unlabelled
      exact absurd unlabelled.symm Bool.false_ne_true
  | alternateReturn =>
    have labelled := noError_alternateReturn isFirst cleanFirst
    cases isSecond : second.kind with
    | object theirs =>
      rw [(noError_object isSecond cleanSecond).1] at labelled
      exact absurd labelled Bool.false_ne_true
    | procedure theirs =>
      rw [(noError_procedure isSecond cleanSecond).1] at labelled
      exact absurd labelled Bool.false_ne_true
    | alternateReturn => rfl

end Dummy

end FortranInterface
