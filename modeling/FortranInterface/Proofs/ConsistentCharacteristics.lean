import FortranInterface.Proofs.Characterization

/-!
Characteristics are consistent in themselves. Whatever symbol table they are taken from, the flags of a type
and shape agree with its extents and its corank, and the flags of a procedure with its result and its dummy
arguments; and so it is in every procedure that is nested in the characteristics of another.
-/

namespace FortranInterface

def ShapeAttribute.kindsOfArray : List ShapeAttribute :=
  [.assumedRank, .assumedShape, .assumedSize, .deferredShape]

structure TypeAndShape.Consistent (self : TypeAndShape) : Prop where
  coarray : self.has .coarray = true ↔ 0 < self.corank
  assumedRank : self.has .assumedRank = true → self.shape = []
  exclusive : ∀ first ∈ ShapeAttribute.kindsOfArray, ∀ second ∈ ShapeAttribute.kindsOfArray,
    self.has first = true → self.has second = true → first = second
  colons : self.has .assumedShape = true ∨ self.has .deferredShape = true →
    0 < self.rank ∧ ∀ extent ∈ self.shape, extent = none

namespace Procedure

def kinds (procedure : Procedure) : List DummyKind :=
  procedure.dummies.map Dummy.kind

def typesAndShapes (procedure : Procedure) : List TypeAndShape :=
  procedure.kinds.filterMap (fun
    | .object object => some object.typeAndShape
    | _ => none) ++ (procedure.result.bind FunctionResult.typeAndShape?).toList

/-- A procedure contains itself, and what its dummy procedures contain and the procedure to which its result
points. -/
inductive Contains : Procedure → Procedure → Prop where
  | self (procedure : Procedure) : Contains procedure procedure
  | dummy {procedure nested : Procedure} {dummy : DummyProcedure} : .procedure dummy ∈ procedure.kinds →
      Contains dummy.procedure nested → Contains procedure nested
  | result {procedure returned nested : Procedure} :
      procedure.result.bind FunctionResult.procedurePointer? = some returned →
      Contains returned nested → Contains procedure nested

structure Consistent (procedure : Procedure) : Prop where
  notBoth : ¬(procedure.isFunction = true ∧ procedure.isSubroutine = true)
  explicit : procedure.hasExplicitInterface = true → procedure.isFunction = true ∨ procedure.isSubroutine = true
  implicit : procedure.has .implicitInterface = true → procedure.dummies = []
  shapes : ∀ typeAndShape ∈ procedure.typesAndShapes, typeAndShape.Consistent

def Sound (procedure : Procedure) : Prop :=
  ∀ nested, procedure.Contains nested → nested.Consistent

variable {procedure other : Procedure}

theorem Sound.of_parts (own : procedure.Consistent)
    (dummies : ∀ dummy : DummyProcedure, .procedure dummy ∈ procedure.kinds → dummy.procedure.Sound)
    (result : ∀ returned, procedure.result.bind FunctionResult.procedurePointer? = some returned →
      returned.Sound) : procedure.Sound := by
  intro nested contains
  cases contains with
  | self => exact own
  | dummy member inner => exact dummies _ member nested inner
  | result isResult inner => exact result _ isResult nested inner

theorem Sound.congr (sound : procedure.Sound) (results : other.result = procedure.result)
    (kinds : other.kinds = procedure.kinds) (subroutine : other.has .subroutine = procedure.has .subroutine)
    (implicit : other.has .implicitInterface = procedure.has .implicitInterface) : other.Sound := by
  have own := sound procedure (.self procedure)
  refine .of_parts ⟨?_, ?_, ?_, ?_⟩ (fun dummy member nested inner => ?_) fun returned isResult nested inner => ?_
  · simpa only [isFunction, isSubroutine, results, subroutine] using own.notBoth
  · simpa only [hasExplicitInterface, isFunction, isSubroutine, results, subroutine, implicit] using own.explicit
  · intro isImplicit
    have none := own.implicit (implicit ▸ isImplicit)
    refine List.map_eq_nil_iff.mp (kinds.trans ?_)
    rw [Procedure.kinds, none, List.map_nil]
  · simpa only [typesAndShapes, kinds, results] using own.shapes
  · exact sound nested (.dummy (kinds ▸ member) inner)
  · exact sound nested (.result (results ▸ isResult) inner)

theorem Sound.without_elemental (sound : procedure.Sound) : (procedure.without .elemental).Sound :=
  sound.congr rfl rfl (by simp [has, without]) (by simp [has, without])

theorem kinds_markPassed (procedure : Procedure) (name : Option String) :
    (procedure.markPassed name).kinds = procedure.kinds := by
  unfold markPassed
  split
  next index _ =>
    refine List.ext_getElem? fun place => ?_
    simp only [kinds, List.getElem?_map, List.getElem?_modify]
    cases procedure.dummies[place]? with
    | none => rfl
    | some dummy =>
      simp only [Option.map_eq_map, Option.map_some]
      split <;> rfl
  · rfl

theorem Sound.markPassed (sound : procedure.Sound) (name : Option String) : (procedure.markPassed name).Sound := by
  refine sound.congr ?_ (kinds_markPassed procedure name) ?_ ?_
  all_goals
    unfold Procedure.markPassed
    split <;> rfl

end Procedure

/-! Types and shapes. -/

variable {shape : ArraySpec} {symbol : Symbol}

namespace TypeAndShape

theorem consistent_scalar (type : DynamicType) : (scalar type).Consistent := by
  have plain (attr : ShapeAttribute) : (scalar type).has attr = false := Flags.has_empty attr
  refine ⟨?_, ?_, ?_, ?_⟩
  · rw [plain]
    simp [scalar, ofShape]
  · simp [plain]
  · simp [plain]
  · simp [plain]

theorem has_withCorank (self : TypeAndShape) (corank : Nat) (attr : ShapeAttribute) :
    (self.withCorank corank).has attr = if attr = .coarray then decide (0 < corank) else self.has attr := by
  by_cases isCoarray : attr = .coarray <;> by_cases positive : 0 < corank <;>
    simp [has, withCorank, Flags.set, isCoarray, positive]

theorem isColonShape_of_arrayAttribute? {attr : ShapeAttribute} (isAttr : arrayAttribute? symbol shape = some attr)
    (colons : attr = .assumedShape ∨ attr = .deferredShape) : shape.isColonShape = true := by
  unfold arrayAttribute? at isAttr
  split at isAttr
  · rcases colons with rfl | rfl <;> cases isAttr
  · split at isAttr
    · rcases colons with rfl | rfl <;> cases isAttr
    · split at isAttr
      next isColon => exact isColon
      · cases isAttr

theorem arrayAttribute?_ne_coarray : arrayAttribute? symbol shape ≠ some .coarray := by
  unfold arrayAttribute?
  split
  · nofun
  · split
    · nofun
    · split
      · split <;> nofun
      · nofun

variable {declared : TypeAndShape} (plain : ∀ attr, declared.has attr = false)
include plain

theorem consistent_withCorank (corank : Nat) : (declared.withCorank corank).Consistent := by
  have flags (attr : ShapeAttribute) (apart : attr ≠ .coarray) : (declared.withCorank corank).has attr = false := by
    rw [has_withCorank, if_neg apart, plain]
  refine ⟨?_, fun isRank => ?_, fun first isKind _ _ isFirst _ => ?_, fun isColon => ?_⟩
  · rw [has_withCorank, if_pos rfl, decide_eq_true_iff]
    exact Iff.rfl
  · rw [flags .assumedRank (by decide)] at isRank
    cases isRank
  · have apart : ∀ attr ∈ ShapeAttribute.kindsOfArray, attr ≠ .coarray := by decide
    rw [flags first (apart first isKind)] at isFirst
    cases isFirst
  · rw [flags .assumedShape (by decide), flags .deferredShape (by decide)] at isColon
    simp at isColon

theorem consistent_withAttribute {attr : ShapeAttribute} (notCoarray : attr ≠ .coarray)
    (colons : attr = .assumedShape ∨ attr = .deferredShape →
      0 < declared.rank ∧ ∀ extent ∈ declared.shape, extent = none) (corank : Nat) :
    ((declared.withAttribute attr).withCorank corank).Consistent := by
  have flags (other : ShapeAttribute) (apart : other ≠ .coarray) :
      ((declared.withAttribute attr).withCorank corank).has other = true ↔ other = attr := by
    have before := plain other
    rw [has] at before
    rw [has_withCorank, if_neg apart, has, withAttribute, Flags.has_insert, before, Bool.or_false, decide_eq_true_iff]
  refine ⟨?_, fun isRank => ?_, fun first isFirst second isSecond hasFirst hasSecond => ?_, fun isColon => ?_⟩
  · rw [has_withCorank, if_pos rfl, decide_eq_true_iff]
    exact Iff.rfl
  · obtain rfl := (flags .assumedRank (by decide)).mp isRank
    rfl
  · have apart : ∀ attr ∈ ShapeAttribute.kindsOfArray, attr ≠ .coarray := by decide
    rw [(flags first (apart first isFirst)).mp hasFirst, (flags second (apart second isSecond)).mp hasSecond]
  · have isAttr : attr = .assumedShape ∨ attr = .deferredShape :=
      isColon.imp (fun isShape => ((flags _ (by decide)).mp isShape).symm)
        fun isShape => ((flags _ (by decide)).mp isShape).symm
    have sameShape : ((declared.withAttribute attr).withCorank corank).shape = declared.shape :=
      if_neg (by rcases isAttr with rfl | rfl <;> decide)
    rw [rank, sameShape]
    exact colons isAttr

end TypeAndShape

namespace Table

variable {table : Table} {id : SymbolId}

theorem extents_of_isColonShape (isColon : shape.isColonShape = true) :
    0 < shape.length ∧ ∀ extent ∈ shape.map (Shape.extentOfBounds table), extent = none := by
  rw [ArraySpec.isColonShape, Bool.and_eq_true, List.all_eq_true] at isColon
  refine ⟨?_, fun extent member => ?_⟩
  · have nonempty := isColon.1
    cases shape with
    | nil => cases nonempty
    | cons => exact Nat.succ_pos _
  · obtain ⟨bounds, isBounds, rfl⟩ := List.mem_map.mp member
    have colon := isColon.2 bounds isBounds
    cases bounds with
    | colon => rfl
    | explicit | assumedSize | assumedRank => cases colon

theorem consistent_objectTypeAndShape {typeAndShape : TypeAndShape}
    (found : table.objectTypeAndShape id = some typeAndShape) : typeAndShape.Consistent := by
  unfold objectTypeAndShape at found
  split at found
  next object isObject =>
    obtain ⟨type, -, rfl⟩ := Option.map_eq_some_iff.mp found
    clear found
    dsimp only
    cases isAttr : TypeAndShape.arrayAttribute? (table.symbol id) object.shape with
    | none =>
      refine TypeAndShape.consistent_withCorank ?_ _
      exact Flags.has_empty
    | some attr =>
      refine TypeAndShape.consistent_withAttribute ?_ ?_ (fun colons => ?_) _
      · exact Flags.has_empty
      · rintro rfl
        exact TypeAndShape.arrayAttribute?_ne_coarray isAttr
      · rw [TypeAndShape.rank, List.length_map]
        exact extents_of_isColonShape (TypeAndShape.isColonShape_of_arrayAttribute? isAttr colons)
  · cases found

end Table

/-! Procedures. -/

def DummyKind.Sound : DummyKind → Prop
  | .object data => data.typeAndShape.Consistent
  | .procedure dummy => dummy.procedure.Sound
  | .alternateReturn => True

def ResultKind.Sound : ResultKind → Prop
  | .data typeAndShape => typeAndShape.Consistent
  | .procedurePointer procedure => procedure.Sound

namespace Procedure

/-- The flags of a procedure agree with its result and its dummy arguments. -/
structure FlagsAgree (procedure : Procedure) : Prop where
  notBoth : ¬(procedure.isFunction = true ∧ procedure.isSubroutine = true)
  explicit : procedure.hasExplicitInterface = true → procedure.isFunction = true ∨ procedure.isSubroutine = true
  implicit : procedure.has .implicitInterface = true → procedure.dummies = []

variable {procedure : Procedure}

theorem Sound.of_kinds (flags : procedure.FlagsAgree) (kinds : ∀ kind ∈ procedure.kinds, kind.Sound)
    (result : ∀ result, procedure.result = some result → result.kind.Sound) : procedure.Sound := by
  refine .of_parts ⟨flags.notBoth, flags.explicit, flags.implicit, fun typeAndShape member => ?_⟩
    (fun dummy member => kinds _ member) fun returned isReturned => ?_
  · rcases List.mem_append.mp member with isDummy | isResult
    · obtain ⟨kind, isKind, isObject⟩ := List.mem_filterMap.mp isDummy
      have sound := kinds kind isKind
      cases kind with
      | object object =>
        obtain rfl := Option.some.inj isObject
        exact sound
      | procedure | alternateReturn => cases isObject
    · obtain ⟨found, isFound, isData⟩ := Option.bind_eq_some_iff.mp (Option.mem_toList.mp isResult)
      have sound := result found isFound
      rw [FunctionResult.typeAndShape?] at isData
      split at isData
      next isKind =>
        obtain rfl := Option.some.inj isData
        rwa [isKind] at sound
      · cases isData
  · obtain ⟨found, isFound, isPointer⟩ := Option.bind_eq_some_iff.mp isReturned
    have sound := result found isFound
    rw [FunctionResult.procedurePointer?] at isPointer
    split at isPointer
    · cases isPointer
    next isKind =>
      obtain rfl := Option.some.inj isPointer
      rwa [isKind] at sound

theorem sound_ofSpecific (specific : Intrinsic.Specific) : (ofSpecific specific).Sound := by
  refine .of_kinds ⟨?_, fun _ => .inl rfl, ?_⟩ (fun kind member => ?_) ?_
  · simp only [ofSpecific, isSubroutine, has]
    split <;> simp
  · simp only [ofSpecific, has]
    split <;> simp
  · simp only [kinds, ofSpecific, List.map_map, List.mem_map] at member
    obtain ⟨name, -, rfl⟩ := member
    exact TypeAndShape.consistent_scalar _
  · rintro _ ⟨⟩
    exact TypeAndShape.consistent_scalar _

theorem declaredAttributes_has (symbol : Symbol) {attr : ProcedureAttribute}
    (derived : attr = .subroutine ∨ attr = .implicitInterface) : (declaredAttributes symbol).has attr = false := by
  have apart : ∀ pair ∈ attributePairs, pair.2 ≠ attr := by
    rcases derived with rfl | rfl <;> decide
  have declared : (symbol.flagsFrom attributePairs).has attr = false := by
    simp only [Symbol.flagsFrom, Flags.has_ofList, decide_eq_false_iff_not, List.mem_map, List.mem_filter]
    rintro ⟨pair, ⟨member, -⟩, same⟩
    exact apart pair member same
  have notPure : attr ≠ .pure := by rcases derived with rfl | rfl <;> decide
  unfold declaredAttributes
  dsimp only
  split
  · rw [Flags.has_insert, declared, decide_eq_false notPure, Bool.or_false]
  · exact declared

end Procedure

namespace Table

variable {table : Table} {id : SymbolId} {procedure : Procedure}

theorem exists_of_mem_mapM {α β : Type} {function : α → Option β} {values : List α} {results : List β}
    (found : values.mapM function = some results) {result : β} (member : result ∈ results) :
    ∃ value ∈ values, function value = some result := by
  induction values generalizing results with
  | nil =>
    obtain rfl := Option.some.inj found
    cases member
  | cons value values ih =>
    rw [List.mapM_cons] at found
    obtain ⟨first, isFirst, found⟩ := Option.bind_eq_some_iff.mp found
    obtain ⟨rest, isRest, found⟩ := Option.bind_eq_some_iff.mp found
    obtain rfl := Option.some.inj found
    rcases List.mem_cons.mp member with rfl | later
    · exact ⟨value, .head _, isFirst⟩
    · obtain ⟨other, isOther, isResult⟩ := ih isRest later
      exact ⟨other, .tail _ isOther, isResult⟩

section Known

variable {known : SymbolId → Option Procedure} (sound : ∀ id procedure, known id = some procedure → procedure.Sound)
include sound

theorem sound_placeWith {place : Option SymbolId} {dummy : Dummy}
    (found : placeWith table known place = some dummy) : dummy.kind.Sound := by
  cases place with
  | none =>
    obtain rfl := Option.some.inj found
    exact trivial
  | some id =>
    simp only [placeWith, dummyWith] at found
    split at found
    · obtain ⟨object, isObject, rfl⟩ := Option.map_eq_some_iff.mp found
      obtain ⟨typeAndShape, isShape, rfl⟩ := Option.map_eq_some_iff.mp isObject
      exact consistent_objectTypeAndShape isShape
    · obtain ⟨inner, isInner, rfl⟩ := Option.map_eq_some_iff.mp found
      obtain ⟨procedure, isKnown, rfl⟩ := Option.map_eq_some_iff.mp isInner
      exact (sound id procedure isKnown).without_elemental

theorem sound_functionResultWith {result : FunctionResult}
    (found : functionResultWith table known id = some result) : result.kind.Sound := by
  simp only [functionResultWith] at found
  split at found
  · obtain ⟨typeAndShape, isShape, rfl⟩ := Option.map_eq_some_iff.mp found
    exact consistent_objectTypeAndShape isShape
  · obtain ⟨procedure, isKnown, rfl⟩ := Option.map_eq_some_iff.mp found
    exact sound id procedure isKnown

theorem sound_subprogramWith {subprogram : SubprogramDetails}
    (found : subprogramWith table known (Procedure.declaredAttributes symbol) subprogram = some procedure) :
    procedure.Sound := by
  have explicit := Procedure.declaredAttributes_has symbol (.inr rfl)
  have notSubroutine := Procedure.declaredAttributes_has symbol (.inl rfl)
  have places {dummies : List Dummy} (isDummies : subprogram.dummies.mapM (placeWith table known) = some dummies) :
      ∀ kind ∈ dummies.map Dummy.kind, kind.Sound := by
    intro kind member
    obtain ⟨dummy, isDummy, rfl⟩ := List.mem_map.mp member
    obtain ⟨place, -, isPlace⟩ := exists_of_mem_mapM isDummies isDummy
    exact sound_placeWith sound isPlace
  unfold subprogramWith at found
  split at found
  next result isResult =>
    obtain ⟨returned, isReturned, isRest⟩ := Option.bind_eq_some_iff.mp found
    obtain ⟨dummies, isDummies, rfl⟩ := Option.map_eq_some_iff.mp isRest
    refine .of_kinds ⟨?_, fun _ => .inl rfl, ?_⟩ (places isDummies) ?_
    · simp [Procedure.isSubroutine, Procedure.has, notSubroutine]
    · simp [Procedure.has, explicit]
    · rintro _ ⟨⟩
      exact sound_functionResultWith sound isReturned
  · obtain ⟨dummies, isDummies, rfl⟩ := Option.map_eq_some_iff.mp found
    refine .of_kinds ⟨?_, fun _ => .inr ?_, ?_⟩ (places isDummies) ?_
    · simp [Procedure.isFunction]
    · simp [Procedure.isSubroutine, Procedure.has]
    · simp [Procedure.has, explicit]
    · simp

end Known

theorem sound_unknownInterface {entity : ProcEntityDetails}
    (found : table.unknownInterface symbol (Procedure.declaredAttributes symbol) entity = some procedure) :
    procedure.Sound := by
  have notSubroutine := Procedure.declaredAttributes_has symbol (.inl rfl)
  unfold unknownInterface at found
  dsimp only at found
  split at found
  · obtain rfl := Option.some.inj found
    refine .of_kinds ⟨?_, fun _ => .inr ?_, fun _ => rfl⟩ ?_ ?_
    · simp [Procedure.isFunction]
    · simp [Procedure.isSubroutine, Procedure.has]
    · simp [Procedure.kinds]
    · simp
  · split at found
    next type isType =>
      obtain ⟨dynamic, -, rfl⟩ := Option.map_eq_some_iff.mp found
      refine .of_kinds ⟨?_, fun _ => .inl rfl, fun _ => rfl⟩ ?_ ?_
      · simp [Procedure.isSubroutine, Procedure.has, notSubroutine]
      · simp [Procedure.kinds]
      · rintro _ ⟨⟩
        exact TypeAndShape.consistent_scalar dynamic
    · split at found
      · cases found
      · obtain rfl := Option.some.inj found
        refine .of_kinds ⟨?_, fun isExplicit => ?_, fun _ => rfl⟩ ?_ ?_
        · simp [Procedure.isFunction]
        · simp [Procedure.hasExplicitInterface, Procedure.has] at isExplicit
        · simp [Procedure.kinds]
        · simp

theorem sound_procedureStep {known : SymbolId → Option Procedure}
    (sound : ∀ id procedure, known id = some procedure → procedure.Sound)
    (found : procedureStep table known id = some procedure) : procedure.Sound := by
  unfold procedureStep at found
  split at found
  · exact sound_subprogramWith sound found
  · split at found
    · obtain ⟨specific, -, rfl⟩ := Option.map_eq_some_iff.mp found
      exact Procedure.sound_ofSpecific specific
    · split at found
      next interface _ => exact sound interface procedure found
      · exact sound_unknownInterface found
  next binding _ =>
    obtain ⟨inner, isInner, rfl⟩ := Option.map_eq_some_iff.mp found
    have innerSound := sound binding.procedure inner isInner
    split
    · exact innerSound
    · exact innerSound.markPassed binding.passName
  · cases found

theorem sound_procedureWithin {links : Nat} (found : table.procedureWithin links id = some procedure) :
    procedure.Sound := by
  induction links generalizing id procedure with
  | zero => cases found
  | succ links ih =>
    rw [procedureWithin_succ] at found
    exact sound_procedureStep (fun _ _ => ih) found

/-- Whatever the symbol table, the characteristics of a procedure and of all procedures that are nested in
them are consistent. -/
theorem characteristics_consistent (found : table.procedure id = some procedure) {nested : Procedure}
    (contains : procedure.Contains nested) : nested.Consistent :=
  sound_procedureWithin found nested contains

/-- A subroutine `s(x, p)` with a coarray of assumed shape and a dummy procedure, which has been called. -/
def takesCoarray : Table where
  symbols := #[
    ⟨"s", .empty, .empty, .subprogram ⟨[some ⟨1⟩, some ⟨2⟩], none, false, false, some ⟨0⟩⟩, ⟨0⟩, ⟨0, 0⟩⟩,
    ⟨"x", .empty, .empty,
      .object ⟨some (.intrinsic .real 4 none), [.colon none], [.assumedSize none], none, true⟩, ⟨0⟩, ⟨0, 0⟩⟩,
    ⟨"p", .empty, .ofList [.subroutine], .procEntity ⟨none, none, true, none⟩, ⟨0⟩, ⟨0, 0⟩⟩]
  scopes := #[Scope.globalScope]

def calledDummy : Procedure :=
  ⟨none, [], .ofList [.implicitInterface, .subroutine]⟩

def takingCoarray : Procedure :=
  ⟨none,
    [.ofObject "x" (.ofTypeAndShape ⟨.plain .real 4, none, [none], .ofList [.assumedShape, .coarray], 1⟩),
      .ofProcedure "p" (.ofProcedure calledDummy)],
    .ofList [.subroutine]⟩

theorem characteristics_consistent_takesCoarray :
    takesCoarray.procedure ⟨0⟩ = some takingCoarray ∧ takingCoarray.Contains calledDummy ∧
      takingCoarray.Consistent ∧ calledDummy.Consistent := by
  have found : takesCoarray.procedure ⟨0⟩ = some takingCoarray := rfl
  have nested : takingCoarray.Contains calledDummy := .dummy (.tail _ (.head _)) (.self _)
  exact ⟨found, nested, characteristics_consistent found (.self _), characteristics_consistent found nested⟩

end Table

end FortranInterface
