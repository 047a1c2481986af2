import FortranInterface.Proofs.Alike.Variable

/-!
Paired symbols denote procedures that are alike, and procedures that are alike have the same characteristics
as the same others.
-/

namespace FortranInterface

set_option linter.unusedSectionVars false

structure DataObject.Alike (pairing : Pairing) (object object' : DataObject) : Prop where
  typeAndShape : object.typeAndShape.Alike pairing object'.typeAndShape
  coshape : List.Forall₂ (Expr.Alike pairing) object.coshape object'.coshape
  intent : object.intent = object'.intent
  attributes : object.attributes = object'.attributes

mutual

inductive Procedure.Alike (pairing : Pairing) : Procedure → Procedure → Prop where
  | mk {result result' : Option FunctionResult} {dummies dummies' : List Dummy}
      (attributes : Flags ProcedureAttribute) :
      Option.Rel (FunctionResult.Alike pairing) result result' →
      List.Forall₂ (Dummy.Alike pairing) dummies dummies' →
      Procedure.Alike pairing ⟨result, dummies, attributes⟩ ⟨result', dummies', attributes⟩

inductive FunctionResult.Alike (pairing : Pairing) : FunctionResult → FunctionResult → Prop where
  | mk (attributes : Flags ResultAttribute) {kind kind' : ResultKind} :
      ResultKind.Alike pairing kind kind' →
      FunctionResult.Alike pairing ⟨attributes, kind⟩ ⟨attributes, kind'⟩

inductive ResultKind.Alike (pairing : Pairing) : ResultKind → ResultKind → Prop where
  | data {typeAndShape typeAndShape' : TypeAndShape} : typeAndShape.Alike pairing typeAndShape' →
      ResultKind.Alike pairing (.data typeAndShape) (.data typeAndShape')
  | procedurePointer {procedure procedure' : Procedure} : Procedure.Alike pairing procedure procedure' →
      ResultKind.Alike pairing (.procedurePointer procedure) (.procedurePointer procedure')

inductive Dummy.Alike (pairing : Pairing) : Dummy → Dummy → Prop where
  | mk (name : String) (pass : Bool) {kind kind' : DummyKind} : DummyKind.Alike pairing kind kind' →
      Dummy.Alike pairing ⟨name, pass, kind⟩ ⟨name, pass, kind'⟩

inductive DummyKind.Alike (pairing : Pairing) : DummyKind → DummyKind → Prop where
  | object {object object' : DataObject} : object.Alike pairing object' →
      DummyKind.Alike pairing (.object object) (.object object')
  | procedure {procedure procedure' : DummyProcedure} : DummyProcedure.Alike pairing procedure procedure' →
      DummyKind.Alike pairing (.procedure procedure) (.procedure procedure')
  | alternateReturn : DummyKind.Alike pairing .alternateReturn .alternateReturn

inductive DummyProcedure.Alike (pairing : Pairing) : DummyProcedure → DummyProcedure → Prop where
  | mk {procedure procedure' : Procedure} (intent : Intent) (attributes : Flags DummyProcedureAttribute) :
      Procedure.Alike pairing procedure procedure' →
      DummyProcedure.Alike pairing ⟨procedure, intent, attributes⟩ ⟨procedure', intent, attributes⟩

end

variable {pairing : Pairing}

/-! Comparison. -/

theorem DataObject.Alike.eq_iff (exact : pairing.Exact) {first first' second second' : DataObject}
    (alike : first.Alike pairing first') (other : second.Alike pairing second') :
    first = second ↔ first' = second' := by
  obtain ⟨typeAndShape, coshape, intent, attributes⟩ := first
  obtain ⟨typeAndShape', coshape', intent', attributes'⟩ := first'
  obtain ⟨otherTypeAndShape, otherCoshape, otherIntent, otherAttributes⟩ := second
  obtain ⟨otherTypeAndShape', otherCoshape', otherIntent', otherAttributes'⟩ := second'
  have types := alike.typeAndShape.eq_iff exact other.typeAndShape
  have coshapes := iffExprs exact alike.coshape other.coshape
  have intents := alike.intent
  have otherIntents := other.intent
  have flags := alike.attributes
  have otherFlags := other.attributes
  simp only at types coshapes intents otherIntents flags otherFlags
  subst intents otherIntents flags otherFlags
  simp [types, coshapes]

/-- Asked about things that are alike, a comparison with these two gives the same answer. -/
def Agrees {α : Type} (same : α → α → Bool) (related : α → α → Prop) (first first' : α) : Prop :=
  ∀ ⦃second second'⦄, related second second' → same first second = same first' second'

theorem Procedure.Alike.agrees (exact : pairing.Exact) {first first' : Procedure} (alike : first.Alike pairing first') :
    Agrees Procedure.same (Procedure.Alike pairing) first first' := by
  refine @Procedure.Alike.rec pairing (fun first first' _ => Agrees Procedure.same (Procedure.Alike pairing) first first')
    (fun first first' _ => Agrees FunctionResult.same (FunctionResult.Alike pairing) first first')
    (fun first first' _ => Agrees ResultKind.same (ResultKind.Alike pairing) first first')
    (fun first first' _ => Agrees Dummy.same (Dummy.Alike pairing) first first')
    (fun first first' _ => Agrees DummyKind.same (DummyKind.Alike pairing) first first')
    (fun first first' _ => Agrees DummyProcedure.same (DummyProcedure.Alike pairing) first first')
    (fun first first' _ => Agrees sameResults (Option.Rel (FunctionResult.Alike pairing)) first first')
    (fun first first' _ => Agrees sameDummies (List.Forall₂ (Dummy.Alike pairing)) first first')
    ?_ ?_ ?_ ?_ ?_ ?_ ?_ ?_ ?_ ?_ ?_ ?_ ?_ _ _ alike
  · rintro _ _ _ _ _ _ _ results dummies _ _ ⟨_, otherResults, otherDummies⟩
    simp only [Procedure.same, results otherResults, dummies otherDummies]
  · rintro _ _ _ _ kinds _ _ ⟨_, other⟩
    simp only [FunctionResult.same, kinds other]
  · rintro _ _ alike _ _ (other | _)
    · simp only [ResultKind.same, alike.eq_iff exact other]
    · simp only [ResultKind.same]
  · rintro _ _ _ agrees _ _ (_ | other)
    · simp only [ResultKind.same]
    · simp only [ResultKind.same, agrees other]
  · rintro _ _ _ _ _ kinds _ _ ⟨_, _, other⟩
    simp only [Dummy.same, kinds other]
  · rintro _ _ alike _ _ (other | _ | _)
    · simp only [DummyKind.same, alike.eq_iff exact other]
    · simp only [DummyKind.same]
    · simp only [DummyKind.same]
  · rintro _ _ _ agrees _ _ (_ | other | _)
    · simp only [DummyKind.same]
    · simp only [DummyKind.same, agrees other]
    · simp only [DummyKind.same]
  · rintro _ _ (_ | _ | _) <;> simp only [DummyKind.same]
  · rintro _ _ _ _ _ agrees _ _ ⟨_, _, other⟩
    simp only [DummyProcedure.same, agrees other]
  · rintro _ _ _ agrees _ _ (other | _)
    · simp only [sameResults, agrees other]
    · simp only [sameResults]
  · rintro _ _ (_ | _) <;> simp only [sameResults]
  · rintro _ _ (_ | _) <;> simp only [sameDummies]
  · rintro _ _ _ _ _ _ agrees ih _ _ (_ | ⟨other, others⟩)
    · simp only [sameDummies]
    · simp only [sameDummies, agrees other, ih others]

/-! Parts. -/

variable {object object' : DataObject}

section

variable (alike : object.Alike pairing object')
include alike

theorem DataObject.Alike.has (attr : DataAttribute) : object.has attr = object'.has attr := by
  simp only [DataObject.has, alike.attributes]

theorem DataObject.Alike.type : object.type = object'.type :=
  alike.typeAndShape.type

theorem DataObject.Alike.rank : object.rank = object'.rank :=
  alike.typeAndShape.rank

end

namespace Dummy.Alike

variable {dummy dummy' : Dummy} (alike : dummy.Alike pairing dummy')
include alike

theorem name : dummy.name = dummy'.name := by cases alike; rfl

theorem pass : dummy.pass = dummy'.pass := by cases alike; rfl

theorem object? : Option.Rel (DataObject.Alike pairing) dummy.object? dummy'.object? := by
  cases alike with
  | mk _ _ kind =>
    cases kind with
    | object same => exact .some same
    | _ => exact .none

theorem isOptional : dummy.isOptional = dummy'.isOptional := by
  cases alike with
  | mk _ _ kind =>
    cases kind with
    | object same => exact same.has .optional
    | procedure same => cases same; rfl
    | alternateReturn => rfl

end Dummy.Alike

theorem findIdx?_alike {α β : Type} {related : α → β → Prop} {items : List α} {items' : List β}
    (alike : List.Forall₂ related items items') {test : α → Bool} {test' : β → Bool}
    (tests : ∀ {item item'}, related item item' → test item = test' item') :
    items.findIdx? test = items'.findIdx? test' := by
  induction alike with
  | nil => rfl
  | cons first _ ih => simp only [List.findIdx?_cons, tests first, ih]

namespace Procedure.Alike

variable {procedure procedure' : Procedure} (alike : procedure.Alike pairing procedure')
include alike

theorem attributes : procedure.attributes = procedure'.attributes := by cases alike; rfl

theorem dummies : List.Forall₂ (Dummy.Alike pairing) procedure.dummies procedure'.dummies := by
  cases alike with
  | mk _ _ dummies => exact dummies

theorem result : Option.Rel (FunctionResult.Alike pairing) procedure.result procedure'.result := by
  cases alike with
  | mk _ result _ => exact result

theorem has (attr : ProcedureAttribute) : procedure.has attr = procedure'.has attr := by
  simp only [Procedure.has, alike.attributes]

theorem isFunction : procedure.isFunction = procedure'.isFunction := by
  cases alike with
  | mk _ result _ => cases result <;> rfl

theorem isSubroutine : procedure.isSubroutine = procedure'.isSubroutine :=
  alike.has .subroutine

theorem isPure : procedure.isPure = procedure'.isPure :=
  alike.has .pure

theorem isElemental : procedure.isElemental = procedure'.isElemental :=
  alike.has .elemental

theorem isBindC : procedure.isBindC = procedure'.isBindC :=
  alike.has .bindC

theorem hasExplicitInterface : procedure.hasExplicitInterface = procedure'.hasExplicitInterface := by
  simp only [Procedure.hasExplicitInterface, alike.has]

theorem without (attr : ProcedureAttribute) : (procedure.without attr).Alike pairing (procedure'.without attr) := by
  cases alike with
  | mk attributes result dummies => exact .mk _ result dummies

theorem passIndex? (name : Option String) : procedure.passIndex? name = procedure'.passIndex? name := by
  cases name with
  | none =>
    refine findIdx?_alike alike.dummies fun same => ?_
    exact relCases same.object? rfl fun _ _ _ => rfl
  | some name => exact findIdx?_alike alike.dummies fun same => by rw [same.name]

theorem markPassed (name : Option String) : (procedure.markPassed name).Alike pairing (procedure'.markPassed name) := by
  simp only [Procedure.markPassed, alike.passIndex? name]
  split
  · rename_i index found
    clear found
    cases alike with
    | mk attributes result dummies =>
      refine .mk _ result ?_
      induction dummies generalizing index with
      | nil => simp
      | cons first rest ih =>
        cases index with
        | zero =>
          cases first with
          | mk _ _ kind => exact .cons (.mk _ _ kind) rest
        | succ index => exact .cons first (ih index)
  · exact alike

end Procedure.Alike

theorem Lift.mapM {α β γ δ : Type} {full : Bool} {related : α → β → Prop} {other : γ → δ → Prop}
    {find : α → Option γ} {find' : β → Option δ}
    (lifts : ∀ {item item'}, related item item' → Lift full other (find item) (find' item'))
    {items : List α} {items' : List β} (alike : List.Forall₂ related items items') :
    Lift full (List.Forall₂ other) (items.mapM find) (items'.mapM find') := by
  induction alike with
  | nil => exact .some_some .nil
  | cons first _ ih =>
    simp only [List.mapM_cons]
    exact (lifts first).bind fun here => ih.bind fun others => .some_some (.cons here others)

theorem Procedure.ofSpecific_alike (specific : Intrinsic.Specific) :
    (ofSpecific specific).Alike pairing (ofSpecific specific) := by
  refine .mk _ (.some (.mk _ (.data ⟨rfl, .none, .nil, rfl, rfl⟩))) ?_
  rw [List.forall₂_map_left_iff, List.forall₂_map_right_iff]
  exact List.forall₂_same.mpr fun name _ => .mk _ _ (.object ⟨⟨rfl, .none, .nil, rfl, rfl⟩, .nil, rfl, rfl⟩)

variable {gained : Option Attribute}

section

variable {symbol symbol' : Symbol} (alike : symbol.Alike pairing gained symbol')
include alike

theorem Symbol.Alike.flagsFrom {α : Type} [DecidableEq α] [Enumerated α] {pairs : List (Attribute × α)}
    (plain : pairs.all fun pair => !pair.1.isAccess) : symbol.flagsFrom pairs = symbol'.flagsFrom pairs := by
  unfold Symbol.flagsFrom
  congr 2
  refine List.filter_congr fun pair inside => alike.plain pair.1 ?_
  simpa using List.all_eq_true.mp plain pair inside

theorem Symbol.Alike.declaredAttributes :
    Procedure.declaredAttributes symbol = Procedure.declaredAttributes symbol' := by
  have flags : symbol.flagsFrom Procedure.attributePairs = symbol'.flagsFrom Procedure.attributePairs :=
    alike.flagsFrom rfl
  simp only [Procedure.declaredAttributes, flags, alike.plain .impure rfl]

end

theorem Details.Alike.isObject {details details' : Details} (alike : details.Alike pairing details') :
    details.isObject = details'.isObject := by
  cases alike <;> rfl

namespace Table.Alike

variable {leeway : Leeway} {table table' : Table} (alike : Table.Alike pairing leeway table table')
include alike

theorem coextent? {bounds bounds' : Bounds} (same : bounds.Alike pairing bounds') :
    Option.Rel (Expr.Alike pairing) (DataObject.coextent? table bounds) (DataObject.coextent? table' bounds') := by
  cases same with
  | explicit lower upper =>
    cases lower with
    | none => exact .some (alike.fold upper)
    | some lower =>
      exact .some (alike.fold (.operation _
        (.cons (.operation _ (.cons upper (.cons lower .nil))) (.cons (.int _) .nil))))
  | _ => exact .none

variable {id id' : SymbolId}

theorem dataObject (paired : pairing.symbols id id') :
    Option.Rel (DataObject.Alike pairing) (table.dataObject id) (table'.dataObject id') := by
  have types := alike.objectTypeAndShape paired
  have symbols := alike.symbol paired
  have details := symbols.details
  unfold Table.dataObject
  refine relCases types .none fun _ _ types => ?_
  refine .some ⟨types, ?_, symbols.intent, symbols.flagsFrom rfl⟩
  simp only
  generalize (table.symbol id).details = found, (table'.symbol id').details = found' at details
  cases details with
  | object same => exact List.rel_filterMap (fun _ _ same => alike.coextent? same) same.coshape
  | _ => exact .nil

section

variable {full : Bool} {procedure procedure' : SymbolId → Option Procedure}
  (procedures : ∀ {id id'}, pairing.symbols id id' →
    Lift full (Procedure.Alike pairing) (procedure id) (procedure' id'))
include procedures

theorem lift_dummyWith (paired : pairing.symbols id id') :
    Lift full (Dummy.Alike pairing) (dummyWith table procedure id) (dummyWith table' procedure' id') := by
  have symbols := alike.symbol paired
  simp only [dummyWith, symbols.details.isObject, symbols.name]
  split
  · exact (Lift.of_rel (alike.dataObject paired)).map fun same => .mk _ _ (.object same)
  · refine ((procedures paired).map fun same => ?_).map fun same => .mk _ _ (.procedure same)
    simp only [symbols.intent, (symbols.flagsFrom rfl :
      _ = (table'.symbol id').flagsFrom DummyProcedure.attributePairs)]
    exact .mk _ _ (same.without .elemental)

theorem lift_placeWith {place place' : Option SymbolId} (paired : Option.Rel pairing.symbols place place') :
    Lift full (Dummy.Alike pairing) (placeWith table procedure place) (placeWith table' procedure' place') := by
  cases paired with
  | none => exact .some_some (.mk _ _ .alternateReturn)
  | some paired => exact alike.lift_dummyWith procedures paired

theorem lift_functionResultWith (paired : pairing.symbols id id') :
    Lift full (FunctionResult.Alike pairing) (functionResultWith table procedure id)
      (functionResultWith table' procedure' id') := by
  have symbols := alike.symbol paired
  simp only [functionResultWith, symbols.details.isObject,
    (symbols.flagsFrom rfl : _ = (table'.symbol id').flagsFrom FunctionResult.attributePairs)]
  split
  · exact (Lift.of_rel (alike.objectTypeAndShape paired)).map fun same => .mk _ (.data same)
  · exact (procedures paired).map fun same => .mk _ (.procedurePointer same)

theorem lift_subprogramWith (attributes : Flags ProcedureAttribute)
    {subprogram subprogram' : SubprogramDetails} (same : subprogram.Alike pairing subprogram') :
    Lift full (Procedure.Alike pairing) (subprogramWith table procedure attributes subprogram)
      (subprogramWith table' procedure' attributes subprogram') := by
  have dummies := Lift.mapM (fun paired => alike.lift_placeWith procedures paired) same.dummies
  have results := same.result
  unfold subprogramWith
  refine relCases results (dummies.map fun same => .mk _ .none same) fun _ _ results => ?_
  exact (alike.lift_functionResultWith procedures results).bind fun found =>
    dummies.map fun same => .mk _ (.some found) same

end

theorem unknownInterface (paired : pairing.symbols id id') (attributes : Flags ProcedureAttribute)
    {entity entity' : ProcEntityDetails} (same : entity.Alike pairing entity') :
    Option.Rel (Procedure.Alike pairing) (table.unknownInterface (table.symbol id) attributes entity)
      (table'.unknownInterface (table'.symbol id') attributes entity') := by
  have types := same.type
  simp only [Table.unknownInterface, (alike.symbol paired).usage]
  split
  · exact .some (.mk _ .none .nil)
  · generalize entity.type = type, entity'.type = type' at types
    cases types with
    | none =>
      simp only
      split
      · exact .none
      · exact .some (.mk _ .none .nil)
    | @some type type' types =>
      simp only [(alike.lift_typeOfDeclared types).types_eq]
      cases table'.typeOfDeclared type' with
      | none => exact .none
      | some _ => exact .some (.mk _ (.some (.mk _ (.data ⟨rfl, .none, .nil, rfl, rfl⟩))) .nil)

theorem lift_procedureWithin {full : Bool} {count count' : Nat}
    (answers : ∀ {id id'}, pairing.symbols id id' →
      Lift full (Procedure.Alike pairing) (table.procedureWithin count id)
        (table'.procedureWithin count' id')) (paired : pairing.symbols id id') :
    Lift full (Procedure.Alike pairing) (table.procedureWithin (count + 1) id)
      (table'.procedureWithin (count' + 1) id') := by
  have symbols := alike.symbol paired
  have unknown (attributes : Flags ProcedureAttribute) {entity entity' : ProcEntityDetails}
      (same : entity.Alike pairing entity') := alike.unknownInterface paired attributes same
  have details := symbols.details
  simp only [procedureWithin, symbols.declaredAttributes, symbols.plain .intrinsic rfl,
    symbols.plain .noPass rfl, symbols.name]
  generalize (table.symbol id).details = found, (table'.symbol id').details = found' at details
  cases details with
  | subprogram same => exact alike.lift_subprogramWith answers _ same
  | procEntity same =>
    have interfaces := same.interface
    simp only
    split
    · refine (Lift.refl _).map fun same => ?_
      subst same
      exact Procedure.ofSpecific_alike _
    · have unknown := unknown (Procedure.declaredAttributes (table'.symbol id')) same
      exact relCases interfaces (.of_rel unknown) fun _ _ interfaces => answers interfaces
  | binding same =>
    refine (answers same.procedure).map fun found => ?_
    rw [same.passName]
    split
    · exact found
    · exact found.markPassed _
  | _ => exact .none_none

theorem procedure (paired : pairing.symbols id id') :
    Option.Rel (Procedure.Alike pairing) (table.procedure id) (table'.procedure id') :=
  (Lift.of_enough_links table.procedureWithin table'.procedureWithin _ (fun _ => rfl) (fun _ => rfl)
    (fun _ _ _ answers _ _ => alike.lift_procedureWithin answers) @alike.bounded (Nat.le_refl _)
    alike.size_le paired).rel

variable {callee callee' : Callee} (same : callee.Alike pairing callee')
include same

theorem calleeProcedure :
    Option.Rel (Procedure.Alike pairing) (table.calleeProcedure callee) (table'.calleeProcedure callee') := by
  cases same with
  | symbol paired => exact alike.procedure paired
  | intrinsic name =>
    simp only [Table.calleeProcedure]
    cases Intrinsic.specific? name with
    | none => exact .none
    | some specific => exact .some (Procedure.ofSpecific_alike specific)

theorem returnedProcedure :
    Option.Rel (Procedure.Alike pairing) (table.returnedProcedure callee) (table'.returnedProcedure callee') := by
  refine ((Lift.of_rel (alike.calleeProcedure same)).bind fun found =>
    (Lift.of_rel found.result).bind fun result => ?_).rel
  cases result with
  | mk _ kind =>
    cases kind with
    | data => exact .none_none
    | procedurePointer same => exact .some_some same

end Table.Alike

end FortranInterface
