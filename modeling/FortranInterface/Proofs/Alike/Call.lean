import FortranInterface.Proofs.Alike.Procedure

/-!
References that are alike have the same faults, so they fit the same specific procedures.
-/

namespace FortranInterface

set_option linter.unusedSectionVars false

variable {pairing : Pairing}

/-! Arrangements. -/

variable {actual actual' : Actual}

section

variable (alike : actual.Alike pairing actual')
include alike

theorem Actual.Alike.keyword : actual.keyword = actual'.keyword := by
  cases alike; rfl

theorem Actual.Alike.span : actual.span = actual'.span := by
  cases alike; rfl

theorem Actual.Alike.expr? : Option.Rel (Expr.Alike pairing) actual.expr? actual'.expr? := by
  cases alike with
  | mk _ _ _ value =>
    cases value with
    | expr same => exact .some same
    | _ => exact .none

end

namespace Arrangement

structure Alike (pairing : Pairing) (arrangement arrangement' : Arrangement) : Prop where
  slots : Actuals.Alike pairing arrangement.slots arrangement'.slots
  findings : arrangement.findings = arrangement'.findings

def KeywordAlike (pairing : Pairing) (entry entry' : String × Actual) : Prop :=
  entry.1 = entry'.1 ∧ entry.2.Alike pairing entry'.2

theorem isPositional_eq {actual actual' : Option Actual} (alike : Option.Rel (Actual.Alike pairing) actual actual') :
    isPositional actual = isPositional actual' := by
  cases alike with
  | none => rfl
  | some same => simp only [isPositional, same.keyword]

variable {actuals actuals' : Actuals}

theorem takeWhile_isPositional (alike : Actuals.Alike pairing actuals actuals') :
    Actuals.Alike pairing (actuals.takeWhile isPositional) (actuals'.takeWhile isPositional) := by
  induction alike with
  | nil => exact .nil
  | cons first _ ih =>
    simp only [List.takeWhile_cons, isPositional_eq first]
    split
    · exact .cons first ih
    · exact .nil

theorem dropWhile_isPositional (alike : Actuals.Alike pairing actuals actuals') :
    Actuals.Alike pairing (actuals.dropWhile isPositional) (actuals'.dropWhile isPositional) := by
  induction alike with
  | nil => exact .nil
  | cons first rest ih =>
    simp only [List.dropWhile_cons, isPositional_eq first]
    split
    · exact ih
    · exact .cons first rest

theorem keywordActuals_alike (place : Nat) (seen : List String) (alike : Actuals.Alike pairing actuals actuals') :
    List.Forall₂ (KeywordAlike pairing) (keywordActuals place seen actuals).1
        (keywordActuals place seen actuals').1 ∧
      (keywordActuals place seen actuals).2 = (keywordActuals place seen actuals').2 := by
  induction alike generalizing place seen with
  | nil => exact ⟨.nil, rfl⟩
  | cons first _ ih =>
    cases first with
    | none => exact ih (place + 1) seen
    | some same =>
      simp only [keywordActuals, same.keyword, same.span]
      split
      · rename_i keyword _
        split
        · exact ⟨(ih (place + 1) seen).1, by rw [(ih (place + 1) seen).2]⟩
        · exact ⟨.cons ⟨rfl, same⟩ (ih (place + 1) (keyword :: seen)).1, (ih (place + 1) (keyword :: seen)).2⟩
      · exact ⟨(ih (place + 1) seen).1, by rw [(ih (place + 1) seen).2]⟩

variable {dummies dummies' : List Dummy}

theorem placeOf?_eq (alike : List.Forall₂ (Dummy.Alike pairing) dummies dummies') (keyword : String) :
    placeOf? dummies keyword = placeOf? dummies' keyword :=
  findIdx?_alike alike fun same => by rw [same.name]

variable {arrangement arrangement' : Arrangement}

variable (dummiesAlike : List.Forall₂ (Dummy.Alike pairing) dummies dummies')
include dummiesAlike

theorem putKeyword_alike (alike : arrangement.Alike pairing arrangement') {entry entry' : String × Actual}
    (entries : KeywordAlike pairing entry entry') :
    (putKeyword dummies arrangement entry).Alike pairing (putKeyword dummies' arrangement' entry') := by
  have slot_alike {slots slots' : Actuals} (same : Actuals.Alike pairing slots slots') (index : Nat) :
      Option.Rel (Option.Rel (Actual.Alike pairing)) slots[index]? slots'[index]? := by
    induction same generalizing index with
    | nil => exact .none
    | cons first _ ih =>
      cases index with
      | zero => exact .some first
      | succ index => exact ih index
  have set_alike {slots slots' : Actuals} (same : Actuals.Alike pairing slots slots') (index : Nat) :
      Actuals.Alike pairing (slots.set index (some entry.2)) (slots'.set index (some entry'.2)) := by
    induction same generalizing index with
    | nil => exact .nil
    | cons first rest ih =>
      cases index with
      | zero => exact .cons (.some entries.2) rest
      | succ index => exact .cons first (ih index)
  simp only [putKeyword, entries.1, placeOf?_eq dummiesAlike, entries.2.span, alike.findings]
  split
  · rename_i index _
    have slots := slot_alike alike.slots index
    refine relCases slots ⟨alike.slots, rfl⟩ fun _ _ same => ?_
    cases same with
    | none => exact ⟨set_alike alike.slots index, rfl⟩
    | some _ => exact ⟨alike.slots, rfl⟩
  · exact ⟨alike.slots, rfl⟩

theorem putKeywords_alike (alike : arrangement.Alike pairing arrangement') {entries entries' : List (String × Actual)}
    (entriesAlike : List.Forall₂ (KeywordAlike pairing) entries entries') :
    (entries.foldl (putKeyword dummies) arrangement).Alike pairing
      (entries'.foldl (putKeyword dummies') arrangement') := by
  induction entriesAlike generalizing arrangement arrangement' with
  | nil => exact alike
  | cons first _ ih => exact ih (putKeyword_alike dummiesAlike alike first)

theorem ofActuals_alike (alike : Actuals.Alike pairing actuals actuals') :
    (ofActuals dummies actuals).Alike pairing (ofActuals dummies' actuals') := by
  have positional := takeWhile_isPositional alike
  have keywords := keywordActuals_alike ((actuals'.takeWhile isPositional).length + 1) [] (dropWhile_isPositional alike)
  have empty (count : Nat) : Actuals.Alike pairing (List.replicate count none) (List.replicate count none) :=
    List.forall₂_same.mpr fun slot inside => by rw [List.eq_of_mem_replicate inside]; exact .none
  simp only [ofActuals, positional.length_eq, dummiesAlike.length_eq, alike.length_eq, keywords.2]
  split
  · exact ⟨alike, rfl⟩
  · refine putKeywords_alike dummiesAlike ?_ keywords.1
    exact ⟨List.rel_append positional (empty _), rfl⟩

end Arrangement

/-! Data objects as arguments. -/

variable {expr expr' : Expr}

theorem Expr.Alike.isCoindexed (alike : expr.Alike pairing expr') : expr.isCoindexed = expr'.isCoindexed := by
  cases alike <;> rfl

theorem Expr.Alike.lastSymbol? (alike : expr.Alike pairing expr') :
    Option.Rel pairing.symbols expr.lastSymbol? expr'.lastSymbol? := by
  cases alike with
  | designator _ paired _ => exact .some paired
  | _ => exact .none

theorem Symbol.Alike.canBeTarget {gained : Option Attribute} {symbol symbol' : Symbol}
    (alike : symbol.Alike pairing gained symbol') : symbol.canBeTarget = symbol'.canBeTarget := by
  simp only [Symbol.canBeTarget, alike.plain .target rfl, alike.isPointer]

theorem Details.Alike.isDummy {details details' : Details} (alike : details.Alike pairing details') :
    details.isDummy = details'.isDummy := by
  cases alike with
  | object same => exact same.isDummy
  | procEntity same => exact same.isDummy
  | subprogram same => exact same.isDummy
  | _ => rfl

namespace DataObject.Alike

variable {object object' : DataObject} (alike : object.Alike pairing object')
include alike

theorem reshapes : object.reshapes = object'.reshapes := by
  simp only [DataObject.reshapes, alike.typeAndShape.has, alike.has]

theorem isDefined : object.isDefined = object'.isDefined := by
  simp only [DataObject.isDefined, alike.intent]

theorem nullFaults_eq (label : DummyLabel) : nullFaults label object = nullFaults label object' := by
  simp only [nullFaults, alike.has, alike.isDefined, alike.intent]

end DataObject.Alike

namespace Table.Alike

variable {leeway : Leeway} {table table' : Table} (alike : Table.Alike pairing leeway table table')
  (label : DummyLabel) {dummy dummy' : DataObject} (dummies : dummy.Alike pairing dummy')
  {expr expr' : Expr} (same : expr.Alike pairing expr')
  {actual actual' : TypeAndShape} (actuals : actual.Alike pairing actual')

section

include alike same

theorem lastIsTarget : (expr.lastSymbol?.map fun id => (table.symbol id).canBeTarget).getD false =
    (expr'.lastSymbol?.map fun id => (table'.symbol id).canBeTarget).getD false := by
  have last := same.lastSymbol?
  generalize expr.lastSymbol? = found, expr'.lastSymbol? = found' at last
  cases last with
  | none => rfl
  | some paired => simp only [Option.map_some, (alike.symbol paired).canBeTarget]

theorem whole_map {α : Type} {read : Symbol → α}
    (reads : ∀ {gained} {symbol symbol' : Symbol}, symbol.Alike pairing gained symbol' →
      read symbol = read symbol') : (table.wholeSymbol? expr).map read = (table'.wholeSymbol? expr').map read := by
  have whole := alike.wholeSymbol? same
  refine relCases whole rfl fun _ _ whole => ?_
  obtain ⟨gained, symbols⟩ := whole
  simp only [Option.map_some, reads symbols]

theorem indefinable?_eq : indefinable? table expr none = indefinable? table' expr' none := by
  have last := same.lastSymbol?
  simp only [indefinable?, alike.isVariable same]
  split
  · rfl
  · refine relCases last rfl fun _ _ paired => ?_
    have symbols := alike.symbol paired
    simp only [Option.bind_some, symbols.details.isDummy, symbols.plain .intentIn rfl, symbols.name,
      Option.map_none]

theorem isAllocatableWhole_eq : isAllocatableWhole table expr = isAllocatableWhole table' expr' := by
  simp only [isAllocatableWhole, alike.whole_map same fun symbols => symbols.isAllocatable]

end

section

include alike same dummies

theorem scalarForArrayFaults_eq :
    scalarForArrayFaults table label dummy expr = scalarForArrayFaults table' label dummy' expr' := by
  have types := alike.typeOf same
  simp only [scalarForArrayFaults, types, dummies.reshapes]
  cases same with
  | @designator id id' _ _ _ paired subscripts =>
    cases subscripts with
    | nil => rfl
    | cons _ _ =>
      have symbols := alike.symbol paired
      have details := symbols.details
      simp only [symbols.isPointer]
      generalize (table.symbol id).details = found, (table'.symbol id').details = found' at details
      cases details with
      | object same => simp only [same.isDummy, ArraySpec.Alike.isColonShape same.shape]
      | _ => rfl
  | _ => rfl

theorem isPointerToTarget_eq : isPointerToTarget table dummy expr = isPointerToTarget table' dummy' expr' := by
  simp only [isPointerToTarget, dummies.has, dummies.intent, alike.isPointer same, alike.lastIsTarget same]

theorem definabilityFaults_eq (isElemental : Bool) :
    definabilityFaults table label dummy expr isElemental none =
      definabilityFaults table' label dummy' expr' isElemental none := by
  simp only [definabilityFaults, dummies.isDefined, dummies.has, dummies.intent,
    alike.hasVectorSubscript same, alike.indefinable?_eq same]

theorem pointerFaults_eq : pointerFaults table label dummy expr = pointerFaults table' label dummy' expr' := by
  simp only [pointerFaults, dummies.has, dummies.intent, alike.isPointer same,
    alike.isPointerToTarget_eq dummies same,
    alike.whole_map same fun symbols => symbols.plain .contiguous rfl]

theorem targetFaults_eq : targetFaults table label dummy expr = targetFaults table' label dummy' expr' := by
  simp only [targetFaults, dummies.has, alike.isVariable same, alike.lastIsTarget same, alike.spelling same]

include actuals

theorem shapeFaults_eq (isElemental : Bool) :
    shapeFaults table label dummy expr actual isElemental =
      shapeFaults table' label dummy' expr' actual' isElemental := by
  simp only [shapeFaults, dummies.typeAndShape.has, actuals.has, dummies.typeAndShape.rank, actuals.rank,
    dummies.reshapes, alike.scalarForArrayFaults_eq label dummies same,
    Shape.mismatch?_eq _ _ dummies.typeAndShape.shape actuals.shape]

theorem typeFaults_eq (isElemental : Bool) :
    typeFaults table label dummy expr actual isElemental =
      typeFaults table' label dummy' expr' actual' isElemental := by
  simp only [typeFaults, alike.isPointerToTarget_eq dummies same,
    dummies.typeAndShape.mismatch? actuals, dummies.typeAndShape.type, actuals.type,
    dummies.typeAndShape.typeSpelling, actuals.typeSpelling,
    alike.shapeFaults_eq label dummies same actuals]

theorem contiguityFaults_eq :
    contiguityFaults table label dummy expr actual = contiguityFaults table' label dummy' expr' actual' := by
  simp only [contiguityFaults, dummies.has, dummies.typeAndShape.has, actuals.rank, alike.isSimplyContiguous same]

theorem allocatableFaults_eq :
    allocatableFaults table label dummy expr actual = allocatableFaults table' label dummy' expr' actual' := by
  simp only [allocatableFaults, dummies.has, same.isCoindexed, alike.isAllocatableWhole_eq same,
    dummies.typeAndShape.corank, actuals.corank]

theorem declaredTypeFaults_eq :
    declaredTypeFaults table dummy expr actual = declaredTypeFaults table' dummy' expr' actual' := by
  simp only [declaredTypeFaults, dummies.has, alike.isPointer same, alike.isAllocatableWhole_eq same,
    dummies.type, actuals.type]

theorem lengthFaults_eq : lengthFaults table dummy expr actual = lengthFaults table' dummy' expr' actual' := by
  simp only [lengthFaults, dummies.typeAndShape.type, actuals.type, dummies.has, dummies.typeAndShape.has,
    dummies.typeAndShape.rank, actuals.rank, alike.isVariable same,
    Shape.bind_foldInteger alike dummies.typeAndShape.length, Shape.bind_foldInteger alike actuals.length]

omit alike in
theorem wholeFaults_eq : wholeFaults label dummy expr actual = wholeFaults label dummy' expr' actual' := by
  simp only [wholeFaults, same.isCoindexed, dummies.type, actuals.has, dummies.typeAndShape.has, dummies.has,
    actuals.corank]

end

include alike dummies same in
theorem dataFaults_eq (isElementalCall : Bool) :
    dataFaults table label dummy expr isElementalCall none =
      dataFaults table' label dummy' expr' isElementalCall none := by
  have types := alike.exprTypeAndShape same
  have kept := same
  cases same with
  | boz => simp only [dataFaults, dummies.type]
  | null => exact dummies.nullFaults_eq label
  | procedure callee => simp only [dataFaults, alike.calleeName callee]
  | _ =>
    simp only [dataFaults]
    refine relCases types rfl fun _ _ types => ?_
    simp only [dummies.rank, alike.typeFaults_eq label dummies kept types,
      wholeFaults_eq label dummies kept types, alike.definabilityFaults_eq label dummies kept,
      alike.contiguityFaults_eq label dummies kept types,
      alike.allocatableFaults_eq label dummies kept types, alike.pointerFaults_eq label dummies kept,
      alike.declaredTypeFaults_eq dummies kept types, alike.targetFaults_eq label dummies kept,
      alike.lengthFaults_eq dummies kept types]

end Table.Alike

/-! Procedures as arguments. -/

structure ProcedureActual.Alike (pairing : Pairing) (actual actual' : ProcedureActual) : Prop where
  procedure : Option.Rel (Procedure.Alike pairing) actual.procedure actual'.procedure
  isIntrinsic : actual.isIntrinsic = actual'.isIntrinsic
  isPointer : actual.isPointer = actual'.isPointer
  spelling : actual.spelling = actual'.spelling

inductive PassedAlike (pairing : Pairing) : Except (List CallFault) ProcedureActual →
    Except (List CallFault) ProcedureActual → Prop where
  | error (faults : List CallFault) : PassedAlike pairing (.error faults) (.error faults)
  | ok {actual actual' : ProcedureActual} : actual.Alike pairing actual' →
      PassedAlike pairing (.ok actual) (.ok actual')

theorem FunctionResult.Alike.typeAndShape? {result result' : FunctionResult} (alike : result.Alike pairing result') :
    Option.Rel (TypeAndShape.Alike pairing) result.typeAndShape? result'.typeAndShape? := by
  cases alike with
  | mk _ kind =>
    cases kind with
    | data same => exact .some same
    | procedurePointer => exact .none

namespace Procedure.Alike

variable {expected expected' found found' : Procedure} (alike : expected.Alike pairing expected')
  (founds : found.Alike pairing found')
include alike founds

theorem resultFaults_eq (label : DummyLabel) :
    resultFaults label expected found = resultFaults label expected' found' := by
  have types {procedure procedure' : Procedure} (same : procedure.Alike pairing procedure') :
      Option.Rel (TypeAndShape.Alike pairing) (procedure.result.bind FunctionResult.typeAndShape?)
        (procedure'.result.bind FunctionResult.typeAndShape?) :=
    ((Lift.of_rel same.result).bind fun result => .of_rel result.typeAndShape?).rel
  have expectedTypes := types alike
  have foundTypes := types founds
  unfold resultFaults
  rw [alike.isFunction, founds.isFunction, alike.isSubroutine, founds.isSubroutine]
  generalize expected.result.bind FunctionResult.typeAndShape? = type,
    expected'.result.bind FunctionResult.typeAndShape? = type' at expectedTypes
  generalize found.result.bind FunctionResult.typeAndShape? = other,
    found'.result.bind FunctionResult.typeAndShape? = other' at foundTypes
  cases expectedTypes with
  | none => rfl
  | some expectedTypes =>
    cases foundTypes with
    | none => rfl
    | some foundTypes =>
      simp only [expectedTypes.type, foundTypes.type, expectedTypes.typeSpelling, foundTypes.typeSpelling]

theorem matchesInterface_eq (exact : pairing.Exact) (isIntrinsic : Bool) :
    matchesInterface expected found isIntrinsic = matchesInterface expected' found' isIntrinsic := by
  have pureRemoved : (if expected.isPure then found else found.without .pure).Alike pairing
      (if expected'.isPure then found' else found'.without .pure) := by
    rw [alike.isPure]
    split
    · exact founds
    · exact founds.without .pure
  have others := pureRemoved.without .nullPointer
  have mine := alike.without .nullPointer
  simp only [matchesInterface]
  split
  · exact (mine.without .elemental).agrees exact (others.without .elemental)
  · exact mine.agrees exact others

theorem interfaceFaults_eq (exact : pairing.Exact) (label : DummyLabel) (intent : Intent)
    (attributes : Flags DummyProcedureAttribute) {actual actual' : ProcedureActual}
    (actuals : actual.Alike pairing actual') :
    interfaceFaults label ⟨expected, intent, attributes⟩ actual found =
      interfaceFaults label ⟨expected', intent, attributes⟩ actual' found' := by
  have optional : found.dummies.any Dummy.isOptional = found'.dummies.any Dummy.isOptional := by
    have dummies := founds.dummies
    generalize found.dummies = items, found'.dummies = items' at dummies
    induction dummies with
    | nil => rfl
    | cons first _ ih => simp only [List.any_cons, first.isOptional, ih]
  simp only [interfaceFaults, founds.isElemental, founds.isBindC, actuals.isIntrinsic,
    actuals.spelling, alike.hasExplicitInterface, founds.hasExplicitInterface,
    alike.matchesInterface_eq founds exact, alike.resultFaults_eq founds, optional]

end Procedure.Alike

namespace Table.Alike

variable {leeway : Leeway} {table table' : Table} (alike : Table.Alike pairing leeway table table')
include alike

variable {dummy dummy' : DummyProcedure}

theorem procedureActual_alike (label : DummyLabel) (dummies : dummy.Alike pairing dummy')
    (same : expr.Alike pairing expr') :
    PassedAlike pairing (procedureActual table label dummy expr) (procedureActual table' label dummy' expr') := by
  have spellings := alike.spelling same
  cases same with
  | @procedure callee callee' callees =>
    have intrinsic : callee.isIntrinsicIn table = callee'.isIntrinsicIn table' := by
      cases callees with
      | symbol paired => exact (alike.symbol paired).plain .intrinsic rfl
      | intrinsic => rfl
    have pointer : callee.isPointerIn table = callee'.isPointerIn table' := by
      cases callees with
      | symbol paired => exact (alike.symbol paired).isPointer
      | intrinsic => rfl
    simp only [procedureActual, intrinsic, pointer, alike.calleeName callees]
    split
    · exact .error _
    · exact .ok ⟨alike.calleeProcedure callees, rfl, rfl, rfl⟩
  | @call callee callee' _ _ callees _ =>
    have returned := alike.returnedProcedure callees
    simp only [procedureActual, spellings]
    exact relCases returned (.error _) fun _ _ returned => .ok ⟨.some returned, rfl, rfl, rfl⟩
  | null => cases dummies; exact .error _
  | _ => exact .error _

theorem procedureFaults_eq (label : DummyLabel) (dummies : dummy.Alike pairing dummy')
    (same : actual.Alike pairing actual') :
    procedureFaults table label dummy actual = procedureFaults table' label dummy' actual' := by
  have exprs := same.expr?
  simp only [procedureFaults]
  refine relCases exprs rfl fun expr expr' exprs => ?_
  have passed := alike.procedureActual_alike label dummies exprs
  simp only
  generalize procedureActual table label dummy expr = found,
    procedureActual table' label dummy' expr' = found' at passed
  cases passed with
  | error => rfl
  | @ok actual actual' actuals =>
    cases dummies with
    | mk _ _ procedures =>
      have kinds := actuals.procedure
      simp only [actuals.isPointer]
      generalize actual.procedure = found, actual'.procedure = found' at kinds
      cases kinds with
      | none => rfl
      | some founds =>
        simp only [procedures.interfaceFaults_eq founds alike.exact _ _ _ actuals]
        rfl

/-! Whole references. -/

theorem argumentFaults_eq (isElementalCall : Bool) {dummy dummy' : Dummy} (dummies : dummy.Alike pairing dummy')
    (same : actual.Alike pairing actual') :
    Call.argumentFaults table isElementalCall none dummy actual =
      Call.argumentFaults table' isElementalCall none dummy' actual' := by
  have procedures (label : DummyLabel) {procedure procedure' : DummyProcedure}
      (kinds : procedure.Alike pairing procedure') :=
    alike.procedureFaults_eq label kinds same
  cases same with
  | mk _ _ _ values =>
    cases dummies with
    | mk _ _ kinds =>
      cases values with
      | expr values =>
        cases kinds with
        | object objects => exact alike.dataFaults_eq _ objects values isElementalCall
        | procedure kinds => exact procedures _ kinds
        | alternateReturn => rfl
      | assumedType paired =>
        cases kinds with
        | object objects =>
          simp only [Call.argumentFaults, Call.labelOf, objects.type, (alike.symbol paired).name]
        | procedure kinds => exact procedures _ kinds
        | alternateReturn => rfl
      | label => cases kinds <;> rfl

variable {dummies dummies' : List Dummy}

theorem slotsFindings_eq (isElementalCall : Bool) (index : Nat)
    (dummiesAlike : List.Forall₂ (Dummy.Alike pairing) dummies dummies') {slots slots' : Actuals}
    (slotsAlike : Actuals.Alike pairing slots slots') :
    Call.slotsFindings table isElementalCall none index dummies slots =
      Call.slotsFindings table' isElementalCall none index dummies' slots' := by
  induction dummiesAlike generalizing index slots slots' with
  | nil => cases slotsAlike <;> rfl
  | cons first _ ih =>
    cases slotsAlike with
    | nil => rfl
    | cons slot others =>
      cases slot with
      | none =>
        simp only [Call.slotsFindings, Call.slotFindings, first.isOptional, first.name, ih _ others]
      | some same =>
        simp only [Call.slotsFindings, Call.slotFindings, same.span,
          alike.argumentFaults_eq isElementalCall first same, ih _ others]

structure ElementalAlike (pairing : Pairing) (actual actual' : Call.ElementalActual) : Prop where
  label : actual.label = actual'.label
  shape : Shape.Alike pairing actual.shape actual'.shape
  span : actual.span = actual'.span

theorem elementalActual?_alike {dummy dummy' : Dummy} (dummies : dummy.Alike pairing dummy')
    (same : actual.Alike pairing actual') :
    Option.Rel (ElementalAlike pairing) (Call.elementalActual? table dummy actual)
      (Call.elementalActual? table' dummy' actual') := by
  apply Lift.rel
  unfold Call.elementalActual?
  refine (Lift.of_rel dummies.object?).bind fun objects => ?_
  refine (Lift.of_rel same.expr?).bind fun exprs => ?_
  refine (Lift.of_rel (alike.exprTypeAndShape exprs)).bind fun types => ?_
  rw [objects.rank, types.rank, Call.labelOf, Call.labelOf, dummies.name, same.span]
  split
  · exact .none_none
  · exact .some_some ⟨rfl, types.shape, rfl⟩

theorem elementalActuals_alike (dummiesAlike : List.Forall₂ (Dummy.Alike pairing) dummies dummies')
    {slots slots' : Actuals} (slotsAlike : Actuals.Alike pairing slots slots') :
    List.Forall₂ (ElementalAlike pairing) (Call.elementalActuals table dummies slots)
      (Call.elementalActuals table' dummies' slots') := by
  induction dummiesAlike generalizing slots slots' with
  | nil => cases slotsAlike <;> exact .nil
  | cons first _ ih =>
    cases slotsAlike with
    | nil => exact .nil
    | cons slot others =>
      refine List.rel_append ?_ (ih others)
      cases slot with
      | none => exact .nil
      | some same =>
        have here := alike.elementalActual?_alike first same
        simp only [Option.bind_some]
        exact relCases here .nil fun _ _ here => .cons here .nil

omit alike in
theorem conformanceFindings_eq {actuals actuals' : List Call.ElementalActual}
    (same : List.Forall₂ (ElementalAlike pairing) actuals actuals') :
    Call.conformanceFindings actuals = Call.conformanceFindings actuals' := by
  cases same with
  | nil => rfl
  | cons first others =>
    simp only [Call.conformanceFindings]
    induction others with
    | nil => rfl
    | cons other _ ih =>
      simp only [List.filterMap_cons, first.label, other.label, other.span,
        Shape.mismatch?_eq _ _ first.shape other.shape]
      simp only [first.label] at ih
      rw [ih]

theorem fitsGeneric {procedure procedure' : Procedure}
    (procedures : procedure.Alike pairing procedure') {actuals actuals' : Actuals}
    (same : Actuals.Alike pairing actuals actuals') :
    Call.fitsGeneric table procedure actuals = Call.fitsGeneric table' procedure' actuals' := by
  have arranged := Arrangement.ofActuals_alike procedures.dummies same
  have findings : Call.arrangedFindings table procedure none
        (Arrangement.ofActuals procedure.dummies actuals).slots =
      Call.arrangedFindings table' procedure' none (Arrangement.ofActuals procedure'.dummies actuals').slots := by
    rw [Call.arrangedFindings, Call.arrangedFindings, procedures.isElemental,
      alike.slotsFindings_eq _ 0 procedures.dummies arranged.slots,
      conformanceFindings_eq (alike.elementalActuals_alike procedures.dummies arranged.slots)]
  unfold Call.fitsGeneric Call.checkExplicit Arrangement.isComplete
  simp only
  rw [arranged.findings, findings]
  split
  · rfl
  · rw [arranged.findings]

end Table.Alike

end FortranInterface
