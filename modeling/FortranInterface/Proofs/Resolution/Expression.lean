import Mathlib.Data.List.InsertIdx
import FortranInterface.Proofs.Characterization
import FortranInterface.Proofs.Resolution.Step
import FortranInterface.Resolution.Type

/-!
Resolving expressions and types is steady: references are noted only for symbols that are procedures at
that moment, and faults, references and undeclared names stand at spans of the expression.
-/

namespace FortranInterface.Resolve

open Resolution

variable {mode : Mode} {state : Resolution} {scope : ScopeId} {span : Span}
variable {id : SymbolId}

theorem isArray_of_symbolShape {table : Table} {object : ObjectDetails} (isObject : table.details id = .object object)
    (isScalar : table.symbolShape id = some []) : object.isArray = false := by
  rw [Table.symbolShape_of_object isObject] at isScalar
  obtain ⟨-, isScalar⟩ := Option.ite_none_left_eq_some.mp isScalar
  simpa [ObjectDetails.isArray] using isScalar

theorem sited_operands (isSite : mode.site span) (operands : List Expr) :
    Actuals.Sited mode.toSites (operands.map fun operand => some ⟨none, .expr operand, false, some span⟩) := by
  intro slot member actual isActual found isSpan
  obtain ⟨operand, -, rfl⟩ := List.mem_map.mp member
  obtain rfl := Option.some.inj isActual
  obtain rfl := Option.some.inj isSpan
  exact isSite

variable {object : Expr}

theorem sited_passObject (isSite : mode.site span) {actuals : Actuals} {index : Option Nat}
    (areSited : Actuals.Sited mode.toSites actuals) :
    Actuals.Sited mode.toSites (Table.passObject object span actuals index) := by
  cases index with
  | none => exact areSited
  | some index =>
    intro slot member actual isActual found isSpan
    rcases List.eq_or_mem_of_mem_insertIdx member with rfl | earlier
    · obtain rfl := Option.some.inj isActual
      obtain rfl := Option.some.inj isSpan
      exact isSite
    · exact areSited slot earlier actual isActual found isSpan

variable {isFunction : Bool}

theorem sited_boundSpecificFor (isSite : mode.site span) {table : Table} {generic specific : SymbolId}
    {actuals passed : Actuals} (areSited : Actuals.Sited mode.toSites actuals)
    (isFound : table.boundSpecificFor? generic object span actuals isFunction = some (specific, passed)) :
    Actuals.Sited mode.toSites passed := by
  obtain ⟨candidate, -, isCandidate⟩ := List.exists_of_findSome?_eq_some isFound
  dsimp only at isCandidate
  split at isCandidate
  · obtain ⟨rfl, rfl⟩ := Prod.mk.inj (Option.some.inj isCandidate)
    exact sited_passObject isSite areSited
  · cases isCandidate

variable {name : String}

section

variable (isSite : mode.site span)
include isSite

variable {kind : Option String}

theorem steady_literalKind {default : Nat} : Attempt.Steady mode (literalKind scope kind default span) := by
  unfold literalKind
  split
  · exact .pure _
  · split
    · exact .pure _
    · refine .table_bind fun table _ => ?_
      split
      · exact .pure _
      · exact .fail isSite fun _ => rfl

theorem steady_integerLiteral {digits : String} : Attempt.Steady mode (integerLiteral scope digits kind span) := by
  refine .bind (steady_literalKind isSite) fun kind => ?_
  split
  · exact .pure _
  · exact .fail isSite fun _ => rfl

theorem steady_realLiteral {text : String} : Attempt.Steady mode (realLiteral scope text kind span) :=
  .bind (steady_literalKind isSite) fun _ => .pure _

omit isSite in
theorem steady_complexLiteral {realPart imaginaryPart : Expr} :
    Attempt.Steady mode (complexLiteral realPart imaginaryPart) :=
  .table_bind fun _ _ => .pure _

omit isSite in
theorem steady_arrayConstructor {values : List Expr} : Attempt.Steady mode (arrayConstructor values) :=
  .table_bind fun _ _ => .pure _

theorem tries_reference {procedure : SymbolId} {generic : Option SymbolId} {arguments : Actuals}
    (areSited : Actuals.Sited mode.toSites arguments) (isProcedure : (state.table.details procedure).isProcedure = true) :
    Attempt.Tries mode state (reference scope procedure generic arguments isFunction span) fun _ _ => True := by
  refine .bind (.lift (leads_refer ⟨isSite, areSited⟩ fun id isSymbol => ?_)) fun _ _ _ _ => .pure trivial
  cases isSymbol
  exact isProcedure

variable {base : Expr}

theorem steady_componentOf : Attempt.Steady mode (componentOf base name span) := by
  refine .table_bind fun table _ => ?_
  split
  · exact .fail isSite fun _ => rfl
  · split
    · exact .pure _
    · exact .fail isSite fun _ => rfl

theorem steady_component : Attempt.Steady mode (component base name span) :=
  .bind (steady_componentOf isSite) fun _ => .table_bind fun _ _ => .pure _

theorem steady_coindexed : Attempt.Steady mode (coindexed base span) := by
  unfold coindexed
  split
  · exact .pure _
  · exact .fail isSite fun _ => rfl

theorem steady_definedOperation {op : String} {operands : List Expr} :
    Attempt.Steady mode (definedOperation scope op operands span) := by
  refine .of_tries fun state => .table_bind ?_
  dsimp only
  split
  next found => exact tries_reference isSite (sited_operands isSite operands) (Table.isProcedure_of_operatorFor found)
  · exact .fail isSite fun _ => rfl

theorem steady_binary {op : Operator} {left right : Expr} : Attempt.Steady mode (binary scope op left right span) := by
  refine .table_bind fun table _ => ?_
  dsimp only
  split
  · exact steady_definedOperation isSite
  · exact .pure _

theorem steady_unary {op : Tree.UnaryOp} {operand : Expr} : Attempt.Steady mode (unary scope op operand span) := by
  refine .table_bind fun table _ => ?_
  dsimp only
  cases op <;> dsimp only <;> split <;> first | exact steady_definedOperation isSite | exact .pure _

theorem tries_specificOf {generic : SymbolId} {actuals : Actuals} :
    Attempt.Tries mode state (specificOf generic actuals isFunction span) fun specific next =>
      (next.table.details specific).isProcedure = true := by
  refine .table_bind ?_
  split
  next found => exact .pure (Table.isProcedure_of_specificFor found)
  · exact .fail isSite fun _ => rfl

section

variable {actuals : Actuals} (areSited : Actuals.Sited mode.toSites actuals)
include areSited

theorem tries_specificReference {generic : SymbolId} :
    Attempt.Tries mode state
      (specificOf generic actuals isFunction span >>= fun specific =>
        reference scope specific (some generic) actuals isFunction span) fun _ _ => True :=
  .bind (tries_specificOf isSite) fun _ _ _ isProcedure => tries_reference isSite areSited isProcedure

theorem steady_componentReference {component : SymbolId} :
    Attempt.Steady mode (componentReference scope component object actuals isFunction span) := by
  refine .of_tries fun state => .table_bind ?_
  dsimp only
  split
  next isBinding => exact tries_reference isSite (sited_passObject isSite areSited) (by rw [isBinding]; rfl)
  next isEntity => exact tries_reference isSite (sited_passObject isSite areSited) (by rw [isEntity]; rfl)
  · split
    next found =>
      exact tries_reference isSite (sited_boundSpecificFor isSite areSited found)
        (Table.isProcedure_of_boundSpecificFor found)
    · exact .fail isSite fun _ => rfl
  · exact .fail isSite fun _ => rfl

end

theorem steady_componentCall {actuals : Attempt Actuals} {subscripts : Attempt (List Subscript)}
    (givesActuals : Attempt.Gives mode actuals (Actuals.Sited mode.toSites))
    (steadySubscripts : Attempt.Steady mode subscripts) :
    Attempt.Steady mode (componentCall scope object name isFunction span actuals subscripts) := by
  refine .bind (steady_componentOf isSite) fun component => .table_bind fun table _ => ?_
  split
  · split
    · exact .bind steadySubscripts fun _ => .pure _
    · exact .fail isSite fun _ => rfl
  · exact givesActuals.bind fun _ areSited => steady_componentReference isSite areSited

theorem steady_specialActual : Attempt.Steady mode (specialActual scope name span) := by
  refine .table_bind fun table _ => ?_
  split
  · exact .failure
  · split
    · exact .pure _
    · exact .pure _
    · split
      · exact .pure _
      · exact .bind (.lift (steady_report isSite fun _ => rfl)) fun _ => .pure _
    · split
      · split
        · exact .pure _
        · exact .failure
      · exact .failure
    · exact .failure

theorem leads_addProcedure {type : Option DeclaredType} {change : SymbolId → Table → Table}
    (steady : ∀ id, Steady mode (Resolve.change (change id))) :
    Leads mode state
      (do
        let id ← addSymbol scope name .empty (.procEntity ⟨none, type, false, none⟩) span
        Resolve.change (change id) return id) fun id next => (next.table.details id).isProcedure = true := by
  refine .bind (leads_addSymbol isSite (.procEntity _ _ _)) fun id next _ added => ?_
  refine .bind (steady id next) fun _ last evolves _ => .pure (evolves.isProcedure ?_)
  rw [added.details]
  rfl

end

theorem steady_calledSymbol : Attempt.Steady mode (calledSymbol id) := by
  refine .get_bind fun state _ => .ite ?_ (.pure _)
  split
  · exact .pure _
  · exact .failure

section Call

variable {actuals : Attempt Actuals} {subscripts : Attempt (List Subscript)} (isSite : mode.site span)
  (givesActuals : Attempt.Gives mode actuals (Actuals.Sited mode.toSites))
include isSite givesActuals

theorem tries_referenceWith {generic : Option SymbolId} (isProcedure : (state.table.details id).isProcedure = true) :
    Attempt.Tries mode state (actuals >>= fun arguments => reference scope id generic arguments isFunction span)
      fun _ _ => True :=
  .bind (givesActuals.tries state) fun _ _ evolves areSited =>
    tries_reference isSite areSited (evolves.isProcedure isProcedure)

theorem tries_objectCall (steadySubscripts : Attempt.Steady mode subscripts)
    (isEntity : (state.table.details id).isAssociate = true ∨ ∃ object, state.table.details id = .object object) :
    Attempt.Tries mode state (objectCall scope id name span actuals subscripts) fun _ _ => True := by
  refine .table_bind (.ite (fun _ => ?_) fun isScalar => .ite (fun _ => ?_) fun _ => .ite ?_ ?_)
  · exact .bind (steadySubscripts.tries state) fun _ _ _ _ => .pure trivial
  · exact .bind (steadySubscripts.tries state) fun _ _ _ _ => .pure trivial
  · exact fun _ => .fail isSite fun _ => rfl
  · intro notAssociate
    obtain ⟨object, isObject⟩ := isEntity.resolve_left notAssociate
    refine .bind (.lift (leads_becomeProcedure id)) fun _ next _ becomes => ?_
    refine .bind (.lift (steady_addUsage id _ next)) fun _ last evolves _ => ?_
    refine tries_referenceWith isSite givesActuals (evolves.isProcedure (becomes object isObject ?_))
    refine isArray_of_symbolShape isObject ?_
    cases isShape : state.table.symbolShape id with
    | none => simp [isShape] at isScalar
    | some shape => simpa [isShape] using isScalar

end Call

section

variable {typeOfName : ScopeId → String → Span → Attempt DeclaredType}
  (steadyType : ∀ scope name span, mode.site span → Attempt.Steady mode (typeOfName scope name span))
include steadyType

section

variable (isSite : mode.site span)
include isSite

theorem steady_implicitVariable : Attempt.Steady mode (implicitVariable typeOfName scope name span) := by
  refine .table_bind fun table _ => .bind (.settle (steadyType _ _ _ isSite)) fun type => ?_
  split
  next type =>
    refine .bind (.lift (steady_addSymbol isSite fun _ => .object _)) fun id => ?_
    exact .bind (.lift (steady_addUsage _ _)) fun _ => .pure _
  · refine .bind (.lift (steady_report isSite fun _ => rfl)) fun _ => ?_
    refine .bind (.lift (steady_addSymbol isSite fun _ => .unresolved)) fun id => ?_
    exact .bind (.lift (steady_addUsage _ _)) fun _ => .failure

theorem leads_implicitProcedure :
    Leads mode state (implicitProcedure typeOfName scope name span isFunction) fun id next =>
      (next.table.details id).isProcedure = true := by
  have steadyUsages (id : SymbolId) :
      Steady mode (change fun table => (table.addUsage id .function).addUsage id .implicitlyTyped) :=
    .changes fun table => .tail (.single (.addUsage _ _ _)) (.addUsage _ _ _)
  refine .table_bind ?_
  dsimp only
  split
  · refine .bind (steadyType _ _ _ isSite state) fun type next _ _ => ?_
    split
    · exact .bind (steady_report isSite (fun _ => rfl) next) fun _ _ _ _ => leads_addProcedure isSite steadyUsages
    · exact leads_addProcedure isSite steadyUsages
  · exact leads_addProcedure isSite fun id => steady_addUsage id _

theorem steady_name : Attempt.Steady mode (Resolve.name typeOfName scope name span) := by
  refine .table_bind fun table _ => ?_
  split
  · exact .bind (steady_implicitVariable steadyType isSite) fun _ => .pure _
  · split
    all_goals first | exact .pure _ | exact .failure | exact .fail isSite fun _ => rfl

theorem steady_functionCall {actuals : Attempt Actuals} {subscripts : Attempt (List Subscript)}
    (givesActuals : Attempt.Gives mode actuals (Actuals.Sited mode.toSites))
    (steadySubscripts : Attempt.Steady mode subscripts) :
    Attempt.Steady mode (functionCall typeOfName scope name span actuals subscripts) := by
  refine .of_tries fun state => .table_bind ?_
  split
  · refine .ite (fun _ => .pure trivial) fun _ => ?_
    refine .bind (givesActuals.tries state) fun arguments next _ areSited => ?_
    refine .ite (fun _ => .pure trivial) fun _ => ?_
    exact .bind (.lift (leads_implicitProcedure steadyType isSite)) fun _ _ _ isProcedure =>
      tries_reference isSite areSited isProcedure
  next found isFound =>
    refine .bind (steady_calledSymbol.tries state) fun id next _ _ => .table_bind ?_
    dsimp only
    split
    next object isObject =>
      exact tries_objectCall isSite givesActuals steadySubscripts (.inr ⟨object, isObject⟩)
    next isAssociate =>
      refine tries_objectCall isSite givesActuals steadySubscripts (.inl ?_)
      rw [Table.details, isAssociate]
      rfl
    next isSubprogram =>
      refine .ite (fun _ => ?_) fun _ => .fail isSite fun _ => rfl
      refine tries_referenceWith isSite givesActuals ?_
      rw [Table.details, isSubprogram]
      rfl
    next entity isEntity =>
      have isProcedure : (next.table.details id).isProcedure = true := by
        rw [Table.details, isEntity]
        rfl
      refine .ite (fun _ => .fail isSite fun _ => rfl) fun _ => .ite (fun _ => ?_) fun _ => ?_
      · refine .bind (.lift (steady_addUsage id _ next)) fun _ last evolves _ => ?_
        exact tries_referenceWith isSite givesActuals (evolves.isProcedure isProcedure)
      · exact tries_referenceWith isSite givesActuals isProcedure
    · exact .bind (givesActuals.tries next) fun _ _ _ areSited => tries_specificReference isSite areSited
    · exact .failure
    · exact .fail isSite fun _ => rfl

end

-- The types of names are steady for the whole block, though only some of the functions ask for one.
set_option linter.unusedSectionVars false in
mutual

theorem steady_expr : (value : Tree.Expr) → value.Sited mode.site mode.inside →
    Attempt.Steady mode (expr typeOfName scope value)
  | .integer _ _ _, sited => by rw [Tree.Expr.Sited] at sited; rw [expr]; exact steady_integerLiteral sited
  | .real _ _ _, sited => by rw [Tree.Expr.Sited] at sited; rw [expr]; exact steady_realLiteral sited
  | .complex realPart imaginaryPart _, sited => by
    rw [Tree.Expr.Sited] at sited
    rw [expr]
    exact .bind (.both (steady_expr realPart sited.2.1.2) (steady_expr imaginaryPart sited.2.2.2)) fun _ =>
      steady_complexLiteral
  | .text _ _, _ => by rw [expr]; exact .pure _
  | .logical _ _, _ => by rw [expr]; exact .pure _
  | .boz _ _, _ => by rw [expr]; exact .pure _
  | .name _ _, sited => by rw [Tree.Expr.Sited] at sited; rw [expr]; exact steady_name steadyType sited
  | .call target arguments _, sited => by
    rw [Tree.Expr.Sited] at sited
    obtain ⟨isSite, ⟨-, sitedTarget⟩, areInside⟩ := sited
    have sitedArguments : ∀ argument ∈ arguments, argument.Sited mode.site mode.inside :=
      fun argument member => (Tree.sitedArgs_iff.mp areInside argument member).2
    cases target with
    | name =>
      rw [expr]
      exact steady_functionCall steadyType isSite (gives_actuals arguments sitedArguments)
        (steady_subscripts arguments sitedArguments)
    | component base =>
      rw [Tree.Expr.Sited] at sitedTarget
      rw [expr]
      exact .bind (steady_expr base sitedTarget.2.2) fun _ =>
        steady_componentCall isSite (gives_actuals arguments sitedArguments)
          (steady_subscripts arguments sitedArguments)
    | _ => exact .fail isSite fun _ => rfl
  | .component base _ _, sited => by
    rw [Tree.Expr.Sited] at sited
    rw [expr]
    exact .bind (steady_expr base sited.2.2) fun _ => steady_component sited.1
  | .coindexed base _, sited => by
    rw [Tree.Expr.Sited] at sited
    rw [expr]
    exact .bind (steady_expr base sited.2.2) fun _ => steady_coindexed sited.1
  | .array values _, sited => by
    rw [Tree.Expr.Sited] at sited
    rw [expr]
    exact .bind (steady_exprs values _ sited.2) fun _ => steady_arrayConstructor
  | .paren inner _, sited => by
    rw [Tree.Expr.Sited] at sited
    rw [expr]
    exact .bind (steady_expr inner sited.2.2) fun _ => .pure _
  | .binary _ left right _, sited => by
    rw [Tree.Expr.Sited] at sited
    rw [expr]
    exact .bind (.both (steady_expr left sited.2.1.2) (steady_expr right sited.2.2.2)) fun _ => steady_binary sited.1
  | .unary _ operand _, sited => by
    rw [Tree.Expr.Sited] at sited
    rw [expr]
    exact .bind (steady_expr operand sited.2.2) fun _ => steady_unary sited.1
  | .definedBinary _ left right _, sited => by
    rw [Tree.Expr.Sited] at sited
    rw [expr]
    exact .bind (.both (steady_expr left sited.2.1.2) (steady_expr right sited.2.2.2)) fun _ =>
      steady_definedOperation sited.1
  | .definedUnary _ operand _, sited => by
    rw [Tree.Expr.Sited] at sited
    rw [expr]
    exact .bind (steady_expr operand sited.2.2) fun _ => steady_definedOperation sited.1

theorem steady_exprs : (values : List Tree.Expr) → (outer : Span) →
    Tree.SitedExprs mode.site mode.inside outer values → Attempt.Steady mode (exprs typeOfName scope values)
  | [], _, _ => by rw [exprs]; exact .pure _
  | value :: values, outer, sited => by
    rw [Tree.SitedExprs] at sited
    rw [exprs]
    exact .bind (.both (steady_expr value sited.1.2) (steady_exprs values outer sited.2)) fun _ => .pure _

theorem steady_bound : (value : Option Tree.Expr) → (outer : Span) →
    Tree.SitedBound mode.site mode.inside outer value → Attempt.Steady mode (bound typeOfName scope value)
  | some value, _, sited => by
    rw [Tree.SitedBound] at sited
    rw [bound]
    exact .map _ (steady_expr value sited.2)
  | none, _, _ => by rw [bound]; exact .pure _

theorem steady_subscript : (argument : Tree.Arg) → argument.Sited mode.site mode.inside →
    Attempt.Steady mode (subscript typeOfName scope argument)
  | ⟨some _, _, _⟩, sited => by rw [subscript]; exact .fail sited.span fun _ => rfl
  | ⟨none, .expr value, _⟩, sited => by
    rw [Tree.Arg.Sited] at sited
    rw [subscript]
    exact .map _ (steady_expr value sited.2.2)
  | ⟨none, .triplet lower upper stride, span⟩, sited => by
    rw [Tree.Arg.Sited] at sited
    rw [subscript]
    exact .bind (.both (steady_bound lower span sited.2.1) (.both (steady_bound upper span sited.2.2.1)
      (steady_bound stride span sited.2.2.2))) fun _ => .pure _
  | ⟨none, .label _, _⟩, sited => by rw [subscript]; exact .fail sited.span fun _ => rfl

theorem steady_subscripts : (arguments : List Tree.Arg) →
    (∀ argument ∈ arguments, argument.Sited mode.site mode.inside) →
    Attempt.Steady mode (subscripts typeOfName scope arguments)
  | [], _ => by rw [subscripts]; exact .pure _
  | argument :: arguments, sited => by
    obtain ⟨sitedFirst, sitedOthers⟩ := List.forall_mem_cons.mp sited
    rw [subscripts]
    exact .bind (.both (steady_subscript argument sitedFirst) (steady_subscripts arguments sitedOthers)) fun _ =>
      .pure _

theorem steady_actualValue : (argument : Tree.Arg) → argument.Sited mode.site mode.inside →
    Attempt.Steady mode (actualValue typeOfName scope argument)
  | ⟨_, .label _, _⟩, _ => by rw [actualValue]; exact .pure _
  | ⟨_, .triplet _ _ _, _⟩, sited => by rw [actualValue]; exact .fail sited.span fun _ => rfl
  | ⟨_, .expr value, _⟩, sited => by
    rw [Tree.Arg.Sited] at sited
    have steadyValue := steady_expr value sited.2.2
    cases value with
    | name =>
      rw [actualValue]
      refine .bind (.settle (steady_specialActual sited.2.2.span)) fun _ => ?_
      split
      · exact .pure _
      · exact .map _ (steady_name steadyType sited.2.2.span)
    | _ => exact .map _ steadyValue

theorem gives_actuals : (arguments : List Tree.Arg) →
    (∀ argument ∈ arguments, argument.Sited mode.site mode.inside) →
    Attempt.Gives mode (actuals typeOfName scope arguments) (Actuals.Sited mode.toSites)
  | [], _ => by
    rw [actuals]
    exact .pure fun _ member => by cases member
  | argument :: arguments, sited => by
    obtain ⟨sitedFirst, sitedOthers⟩ := List.forall_mem_cons.mp sited
    rw [actuals]
    refine .both_bind (steady_actualValue argument sitedFirst) (gives_actuals arguments sitedOthers) ?_
    intro value others areSited
    refine .pure (List.forall_mem_cons.mpr ⟨?_, areSited⟩)
    rintro _ ⟨⟩ _ ⟨⟩
    exact sitedFirst.span

end

end

/-! Types. -/

variable {spec : Tree.TypeSpec}

section

variable {analyze : ScopeId → Tree.Expr → Attempt Expr}
  (steadyAnalyze : ∀ scope value, value.Sited mode.site mode.inside → Attempt.Steady mode (analyze scope value))
include steadyAnalyze

theorem steady_lengthWith {length : Tree.Length} (sited : length.Sited mode.site mode.inside) :
    Attempt.Steady mode (lengthWith analyze scope length) := by
  cases length with
  | expr => exact .bind (steadyAnalyze _ _ sited) fun _ => .table_bind fun _ _ => .pure _
  | assumed | deferred => exact .pure _

variable (isSite : mode.site span)
include isSite

theorem steady_kindWith {category : Category} {kind : Option Tree.Expr}
    (sited : ∀ value ∈ kind, value.Sited mode.site mode.inside) :
    Attempt.Steady mode (kindWith analyze scope category kind span) := by
  unfold kindWith
  split
  · exact .pure _
  next value =>
    refine .bind (steadyAnalyze _ _ (sited value rfl)) fun value => .table_bind fun table _ => ?_
    split
    · exact .ite (.pure _) (.fail isSite fun _ => rfl)
    · exact .fail isSite fun _ => rfl

omit steadyAnalyze in
theorem steady_derivedType : Attempt.Steady mode (derivedType scope name span) := by
  refine .table_bind fun table _ => ?_
  split
  · exact .pure _
  · exact .fail isSite fun _ => rfl

theorem steady_declaredTypeWith {ownLength : Option Tree.Length} (sited : spec.Sited mode.site mode.inside)
    (sitedLength : ∀ length ∈ ownLength, length.Sited mode.site mode.inside) :
    Attempt.Steady mode (declaredTypeWith analyze scope spec ownLength span) := by
  cases spec with
  | integer | real | complex | logical =>
    exact .bind (steady_kindWith steadyAnalyze isSite sited) fun _ => .pure _
  | character =>
    refine .bind (steady_kindWith steadyAnalyze isSite sited.2) fun kind => ?_
    split
    next chosen isChosen =>
      refine .bind (steady_lengthWith steadyAnalyze ?_) fun _ => .pure _
      rcases Option.or_eq_some_iff.mp isChosen with own | ⟨-, general⟩
      · exact sitedLength chosen own
      · exact sited.1 chosen general
    · exact .pure _
  | type | classOf => exact .map _ (steady_derivedType isSite)
  | doublePrecision | typeStar | classStar => exact .pure _

end

theorem sited_typeOf {typing : ImplicitTyping} (sited : typing.Sited mode.toSites)
    (isType : typing.typeOf? name = some spec) : spec.Sited mode.site mode.inside := by
  unfold ImplicitTyping.typeOf? at isType
  split at isType
  · cases isType
  · dsimp only at isType
    split at isType
    next rule isRule =>
      obtain rfl := Option.some.inj isType
      exact sited rule (List.mem_of_find?_eq_some isRule)
    · split at isType
      · cases isType
      · obtain rfl := Option.some.inj isType
        unfold ImplicitTyping.defaultType
        split <;> exact fun _ impossible => by cases impossible

theorem steady_implicitTypeWithin (depth : Nat) (scope : ScopeId) (name : String) (span : Span)
    (isSite : mode.site span) : Attempt.Steady mode (implicitTypeWithin depth scope name span) := by
  -- A rule may hold expressions whose names get their types by rules one level deeper.
  induction depth generalizing scope name span with
  | zero => exact .failure
  | succ depth ih =>
    refine .get_bind fun state sited => ?_
    split
    next spec isType =>
      exact steady_declaredTypeWith (fun _ value => steady_expr ih value) isSite
        (sited_typeOf (sited.implicitFor scope) isType) (by simp)
    · exact .failure

theorem steady_implicitType (scope : ScopeId) (name : String) (span : Span) (isSite : mode.site span) :
    Attempt.Steady mode (implicitType scope name span) :=
  .get_bind fun _ _ => steady_implicitTypeWithin _ scope name span isSite

theorem steady_analyze (scope : ScopeId) (value : Tree.Expr) (sited : value.Sited mode.site mode.inside) :
    Attempt.Steady mode (analyze scope value) :=
  steady_expr steady_implicitType value sited

theorem steady_declaredType {ownLength : Option Tree.Length} (isSite : mode.site span)
    (sited : spec.Sited mode.site mode.inside) (sitedLength : ∀ length ∈ ownLength, length.Sited mode.site mode.inside) :
    Attempt.Steady mode (declaredType scope spec ownLength span) :=
  steady_declaredTypeWith steady_analyze isSite sited sitedLength

theorem steady_foldedBound {value : Tree.Expr} (sited : value.Sited mode.site mode.inside) :
    Attempt.Steady mode (foldedBound scope value) :=
  .bind (steady_analyze scope value sited) fun _ => .table_bind fun _ _ => .pure _

theorem steady_lowerBound {value : Option Tree.Expr} (sited : ∀ found ∈ value, found.Sited mode.site mode.inside) :
    Attempt.Steady mode (lowerBound scope value) := by
  cases value with
  | some value => exact .settle (steady_foldedBound (sited value rfl))
  | none => exact .pure _

theorem steady_dimension {dimension : Tree.Dimension} (sited : dimension.Sited mode.site mode.inside) :
    Attempt.Steady mode (Resolve.dimension scope dimension) := by
  cases dimension with
  | explicit =>
    exact .bind (steady_lowerBound sited.1) fun _ => .bind (steady_foldedBound sited.2) fun _ => .pure _
  | colon | star => exact .bind (steady_lowerBound sited) fun _ => .pure _
  | assumedRank => exact .pure _

theorem steady_arraySpec {dimensions : List Tree.Dimension}
    (sited : ∀ dimension ∈ dimensions, dimension.Sited mode.site mode.inside) :
    Steady mode (arraySpec scope dimensions) :=
  .bind (.mapM fun dimension member => steady_dimension (sited dimension member)) fun _ => .pure _

theorem steady_optionalSpec {dimensions : Option (List Tree.Dimension)}
    (sited : ∀ found ∈ dimensions, ∀ dimension ∈ found, dimension.Sited mode.site mode.inside) :
    Steady mode (optionalSpec scope dimensions) := by
  cases dimensions with
  | some found => exact steady_arraySpec (sited found rfl)
  | none => exact .pure _

end FortranInterface.Resolve
