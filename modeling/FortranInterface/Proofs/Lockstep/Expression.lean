import FortranInterface.Proofs.Lockstep.Steps

/-!
Expressions and types are resolved in lockstep: the same tree, in paired scopes, gives expressions that are
alike.
-/

namespace FortranInterface

theorem SubprogramDetails.Alike.isFunction {pairing : Pairing} {subprogram subprogram' : SubprogramDetails}
    (alike : subprogram.Alike pairing subprogram') : subprogram.isFunction = subprogram'.isFunction :=
  relIsSome alike.result

theorem ProcEntityDetails.Alike.isImplicit {pairing : Pairing} {entity entity' : ProcEntityDetails}
    (alike : entity.Alike pairing entity') : entity.interface.isNone = entity'.interface.isNone := by
  rw [← Option.not_isSome, ← Option.not_isSome, relIsSome alike.interface]

namespace Resolve

open Attempt
open Tree (Mention)

variable {lock : Lockstep} {world : Table} {scope scope' : ScopeId}

/-! Literals. -/

variable {kind : Option String}

section

variable (paired : (lock.upTo world).scopes scope scope')
include paired

theorem runs_literalKind (category : Category) (permits : lock.Permits (Tree.suffixMentions category.ofParts kind))
    {default : Nat} (valid : category.isValidKind default = true) (span : Span) :
    Attempt.Runs lock world (literalKind scope kind default span) (literalKind scope' kind default span)
      fun larger kind kind' => kind = kind' ∧ larger.Knows (.plain category kind) := by
  cases kind with
  | none => exact .pure fun _ _ => ⟨rfl, .inl valid⟩
  | some kind =>
    have suffixed {value : Nat} : Tree.Spells kind value → lock.pairing.suffixes category.ofParts value :=
      lock.suffixed (permits _ (.tail _ (.head _)))
    simp only [literalKind]
    cases isNumber : (Text.decimal? kind).bind fun value => byte? value with
    | some value =>
      refine .pure fun _ _ => ⟨rfl, .inr (suffixed fun other same => ?_)⟩
      exact Option.some.inj (same.symm.trans isNumber)
    | none =>
      refine .table_bind fun table table' tables le => ?_
      have found := tables.alike.visible? (le.scopes paired) (lock.compares_of_name (permits _ (.head _)))
      have same : ((table.visible? scope kind).bind fun id => table.foldInteger (.whole id)) =
          (table'.visible? scope' kind).bind fun id => table'.foldInteger (.whole id) := by
        exact relCases found rfl fun _ _ pair => tables.alike.foldInteger (.designator false pair .nil)
      rw [same]
      cases ((table'.visible? scope' kind).bind fun id => table'.foldInteger (.whole id)).bind byte? with
      | some value =>
        refine .pure fun _ _ => ⟨rfl, .inr (suffixed fun other same => ?_)⟩
        cases isNumber.symm.trans same
      | none => exact .fail _ _ _

theorem runs_integerLiteral (digits : String) (permits : lock.Permits (Tree.suffixMentions .integer kind))
    (span : Span) :
    Attempt.Runs lock world (integerLiteral scope digits kind span)
      (integerLiteral scope' digits kind span) Expr.Alike := by
  refine .bind (runs_literalKind paired .integer permits rfl _) fun larger kind _ le ⟨same, known⟩ => ?_
  subst same
  split
  · exact .pure fun _ _ => .literal known
  · exact .fail _ _ _

theorem runs_realLiteral (text : String) (permits : lock.Permits (Tree.suffixMentions .real kind)) (span : Span) :
    Attempt.Runs lock world (realLiteral scope text kind span) (realLiteral scope' text kind span) Expr.Alike := by
  have valid (isDouble : Bool) : Category.real.isValidKind (if isDouble then 8 else 4) = true := by
    cases isDouble <;> rfl
  refine .bind (runs_literalKind paired .real permits (valid _) _) fun larger kind _ le ⟨same, known⟩ => ?_
  subst same
  exact .pure fun _ _ => .literal known

end

def realKind? (table : Table) (part : Expr) : Option Nat :=
  match table.typeOf part with
  | some (.plain .real kind) => some kind
  | _ => none

theorem realKind?_alike {table table' : Table} (tables : Tables lock table table') {part part' : Expr}
    (alike : part.Alike (lock.upTo table) part') : realKind? table part = realKind? table' part' ∧
      ∀ kind, realKind? table part = some kind → (lock.upTo table).Knows (.plain .complex kind) := by
  have types := (tables.alike.lift_typeOf alike).rel
  unfold realKind?
  refine relCases types ⟨rfl, nofun⟩ fun type type' ⟨same, known⟩ => ⟨by rw [same], fun kind isKind => ?_⟩
  split at isKind <;> cases isKind
  next isReal =>
    cases isReal
    exact known rfl

theorem runs_complexLiteral {realPart realPart' imaginaryPart imaginaryPart' : Expr}
    (real : realPart.Alike (lock.upTo world) realPart') (imaginary : imaginaryPart.Alike (lock.upTo world) imaginaryPart') :
    Attempt.Runs lock world (complexLiteral realPart imaginaryPart)
      (complexLiteral realPart' imaginaryPart') Expr.Alike := by
  refine .table_bind fun table table' tables le => ?_
  have real := real.mono le.le
  have imaginary := imaginary.mono le.le
  obtain ⟨sameReal, knownReal⟩ := realKind?_alike tables real
  obtain ⟨sameImaginary, knownImaginary⟩ := realKind?_alike tables imaginary
  have known : (lock.upTo table).Knows
      (.plain .complex (([realPart, imaginaryPart].filterMap (realKind? table)).max?.getD 4)) := by
    cases largest : ([realPart, imaginaryPart].filterMap (realKind? table)).max? with
    | none => exact .inl rfl
    | some kind =>
      obtain ⟨part, member, isKind⟩ := List.mem_filterMap.mp (List.max?_mem largest)
      rcases List.mem_pair.mp member with rfl | rfl
      · exact knownReal kind isKind
      · exact knownImaginary kind isKind
  have kinds : [realPart, imaginaryPart].filterMap (realKind? table) =
      [realPart', imaginaryPart'].filterMap (realKind? table') := by
    simp only [List.filterMap_cons, List.filterMap_nil, sameReal, sameImaginary]
  rw [tables.alike.spelling real, tables.alike.spelling imaginary]
  exact .pure fun _ more => kinds ▸ .literal (more.le.knows known)

theorem runs_arrayConstructor {values values' : List Expr}
    (alike : List.Forall₂ (Expr.Alike (lock.upTo world)) values values') :
    Attempt.Runs lock world (arrayConstructor values) (arrayConstructor values') Expr.Alike := by
  refine .table_bind fun table table' tables le => ?_
  have types : Option.Rel (DynamicType.Alike (lock.upTo table)) (values.head?.bind table.typeOf)
      (values'.head?.bind table'.typeOf) := by
    cases alike with
    | nil => exact .none
    | cons first _ => exact (tables.alike.lift_typeOf (first.mono le.le)).rel
  have values {later : Table} (more : table.Grows later) := alike.imp fun _ _ alike => alike.mono (le.trans more).le
  refine relCases types (.pure fun _ more => .array nofun (values more)) fun type _ ⟨same, known⟩ => same ▸ ?_
  exact .pure fun _ more => .array (fun isFloat => more.le.knows (known isFloat)) (values more)

/-! References. -/

theorem runs_reference (paired : (lock.upTo world).scopes scope scope') {procedure procedure' : SymbolId}
    (procedures : (lock.upTo world).symbols procedure procedure') {generic generic' : Option SymbolId}
    (generics : Option.Rel (lock.upTo world).symbols generic generic') {arguments arguments' : Actuals}
    (alike : Actuals.Alike (lock.upTo world) arguments arguments') (isFunction : Bool) (span : Span) :
    Attempt.Runs lock world (reference scope procedure generic arguments isFunction span)
      (reference scope' procedure' generic' arguments' isFunction span) Expr.Alike :=
  .lift_bind (runs_refer ⟨paired, .symbol procedures, generics, alike⟩) fun _ _ _ le _ => .pure fun _ more =>
    .call (.symbol (more.symbols (le.symbols procedures))) (Actuals.Alike.mono (le.trans more).le alike)

variable {name : String} {base base' : Expr}

section

variable (alike : base.Alike (lock.upTo world) base')
include alike

theorem runs_componentOf (allowed : lock.allows (.ofName name)) (span : Span) :
    Attempt.Runs lock world (componentOf base name span) (componentOf base' name span)
      fun larger => larger.symbols := by
  refine .table_bind fun table table' tables le => ?_
  have same := alike.mono le.le
  have types := tables.alike.derivedTypeOf? same
  simp only [tables.alike.spelling same]
  refine relCases types (.fail _ _ _) fun type type' pair => ?_
  have found := tables.alike.component? pair (lock.compares_of_name allowed)
  simp only [(tables.alike.symbol pair).name]
  generalize table.component? type name = component, table'.component? type' name = component' at found
  cases found with
  | none => exact .fail _ _ _
  | some pair => exact .pure fun _ more => more.symbols pair

theorem runs_component (allowed : lock.allows (.ofName name)) (span : Span) :
    Attempt.Runs lock world (component base name span) (component base' name span) Expr.Alike := by
  refine .bind (runs_componentOf alike allowed span) fun larger id id' le pair => ?_
  refine .table_bind fun table table' tables more => ?_
  rw [(tables.alike.details (more.symbols pair)).isObject]
  split
  · exact .pure fun _ most => .designator _ (most.symbols (more.symbols pair)) .nil
  · exact .pure fun _ most => .procedure (.symbol (most.symbols (more.symbols pair)))

theorem runs_coindexed (span : Span) :
    Attempt.Runs lock world (coindexed base span) (coindexed base' span) Expr.Alike := by
  cases alike with
  | designator _ pair subscripts =>
    exact .pure fun _ more => .designator _ (more.symbols pair) (subscripts.imp fun _ _ alike => alike.mono more.le)
  | _ => exact .fail _ _ _

end

variable {operands operands' : List Expr}

theorem operandActuals (alike : List.Forall₂ (Expr.Alike (lock.upTo world)) operands operands') (span : Span) :
    Actuals.Alike (lock.upTo world)
      (operands.map fun operand => some (⟨none, .expr operand, false, some span⟩ : Actual))
      (operands'.map fun operand => some (⟨none, .expr operand, false, some span⟩ : Actual)) := by
  induction alike with
  | nil => exact .nil
  | cons first _ ih => exact .cons (.some (.mk _ _ _ (.expr first))) ih

section

variable (paired : (lock.upTo world).scopes scope scope')
include paired

theorem runs_definedOperation {op : String} (allowed : lock.allows (.ofOperator op))
    (alike : List.Forall₂ (Expr.Alike (lock.upTo world)) operands operands') (span : Span) :
    Attempt.Runs lock world (definedOperation scope op operands span)
      (definedOperation scope' op operands' span) Expr.Alike := by
  refine .table_bind fun table table' tables le => ?_
  have same := alike.imp fun _ _ alike => Expr.Alike.mono le.le alike
  have actuals := operandActuals same span
  have found := tables.alike.operatorFor? (le.scopes paired) (lock.compares_of_name allowed) same actuals true
  have types : (operands.map fun operand => ((table.typeOf operand).map DynamicType.text).getD "untyped") =
      operands'.map fun operand => ((table'.typeOf operand).map DynamicType.text).getD "untyped" := by
    clear alike actuals found
    induction same with
    | nil => rfl
    | cons first _ ih => rw [List.map_cons, List.map_cons, ih, tables.alike.typeOf first]
  dsimp only
  generalize table.operatorFor? scope _ operands _ true = choice,
    table'.operatorFor? scope' _ operands' _ true = choice' at found
  cases found with
  | none =>
    rw [types]
    exact .fail _ _ _
  | some pair => exact runs_reference (le.scopes paired) pair.2 (.some pair.1) actuals _ _

theorem runs_binary {op : Operator} (allowed : lock.allows (.ofOperator op.spelling.toLower))
    {left left' right right' : Expr} (lefts : left.Alike (lock.upTo world) left')
    (rights : right.Alike (lock.upTo world) right') (span : Span) :
    Attempt.Runs lock world (binary scope op left right span) (binary scope' op left' right' span) Expr.Alike := by
  refine .table_bind fun table table' tables le => ?_
  have lefts := lefts.mono le.le
  have rights := rights.mono le.le
  simp only [tables.alike.typeOf lefts, tables.alike.typeOf rights, tables.alike.isDerivedExpr lefts,
    tables.alike.isDerivedExpr rights]
  split
  · exact runs_definedOperation (le.scopes paired) allowed (.cons lefts (.cons rights .nil)) span
  · exact .pure fun _ more => .operation _ (.cons (lefts.mono more.le) (.cons (rights.mono more.le) .nil))

theorem runs_unary {op : Tree.UnaryOp} (allowed : lock.allows (.ofOperator op.key)) {operand operand' : Expr}
    (alike : operand.Alike (lock.upTo world) operand') (span : Span) :
    Attempt.Runs lock world (unary scope op operand span) (unary scope' op operand' span) Expr.Alike := by
  refine .table_bind fun table table' tables le => ?_
  have alike := alike.mono le.le
  have operation := runs_definedOperation (le.scopes paired) allowed (.cons alike .nil) span
  simp only [tables.alike.isDerivedExpr alike]
  cases op with
  | plus =>
    refine .ite Iff.rfl (fun _ => operation) fun _ => .pure fun _ more => alike.mono more.le
  | negate =>
    refine .ite Iff.rfl (fun _ => operation) fun _ => .pure fun _ more => ?_
    exact .operation _ (.cons (alike.mono more.le) .nil)
  | not =>
    refine .ite Iff.rfl (fun _ => operation) fun _ => .pure fun _ more => ?_
    exact .operation _ (.cons (alike.mono more.le) .nil)

end

theorem runs_specificOf {generic generic' : SymbolId} (paired : (lock.upTo world).symbols generic generic')
    {actuals actuals' : Actuals} (alike : Actuals.Alike (lock.upTo world) actuals actuals') (isFunction : Bool)
    (span : Span) :
    Attempt.Runs lock world (specificOf generic actuals isFunction span)
      (specificOf generic' actuals' isFunction span) fun larger => larger.symbols := by
  refine .table_bind fun table table' tables le => ?_
  have pair := le.symbols paired
  have found := tables.alike.specificFor? pair (alike.mono le.le) isFunction
  simp only [(tables.alike.symbol pair).name]
  exact relCases found (.fail _ _ _) fun _ _ pair => .pure fun _ more => more.symbols pair

theorem runs_componentReference (inside : (lock.upTo world).scopes scope scope')
    {component component' : SymbolId} (paired : (lock.upTo world).symbols component component')
    {object object' : Expr} (objects : object.Alike (lock.upTo world) object') {actuals actuals' : Actuals}
    (alike : Actuals.Alike (lock.upTo world) actuals actuals') (isFunction : Bool) (span : Span) :
    Attempt.Runs lock world (componentReference scope component object actuals isFunction span)
      (componentReference scope' component' object' actuals' isFunction span) Expr.Alike := by
  refine .table_bind fun table table' tables le => ?_
  have pair := le.symbols paired
  have objects := objects.mono le.le
  have alike := alike.mono le.le
  have passed := alike.passObject objects span (table.passIndex? component)
  rw [tables.alike.passIndex? pair] at passed
  have found := tables.alike.boundSpecificFor? pair objects span alike isFunction
  have details := tables.alike.details pair
  simp only [(tables.alike.symbol pair).name, tables.alike.passIndex? pair]
  generalize table.details component = here, table'.details component' = here' at details
  cases details with
  | binding | procEntity => exact runs_reference (le.scopes inside) pair .none passed _ _
  | generic =>
    dsimp only
    exact relCases found (.fail _ _ _) fun _ _ chosen =>
      runs_reference (le.scopes inside) chosen.1 (.some pair) chosen.2 _ _
  | _ => exact .fail _ _ _

theorem runs_componentCall (inside : (lock.upTo world).scopes scope scope') {object object' : Expr}
    (objects : object.Alike (lock.upTo world) object') (allowed : lock.allows (.ofName name)) (isFunction : Bool)
    (span : Span) {actuals actuals' : Attempt Actuals} {subscripts subscripts' : Attempt (List Subscript)}
    (runsActuals : Attempt.Runs lock world actuals actuals' Actuals.Alike)
    (runsSubscripts : Attempt.Runs lock world subscripts subscripts' fun larger =>
      List.Forall₂ (Subscript.Alike larger)) :
    Attempt.Runs lock world (componentCall scope object name isFunction span actuals subscripts)
      (componentCall scope' object' name isFunction span actuals' subscripts') Expr.Alike := by
  refine .bind (runs_componentOf objects allowed span) fun larger id id' le pair => ?_
  refine .table_bind fun table table' tables more => ?_
  have wider := le.trans more
  rw [(tables.alike.details (more.symbols pair)).isObject]
  split
  · cases isFunction with
    | true =>
      exact .bind_pure (runsSubscripts.mono wider) fun _ _ _ most subscripts =>
        .designator _ (most.symbols (more.symbols pair)) subscripts
    | false => exact .fail _ _ _
  · refine .bind (runsActuals.mono wider) fun _ _ _ most actuals => ?_
    exact runs_componentReference ((wider.trans most).scopes inside) (most.symbols (more.symbols pair))
      (objects.mono (wider.trans most).le) actuals _ _

theorem runs_specialActual (paired : (lock.upTo world).scopes scope scope') (allowed : lock.allows (.ofName name))
    (span : Span) :
    Attempt.Runs lock world (specialActual scope name span) (specialActual scope' name span) ActualValue.Alike := by
  refine .table_bind fun table table' tables le => ?_
  have found := tables.alike.visible? (le.scopes paired) (lock.compares_of_name allowed)
  refine relCases found .failure fun id id' pair => ?_
  have procedure : Attempt.Runs lock table
      (pure (.expr (.procedure (.symbol id)))) (pure (.expr (.procedure (.symbol id'))))
      ActualValue.Alike :=
    .pure fun _ more => .expr (.procedure (.symbol (more.symbols pair)))
  have details := tables.alike.details pair
  have names := (tables.alike.symbol pair).name
  simp only
  generalize table.details id = details, table'.details id' = details' at details
  cases details with
  | subprogram => exact procedure
  | procEntity => exact procedure
  | @generic generic generic' same =>
    have specific : Option.Rel (lock.upTo table).symbols
        (generic.specifics.find? fun specific => (table.symbol specific).name == (table.symbol id).name)
        (generic'.specifics.find? fun specific =>
          (table'.symbol specific).name == (table'.symbol id').name) :=
      find?_alike same.specifics fun pair => by rw [(tables.alike.symbol pair).name, names]
    dsimp only
    generalize generic.specifics.find? _ = choice, generic'.specifics.find? _ = choice' at specific
    cases specific with
    | none => exact .lift_bind (runs_report _ _ _) fun _ _ _ more _ => procedure.mono more
    | some pair => exact .pure fun _ more => .expr (.procedure (.symbol (more.symbols pair)))
  | @object object object' same =>
    obtain ⟨type, shape, coshape, init, isDummy⟩ := object
    obtain ⟨type', shape', coshape', init', isDummy'⟩ := object'
    obtain rfl : isDummy = isDummy' := same.isDummy
    cases same.type with
    | none => exact .failure
    | some alike =>
      cases alike with
      | typeStar =>
        exact .ite Iff.rfl (fun _ => .pure fun _ more => .assumedType (more.symbols pair)) fun _ => .failure
      | _ => exact .failure
  | _ => exact .failure

/-! Undeclared names. -/

def TypesNames (lock : Lockstep) (typeOfName : ScopeId → String → Span → Attempt DeclaredType) : Prop :=
  ∀ {world : Table} {scope scope' : ScopeId} (name : String) (span span' : Span),
    (lock.upTo world).scopes scope scope' →
    Attempt.Runs lock world (typeOfName scope name span) (typeOfName scope' name span') DeclaredType.Alike

theorem runs_addProcedure (paired : (lock.upTo world).scopes scope scope') (binds : lock.Binds scope name.toLower)
    {type type' : Option DeclaredType} (types : Option.Rel (DeclaredType.Alike (lock.upTo world)) type type')
    (span : Span) {change : SymbolId → Table → Table} (changes : ∀ later id id', (lock.upTo later).symbols id id' →
      Runs lock later (Resolve.change (change id)) (Resolve.change (change id')) Unrelated) :
    Runs lock world
      (do
        let id ← addSymbol scope name .empty (.procEntity ⟨none, type, false, none⟩) span
        Resolve.change (change id)
        return id)
      (do
        let id ← addSymbol scope' name .empty (.procEntity ⟨none, type', false, none⟩) span
        Resolve.change (change id) return id) fun larger => larger.symbols := by
  refine .bind (runs_addSymbol paired binds (fun _ => rfl) ?_ span span) fun later id id' _ pair => ?_
  · exact .procEntity ⟨.none, types, rfl, rfl⟩
  · refine .bind (changes later id id' pair) fun _ _ _ next _ => ?_
    exact .pure fun _ final => final.symbols (next.symbols pair)

section Names

variable {typeOfName : ScopeId → String → Span → Attempt DeclaredType}
  (types : TypesNames lock typeOfName) (paired : (lock.upTo world).scopes scope scope')
include types paired

theorem runs_implicitVariable (unsettled : world.Unsettled lock scope name.toLower) (span : Span) :
    Attempt.Runs lock world (implicitVariable typeOfName scope name span)
      (implicitVariable typeOfName scope' name span) fun larger => larger.symbols := by
  refine .table_bind fun table table' tables le => ?_
  have units := tables.alike.scopingUnit (le.scopes paired)
  have binds := le.unsettled paired.2 unsettled _ (table.scopingUnit_mem_hosts scope)
  refine .bind (.settle (types name span span units)) fun later found found' more same => ?_
  have units := more.scopes units
  cases same with
  | some alike =>
    refine .lift_bind (runs_addSymbol units binds (fun _ => rfl) (.object ?_) span span)
      fun latest id id' most pair => ?_
    · exact ⟨.some alike, .nil, .nil, .none, rfl⟩
    · refine .lift_bind (runs_addUsage pair _) fun _ _ _ last _ => ?_
      exact .pure fun _ final => final.symbols (last.symbols pair)
  | none =>
    refine .lift_bind (runs_report _ _ _) fun _ _ _ next _ => ?_
    refine .lift_bind (runs_addSymbol (next.scopes units) binds (fun _ => rfl) .unresolved span span)
      fun latest id id' most pair => ?_
    exact .lift_bind (runs_addUsage pair _) fun _ _ _ _ _ => .failure

theorem runs_implicitProcedure (unsettled : world.Unsettled lock scope name.toLower) (span : Span) (isFunction : Bool) :
    Runs lock world (implicitProcedure typeOfName scope name span isFunction)
      (implicitProcedure typeOfName scope' name span isFunction) fun larger => larger.symbols := by
  refine .table_bind fun table table' tables le => ?_
  have units := tables.alike.scopingUnit (le.scopes paired)
  have binds := le.unsettled paired.2 unsettled _ (table.scopingUnit_mem_hosts scope)
  cases isFunction with
  | true =>
    refine .bind (types name span span units) fun later found found' more same => ?_
    have untyped : found.isNone = found'.isNone := by cases same <;> rfl
    have added {later : Table} (grows : Table.Grows _ later) := runs_addProcedure
      (grows.scopes (more.scopes units)) binds (relMono (·.mono grows.le) same) span
      fun latest id id' pair => runs_addUsages pair .function .implicitlyTyped
    dsimp only
    rw [untyped]
    refine .ite Iff.rfl (fun _ => ?_) fun _ => added (.refl _)
    exact .bind (runs_report _ _ _) fun latest _ _ most _ => added most
  | false =>
    exact runs_addProcedure units binds .none span fun latest id id' pair => runs_addUsage pair .subroutine

theorem runs_name (allowed : lock.allows (.ofName name)) (span : Span) :
    Attempt.Runs lock world (Resolve.name typeOfName scope name span)
      (Resolve.name typeOfName scope' name span) Expr.Alike := by
  refine .table_bind fun table table' tables le => ?_
  have found := tables.alike.visible? (le.scopes paired) (lock.compares_of_name allowed)
  generalize isKnown : table.visible? scope name = here, table'.visible? scope' name = here' at found
  cases found with
  | none =>
    have unsettled := tables.unsettled_of_visible? allowed isKnown
    exact .bind_pure (runs_implicitVariable types (le.scopes paired) unsettled span)
      fun _ _ _ _ pair => .designator _ pair .nil
  | @some id id' pair =>
    have details := tables.alike.details pair
    have whole : Attempt.Runs lock table (pure (.whole id)) (pure (.whole id')) Expr.Alike :=
      .pure fun _ more => .designator _ (more.symbols pair) .nil
    have procedure : Attempt.Runs lock table (pure (.procedure (.symbol id)))
        (pure (.procedure (.symbol id'))) Expr.Alike :=
      .pure fun _ more => .procedure (.symbol (more.symbols pair))
    dsimp only
    generalize table.details id = details, table'.details id' = details' at details
    cases details with
    | object | associate => exact whole
    | procEntity | subprogram | generic => exact procedure
    | unresolved => exact .failure
    | _ => exact .fail _ _ _

end Names

variable {id id' : SymbolId}

theorem runs_calledSymbol (paired : (lock.upTo world).symbols id id') :
    Attempt.Runs lock world (calledSymbol id) (calledSymbol id') fun larger => larger.symbols := by
  refine .get_bind fun state state' matched le => ?_
  have pair := le.symbols paired
  have symbols := matched.alike.symbol pair
  have results := matched.isResult_iff pair.1
  refine .ite ?_ (fun _ => ?_) fun _ => .pure fun _ more => more.symbols pair
  · have details := symbols.details
    generalize (state.table.symbol id).details = here, (state'.table.symbol id').details = here' at details
    cases details with
    | object same => simp [results, ObjectDetails.isArray, same.shape.isEmpty]
    | _ => simp [results]
  · have heads := (matched.alike.scope symbols.owner).symbol
    exact relCases heads .failure fun _ _ pair => .pure fun _ more => more.symbols pair

section Calls

variable {actuals actuals' : Attempt Actuals} {subscripts subscripts' : Attempt (List Subscript)}
  (runsActuals : Attempt.Runs lock world actuals actuals' Actuals.Alike)

include runsActuals in
theorem runs_referenceWith (inside : (lock.upTo world).scopes scope scope')
    (paired : (lock.upTo world).symbols id id') (isFunction : Bool) (span : Span) :
    Attempt.Runs lock world (actuals >>= fun arguments => reference scope id none arguments isFunction span)
      (actuals' >>= fun arguments => reference scope' id' none arguments isFunction span) Expr.Alike :=
  .bind runsActuals fun _ _ _ le alike =>
    runs_reference (le.scopes inside) (le.symbols paired) .none alike _ _

variable (runsSubscripts : Attempt.Runs lock world subscripts subscripts' fun larger =>
    List.Forall₂ (Subscript.Alike larger))
include runsActuals runsSubscripts

theorem runs_objectCall (inside : (lock.upTo world).scopes scope scope') (paired : (lock.upTo world).symbols id id')
    (name : String) (span : Span) :
    Attempt.Runs lock world (objectCall scope id name span actuals subscripts)
      (objectCall scope' id' name span actuals' subscripts') Expr.Alike := by
  refine .table_bind fun table table' tables le => ?_
  have pair := le.symbols paired
  refine .ite ?_ (fun _ => ?_) fun _ => .ite ?_ (fun _ => ?_) fun _ => .ite ?_ (fun _ => .fail _ _ _) fun _ => ?_
  · have shapes := tables.alike.symbolShape pair
    generalize table.symbolShape id = shape, table'.symbolShape id' = shape' at shapes
    cases shapes with
    | none => rfl
    | some same => cases same <;> rfl
  · exact .bind_pure (runsSubscripts.mono le) fun _ _ _ more same => .designator _ (more.symbols pair) same
  · rw [tables.alike.isCharacterSymbol pair]
  · exact .bind (runsSubscripts.mono le) fun _ _ _ more _ => .pure fun _ most =>
      .designator _ (most.symbols (more.symbols pair)) .nil
  · rw [(tables.alike.details pair).isAssociate]
  · refine .lift_bind (runs_becomeProcedure pair) fun _ _ _ more _ => ?_
    refine .lift_bind (runs_addUsage (more.symbols pair) _) fun _ _ _ most _ => ?_
    have since := le.trans (more.trans most)
    exact runs_referenceWith (runsActuals.mono since) (since.scopes inside) (most.symbols (more.symbols pair)) _ _

theorem runs_functionCall {typeOfName : ScopeId → String → Span → Attempt DeclaredType}
    (types : TypesNames lock typeOfName) (paired : (lock.upTo world).scopes scope scope')
    (allowed : lock.allows (.ofName name)) (span : Span) :
    Attempt.Runs lock world (functionCall typeOfName scope name span actuals subscripts)
      (functionCall typeOfName scope' name span actuals' subscripts') Expr.Alike := by
  refine .table_bind fun table table' tables le => ?_
  have found := tables.alike.visible? (le.scopes paired) (lock.compares_of_name allowed)
  generalize isKnown : table.visible? scope name = here, table'.visible? scope' name = here' at found
  cases found with
  | none =>
    have unsettled := tables.unsettled_of_visible? allowed isKnown
    refine .ite Iff.rfl (fun _ => .pure fun _ _ => .null) fun _ => ?_
    refine .bind (runsActuals.mono le) fun later arguments arguments' more alike => ?_
    refine .ite Iff.rfl (fun _ => .pure fun _ most => .call (.intrinsic _) (alike.mono most.le)) fun _ => ?_
    have inside := (le.scopes paired).2
    refine .lift_bind (runs_implicitProcedure types (more.scopes (le.scopes paired))
      (more.unsettled inside unsettled) span true) fun _ id id' most pair => ?_
    exact runs_reference ((le.trans (more.trans most)).scopes paired) pair .none (alike.mono most.le) _ _
  | some pair =>
    refine .bind (runs_calledSymbol pair) fun later id id' more pair => ?_
    refine .table_bind fun table table' tables most => ?_
    have pair := most.symbols pair
    have inside := (le.trans (more.trans most)).scopes paired
    have runsActuals := runsActuals.mono (le.trans (more.trans most))
    have runsSubscripts := runsSubscripts.mono (le.trans (more.trans most))
    have symbols := tables.alike.symbol pair
    have details := symbols.details
    dsimp only
    rw [symbols.usage, symbols.plain .intrinsic rfl]
    generalize (table.symbol id).details = details, (table'.symbol id').details = details' at details
    cases details with
    | object | associate => exact runs_objectCall runsActuals runsSubscripts inside pair _ _
    | subprogram same =>
      refine .ite ?_ (fun _ => ?_) fun _ => .fail _ _ _
      · rw [same.isFunction]
      · exact runs_referenceWith runsActuals inside pair _ _
    | procEntity same =>
      dsimp only
      rw [same.isImplicit]
      refine .ite Iff.rfl (fun _ => .fail _ _ _) fun _ => .ite Iff.rfl (fun _ => ?_) fun _ => ?_
      · refine .lift_bind (runs_addUsage pair _) fun _ _ _ next _ => ?_
        exact runs_referenceWith (runsActuals.mono next) (next.scopes inside) (next.symbols pair) _ _
      · exact runs_referenceWith runsActuals inside pair _ _
    | generic =>
      refine .bind runsActuals fun _ _ _ next alike => ?_
      refine .bind (runs_specificOf (next.symbols pair) alike _ _) fun _ _ _ last chosen => ?_
      have since := next.trans last
      exact runs_reference (since.scopes inside) chosen (.some (since.symbols pair)) (alike.mono last.le) _ _
    | unresolved => exact .failure
    | _ => exact .fail _ _ _

end Calls

/-! Expressions. -/

section Expressions

open Lockstep (Permits)

variable {typeOfName : ScopeId → String → Span → Attempt DeclaredType}
  (types : TypesNames lock typeOfName) (paired : (lock.upTo world).scopes scope scope')
include types paired

-- The types of names are needed for the whole block, though only some of the functions ask for one.
set_option linter.unusedSectionVars false in
mutual

theorem runs_expr : (value : Tree.Expr) → lock.Permits value.mentions →
    Attempt.Runs lock world (expr typeOfName scope value) (expr typeOfName scope' value) Expr.Alike
  | .integer digits kind span, permits => by
    rw [expr, expr]
    exact runs_integerLiteral paired digits permits span
  | .real text kind span, permits => by
    rw [expr, expr]
    exact runs_realLiteral paired text permits span
  | .complex realPart imaginaryPart _, permits => by
    rw [Tree.Expr.mentions, Permits.append] at permits
    rw [expr, expr]
    refine .bind (.both persists_expr (runs_expr realPart permits.1) (runs_expr imaginaryPart permits.2))
      fun _ _ _ _ parts => runs_complexLiteral parts.1 parts.2
  | .text _ _, _ => by rw [expr, expr]; exact .pure fun _ _ => .literal (.inl rfl)
  | .logical _ _, _ => by rw [expr, expr]; exact .pure fun _ _ => .literal (.inl rfl)
  | .boz _ _, _ => by rw [expr, expr]; exact .pure fun _ _ => .boz _
  | .name spelling span, permits => by
    rw [expr, expr]
    exact runs_name types paired (permits _ (.head _)) span
  | .call target arguments span, permits => by
    cases target with
    | name spelling =>
      rw [Tree.Expr.mentions, Permits.cons, Permits.cons] at permits
      rw [expr, expr]
      exact runs_functionCall (runs_actuals arguments permits.2.2) (runs_subscripts arguments permits.2.2)
        types paired permits.1 span
    | component base spelling =>
      rw [Tree.Expr.mentions, Permits.cons, Permits.append] at permits
      rw [expr, expr]
      exact .bind (runs_expr base permits.2.1) fun _ _ _ le object =>
        runs_componentCall (le.scopes paired) object permits.1 true span ((runs_actuals arguments permits.2.2).mono le)
          ((runs_subscripts arguments permits.2.2).mono le)
    | _ => exact .fail _ _ _
  | .component base spelling span, permits => by
    rw [Tree.Expr.mentions, Permits.cons] at permits
    rw [expr, expr]
    exact .bind (runs_expr base permits.2) fun _ _ _ _ base => runs_component base permits.1 span
  | .coindexed base span, permits => by
    rw [expr, expr]
    exact .bind (runs_expr base permits) fun _ _ _ _ base => runs_coindexed base span
  | .array values _, permits => by
    rw [expr, expr]
    exact .bind (runs_exprs values permits) fun _ _ _ _ values => runs_arrayConstructor values
  | .paren inner _, permits => by
    rw [expr, expr]
    exact .bind_pure (runs_expr inner permits) fun _ _ _ _ inner => .operation _ (.cons inner .nil)
  | .binary op left right span, permits => by
    rw [Tree.Expr.mentions, Permits.cons, Permits.append] at permits
    rw [expr, expr]
    exact .bind (.both persists_expr (runs_expr left permits.2.1) (runs_expr right permits.2.2))
      fun _ _ _ le operands => runs_binary (le.scopes paired) permits.1 operands.1 operands.2 span
  | .unary op operand span, permits => by
    rw [Tree.Expr.mentions, Permits.cons] at permits
    rw [expr, expr]
    exact .bind (runs_expr operand permits.2) fun _ _ _ le operand =>
      runs_unary (le.scopes paired) permits.1 operand span
  | .definedBinary op left right span, permits => by
    rw [Tree.Expr.mentions, Permits.cons, Permits.append] at permits
    rw [expr, expr]
    exact .bind (.both persists_expr (runs_expr left permits.2.1) (runs_expr right permits.2.2))
      fun _ _ _ le operands => runs_definedOperation (le.scopes paired) permits.1
        (.cons operands.1 (.cons operands.2 .nil)) span
  | .definedUnary op operand span, permits => by
    rw [Tree.Expr.mentions, Permits.cons] at permits
    rw [expr, expr]
    exact .bind (runs_expr operand permits.2) fun _ _ _ le operand =>
      runs_definedOperation (le.scopes paired) permits.1 (.cons operand .nil) span

theorem runs_exprs : (values : List Tree.Expr) → lock.Permits (Tree.exprMentions values) →
    Attempt.Runs lock world (exprs typeOfName scope values) (exprs typeOfName scope' values)
      fun larger => List.Forall₂ (Expr.Alike larger)
  | [], _ => by rw [exprs, exprs]; exact .pure fun _ _ => .nil
  | value :: values, permits => by
    rw [Tree.exprMentions, Permits.append] at permits
    rw [exprs, exprs]
    exact .bind_pure (.both persists_expr (runs_expr value permits.1) (runs_exprs values permits.2))
      fun _ _ _ _ found => .cons found.1 found.2

theorem runs_bound : (value : Option Tree.Expr) → lock.Permits (Tree.boundMentions value) →
    Attempt.Runs lock world (bound typeOfName scope value) (bound typeOfName scope' value)
      fun larger => Option.Rel (Expr.Alike larger)
  | some value, permits => by
    rw [bound, bound]
    exact .map (runs_expr value permits) fun _ _ _ _ alike => .some alike
  | none, _ => by rw [bound, bound]; exact .pure fun _ _ => .none

theorem runs_subscript : (argument : Tree.Arg) → lock.Permits argument.mentions →
    Attempt.Runs lock world (subscript typeOfName scope argument) (subscript typeOfName scope' argument) Subscript.Alike
  | ⟨some _, _, _⟩, _ => by rw [subscript, subscript]; exact .fail _ _ _
  | ⟨none, .expr value, _⟩, permits => by
    rw [subscript, subscript]
    exact .map (runs_expr value permits) fun _ _ _ _ alike => .index alike
  | ⟨none, .triplet lower upper stride, _⟩, permits => by
    rw [Tree.Arg.mentions, Permits.append, Permits.append] at permits
    rw [subscript, subscript]
    exact .bind_pure (.both persists_expr.rel (runs_bound lower permits.1.1)
      (.both persists_expr.rel (runs_bound upper permits.1.2) (runs_bound stride permits.2)))
      fun _ _ _ _ found => .triplet found.1 found.2.1 found.2.2
  | ⟨none, .label _, _⟩, _ => by rw [subscript, subscript]; exact .fail _ _ _

theorem runs_subscripts : (arguments : List Tree.Arg) → lock.Permits (Tree.argumentMentions arguments) →
    Attempt.Runs lock world (subscripts typeOfName scope arguments) (subscripts typeOfName scope' arguments)
      fun larger => List.Forall₂ (Subscript.Alike larger)
  | [], _ => by rw [subscripts, subscripts]; exact .pure fun _ _ => .nil
  | argument :: arguments, permits => by
    rw [Tree.argumentMentions, Permits.append] at permits
    rw [subscripts, subscripts]
    exact .bind_pure (.both persists_subscript (runs_subscript argument permits.1)
      (runs_subscripts arguments permits.2)) fun _ _ _ _ found => .cons found.1 found.2

theorem runs_actualValue : (argument : Tree.Arg) → lock.Permits argument.mentions →
    Attempt.Runs lock world (actualValue typeOfName scope argument) (actualValue typeOfName scope' argument)
      ActualValue.Alike
  | ⟨_, .label _, _⟩, _ => by rw [actualValue, actualValue]; exact .pure fun _ _ => .label _
  | ⟨_, .triplet _ _ _, _⟩, _ => by rw [actualValue, actualValue]; exact .fail _ _ _
  | ⟨_, .expr value, _⟩, permits => by
    have runsValue := runs_expr value permits
    cases value with
    | name spelling span =>
      have allowed : lock.allows (.ofName spelling) := permits _ (.head _)
      rw [actualValue, actualValue]
      refine .bind (.settle (runs_specialActual paired allowed span)) fun _ found found' le special => ?_
      cases special with
      | some alike => exact .pure fun _ more => alike.mono more.le
      | none =>
        exact .map (runs_name types (le.scopes paired) allowed span) fun _ _ _ _ alike => .expr alike
    | _ => exact .map runsValue fun _ _ _ _ alike => .expr alike

theorem runs_actuals : (arguments : List Tree.Arg) → lock.Permits (Tree.argumentMentions arguments) →
    Attempt.Runs lock world (actuals typeOfName scope arguments) (actuals typeOfName scope' arguments) Actuals.Alike
  | [], _ => by rw [actuals, actuals]; exact .pure fun _ _ => .nil
  | argument :: arguments, permits => by
    rw [Tree.argumentMentions, Permits.append] at permits
    rw [actuals, actuals]
    exact .bind_pure (.both persists_actualValue (runs_actualValue argument permits.1)
      (runs_actuals arguments permits.2)) fun _ _ _ _ found => .cons (.some (.mk _ _ _ found.1)) found.2

end

end Expressions

/-! Types. -/

def Analyzes (lock : Lockstep) (analyze : ScopeId → Tree.Expr → Attempt Expr) : Prop :=
  ∀ {world : Table} {scope scope' : ScopeId} (value : Tree.Expr), (lock.upTo world).scopes scope scope' →
    lock.Permits value.mentions →
    Attempt.Runs lock world (analyze scope value) (analyze scope' value) Expr.Alike

variable {spec : Tree.TypeSpec}

section Types

open Lockstep (Permits)

variable (paired : (lock.upTo world).scopes scope scope')
include paired

theorem runs_derivedType (allowed : lock.allows (.ofName name)) (span span' : Span) :
    Attempt.Runs lock world (derivedType scope name span) (derivedType scope' name span')
      fun larger => larger.symbols := by
  refine .table_bind fun table table' tables le => ?_
  have found := tables.alike.visible?_filter (le.scopes paired) (lock.compares_of_name allowed)
    Details.Alike.isDerivedType
  exact relCases found (.fail _ _ _) fun _ _ pair => .pure fun _ more => more.symbols pair

variable {analyze : ScopeId → Tree.Expr → Attempt Expr} (analyzes : Analyzes lock analyze)
include analyzes

theorem runs_kindWith (category : Category) {kind : Option Tree.Expr}
    (permits : lock.Permits (Tree.boundMentions kind)) (span span' : Span) :
    Attempt.Runs lock world (kindWith analyze scope category kind span) (kindWith analyze scope' category kind span')
      fun _ kind kind' => kind = kind' ∧ category.isValidKind kind = true := by
  cases kind with
  | none => exact .pure fun _ _ => ⟨rfl, by cases category <;> rfl⟩
  | some kind =>
    refine .bind (analyzes kind paired permits) fun later value value' le alike => ?_
    refine .table_bind fun table table' tables more => ?_
    rw [tables.alike.foldInteger (tables.alike.foldKindInquiry (alike.mono more.le))]
    split
    · exact .ite Iff.rfl (fun valid => .pure fun _ _ => ⟨rfl, (Bool.and_eq_true_iff.mp valid).2⟩) fun _ => .fail _ _ _
    · exact .fail _ _ _

theorem runs_lengthWith {length : Tree.Length} (permits : lock.Permits length.mentions) :
    Attempt.Runs lock world (lengthWith analyze scope length) (lengthWith analyze scope' length) CharLength.Alike := by
  cases length with
  | expr value =>
    refine .bind (analyzes value paired permits) fun later value value' le alike => ?_
    refine .table_bind fun table table' tables more => ?_
    exact .pure fun _ most => .explicit ((tables.alike.fold (alike.mono more.le)).mono most.le)
  | assumed => exact .pure fun _ _ => .assumed
  | deferred => exact .pure fun _ _ => .deferred

theorem runs_numericWith (category : Category) {kind : Option Tree.Expr}
    (permits : lock.Permits (Tree.boundMentions kind)) (span span' : Span) :
    Attempt.Runs lock world (numericWith analyze scope category kind span)
      (numericWith analyze scope' category kind span') DeclaredType.Alike :=
  .bind_pure (runs_kindWith paired analyzes category permits span span') fun _ _ _ _ ⟨same, valid⟩ =>
    same ▸ .intrinsic valid .none

theorem runs_declaredTypeWith (permits : lock.Permits spec.mentions) {ownLength : Option Tree.Length}
    (permitsLength : lock.Permits (Tree.optionMentions Tree.Length.mentions ownLength)) (span span' : Span) :
    Attempt.Runs lock world (declaredTypeWith analyze scope spec ownLength span)
      (declaredTypeWith analyze scope' spec ownLength span') DeclaredType.Alike := by
  cases spec with
  | integer | real | complex | logical => exact runs_numericWith paired analyzes _ permits span span'
  | character length kind =>
    rw [Tree.TypeSpec.mentions, Permits.append] at permits
    refine .bind (runs_kindWith paired analyzes _ permits.2 span span') fun later kind _ le ⟨same, valid⟩ => ?_
    subst same
    have permitsEither : lock.Permits (Tree.optionMentions Tree.Length.mentions (ownLength.or length)) := by
      cases ownLength with
      | some => exact permitsLength
      | none => exact permits.1
    cases either : ownLength.or length with
    | none => exact .pure fun _ _ => .intrinsic valid .none
    | some length =>
      rw [either] at permitsEither
      exact .bind_pure (runs_lengthWith (le.scopes paired) analyzes permitsEither)
        fun _ _ _ _ alike => .intrinsic valid (.some alike)
  | type name =>
    exact .map (runs_derivedType paired (permits _ (.head _)) span span') fun _ _ _ _ pair => .type pair
  | classOf name =>
    exact .map (runs_derivedType paired (permits _ (.head _)) span span') fun _ _ _ _ pair => .classOf pair
  | doublePrecision => exact .pure fun _ _ => .intrinsic rfl .none
  | typeStar => exact .pure fun _ _ => .typeStar
  | classStar => exact .pure fun _ _ => .classStar

end Types

theorem permits_typeOf? {state : Resolution} {state' : Resolution} (matched : Matched lock state state')
    (scope : ScopeId) (isRule : (state.implicitFor scope).typeOf? name = some spec) : lock.Permits spec.mentions := by
  have permits := matched.implicitFor_permits scope
  unfold ImplicitTyping.typeOf? at isRule
  split at isRule
  · cases isRule
  next first rest =>
    dsimp only at isRule
    split at isRule
    next rule isFound =>
      obtain rfl := Option.some.inj isRule
      intro mention member
      refine lock.applies (permits _ (List.mem_map_of_mem (List.mem_flatMap.mpr ⟨rule, ?_, member⟩)))
      exact List.mem_of_find?_eq_some isFound
    · split at isRule
      · cases isRule
      · obtain rfl := Option.some.inj isRule
        unfold ImplicitTyping.defaultType
        split <;> exact fun _ member => absurd member List.not_mem_nil

theorem typesNames_implicitTypeWithin (depth : Nat) : TypesNames lock (implicitTypeWithin depth) := by
  -- A rule may hold expressions whose names get their types by rules one level deeper.
  induction depth with
  | zero => exact fun _ _ _ _ => .failure
  | succ depth ih =>
    intro world scope scope' name span span' paired
    refine .get_bind fun state state' matched le => ?_
    have pair := le.scopes paired
    rw [← matched.implicitFor pair]
    split
    next spec isRule =>
      have permits := permits_typeOf? matched scope isRule
      exact runs_declaredTypeWith pair (fun value paired => runs_expr ih paired value) permits
        (fun mention member => absurd member List.not_mem_nil) span span'
    · exact .failure

theorem typesNames_implicitType : TypesNames lock implicitType := by
  intro world scope scope' name span span' paired
  refine .get_bind fun state state' matched le => ?_
  rw [← matched.implicitFor (le.scopes paired)]
  exact typesNames_implicitTypeWithin _ name span span' (le.scopes paired)

theorem analyzes_analyze : Analyzes lock analyze :=
  fun value paired permits => runs_expr typesNames_implicitType paired value permits

section Bounds

open Lockstep (Permits)

variable (paired : (lock.upTo world).scopes scope scope')
include paired

theorem runs_declaredType (permits : lock.Permits spec.mentions) {ownLength : Option Tree.Length}
    (permitsLength : lock.Permits (Tree.optionMentions Tree.Length.mentions ownLength)) (span : Span) :
    Attempt.Runs lock world (declaredType scope spec ownLength span)
      (declaredType scope' spec ownLength span) DeclaredType.Alike :=
  runs_declaredTypeWith paired analyzes_analyze permits permitsLength span span

theorem runs_foldedBound {value : Tree.Expr} (permits : lock.Permits value.mentions) :
    Attempt.Runs lock world (foldedBound scope value) (foldedBound scope' value) Expr.Alike := by
  refine .bind (analyzes_analyze value paired permits) fun later bound bound' le alike => ?_
  refine .table_bind fun table table' tables more => ?_
  exact .pure fun _ most => (tables.alike.fold (alike.mono more.le)).mono most.le

theorem runs_lowerBound {value : Option Tree.Expr} (permits : lock.Permits (Tree.boundMentions value)) :
    Attempt.Runs lock world (lowerBound scope value) (lowerBound scope' value)
      fun larger => Option.Rel (Expr.Alike larger) := by
  cases value with
  | some value => exact .settle (runs_foldedBound paired permits)
  | none => exact .pure fun _ _ => .none

theorem runs_dimension {dimension : Tree.Dimension} (permits : lock.Permits dimension.mentions) :
    Attempt.Runs lock world (Resolve.dimension scope dimension) (Resolve.dimension scope' dimension) Bounds.Alike := by
  cases dimension with
  | explicit lower upper =>
    rw [Tree.Dimension.mentions, Permits.append] at permits
    refine .bind (runs_lowerBound paired permits.1) fun _ _ _ le lower => ?_
    exact .bind_pure (runs_foldedBound (le.scopes paired) permits.2) fun _ _ _ more upper =>
      .explicit (persists_expr.rel _ _ _ _ more.le lower) upper
  | colon => exact .bind_pure (runs_lowerBound paired permits) fun _ _ _ _ lower => .colon lower
  | star => exact .bind_pure (runs_lowerBound paired permits) fun _ _ _ _ lower => .assumedSize lower
  | assumedRank => exact .pure fun _ _ => .assumedRank

theorem runs_arraySpec {dimensions : List Tree.Dimension}
    (permits : lock.Permits (dimensions.flatMap Tree.Dimension.mentions)) :
    Runs lock world (arraySpec scope dimensions) (arraySpec scope' dimensions) ArraySpec.Alike := by
  refine .bind_pure (.mapM persists_bounds.rel fun _ dimension le member => ?_) fun _ _ _ _ found => ?_
  · exact runs_dimension (le.scopes paired) fun mention mentioned =>
      permits mention (List.mem_flatMap.mpr ⟨dimension, member, mentioned⟩)
  · exact List.rel_filterMap (fun _ _ same => same) found

theorem runs_optionalSpec {dimensions : Option (List Tree.Dimension)}
    (permits : lock.Permits (Tree.optionMentions (List.flatMap Tree.Dimension.mentions) dimensions)) :
    Runs lock world (optionalSpec scope dimensions) (optionalSpec scope' dimensions) ArraySpec.Alike := by
  cases dimensions with
  | some => exact runs_arraySpec paired permits
  | none => exact .pure fun _ _ => .nil

end Bounds

end Resolve

end FortranInterface
