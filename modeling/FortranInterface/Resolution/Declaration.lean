import FortranInterface.Resolution.Type

/-!
Declarations. Generic interfaces and the bindings of types name procedures that may be declared
later, so they wait until those of a scoping unit are known.
-/

namespace FortranInterface

inductive SubprogramRole where
  | external
  | contained
  | interface (isAbstract : Bool)
  deriving DecidableEq

namespace SubprogramRole

def isInterface : SubprogramRole → Bool
  | interface _ => true
  | _ => false

end SubprogramRole

namespace Tree

def Modifier.attr? : Modifier → Option Attribute
  | .pure => some .pure
  | .impure => some .impure
  | .elemental => some .elemental
  | .recursive => some .recursive
  | .module => none

def Subprogram.attributes (subprogram : Subprogram) (role : SubprogramRole) : Attributes :=
  .ofList (subprogram.modifiers.filterMap Modifier.attr? ++
    (if subprogram.bindC then [.bindC] else []) ++
    (if role = .interface true then [.abstract] else []))

def intrinsicDotted : List String :=
  [".and.", ".or.", ".not.", ".eqv.", ".neqv."]

def GenericSpec.key : GenericSpec → String
  | .name spelling => spelling
  | .operator op => "operator(" ++ op ++ ")"
  | .assignment => "assignment(=)"

def GenericSpec.kind : GenericSpec → GenericKind
  | .name _ => .name
  | .operator op =>
    if op.toList.head? = some '.' ∧ op ∉ intrinsicDotted then .definedOperator op
    else .intrinsicOperator op
  | .assignment => .assignment

def AttributeSpec.dimensions? : AttributeSpec → Option (List Dimension)
  | .dimension dimensions => some dimensions
  | _ => none

def AttributeSpec.codimensions? : AttributeSpec → Option (List Dimension)
  | .codimension dimensions => some dimensions
  | _ => none

end Tree

namespace Resolve

/-! Entities. -/

/-- The symbol a scope declares for a name: an object of which nothing is known, if this is its first
appearance. -/
def localEntity (scope : ScopeId) (name : String) (span : Span) : Resolve SymbolId := do
  let table ← table
  let add := addSymbol scope name .empty (.object .unknown) span
  match (table.scope scope).find? name with
  | some id =>
    if (table.symbol id).owner = scope then return id
    else
      report (.useAssociated name) span
      add
  | none => add

def setPassName (id : SymbolId) (name : Option String) : Resolve Unit :=
  change fun table =>
    match table.details id with
    | .procEntity entity => table.setDetails id (.procEntity { entity with passName := name })
    | _ => table

def addAttribute (id : SymbolId) (attr : Attribute) : Resolve Unit :=
  change fun table => table.addAttribute id attr

/-- Gives an entity an attribute. What is external or intrinsic is a procedure. -/
def applyAttribute (id : SymbolId) (span : Span) : Tree.AttributeSpec → Resolve Unit
  | .plain .external => do
    becomeProcedure id
    addAttribute id .external
  | .plain .intrinsic => do
    let name := ((← table).symbol id).name
    if !Intrinsic.isIntrinsic name then
      report (.notIntrinsic name) span
    becomeProcedure id
    addAttribute id .intrinsic
  | .plain attr => addAttribute id attr
  | .pass name => setPassName id name
  | .dimension _ | .codimension _ => return

def applyAttributes (id : SymbolId) (span : Span) (attributes : List Tree.AttributeSpec) :
    Resolve Unit :=
  attributes.forM (applyAttribute id span)

def declaredDetails (type : Option DeclaredType) (shape coshape : ArraySpec) (init : Option Expr) :
    Details → Details × Bool
  | .object object =>
    (.object
      { object with
        type, init
        shape := if shape.isEmpty then object.shape else shape
        coshape := if coshape.isEmpty then object.coshape else coshape },
      object.type.isSome)
  | .procEntity entity =>
    (.procEntity { entity with type }, entity.type.isSome || entity.interface.isSome)
  | other => (other, true)

def declareEntity (scope : ScopeId) (type : Tree.TypeSpec) (attributes : List Tree.AttributeSpec)
    (entity : Tree.Entity) : Resolve Unit := do
  let declared ← (declaredType scope type entity.length entity.span).run
  let id ← localEntity scope entity.name entity.span
  let shape ← optionalSpec scope
    (entity.dimensions.or (attributes.findSome? Tree.AttributeSpec.dimensions?))
  let coshape ← optionalSpec scope
    (entity.codimensions.or (attributes.findSome? Tree.AttributeSpec.codimensions?))
  let init ← match entity.init with
    | some init => (analyze scope init).run
    | none => pure none
  let init := init.map (← table).foldKindInquiry
  applyAttributes id entity.span attributes
  let (details, isRedeclared) := declaredDetails declared shape coshape init ((← table).details id)
  change fun table => table.setDetails id details
  if isRedeclared then
    report (.typeTwice entity.name) entity.span

def setShape (id : SymbolId) (shape : ArraySpec) : Resolve Unit :=
  change fun table =>
    match table.details id with
    | .object object => table.setDetails id (.object { object with shape })
    | _ => table

def declareAttribute (scope : ScopeId) (attr : Tree.AttributeSpec) (name : Tree.Located) :
    Resolve Unit := do
  let id ← localEntity scope name.name name.span
  match attr with
  | .dimension dimensions => setShape id (← arraySpec scope dimensions)
  | attr => applyAttribute id name.span attr

/-- An attribute statement. Without names, PRIVATE is for all names of a module. -/
def declareAttributes (scope : ScopeId) (attr : Tree.AttributeSpec) (names : List Tree.Located) :
    Resolve Unit :=
  match attr, names with
  | .plain .private, [] =>
    modify fun state => { state with privateByDefault := scope :: state.privateByDefault }
  | attr, names => names.forM (declareAttribute scope attr)

def namedInterface (scope : ScopeId) (span : Span) :
    Option Tree.InterfaceName → Resolve (Option SymbolId × Option DeclaredType)
  | some (.name name) => do
    let table ← table
    match (table.visible? scope name).filter fun id => (table.details id).isProcedure with
    | some id => return (some id, none)
    | none =>
      report (.interfaceNotFound name) span
      return (none, none)
  | some (.type spec) => return (none, ← (declaredType scope spec none span).run)
  | none => return (none, none)

def declareProcedures (scope : ScopeId) (interface : Option Tree.InterfaceName)
    (attributes : List Tree.AttributeSpec) (names : List Tree.Located) (span : Span) :
    Resolve Unit := do
  let (symbol, type) ← namedInterface scope span interface
  names.forM fun name => do
    let id ← localEntity scope name.name name.span
    change fun table =>
      table.setDetails id (.procEntity ⟨symbol, type, (table.details id).isDummy, none⟩)
    applyAttributes id name.span attributes

/-! Modules. -/

def isExported (state : Resolution) (module : ScopeId) (id : SymbolId) : Bool :=
  let symbol := state.table.symbol id
  symbol.has .public || (!symbol.has .private && !decide (module ∈ state.privateByDefault))

def useModule (scope : ScopeId) (name : String) (span : Span) : Resolve Unit := do
  let state ← get
  match state.modules.lookup name with
  | none => report (.moduleNotFound name) span
  | some module =>
    let exported := (state.table.scope module).names.entries.filter fun entry =>
      isExported state module entry.2
    change fun table =>
      exported.foldl (fun table entry => table.bindName scope entry.1 entry.2) table

/-! Subprograms. -/

/-- The symbol that a subprogram defines. A dummy argument gets an interface by a body of its name,
and a name may have been given attributes before. -/
def subprogramSymbol (host : ScopeId) (name : String) (span : Span) (isInterface : Bool) :
    Resolve (SymbolId × Bool) := do
  let table ← table
  match table.own? host name with
  | some id =>
    let details := table.details id
    let isUntouched := match details with
      | .object object => object.type.isNone && !object.isArray
      | _ => false
    if isInterface && details.isDummy then return (id, true)
    else if isUntouched then return (id, false)
    else
      report (.alreadyDeclared name) span
      return (← addSymbol host name .empty .unresolved span, false)
  | none => return (← addSymbol host name .empty .unresolved span, false)

def declareDummy (scope : ScopeId) : Tree.DummyName → Resolve (Option SymbolId)
  | .name name span =>
    some <$> addSymbol scope name .empty (.object { ObjectDetails.unknown with isDummy := true }) span
  | .star _ => return none

/-- The result of a function has the name of the function unless it is given another. -/
def declareResult (scope : ScopeId) (subprogram : Tree.Subprogram) : Resolve (Option SymbolId) := do
  match subprogram.kind with
  | .subroutine => return none
  | .function result _ =>
    let id ← addSymbol scope (result.getD subprogram.name) .empty (.object .unknown) subprogram.span
    modify fun state => { state with results := id :: state.results }
    return some id

/-- Declares a subprogram with its dummy arguments and its result, in a new scope. The rules for
undeclared names do not reach into an interface body. -/
def declareSubprogram (host : ScopeId) (subprogram : Tree.Subprogram) (role : SubprogramRole) :
    Resolve (SymbolId × ScopeId) := do
  let (id, isDummy) ← subprogramSymbol host subprogram.name subprogram.span role.isInterface
  let scope ← addScope (if role.isInterface then .interface else .subprogram) (some subprogram.name)
    host (some id)
  if role.isInterface then
    change fun table => table.modifyScope scope fun found => { found with implicitNone := false }
    setImplicit scope .default
  let dummies ← subprogram.dummies.mapM (declareDummy scope)
  let result ← declareResult scope subprogram
  change fun table =>
    table.modifySymbol id fun symbol =>
      { symbol with
        attributes := symbol.attributes.union (subprogram.attributes role)
        details := .subprogram ⟨dummies, result, role.isInterface, isDummy, some scope⟩ }
  return (id, scope)

def resultOf? (table : Table) (scope : ScopeId) : Option SymbolId :=
  (table.scope scope).symbol.bind fun id =>
    (table.details id).subprogram?.bind SubprogramDetails.result

def typeResult (scope : ScopeId) (subprogram : Tree.Subprogram) : Resolve Unit := do
  match subprogram.kind, resultOf? (← table) scope with
  | .function _ (some spec), some result =>
    let type ← (declaredType scope spec none subprogram.span).run
    match (← table).details result with
    | .object object =>
      if object.type.isNone then
        change fun table => table.setDetails result (.object { object with type })
      else report (.resultTypeTwice subprogram.name) subprogram.span
    | _ => return
  | _, _ => return

/-! Generic names and bindings. -/

def addSpecifics (generic : SymbolId) (specifics : List SymbolId) : Resolve Unit :=
  change fun table =>
    match table.details generic with
    | .generic details =>
      table.setDetails generic
        (.generic { details with specifics := details.specifics ++ specifics })
    | _ => table

def setSpecifics (generic : SymbolId) (specifics : List SymbolId) : Resolve Unit :=
  change fun table =>
    match table.details generic with
    | .generic details => table.setDetails generic (.generic { details with specifics })
    | _ => table

/-- The generic of a name that is local to a scope. One that is visible from elsewhere is extended
by a local copy. -/
def genericSymbol (scope : ScopeId) (spec : Tree.GenericSpec) (span : Span) : Resolve SymbolId := do
  let table ← table
  let found := (table.visible? scope spec.key).bind fun id =>
    (table.details id).generic?.map fun details => (id, details.specifics)
  let add (inherited : List SymbolId) : Resolve SymbolId :=
    addSymbol scope spec.key .empty (.generic ⟨spec.kind, inherited⟩) span
  match found with
  | some (id, specifics) => if (table.symbol id).owner = scope then return id else add specifics
  | none => add []

def namedSpecific (scope : ScopeId) (name : Tree.Located) : Resolve (Option SymbolId) := do
  let table ← table
  match table.visible? scope name.name with
  | some id =>
    match table.details id with
    | .subprogram _ => return some id
    | .procEntity entity =>
      if entity.interface.isSome then return some id
      else
        report (.notExplicit name.name) name.span
        return none
    | _ =>
      report (.notExplicit name.name) name.span
      return none
  | none =>
    report (.procedureNotFound name.name) name.span
    return none

def resolveGeneric (pending : PendingGeneric) : Resolve Unit := do
  let specifics ← pending.names.mapM (namedSpecific pending.scope)
  addSpecifics pending.generic (specifics.filterMap id)

def addBinding (type binding : SymbolId) : Resolve Unit :=
  change fun table =>
    match table.details type with
    | .derivedType details =>
      table.setDetails type (.derivedType { details with bindings := details.bindings ++ [binding] })
    | _ => table

def bindingAttribute? : Tree.AttributeSpec → Option Attribute
  | .plain .noPass => some .noPass
  | .plain .deferred => some .deferred
  | .plain .private => some .private
  | .plain .public => some .public
  | _ => none

def passName? : Tree.AttributeSpec → Option (Option String)
  | .pass name => some name
  | _ => none

/-- A binding of a procedure. Of several PASS attributes the last one counts. -/
def declareSpecificBinding (pending : PendingBindings) (name target : String)
    (attributes : List Tree.AttributeSpec) (span : Span) : Resolve Unit := do
  let table ← table
  match (table.visible? pending.scope target).filter fun id => (table.details id).isProcedure with
  | none => report (.bindingTargetNotFound target name) span
  | some procedure =>
    let passName := ((attributes.filterMap passName?).getLast?).join
    let id ← addSymbol pending.typeScope name (.ofList (attributes.filterMap bindingAttribute?))
      (.binding ⟨procedure, passName⟩) span
    addBinding pending.type id

def namedBinding (type : SymbolId) (span : Span) (name : String) : Resolve (Option SymbolId) := do
  let table ← table
  match (table.component? type name).filter fun id => (table.details id).isBinding with
  | some id => return some id
  | none =>
    report (.notTypeBound name (table.symbol type).name) span
    return none

def declareGenericBinding (pending : PendingBindings) (spec : Tree.GenericSpec)
    (specifics : List String) (span : Span) : Resolve Unit := do
  let before ← table
  let inherited := ((before.component? pending.type spec.key).map before.specifics).getD []
  let named ← specifics.mapM (namedBinding pending.type span)
  let all := inherited ++ named.filterMap id
  let table ← table
  match ((table.scope pending.typeScope).find? spec.key).filter fun id =>
      (table.details id).generic?.isSome with
  | some id => setSpecifics id all
  | none =>
    let id ← addSymbol pending.typeScope spec.key .empty (.generic ⟨spec.kind, all⟩) span
    addBinding pending.type id

def declareBinding (pending : PendingBindings) : Tree.Binding → Resolve Unit
  | .specific name procedure interface attributes span =>
    declareSpecificBinding pending name ((interface.or procedure).getD name) attributes span
  | .generic spec specifics span => declareGenericBinding pending spec specifics span

def resolvePending : Resolve Unit := do
  let generics := (← get).pendingGenerics
  modify fun state => { state with pendingGenerics := [] }
  generics.forM resolveGeneric
  let bindings := (← get).pendingBindings
  modify fun state => { state with pendingBindings := [] }
  bindings.forM fun pending => pending.bindings.forM (declareBinding pending)

/-! Undeclared names. -/

def untypedObjects (table : Table) (scope : ScopeId) : List (String × SymbolId) :=
  (table.scope scope).names.entries.filter fun entry =>
    let symbol := table.symbol entry.2
    symbol.owner = scope &&
      match symbol.details with
      | .object object => object.type.isNone
      | _ => false

def typeImplicitly (scope : ScopeId) (name : String) (id : SymbolId) : Resolve Unit := do
  let span := ((← table).symbol id).span
  match ← (implicitType scope name span).run with
  | some type =>
    change fun table =>
      let table := table.addUsage id .implicitlyTyped
      match table.details id with
      | .object object => table.setDetails id (.object { object with type := some type })
      | _ => table
  | none => return

def applyImplicitTypes (scope : ScopeId) : Resolve Unit := do
  (untypedObjects (← table) scope).forM fun (name, id) => typeImplicitly scope name id

/-! Derived types and interfaces, whose parts are again declarations. -/

def parentType (scope : ScopeId) (name : String) (span : Span) :
    Option String → Resolve (Option SymbolId)
  | some parent => do
    let table ← table
    match (table.visible? scope parent).filter fun id => (table.details id).isDerivedType with
    | some id => return some id
    | none =>
      report (.parentNotFound parent name) span
      return none
  | none => return none

def ownedFrom (table : Table) (first : Nat) (scope : ScopeId) : List SymbolId :=
  ((List.range' first (table.symbols.size - first)).map SymbolId.mk).filter fun id =>
    (table.symbol id).owner = scope

def setTypeParts (id : SymbolId) (components : List SymbolId) (scope : ScopeId) : Resolve Unit :=
  change fun table =>
    match table.details id with
    | .derivedType details =>
      table.setDetails id (.derivedType { details with components, scope := some scope })
    | _ => table

/-- A generic name stands for the generic, even if a specific procedure has the same name. -/
def closeGeneric (scope : ScopeId) (spec : Tree.GenericSpec) (generic : SymbolId)
    (specifics : List SymbolId) (names : List Tree.Located) : Resolve Unit := do
  change fun table => table.bindName scope spec.key generic
  addSpecifics generic specifics
  if !names.isEmpty then
    modify fun state =>
      { state with pendingGenerics := state.pendingGenerics ++ [⟨scope, generic, names⟩] }

def closeSpecification (scope : ScopeId) : Resolve Unit := do
  resolvePending
  applyImplicitTypes scope

mutual

def declaration (scope : ScopeId) : Tree.Decl → Resolve Unit
  | .use module span => useModule scope module span
  | .implicitNone _ => do
    changeImplicit scope ImplicitTyping.disable
    change fun table => table.setImplicitNone scope
  | .implicit rules _ => rules.forM fun rule => changeImplicit scope (·.addRule rule)
  | .entities type attributes entities _ => entities.forM (declareEntity scope type attributes)
  | .attributes attr names _ => declareAttributes scope attr names
  | .procedure interface attributes names span =>
    declareProcedures scope interface attributes names span
  | .interface ⟨.unnamed, bodies, _, _⟩ => discard (interfaceBodies scope false bodies)
  | .interface ⟨.abstract, bodies, _, _⟩ => discard (interfaceBodies scope true bodies)
  | .interface ⟨.generic spec, bodies, names, span⟩ => do
    let generic ← genericSymbol scope spec span
    let specifics ← interfaceBodies scope false bodies
    closeGeneric scope spec generic specifics names
  | .derivedType ⟨name, parentName, isAbstract, components, bindings, span⟩ => do
    let parent ← parentType scope name span parentName
    let id ← addSymbol scope name (.ofList (if isAbstract then [.abstract] else []))
      (.derivedType ⟨parent, [], [], none⟩) span
    let typeScope ← addScope .derivedType (some name) scope (some id)
    let first := (← table).symbols.size
    declarations typeScope components
    setTypeParts id (ownedFrom (← table) first typeScope) typeScope
    if !bindings.isEmpty then
      modify fun state =>
        { state with
          pendingBindings := state.pendingBindings ++ [⟨id, typeScope, scope, bindings⟩] }

def declarations (scope : ScopeId) : List Tree.Decl → Resolve Unit
  | [] => return
  | first :: rest => do
    declaration scope first
    declarations scope rest

def interfaceBodies (scope : ScopeId) (isAbstract : Bool) :
    List Tree.Subprogram → Resolve (List SymbolId)
  | [] => return []
  | first :: rest => do
    let id ← interfaceBody scope isAbstract first
    let ids ← interfaceBodies scope isAbstract rest
    return id :: ids

def interfaceBody (scope : ScopeId) (isAbstract : Bool) : Tree.Subprogram → Resolve SymbolId
  | ⟨kind, name, modifiers, dummies, bindC, spec, body, contains, span⟩ => do
    let subprogram : Tree.Subprogram :=
      ⟨kind, name, modifiers, dummies, bindC, spec, body, contains, span⟩
    let (id, bodyScope) ← declareSubprogram scope subprogram (.interface isAbstract)
    declarations bodyScope spec
    typeResult bodyScope subprogram
    closeSpecification bodyScope
    return id

end

end Resolve

end FortranInterface
