import FortranInterface.Proofs.Lockstep.Expression
import FortranInterface.Proofs.Resolution.Declaration

/-!
Declarations are resolved in lockstep.
-/

namespace FortranInterface

namespace Resolve

open Tree (Mention)
open Lockstep (Permits)

variable {lock : Lockstep} {world : Table} {scope scope' : ScopeId} {id id' : SymbolId}

/-! Entities. -/

variable {name : String}

variable {pairing : Pairing} {shape shape' coshape coshape' : ArraySpec} {details details' : Details}
  {init init' : Option Expr}

theorem declaredDetails_alike {type type' : Option DeclaredType}
    (types : Option.Rel (DeclaredType.Alike pairing) type type') (shapes : ArraySpec.Alike pairing shape shape')
    (coshapes : ArraySpec.Alike pairing coshape coshape') (inits : Option.Rel (Expr.Alike pairing) init init')
    (alike : details.Alike pairing details') :
    (declaredDetails type shape coshape init details).1.Alike pairing
        (declaredDetails type' shape' coshape' init' details').1 ∧
      (declaredDetails type shape coshape init details).2 =
        (declaredDetails type' shape' coshape' init' details').2 := by
  cases alike with
  | object same =>
    refine ⟨.object ⟨types, ?_, ?_, inits, same.isDummy⟩, relIsSome same.type⟩
    · simp only [shapes.isEmpty]
      split
      · exact same.shape
      · exact shapes
    · simp only [coshapes.isEmpty]
      split
      · exact same.coshape
      · exact coshapes
  | procEntity same =>
    refine ⟨.procEntity ⟨same.interface, types, same.isDummy, same.passName⟩, ?_⟩
    simp only [declaredDetails, relIsSome same.type, relIsSome same.interface]
  | associate same => exact ⟨.associate same, rfl⟩
  | subprogram same => exact ⟨.subprogram same, rfl⟩
  | generic same => exact ⟨.generic same, rfl⟩
  | derivedType same => exact ⟨.derivedType same, rfl⟩
  | binding same => exact ⟨.binding same, rfl⟩
  | module paired => exact ⟨.module paired, rfl⟩
  | mainProgram paired => exact ⟨.mainProgram paired, rfl⟩
  | unresolved => exact ⟨.unresolved, rfl⟩

theorem declaredDetails_rests (type : Option DeclaredType) (shape coshape : ArraySpec) (init : Option Expr)
    {details : Details} (rests : details.Rests id) : (declaredDetails type shape coshape init details).1.Rests id := by
  cases details with
  | object | procEntity => nofun
  | _ => exact rests

def completeEntity (attributes : List Tree.AttributeSpec) (entity : Tree.Entity) (id : SymbolId)
    (declared : Option DeclaredType) (shape coshape : ArraySpec) (init : Option Expr) : Resolve Unit := do
  let init := init.map (← table).foldKindInquiry
  applyAttributes id entity.span attributes
  let (details, isRedeclared) := declaredDetails declared shape coshape init ((← table).details id)
  change fun table => table.setDetails id details
  if isRedeclared then
    report (.typeTwice entity.name) entity.span

def declareLocal (scope : ScopeId) (attributes : List Tree.AttributeSpec) (entity : Tree.Entity)
    (declared : Option DeclaredType) (id : SymbolId) : Resolve Unit := do
  let shape ← optionalSpec scope (entity.dimensions.or (attributes.findSome? Tree.AttributeSpec.dimensions?))
  let coshape ← optionalSpec scope (entity.codimensions.or (attributes.findSome? Tree.AttributeSpec.codimensions?))
  match entity.init with
  | some init =>
    let init ← (analyze scope init).run
    completeEntity attributes entity id declared shape coshape init
  | none => completeEntity attributes entity id declared shape coshape none

theorem declareEntity_eq (scope : ScopeId) (type : Tree.TypeSpec) (attributes : List Tree.AttributeSpec)
    (entity : Tree.Entity) :
    declareEntity scope type attributes entity =
      (do
        let declared ← (declaredType scope type entity.length entity.span).run
        let id ← localEntity scope entity.name entity.span
        declareLocal scope attributes entity declared id) :=
  rfl

variable {declared declared' : Option DeclaredType}

def setType (id : SymbolId) (type : DeclaredType) : Resolve Unit :=
  change fun table =>
    match table.details id with
    | .object object => table.setDetails id (.object { object with type := some type })
    | _ => table

/-! What happens to one symbol. -/

section

variable (paired : (lock.upTo world).symbols id id')
include paired

theorem runs_setPassName (name : Option String) :
    Runs lock world (setPassName id name) (setPassName id' name) Unrelated := by
  refine .details paired fun table table' le alike _ => ?_
  generalize table.details id = details, table'.details id' = details' at alike
  cases alike with
  | procEntity same =>
    exact .inr ⟨_, _, rfl, rfl, .procEntity ⟨same.interface, same.type, same.isDummy, rfl⟩, nofun⟩
  | _ => exact .inl ⟨rfl, rfl⟩

theorem runs_addAttribute (attr : Attribute) :
    Runs lock world (addAttribute id attr) (addAttribute id' attr) Unrelated :=
  .change fun table _ tables le =>
    ⟨.modifySymbol table id (fun _ => rfl) fun _ => rfl, tables.addAttribute (le.symbols paired) attr⟩

theorem runs_applyAttribute (span : Span) (attr : Tree.AttributeSpec) :
    Runs lock world (applyAttribute id span attr) (applyAttribute id' span attr) Unrelated := by
  cases attr with
  | pass name => exact runs_setPassName paired name
  | dimension | codimension => exact .pure fun _ _ => trivial
  | plain attr =>
    cases attr with
    | external =>
      exact .bind (runs_becomeProcedure paired) fun _ _ _ le _ => runs_addAttribute (le.symbols paired) _
    | intrinsic =>
      refine .table_bind fun table table' tables le => ?_
      have pair := le.symbols paired
      have change {later : Table} (grows : table.Grows later) :
          Runs lock later (becomeProcedure id >>= fun _ => addAttribute id .intrinsic)
            (becomeProcedure id' >>= fun _ => addAttribute id' .intrinsic) Unrelated :=
        .bind (runs_becomeProcedure (grows.symbols pair)) fun _ _ _ more _ =>
          runs_addAttribute (more.symbols (grows.symbols pair)) _
      dsimp only
      rw [(tables.alike.symbol pair).name]
      refine .ite Iff.rfl (fun _ => ?_) fun _ => change (.refl _)
      exact .bind (runs_report _ _ _) fun _ _ _ more _ => change more
    | _ => exact runs_addAttribute paired _

theorem runs_applyAttributes (span : Span) (attributes : List Tree.AttributeSpec) :
    Runs lock world (applyAttributes id span attributes) (applyAttributes id' span attributes) Unrelated :=
  .forM fun _ attr le _ => runs_applyAttribute (le.symbols paired) span attr

theorem runs_completeEntity (attributes : List Tree.AttributeSpec)
    (entity : Tree.Entity) (types : Option.Rel (DeclaredType.Alike (lock.upTo world)) declared declared')
    (shapes : ArraySpec.Alike (lock.upTo world) shape shape')
    (coshapes : ArraySpec.Alike (lock.upTo world) coshape coshape')
    (inits : Option.Rel (Expr.Alike (lock.upTo world)) init init') :
    Runs lock world (completeEntity attributes entity id declared shape coshape init)
      (completeEntity attributes entity id' declared' shape' coshape' init') Unrelated := by
  refine .table_bind fun table table' tables le => ?_
  have inits : Option.Rel (Expr.Alike (lock.upTo table)) (init.map table.foldKindInquiry)
      (init'.map table'.foldKindInquiry) := by
    cases inits with
    | none => exact .none
    | some alike => exact .some (tables.alike.foldKindInquiry (alike.mono le.le))
  refine .bind (runs_applyAttributes (le.symbols paired) _ _) fun _ _ _ more _ => ?_
  refine .table_bind fun next next' nexts most => ?_
  have since := le.trans (more.trans most)
  have pair := since.symbols paired
  obtain ⟨details, isRedeclared⟩ := declaredDetails_alike (relMono (·.mono since.le) types)
    (shapes.mono since.le) (coshapes.mono since.le) (relMono (·.mono (more.trans most).le) inits)
    (nexts.alike.details pair)
  have rests := declaredDetails_rests declared shape coshape (init.map table.foldKindInquiry) (nexts.orderly.rests id)
  refine .bind (.details pair fun _ _ last _ _ => .inr ⟨_, _, rfl, rfl, details.mono last.le, rests⟩)
    fun _ _ _ _ _ => ?_
  exact .ite (iff_of_eq (congrArg (· = true) isRedeclared)) (fun _ => runs_report _ _ _) fun _ =>
    .pure fun _ _ => trivial

theorem runs_setShape (shapes : ArraySpec.Alike (lock.upTo world) shape shape') :
    Runs lock world (setShape id shape) (setShape id' shape') Unrelated := by
  refine .details paired fun table table' le alike _ => ?_
  generalize table.details id = details, table'.details id' = details' at alike
  cases alike with
  | @object object object' same =>
    exact .inr ⟨_, _, rfl, rfl, .object ⟨same.type, shapes.mono le.le, same.coshape, same.init, same.isDummy⟩, nofun⟩
  | _ => exact .inl ⟨rfl, rfl⟩

theorem runs_setType {type type' : DeclaredType}
    (alike : type.Alike (lock.upTo world) type') : Runs lock world (setType id type) (setType id' type') Unrelated := by
  refine .details paired fun table table' le details _ => ?_
  generalize table.details id = before, table'.details id' = before' at details
  cases details with
  | @object object object' same =>
    exact .inr ⟨_, _, rfl, rfl, .object ⟨.some (alike.mono le.le), same.shape, same.coshape, same.init,
      same.isDummy⟩, nofun⟩
  | _ => exact .inl ⟨rfl, rfl⟩

theorem runs_addBinding {binding binding' : SymbolId} (bindings : (lock.upTo world).symbols binding binding') :
    Runs lock world (addBinding id binding) (addBinding id' binding') Unrelated := by
  refine .details paired fun table table' le details rests => ?_
  generalize table.details id = before at details rests
  generalize table'.details id' = before' at details
  cases details with
  | derivedType same =>
    exact .inr ⟨_, _, rfl, rfl, .derivedType ⟨same.parent, same.components,
      List.rel_append same.bindings (.cons (le.symbols bindings) .nil), same.scope⟩, rests⟩
  | _ => exact .inl ⟨rfl, rfl⟩

theorem runs_setTypeParts (scopes : (lock.upTo world).scopes scope scope') {components components' : List SymbolId}
    (alike : List.Forall₂ (lock.upTo world).symbols components components') :
    Runs lock world (setTypeParts id components scope) (setTypeParts id' components' scope') Unrelated := by
  refine .details paired fun table table' le details rests => ?_
  generalize table.details id = before at details rests
  generalize table'.details id' = before' at details
  cases details with
  | derivedType same =>
    exact .inr ⟨_, _, rfl, rfl, .derivedType ⟨same.parent, alike.imp fun _ _ => le.symbols, same.bindings,
      .some (le.scopes scopes)⟩, rests⟩
  | _ => exact .inl ⟨rfl, rfl⟩

end

variable {attributes : List Tree.AttributeSpec}

def attributeLocal (scope : ScopeId) (attr : Tree.AttributeSpec) (span : Span) (id : SymbolId) :
    Resolve Unit :=
  match attr with
  | .dimension dimensions => do setShape id (← arraySpec scope dimensions)
  | attr => applyAttribute id span attr

theorem declareAttribute_eq (scope : ScopeId) (attr : Tree.AttributeSpec) (name : Tree.Located) :
    declareAttribute scope attr name =
      (do
        let id ← localEntity scope name.name name.span
        attributeLocal scope attr name.span id) :=
  rfl

theorem permits_dimensions (permits : lock.Permits (attributes.flatMap Tree.AttributeSpec.mentions))
    {own : Option (List Tree.Dimension)}
    (permitsOwn : lock.Permits (Tree.optionMentions (List.flatMap Tree.Dimension.mentions) own))
    {select : Tree.AttributeSpec → Option (List Tree.Dimension)}
    (selects : ∀ attr dimensions, select attr = some dimensions →
      dimensions.flatMap Tree.Dimension.mentions = attr.mentions) :
    lock.Permits (Tree.optionMentions (List.flatMap Tree.Dimension.mentions)
      (own.or (attributes.findSome? select))) := by
  cases own with
  | some => exact permitsOwn
  | none =>
    rw [Option.none_or]
    cases isFound : attributes.findSome? select with
    | none => exact nofun
    | some dimensions =>
      obtain ⟨attr, member, isSelected⟩ := List.exists_of_findSome?_eq_some isFound
      intro mention mentioned
      refine permits mention (List.mem_flatMap.mpr ⟨attr, member, ?_⟩)
      rwa [← selects attr dimensions isSelected]

variable {attr : Tree.AttributeSpec}

variable {names : List Tree.Located}

/-! What is declared in one scope. -/

section

variable (paired : (lock.upTo world).scopes scope scope')
include paired

theorem runs_localEntity (allowed : lock.allows (.ofName name)) (span : Span) :
    Runs lock world (localEntity scope name span) (localEntity scope' name span) fun larger => larger.symbols := by
  refine .table_bind fun table table' tables le => ?_
  have pair := le.scopes paired
  have add {later : Table} (grows : table.Grows later) (binds : lock.Binds scope name.toLower) :
      Runs lock later (addSymbol scope name .empty (.object .unknown) span)
        (addSymbol scope' name .empty (.object .unknown) span) fun larger => larger.symbols :=
    runs_addSymbol (grows.scopes pair) binds (fun _ => rfl) (.object ⟨.none, .nil, .nil, .none, rfl⟩) span span
  have found := (tables.alike.scope pair).find? (lock.compares_of_name allowed scope)
  dsimp only
  generalize isKnown : (table.scope scope).find? name = here, (table'.scope scope').find? name = here' at found
  cases found with
  | none => exact add (.refl _) (tables.binds_of_foreign allowed fun _ isFound => by simp [isKnown] at isFound)
  | @some id id' known =>
    refine .ite ((lock.exact_upTo _).scope_eq_iff (tables.alike.symbol known).owner pair)
      (fun _ => .pure fun _ more => more.symbols known) fun foreign => ?_
    refine .bind (runs_report _ _ _) fun later _ _ more _ => add more ?_
    refine tables.binds_of_foreign allowed fun other isFound => ?_
    obtain rfl : id = other := Option.some.inj (isKnown.symm.trans isFound)
    exact foreign

theorem runs_declareLocal (known : (lock.upTo world).symbols id id')
    {entity : Tree.Entity} (permitsAttributes : lock.Permits (attributes.flatMap Tree.AttributeSpec.mentions))
    (permits : lock.Permits entity.mentions)
    (types : Option.Rel (DeclaredType.Alike (lock.upTo world)) declared declared') :
    Runs lock world (declareLocal scope attributes entity declared id)
      (declareLocal scope' attributes entity declared' id') Unrelated := by
  rw [Tree.Entity.mentions, Permits.cons, Permits.append, Permits.append, Permits.append] at permits
  obtain ⟨-, ⟨⟨permitsShape, permitsCoshape⟩, -⟩, permitsInit⟩ := permits
  refine .bind (runs_optionalSpec paired (permits_dimensions permitsAttributes permitsShape ?_))
    fun _ shape shape' le shapes => ?_
  · intro attr dimensions isSelected
    cases attr <;> cases isSelected
    rfl
  refine .bind (runs_optionalSpec (le.scopes paired) (permits_dimensions permitsAttributes permitsCoshape ?_))
    fun _ coshape coshape' more coshapes => ?_
  · intro attr dimensions isSelected
    cases attr <;> cases isSelected
    rfl
  have since := le.trans more
  have shapes := shapes.mono more.le
  cases isInit : entity.init with
  | some init =>
    rw [isInit] at permitsInit
    refine .bind (analyzes_analyze init (since.scopes paired) permitsInit) fun _ _ _ most inits => ?_
    exact runs_completeEntity ((since.trans most).symbols known) attributes entity
      (relMono (·.mono (since.trans most).le) types) (shapes.mono most.le) (coshapes.mono most.le) inits
  | none =>
    exact runs_completeEntity (since.symbols known) attributes entity (relMono (·.mono since.le) types)
      shapes coshapes .none

theorem runs_declareEntity {type : Tree.TypeSpec} {entity : Tree.Entity} (permitsType : lock.Permits type.mentions)
    (permitsAttributes : lock.Permits (attributes.flatMap Tree.AttributeSpec.mentions))
    (permits : lock.Permits entity.mentions) :
    Runs lock world (declareEntity scope type attributes entity) (declareEntity scope' type attributes entity)
      Unrelated := by
  have parts := permits
  rw [Tree.Entity.mentions, Permits.cons, Permits.append, Permits.append, Permits.append] at parts
  rw [declareEntity_eq, declareEntity_eq]
  refine .bind (runs_declaredType paired permitsType parts.2.1.2 _) fun _ declared declared' le types => ?_
  refine .bind (runs_localEntity (le.scopes paired) parts.1 _) fun _ id id' more pair => ?_
  exact runs_declareLocal ((le.trans more).scopes paired) pair permitsAttributes permits
    (relMono (·.mono more.le) types)

theorem runs_attributeLocal
    (known : (lock.upTo world).symbols id id') (permits : lock.Permits attr.mentions) (span : Span) :
    Runs lock world (attributeLocal scope attr span id) (attributeLocal scope' attr span id') Unrelated := by
  unfold attributeLocal
  cases attr with
  | dimension dimensions =>
    exact .bind (runs_arraySpec paired permits) fun _ _ _ le shapes => runs_setShape (le.symbols known) shapes
  | _ => exact runs_applyAttribute known _ _

theorem runs_declareAttribute (permits : lock.Permits attr.mentions) {name : Tree.Located}
    (allowed : lock.allows name.mention) :
    Runs lock world (declareAttribute scope attr name) (declareAttribute scope' attr name) Unrelated := by
  rw [declareAttribute_eq, declareAttribute_eq]
  exact .bind (runs_localEntity paired allowed _) fun _ _ _ le pair =>
    runs_attributeLocal (le.scopes paired) pair permits _

theorem runs_declareAttributes (permits : lock.Permits attr.mentions)
    (permitsNames : lock.Permits (names.map Tree.Located.mention)) :
    Runs lock world (declareAttributes scope attr names) (declareAttributes scope' attr names) Unrelated := by
  have each : Runs lock world (names.forM (declareAttribute scope attr))
      (names.forM (declareAttribute scope' attr)) Unrelated :=
    .forM fun _ name le member => runs_declareAttribute (le.scopes paired) permits
      (permitsNames _ (List.mem_map_of_mem member))
  unfold declareAttributes
  split
  · refine .modify fun state state' matched le => ⟨.refl _, { matched with
      privateByDefault := fun {other other'} pair => ?_
      private_lt := fun other member => ?_ }⟩
    · have iff := lock.exact.scope_eq_iff pair (le.scopes paired).1
      simp only [List.mem_cons, iff, matched.privateByDefault pair]
    · rcases List.mem_cons.mp member with rfl | old
      · exact (le.scopes paired).2
      · exact matched.private_lt other old
  · exact each

variable {interface : Option Tree.InterfaceName}

theorem runs_namedInterface (span : Span)
    (permits : lock.Permits (Tree.optionMentions Tree.InterfaceName.mentions interface)) :
    Runs lock world (namedInterface scope span interface) (namedInterface scope' span interface)
      fun larger found found' => Option.Rel larger.symbols found.1 found'.1 ∧
        Option.Rel (DeclaredType.Alike larger) found.2 found'.2 := by
  rcases interface with _ | ⟨name⟩ | ⟨spec⟩
  · exact .pure fun _ _ => ⟨.none, .none⟩
  · refine .table_bind fun table table' tables le => ?_
    have allowed : lock.allows (.ofName name) := permits _ (.head _)
    have found := tables.alike.visible?_filter (le.scopes paired) (lock.compares_of_name allowed)
      Details.Alike.isProcedure
    exact relCases found (.bind (runs_report _ _ _) fun _ _ _ _ _ => .pure fun _ _ => ⟨.none, .none⟩) fun _ _ pair =>
      .pure fun _ more => ⟨.some (more.symbols pair), .none⟩
  · exact .bind_pure (runs_declaredType paired permits (fun mention member => absurd member List.not_mem_nil)
      span) fun _ _ _ _ types => ⟨.none, types⟩

theorem runs_declareProcedures (permits : lock.Permits (Tree.optionMentions Tree.InterfaceName.mentions interface))
    (attributes : List Tree.AttributeSpec) (permitsNames : lock.Permits (names.map Tree.Located.mention))
    (span : Span) :
    Runs lock world (declareProcedures scope interface attributes names span)
      (declareProcedures scope' interface attributes names span) Unrelated := by
  refine .bind (runs_namedInterface paired span permits) fun _ found found' le same => ?_
  refine .forM fun _ name more member => ?_
  have allowed := permitsNames _ (List.mem_map_of_mem member)
  refine .bind (runs_localEntity ((le.trans more).scopes paired) allowed _) fun _ id id' most pair => ?_
  refine .bind (.details pair fun table table' last alike _ => ?_) fun _ _ _ last _ => ?_
  · have since := more.trans (most.trans last)
    exact .inr ⟨_, _, rfl, rfl, .procEntity ⟨relMono since.symbols same.1, relMono (·.mono since.le) same.2,
      alike.isDummy, rfl⟩, nofun⟩
  · exact runs_applyAttributes (last.symbols pair) _ _

end

/-! Modules. -/

theorem lookup_modules {modules modules' : List (String × ScopeId)}
    (alike : List.Forall₂ (ModuleAlike lock pairing) modules modules') (allowed : lock.allows (.module name)) :
    Option.Rel (fun module module' => pairing.scopes module module' ∧ lock.exports module)
      (modules.lookup name) (modules'.lookup name) := by
  induction alike with
  | nil => exact .none
  | @cons entry entry' _ _ first _ ih =>
    obtain ⟨spelling, module⟩ := entry
    obtain ⟨spelling', module'⟩ := entry'
    obtain rfl : spelling = spelling' := first.name
    rw [List.lookup_cons, List.lookup_cons]
    split
    next same =>
      obtain rfl : name = spelling := eq_of_beq same
      exact .some ⟨first.scope, first.exports allowed⟩
    · exact ih

variable {state state' : Resolution}

theorem isExported_alike (matched : Matched lock state state') (scopes : (lock.upTo state.table).scopes scope scope')
    (paired : (lock.upTo state.table).symbols id id') (plain : lock.gained id = none) :
    isExported state scope id = isExported state' scope' id' := by
  have symbols := matched.alike.symbol paired
  have has (attr : Attribute) : (state.table.symbol id).has attr = (state'.table.symbol id').has attr := by
    rw [symbols.has attr, plain, decide_eq_false nofun, Bool.or_false]
  have isPrivate : decide (scope ∈ state.privateByDefault) = decide (scope' ∈ state'.privateByDefault) :=
    decide_eq_decide.mpr (matched.privateByDefault scopes.1)
  simp only [isExported, has, isPrivate]

def SubprogramAlike (lock : Lockstep) (pairing : Pairing) (found found' : SymbolId × ScopeId) : Prop :=
  pairing.symbols found.1 found'.1 ∧ pairing.scopes found.2 found'.2 ∧ lock.Plain found.2

theorem resultOf?_alike {table table' : Table} (tables : Tables lock table table')
    (paired : (lock.upTo table).scopes scope scope') :
    Option.Rel (lock.upTo table).symbols (resultOf? table scope) (resultOf? table' scope') := by
  have heads := (tables.alike.scope paired).symbol
  unfold resultOf?
  refine relCases heads .none fun head head' pair => ?_
  have found := (tables.alike.details pair).subprogram?
  simp only [Option.bind_some]
  generalize (table.details head).subprogram? = subprogram,
    (table'.details head').subprogram? = subprogram' at found
  cases found with
  | none => exact .none
  | some same => exact same.result

variable {subprogram : Tree.Subprogram}

section

variable (paired : (lock.upTo world).scopes scope scope')
include paired

theorem runs_useModule (free : lock.Free scope) (allowed : lock.allows (.module name)) (span : Span) :
    Runs lock world (useModule scope name span) (useModule scope' name span) Unrelated := by
  refine .get_bind fun state state' matched le => ?_
  have found := lookup_modules matched.modules allowed
  refine relCases found (runs_report _ _ _) fun module module' modules => ?_
  obtain ⟨modules, exports⟩ := modules
  have alike := matched.alike.scope modules
  have orderly := matched.tables.orderly
  have plain {entry : String × SymbolId} (member : entry ∈ (state.table.scope module).names.entries) :=
    orderly.exported exports (NameMap.find?_of_mem alike.sorted member)
  refine .change fun table table' tables more => ?_
  refine ⟨?_, tables.bindNames (more.scopes (le.scopes paired)) free ?_ ?_ ?_ ?_⟩
  · rw [Table.foldl_bindName]
    exact .modifyScope table scope fun _ => rfl
  · have names := alike.names
    rw [NameMap.compared_of_shown _ (lock.shows exports), NameMap.compared_of_shown _ (lock.shows exports)] at names
    refine filter_alike ?_ fun entry => by rw [entry.1]
    refine (filter_alike_of_mem names fun member entry => ?_).imp fun _ _ entry => entry.mono more.le
    exact isExported_alike matched modules entry.2 (plain member)
  · intro entry member
    have isFound := NameMap.find?_of_mem alike.sorted (List.mem_of_mem_filter member)
    exact orderly.lower module _ _ isFound
  · intro entry member
    have isFound := NameMap.find?_of_mem alike.sorted' (List.mem_of_mem_filter member)
    exact matched.tables.lower' module' _ _ isFound
  · intro entry member
    have isFound := NameMap.find?_of_mem alike.sorted (List.mem_of_mem_filter member)
    exact ⟨more.named (orderly.named isFound), plain (List.mem_of_mem_filter member)⟩

/-! Subprograms. -/

theorem runs_subprogramSymbol (allowed : lock.allows (.ofName name)) (defined : lock.allows (.ofDefined name))
    (span : Span) (isInterface : Bool) :
    Runs lock world (subprogramSymbol scope name span isInterface)
      (subprogramSymbol scope' name span isInterface) fun larger found found' =>
        larger.symbols found.1 found'.1 ∧ found.2 = found'.2 := by
  refine .table_bind fun table table' tables le => ?_
  have pair := le.scopes paired
  have add {later : Table} (grows : table.Grows later) :
      Runs lock later (addSymbol scope name .empty .unresolved span >>= fun id => pure (id, false))
        (addSymbol scope' name .empty .unresolved span >>= fun id => pure (id, false))
        fun larger found found' => larger.symbols found.1 found'.1 ∧ found.2 = found'.2 :=
    .bind_pure (runs_addSymbol (grows.scopes pair) (lock.binds_of_defined defined scope) (fun _ => rfl)
      .unresolved span span) fun _ _ _ _ pair => ⟨pair, rfl⟩
  have found := tables.alike.own? pair (lock.compares_of_name allowed)
  refine relCases found (add (.refl _)) fun id id' known => ?_
  have details := tables.alike.details known
  dsimp only
  rw [details.isDummy]
  refine .ite Iff.rfl (fun _ => .pure fun _ more => ⟨more.symbols known, rfl⟩) fun _ =>
    .ite ?_ (fun _ => .pure fun _ more => ⟨more.symbols known, rfl⟩) fun _ =>
    .bind (runs_report _ _ _) fun _ _ _ more _ => add more
  generalize table.details id = before, table'.details id' = before' at details
  cases details with
  | object same =>
    simp only [ObjectDetails.isArray, same.shape.isEmpty, ← Option.not_isSome, relIsSome same.type]
  | _ => rfl

theorem runs_declareDummy (free : lock.Free scope) (dummy : Tree.DummyName) :
    Runs lock world (declareDummy scope dummy) (declareDummy scope' dummy) fun larger => Option.Rel larger.symbols := by
  cases dummy with
  | name name span =>
    have details : Details.Alike (lock.upTo world) (.object { ObjectDetails.unknown with isDummy := true })
        (.object { ObjectDetails.unknown with isDummy := true }) :=
      .object ⟨.none, .nil, .nil, .none, rfl⟩
    exact .map (runs_addSymbol paired (free _) (fun _ => rfl) details span span) fun _ _ _ _ pair => .some pair
  | star => exact .pure fun _ _ => .none

theorem runs_declareResult (plain : lock.Plain scope) (subprogram : Tree.Subprogram) :
    Runs lock world (declareResult scope subprogram) (declareResult scope' subprogram)
      fun larger => Option.Rel larger.symbols := by
  unfold declareResult
  cases subprogram.kind with
  | subroutine => exact .pure fun _ _ => .none
  | function result type =>
    have details : Details.Alike (lock.upTo world) (.object .unknown) (.object .unknown) :=
      .object ⟨.none, .nil, .nil, .none, rfl⟩
    refine .bind (runs_addSymbol paired (plain.free _) (fun _ => rfl) details _ _) fun later id id' le pair => ?_
    refine .bind (.modify fun state state' matched more => ⟨.refl _, { matched with
      results := .cons (more.symbols pair) matched.results }⟩) fun _ _ _ more _ => .pure fun _ most => ?_
    exact .some ((more.trans most).symbols pair)

theorem runs_fillSubprogram (known : (lock.upTo world).symbols id id') (plain : lock.Plain scope)
    (subprogram : Tree.Subprogram) (role : SubprogramRole) (isDummy : Bool) :
    Runs lock world (fillSubprogram subprogram role id isDummy scope)
      (fillSubprogram subprogram role id' isDummy scope') (SubprogramAlike lock) := by
  refine .bind (.mapM persists_symbols.rel fun _ dummy le _ => runs_declareDummy (le.scopes paired) plain.free dummy)
    fun _ dummies dummies' le alike => ?_
  refine .bind (runs_declareResult (le.scopes paired) plain subprogram) fun _ result result' more results => ?_
  refine .bind (.change fun table table' tables most => ⟨.modifySymbol table id (fun _ => rfl) fun _ => rfl, ?_⟩)
    fun _ _ _ most _ => .pure fun _ last => ?_
  · have since := le.trans (more.trans most)
    have pair := since.symbols known
    have before := tables.alike.symbol pair
    refine tables.modifySymbol pair ⟨before.name, before.usage, .subprogram ?_, before.owner,
      fun attr => ?_, before.access⟩ (fun _ => rfl) (fun _ => rfl) nofun
    · exact ⟨persists_symbols.rel.forall₂ _ _ _ _ (more.trans most).le alike,
        relMono most.symbols results, rfl, rfl, .some (since.scopes paired)⟩
    · have same := before.has attr
      simp only [Symbol.has] at same
      simp only [Symbol.has, Flags.has_union, same, Bool.or_right_comm]
  · have since := le.trans (more.trans (most.trans last))
    exact ⟨since.symbols known, since.scopes paired, plain⟩

theorem runs_openBody : Runs lock world (openBody scope) (openBody scope') Unrelated := by
  refine .bind (.change fun table table' tables le => ⟨.modifyScope table scope fun _ => rfl, ?_⟩) fun _ _ _ le _ => ?_
  · have before := tables.alike.scope (le.scopes paired)
    exact tables.modifyScope_of_names (le.scopes paired) ⟨before.kind, before.parent, before.symbol,
      before.names, before.sorted, before.sorted'⟩ rfl (fun _ => rfl) fun _ => rfl
  · exact runs_setImplicit (le.scopes paired) nofun

theorem runs_declareSubprogram (subprogram : Tree.Subprogram) (allowed : lock.allows (.ofName subprogram.name))
    (defined : lock.allows (.ofDefined subprogram.name)) (role : SubprogramRole) :
    Runs lock world (declareSubprogram scope subprogram role) (declareSubprogram scope' subprogram role)
      (SubprogramAlike lock) := by
  rw [declareSubprogram_eq, declareSubprogram_eq]
  refine .bind (runs_subprogramSymbol paired allowed defined _ _) fun _ found found' le same => ?_
  refine .bind (runs_addScope _ _ _ (le.scopes paired) (.some same.1)) fun _ inner inner' more opened => ?_
  obtain ⟨scopes, plain⟩ := opened
  rw [same.2]
  have fill {later : Table} (grows : Table.Grows _ later) :=
    runs_fillSubprogram (grows.scopes scopes) (grows.symbols (more.symbols same.1)) plain subprogram role found'.2
  refine .ite Iff.rfl (fun _ => ?_) fun _ => fill (.refl _)
  exact .bind (runs_openBody scopes) fun _ _ _ most _ => fill most

theorem runs_setResultType (known : (lock.upTo world).symbols id id') {spec : Tree.TypeSpec}
    (permits : lock.Permits spec.mentions) (name : String) (span : Span) :
    Runs lock world
      (do
        let type ← (declaredType scope spec none span).run
        match (← table).details id with
        | .object object =>
          if object.type.isNone then
            change fun table => table.setDetails id (.object { object with type })
          else report (.resultTypeTwice name) span
        | _ => return)
      (do
        let type ← (declaredType scope' spec none span).run
        match (← table).details id' with
        | .object object =>
          if object.type.isNone then
            change fun table => table.setDetails id' (.object { object with type })
          else report (.resultTypeTwice name) span
        | _ => return) Unrelated := by
  refine .bind (runs_declaredType paired permits (fun mention member => absurd member List.not_mem_nil) _)
    fun _ type type' le types => ?_
  refine .table_bind fun table table' tables more => ?_
  have pair := more.symbols (le.symbols known)
  have details := tables.alike.details pair
  generalize table.details id = before, table'.details id' = before' at details
  cases details with
  | @object object object' same =>
    refine .ite ?_ (fun _ => .details pair fun _ _ most _ _ => ?_) fun _ => runs_report _ _ _
    · rw [← Option.not_isSome, ← Option.not_isSome, relIsSome same.type]
    · have next : Details.Alike (lock.upTo table) (.object { object with type })
          (.object { object' with type := type' }) :=
        .object ⟨relMono (·.mono more.le) types, same.shape, same.coshape, same.init, same.isDummy⟩
      exact .inr ⟨_, _, rfl, rfl, next.mono most.le, nofun⟩
  | _ => exact .pure fun _ _ => trivial

theorem runs_typeResult (permits : lock.Permits subprogram.kind.mentions) :
    Runs lock world (typeResult scope subprogram) (typeResult scope' subprogram) Unrelated := by
  refine .table_bind fun table table' tables le => ?_
  have found := resultOf?_alike tables (le.scopes paired)
  generalize resultOf? table scope = result, resultOf? table' scope' = result' at found
  generalize subprogram.kind = kind at permits
  rcases kind with _ | ⟨name, _ | spec⟩
  · exact .pure fun _ _ => trivial
  · exact .pure fun _ _ => trivial
  · cases found with
    | none => exact .pure fun _ _ => trivial
    | some pair =>
      rw [Tree.SubprogramKind.mentions, Permits.append] at permits
      exact runs_setResultType (le.scopes paired) pair permits.2 _ _

end

/-! Generic names and bindings. -/

variable {specifics specifics' : List SymbolId}

theorem genericDetails_alike (kind : GenericKind) (alike : List.Forall₂ pairing.symbols specifics specifics') :
    Details.Alike pairing (.generic ⟨kind, specifics⟩) (.generic ⟨kind, specifics'⟩) :=
  .generic ⟨rfl, alike⟩

section

variable (paired : (lock.upTo world).symbols id id')
  (alike : List.Forall₂ (lock.upTo world).symbols specifics specifics')
include paired alike

theorem runs_addSpecifics : Runs lock world (addSpecifics id specifics) (addSpecifics id' specifics') Unrelated := by
  refine .details paired fun table table' le details _ => ?_
  generalize table.details id = before, table'.details id' = before' at details
  cases details with
  | @generic generic generic' same =>
    exact .inr ⟨_, _, rfl, rfl, .generic ⟨same.kind, List.rel_append same.specifics
      (alike.imp fun _ _ => le.symbols)⟩, nofun⟩
  | _ => exact .inl ⟨rfl, rfl⟩

theorem runs_setSpecifics : Runs lock world (setSpecifics id specifics) (setSpecifics id' specifics') Unrelated := by
  refine .details paired fun table table' le details _ => ?_
  generalize table.details id = before, table'.details id' = before' at details
  cases details with
  | @generic generic generic' same =>
    exact .inr ⟨_, _, rfl, rfl, .generic ⟨same.kind, alike.imp fun _ _ => le.symbols⟩, nofun⟩
  | _ => exact .inl ⟨rfl, rfl⟩

end

theorem visibleGeneric_alike {table table' : Table} (tables : Tables lock table table')
    (paired : (lock.upTo table).scopes scope scope') (compared : lock.Compares name) :
    Option.Rel (fun found found' => (lock.upTo table).symbols found.1 found'.1 ∧
        List.Forall₂ (lock.upTo table).symbols found.2 found'.2)
      ((table.visible? scope name).bind fun id =>
        (table.details id).generic?.map fun details => (id, details.specifics))
      ((table'.visible? scope' name).bind fun id =>
        (table'.details id).generic?.map fun details => (id, details.specifics)) := by
  have found := tables.alike.visible? paired compared
  refine relCases found .none fun id id' pair => ?_
  have generics := (tables.alike.details pair).generic?
  simp only [Option.bind_some]
  generalize (table.details id).generic? = generic, (table'.details id').generic? = generic' at generics
  cases generics with
  | none => exact .none
  | some same => exact .some ⟨pair, same.specifics⟩

variable {spec : Tree.GenericSpec}

theorem runs_genericSymbol (paired : (lock.upTo world).scopes scope scope')
    (allowed : lock.allows (.ofName spec.key)) (defined : lock.allows (.ofDefined spec.key)) (span : Span) :
    Runs lock world (genericSymbol scope spec span) (genericSymbol scope' spec span) fun larger => larger.symbols := by
  refine .table_bind fun table table' tables le => ?_
  have pair := le.scopes paired
  have add {inherited inherited' : List SymbolId}
      (alike : List.Forall₂ (lock.upTo table).symbols inherited inherited') :
      Runs lock table (addSymbol scope spec.key .empty (.generic ⟨spec.kind, inherited⟩) span)
        (addSymbol scope' spec.key .empty (.generic ⟨spec.kind, inherited'⟩) span)
        fun larger => larger.symbols :=
    runs_addSymbol pair (lock.binds_of_defined defined scope) (fun _ => rfl)
      (genericDetails_alike spec.kind alike) span span
  have found := visibleGeneric_alike tables pair (lock.compares_of_name allowed)
  dsimp only
  refine relCases found (add .nil) fun _ _ known => ?_
  exact .ite ((lock.exact_upTo _).scope_eq_iff (tables.alike.symbol known.1).owner pair)
    (fun _ => .pure fun _ more => more.symbols known.1) fun _ => add known.2

theorem genericSymbol_named (matched : Matched lock state state') (scope : ScopeId) (spec : Tree.GenericSpec)
    (span : Span) :
    ((genericSymbol scope spec span).run state).2.table.Named
      ((genericSymbol scope spec span).run state).1 spec.key.toLower := by
  rw [genericSymbol, run_table_bind]
  generalize isFound : (state.table.visible? scope spec.key).bind _ = found
  rcases found with _ | ⟨id, specifics⟩
  · exact addSymbol_named _ _ _ _ _ state
  · dsimp only
    split
    · obtain ⟨known, isKnown, isGeneric⟩ := Option.bind_eq_some_iff.mp isFound
      obtain ⟨details, -, same⟩ := Option.map_eq_some_iff.mp isGeneric
      obtain rfl : known = id := congrArg Prod.fst same
      exact matched.tables.named_of_visible? isKnown
    · exact addSymbol_named _ _ _ _ _ state

theorem runs_namedSpecific (paired : (lock.upTo world).scopes scope scope') {name : Tree.Located}
    (allowed : lock.allows name.mention) :
    Runs lock world (namedSpecific scope name) (namedSpecific scope' name) fun larger => Option.Rel larger.symbols := by
  refine .table_bind fun table table' tables le => ?_
  have found := tables.alike.visible? (le.scopes paired) (lock.compares_of_name allowed)
  have missing (fault : ResolutionFault) : Runs lock table (report fault name.span >>= fun _ => pure none)
      (report fault name.span >>= fun _ => pure none) fun larger => Option.Rel larger.symbols :=
    .bind (runs_report _ _ _) fun _ _ _ _ _ => .pure fun _ _ => .none
  refine relCases found (missing _) fun id id' pair => ?_
  have details := tables.alike.details pair
  have specific : Runs lock table (pure (some id)) (pure (some id'))
      fun larger => Option.Rel larger.symbols :=
    .pure fun _ more => .some (more.symbols pair)
  dsimp only
  generalize table.details id = details, table'.details id' = details' at details
  cases details with
  | subprogram => exact specific
  | procEntity same =>
    exact .ite (iff_of_eq (congrArg (· = true) (relIsSome same.interface))) (fun _ => specific) fun _ => missing _
  | _ => exact missing _

theorem runs_resolveGeneric {pending pending' : PendingGeneric}
    (alike : pending.Alike lock (lock.upTo world) pending') :
    Runs lock world (resolveGeneric pending) (resolveGeneric pending') Unrelated := by
  unfold resolveGeneric
  rw [← alike.names]
  refine .bind (.mapM persists_symbols.rel fun _ name le member => ?_) fun _ specifics specifics' le same => ?_
  · refine runs_namedSpecific (le.scopes alike.scope) (lock.looksAt (alike.stored _ ?_))
    exact List.mem_map_of_mem (List.mem_map_of_mem member)
  · exact runs_addSpecifics (le.symbols alike.generic) (List.rel_filterMap (fun _ _ found => found) same)

section Bindings

variable {pending pending' : PendingBindings} (alike : pending.Alike lock (lock.upTo world) pending')
include alike

theorem runs_addBound {attributes : Attributes} (same : details.Alike (lock.upTo world) details') (span : Span) :
    Runs lock world (addSymbol pending.typeScope name attributes details span >>= addBinding pending.type)
      (addSymbol pending'.typeScope name attributes details' span >>= addBinding pending'.type) Unrelated :=
  .bind (runs_addSymbol alike.typeScope (alike.free _) (fun _ => rfl) same span span) fun _ _ _ le pair =>
    runs_addBinding (le.symbols alike.type) pair

theorem runs_declareSpecificBinding (name : String) {target : String} (allowed : lock.allows (.ofName target))
    (attributes : List Tree.AttributeSpec) (span : Span) :
    Runs lock world (declareSpecificBinding pending name target attributes span)
      (declareSpecificBinding pending' name target attributes span) Unrelated := by
  refine .table_bind fun table table' tables le => ?_
  have found := tables.alike.visible?_filter (le.scopes alike.scope) (lock.compares_of_name allowed)
    Details.Alike.isProcedure
  refine relCases found (runs_report _ _ _) fun procedure procedure' pair => ?_
  have details (passName : Option String) : Details.Alike (lock.upTo table)
      (.binding ⟨procedure, passName⟩) (.binding ⟨procedure', passName⟩) :=
    .binding ⟨pair, rfl⟩
  exact runs_addBound (alike.mono le.le) (details _) span

theorem runs_namedBinding (allowed : lock.allows (.ofName name)) (span : Span) :
    Runs lock world (namedBinding pending.type span name) (namedBinding pending'.type span name)
      fun larger => Option.Rel larger.symbols := by
  refine .table_bind fun table table' tables le => ?_
  have pair := le.symbols alike.type
  have found : Option.Rel (lock.upTo table).symbols
      ((table.component? pending.type name).filter fun id => (table.details id).isBinding)
      ((table'.component? pending'.type name).filter fun id => (table'.details id).isBinding) :=
    tables.alike.filter_details (tables.alike.component? pair (lock.compares_of_name allowed)) Details.Alike.isBinding
  rw [(tables.alike.symbol pair).name]
  exact relCases found (.bind (runs_report _ _ _) fun _ _ _ _ _ => .pure fun _ _ => .none) fun _ _ pair =>
    .pure fun _ more => .some (more.symbols pair)

theorem runs_declareGenericBinding (allowed : lock.allows (.ofName spec.key)) {specifics : List String}
    (permits : lock.Permits (specifics.map Mention.ofName)) (span : Span) :
    Runs lock world (declareGenericBinding pending spec specifics span)
      (declareGenericBinding pending' spec specifics span) Unrelated := by
  have compared := lock.compares_of_name allowed
  refine .table_bind fun before before' befores le => ?_
  have inherited : List.Forall₂ (lock.upTo before).symbols
      (((before.component? pending.type spec.key).map before.specifics).getD [])
      (((before'.component? pending'.type spec.key).map before'.specifics).getD []) := by
    have found := befores.alike.component? (le.symbols alike.type) compared
    exact relCases found .nil fun _ _ pair => befores.alike.specifics pair
  refine .bind (.mapM persists_symbols.rel fun _ name more member => ?_) fun _ named named' more same => ?_
  · exact runs_namedBinding (alike.mono (le.trans more).le) (permits _ (List.mem_map_of_mem member)) span
  refine .table_bind fun table table' tables most => ?_
  have since := le.trans (more.trans most)
  have all : List.Forall₂ (lock.upTo table).symbols
      (((before.component? pending.type spec.key).map before.specifics).getD [] ++ named.filterMap id)
      (((before'.component? pending'.type spec.key).map before'.specifics).getD [] ++ named'.filterMap id) := by
    refine List.rel_append (inherited.imp fun _ _ => (more.trans most).symbols) ?_
    exact List.rel_filterMap (fun _ _ found => relMono most.symbols found) same
  have found : Option.Rel (lock.upTo table).symbols
      (((table.scope pending.typeScope).find? spec.key).filter fun id => (table.details id).generic?.isSome)
      (((table'.scope pending'.typeScope).find? spec.key).filter fun id =>
        (table'.details id).generic?.isSome) :=
    tables.alike.filter_details ((tables.alike.scope (since.scopes alike.typeScope)).find? (compared _))
      Details.Alike.isGeneric
  generalize ((table.scope pending.typeScope).find? spec.key).filter _ = here,
    ((table'.scope pending'.typeScope).find? spec.key).filter _ = here' at found
  cases found with
  | some pair => exact runs_setSpecifics pair all
  | none => exact runs_addBound (alike.mono since.le) (genericDetails_alike spec.kind all) span

theorem runs_declareBinding {binding : Tree.Binding} (permits : lock.Permits binding.mentions) :
    Runs lock world (declareBinding pending binding) (declareBinding pending' binding) Unrelated := by
  cases binding with
  | specific name procedure interface attributes span =>
    rw [Tree.Binding.mentions, Permits.cons, Permits.append] at permits
    obtain ⟨own, permitsProcedure, permitsInterface⟩ := permits
    refine runs_declareSpecificBinding alike name ?_ attributes span
    cases interface with
    | some interface => exact permitsInterface _ (.head _)
    | none =>
      cases procedure with
      | some procedure => exact permitsProcedure _ (.head _)
      | none => exact own
  | generic spec specifics span =>
    rw [Tree.Binding.mentions, Permits.cons] at permits
    exact runs_declareGenericBinding alike permits.1 permits.2 span

theorem runs_declareBindings :
    Runs lock world (pending.bindings.forM (declareBinding pending))
      (pending'.bindings.forM (declareBinding pending')) Unrelated := by
  rw [← alike.bindings]
  refine .forM fun _ binding le member => runs_declareBinding (alike.mono le.le) fun mention mentioned => ?_
  refine lock.looksAt (alike.stored _ (List.mem_map_of_mem ?_))
  exact List.mem_flatMap.mpr ⟨binding, member, mentioned⟩

end Bindings

theorem runs_resolvePending : Runs lock world resolvePending resolvePending Unrelated := by
  refine .get_bind fun state state' matched _ => ?_
  refine .bind (.modify fun _ _ other _ => ⟨.refl _, { other with generics := .nil }⟩) fun _ _ _ le _ => ?_
  refine .bind (.forM₂ matched.generics fun _ _ _ more alike =>
    runs_resolveGeneric (alike.mono (le.trans more).le)) fun _ _ _ _ _ => ?_
  refine .get_bind fun next next' others _ => ?_
  refine .bind (.modify fun _ _ other _ => ⟨.refl _, { other with bindings := .nil }⟩) fun _ _ _ more _ => ?_
  exact .forM₂ others.bindings fun _ _ _ most alike => runs_declareBindings (alike.mono (more.trans most).le)

/-! Undeclared names. -/

theorem untypedObjects_alike {table table' : Table} (tables : Tables lock table table')
    (paired : (lock.upTo table).scopes scope scope') (shown : ∀ key, lock.exempt scope key = false) :
    List.Forall₂ (EntryAlike (lock.upTo table)) (untypedObjects table scope) (untypedObjects table' scope') := by
  have names := (tables.alike.scope paired).names
  rw [NameMap.compared_of_shown _ shown, NameMap.compared_of_shown _ shown] at names
  refine filter_alike names fun entry => ?_
  have symbols := tables.alike.symbol entry.2
  have owner := (lock.exact_upTo _).scope_eq_iff symbols.owner paired
  have details := symbols.details
  refine congrArg₂ and (decide_eq_decide.mpr owner) ?_
  generalize (table.symbol _).details = found, (table'.symbol _).details = found' at details
  cases details with
  | object same => simp only [← Option.not_isSome, relIsSome same.type]
  | _ => rfl

theorem typeImplicitly_eq (scope : ScopeId) (name : String) (id : SymbolId) :
    typeImplicitly scope name id =
      (do
        let span := ((← table).symbol id).span
        match ← (implicitType scope name span).run with
        | some type =>
          change fun table => table.addUsage id .implicitlyTyped
          setType id type
        | none => return) :=
  rfl

theorem ownedFrom_alike {early early' late late' : Table} (befores : Tables lock early early')
    (afters : Tables lock late late') (grows : early.Grows late) (paired : (lock.upTo late).scopes scope scope') :
    List.Forall₂ (lock.upTo late).symbols (ownedFrom late early.symbols.size scope)
      (ownedFrom late' early'.symbols.size scope') := by
  obtain ⟨count, size⟩ := Nat.exists_eq_add_of_le grows.symbols_le
  have size' : late'.symbols.size = early'.symbols.size + count := by
    have ends := afters.symbolsAhead 0
    rw [size] at ends
    have same := (lock.exact.symbols ends (befores.symbolsAhead count)).mp rfl
    simpa using same
  unfold ownedFrom
  rw [size, size', Nat.add_sub_cancel_left, Nat.add_sub_cancel_left, List.range'_eq_map_range,
    List.range'_eq_map_range, List.map_map, List.map_map]
  have added : List.Forall₂ (lock.upTo late).symbols
      ((List.range count).map (SymbolId.mk ∘ (early.symbols.size + ·)))
      ((List.range count).map (SymbolId.mk ∘ (early'.symbols.size + ·))) := by
    refine List.forall₂_map_left_iff.mpr (List.forall₂_map_right_iff.mpr (List.forall₂_same.mpr ?_))
    intro place member
    have bound := List.mem_range.mp member
    exact ⟨befores.symbolsAhead place, by simp only [Function.comp_apply, size]; omega⟩
  refine filter_alike added fun pair => ?_
  exact decide_eq_decide.mpr ((lock.exact_upTo _).scope_eq_iff (afters.alike.symbol pair).owner paired)

theorem permits_kept {mentions : List Mention} :
    lock.Permits (Tree.keptMentions mentions) ↔ lock.Permits mentions ∧ lock.Permits (mentions.map Mention.stored) :=
  Permits.append

section

variable (paired : (lock.upTo world).scopes scope scope')
include paired

theorem runs_typeImplicitly (known : (lock.upTo world).symbols id id') (name : String) :
    Runs lock world (typeImplicitly scope name id) (typeImplicitly scope' name id') Unrelated := by
  rw [typeImplicitly_eq, typeImplicitly_eq]
  refine .table_bind fun _ _ _ le => ?_
  refine .bind (typesNames_implicitType name _ _ (le.scopes paired)) fun later type type' more types => ?_
  cases types with
  | none => exact .pure fun _ _ => trivial
  | some alike =>
    have pair := more.symbols (le.symbols known)
    exact .bind (runs_addUsage pair .implicitlyTyped) fun _ _ _ most _ =>
      runs_setType (most.symbols pair) (alike.mono most.le)

theorem runs_applyImplicitTypes (shown : ∀ key, lock.exempt scope key = false) :
    Runs lock world (applyImplicitTypes scope) (applyImplicitTypes scope') Unrelated := by
  refine .table_bind fun table table' tables le => ?_
  refine .forM₂ (untypedObjects_alike tables (le.scopes paired) shown) fun _ entry entry' more same => ?_
  obtain ⟨name, id⟩ := entry
  obtain ⟨name', id'⟩ := entry'
  obtain ⟨rfl, pair⟩ : name = name' ∧ (lock.upTo table).symbols id id' := same
  exact runs_typeImplicitly ((le.trans more).scopes paired) (more.symbols pair) name

/-! Derived types and interfaces. -/

theorem runs_parentType (name : String) (span : Span)
    {parent : Option String} (permits : lock.Permits (Tree.nameMentions parent)) :
    Runs lock world (parentType scope name span parent) (parentType scope' name span parent)
      fun larger => Option.Rel larger.symbols := by
  cases parent with
  | none => exact .pure fun _ _ => .none
  | some parent =>
    refine .table_bind fun table table' tables le => ?_
    have found := tables.alike.visible?_filter (le.scopes paired)
      (lock.compares_of_name (permits _ (.head _))) Details.Alike.isDerivedType
    exact relCases found (.bind (runs_report _ _ _) fun _ _ _ _ _ => .pure fun _ _ => .none) fun _ _ pair =>
      .pure fun _ more => .some (more.symbols pair)

theorem runs_closeGeneric (known : (lock.upTo world).symbols id id') (named : world.Named id spec.key.toLower)
    (defined : lock.allows (.ofDefined spec.key)) (alike : List.Forall₂ (lock.upTo world).symbols specifics specifics')
    (stored : lock.Permits ((names.map Tree.Located.mention).map Mention.stored)) :
    Runs lock world (closeGeneric scope spec id specifics names)
      (closeGeneric scope' spec id' specifics' names) Unrelated := by
  refine .bind (.change fun table table' tables le => ⟨.bindName table scope spec.key id, ?_⟩) fun _ _ _ le _ => ?_
  · have here := le.named named
    exact tables.bindName (le.scopes paired) (lock.binds_of_defined defined scope) (le.symbols known) here
      (tables.orderly.plain_of_defined here defined)
  refine .bind (runs_addSpecifics (le.symbols known) (alike.imp fun _ _ => le.symbols)) fun _ _ _ more _ => ?_
  refine .ite Iff.rfl (fun _ => ?_) fun _ => .pure fun _ _ => trivial
  refine .modify fun state state' matched most => ⟨.refl _, { matched with generics := ?_ }⟩
  have since := le.trans (more.trans most)
  exact List.rel_append matched.generics (.cons ⟨since.scopes paired, since.symbols known, rfl, stored⟩ .nil)

theorem runs_closeSpecification (shown : ∀ key, lock.exempt scope key = false) :
    Runs lock world (closeSpecification scope) (closeSpecification scope') Unrelated :=
  .bind runs_resolvePending fun _ _ _ le _ => runs_applyImplicitTypes (le.scopes paired) shown

theorem runs_setImplicitNone :
    Runs lock world (change fun table => table.setImplicitNone scope)
      (change fun table => table.setImplicitNone scope') Unrelated := by
  refine .change fun table table' tables le => ⟨.modifyScope table scope fun _ => rfl, ?_⟩
  have before := tables.alike.scope (le.scopes paired)
  exact tables.modifyScope_of_names (le.scopes paired) ⟨before.kind, before.parent, before.symbol,
    before.names, before.sorted, before.sorted'⟩ rfl (fun _ => rfl) fun _ => rfl

theorem runs_implicitRules {rules : List Tree.ImplicitRule} (permits : lock.Permits (Tree.ruleMentions rules)) :
    Runs lock world (rules.forM fun rule => changeImplicit scope (·.addRule rule))
      (rules.forM fun rule => changeImplicit scope' (·.addRule rule)) Unrelated := by
  refine .forM fun _ rule le member => runs_changeImplicit (le.scopes paired) fun typing before => ?_
  rw [ImplicitTyping.addRule, Tree.ruleMentions, List.flatMap_append, List.map_append, Permits.append]
  refine ⟨before, fun mention mentioned => permits mention ?_⟩
  obtain ⟨inner, isInner, rfl⟩ := List.mem_map.mp mentioned
  obtain ⟨other, isOther, isMention⟩ := List.mem_flatMap.mp isInner
  obtain rfl := List.mem_singleton.mp isOther
  exact List.mem_map_of_mem (List.mem_flatMap.mpr ⟨other, member, isMention⟩)

theorem runs_entities {type : Tree.TypeSpec} {entities : List Tree.Entity} (permitsType : lock.Permits type.mentions)
    (permitsAttributes : lock.Permits (attributes.flatMap Tree.AttributeSpec.mentions))
    (permits : lock.Permits (entities.flatMap Tree.Entity.mentions)) :
    Runs lock world (entities.forM (declareEntity scope type attributes))
      (entities.forM (declareEntity scope' type attributes)) Unrelated :=
  .forM fun _ entity le member => runs_declareEntity (le.scopes paired) permitsType permitsAttributes
    fun mention mentioned => permits mention (List.mem_flatMap.mpr ⟨entity, member, mentioned⟩)

end

theorem runs_waitForBindings {type type' : SymbolId} {typeScope typeScope' : ScopeId}
    (types : (lock.upTo world).symbols type type') (typeScopes : (lock.upTo world).scopes typeScope typeScope')
    (free : lock.Free typeScope) (paired : (lock.upTo world).scopes scope scope') {bindings : List Tree.Binding}
    (stored : lock.Permits ((bindings.flatMap Tree.Binding.mentions).map Mention.stored)) :
    Runs lock world
      (if !bindings.isEmpty then
        modify fun state =>
          { state with pendingBindings := state.pendingBindings ++ [⟨type, typeScope, scope, bindings⟩] }
      else pure ())
      (if !bindings.isEmpty then
        modify fun state =>
          { state with pendingBindings := state.pendingBindings ++ [⟨type', typeScope', scope', bindings⟩] }
      else pure ()) Unrelated := by
  refine .ite Iff.rfl (fun _ => ?_) fun _ => .pure fun _ _ => trivial
  refine .modify fun state state' matched le => ⟨.refl _, { matched with bindings := ?_ }⟩
  exact List.rel_append matched.bindings
    (.cons ⟨le.symbols types, le.scopes typeScopes, le.scopes paired, rfl, stored, free⟩ .nil)

mutual

theorem runs_declaration : (decl : Tree.Decl) → {world : Table} → {scope scope' : ScopeId} →
    (lock.upTo world).scopes scope scope' → lock.Permits decl.mentions →
    (decl.isUse = true → lock.Free scope) →
    Runs lock world (declaration scope decl) (declaration scope' decl) Unrelated
  | .use module span, _, _, _, paired, permits, uses => by
    rw [declaration, declaration]
    exact runs_useModule paired (uses rfl) (permits _ (.head _)) span
  | .implicitNone _, _, _, _, paired, _, _ => by
    rw [declaration, declaration]
    refine .bind (runs_changeImplicit paired fun typing before => ?_) fun _ _ _ le _ => ?_
    · exact before
    · exact runs_setImplicitNone (le.scopes paired)
  | .implicit rules _, _, _, _, paired, permits, _ => by
    rw [declaration, declaration]
    rw [Tree.Decl.mentions] at permits
    exact runs_implicitRules paired permits
  | .entities type attributes entities _, _, _, _, paired, permits, _ => by
    rw [declaration, declaration]
    rw [Tree.Decl.mentions, Permits.append, Permits.append] at permits
    exact runs_entities paired permits.1.1 permits.1.2 permits.2
  | .attributes attr names _, _, _, _, paired, permits, _ => by
    rw [declaration, declaration]
    rw [Tree.Decl.mentions, Permits.append] at permits
    exact runs_declareAttributes paired permits.1 permits.2
  | .procedure interface attributes names span, _, _, _, paired, permits, _ => by
    rw [declaration, declaration]
    rw [Tree.Decl.mentions, Permits.append] at permits
    exact runs_declareProcedures paired permits.1 attributes permits.2 span
  | .interface ⟨.unnamed, bodies, _, _⟩, _, _, _, paired, permits, _ => by
    rw [declaration, declaration]
    exact .bind (runs_interfaceBodies bodies false paired permits) fun _ _ _ _ _ => .pure fun _ _ => trivial
  | .interface ⟨.abstract, bodies, _, _⟩, _, _, _, paired, permits, _ => by
    rw [declaration, declaration]
    exact .bind (runs_interfaceBodies bodies true paired permits) fun _ _ _ _ _ => .pure fun _ _ => trivial
  | .interface ⟨.generic spec, bodies, names, span⟩, _, _, _, paired, permits, _ => by
    rw [declaration, declaration]
    rw [Tree.Decl.mentions, Permits.cons, Permits.cons, Permits.append, permits_kept] at permits
    obtain ⟨allowed, defined, permitsBodies, -, stored⟩ := permits
    refine .bind_knowing (fun later id => later.Named id spec.key.toLower)
      (runs_genericSymbol paired allowed defined span)
      (fun _ _ matched _ => genericSymbol_named matched _ spec span) fun _ generic generic' le pair named => ?_
    refine .bind (runs_interfaceBodies bodies false (le.scopes paired) permitsBodies)
      fun _ specifics specifics' more alike => ?_
    exact runs_closeGeneric ((le.trans more).scopes paired) (more.symbols pair) (more.named named) defined alike
      stored
  | .derivedType ⟨name, parent, isAbstract, components, bindings, span⟩, _, _, _, paired, permits, _ => by
    rw [declaration, declaration]
    rw [Tree.Decl.mentions, Permits.cons, Permits.cons, Permits.append, Permits.append, permits_kept] at permits
    obtain ⟨-, defined, ⟨permitsParent, permitsComponents⟩, -, stored⟩ := permits
    refine .bind (runs_parentType paired name span permitsParent) fun _ parent parent' le parents => ?_
    have details : Details.Alike (lock.upTo _) (.derivedType ⟨parent, [], [], none⟩)
        (.derivedType ⟨parent', [], [], none⟩) :=
      .derivedType ⟨parents, .nil, .nil, .none⟩
    refine .bind (runs_addSymbol (le.scopes paired) (lock.binds_of_defined defined _) (fun _ => rfl) details
      span span) fun _ id id' more pair => ?_
    refine .bind (runs_addScope _ _ _ ((le.trans more).scopes paired) (.some pair))
      fun _ typeScope typeScope' most opened => ?_
    obtain ⟨typeScopes, plain⟩ := opened
    refine .table_bind fun _ _ befores last => ?_
    refine .bind (runs_declarations components (last.scopes typeScopes) permitsComponents
      fun _ _ _ => plain.free) fun _ _ _ next _ => ?_
    refine .table_bind fun _ _ afters final => ?_
    have inner := last.trans (next.trans final)
    have since := le.trans (more.trans (most.trans inner))
    have owned := ownedFrom_alike befores afters (next.trans final) (inner.scopes typeScopes)
    refine .bind (runs_setTypeParts ((most.trans inner).symbols pair) (inner.scopes typeScopes) owned)
      fun _ _ _ after _ => ?_
    exact runs_waitForBindings ((most.trans (inner.trans after)).symbols pair)
      ((inner.trans after).scopes typeScopes) plain.free ((since.trans after).scopes paired) stored

theorem runs_declarations : (decls : List Tree.Decl) → {world : Table} → {scope scope' : ScopeId} →
    (lock.upTo world).scopes scope scope' → lock.Permits (Tree.declMentions decls) →
    (∀ decl ∈ decls, decl.isUse = true → lock.Free scope) →
    Runs lock world (declarations scope decls) (declarations scope' decls) Unrelated
  | [], _, _, _, _, _, _ => by
    rw [declarations, declarations]
    exact .pure fun _ _ => trivial
  | decl :: decls, _, _, _, paired, permits, uses => by
    rw [declarations, declarations]
    rw [Tree.declMentions, Permits.append] at permits
    exact .bind (runs_declaration decl paired permits.1 (uses decl (.head _))) fun _ _ _ le _ =>
      runs_declarations decls (le.scopes paired) permits.2 fun other member => uses other (.tail _ member)

theorem runs_interfaceBodies : (bodies : List Tree.Subprogram) → {world : Table} →
    {scope scope' : ScopeId} → (isAbstract : Bool) → (lock.upTo world).scopes scope scope' →
    lock.Permits (Tree.subprogramMentions bodies) →
    Runs lock world (interfaceBodies scope isAbstract bodies) (interfaceBodies scope' isAbstract bodies)
      fun larger => List.Forall₂ larger.symbols
  | [], _, _, _, _, _, _ => by
    rw [interfaceBodies, interfaceBodies]
    exact .pure fun _ _ => .nil
  | body :: bodies, _, _, _, isAbstract, paired, permits => by
    rw [interfaceBodies, interfaceBodies]
    rw [Tree.subprogramMentions, Permits.append] at permits
    refine .bind (runs_interfaceBody body isAbstract paired permits.1) fun _ _ _ le pair => ?_
    refine .bind (runs_interfaceBodies bodies isAbstract (le.scopes paired) permits.2) fun _ _ _ more others => ?_
    exact .pure fun _ most => .cons ((more.trans most).symbols pair) (others.imp fun _ _ => most.symbols)

theorem runs_interfaceBody : (body : Tree.Subprogram) → {world : Table} → {scope scope' : ScopeId} →
    (isAbstract : Bool) → (lock.upTo world).scopes scope scope' → lock.Permits body.mentions →
    Runs lock world (interfaceBody scope isAbstract body) (interfaceBody scope' isAbstract body)
      fun larger => larger.symbols
  | ⟨kind, name, modifiers, dummies, bindC, spec, body, contains, span⟩, _, _, _, isAbstract, paired,
      permits => by
      rw [interfaceBody, interfaceBody]
      rw [Tree.Subprogram.mentions, Permits.cons, Permits.cons, Permits.append, Permits.append, Permits.append,
        Permits.append] at permits
      obtain ⟨allowed, defined, ⟨⟨⟨permitsKind, -⟩, permitsSpec⟩, -⟩, -⟩ := permits
      refine .bind (runs_declareSubprogram paired ⟨kind, name, modifiers, dummies, bindC, spec, body, contains,
        span⟩ allowed defined _) fun _ found found' le same => ?_
      obtain ⟨pair, scopes, plain⟩ := same
      refine .bind (runs_declarations spec scopes permitsSpec fun _ _ _ => plain.free) fun _ _ _ more _ => ?_
      refine .bind (runs_typeResult (more.scopes scopes) permitsKind) fun _ _ _ most _ => ?_
      refine .bind (runs_closeSpecification ((more.trans most).scopes scopes) plain.shown) fun _ _ _ last _ => ?_
      exact .pure fun _ final => (more.trans (most.trans (last.trans final))).symbols pair

end

theorem permits_of_mem {subprograms : List Tree.Subprogram}
    (permits : lock.Permits (Tree.subprogramMentions subprograms)) (member : subprogram ∈ subprograms) :
    lock.Permits subprogram.mentions := by
  induction subprograms with
  | nil => cases member
  | cons first rest ih =>
    rw [Tree.subprogramMentions, Permits.append] at permits
    rcases List.mem_cons.mp member with rfl | later
    · exact permits.1
    · exact ih permits.2 later

end Resolve

end FortranInterface
