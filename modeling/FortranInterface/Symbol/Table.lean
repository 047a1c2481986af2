import FortranInterface.Symbol.Details
import FortranInterface.Symbol.NameMap

/-!
The symbol table: symbols and scopes, each known by its place. Nothing is ever removed; a name that
is declared again stands for its newest symbol.
-/

namespace FortranInterface

structure Symbol where
  name : String
  attributes : Attributes
  usage : Flags Usage
  details : Details
  owner : ScopeId
  span : Span

namespace Symbol

def has (symbol : Symbol) (attr : Attribute) : Bool :=
  symbol.attributes.has attr

def intent (symbol : Symbol) : Intent :=
  if symbol.has .intentIn then .in
  else if symbol.has .intentOut then .out
  else if symbol.has .intentInOut then .inOut
  else .unspecified

def isPointer (symbol : Symbol) : Bool :=
  symbol.has .pointer

def isAllocatable (symbol : Symbol) : Bool :=
  symbol.has .allocatable

/-- The number of declared dimensions; an object of assumed rank has none. -/
def rank (symbol : Symbol) : Nat :=
  match symbol.details with
  | .object object => if object.shape.isAssumedRank then 0 else object.shape.length
  | _ => 0

def corank (symbol : Symbol) : Nat :=
  match symbol.details with
  | .object object => object.coshape.length
  | _ => 0

def missing : Symbol :=
  ⟨"", .empty, .empty, .unresolved, ⟨0⟩, ⟨0, 0⟩⟩

end Symbol

inductive ScopeKind where
  | global
  | module
  | mainProgram
  | subprogram
  | interface
  | derivedType
  | block
  deriving DecidableEq

instance : Enumerated ScopeKind where
  all := [.global, .module, .mainProgram, .subprogram, .interface, .derivedType, .block]
  complete := by intro kind; cases kind <;> decide
  label
    | .global => "Global"
    | .module => "Module"
    | .mainProgram => "MainProgram"
    | .subprogram => "Subprogram"
    | .interface => "Interface"
    | .derivedType => "DerivedType"
    | .block => "Block"

structure Scope where
  kind : ScopeKind
  name : Option String
  parent : Option ScopeId
  symbol : Option SymbolId
  implicitNone : Bool
  names : NameMap

namespace Scope

def globalScope : Scope :=
  ⟨.global, none, none, none, false, .empty⟩

def find? (scope : Scope) (name : String) : Option SymbolId :=
  scope.names.find? name.toLower

end Scope

structure Table where
  symbols : Array Symbol
  scopes : Array Scope

namespace Table

def empty : Table :=
  ⟨#[], #[Scope.globalScope]⟩

def global : ScopeId :=
  ⟨0⟩

def symbol (table : Table) (id : SymbolId) : Symbol :=
  table.symbols.getD id.index Symbol.missing

def scope (table : Table) (id : ScopeId) : Scope :=
  table.scopes.getD id.index Scope.globalScope

def details (table : Table) (id : SymbolId) : Details :=
  (table.symbol id).details

def ids (table : Table) : List SymbolId :=
  (List.range table.symbols.size).map SymbolId.mk

/-! Changes. -/

def modifySymbol (table : Table) (id : SymbolId) (change : Symbol → Symbol) : Table :=
  { table with symbols := table.symbols.modify id.index change }

def modifyScope (table : Table) (id : ScopeId) (change : Scope → Scope) : Table :=
  { table with scopes := table.scopes.modify id.index change }

def setDetails (table : Table) (id : SymbolId) (details : Details) : Table :=
  table.modifySymbol id fun symbol => { symbol with details }

def addUsage (table : Table) (id : SymbolId) (usage : Usage) : Table :=
  table.modifySymbol id fun symbol => { symbol with usage := symbol.usage.insert usage }

def addAttribute (table : Table) (id : SymbolId) (attr : Attribute) : Table :=
  table.modifySymbol id fun symbol => { symbol with attributes := symbol.attributes.insert attr }

def setImplicitNone (table : Table) (scope : ScopeId) : Table :=
  table.modifyScope scope fun found => { found with implicitNone := true }

def bindName (table : Table) (scope : ScopeId) (name : String) (id : SymbolId) : Table :=
  table.modifyScope scope fun found => { found with names := found.names.insert name.toLower id }

def addScope (table : Table) (kind : ScopeKind) (name : Option String) (parent : ScopeId)
    (symbol : Option SymbolId) : ScopeId × Table :=
  let added : Scope := ⟨kind, name, some parent, symbol, (table.scope parent).implicitNone, .empty⟩
  (⟨table.scopes.size⟩, { table with scopes := table.scopes.push added })

def addSymbol (table : Table) (scope : ScopeId) (name : String) (attributes : Attributes)
    (details : Details) (span : Span) : SymbolId × Table :=
  let id : SymbolId := ⟨table.symbols.size⟩
  let added : Symbol := ⟨name.toLower, attributes, .empty, details, scope, span⟩
  (id, { table with symbols := table.symbols.push added }.bindName scope name id)

/-! Scopes and their hosts. -/

/-- A scope and the scopes around it, from the inside. A scope is made after its host. -/
def hosts (table : Table) (id : ScopeId) : List ScopeId :=
  match (table.scope id).parent with
  | some parent => if parent.index < id.index then id :: table.hosts parent else [id]
  | none => [id]
termination_by id.index

def find? (table : Table) (scope : ScopeId) (name : String) : Option SymbolId :=
  (table.hosts scope).findSome? fun host => (table.scope host).find? name

def isWithin (table : Table) (inner outer : ScopeId) : Bool :=
  decide (outer ∈ table.hosts inner)

def containingModule? (table : Table) (scope : ScopeId) : Option ScopeId :=
  (table.hosts scope).find? fun host => (table.scope host).kind = .module

/-- A protected symbol may be changed only inside the module that declares it. -/
def isProtectedFrom (table : Table) (id : SymbolId) (scope : ScopeId) : Bool :=
  let symbol := table.symbol id
  symbol.has .protected &&
    match table.containingModule? symbol.owner with
    | some module => !table.isWithin scope module
    | none => false

/-! Derived types. -/

def derivedChainWithin (table : Table) : Nat → SymbolId → Option (List String)
  | 0, _ => none
  | links + 1, id =>
    match table.details id with
    | .derivedType type =>
      match type.parent with
      | some parent =>
        (table.derivedChainWithin links parent).map ((table.symbol id).name :: ·)
      | none => some [(table.symbol id).name]
    | _ => none

/-- The derived type that a symbol declares. No chain of distinct symbols is longer than the
table. -/
def derivedName? (table : Table) (id : SymbolId) : Option DerivedName :=
  match table.derivedChainWithin table.symbols.size id with
  | some (name :: ancestors) => some ⟨name, ancestors⟩
  | _ => none

/-! Chains of interfaces. -/

def chainWithin (table : Table) (next : Details → Option SymbolId) : Nat → SymbolId → List SymbolId
  | 0, id => [id]
  | links + 1, id =>
    match next (table.details id) with
    | some following => id :: table.chainWithin next links following
    | none => [id]

def chain (table : Table) (next : Details → Option SymbolId) (id : SymbolId) : List SymbolId :=
  table.chainWithin next table.symbols.size id

def chainEnd (table : Table) (next : Details → Option SymbolId) (id : SymbolId) : SymbolId :=
  (table.chain next id).getLastD id

end Table

end FortranInterface
