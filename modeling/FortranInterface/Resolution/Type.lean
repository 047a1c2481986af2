import FortranInterface.Resolution.Expression

/-!
Declared types and array bounds with their expressions resolved, and the types of undeclared names.
-/

namespace FortranInterface

namespace Resolve

open Attempt

section

variable (analyze : ScopeId → Tree.Expr → Attempt Expr)

def kindWith (scope : ScopeId) (category : Category) (kind : Option Tree.Expr) (span : Span) :
    Attempt Nat := do
  match kind with
  | none => return category.defaultKind
  | some kind =>
    let value ← analyze scope kind
    let table ← table
    match table.foldInteger (table.foldKindInquiry value) with
    | some value =>
      if 0 ≤ value && category.isValidKind value.toNat then return value.toNat
      else fail (.unsupportedKind category value) span
    | none => fail .kindNotConstant span

def lengthWith (scope : ScopeId) : Tree.Length → Attempt CharLength
  | .expr value => do
    let length ← analyze scope value
    return .explicit ((← table).fold length)
  | .assumed => return .assumed
  | .deferred => return .deferred

def derivedType (scope : ScopeId) (name : String) (span : Span) : Attempt SymbolId := do
  let table ← table
  match (table.visible? scope name).filter fun id => (table.details id).isDerivedType with
  | some id => return id
  | none => fail (.derivedTypeNotFound name) span

def numericWith (scope : ScopeId) (category : Category) (kind : Option Tree.Expr) (span : Span) :
    Attempt DeclaredType := do
  return .intrinsic category (← kindWith analyze scope category kind span) none

/-- A type specification. A length that an entity has of its own goes before that of the type. -/
def declaredTypeWith (scope : ScopeId) (spec : Tree.TypeSpec) (ownLength : Option Tree.Length)
    (span : Span) : Attempt DeclaredType :=
  match spec with
  | .integer kind => numericWith analyze scope .integer kind span
  | .real kind => numericWith analyze scope .real kind span
  | .doublePrecision => return .intrinsic .real 8 none
  | .complex kind => numericWith analyze scope .complex kind span
  | .logical kind => numericWith analyze scope .logical kind span
  | .character length kind => do
    let kind ← kindWith analyze scope .character kind span
    match ownLength.or length with
    | some length => return .intrinsic .character kind (some (← lengthWith analyze scope length))
    | none => return .intrinsic .character kind none
  | .type name => .type <$> derivedType scope name span
  | .classOf name => .classOf <$> derivedType scope name span
  | .typeStar => return .typeStar
  | .classStar => return .classStar

end

def implicitTypeWithin : Nat → ScopeId → String → Span → Attempt DeclaredType
  | 0, _, _, _ => failure
  | depth + 1, scope, name, span => do
    match ((← get).implicitFor scope).typeOf? name with
    | some spec => declaredTypeWith (expr (implicitTypeWithin depth)) scope spec none span
    | none => failure

/-- The type of an undeclared name. Rules that are not circular refer to each other no deeper than
there are rules. -/
def implicitType (scope : ScopeId) (name : String) (span : Span) : Attempt DeclaredType := do
  let count := ((← get).implicitFor scope).rules.length
  implicitTypeWithin (count + 1) scope name span

def analyze (scope : ScopeId) (value : Tree.Expr) : Attempt Expr :=
  expr implicitType scope value

def declaredType (scope : ScopeId) (spec : Tree.TypeSpec) (ownLength : Option Tree.Length)
    (span : Span) : Attempt DeclaredType :=
  declaredTypeWith analyze scope spec ownLength span

def foldedBound (scope : ScopeId) (value : Tree.Expr) : Attempt Expr := do
  let bound ← analyze scope value
  return (← table).fold bound

/-- A lower bound that is wrong is left out. -/
def lowerBound (scope : ScopeId) : Option Tree.Expr → Attempt (Option Expr)
  | some value => settle (foldedBound scope value)
  | none => return none

/-- One dimension. Without its upper bound an explicit dimension is left out. -/
def dimension (scope : ScopeId) : Tree.Dimension → Attempt Bounds
  | .explicit lower upper => do
    let lower ← lowerBound scope lower
    return .explicit lower (← foldedBound scope upper)
  | .colon lower => return .colon (← lowerBound scope lower)
  | .star lower => return .assumedSize (← lowerBound scope lower)
  | .assumedRank => return .assumedRank

def arraySpec (scope : ScopeId) (dimensions : List Tree.Dimension) : Resolve ArraySpec := do
  let found ← dimensions.mapM fun entry => (dimension scope entry).run
  return found.filterMap id

def optionalSpec (scope : ScopeId) : Option (List Tree.Dimension) → Resolve ArraySpec
  | some dimensions => arraySpec scope dimensions
  | none => return []

end Resolve

end FortranInterface
