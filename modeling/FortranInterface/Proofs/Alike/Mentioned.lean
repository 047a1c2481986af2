import FortranInterface.Proofs.Alike.Table
import FortranInterface.Resolution.State

/-!
The symbols and scopes that are mentioned in what is stored: in expressions, in what is declared of a
symbol, and in references. In data that are alike, whatever is mentioned has a partner.
-/

namespace FortranInterface

def Callee.symbols (callee : Callee) : List SymbolId :=
  callee.symbol?.toList

mutual

def Expr.symbols : Expr → List SymbolId
  | .literal _ | .null | .boz _ => []
  | .array _ values => exprSymbols values
  | .designator id subscripts _ => id :: subscriptSymbols subscripts
  | .call callee actuals => callee.symbols ++ actualSymbols actuals
  | .operation _ operands => exprSymbols operands
  | .procedure callee => callee.symbols

def exprSymbols : List Expr → List SymbolId
  | [] => []
  | value :: values => value.symbols ++ exprSymbols values

def boundSymbols : Option Expr → List SymbolId
  | some value => value.symbols
  | none => []

def Subscript.symbols : Subscript → List SymbolId
  | .index value => value.symbols
  | .triplet lower upper stride => boundSymbols lower ++ boundSymbols upper ++ boundSymbols stride

def subscriptSymbols : List Subscript → List SymbolId
  | [] => []
  | subscript :: subscripts => subscript.symbols ++ subscriptSymbols subscripts

def ActualValue.symbols : ActualValue → List SymbolId
  | .expr value => value.symbols
  | .assumedType id => [id]
  | .label _ => []

def Actual.symbols : Actual → List SymbolId
  | ⟨_, value, _, _⟩ => value.symbols

def actualSymbols : List (Option Actual) → List SymbolId
  | [] => []
  | some actual :: actuals => actual.symbols ++ actualSymbols actuals
  | none :: actuals => actualSymbols actuals

end

def CharLength.symbols : CharLength → List SymbolId
  | .explicit value => value.symbols
  | .assumed | .deferred => []

def DeclaredType.symbols : DeclaredType → List SymbolId
  | .intrinsic _ _ length => length.elim [] CharLength.symbols
  | .type id | .classOf id => [id]
  | .typeStar | .classStar => []

def Bounds.symbols : Bounds → List SymbolId
  | .explicit lower upper => boundSymbols lower ++ upper.symbols
  | .colon lower | .assumedSize lower => boundSymbols lower
  | .assumedRank => []

namespace Details

def symbols : Details → List SymbolId
  | object details =>
    details.type.elim [] DeclaredType.symbols ++ details.shape.flatMap Bounds.symbols ++
      details.coshape.flatMap Bounds.symbols ++ boundSymbols details.init
  | associate selector => selector.symbols
  | procEntity details => details.interface.toList ++ details.type.elim [] DeclaredType.symbols
  | subprogram details => details.dummies.flatMap Option.toList ++ details.result.toList
  | generic details => details.specifics
  | derivedType details => details.parent.toList ++ details.components ++ details.bindings
  | binding details => [details.procedure]
  | module _ | mainProgram _ | unresolved => []

def scopes : Details → List ScopeId
  | subprogram details => details.scope.toList
  | derivedType details => details.scope.toList
  | module scope | mainProgram scope => [scope]
  | _ => []

/-- What has to be known before a symbol is: the type that a type extends, and what the selector of an
associate name is made of. -/
def earlier : Details → List SymbolId
  | associate selector => selector.symbols
  | derivedType details => details.parent.toList
  | _ => []

theorem earlier_subset (details : Details) : details.earlier ⊆ details.symbols := by
  cases details with
  | associate selector => exact fun _ member => member
  | derivedType details =>
    intro id member
    simp only [symbols, List.mem_append]
    exact .inl (.inl member)
  | _ => exact List.nil_subset _

def Rests (details : Details) (id : SymbolId) : Prop :=
  ∀ other ∈ details.earlier, other.index < id.index

end Details

def Reference.symbols (reference : Reference) : List SymbolId :=
  reference.callee.symbols ++ reference.generic.toList ++ actualSymbols reference.arguments

/-! What is mentioned has a partner. -/

namespace Pairing

variable (pairing : Pairing)

def Covers (ids : List SymbolId) : Prop :=
  ∀ id ∈ ids, ∃ id', pairing.symbols id id'

def CoversScopes (scopes : List ScopeId) : Prop :=
  ∀ scope ∈ scopes, ∃ scope', pairing.scopes scope scope'

variable {pairing}

theorem covers_nil : pairing.Covers [] :=
  nofun

theorem covers_singleton {id id' : SymbolId} (paired : pairing.symbols id id') : pairing.Covers [id] := by
  intro other member
  obtain rfl := List.mem_singleton.mp member
  exact ⟨id', paired⟩

theorem Covers.append {first second : List SymbolId} (left : pairing.Covers first)
    (right : pairing.Covers second) : pairing.Covers (first ++ second) := by
  intro id member
  rcases List.mem_append.mp member with here | there
  · exact left id here
  · exact right id there

theorem covers_toList {found found' : Option SymbolId} (related : Option.Rel pairing.symbols found found') :
    pairing.Covers found.toList := by
  cases related with
  | none => exact covers_nil
  | some paired => exact covers_singleton paired

theorem covers_list {ids ids' : List SymbolId} (related : List.Forall₂ pairing.symbols ids ids') :
    pairing.Covers ids := by
  induction related with
  | nil => exact covers_nil
  | cons first _ ih => exact (covers_singleton first).append ih

theorem covers_elim {α α' : Type} {related : α → α' → Prop} {symbols : α → List SymbolId}
    {found : Option α} {found' : Option α'} (same : Option.Rel related found found')
    (covers : ∀ value value', related value value' → pairing.Covers (symbols value)) :
    pairing.Covers (found.elim [] symbols) := by
  cases same with
  | none => exact covers_nil
  | some same => exact covers _ _ same

theorem covers_flatMap {α α' : Type} {related : α → α' → Prop} {symbols : α → List SymbolId}
    {values : List α} {values' : List α'} (same : List.Forall₂ related values values')
    (covers : ∀ value value', related value value' → pairing.Covers (symbols value)) :
    pairing.Covers (values.flatMap symbols) := by
  induction same with
  | nil => exact covers_nil
  | cons first _ ih => exact (covers _ _ first).append ih

theorem coversScopes_toList {found found' : Option ScopeId}
    (related : Option.Rel pairing.scopes found found') : pairing.CoversScopes found.toList := by
  cases related with
  | none => exact nofun
  | some paired =>
    intro scope member
    obtain rfl := List.mem_singleton.mp member
    exact ⟨_, paired⟩

end Pairing

open Pairing

variable {pairing : Pairing}

theorem Callee.Alike.covers {callee callee' : Callee} (alike : callee.Alike pairing callee') :
    pairing.Covers callee.symbols := by
  cases alike with
  | symbol paired => exact covers_singleton paired
  | intrinsic => exact covers_nil

theorem coversExprs {values values' : List Expr}
    (alike : List.Forall₂ (fun value _ => pairing.Covers value.symbols) values values') :
    pairing.Covers (exprSymbols values) := by
  induction alike with
  | nil => exact covers_nil
  | cons first _ ih => exact first.append ih

theorem coversSubscripts {subscripts subscripts' : List Subscript}
    (alike : List.Forall₂ (fun subscript _ => pairing.Covers subscript.symbols) subscripts subscripts') :
    pairing.Covers (subscriptSymbols subscripts) := by
  induction alike with
  | nil => exact covers_nil
  | cons first _ ih => exact first.append ih

variable {actuals actuals' : Actuals}

theorem coversActuals
    (alike : List.Forall₂ (Option.Rel fun actual _ => pairing.Covers actual.symbols) actuals actuals') :
    pairing.Covers (actualSymbols actuals) := by
  induction alike with
  | nil => exact covers_nil
  | cons first _ ih =>
    cases first with
    | none => exact ih
    | some first => exact first.append ih

variable {bound bound' : Option Expr}

theorem coversBound (alike : Option.Rel (fun value _ => pairing.Covers value.symbols) bound bound') :
    pairing.Covers (boundSymbols bound) := by
  cases alike with
  | none => exact covers_nil
  | some covers => exact covers

theorem closed_covers : Closed pairing (fun value _ => pairing.Covers value.symbols)
    (fun subscript _ => pairing.Covers subscript.symbols) (fun actual _ => pairing.Covers actual.symbols)
    (fun value _ => pairing.Covers value.symbols) where
  literal _ := covers_nil
  array _ := coversExprs
  designator _ paired alike := (covers_singleton paired).append (coversSubscripts alike)
  call callee alike := callee.covers.append (coversActuals alike)
  operation _ _ _ := coversExprs
  null := covers_nil
  boz _ := covers_nil
  procedure callee := callee.covers
  index := id
  triplet lower upper stride := ((coversBound lower).append (coversBound upper)).append (coversBound stride)
  passed _ _ _ _ _ := id
  ofExpr := id
  assumedType := covers_singleton
  label _ := covers_nil

theorem Expr.Alike.covers {expr expr' : Expr} (alike : expr.Alike pairing expr') : pairing.Covers expr.symbols :=
  alike.within closed_covers

theorem Actuals.Alike.covers (alike : Actuals.Alike pairing actuals actuals') :
    pairing.Covers (actualSymbols actuals) :=
  coversActuals (alike.within closed_covers)

theorem covers_bound (alike : Option.Rel (Expr.Alike pairing) bound bound') : pairing.Covers (boundSymbols bound) :=
  coversBound (relMono Expr.Alike.covers alike)

theorem DeclaredType.Alike.covers {type type' : DeclaredType} (alike : type.Alike pairing type') :
    pairing.Covers type.symbols := by
  cases alike with
  | intrinsic _ length =>
    refine covers_elim length fun value value' alike => ?_
    cases alike with
    | explicit alike => exact alike.covers
    | assumed | deferred => exact covers_nil
  | type paired | classOf paired => exact covers_singleton paired
  | typeStar | classStar => exact covers_nil

theorem Bounds.Alike.covers {bounds bounds' : Bounds} (alike : bounds.Alike pairing bounds') :
    pairing.Covers bounds.symbols := by
  cases alike with
  | explicit lower upper => exact (covers_bound lower).append upper.covers
  | colon lower | assumedSize lower => exact covers_bound lower
  | assumedRank => exact covers_nil

variable {details details' : Details}

theorem Details.Alike.covers (alike : details.Alike pairing details') : pairing.Covers details.symbols := by
  have types {type type' : Option DeclaredType} (same : Option.Rel (DeclaredType.Alike pairing) type type') :
      pairing.Covers (type.elim [] DeclaredType.symbols) :=
    covers_elim same fun _ _ alike => alike.covers
  have spec {spec spec' : ArraySpec} (same : ArraySpec.Alike pairing spec spec') :
      pairing.Covers (spec.flatMap Bounds.symbols) :=
    covers_flatMap same fun _ _ alike => alike.covers
  cases alike with
  | object same =>
    exact (((types same.type).append (spec same.shape)).append (spec same.coshape)).append (covers_bound same.init)
  | associate same => exact same.covers
  | procEntity same => exact (covers_toList same.interface).append (types same.type)
  | subprogram same =>
    exact (covers_flatMap same.dummies fun _ _ => covers_toList).append (covers_toList same.result)
  | generic same => exact covers_list same.specifics
  | derivedType same =>
    exact ((covers_toList same.parent).append (covers_list same.components)).append (covers_list same.bindings)
  | binding same => exact covers_singleton same.procedure
  | module | mainProgram | unresolved => exact covers_nil

theorem Details.Alike.coversScopes (alike : details.Alike pairing details') : pairing.CoversScopes details.scopes := by
  cases alike with
  | subprogram same => exact coversScopes_toList same.scope
  | derivedType same => exact coversScopes_toList same.scope
  | module paired | mainProgram paired => exact coversScopes_toList (.some paired)
  | _ => exact nofun

end FortranInterface
