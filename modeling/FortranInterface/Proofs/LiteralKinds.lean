import FortranInterface.Proofs.Lockstep.Renumbering

/-!
The kinds in a resolved program. Declared types get valid kinds only; a literal gets the kind that its suffix says,
whether it is valid or not, and a valid one where it has no suffix.
-/

namespace FortranInterface

/-! The expressions of a symbol, and the literals in an expression. -/

def Subscript.parts : Subscript → List Expr
  | .index value => [value]
  | .triplet lower upper stride => lower.toList ++ upper.toList ++ stride.toList

def Expr.parts : Expr → List Expr
  | .array _ values | .operation _ values => values
  | .designator _ subscripts _ => subscripts.flatMap Subscript.parts
  | .call _ actuals => actuals.flatMap fun actual => (actual.bind Actual.expr?).toList
  | _ => []

inductive Expr.Has (literal : Literal) : Expr → Prop where
  | here : Has literal (.literal literal)
  | part {value part : Expr} : part ∈ value.parts → Has literal part → Has literal value

def DeclaredType.exprs : DeclaredType → List Expr
  | .intrinsic _ _ (some (.explicit length)) => [length]
  | _ => []

def Bounds.exprs : Bounds → List Expr
  | .explicit lower upper => upper :: lower.toList
  | .colon lower | .assumedSize lower => lower.toList
  | .assumedRank => []

namespace Details

def declared? : Details → Option DeclaredType
  | .object data => data.type
  | .procEntity entity => entity.type
  | _ => none

/-- What a symbol is initialized, bounded or associated with, and its length. -/
def exprs (details : Details) : List Expr :=
  details.declared?.toList.flatMap DeclaredType.exprs ++
    match details with
    | .object data => data.init.toList ++ (data.shape ++ data.coshape).flatMap Bounds.exprs
    | .associate selector => [selector]
    | _ => []

end Details

section Alike

variable {pairing : Pairing}

theorem rel_toList {α : Type} {related : α → α → Prop} {found found' : Option α}
    (same : Option.Rel related found found') : List.Forall₂ related found.toList found'.toList := by
  cases same with
  | none => exact .nil
  | some same => exact .cons same .nil

theorem Expr.Alike.parts {value value' : Expr} (alike : value.Alike pairing value') :
    List.Forall₂ (Expr.Alike pairing) value.parts value'.parts := by
  cases alike with
  | array _ values => exact values
  | operation _ operands => exact operands
  | designator _ _ subscripts =>
    refine List.rel_flatMap subscripts fun _ _ same => ?_
    cases same with
    | index same => exact .cons same .nil
    | triplet lower upper stride =>
      exact List.rel_append (List.rel_append (rel_toList lower) (rel_toList upper)) (rel_toList stride)
  | call _ actuals =>
    refine List.rel_flatMap actuals fun _ _ same => rel_toList ?_
    exact relCases same .none fun _ _ same => same.expr?
  | _ => exact .nil

theorem Expr.Has.known {literal : Literal} {value value' : Expr} (has : value.Has literal)
    (alike : value.Alike pairing value') : pairing.Knows literal.type := by
  induction has generalizing value' with
  | here =>
    cases alike with
    | literal known => exact known
  | part member _ ih =>
    obtain ⟨_, _, same⟩ := forall₂_exists alike.parts member
    exact ih same

variable {details details' : Details} (alike : details.Alike pairing details')
include alike

theorem Details.Alike.declared? : Option.Rel (DeclaredType.Alike pairing) details.declared? details'.declared? := by
  cases alike with
  | object same => exact same.type
  | procEntity same => exact same.type
  | _ => exact .none

theorem Details.Alike.exprs : List.Forall₂ (Expr.Alike pairing) details.exprs details'.exprs := by
  refine List.rel_append (List.rel_flatMap (rel_toList alike.declared?) fun _ _ same => ?_) ?_
  · cases same with
    | intrinsic _ lengths =>
      cases lengths with
      | none => exact .nil
      | some same =>
        cases same with
        | explicit same => exact .cons same .nil
        | _ => exact .nil
    | _ => exact .nil
  · cases alike with
    | object same =>
      refine List.rel_append (rel_toList same.init) (List.rel_flatMap (List.rel_append same.shape same.coshape) ?_)
      intro _ _ same
      cases same with
      | explicit lower upper => exact .cons upper (rel_toList lower)
      | colon lower => exact rel_toList lower
      | assumedSize lower => exact rel_toList lower
      | assumedRank => exact .nil
    | associate same => exact .cons same .nil
    | _ => exact .nil

end Alike

namespace Tree

def Mention.suffix? : Mention → Option (Category × String)
  | .suffix category spelling => some (category, spelling)
  | .stored mention | .ruled mention => mention.suffix?
  | _ => none

namespace Program

/-- The suffixes of the literals in a program, each for the type of the literal or of a part of it. -/
def suffixes (program : Program) : List (Category × String) :=
  (program.units.flatMap ProgramUnit.mentions).filterMap Mention.suffix?

end Program

end Tree

end FortranInterface
