import FortranInterface.Proofs.Alike.Typing

/-!
Expressions that are alike have shapes that are alike, and designate the same kind of thing.
-/

namespace FortranInterface

set_option linter.unusedSectionVars false

variable {pairing : Pairing} {full : Bool}

abbrev Shape.Alike (pairing : Pairing) : Shape → Shape → Prop :=
  List.Forall₂ (Option.Rel (Expr.Alike pairing))

theorem Bounds.Alike.isColon {bounds bounds' : Bounds} (alike : bounds.Alike pairing bounds') :
    bounds.isColon = bounds'.isColon := by
  cases alike <;> rfl

namespace ArraySpec.Alike

variable {spec spec' : ArraySpec} (alike : ArraySpec.Alike pairing spec spec')
include alike

theorem isEmpty : spec.isEmpty = spec'.isEmpty := by
  cases alike <;> rfl

theorem isAssumedRank : ArraySpec.isAssumedRank spec = ArraySpec.isAssumedRank spec' := by
  cases alike with
  | nil => rfl
  | cons first rest => cases rest <;> cases first <;> rfl

theorem all_isColon : spec.all Bounds.isColon = spec'.all Bounds.isColon := by
  induction alike with
  | nil => rfl
  | cons first _ ih => simp only [List.all_cons, first.isColon, ih]

theorem any_isColon : spec.any Bounds.isColon = spec'.any Bounds.isColon := by
  induction alike with
  | nil => rfl
  | cons first _ ih => simp only [List.any_cons, first.isColon, ih]

theorem isColonShape : ArraySpec.isColonShape spec = ArraySpec.isColonShape spec' := by
  simp only [ArraySpec.isColonShape, isEmpty alike, all_isColon alike]

theorem getLast? : Option.Rel (Bounds.Alike pairing) spec.getLast? spec'.getLast? := by
  induction alike with
  | nil => exact .none
  | cons first rest ih =>
    cases rest with
    | nil => exact .some first
    | cons _ _ => simpa only [List.getLast?_cons_cons] using ih

theorem isAssumedSize : ArraySpec.isAssumedSize spec = ArraySpec.isAssumedSize spec' := by
  have last := getLast? alike
  simp only [ArraySpec.isAssumedSize]
  generalize spec.getLast? = found, spec'.getLast? = found' at last
  cases last with
  | none => rfl
  | some same => cases same <;> rfl

end ArraySpec.Alike

/-! Chains of links. -/

namespace Table

def findWithin (table : Table) (next : Details → Option SymbolId) {α : Type} (find : SymbolId → Option α) :
    Nat → SymbolId → Option α
  | 0, _ => none
  | links + 1, id => (table.chainWithin next links id).findSome? find

theorem findWithin_succ (table : Table) (next : Details → Option SymbolId) {α : Type}
    (find : SymbolId → Option α) (links : Nat) (id : SymbolId) :
    table.findWithin next find (links + 1) id =
      (find id).or ((next (table.details id)).bind (table.findWithin next find links)) := by
  cases links with
  | zero =>
    cases next (table.details id) <;> cases here : find id <;> simp [findWithin, chainWithin, here]
  | succ links =>
    cases found : next (table.details id) with
    | none => simp [findWithin, chainWithin, found]
    | some following =>
      cases here : find id <;> simp [findWithin, chainWithin, found, here]

theorem any_eq_isSome_findSome? (test : SymbolId → Bool) (ids : List SymbolId) :
    ids.any test = (ids.findSome? fun id => if test id then some () else none).isSome := by
  induction ids with
  | nil => rfl
  | cons id ids ih => cases holds : test id <;> simp [holds, ih]

def endWithin (table : Table) (next : Details → Option SymbolId) : Nat → SymbolId → Option SymbolId
  | 0, _ => none
  | links + 1, id =>
    match next (table.details id) with
    | some following => table.endWithin next links following
    | none => some id

theorem getLastD_chainWithin {table : Table} {next : Details → Option SymbolId} {id following : SymbolId}
    (found : next (table.details id) = some following) (links : Nat) :
    (table.chainWithin next (links + 1) id).getLastD id =
      (table.chainWithin next links following).getLastD following := by
  have nonempty : table.chainWithin next links following ≠ [] := by
    cases links with
    | zero => simp [chainWithin]
    | succ links => simp only [chainWithin]; split <;> simp
  simp only [chainWithin, found, List.getLastD_cons]
  rw [List.getLastD_eq_getLast?, List.getLastD_eq_getLast?, List.getLast?_eq_getLast_of_ne_nil nonempty]
  rfl

theorem chainWithin_end (table : Table) (next : Details → Option SymbolId) (links : Nat) (id : SymbolId) :
    table.endWithin next (links + 1) id = some ((table.chainWithin next links id).getLastD id) ∨
      table.endWithin next (links + 1) id = none ∧ (next (table.details id)).isSome ∧
        (next (table.details ((table.chainWithin next links id).getLastD id))).isSome := by
  induction links generalizing id with
  | zero =>
    cases found : next (table.details id) with
    | none => exact .inl (by simp [endWithin, chainWithin, found])
    | some following => exact .inr (by simp [endWithin, chainWithin, found])
  | succ links ih =>
    cases found : next (table.details id) with
    | none => exact .inl (by simp [endWithin, chainWithin, found])
    | some following =>
      rw [getLastD_chainWithin found]
      have unfolded : table.endWithin next (links + 1 + 1) id =
          table.endWithin next (links + 1) following := by
        simp [endWithin, found]
      rw [unfolded]
      rcases ih following with ended | ⟨cut, _, goes⟩
      · exact .inl ended
      · exact .inr ⟨cut, rfl, goes⟩

end Table

variable {id id' : SymbolId}

namespace Table.Alike

variable {leeway : Leeway} {table table' : Table} (alike : Table.Alike pairing leeway table table')
include alike

section

variable {next : Details → Option SymbolId}
  (linked : ∀ {details details' : Details}, details.Alike pairing details' →
    Option.Rel pairing.symbols (next details) (next details'))
include linked

theorem chain_findSome? {α β : Type} {related : α → β → Prop} {find : SymbolId → Option α} {find' : SymbolId → Option β}
    (finds : ∀ {id id'}, pairing.symbols id id' → Option.Rel related (find id) (find' id'))
    (paired : pairing.symbols id id') :
    Option.Rel related ((table.chain next id).findSome? find) ((table'.chain next id').findSome? find') := by
  refine (Lift.of_enough_links (table.findWithin next find) (table'.findWithin next find')
    table.symbols.size (fun _ => rfl) (fun _ => rfl) ?_ @alike.bounded (Nat.le_succ _)
    (Nat.succ_le_succ alike.size_le) paired).rel
  intro full count count' answers id id' paired
  rw [findWithin_succ, findWithin_succ]
  have found := finds paired
  exact relCases found ((Lift.of_rel (linked (alike.details paired))).bind answers) fun _ _ found => .some_some found

theorem chain_any {test test' : SymbolId → Bool} (tests : ∀ {id id'}, pairing.symbols id id' → test id = test' id')
    (paired : pairing.symbols id id') : (table.chain next id).any test = (table'.chain next id').any test' := by
  rw [any_eq_isSome_findSome?, any_eq_isSome_findSome?]
  have found : Option.Rel (fun _ _ => True)
      ((table.chain next id).findSome? fun id => if test id then some () else none)
      ((table'.chain next id').findSome? fun id => if test' id then some () else none) := by
    refine alike.chain_findSome? linked (fun paired => ?_) paired
    rw [tests paired]
    split
    · exact .some trivial
    · exact .none
  generalize (table.chain next id).findSome? _ = answer, (table'.chain next id').findSome? _ = answer' at found
  cases found <;> rfl

theorem chainEnd (paired : pairing.symbols id id') :
    pairing.symbols (table.chainEnd next id) (table'.chainEnd next id') ∨
      ((next (table.details id)).isSome ∧ (next (table.details (table.chainEnd next id))).isSome) ∧
        (next (table'.details id')).isSome ∧ (next (table'.details (table'.chainEnd next id'))).isSome := by
  have ends : Option.Rel pairing.symbols
      (table.endWithin next (table.symbols.size + 1) id)
      (table'.endWithin next (table'.symbols.size + 1) id') := by
    refine (Lift.of_enough_links (table.endWithin next) (table'.endWithin next)
      table.symbols.size (fun _ => rfl) (fun _ => rfl) ?_ @alike.bounded (Nat.le_succ _)
      (Nat.succ_le_succ alike.size_le) paired).rel
    intro full count count' answers id id' paired
    simp only [endWithin]
    have following := linked (alike.details paired)
    exact relCases following (.some_some paired) fun _ _ following => answers following
  unfold Table.chainEnd Table.chain
  rcases table.chainWithin_end next table.symbols.size id with ended | ⟨cut, goes⟩
  · rcases table'.chainWithin_end next table'.symbols.size id' with ended' | ⟨cut', _⟩
    · rw [ended, ended'] at ends
      cases ends with
      | some ends => exact .inl ends
    · rw [ended, cut'] at ends
      cases ends
  · rcases table'.chainWithin_end next table'.symbols.size id' with ended' | ⟨_, goes'⟩
    · rw [cut, ended'] at ends
      cases ends
    · exact .inr ⟨goes, goes'⟩

end

end Table.Alike

variable {details details' : Details}

theorem Details.Alike.interface? (alike : details.Alike pairing details') :
    Option.Rel pairing.symbols details.interface? details'.interface? := by
  cases alike with
  | procEntity same => exact same.interface
  | binding same => exact .some same.procedure
  | _ => exact .none

theorem Details.Alike.entityInterface? (alike : details.Alike pairing details') :
    Option.Rel pairing.symbols details.entityInterface? details'.entityInterface? := by
  cases alike with
  | procEntity same => exact same.interface
  | _ => exact .none

/-! Shapes. -/

namespace Shape

theorem lift_elemental {shapes shapes' : List (Option Shape)}
    (lifts : List.Forall₂ (Lift full (Shape.Alike pairing)) shapes shapes') :
    Lift full (Shape.Alike pairing) (elemental shapes) (elemental shapes') := by
  suffices ∀ {longest longest' : Shape}, Shape.Alike pairing longest longest' →
      Lift full (Shape.Alike pairing) (elemental.go longest shapes) (elemental.go longest' shapes') from
    this .nil
  induction lifts with
  | nil => exact fun same => .some_some same
  | @cons shape shape' shapes shapes' first rest ih =>
    intro longest longest' same
    have each (shape : Option Shape) (shapes : List (Option Shape)) (longest : Shape) :
        elemental.go longest (shape :: shapes) = shape.bind fun shape =>
          elemental.go (if shape.length > longest.length then shape else longest) shapes := by
      cases shape <;> rfl
    rw [each, each]
    refine first.bind fun here => ih ?_
    rw [here.length_eq, same.length_eq]
    split
    · exact here
    · exact same

theorem ofConstructor_cons (table : Table) (count : Int) (shape : Option Shape) (shapes : List (Option Shape)) :
    ofConstructor table count (shape :: shapes) = shape.bind fun shape =>
      match elementCount table shape with
      | some size => ofConstructor table (Word.wrapped (count + size)) shapes
      | none => some [none] := by
  cases shape <;> rfl

variable {leeway : Leeway} {table table' : Table} (alike : Table.Alike pairing leeway table table')
include alike

theorem elementCount_eq {shape shape' : Shape} (same : Shape.Alike pairing shape shape') :
    elementCount table shape = elementCount table' shape' := by
  unfold elementCount
  generalize (1 : Int) = count
  induction same generalizing count with
  | nil => rfl
  | @cons extent extent' _ _ first _ ih =>
    have folded : extent.bind table.foldInteger = extent'.bind table'.foldInteger := by
      cases first with
      | none => rfl
      | some first => exact alike.foldInteger first
    simp only [List.foldlM_cons, folded]
    congr 1
    funext count
    exact ih count

theorem lift_ofConstructor (count : Int) {shapes shapes' : List (Option Shape)}
    (lifts : List.Forall₂ (Lift full (Shape.Alike pairing)) shapes shapes') :
    Lift full (Shape.Alike pairing) (ofConstructor table count shapes) (ofConstructor table' count shapes') := by
  induction lifts generalizing count with
  | nil => exact .some_some (.cons (.some (.int _)) .nil)
  | @cons shape shape' shapes shapes' first rest ih =>
    rw [ofConstructor_cons, ofConstructor_cons]
    refine first.bind fun here => ?_
    rw [elementCount_eq alike here]
    split
    · exact ih _
    · exact .some_some (.cons .none .nil)

theorem bind_foldInteger {value value' : Option Expr} (same : Option.Rel (Expr.Alike pairing) value value') :
    value.bind table.foldInteger = value'.bind table'.foldInteger := by
  cases same with
  | none => rfl
  | some same => exact alike.foldInteger same

theorem extentBetween_alike {lower lower' : Option Expr} {upper upper' : Expr}
    (lowers : Option.Rel (Expr.Alike pairing) lower lower') (uppers : upper.Alike pairing upper') :
    Option.Rel (Expr.Alike pairing) (extentBetween table lower upper) (extentBetween table' lower' upper') := by
  have literal (found : Option Int) : Option.Rel (Expr.Alike pairing)
      (found.map fun extent => Expr.int (max extent 0)) (found.map fun extent => Expr.int (max extent 0)) := by
    cases found with
    | none => exact .none
    | some _ => exact .some (.int _)
  unfold extentBetween
  rw [alike.foldInteger uppers]
  cases lowers with
  | none =>
    cases table'.foldInteger upper' with
    | none => exact .some uppers
    | some value =>
      simp only
      cases Word.fitting (value - 1) with
      | none => exact .none
      | some difference => exact literal _
  | @some lower lower' lowers =>
    have difference : ((Expr.binary .add (.binary .subtract upper lower) (.int 1))).Alike
        pairing (.binary .add (.binary .subtract upper' lower') (.int 1)) :=
      .operation _ (.cons (.operation _ (.cons uppers (.cons lowers .nil))) (.cons (.int _) .nil))
    simp only [alike.foldInteger lowers]
    split
    · rename_i lowerValue upperValue _ _
      cases Word.fitting (upperValue - lowerValue) with
      | none => exact .none
      | some difference => exact literal _
    · exact .some uppers
    · exact .some difference

theorem extentOfBounds_alike {bounds bounds' : Bounds} (same : bounds.Alike pairing bounds') :
    Option.Rel (Expr.Alike pairing) (extentOfBounds table bounds) (extentOfBounds table' bounds') := by
  cases same with
  | explicit lower upper => exact extentBetween_alike alike lower upper
  | _ => exact .none

theorem map_extentOfBounds {spec spec' : ArraySpec} (same : ArraySpec.Alike pairing spec spec') :
    Shape.Alike pairing (spec.map (extentOfBounds table)) (spec'.map (extentOfBounds table')) := by
  induction same with
  | nil => exact .nil
  | cons first _ ih => exact .cons (extentOfBounds_alike alike first) ih

theorem declaredBounds_alike (paired : pairing.symbols id id') (dimension : Nat) :
    Option.Rel (Expr.Alike pairing) (declaredBounds table id dimension).1
        (declaredBounds table' id' dimension).1 ∧
      Option.Rel (Expr.Alike pairing) (declaredBounds table id dimension).2
        (declaredBounds table' id' dimension).2 := by
  have bounds : Option.Rel (Bounds.Alike pairing)
      ((table.details id).object?.bind (·.shape[dimension]?))
      ((table'.details id').object?.bind (·.shape[dimension]?)) := by
    have objects := (alike.details paired).object?
    refine relCases objects .none fun object object' objects => ?_
    have shapes := objects.shape
    simp only [Option.bind_some]
    generalize object.shape = shape, object'.shape = shape' at shapes
    induction shapes generalizing dimension with
    | nil => exact .none
    | cons first _ ih =>
      cases dimension with
      | zero => exact .some first
      | succ dimension => exact ih dimension
  have lowest {lower lower' : Option Expr} (same : Option.Rel (Expr.Alike pairing) lower lower') :
      (lower.getD (.int 1)).Alike pairing (lower'.getD (.int 1)) := by
    cases same with
    | none => exact .int _
    | some same => exact same
  unfold declaredBounds
  refine relCases bounds ⟨.none, .none⟩ fun _ _ same => ?_
  cases same with
  | explicit lower upper => exact ⟨.some (lowest lower), .some upper⟩
  | colon lower => exact ⟨.some (lowest lower), .none⟩
  | assumedSize lower => exact ⟨.some (lowest lower), .none⟩
  | assumedRank => exact ⟨.none, .none⟩

theorem tripletExtent_alike {lower lower' upper upper' : Option Expr}
    (lowers : Option.Rel (Expr.Alike pairing) lower lower')
    (uppers : Option.Rel (Expr.Alike pairing) upper upper') (stride : Option Int) :
    Option.Rel (Expr.Alike pairing) (tripletExtent table lower upper stride)
      (tripletExtent table' lower' upper' stride) := by
  apply Lift.rel
  unfold tripletExtent
  rw [bind_foldInteger alike lowers, bind_foldInteger alike uppers]
  refine .bind_same fun _ => .bind_same fun _ => .bind_same fun _ => ?_
  split
  · exact .none_none
  · exact .bind_same fun _ => .bind_same fun _ => .bind_same fun _ => .some_some (.int _)

theorem sectionExtent_alike (paired : pairing.symbols id id') (dimension : Nat)
    {lower lower' upper upper' stride stride' : Option Expr} (lowers : Option.Rel (Expr.Alike pairing) lower lower')
    (uppers : Option.Rel (Expr.Alike pairing) upper upper') (strides : Option.Rel (Expr.Alike pairing) stride stride') :
    Option.Rel (Expr.Alike pairing) (sectionExtent table id dimension lower upper stride)
      (sectionExtent table' id' dimension lower' upper' stride') := by
  have declared := declaredBounds_alike alike paired dimension
  have first {value value' other other' : Option Expr}
      (same : Option.Rel (Expr.Alike pairing) value value')
      (others : Option.Rel (Expr.Alike pairing) other other') :
      Option.Rel (Expr.Alike pairing) (value.or other) (value'.or other') := by
    cases same with
    | none => exact others
    | some same => exact .some same
  unfold sectionExtent
  cases strides with
  | none => exact tripletExtent_alike alike (first lowers declared.1) (first uppers declared.2) _
  | some same =>
    simp only [alike.foldInteger same]
    exact tripletExtent_alike alike (first lowers declared.1) (first uppers declared.2) _

theorem isElementalProcedure_eq (paired : pairing.symbols id id') :
    isElementalProcedure table id = isElementalProcedure table' id' :=
  alike.chain_any (·.interface?) (fun paired => (alike.symbol paired).plain .elemental rfl) paired

section

variable {symbolShape symbolShape' : SymbolId → Option Shape}
  (shapes : ∀ {id id'}, pairing.symbols id id' →
    Lift full (Shape.Alike pairing) (symbolShape id) (symbolShape' id'))
  (flat : ∀ {id other}, (table.details id).interface?.isSome → (table.details other).interface?.isSome →
    symbolShape id = symbolShape other)
  (flat' : ∀ {id other}, (table'.details id).interface?.isSome →
    (table'.details other).interface?.isSome → symbolShape' id = symbolShape' other)
include shapes flat flat'

theorem lift_ofResultWith (paired : pairing.symbols id id') :
    Lift full (Shape.Alike pairing) (ofResultWith table symbolShape id) (ofResultWith table' symbolShape' id') := by
  unfold ofResultWith
  simp only
  rcases alike.chainEnd (·.interface?) paired with ends | ⟨⟨goes, last⟩, goes', last'⟩
  · have here := shapes ends
    have details := alike.details ends
    generalize table.details (table.chainEnd Details.interface? id) = found,
      table'.details (table'.chainEnd Details.interface? id') = found' at details
    cases details with
    | subprogram same => exact (Lift.of_rel same.result).bind shapes
    | _ => exact here
  · have here := shapes paired
    rw [flat goes last, flat' goes' last'] at here
    cases found : table.details (table.chainEnd Details.interface? id) with
    | subprogram => simp [found, Details.interface?] at last
    | _ =>
      cases found' : table'.details (table'.chainEnd Details.interface? id') with
      | subprogram => simp [found', Details.interface?] at last'
      | _ => exact here

mutual

theorem lift_ofExprWith : {expr expr' : Expr} → expr.Alike pairing expr' →
    Lift full (Shape.Alike pairing) (ofExprWith table symbolShape expr) (ofExprWith table' symbolShape' expr')
  | .literal _, _, same => by cases same; exact .some_some .nil
  | .array _ values, _, same => by
    cases same with
    | array _ same => exact lift_ofConstructor alike 0 (lift_ofExprsWith values same)
  | .designator _ subscripts _, _, same => by
    cases same with
    | designator _ paired same =>
      have section_ := lift_ofSubscriptsWith paired 0 subscripts same
      cases same with
      | nil => exact shapes paired
      | cons _ _ => exact section_
  | .call _ actuals, _, same => by
    cases same with
    | call callee same =>
      have arguments := lift_elemental (lift_ofActualsWith actuals same)
      cases callee with
      | symbol paired =>
        simp only [ofExprWith, isElementalProcedure_eq alike paired]
        split
        · exact arguments
        · exact lift_ofResultWith alike shapes flat flat' paired
      | intrinsic name =>
        simp only [ofExprWith]
        split
        · exact .some_some .nil
        · exact arguments
  | .operation _ operands, _, same => by
    cases same with
    | operation _ same => exact lift_elemental (lift_ofExprsWith operands same)
  | .null, _, same => by cases same; exact .some_some .nil
  | .boz _, _, same => by cases same; exact .some_some .nil
  | .procedure _, _, same => by cases same; exact .some_some .nil
termination_by structural x => x

theorem lift_ofExprsWith : (exprs : List Expr) → {exprs' : List Expr} →
    List.Forall₂ (Expr.Alike pairing) exprs exprs' →
    List.Forall₂ (Lift full (Shape.Alike pairing)) (ofExprsWith table symbolShape exprs)
      (ofExprsWith table' symbolShape' exprs')
  | [], _, same => by cases same; exact .nil
  | _ :: rest, _, same => by
    cases same with
    | cons first others => exact .cons (lift_ofExprWith first) (lift_ofExprsWith rest others)
termination_by structural x => x

theorem lift_ofActualsWith : (actuals : List (Option Actual)) → {actuals' : Actuals} →
    Actuals.Alike pairing actuals actuals' →
    List.Forall₂ (Lift full (Shape.Alike pairing)) (ofActualsWith table symbolShape actuals)
      (ofActualsWith table' symbolShape' actuals')
  | [], _, same => by cases same; exact .nil
  | none :: rest, _, same => by
    cases same with
    | cons first others => cases first; simpa only [ofActualsWith] using lift_ofActualsWith rest others
  | some ⟨_, .expr _, _, _⟩ :: rest, _, same => by
    cases same with
    | cons first others =>
      cases first with
      | some first =>
        cases first with
        | mk _ _ _ value =>
          cases value with
          | expr value => exact .cons (lift_ofExprWith value) (lift_ofActualsWith rest others)
  | some ⟨_, .assumedType _, _, _⟩ :: rest, _, same | some ⟨_, .label _, _, _⟩ :: rest, _, same => by
    cases same with
    | cons first others =>
      cases first with
      | some first =>
        cases first with
        | mk _ _ _ value => cases value; simpa only [ofActualsWith] using lift_ofActualsWith rest others
termination_by structural x => x

theorem lift_ofSubscriptsWith {id id' : SymbolId} (paired : pairing.symbols id id')
    (dimension : Nat) : (subscripts : List Subscript) → {subscripts' : List Subscript} →
    List.Forall₂ (Subscript.Alike pairing) subscripts subscripts' →
    Lift full (Shape.Alike pairing) (ofSubscriptsWith table symbolShape id dimension subscripts)
      (ofSubscriptsWith table' symbolShape' id' dimension subscripts')
  | [], _, same => by cases same; exact .some_some .nil
  | .index value :: rest, _, same => by
    cases same with
    | cons first others =>
      cases first with
      | @index _ value' first =>
        have others := lift_ofSubscriptsWith paired (dimension + 1) rest others
        have here := lift_ofExprWith first
        simp only [ofSubscriptsWith]
        generalize ofExprWith table symbolShape value = found,
          ofExprWith table' symbolShape' value' = found' at here
        rcases found with _ | shape
        · cases full with
          | false => exact .none_left _
          | true => rw [here.back rfl rfl]; exact .none_none
        · obtain ⟨shape', rfl, same⟩ := here.forth rfl
          cases same with
          | nil => exact others
          | cons extent rest =>
            cases rest with
            | nil => exact others.map fun same => .cons extent same
            | cons _ _ => exact others
  | .triplet _ _ _ :: rest, _, same => by
    cases same with
    | cons first others =>
      cases first with
      | triplet lower upper stride =>
        exact (lift_ofSubscriptsWith paired (dimension + 1) rest others).map fun same =>
          .cons (sectionExtent_alike alike paired dimension lower upper stride) same
termination_by structural x => x

end

end

end Shape

theorem Table.symbolShapeWithin_flat (table : Table) (links : Nat) {id other : SymbolId}
    (goes : (table.details id).interface?.isSome) (goes' : (table.details other).interface?.isSome) :
    table.symbolShapeWithin links id = table.symbolShapeWithin links other := by
  have shape_of_goes {id : SymbolId} (goes : (table.details id).interface?.isSome) (links : Nat) :
      table.symbolShapeWithin (links + 1) id = some [] := by
    simp only [symbolShapeWithin]
    cases found : table.details id with
    | procEntity => rfl
    | binding => rfl
    | _ => simp [found, Details.interface?] at goes
  cases links with
  | zero => rfl
  | succ links => rw [shape_of_goes goes, shape_of_goes goes']

namespace Table.Alike

variable {leeway : Leeway} {table table' : Table} (alike : Table.Alike pairing leeway table table')
include alike

theorem symbolShape (paired : pairing.symbols id id') :
    Option.Rel (Shape.Alike pairing) (table.symbolShape id) (table'.symbolShape id') := by
  refine (Lift.of_enough_links table.symbolShapeWithin table'.symbolShapeWithin _
    (fun _ => rfl) (fun _ => rfl) ?_ @alike.bounded (Nat.le_refl _) alike.size_le paired).rel
  intro full count count' answers id id' paired
  simp only [symbolShapeWithin]
  have details := alike.details paired
  generalize table.details id = found, table'.details id' = found' at details
  cases details with
  | object same =>
    simp only [ArraySpec.Alike.isAssumedRank same.shape]
    split
    · exact .none_none
    · exact .some_some (Shape.map_extentOfBounds alike same.shape)
  | associate same =>
    exact Shape.lift_ofExprWith alike answers (table.symbolShapeWithin_flat count)
      (table'.symbolShapeWithin_flat count') same
  | subprogram same =>
    have results := same.result
    simp only
    exact relCases results (.some_some .nil) fun _ _ results => answers results
  | _ => exact .some_some .nil

variable {expr expr' : Expr} (same : expr.Alike pairing expr')
include same

theorem shapeOf : Option.Rel (Shape.Alike pairing) (table.shapeOf expr) (table'.shapeOf expr') :=
  (Shape.lift_ofExprWith alike (fun paired => .of_rel (alike.symbolShape paired))
    (table.symbolShapeWithin_flat _) (table'.symbolShapeWithin_flat _) same).rel

theorem rank : table.rank expr = table'.rank expr' := by
  have shapes := alike.shapeOf same
  unfold Table.rank
  generalize table.shapeOf expr = shape, table'.shapeOf expr' = shape' at shapes
  cases shapes with
  | none => rfl
  | some shapes => simp only [Option.map_some, shapes.length_eq]

end Table.Alike

end FortranInterface
