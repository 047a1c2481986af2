import Mathlib.Logic.Relation
import FortranInterface.Resolution.Program

/-!
Derived types by declaration and by name. Types are compared by their names and those of their ancestors.
The comparison agrees with the declarations exactly if no other declaration with the name of the one type
stands where it could be taken for it: in the place of the other type, or among its ancestors.
-/

namespace FortranInterface

open Relation

namespace Table

def Extends (table : Table) (id parent : SymbolId) : Prop :=
  parentType? (table.details id) = some parent

variable {table : Table} {id ancestor : SymbolId} {type : DerivedName} {name : String}

theorem mem_derivedChainWithin_iff {links : Nat} {names : List String}
    (found : table.derivedChainWithin links id = some names) :
    name ∈ names ↔ ∃ ancestor, ReflTransGen table.Extends id ancestor ∧ (table.symbol ancestor).name = name := by
  induction links generalizing id names with
  | zero => cases found
  | succ links ih =>
    rw [derivedChainWithin] at found
    split at found
    next derived isType =>
      split at found
      next parent isParent =>
        have extends_ : table.Extends id parent := by rw [Extends, isType]; exact isParent
        obtain ⟨inherited, above, rfl⟩ := Option.map_eq_some_iff.mp found
        rw [List.mem_cons, ih above]
        constructor
        · rintro (rfl | ⟨ancestor, reaches, named⟩)
          · exact ⟨id, .refl, rfl⟩
          · exact ⟨ancestor, .head extends_ reaches, named⟩
        · rintro ⟨ancestor, reaches, named⟩
          rcases reaches.cases_head with rfl | ⟨next, step, reaches⟩
          · exact .inl named.symm
          · obtain rfl : next = parent := Option.some_inj.mp (step.symm.trans extends_)
            exact .inr ⟨ancestor, reaches, named⟩
      next isRoot =>
        obtain rfl := Option.some_inj.mp found
        rw [List.mem_singleton]
        constructor
        · rintro rfl
          exact ⟨id, .refl, rfl⟩
        · rintro ⟨ancestor, reaches, named⟩
          rcases reaches.cases_head with rfl | ⟨next, step, -⟩
          · exact named.symm
          · rw [Extends, isType, parentType?, isRoot] at step
            cases step
    · cases found

theorem mem_chain_iff (found : table.derivedName? id = some type) :
    name ∈ type.chain ↔ ∃ ancestor, ReflTransGen table.Extends id ancestor ∧ (table.symbol ancestor).name = name := by
  rw [derivedName?] at found
  split at found
  next isChain =>
    obtain rfl := Option.some_inj.mp found
    exact mem_derivedChainWithin_iff isChain
  · cases found

theorem head_derivedChainWithin {links : Nat} {ancestors : List String}
    (found : table.derivedChainWithin links id = some (name :: ancestors)) : name = (table.symbol id).name := by
  cases links with
  | zero => cases found
  | succ links =>
    rw [derivedChainWithin] at found
    split at found
    · split at found
      · obtain ⟨inherited, -, isChain⟩ := Option.map_eq_some_iff.mp found
        exact (List.cons.inj isChain).1.symm
      · exact (List.cons.inj (Option.some_inj.mp found)).1.symm
    · cases found

theorem name_of_derivedName? (found : table.derivedName? id = some type) : type.name = (table.symbol id).name := by
  rw [derivedName?] at found
  split at found
  next isChain =>
    obtain rfl := Option.some_inj.mp found
    exact head_derivedChainWithin isChain
  · cases found

end Table

namespace DynamicType

open Table

variable {table : Table} {mine theirs : SymbolId} {type other : DerivedName}

section

variable (found : table.derivedName? mine = some type) (foundOther : table.derivedName? theirs = some other)
include found foundOther

theorem type_accepts_iff :
    (DynamicType.type type).accepts (.type other) = true ↔ (table.symbol mine).name = (table.symbol theirs).name := by
  rw [accepts, decide_eq_true_iff, Table.name_of_derivedName? found, Table.name_of_derivedName? foundOther]

theorem classOf_accepts_iff :
    (DynamicType.classOf type).accepts (.type other) = true ↔
      ∃ ancestor, ReflTransGen table.Extends theirs ancestor ∧
        (table.symbol ancestor).name = (table.symbol mine).name := by
  rw [accepts, DerivedName.isExtensionOf, decide_eq_true_iff, Table.mem_chain_iff foundOther,
    Table.name_of_derivedName? found]

end

/-- Types are told apart as their declarations are, exactly if the name of the first belongs to the second
only if they are the same, and to an ancestor of the second only if the first is an ancestor too. -/
theorem types_identified_iff (found : table.derivedName? mine = some type)
    (foundOther : table.derivedName? theirs = some other) :
    (((DynamicType.type type).accepts (.type other) = true ↔ mine = theirs) ∧
        ((DynamicType.classOf type).accepts (.type other) = true ↔ ReflTransGen table.Extends theirs mine)) ↔
      ((table.symbol mine).name = (table.symbol theirs).name → mine = theirs) ∧
        ∀ ancestor, ReflTransGen table.Extends theirs ancestor →
          (table.symbol ancestor).name = (table.symbol mine).name →
          ReflTransGen table.Extends theirs mine := by
  rw [type_accepts_iff found foundOther, classOf_accepts_iff found foundOther]
  constructor
  · rintro ⟨same, reached⟩
    exact ⟨same.mp, fun ancestor reaches named => reached.mp ⟨ancestor, reaches, named⟩⟩
  · rintro ⟨same, reached⟩
    refine ⟨⟨same, fun equal => by rw [equal]⟩, ?_, fun reaches => ⟨mine, reaches, rfl⟩⟩
    rintro ⟨ancestor, reaches, named⟩
    exact reached ancestor reaches named

def emptyType (name : String) (parent : Option String) : Tree.Decl :=
  .derivedType ⟨name, parent, false, [], [], ⟨0, 1⟩⟩

/-- A module with a type `a`, an extension `b` of it and an extension `c` of `b`. -/
def extendedTwice : Tree.Program :=
  ⟨[.module ⟨"m", [emptyType "a" none, emptyType "b" "a", emptyType "c" "b"], [], ⟨0, 1⟩⟩]⟩

theorem types_identified_extendedTwice :
    ((DynamicType.type ⟨"a", []⟩).accepts (.type ⟨"c", ["b", "a"]⟩) = true ↔
        (⟨1⟩ : SymbolId) = ⟨3⟩) ∧
      ((DynamicType.classOf ⟨"a", []⟩).accepts (.type ⟨"c", ["b", "a"]⟩) = true ↔
        ReflTransGen extendedTwice.resolve.table.Extends ⟨3⟩ ⟨1⟩) := by
  have first : extendedTwice.resolve.table.derivedName? ⟨1⟩ = some ⟨"a", []⟩ := by decide +kernel
  have last : extendedTwice.resolve.table.derivedName? ⟨3⟩ = some ⟨"c", ["b", "a"]⟩ := by
    decide +kernel
  have lower : parentType? (extendedTwice.resolve.table.details ⟨3⟩) = some ⟨2⟩ := by decide +kernel
  have upper : parentType? (extendedTwice.resolve.table.details ⟨2⟩) = some ⟨1⟩ := by decide +kernel
  refine (types_identified_iff first last).mpr ⟨?_, fun _ _ _ => .head lower (.single upper)⟩
  intro same
  exact absurd same (by decide +kernel)

def sameNameTwice : Tree.Program :=
  ⟨["m", "n"].map fun name => .module ⟨name, [emptyType "t" none], [], ⟨0, 1⟩⟩⟩

/-- Types of two modules are taken for one another. -/
theorem types_confused_sameNameTwice :
    sameNameTwice.resolve.findings = [] ∧
      sameNameTwice.resolve.table.derivedName? ⟨1⟩ = some ⟨"t", []⟩ ∧
      sameNameTwice.resolve.table.derivedName? ⟨3⟩ = some ⟨"t", []⟩ ∧
      (DynamicType.type ⟨"t", []⟩).accepts (.type ⟨"t", []⟩) = true ∧
      (⟨1⟩ : SymbolId) ≠ ⟨3⟩ := by
  decide +kernel

end DynamicType

end FortranInterface
