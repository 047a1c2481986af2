/-!
Sets of flags from a small enumeration. A set lists its members in the order of the enumeration and
without repetition, so two sets with the same members are the same set.
-/

namespace FortranInterface

class Enumerated (α : Type) where
  all : List α
  complete : ∀ value : α, value ∈ all
  label : α → String

def Enumerated.ofLabel? (α : Type) [Enumerated α] (name : String) : Option α :=
  (Enumerated.all : List α).find? fun value => Enumerated.label value == name

structure Flags (α : Type) where
  members : List α
  deriving DecidableEq

namespace Flags

variable {α : Type}

def empty : Flags α :=
  ⟨[]⟩

instance : Inhabited (Flags α) :=
  ⟨empty⟩

def isEmpty (flags : Flags α) : Bool :=
  flags.members.isEmpty

variable [DecidableEq α]

def has (flags : Flags α) (value : α) : Bool :=
  decide (value ∈ flags.members)

def erase (flags : Flags α) (value : α) : Flags α :=
  ⟨flags.members.filter (· ≠ value)⟩

variable [Enumerated α]

def ofList (values : List α) : Flags α :=
  ⟨(Enumerated.all : List α).filter fun value => decide (value ∈ values)⟩

def insert (flags : Flags α) (value : α) : Flags α :=
  ofList (value :: flags.members)

def union (flags others : Flags α) : Flags α :=
  ofList (flags.members ++ others.members)

def set (flags : Flags α) (value : α) (present : Bool) : Flags α :=
  if present then flags.insert value else flags.erase value

theorem mem_ofList {values : List α} {value : α} :
    value ∈ (ofList values).members ↔ value ∈ values := by
  simp [ofList, Enumerated.complete]

@[simp]
theorem has_insert (flags : Flags α) (value other : α) :
    (flags.insert value).has other = (decide (other = value) || flags.has other) := by
  simp only [has, insert, mem_ofList, List.mem_cons, Bool.decide_or]

omit [Enumerated α] in
@[simp]
theorem has_erase (flags : Flags α) (value other : α) :
    (flags.erase value).has other = (decide (other ≠ value) && flags.has other) := by
  simp only [has, erase, List.mem_filter, Bool.decide_and, decide_eq_true_eq]
  exact Bool.and_comm _ _

omit [Enumerated α] in
@[simp]
theorem has_empty (value : α) : (empty : Flags α).has value = false := by
  simp [has, empty]

@[simp]
theorem has_ofList (values : List α) (value : α) :
    (ofList values).has value = decide (value ∈ values) := by
  simp only [has, mem_ofList]

@[simp]
theorem has_union (flags others : Flags α) (value : α) :
    (flags.union others).has value = (flags.has value || others.has value) := by
  simp only [has, union, mem_ofList, List.mem_append, Bool.decide_or]

end Flags

end FortranInterface
