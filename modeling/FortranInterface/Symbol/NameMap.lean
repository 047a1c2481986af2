import FortranInterface.Symbol.Id

/-!
The names of a scope and the symbols they stand for, in the order of the names.
-/

namespace FortranInterface

structure NameMap where
  entries : List (String × SymbolId)

namespace NameMap

def empty : NameMap :=
  ⟨[]⟩

def find? (map : NameMap) (name : String) : Option SymbolId :=
  map.entries.lookup name

def insertInto (name : String) (id : SymbolId) : List (String × SymbolId) → List (String × SymbolId)
  | [] => [(name, id)]
  | entry :: rest =>
    if entry.1 < name then entry :: insertInto name id rest
    else if entry.1 = name then (name, id) :: rest
    else (name, id) :: entry :: rest

def insert (map : NameMap) (name : String) (id : SymbolId) : NameMap :=
  ⟨insertInto name id map.entries⟩

@[simp]
theorem find?_empty (name : String) : empty.find? name = none := rfl

theorem lookup_insertInto (name other : String) (id : SymbolId)
    (entries : List (String × SymbolId)) :
    (insertInto name id entries).lookup other =
      if other = name then some id else entries.lookup other := by
  induction entries with
  | nil =>
      by_cases same : other = name
      · simp [insertInto, same]
      · simp [insertInto, List.lookup_cons, same, beq_eq_false_iff_ne.mpr same]
  | cons entry rest ih =>
      obtain ⟨key, value⟩ := entry
      simp only [insertInto]
      split
      · rename_i less
        simp only [List.lookup_cons]
        by_cases first : other = key
        · subst first
          have different : other ≠ name := fun equal => by
            subst equal
            exact String.lt_irrefl _ less
          simp [different]
        · rw [beq_eq_false_iff_ne.mpr first]
          exact ih
      · split
        · rename_i equal
          subst equal
          by_cases same : other = key
          · simp [same]
          · simp [List.lookup_cons, same, beq_eq_false_iff_ne.mpr same]
        · by_cases same : other = name
          · simp [same]
          · simp [List.lookup_cons, beq_eq_false_iff_ne.mpr same, same]

@[simp]
theorem find?_insert (map : NameMap) (name other : String) (id : SymbolId) :
    (map.insert name id).find? other = if other = name then some id else map.find? other :=
  lookup_insertInto name other id map.entries

end NameMap

end FortranInterface
