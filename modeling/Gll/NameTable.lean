import Std.Data.HashMap

/-!
A table that numbers names in the order in which they first come up. A number once given stays with
its name, and looking up works in both directions.
-/

set_option autoImplicit false

namespace Gll

/-- The number of a name in a `NameTable`. -/
structure NameId where
  index : Nat
deriving DecidableEq, Repr, Inhabited

/-- Numbered names: `names` by number, `numbers` by name. -/
structure NameTable where
  names : Array String
  numbers : Std.HashMap String Nat

namespace NameTable

/-- The table without names. -/
def empty : NameTable := ⟨#[], ∅⟩

/-- How many names there are. -/
def size (table : NameTable) : Nat := table.names.size

/-- Whether there is no name. -/
def isEmpty (table : NameTable) : Bool := table.names.isEmpty

/-- The number of a name that is in the table. -/
def find? (table : NameTable) (name : String) : Option NameId :=
  table.numbers[name]?.map NameId.mk

/-- The name that has a number, if the number was given out. -/
def name? (table : NameTable) (id : NameId) : Option String :=
  table.names[id.index]?

/-- The number of a name; a name that is not in the table gets the next number. -/
def intern (table : NameTable) (name : String) : NameId × NameTable :=
  match table.find? name with
  | some id => (id, table)
  | none =>
    (⟨table.size⟩, ⟨table.names.push name, table.numbers.insert name table.size⟩)

/-! ## Looking up after interning -/

@[simp] theorem find?_empty (name : String) : empty.find? name = none := by
  simp [find?, empty]

/-- Interning a name makes it known under its number, and leaves the other names alone. -/
theorem find?_intern (table : NameTable) (name other : String) :
    (table.intern name).2.find? other
      = if name = other then some (table.intern name).1 else table.find? other := by
  rw [intern]
  split
  · rename_i id hfind
    by_cases h : name = other
    · rw [if_pos h, ← h]
      exact hfind
    · rw [if_neg h]
  · by_cases h : name = other
    · simp [find?, h]
    · simp [find?, Std.HashMap.getElem?_insert, h]

/-- A number once given stays with its name. -/
theorem find?_intern_of_find? {table : NameTable} {name other : String} {id : NameId}
    (h : table.find? other = some id) : (table.intern name).2.find? other = some id := by
  rw [find?_intern]
  split
  · rename_i heq
    rw [intern, heq, h]
  · exact h

/-- A new name gets the next number. -/
theorem find?_intern_of_new {table : NameTable} {name : String} (h : table.find? name = none) :
    (table.intern name).2.find? name = some ⟨table.size⟩ ∧
      (table.intern name).2.size = table.size + 1 := by
  constructor
  · rw [find?_intern, if_pos rfl, intern, h]
  · rw [intern, h]
    simp [size]

end NameTable

end Gll
