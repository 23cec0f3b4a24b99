import Std.Data.TreeMap

/-!
# Name Tables

The global names of a program, each with the slot its value is kept in. Slots are given out in
the order in which names are first bound; binding a name again keeps its slot.

## Main definitions

* `NameTable`, with `slot?`, `slotFor`, `bind` and `size`.

## Main results

* `NameTable.slot?_bind`: what every name's slot is after a binding.
* `NameTable.size_bind`: how a table grows.
-/

namespace StackScript

/-- A **name table**: names and their slots. -/
structure NameTable where
  slots : Std.TreeMap String Nat := ∅

namespace NameTable

instance : Inhabited NameTable := ⟨{}⟩

/-- The number of names. -/
def size (t : NameTable) : Nat := t.slots.size

/-- The slot of a name. -/
def slot? (t : NameTable) (name : String) : Option Nat := t.slots[name]?

/-- The slot that a name has once it is bound: its own, or the next one. -/
def slotFor (t : NameTable) (name : String) : Nat := (t.slot? name).getD t.size

/-- The table with the name bound. -/
def bind (t : NameTable) (name : String) : NameTable :=
  let next := t.size
  ⟨t.slots.insertIfNew name next⟩

/-- The name that was bound has its slot now, and every other name the slot from before. -/
theorem slot?_bind (t : NameTable) (name other : String) :
    (t.bind name).slot? other =
      if other = name then some (t.slotFor name) else t.slot? other := by
  simp only [bind, slot?, slotFor, size, Std.TreeMap.getElem?_insertIfNew,
    Std.LawfulEqOrd.compare_eq_iff_eq]
  by_cases same : other = name
  · subst same
    by_cases bound : other ∈ t.slots
    · simp [bound]
    · simp [bound]
  · simp [same, Ne.symm same]

/-- A table grows only by a name that it does not have. -/
theorem size_bind (t : NameTable) (name : String) :
    (t.bind name).size = if name ∈ t.slots then t.size else t.size + 1 := by
  simp [bind, size, Std.TreeMap.size_insertIfNew]

end NameTable

end StackScript
