import StackScript.Assembly

/-!
# Names and Constants as They Grow

A compilation only adds to the names and constants it is given: a name keeps its slot, a constant
its index. So the tables at the end of a compilation can stand for those at any moment of it.

## Main definitions

* `NameTable.Sound`, `ConstantPool.Sound`: what holds of the tables of every session.
* `NameTable.Grows`, `ConstantPool.Grows`: a table that came to hold more.

## Main results

* `NameTable.Sound.bind`, `ConstantPool.Sound.push`: the steps of a compilation keep tables sound.
* `NameTable.grows_bind`, `ConstantPool.grows_push`: and only add to them.
-/

namespace StackScript

/-! ### Names -/

namespace NameTable

variable {t t' t'' : NameTable} {name other : String} {slot : Nat}

/-- A name that is new makes the table one larger. -/
theorem size_bind_of_none (h : t.slot? name = none) : (t.bind name).size = t.size + 1 := by
  have new : name ∉ t.slots := by
    rw [Std.TreeMap.mem_iff_isSome_getElem?]
    rw [slot?] at h
    simp [h]
  rw [size_bind, if_neg new]

/-- A name that is bound again leaves the table as large as it was. -/
theorem size_bind_of_some (h : t.slot? name = some slot) : (t.bind name).size = t.size := by
  have known : name ∈ t.slots := by
    rw [Std.TreeMap.mem_iff_isSome_getElem?]
    rw [slot?] at h
    simp [h]
  rw [size_bind, if_pos known]

/-- A name that is bound keeps its slot. -/
theorem slotFor_of_some (h : t.slot? name = some slot) : t.slotFor name = slot := by
  rw [slotFor, h, Option.getD_some]

/-- A name that is new gets the next slot. -/
theorem slotFor_of_none (h : t.slot? name = none) : t.slotFor name = t.size := by
  rw [slotFor, h, Option.getD_none]

/-- **Sound names**: every name has a slot of its own, all slots lie below the number of names,
and an operand can tell them apart. -/
structure Sound (t : NameTable) : Prop where
  slot_lt : ∀ {name slot}, t.slot? name = some slot → slot < t.size
  injective : ∀ {a b slot}, t.slot? a = some slot → t.slot? b = some slot → a = b
  size_le : t.size ≤ Assembly.slotLimit

/-- The empty table is sound. -/
theorem sound_empty : Sound {} where
  slot_lt h := by simp [slot?] at h
  injective h := by simp [slot?] at h
  size_le := by simp [size]

/-- A sound slot can be written in an operand. -/
theorem Sound.toNat_ofNat (sound : t.Sound) (h : t.slot? name = some slot) :
    (UInt16.ofNat slot).toNat = slot :=
  UInt16.toNat_ofNat_of_lt (Nat.lt_of_lt_of_le (sound.slot_lt h) sound.size_le)

/-- Binding a name keeps the names sound as long as there is a slot for it. -/
theorem Sound.bind (sound : t.Sound) (room : t.slotFor name < Assembly.slotLimit) :
    (t.bind name).Sound := by
  cases h : t.slot? name with
  | some slot =>
      have same (other : String) : (t.bind name).slot? other = t.slot? other := by
        rw [slot?_bind]
        split
        · next eq => rw [eq, h, slotFor_of_some h]
        · rfl
      refine ⟨fun hs => ?_, fun ha hb => ?_, ?_⟩
      · rw [size_bind_of_some h]
        rw [same] at hs
        exact sound.slot_lt hs
      · rw [same] at ha hb
        exact sound.injective ha hb
      · rw [size_bind_of_some h]
        exact sound.size_le
  | none =>
      rw [slotFor_of_none h] at room
      have new : t.slotFor name = t.size := slotFor_of_none h
      refine ⟨fun {other slot} hs => ?_, fun {a b slot} ha hb => ?_, ?_⟩
      · rw [size_bind_of_none h]
        rw [slot?_bind, new] at hs
        split at hs
        · cases hs
          exact Nat.lt_succ_self _
        · exact Nat.lt_succ_of_lt (sound.slot_lt hs)
      · rw [slot?_bind, new] at ha hb
        split at ha
        · next isA =>
            split at hb
            · next isB => rw [isA, isB]
            · cases ha
              exact absurd (sound.slot_lt hb) (Nat.lt_irrefl _)
        · split at hb
          · cases hb
            exact absurd (sound.slot_lt ha) (Nat.lt_irrefl _)
          · exact sound.injective ha hb
      · rw [size_bind_of_none h]
        exact room

/-- Names that came to be more: each keeps its slot, and the slots of new ones are new. -/
structure Grows (t t' : NameTable) : Prop where
  keeps : ∀ {name slot}, t.slot? name = some slot → t'.slot? name = some slot
  fresh : ∀ {name slot}, t.slot? name = none → t'.slot? name = some slot → t.size ≤ slot
  size_le : t.size ≤ t'.size

/-- Names that stay the same are a case of growing. -/
theorem Grows.refl (t : NameTable) : t.Grows t where
  keeps h := h
  fresh new h := by
    rw [new] at h
    cases h
  size_le := Nat.le_refl _

/-- What grows further has grown. -/
theorem Grows.trans (h : t.Grows t') (h' : t'.Grows t'') : t.Grows t'' where
  keeps hs := h'.keeps (h.keeps hs)
  fresh {name slot} new hs := by
    cases between : t'.slot? name with
    | some slot' =>
        have same := h'.keeps between
        rw [hs] at same
        cases same
        exact h.fresh new between
    | none => exact Nat.le_trans h.size_le (h'.fresh between hs)
  size_le := Nat.le_trans h.size_le h'.size_le

/-- To bind a name takes no slot from any other. -/
theorem grows_bind (t : NameTable) (name : String) : t.Grows (t.bind name) where
  keeps {other slot} h := by
    rw [slot?_bind]
    split
    · next eq => rw [slotFor_of_some (eq ▸ h)]
    · exact h
  fresh {other slot} new h := by
    rw [slot?_bind] at h
    split at h
    · next eq =>
        rw [slotFor_of_none (eq ▸ new)] at h
        cases h
        exact Nat.le_refl _
    · rw [new] at h
      cases h
  size_le := by
    rw [size_bind]
    split <;> omega

/-- A name that was bound has the slot that was meant for it. -/
theorem slot?_bind_self (t : NameTable) (name : String) :
    (t.bind name).slot? name = some (t.slotFor name) := by
  rw [slot?_bind, if_pos rfl]

end NameTable

/-! ### Constants -/

namespace ConstantPool

variable {p p' p'' : ConstantPool} {v : Value} {index : Nat}

/-- **Sound constants**: an index that is found for a constant is one at which it stands, and an
operand can tell all indices apart. -/
structure Sound (p : ConstantPool) : Prop where
  found : ∀ {v index}, p.index? v = some index → p.values[index]? = some v
  size_le : p.size ≤ capacity

/-- The empty pool is sound. -/
theorem sound_empty : Sound {} where
  found h := by simp [index?] at h
  size_le := by simp [size, capacity]

/-- The index of a sound constant is one of the pool. -/
theorem Sound.index_lt (sound : p.Sound) (h : p.index? v = some index) :
    index < p.values.size :=
  (Array.getElem?_eq_some_iff.mp (sound.found h)).1

/-- The index of a sound constant can be written in an operand. -/
theorem Sound.toNat_ofNat (sound : p.Sound) (h : p.index? v = some index) :
    (UInt16.ofNat index).toNat = index :=
  UInt16.toNat_ofNat_of_lt (Nat.lt_of_lt_of_le (sound.index_lt h) sound.size_le)

/-- A new constant keeps the constants sound as long as there is an index for it. -/
theorem Sound.push (sound : p.Sound) (new : p.index? v = none) (room : p.size < capacity) :
    (p.push v).Sound where
  found {w index} h := by
    rw [index?_push, new, Option.getD_none] at h
    split at h
    · next eq =>
        cases h
        simp [ConstantPool.push, size, eq]
    · have old := sound.found h
      rw [ConstantPool.push, Array.getElem?_push_lt (sound.index_lt h)]
      rwa [Array.getElem?_eq_getElem (sound.index_lt h)] at old
  size_le := by
    simp only [size, ConstantPool.push, Array.size_push]
    exact room

/-- Constants that came to be more: each keeps its index, and what stood at an index stays. -/
structure Grows (p p' : ConstantPool) : Prop where
  keeps : ∀ {v index}, p.index? v = some index → p'.index? v = some index
  stays : ∀ k < p.values.size, p'.values[k]? = p.values[k]?
  size_le : p.values.size ≤ p'.values.size

/-- Constants that stay the same are a case of growing. -/
theorem Grows.refl (p : ConstantPool) : p.Grows p :=
  ⟨fun h => h, fun _ _ => rfl, Nat.le_refl _⟩

/-- What grows further has grown. -/
theorem Grows.trans (h : p.Grows p') (h' : p'.Grows p'') : p.Grows p'' where
  keeps hv := h'.keeps (h.keeps hv)
  stays k hk := by rw [h'.stays k (Nat.lt_of_lt_of_le hk h.size_le), h.stays k hk]
  size_le := Nat.le_trans h.size_le h'.size_le

/-- What stands at an index stands there later. -/
theorem Grows.stands (h : p.Grows p') (stands : p.values[index]? = some v) :
    p'.values[index]? = some v := by
  rw [h.stays index (Array.getElem?_eq_some_iff.mp stands).1, stands]

/-- To add a constant changes the index of no other. -/
theorem grows_push (p : ConstantPool) (v : Value) : p.Grows (p.push v) where
  keeps {w index} h := by
    rw [index?_push]
    split
    · next eq => rw [← eq, h, Option.getD_some]
    · exact h
  stays k hk := by
    rw [push, Array.getElem?_push_lt hk, Array.getElem?_eq_getElem hk]
  size_le := by
    simp only [push, Array.size_push]
    omega

/-- A new constant has the next index. -/
theorem index?_push_self (new : p.index? v = none) : (p.push v).index? v = some p.size := by
  rw [index?_push, if_pos rfl, new, Option.getD_none]

end ConstantPool

end StackScript
