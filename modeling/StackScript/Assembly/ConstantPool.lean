import StackScript.Value.Order

/-!
# Constant Pools

The constants of a program, each kept once and referred to by its index. A constant that is
already in the pool is found by an index table instead of being kept again; floats are the same
constant only when they are the same bits.

## Main definitions

* `ConstantPool`: constants and the table of their first indices.
* `ConstantPool.ofValues`: the pool of given constants, which may repeat.
* `ConstantPool.index?`: the index of a constant that is in the pool.
* `ConstantPool.push`: a pool with one more constant.

## Main results

* `ConstantPool.index?_push`: what every constant's index is in a pool with one more.
-/

namespace StackScript

/-- A **constant pool**: constants, and for each the index at which it first occurs. -/
structure ConstantPool where
  values : Array Value := #[]
  firstIndex : Std.TreeMap Value Nat := ∅

namespace ConstantPool

instance : Inhabited ConstantPool := ⟨{}⟩

/-- As many constants as an operand can tell apart. -/
def capacity : Nat := 65536

/-- The number of constants. -/
def size (pool : ConstantPool) : Nat := pool.values.size

/-- The first index of a constant. -/
def index? (pool : ConstantPool) (v : Value) : Option Nat := pool.firstIndex[v]?

/-- A pool with one more constant at its end. -/
def push (pool : ConstantPool) (v : Value) : ConstantPool :=
  let firstIndex := pool.firstIndex.insertIfNew v pool.values.size
  { values := pool.values.push v, firstIndex }

/-- The pool of the given constants, in their order. -/
def ofValues (values : Array Value) : ConstantPool :=
  values.foldl push {}

/-- The first index of a pushed constant is the one it had, or the new one. -/
theorem index?_push (pool : ConstantPool) (v other : Value) :
    (pool.push v).index? other =
      if other = v then some ((pool.index? v).getD pool.size) else pool.index? other := by
  simp only [push, index?, size, Std.TreeMap.getElem?_insertIfNew,
    Std.LawfulEqOrd.compare_eq_iff_eq]
  by_cases same : other = v
  · subst same
    by_cases known : other ∈ pool.firstIndex
    · simp [known]
    · simp [known]
  · simp [same, Ne.symm same]

end ConstantPool

end StackScript
