import StackScript.Value

/-!
# The Stack

The stack of the machine has a fixed number of slots. A value that is popped stays in its slot
until another is pushed over it, so the slot just above the top can still be read: after a
discarded value, it holds that value. A stack is therefore two runs of slots, those below the
pointer and those that were left behind above it; slots never used hold `null`.

## Main definitions

* `Stack`: the live values, bottom first, and the stale ones, nearest to the pointer first.
* `Stack.push`, `top?`, `drop`, `justAbove`, `clear`.

## Main results

* `Stack.top?_eq_none_iff`: only an empty stack has no top.
-/

namespace StackScript

/-- A **stack**, and what was left behind above its top. -/
structure Stack where
  /-- The values on the stack, the top one last. -/
  live : Array Value := #[]
  /-- The values left in the slots above, from the pointer on. -/
  stale : List Value := []
  deriving DecidableEq, Inhabited, Repr

namespace Stack

/-- The number of values on the stack. -/
def height (s : Stack) : Nat := s.live.size

/-- The stack with one more value, over whatever its slot held. -/
def push (s : Stack) (v : Value) : Stack :=
  ⟨s.live.push v, s.stale.tail⟩

/-- The top value. -/
def top? (s : Stack) : Option Value := s.live.back?

/-- The stack without its top value, which is `v`. -/
def drop (s : Stack) (v : Value) : Stack :=
  ⟨s.live.pop, v :: s.stale⟩

/-- What the slot just above the top holds. -/
def justAbove (s : Stack) : Value := s.stale.headD .null

/-- The empty stack over the same slots. -/
def clear (s : Stack) : Stack :=
  ⟨#[], s.live.toList ++ s.stale⟩

/-- What was pushed is on top. -/
@[simp] theorem top?_push (s : Stack) (v : Value) : (s.push v).top? = some v := by
  simp [top?, push]

/-- A push makes a stack one higher. -/
@[simp] theorem height_push (s : Stack) (v : Value) : (s.push v).height = s.height + 1 := by
  simp [height, push]

/-- A drop makes a stack one lower, unless it is empty. -/
@[simp] theorem height_drop (s : Stack) (v : Value) : (s.drop v).height = s.height - 1 := by
  simp [height, drop]

/-- Only an empty stack has no top. -/
theorem top?_eq_none_iff {s : Stack} : s.top? = none ↔ s.height = 0 := by
  simp [top?, height]

end Stack

end StackScript
