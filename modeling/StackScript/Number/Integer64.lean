/-!
# Integers of 64 Bits

A number that is known exactly is an integer of the language just when it fits.

## Main definitions

* `integer64?`: the integer of 64 bits that a number is.

## Main results

* `integer64?_eq_some_iff`: it is the one with this number as its value.
-/

namespace StackScript

/-- The integer of 64 bits that a number is, if it is one. -/
def integer64? (n : Int) : Option Int64 :=
  if Int64.minValue.toInt ≤ n ∧ n ≤ Int64.maxValue.toInt then some (Int64.ofInt n) else none

/-- A whole number has an integer of 64 bits just when there is one of its value. -/
theorem integer64?_eq_some_iff {n : Int} {value : Int64} :
    integer64? n = some value ↔ value.toInt = n := by
  unfold integer64?
  have low := value.le_toInt
  have high := value.toInt_lt
  simp only [Int64.toInt_minValue, Int64.toInt_maxValue]
  split
  · next range =>
    rw [Option.some.injEq]
    constructor
    · rintro rfl
      exact Int64.toInt_ofInt_of_le range.1 (by omega)
    · rintro rfl
      exact Int64.ofInt_toInt value
  · next range =>
    constructor
    · intro h
      exact absurd h (by simp)
    · rintro rfl
      exact absurd ⟨low, by omega⟩ range

end StackScript
