import StackScript.Machine.Operation

/-!
# Exact Integers

The operators do not compute with 64 bits and hope for the best: an integer that they yield is the
exact result, and if that does not fit, they fail.

## Main definitions

* `Arithmetic.exact`: the exact result of an operation on integers.

## Main results

* `Arithmetic.power?_bind`: the shortcut for powers loses no result.
* `Arithmetic.onIntegers_eq`: **an operation yields its exact result or fails**.
-/

namespace StackScript

namespace Arithmetic

/-- The **exact** result of an operation on integers. -/
def exact : Arithmetic → Int → Int → Int
  | add, a, b => a + b
  | sub, a, b => a - b
  | mul, a, b => a * b
  | div, a, b => a.tdiv b
  | pow, a, b => a.pow b.toNat

/-- One more factor is multiplied on the right. -/
theorem pow_next (base : Int) (n : Nat) : base.pow (n + 1) = base.pow n * base :=
  Int.pow_succ base n

/-- The powers of `-1`, `0` and `1` repeat with period two from the first on. -/
theorem pow_add_three {base : Int} (small : base.natAbs ≤ 1) (n : Nat) :
    base.pow (n + 3) = base.pow (n + 1) := by
  have cube : base * base * base = base := by
    obtain rfl | rfl | rfl : base = -1 ∨ base = 0 ∨ base = 1 := by omega
    · rfl
    · rfl
    · rfl
  calc base.pow (n + 3) = base.pow n * base * base * base := by
        rw [pow_next, pow_next, pow_next]
    _ = base.pow n * (base * base * base) := by rw [Int.mul_assoc, Int.mul_assoc, Int.mul_assoc]
    _ = base.pow (n + 1) := by rw [cube, pow_next]

/-- So every higher power is the second or the third. -/
theorem pow_eq_of_small {base : Int} (small : base.natAbs ≤ 1) (n : Nat) :
    base.pow (if n < 2 then n else 2 + n % 2) = base.pow n := by
  induction n using Nat.strongRecOn with
  | ind n ih =>
      by_cases low : n < 4
      · have same : (if n < 2 then n else 2 + n % 2) = n := by
          split <;> omega
        rw [same]
      · obtain ⟨k, rfl⟩ := Nat.exists_eq_add_of_le' (show 3 ≤ n by omega)
        have before := ih (k + 1) (by omega)
        rw [if_neg (by omega), show (k + 1) % 2 = (k + 3) % 2 by omega] at before
        rw [if_neg (by omega), before, pow_add_three small]

/-- A power of any other base is at least as large as that of two. -/
theorem two_pow_le_natAbs_pow {base : Int} (large : 2 ≤ base.natAbs) (n : Nat) :
    Nat.pow 2 n ≤ (base.pow n).natAbs := by
  induction n with
  | zero => exact Nat.le_of_eq (congrArg Int.natAbs (Int.pow_zero base).symm)
  | succ n ih =>
      calc Nat.pow 2 (n + 1) = Nat.pow 2 n * 2 := rfl
        _ ≤ (base.pow n).natAbs * base.natAbs := Nat.mul_le_mul ih large
        _ = (base.pow (n + 1)).natAbs := by rw [pow_next, Int.natAbs_mul]

/-- The shortcut for powers loses none that has 64 bits. -/
theorem power?_bind (base : Int) (n : Nat) :
    (power? base n).bind integer64? = integer64? (base.pow n) := by
  rw [power?]
  split
  · next small => rw [Option.bind_some, pow_eq_of_small small]
  · next large =>
      split
      · rfl
      · next high =>
          have power : Nat.pow 2 64 ≤ (base.pow n).natAbs :=
            Nat.le_trans (Nat.pow_le_pow_right (by omega) (by omega))
              (two_pow_le_natAbs_pow (by omega) n)
          have number : Nat.pow 2 64 = 18446744073709551616 := rfl
          rw [Option.bind_none, integer64?, if_neg]
          rw [Int64.toInt_minValue, Int64.toInt_maxValue]
          omega

/-- **An operation yields its exact result or fails.** Only a division by zero and a power with a
negative exponent are no operations on integers. -/
theorem onIntegers_eq {op : Arithmetic} {a b : Int64} (dividing : op = div → b.toInt ≠ 0)
    (raising : op = pow → 0 ≤ b.toInt) :
    op.onIntegers a b =
      match integer64? (op.exact a.toInt b.toInt) with
      | some n => .ok (.integer n)
      | none => .error (.integerOverflow op.symbol) := by
  cases op with
  | add | sub | mul => rfl
  | div =>
      simp only [onIntegers, if_neg (dividing rfl)]
      rfl
  | pow =>
      simp only [onIntegers, if_neg (Int.not_lt.mpr (raising rfl)), power?_bind]
      rfl

/-- No operation on floats yields an integer. -/
theorem onFloats_ne_integer (op : Arithmetic) (x y : Binary64) (n : Int64) :
    op.onFloats x y ≠ .ok (.integer n) := by
  intro h
  rw [onFloats.eq_def] at h
  cases op with
  | add | sub | mul | div | pow =>
      simp only at h
      (repeat' split at h) <;> cases h

/-- An integer that an operation on integers yields is its exact result. -/
theorem exact_of_apply {op : Arithmetic} {a b n : Int64}
    (h : op.apply (.integer a) (.integer b) = .ok (.integer n)) :
    n.toInt = op.exact a.toInt b.toInt := by
  have integers : op.onIntegers a b = .ok (.integer n) := h
  by_cases zero : op = div ∧ b.toInt = 0
  · obtain ⟨rfl, zero⟩ := zero
    rw [onIntegers, if_pos zero] at integers
    cases integers
  by_cases negative : op = pow ∧ b.toInt < 0
  · obtain ⟨rfl, negative⟩ := negative
    rw [onIntegers, if_pos negative] at integers
    exact absurd integers (onFloats_ne_integer _ _ _ _)
  rw [onIntegers_eq (fun dividing => fun zero' => zero ⟨dividing, zero'⟩)
    (fun raising => Int.not_lt.mp fun negative' => negative ⟨raising, negative'⟩)] at integers
  split at integers
  · next fits =>
      cases integers
      exact integer64?_eq_some_iff.mp fits
  · cases integers

end Arithmetic

/-- An integer that is a negative is the exact one. -/
theorem Value.exact_of_negate {a n : Int64} (h : (integer a).negate = .ok (integer n)) :
    n.toInt = -a.toInt := by
  rw [negate] at h
  split at h
  · next fits =>
      cases h
      exact integer64?_eq_some_iff.mp fits
  · cases h

end StackScript
