import StackScript.Number.Binary64

/-!
# Where Rounding Overflows

A ratio that is rounded to the nearest pattern comes out as infinity just if it is not less than the
number in the middle between the largest finite one, `2 ^ 1024 - 2 ^ 971`, and the next power of
two. In that middle itself the tie goes to the even side, which is infinity.

The last place that a ratio is rounded at is found from the logarithms of its two parts, which give
it up to one, and one comparison. All of these are comparisons with powers of two.

## Main definitions

* `Binary64.Below`: a ratio is less than a power of two.
* `Binary64.overflowBound`: the least number that rounds to infinity.

## Main results

* `Binary64.below_lastPlace`, `not_below_lastPlace`: where the last place lies.
* `Binary64.roundToEven_le_iff`: how far a number rounds to an odd one or less.
* `Binary64.roundRatio_lt_infinity_iff`: **where rounding overflows**.
* `Binary64.isFinite_ofDecimal`: which decimal numbers are read as finite ones.
-/

namespace StackScript

namespace Binary64

/-- Shifts by the same number of bits keep the order. -/
theorem shiftLeft_le_shiftLeft_iff {a b k : Nat} : a <<< k ≤ b <<< k ↔ a ≤ b := by
  rw [Nat.shiftLeft_eq, Nat.shiftLeft_eq]
  exact Nat.mul_le_mul_right_iff (Nat.two_pow_pos k)

/-- They keep the strict order as well. -/
theorem shiftLeft_lt_shiftLeft_iff {a b k : Nat} : a <<< k < b <<< k ↔ a < b := by
  rw [← Nat.not_le, shiftLeft_le_shiftLeft_iff, Nat.not_le]

/-- A longer shift gives no less. -/
theorem shiftLeft_le_of_le {a k k' : Nat} (le : k ≤ k') : a <<< k ≤ a <<< k' := by
  rw [Nat.shiftLeft_eq, Nat.shiftLeft_eq]
  exact Nat.mul_le_mul_left a (Nat.pow_le_pow_right (Nat.succ_pos 1) le)

/-- Shifts may be exchanged. -/
theorem shiftLeft_comm (a k k' : Nat) : a <<< k <<< k' = a <<< k' <<< k := by
  rw [← Nat.shiftLeft_add, ← Nat.shiftLeft_add, Nat.add_comm]

/-- A number lies between two powers of two. -/
theorem shift_log2_le {n : Nat} (positive : n ≠ 0) : 1 <<< n.log2 ≤ n := by
  rw [Nat.one_shiftLeft]
  exact Nat.log2_self_le positive

/-- A number is less than the next power of two. -/
theorem lt_shift_log2 (n : Nat) : n < 1 <<< (n.log2 + 1) := by
  rw [Nat.one_shiftLeft]
  exact Nat.lt_log2_self

/-! ### Comparisons with powers of two -/

/-- A ratio is **below** a power of two, which is given by its exponent. -/
def Below (num den : Nat) (exponent : Int) : Prop :=
  num <<< (-exponent).toNat < den <<< exponent.toNat

instance (num den : Nat) (exponent : Int) : Decidable (Below num den exponent) :=
  inferInstanceAs (Decidable (_ < _))

section Below

variable {num den : Nat} {e e' : Int}

/-- A power of two on both sides of the comparison makes no difference. -/
theorem below_iff {m k : Nat} (apart : (k : Int) - m = e) :
    Below num den e ↔ num <<< m < den <<< k := by
  obtain ⟨j, hm, hk⟩ : ∃ j, m = (-e).toNat + j ∧ k = e.toNat + j :=
    ⟨m - (-e).toNat, by omega, by omega⟩
  rw [hm, hk, Nat.shiftLeft_add, Nat.shiftLeft_add, shiftLeft_lt_shiftLeft_iff, Below]

/-- To compare with a power of two that is whole, only the denominator is shifted. -/
theorem below_natCast_iff {k : Nat} : Below num den k ↔ num < den <<< k :=
  below_iff (m := 0) (Int.sub_zero k)

/-- What is below a power of two is below every greater one. -/
theorem Below.mono (h : Below num den e) (le : e ≤ e') : Below num den e' := by
  have apart : (((e + (-e).toNat).toNat : Nat) : Int) - (-e).toNat = e := by omega
  have apart' : (((e' + (-e).toNat).toNat : Nat) : Int) - (-e).toNat = e' := by omega
  rw [below_iff apart] at h
  rw [below_iff apart']
  exact Nat.lt_of_lt_of_le h (shiftLeft_le_of_le (by omega))

/-- The logarithms give the exponent of a ratio up to one. -/
theorem below_log2 (positive : den ≠ 0) : Below num den (num.log2 - den.log2 + 1) := by
  rw [below_iff (m := den.log2) (k := num.log2 + 1) (by omega)]
  calc num <<< den.log2 < 1 <<< (num.log2 + 1) <<< den.log2 :=
        shiftLeft_lt_shiftLeft_iff.mpr (lt_shift_log2 num)
    _ = 1 <<< den.log2 <<< (num.log2 + 1) := shiftLeft_comm _ _ _
    _ ≤ den <<< (num.log2 + 1) := shiftLeft_le_shiftLeft_iff.mpr (shift_log2_le positive)

/-- Nor is it smaller by more than one. -/
theorem not_below_log2 (positive : num ≠ 0) : ¬ Below num den (num.log2 - den.log2 - 1) := by
  rw [below_iff (m := den.log2 + 1) (k := num.log2) (by omega), Nat.not_lt]
  calc den <<< num.log2 ≤ 1 <<< (den.log2 + 1) <<< num.log2 :=
        shiftLeft_le_shiftLeft_iff.mpr (Nat.le_of_lt (lt_shift_log2 den))
    _ = 1 <<< num.log2 <<< (den.log2 + 1) := shiftLeft_comm _ _ _
    _ ≤ num <<< (den.log2 + 1) := shiftLeft_le_shiftLeft_iff.mpr (shift_log2_le positive)

/-! ### The last place -/

/-- The last place before exponents end: the logarithms give a guess, and a comparison tells whether
it is too small by one. -/
theorem exists_lastPlace (num den : Nat) :
    ∃ e, lastPlace num den = max e (-1074) ∧
      (e = (num.log2 : Int) - den.log2 - 53 ∧ Below num den (e + 53) ∨
        e = (num.log2 : Int) - den.log2 - 52 ∧ ¬ Below num den (e + 52)) := by
  generalize guessed : (num.log2 : Int) - den.log2 - 53 = guess
  have short_iff : (if 0 ≤ guess then num < den <<< (guess.toNat + 53)
      else num <<< (-guess).toNat < den <<< 53) ↔ Below num den (guess + 53) := by
    split
    · rw [below_iff (m := 0) (k := guess.toNat + 53) (by omega)]
      rfl
    · rw [below_iff (m := (-guess).toNat) (k := 53) (by omega)]
  have place : lastPlace num den =
      max (if (if 0 ≤ guess then num < den <<< (guess.toNat + 53)
        else num <<< (-guess).toNat < den <<< 53) then guess else guess + 1) (-1074) := by
    subst guessed
    rfl
  simp only [short_iff] at place
  by_cases short : Below num den (guess + 53)
  · rw [if_pos short] at place
    exact ⟨guess, place, .inl ⟨rfl, short⟩⟩
  · rw [if_neg short] at place
    refine ⟨guess + 1, place, .inr ⟨by omega, ?_⟩⟩
    rwa [show guess + 1 + 52 = guess + 53 by omega]

/-- The last place is never finer than that of the subnormal numbers. -/
theorem le_lastPlace (num den : Nat) : -1074 ≤ lastPlace num den := by
  obtain ⟨e, place, -⟩ := exists_lastPlace num den
  omega

/-- In units of the last place a ratio has at most fifty-three binary digits. -/
theorem below_lastPlace (positive : den ≠ 0) : Below num den (lastPlace num den + 53) := by
  obtain ⟨e, place, ⟨-, short⟩ | ⟨guess, -⟩⟩ := exists_lastPlace num den
  · exact short.mono (by omega)
  · exact (below_log2 positive).mono (by omega)

/-- It has no fewer, unless the exponents end there. -/
theorem not_below_lastPlace (positive : num ≠ 0) (inner : lastPlace num den ≠ -1074) :
    ¬ Below num den (lastPlace num den + 52) := by
  obtain ⟨e, place, ⟨guess, -⟩ | ⟨-, long⟩⟩ := exists_lastPlace num den
  · intro below
    exact not_below_log2 positive (below.mono (by omega))
  · rwa [place, show max e (-1074) = e by omega]

end Below

/-! ### Rounding to a natural number -/

section RoundToEven

variable {num den bound : Nat}

/-- A number rounds to an odd one or less just if it is less than the middle between that and the
next. -/
theorem roundToEven_le_iff (positive : 0 < den) (odd : bound % 2 = 1) :
    roundToEven num den ≤ bound ↔ 2 * num < (2 * bound + 1) * den := by
  have parts := Nat.div_add_mod num den
  have rest := Nat.mod_lt num positive
  have middle : (2 * bound + 1) * den = 2 * (den * bound) + den := by
    rw [Nat.add_mul, Nat.one_mul, Nat.mul_assoc, Nat.mul_comm bound]
  rw [roundToEven, middle]
  rcases Nat.lt_trichotomy (num / den) bound with less | same | more
  · have le : den * (num / den) + den ≤ den * bound := Nat.mul_le_mul_left den less
    constructor
    · omega
    · split <;> omega
  · -- the quotient is the odd number itself, so that a tie goes up
    rw [same] at parts ⊢
    split <;> omega
  · have le : den * bound + den ≤ den * (num / den) := Nat.mul_le_mul_left den more
    constructor
    · split <;> omega
    · omega

/-- A number does not round below a natural number that it is not below. -/
theorem le_roundToEven (positive : 0 < den) (le : bound * den ≤ num) :
    bound ≤ roundToEven num den := by
  have quotient : bound ≤ num / den := (Nat.le_div_iff_mul_le positive).mpr le
  rw [roundToEven]
  split
  · exact quotient
  · exact Nat.le_succ_of_le quotient

end RoundToEven

/-! ### Overflow -/

/-- The least number that rounds to infinity, in the middle between the largest finite number and
the next power of two. -/
def overflowBound : Nat :=
  1 <<< 1024 - 1 <<< 970

section Overflow

variable {num den : Nat}

/-- A ratio in units of the last place, rounded: only one of the two shifts does anything. -/
theorem roundRatio_eq (positive : num ≠ 0) :
    roundRatio num den =
      min ((lastPlace num den + 1074).toNat * leadingBit +
        roundToEven (num <<< (-lastPlace num den).toNat) (den <<< (lastPlace num den).toNat))
        infinity := by
  simp only [roundRatio, if_neg positive]
  split
  · next whole => rw [show (-lastPlace num den).toNat = 0 by omega, Nat.shiftLeft_zero]
  · next part => rw [show (lastPlace num den).toNat = 0 by omega, Nat.shiftLeft_zero]

/-- A shift by more bits multiplies by another power of two. -/
theorem shiftLeft_more (n k j : Nat) : n <<< (k + j) = n <<< k * Nat.pow 2 j := by
  rw [Nat.shiftLeft_add]
  exact Nat.shiftLeft_eq _ j

/-- Below a power of two, in units of another. -/
theorem below_units (e : Int) (j : Nat) :
    Below num den (e + j) ↔ num <<< (-e).toNat < den <<< e.toNat * Nat.pow 2 j := by
  rw [below_iff (m := (-e).toNat) (k := e.toNat + j) (by omega), shiftLeft_more]

/-- A power of two multiplies by a shift. -/
theorem one_shiftLeft_mul (n k : Nat) : 1 <<< k * n = n <<< k := by
  rw [Nat.one_shiftLeft, Nat.shiftLeft_eq, Nat.mul_comm]

/-- The bound in units of half the last place of the largest finite number. -/
theorem overflowBound_mul (den : Nat) :
    overflowBound * den = 18014398509481983 * den <<< 970 := by
  have next : 1 <<< 1024 = 1 <<< 970 * 18014398509481984 := shiftLeft_more 1 970 54
  have bound : overflowBound = 18014398509481983 * 1 <<< 970 := by
    rw [overflowBound, next]
    omega
  rw [bound, Nat.mul_assoc, one_shiftLeft_mul]

/-- **Where rounding overflows.** -/
theorem roundRatio_lt_infinity_iff (positive : 0 < den) :
    roundRatio num den < infinity ↔ num < overflowBound * den := by
  rw [overflowBound_mul]
  have shifted (k : Nat) : 0 < den <<< k := by
    rw [Nat.shiftLeft_eq]
    exact Nat.mul_pos positive (Nat.two_pow_pos k)
  by_cases zero : num = 0
  · have finite : roundRatio num den = 0 := if_pos zero
    have bound := shifted 970
    rw [finite, zero]
    exact iff_of_true (by decide) (by omega)
  have least := le_lastPlace num den
  have short : Below num den (lastPlace num den + 53) := below_lastPlace (Nat.ne_of_gt positive)
  have long : lastPlace num den ≠ -1074 → ¬ Below num den (lastPlace num den + 52) :=
    not_below_lastPlace zero
  have unit := shifted (lastPlace num den).toNat
  have bits : leadingBit = 4503599627370496 := rfl
  have most : infinity = 9218868437227405312 := rfl
  rw [roundRatio_eq zero, bits, most]
  generalize lastPlace num den = e at least short long unit ⊢
  have next : den <<< 1023 = den <<< 970 * 9007199254740992 := shiftLeft_more den 970 53
  have last : den <<< 1024 = den <<< 970 * 18014398509481984 := shiftLeft_more den 970 54
  -- the largest finite numbers have their last place at 971: before it nothing overflows
  rcases Int.lt_trichotomy e 971 with low | rfl | high
  · have num_lt : num < den <<< 1023 := below_natCast_iff.mp (short.mono (by omega))
    have digits : num <<< (-e).toNat < den <<< e.toNat * 9007199254740992 :=
      (below_units e 53).mp short
    have rounded : roundToEven (num <<< (-e).toNat) (den <<< e.toNat) ≤ 13510798882111487 :=
      (roundToEven_le_iff unit rfl).mpr (by omega)
    omega
  · -- here the bound is the middle between the greatest significand and the next
    have whole : num <<< (-971 : Int).toNat = num := rfl
    have scale : den <<< (971 : Int).toNat = den <<< 970 * 2 := shiftLeft_more den 970 1
    have rounded : roundToEven num (den <<< (971 : Int).toNat) ≤ 9007199254740991 ↔ _ :=
      roundToEven_le_iff unit rfl
    rw [scale] at rounded
    rw [whole, scale]
    omega
  · have num_ge : den <<< 1024 ≤ num := by
      refine Nat.not_lt.mp fun below => long (by omega) ?_
      exact (below_natCast_iff.mpr below).mono (by omega)
    have digits : den <<< e.toNat * 4503599627370496 ≤ num <<< (-e).toNat :=
      Nat.not_lt.mp fun below => long (by omega) ((below_units e 52).mpr below)
    have rounded : 4503599627370496 ≤ roundToEven (num <<< (-e).toNat) (den <<< e.toNat) :=
      le_roundToEven unit (by omega)
    omega

/-! ### Patterns -/

variable (negative : Bool)

/-- A magnitude is read off the pattern that is made from it, if it leaves the sign bit free. -/
theorem magnitude_ofMagnitude {magnitude : Nat} (small : magnitude < signWeight) :
    (ofMagnitude negative magnitude).magnitude = magnitude := by
  simp only [ofMagnitude, Binary64.magnitude, signWeight, UInt64.toNat_ofNat'] at *
  split <;> omega

/-- No ratio rounds to more than infinity. -/
theorem roundRatio_le (num den : Nat) : roundRatio num den ≤ infinity := by
  rw [roundRatio]
  split
  · exact Nat.zero_le _
  · exact Nat.min_le_right _ _

/-- A ratio is rounded to a finite pattern just if it is below the bound. -/
theorem isFinite_ofRatio (positive : 0 < den) :
    (ofRatio negative num den).isFinite = true ↔ num < overflowBound * den := by
  have small : roundRatio num den < signWeight :=
    Nat.lt_of_le_of_lt (roundRatio_le num den) (by decide)
  rw [← roundRatio_lt_infinity_iff positive, isFinite, decide_eq_true_iff, ofRatio,
    magnitude_ofMagnitude negative small]

/-- So is a decimal number with its digits behind the point counted as places. -/
theorem isFinite_ofDecimal (digits places : Nat) :
    (ofDecimal negative digits (-places)).isFinite = true ↔
      digits < overflowBound * Nat.pow 10 places := by
  have whole : tens (-places) = 1 := by
    rw [tens, Int.toNat_neg_natCast]
  have scale : tens (- -places) = Nat.pow 10 places := by
    rw [tens, Int.neg_neg, Int.toNat_natCast]
  rw [ofDecimal, whole, scale, Nat.mul_one]
  exact isFinite_ofRatio negative (Nat.pow_pos (by decide))

end Overflow

end Binary64

end StackScript
