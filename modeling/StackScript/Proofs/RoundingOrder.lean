import StackScript.Proofs.Rounding

/-!
# Rounding Keeps the Order

A greater number is not rounded to a smaller one. Below `2 ^ 53` the integers are not rounded at
all, so that different ones stay different; from there on they may become the same.

The pattern of a ratio is made of a last place and of a significand in units of it. Both grow with
the ratio, and where the last place grows by one, the significand can fall back by no more than a
factor of two.

## Main definitions

* `Binary64.significand`: a ratio in units of its last place, rounded.

## Main results

* `Binary64.roundRatio_mono`: **rounding keeps the order** of ratios.
* `Binary64.roundRatio_lt`: it keeps small integers apart.
* `Binary64.rank_ofInt_mono`, `rank_ofInt_lt`: so it is with integers of either sign.
-/

namespace StackScript

namespace Binary64

/-! ### Rounding to a natural number -/

section RoundToEven

variable {num num' den bound : Nat}

/-- Rounding to whole numbers keeps the order. -/
theorem roundToEven_mono (positive : 0 < den) (le : num ≤ num') :
    roundToEven num den ≤ roundToEven num' den := by
  have parts := Nat.div_add_mod num den
  have parts' := Nat.div_add_mod num' den
  have rest := Nat.mod_lt num positive
  have quotients : num / den ≤ num' / den := Nat.div_le_div_right le
  rw [roundToEven, roundToEven]
  rcases Nat.lt_or_eq_of_le quotients with less | same
  · split <;> split <;> omega
  · -- between the same two numbers, the remainders decide
    rw [same] at parts ⊢
    split <;> split <;> omega

/-- A natural number is rounded to itself. -/
theorem roundToEven_mul (positive : 0 < den) (bound : Nat) :
    roundToEven (bound * den) den = bound := by
  rw [roundToEven, Nat.mul_mod_left, Nat.mul_div_cancel bound positive, Nat.mul_zero]
  exact if_pos (.inl positive)

/-- What is at most a whole number rounds to at most that number. -/
theorem roundToEven_le (positive : 0 < den) (le : num ≤ bound * den) :
    roundToEven num den ≤ bound := by
  calc roundToEven num den ≤ roundToEven (bound * den) den := roundToEven_mono positive le
    _ = bound := roundToEven_mul positive bound

end RoundToEven

/-! ### Ratios -/

section Ratios

variable {num num' den : Nat}

/-- A ratio in units of its last place, rounded. -/
def significand (num den : Nat) : Nat :=
  roundToEven (num <<< (-lastPlace num den).toNat) (den <<< (lastPlace num den).toNat)

/-- A ratio that is not zero is rounded in units of its last place, and cut off at infinity. -/
theorem roundRatio_of_ne_zero (some : num ≠ 0) : roundRatio num den =
    min ((lastPlace num den + 1074).toNat * leadingBit + significand num den) infinity :=
  roundRatio_eq some

/-- The unit of the last place is positive. -/
theorem shiftLeft_pos (positive : 0 < den) (k : Nat) : 0 < den <<< k := by
  rw [Nat.shiftLeft_eq]
  exact Nat.mul_pos positive (Nat.two_pow_pos k)

/-- The last place grows with the ratio. -/
theorem lastPlace_mono (positive : 0 < den) (some : num ≠ 0) (le : num ≤ num') :
    lastPlace num den ≤ lastPlace num' den := by
  refine Int.not_lt.mp fun less => ?_
  have least := le_lastPlace num' den
  have inner : lastPlace num den ≠ -1074 := by omega
  have below : Below num' den (lastPlace num den + 52) :=
    (below_lastPlace (Nat.ne_of_gt positive)).mono (by omega)
  refine not_below_lastPlace some inner ?_
  exact Nat.lt_of_le_of_lt (shiftLeft_le_shiftLeft_iff.mpr le) below

/-- A significand has at most 53 bits, or is the next power of two. -/
theorem significand_le (positive : 0 < den) : significand num den ≤ 9007199254740992 := by
  refine roundToEven_le (shiftLeft_pos positive _) ?_
  have below := (below_units (lastPlace num den) 53).mp (below_lastPlace (Nat.ne_of_gt positive))
  rw [Nat.mul_comm]
  exact Nat.le_of_lt below

/-- Above the subnormal numbers, a significand has all of its 53 bits. -/
theorem le_significand (positive : 0 < den) (some : num ≠ 0) (inner : lastPlace num den ≠ -1074) :
    4503599627370496 ≤ significand num den := by
  refine le_roundToEven (shiftLeft_pos positive _) ?_
  rw [Nat.mul_comm]
  exact Nat.not_lt.mp fun less =>
    not_below_lastPlace some inner ((below_units (lastPlace num den) 52).mpr less)

/-- **Rounding keeps the order.** -/
theorem roundRatio_mono (positive : 0 < den) (le : num ≤ num') :
    roundRatio num den ≤ roundRatio num' den := by
  by_cases zero : num = 0
  · rw [zero, show roundRatio 0 den = 0 from if_pos rfl]
    exact Nat.zero_le _
  have zero' : num' ≠ 0 := by omega
  have least := le_lastPlace num den
  have places := lastPlace_mono positive zero le
  have bits : leadingBit = 4503599627370496 := rfl
  rw [roundRatio_of_ne_zero zero, roundRatio_of_ne_zero zero', bits]
  rcases Int.lt_or_eq_of_le places with less | same
  · have short : significand num den ≤ 9007199254740992 := significand_le positive
    have long := le_significand positive zero' (by omega)
    omega
  · have significands : significand num den ≤ significand num' den := by
      rw [significand, significand, same]
      exact roundToEven_mono (shiftLeft_pos positive _) (shiftLeft_le_shiftLeft_iff.mpr le)
    omega

end Ratios

/-! ### Integers -/

section Integers

variable {n n' : Nat}

/-- An integer in units of one or less is not rounded. -/
theorem significand_whole (whole : lastPlace n 1 ≤ 0) :
    significand n 1 = n <<< (-lastPlace n 1).toNat := by
  have exact := roundToEven_mul Nat.one_pos (n <<< (-lastPlace n 1).toNat)
  rw [Nat.mul_one] at exact
  rw [significand, show (lastPlace n 1).toNat = 0 by omega]
  exact exact

/-- A small integer has such a unit. -/
theorem lastPlace_nonpos (some : n ≠ 0) (small : n < 9007199254740992) : lastPlace n 1 ≤ 0 := by
  refine Int.not_lt.mp fun positive => ?_
  have inner : lastPlace n 1 ≠ -1074 := by omega
  have below : Below n 1 (53 : Nat) := below_natCast_iff.mpr small
  exact not_below_lastPlace some inner (below.mono (by omega))

/-- A whole number of at most 53 bits does not round to the next power of two. -/
theorem significand_lt (some : n ≠ 0) (small : n < 9007199254740992) :
    significand n 1 < 9007199254740992 := by
  have whole := lastPlace_nonpos some small
  have below := (below_units (lastPlace n 1) 53).mp (below_lastPlace Nat.one_ne_zero)
  rw [show (lastPlace n 1).toNat = 0 by omega] at below
  rw [significand_whole whole]
  exact below

/-- **Small integers are kept apart**, from each other and from larger ones. -/
theorem roundRatio_lt (less : n < n') (small : n < 9007199254740992) :
    roundRatio n 1 < roundRatio n' 1 := by
  by_cases zero : n = 0
  · have one : roundRatio 0 1 < roundRatio 1 1 := by decide +kernel
    rw [zero]
    exact Nat.lt_of_lt_of_le one (roundRatio_mono Nat.one_pos (by omega))
  have zero' : n' ≠ 0 := by omega
  have most := lastPlace_nonpos zero small
  have short := significand_lt zero small
  have further : lastPlace n 1 < lastPlace n' 1 ∧ 4503599627370496 ≤ significand n' 1 ∨
      lastPlace n 1 = lastPlace n' 1 ∧ significand n 1 < significand n' 1 := by
    have least := le_lastPlace n 1
    have places : lastPlace n 1 ≤ lastPlace n' 1 :=
      lastPlace_mono Nat.one_pos zero (Nat.le_of_lt less)
    rcases Int.lt_or_eq_of_le places with lower | same
    · exact .inl ⟨lower, le_significand Nat.one_pos zero' (by omega)⟩
    · refine .inr ⟨same, ?_⟩
      rw [significand_whole most, significand_whole (same ▸ most), ← same]
      exact shiftLeft_lt_shiftLeft_iff.mpr less
  have least := le_lastPlace n 1
  have bits : leadingBit = 4503599627370496 := rfl
  have bound : infinity = 9218868437227405312 := rfl
  rw [roundRatio_of_ne_zero zero, roundRatio_of_ne_zero zero', bits, bound]
  generalize significand n 1 = s at *
  generalize significand n' 1 = s' at *
  generalize lastPlace n 1 = e at *
  generalize lastPlace n' 1 = e' at *
  omega

/-- The rank of a pattern is its magnitude with the sign of the pattern. -/
theorem rank_ofMagnitude (negative : Bool) {magnitude : Nat} (small : magnitude < signWeight) :
    (ofMagnitude negative magnitude).rank = if negative then -(magnitude : Int) else magnitude := by
  have weight : signWeight = 9223372036854775808 := rfl
  have sign : (ofMagnitude negative magnitude).isNegative = negative := by
    simp only [ofMagnitude, isNegative, UInt64.toNat_ofNat', weight] at *
    cases negative <;> simp <;> omega
  rw [rank, sign, magnitude_ofMagnitude negative small]

variable {m n : Int}

/-- The place of an integer in the order of the floats. -/
theorem rank_ofInt (n : Int) : (ofInt n).rank =
    if n < 0 then -(roundRatio n.natAbs 1 : Int) else roundRatio n.natAbs 1 := by
  have small : roundRatio n.natAbs 1 < signWeight :=
    Nat.lt_of_le_of_lt (roundRatio_le n.natAbs 1) (by decide)
  rw [ofInt, ofRatio, rank_ofMagnitude _ small]
  simp only [decide_eq_true_eq]

/-- **Rounding keeps the order of integers.** -/
theorem rank_ofInt_mono (le : m ≤ n) : (ofInt m).rank ≤ (ofInt n).rank := by
  have ascending : m.natAbs ≤ n.natAbs → roundRatio m.natAbs 1 ≤ roundRatio n.natAbs 1 :=
    roundRatio_mono Nat.one_pos
  have descending : n.natAbs ≤ m.natAbs → roundRatio n.natAbs 1 ≤ roundRatio m.natAbs 1 :=
    roundRatio_mono Nat.one_pos
  rw [rank_ofInt, rank_ofInt]
  split <;> split <;> omega

/-- It keeps them apart if one of them is small. -/
theorem rank_ofInt_lt (less : m < n)
    (small : m.natAbs < 9007199254740992 ∨ n.natAbs < 9007199254740992) :
    (ofInt m).rank < (ofInt n).rank := by
  have ascending : m.natAbs < n.natAbs → m.natAbs < 9007199254740992 →
      roundRatio m.natAbs 1 < roundRatio n.natAbs 1 := roundRatio_lt
  have descending : n.natAbs < m.natAbs → n.natAbs < 9007199254740992 →
      roundRatio n.natAbs 1 < roundRatio m.natAbs 1 := roundRatio_lt
  have positive : 0 < m.natAbs → roundRatio 0 1 < roundRatio m.natAbs 1 :=
    fun some => roundRatio_lt some (by decide)
  rw [rank_ofInt, rank_ofInt]
  split <;> split <;> omega

/-- An integer of 64 bits is rounded to a finite number. -/
theorem isFinite_ofInt (small : n.natAbs ≤ 9223372036854775808) : (ofInt n).isFinite = true := by
  have bound : 9223372036854775808 < overflowBound * 1 := by decide +kernel
  exact (isFinite_ofRatio _ Nat.one_pos).mpr (Nat.lt_of_le_of_lt small bound)

end Integers

end Binary64

end StackScript
