/-!
# Binary64 Patterns

A floating-point number is kept as its 64-bit pattern, so that two numbers are equal as data
exactly when they are the same bits: `0.0` and `-0.0` differ, and so do two NaNs with different
payloads. What the bits mean, sign, finiteness, order, is read off the pattern.

## Main definitions

* `Binary64`: a pattern; `magnitude` is the pattern without its sign.
* `Binary64.negate`, `isNaN`, `isFinite`, `rank`: the meaning of a pattern.
* `Binary64.same`, `above`: the numeric comparisons, false as soon as a NaN is involved.
* `Binary64.add`, `sub`, `mul`, `div`, `pow`: arithmetic, rounded to nearest.
* `Binary64.ofRatio`: the pattern nearest to a ratio of natural numbers, ties to even.

## Main results

* `Binary64.isFinite_negate`: changing the sign keeps a finite number finite.
* `Binary64.not_isNaN_of_isFinite`: a finite pattern is no NaN.
-/

namespace StackScript

/-- A floating-point number, as its 64-bit **pattern**. -/
structure Binary64 where
  /-- The pattern: one sign bit, eleven exponent bits, fifty-two fraction bits. -/
  bits : UInt64
  deriving DecidableEq, Hashable, Inhabited, Repr

namespace Binary64

/-- The weight of the sign bit. -/
def signWeight : Nat := 0x8000000000000000

/-- The weight of the lowest exponent bit, as much as the leading bit of a normal significand. -/
def leadingBit : Nat := 0x10000000000000

/-- The pattern of infinity: all exponent bits set and no fraction. -/
def infinity : Nat := 0x7FF0000000000000

/-- A pattern with the given sign and magnitude. -/
def ofMagnitude (negative : Bool) (magnitude : Nat) : Binary64 :=
  ⟨UInt64.ofNat (if negative then magnitude + signWeight else magnitude)⟩

/-- The NaN with an empty payload. -/
def nan (negative : Bool) : Binary64 :=
  ofMagnitude negative 0x7FF8000000000000

/-- Whether the sign bit is set. -/
def isNegative (x : Binary64) : Bool :=
  signWeight ≤ x.bits.toNat

/-- The pattern without its sign bit. It grows with the absolute value. -/
def magnitude (x : Binary64) : Nat :=
  x.bits.toNat % signWeight

/-- Whether the pattern stands for no number at all. -/
def isNaN (x : Binary64) : Bool :=
  infinity < x.magnitude

/-- Whether the pattern is neither infinite nor a NaN. -/
def isFinite (x : Binary64) : Bool :=
  x.magnitude < infinity

/-- The number with the opposite sign: adding the weight of the top bit flips that bit. -/
def negate (x : Binary64) : Binary64 :=
  ⟨x.bits + 0x8000000000000000⟩

/-- An integer in the order of the numbers; both zeros have rank zero. -/
def rank (x : Binary64) : Int :=
  if x.isNegative then -x.magnitude else x.magnitude

/-- Numeric equality: both zeros are the same, a NaN is not even the same as itself. -/
def same (x y : Binary64) : Bool :=
  !x.isNaN && !y.isNaN && x.rank == y.rank

/-- Numeric order: whether `x` is greater than `y`. -/
def above (x y : Binary64) : Bool :=
  !x.isNaN && !y.isNaN && y.rank < x.rank

/-! ### Sign and finiteness -/

/-- Changing the sign keeps the magnitude. -/
theorem magnitude_negate (x : Binary64) : x.negate.magnitude = x.magnitude := by
  simp only [magnitude, negate, signWeight, UInt64.toNat_add, UInt64.reduceToNat]
  omega

/-- Changing the sign keeps a finite number finite, and makes no other number finite. -/
theorem isFinite_negate (x : Binary64) : x.negate.isFinite = x.isFinite := by
  simp only [isFinite, magnitude_negate]

/-- A finite pattern is no NaN. -/
theorem not_isNaN_of_isFinite {x : Binary64} (h : x.isFinite = true) : x.isNaN = false := by
  simp only [isFinite, isNaN, decide_eq_true_eq, decide_eq_false_iff_not] at *
  omega

/-! ### Arithmetic -/

/-- The hardware number of a pattern. -/
def toFloat (x : Binary64) : Float :=
  Float.ofBits x.bits

/-- The pattern of a hardware number. -/
def ofFloat (x : Float) : Binary64 :=
  ⟨x.toBits⟩

/-- The rounded sum. -/
def add (x y : Binary64) : Binary64 := ofFloat (x.toFloat + y.toFloat)

/-- The rounded difference. -/
def sub (x y : Binary64) : Binary64 := ofFloat (x.toFloat - y.toFloat)

/-- The rounded product. -/
def mul (x y : Binary64) : Binary64 := ofFloat (x.toFloat * y.toFloat)

/-- The rounded quotient. -/
def div (x y : Binary64) : Binary64 := ofFloat (x.toFloat / y.toFloat)

/-- The power `x` to the `y`. -/
def pow (x y : Binary64) : Binary64 := ofFloat (x.toFloat.pow y.toFloat)

/-! ### Rounding -/

/-- The natural number nearest to `num / den`; of two that are equally near, the even one. -/
def roundToEven (num den : Nat) : Nat :=
  let quotient := num / den
  let twice := 2 * (num % den)
  if twice < den ∨ (twice = den ∧ quotient % 2 = 0) then quotient else quotient + 1

/-- The exponent of the last place of a number near `num / den`: the quotient by that power of
two has fifty-three binary digits, or fewer where the exponents end. -/
def lastPlace (num den : Nat) : Int :=
  let guess : Int := (num.log2 : Int) - den.log2 - 53
  let short := if 0 ≤ guess then num < den <<< (guess.toNat + 53)
    else num <<< (-guess).toNat < den <<< 53
  max (if short then guess else guess + 1) (-1074)

/-- The magnitude nearest to `num / den`, ties to even, and infinity beyond the largest finite
number. The denominator is positive. Significand and exponent share one formula: a normal
number's leading bit adds the one that its exponent field has more than `exponent + 1074`. -/
def roundRatio (num den : Nat) : Nat :=
  if num = 0 then 0 else
    let exponent := lastPlace num den
    let significand :=
      if 0 ≤ exponent then roundToEven num (den <<< exponent.toNat)
      else roundToEven (num <<< (-exponent).toNat) den
    min ((exponent + 1074).toNat * leadingBit + significand) infinity

/-- The pattern nearest to `num / den` with the given sign. -/
def ofRatio (negative : Bool) (num den : Nat) : Binary64 :=
  ofMagnitude negative (roundRatio num den)

/-- The pattern nearest to an integer. -/
def ofInt (n : Int) : Binary64 :=
  ofRatio (n < 0) n.natAbs 1

/-- The power of ten with this exponent, and one for a negative exponent. -/
def tens (exponent : Int) : Nat :=
  Nat.pow 10 exponent.toNat

/-- The pattern nearest to `digits · 10 ^ exponent`, with the given sign. -/
def ofDecimal (negative : Bool) (digits : Nat) (exponent : Int) : Binary64 :=
  ofRatio negative (digits * tens exponent) (tens (-exponent))

end Binary64

end StackScript
