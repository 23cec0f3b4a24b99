import StackScript.Number.Binary64

/-!
# The Fewest Digits That Read Back

Every real number in an interval around a finite pattern rounds to that pattern. Among the
decimals in the interval, the shortest is the one to write; of several with that many digits,
the nearest to the exact value; of two equally near, the greater.

The search is exact. For one digit, two digits and so on, it tests the two points of the
decimal grid on either side of the value, in natural numbers only. If any point of a grid lies
in the interval, then so does one of these two.

## Main definitions

* `Decimal`: significant digits and the place of the decimal point.
* `Binary64.Interval`: a positive pattern's exact value and the ends of its interval.
* `Binary64.shortest`: the shortest decimal that reads back.
-/

namespace StackScript

/-- A **decimal**, the number `0.d₁d₂d₃… · 10 ^ point`, its digits given from the first
significant one. -/
structure Decimal where
  /-- The significant digits, as one natural number. -/
  digits : Nat
  /-- The power of ten that the first digit stands just below. -/
  point : Int
  deriving DecidableEq, Repr

namespace Binary64

/-- A positive value and the interval of reals that round to it, over one denominator. -/
structure Interval where
  /-- Numerator of the exact value. -/
  value : Nat
  /-- Numerator of the lower end. -/
  low : Nat
  /-- Numerator of the upper end. -/
  high : Nat
  /-- The common denominator. -/
  den : Nat
  /-- Whether the ends themselves round to the value. -/
  closed : Bool

namespace Interval

/-- The interval of a finite, non-zero magnitude. The ends lie half a place away, and only a
quarter of a place below the least significand of a binade, where the places get finer. Ties go
to the even significand, so the ends belong to the interval of an even one. -/
def ofMagnitude (magnitude : Nat) : Interval :=
  let field : Nat := magnitude / leadingBit
  let fraction : Nat := magnitude % leadingBit
  let significand := if field = 0 then fraction else fraction + leadingBit
  let quarter : Int := (if field = 0 then -1074 else (field : Int) - 1075) - 2
  let below := if fraction = 0 ∧ 1 < field then 1 else 2
  { value := (4 * significand) <<< quarter.toNat
    low := (4 * significand - below) <<< quarter.toNat
    high := (4 * significand + 2) <<< quarter.toNat
    den := 1 <<< (-quarter).toNat
    closed := significand % 2 = 0 }

/-- The least power of ten above the value, as an exponent. The estimate from the binary length
is at most one too small. -/
def point (i : Interval) : Int :=
  let guess : Int := ((i.value.log2 : Int) - i.den.log2 - 1) * 30103 / 100000
  let reached (e : Int) : Bool := i.den * tens e ≤ i.value * tens (-e)
  if reached guess then (if reached (guess + 1) then guess + 2 else guess + 1) else guess

/-- The grid point with this many significant digits that lies in the interval and is nearest
to the value, if there is one. -/
def onGrid? (i : Interval) (point : Int) (count : Nat) : Option Nat :=
  let finer := tens (count - point)
  let unit := i.den * tens (point - count)
  let value := i.value * finer
  let inside (n : Nat) : Bool :=
    if i.closed then i.low * finer ≤ n * unit && n * unit ≤ i.high * finer
    else i.low * finer < n * unit && n * unit < i.high * finer
  let floor := value / unit
  if inside (floor + 1) && (!inside floor || (floor + 1) * unit - value ≤ value - floor * unit)
  then some (floor + 1)
  else if inside floor then some floor else none

/-- The first grid, from the coarsest on, with a point in the interval. -/
def firstGrid (i : Interval) (point : Int) : Nat → Nat → Decimal
  | 0, count => ⟨i.value * tens (count - point) / i.den, point⟩
  | more + 1, count =>
    match i.onGrid? point count with
    | some digits => ⟨digits, if digits = tens count then point + 1 else point⟩
    | none => firstGrid i point more (count + 1)

end Interval

/-- The shortest decimal that reads back as this finite, non-zero magnitude. Seventeen digits
tell any two patterns apart, so the search never goes further. -/
def shortest (magnitude : Nat) : Decimal :=
  let i := Interval.ofMagnitude magnitude
  i.firstGrid i.point 17 1

end Binary64

end StackScript
