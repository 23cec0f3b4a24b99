import StackScript.Number.Shortest

/-!
# Written Floating-Point Numbers

How a pattern is written as text and read again. The digits are the shortest that read back;
where the point goes, and when a power of ten is written instead, is a `Layout`.

## Main definitions

* `Layout`: the choices of a format.
* `Binary64.text`: the written form.
* `Binary64.ofText?`: reads a written form, rounding to nearest.
-/

namespace StackScript

/-- A **layout**: the choices of a written format. A number is positional while its point lies
between the two bounds, and has a power of ten outside of them. -/
structure Layout where
  /-- The least point of a positional number. -/
  leastPoint : Int
  /-- The greatest point of a positional number. -/
  greatestPoint : Int
  /-- What follows a positional number that is whole. -/
  wholeMark : String
  /-- What stands before the power of ten. -/
  exponentMark : String
  /-- The text of infinity. -/
  infinity : String
  /-- The text of every NaN. -/
  nan : String

namespace Layout

/-- The digits without the zeros at their end. -/
def significant (digits : Nat) : List Char :=
  ((Nat.toDigits 10 digits).reverse.dropWhile (· = '0')).reverse

/-- A positive decimal in this layout. -/
def write (layout : Layout) (d : Decimal) : String :=
  let digits := significant d.digits
  let count : Int := digits.length
  if d.point < layout.leastPoint ∨ layout.greatestPoint < d.point then
    let mantissa := match digits with
      | first :: second :: rest => first :: '.' :: second :: rest
      | short => short
    String.ofList mantissa ++ layout.exponentMark ++ toString (d.point - 1)
  else if d.point ≤ 0 then
    "0." ++ "".pushn '0' (-d.point).toNat ++ String.ofList digits
  else if count ≤ d.point then
    String.ofList digits ++ "".pushn '0' (d.point - count).toNat ++ layout.wholeMark
  else
    String.ofList (digits.take d.point.toNat) ++ "." ++ String.ofList (digits.drop d.point.toNat)

end Layout

namespace Binary64

/-- The pattern in the given layout. -/
def text (layout : Layout) (x : Binary64) : String :=
  let sign := if x.isNegative then "-" else ""
  if x.isNaN then layout.nan
  else if !x.isFinite then sign ++ layout.infinity
  else if x.magnitude = 0 then sign ++ "0" ++ layout.wholeMark
  else sign ++ layout.write (shortest x.magnitude)

/-- The natural number of a run of decimal digits. -/
def digitsValue (digits : List Char) : Nat :=
  digits.foldl (fun n c => 10 * n + (c.toNat - '0'.toNat)) 0

/-- Reads digits, perhaps with a point and more digits, perhaps with a power of ten. -/
def ofDigits? (negative : Bool) (text : List Char) : Option Binary64 :=
  let whole := text.takeWhile Char.isDigit
  let rest := text.dropWhile Char.isDigit
  let (places, rest) := match rest with
    | '.' :: more => (more.takeWhile Char.isDigit, more.dropWhile Char.isDigit)
    | rest => ([], rest)
  let exponent? : Option Int := match rest with
    | [] => some 0
    | 'e' :: more => (String.ofList more).toInt?
    | _ => none
  match whole ++ places, exponent? with
  | [], _ => none
  | _, none => none
  | digits, some exponent =>
    some (ofDecimal negative (digitsValue digits) (exponent - places.length))

/-- Reads a written number, with its sign. -/
def ofText? (text : String) : Option Binary64 :=
  let read (negative : Bool) (text : List Char) : Option Binary64 :=
    if text = ['N', 'a', 'N'] then some (nan negative)
    else if text = ['i', 'n', 'f'] then some (ofMagnitude negative infinity)
    else ofDigits? negative text
  match text.toList with
  | '-' :: rest => read true rest
  | text => read false text

end Binary64

end StackScript
