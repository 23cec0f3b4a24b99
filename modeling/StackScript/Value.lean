import StackScript.Number.Written

/-!
# Values

What programs compute with: integers of 64 bits, floating-point numbers, texts, truth values
and `null`.

As data, two values are equal when they have the same type and the same content, floats by
their bits; this is the equality by which constants are shared. `Value.same` is the equality of
the language, under which `0.0` and `-0.0` are the same and a NaN is not.

## Main definitions

* `Value`, its type name `Value.typeName` and its text `Value.text`.
* `Value.isTruthy`: whether a condition holds.
* `Value.same`: equality of the language.
-/

namespace StackScript

/-- A value of the language. -/
inductive Value
  /-- A signed integer of 64 bits. -/
  | integer (n : Int64)
  /-- A floating-point number. -/
  | float (x : Binary64)
  /-- A text. -/
  | string (s : String)
  /-- A truth value. -/
  | boolean (b : Bool)
  /-- The value of a conditional whose branch has none. -/
  | null
  deriving DecidableEq, Hashable, Inhabited, Repr

namespace Value

/-- The name of a value's type. -/
def typeName : Value → String
  | integer _ => "INTEGER"
  | float _ => "FLOAT"
  | string _ => "STRING"
  | boolean _ => "BOOLEAN"
  | null => "NULL"

/-- Floats are positional from `0.0001` up to but not including `10 ^ 16`, keep their `.0` when
whole, and otherwise carry a power of ten without sign or padding. -/
def floatLayout : Layout where
  leastPoint := -3
  greatestPoint := 16
  wholeMark := ".0"
  exponentMark := "e"
  infinity := "inf"
  nan := "NaN"

/-- The text of a value. -/
def text : Value → String
  | integer n => toString n.toInt
  | float x => x.text floatLayout
  | string s => s
  | boolean b => if b then "true" else "false"
  | null => "null"

/-- Only `false` and `null` fail a condition. -/
def isTruthy : Value → Bool
  | boolean b => b
  | null => false
  | _ => true

/-- Equality of the language: the types agree, and the contents do, floats as numbers. -/
def same : Value → Value → Bool
  | float x, float y => x.same y
  | a, b => a = b

end Value

end StackScript
