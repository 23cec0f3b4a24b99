import StackScript.Bytecode
import StackScript.Machine.RuntimeError
import StackScript.Number.Integer64

/-!
# Operations on Values

What the operators do. Two integers give an integer, and an error where the exact result needs
more than 64 bits; as soon as a float takes part, both operands are floats, and a result that
is not finite is an error. Texts can be joined by `+`. Values of one type can be compared for
equality, and numbers of either type also by size.

## Main definitions

* `Arithmetic.apply`, `Comparison.apply`: the binary operators.
* `Value.negate`, `Value.not`: the unary operators.
-/

namespace StackScript

/-- A number as a float: a float itself, an integer rounded to the nearest one. -/
def Value.asFloat? : Value → Option Binary64
  | integer n => some (.ofInt n.toInt)
  | float x => some x
  | _ => none

namespace Arithmetic

/-- The exact power of an integer, if it can be one of 64 bits. The powers of `-1`, `0` and `1`
repeat with period two from the second on; any other base is too large from the 64th on. -/
def power? (base : Int) (exponent : Nat) : Option Int :=
  if base.natAbs ≤ 1 then some (base.pow (if exponent < 2 then exponent else 2 + exponent % 2))
  else if exponent < 64 then some (base.pow exponent) else none

/-- An operation on floats. -/
def onFloats (op : Arithmetic) (x y : Binary64) : Except RuntimeError Value :=
  let finite (result : Binary64) : Except RuntimeError Value :=
    if result.isFinite then .ok (.float result) else .error (.nonFinite op.symbol)
  match op with
  | add => finite (x.add y)
  | sub => finite (x.sub y)
  | mul => finite (x.mul y)
  | div => if y.magnitude = 0 then .error .divisionByZero else finite (x.div y)
  | pow =>
    if x.magnitude = 0 ∧ (Binary64.ofMagnitude false 0).above y then .error .divisionByZero
    else finite (x.pow y)

/-- An operation on integers. Division drops the fraction; a negative exponent makes both
operands floats. -/
def onIntegers (op : Arithmetic) (a b : Int64) : Except RuntimeError Value :=
  let exact (result? : Option Int) : Except RuntimeError Value :=
    match result?.bind integer64? with
    | some n => .ok (.integer n)
    | none => .error (.integerOverflow op.symbol)
  match op with
  | add => exact (a.toInt + b.toInt)
  | sub => exact (a.toInt - b.toInt)
  | mul => exact (a.toInt * b.toInt)
  | div => if b.toInt = 0 then .error .divisionByZero else exact (a.toInt.tdiv b.toInt)
  | pow =>
    if b.toInt < 0 then onFloats pow (.ofInt a.toInt) (.ofInt b.toInt)
    else exact (power? a.toInt b.toInt.toNat)

/-- An operation on any two values. -/
def apply (op : Arithmetic) (left right : Value) : Except RuntimeError Value :=
  match op, left, right with
  | op, .integer a, .integer b => op.onIntegers a b
  | add, .string a, .string b => .ok (.string (a ++ b))
  | op, left, right =>
    match left.asFloat?, right.asFloat? with
    | some x, some y => op.onFloats x y
    | _, _ => .error (.typeMismatch op.symbol left.typeName right.typeName)

end Arithmetic

namespace Comparison

/-- A comparison of integers. -/
def onIntegers (op : Comparison) (a b : Int64) : Bool :=
  match op with
  | equal => a.toInt = b.toInt
  | notEqual => a.toInt ≠ b.toInt
  | greater => b.toInt < a.toInt

/-- A comparison of floats. -/
def onFloats (op : Comparison) (x y : Binary64) : Bool :=
  match op with
  | equal => x.same y
  | notEqual => !x.same y
  | greater => x.above y

/-- A comparison of any two values. Only numbers have an order. -/
def apply (op : Comparison) (left right : Value) : Except RuntimeError Value :=
  match left, right with
  | .integer a, .integer b => .ok (.boolean (op.onIntegers a b))
  | left, right =>
    match left.asFloat?, right.asFloat? with
    | some x, some y => .ok (.boolean (op.onFloats x y))
    | _, _ =>
      if op ≠ greater ∧ left.typeName = right.typeName then
        .ok (.boolean (left.same right == (op == equal)))
      else .error (.typeMismatch op.symbol left.typeName right.typeName)

end Comparison

namespace Value

/-- The negative of a number. -/
def negate : Value → Except RuntimeError Value
  | integer n =>
    match integer64? (-n.toInt) with
    | some n => .ok (integer n)
    | none => .error (.integerOverflow "-")
  | float x => .ok (float x.negate)
  | v => .error (.unknownOperator "-" v.typeName)

/-- Whether a value is anything but `true`. -/
def not (v : Value) : Value :=
  boolean (v ≠ boolean true)

end Value

end StackScript
