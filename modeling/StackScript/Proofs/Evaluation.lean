import StackScript.Machine
import StackScript.Tree

/-!
# What Programs Mean

Programs evaluated directly, over an environment that has a value for every name: no code, no
stack, no slots. What compiled programs do is measured against this.

The syntax trees also hold function literals, calls and returns, which have no code. They are
given no meaning here either: an expression of that kind is `null` and a return does nothing.

## Main definitions

* `Environment`: a value for every name.
* `Expr.evaluate`, `Block.evaluate`, `Statement.evaluate`, `Program.evaluate`: **evaluation**.
* `Expr.peak`, `Block.peak`, `Statement.peak`, `Program.peak`: the largest number of values that
  an evaluation holds at once.
-/

namespace StackScript

/-- An **environment**: a value for every name. Names that were never set have `null`. -/
abbrev Environment := String → Value

/-- The environment in which one name has another value. -/
def Environment.write (env : Environment) (name : String) (v : Value) : Environment :=
  fun other => if other = name then v else env other

/-- An evaluation. What it wrote stays when it fails. -/
abbrev Evaluator := EStateM RuntimeError Environment

namespace Evaluator

/-- Takes an outcome as the value, or fails with it. -/
def settle : Except RuntimeError Value → Evaluator Value
  | .ok v => pure v
  | .error e => throw e

/-- The value of a name. -/
def read (name : String) : Evaluator Value := fun env => .ok (env name) env

/-- Gives a name another value. -/
def write (name : String) (v : Value) : Evaluator Unit := fun env => .ok () (env.write name v)

end Evaluator

namespace Value

/-- What a unary operator makes of its operand. -/
def unary : String → Value → Except RuntimeError Value
  | "!", v => .ok v.not
  | "-", v => v.negate
  | written, v => .error (.unknownOperator written v.typeName)

/-- What a binary operator makes of its operands. -/
def binary : String → Value → Value → Except RuntimeError Value
  | "+", left, right => Arithmetic.add.apply left right
  | "-", left, right => Arithmetic.sub.apply left right
  | "*", left, right => Arithmetic.mul.apply left right
  | "/", left, right => Arithmetic.div.apply left right
  | "**", left, right => Arithmetic.pow.apply left right
  | ">", left, right => Comparison.greater.apply left right
  | "<", left, right => Comparison.greater.apply right left
  | "==", left, right => Comparison.equal.apply left right
  | "!=", left, right => Comparison.notEqual.apply left right
  | written, left, right => .error (.typeMismatch written left.typeName right.typeName)

end Value

open Evaluator

mutual

/-- The value of an expression. Operands are evaluated from left to right, except those of
`<`. -/
def Expr.evaluate : Expr → Evaluator Value
  | .integer _ value => return .integer value
  | .float _ value => return .float value
  | .string _ value => return .string value
  | .boolean _ value => return .boolean value
  | .name n => read n.text
  | .unary _ written operand => do
    let v ← operand.evaluate
    settle (Value.unary written v)
  | .binary _ left written right =>
    if written = "<" then do
      let r ← right.evaluate
      let l ← left.evaluate
      settle (Value.binary written l r)
    else do
      let l ← left.evaluate
      let r ← right.evaluate
      settle (Value.binary written l r)
  | .conditional _ condition consequence alternative => do
    let v ← condition.evaluate
    if v.isTruthy then consequence.evaluate
    else
      match alternative with
      | some block => block.evaluate
      | none => return .null
  | .function _ _ _ | .call _ _ _ => return .null

/-- The value of a branch of a conditional: that of its last statement if this is an expression,
nested blocks being dissolved, and `null` otherwise. -/
def Block.evaluate : Block → Evaluator Value
  | .mk _ statements => do
    let last ← Program.evaluate none statements
    return last.getD .null

/-- Runs a statement, and yields the value of the last statement if this was an expression; the
value of the statement before is passed on through an empty block. -/
def Statement.evaluate (last : Option Value) : Statement → Evaluator (Option Value)
  | .expression _ value => do
    let v ← value.evaluate
    return some v
  | .binding _ name value => do
    let v ← value.evaluate
    write name.text v
    return none
  | .block (.mk _ statements) => Program.evaluate last statements
  | .returning _ _ => return none

/-- Runs statements in order, and yields the value of the last one if this was an expression,
nested blocks being dissolved. -/
def Program.evaluate (last : Option Value) : List Statement → Evaluator (Option Value)
  | [] => return last
  | s :: rest => do
    let last ← s.evaluate last
    Program.evaluate last rest

end

/-! ### Values held at once -/

/-- The largest number of values held by an evaluation that holds `first` of them, and then, if
it succeeds, by the one that goes on from there. -/
def Evaluator.peakThen {α : Type} (x : Evaluator α) (first : Nat) (next : α → Environment → Nat)
    (env : Environment) : Nat :=
  max first (match x env with | .ok a env => next a env | .error _ _ => 0)

mutual

/-- The largest number of values that the evaluation of an expression holds at once: the first
operand's value is held while the second operand is evaluated. -/
def Expr.peak : Expr → Environment → Nat
  | .integer _ _, _ | .float _ _, _ | .string _ _, _ | .boolean _ _, _ | .name _, _ => 1
  | .unary _ _ operand, env => operand.peak env
  | .binary _ left written right, env =>
    if written = "<" then
      right.evaluate.peakThen (right.peak env) (fun _ env => 1 + left.peak env) env
    else left.evaluate.peakThen (left.peak env) (fun _ env => 1 + right.peak env) env
  | .conditional _ condition consequence alternative, env =>
    condition.evaluate.peakThen (condition.peak env)
      (fun v env =>
        if v.isTruthy then consequence.peak env
        else
          match alternative with
          | some block => block.peak env
          | none => 1) env
  | .function _ _ _, _ | .call _ _ _, _ => 1

/-- The largest number of values that the evaluation of a branch holds at once. -/
def Block.peak : Block → Environment → Nat
  | .mk _ statements, env => max 1 (Program.peak statements env)

/-- The largest number of values that a statement holds at once. -/
def Statement.peak : Statement → Environment → Nat
  | .expression _ value, env | .binding _ _ value, env => value.peak env
  | .block (.mk _ statements), env => Program.peak statements env
  | .returning _ _, _ => 0

/-- The largest number of values that statements hold at once: what one of them leaves is not
held while the next one runs. -/
def Program.peak : List Statement → Environment → Nat
  | [], _ => 0
  | s :: rest, env =>
    (s.evaluate none).peakThen (s.peak env) (fun _ env => Program.peak rest env) env

end

namespace Evaluator

variable {α : Type} {x : Evaluator α} {first held limit : Nat} {next : α → Environment → Nat}
  {env : Environment}

/-- Where there is room for both, there is room for the first. -/
theorem room_first (room : held + x.peakThen first next env ≤ limit) : held + first ≤ limit := by
  have := Nat.le_max_left first (match x env with | .ok a env => next a env | .error _ _ => 0)
  rw [peakThen] at room
  omega

/-- Where there is room for both, there is room for the second. -/
theorem room_next (room : held + x.peakThen first next env ≤ limit) {a : α} {env' : Environment}
    (h : x env = .ok a env') : held + next a env' ≤ limit := by
  rw [peakThen, h] at room
  dsimp only at room
  omega

end Evaluator

namespace Expr

variable {token : Token} {left right : Expr} {written : String}

/-- The operands of `<` are evaluated from right to left. -/
theorem evaluate_less : (Expr.binary token left "<" right).evaluate = (do
    let r ← right.evaluate
    let l ← left.evaluate
    settle (Value.binary "<" l r)) := by
  rw [Expr.evaluate, if_pos rfl]

/-- The operands of every other operator are evaluated from left to right. -/
theorem evaluate_binary (other : written ≠ "<") :
    (Expr.binary token left written right).evaluate = (do
      let l ← left.evaluate
      let r ← right.evaluate
      settle (Value.binary written l r)) := by
  rw [Expr.evaluate, if_neg other]

/-- The value of the right operand of `<` is held while the left one is evaluated. -/
theorem peak_less {env : Environment} : (Expr.binary token left "<" right).peak env =
    right.evaluate.peakThen (right.peak env) (fun _ env => 1 + left.peak env) env := by
  rw [Expr.peak, if_pos rfl]

/-- The value of the left operand of every other operator is held while the right one is
evaluated. -/
theorem peak_binary (other : written ≠ "<") {env : Environment} :
    (Expr.binary token left written right).peak env =
      left.evaluate.peakThen (left.peak env) (fun _ env => 1 + right.peak env) env := by
  rw [Expr.peak, if_neg other]

end Expr

/-- An expression holds at least its own value. -/
theorem Expr.one_le_peak : (e : Expr) → (env : Environment) → 1 ≤ e.peak env
  | .unary _ _ operand, env => by
      rw [Expr.peak]
      exact operand.one_le_peak env
  | .binary _ left written right, env => by
      rw [Expr.peak]
      split
      · exact Nat.le_trans (right.one_le_peak env) (Nat.le_max_left _ _)
      · exact Nat.le_trans (left.one_le_peak env) (Nat.le_max_left _ _)
  | .conditional _ condition _ _, env => by
      rw [Expr.peak]
      exact Nat.le_trans (condition.one_le_peak env) (Nat.le_max_left _ _)
  | .integer _ _, _ | .float _ _, _ | .string _ _, _ | .boolean _ _, _ | .name _, _ => by
      exact Nat.le_of_eq (by rw [Expr.peak])
  | .function _ _ _, _ | .call _ _ _, _ => by
      exact Nat.le_of_eq (by rw [Expr.peak])

/-- Where there is room for an expression, there is room for its value. -/
theorem Expr.lt_of_room {e : Expr} {env : Environment} {held limit : Nat}
    (room : held + e.peak env ≤ limit) : held < limit := by
  have := e.one_le_peak env
  omega

end StackScript
