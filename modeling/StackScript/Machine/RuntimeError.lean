import StackScript.Bytecode.StackCheck

/-!
# Runtime Errors

Why a run ends before its code does. Operators and types appear as they are written.

## Main definitions

* `RuntimeError` and its text.
-/

namespace StackScript

/-- Why a run ends early. -/
inductive RuntimeError
  /-- A binary operator on operands of types that do not go together. -/
  | typeMismatch (operator left right : String)
  /-- A unary operator on an operand of the wrong type. -/
  | unknownOperator (operator operand : String)
  | divisionByZero
  /-- An integer result beyond 64 bits. -/
  | integerOverflow (operator : String)
  /-- A float result that is infinite or no number. -/
  | nonFinite (operator : String)
  /-- A push onto a full stack. -/
  | stackOverflow (limit : Nat)
  /-- A pop from an empty stack. -/
  | stackUnderflow (place : Nat)
  | unknownOpcode (byte place : Nat)
  | truncatedInstruction (name : String) (place : Nat)
  | constantOutOfRange (index size : Nat)
  | stepLimitExceeded (limit : Nat)
  /-- The code did not pass the stack check and was not run at all. -/
  | stackCheck (e : StackCheckError)
  deriving DecidableEq, Inhabited, Repr

namespace RuntimeError

/-- What every text of an error starts with. -/
def marked (detail : String) : String :=
  "runtime error: " ++ detail

/-- A place in a code, as errors show it. -/
def shownPlace (place : Nat) : String :=
  Text.zeroPadded 4 place

/-- What an error says. -/
def detail : RuntimeError → String
  | typeMismatch operator left right =>
    "type mismatch: " ++ left ++ " " ++ operator ++ " " ++ right
  | unknownOperator operator operand => "unknown operator: " ++ operator ++ operand
  | divisionByZero => "division by zero"
  | integerOverflow operator => "integer overflow in " ++ operator
  | nonFinite operator => operator ++ " produced a non-finite result"
  | stackOverflow limit => "stack overflow (limit " ++ toString limit ++ ")"
  | stackUnderflow place => "stack underflow at " ++ shownPlace place
  | unknownOpcode byte place => "unknown opcode " ++ toString byte ++ " at " ++ shownPlace place
  | truncatedInstruction name place => "truncated " ++ name ++ " at " ++ shownPlace place
  | constantOutOfRange index size =>
    "constant " ++ toString index ++ " out of range (pool has " ++ toString size ++ ")"
  | stepLimitExceeded limit => "execution step limit exceeded (" ++ toString limit ++ ")"
  | stackCheck e => e.text

/-- The text of an error. -/
def text (e : RuntimeError) : String :=
  marked e.detail

end RuntimeError

end StackScript
