/-!
# Opcodes

The one-byte tags of instructions, and the encoding of an instruction as its tag followed by
its operands, each of two bytes with the high byte first.

## Main definitions

* `Opcode`, its `name`, its `byte` and its `operandWidths`.
* `Opcode.ofByte?`: the opcode of a byte.
* `Opcode.encode?`: the bytes of an instruction.
* `readWord?`, `readOperands`: operands read back from bytes.

## Main results

* `Opcode.ofByte?_byte`: the opcode of an opcode's byte is that opcode.
* `Opcode.byte_of_ofByte?`: a byte with an opcode is that opcode's byte.
* `readWord?_wordBytes`: a word below `65536` reads back from its two bytes.
-/

namespace StackScript

/-- The **opcodes**, tags of instructions, in the order of their bytes. -/
inductive Opcode
  /-- Pushes a constant. -/
  | constant
  /-- Discards the top of the stack. -/
  | pop
  | add
  | sub
  | mul
  | div
  | pushTrue
  | pushFalse
  | equal
  | notEqual
  /-- The only order; `a < b` is run as `b > a`. -/
  | greaterThan
  /-- Numeric negation. -/
  | minus
  /-- Logical negation. -/
  | bang
  /-- Pops a condition and jumps when it fails. -/
  | jumpNotTruthy
  | jump
  | pushNull
  /-- Pushes a global. -/
  | getGlobal
  /-- Pops into a global. -/
  | setGlobal
  | pow
  deriving DecidableEq, Inhabited, Repr

namespace Opcode

/-- Every opcode, in the order of the bytes. -/
def all : Array Opcode :=
  #[constant, pop, add, sub, mul, div, pushTrue, pushFalse, equal, notEqual, greaterThan, minus,
    bang, jumpNotTruthy, jump, pushNull, getGlobal, setGlobal, pow]

/-- The byte of an opcode. -/
def byte : Opcode → UInt8
  | constant => 0
  | pop => 1
  | add => 2
  | sub => 3
  | mul => 4
  | div => 5
  | pushTrue => 6
  | pushFalse => 7
  | equal => 8
  | notEqual => 9
  | greaterThan => 10
  | minus => 11
  | bang => 12
  | jumpNotTruthy => 13
  | jump => 14
  | pushNull => 15
  | getGlobal => 16
  | setGlobal => 17
  | pow => 18

/-- The opcode of a byte. -/
def ofByte? (byte : UInt8) : Option Opcode :=
  all[byte.toNat]?

/-- The name of an opcode without the mark that all names share. -/
def label : Opcode → String
  | constant => "Constant"
  | pop => "Pop"
  | add => "Add"
  | sub => "Sub"
  | mul => "Mul"
  | div => "Div"
  | pushTrue => "True"
  | pushFalse => "False"
  | equal => "Equal"
  | notEqual => "NotEqual"
  | greaterThan => "GreaterThan"
  | minus => "Minus"
  | bang => "Bang"
  | jumpNotTruthy => "JumpNotTruthy"
  | jump => "Jump"
  | pushNull => "Null"
  | getGlobal => "GetGlobal"
  | setGlobal => "SetGlobal"
  | pow => "Pow"

/-- The name of an opcode. -/
def name (op : Opcode) : String :=
  "Op" ++ op.label

/-- Whether an operand follows the byte. -/
def hasOperand : Opcode → Bool
  | constant | jumpNotTruthy | jump | getGlobal | setGlobal => true
  | _ => false

/-- The widths of the operands, in bytes. -/
def operandWidths (op : Opcode) : List Nat :=
  if op.hasOperand then [2] else []

/-- The number of bytes of an instruction whose operands have these widths. -/
def lengthOf (widths : List Nat) : Nat :=
  widths.foldl (· + ·) 1

/-- The number of bytes of an instruction. -/
def length (op : Opcode) : Nat :=
  lengthOf op.operandWidths

/-- The message for a byte that is no opcode. -/
def undefinedText (byte : UInt8) : String :=
  "opcode " ++ toString byte.toNat ++ " undefined"

/-- The opcode of an opcode's byte is that opcode. -/
theorem ofByte?_byte (op : Opcode) : ofByte? op.byte = some op := by
  cases op <;> rfl

/-- A byte with an opcode is that opcode's byte. -/
theorem byte_of_ofByte? {byte : UInt8} {op : Opcode} (h : ofByte? byte = some op) :
    op.byte = byte := by
  obtain ⟨bound, rfl⟩ := Array.getElem?_eq_some_iff.mp h
  have table : ∀ i : Fin 19, all[i].byte.toNat = i := by decide
  exact UInt8.toNat_inj.mp (table ⟨byte.toNat, bound⟩)

end Opcode

/-! ### Words -/

/-- The low sixteen bits of a number, high byte first. -/
def wordBytes (n : Nat) : List UInt8 :=
  [UInt8.ofNat (n / 256), UInt8.ofNat n]

/-- The number of two bytes, high byte first. -/
def wordOf (high low : UInt8) : Nat :=
  high.toNat * 256 + low.toNat

/-- The word at the front of the bytes. -/
def readWord? : List UInt8 → Option Nat
  | high :: low :: _ => some (wordOf high low)
  | _ => none

/-- The operands at the front of the bytes, and the number of bytes they take. Operands are two
bytes wide; reading stops at any other width and where the bytes end. -/
def readOperands : List Nat → List UInt8 → List Nat × Nat
  | 2 :: widths, high :: low :: rest =>
    let (operands, taken) := readOperands widths rest
    (wordOf high low :: operands, taken + 2)
  | _, _ => ([], 0)

/-- Two bytes make a word. -/
theorem wordOf_lt (high low : UInt8) : wordOf high low < 65536 := by
  have := high.toNat_lt
  have := low.toNat_lt
  unfold wordOf
  omega

/-- A word reads back from its two bytes, whatever stands behind them. -/
theorem readWord?_wordBytes {n : Nat} (h : n < 65536) (rest : List UInt8) :
    readWord? (wordBytes n ++ rest) = some n := by
  simp only [wordBytes, readWord?, wordOf, List.cons_append, List.nil_append, Option.some.injEq,
    UInt8.toNat_ofNat']
  omega

/-- The bytes of a word read from bytes are those bytes. -/
theorem wordBytes_wordOf (high low : UInt8) : wordBytes (wordOf high low) = [high, low] := by
  have := high.toNat_lt
  have := low.toNat_lt
  simp only [wordBytes, wordOf, List.cons.injEq, and_true]
  constructor <;> apply UInt8.toNat_inj.mp <;> rw [UInt8.toNat_ofNat'] <;> omega

namespace Opcode

/-- The bytes of an instruction: its tag and its operands, of which only the low sixteen bits
are kept. There are none when the number of operands is wrong. -/
def encode? (op : Opcode) (operands : List Nat) : Option (List UInt8) :=
  if operands.length = op.operandWidths.length then
    some (op.byte :: operands.flatMap wordBytes)
  else none

end Opcode

end StackScript
