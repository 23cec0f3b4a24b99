import StackScript.Opcode

/-!
# Instructions

An instruction is an opcode with its operand. A code is the bytes of its instructions, one
after the other; this module reads a code back, both as a whole, by a scan from its start, and
at a single place.

## Main definitions

* `Instruction`, its `opcode`, `operands` and `bytes`.
* `Fetched`: what stands at a place of a code, which need not be an instruction.
* `scan`: everything in a code, in order, with offsets.
* `fetch?`: what stands at one place.

## Main results

* `Instruction.ofOpcode_opcode`: an instruction is its opcode and its operand.
* `scanFrom_eq_append`, `toList_scanFrom_push`: a scan extends what was found before.
-/

namespace StackScript

/-- The arithmetic operations on two operands. -/
inductive Arithmetic
  | add
  | sub
  | mul
  | div
  | pow
  deriving DecidableEq, Inhabited, Repr

namespace Arithmetic

/-- How an operation is written. -/
def symbol : Arithmetic → String
  | add => "+"
  | sub => "-"
  | mul => "*"
  | div => "/"
  | pow => "**"

/-- The opcode of an operation. -/
def opcode : Arithmetic → Opcode
  | add => .add
  | sub => .sub
  | mul => .mul
  | div => .div
  | pow => .pow

end Arithmetic

/-- The comparisons of two operands. -/
inductive Comparison
  | equal
  | notEqual
  | greater
  deriving DecidableEq, Inhabited, Repr

namespace Comparison

/-- How a comparison is written. -/
def symbol : Comparison → String
  | equal => "=="
  | notEqual => "!="
  | greater => ">"

/-- The opcode of a comparison. -/
def opcode : Comparison → Opcode
  | equal => .equal
  | notEqual => .notEqual
  | greater => .greaterThan

end Comparison

/-- An **instruction** of the machine. -/
inductive Instruction
  /-- Pushes the constant with this index. -/
  | constant (index : UInt16)
  /-- Discards the top of the stack. -/
  | pop
  /-- Replaces two operands, the right one on top, by their result. -/
  | arithmetic (op : Arithmetic)
  /-- Pushes a truth value. -/
  | boolean (b : Bool)
  /-- Replaces two operands, the right one on top, by a truth value. -/
  | compare (op : Comparison)
  /-- Replaces a number by its negative. -/
  | negate
  /-- Replaces a value by a truth value: whether it differs from `true`. -/
  | not
  /-- Pops a condition, and goes on at the target if it fails. -/
  | jumpUnless (target : UInt16)
  /-- Goes on at the target. -/
  | jump (target : UInt16)
  /-- Pushes `null`. -/
  | null
  /-- Pushes the value of a global. -/
  | load (slot : UInt16)
  /-- Pops a value into a global. -/
  | store (slot : UInt16)
  deriving DecidableEq, Inhabited, Repr

namespace Instruction

/-- The opcode of an instruction. -/
def opcode : Instruction → Opcode
  | constant _ => .constant
  | pop => .pop
  | arithmetic op => op.opcode
  | boolean b => if b then .pushTrue else .pushFalse
  | compare op => op.opcode
  | negate => .minus
  | not => .bang
  | jumpUnless _ => .jumpNotTruthy
  | jump _ => .jump
  | null => .pushNull
  | load _ => .getGlobal
  | store _ => .setGlobal

/-- The operands of an instruction. -/
def operands : Instruction → List Nat
  | constant operand | jumpUnless operand | jump operand | load operand | store operand =>
    [operand.toNat]
  | pop | arithmetic _ | boolean _ | compare _ | negate | not | null => []

/-- The instruction with this opcode; its operand is used if the opcode has one. -/
def ofOpcode (op : Opcode) (operand : UInt16) : Instruction :=
  match op with
  | .constant => constant operand
  | .pop => pop
  | .add => arithmetic .add
  | .sub => arithmetic .sub
  | .mul => arithmetic .mul
  | .div => arithmetic .div
  | .pushTrue => boolean true
  | .pushFalse => boolean false
  | .equal => compare .equal
  | .notEqual => compare .notEqual
  | .greaterThan => compare .greater
  | .minus => negate
  | .bang => not
  | .jumpNotTruthy => jumpUnless operand
  | .jump => jump operand
  | .pushNull => null
  | .getGlobal => load operand
  | .setGlobal => store operand
  | .pow => arithmetic .pow

/-- The bytes of an instruction. -/
def bytes (i : Instruction) : List UInt8 :=
  i.opcode.byte :: i.operands.flatMap wordBytes

/-- The number of bytes of an instruction. -/
def length (i : Instruction) : Nat :=
  i.opcode.length

/-- An opcode put together with an operand keeps its own opcode, whether it has use for the operand
or not. -/
theorem opcode_ofOpcode (op : Opcode) (operand : UInt16) : (ofOpcode op operand).opcode = op := by
  cases op <;> rfl

/-- An instruction is its opcode and its operand. -/
theorem ofOpcode_opcode (i : Instruction) (operand : UInt16)
    (h : ∀ n ∈ i.operands, operand.toNat = n) : ofOpcode i.opcode operand = i := by
  have same {word : UInt16} (h : operand.toNat = word.toNat) : operand = word :=
    UInt16.toNat_inj.mp h
  cases i with
  | constant index => simp_all [operands, opcode, ofOpcode, same (h _ (List.mem_singleton_self _))]
  | jumpUnless target =>
    simp_all [operands, opcode, ofOpcode, same (h _ (List.mem_singleton_self _))]
  | jump target => simp_all [operands, opcode, ofOpcode, same (h _ (List.mem_singleton_self _))]
  | load slot => simp_all [operands, opcode, ofOpcode, same (h _ (List.mem_singleton_self _))]
  | store slot => simp_all [operands, opcode, ofOpcode, same (h _ (List.mem_singleton_self _))]
  | arithmetic op => cases op <;> rfl
  | compare op => cases op <;> rfl
  | boolean b => cases b <;> rfl
  | pop => rfl
  | negate => rfl
  | not => rfl
  | null => rfl

/-- The length of an instruction is the number of its bytes. -/
theorem length_bytes (i : Instruction) : i.bytes.length = i.length := by
  cases i with
  | arithmetic op => cases op <;> rfl
  | compare op => cases op <;> rfl
  | boolean b => cases b <;> rfl
  | _ => rfl

/-- An instruction has at least the byte of its opcode. -/
theorem one_le_length (i : Instruction) : 1 ≤ i.length := by
  rw [← length_bytes, bytes, List.length_cons]
  omega

end Instruction

/-! ### Reading a code -/

/-- What stands at a place of a code. -/
inductive Fetched
  /-- A byte that is no opcode. -/
  | undefined (byte : UInt8)
  /-- An opcode whose operand the code cuts off. -/
  | truncated (op : Opcode)
  /-- An instruction. -/
  | instruction (i : Instruction)
  deriving DecidableEq, Inhabited, Repr

/-- Something in a code, and the offset at which it starts. -/
structure Located where
  offset : Nat
  fetched : Fetched
  deriving DecidableEq, Inhabited, Repr

/-- Reads bytes from the given offset on, and adds what stands there to what was found before.
A byte that is no opcode is passed over by itself; a truncated instruction ends the code. -/
def scanFrom (offset : Nat) (found : Array Located) : List UInt8 → Array Located
  | [] => found
  | byte :: rest =>
    match Opcode.ofByte? byte with
    | none => scanFrom (offset + 1) (found.push ⟨offset, .undefined byte⟩) rest
    | some op =>
      if op.hasOperand then
        match rest with
        | high :: low :: rest =>
          let i := Instruction.ofOpcode op (UInt16.ofNat (wordOf high low))
          scanFrom (offset + 3) (found.push ⟨offset, .instruction i⟩) rest
        | _ => found.push ⟨offset, .truncated op⟩
      else
        let i := Instruction.ofOpcode op 0
        scanFrom (offset + 1) (found.push ⟨offset, .instruction i⟩) rest

/-- Everything in a code, in order. -/
def scan (code : Array UInt8) : List Located :=
  (scanFrom 0 #[] code.toList).toList

/-- What stands at a place of a code, and nothing behind its end. -/
def fetch? (code : Array UInt8) (place : Nat) : Option Fetched :=
  match code[place]? with
  | none => none
  | some byte =>
    match Opcode.ofByte? byte with
    | none => some (.undefined byte)
    | some op =>
      if op.hasOperand then
        match code[place + 1]?, code[place + 2]? with
        | some high, some low =>
          some (.instruction (.ofOpcode op (UInt16.ofNat (wordOf high low))))
        | _, _ => some (.truncated op)
      else some (.instruction (.ofOpcode op 0))

/-- A scan keeps what was found before it in front. -/
theorem scanFrom_append (first : Array Located) (offset : Nat) (found : Array Located)
    (code : List UInt8) :
    scanFrom offset (first ++ found) code = first ++ scanFrom offset found code := by
  fun_induction scanFrom offset found code with
  | case1 => simp [scanFrom]
  | case2 offset found byte rest h ih => simp [scanFrom, h, ← ih]
  | case3 offset found byte op h hop high low rest i ih => simp [scanFrom, h, hop, ← ih, i]
  | case4 offset found byte rest op h hop hshort => simp [scanFrom, h, hop]
  | case5 offset found byte rest op h hop i ih => simp [scanFrom, h, hop, ← ih, i]

/-- A scan extends what was found before. -/
theorem scanFrom_eq_append (offset : Nat) (found : Array Located) (code : List UInt8) :
    scanFrom offset found code = found ++ scanFrom offset #[] code := by
  rw [← scanFrom_append, Array.append_empty]

/-- One thing that was found stands in front of what a scan finds behind it. -/
theorem toList_scanFrom_push (next : Nat) (l : Located) (code : List UInt8) :
    (scanFrom next (#[].push l) code).toList = l :: (scanFrom next #[] code).toList := by
  rw [scanFrom_eq_append, Array.toList_append]
  rfl

end StackScript
