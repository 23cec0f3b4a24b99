import StackScript.Proofs.Fragment

/-!
# Reading a Code Back

The bytes of instructions, read back: at the offset of an instruction stands that instruction,
and a scan finds all of them, in order and at their offsets. So a code can be thought of as its
instructions, and bytes need not be mentioned again.

## Main definitions

* `codeOf`: the code of instructions.
* `located`: instructions with the offsets at which they stand.

## Main results

* `fetch?_codeOf`: what stands at the offset of an instruction.
* `scan_codeOf`: a scan finds the instructions.
* `Assembly.bytecode_code`: the code of an assembly is that of its instructions.
-/

namespace StackScript

/-- The bytes of instructions. -/
def bytesOf (is : List Instruction) : List UInt8 :=
  is.flatMap Instruction.bytes

/-- The **code** of instructions. -/
def codeOf (is : List Instruction) : Array UInt8 :=
  (bytesOf is).toArray

/-- Instructions at the offsets at which they stand when the first one stands at `o`. -/
def located (o : Nat) : List Instruction → List Located
  | [] => []
  | i :: is => ⟨o, .instruction i⟩ :: located (o + i.length) is

/-- No instructions have no bytes. -/
@[simp] theorem bytesOf_nil : bytesOf [] = [] := rfl

/-- The bytes of the first instruction come first. -/
@[simp] theorem bytesOf_cons (i : Instruction) (is : List Instruction) :
    bytesOf (i :: is) = i.bytes ++ bytesOf is := rfl

/-- Instructions in sequence have their bytes in sequence. -/
@[simp] theorem bytesOf_append (is js : List Instruction) :
    bytesOf (is ++ js) = bytesOf is ++ bytesOf js := by
  simp [bytesOf]

/-- The number of bytes of instructions is their code size. -/
@[simp] theorem length_bytesOf (is : List Instruction) : (bytesOf is).length = codeSize is := by
  induction is with
  | nil => rfl
  | cons i is ih =>
      rw [bytesOf_cons, List.length_append, ih, Instruction.length_bytes, codeSize_cons]

/-- A code has as many bytes as its instructions. -/
@[simp] theorem size_codeOf (is : List Instruction) : (codeOf is).size = codeSize is := by
  simp [codeOf]

/-- The second instructions stand where the first ones end. -/
theorem located_append (o : Nat) (is js : List Instruction) :
    located o (is ++ js) = located o is ++ located (o + codeSize is) js := by
  induction is generalizing o with
  | nil => rfl
  | cons i is ih => simp only [List.cons_append, located, ih, codeSize_cons, Nat.add_assoc]

/-- Every instruction stands at one place. -/
@[simp] theorem length_located (o : Nat) (is : List Instruction) :
    (located o is).length = is.length := by
  induction is generalizing o with
  | nil => rfl
  | cons i is ih => rw [located, List.length_cons, ih, List.length_cons]

/-! ### A single instruction -/

namespace Instruction

/-- An instruction has as many operands as its opcode has widths: none, or a word. -/
theorem operands_cases (i : Instruction) :
    i.opcode.operandWidths = [] ∧ i.operands = [] ∨
      ∃ operand : UInt16, i.opcode.operandWidths = [2] ∧ i.operands = [operand.toNat] := by
  cases i with
  | constant operand | jumpUnless operand | jump operand | load operand | store operand =>
      exact .inr ⟨operand, rfl, rfl⟩
  | arithmetic op => cases op <;> exact .inl ⟨rfl, rfl⟩
  | boolean b => cases b <;> exact .inl ⟨rfl, rfl⟩
  | compare op => cases op <;> exact .inl ⟨rfl, rfl⟩
  | pop | negate | not | null => exact .inl ⟨rfl, rfl⟩

/-- An opcode with an operand is followed by the two bytes of the operand. -/
theorem bytes_of_hasOperand {i : Instruction} (h : i.opcode.hasOperand = true) :
    ∃ high low, i.bytes = [i.opcode.byte, high, low] ∧
      ofOpcode i.opcode (UInt16.ofNat (wordOf high low)) = i := by
  have word : ∃ operand : UInt16, i.operands = [operand.toNat] := by
    rcases i.operands_cases with ⟨widths, -⟩ | ⟨operand, -, one⟩
    · rw [Opcode.operandWidths, if_pos h] at widths
      cases widths
    · exact ⟨operand, one⟩
  obtain ⟨operand, operands⟩ := word
  have read := readWord?_wordBytes operand.toNat_lt []
  refine ⟨UInt8.ofNat (operand.toNat / 256), UInt8.ofNat operand.toNat, ?_, ?_⟩
  · simp [bytes, operands, wordBytes]
  · apply ofOpcode_opcode
    intro n hn
    rw [operands, List.mem_singleton] at hn
    rw [wordBytes, List.append_nil, readWord?, Option.some.injEq] at read
    rw [hn, read, UInt16.ofNat_toNat]

/-- An opcode without an operand stands alone. -/
theorem bytes_of_not_hasOperand {i : Instruction} (h : i.opcode.hasOperand = false) :
    i.bytes = [i.opcode.byte] ∧ ofOpcode i.opcode 0 = i := by
  have none : i.operands = [] := by
    rcases i.operands_cases with ⟨-, none⟩ | ⟨operand, widths, -⟩
    · exact none
    · rw [Opcode.operandWidths, h] at widths
      cases widths
  refine ⟨by simp [bytes, none], ofOpcode_opcode i 0 ?_⟩
  intro n hn
  rw [none] at hn
  exact absurd hn List.not_mem_nil

end Instruction

/-- There are no more instructions than bytes. -/
theorem length_le_codeSize (is : List Instruction) : is.length ≤ codeSize is := by
  induction is with
  | nil => exact Nat.le_refl 0
  | cons i is ih =>
      have := i.one_le_length
      rw [List.length_cons, codeSize_cons]
      omega

/-- A scan that meets the bytes of an instruction finds it and goes on behind it. -/
theorem scanFrom_bytes (o : Nat) (found : Array Located) (i : Instruction) (rest : List UInt8) :
    scanFrom o found (i.bytes ++ rest) =
      scanFrom (o + i.length) (found.push ⟨o, .instruction i⟩) rest := by
  cases h : i.opcode.hasOperand with
  | true =>
      obtain ⟨high, low, bytes, same⟩ := Instruction.bytes_of_hasOperand h
      have long : i.length = 3 := by rw [← Instruction.length_bytes, bytes]; rfl
      simp only [bytes, List.cons_append, List.nil_append, scanFrom, Opcode.ofByte?_byte, h, same,
        long, if_true]
  | false =>
      obtain ⟨bytes, same⟩ := Instruction.bytes_of_not_hasOperand h
      have short : i.length = 1 := by rw [← Instruction.length_bytes, bytes]; rfl
      simp only [bytes, List.cons_append, List.nil_append, scanFrom, Opcode.ofByte?_byte, h, same,
        short, Bool.false_eq_true, if_false]

/-- A scan of the bytes of instructions finds the instructions. -/
theorem toList_scanFrom_bytesOf (o : Nat) (is : List Instruction) :
    (scanFrom o #[] (bytesOf is)).toList = located o is := by
  induction is generalizing o with
  | nil => simp [scanFrom, located]
  | cons i is ih =>
      rw [bytesOf_cons, scanFrom_bytes, toList_scanFrom_push, ih]
      rfl

/-- A scan of a code finds its instructions, at their offsets. -/
theorem scan_codeOf (is : List Instruction) : scan (codeOf is) = located 0 is :=
  toList_scanFrom_bytesOf 0 is

/-! ### A place in a code -/

/-- From the offset of an instruction on stand its bytes. -/
theorem getElem?_codeOf (before : List Instruction) (i : Instruction) (behind : List Instruction)
    (k : Nat) (h : k < i.length) :
    (codeOf (before ++ i :: behind))[codeSize before + k]? = i.bytes[k]? := by
  have inside : k < i.bytes.length := by rwa [Instruction.length_bytes]
  rw [codeOf, List.getElem?_toArray, bytesOf_append,
    List.getElem?_append_right (by rw [length_bytesOf]; omega), length_bytesOf,
    Nat.add_sub_cancel_left, bytesOf_cons, List.getElem?_append_left inside]

/-- At the offset of an instruction stands that instruction. -/
theorem fetch?_codeOf (before : List Instruction) (i : Instruction)
    (behind : List Instruction) :
    fetch? (codeOf (before ++ i :: behind)) (codeSize before) = some (.instruction i) := by
  have standing (k : Nat) (h : k < i.length) := getElem?_codeOf before i behind k h
  cases h : i.opcode.hasOperand with
  | true =>
      obtain ⟨high, low, bytes, same⟩ := Instruction.bytes_of_hasOperand h
      have long : i.length = 3 := by rw [← Instruction.length_bytes, bytes]; rfl
      have first := standing 0 (by omega)
      have second := standing 1 (by omega)
      have third := standing 2 (by omega)
      rw [bytes] at first second third
      simp only [Nat.add_zero, List.getElem?_cons_zero, List.getElem?_cons_succ]
        at first second third
      simp only [fetch?, first, second, third, Opcode.ofByte?_byte, h, same, if_true]
  | false =>
      obtain ⟨bytes, same⟩ := Instruction.bytes_of_not_hasOperand h
      have short : i.length = 1 := by rw [← Instruction.length_bytes, bytes]; rfl
      have first := standing 0 (by omega)
      rw [bytes] at first
      simp only [Nat.add_zero, List.getElem?_cons_zero] at first
      simp only [fetch?, first, Opcode.ofByte?_byte, h, same, Bool.false_eq_true, if_false]

/-! ### The code of an assembly -/

/-- Pushing the bytes of instructions one by one appends them all. -/
theorem foldl_push_bytes (is : List Instruction) (code : Array UInt8) :
    is.foldl (fun code i => i.bytes.foldl Array.push code) code =
      code ++ (bytesOf is).toArray := by
  induction is generalizing code with
  | nil => simp
  | cons i is ih =>
      rw [List.foldl_cons, ih, List.foldl_push_eq_append', bytesOf_cons]
      simp

/-- The code of an assembly is the code of its instructions. -/
theorem Assembly.bytecode_code (a : Assembly) : a.bytecode.code = codeOf a.code.toList := by
  rw [bytecode, bytes, ← Array.foldl_toList, foldl_push_bytes]
  simp [codeOf]

end StackScript
