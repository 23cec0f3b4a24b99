import StackScript.Proofs.ControlFlow
import StackScript.Proofs.ListedCode

/-!
# Streams of Instructions

Instructions are written one behind the other, with nothing between them. An opcode says how many
bytes belong to it, so the stream can be read back from its start, and only in one way: what was
written is found again, and what is found is written as the bytes it was found in. The listing of a
stream that reads cleanly shows as much as the stream itself.

Here an instruction is an opcode with a list of operands, as it is given to `Opcode.encode?`, and
reading goes by `Opcode.ofByte?` and `readOperands`.

## Main definitions

* `Opcode.Takes`: the operands that an opcode can be written with.
* `writeInstructions`, `readInstructions`: instructions as bytes, and back.
* `Instruction.parts`: the opcode of an instruction with its operands.

## Main results

* `Opcode.readOperands_cases`: how the operands of an opcode are read.
* `readInstructions_eq_some_iff`: the bytes that read cleanly are the bytes of instructions.
* `exists_map_parts`: opcodes with operands that they take are instructions.
* `located_entries_injective`: instructions are told apart by the entries they are listed with.
* `stream_faithful`: **writing, reading and listing keep a stream of instructions**.
-/

namespace StackScript

open Text

/-! ### Writing and reading -/

/-- An opcode **takes** operands that are as many as it has widths, and each of them a word. -/
def Opcode.Takes (op : Opcode) (operands : List Nat) : Prop :=
  operands.length = op.operandWidths.length ∧ ∀ n ∈ operands, n ≤ 65535

instance (op : Opcode) (operands : List Nat) : Decidable (op.Takes operands) :=
  inferInstanceAs (Decidable (_ ∧ _))

/-- **Writes** instructions one behind the other. -/
def writeInstructions (is : List (Opcode × List Nat)) : List UInt8 :=
  is.flatMap fun i => (i.1.encode? i.2).getD []

/-- **Reads** instructions from the start of the bytes until these are used up: an opcode is looked
up, and its operands are read behind it. There is no answer if a byte is no opcode or an operand is
cut off. -/
def readInstructions : List UInt8 → Option (List (Opcode × List Nat))
  | [] => some []
  | byte :: rest =>
    match Opcode.ofByte? byte with
    | none => none
    | some op =>
      let (operands, taken) := readOperands op.operandWidths rest
      if operands.length = op.operandWidths.length then
        (readInstructions (rest.drop taken)).map ((op, operands) :: ·)
      else none
termination_by bytes => bytes.length
decreasing_by
  rw [List.length_drop, List.length_cons]
  omega

/-- How the operands of an opcode are read: there are none, or a word is, or it is cut off. -/
theorem Opcode.readOperands_cases (op : Opcode) (rest : List UInt8) :
    (op.hasOperand = false ∧ op.operandWidths = [] ∧
        readOperands op.operandWidths rest = ([], 0)) ∨
      (op.hasOperand = true ∧ op.operandWidths = [2] ∧ ∃ high low more,
        rest = high :: low :: more ∧
          readOperands op.operandWidths rest = ([wordOf high low], 2)) ∨
      (op.hasOperand = true ∧ op.operandWidths = [2] ∧
        (∀ high low more, rest ≠ high :: low :: more) ∧
          readOperands op.operandWidths rest = ([], 0)) := by
  cases operand : op.hasOperand with
  | false =>
      have widths : op.operandWidths = [] := by rw [operandWidths, operand]; rfl
      rw [widths]
      exact .inl ⟨rfl, rfl, rfl⟩
  | true =>
      have widths : op.operandWidths = [2] := by rw [operandWidths, operand]; rfl
      rw [widths]
      rcases rest with - | ⟨high, - | ⟨low, more⟩⟩
      · exact .inr (.inr ⟨rfl, rfl, fun _ _ _ => (List.cons_ne_nil _ _).symm, rfl⟩)
      · have short (high' low' : UInt8) (more : List UInt8) : [high] ≠ high' :: low' :: more :=
          fun same => List.cons_ne_nil _ _ (List.cons.inj same).2.symm
        exact .inr (.inr ⟨rfl, rfl, short, rfl⟩)
      · exact .inr (.inl ⟨rfl, rfl, high, low, more, rfl, rfl⟩)

namespace Instruction

/-- The opcode of an instruction **with its operands**. -/
def parts (i : Instruction) : Opcode × List Nat := (i.opcode, i.operands)

/-- The opcode of an instruction takes its operands. -/
theorem takes_operands (i : Instruction) : i.opcode.Takes i.operands := by
  rcases i.operands_cases with ⟨widths, none⟩ | ⟨operand, widths, one⟩
  · rw [Opcode.Takes, widths, none]
    exact ⟨rfl, nofun⟩
  · rw [Opcode.Takes, widths, one]
    refine ⟨rfl, fun n mem => ?_⟩
    rw [List.mem_singleton.mp mem]
    exact Nat.le_of_lt_succ operand.toNat_lt

/-- An instruction is encoded as its bytes. -/
theorem encode?_parts (i : Instruction) : i.opcode.encode? i.operands = some i.bytes := by
  rw [Opcode.encode?, if_pos i.takes_operands.1, bytes]

/-- An operand is kept just when the opcode has use for it. -/
theorem operands_ofOpcode (op : Opcode) (operand : UInt16) :
    (ofOpcode op operand).operands = if op.hasOperand then [operand.toNat] else [] := by
  cases op <;> rfl

/-- An opcode with operands that it takes is an instruction. -/
theorem exists_parts {op : Opcode} {operands : List Nat} (takes : op.Takes operands) :
    ∃ i : Instruction, i.parts = (op, operands) := by
  obtain ⟨count, words⟩ := takes
  refine ⟨ofOpcode op (UInt16.ofNat (operands.headD 0)), ?_⟩
  rw [parts, opcode_ofOpcode, operands_ofOpcode]
  cases operand : op.hasOperand with
  | false =>
      rw [Opcode.operandWidths, operand] at count
      rw [List.eq_nil_of_length_eq_zero count]
      rfl
  | true =>
      rw [Opcode.operandWidths, operand] at count
      obtain ⟨n, rfl⟩ := List.length_eq_one_iff.mp count
      have word : (UInt16.ofNat n).toNat = n :=
        UInt16.toNat_ofNat_of_lt' (Nat.lt_succ_of_le (words n (List.mem_singleton_self n)))
      rw [if_pos rfl, List.headD_cons, word]

/-- The operands of an instruction are read behind the byte of its opcode, and no byte more. -/
theorem readOperands_bytes (i : Instruction) (rest : List UInt8) :
    ∃ tail, i.bytes = i.opcode.byte :: tail ∧
      readOperands i.opcode.operandWidths (tail ++ rest) = (i.operands, tail.length) := by
  refine ⟨i.operands.flatMap wordBytes, rfl, ?_⟩
  rcases i.operands_cases with ⟨widths, none⟩ | ⟨operand, widths, one⟩
  · rw [widths, none]
    rfl
  · have read := readWord?_wordBytes operand.toNat_lt []
    rw [wordBytes, List.append_nil, readWord?, Option.some.injEq] at read
    rw [widths, one, List.flatMap_singleton, wordBytes]
    change ([wordOf _ _], _) = _
    rw [read]
    rfl

/-- Where the operands of an opcode are read whole stand the bytes of an instruction. -/
theorem exists_of_readOperands {byte : UInt8} {rest : List UInt8} {op : Opcode}
    {operands : List Nat} {taken : Nat} (known : Opcode.ofByte? byte = some op)
    (read : readOperands op.operandWidths rest = (operands, taken))
    (whole : operands.length = op.operandWidths.length) :
    ∃ i : Instruction, i.parts = (op, operands) ∧ i.length = 1 + taken ∧
      byte :: rest = i.bytes ++ rest.drop taken := by
  obtain rfl := Opcode.byte_of_ofByte? known
  rcases op.readOperands_cases rest with
    ⟨alone, widths, empty⟩ | ⟨follows, widths, high, low, more, rfl, word⟩ | ⟨-, widths, -, cut⟩
  · obtain ⟨rfl, rfl⟩ := Prod.mk.inj (read.symm.trans empty)
    refine ⟨ofOpcode op 0, ?_, ?_, ?_⟩
    · rw [parts, opcode_ofOpcode, operands_ofOpcode, alone]
      rfl
    · rw [length, opcode_ofOpcode, Opcode.length, widths]
      rfl
    · rw [bytes_ofOpcode, alone]
      rfl
  · obtain ⟨rfl, rfl⟩ := Prod.mk.inj (read.symm.trans word)
    have same : (UInt16.ofNat (wordOf high low)).toNat = wordOf high low :=
      UInt16.toNat_ofNat_of_lt (wordOf_lt high low)
    refine ⟨ofOpcode op (UInt16.ofNat (wordOf high low)), ?_, ?_, ?_⟩
    · rw [parts, opcode_ofOpcode, operands_ofOpcode, follows, same]
      rfl
    · rw [length, opcode_ofOpcode, Opcode.length, widths]
      rfl
    · rw [bytes_ofOpcode, follows, same, if_pos rfl, wordBytes_wordOf]
      rfl
  · obtain ⟨rfl, rfl⟩ := Prod.mk.inj (read.symm.trans cut)
    rw [widths] at whole
    cases whole

end Instruction

/-- An instruction is read where its bytes stand. -/
theorem readInstructions_bytes (i : Instruction) (rest : List UInt8) :
    readInstructions (i.bytes ++ rest) = (readInstructions rest).map (i.parts :: ·) := by
  obtain ⟨tail, bytes, read⟩ := i.readOperands_bytes rest
  rw [bytes, List.cons_append, readInstructions, Opcode.ofByte?_byte]
  simp only [read, if_pos i.takes_operands.1, List.drop_left]
  rfl

/-- **The bytes that read cleanly are the bytes of instructions**, which are what is read. -/
theorem readInstructions_eq_some_iff {bytes : List UInt8} {read : List (Opcode × List Nat)} :
    readInstructions bytes = some read ↔
      ∃ is : List Instruction, bytes = bytesOf is ∧ read = is.map Instruction.parts := by
  constructor
  · intro h
    fun_induction readInstructions bytes generalizing read with
    | case1 =>
        cases h
        exact ⟨[], rfl, rfl⟩
    | case2 byte rest undefined => cases h
    | case3 byte rest op known operands taken same whole ih =>
        obtain ⟨more, readMore, rfl⟩ := Option.map_eq_some_iff.mp h
        obtain ⟨is, behind, rfl⟩ := ih readMore
        obtain ⟨i, parts, -, bytes⟩ := Instruction.exists_of_readOperands known same whole
        exact ⟨i :: is, by rw [bytes, behind, bytesOf_cons], by rw [List.map_cons, parts]⟩
    | case4 byte rest op known operands taken same short => cases h
  · rintro ⟨is, rfl, rfl⟩
    induction is with
    | nil => rw [bytesOf_nil, readInstructions, List.map_nil]
    | cons i is ih => rw [bytesOf_cons, readInstructions_bytes, ih, Option.map_some, List.map_cons]

/-- Opcodes with operands that they take are instructions. -/
theorem exists_map_parts {is : List (Opcode × List Nat)} (takes : ∀ i ∈ is, i.1.Takes i.2) :
    ∃ js : List Instruction, is = js.map Instruction.parts := by
  induction is with
  | nil => exact ⟨[], rfl⟩
  | cons i is ih =>
      obtain ⟨j, first⟩ := Instruction.exists_parts (takes i (List.mem_cons_self ..))
      obtain ⟨js, rest⟩ := ih fun k mem => takes k (List.mem_cons_of_mem i mem)
      exact ⟨j :: js, by rw [List.map_cons, first, rest]⟩

/-- Instructions are written as their bytes. -/
theorem writeInstructions_map_parts (is : List Instruction) :
    writeInstructions (is.map Instruction.parts) = bytesOf is := by
  induction is with
  | nil => rfl
  | cons i is ih =>
      rw [bytesOf_cons, ← ih, List.map_cons, writeInstructions, List.flatMap_cons]
      change (i.opcode.encode? i.operands).getD [] ++ _ = _
      rw [i.encode?_parts]
      rfl

/-! ### Listing -/

/-- The entries of instructions report no error. -/
theorem reportsError_located {o : Nat} {is : List Instruction} {line : String}
    (mem : line ∈ (located o is).map Located.entry) : reportsError line = false := by
  obtain ⟨l, found, rfl⟩ := List.mem_map.mp mem
  obtain ⟨_, i, _, _, rfl⟩ := mem_located_iff.mp found
  exact (Located.reportsError_entry_iff _).mpr ⟨i, rfl⟩

/-- **Instructions are told apart by the entries they are listed with.** -/
theorem located_entries_injective {o : Nat} {is js : List Instruction}
    (h : (located o is).map Located.entry = (located o js).map Located.entry) : is = js := by
  induction is generalizing o js with
  | nil =>
      cases js with
      | nil => rfl
      | cons j js => cases h
  | cons i is ih =>
      cases js with
      | nil => cases h
      | cons j js =>
          obtain ⟨first, rest⟩ := List.cons.inj h
          obtain rfl := Located.entry_injective first
          rw [ih rest]

/-- The lines of a code of instructions are their entries. -/
theorem lines_disassemble_codeOf (is : List Instruction) :
    lines (disassemble (codeOf is)) = (located 0 is).map Located.entry := by
  rw [lines_disassemble, scan_codeOf]

/-- **Writing, reading and listing keep a stream of instructions.**

What is written with operands that the opcodes take is read back as it was. What is read from bytes
has operands that the opcodes take and is written as these bytes, and their listing has a line for
each instruction and none that reports an error. Two codes that read cleanly and are listed alike
are the same. -/
theorem stream_faithful :
    (∀ is : List (Opcode × List Nat), (∀ i ∈ is, i.1.Takes i.2) →
      readInstructions (writeInstructions is) = some is) ∧
    (∀ (code : Array UInt8) (is : List (Opcode × List Nat)),
      readInstructions code.toList = some is →
        (∀ i ∈ is, i.1.Takes i.2) ∧ writeInstructions is = code.toList ∧
        (lines (disassemble code)).length = is.length ∧
        ∀ line ∈ lines (disassemble code), reportsError line = false) ∧
    ∀ (code code' : Array UInt8) (is is' : List (Opcode × List Nat)),
      readInstructions code.toList = some is → readInstructions code'.toList = some is' →
        disassemble code = disassemble code' → code = code' := by
  have exists_code {code : Array UInt8} {read : List (Opcode × List Nat)}
      (h : readInstructions code.toList = some read) :
      ∃ is, code = codeOf is ∧ read = is.map Instruction.parts := by
    obtain ⟨is, bytes, rfl⟩ := readInstructions_eq_some_iff.mp h
    exact ⟨is, by rw [codeOf, ← bytes, Array.toArray_toList], rfl⟩
  refine ⟨fun is takes => ?_, fun code is read => ?_, fun code code' is is' read read' same => ?_⟩
  · obtain ⟨js, rfl⟩ := exists_map_parts takes
    rw [writeInstructions_map_parts]
    exact readInstructions_eq_some_iff.mpr ⟨js, rfl, rfl⟩
  · obtain ⟨js, rfl, rfl⟩ := exists_code read
    rw [lines_disassemble_codeOf]
    refine ⟨fun i mem => ?_, writeInstructions_map_parts js, ?_,
      fun line mem => reportsError_located mem⟩
    · obtain ⟨j, -, rfl⟩ := List.mem_map.mp mem
      exact j.takes_operands
    · rw [List.length_map, length_located, List.length_map]
  · obtain ⟨js, rfl, -⟩ := exists_code read
    obtain ⟨js', rfl, -⟩ := exists_code read'
    have entries := congrArg lines same
    rw [lines_disassemble_codeOf, lines_disassemble_codeOf] at entries
    rw [located_entries_injective entries]

/-- Four instructions, with the greatest operand among them; and the same with the two bytes of an
operand swapped, which is listed otherwise. -/
theorem stream_faithful_swapped :
    let is : List (Opcode × List Nat) :=
      [(.add, []), (.constant, [2]), (.constant, [65535]), (.jumpNotTruthy, [12])]
    let swapped : List (Opcode × List Nat) :=
      [(.add, []), (.constant, [512]), (.constant, [65535]), (.jumpNotTruthy, [12])]
    let code : Array UInt8 := #[2, 0, 0, 2, 0, 255, 255, 13, 0, 12]
    let code' : Array UInt8 := #[2, 0, 2, 0, 0, 255, 255, 13, 0, 12]
    ((∀ i ∈ is, i.1.Takes i.2) ∧ readInstructions (writeInstructions is) = some is) ∧
      (readInstructions code.toList = some is ∧ (∀ i ∈ is, i.1.Takes i.2) ∧
        writeInstructions is = code.toList ∧ (lines (disassemble code)).length = 4 ∧
        ∀ line ∈ lines (disassemble code), reportsError line = false) ∧
      readInstructions code'.toList = some swapped ∧ disassemble code ≠ disassemble code' := by
  intro is swapped code code'
  have takes : ∀ i ∈ is, i.1.Takes i.2 := by decide
  have takes' : ∀ i ∈ swapped, i.1.Takes i.2 := by decide
  obtain ⟨written, listed, apart⟩ := stream_faithful
  have read : readInstructions code.toList = some is := written is takes
  have read' : readInstructions code'.toList = some swapped := written swapped takes'
  refine ⟨⟨takes, written is takes⟩, ⟨read, listed code is read⟩, read', fun same => ?_⟩
  exact absurd (apart code code' is swapped read read' same) (by decide)

end StackScript
