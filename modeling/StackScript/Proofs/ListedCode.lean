import StackScript.Bytecode.Disassembly
import StackScript.Proofs.CodeReading
import StackScript.Proofs.Spelling

/-!
# The Lines of a Disassembly

A disassembly is one text. What can be read off it is stated of its lines: the number at the start
of a line is an offset, and a line reports an error if it says so. The lines are the entries of
what a scan finds, in order, and an entry gives back the offset that it was written for; if it was
written for an instruction, it gives that back too.

## Main definitions

* `Text.lines`, `Text.leadingNumber`: the lines of a text, and the number at the start of a line.
* `reportsError`: whether a line **reports an error**.
* `Located.entry`: what is written of something in a code.

## Main results

* `lines_disassemble`, `leadingNumbers_disassemble`: the lines are the entries of what a scan finds,
  and their numbers are the offsets.
* `Located.leadingNumber_entry`: an entry starts with the offset.
* `Located.reportsError_entry_iff`: an entry reports an error just if it is for no instruction.
* `Instruction.text_injective`: instructions are told apart by their texts.
-/

namespace StackScript

namespace Text

/-- The **lines** of a text that was written. A line ends at a line feed, which does not belong to
it, or at the end of the text if anything stands behind the last line feed. -/
def lines (text : String) : List String :=
  let pieces := (text.toList.splitOn '\n').map String.ofList
  if pieces.getLast? = some "" then pieces.dropLast else pieces

/-- The number that the digits at the start of a line make. -/
def leadingNumber (line : String) : Nat :=
  Nat.ofDigitChars 10 (line.toList.takeWhile Char.isDigit) 0

section Texts

variable {α : Type}

/-- A text that is put together from parts, as characters. -/
theorem toList_foldl_append (part : α → String) (xs : List α) (text : String) :
    (xs.foldl (fun text a => text ++ part a) text).toList =
      text.toList ++ xs.flatMap fun a => (part a).toList := by
  induction xs generalizing text with
  | nil => simp
  | cons a xs ih =>
      simp only [List.foldl_cons, ih, String.toList_append, List.flatMap_cons, List.append_assoc]

/-- Splitting at line feeds undoes ending each part with one. -/
theorem splitOn_flatMap_lines {line : α → List Char} {xs : List α}
    (single : ∀ a ∈ xs, '\n' ∉ line a) :
    (xs.flatMap fun a => line a ++ ['\n']).splitOn '\n' = xs.map line ++ [[]] := by
  induction xs with
  | nil => rfl
  | cons a xs ih =>
      have first : '\n' ∉ line a := single a (List.mem_cons_self ..)
      have rest := ih fun b mem => single b (List.mem_cons_of_mem a mem)
      rw [List.flatMap_cons, List.append_assoc, List.singleton_append,
        List.splitOn_append_cons_self_of_not_mem first, rest, List.map_cons, List.cons_append]

/-- The lines of a text that was written line by line are those lines. -/
theorem lines_foldl_append {line : α → String} {xs : List α}
    (single : ∀ a ∈ xs, '\n' ∉ (line a).toList) :
    lines (xs.foldl (fun text a => text ++ (line a ++ "\n")) "") = xs.map line := by
  have feed : "\n".toList = ['\n'] := rfl
  have pieces := splitOn_flatMap_lines single
  simp only [lines, toList_foldl_append, String.toList_append, feed, String.toList_empty,
    List.nil_append, pieces]
  simp

end Texts

/-- The digits of a number in a column, with the zeros in front of them. -/
theorem toList_zeroPadded (width n : Nat) :
    (zeroPadded width n).toList =
      List.replicate (width - (toString n).length) '0' ++ Nat.toDigits 10 n := by
  have zeros (k : Nat) : ("".pushn '0' k).toList = List.replicate k '0' := by
    rw [String.pushn_eq_repeat_push]
    induction k with
    | zero => rfl
    | succ k ih => rw [Nat.repeat, String.toList_push, ih, List.replicate_succ']
  rw [zeroPadded, String.toList_append, zeros, Nat.toString_eq_ofList_toDigits,
    String.toList_ofList]

/-- A number is written in digits, zeros in front included. -/
theorem isDigit_of_mem_zeroPadded {width n : Nat} {c : Char}
    (mem : c ∈ (zeroPadded width n).toList) : c.isDigit = true := by
  rw [toList_zeroPadded] at mem
  rcases List.mem_append.mp mem with zero | digit
  · rw [List.eq_of_mem_replicate zero]
    rfl
  · exact Nat.isDigit_of_mem_toDigits (by decide) (by decide) digit

/-- A number in a column is read back from the start of a line. -/
theorem leadingNumber_zeroPadded (width n : Nat) (rest : String) :
    leadingNumber (zeroPadded width n ++ " " ++ rest) = n := by
  have blank : " ".toList = [' '] := rfl
  have digits : ∀ c ∈ (zeroPadded width n).toList, c.isDigit = true :=
    fun _ mem => isDigit_of_mem_zeroPadded mem
  have ends : ∀ c ∈ (' ' :: rest.toList).head?, c.isDigit = false := by
    rintro c ⟨⟩
    rfl
  rw [leadingNumber, String.toList_append, String.toList_append, blank, List.append_assoc,
    List.singleton_append, takeWhile_run digits ends, toList_zeroPadded, Nat.ofDigitChars_append,
    Nat.ofDigitChars_replicate_zero, Nat.mul_zero, Nat.ofDigitChars_ten_toDigits]

end Text

open Text

/-- Whether a line **reports an error**. -/
def reportsError (line : String) : Bool := line.contains "ERROR:"

/-! ### The text of an instruction -/

/-- The characters of the texts of instructions. -/
def isListed (c : Char) : Bool := c.isAlphanum || c = ' '

namespace Opcode

/-- The names of opcodes are made of letters. -/
theorem isAlpha_of_mem_name {op : Opcode} {c : Char} (mem : c ∈ op.name.toList) :
    c.isAlpha = true := by
  have letters : op.name.toList.all Char.isAlpha = true := by cases op <;> rfl
  exact List.all_eq_true.mp letters c mem

/-- Opcodes are told apart by their names. -/
theorem name_injective {p q : Opcode} (h : p.name = q.name) : p = q := by
  have found (op : Opcode) : all.find? (·.name == op.name) = some op := by cases op <;> rfl
  exact Option.some.inj (by rw [← found p, ← found q, h])

end Opcode

namespace Instruction

/-- An instruction is its opcode and its operands. -/
theorem eq_of_parts {i j : Instruction} (opcode : i.opcode = j.opcode)
    (operands : i.operands = j.operands) : i = j := by
  have exists_operand : ∃ operand : UInt16, ∀ n ∈ i.operands, operand.toNat = n := by
    rcases i.operands_cases with ⟨-, none⟩ | ⟨operand, -, one⟩
    · exact ⟨0, by simp [none]⟩
    · exact ⟨operand, by simp [one]⟩
  obtain ⟨operand, word⟩ := exists_operand
  rw [← ofOpcode_opcode i operand word, opcode, ofOpcode_opcode j operand (operands ▸ word)]

/-- The characters of the text of an instruction: its name, and a blank before each operand. -/
theorem toList_text (i : Instruction) :
    i.text.toList =
      i.opcode.name.toList ++ i.operands.flatMap fun n => ' ' :: Nat.toDigits 10 n := by
  have blank : " ".toList = [' '] := rfl
  have parts := toList_foldl_append (fun n : Nat => " " ++ toString n) i.operands i.opcode.name
  simp only [String.toList_append, blank, Nat.toString_eq_ofList_toDigits,
    String.toList_ofList, List.singleton_append] at parts
  rw [text, ← parts]
  simp only [String.append_assoc, Nat.toString_eq_ofList_toDigits]

/-- The text of an instruction has nothing but letters, digits and blanks. -/
theorem isListed_of_mem_text {i : Instruction} {c : Char} (mem : c ∈ i.text.toList) :
    isListed c = true := by
  rw [toList_text] at mem
  rcases List.mem_append.mp mem with name | operand
  · simp [isListed, Char.isAlphanum, Opcode.isAlpha_of_mem_name name]
  · obtain ⟨n, -, mem⟩ := List.mem_flatMap.mp operand
    rcases List.mem_cons.mp mem with rfl | digit
    · rfl
    · have := Nat.isDigit_of_mem_toDigits (by decide) (by decide) digit
      simp [isListed, Char.isAlphanum, this]

/-- **Instructions are told apart by their texts.** -/
theorem text_injective {i j : Instruction} (h : i.text = j.text) : i = j := by
  have letters (i : Instruction) : ∀ c ∈ i.opcode.name.toList, c.isAlpha = true :=
    fun _ mem => Opcode.isAlpha_of_mem_name mem
  -- the name ends where the first blank stands, if there is one
  have ends (ns : List Nat) :
      ∀ c ∈ (ns.flatMap fun n => ' ' :: Nat.toDigits 10 n).head?, c.isAlpha = false := by
    cases ns with
    | nil => nofun
    | cons n ns =>
        rintro c ⟨⟩
        rfl
  have same := congrArg String.toList h
  rw [toList_text, toList_text] at same
  have names := congrArg (List.takeWhile Char.isAlpha) same
  have digits := congrArg (List.dropWhile Char.isAlpha) same
  rw [takeWhile_run (letters i) (ends _), takeWhile_run (letters j) (ends _)] at names
  rw [dropWhile_run (letters i) (ends _), dropWhile_run (letters j) (ends _)] at digits
  refine eq_of_parts (Opcode.name_injective (String.toList_inj.mp names)) ?_
  rcases i.operands_cases with ⟨-, none⟩ | ⟨n, -, one⟩ <;>
    rcases j.operands_cases with ⟨-, none'⟩ | ⟨m, -, one'⟩
  · rw [none, none']
  · simp [none, one'] at digits
  · simp [one, none'] at digits
  · have read := congrArg (fun ds => Nat.ofDigitChars 10 ds.tail 0) digits
    simp only [one, one', List.flatMap_singleton, List.tail_cons,
      Nat.ofDigitChars_ten_toDigits] at read
    rw [one, one', read]

end Instruction

/-! ### Entries -/

/-- A byte that is no opcode is listed as an error that names it. -/
theorem Fetched.text_undefined (byte : UInt8) :
    (undefined byte).text = "ERROR: " ++ ("opcode " ++ toString byte.toNat ++ " undefined") :=
  rfl

/-- An instruction that is cut off is listed as an error that counts the operands it should have. -/
theorem Fetched.text_truncated (op : Opcode) :
    (truncated op).text = "ERROR: " ++
      ("operand len 0 does not match defined " ++ toString op.operandWidths.length) := by
  rw [← String.append_assoc]
  rfl

/-- What is written of something in a code: its offset and its text. -/
def Located.entry (l : Located) : String := zeroPadded 4 l.offset ++ " " ++ l.fetched.text

namespace Located

/-- An entry starts with the offset. -/
theorem leadingNumber_entry (l : Located) : leadingNumber l.entry = l.offset :=
  leadingNumber_zeroPadded 4 l.offset l.fetched.text

/-- A character that stands in an entry, and in no number, stands in the text. -/
theorem mem_text_of_mem_entry {l : Located} {c : Char} (mem : c ∈ l.entry.toList)
    (noDigit : c.isDigit = false) (noBlank : c ≠ ' ') : c ∈ l.fetched.text.toList := by
  simp only [entry, String.toList_append, List.mem_append] at mem
  rcases mem with (padded | blank) | text
  · rw [isDigit_of_mem_zeroPadded padded] at noDigit
    cases noDigit
  · exact absurd (List.mem_singleton.mp blank) noBlank
  · exact text

/-- Nothing is written over more than one line. -/
theorem feed_notMem_entry (l : Located) : '\n' ∉ l.entry.toList := by
  intro mem
  have text := mem_text_of_mem_entry mem rfl (by decide)
  have number (n : Nat) : '\n' ∉ (toString n).toList := by
    rw [Nat.toString_eq_ofList_toDigits, String.toList_ofList]
    intro mem
    have := Nat.isDigit_of_mem_toDigits (by decide) (by decide) mem
    cases this
  cases fetched : l.fetched with
  | undefined byte =>
      simp only [fetched, Fetched.text_undefined, String.toList_append, List.mem_append, number,
        or_false] at text
      rcases text with error | opcode | undefined
      · exact absurd error (by decide)
      · exact absurd opcode (by decide)
      · exact absurd undefined (by decide)
  | truncated op =>
      simp only [fetched, Fetched.text_truncated, String.toList_append, List.mem_append, number,
        or_false] at text
      rcases text with error | operand
      · exact absurd error (by decide)
      · exact absurd operand (by decide)
  | instruction i =>
      rw [fetched] at text
      cases Instruction.isListed_of_mem_text text

/-- An entry whose text is an error gives the cause. -/
theorem entry_of_text {l : Located} {cause : String} (h : l.fetched.text = "ERROR: " ++ cause) :
    l.entry = zeroPadded 4 l.offset ++ " ERROR: " ++ cause := by
  have split : " ERROR: " = " " ++ "ERROR: " := rfl
  rw [entry, h, split]
  simp only [String.append_assoc]

/-- An entry whose text is an error reports one. -/
theorem reportsError_of_text {l : Located} {cause : String}
    (h : l.fetched.text = "ERROR: " ++ cause) : reportsError l.entry = true := by
  have split : " ERROR: ".toList = [' '] ++ "ERROR:".toList ++ [' '] := rfl
  rw [reportsError, String.contains_string_iff, entry_of_text h]
  refine ⟨(zeroPadded 4 l.offset).toList ++ [' '], ' ' :: cause.toList, ?_⟩
  simp only [String.toList_append, split, List.append_assoc, List.cons_append, List.nil_append]

/-- **An entry reports an error** just if it is for no instruction. -/
theorem reportsError_entry_iff (l : Located) :
    reportsError l.entry = false ↔ ∃ i, l.fetched = .instruction i := by
  constructor
  · intro clean
    cases fetched : l.fetched with
    | undefined byte =>
        have report := reportsError_of_text
          ((congrArg Fetched.text fetched).trans (Fetched.text_undefined byte))
        rw [clean] at report
        cases report
    | truncated op =>
        have report := reportsError_of_text
          ((congrArg Fetched.text fetched).trans (Fetched.text_truncated op))
        rw [clean] at report
        cases report
    | instruction i => exact ⟨i, rfl⟩
  · rintro ⟨i, fetched⟩
    rw [reportsError, String.contains_string_eq_false_iff]
    -- the colon stands in no number and in no text of an instruction
    intro found
    have mem : ':' ∈ l.entry.toList := found.subset (by decide)
    have text := mem_text_of_mem_entry mem rfl (by decide)
    rw [fetched] at text
    cases Instruction.isListed_of_mem_text text

/-- Entries for instructions at one offset are for one instruction. -/
theorem entry_injective {o : Nat} {i j : Instruction}
    (h : entry ⟨o, .instruction i⟩ = entry ⟨o, .instruction j⟩) : i = j :=
  Instruction.text_injective ((String.append_right_inj _).mp h)

end Located

/-- **The lines of a disassembly** are the entries of what a scan finds, in order. -/
theorem lines_disassemble (code : Array UInt8) :
    lines (disassemble code) = (scan code).map Located.entry :=
  lines_foldl_append fun l _ => l.feed_notMem_entry

/-- The numbers at the start of the lines are the offsets. -/
theorem leadingNumbers_disassemble (code : Array UInt8) :
    (lines (disassemble code)).map leadingNumber = (scan code).map Located.offset := by
  have number : leadingNumber ∘ Located.entry = Located.offset := by
    funext l
    rw [Function.comp_apply, l.leadingNumber_entry]
  rw [lines_disassemble, List.map_map, number]

end StackScript
