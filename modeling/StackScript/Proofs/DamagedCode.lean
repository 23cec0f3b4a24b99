import StackScript.Proofs.CheckedCode
import StackScript.Proofs.InstructionStreams
import StackScript.Proofs.SlotMachine

/-!
# Damaged Code

A code that is no stream of instructions is refused by the stack check, at the first thing that is
wrong with it, and it can still be disassembled. The two go through the code each in a loop of its
own: the check stops at the first fault, while the disassembler writes an error line and goes on one
byte further, or breaks off where the code ends inside an instruction. They tell the same story: the
first error line stands where the check found a byte that is no opcode, or an operand cut off, and
gives the same cause. What the check refuses besides, for a stack that is too low, is listed as the
instruction that it is.

The disassembler is stated here as the loop that it is, with a budget of passes, so that its
termination is a theorem. The loop of the check is `checkFrom`.

## Main definitions

* `disassembleFrom`: the **loop of the disassembler**.

## Main results

* `disassembleFrom_eq`: the loop ends, and writes what a scan finds.
* `pairwise_offset_scan`: a scan finds one thing behind the other.
* `exists_fault_of_refused`: before the fault of a refused code there are only instructions.
* `disassembly_agrees`: **the disassembly agrees with the stack check** on any bytes.
-/

namespace StackScript

open Text

/-! ### The loop of the disassembler -/

/-- What is written for an opcode with the operands that were read. -/
def Opcode.textWith (op : Opcode) (operands : List Nat) : String :=
  if operands.length ≠ op.operandWidths.length then
    "ERROR: operand len " ++ toString operands.length ++ " does not match defined " ++
      toString op.operandWidths.length
  else
    match operands with
    | [] => op.name
    | [operand] => op.name ++ " " ++ toString operand
    | _ => "ERROR: unhandled operand count for " ++ op.name

/-- A line with the offset in front. -/
def lineAt (place : Nat) (text : String) : String := zeroPadded 4 place ++ " " ++ text ++ "\n"

/-- The **loop of the disassembler**: writes lines for what stands at a place and behind it, in at
most `budget` passes. There is no text if the loop is not over by then. -/
def disassembleFrom (code : Array UInt8) : Nat → Nat → String → Option String
  | 0, place, text => if place < code.size then none else some text
  | budget + 1, place, text =>
    match code[place]? with
    | none => some text
    | some byte =>
      match Opcode.ofByte? byte with
      | none =>
        disassembleFrom code budget (place + 1)
          (text ++ lineAt place ("ERROR: " ++ Opcode.undefinedText byte))
      | some op =>
        let (operands, taken) := readOperands op.operandWidths (code.toList.drop (place + 1))
        let text := text ++ lineAt place (op.textWith operands)
        if operands.length ≠ op.operandWidths.length then some text
        else disassembleFrom code budget (place + 1 + taken) text

/-- The operands of an instruction are written as in its text. -/
theorem Instruction.textWith_operands (i : Instruction) :
    i.opcode.textWith i.operands = i.text := by
  rcases i.operands_cases with ⟨widths, none⟩ | ⟨operand, widths, one⟩
  · rw [Opcode.textWith.eq_def, text, widths, none]
    rfl
  · rw [Opcode.textWith.eq_def, text, widths, one]
    rfl

/-- Where the operands of an opcode are not read whole, none is read, and a scan finds that the
instruction is cut off, and nothing more. -/
theorem scanFrom_of_short {byte : UInt8} {rest : List UInt8} {op : Opcode} {operands : List Nat}
    {taken : Nat} (known : Opcode.ofByte? byte = some op)
    (read : readOperands op.operandWidths rest = (operands, taken))
    (short : operands.length ≠ op.operandWidths.length) (o : Nat) :
    operands = [] ∧ (scanFrom o #[] (byte :: rest)).toList = [⟨o, .truncated op⟩] := by
  rcases op.readOperands_cases rest with
    ⟨-, widths, empty⟩ | ⟨-, widths, high, low, more, rfl, word⟩ | ⟨follows, -, few, cut⟩
  · obtain ⟨rfl, -⟩ := Prod.mk.inj (read.symm.trans empty)
    exact absurd (widths ▸ rfl) short
  · obtain ⟨rfl, -⟩ := Prod.mk.inj (read.symm.trans word)
    exact absurd (widths ▸ rfl) short
  · obtain ⟨rfl, -⟩ := Prod.mk.inj (read.symm.trans cut)
    refine ⟨rfl, ?_⟩
    rw [scanFrom, known]
    simp only [follows, if_true]
    rfl

/-- **The loop ends**, if the budget is at least as many passes as there are bytes left, and what it
writes are the lines of what a scan finds. -/
theorem disassembleFrom_eq {code : Array UInt8} {budget place : Nat} (text : String)
    (enough : code.size ≤ place + budget) :
    disassembleFrom code budget place text =
      some ((scanFrom place #[] (code.toList.drop place)).toList.foldl
        (fun text l => text ++ l.line) text) := by
  induction budget generalizing place text with
  | zero =>
      rw [Nat.add_zero] at enough
      have behind : code.toList.drop place = [] := List.drop_eq_nil_of_le enough
      rw [disassembleFrom, if_neg (Nat.not_lt.mpr enough), behind]
      rfl
  | succ budget ih =>
      by_cases inside : place < code.size
      · rw [disassembleFrom, Array.getElem?_eq_getElem inside, drop_of_lt inside]
        dsimp only
        cases known : Opcode.ofByte? code[place] with
        | none =>
            rw [scanFrom, known]
            dsimp only
            rw [toList_scanFrom_push, List.foldl_cons, ih _ (by omega)]
            rfl
        | some op =>
            cases read : readOperands op.operandWidths (code.toList.drop (place + 1)) with
            | mk operands taken =>
                simp only [read]
                by_cases whole : operands.length = op.operandWidths.length
                · obtain ⟨i, parts, length, bytes⟩ :=
                    Instruction.exists_of_readOperands known read whole
                  obtain ⟨rfl, rfl⟩ := Prod.mk.inj parts
                  rw [if_neg (not_not_intro whole), bytes, scanFrom_bytes, toList_scanFrom_push,
                    List.foldl_cons, List.drop_drop, length, ih _ (by omega),
                    i.textWith_operands, Nat.add_assoc place 1 taken]
                  rfl
                · obtain ⟨rfl, found⟩ := scanFrom_of_short known read whole place
                  rw [if_pos whole, found, Opcode.textWith.eq_def, if_pos whole]
                  rfl
      · have outside := Nat.le_of_not_lt inside
        have behind : code.toList.drop place = [] := List.drop_eq_nil_of_le outside
        rw [disassembleFrom, Array.getElem?_eq_none outside, behind]
        rfl

/-! ### What a scan finds, in order -/

/-- A scan from an offset finds one thing behind the other, and nothing before the offset. -/
theorem pairwise_offset_scanFrom (o : Nat) (found : Array Located) (bytes : List UInt8)
    (ordered : found.toList.Pairwise (·.offset < ·.offset))
    (before : ∀ l ∈ found.toList, l.offset < o) :
    (scanFrom o found bytes).toList.Pairwise (·.offset < ·.offset) := by
  -- what is pushed stands at the offset of the scan, behind all that was found
  have push {o : Nat} {found : Array Located} (fetched : Fetched)
      (ordered : found.toList.Pairwise (·.offset < ·.offset))
      (before : ∀ l ∈ found.toList, l.offset < o) :
      (found.push ⟨o, fetched⟩).toList.Pairwise (·.offset < ·.offset) := by
    rw [Array.toList_push]
    refine List.pairwise_append.mpr ⟨ordered, List.pairwise_singleton .., fun l mem l' mem' => ?_⟩
    rw [List.mem_singleton.mp mem']
    exact before l mem
  have further {o o' : Nat} {found : Array Located} (fetched : Fetched) (next : o < o')
      (before : ∀ l ∈ found.toList, l.offset < o) :
      ∀ l ∈ (found.push ⟨o, fetched⟩).toList, l.offset < o' := by
    intro l mem
    rw [Array.toList_push] at mem
    rcases List.mem_append.mp mem with mem | mem
    · exact Nat.lt_trans (before l mem) next
    · rw [List.mem_singleton.mp mem]
      exact next
  fun_induction scanFrom o found bytes with
  | case1 => exact ordered
  | case2 o found byte rest undefined ih =>
      exact ih (push _ ordered before) (further _ (by omega) before)
  | case3 o found byte op known hasOperand high low rest i ih =>
      exact ih (push _ ordered before) (further _ (by omega) before)
  | case4 o found byte rest op known hasOperand short => exact push _ ordered before
  | case5 o found byte rest op known hasNone i ih =>
      exact ih (push _ ordered before) (further _ (by omega) before)

/-- **A scan finds one thing behind the other.** -/
theorem pairwise_offset_scan (code : Array UInt8) :
    (scan code).Pairwise (·.offset < ·.offset) :=
  pairwise_offset_scanFrom 0 #[] code.toList .nil nofun

/-- The first thing that a scan finds stands where the scan begins. -/
theorem exists_toList_scanFrom (o : Nat) (byte : UInt8) (rest : List UInt8) :
    ∃ fetched more, (scanFrom o #[] (byte :: rest)).toList = ⟨o, fetched⟩ :: more := by
  rw [scanFrom]
  split
  · exact ⟨_, _, toList_scanFrom_push ..⟩
  · split
    · split
      · exact ⟨_, _, toList_scanFrom_push ..⟩
      · exact ⟨_, _, rfl⟩
    · exact ⟨_, _, toList_scanFrom_push ..⟩

/-- The first thing in a code stands at its start. -/
theorem head?_scan {code : Array UInt8} (nonempty : code ≠ #[]) :
    ((scan code).map Located.offset).head? = some 0 := by
  cases bytes : code.toList with
  | nil => exact absurd (Array.toList_eq_nil_iff.mp bytes) nonempty
  | cons byte rest =>
      obtain ⟨fetched, more, found⟩ := exists_toList_scanFrom 0 byte rest
      rw [scan, bytes, found]
      rfl

/-! ### Where the stack check stops -/

/-- **Before the fault of a refused code there are only instructions.** -/
theorem exists_fault_of_refused {ls : List Located} {height : Nat} {e : StackCheckError}
    (refused : heightAfterAll height ls = .error e) :
    ∃ before l behind, ls = before ++ l :: behind ∧
      (∀ k ∈ before, ∃ i, k.fetched = .instruction i) ∧
      l.offset = e.offset ∧ l.fetched.ShownAs e.fault := by
  induction ls generalizing height with
  | nil => cases refused
  | cons l ls ih =>
      rw [heightAfterAll] at refused
      rcases l.heightAfter_cases height with ⟨fault, stopped, shown⟩ | ⟨i, _, fetched, passed⟩
      · rw [stopped] at refused
        cases refused
        exact ⟨[], l, ls, rfl, List.forall_mem_nil _, rfl, shown⟩
      · rw [passed] at refused
        obtain ⟨before, l', behind, rfl, whole, fault⟩ := ih refused
        refine ⟨l :: before, l', behind, rfl, fun k mem => ?_, fault⟩
        rcases List.mem_cons.mp mem with rfl | mem
        · exact ⟨i, fetched⟩
        · exact whole k mem

/-- Up to an instruction behind instructions there is nothing else. -/
theorem instructions_upTo {before behind : List Located} {l : Located}
    (ordered : (before ++ l :: behind).Pairwise (·.offset < ·.offset))
    (whole : ∀ k ∈ before, ∃ i, k.fetched = .instruction i)
    (last : ∃ i, l.fetched = .instruction i) :
    ∀ k ∈ before ++ l :: behind, k.offset ≤ l.offset → ∃ i, k.fetched = .instruction i := by
  intro k mem upTo
  rcases List.mem_append.mp mem with early | late
  · exact whole k early
  · rcases List.mem_cons.mp late with rfl | later
    · exact last
    · have further := List.rel_of_pairwise_cons (List.pairwise_append.mp ordered).2.1 later
      exact absurd further (Nat.not_lt.mpr upTo)

/-! ### Agreement -/

/-- The first line to report an error is for the first thing that is no instruction, and gives the
cause that is written for it. -/
theorem find?_reportsError {before behind : List Located} {l : Located} {cause : String}
    (whole : ∀ k ∈ before, ∃ i, k.fetched = .instruction i)
    (text : l.fetched.text = "ERROR: " ++ cause) :
    ((before ++ l :: behind).map Located.entry).find? reportsError =
      some (zeroPadded 4 l.offset ++ " ERROR: " ++ cause) := by
  rw [← Located.entry_of_text text, List.find?_eq_some_iff_append]
  refine ⟨Located.reportsError_of_text text, before.map Located.entry, behind.map Located.entry,
    by rw [List.map_append, List.map_cons], fun line mem => ?_⟩
  obtain ⟨k, listed, rfl⟩ := List.mem_map.mp mem
  rw [k.reportsError_entry_iff.mpr (whole k listed)]
  rfl

/-- **The disassembly agrees with the stack check**, whatever the bytes are.

Each of them is a loop over the bytes; that of the disassembler ends after at most as many passes as
there are bytes. The offsets of its lines go up strictly, and start at `0`. If the check accepts the
code, no line reports an error. If it finds a byte that is no opcode, or an operand cut off, the
first line to report an error is the one at that offset, and gives that cause. If it finds the stack
too low for an instruction, that instruction has its line at that offset, and no line up to there
reports an error. -/
theorem disassembly_agrees (code : Array UInt8) :
    (checkFrom code 0 0 = (finalHeight code).mapError fun e => .error (.stackCheck e)) ∧
    (∀ budget, code.size ≤ budget →
      disassembleFrom code budget 0 "" = some (disassemble code)) ∧
    ((lines (disassemble code)).map leadingNumber).Pairwise (· < ·) ∧
    (code ≠ #[] → ((lines (disassemble code)).map leadingNumber).head? = some 0) ∧
    (∀ height, finalHeight code = .ok height →
      ∀ line ∈ lines (disassemble code), reportsError line = false) ∧
    (∀ byte o, finalHeight code = .error ⟨.undefined byte, o⟩ →
      (lines (disassemble code)).find? reportsError =
        some (zeroPadded 4 o ++ " ERROR: " ++ (StackFault.undefined byte).message)) ∧
    (∀ op o, finalHeight code = .error ⟨.truncated op, o⟩ →
      (lines (disassemble code)).find? reportsError =
        some (zeroPadded 4 o ++ " ERROR: " ++
          ("operand len 0 does not match defined " ++ toString op.operandWidths.length))) ∧
    ∀ op needed had o, finalHeight code = .error ⟨.underflow op needed had, o⟩ →
      (∃ i : Instruction, i.opcode = op ∧
        zeroPadded 4 o ++ " " ++ i.text ∈ lines (disassemble code)) ∧
      ∀ line ∈ lines (disassemble code), leadingNumber line ≤ o → reportsError line = false := by
  refine ⟨checkFrom_eq code 0 0, fun budget enough => ?_, ?_, fun nonempty => ?_,
    fun height accepted line mem => ?_, fun byte o refused => ?_, fun op o refused => ?_,
    fun op needed had o refused => ?_⟩
  · rw [disassembleFrom_eq "" (by omega)]
    rfl
  · rw [leadingNumbers_disassemble]
    exact List.pairwise_map.mpr (pairwise_offset_scan code)
  · rw [leadingNumbers_disassemble]
    exact head?_scan nonempty
  · rw [lines_disassemble] at mem
    obtain ⟨l, found, rfl⟩ := List.mem_map.mp mem
    exact l.reportsError_entry_iff.mpr (whole_of_heightAfterAll accepted l found)
  · obtain ⟨before, ⟨_, fetched⟩, behind, found, whole, rfl, shown⟩ :=
      exists_fault_of_refused refused
    cases shown with
    | undefined =>
        rw [lines_disassemble, found, find?_reportsError whole (Fetched.text_undefined byte)]
        rfl
  · obtain ⟨before, ⟨_, fetched⟩, behind, found, whole, rfl, shown⟩ :=
      exists_fault_of_refused refused
    cases shown with
    | truncated =>
        rw [lines_disassemble, found, find?_reportsError whole (Fetched.text_truncated op)]
  · obtain ⟨before, ⟨place, fetched⟩, behind, found, whole, rfl, shown⟩ :=
      exists_fault_of_refused refused
    cases shown with
    | underflow i =>
        have ordered := pairwise_offset_scan code
        rw [found] at ordered
        rw [lines_disassemble, found]
        have here : ⟨place, .instruction i⟩ ∈ before ++ ⟨place, .instruction i⟩ :: behind :=
          List.mem_append_right before (List.mem_cons_self ..)
        refine ⟨⟨i, rfl, List.mem_map.mpr ⟨_, here, rfl⟩⟩, fun line mem upTo => ?_⟩
        obtain ⟨k, listed, rfl⟩ := List.mem_map.mp mem
        rw [k.leadingNumber_entry] at upTo
        exact k.reportsError_entry_iff.mpr (instructions_upTo ordered whole ⟨i, rfl⟩ k listed upTo)

/-- A code without fault; one with a byte that is no opcode, one whose last operand is cut off, and
one that adds what is not there, with a byte that is no opcode behind it. -/
theorem disassembly_agrees_damaged :
    (finalHeight #[6, 1] = .ok 0 ∧
      ∀ line ∈ lines (disassemble #[6, 1]), reportsError line = false) ∧
    (finalHeight #[6, 200, 1] = .error ⟨.undefined 200, 1⟩ ∧
      (lines (disassemble #[6, 200, 1])).find? reportsError =
        some "0001 ERROR: opcode 200 undefined") ∧
    (finalHeight #[6, 0, 5] = .error ⟨.truncated .constant, 1⟩ ∧
      (lines (disassemble #[6, 0, 5])).find? reportsError =
        some "0001 ERROR: operand len 0 does not match defined 1") ∧
    (finalHeight #[6, 2, 250] = .error ⟨.underflow .add 2 1, 1⟩ ∧
      ∀ line ∈ lines (disassemble #[6, 2, 250]), leadingNumber line ≤ 1 →
        reportsError line = false) ∧
    disassembleFrom #[6, 0, 5] 3 0 "" = some (disassemble #[6, 0, 5]) := by
  have accepted : finalHeight #[6, 1] = .ok 0 := rfl
  have undefined : finalHeight #[6, 200, 1] = .error ⟨.undefined 200, 1⟩ := rfl
  have truncated : finalHeight #[6, 0, 5] = .error ⟨.truncated .constant, 1⟩ := rfl
  have underflow : finalHeight #[6, 2, 250] = .error ⟨.underflow .add 2 1, 1⟩ := rfl
  obtain ⟨-, -, -, -, clean, -⟩ := disassembly_agrees #[6, 1]
  obtain ⟨-, -, -, -, -, noOpcode, -⟩ := disassembly_agrees #[6, 200, 1]
  obtain ⟨-, ends, -, -, -, -, cutOff, -⟩ := disassembly_agrees #[6, 0, 5]
  obtain ⟨-, -, -, -, -, -, -, low⟩ := disassembly_agrees #[6, 2, 250]
  exact ⟨⟨accepted, clean 0 accepted⟩, ⟨undefined, noOpcode 200 1 undefined⟩,
    ⟨truncated, cutOff .constant 1 truncated⟩, ⟨underflow, (low .add 2 1 1 underflow).2⟩,
    ends 3 (by decide)⟩

end StackScript
