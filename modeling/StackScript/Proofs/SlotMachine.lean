import StackScript.Proofs.ExactIntegers
import StackScript.Proofs.Independence

/-!
# The Machine on a Block of Slots

The stack of the machine has no pointer, and its code is read by look-ups that may find nothing, so
it could not use a wrong index if it tried. This module has the machine as it lies in memory: the
stack is one block of slots with a pointer into it, and the block, the code and the globals are read
and written by index. An index that is out of bounds halts the run with a fault of its own. No code
can bring this about, whatever its bytes are, and the two machines do the same.

## Main definitions

* `Halt`: why a run ends early; `elementAt`, `bytesFrom`, `replacedAt`: accesses that may halt it.
* `checkFrom`, `fetchAt`: the stack check, and what stands at a place, by such accesses.
* `SlotState`, `Routine.execOnSlots`, `SlotMachine`: the machine on a block of slots.
* `Stack.block`, `MachineState.onSlots`, `Machine.onSlots`: the block of a stack, and the same
  machine on it.

## Main results

* `checkFrom_eq`, `fetchAt_eq`: reading the code does not leave it.
* `Routine.execOnSlots_eq`: a routine does not leave the block, nor the globals.
* `SlotMachine.run_inBounds`: **no run leaves its bounds**, on any code.
-/

namespace StackScript

/-! ### Accesses by index -/

/-- Why a run **halts** before its code ends. -/
inductive Halt
  /-- An error of the language. -/
  | error (e : RuntimeError)
  /-- An access that is out of bounds. -/
  | outOfBounds (index size : Nat)

/-- An outcome of the language is no access out of bounds. -/
theorem Halt.ne_outOfBounds {α : Type} (outcome : Except RuntimeError α) (index size : Nat) :
    outcome.mapError error ≠ .error (.outOfBounds index size) := by
  cases outcome with
  | ok a => nofun
  | error e => nofun

section Accesses

variable {α : Type}

/-- The element at an index. -/
def elementAt (xs : Array α) (index : Nat) : Except Halt α :=
  match xs[index]? with
  | some x => .ok x
  | none => .error (.outOfBounds index xs.size)

/-- The elements with another one at an index. -/
def replacedAt (xs : Array α) (index : Nat) (x : α) : Except Halt (Array α) :=
  if index < xs.size then .ok (xs.setIfInBounds index x)
  else .error (.outOfBounds index xs.size)

/-- The bytes from an index on, which may be the index behind them all. -/
def bytesFrom (code : Array UInt8) (index : Nat) : Except Halt (List UInt8) :=
  if index ≤ code.size then .ok (code.toList.drop index)
  else .error (.outOfBounds index code.size)

variable {xs : Array α} {code : Array UInt8} {index : Nat}

/-- Within its bounds an array is read. -/
theorem elementAt_of_lt (h : index < xs.size) : elementAt xs index = .ok xs[index] := by
  rw [elementAt, Array.getElem?_eq_getElem h]

/-- Within its bounds an array is written. -/
theorem replacedAt_of_lt (h : index < xs.size) (x : α) :
    replacedAt xs index x = .ok (xs.setIfInBounds index x) := by
  rw [replacedAt, if_pos h]

/-- Up to the end of a code, the bytes from there on are read. -/
theorem bytesFrom_of_le (h : index ≤ code.size) :
    bytesFrom code index = .ok (code.toList.drop index) := by
  rw [bytesFrom, if_pos h]

end Accesses

/-! ### Reading the code -/

/-- The stack check, from a place and a height on. -/
def checkFrom (code : Array UInt8) (place height : Nat) : Except Halt Nat :=
  if _inside : place < code.size then do
    let byte ← elementAt code place
    match Opcode.ofByte? byte with
    | none => throw (.error (.stackCheck ⟨.undefined byte, place⟩))
    | some op =>
      let (operands, taken) := readOperands op.operandWidths (← bytesFrom code (place + 1))
      if operands.length ≠ op.operandWidths.length then
        throw (.error (.stackCheck ⟨.truncated op, place⟩))
      else
        let effect := (Instruction.ofOpcode op 0).effect
        if height < effect.pops then
          throw (.error (.stackCheck ⟨.underflow op effect.pops height, place⟩))
        else checkFrom code (place + 1 + taken) (height - effect.pops + effect.pushes)
  else return height
termination_by code.size - place

/-- What stands at a place of a code. -/
def fetchAt (code : Array UInt8) (place : Nat) : Except Halt Fetched := do
  let byte ← elementAt code place
  match Opcode.ofByte? byte with
  | none => return .undefined byte
  | some op =>
    if op.hasOperand then
      match readWord? (← bytesFrom code (place + 1)) with
      | some word => return .instruction (.ofOpcode op (UInt16.ofNat word))
      | none => return .truncated op
    else return .instruction (.ofOpcode op 0)

/-- The effect of an instruction does not depend on its operand. -/
theorem Instruction.effect_ofOpcode (op : Opcode) (operand : UInt16) :
    (ofOpcode op operand).effect = (ofOpcode op 0).effect := by
  cases op <;> rfl

/-- The code from a place on, with its first byte. -/
theorem drop_of_lt {code : Array UInt8} {place : Nat} (inside : place < code.size) :
    code.toList.drop place = code[place] :: code.toList.drop (place + 1) :=
  List.drop_eq_getElem_cons inside

/-- The height behind what a scan finds after one thing. -/
theorem heightAfterAll_scanFrom (height next : Nat) (l : Located) (rest : List UInt8) :
    heightAfterAll height (scanFrom next (#[].push l) rest).toList =
      match l.heightAfter height with
      | .ok height => heightAfterAll height (scanFrom next #[] rest).toList
      | .error e => .error e := by
  rw [toList_scanFrom_push]
  rfl

/-- **The stack check does not leave the code**, and finds what a scan finds. -/
theorem checkFrom_eq (code : Array UInt8) (place height : Nat) :
    checkFrom code place height =
      (heightAfterAll height (scanFrom place #[] (code.toList.drop place)).toList).mapError
        fun e => .error (.stackCheck e) := by
  induction left : code.size - place using Nat.strongRecOn generalizing place height with
  | ind left ih =>
      by_cases inside : place < code.size
      · have found (op : Opcode) (operand : UInt16) (taken : Nat) :
            (if height < (Instruction.ofOpcode op 0).effect.pops then
                .error (.error (.stackCheck
                  ⟨.underflow op (Instruction.ofOpcode op 0).effect.pops height, place⟩))
              else checkFrom code (place + 1 + taken)
                (height - (Instruction.ofOpcode op 0).effect.pops +
                  (Instruction.ofOpcode op 0).effect.pushes)) =
              (heightAfterAll height (scanFrom (place + 1 + taken)
                (#[].push ⟨place, .instruction (.ofOpcode op operand)⟩)
                (code.toList.drop (place + 1 + taken))).toList).mapError
                fun e => Halt.error (.stackCheck e) := by
          rw [heightAfterAll_scanFrom, Located.heightAfter]
          dsimp only
          rw [Instruction.effect_ofOpcode op operand, Instruction.opcode_ofOpcode]
          split
          · rfl
          · exact ih _ (by omega) _ _ rfl
        rw [checkFrom, dif_pos inside, elementAt_of_lt inside, bytesFrom_of_le inside,
          drop_of_lt inside, scanFrom]
        simp only [bind, Except.bind]
        cases Opcode.ofByte? code[place] with
        | none =>
            dsimp only
            rw [heightAfterAll_scanFrom]
            rfl
        | some op =>
            cases operand : op.hasOperand with
            | false =>
                simp only [Opcode.operandWidths, operand]
                exact found op 0 0
            | true =>
                simp only [Opcode.operandWidths, operand, if_true]
                cases bytes : code.toList.drop (place + 1) with
                | nil => rfl
                | cons high bytes' =>
                    cases bytes' with
                    | nil => rfl
                    | cons low rest =>
                        have behind : rest = code.toList.drop (place + 1 + 2) := by
                          rw [← List.drop_drop, bytes]
                          rfl
                        rw [behind]
                        exact found op (UInt16.ofNat (wordOf high low)) 2
      · have behind : code.toList.drop place = [] :=
          List.drop_eq_nil_of_le (Nat.le_of_not_lt inside)
        rw [checkFrom, dif_neg inside, behind]
        rfl

/-- **Fetching does not leave the code**: inside, it finds what stands there. -/
theorem fetchAt_eq {code : Array UInt8} {place : Nat} (inside : place < code.size) :
    ∃ fetched, fetch? code place = some fetched ∧ fetchAt code place = .ok fetched := by
  have standing (k : Nat) : code[place + 1 + k]? = (code.toList.drop (place + 1))[k]? := by
    rw [List.getElem?_drop, Array.getElem?_toList]
  have high : code[place + 1]? = (code.toList.drop (place + 1))[0]? := standing 0
  have low : code[place + 2]? = (code.toList.drop (place + 1))[1]? := standing 1
  simp only [fetch?, Array.getElem?_eq_getElem inside, fetchAt, elementAt_of_lt inside,
    bytesFrom_of_le (Nat.succ_le_of_lt inside), bind, Except.bind, high, low]
  cases Opcode.ofByte? code[place] with
  | none => exact ⟨_, rfl, rfl⟩
  | some op =>
      cases operand : op.hasOperand with
      | false =>
          simp only [operand]
          exact ⟨_, rfl, rfl⟩
      | true =>
          simp only [operand, if_true]
          cases code.toList.drop (place + 1) with
          | nil => exact ⟨_, rfl, rfl⟩
          | cons high bytes =>
              cases bytes with
              | nil => exact ⟨_, rfl, rfl⟩
              | cons low rest => exact ⟨_, rfl, rfl⟩

/-! ### The machine on its slots -/

/-- What a machine on a block of slots changes as it runs. -/
structure SlotState where
  /-- The block of the stack. -/
  slots : Array Value
  /-- The index of the next free slot. -/
  pointer : Nat := 0
  /-- The offset of the instruction to run next. -/
  place : Nat := 0
  globals : Array Value := #[]
  /-- The number of instructions begun. -/
  steps : Nat := 0

/-- A piece of a run on a block of slots. -/
abbrev Access := EStateM Halt SlotState

namespace Access

/-- Takes the result of an access, or halts with it. -/
def ofExcept {α : Type} (outcome : Except Halt α) : Access α :=
  match outcome with
  | .ok a => return a
  | .error h => throw h

/-- Writes a value into the next slot, if there is one. -/
def push (limit : Nat) (v : Value) : Access Unit := do
  let s ← get
  if s.pointer < s.slots.size then
    set { s with slots := s.slots.setIfInBounds s.pointer v, pointer := s.pointer + 1 }
  else throw (.error (.stackOverflow limit))

/-- Moves the pointer down and reads the slot that it then points at. -/
def pop : Access Value := do
  let s ← get
  if s.pointer = 0 then throw (.error (.stackUnderflow s.place))
  else
    set { s with pointer := s.pointer - 1 }
    ofExcept (elementAt s.slots (s.pointer - 1))

/-- Writes a global, after adding as many as are missing. -/
def setGlobal (slot : Nat) (v : Value) : Access Unit := do
  let s ← get
  let missing := slot + 1 - s.globals.size
  let globals ← ofExcept (replacedAt (s.globals ++ Array.replicate missing .null) slot v)
  set { s with globals }

end Access

/-- Carries out a routine on a block of slots. -/
def Routine.execOnSlots (limit : Nat) : Routine → Access Unit
  | push v next => do
    Access.push limit v
    next.execOnSlots limit
  | pop next => do
    let v ← Access.pop
    (next v).execOnSlots limit
  | load slot next => do
    let s ← get
    (next (s.globals[slot]?.getD .null)).execOnSlots limit
  | store slot v next => do
    Access.setGlobal slot v
    next.execOnSlots limit
  | goPast i => modify fun s => { s with place := s.place + i.length }
  | goTo place => modify fun s => { s with place }
  | fail e => throw (.error e)

namespace SlotState

/-- Runs the instruction at the present place. -/
def step (program : Bytecode) (limit : Nat) : Access Unit := do
  modify fun s => { s with steps := s.steps + 1 }
  let place := (← get).place
  let fetched ← Access.ofExcept (fetchAt program.code place)
  (fetched.routine program.constants place).execOnSlots limit

/-- Runs at most `budget` instructions. There is no outcome if the run was not over by then. -/
def runFor (program : Bytecode) (limit : Nat) :
    Nat → SlotState → Option (Except Halt Unit) × SlotState
  | 0, s => if program.code.size ≤ s.place then (some (.ok ()), s) else (none, s)
  | budget + 1, s =>
    if program.code.size ≤ s.place then (some (.ok ()), s)
    else
      match step program limit s with
      | .ok _ s => runFor program limit budget s
      | .error h s => (some (.error h), s)

/-- The state in which a run begins: the slots keep what they hold. -/
def begin (s : SlotState) : SlotState :=
  { slots := s.slots, globals := s.globals }

end SlotState

/-- A **machine on a block of slots**. -/
structure SlotMachine where
  program : Bytecode
  config : Config := {}
  state : SlotState

namespace SlotMachine

/-- A fresh machine with as many slots as its configuration says. -/
def load (program : Bytecode) (config : Config) (globals : Array Value) : SlotMachine :=
  { program, config, state := { slots := Array.replicate config.stackSize .null, globals } }

/-- The number of instructions that a run may begin. -/
def budget (m : SlotMachine) : Nat :=
  m.config.maxSteps.getD (0x4000000000000000 + m.program.code.size)

/-- Checks the code and runs it: how the run ended, and the machine then. -/
def run (m : SlotMachine) : Except Halt Unit × SlotMachine :=
  match checkFrom m.program.code 0 0 with
  | .error h => (.error h, m)
  | .ok _ =>
    match m.state.begin.runFor m.program m.config.stackSize m.budget with
    | (some outcome, state) => (outcome, { m with state })
    | (none, state) => (.error (.error (.stepLimitExceeded m.budget)), { m with state })

/-- The machine **after** a number of runs, however each of them ended. -/
def after (m : SlotMachine) : Nat → SlotMachine
  | 0 => m
  | k + 1 => (m.after k).run.2

/-- The value in the slot below the pointer. -/
def top? (m : SlotMachine) : Option Value :=
  if m.state.pointer = 0 then none else m.state.slots[m.state.pointer - 1]?

/-- The value in the slot at the pointer. -/
def lastPopped (m : SlotMachine) : Value :=
  m.state.slots[m.state.pointer]?.getD .null

end SlotMachine

/-! ### The same machine -/

namespace Stack

/-- The slots above the top of a stack that has this many in all. -/
def above (limit : Nat) (s : Stack) : List Value :=
  s.stale ++ List.replicate (limit - (s.height + s.stale.length)) .null

/-- The **block** of a stack that has this many slots. -/
def block (limit : Nat) (s : Stack) : Array Value :=
  (s.live.toList ++ s.above limit).toArray

variable {limit : Nat} {s : Stack} {v : Value}

/-- A block has as many slots as it was made with. -/
theorem size_block (fits : s.Fits limit) : (s.block limit).size = limit := by
  simp only [Fits, height] at fits
  simp only [block, above, height, List.size_toArray, List.length_append, Array.length_toList,
    List.length_replicate]
  omega

/-- Where there is room, a push takes the first slot above the top. -/
theorem exists_above (fits : s.Fits limit) (room : s.height < limit) :
    ∃ x, s.above limit = x :: (s.push v).above limit := by
  obtain ⟨live, stale⟩ := s
  cases stale with
  | nil =>
      refine ⟨.null, ?_⟩
      have left : limit - live.size = limit - (live.size + 1) + 1 := by
        simp only [height] at room
        omega
      simp only [above, push, height, Array.size_push, List.tail_nil, List.length_nil,
        List.nil_append, Nat.add_zero, left, List.replicate_succ]
  | cons x stale =>
      refine ⟨x, ?_⟩
      simp only [above, push, height, Array.size_push, List.tail_cons, List.length_cons,
        List.cons_append, Nat.add_right_comm, Nat.add_assoc]

/-- A push writes into the slot at the pointer. -/
theorem block_push (fits : s.Fits limit) (room : s.height < limit) (v : Value) :
    (s.push v).block limit = (s.block limit).setIfInBounds s.height v := by
  obtain ⟨x, above⟩ := exists_above (v := v) fits room
  have live : (s.push v).live.toList = s.live.toList ++ [v] := Array.toList_push
  have height : s.live.toList.length = s.height := Array.length_toList
  rw [block, block, above, live, List.setIfInBounds_toArray,
    List.set_append_right _ _ (Nat.le_of_eq height), height, Nat.sub_self, List.set_cons_zero,
    List.append_assoc, List.singleton_append]

/-- Dropping the top value changes no slot. -/
theorem block_drop (top : s.top? = some v) : (s.drop v).block limit = s.block limit := by
  obtain ⟨live, stale⟩ := s
  obtain ⟨below, rfl⟩ := Array.back?_eq_some_iff.mp top
  simp only [block, above, drop, height, Array.pop_push, Array.toList_push, Array.size_push,
    List.length_cons, List.cons_append, List.append_assoc, List.nil_append, Nat.add_assoc,
    Nat.add_comm 1]

/-- Nor does clearing the stack. -/
theorem block_clear : s.clear.block limit = s.block limit := by
  obtain ⟨live, stale⟩ := s
  simp only [block, above, clear, height, List.size_toArray, List.length_nil, Nat.zero_add,
    List.length_append, Array.length_toList, List.nil_append, List.append_assoc]

/-- The slot below the pointer holds the top value. -/
theorem getElem?_block_below (top : s.top? = some v) :
    (s.block limit)[s.height - 1]? = some v := by
  obtain ⟨live, stale⟩ := s
  obtain ⟨below, rfl⟩ := Array.back?_eq_some_iff.mp top
  simp only [block, height, Array.toList_push, Array.size_push, Nat.add_sub_cancel,
    List.getElem?_toArray, List.append_assoc]
  rw [List.getElem?_append_right (Nat.le_of_eq Array.length_toList), Array.length_toList,
    Nat.sub_self]
  rfl

/-- The slot at the pointer holds the value just above the top. -/
theorem getD_block (limit : Nat) (s : Stack) :
    (s.block limit)[s.height]?.getD .null = s.justAbove := by
  obtain ⟨live, stale⟩ := s
  rw [block, List.getElem?_toArray, height,
    List.getElem?_append_right (Nat.le_of_eq Array.length_toList), Array.length_toList,
    Nat.sub_self, above, justAbove]
  cases stale with
  | cons v stale => rfl
  | nil =>
      cases limit - (height ⟨live, []⟩ + 0) with
      | zero => rfl
      | succ more => rfl

end Stack

/-- The state of a machine **on its block of slots**. -/
def MachineState.onSlots (limit : Nat) (s : MachineState) : SlotState :=
  ⟨s.stack.block limit, s.stack.height, s.place, s.globals, s.steps⟩

/-- How a computation ends on a block of slots. -/
def resultOnSlots {α : Type} (limit : Nat) :
    EStateM.Result RuntimeError MachineState α → EStateM.Result Halt SlotState α
  | .ok a s => .ok a (s.onSlots limit)
  | .error e s => .error (.error e) (s.onSlots limit)

section OnSlots

variable {limit : Nat} {program : Bytecode} {s : MachineState}

namespace Access

/-- A push on the block is a push on the stack, and meets no slot out of bounds. -/
theorem push_eq (fits : s.stack.Fits limit) (v : Value) :
    push limit v (s.onSlots limit) = resultOnSlots limit (Exec.push limit v s) := by
  obtain ⟨stack, place, globals, steps⟩ := s
  change (if stack.height < (stack.block limit).size then _ else _ : Access Unit) _ = _
  rw [Stack.size_block fits]
  by_cases room : stack.height < limit
  · rw [if_pos room, Exec.push_of_lt room]
    simp only [resultOnSlots, MachineState.onSlots, Stack.block_push fits room, Stack.height_push]
    rfl
  · rw [if_neg room, Exec.push_of_not_lt room]
    rfl

/-- A pop on the block is a pop on the stack. -/
theorem pop_eq (limit : Nat) (s : MachineState) :
    pop (s.onSlots limit) = resultOnSlots limit (Exec.pop s) := by
  change (if s.stack.height = 0 then _ else _ : Access Value) _ = _
  by_cases empty : s.stack.height = 0
  · rw [if_pos empty, Exec.pop_of_empty empty]
    rfl
  · obtain ⟨v, top⟩ := Stack.exists_top (s := s.stack) (by omega)
    obtain ⟨stack, place, globals, steps⟩ := s
    rw [if_neg empty, Exec.pop_of_top top]
    simp only [resultOnSlots, MachineState.onSlots, Stack.block_drop top, Stack.height_drop,
      elementAt, Stack.getElem?_block_below top]
    rfl

/-- Globals that are long enough are written inside their bounds. -/
theorem replacedAt_padded (globals : Array Value) (slot : Nat) (v : Value) :
    replacedAt (globals ++ Array.replicate (slot + 1 - globals.size) .null) slot v =
      .ok (Exec.extended globals slot v) := by
  rw [Exec.extended]
  split
  · next known =>
      rw [Nat.sub_eq_zero_of_le known, Array.replicate_zero, Array.append_empty,
        replacedAt_of_lt known]
  · next unknown =>
      have size : (globals ++ Array.replicate (slot - globals.size) Value.null).size = slot := by
        rw [Array.size_append, Array.size_replicate]
        omega
      rw [Nat.succ_sub (Nat.le_of_not_lt unknown), Array.replicate_succ, Array.append_push,
        replacedAt_of_lt (by rw [Array.size_push, size]; omega), Array.push_eq_append,
        Array.setIfInBounds_append_right (Nat.le_of_eq size), size, Nat.sub_self]
      rfl

/-- A global is set beside the block as beside the stack. -/
theorem setGlobal_eq (limit slot : Nat) (v : Value) (s : MachineState) :
    setGlobal slot v (s.onSlots limit) = resultOnSlots limit (Exec.setGlobal slot v s) := by
  obtain ⟨stack, place, globals, steps⟩ := s
  simp only [setGlobal, bind_run, get_run, MachineState.onSlots, replacedAt_padded]
  rfl

end Access

/-- **A routine does not leave the block, nor the globals**: it ends as it does without them. -/
theorem Routine.execOnSlots_eq (r : Routine) (fits : s.stack.Fits limit) :
    r.execOnSlots limit (s.onSlots limit) = resultOnSlots limit (r.exec limit s) := by
  induction r generalizing s with
  | push v next ih =>
      rw [execOnSlots, exec, bind_run, bind_run, Access.push_eq fits]
      obtain ⟨stack, place, globals, steps⟩ := s
      by_cases room : stack.height < limit
      · rw [Exec.push_of_lt room]
        exact ih (fits.push room)
      · rw [Exec.push_of_not_lt room]
        rfl
  | pop next ih =>
      rw [execOnSlots, exec, bind_run, bind_run, Access.pop_eq]
      by_cases empty : s.stack.height = 0
      · rw [Exec.pop_of_empty empty]
        rfl
      · obtain ⟨v, top⟩ := Stack.exists_top (s := s.stack) (by omega)
        obtain ⟨stack, place, globals, steps⟩ := s
        rw [Exec.pop_of_top top]
        exact ih v (fits.drop top)
  | load slot next ih => exact ih (s.globals[slot]?.getD .null) fits
  | store slot v next ih =>
      rw [execOnSlots, exec, bind_run, bind_run, Access.setGlobal_eq]
      exact ih fits
  | goPast i => rfl
  | goTo place => rfl
  | fail e => rfl

namespace SlotState

/-- A run begins on the block as it does on the stack: the slots keep what they hold. -/
theorem begin_eq (limit : Nat) (s : MachineState) :
    (s.onSlots limit).begin = s.begin.onSlots limit := by
  simp only [begin, MachineState.begin, MachineState.onSlots, Stack.block_clear]
  rfl

/-- Inside the code, a step does the same on the slots. -/
theorem step_eq (fits : s.stack.Fits limit) (inside : s.place < program.code.size) :
    step program limit (s.onSlots limit) =
      resultOnSlots limit (MachineState.step program limit s) := by
  obtain ⟨fetched, standing, read⟩ := fetchAt_eq inside
  have routine : program.routineAt s.place = fetched.routine program.constants s.place := by
    rw [Bytecode.routineAt, standing]
  have carried := Routine.execOnSlots_eq (s := { s with steps := s.steps + 1 })
    (fetched.routine program.constants s.place) fits
  have place : (s.onSlots limit).place = s.place := rfl
  rw [MachineState.step_eq_exec, routine, ← carried]
  simp only [step, bind_run, modify_run, get_run]
  rw [place, read]
  rfl

/-- So does a run, under any budget. -/
theorem runFor_eq (n : Nat) (fits : s.stack.Fits limit) :
    runFor program limit n (s.onSlots limit) =
      ((s.runFor program limit n).1.map (Except.mapError Halt.error),
        (s.runFor program limit n).2.onSlots limit) := by
  have there : (program.code.size ≤ (s.onSlots limit).place) ↔ s.atEnd program = true := by
    rw [MachineState.atEnd, decide_eq_true_iff]
    rfl
  induction n generalizing s with
  | zero =>
      simp only [runFor, MachineState.runFor, there]
      split
      · rfl
      · rfl
  | succ n ih =>
      simp only [runFor, MachineState.runFor, there]
      split
      · rfl
      · next inside =>
          have inside : s.place < program.code.size := by
            simpa [MachineState.atEnd] using inside
          rw [step_eq fits inside]
          have kept := @MachineState.step_keeps limit _ program s (Memory.kept_fits limit) fits
          cases ran : s.step program limit with
          | ok _ t =>
              rw [ran] at kept
              exact ih kept (by rw [MachineState.atEnd, decide_eq_true_iff]; rfl)
          | error e t => rfl

end SlotState

end OnSlots

/-- A machine **on its block of slots**. -/
def Machine.onSlots (m : Machine) : SlotMachine :=
  ⟨m.program, m.config, m.state.onSlots m.config.stackSize⟩

namespace SlotMachine

/-- A fresh machine begins on its block of slots. -/
theorem load_eq (program : Bytecode) (config : Config) (globals : Array Value) :
    load program config globals = (Machine.load program config globals).onSlots := rfl

/-- A run on the slots ends as it does without them. -/
theorem run_eq {m : Machine} (fits : m.state.stack.Fits m.config.stackSize) :
    m.onSlots.run = (m.run.outcome.mapError Halt.error, m.run.machine.onSlots) := by
  have check : checkFrom m.onSlots.program.code 0 0 =
      (finalHeight m.program.code).mapError fun e => .error (.stackCheck e) :=
    checkFrom_eq m.program.code 0 0
  cases checked : finalHeight m.program.code with
  | error e =>
      rw [checked] at check
      obtain ⟨outcome, machine⟩ := Machine.run_of_refused checked
      rw [outcome, machine, run, check]
      rfl
  | ok height =>
      rw [checked] at check
      rcases ran : m.state.begin.runFor m.program m.config.stackSize m.budget with ⟨outcome?, t⟩
      obtain ⟨outcome, machine⟩ := Machine.run_of_runFor checked ran
      have same : m.onSlots.state.begin.runFor m.onSlots.program m.onSlots.config.stackSize
          m.onSlots.budget =
            (outcome?.map (Except.mapError Halt.error), t.onSlots m.config.stackSize) := by
        have run := @SlotState.runFor_eq _ m.program m.state.begin m.budget fits.clear
        rw [ran] at run
        exact (congrArg _ (SlotState.begin_eq _ _)).trans run
      rw [outcome, machine, run, check, same]
      cases outcome? with
      | none => rfl
      | some outcome => rfl

/-- So does any number of runs. -/
theorem after_eq {m : Machine} (fits : m.state.stack.Fits m.config.stackSize) (k : Nat) :
    m.onSlots.after k = (m.after k).onSlots := by
  induction k with
  | zero => rfl
  | succ k ih =>
      have still : (m.after k).state.stack.Fits (m.after k).config.stackSize := by
        have kept := Machine.after_keeps (Memory.kept_fits m.config.stackSize) fits k
        rw [Machine.after_eq]
        exact kept
      rw [after, ih, run_eq still]
      rfl

/-- The slot below the pointer holds the top of the stack. -/
theorem top?_eq (m : Machine) : m.onSlots.top? = m.top? := by
  change (if m.state.stack.height = 0 then none else _) = m.state.stack.top?
  split
  · next empty => exact (Stack.top?_eq_none_iff.mpr empty).symm
  · next nonempty =>
      obtain ⟨v, top⟩ := Stack.exists_top (s := m.state.stack) (by omega)
      rw [top]
      exact Stack.getElem?_block_below top

/-- **No run leaves its bounds.** On every code, with every number of slots and every step limit,
in the first run of a machine and in every later one, the pointer never exceeds the number of slots,
and no access to the slots, the code or the globals is out of bounds: a run that ends early ends
with an error of the language. In all that it shows, the machine agrees with the one that has no
slots. An integer that an operator yields is always the exact result. -/
theorem run_inBounds (program : Bytecode) (config : Config) (globals : Array Value) (k : Nat) :
    let m := (Machine.load program config globals).after k
    let b := (load program config globals).after k
    (∀ n, let ran := b.state.begin.runFor program config.stackSize n
      ran.2.slots.size = config.stackSize ∧ ran.2.pointer ≤ config.stackSize ∧
        ∀ index size, ran.1 ≠ some (.error (.outOfBounds index size))) ∧
    b.run.1 = m.run.outcome.mapError Halt.error ∧
    (∀ index size, b.run.1 ≠ .error (.outOfBounds index size)) ∧
    b.run.2.top? = m.run.machine.top? ∧ b.run.2.lastPopped = m.run.machine.lastPopped ∧
    b.run.2.state.globals = m.run.machine.globals ∧
    (∀ op left right n, Arithmetic.apply op (.integer left) (.integer right) = .ok (.integer n) →
      n.toInt = op.exact left.toInt right.toInt) ∧
    ∀ operand n, (Value.integer operand).negate = .ok (.integer n) → n.toInt = -operand.toInt := by
  intro m b
  have fresh : (Machine.load program config globals).state.stack.Fits config.stackSize :=
    Nat.zero_le _
  have fits : m.state.stack.Fits config.stackSize :=
    Machine.after_keeps (Memory.kept_fits _) fresh k
  have same : b = m.onSlots := (congrArg (after · k) (load_eq ..)).trans (after_eq fresh k)
  have machine : m.config = config := congrArg Machine.config (Machine.after_eq _ k)
  have run : b.run = (m.run.outcome.mapError Halt.error, m.run.machine.onSlots) :=
    (congrArg SlotMachine.run same).trans (run_eq (machine ▸ fits))
  refine ⟨fun n => ?_, congrArg Prod.fst run, fun index size halted => ?_, ?_, ?_, ?_,
    fun _ _ _ _ => Arithmetic.exact_of_apply, fun _ _ => Value.exact_of_negate⟩
  · have state : b.state.begin = m.state.begin.onSlots config.stackSize := by
      rw [same, ← machine, ← SlotState.begin_eq]
      rfl
    have kept := @MachineState.runFor_keeps _ _ program m.state.begin
      (Memory.kept_fits config.stackSize) n fits.clear
    rw [state, SlotState.runFor_eq n fits.clear]
    refine ⟨Stack.size_block kept, Nat.le_trans (Nat.le_add_right _ _) kept, ?_⟩
    intro index size halted
    obtain ⟨outcome, -, halted⟩ := Option.map_eq_some_iff.mp halted
    exact Halt.ne_outOfBounds outcome index size halted
  · rw [run] at halted
    exact Halt.ne_outOfBounds _ index size halted
  · rw [run]
    exact top?_eq m.run.machine
  · rw [run]
    exact Stack.getD_block _ _
  · rw [run]
    rfl

/-- A jump leads into the operand of the instruction behind it, of which the stack check has not
heard: there stands an addition, which finds nothing on a stack that has no slots at all. -/
theorem run_inBounds_amid :
    let b := load { code := #[14, 0, 4, 14, 2, 1] } ⟨0, some 9⟩ #[]
    b.run.1 = .error (.error (.stackUnderflow 4)) ∧ b.run.2.top? = none ∧
      (4611686018427387904 : Int64).toInt = Arithmetic.exact .pow 2 62 ∧
      (-5 : Int64).toInt = -5 := by
  intro b
  obtain ⟨-, outcome, -, top, -, -, power, negative⟩ :=
    run_inBounds { code := #[14, 0, 4, 14, 2, 1] } ⟨0, some 9⟩ #[] 0
  exact ⟨outcome, top, power .pow 2 62 4611686018427387904 rfl, negative 5 (-5) rfl⟩

end SlotMachine

end StackScript
