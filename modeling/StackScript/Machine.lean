import StackScript.Machine.Operation
import StackScript.Machine.Stack

/-!
# The Machine

The machine runs a bytecode instruction by instruction. A code has to pass the stack check
first; then it runs until it leaves its end, until something fails, or until its budget of
steps is spent. Whatever a failing instruction did before it failed stays done, and so do the
globals; a machine can be run again, on an empty stack and with the globals it has.

A run without a step limit gets a budget too. It exceeds the length of the code, so that a code
without backward jumps never meets it, and by so much that no other run lives to meet it either.

## Main definitions

* `Config`: the limits of a machine.
* `MachineState`: stack, place, globals and steps.
* `MachineState.step`: runs one instruction.
* `MachineState.runFor`: runs at most a number of instructions.
* `Machine.run`: a whole run.
-/

namespace StackScript

/-- The limits of a machine. -/
structure Config where
  /-- The number of stack slots. -/
  stackSize : Nat := 2048
  /-- The number of instructions after which a run is cut off. -/
  maxSteps : Option Nat := none
  deriving DecidableEq, Inhabited, Repr

/-- What a machine changes as it runs. -/
structure MachineState where
  stack : Stack := {}
  /-- The offset of the instruction to run next. -/
  place : Nat := 0
  globals : Array Value := #[]
  /-- The number of instructions begun. -/
  steps : Nat := 0
  deriving DecidableEq, Inhabited, Repr

/-- A piece of a run. What it did to the state stays when it fails. -/
abbrev Exec := EStateM RuntimeError MachineState

namespace Exec

/-- Pushes a value, if a slot is free. -/
def push (limit : Nat) (v : Value) : Exec Unit := do
  if (← get).stack.height < limit then modify fun s => { s with stack := s.stack.push v }
  else throw (.stackOverflow limit)

/-- Pops a value, if there is one. -/
def pop : Exec Value := do
  match (← get).stack.top? with
  | some v =>
    modify fun s => { s with stack := s.stack.drop v }
    return v
  | none => throw (.stackUnderflow (← get).place)

/-- Takes an outcome as the value, or fails with it. -/
def ofExcept (outcome : Except RuntimeError Value) : Exec Value :=
  match outcome with
  | .ok v => return v
  | .error e => throw e

/-- Goes on at a place. -/
def goTo (place : Nat) : Exec Unit :=
  modify fun s => { s with place }

/-- Goes on behind an instruction. -/
def goPast (i : Instruction) : Exec Unit :=
  modify fun s => { s with place := s.place + i.length }

/-- The value of a global; one that was never set is `null`. -/
def global (slot : Nat) : Exec Value := do
  return (← get).globals[slot]?.getD Value.null

/-- Globals with one of them set; those before it that were never set become `null`. -/
def extended (globals : Array Value) (slot : Nat) (v : Value) : Array Value :=
  if slot < globals.size then globals.setIfInBounds slot v
  else
    let missing := slot - globals.size
    (globals ++ Array.replicate missing Value.null).push v

/-- Sets a global. -/
def setGlobal (slot : Nat) (v : Value) : Exec Unit :=
  modify fun s => { s with globals := extended s.globals slot v }

/-- Runs an instruction and moves on from it. The right operand is popped before the left. -/
def run (program : Bytecode) (limit : Nat) (i : Instruction) : Exec Unit := do
  match i with
  | .constant index =>
    match program.constants[index.toNat]? with
    | some v => push limit v
    | none => throw (.constantOutOfRange index.toNat program.constants.size)
    goPast i
  | .pop =>
    let _ ← pop
    goPast i
  | .arithmetic op =>
    let right ← pop
    let left ← pop
    push limit (← ofExcept (op.apply left right))
    goPast i
  | .boolean b =>
    push limit (.boolean b)
    goPast i
  | .compare op =>
    let right ← pop
    let left ← pop
    push limit (← ofExcept (op.apply left right))
    goPast i
  | .negate =>
    push limit (← ofExcept (← pop).negate)
    goPast i
  | .not =>
    push limit (← pop).not
    goPast i
  | .jumpUnless target =>
    let condition ← pop
    if condition.isTruthy then goPast i else goTo target.toNat
  | .jump target => goTo target.toNat
  | .null =>
    push limit .null
    goPast i
  | .load slot =>
    push limit (← global slot.toNat)
    goPast i
  | .store slot =>
    setGlobal slot.toNat (← pop)
    goPast i

end Exec

namespace MachineState

/-- Whether the place is behind the code. -/
def atEnd (program : Bytecode) (s : MachineState) : Bool :=
  program.code.size ≤ s.place

/-- Runs the instruction at the present place. Behind the code there is none to run. -/
def step (program : Bytecode) (limit : Nat) : Exec Unit := do
  let place := (← get).place
  modify fun s => { s with steps := s.steps + 1 }
  match fetch? program.code place with
  | none => return
  | some (.undefined byte) => throw (.unknownOpcode byte.toNat place)
  | some (.truncated op) => throw (.truncatedInstruction op.name place)
  | some (.instruction i) => Exec.run program limit i

/-- Runs at most `budget` instructions. There is no outcome if the run was not over by then. -/
def runFor (program : Bytecode) (limit : Nat) :
    Nat → MachineState → Option (Except RuntimeError Unit) × MachineState
  | 0, s => if s.atEnd program then (some (.ok ()), s) else (none, s)
  | budget + 1, s =>
    if s.atEnd program then (some (.ok ()), s)
    else
      match step program limit s with
      | .ok _ s => runFor program limit budget s
      | .error e s => (some (.error e), s)

/-- The state in which a run begins: an empty stack over the slots of the last run. -/
def begin (s : MachineState) : MachineState :=
  { stack := s.stack.clear, globals := s.globals }

end MachineState

/-- A **machine** over a bytecode. -/
structure Machine where
  program : Bytecode
  config : Config := {}
  state : MachineState := {}
  deriving Inhabited

/-- A **run**: the height that the stack check found, how the run ended, and the machine then. -/
structure Run where
  height? : Option Nat
  outcome : Except RuntimeError Unit
  machine : Machine

namespace Machine

/-- A fresh machine that starts with the given globals. -/
def load (program : Bytecode) (config : Config) (globals : Array Value) : Machine :=
  { program, config, state := { globals } }

/-- The budget of a run without a step limit. -/
def freeBudget (m : Machine) : Nat :=
  0x4000000000000000 + m.program.code.size

/-- The number of instructions that a run may begin. -/
def budget (m : Machine) : Nat :=
  m.config.maxSteps.getD m.freeBudget

/-- Checks the code and runs it. -/
def run (m : Machine) : Run :=
  match finalHeight m.program.code with
  | .error e => ⟨none, .error (.stackCheck e), m⟩
  | .ok height =>
    let budget := m.budget
    let ⟨program, config, state⟩ := m
    match state.begin.runFor program config.stackSize budget with
    | (some outcome, state) => ⟨some height, outcome, ⟨program, config, state⟩⟩
    | (none, state) => ⟨some height, .error (.stepLimitExceeded budget), ⟨program, config, state⟩⟩

/-- The value on top of the stack. -/
def top? (m : Machine) : Option Value := m.state.stack.top?

/-- The value in the slot just above the top, which the last discarded value is left in. -/
def lastPopped (m : Machine) : Value := m.state.stack.justAbove

/-- The values of the globals. -/
def globals (m : Machine) : Array Value := m.state.globals

end Machine

end StackScript
