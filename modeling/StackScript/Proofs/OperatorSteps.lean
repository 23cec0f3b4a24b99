import StackScript.Proofs.Independence

/-!
# The Step That Runs an Operator

An operator takes its operands off the stack and puts in their place what it makes of them. Once
the operands are known to be there, the step can neither underflow nor overflow the stack: it comes
to what the operator comes to.

## Main definitions

* `Instruction.outcome?`: what an operator makes of operands.
* `MachineState.Operates`: **a state in which the machine is to run an operator**.
* `MachineState.popped`, `pushed`: the state without the operands, and with a result instead.
* `Instruction.ownProgram`: a program that runs an operator.

## Main results

* `MachineState.Operates.step_eq`: the step that runs an operator.
* `MachineState.Operates.goesTo_iff`, `failsWith_iff`: what becomes of the state.
* `Machine.height_le_of_comes`: a run never has more values on the stack than there are slots.
* `Instruction.exists_operates`: every operator is run somewhere.
-/

namespace StackScript

/-- What an operator makes of operands, the right one last. -/
def Instruction.outcome? : Instruction → List Value → Option (Except RuntimeError Value)
  | .arithmetic op, [left, right] => some (op.apply left right)
  | .compare op, [left, right] => some (op.apply left right)
  | .negate, [v] => some v.negate
  | .not, [v] => some (.ok v.not)
  | _, _ => none

namespace Exec

/-- Popping the value that was pushed last leaves it behind. -/
theorem pop_last (live : Array Value) (v : Value) (stale : List Value) (place : Nat)
    (globals : Array Value) (steps : Nat) :
    Exec.pop ⟨⟨live.push v, stale⟩, place, globals, steps⟩ =
      .ok v ⟨⟨live, v :: stale⟩, place, globals, steps⟩ := by
  have top : Stack.top? ⟨live.push v, stale⟩ = some v := Array.back?_push
  rw [Exec.pop_of_top top, Stack.drop, Array.pop_push]

/-- The machine takes the operands off the stack, and then pushes what the operator makes of
them. -/
theorem run_operator {i : Instruction} {operands : List Value}
    {outcome : Except RuntimeError Value} (known : i.outcome? operands = some outcome)
    (program : Bytecode) (limit : Nat) (below : Array Value) (stale : List Value) (place : Nat)
    (globals : Array Value) (steps : Nat) :
    Exec.run program limit i ⟨⟨below ++ operands.toArray, stale⟩, place, globals, steps⟩ =
      (do Exec.push limit (← Exec.ofExcept outcome); Exec.goPast i : Exec Unit)
        ⟨⟨below, operands ++ stale⟩, place, globals, steps⟩ := by
  have one (v : Value) : below ++ [v].toArray = below.push v := Array.append_singleton
  have two (left right : Value) : below ++ [left, right].toArray =
      (below.push left).push right := by
    rw [← Array.append_singleton, ← Array.append_singleton, Array.append_assoc]
    rfl
  unfold Instruction.outcome? at known
  split at known <;> cases known
  · simp only [two, Exec.run, bind_run, pop_last]
    rfl
  · simp only [two, Exec.run, bind_run, pop_last]
    rfl
  · simp only [one, Exec.run, bind_run, pop_last]
    rfl
  · simp only [one, Exec.run, bind_run, pop_last]
    rfl

end Exec

/-- No operator is without operands. -/
theorem Instruction.operands_ne_nil {i : Instruction} {operands : List Value}
    {outcome : Except RuntimeError Value} (known : i.outcome? operands = some outcome) :
    operands ≠ [] := by
  rintro rfl
  cases i <;> cases known

namespace MachineState

variable {program : Bytecode} {limit : Nat} {s t : MachineState} {i : Instruction}
  {operands : List Value} {below : Array Value} {outcome : Except RuntimeError Value}
  {e : RuntimeError}

/-- The machine **operates** in a state: an instruction comes next, and operands are on top of the
stack, above other values. -/
structure Operates (program : Bytecode) (s : MachineState) (i : Instruction)
    (operands : List Value) (below : Array Value) : Prop where
  next : fetch? program.code s.place = some (.instruction i)
  live : s.stack.live = below ++ operands.toArray

/-- The state with operands off the stack. -/
def popped (s : MachineState) (operands : List Value) (below : Array Value) : MachineState :=
  { s with stack := ⟨below, operands ++ s.stack.stale⟩, steps := s.steps + 1 }

/-- The state with a result in place of operands, behind the instruction. -/
def pushed (s : MachineState) (i : Instruction) (operands : List Value) (below : Array Value)
    (v : Value) : MachineState :=
  { s.popped operands below with
    stack := (s.popped operands below).stack.push v
    place := s.place + i.length }

namespace Operates

/-- The step that runs an operator takes the operands off the stack, and pushes the result, if
there is one. -/
theorem step_eq (operates : Operates program s i operands below)
    (known : i.outcome? operands = some outcome) (within : s.stack.height ≤ limit) :
    s.step program limit =
      match outcome with
      | .ok v => .ok () (s.pushed i operands below v)
      | .error e => .error e (s.popped operands below) := by
  obtain ⟨⟨live, stale⟩, place, globals, steps⟩ := s
  obtain ⟨next, rfl⟩ : _ ∧ live = below ++ operands.toArray := ⟨operates.next, operates.live⟩
  have room : below.size < limit := by
    have some_operand := List.length_pos_iff.mpr (Instruction.operands_ne_nil known)
    have size : operands.toArray.size = operands.length := rfl
    rw [Stack.height, Array.size_append, size] at within
    omega
  rw [step_of_fetch next, Exec.run_operator known, Exec.push_outcome]
  cases outcome with
  | error e => rfl
  | ok v => simp only [Memory.settle, Memory.push, Memory.height, Stack.height, if_true, room,
      pushed, popped]

/-- The machine goes on from an operator just if that has a result. -/
theorem goesTo_iff (operates : Operates program s i operands below)
    (known : i.outcome? operands = some outcome) (within : s.stack.height ≤ limit) :
    s.GoesTo program limit t ↔ ∃ v, outcome = .ok v ∧ t = s.pushed i operands below v := by
  rw [GoesTo, operates.step_eq known within, atEnd_of_fetch operates.next]
  cases outcome with
  | ok v => simp [eq_comm]
  | error e => simp

/-- The machine fails at an operator just if that fails, and with the same error. -/
theorem failsWith_iff (operates : Operates program s i operands below)
    (known : i.outcome? operands = some outcome) (within : s.stack.height ≤ limit) :
    s.FailsWith program limit e t ↔ outcome = .error e ∧ t = s.popped operands below := by
  rw [FailsWith, operates.step_eq known within, atEnd_of_fetch operates.next]
  cases outcome with
  | ok v => simp
  | error e' => simp [eq_comm]

end Operates

end MachineState

/-- A run never has more values on the stack than there are slots. -/
theorem Machine.height_le_of_comes {program : Bytecode} {config : Config} {globals : Array Value}
    {k n : Nat} {s : MachineState}
    (comes : ((Machine.load program config globals).after k).Comes n s) :
    s.stack.height ≤ config.stackSize := by
  have kept := Memory.kept_fits config.stackSize
  have used := Machine.after_keeps (m := .load program config globals) kept (Nat.zero_le _) k
  rw [Machine.after_eq] at comes
  have fits : s.stack.Fits config.stackSize := Machine.Comes.keeps comes kept used
  exact Nat.le_trans (Nat.le_add_right _ _) fits

/-- A program that pushes two operands and runs an operator on them. -/
def Instruction.ownProgram (i : Instruction) (left right : Value) : Bytecode where
  code := #[0, 0, 0, 0, 0, 1, i.opcode.byte]
  constants := #[left, right]

/-- Every operator with two operands is run by some machine, whatever the operands are. -/
theorem Instruction.exists_operates {i : Instruction} {left right : Value}
    {outcome : Except RuntimeError Value} (known : i.outcome? [left, right] = some outcome) :
    ∃ n s, (Machine.load (i.ownProgram left right) {} #[]).Comes n s ∧
      s.Operates (i.ownProgram left right) i [left, right] #[] := by
  have fetched : fetch? #[0, 0, 0, 0, 0, 1, i.opcode.byte] 0 = some (.instruction (.constant 0)) ∧
      fetch? #[0, 0, 0, 0, 0, 1, i.opcode.byte] 3 = some (.instruction (.constant 1)) ∧
      fetch? #[0, 0, 0, 0, 0, 1, i.opcode.byte] 6 = some (.instruction i) := by
    cases i with
    | arithmetic op => cases op <;> decide
    | compare op => cases op <;> decide
    | _ => cases known
  obtain ⟨first, second, last⟩ := fetched
  refine ⟨2, { stack := ⟨#[left, right], []⟩, place := 6, steps := 2 },
    .next (t := { stack := ⟨#[left], []⟩, place := 3, steps := 1 })
      ⟨rfl, ?_⟩ (.next ⟨rfl, ?_⟩ (.start _)), last, rfl⟩
  · exact (MachineState.step_of_fetch first).trans rfl
  · exact (MachineState.step_of_fetch second).trans rfl

end StackScript
