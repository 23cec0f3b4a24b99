import StackScript.Proofs.Execution
import StackScript.Proofs.Runs

/-!
# What Instructions Are Made Of

An instruction, jumps and failing ones included, is a short sequence of operations: it pushes and
pops, reads and sets globals, and in the end moves to a place or fails. This module writes the
sequence down as data, its routine, so that what is true of every operation is proved of every
step by one induction, and does not have to be proved of every instruction again.

## Main definitions

* `Routine`: a sequence of operations; `Routine.exec` carries it out.
* `Instruction.routine`, `Fetched.routine`, `Bytecode.routineAt`: the routine of an instruction, of
  what was found at a place, and of the place.
* `Routine.Assigns`: the slots that a routine assigns to have a property.
* `Memory.Kept`: what every operation of the machine preserves.
* `Machine.after`: a machine after a number of runs.

## Main results

* `Exec.run_eq_exec`, `MachineState.step_eq_exec`: **steps carry out routines**.
* `Routine.keeps_assigning`: what operations preserve that assign to some slots only, a routine
  with no other slots preserves.
* `MachineState.runFor_keeps`, `Machine.Comes.keeps`, `Machine.after_keeps`: what every operation
  preserves is true of every state that the runs of a machine come to.
-/

namespace StackScript

/-- A **routine**: operations of the machine, one after the other, and a move or a failure in the
end. -/
inductive Routine
  /-- Pushes a value. -/
  | push (v : Value) (next : Routine)
  /-- Pops a value, and goes on with it. -/
  | pop (next : Value → Routine)
  /-- Reads a global, and goes on with its value. -/
  | load (slot : Nat) (next : Value → Routine)
  /-- Sets a global. -/
  | store (slot : Nat) (v : Value) (next : Routine)
  /-- Moves behind an instruction. -/
  | goPast (i : Instruction)
  /-- Moves to a place. -/
  | goTo (place : Nat)
  /-- Fails. -/
  | fail (e : RuntimeError)

namespace Routine

/-- Pushes the result of an operator and moves on, or fails with its error. -/
def settle (i : Instruction) : Except RuntimeError Value → Routine
  | .ok v => push v (goPast i)
  | .error e => fail e

/-- Carries out a routine on the machine. -/
def exec (limit : Nat) : Routine → Exec Unit
  | push v next => do
    Exec.push limit v
    next.exec limit
  | pop next => do
    let v ← Exec.pop
    (next v).exec limit
  | load slot next => do
    let v ← Exec.global slot
    (next v).exec limit
  | store slot v next => do
    Exec.setGlobal slot v
    next.exec limit
  | goPast i => Exec.goPast i
  | goTo place => Exec.goTo place
  | fail e => throw e

end Routine

/-- The routine of an instruction, over the constants of a program. -/
def Instruction.routine (constants : Array Value) (i : Instruction) : Routine :=
  match i with
  | .constant index =>
    match constants[index.toNat]? with
    | some v => .push v (.goPast i)
    | none => .fail (.constantOutOfRange index.toNat constants.size)
  | .pop => .pop fun _ => .goPast i
  | .arithmetic op => .pop fun right => .pop fun left => .settle i (op.apply left right)
  | .boolean b => .push (.boolean b) (.goPast i)
  | .compare op => .pop fun right => .pop fun left => .settle i (op.apply left right)
  | .negate => .pop fun v => .settle i v.negate
  | .not => .pop fun v => .push v.not (.goPast i)
  | .jumpUnless target =>
    .pop fun condition => if condition.isTruthy then .goPast i else .goTo target.toNat
  | .jump target => .goTo target.toNat
  | .null => .push .null (.goPast i)
  | .load slot => .load slot.toNat fun v => .push v (.goPast i)
  | .store slot => .pop fun v => .store slot.toNat v (.goPast i)

/-- The routine of what was found at a place. -/
def Fetched.routine (constants : Array Value) (place : Nat) : Fetched → Routine
  | .undefined byte => .fail (.unknownOpcode byte.toNat place)
  | .truncated op => .fail (.truncatedInstruction op.name place)
  | .instruction i => i.routine constants

/-- The routine of what stands at a place of a program. Behind the code it stays there. -/
def Bytecode.routineAt (program : Bytecode) (place : Nat) : Routine :=
  match fetch? program.code place with
  | none => .goTo place
  | some fetched => fetched.routine program.constants place

/-- The outcome of an operator is pushed before the machine moves on, or ends the run. -/
theorem Routine.exec_settle (limit : Nat) (i : Instruction) (outcome : Except RuntimeError Value) :
    (settle i outcome).exec limit =
      (do Exec.push limit (← Exec.ofExcept outcome); Exec.goPast i : Exec Unit) := by
  cases outcome with
  | ok v => rfl
  | error e => rfl

/-- **An instruction carries out its routine.** -/
theorem Exec.run_eq_exec (program : Bytecode) (limit : Nat) (i : Instruction) :
    Exec.run program limit i = (i.routine program.constants).exec limit := by
  cases i with
  | constant index =>
      simp only [Exec.run, Instruction.routine]
      cases program.constants[index.toNat]? with
      | some v => rfl
      | none => rfl
  | arithmetic op | compare op | negate =>
      simp only [Exec.run, Instruction.routine, Routine.exec, Routine.exec_settle]
  | jumpUnless target =>
      funext s
      simp only [Exec.run, Instruction.routine, Routine.exec, bind_run]
      cases Exec.pop s with
      | error e t => rfl
      | ok condition t =>
          dsimp only
          split
          · rfl
          · rfl
  | _ => rfl

namespace MachineState

variable {program : Bytecode} {limit : Nat} {s t : MachineState} {e : RuntimeError}

/-- **A step carries out the routine of its place**, and is counted. -/
theorem step_eq_exec (program : Bytecode) (limit : Nat) (s : MachineState) :
    step program limit s =
      (program.routineAt s.place).exec limit { s with steps := s.steps + 1 } := by
  simp only [step, bind_run, get_run, modify_run, Bytecode.routineAt]
  cases fetch? program.code s.place with
  | none => rfl
  | some fetched =>
      cases fetched with
      | undefined byte => rfl
      | truncated op => rfl
      | instruction i => exact congrFun (Exec.run_eq_exec program limit i) _

end MachineState

/-! ### Which slots are assigned to -/

section Assigns

variable {S : Nat → Prop}

/-- All slots that a routine **assigns** to have a property, whatever values it comes by. -/
def Routine.Assigns (S : Nat → Prop) : Routine → Prop
  | push _ next => next.Assigns S
  | pop next => ∀ v, (next v).Assigns S
  | load _ next => ∀ v, (next v).Assigns S
  | store slot _ next => S slot ∧ next.Assigns S
  | goPast _ | goTo _ | fail _ => True

/-- A routine assigns to some slots or other. -/
theorem Routine.assigns_any (r : Routine) : r.Assigns fun _ => True := by
  induction r with
  | push v next ih => exact ih
  | pop next ih => exact ih
  | load slot next ih => exact ih
  | store slot v next ih => exact ⟨trivial, ih⟩
  | goPast i | goTo place | fail e => trivial

/-- An operator assigns to no slot. -/
theorem Routine.assigns_settle (i : Instruction) (outcome : Except RuntimeError Value) :
    (settle i outcome).Assigns S := by
  cases outcome with
  | ok v => trivial
  | error e => trivial

/-- An instruction assigns to the slot that is its operand, if to any. -/
theorem Instruction.assigns_routine {i : Instruction} (constants : Array Value)
    (stores : ∀ operand, i = .store operand → S operand.toNat) :
    (i.routine constants).Assigns S := by
  cases i with
  | constant index =>
      rw [routine]
      split
      · trivial
      · trivial
  | arithmetic op | compare op => exact fun _ _ => Routine.assigns_settle _ _
  | negate => exact fun _ => Routine.assigns_settle _ _
  | jumpUnless target =>
      intro condition
      dsimp only
      split
      · trivial
      · trivial
  | store operand => exact fun _ => ⟨stores operand rfl, trivial⟩
  | pop | not | load slot => exact fun _ => trivial
  | boolean b | null | jump target => trivial

end Assigns

/-! ### What operations preserve -/

/-- Every operation of the machine **keeps** a property of memories, and so does a fresh start. -/
structure Memory.Kept (limit : Nat) (P : Memory → Prop) : Prop where
  push : ∀ m v, P m → m.height < limit → P { m with stack := m.stack.push v }
  drop : ∀ m v, P m → m.stack.top? = some v → P { m with stack := m.stack.drop v }
  keep : ∀ m slot v, P m → P { m with globals := Exec.extended m.globals slot v }
  clear : ∀ m, P m → P { m with stack := m.stack.clear }

section Kept

variable {limit : Nat} {P : Memory → Prop} {program : Bytecode} {s : MachineState}

/-- What pushing, popping and assigning to some slots keep, a routine keeps that assigns to no
others, however it ends. -/
theorem Routine.keeps_assigning {S : Nat → Prop}
    (push : ∀ m v, P m → m.height < limit → P { m with stack := m.stack.push v })
    (drop : ∀ m v, P m → m.stack.top? = some v → P { m with stack := m.stack.drop v })
    (keep : ∀ m slot v, S slot → P m → P { m with globals := Exec.extended m.globals slot v })
    (r : Routine) (assigns : r.Assigns S) (holds : P s.memory) :
    Ends (fun _ t => P t.memory) (fun _ t => P t.memory) (r.exec limit s) := by
  induction r generalizing s with
  | push v next ih =>
      obtain ⟨stack, place, globals, steps⟩ := s
      rw [exec, bind_run]
      by_cases room : stack.height < limit
      · rw [Exec.push_of_lt room]
        exact ih assigns (push _ v holds room)
      · rw [Exec.push_of_not_lt room]
        exact holds
  | pop next ih =>
      obtain ⟨stack, place, globals, steps⟩ := s
      rw [exec, bind_run]
      by_cases empty : stack.height = 0
      · rw [Exec.pop_of_empty empty]
        exact holds
      · obtain ⟨v, top⟩ := Stack.exists_top (s := stack) (by omega)
        rw [Exec.pop_of_top top]
        exact ih v (assigns v) (drop _ v holds top)
  | load slot next ih => exact ih _ (assigns _) holds
  | store slot v next ih => exact ih assigns.2 (keep _ slot v assigns.1 holds)
  | goPast i => exact holds
  | goTo place => exact holds
  | fail e => exact holds

/-- What the operations keep, a routine keeps, however it ends. -/
theorem Routine.keeps (kept : Memory.Kept limit P) (r : Routine) (holds : P s.memory) :
    Ends (fun _ t => P t.memory) (fun _ t => P t.memory) (r.exec limit s) :=
  r.keeps_assigning kept.push kept.drop (fun m slot v _ => kept.keep m slot v) r.assigns_any holds

/-- What assignments to some slots keep true of the globals, a routine does that assigns to no
others. -/
theorem Routine.keeps_globals {S : Nat → Prop} {Q : Array Value → Prop}
    (keep : ∀ globals slot v, S slot → Q globals → Q (Exec.extended globals slot v))
    (r : Routine) (assigns : r.Assigns S) (holds : Q s.globals) :
    Ends (fun _ t => Q t.globals) (fun _ t => Q t.globals) (r.exec limit s) :=
  r.keeps_assigning (P := fun m => Q m.globals) (fun _ _ holds _ => holds)
    (fun _ _ holds _ => holds) (fun m => keep m.globals) assigns holds

namespace MachineState

/-- **A step keeps what every operation keeps**, whether it succeeds or fails. -/
theorem step_keeps (kept : Memory.Kept limit P) (holds : P s.memory) :
    Ends (fun _ t => P t.memory) (fun _ t => P t.memory) (step program limit s) := by
  rw [step_eq_exec]
  exact Routine.keeps kept _ holds

/-- What the operations keep is true wherever a run is cut off, and where it stops. -/
theorem runFor_keeps (kept : Memory.Kept limit P) (n : Nat) (holds : P s.memory) :
    P (runFor program limit n s).2.memory := by
  induction n generalizing s with
  | zero =>
      rw [runFor]
      split
      · exact holds
      · exact holds
  | succ n ih =>
      rw [runFor]
      split
      · exact holds
      · have stepped := @step_keeps limit P program s kept holds
        cases ran : step program limit s with
        | ok _ t =>
            rw [ran] at stepped
            exact ih stepped
        | error e t =>
            rw [ran] at stepped
            exact stepped

end MachineState

end Kept

/-! ### One run after another -/

namespace Machine

/-- The machine **after** a number of runs, however each of them ended. -/
def after (m : Machine) : Nat → Machine
  | 0 => m
  | k + 1 => (m.after k).run.machine

/-- What a run does once the stack check has accepted the code. -/
theorem run_of_runFor {m : Machine} {height : Nat} {outcome? : Option (Except RuntimeError Unit)}
    {t : MachineState} (accepted : finalHeight m.program.code = .ok height)
    (ran : m.state.begin.runFor m.program m.config.stackSize m.budget = (outcome?, t)) :
    m.run.outcome = outcome?.getD (.error (.stepLimitExceeded m.budget)) ∧
      m.run.machine = { m with state := t } := by
  obtain ⟨program, config, state⟩ := m
  dsimp only at accepted ran
  simp only [run, accepted, ran]
  cases outcome? with
  | none => exact ⟨rfl, rfl⟩
  | some outcome => exact ⟨rfl, rfl⟩

/-- What a run does if the stack check refuses the code: nothing. -/
theorem run_of_refused {m : Machine} {e : StackCheckError}
    (refused : finalHeight m.program.code = .error e) :
    m.run.outcome = .error (.stackCheck e) ∧ m.run.machine = m := by
  simp only [run, refused, and_self]

/-- A run changes the state of a machine, and nothing else. -/
theorem run_machine (m : Machine) : m.run.machine = { m with state := m.run.machine.state } := by
  cases checked : finalHeight m.program.code with
  | error e => rw [(run_of_refused checked).2]
  | ok height => rw [(run_of_runFor checked rfl).2]

/-- Runs change nothing of a machine but its state. -/
theorem after_eq (m : Machine) (k : Nat) : m.after k = { m with state := (m.after k).state } := by
  induction k with
  | zero => rfl
  | succ k ih =>
      rw [after, run_machine, ih]

/-- What the operations keep is true of every state that a run comes to. -/
theorem Comes.keeps {m : Machine} {P : Memory → Prop} {n : Nat} {t : MachineState}
    (comes : m.Comes n t) (kept : Memory.Kept m.config.stackSize P) (holds : P m.state.memory) :
    P t.memory :=
  MachineState.Comes.invariant comes (P := fun s => P s.memory)
    (fun s t holds goes => by
      have kept := @MachineState.step_keeps _ P m.program s kept holds
      rwa [goes.2] at kept)
    (kept.clear _ holds)

/-- What the operations keep is true after a run. -/
theorem run_keeps {m : Machine} {P : Memory → Prop} (kept : Memory.Kept m.config.stackSize P)
    (holds : P m.state.memory) : P m.run.machine.state.memory := by
  cases checked : finalHeight m.program.code with
  | error e =>
      rw [(run_of_refused checked).2]
      exact holds
  | ok height =>
      rw [(run_of_runFor checked rfl).2]
      exact MachineState.runFor_keeps kept _ (kept.clear _ holds)

/-- What the operations keep is true after any number of runs. -/
theorem after_keeps {m : Machine} {P : Memory → Prop} (kept : Memory.Kept m.config.stackSize P)
    (holds : P m.state.memory) (k : Nat) : P (m.after k).state.memory := by
  induction k with
  | zero => exact holds
  | succ k ih =>
      refine run_keeps ?_ ih
      rw [after_eq]
      exact kept

end Machine

end StackScript
