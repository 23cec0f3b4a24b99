import StackScript.Machine
import StackScript.Proofs.Computations
import StackScript.Proofs.Fragment

/-!
# What Instructions Do

An instruction that is no jump takes values from the stack, and leaves a value there or in a
global. This module says so once, in `Deed`, and everything known about the machine's
instructions is derived from that.

## Main definitions

* `Memory`: the part of a machine's state that instructions act on, its stack and its globals.
* `Deed`, `Deed.perform`, `Instruction.deed?`: **what an instruction does**.

## Main results

* `Exec.run_eq_perform`: the machine runs an instruction by performing its deed and moving on.
* `Deed.ends`: a deed changes the height as its instruction's effect says, or fails with an
  ordinary error.
* `Deed.parallel`: what was left behind above the top of the stack makes no difference to it.
-/

namespace StackScript

/-! ### Memories and deeds -/

/-- The part of a machine's state that instructions act on. -/
structure Memory where
  stack : Stack := {}
  globals : Array Value := #[]

/-- The memory of a state of the machine. -/
def MachineState.memory (s : MachineState) : Memory := ⟨s.stack, s.globals⟩

/-- The state of the machine with another memory. -/
def MachineState.withMemory (s : MachineState) (m : Memory) : MachineState :=
  { s with stack := m.stack, globals := m.globals }

namespace Memory

/-- The number of values on the stack. -/
def height (m : Memory) : Nat := m.stack.height

/-- Pushes a value, if a slot is free. -/
def push (limit : Nat) (v : Value) : EStateM RuntimeError Memory Unit := fun m =>
  if m.height < limit then .ok () { m with stack := m.stack.push v }
  else .error (.stackOverflow limit) m

/-- Pops a value, if there is one. -/
def pop : EStateM RuntimeError Memory Value := fun m =>
  match m.stack.top? with
  | some v => .ok v { m with stack := m.stack.drop v }
  | none => .error (.stackUnderflow 0) m

/-- Sets a global. -/
def keep (slot : Nat) (v : Value) : EStateM RuntimeError Memory Unit := fun m =>
  .ok () { m with globals := Exec.extended m.globals slot v }

/-- Pushes the result of an operator, or fails with its error. -/
def settle (limit : Nat) : Except RuntimeError Value → EStateM RuntimeError Memory Unit
  | .ok v => push limit v
  | .error e => throw e

end Memory

/-- A **deed**: what an instruction that is no jump does to the memory. -/
inductive Deed
  /-- Pushes a value. -/
  | push (v : Value)
  /-- Pops a value and forgets it. -/
  | discard
  /-- Pops a value into a global. -/
  | keep (slot : Nat)
  /-- Replaces a value by a result. -/
  | unary (f : Value → Except RuntimeError Value)
  /-- Replaces two values, the right one on top, by a result. -/
  | binary (f : Value → Value → Except RuntimeError Value)

/-- Performs a deed on a memory whose stack has this many slots. -/
def Deed.perform (limit : Nat) : Deed → EStateM RuntimeError Memory Unit
  | push v => Memory.push limit v
  | discard => do
    let _ ← Memory.pop
  | keep slot => do
    let v ← Memory.pop
    Memory.keep slot v
  | unary f => do
    let v ← Memory.pop
    Memory.settle limit (f v)
  | binary f => do
    let right ← Memory.pop
    let left ← Memory.pop
    Memory.settle limit (f left right)

/-- The deed of an instruction, over the constants of a program and given globals. Jumps have
none, and neither does a constant that does not exist. -/
def Instruction.deed? (constants globals : Array Value) : Instruction → Option Deed
  | .constant index => constants[index.toNat]?.map .push
  | .pop => some .discard
  | .arithmetic op => some (.binary op.apply)
  | .boolean b => some (.push (.boolean b))
  | .compare op => some (.binary op.apply)
  | .negate => some (.unary Value.negate)
  | .not => some (.unary fun v => .ok v.not)
  | .jumpUnless _ | .jump _ => none
  | .null => some (.push .null)
  | .load slot => some (.push (globals[slot.toNat]?.getD .null))
  | .store slot => some (.keep slot.toNat)

/-- A straight instruction has a deed. -/
theorem Instruction.Straight.exists_deed {constants : Array Value} {i : Instruction}
    (straight : i.Straight constants.size) (globals : Array Value) :
    ∃ d, i.deed? constants globals = some d := by
  cases i with
  | constant index =>
      have known := Array.getElem?_eq_getElem (show index.toNat < constants.size from straight)
      exact ⟨.push constants[index.toNat], by rw [deed?, known]; rfl⟩
  | jumpUnless target | jump target => exact straight.elim
  | _ => exact ⟨_, rfl⟩

/-! ### The machine performs deeds -/

/-- A stack that is not empty has a top. -/
theorem Stack.exists_top {s : Stack} (h : 1 ≤ s.height) : ∃ v, s.top? = some v := by
  cases top : s.top? with
  | none =>
      rw [Stack.top?_eq_none_iff] at top
      omega
  | some v => exact ⟨v, rfl⟩

namespace Exec

variable {stack : Stack} {place steps limit : Nat} {globals : Array Value} {v : Value}

/-- Where a slot is free, a push succeeds. -/
theorem push_of_lt (room : stack.height < limit) :
    push limit v ⟨stack, place, globals, steps⟩ =
      .ok () ⟨stack.push v, place, globals, steps⟩ := by
  change (if stack.height < limit then _ else _ : Exec Unit) _ = _
  rw [if_pos room]
  rfl

/-- Where no slot is free, a push overflows and changes nothing. -/
theorem push_of_not_lt (full : ¬ stack.height < limit) :
    push limit v ⟨stack, place, globals, steps⟩ =
      .error (.stackOverflow limit) ⟨stack, place, globals, steps⟩ := by
  change (if stack.height < limit then _ else _ : Exec Unit) _ = _
  rw [if_neg full]
  rfl

/-- Where there is a top, a pop takes it. -/
theorem pop_of_top (top : stack.top? = some v) :
    pop ⟨stack, place, globals, steps⟩ = .ok v ⟨stack.drop v, place, globals, steps⟩ := by
  change (match stack.top? with | some v => _ | none => _ : Exec Value) _ = _
  rw [top]
  rfl

/-- Nothing is popped from an empty stack. -/
theorem pop_of_empty {s : MachineState} (empty : s.stack.height = 0) :
    pop s = .error (.stackUnderflow s.place) s := by
  have top : s.stack.top? = none := Stack.top?_eq_none_iff.mpr empty
  change (match s.stack.top? with | some v => _ | none => _ : Exec Value) _ = _
  rw [top]
  rfl

/-- To go past an instruction always succeeds. -/
theorem goPast_run (i : Instruction) (s : MachineState) :
    goPast i s = .ok () { s with place := s.place + i.length } := rfl

/-- A global that was never set is `null`. -/
theorem global_run (slot : Nat) (s : MachineState) :
    global slot s = .ok (s.globals[slot]?.getD .null) s := rfl

/-- To set a global always succeeds: there are as many as are asked for. -/
theorem setGlobal_run (slot : Nat) (v : Value) (s : MachineState) :
    setGlobal slot v s = .ok () { s with globals := extended s.globals slot v } := rfl

/-- A value is pushed as `Memory.push` does it. -/
theorem push_value (v : Value) (i : Instruction) :
    (do push limit v; goPast i : Exec Unit) ⟨stack, place, globals, steps⟩ =
      match Memory.push limit v ⟨stack, globals⟩ with
      | .ok _ m => .ok () ⟨m.stack, place + i.length, m.globals, steps⟩
      | .error e m => .error e ⟨m.stack, place, m.globals, steps⟩ := by
  by_cases room : stack.height < limit
  · simp only [bind_run, push_of_lt room, goPast_run, Memory.push, Memory.height, room, if_true]
  · simp only [bind_run, push_of_not_lt room, Memory.push, Memory.height, room, if_false]

/-- The result of an operator is pushed as `Memory.settle` does it. -/
theorem push_outcome (outcome : Except RuntimeError Value) (i : Instruction) :
    (do push limit (← ofExcept outcome); goPast i : Exec Unit)
        ⟨stack, place, globals, steps⟩ =
      match Memory.settle limit outcome ⟨stack, globals⟩ with
      | .ok _ m => .ok () ⟨m.stack, place + i.length, m.globals, steps⟩
      | .error e m => .error e ⟨m.stack, place, m.globals, steps⟩ := by
  cases outcome with
  | error e => rfl
  | ok v => exact push_value v i

end Exec

/-- Where there is a top, a pop takes it from the memory. -/
theorem Memory.pop_of_top {m : Memory} {v : Value} (top : m.stack.top? = some v) :
    Memory.pop m = .ok v { m with stack := m.stack.drop v } := by
  rw [Memory.pop, top]

/-- **The machine performs deeds**: where the stack is high enough, an instruction with a deed
performs it, and moves on if that succeeds. -/
theorem Exec.run_eq_perform {program : Bytecode} (limit : Nat) {i : Instruction} {d : Deed}
    {s : MachineState} (deed : i.deed? program.constants s.globals = some d)
    (pops : i.effect.pops ≤ s.stack.height) :
    Exec.run program limit i s =
      match d.perform limit s.memory with
      | .ok _ m => .ok () { s.withMemory m with place := s.place + i.length }
      | .error e m => .error e (s.withMemory m) := by
  obtain ⟨stack, place, globals, steps⟩ := s
  have twice (h : 2 ≤ stack.height) : ∃ right left, stack.top? = some right ∧
      (stack.drop right).top? = some left := by
    obtain ⟨right, top⟩ := Stack.exists_top (s := stack) (by omega)
    obtain ⟨left, below⟩ := Stack.exists_top (s := stack.drop right)
      (by rw [Stack.height_drop]; omega)
    exact ⟨right, left, top, below⟩
  cases i with
  | constant index =>
      obtain ⟨v, known, rfl⟩ := Option.map_eq_some_iff.mp deed
      simp only [Exec.run, known]
      exact Exec.push_value v (.constant index)
  | boolean b =>
      cases deed
      exact Exec.push_value (.boolean b) (.boolean b)
  | null =>
      cases deed
      exact Exec.push_value .null .null
  | load slot =>
      cases deed
      simp only [Exec.run, bind_run, Exec.global_run]
      exact Exec.push_value (globals[slot.toNat]?.getD .null) (.load slot)
  | pop =>
      cases deed
      obtain ⟨v, top⟩ := Stack.exists_top pops
      simp only [Exec.run, bind_run, Exec.pop_of_top top, Exec.goPast_run, Deed.perform,
        MachineState.memory, Memory.pop_of_top (m := ⟨stack, globals⟩) top, pure_run]
      rfl
  | store slot =>
      cases deed
      obtain ⟨v, top⟩ := Stack.exists_top pops
      simp only [Exec.run, bind_run, Exec.pop_of_top top, Exec.setGlobal_run, Exec.goPast_run,
        Deed.perform, MachineState.memory, Memory.pop_of_top (m := ⟨stack, globals⟩) top]
      rfl
  | negate =>
      cases deed
      obtain ⟨v, top⟩ := Stack.exists_top pops
      simp only [Exec.run, Deed.perform, bind_run, Exec.pop_of_top top, MachineState.memory,
        Memory.pop_of_top (m := ⟨stack, globals⟩) top]
      exact Exec.push_outcome v.negate .negate
  | not =>
      cases deed
      obtain ⟨v, top⟩ := Stack.exists_top pops
      simp only [Exec.run, Deed.perform, bind_run, Exec.pop_of_top top, MachineState.memory,
        Memory.pop_of_top (m := ⟨stack, globals⟩) top]
      exact Exec.push_value v.not .not
  | arithmetic op =>
      cases deed
      obtain ⟨right, left, top, below⟩ := twice pops
      simp only [Exec.run, Deed.perform, bind_run, Exec.pop_of_top top, Exec.pop_of_top below,
        MachineState.memory, Memory.pop_of_top (m := ⟨stack, globals⟩) top,
        Memory.pop_of_top (m := ⟨stack.drop right, globals⟩) below]
      exact Exec.push_outcome (op.apply left right) (.arithmetic op)
  | compare op =>
      cases deed
      obtain ⟨right, left, top, below⟩ := twice pops
      simp only [Exec.run, Deed.perform, bind_run, Exec.pop_of_top top, Exec.pop_of_top below,
        MachineState.memory, Memory.pop_of_top (m := ⟨stack, globals⟩) top,
        Memory.pop_of_top (m := ⟨stack.drop right, globals⟩) below]
      exact Exec.push_outcome (op.apply left right) (.compare op)
  | jumpUnless target | jump target => cases deed

/-! ### Heights and errors -/

/-- The errors that only a malformed code leads to. -/
def RuntimeError.isCodeFault : RuntimeError → Bool
  | stackUnderflow _ | unknownOpcode _ _ | truncatedInstruction _ _ | constantOutOfRange _ _
  | stackCheck _ => true
  | _ => false

/-- The errors that values, or a stack that is full, lead to in any code. -/
def RuntimeError.isOrdinary : RuntimeError → Bool
  | typeMismatch _ _ _ | unknownOperator _ _ | divisionByZero | integerOverflow _ | nonFinite _
  | stackOverflow _ => true
  | _ => false

/-- No error is both ordinary and a fault of the code. -/
theorem RuntimeError.isCodeFault_of_isOrdinary {e : RuntimeError} (h : e.isOrdinary = true) :
    e.isCodeFault = false := by
  cases e <;> first | rfl | cases h

/-- Arithmetic on floats fails only for reasons of its own. -/
theorem Arithmetic.onFloats_blameless {op : Arithmetic} {x y : Binary64} {e : RuntimeError}
    (h : op.onFloats x y = .error e) : e.isOrdinary = true := by
  rw [onFloats.eq_def] at h
  cases op <;> simp only at h <;> (repeat' split at h) <;> cases h <;> rfl

/-- So does arithmetic on integers. -/
theorem Arithmetic.onIntegers_blameless {op : Arithmetic} {a b : Int64} {e : RuntimeError}
    (h : op.onIntegers a b = .error e) : e.isOrdinary = true := by
  rw [onIntegers.eq_def] at h
  cases op with
  | pow =>
      simp only at h
      split at h
      · exact onFloats_blameless h
      · split at h <;> cases h
        rfl
  | _ => simp only at h; (repeat' split at h) <;> cases h <;> rfl

/-- Arithmetic fails for reasons of its own. -/
theorem Arithmetic.apply_blameless {op : Arithmetic} {left right : Value} {e : RuntimeError}
    (h : op.apply left right = .error e) : e.isOrdinary = true := by
  rw [apply.eq_def] at h
  split at h
  · exact onIntegers_blameless h
  · cases h
  · split at h
    · exact onFloats_blameless h
    · cases h
      rfl

/-- Comparisons fail for reasons of their own. -/
theorem Comparison.apply_blameless {op : Comparison} {left right : Value} {e : RuntimeError}
    (h : op.apply left right = .error e) : e.isOrdinary = true := by
  rw [apply.eq_def] at h
  (repeat' split at h) <;> cases h
  rfl

/-- Negation fails for a reason of its own. -/
theorem Value.negate_blameless {v : Value} {e : RuntimeError} (h : v.negate = .error e) :
    e.isOrdinary = true := by
  rw [negate.eq_def] at h
  (repeat' split at h) <;> cases h <;> rfl

/-- The effect of a deed on the height of the stack. -/
def Deed.effect : Deed → StackEffect
  | push _ => ⟨0, 1⟩
  | discard | keep _ => ⟨1, 0⟩
  | unary _ => ⟨1, 1⟩
  | binary _ => ⟨2, 1⟩

/-- The operator of a deed fails only for reasons of its own. -/
def Deed.Blameless : Deed → Prop
  | unary f => ∀ v e, f v = .error e → e.isOrdinary = true
  | binary f => ∀ left right e, f left right = .error e → e.isOrdinary = true
  | _ => True

section Instructions

variable {constants globals : Array Value} {i : Instruction} {d : Deed}

/-- An instruction changes the height of the stack as its deed does. -/
theorem Instruction.effect_deed (deed : i.deed? constants globals = some d) :
    i.effect = d.effect := by
  cases i with
  | constant index =>
      obtain ⟨v, -, rfl⟩ := Option.map_eq_some_iff.mp deed
      rfl
  | jumpUnless target | jump target => cases deed
  | _ => cases deed; rfl

/-- The operators of instructions fail only for reasons of their own. -/
theorem Instruction.blameless_deed (deed : i.deed? constants globals = some d) :
    d.Blameless := by
  cases i with
  | constant index =>
      obtain ⟨v, -, rfl⟩ := Option.map_eq_some_iff.mp deed
      trivial
  | arithmetic op => cases deed; exact fun _ _ _ => Arithmetic.apply_blameless
  | compare op => cases deed; exact fun _ _ _ => Comparison.apply_blameless
  | negate => cases deed; exact fun _ _ => Value.negate_blameless
  | not => cases deed; exact fun _ _ h => nomatch h
  | jumpUnless target | jump target => cases deed
  | _ => cases deed; trivial

end Instructions

namespace Memory

/-- A push ends one higher, or the stack is full. -/
theorem ends_push (limit : Nat) (v : Value) (m : Memory) :
    Ends (fun _ m' => m'.height = m.height + 1) (fun e _ => e.isOrdinary = true)
      (push limit v m) := by
  rw [push]
  split
  · exact Stack.height_push m.stack v
  · rfl

/-- On a stack that is not empty a pop ends one lower. -/
theorem ends_pop {m : Memory} (h : 1 ≤ m.height) :
    Ends (fun _ m' => m'.height = m.height - 1) (fun e _ => e.isOrdinary = true)
      (pop m) := by
  obtain ⟨v, top⟩ := Stack.exists_top h
  rw [pop_of_top top]
  exact Stack.height_drop m.stack v

/-- The outcome of an operator ends one higher, if the operator fails only for reasons of its own.
-/
theorem ends_settle (limit : Nat) {outcome : Except RuntimeError Value} (m : Memory)
    (blameless : ∀ e, outcome = .error e → e.isOrdinary = true) :
    Ends (fun _ m' => m'.height = m.height + 1) (fun e _ => e.isOrdinary = true)
      (settle limit outcome m) := by
  cases outcome with
  | ok v => exact ends_push limit v m
  | error e => exact blameless e rfl

end Memory

/-- A deed changes the height of the stack as its effect says, or fails with an ordinary error. -/
theorem Deed.ends {d : Deed} (blameless : d.Blameless) (limit : Nat) {m : Memory}
    (pops : d.effect.pops ≤ m.height) :
    Ends (fun _ m' => m'.height = m.height - d.effect.pops + d.effect.pushes)
      (fun e _ => e.isOrdinary = true) (d.perform limit m) := by
  cases d with
  | push v => exact Memory.ends_push limit v m
  | discard =>
      refine (Memory.ends_pop pops).bind fun _ m' h => ?_
      exact h
  | keep slot =>
      refine (Memory.ends_pop pops).bind fun _ m' h => ?_
      exact h
  | unary f =>
      refine (Memory.ends_pop pops).bind fun v m' h => ?_
      have := Memory.ends_settle limit m' (blameless v)
      rwa [h] at this
  | binary f =>
      have two : 2 ≤ m.height := pops
      refine (Memory.ends_pop (Nat.le_of_succ_le two)).bind fun right m' h => ?_
      refine (Memory.ends_pop (by omega)).bind fun left m'' h' => ?_
      have := Memory.ends_settle limit m'' (blameless left right)
      rwa [h', h] at this

/-! ### What does not matter -/

/-- Two memories **agree** if they hold the same values on the stack and the same globals,
whatever was left behind above the top. -/
structure Memory.Agrees (m n : Memory) : Prop where
  live : m.stack.live = n.stack.live
  globals : m.globals = n.globals

namespace Memory

variable {m n : Memory}

/-- Memories that agree have stacks of one height. -/
theorem Agrees.height (h : m.Agrees n) : m.height = n.height :=
  congrArg Array.size h.live

/-- A push keeps memories in agreement. -/
theorem parallel_push (limit : Nat) (v : Value) (h : m.Agrees n) :
    Parallel (fun _ m' _ n' => m'.Agrees n') Agrees (push limit v m) (push limit v n) := by
  rw [push, push, h.height]
  split
  · exact ⟨by simp only [Stack.push, h.live], h.globals⟩
  · exact ⟨rfl, h⟩

/-- A pop keeps memories in agreement, and leaves the same value behind above the top. -/
theorem parallel_pop (h : m.Agrees n) :
    Parallel (fun v m' w n' => v = w ∧ m'.Agrees n' ∧
      m'.stack.justAbove = n'.stack.justAbove) Agrees (pop m) (pop n) := by
  have same : m.stack.top? = n.stack.top? := by rw [Stack.top?, h.live, Stack.top?]
  rw [pop, pop, same]
  split
  · next v _ => exact ⟨rfl, ⟨by simp only [Stack.drop, h.live], h.globals⟩, rfl⟩
  · exact ⟨rfl, h⟩

/-- The outcome of an operator keeps memories in agreement. -/
theorem parallel_settle (limit : Nat) (outcome : Except RuntimeError Value) (h : m.Agrees n) :
    Parallel (fun _ m' _ n' => m'.Agrees n') Agrees (settle limit outcome m)
      (settle limit outcome n) := by
  cases outcome with
  | ok v => exact parallel_push limit v h
  | error e => exact ⟨rfl, h⟩

end Memory

/-- On memories that agree, a deed ends in parallel, and on memories that agree again. -/
theorem Deed.parallel (d : Deed) (limit : Nat) {m n : Memory} (h : m.Agrees n) :
    Parallel (fun _ m' _ n' => m'.Agrees n') Memory.Agrees (d.perform limit m)
      (d.perform limit n) := by
  cases d with
  | push v => exact Memory.parallel_push limit v h
  | discard => exact (Memory.parallel_pop h).bind fun _ _ _ _ _ _ same => same.2.1
  | keep slot =>
      refine (Memory.parallel_pop h).bind ?_
      rintro v m' _ n' - - ⟨rfl, agrees, -⟩
      exact ⟨agrees.live, by simp only [agrees.globals]⟩
  | unary f =>
      refine (Memory.parallel_pop h).bind ?_
      rintro v m' _ n' - - ⟨rfl, agrees, -⟩
      exact Memory.parallel_settle limit (f v) agrees
  | binary f =>
      refine (Memory.parallel_pop h).bind ?_
      rintro right m' _ n' - - ⟨rfl, agrees, -⟩
      refine (Memory.parallel_pop agrees).bind ?_
      rintro left m'' _ n'' - - ⟨rfl, agrees', -⟩
      exact Memory.parallel_settle limit (f left right) agrees'

end StackScript
