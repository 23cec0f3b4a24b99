import StackScript.Proofs.Routines

/-!
# Floats Stay Finite

The machine has no use for infinities and NaNs: an operator fails where the result would be one.
As no other operation makes a float of its own, a program with finite constants on finite globals
has nothing but finite floats to work with, all the way to where it ends or fails.

What an instruction pushes or stores is either one of those values that it took from the memory or
the result of an operator on them. So the argument is not about runs at all: it suffices that every
routine makes finite values from finite ones.

## Main definitions

* `Value.IsFinite`: a value that is no infinity and no NaN.
* `Routine.Makes`: all values that a routine makes from values with a property have it.
* `Memory.Holds`: all values of a memory have a property.
* `Machine.Visits`: the states that a run comes to, and those in which it fails.

## Main results

* `Routine.keeps_values`: a routine keeps a property of the values that it makes.
* `Instruction.makes_finite`: **no instruction makes a float that is not finite**.
* `Machine.visits_run`: a run ends in a state that it visits.
* `Machine.visits_finite`: **no state that a run visits has a float that is not finite**.
-/

namespace StackScript

/-! ### What routines make of values -/

/-- All values that a routine **makes**, on the stack or in globals, have a property, if those have
it that it pops and reads. -/
def Routine.Makes (P : Value → Prop) : Routine → Prop
  | push v next => P v ∧ next.Makes P
  | pop next => ∀ v, P v → (next v).Makes P
  | load _ next => ∀ v, P v → (next v).Makes P
  | store _ v next => P v ∧ next.Makes P
  | goPast _ | goTo _ | fail _ => True

/-- All values of a memory have a property; those that were left behind above the top of the stack
have one that may be weaker. -/
structure Memory.Holds (P Q : Value → Prop) (m : Memory) : Prop where
  live : ∀ v ∈ m.stack.live, P v
  stale : ∀ v ∈ m.stack.stale, Q v
  globals : ∀ v ∈ m.globals, P v

namespace Memory.Holds

variable {P Q : Value → Prop} {m : Memory} {v : Value}

/-- A value with the property may be pushed. It overwrites what was left behind in its slot. -/
theorem push (holds : m.Holds P Q) (made : P v) :
    Holds P Q { m with stack := m.stack.push v } where
  live w mem := by
    rcases Array.mem_push.mp mem with mem | rfl
    · exact holds.live w mem
    · exact made
  stale w mem := holds.stale w (List.mem_of_mem_tail mem)
  globals := holds.globals

/-- The top of the stack has the property. -/
theorem top (holds : m.Holds P Q) (top : m.stack.top? = some v) : P v :=
  holds.live v (Array.mem_of_back? top)

/-- The top may be dropped, and counts as left behind from then on. -/
theorem drop (weaker : ∀ v, P v → Q v) (holds : m.Holds P Q) (top : m.stack.top? = some v) :
    Holds P Q { m with stack := m.stack.drop v } where
  live w mem := by
    obtain ⟨below, live⟩ := Array.back?_eq_some_iff.mp top
    rw [Stack.drop, live, Array.pop_push] at mem
    exact holds.live w (live ▸ Array.mem_push.mpr (.inl mem))
  stale w mem := by
    rcases List.mem_cons.mp mem with rfl | mem
    · exact weaker w (holds.top top)
    · exact holds.stale w mem
  globals := holds.globals

/-- A global that was never set reads as `null`. -/
theorem getD (null : P .null) (holds : m.Holds P Q) (slot : Nat) :
    P (m.globals[slot]?.getD .null) := by
  cases found : m.globals[slot]? with
  | none => exact null
  | some v => exact holds.globals v (Array.mem_of_getElem? found)

/-- A value with the property may be assigned, if the `null` has it that fills the slots below. -/
theorem keep (null : P .null) (holds : m.Holds P Q) (made : P v) (slot : Nat) :
    Holds P Q { m with globals := Exec.extended m.globals slot v } where
  live := holds.live
  stale := holds.stale
  globals w mem := by
    rw [Exec.extended] at mem
    split at mem
    · rcases Array.mem_or_eq_of_mem_setIfInBounds mem with mem | rfl
      · exact holds.globals w mem
      · exact made
    · rcases Array.mem_push.mp mem with mem | rfl
      · rcases Array.mem_append.mp mem with mem | mem
        · exact holds.globals w mem
        · rw [(Array.mem_replicate.mp mem).2]
          exact null
      · exact made

end Memory.Holds

section Routines

variable {P Q : Value → Prop} {limit : Nat} {s : MachineState}

/-- **A routine keeps a property of the values that it makes**, however it ends. -/
theorem Routine.keeps_values (null : P .null) (weaker : ∀ v, P v → Q v) (r : Routine)
    (makes : r.Makes P) (holds : s.memory.Holds P Q) :
    Ends (fun _ t => t.memory.Holds P Q) (fun _ t => t.memory.Holds P Q) (r.exec limit s) := by
  induction r generalizing s with
  | push v next ih =>
      obtain ⟨stack, place, globals, steps⟩ := s
      rw [exec, bind_run]
      by_cases room : stack.height < limit
      · rw [Exec.push_of_lt room]
        exact ih makes.2 (holds.push makes.1)
      · rw [Exec.push_of_not_lt room]
        exact holds
  | pop next ih =>
      obtain ⟨stack, place, globals, steps⟩ := s
      rw [exec, bind_run]
      by_cases empty : stack.height = 0
      · rw [Exec.pop_of_empty empty]
        exact holds
      · obtain ⟨v, top⟩ := Stack.exists_top (s := stack) (by omega)
        rw [Exec.pop_of_top top]
        exact ih v (makes v (holds.top top)) (holds.drop weaker top)
  | load slot next ih => exact ih _ (makes _ (holds.getD null slot)) holds
  | store slot v next ih => exact ih makes.2 (holds.keep null makes.1 slot)
  | goPast i => exact holds
  | goTo place => exact holds
  | fail e => exact holds

/-- An operator makes the value that it comes to. -/
theorem Routine.makes_settle (i : Instruction) {outcome : Except RuntimeError Value}
    (made : ∀ v, outcome = .ok v → P v) : (settle i outcome).Makes P := by
  cases outcome with
  | ok v => exact ⟨made v rfl, trivial⟩
  | error e => trivial

end Routines

/-! ### What operators make of finite floats -/

/-- A value that is no infinity and no NaN. -/
def Value.IsFinite : Value → Prop
  | float x => x.isFinite = true
  | _ => True

/-- An operation on floats gives a finite one, whatever its operands. -/
theorem Arithmetic.isFinite_of_onFloats {op : Arithmetic} {x y : Binary64} {v : Value}
    (h : op.onFloats x y = .ok v) : v.IsFinite := by
  have checked {result : Binary64}
      (h : (if result.isFinite then Except.ok (Value.float result)
        else Except.error (RuntimeError.nonFinite op.symbol)) = .ok v) : v.IsFinite := by
    split at h
    · next finite =>
        cases h
        exact finite
    · cases h
  cases op with
  | add | sub | mul => exact checked h
  | div | pow =>
      simp only [onFloats] at h
      split at h
      · cases h
      · exact checked h

/-- Arithmetic on integers makes no float. -/
theorem Arithmetic.isFinite_of_onIntegers {op : Arithmetic} {a b : Int64} {v : Value}
    (h : op.onIntegers a b = .ok v) : v.IsFinite := by
  cases op with
  | add | sub | mul | div =>
      -- only a number that fits is left
      simp only [onIntegers] at h
      (repeat' split at h) <;> cases h
      trivial
  | pow =>
      simp only [onIntegers] at h
      split at h
      · exact isFinite_of_onFloats h
      · split at h
        · cases h
          trivial
        · cases h

/-- Arithmetic makes no float that is not finite. -/
theorem Arithmetic.isFinite_of_apply {op : Arithmetic} {left right v : Value}
    (h : op.apply left right = .ok v) : v.IsFinite := by
  rw [apply.eq_def] at h
  split at h
  · exact isFinite_of_onIntegers h
  · cases h
    trivial
  · split at h
    · exact isFinite_of_onFloats h
    · cases h

/-- A comparison makes no float. -/
theorem Comparison.isFinite_of_apply {op : Comparison} {left right v : Value}
    (h : op.apply left right = .ok v) : v.IsFinite := by
  rw [apply.eq_def] at h
  (repeat' split at h) <;> cases h <;> trivial

/-- The negative of a finite float is finite. -/
theorem Value.isFinite_of_negate {v w : Value} (finite : v.IsFinite) (h : v.negate = .ok w) :
    w.IsFinite := by
  cases v with
  | integer n =>
      rw [negate] at h
      split at h
      · cases h
        trivial
      · cases h
  | float x =>
      cases h
      exact (Binary64.isFinite_negate x).trans finite
  | boolean b | string s | null => cases h

/-- **No instruction makes a float that is not finite** from constants, globals and operands that
are. -/
theorem Instruction.makes_finite {constants : Array Value} (i : Instruction)
    (finite : ∀ v ∈ constants, v.IsFinite) : (i.routine constants).Makes Value.IsFinite := by
  cases i with
  | constant index =>
      rw [routine]
      split
      · next found => exact ⟨finite _ (Array.mem_of_getElem? found), trivial⟩
      · trivial
  | arithmetic op =>
      exact fun _ _ _ _ => Routine.makes_settle _ fun _ => Arithmetic.isFinite_of_apply
  | compare op =>
      exact fun _ _ _ _ => Routine.makes_settle _ fun _ => Comparison.isFinite_of_apply
  | negate =>
      exact fun _ operand => Routine.makes_settle _ fun _ => Value.isFinite_of_negate operand
  | jumpUnless target =>
      intro condition _
      dsimp only
      split
      · trivial
      · trivial
  | load slot | store slot => exact fun _ operand => ⟨operand, trivial⟩
  | pop => exact fun _ _ => trivial
  | not => exact fun _ _ => ⟨trivial, trivial⟩
  | boolean b | null => exact ⟨trivial, trivial⟩
  | jump target => trivial

/-- Nor does what stands at any place of a program, an instruction or not. -/
theorem Bytecode.makes_finite {program : Bytecode} (finite : ∀ v ∈ program.constants, v.IsFinite)
    (place : Nat) : (program.routineAt place).Makes Value.IsFinite := by
  rw [routineAt]
  cases fetch? program.code place with
  | none => trivial
  | some fetched =>
      cases fetched with
      | undefined byte | truncated op => trivial
      | instruction i => exact i.makes_finite finite

/-! ### Runs -/

/-- One step keeps the floats of a memory finite, whether it succeeds or fails. -/
theorem MachineState.step_finite {Q : Value → Prop} {program : Bytecode} (limit : Nat)
    {s : MachineState} (finite : ∀ v ∈ program.constants, v.IsFinite)
    (weaker : ∀ v, Value.IsFinite v → Q v) (holds : s.memory.Holds Value.IsFinite Q) :
    Ends (fun _ t => t.memory.Holds Value.IsFinite Q) (fun _ t => t.memory.Holds Value.IsFinite Q)
      (step program limit s) := by
  rw [step_eq_exec]
  exact Routine.keeps_values trivial weaker _ (Bytecode.makes_finite finite s.place) holds

namespace Machine

/-- A run **visits** the states that it comes to, and also the one in which an instruction leaves
the machine that fails. -/
inductive Visits (m : Machine) : MachineState → Prop
  | comes {n : Nat} {t : MachineState} : m.Comes n t → Visits m t
  | fails {n : Nat} {s t : MachineState} {e : RuntimeError} :
      m.Comes n s → s.FailsWith m.program m.config.stackSize e t → Visits m t

/-- Once the stack check has accepted the code, the state at the end of a run is among those that it
visits, whether it stopped or was cut off. -/
theorem visits_run {m : Machine} {height : Nat}
    (accepted : finalHeight m.program.code = .ok height) : m.Visits m.run.machine.state := by
  rcases m.run_cases with ⟨n, -, stops⟩ | ⟨-, comes⟩
  · generalize m.run.outcome = outcome, m.run.machine.state = t at stops
    cases stops with
    | refused refusal =>
        rw [accepted] at refusal
        cases refusal
    | ran _ stops =>
        rcases stops.exists_last with ⟨comes, -, -⟩ | ⟨k, u, e, -, comes, fails, -⟩
        · exact .comes comes
        · exact .fails comes fails
  · exact .comes comes

/-- What holds of the memory that a run starts from, holds of all that it visits. -/
theorem Visits.holds {Q : Value → Prop} {m : Machine} {t : MachineState} (visits : m.Visits t)
    (finite : ∀ v ∈ m.program.constants, v.IsFinite) (weaker : ∀ v, Value.IsFinite v → Q v)
    (start : m.state.begin.memory.Holds Value.IsFinite Q) : t.memory.Holds Value.IsFinite Q := by
  have come {n : Nat} {t : MachineState} (comes : m.Comes n t) :
      t.memory.Holds Value.IsFinite Q :=
    MachineState.Comes.invariant comes (P := fun s => s.memory.Holds Value.IsFinite Q)
      (fun s t holds goes => by
        have stepped := s.step_finite m.config.stackSize finite weaker holds
        rwa [goes.2] at stepped)
      start
  cases visits with
  | comes comes => exact come comes
  | fails comes fails =>
      have stepped := MachineState.step_finite m.config.stackSize finite weaker (come comes)
      rwa [fails.2] at stepped

/-- **No state that a run visits has a float that is not finite**, neither on the stack nor in the
globals, if there is none among the constants of the program and in the globals that it starts with.
What earlier runs left behind above the stack may be anything; on a machine that has not run before,
the value just above the top is finite as well. -/
theorem visits_finite (m : Machine) (constants : ∀ v ∈ m.program.constants, v.IsFinite)
    (globals : ∀ v ∈ m.state.globals, v.IsFinite) (t : MachineState) (visits : m.Visits t) :
    (∀ v ∈ t.stack.live, v.IsFinite) ∧ (∀ v ∈ t.globals, v.IsFinite) ∧
      (m.state.stack = {} → t.stack.justAbove.IsFinite) := by
  have start {Q : Value → Prop} (stale : ∀ v ∈ m.state.stack.clear.stale, Q v) :
      m.state.begin.memory.Holds Value.IsFinite Q :=
    { live := fun v mem => absurd mem (Array.not_mem_empty v)
      stale := stale
      globals := globals }
  have holds := visits.holds constants (Q := fun _ => True) (fun _ _ => trivial)
    (start fun _ _ => trivial)
  refine ⟨holds.live, holds.globals, fun fresh => ?_⟩
  have all := visits.holds constants (fun _ finite => finite) (start fun v mem => by
    rw [fresh] at mem
    cases mem)
  rw [Stack.justAbove]
  cases behind : t.stack.stale with
  | nil => trivial
  | cons v rest => exact all.stale v (behind ▸ List.mem_cons_self)

/-- A fresh machine negates a float and discards the result, which its run leaves above the top. -/
theorem visits_finite_negative :
    let m := load
      { code := #[0, 0, 0, 11, 1], constants := #[.float ⟨0x3FF0000000000000⟩] } {} #[]
    let t := m.run.machine.state
    m.Visits t ∧ t.stack.justAbove = .float ⟨0xBFF0000000000000⟩ ∧ t.stack.justAbove.IsFinite := by
  intro m t
  have accepted : finalHeight m.program.code = .ok 0 := rfl
  have visits : m.Visits t := visits_run accepted
  have negated : t.stack.justAbove = .float ⟨0xBFF0000000000000⟩ := by decide
  have constants : ∀ v ∈ m.program.constants, v.IsFinite := by
    intro v mem
    obtain rfl := Array.mem_singleton.mp mem
    exact (by decide : Binary64.isFinite ⟨0x3FF0000000000000⟩ = true)
  have globals : ∀ v ∈ m.state.globals, v.IsFinite :=
    fun v mem => absurd mem (Array.not_mem_empty v)
  have finite := visits_finite m constants globals t visits
  exact ⟨visits, negated, finite.2.2 rfl⟩

end Machine

end StackScript
