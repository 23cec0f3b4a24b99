import StackScript.Proofs.Routines

/-!
# What Runs Do Not Depend On

Two things make no difference to a run. One is how many slots the stack has, as long as there are
enough: a run that does not overflow does the same on every larger stack, and leaves alone the slots
that the smaller one does not have. The other is what earlier runs of the machine left behind: the
values above the top of the stack are never read by an instruction, so a machine that was used
before runs like a fresh one with the same globals.

## Main definitions

* `Stack.Fits`: a stack, with all that was left behind above it, within a number of slots.
* `MachineState.Alike`: states that differ at most in what was left behind, and in their steps.

## Main results

* `Routine.exec_of_more`, `Routine.parallel_exec`: neither makes a difference to a routine.
* `Memory.kept_fits`: **no slot behind the stack is ever used**.
* `Machine.run_withSlots`: **the number of slots matters only through overflow**.
* `Machine.run_reused`: **a machine can be used again**.
-/

namespace StackScript

/-! ### The number of slots -/

/-- A stack **fits** a number of slots together with what was left behind above its top. -/
def Stack.Fits (limit : Nat) (s : Stack) : Prop :=
  s.height + s.stale.length ≤ limit

namespace Stack.Fits

variable {limit : Nat} {s : Stack} {v : Value}

/-- A push keeps to the slots, if one is free. -/
theorem push (fits : s.Fits limit) (room : s.height < limit) : (s.push v).Fits limit := by
  simp only [Fits, height, Stack.push, Array.size_push, List.length_tail] at *
  omega

/-- A drop keeps to the slots: the value stays where it was. -/
theorem drop (fits : s.Fits limit) (top : s.top? = some v) : (s.drop v).Fits limit := by
  have nonempty : s.height ≠ 0 := fun empty => by
    rw [top?_eq_none_iff.mpr empty] at top
    cases top
  simp only [Fits, height, Stack.drop, Array.size_pop, List.length_cons] at *
  omega

/-- A stack that is cleared keeps to its slots. -/
theorem clear (fits : s.Fits limit) : s.clear.Fits limit := by
  simp only [Fits, height, Stack.clear, List.length_append, Array.length_toList,
    Array.size_empty] at *
  omega

/-- On a full stack nothing was left behind above the top. -/
theorem justAbove_of_full (fits : s.Fits limit) (full : s.height = limit) :
    s.justAbove = .null := by
  have none : s.stale = [] := by
    apply List.eq_nil_of_length_eq_zero
    simp only [Fits] at fits
    omega
  rw [justAbove, none, List.headD_nil]

end Stack.Fits

/-- **No slot behind the stack is ever used.** -/
theorem Memory.kept_fits (limit : Nat) : Memory.Kept limit fun m => m.stack.Fits limit where
  push _ _ fits room := fits.push room
  drop _ _ fits top := fits.drop top
  keep _ _ _ fits := fits
  clear _ fits := fits.clear

section MoreSlots

variable {limit more : Nat} {program : Bytecode} {s : MachineState}

/-- A routine overflows the stack, or it does the same on every larger one. -/
theorem Routine.exec_of_more (le : limit ≤ more) (r : Routine) (s : MachineState) :
    (∃ t, r.exec limit s = .error (.stackOverflow limit) t) ∨ r.exec more s = r.exec limit s := by
  induction r generalizing s with
  | push v next ih =>
      obtain ⟨stack, place, globals, steps⟩ := s
      simp only [exec, bind_run]
      by_cases room : stack.height < limit
      · rw [Exec.push_of_lt room, Exec.push_of_lt (Nat.lt_of_lt_of_le room le)]
        exact ih _
      · rw [Exec.push_of_not_lt room]
        exact .inl ⟨_, rfl⟩
  | pop next ih =>
      simp only [exec, bind_run]
      cases Exec.pop s with
      | ok v t => exact ih v t
      | error e t => exact .inr rfl
  | load slot next ih => exact ih (s.globals[slot]?.getD .null) s
  | store slot v next ih => exact ih _
  | goPast i => exact .inr rfl
  | goTo place => exact .inr rfl
  | fail e => exact .inr rfl

namespace MachineState

/-- A step overflows the stack, or takes place in the same way on every larger one. -/
theorem step_of_more (le : limit ≤ more) (program : Bytecode) (s : MachineState) :
    (∃ t, step program limit s = .error (.stackOverflow limit) t) ∨
      step program more s = step program limit s := by
  rw [step_eq_exec, step_eq_exec]
  exact Routine.exec_of_more le _ _

/-- So does a run, under any budget. -/
theorem runFor_of_more (le : limit ≤ more) (program : Bytecode) (n : Nat) (s : MachineState) :
    (runFor program limit n s).1 = some (.error (.stackOverflow limit)) ∨
      runFor program more n s = runFor program limit n s := by
  induction n generalizing s with
  | zero => exact .inr rfl
  | succ n ih =>
      rw [runFor, runFor]
      split
      · exact .inr rfl
      · rcases step_of_more le program s with ⟨t, full⟩ | same
        · rw [full]
          exact .inl rfl
        · rw [same]
          cases step program limit s with
          | ok _ t => exact ih t
          | error e t => exact .inr rfl

/-- A run that stops without an overflow stops in the same way on every larger stack. -/
theorem Stops.of_more {n : Nat} {outcome : Except RuntimeError Unit} {t : MachineState}
    (le : limit ≤ more) (stops : s.Stops program limit n outcome t)
    (calm : outcome ≠ .error (.stackOverflow limit)) : s.Stops program more n outcome t := by
  induction stops with
  | behind there => exact .behind there
  | @failed s t e fails =>
      rcases step_of_more le program s with ⟨u, full⟩ | same
      · rw [fails.2] at full
        cases full
        exact absurd rfl calm
      · exact .failed ⟨fails.1, same.trans fails.2⟩
  | @next s t u n outcome goes _ ih =>
      rcases step_of_more le program s with ⟨u, full⟩ | same
      · rw [goes.2] at full
        cases full
      · exact .next ⟨goes.1, same.trans goes.2⟩ (ih calm)

end MachineState

end MoreSlots

/-! ### What was left behind -/

/-- Two states are **alike** if they stand at the same place and hold the same values on the stack
and the same globals, whatever was left behind above the top and however many steps were taken. -/
structure MachineState.Alike (s t : MachineState) : Prop where
  live : s.stack.live = t.stack.live
  globals : s.globals = t.globals
  place : s.place = t.place

section LeftBehind

variable {limit : Nat} {program : Bytecode} {s t : MachineState}

/-- States that are alike have stacks of one height. -/
theorem MachineState.Alike.height (h : s.Alike t) : s.stack.height = t.stack.height :=
  congrArg Array.size h.live

/-- States that are alike are both at the end of the code, or neither is. -/
theorem MachineState.Alike.atEnd (h : s.Alike t) : s.atEnd program = t.atEnd program := by
  rw [MachineState.atEnd, MachineState.atEnd, h.place]

namespace Exec

/-- A push keeps states alike. -/
theorem parallel_push (limit : Nat) (v : Value) (h : s.Alike t) :
    Parallel (fun _ s' _ t' => s'.Alike t') MachineState.Alike (push limit v s)
      (push limit v t) := by
  have height := h.height
  obtain ⟨stack, place, globals, steps⟩ := s
  obtain ⟨stack', place', globals', steps'⟩ := t
  dsimp only at height
  by_cases room : stack.height < limit
  · rw [push_of_lt room, push_of_lt (height ▸ room)]
    exact ⟨congrArg (·.push v) h.live, h.globals, h.place⟩
  · rw [push_of_not_lt room, push_of_not_lt (height ▸ room)]
    exact ⟨rfl, h⟩

/-- A pop takes the same value in both states, and keeps them alike. -/
theorem parallel_pop (h : s.Alike t) :
    Parallel (fun v s' w t' => v = w ∧ s'.Alike t') MachineState.Alike (pop s) (pop t) := by
  have height := h.height
  by_cases empty : s.stack.height = 0
  · rw [pop_of_empty empty, pop_of_empty (height ▸ empty), h.place]
    exact ⟨rfl, h⟩
  · have same : s.stack.top? = t.stack.top? := by rw [Stack.top?, h.live, Stack.top?]
    obtain ⟨v, top⟩ := Stack.exists_top (s := s.stack) (by omega)
    obtain ⟨stack, place, globals, steps⟩ := s
    obtain ⟨stack', place', globals', steps'⟩ := t
    rw [pop_of_top top, pop_of_top (same.symm.trans top)]
    exact ⟨rfl, congrArg Array.pop h.live, h.globals, h.place⟩

end Exec

/-- From states that are alike, a routine ends in parallel, and in states that are alike again. -/
theorem Routine.parallel_exec (limit : Nat) (r : Routine) (h : s.Alike t) :
    Parallel (fun _ s' _ t' => s'.Alike t') MachineState.Alike (r.exec limit s)
      (r.exec limit t) := by
  induction r generalizing s t with
  | push v next ih =>
      exact (Exec.parallel_push limit v h).bind fun _ _ _ _ _ _ alike => ih alike
  | pop next ih =>
      refine (Exec.parallel_pop h).bind ?_
      rintro v s' _ t' - - ⟨rfl, alike⟩
      exact ih v alike
  | load slot next ih =>
      have same : t.globals[slot]?.getD .null = s.globals[slot]?.getD .null := by rw [h.globals]
      simp only [exec, bind_run, Exec.global_run, same]
      exact ih _ h
  | store slot v next ih =>
      exact ih ⟨h.live, congrArg (Exec.extended · slot v) h.globals, h.place⟩
  | goPast i => exact ⟨h.live, h.globals, congrArg (· + i.length) h.place⟩
  | goTo place => exact ⟨h.live, h.globals, rfl⟩
  | fail e => exact ⟨rfl, h⟩

namespace MachineState

/-- **A step keeps states alike**, and fails in both or in neither. -/
theorem parallel_step (program : Bytecode) (limit : Nat) (h : s.Alike t) :
    Parallel (fun _ s' _ t' => s'.Alike t') Alike (step program limit s)
      (step program limit t) := by
  rw [step_eq_exec, step_eq_exec, h.place]
  exact Routine.parallel_exec limit _ ⟨h.live, h.globals, rfl⟩

/-- A run that stops is followed by the runs from all states that are alike: they stop after as many
instructions, with the same outcome, and in states that are alike again. -/
theorem Stops.alike {n : Nat} {outcome : Except RuntimeError Unit} {u : MachineState}
    (stops : s.Stops program limit n outcome u) (h : s.Alike t) :
    ∃ v, t.Stops program limit n outcome v ∧ u.Alike v := by
  induction stops generalizing t with
  | behind there => exact ⟨t, .behind (h.atEnd.symm.trans there), h⟩
  | failed fails =>
      have both := parallel_step program limit h
      rw [fails.2] at both
      obtain ⟨v, fails', alike⟩ := both.of_error
      exact ⟨v, .failed ⟨h.atEnd.symm.trans fails.1, fails'⟩, alike⟩
  | next goes _ ih =>
      have both := parallel_step program limit h
      rw [goes.2] at both
      obtain ⟨_, t', goes', alike⟩ := both.of_ok
      obtain ⟨v, rest, alike⟩ := ih alike
      exact ⟨v, .next ⟨h.atEnd.symm.trans goes.1, goes'⟩ rest, alike⟩

/-- From states that are alike, runs under the same budget end with the same outcome. -/
theorem runFor_alike (program : Bytecode) (limit n : Nat) (h : s.Alike t) :
    (runFor program limit n s).1 = (runFor program limit n t).1 ∧
      (runFor program limit n s).2.Alike (runFor program limit n t).2 := by
  induction n generalizing s t with
  | zero =>
      rw [runFor, runFor, h.atEnd]
      split
      · exact ⟨rfl, h⟩
      · exact ⟨rfl, h⟩
  | succ n ih =>
      rw [runFor, runFor, h.atEnd]
      split
      · exact ⟨rfl, h⟩
      · have both := parallel_step program limit h
        cases ran : step program limit s with
        | ok _ s' =>
            rw [ran] at both
            obtain ⟨_, t', ran', alike⟩ := both.of_ok
            rw [ran']
            exact ih alike
        | error e s' =>
            rw [ran] at both
            obtain ⟨t', ran', alike⟩ := both.of_error
            rw [ran']
            exact ⟨rfl, alike⟩

end MachineState

end LeftBehind

/-! ### Whole runs -/

namespace Machine

/-- **The number of slots matters only through overflow.** A fresh machine whose run does not
overflow its stack ends with the same outcome on every larger stack, and shows the same globals, the
same top of the stack and the same value just above it, whatever its step limit is; and a run that
nothing cuts off stops in the same way. If the smaller stack is full in the end, its last slot is
the last one that the run on the larger stack ever used. -/
theorem run_withSlots (program : Bytecode) (maxSteps : Option Nat) (globals : Array Value)
    {slots more : Nat} (le : slots ≤ more) :
    let m := load program ⟨slots, maxSteps⟩ globals
    let larger := load program ⟨more, maxSteps⟩ globals
    (m.run.outcome ≠ .error (.stackOverflow slots) →
      larger.run.outcome = m.run.outcome ∧
      larger.run.machine.globals = m.run.machine.globals ∧
      larger.run.machine.top? = m.run.machine.top? ∧
      larger.run.machine.lastPopped = m.run.machine.lastPopped ∧
      (m.run.machine.state.stack.height = slots → larger.run.machine.lastPopped = .null)) ∧
    ∀ n outcome t, m.Stops n outcome t → outcome ≠ .error (.stackOverflow slots) →
      larger.Stops n outcome t := by
  intro m larger
  constructor
  · intro calm
    have fits : m.run.machine.state.stack.Fits slots :=
      run_keeps (m := m) (Memory.kept_fits slots) (Nat.zero_le slots)
    suffices same : larger.run.outcome = m.run.outcome ∧
        larger.run.machine.state = m.run.machine.state by
      obtain ⟨outcome, state⟩ := same
      rw [Machine.globals, Machine.globals, top?, top?, lastPopped, lastPopped, state]
      exact ⟨outcome, rfl, rfl, rfl, fits.justAbove_of_full⟩
    cases checked : finalHeight program.code with
    | error e =>
        obtain ⟨outcome, machine⟩ := run_of_refused (m := m) checked
        obtain ⟨outcome', machine'⟩ := run_of_refused (m := larger) checked
        rw [outcome, machine, outcome', machine']
        exact ⟨rfl, rfl⟩
    | ok height =>
        rcases MachineState.runFor_of_more le program m.budget m.state.begin with full | same
        · obtain ⟨outcome, -⟩ := run_of_runFor (m := m) checked (Prod.ext full rfl)
          exact absurd outcome calm
        · obtain ⟨outcome, machine⟩ := run_of_runFor (m := m) checked rfl
          obtain ⟨outcome', machine'⟩ := run_of_runFor (m := larger) checked same
          rw [outcome, machine, outcome', machine']
          exact ⟨rfl, rfl⟩
  · intro n outcome t stops calm
    cases stops with
    | refused refusal => exact .refused refusal
    | ran accepted stops => exact .ran accepted (stops.of_more le calm)

/-- A truth value is pushed onto a stack with one slot, which is then full. -/
theorem run_withSlots_full :
    let m := load { code := #[6] } ⟨1, none⟩ #[]
    let larger := load { code := #[6] } ⟨2, none⟩ #[]
    (1 ≤ 2 ∧ m.run.outcome ≠ .error (.stackOverflow 1)) ∧ larger.run.outcome = .ok () ∧
      larger.run.machine.top? = some (.boolean true) ∧ larger.run.machine.lastPopped = .null := by
  intro m larger
  obtain ⟨ok, state⟩ : m.run.outcome = .ok () ∧ m.run.machine.state =
      { stack := ⟨#[.boolean true], []⟩, place := 1, steps := 1 } :=
    (Stops.ran (show finalHeight m.program.code = .ok 1 from rfl)
      (.next ⟨rfl, rfl⟩ (.behind rfl))).run_eq (by decide)
  have calm : m.run.outcome ≠ .error (.stackOverflow 1) := by
    rw [ok]
    nofun
  obtain ⟨outcome, -, top, -, last⟩ :=
    (run_withSlots { code := #[6] } none #[] (by decide : 1 ≤ 2)).1 calm
  refine ⟨⟨by decide, calm⟩, outcome.trans ok, top.trans ?_, last ?_⟩
  · exact congrArg (fun s : MachineState => s.stack.top?) state
  · exact congrArg (fun s : MachineState => s.stack.height) state

/-- A run does not depend on the stack that the machine was left with. -/
theorem run_of_globals {program : Bytecode} (config : Config) {s t : MachineState} {height : Nat}
    (accepted : finalHeight program.code = .ok height) (same : s.globals = t.globals) :
    (mk program config s).run.outcome = (mk program config t).run.outcome ∧
      (mk program config s).run.machine.state.Alike (mk program config t).run.machine.state := by
  obtain ⟨outcome, machine⟩ := run_of_runFor (m := ⟨program, config, s⟩) accepted rfl
  obtain ⟨outcome', machine'⟩ := run_of_runFor (m := ⟨program, config, t⟩) accepted rfl
  have start : s.begin.Alike t.begin := ⟨rfl, same, rfl⟩
  obtain ⟨ended, alike⟩ := MachineState.runFor_alike program config.stackSize
    (budget ⟨program, config, s⟩) start
  rw [outcome, machine, outcome', machine']
  dsimp only
  rw [ended]
  exact ⟨rfl, alike⟩

/-- **A machine can be used again.** After any number of runs, however each of them ended, the next
run ends with the same outcome as that of a fresh machine that starts with the globals left by then,
and leaves the same globals and the same top of the stack. If nothing cuts it off, it stops after as
many instructions as that of the fresh machine, in the same way. -/
theorem run_reused (program : Bytecode) (config : Config) (globals : Array Value) (k : Nat) :
    let m := (load program config globals).after k
    let fresh := load program config m.globals
    (m.run.outcome = fresh.run.outcome ∧
      m.run.machine.globals = fresh.run.machine.globals ∧
      m.run.machine.top? = fresh.run.machine.top?) ∧
    ∀ n outcome t, m.Stops n outcome t →
      ∃ t', fresh.Stops n outcome t' ∧ t.globals = t'.globals ∧ t.stack.top? = t'.stack.top? := by
  cases checked : finalHeight program.code with
  | error e =>
      -- a code that is refused is never run, so the machine is still the one that was loaded
      have unused : (load program config globals).after k = load program config globals := by
        induction k with
        | zero => rfl
        | succ k ih =>
            rw [after, ih]
            exact (run_of_refused checked).2
      rw [unused]
      exact ⟨⟨rfl, rfl, rfl⟩, fun n outcome t stops => ⟨t, stops, rfl, rfl⟩⟩
  | ok height =>
      rw [after_eq]
      let left := ((load program config globals).after k).state
      obtain ⟨outcome, alike⟩ := run_of_globals config checked
        (s := left) (t := { globals := left.globals }) rfl
      refine ⟨⟨outcome, alike.globals, congrArg Array.back? alike.live⟩, ?_⟩
      intro n outcome t stops
      cases stops with
      | refused refusal =>
          rw [load, checked] at refusal
          cases refusal
      | ran accepted stops =>
          have start : left.begin.Alike { globals := left.globals } := ⟨rfl, rfl, rfl⟩
          obtain ⟨t', stops', alike⟩ := stops.alike start
          exact ⟨t', .ran accepted stops', alike.globals, congrArg Array.back? alike.live⟩

/-- The second of two truth values finds no slot. The next run begins over the value that is left in
the only one, and overflows the stack like the first. -/
theorem run_reused_overflow :
    let m := (load { code := #[6, 7] } ⟨1, some 9⟩ #[]).after 1
    let fresh := load { code := #[6, 7] } ⟨1, some 9⟩ m.globals
    m.Stops 2 (.error (.stackOverflow 1)) ⟨⟨#[.boolean true], []⟩, 1, #[], 2⟩ ∧
      ∃ t', fresh.Stops 2 (.error (.stackOverflow 1)) t' ∧ #[] = t'.globals ∧
        some (.boolean true) = t'.stack.top? := by
  intro m fresh
  have stops : m.Stops 2 (.error (.stackOverflow 1)) ⟨⟨#[.boolean true], []⟩, 1, #[], 2⟩ :=
    .ran (show finalHeight #[6, 7] = .ok 2 from rfl) (.next ⟨rfl, rfl⟩ (.failed ⟨rfl, rfl⟩))
  exact ⟨stops, (run_reused { code := #[6, 7] } ⟨1, some 9⟩ #[] 1).2 _ _ _ stops⟩

end Machine

end StackScript
