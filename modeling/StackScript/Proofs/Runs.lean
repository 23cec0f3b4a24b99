import StackScript.Machine
import StackScript.Proofs.Computations

/-!
# Runs and Their Limits

What a machine does when nothing cuts it off: it runs one instruction after another until it is
behind the code or an instruction fails, or it goes on for ever. A step limit decides only how much
of this comes to pass. A run that stops within its limit does not notice it; any other is cut off
in the very state that it has come to by then.

## Main definitions

* `MachineState.GoesTo`, `FailsWith`: what becomes of a state in one step.
* `MachineState.Comes`: a state that a run comes to after a number of instructions.
* `MachineState.Stops`: **how a run stops** that no limit cuts off.
* `Machine.Comes`, `Machine.Stops`: the same of a machine, from the stack check on.
* `Machine.within`: a machine with another step limit.

## Main results

* `MachineState.Comes.invariant`: what every step preserves, a run preserves.
* `MachineState.Stops.exists_last`: how a run comes to its last state.
* `MachineState.runFor_eq_some_iff`: a budget is enough for the runs that stop within it.
* `Machine.run_cases`: a machine ends as its run stops, or it is cut off.
* `Machine.run_of_invariant`: what every step preserves is true at the end of a run.
* `Machine.run_within`: **a step limit cuts a run off, and changes nothing else**.
-/

namespace StackScript

namespace MachineState

/-- A state **goes to** another if there is an instruction to run, and it succeeds. -/
def GoesTo (program : Bytecode) (limit : Nat) (s t : MachineState) : Prop :=
  s.atEnd program = false ∧ step program limit s = .ok () t

/-- A state **fails** with an error if there is an instruction to run, and it does so. -/
def FailsWith (program : Bytecode) (limit : Nat) (s : MachineState) (e : RuntimeError)
    (t : MachineState) : Prop :=
  s.atEnd program = false ∧ step program limit s = .error e t

/-- A run **comes to** a state after running a number of instructions. -/
inductive Comes (program : Bytecode) (limit : Nat) :
    MachineState → Nat → MachineState → Prop
  | start (s : MachineState) : Comes program limit s 0 s
  | next {s t u : MachineState} {n : Nat} :
      s.GoesTo program limit t → Comes program limit t n u → Comes program limit s (n + 1) u

/-- A run that nothing cuts off **stops** after beginning a number of instructions, with an outcome
and in a state. The instruction that fails is begun as well. -/
inductive Stops (program : Bytecode) (limit : Nat) :
    MachineState → Nat → Except RuntimeError Unit → MachineState → Prop
  | behind {s : MachineState} : s.atEnd program = true → Stops program limit s 0 (.ok ()) s
  | failed {s t : MachineState} {e : RuntimeError} :
      s.FailsWith program limit e t → Stops program limit s 1 (.error e) t
  | next {s t u : MachineState} {n : Nat} {outcome : Except RuntimeError Unit} :
      s.GoesTo program limit t → Stops program limit t n outcome u →
      Stops program limit s (n + 1) outcome u

variable {program : Bytecode} {limit : Nat} {s t u : MachineState} {n k : Nat}
  {outcome : Except RuntimeError Unit} {e : RuntimeError}

/-- A state is behind the code, goes to another, or fails. -/
theorem step_cases (program : Bytecode) (limit : Nat) (s : MachineState) :
    s.atEnd program = true ∨ (∃ t, s.GoesTo program limit t) ∨
      ∃ e t, s.FailsWith program limit e t := by
  cases there : s.atEnd program with
  | true => exact .inl rfl
  | false =>
      cases stepped : step program limit s with
      | ok _ t => exact .inr (.inl ⟨t, there, stepped⟩)
      | error e t => exact .inr (.inr ⟨e, t, there, stepped⟩)

/-- Where something stands, the code has not ended. -/
theorem atEnd_of_fetch {fetched : Fetched} (h : fetch? program.code s.place = some fetched) :
    s.atEnd program = false := by
  have inside : s.place < program.code.size := by
    refine Nat.lt_of_not_le fun outside => ?_
    simp [fetch?, Array.getElem?_eq_none outside] at h
  simp [atEnd, inside]

/-- A step runs the instruction that stands at the present place. -/
theorem step_of_fetch {i : Instruction}
    (h : fetch? program.code s.place = some (.instruction i)) :
    step program limit s = Exec.run program limit i { s with steps := s.steps + 1 } := by
  simp only [step, bind_run, get_run, modify_run, h]

/-! ### Where a run comes to -/

/-- What every step preserves, a run preserves. -/
theorem Comes.invariant {P : MachineState → Prop} (h : s.Comes program limit n t)
    (keeps : ∀ s t, P s → s.GoesTo program limit t → P t) (holds : P s) : P t := by
  induction h with
  | start s => exact holds
  | next goes _ ih => exact ih (keeps _ _ holds goes)

/-- A run comes to one state after another: what it comes to later, it comes to from there. -/
theorem Comes.later (h : s.Comes program limit n t) (h' : s.Comes program limit (n + k) u) :
    t.Comes program limit k u := by
  induction h with
  | start s => rwa [Nat.zero_add] at h'
  | @next s t v n goes _ ih =>
      rw [Nat.add_right_comm] at h'
      cases h' with
      | @next _ t' _ _ goes' rest =>
          have same := goes.2.symm.trans goes'.2
          cases same
          exact ih rest

/-- Before a run stops, it comes to a last state, which is behind the code or fails. -/
theorem Stops.exists_last (h : s.Stops program limit n outcome t) :
    (s.Comes program limit n t ∧ t.atEnd program = true ∧ outcome = .ok ()) ∨
      ∃ m u e, n = m + 1 ∧ s.Comes program limit m u ∧ u.FailsWith program limit e t ∧
        outcome = .error e := by
  induction h with
  | behind there => exact .inl ⟨.start _, there, rfl⟩
  | failed fails => exact .inr ⟨0, _, _, rfl, .start _, fails, rfl⟩
  | next goes _ ih =>
      rcases ih with ⟨comes, there, ok⟩ | ⟨m, u, e, rfl, comes, fails, error⟩
      · exact .inl ⟨.next goes comes, there, ok⟩
      · exact .inr ⟨m + 1, u, e, rfl, .next goes comes, fails, error⟩

/-- Before a run stops, it comes to a state after every smaller number of instructions. -/
theorem Stops.exists_comes (h : s.Stops program limit n outcome t) (before : k < n) :
    ∃ u, s.Comes program limit k u ∧ u.atEnd program = false := by
  induction h generalizing k with
  | behind there => omega
  | failed fails =>
      obtain rfl : k = 0 := by omega
      exact ⟨_, .start _, fails.1⟩
  | next goes _ ih =>
      cases k with
      | zero => exact ⟨_, .start _, goes.1⟩
      | succ k =>
          obtain ⟨u, comes, inside⟩ := ih (Nat.lt_of_succ_lt_succ before)
          exact ⟨u, .next goes comes, inside⟩

/-- Within any number of instructions a run stops, or else it comes that far. -/
theorem stops_or_comes (program : Bytecode) (limit : Nat) (s : MachineState) (k : Nat) :
    (∃ n ≤ k, ∃ outcome t, s.Stops program limit n outcome t) ∨
      ∃ u, s.Comes program limit k u ∧ u.atEnd program = false := by
  induction k generalizing s with
  | zero =>
      cases there : s.atEnd program with
      | true => exact .inl ⟨0, Nat.le_refl 0, _, s, .behind there⟩
      | false => exact .inr ⟨s, .start s, there⟩
  | succ k ih =>
      rcases step_cases program limit s with there | ⟨t, goes⟩ | ⟨e, t, fails⟩
      · exact .inl ⟨0, Nat.zero_le _, _, s, .behind there⟩
      · rcases ih t with ⟨n, le, outcome, u, stops⟩ | ⟨u, comes, inside⟩
        · exact .inl ⟨n + 1, Nat.succ_le_succ le, outcome, u, .next goes stops⟩
        · exact .inr ⟨u, .next goes comes, inside⟩
      · exact .inl ⟨1, Nat.succ_le_succ (Nat.zero_le k), _, t, .failed fails⟩

/-! ### What a budget lets happen -/

/-- Behind the code a run is over, under any budget. -/
theorem runFor_of_atEnd (h : s.atEnd program = true) (budget : Nat) :
    runFor program limit budget s = (some (.ok ()), s) := by
  cases budget <;> simp only [runFor, h, if_true]

/-- A run goes on from where its first step goes, with one step less. -/
theorem runFor_of_goesTo (h : s.GoesTo program limit t) (budget : Nat) :
    runFor program limit (budget + 1) s = runFor program limit budget t := by
  simp only [runFor, h.1, h.2, Bool.false_eq_true, if_false]

/-- A run ends where its first step fails. -/
theorem runFor_of_failsWith (h : s.FailsWith program limit e t) (budget : Nat) :
    runFor program limit (budget + 1) s = (some (.error e), t) := by
  simp only [runFor, h.1, h.2, Bool.false_eq_true, if_false]

/-- A run that stops within its budget does not notice it. -/
theorem Stops.runFor_eq (h : s.Stops program limit n outcome t) {budget : Nat}
    (enough : n ≤ budget) : runFor program limit budget s = (some outcome, t) := by
  induction h generalizing budget with
  | behind there => exact runFor_of_atEnd there budget
  | failed fails =>
      obtain ⟨budget, rfl⟩ := Nat.exists_eq_add_of_le' enough
      exact runFor_of_failsWith fails budget
  | next goes _ ih =>
      obtain ⟨more, rfl⟩ := Nat.exists_eq_add_of_le' enough
      rw [← Nat.add_assoc, runFor_of_goesTo goes]
      exact ih (by omega)

/-- A run that goes on is cut off in the state it comes to. -/
theorem Comes.runFor_eq (h : s.Comes program limit n t) (inside : t.atEnd program = false) :
    runFor program limit n s = (none, t) := by
  induction h with
  | start s => simp only [runFor, inside, Bool.false_eq_true, if_false]
  | next goes _ ih => rw [runFor_of_goesTo goes, ih inside]

/-- A budget is enough for the runs that stop within it. -/
theorem runFor_eq_some_iff {budget : Nat} :
    runFor program limit budget s = (some outcome, t) ↔
      ∃ n ≤ budget, s.Stops program limit n outcome t := by
  constructor
  · intro ended
    rcases stops_or_comes program limit s budget with
      ⟨n, enough, outcome', t', stops⟩ | ⟨u, comes, inside⟩
    · have same := stops.runFor_eq enough
      rw [ended] at same
      cases same
      exact ⟨n, enough, stops⟩
    · rw [comes.runFor_eq inside] at ended
      cases ended
  · rintro ⟨n, enough, stops⟩
    exact stops.runFor_eq enough

end MachineState

/-! ### Whole runs -/

namespace Machine

/-- The machine with a step limit. -/
def within (m : Machine) (k : Nat) : Machine :=
  { m with config := { m.config with maxSteps := some k } }

/-- The run of a machine **comes to** a state after running a number of instructions. -/
def Comes (m : Machine) (n : Nat) (t : MachineState) : Prop :=
  m.state.begin.Comes m.program m.config.stackSize n t

/-- The run of a machine that nothing cuts off **stops** after beginning a number of instructions:
with none, if the code is refused by the stack check, and otherwise as a run from the start of the
code does. -/
inductive Stops (m : Machine) : Nat → Except RuntimeError Unit → MachineState → Prop
  | refused {e : StackCheckError} :
      finalHeight m.program.code = .error e → Stops m 0 (.error (.stackCheck e)) m.state
  | ran {height n : Nat} {outcome : Except RuntimeError Unit} {t : MachineState} :
      finalHeight m.program.code = .ok height →
      m.state.begin.Stops m.program m.config.stackSize n outcome t → Stops m n outcome t

variable {m : Machine} {n k : Nat} {outcome : Except RuntimeError Unit} {t : MachineState}

/-- How a run stops has nothing to do with limits. -/
theorem stops_within_iff : (m.within k).Stops n outcome t ↔ m.Stops n outcome t := by
  constructor
  · intro h
    cases h with
    | refused refusal => exact .refused refusal
    | ran accepted stops => exact .ran accepted stops
  · intro h
    cases h with
    | refused refusal => exact .refused refusal
    | ran accepted stops => exact .ran accepted stops

/-- A machine whose budget is enough ends as its run stops. -/
theorem Stops.run_eq (h : m.Stops n outcome t) (enough : n ≤ m.budget) :
    m.run.outcome = outcome ∧ m.run.machine.state = t := by
  obtain ⟨program, config, state⟩ := m
  cases h with
  | refused refusal =>
      dsimp only at refusal
      simp only [run, refusal, and_self]
  | ran accepted stops =>
      dsimp only at accepted stops
      simp only [run, accepted, stops.runFor_eq enough, and_self]

/-- A machine whose budget is not enough is cut off in the state that its run comes to by then. -/
theorem Comes.run_eq {height : Nat} (accepted : finalHeight m.program.code = .ok height)
    (h : m.Comes m.budget t) (inside : t.atEnd m.program = false) :
    m.run.outcome = .error (.stepLimitExceeded m.budget) ∧ m.run.machine.state = t := by
  obtain ⟨program, config, state⟩ := m
  have cut := MachineState.Comes.runFor_eq h inside
  dsimp only at accepted cut
  simp only [run, accepted, cut, and_self]

/-- Every machine ends as its run stops, or it is cut off in the state that its run comes to. -/
theorem run_cases (m : Machine) :
    (∃ n ≤ m.budget, m.Stops n m.run.outcome m.run.machine.state) ∨
      (m.run.outcome = .error (.stepLimitExceeded m.budget) ∧
        m.Comes m.budget m.run.machine.state) := by
  cases checked : finalHeight m.program.code with
  | error e =>
      obtain ⟨outcome, state⟩ := (Stops.refused checked).run_eq (Nat.zero_le _)
      rw [outcome, state]
      exact .inl ⟨0, Nat.zero_le _, .refused checked⟩
  | ok height =>
      rcases MachineState.stops_or_comes m.program m.config.stackSize m.state.begin m.budget with
        ⟨n, enough, outcome, t, stops⟩ | ⟨u, comes, inside⟩
      · obtain ⟨same, state⟩ := (Stops.ran checked stops).run_eq enough
        rw [same, state]
        exact .inl ⟨n, enough, .ran checked stops⟩
      · obtain ⟨outcome, state⟩ := Comes.run_eq checked comes inside
        exact .inr ⟨outcome, state ▸ comes⟩

/-- What every step of a machine preserves is true at the end of its run, whether this is behind the
code, where a step fails, or where the run is cut off. -/
theorem run_of_invariant {P : MachineState → Prop} {height : Nat}
    (accepted : finalHeight m.program.code = .ok height) (start : P m.state.begin)
    (keeps : ∀ s t, P s → s.GoesTo m.program m.config.stackSize t → P t) :
    (m.run.outcome = .ok () ∧ P m.run.machine.state ∧
        m.run.machine.state.atEnd m.program = true) ∨
      (∃ e u, m.run.outcome = .error e ∧ P u ∧
        u.FailsWith m.program m.config.stackSize e m.run.machine.state) ∨
      (m.run.outcome = .error (.stepLimitExceeded m.budget) ∧ P m.run.machine.state) := by
  rcases m.run_cases with ⟨n, -, stops⟩ | ⟨cut, comes⟩
  · generalize m.run.outcome = outcome at stops ⊢
    generalize m.run.machine.state = t at stops ⊢
    cases stops with
    | refused refusal =>
        rw [accepted] at refusal
        cases refusal
    | ran _ stops =>
        rcases stops.exists_last with ⟨comes, there, rfl⟩ | ⟨k, u, e, -, comes, fails, rfl⟩
        · exact .inl ⟨rfl, comes.invariant keeps start, there⟩
        · exact .inr (.inl ⟨e, u, rfl, comes.invariant keeps start, fails⟩)
  · exact .inr (.inr ⟨cut, MachineState.Comes.invariant comes keeps start⟩)

/-- **A step limit cuts a run off, and changes nothing else.** If the run of a machine stops after
beginning `n` instructions, it ends with the same outcome and in the same state under every limit
from `n` on. Under a smaller limit, and under every limit if it never stops, it is cut off in the
very state that it comes to after as many instructions as the limit allows. Code that the stack
check refuses is refused under every limit.

Without a step limit the machine runs as long as its budget for such runs lets it, and ends as the
run stops. -/
theorem run_within (m : Machine) (k : Nat) :
    (∀ n outcome t, m.Stops n outcome t →
      (n ≤ k → (m.within k).run.outcome = outcome ∧ (m.within k).run.machine.state = t) ∧
      (k < n → (m.within k).run.outcome = .error (.stepLimitExceeded k) ∧
        m.Comes k (m.within k).run.machine.state) ∧
      (m.config.maxSteps = none → n ≤ m.freeBudget →
        m.run.outcome = outcome ∧ m.run.machine.state = t)) ∧
    ((∀ n outcome t, ¬ m.Stops n outcome t) →
      (m.within k).run.outcome = .error (.stepLimitExceeded k) ∧
        m.Comes k (m.within k).run.machine.state) ∧
    (∀ e, finalHeight m.program.code = .error e →
      (m.within k).run.outcome = .error (.stackCheck e)) := by
  refine ⟨fun n outcome t stops => ⟨fun enough => ?_, fun short => ?_, fun free enough => ?_⟩,
    fun never => ?_, fun e refusal => ?_⟩
  · exact (stops_within_iff.mpr stops).run_eq enough
  · cases stops with
    | refused refusal => exact absurd short (Nat.not_lt_zero k)
    | ran accepted stops =>
        obtain ⟨u, comes, inside⟩ := stops.exists_comes short
        obtain ⟨cut, state⟩ := Comes.run_eq (m := m.within k) accepted comes inside
        exact ⟨cut, state ▸ comes⟩
  · refine stops.run_eq ?_
    rwa [budget, free, Option.getD_none]
  · rcases (m.within k).run_cases with ⟨n, -, stops⟩ | ⟨cut, comes⟩
    · exact absurd (stops_within_iff.mp stops) (never n _ _)
    · exact ⟨cut, comes⟩
  · exact ((stops_within_iff (k := k)).mpr (.refused refusal) |>.run_eq (Nat.zero_le _)).1

/-- A truth value that is pushed and discarded, under a limit of two instructions and of one; and a
jump to itself, which never stops, under a limit of five. -/
theorem run_within_discard :
    let m := Machine.load { code := #[6, 1] } {} #[]
    let loop := Machine.load { code := #[14, 0, 0] } {} #[]
    (m.within 2).run.outcome = .ok () ∧ (m.within 2).run.machine.lastPopped = .boolean true ∧
      (m.within 1).run.outcome = .error (.stepLimitExceeded 1) ∧
      (loop.within 5).run.outcome = .error (.stepLimitExceeded 5) := by
  intro m loop
  let popped : MachineState := { stack := ⟨#[], [.boolean true]⟩, place := 2, steps := 2 }
  have stops : m.Stops 2 (.ok ()) popped :=
    Stops.ran (show finalHeight m.program.code = .ok 0 from rfl)
      (.next ⟨rfl, rfl⟩ (.next ⟨rfl, rfl⟩ (.behind rfl)))
  have never (n : Nat) (outcome : Except RuntimeError Unit) (t : MachineState) :
      ¬ loop.Stops n outcome t := by
    -- all states that the loop comes to are at its start, where it jumps to itself
    have again (s : MachineState) (there : s.place = 0) :
        s.GoesTo loop.program loop.config.stackSize
          { s with place := 0, steps := s.steps + 1 } := by
      have jump : fetch? loop.program.code s.place = some (.instruction (.jump 0)) := by
        rw [there]
        exact (by decide : fetch? #[14, 0, 0] 0 = some (.instruction (.jump 0)))
      exact ⟨MachineState.atEnd_of_fetch jump, MachineState.step_of_fetch jump⟩
    intro stops
    cases stops with
    | refused refusal => cases refusal
    | ran _ stops =>
        have start {k : Nat} {u : MachineState}
            (comes : loop.state.begin.Comes loop.program loop.config.stackSize k u) :
            u.place = 0 :=
          comes.invariant (P := fun s => s.place = 0) (fun s t there goes => by
            have same := (again s there).2.symm.trans goes.2
            cases same
            rfl) rfl
        rcases stops.exists_last with ⟨comes, behind, -⟩ | ⟨k, u, e, -, comes, fails, -⟩
        · exact absurd behind (by rw [(again t (start comes)).1]; decide)
        · have same := (again u (start comes)).2.symm.trans fails.2
          cases same
  obtain ⟨enough, -, -⟩ := (run_within m 2).1 2 _ _ stops
  obtain ⟨-, short, -⟩ := (run_within m 1).1 2 _ _ stops
  obtain ⟨outcome, state⟩ := enough (by decide)
  exact ⟨outcome, congrArg (fun s : MachineState => s.stack.justAbove) state,
    (short (by decide)).1, ((run_within loop 5).2.1 never).1⟩

end Machine

end StackScript
