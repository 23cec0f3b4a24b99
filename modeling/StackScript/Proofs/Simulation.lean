import StackScript.Proofs.LinearHeight
import StackScript.Proofs.Runs
import StackScript.Proofs.StructuredRun

/-!
# The Machine Runs Structured Code

A fragment that is laid out inside a code is run by the machine as `Fragment.exec` says, jumps
and all: from the offset of the fragment the machine comes to the offset behind it, with the
memory that the fragment leaves, or to the error the fragment fails with. It takes no more steps
than the fragment has bytes, because all jumps go forward, so that no sufficient budget cuts it
off.

## Main definitions

* `CarriesOut`: the machine does to its memory what a computation does, and comes to a place.
* `Bytecode.IsCodeOf`: a bytecode is the code of a balanced fragment.

## Main results

* `CarriesOut.choice`: a choice comes to its join by either branch.
* `Fragment.Balanced.carriesOut`: **simulation** of a fragment by the machine, at any offset.
* `Machine.run_of_isCodeOf`: a whole run is that of the fragment, unless a step limit cuts it off.
-/

namespace StackScript

open Fragment (jumpSize alternativeAt joinAt)

variable {program : Bytecode} {limit : Nat}

/-! ### Places -/

/-- Instructions **stand** at an offset of a code. -/
def Bytecode.StandsAt (program : Bytecode) (o : Nat) (is : List Instruction) : Prop :=
  ∃ before behind, program.code = codeOf (before ++ is ++ behind) ∧ codeSize before = o

namespace Bytecode.StandsAt

variable {o : Nat} {is js : List Instruction} {i : Instruction}

/-- Of instructions that stand somewhere, the first ones stand there. -/
theorem left (h : program.StandsAt o (is ++ js)) : program.StandsAt o is := by
  obtain ⟨before, behind, code, place⟩ := h
  exact ⟨before, js ++ behind, by simpa only [List.append_assoc] using code, place⟩

/-- The others stand where the first ones end. -/
theorem right (h : program.StandsAt o (is ++ js)) : program.StandsAt (o + codeSize is) js := by
  obtain ⟨before, behind, code, place⟩ := h
  exact ⟨before ++ is, behind, by simpa only [List.append_assoc] using code,
    by rw [codeSize_append, place]⟩

/-- All but the first one stand behind it. -/
theorem tail (h : program.StandsAt o (i :: is)) : program.StandsAt (o + i.length) is := by
  have behind : program.StandsAt (o + codeSize [i]) is := right h
  rwa [codeSize_cons, codeSize_nil, Nat.add_zero] at behind

/-- The first one is found there. -/
theorem fetch (h : program.StandsAt o (i :: is)) :
    fetch? program.code o = some (.instruction i) := by
  obtain ⟨before, behind, code, rfl⟩ := h
  rw [code, List.append_assoc, List.cons_append, fetch?_codeOf]

/-- Where a choice stands: the jump to its alternative, the consequence, the jump to the join, the
alternative, and what follows. -/
theorem choice {c a rest : Fragment}
    (h : program.StandsAt o ((Fragment.choice c a rest).layout o)) :
    fetch? program.code o =
        some (.instruction (.jumpUnless (UInt16.ofNat (alternativeAt o c)))) ∧
      program.StandsAt (o + jumpSize) (c.layout (o + jumpSize)) ∧
      fetch? program.code (o + jumpSize + c.size) =
        some (.instruction (.jump (UInt16.ofNat (joinAt o c a)))) ∧
      program.StandsAt (alternativeAt o c) (a.layout (alternativeAt o c)) ∧
      program.StandsAt (joinAt o c a) (rest.layout (joinAt o c a)) := by
  have atJump := h.tail.right
  rw [Fragment.codeSize_layout] at atJump
  have atRest := atJump.tail.right
  rw [Fragment.codeSize_layout] at atRest
  exact ⟨h.fetch, h.tail.left, atJump.fetch, atJump.tail.left, atRest⟩

end Bytecode.StandsAt

/-! ### Runs -/

namespace MachineState

/-- A run that was over within a budget is the same within every larger one. -/
theorem runFor_mono {budget : Nat} {s t : MachineState} {outcome : Except RuntimeError Unit}
    (h : runFor program limit budget s = (some outcome, t)) (more : Nat) :
    runFor program limit (budget + more) s = (some outcome, t) := by
  obtain ⟨n, enough, stops⟩ := runFor_eq_some_iff.mp h
  exact stops.runFor_eq (Nat.le_add_right_of_le enough)

/-- The machine runs the instruction that stands at its place. -/
theorem runFor_of_fetch {s : MachineState} {i : Instruction}
    (h : fetch? program.code s.place = some (.instruction i)) (budget : Nat) :
    runFor program limit (1 + budget) s =
      match Exec.run program limit i { s with steps := s.steps + 1 } with
      | .ok _ t => runFor program limit budget t
      | .error e t => (some (.error e), t) := by
  rw [Nat.add_comm, runFor, atEnd_of_fetch h, step_of_fetch h]
  rfl

end MachineState

/-! ### Carrying out a computation -/

/-- The machine **carries out** a computation on its memory: within a number of steps it comes to
a place with the memory that the computation left, or fails as the computation did. -/
def CarriesOut (program : Bytecode) (limit : Nat) (s : MachineState) (steps place : Nat) :
    EStateM.Result RuntimeError Memory Unit → Prop
  | .ok _ m => ∃ n ≤ steps, ∀ budget, s.runFor program limit (n + budget) =
      { s.withMemory m with place, steps := s.steps + n }.runFor program limit budget
  | .error e m => ∃ n ≤ steps, ∃ t : MachineState, t.memory = m ∧
      ∀ budget, s.runFor program limit (n + budget) = (some (.error e), t)

namespace CarriesOut

variable {s : MachineState} {steps steps' place place' : Nat}

/-- What a computation goes on with can be carried out from where it came to. -/
theorem bind {x y : EStateM RuntimeError Memory Unit} {m : Memory}
    (first : CarriesOut program limit s steps place (x m))
    (next : ∀ m', x m = .ok () m' → ∀ t : MachineState, t.place = place → t.memory = m' →
      CarriesOut program limit t steps' place' (y m')) :
    CarriesOut program limit s (steps + steps') place' ((do x; y) m) := by
  rw [bind_run]
  cases hx : x m with
  | error e m' =>
      rw [hx] at first
      obtain ⟨n, hn, t, ht, run⟩ := first
      exact ⟨n, by omega, t, ht, run⟩
  | ok _ m' =>
      rw [hx] at first
      obtain ⟨n, hn, run⟩ := first
      have second := next m' hx { s.withMemory m' with place, steps := s.steps + n } rfl rfl
      dsimp only
      cases hy : y m' with
      | error e m'' =>
          rw [hy] at second
          obtain ⟨k, hk, t, ht, run'⟩ := second
          refine ⟨n + k, by omega, t, ht, fun budget => ?_⟩
          rw [Nat.add_assoc, run, run']
      | ok _ m'' =>
          rw [hy] at second
          obtain ⟨k, hk, run'⟩ := second
          refine ⟨n + k, by omega, fun budget => ?_⟩
          rw [Nat.add_assoc, run, run', Nat.add_assoc]
          rfl

/-- A step that comes to a place may stand before a computation. -/
theorem after {r : EStateM.Result RuntimeError Memory Unit} {m : Memory}
    (first : CarriesOut program limit s steps place (.ok () m))
    (next : ∀ t : MachineState, t.place = place → t.memory = m →
      CarriesOut program limit t steps' place' r) :
    CarriesOut program limit s (steps + steps') place' r :=
  bind (x := fun _ => .ok () m) (y := fun _ => r) (m := m) first fun m' same t there memory => by
    cases same
    exact next t there memory

/-- What is carried out within a number of steps is so within a greater one. -/
theorem mono {r : EStateM.Result RuntimeError Memory Unit} (le : steps ≤ steps')
    (h : CarriesOut program limit s steps place r) :
    CarriesOut program limit s steps' place r := by
  cases r with
  | ok _ m =>
      obtain ⟨n, hn, run⟩ := h
      exact ⟨n, Nat.le_trans hn le, run⟩
  | error e m =>
      obtain ⟨n, hn, run⟩ := h
      exact ⟨n, Nat.le_trans hn le, run⟩

/-- A straight instruction that stands at the present place is carried out in one step. -/
theorem act {i : Instruction} (straight : i.Straight program.constants.size) (limit : Nat)
    (pops : i.effect.pops ≤ s.memory.height)
    (fetched : fetch? program.code s.place = some (.instruction i)) :
    CarriesOut program limit s 1 (s.place + i.length)
      (i.act program.constants limit s.memory) := by
  obtain ⟨d, deed⟩ := straight.exists_deed s.globals
  have run := Exec.run_eq_perform limit (s := { s with steps := s.steps + 1 })
    deed pops
  have memory : MachineState.memory { s with steps := s.steps + 1 } = s.memory := rfl
  rw [memory] at run
  have act : i.act program.constants limit s.memory = d.perform limit s.memory := by
    rw [Instruction.act, show s.memory.globals = s.globals from rfl, deed]
  rw [act]
  cases performed : d.perform limit s.memory with
  | ok _ m =>
      refine ⟨1, Nat.le_refl 1, fun budget => ?_⟩
      rw [MachineState.runFor_of_fetch fetched, run, performed]
      rfl
  | error e m =>
      refine ⟨1, Nat.le_refl 1, MachineState.withMemory { s with steps := s.steps + 1 } m, rfl,
        fun budget => ?_⟩
      rw [MachineState.runFor_of_fetch fetched, run, performed]

/-- A jump that stands at the present place is carried out in one step, and changes nothing. -/
theorem jump (limit : Nat) {target : Nat} (near : target ≤ Assembly.targetLimit)
    (fetched : fetch? program.code s.place =
      some (.instruction (.jump (UInt16.ofNat target)))) :
    CarriesOut program limit s 1 target (.ok () s.memory) := by
  refine ⟨1, Nat.le_refl 1, fun budget => ?_⟩
  rw [MachineState.runFor_of_fetch fetched]
  change MachineState.runFor program limit budget
    { s with place := (UInt16.ofNat target).toNat, steps := s.steps + 1 } = _
  rw [Fragment.toNat_ofNat_target near]
  rfl

/-- A conditional jump that stands at the present place is carried out in one step: it takes the
condition from the stack, and comes to its target if that fails. -/
theorem jumpUnless (limit : Nat) {target : Nat} {v : Value} (near : target ≤ Assembly.targetLimit)
    (top : s.stack.top? = some v)
    (fetched : fetch? program.code s.place =
      some (.instruction (.jumpUnless (UInt16.ofNat target)))) :
    CarriesOut program limit s 1 (bif v.isTruthy then s.place + Fragment.jumpSize else target)
      (.ok () ⟨s.stack.drop v, s.globals⟩) := by
  refine ⟨1, Nat.le_refl 1, fun budget => ?_⟩
  obtain ⟨stack, place, globals, steps⟩ := s
  rw [MachineState.runFor_of_fetch fetched]
  simp only [Exec.run, bind_run, Exec.pop_of_top top]
  cases v.isTruthy with
  | true => rfl
  | false =>
      change MachineState.runFor program limit budget
        ⟨stack.drop v, (UInt16.ofNat target).toNat, globals, steps + 1⟩ = _
      rw [Fragment.toNat_ofNat_target near]
      rfl

/-- **A choice comes to its join.** The condition is taken from the stack, and whichever branch it
asks for is carried out: the consequence jumps over the alternative, and the alternative ends
there. -/
theorem choice {c a rest : Fragment} {v : Value} (limit : Nat)
    (near : joinAt s.place c a ≤ Assembly.targetLimit)
    (code : program.StandsAt s.place ((Fragment.choice c a rest).layout s.place))
    (top : s.stack.top? = some v)
    (hc : ∀ t : MachineState, t.place = s.place + jumpSize →
      t.memory = ⟨s.stack.drop v, s.globals⟩ →
      CarriesOut program limit t c.size (s.place + jumpSize + c.size)
        (c.exec program.constants limit t.memory))
    (ha : ∀ t : MachineState, t.place = alternativeAt s.place c →
      t.memory = ⟨s.stack.drop v, s.globals⟩ →
      CarriesOut program limit t a.size (joinAt s.place c a)
        (a.exec program.constants limit t.memory)) :
    CarriesOut program limit s (1 + (c.size + 1 + a.size)) (joinAt s.place c a)
      ((bif v.isTruthy then c.exec program.constants limit
        else a.exec program.constants limit) ⟨s.stack.drop v, s.globals⟩) := by
  obtain ⟨atEntry, -, atJump, -, -⟩ := code.choice
  have entry := jumpUnless limit (Nat.le_trans (Nat.le_add_right _ a.size) near) top atEntry
  cases truth : v.isTruthy with
  | true =>
      rw [truth] at entry
      refine entry.after fun t there memory => ?_
      have all := (hc t there memory).bind (y := pure ()) fun m' _ u atU memoryU => by
        have := jump (s := u) limit near (atU ▸ atJump)
        rwa [memoryU] at this
      rw [bind_pure_unit, memory] at all
      exact all.mono (by omega)
  | false =>
      rw [truth] at entry
      refine entry.after fun t there memory => ?_
      have all := ha t there memory
      rw [memory] at all
      exact all.mono (by omega)

end CarriesOut

/-! ### Simulation -/

/-- **Simulation.** The machine carries out a balanced fragment wherever it is laid out. -/
theorem Fragment.Balanced.carriesOut {f : Fragment} {h h' o : Nat}
    (balanced : f.Balanced program.constants.size h h') (limit : Nat) (fits : f.Fits o)
    (code : program.StandsAt o (f.layout o)) {s : MachineState} (place : s.place = o)
    (height : s.memory.height = h) :
    CarriesOut program limit s f.size (o + f.size)
      (f.exec program.constants limit s.memory) := by
  induction balanced generalizing o s with
  | done h =>
      refine ⟨0, Nat.le_refl 0, fun budget => ?_⟩
      rw [Nat.zero_add, size, Nat.add_zero, ← place]
      rfl
  | @op i rest h h' straight pops _ ih =>
      subst place
      have step := CarriesOut.act straight limit (height ▸ pops) code.fetch
      have ends := straight.ends_act limit (m := s.memory) (height ▸ pops)
      have all := step.bind (y := rest.exec program.constants limit)
        fun m' acted t there memory => by
          rw [acted, height] at ends
          rw [← memory]
          exact ih fits code.tail there (memory ▸ ends)
      have long := i.one_le_length
      have enough : 1 + rest.size ≤ (Fragment.op i rest).size := by
        rw [size]
        omega
      refine .mono enough ?_
      rwa [size, ← Nat.add_assoc]
  | @choice c a rest h h' hc ha _ ihc iha ih =>
      subst place
      obtain ⟨fitsC, fitsA, near, fitsRest⟩ := fits
      obtain ⟨-, atC, -, atA, atRest⟩ := code.choice
      obtain ⟨v, top⟩ := Stack.exists_top (s := s.stack) (by
        change s.memory.height ≥ 1
        omega)
      have popped : Memory.height ⟨s.stack.drop v, s.globals⟩ = h := by
        have dropped := Stack.height_drop s.stack v
        change s.stack.height = h + 1 at height
        change (s.stack.drop v).height = h
        omega
      have run : (Fragment.choice c a rest).exec program.constants limit s.memory =
          (do bif v.isTruthy then c.exec program.constants limit
                else a.exec program.constants limit
              rest.exec program.constants limit)
            ⟨s.stack.drop v, s.globals⟩ := by
        rw [Fragment.exec, bind_run, Memory.pop_of_top (m := s.memory) top]
        rfl
      rw [run, ← joinAt_add_size]
      have branch := CarriesOut.choice limit near code top
        (fun t there memory => ihc fitsC atC there (memory ▸ popped))
        (fun t there memory => iha fitsA atA there (memory ▸ popped))
      have enough : 1 + (c.size + 1 + a.size) + rest.size ≤ (Fragment.choice c a rest).size := by
        simp only [size, jumpSize]
        omega
      refine .mono enough (branch.bind fun m' ran t there memory => ?_)
      have joined : Ends (fun _ m' => m'.height = h + 1) (fun e _ => e.isOrdinary = true)
          ((bif v.isTruthy then c.exec program.constants limit
            else a.exec program.constants limit) ⟨s.stack.drop v, s.globals⟩) := by
        cases v.isTruthy with
        | true => exact hc.ends_exec limit popped
        | false => exact ha.ends_exec limit popped
      rw [ran] at joined
      rw [← memory]
      exact ih fitsRest atRest there (memory ▸ joined)

/-! ### Whole runs -/

/-- A bytecode is the code of a balanced **fragment** that starts and ends on an empty stack. -/
structure Bytecode.IsCodeOf (b : Bytecode) (f : Fragment) : Prop where
  code : b.code = codeOf (f.layout 0)
  fits : f.Fits 0
  balanced : f.Balanced b.constants.size 0 0

namespace Bytecode.IsCodeOf

variable {b : Bytecode} {f : Fragment}

/-- The code of a fragment has the size of the fragment. -/
theorem size_code (h : b.IsCodeOf f) : b.code.size = f.size := by
  rw [h.code, size_codeOf, Fragment.codeSize_layout]

/-- The layout of the fragment stands at the start of the code. -/
theorem standsAt (h : b.IsCodeOf f) : b.StandsAt 0 (f.layout 0) :=
  ⟨[], [], by rw [h.code, List.nil_append, List.append_nil], rfl⟩

/-- From an empty stack at the start of the code, the run of the fragment is over within as many
steps as the code has bytes. -/
theorem runFor_eq (h : b.IsCodeOf f) (limit : Nat) {s : MachineState} (place : s.place = 0)
    (empty : s.memory.height = 0) :
    ∃ n ≤ b.code.size, ∃ t : MachineState,
      t.memory = stateOf (f.exec b.constants limit s.memory) ∧
      ∀ budget, s.runFor b limit (n + budget) =
        (some (outcomeOf (f.exec b.constants limit s.memory)), t) := by
  have carried := h.balanced.carriesOut limit h.fits h.standsAt place empty
  rw [h.size_code]
  cases result : f.exec b.constants limit s.memory with
  | error e m =>
      rw [result] at carried
      obtain ⟨n, hn, t, memory, run⟩ := carried
      exact ⟨n, hn, t, memory, run⟩
  | ok _ m =>
      rw [result] at carried
      obtain ⟨n, hn, run⟩ := carried
      let t := { s.withMemory m with place := 0 + f.size, steps := s.steps + n }
      have atEnd : t.atEnd b = true := by
        simp [t, MachineState.atEnd, h.size_code]
      refine ⟨n, hn, t, rfl, fun budget => ?_⟩
      rw [run, MachineState.runFor_of_atEnd atEnd]
      rfl

end Bytecode.IsCodeOf

/-- **A whole run** of the code of a fragment ends as the fragment does, and with its memory,
unless a step limit cuts it off. -/
theorem Machine.run_of_isCodeOf {m : Machine} {f : Fragment} (h : m.program.IsCodeOf f) :
    (m.run.outcome = outcomeOf (f.exec m.program.constants m.config.stackSize
        m.state.begin.memory) ∧
      m.run.machine.state.memory = stateOf (f.exec m.program.constants m.config.stackSize
        m.state.begin.memory)) ∨
    ∃ k, m.config.maxSteps = some k ∧ m.run.outcome = .error (.stepLimitExceeded k) := by
  obtain ⟨program, config, state⟩ := m
  obtain ⟨height, checked⟩ := h.balanced.finalHeight_layout
  rw [← h.code] at checked
  obtain ⟨n, short, t, memory, run⟩ :=
    h.runFor_eq config.stackSize (s := state.begin) rfl rfl
  dsimp only at *
  cases cut : state.begin.runFor program config.stackSize (Machine.budget ⟨program, config, state⟩)
    with
  | mk outcome? u =>
      cases outcome? with
      | some outcome =>
          -- a run that is over is the one that a larger budget gives
          have same := MachineState.runFor_mono cut n
          rw [Nat.add_comm, run] at same
          cases same
          refine .inl ⟨?_, ?_⟩
          · simp only [Machine.run, checked, cut]
          · simp only [Machine.run, checked, cut, memory]
      | none =>
          cases steps : config.maxSteps with
          | some k =>
              refine .inr ⟨k, rfl, ?_⟩
              simp only [Machine.run, checked, cut]
              simp only [Machine.budget, steps, Option.getD_some]
          | none =>
              have enough : n ≤ Machine.budget ⟨program, config, state⟩ := by
                simp only [Machine.budget, steps, Option.getD_none, Machine.freeBudget]
                omega
              have ended := run (Machine.budget ⟨program, config, state⟩ - n)
              rw [Nat.add_sub_cancel' enough, cut] at ended
              cases ended

end StackScript
