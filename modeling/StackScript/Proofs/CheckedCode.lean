import StackScript.Proofs.ControlFlow

/-!
# What the Stack Check Promises

The stack check reads a code in its own way, from start to end, and the machine in another, by
fetching what stands at its place. In a code that the check accepts there is nothing but
instructions, so a machine that comes only to places where these begin never finds anything else.
It comes only to such places if the targets of all jumps are of this kind.

The check follows no jumps, so in general what it counts is no height that a run has. Where there
are no jumps to follow, it is: the machine goes through the code as the check did.

## Main definitions

* `heightBefore`: the height that the check counts before an offset.
* `Fetched.ShownAs`: what is found where the check meets a fault.
* `MachineState.OnTrack`: a state whose place is where an instruction begins, or behind the code.
* `MachineState.AsCounted`: one whose stack has the height that the check counts there.

## Main results

* `Located.heightAfter_cases`: what the check does with one thing.
* `exists_codeOf_of_accepted`: an accepted code is the code of instructions.
* `MachineState.OnTrack.goes`, `MachineState.AsCounted.goes`: what a step preserves.
* `Machine.run_of_accepted`: **what the stack check promises of runs**.
-/

namespace StackScript

/-- The height that the stack check counts **before an offset** of a code. -/
def heightBefore (code : Array UInt8) (o : Nat) : Except StackCheckError Nat :=
  heightAfterAll 0 ((scan code).takeWhile (·.offset < o))

/-- What is found where the stack check meets a **fault**. -/
inductive Fetched.ShownAs : Fetched → StackFault → Prop
  | undefined (byte : UInt8) : ShownAs (.undefined byte) (.undefined byte)
  | truncated (op : Opcode) : ShownAs (.truncated op) (.truncated op)
  | underflow (i : Instruction) (had : Nat) :
      ShownAs (.instruction i) (.underflow i.opcode i.effect.pops had)

/-- The check refuses a thing for what it is, at its offset, or the thing is an instruction. -/
theorem Located.heightAfter_cases (l : Located) (height : Nat) :
    (∃ fault, l.heightAfter height = .error ⟨fault, l.offset⟩ ∧ l.fetched.ShownAs fault) ∨
      ∃ i height', l.fetched = .instruction i ∧ l.heightAfter height = .ok height' := by
  obtain ⟨o, fetched⟩ := l
  cases fetched with
  | undefined byte => exact .inl ⟨_, rfl, .undefined byte⟩
  | truncated op => exact .inl ⟨_, rfl, .truncated op⟩
  | instruction i =>
      by_cases low : height < i.effect.pops
      · exact .inl ⟨_, if_pos low, .underflow i height⟩
      · exact .inr ⟨i, _, rfl, if_neg low⟩

/-- The check refuses what is no instruction. -/
theorem whole_of_heightAfterAll {ls : List Located} {h h' : Nat}
    (counted : heightAfterAll h ls = .ok h') : ∀ l ∈ ls, ∃ i, l.fetched = .instruction i := by
  induction ls generalizing h with
  | nil => nofun
  | cons l ls ih =>
      rw [heightAfterAll] at counted
      rcases l.heightAfter_cases h with ⟨fault, refused, -⟩ | ⟨i, m, fetched, passed⟩
      · rw [refused] at counted
        cases counted
      · rw [passed] at counted
        intro l' mem
        rcases List.mem_cons.mp mem with rfl | mem
        · exact ⟨i, fetched⟩
        · exact ih counted l' mem

/-- **An accepted code is the code of instructions.** -/
theorem exists_codeOf_of_accepted {code : Array UInt8} {height : Nat}
    (accepted : finalHeight code = .ok height) : ∃ is, code = codeOf is :=
  exists_codeOf (whole_of_heightAfterAll accepted)

/-- The check refuses an instruction that takes more values than there are. -/
theorem pops_le_of_heightAfterAll {o h h' : Nat} {i : Instruction} {ls : List Located}
    (counted : heightAfterAll h (⟨o, .instruction i⟩ :: ls) = .ok h') : i.effect.pops ≤ h := by
  refine Nat.le_of_not_lt fun low => ?_
  simp only [heightAfterAll, Located.heightAfter, if_pos low] at counted
  cases counted

/-- What a scan finds before the end of some instructions are these instructions. -/
theorem heightBefore_codeOf (before behind : List Instruction) :
    heightBefore (codeOf (before ++ behind)) (codeSize before) =
      heightAfterAll 0 (located 0 before) := by
  have inside : ∀ l ∈ located 0 before, decide (l.offset < codeSize before) = true := by
    intro l mem
    obtain ⟨front, i, back, rfl, rfl⟩ := mem_located_iff.mp mem
    have := i.one_le_length
    simp only [codeSize_append, codeSize_cons, decide_eq_true_iff]
    omega
  have outside :
      (located (codeSize before) behind).takeWhile (·.offset < codeSize before) = [] := by
    cases behind with
    | nil => rfl
    | cons i rest => simp [located]
  rw [heightBefore, scan_codeOf, located_append, Nat.zero_add,
    List.takeWhile_append_of_pos inside, outside, List.append_nil]

namespace MachineState

variable {program : Bytecode} {limit height : Nat} {s t : MachineState} {e : RuntimeError}

/-! ### Places -/

/-- A state is **on track** if its place is where an instruction begins, or behind the code. -/
def OnTrack (program : Bytecode) (s : MachineState) : Prop :=
  (∃ before behind, s.Between program before behind) ∨ s.atEnd program = true

/-- A step stays on track, if jumps go to boundaries or behind the code. -/
theorem OnTrack.goes (h : s.OnTrack program)
    (landing : ∀ o target, JumpsTo program.code o target →
      IsBoundary program.code target ∨ program.code.size ≤ target)
    (goes : s.GoesTo program limit t) : t.OnTrack program := by
  rcases h with ⟨before, behind, between⟩ | outside
  · obtain ⟨i, rest, rfl, -, -, past | jumped⟩ := between.goes goes
    · exact .inl ⟨before ++ [i], rest, past⟩
    · have jump : JumpsTo program.code (codeSize before) t.place := by
        rw [between.code]
        exact jumpsTo_codeOf jumped
      rcases landing _ _ jump with boundary | outside
      · rw [between.code] at boundary
        obtain ⟨front, back, same, place⟩ := exists_of_isBoundary boundary
        exact .inl ⟨front, back, by rw [between.code, same], place⟩
      · exact .inr (decide_eq_true outside)
  · rw [goes.1] at outside
    cases outside

/-- On track, a step fails only for what is wrong with an instruction. -/
theorem OnTrack.fails (h : s.OnTrack program) (fails : s.FailsWith program limit e t) :
    ∃ i, Exec.Fault program i { s with steps := s.steps + 1 } e := by
  rcases h with ⟨before, behind, between⟩ | outside
  · obtain ⟨i, rest, -, fault⟩ := between.fails fails
    exact ⟨i, fault⟩
  · rw [fails.1] at outside
    cases outside

/-! ### Heights -/

/-- A state is **as counted** if the stack has the height that the check counts at its place. -/
def AsCounted (program : Bytecode) (s : MachineState) : Prop :=
  ∃ before behind, s.Between program before behind ∧
    heightAfterAll 0 (located 0 before) = .ok s.stack.height

/-- A run begins as counted: at the first byte, on an empty stack. -/
theorem AsCounted.begin {is : List Instruction} (code : program.code = codeOf is)
    (s : MachineState) : s.begin.AsCounted program :=
  ⟨[], is, between_begin code s, rfl⟩

/-- A step goes on as counted, if there are no jumps. -/
theorem AsCounted.goes (h : s.AsCounted program)
    (straight : ∀ o target, ¬ JumpsTo program.code o target)
    (goes : s.GoesTo program limit t) : t.AsCounted program := by
  obtain ⟨before, behind, between, counted⟩ := h
  obtain ⟨i, rest, rfl, pops, height, past | jumped⟩ := between.goes goes
  · refine ⟨before ++ [i], rest, past, ?_⟩
    rw [located_append, heightAfterAll_append counted, located, heightAfterAll_cons pops, height]
    rfl
  · refine absurd ?_ (straight (codeSize before) t.place)
    rw [between.code]
    exact jumpsTo_codeOf jumped

/-- As counted, a step does not find the stack too low. -/
theorem AsCounted.fails (h : s.AsCounted program) (accepted : finalHeight program.code = .ok height)
    (fails : s.FailsWith program limit e t) (place : Nat) : e ≠ .stackUnderflow place := by
  obtain ⟨before, behind, between, counted⟩ := h
  obtain ⟨i, rest, rfl, fault⟩ := between.fails fails
  rw [between.code, finalHeight, scan_codeOf, located_append, heightAfterAll_append counted,
    located] at accepted
  rintro rfl
  cases fault with
  | ordinary ordinary => cases ordinary
  | low low => exact Nat.not_lt_of_le (pops_le_of_heightAfterAll accepted) low

/-- Before an instruction is run, the stack has the height that the check counts there. -/
theorem AsCounted.heightBefore (h : s.AsCounted program) (inside : s.atEnd program = false) :
    IsBoundary program.code s.place ∧
      StackScript.heightBefore program.code s.place = .ok s.stack.height := by
  obtain ⟨before, behind, between, counted⟩ := h
  have nonempty : behind ≠ [] := by
    intro empty
    rw [between.atEnd_iff.mpr empty] at inside
    cases inside
  rw [between.code, between.place]
  exact ⟨isBoundary_codeOf nonempty, (heightBefore_codeOf before behind).trans counted⟩

/-- Behind the code, it has the height that the check counts in the end. -/
theorem AsCounted.finalHeight (h : s.AsCounted program) (there : s.atEnd program = true) :
    StackScript.finalHeight program.code = .ok s.stack.height := by
  obtain ⟨before, behind, between, counted⟩ := h
  obtain rfl := between.atEnd_iff.mp there
  rw [between.code, List.append_nil, StackScript.finalHeight, scan_codeOf, counted]

end MachineState

namespace Machine

/-- **What the stack check promises.** Let a code be accepted, and let a machine run it, whatever
its constants, globals and limits are.

If every jump goes to a boundary or behind the code, the run never finds a byte that is no
instruction, or an instruction that is cut off. If there are no jumps at all, it never finds the
stack too low either: before each instruction, the stack has the height that the check counts there,
and in the end, if the run succeeds, the height that it counts in the end. -/
theorem run_of_accepted (m : Machine) {height : Nat}
    (accepted : finalHeight m.program.code = .ok height) :
    ((∀ o target, JumpsTo m.program.code o target →
        IsBoundary m.program.code target ∨ m.program.code.size ≤ target) →
      (∀ byte place, m.run.outcome ≠ .error (.unknownOpcode byte place)) ∧
      ∀ name place, m.run.outcome ≠ .error (.truncatedInstruction name place)) ∧
    ((∀ o target, ¬ JumpsTo m.program.code o target) →
      (∀ place, m.run.outcome ≠ .error (.stackUnderflow place)) ∧
      (∀ n s, m.Comes n s → s.atEnd m.program = false → IsBoundary m.program.code s.place ∧
        heightBefore m.program.code s.place = .ok s.stack.height) ∧
      (m.run.outcome = .ok () → m.run.machine.state.stack.height = height)) := by
  obtain ⟨is, code⟩ := exists_codeOf_of_accepted accepted
  constructor
  · intro landing
    have start : m.state.begin.OnTrack m.program :=
      .inl ⟨[], is, MachineState.between_begin code m.state⟩
    rcases run_of_invariant accepted start fun _ _ h => h.goes landing with
      ⟨ok, -, -⟩ | ⟨e, u, error, onTrack, fails⟩ | ⟨cut, -⟩
    · rw [ok]
      exact ⟨nofun, nofun⟩
    · obtain ⟨i, fault⟩ := onTrack.fails fails
      rw [error]
      constructor
      · rintro byte place ⟨⟩
        cases fault with
        | ordinary ordinary => cases ordinary
      · rintro name place ⟨⟩
        cases fault with
        | ordinary ordinary => cases ordinary
    · rw [cut]
      exact ⟨nofun, nofun⟩
  · intro straight
    have start := MachineState.AsCounted.begin code m.state
    have keeps (s t : MachineState) (h : s.AsCounted m.program)
        (goes : s.GoesTo m.program m.config.stackSize t) : t.AsCounted m.program :=
      h.goes straight goes
    have before (n : Nat) (s : MachineState) (comes : m.Comes n s)
        (inside : s.atEnd m.program = false) :=
      (MachineState.Comes.invariant comes keeps start).heightBefore inside
    rcases run_of_invariant accepted start keeps with
      ⟨ok, counted, there⟩ | ⟨e, u, error, counted, fails⟩ | ⟨cut, -⟩
    · rw [ok]
      refine ⟨nofun, before, fun _ => ?_⟩
      exact Except.ok.inj ((counted.finalHeight there).symm.trans accepted)
    · rw [error]
      refine ⟨fun place same => ?_, before, nofun⟩
      exact counted.fails accepted fails place (Except.error.inj same)
    · rw [cut]
      exact ⟨nofun, before, nofun⟩

/-- A truth value that is pushed and discarded; and the same behind a jump to where it is discarded,
in a code that the check accepts too. -/
theorem run_of_accepted_discard :
    let m := Machine.load { code := #[6, 1] } {} #[]
    let past := Machine.load { code := #[14, 0, 4, 6, 1] } {} #[]
    (m.run.outcome = .ok () ∧ m.run.machine.state.stack.height = 0) ∧
      past.run.outcome = .error (.stackUnderflow 4) ∧
      ∀ byte place, past.run.outcome ≠ .error (.unknownOpcode byte place) := by
  intro m past
  have found : scan m.program.code =
      [⟨0, .instruction (.boolean true)⟩, ⟨1, .instruction .pop⟩] := rfl
  have foundPast : scan past.program.code =
      [⟨0, .instruction (.jump 4)⟩, ⟨3, .instruction (.boolean true)⟩, ⟨4, .instruction .pop⟩] :=
    rfl
  have straight (o target : Nat) : ¬ JumpsTo m.program.code o target := by
    rintro ⟨i, mem, jump⟩
    rw [found] at mem
    simp only [List.mem_cons, List.not_mem_nil, or_false] at mem
    rcases mem with same | same <;> cases same <;> cases jump
  have landing (o target : Nat) (jumps : JumpsTo past.program.code o target) :
      IsBoundary past.program.code target ∨ past.program.code.size ≤ target := by
    obtain ⟨i, mem, jump⟩ := jumps
    rw [foundPast] at mem
    refine .inl ⟨⟨4, .instruction .pop⟩, by simp [foundPast], ?_⟩
    simp only [List.mem_cons, List.not_mem_nil, or_false] at mem
    rcases mem with same | same | same <;> cases same <;> cases jump
    rfl
  have accepted : finalHeight m.program.code = .ok 0 := rfl
  have acceptedPast : finalHeight past.program.code = .ok 0 := rfl
  obtain ⟨ok, -⟩ := (Stops.ran accepted
    (.next ⟨rfl, rfl⟩ (.next ⟨rfl, rfl⟩ (.behind rfl)))).run_eq (by decide)
  have atJump : fetch? past.program.code 0 = some (.instruction (.jump 4)) := by decide
  have atPop : fetch? past.program.code 4 = some (.instruction .pop) := by decide
  let jumped : MachineState := { place := 4, steps := 1 }
  have goes : past.state.begin.GoesTo past.program past.config.stackSize jumped :=
    ⟨rfl, (MachineState.step_of_fetch atJump).trans rfl⟩
  have fails : jumped.FailsWith past.program past.config.stackSize (.stackUnderflow 4)
      { place := 4, steps := 2 } :=
    ⟨rfl, (MachineState.step_of_fetch atPop).trans rfl⟩
  obtain ⟨low, -⟩ := (Stops.ran acceptedPast (.next goes (.failed fails))).run_eq (by decide)
  exact ⟨⟨ok, ((run_of_accepted m accepted).2 straight).2.2 ok⟩, low,
    ((run_of_accepted past acceptedPast).1 landing).1⟩

end Machine

end StackScript
