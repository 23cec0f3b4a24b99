import StackScript.Proofs.Compiling
import StackScript.Proofs.ControlFlow

/-!
# Compiled Code Only Goes Forward

The jumps of compiled code are those of its conditionals: the one to the alternative, and the one
over it. Both go forward, to where another instruction begins, and since every statement ends in an
instruction of its own, there is always one where they land. So a machine that runs compiled code
comes to ever greater places, and it stops after no more instructions than there are.

## Main definitions

* `JumpsForward`: **instructions whose jumps go forward**.
* `MachineState.Ahead`: a state that stands somewhere in such instructions.

## Main results

* `Fragment.jumpsForward_layout`: the jumps of a fragment go forward.
* `MachineState.Between.goes_forward`: and so does every step.
* `MachineState.Between.exists_stops`: a run stops after no more instructions than there are left.
* `Program.jumps_forward`: **compiled code only goes forward**.
-/

namespace StackScript

/-- Instructions whose jumps go **forward** when the first one stands at `o`: each jump goes to
where one of those behind it begins, or to where they end. -/
def JumpsForward (o : Nat) : List Instruction → Prop
  | [] => True
  | i :: is =>
    (∀ target, i.target? = some target →
      ∃ front back, is = front ++ back ∧ target = o + i.length + codeSize front) ∧
    JumpsForward (o + i.length) is

namespace JumpsForward

variable {o target : Nat} {is js before behind : List Instruction} {i : Instruction}

/-- Codes that jump forward do so in sequence. -/
theorem append (first : JumpsForward o is) (second : JumpsForward (o + codeSize is) js) :
    JumpsForward o (is ++ js) := by
  induction is generalizing o with
  | nil => exact second
  | cons i is ih =>
      obtain ⟨here, later⟩ := first
      refine ⟨fun target jump => ?_, ih later (by rwa [Nat.add_assoc])⟩
      obtain ⟨front, back, rfl, landing⟩ := here target jump
      exact ⟨front, back ++ js, List.append_assoc .., landing⟩

/-- A jump goes to where one of the instructions behind it begins, or to where they end. -/
theorem exists_target (forward : JumpsForward o (before ++ i :: behind))
    (jump : i.target? = some target) :
    ∃ front back, behind = front ++ back ∧ target = o + codeSize (before ++ i :: front) := by
  induction before generalizing o with
  | nil =>
      obtain ⟨front, back, rest, landing⟩ := forward.1 target jump
      exact ⟨front, back, rest, by rw [landing, List.nil_append, codeSize_cons, Nat.add_assoc]⟩
  | cons j before ih =>
      obtain ⟨front, back, rest, landing⟩ := ih forward.2
      exact ⟨front, back, rest, by rw [landing, List.cons_append, codeSize_cons, Nat.add_assoc]⟩

/-- Where one more instruction follows that is no jump, jumps go to where an instruction begins. -/
theorem exists_target_inside {last : Instruction} (forward : JumpsForward o is)
    (straight : last.target? = none) (same : is ++ [last] = before ++ i :: behind)
    (jump : i.target? = some target) :
    ∃ front back, behind = front ++ back ∧ back ≠ [] ∧
      target = o + codeSize (before ++ i :: front) := by
  rcases List.eq_nil_or_concat behind with rfl | ⟨rest, j, rfl⟩
  · obtain ⟨-, alone⟩ := List.append_inj' same rfl
    cases alone
    rw [straight] at jump
    cases jump
  · rw [List.concat_eq_append, ← List.cons_append, ← List.append_assoc] at same
    obtain ⟨rfl, -⟩ := List.append_inj' same rfl
    obtain ⟨front, back, rfl, landing⟩ := forward.exists_target jump
    exact ⟨front, back ++ [j], by simp, by simp, landing⟩

end JumpsForward

/-- The jumps of a fragment go forward, if its choices are all the jumps it has. -/
theorem Fragment.jumpsForward_layout {f : Fragment} {o : Nat}
    (straight : f.Each fun i => i.target? = none) (fits : f.Fits o) :
    JumpsForward o (f.layout o) := by
  induction f generalizing o with
  | done => trivial
  | op i rest ih =>
      obtain ⟨noJump, straight⟩ := straight
      refine ⟨fun target jump => ?_, ih straight fits⟩
      rw [noJump] at jump
      cases jump
  | choice c a rest ihc iha ih =>
      obtain ⟨straightC, straightA, straightRest⟩ := straight
      obtain ⟨fitsC, fitsA, near, fitsRest⟩ := fits
      have nearer : alternativeAt o c ≤ Assembly.targetLimit :=
        Nat.le_trans (Nat.le_add_right _ a.size) near
      have rests : JumpsForward (alternativeAt o c)
          (a.layout (alternativeAt o c) ++ rest.layout (joinAt o c a)) := by
        refine (iha straightA fitsA).append ?_
        rw [codeSize_layout]
        exact ih straightRest fitsRest
      -- behind the consequence stands the jump to the join
      have across : JumpsForward (o + jumpSize + c.size)
          (.jump (UInt16.ofNat (joinAt o c a)) :: (a.layout (alternativeAt o c) ++
            rest.layout (joinAt o c a))) := by
        refine ⟨?_, rests⟩
        rintro _ ⟨⟩
        refine ⟨_, _, rfl, ?_⟩
        rw [toNat_ofNat_target near, codeSize_layout]
        rfl
      -- before it stands the jump to the alternative
      refine ⟨?_, (ihc straightC fitsC).append (by rwa [codeSize_layout])⟩
      rintro _ ⟨⟩
      refine ⟨c.layout (o + jumpSize) ++ [.jump (UInt16.ofNat (joinAt o c a))], _,
        List.append_cons .., ?_⟩
      rw [toNat_ofNat_target nearer, codeSize_append, codeSize_layout]
      rfl

/-- The jumps of compiled code go forward. -/
theorem Program.Compiled.jumpsForward {p : Program} {names : NameTable} {pool : ConstantPool}
    {f : Fragment} {a : Assembly} (h : p.Compiled names pool f a) : JumpsForward 0 (f.layout 0) :=
  f.jumpsForward_layout (h.rules.each.imp fun _ usable => usable.straight) h.fits

namespace MachineState

variable {program : Bytecode} {limit n : Nat} {is before behind : List Instruction}
  {s t : MachineState}

/-- **Every step goes forward**, behind some of the instructions that are left. -/
theorem Between.goes_forward (h : s.Between program before behind)
    (forward : JumpsForward 0 (before ++ behind)) (goes : s.GoesTo program limit t) :
    ∃ i front back, behind = i :: (front ++ back) ∧
      t.Between program (before ++ i :: front) back := by
  obtain ⟨i, rest, rfl, -, -, past | jumped⟩ := h.goes goes
  · exact ⟨i, [], rest, rfl, past⟩
  · obtain ⟨front, back, rfl, landing⟩ := forward.exists_target jumped
    refine ⟨i, front, back, rfl, ⟨?_, ?_⟩⟩
    · rw [h.code, List.append_assoc]
      rfl
    · rw [landing, Nat.zero_add]

/-- A run stops after no more instructions than there are left. -/
theorem Between.exists_stops (h : s.Between program before behind)
    (forward : JumpsForward 0 (before ++ behind)) (limit : Nat) :
    ∃ n ≤ behind.length, ∃ outcome t, s.Stops program limit n outcome t := by
  induction count : behind.length using Nat.strongRecOn generalizing s before behind with
  | ind count' ih =>
    subst count
    rcases step_cases program limit s with there | ⟨t, goes⟩ | ⟨e, t, fails⟩
    · exact ⟨0, Nat.zero_le _, _, s, .behind there⟩
    · obtain ⟨i, front, back, rfl, there⟩ := h.goes_forward forward goes
      have fewer : back.length < (i :: (front ++ back)).length := by
        simp only [List.length_cons, List.length_append]
        omega
      have forward' : JumpsForward 0 ((before ++ i :: front) ++ back) := by
        rw [List.append_assoc]
        exact forward
      obtain ⟨n, le, outcome, u, stops⟩ := ih back.length fewer there forward' rfl
      exact ⟨n + 1, by omega, outcome, u, .next goes stops⟩
    · obtain ⟨i, rest, rfl, -⟩ := h.fails fails
      exact ⟨1, Nat.succ_le_succ (Nat.zero_le _), _, t, .failed fails⟩

/-- A state stands somewhere in instructions, at a place or **ahead** of it. -/
def Ahead (program : Bytecode) (is : List Instruction) (o : Nat) (s : MachineState) : Prop :=
  o ≤ s.place ∧ ∃ before behind, is = before ++ behind ∧ s.Between program before behind

/-- A step comes to a greater place, and stays in the instructions. -/
theorem Ahead.goes {o : Nat} (h : s.Ahead program is o) (forward : JumpsForward 0 is)
    (goes : s.GoesTo program limit t) : s.place < t.place ∧ t.Ahead program is o := by
  obtain ⟨le, before, behind, rfl, between⟩ := h
  obtain ⟨i, front, back, rfl, there⟩ := between.goes_forward forward goes
  have greater : s.place < t.place := by
    have := i.one_le_length
    rw [there.place, between.place, codeSize_append, codeSize_cons]
    omega
  exact ⟨greater, by omega, before ++ i :: front, back, by simp, there⟩

/-- A run comes to ever greater places. -/
theorem Comes.place_lt {o : Nat} (h : s.Comes program limit (n + 1) t)
    (forward : JumpsForward 0 is) (start : s.Ahead program is o) : s.place < t.place := by
  cases h with
  | @next _ u _ _ goes rest =>
      obtain ⟨greater, -, inside⟩ := start.goes forward goes
      have ahead : t.Ahead program is u.place :=
        rest.invariant (fun _ _ h goes => (h.goes forward goes).2) ⟨Nat.le_refl _, inside⟩
      exact Nat.lt_of_lt_of_le greater ahead.1

end MachineState

/-- The jumps of a program go forward, to where an instruction begins. -/
theorem Translation.jumpsTo_layout {names : NameTable} {pool : ConstantPool} {p : Program}
    {f : Fragment} (rules : Translation names pool (.statements p) f) (fits : f.Fits 0)
    {o target : Nat} (jumps : JumpsTo (codeOf (f.layout 0)) o target) :
    IsBoundary (codeOf (f.layout 0)) target ∧ o < target ∧
      target < (codeOf (f.layout 0)).size := by
  obtain ⟨before, i, behind, same, rfl, jump⟩ := exists_of_jumpsTo jumps
  have straight : f.Each fun i => i.target? = none := rules.each.imp fun _ usable => usable.straight
  obtain ⟨front, back, rfl, nonempty, landing⟩ : ∃ front back, behind = front ++ back ∧
      back ≠ [] ∧ target = 0 + codeSize (before ++ i :: front) := by
    rcases rules.ends_in_single rfl with rfl | ⟨g, last, rfl⟩
    · exact absurd same (by simp [Fragment.layout])
    · obtain ⟨straightG, straightLast, -⟩ := (Fragment.each_append _ _).mp straight
      have forward := g.jumpsForward_layout straightG ((Fragment.fits_append _ _ _).mp fits).1
      rw [Fragment.layout_append] at same
      exact forward.exists_target_inside straightLast same jump
  rw [Nat.zero_add] at landing
  have whole : f.layout 0 = (before ++ i :: front) ++ back := by
    rw [same, List.append_assoc]
    rfl
  have long := i.one_le_length
  have more : 1 ≤ codeSize back :=
    Nat.le_trans (List.length_pos_iff.mpr nonempty) (length_le_codeSize back)
  rw [whole, landing]
  refine ⟨isBoundary_codeOf nonempty, ?_, ?_⟩
  · rw [codeSize_append, codeSize_cons]
    omega
  · rw [size_codeOf, codeSize_append _ back]
    omega

namespace Machine

variable {m : Machine} {is : List Instruction} {n n' : Nat} {s s' : MachineState}

/-- The run of a machine over instructions whose jumps go forward comes to ever greater places. -/
theorem Comes.place_lt (first : m.Comes n s) (code : m.program.code = codeOf is)
    (forward : JumpsForward 0 is) (later : m.Comes n' s') (lt : n < n') : s.place < s'.place := by
  obtain ⟨k, rfl⟩ := Nat.exists_eq_add_of_lt lt
  have start : m.state.begin.Ahead m.program is 0 :=
    ⟨Nat.zero_le _, [], is, rfl, MachineState.between_begin code m.state⟩
  have ahead : s.Ahead m.program is 0 :=
    MachineState.Comes.invariant first (fun _ _ h goes => (h.goes forward goes).2) start
  have onward : s.Comes m.program m.config.stackSize (k + 1) s' :=
    MachineState.Comes.later first later
  exact onward.place_lt forward ahead

/-- It stops after no more instructions than there are. -/
theorem exists_stops (m : Machine) (code : m.program.code = codeOf is)
    (forward : JumpsForward 0 is) : ∃ n ≤ is.length, ∃ outcome t, m.Stops n outcome t := by
  cases checked : finalHeight m.program.code with
  | error e => exact ⟨0, Nat.zero_le _, _, m.state, .refused checked⟩
  | ok height =>
      obtain ⟨n, le, outcome, t, stops⟩ :=
        (MachineState.between_begin code m.state).exists_stops forward m.config.stackSize
      exact ⟨n, le, outcome, t, .ran checked stops⟩

/-- Without a step limit, the budget is at least the number of instructions. -/
theorem length_le_budget (m : Machine) (code : m.program.code = codeOf is)
    (enough : ∀ k, m.config.maxSteps = some k → is.length ≤ k) : is.length ≤ m.budget := by
  rw [budget]
  cases limited : m.config.maxSteps with
  | none =>
      have short := length_le_codeSize is
      rw [Option.getD_none, freeBudget, code, size_codeOf]
      omega
  | some k => exact enough k limited

end Machine

/-- **Compiled code only goes forward.** Whatever names and constants a compilation goes on from,
if it succeeds, its code is that of a fragment, whose jumps are laid out to where they go. Read from
the bytes, there are nothing but instructions in it, and each jump goes to where another instruction
begins, behind the jump and before the end of the code.

So a machine that runs it, with whatever globals and limits, comes to ever greater places, and stops
after no more instructions than there are. No step limit of as many is ever exceeded. -/
theorem Program.jumps_forward {p : Program} {names : NameTable} {pool : ConstantPool}
    (compiled : (p.compile names pool).outcome = .ok ()) :
    let a := (p.compile names pool).assembly
    let b := a.bytecode
    (∃ f, Translation a.names a.pool (.statements p) f ∧ f.Fits 0 ∧ b.code = codeOf (f.layout 0)) ∧
    (∀ l ∈ scan b.code, ∃ i, l.fetched = .instruction i) ∧
    (∀ o target, JumpsTo b.code o target →
      IsBoundary b.code target ∧ o < target ∧ target < b.code.size) ∧
    ∀ m : Machine, m.program = b →
      (∀ n n' s s', m.Comes n s → m.Comes n' s' → n < n' → s.place < s'.place) ∧
      (∃ n ≤ (scan b.code).length, ∃ outcome t, m.Stops n outcome t) ∧
      ((∀ k, m.config.maxSteps = some k → (scan b.code).length ≤ k) →
        ∀ k, m.run.outcome ≠ .error (.stepLimitExceeded k)) := by
  intro a b
  obtain ⟨f, compiles⟩ := Program.exists_compiled compiled
  have code : b.code = codeOf (f.layout 0) := congrArg Bytecode.code compiles.bytecode_eq
  have forward : JumpsForward 0 (f.layout 0) :=
    f.jumpsForward_layout (compiles.rules.each.imp fun _ usable => usable.straight) compiles.fits
  have count : (scan b.code).length = (f.layout 0).length := by
    rw [code, scan_codeOf, length_located]
  refine ⟨⟨f, compiles.rules, compiles.fits, code⟩, ?_, ?_, ?_⟩
  · rw [code, scan_codeOf]
    intro l mem
    obtain ⟨before, i, behind, -, rfl⟩ := mem_located_iff.mp mem
    exact ⟨i, rfl⟩
  · rw [code]
    exact fun o target => compiles.rules.jumpsTo_layout compiles.fits
  · intro m program
    rw [count]
    rw [← program] at code
    refine ⟨fun n n' s s' first later => first.place_lt code forward later,
      m.exists_stops code forward, fun enough k => ?_⟩
    obtain ⟨n, le, outcome, t, stops⟩ := m.exists_stops code forward
    have ended := stops.run_eq (Nat.le_trans le (m.length_le_budget code enough))
    rw [ended.1]
    exact stops.ne_stepLimitExceeded k

/-- A conditional inside a conditional: ten instructions, so that ten steps are always enough. -/
theorem Program.jumps_forward_conditional :
    let p : Program := [.expression default (.conditional default (.boolean default true)
      (.mk default [.expression default (.conditional default (.boolean default false)
        (.mk default [.expression default (.integer default 1)])
        (some (.mk default [.expression default (.integer default 2)])))]) none)]
    let b := (p.compile {} {}).assembly.bytecode
    (p.compile {} {}).outcome = .ok () ∧ JumpsTo b.code 1 20 ∧ IsBoundary b.code 20 ∧
      (scan b.code).length = 10 ∧
      ∀ stackSize globals, (Machine.load b ⟨stackSize, some 10⟩ globals).run.outcome ≠
        .error (.stepLimitExceeded 10) := by
  intro p b
  have compiled : (p.compile {} {}).outcome = .ok () := by rfl
  have code : b.code =
      #[6, 13, 0, 20, 7, 13, 0, 14, 0, 0, 0, 14, 0, 17, 0, 0, 1, 14, 0, 21, 15, 1] := by
    decide +kernel
  have count : (scan b.code).length = 10 := by
    rw [code]
    decide
  have jumps : JumpsTo b.code 1 20 := by
    rw [code]
    exact ⟨.jumpUnless 20, by decide, rfl⟩
  obtain ⟨-, -, targets, runs⟩ := Program.jumps_forward compiled
  refine ⟨compiled, jumps, (targets 1 20 jumps).1, count, fun stackSize globals => ?_⟩
  obtain ⟨-, -, never⟩ := runs (Machine.load b ⟨stackSize, some 10⟩ globals) rfl
  refine never (fun k limited => ?_) 10
  cases limited
  exact Nat.le_of_eq count

end StackScript
