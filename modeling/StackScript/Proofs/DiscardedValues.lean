import StackScript.Proofs.Correspondence
import StackScript.Proofs.ForwardJumps

/-!
# The Value Discarded Last

A machine does not keep the value that it discarded last. What it yields instead is read from the
slot just above the top of the stack, and there every instruction that takes a value leaves one
behind: a pop the value that it discards, but an assignment the value that it assigns. Since
compiled code only goes forward and no jump goes to its end, a run that succeeds comes to the end
from the last instruction, and it is this instruction alone that decides what is found in the slot.

So the value is the one discarded last, except where the last statement of a program, once nested
blocks are dissolved, is a binding. Then it is the value bound.

## Main definitions

* `MachineState.discards`, `Machine.discards`: **the values that a run discards**, in order.
* `Machine.lastDiscarded`: the last of them, and `null` if there is none.
* `Program.boundLast`: the name that the last statement binds.

## Main results

* `MachineState.Stops.discards_eq`: what a run that succeeds discards in its last step.
* `MachineState.Between.comes_last`: compiled code is left from its last instruction.
* `Translation.ends_in_last`: what the last instruction of statements is.
* `Machine.lastPopped_run`: **what a machine yields, and when this is the value discarded last**.
-/

namespace StackScript

/-! ### What a run discards -/

namespace MachineState

/-- The value that the next step **discards**: the one on top of the stack, if the instruction to
run next is a pop. -/
def discarded? (program : Bytecode) (s : MachineState) : Option Value :=
  match fetch? program.code s.place with
  | some (.instruction .pop) => s.stack.top?
  | _ => none

/-- The values that a run **discards** within a budget, in order. -/
def discards (program : Bytecode) (limit : Nat) : Nat → MachineState → List Value
  | 0, _ => []
  | budget + 1, s =>
    if s.atEnd program then []
    else
      match step program limit s with
      | .ok _ t => (s.discarded? program).toList ++ discards program limit budget t
      | .error _ _ => []

end MachineState

namespace Machine

/-- The values that the run of a machine **discards**, in order. -/
def discards (m : Machine) : List Value :=
  match finalHeight m.program.code with
  | .error _ => []
  | .ok _ => m.state.begin.discards m.program m.config.stackSize m.budget

/-- The value that the run of a machine **discards last**, and `null` if it discards none. -/
def lastDiscarded (m : Machine) : Value := m.discards.getLast?.getD .null

end Machine

/-! ### The last instruction of a run -/

namespace MachineState

variable {program : Bytecode} {limit n : Nat} {s t : MachineState}
  {before behind front : List Instruction} {last : Instruction}

/-- What a run discards is what its first step discards, and then what the rest does. -/
theorem discards_of_goesTo (goes : s.GoesTo program limit t) (budget : Nat) :
    discards program limit (budget + 1) s =
      (s.discarded? program).toList ++ discards program limit budget t := by
  simp only [discards, goes.1, goes.2, Bool.false_eq_true, if_false]

/-- At the end of the code nothing more is discarded. -/
theorem discards_of_atEnd (there : s.atEnd program = true) (budget : Nat) :
    discards program limit budget s = [] := by
  cases budget <;> simp only [discards, there, if_true]

/-- A run that succeeds was over before it began, or it has a last step, and what it discards there
is the last that it discards. -/
theorem Stops.discards_eq (h : s.Stops program limit n (.ok ()) t) {budget : Nat}
    (enough : n ≤ budget) :
    (s.atEnd program = true ∧ t = s ∧ discards program limit budget s = []) ∨
      ∃ k u earlier, s.Comes program limit k u ∧ u.GoesTo program limit t ∧
        t.atEnd program = true ∧
        discards program limit budget s = earlier ++ (u.discarded? program).toList := by
  generalize succeeded : (Except.ok () : Except RuntimeError Unit) = outcome at h
  induction h generalizing budget with
  | behind there => exact .inl ⟨there, rfl, discards_of_atEnd there budget⟩
  | failed fails => cases succeeded
  | @next s t u n _ goes rest ih =>
      obtain ⟨budget, rfl⟩ := Nat.exists_eq_add_of_le' (Nat.le_of_add_left_le enough)
      rw [discards_of_goesTo goes]
      rcases ih (Nat.le_of_succ_le_succ enough) succeeded with
        ⟨there, rfl, none⟩ | ⟨k, v, earlier, comes, goes', there, discarded⟩
      · exact .inr ⟨0, s, [], .start s, goes, there, by rw [none, List.append_nil]; rfl⟩
      · refine .inr ⟨k + 1, v, (s.discarded? program).toList ++ earlier, .next goes comes, goes',
          there, ?_⟩
        rw [discarded, List.append_assoc]

/-- **Code is left from its last instruction**, if its jumps go forward and the last instruction is
none: a jump lands where there is still an instruction to run. -/
theorem Between.comes_last (h : s.Between program before behind)
    (whole : front ++ [last] = before ++ behind) (forward : JumpsForward 0 front)
    (straight : last.target? = none) (goes : s.GoesTo program limit t)
    (there : t.atEnd program = true) : s.Between program front [last] := by
  obtain ⟨i, rest, rfl, -, -, past | jumped⟩ := h.goes goes
  · obtain rfl := past.atEnd_iff.mp there
    obtain ⟨rfl, same⟩ := List.append_inj' whole rfl
    cases same
    exact h
  · obtain ⟨across, back, rfl, nonempty, landing⟩ :=
      forward.exists_target_inside straight whole jumped
    have more : 1 ≤ codeSize back :=
      Nat.le_trans (List.length_pos_iff.mpr nonempty) (length_le_codeSize back)
    have outside : program.code.size ≤ t.place := of_decide_eq_true there
    rw [h.code, size_codeOf, landing] at outside
    simp only [codeSize_append, codeSize_cons] at outside
    omega

/-- A pop leaves the value that it discards just above the top of the stack. -/
theorem Between.goes_pop (h : s.Between program before [.pop]) (goes : s.GoesTo program limit t) :
    s.discarded? program = some t.stack.justAbove := by
  obtain ⟨_, _, same, pops, -⟩ := h.goes goes
  cases same
  obtain ⟨v, top⟩ := Stack.exists_top pops
  have stepped := h.step_eq.symm.trans goes.2
  simp only [Exec.run, bind_run, Exec.pop_of_top top, Exec.goPast_run] at stepped
  cases stepped
  rw [discarded?, h.code, h.place, fetch?_codeOf]
  exact top

/-- An assignment leaves the value that it assigns there. -/
theorem Between.goes_store {operand : UInt16} (h : s.Between program before [.store operand])
    (goes : s.GoesTo program limit t) :
    t.globals[operand.toNat]?.getD .null = t.stack.justAbove := by
  obtain ⟨_, _, same, pops, -⟩ := h.goes goes
  cases same
  obtain ⟨v, top⟩ := Stack.exists_top pops
  have stepped := h.step_eq.symm.trans goes.2
  simp only [Exec.run, bind_run, Exec.pop_of_top top, Exec.setGlobal_run, Exec.goPast_run]
    at stepped
  cases stepped
  exact (Exec.getD_extended _ _ _ _).trans (if_pos rfl)

end MachineState

/-! ### The last instruction of a program -/

mutual

/-- The name that is **bound last**, given the one that was bound last before a statement. An empty
block changes nothing. -/
def Statement.boundLast (before : Option String) : Statement → Option String
  | .binding _ n _ => some n.text
  | .block (.mk _ statements) => Program.boundLast before statements
  | .expression _ _ | .returning _ _ => none

/-- The name that the last statement binds, once nested blocks are dissolved into the list they
stand in. There is none if that statement is an expression. -/
def Program.boundLast (before : Option String) : List Statement → Option String
  | [] => before
  | s :: rest => Program.boundLast (s.boundLast before) rest

end

/-- The name that a phrase binds last. -/
def Phrase.boundLast (before : Option String) : Phrase → Option String
  | value _ | branch _ => none
  | statement s => s.boundLast before
  | statements p => Program.boundLast before p

open Fragment (single append_assoc append_done)

/-- How the code of a phrase **ends** that leaves nothing on the stack, given the name bound last
before it and by it. -/
inductive Fragment.EndsBy (names : NameTable) (before : Option String) :
    Option String → Fragment → Prop
  /-- There is no code. -/
  | done : EndsBy names before before .done
  /-- By discarding a value. -/
  | pop (g : Fragment) : EndsBy names before none (g ++ single .pop)
  /-- By assigning to a name. -/
  | store (g : Fragment) {name : String} {slot : Nat} :
      names.slot? name = some slot → slot < Assembly.slotLimit →
      EndsBy names before (some name) (g ++ single (.store (UInt16.ofNat slot)))

/-- **What the last instruction of statements is**: a pop, if the last of them is an expression, and
an assignment, if it is a binding. -/
theorem Translation.ends_in_last {names : NameTable} {pool : ConstantPool} {x : Phrase}
    {f : Fragment} (h : Translation names pool x f) (nothing : x.leaves = 0)
    (before : Option String) : f.EndsBy names before (x.boundLast before) := by
  induction h generalizing before with
  | expression _ _ => exact .pop _
  | binding _ found room _ => exact .store _ found room
  | block _ ih =>
      rw [Phrase.boundLast, Statement.boundLast]
      exact ih rfl before
  | nil =>
      rw [Phrase.boundLast, Program.boundLast]
      exact .done
  | @cons s p f g _ _ ih ihp =>
      rw [Phrase.boundLast, Program.boundLast]
      have first : f.EndsBy names before (s.boundLast before) := ih rfl before
      have second : g.EndsBy names (s.boundLast before)
          (Program.boundLast (s.boundLast before) p) := ihp rfl (s.boundLast before)
      generalize Program.boundLast (s.boundLast before) p = bound at second ⊢
      cases second with
      | done =>
          rw [append_done]
          exact first
      | pop g' =>
          rw [← append_assoc]
          exact .pop _
      | store g' found room =>
          rw [← append_assoc]
          exact .store _ found room
  | _ => cases nothing

/-! ### What a machine yields -/

namespace Machine

open Session (eq_ok_of_toOption)

variable {m : Machine} {g : Fragment} {i : Instruction}

/-- A run that succeeds stops within its budget. -/
theorem exists_stops_of_ok (succeeded : m.run.outcome = .ok ()) :
    ∃ n ≤ m.budget, m.Stops n (.ok ()) m.run.machine.state := by
  rcases m.run_cases with ⟨n, enough, stops⟩ | ⟨cut, -⟩
  · exact ⟨n, enough, succeeded ▸ stops⟩
  · rw [succeeded] at cut
    cases cut

/-- A machine over no code is left as it begins, and discards nothing. -/
theorem run_of_done (code : m.program.code = codeOf []) (succeeded : m.run.outcome = .ok ()) :
    m.run.machine.state = m.state.begin ∧ m.discards = [] := by
  have start : m.state.begin.Between m.program [] [] := MachineState.between_begin code m.state
  have ended : m.state.begin.atEnd m.program = true := start.atEnd_iff.mpr rfl
  obtain ⟨n, -, stops⟩ := exists_stops_of_ok succeeded
  generalize m.run.machine.state = t at stops ⊢
  cases stops with
  | ran accepted stops =>
      rw [discards, accepted]
      refine ⟨?_, MachineState.discards_of_atEnd ended _⟩
      cases stops with
      | behind _ => rfl
      | next goes _ =>
          rw [goes.1] at ended
          cases ended

/-- A machine over compiled code that ends in an instruction comes to the end from there, and what
it discards then is the last that it discards. -/
theorem run_of_single {p : Program} {names : NameTable} {pool : ConstantPool} {a : Assembly}
    (compiles : p.Compiled names pool (g ++ single i) a)
    (code : m.program.code = codeOf ((g ++ single i).layout 0))
    (succeeded : m.run.outcome = .ok ()) :
    ∃ (u : MachineState) (earlier : List Value), u.Between m.program (g.layout 0) [i] ∧
      u.GoesTo m.program m.config.stackSize m.run.machine.state ∧
      m.discards = earlier ++ (u.discarded? m.program).toList := by
  obtain ⟨usable, last, -⟩ := (Fragment.each_append _ _).mp compiles.rules.each
  have forward := g.jumpsForward_layout (usable.imp fun _ usable => usable.straight)
    ((Fragment.fits_append _ _ _).mp compiles.fits).1
  have whole := compiles.jumpsForward
  rw [Fragment.layout_append, Fragment.layout_single] at code whole
  have start : m.state.begin.Between m.program [] (g.layout 0 ++ [i]) :=
    MachineState.between_begin code m.state
  obtain ⟨n, enough, stops⟩ := exists_stops_of_ok succeeded
  generalize m.run.machine.state = t at stops ⊢
  cases stops with
  | ran accepted stops =>
      rw [discards, accepted]
      rcases stops.discards_eq enough with
        ⟨ended, -⟩ | ⟨k, u, earlier, comes, goes, there, discarded⟩
      · exact absurd (start.atEnd_iff.mp ended) (by simp)
      · have ahead : u.Ahead m.program (g.layout 0 ++ [i]) 0 :=
          comes.invariant (fun _ _ h goes => (h.goes whole goes).2)
            ⟨Nat.zero_le _, [], _, rfl, start⟩
        obtain ⟨-, before, behind, same, between⟩ := ahead
        exact ⟨u, earlier, between.comes_last same forward last.straight goes there, goes,
          discarded⟩

/-- **What a machine yields.** Whatever names and constants a program was compiled from, and
whatever globals and limits a new machine has that runs its code: if the run succeeds, the value
above the top of the stack is the one that the run discarded last, or `null` if it discarded none,
unless the last statement of the program, with nested blocks dissolved, is a binding. Then it is
the value of the name bound.

So a machine yields the value discarded last just when the program does not end in a binding, or
the value bound happens to be the one that was discarded last. -/
theorem lastPopped_run {p : Program} {names : NameTable} {pool : ConstantPool}
    (compiled : (p.compile names pool).outcome = .ok ()) (config : Config)
    (globals : Array Value) :
    let a := (p.compile names pool).assembly
    let m := load a.bytecode config globals
    m.run.outcome = .ok () →
      (m.run.machine.lastPopped = match Program.boundLast none p with
        | none => m.lastDiscarded
        | some name => a.names.view m.run.machine.globals name) ∧
      (m.run.machine.lastPopped = m.lastDiscarded ↔ ∀ name,
        Program.boundLast none p = some name →
          a.names.view m.run.machine.globals name = m.lastDiscarded) := by
  intro a m succeeded
  obtain ⟨f, compiles⟩ := Program.exists_compiled compiled
  have code : m.program.code = codeOf (f.layout 0) := congrArg Bytecode.code compiles.bytecode_eq
  have ends : f.EndsBy a.names none (Program.boundLast none p) :=
    compiles.rules.ends_in_last rfl none
  have yields : m.run.machine.lastPopped = match Program.boundLast none p with
      | none => m.lastDiscarded
      | some name => a.names.view m.run.machine.globals name := by
    generalize Program.boundLast none p = bound at ends ⊢
    cases ends with
    | done =>
        obtain ⟨left, discarded⟩ := run_of_done code succeeded
        rw [lastPopped, left, lastDiscarded, discarded]
        rfl
    | pop g =>
        obtain ⟨u, earlier, there, goes, discarded⟩ := run_of_single compiles code succeeded
        rw [lastDiscarded, discarded, there.goes_pop goes, Option.toList_some,
          List.getLast?_concat]
        rfl
    | @store g name slot found room =>
        obtain ⟨u, earlier, there, goes, -⟩ := run_of_single compiles code succeeded
        have assigned := there.goes_store goes
        have exactly : (UInt16.ofNat slot).toNat = slot := UInt16.toNat_ofNat_of_lt room
        rw [exactly] at assigned
        exact ((NameTable.view_of_some found _).trans assigned).symm
  refine ⟨yields, ?_⟩
  rw [yields]
  cases Program.boundLast none p with
  | none => simp
  | some name => simp

/-- A value that is bound and read again: the read ends the program, so its value is yielded. -/
theorem lastPopped_run_read :
    let p : Program := [.binding default ⟨default, "a"⟩ (.integer default 5),
      .expression default (.name ⟨default, "a"⟩)]
    let m := load (p.compile {} {}).assembly.bytecode {} #[]
    (p.compile {} {}).outcome = .ok () ∧ m.run.outcome = .ok () ∧
      m.run.machine.lastPopped = m.lastDiscarded ∧ m.lastDiscarded = .integer 5 := by
  intro p m
  have compiled : (p.compile {} {}).outcome = .ok () := by rfl
  have ran : m.run.outcome.toOption = some () := by decide +kernel
  have succeeded : m.run.outcome = .ok () := eq_ok_of_toOption ran
  have discarded : m.lastDiscarded = .integer 5 := by decide +kernel
  obtain ⟨-, agree⟩ := lastPopped_run compiled {} #[] succeeded
  exact ⟨compiled, succeeded, agree.mpr nofun, discarded⟩

/-- **A value that was bound is yielded as well**: a program that is a binding and nothing else
discards no value, and its machine yields the value bound, not `null`. -/
theorem lastPopped_ne_lastDiscarded :
    let p : Program := [.binding default ⟨default, "a"⟩ (.integer default 5)]
    let m := load (p.compile {} {}).assembly.bytecode {} #[]
    (p.compile {} {}).outcome = .ok () ∧ m.run.outcome = .ok () ∧ m.discards = [] ∧
      m.lastDiscarded = .null ∧ m.run.machine.lastPopped = .integer 5 := by
  intro p m
  have compiled : (p.compile {} {}).outcome = .ok () := by rfl
  have ran : m.run.outcome.toOption = some () := by decide +kernel
  have none : m.discards = [] := by decide +kernel
  have bound : m.run.machine.lastPopped = .integer 5 := by decide +kernel
  exact ⟨compiled, eq_ok_of_toOption ran, none, by rw [lastDiscarded, none]; rfl, bound⟩

end Machine

end StackScript
