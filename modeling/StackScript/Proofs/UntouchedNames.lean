import StackScript.Proofs.Acceptance
import StackScript.Proofs.ForwardJumps
import StackScript.Proofs.Routines
import StackScript.Proofs.SessionHistory

/-!
# Names That a Run Does Not Touch

A program changes the values of the names that it binds, and of no others, wherever its run ends:
behind the code, where an instruction fails, or where it is cut off. Three things come together
here. Of all that instructions are made of, only an assignment changes the globals, and only in one
slot. A machine that runs compiled code only ever runs the instructions of this code, of which those
that assign have the slots of names that the program binds. And a name that is not bound keeps the
slot that it had, which is the slot of no other name.

## Main definitions

* `KeepsGlobals`: what the assignments of a code preserve.

## Main results

* `Machine.run_keeps_globals`: what they preserve, a run preserves, **however it ends**.
* `Translation.stores`: code assigns only to the slots of names that the program binds.
* `Session.Reachable.holds`: all constants of a session are found in its pool.
* `Session.execute_untouched`: **a program touches only the names that it binds**.
-/

namespace StackScript

/-! ### Runs -/

/-- The assignments among instructions **keep** a property of globals. -/
def KeepsGlobals (is : List Instruction) (Q : Array Value → Prop) : Prop :=
  ∀ operand, .store operand ∈ is → ∀ globals v, Q globals →
    Q (Exec.extended globals operand.toNat v)

/-- What the assignments of a code preserve, a step does, whether it succeeds or fails. -/
theorem MachineState.Between.keeps_globals {program : Bytecode} {limit : Nat} {s : MachineState}
    {before behind : List Instruction} {i : Instruction} {Q : Array Value → Prop}
    (h : s.Between program before (i :: behind)) (kept : KeepsGlobals (before ++ i :: behind) Q)
    (holds : Q s.globals) :
    Ends (fun _ t => Q t.globals) (fun _ t => Q t.globals) (step program limit s) := by
  rw [h.step_eq, Exec.run_eq_exec]
  refine Routine.keeps_globals (S := fun slot => ∀ globals v, Q globals →
    Q (Exec.extended globals slot v)) (fun globals _ v kept => kept globals v) _ ?_ holds
  refine i.assigns_routine program.constants fun operand same => kept operand ?_
  rw [same]
  exact List.mem_append_right _ List.mem_cons_self

/-- **What the assignments of a code preserve, a run preserves**, whether it comes to the end of the
code, fails or is cut off. -/
theorem Machine.run_keeps_globals {m : Machine} {is : List Instruction} {Q : Array Value → Prop}
    (code : m.program.code = codeOf is) (forward : JumpsForward 0 is) (kept : KeepsGlobals is Q)
    (holds : Q m.state.globals) : Q m.run.machine.state.globals := by
  cases checked : finalHeight m.program.code with
  | error e =>
      rw [(run_of_refused checked).2]
      exact holds
  | ok height =>
      have start : m.state.begin.Ahead m.program is 0 :=
        ⟨Nat.zero_le _, [], is, rfl, MachineState.between_begin code m.state⟩
      have step {s : MachineState} (ahead : s.Ahead m.program is 0) (holds : Q s.globals)
          (inside : s.atEnd m.program = false) :
          Ends (fun _ t => Q t.globals) (fun _ t => Q t.globals)
            (MachineState.step m.program m.config.stackSize s) := by
        obtain ⟨-, before, behind, rfl, there⟩ := ahead
        cases behind with
        | nil => exact absurd (there.atEnd_iff.mpr rfl) (by rw [inside]; exact Bool.false_ne_true)
        | cons i rest => exact there.keeps_globals kept holds
      have ended := run_of_invariant (P := fun s => s.Ahead m.program is 0 ∧ Q s.globals) checked
        ⟨start, holds⟩ fun s t ⟨ahead, holds⟩ goes => by
          have stepped := step ahead holds goes.1
          rw [goes.2] at stepped
          exact ⟨(ahead.goes forward goes).2, stepped⟩
      rcases ended with ⟨-, ⟨-, holds⟩, -⟩ | ⟨e, u, -, ⟨ahead, holds⟩, fails⟩ | ⟨-, -, holds⟩
      · exact holds
      · have stepped := step ahead holds fails.1
        rwa [fails.2] at stepped
      · exact holds

/-! ### Which slots code assigns to -/

/-- What is matched on the right has a match on the left. -/
theorem exists_of_forall₂ {α β : Type} {R : α → β → Prop} {as : List α} {bs : List β}
    (h : List.Forall₂ R as bs) {b : β} (mem : b ∈ bs) : ∃ a ∈ as, R a b := by
  induction h with
  | nil => cases mem
  | cons related _ ih =>
      rcases List.mem_cons.mp mem with rfl | mem
      · exact ⟨_, List.mem_cons_self, related⟩
      · obtain ⟨a, mem, related⟩ := ih mem
        exact ⟨a, List.mem_cons_of_mem _ mem, related⟩

/-- Code assigns only to the slots of names that the phrase binds. -/
theorem Translation.stores {names : NameTable} {pool : ConstantPool} {x : Phrase} {f : Fragment}
    (h : Translation names pool x f) {o : Nat} {operand : UInt16}
    (mem : .store operand ∈ f.layout o) :
    ∃ name, .write name ∈ x.references ∧ names.slot? name = some operand.toNat := by
  have refers : .store operand ∈ f.referring := by
    rw [← f.filter_layout o]
    exact List.mem_filter.mpr ⟨mem, rfl⟩
  obtain ⟨r, among, place, found, same, checked⟩ := exists_of_forall₂ h.refers refers
  cases r with
  | write name =>
      cases same
      have exactly : (UInt16.ofNat place).toNat = place :=
        UInt16.toNat_ofNat_of_lt (checked name rfl)
      exact ⟨name, among, by rw [exactly]; exact found⟩
  | literal v | read name => cases same

/-- Code does not touch the slot of a name that the program does not bind: it assigns to the slots
of other names. -/
theorem Program.Compiled.keepsGlobals {p : Program} {names : NameTable} {pool : ConstantPool}
    {f : Fragment} {a : Assembly} (h : p.Compiled names pool f a) (sound : a.names.Sound)
    {name : String} {slot : Nat} (found : a.names.slot? name = some slot)
    (unbound : .write name ∉ Program.references p) (v : Value) :
    KeepsGlobals (f.layout 0) fun globals => globals[slot]?.getD .null = v := by
  intro operand mem globals assigned same
  obtain ⟨bound, written, found'⟩ := h.rules.stores mem
  rw [Exec.getD_extended, if_neg, same]
  intro clash
  rw [← clash] at found'
  exact unbound (sound.injective found' found ▸ written)

/-! ### Sessions -/

namespace Session

variable {s : Session} {p : Program} {b : Bytecode} {name : String}

/-- What a session comes to that compiles a program: the names and constants after its points. -/
theorem Sound.after (sound : s.Sound) (holds : s.pool.Holds s.pool.values.toList)
    (compiled : (s.compile p).result = .ok b) :
    (p.compile s.names s.pool).assembly.After s.names s.pool.values.toList
      (Program.visits 0 p) := by
  rcases p.compile_cases s.names holds sound.pool.size_le with ⟨-, after, -⟩ | ⟨e, failed, -⟩
  · exact after
  · rw [outcome_of_compile compiled] at failed
    cases failed

/-- **All constants of a session are found in its pool.** -/
theorem Reachable.holds (h : s.Reachable) : s.pool.Holds s.pool.values.toList := by
  refine h.invariant (P := fun s => s.pool.Holds s.pool.values.toList)
    (fun config => ⟨rfl, by simp [ConstantPool.index?]⟩) (fun s p before holds => ?_)
    fun s b before holds => ?_
  · cases result : (s.compile p).result with
    | error e => rwa [session_compile_of_error result]
    | ok b =>
        obtain ⟨f, compiles⟩ := Program.exists_compiled (outcome_of_compile result)
        have after := before.sound.after holds result
        rw [(compile_eq compiles).2]
        exact ⟨rfl, after.pool.values ▸ after.pool.found⟩
  · rwa [session_execute]

/-- A name that a program does not bind has the slot after compiling that it had before, if any. -/
theorem Reachable.slot?_compile (reachable : s.Reachable)
    (compiled : (s.compile p).result = .ok b) (unbound : .write name ∉ Program.references p) :
    (p.compile s.names s.pool).assembly.names.slot? name = s.names.slot? name := by
  rw [(reachable.sound.after reachable.holds compiled).names]
  refine Visit.slot?_namesAfter fun mem => unbound ?_
  rw [Program.references_eq p 0]
  exact List.mem_filterMap.mpr ⟨_, mem, rfl⟩

/-- **A program touches only the names that it binds.** Whatever operations a session has come
from, and whatever limits the code of a program is run under in it: a name that the program binds
nowhere, be it in a branch that is not taken or inside an operand, has the value that it had before
it was compiled. This is so wherever the run ends, behind the code, where an instruction fails, or
where it is cut off. -/
theorem execute_untouched (reachable : s.Reachable) (compiled : (s.compile p).result = .ok b)
    (config : Config) (unbound : .write name ∉ Program.references p) :
    let limited : Session := { (s.compile p).session with config }
    (limited.execute b).session.environment name = s.environment name := by
  intro limited
  have slots := reachable.slot?_compile compiled unbound
  obtain ⟨f, compiles⟩ := Program.exists_compiled (outcome_of_compile compiled)
  obtain ⟨result, session⟩ := compile_eq compiles
  rw [compiled] at result
  cases result
  generalize (p.compile s.names s.pool).assembly = a at compiles session slots
  have same : limited = { s.compiledTo a with config } := by
    rw [← session]
  rw [same, session_execute]
  change a.names.view _ name = s.names.view s.globals name
  rw [NameTable.view, NameTable.view, slots]
  cases known : s.names.slot? name with
  | none => rfl
  | some slot =>
      have sound : a.names.Sound := compiles.grown.soundNames reachable.sound.names
      have kept := compiles.keepsGlobals sound (slots.trans known) unbound
        (s.globals[slot]?.getD .null)
      exact Machine.run_keeps_globals rfl compiles.jumpsForward kept rfl

/-- A program that fails where it divides by a name: the name keeps its value, and so it does if the
run is cut off before that. -/
theorem execute_untouched_division :
    let s := (Session.evalProgram {} [.binding default ⟨default, "a"⟩ (.integer default 0)]).session
    let p : Program := [.binding default ⟨default, "b"⟩
      (.binary default (.integer default 1) "/" (.name ⟨default, "a"⟩))]
    ∃ b, (s.compile p).result = .ok b ∧ ∀ config : Config,
      ({ (s.compile p).session with config }.execute b).session.environment "a" = .integer 0 := by
  intro s p
  have reachable : s.Reachable := .evalProgram _ (.new {})
  obtain ⟨b, compiled⟩ : ∃ b, (s.compile p).result = .ok b := ⟨_, rfl⟩
  have value : s.environment "a" = .integer 0 := by decide +kernel
  have unbound : Reference.write "a" ∉ Program.references p := by decide +kernel
  refine ⟨b, compiled, fun config => ?_⟩
  rw [execute_untouched reachable compiled config unbound, value]

end Session

end StackScript
