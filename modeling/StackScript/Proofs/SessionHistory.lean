import StackScript.Proofs.Compiling
import StackScript.Proofs.Correspondence

/-!
# The Sessions There Can Be

Sessions come about by operations on a new one. The names and constants of all of them are
sound, whatever bytecode they were made to execute. A session that only ever executed what it
compiled itself has, besides, no more globals than names, because code assigns only to slots that
names had when it was compiled.

## Main definitions

* `Session.Reachable`: a session that operations lead to.
* `Session.OwnHistory`: one that executed only bytecode of its own, and the bytecode it issued.
* `Session.Orderly`: **what holds of such a session**.
* `Session.environment`: the environment that a session shows.

## Main results

* `Session.Reachable.invariant`: what compiling and executing preserve is true of all sessions.
* `Session.Reachable.sound`: names and constants are sound.
* `Session.OwnHistory.orderly`: all globals have names, and issued bytecode keeps it so.
* `Session.Orderly.view_grown`: names that are bound later read `null` before.
-/

namespace StackScript

/-- Fragments that assign only to the slots of names. -/
def Fragment.StoresBelow (n : Nat) (f : Fragment) : Prop :=
  f.Each fun i => ∀ slot, i = .store slot → slot.toNat < n

/-- Translated code assigns only to the slots of names. -/
theorem Translation.storesBelow {names : NameTable} {pool : ConstantPool} {x : Phrase}
    {f : Fragment} (h : Translation names pool x f) (sound : names.Sound) :
    f.StoresBelow names.size := by
  refine h.each.imp fun i usable operand eq => ?_
  obtain ⟨name, slot, found, rfl⟩ := usable.assigns operand eq
  rw [sound.toNat_ofNat found]
  exact sound.slot_lt found

/-- With more names there are more slots that a fragment may assign to. -/
theorem Fragment.StoresBelow.mono {n n' : Nat} {f : Fragment} (h : f.StoresBelow n)
    (le : n ≤ n') : f.StoresBelow n' :=
  h.imp fun _ below slot eq => Nat.lt_of_lt_of_le (below slot eq) le

/-- Assignments to slots below a number leave no more globals than that. -/
theorem Fragment.StoresBelow.globals_le {n : Nat} {f : Fragment} (h : f.StoresBelow n)
    {constants : Array Value} {limit : Nat} {m : Memory} (le : m.globals.size ≤ n) :
    (stateOf (f.exec constants limit m)).globals.size ≤ n := by
  refine Fragment.exec_keeps (Q := fun globals => globals.size ≤ n) (h.imp ?_) le
  intro i below slot eq globals v le
  have inside := below slot eq
  rw [Exec.extended]
  split
  · rwa [Array.size_setIfInBounds]
  · rw [Array.size_push, Array.size_append, Array.size_replicate]
    omega

namespace Session

/-! ### Sound names and constants -/

/-- A session that operations **lead to**, whatever bytecode it was made to execute. -/
inductive Reachable : Session → Prop
  | new (config : Config) : Reachable { config }
  | eval {s : Session} (text : String) : Reachable s → Reachable (s.eval text).session
  | evalProgram {s : Session} (p : Program) : Reachable s → Reachable (s.evalProgram p).session
  | compile {s : Session} (p : Program) : Reachable s → Reachable (s.compile p).session
  | execute {s : Session} (b : Bytecode) : Reachable s → Reachable (s.execute b).session

/-- To evaluate a program is to compile it and to execute what came of that, if anything did. -/
theorem session_evalProgram (s : Session) (p : Program) :
    (s.evalProgram p).session =
      match (s.compile p).result with
      | .ok b => ((s.compile p).session.execute b).session
      | .error _ => (s.compile p).session := by
  rw [evalProgram, Answer.andThen]
  cases (s.compile p).result <;> rfl

/-- To execute bytecode is to run a machine on the globals, and to take over what it made of
them. -/
theorem session_execute (s : Session) (b : Bytecode) :
    (s.execute b).session =
      { s with globals := (Machine.load b s.config s.globals).run.machine.globals } := by
  rw [execute]
  split <;> rfl

/-- To evaluate a text is to evaluate the program that it holds, if it holds one. -/
theorem session_eval (s : Session) (text : String) :
    (s.eval text).session = s ∨ ∃ p, (s.eval text).session = (s.evalProgram p).session := by
  rw [eval, Answer.andThen]
  cases read : (s.parse text).result with
  | ok p => exact .inr ⟨p, rfl⟩
  | error e => exact .inl rfl

/-- Names and constants of a session that are sound. -/
structure Sound (s : Session) : Prop where
  names : s.names.Sound
  pool : s.pool.Sound

variable {s : Session} {p : Program} {b : Bytecode} {issued : List Bytecode}

/-- Compiling keeps the tables of a session sound, whether it succeeds or not. -/
theorem Sound.compile (sound : s.Sound) (p : Program) : (s.compile p).session.Sound := by
  cases result : (s.compile p).result with
  | error e =>
      rw [session_compile_of_error result]
      exact sound
  | ok b =>
      obtain ⟨f, a, compiled, -⟩ := exists_compiled result
      rw [(compile_eq compiled).2]
      exact ⟨compiled.grown.soundNames sound.names, compiled.grown.soundPool sound.pool⟩

/-- Executing leaves the tables of a session as they are. -/
theorem Sound.execute (sound : s.Sound) (b : Bytecode) : (s.execute b).session.Sound := by
  rw [session_execute]
  exact ⟨sound.names, sound.pool⟩

/-- **What compiling and executing preserve is true of all sessions**, because there is nothing else
that changes them. -/
theorem Reachable.invariant {P : Session → Prop} (h : s.Reachable)
    (new : ∀ config, P { config })
    (compile : ∀ s p, s.Reachable → P s → P (s.compile p).session)
    (execute : ∀ s b, s.Reachable → P s → P (s.execute b).session) : P s := by
  have evalProgram {s : Session} (before : s.Reachable) (holds : P s) (p : Program) :
      P (s.evalProgram p).session := by
    rw [session_evalProgram]
    split
    · exact execute _ _ (before.compile p) (compile s p before holds)
    · exact compile s p before holds
  induction h with
  | new config => exact new config
  | @eval s text before ih =>
      rcases s.session_eval text with same | ⟨p, same⟩
      · rwa [same]
      · rw [same]
        exact evalProgram before ih p
  | evalProgram p before ih => exact evalProgram before ih p
  | compile p before ih => exact compile _ p before ih
  | execute b before ih => exact execute _ b before ih

/-- **All sessions are sound.** -/
theorem Reachable.sound (h : s.Reachable) : s.Sound :=
  h.invariant (fun _ => ⟨NameTable.sound_empty, ConstantPool.sound_empty⟩)
    (fun _ p _ sound => sound.compile p) fun _ b _ sound => sound.execute b

/-! ### Sessions that keep to themselves -/

/-- A session without a step limit that executed only bytecode which it had compiled itself,
and the bytecode that it **issued**. -/
inductive OwnHistory : Session → List Bytecode → Prop
  | new (stackSize : Nat) : OwnHistory { config := { stackSize, maxSteps := none } } []
  | eval {s : Session} {issued : List Bytecode} (text : String) :
      OwnHistory s issued → OwnHistory (s.eval text).session issued
  | evalProgram {s : Session} {issued : List Bytecode} (p : Program) :
      OwnHistory s issued → OwnHistory (s.evalProgram p).session issued
  | compile {s : Session} {issued : List Bytecode} (p : Program) :
      OwnHistory s issued →
      OwnHistory (s.compile p).session ((s.compile p).result.toOption.toList ++ issued)
  | execute {s : Session} {issued : List Bytecode} {b : Bytecode} :
      OwnHistory s issued → b ∈ issued → OwnHistory (s.execute b).session issued

/-- A session that keeps to itself is one that operations lead to. -/
theorem OwnHistory.reachable (h : s.OwnHistory issued) : s.Reachable := by
  induction h with
  | new stackSize => exact .new _
  | eval text _ ih => exact .eval text ih
  | evalProgram p _ ih => exact .evalProgram p ih
  | compile p _ ih => exact .compile p ih
  | execute _ _ ih => exact .execute _ ih

/-- Bytecode that assigns only to the slots of a session's names. -/
def Owns (s : Session) (b : Bytecode) : Prop :=
  ∃ f, b.IsCodeOf f ∧ f.StoresBelow s.names.size

/-- A session in **order**: it has no step limit, no more globals than names, and the bytecode
that it issued assigns only to the slots of its names. -/
structure Orderly (s : Session) (issued : List Bytecode) : Prop where
  unlimited : s.config.maxSteps = none
  globals_le : s.globals.size ≤ s.names.size
  owns : ∀ b ∈ issued, s.Owns b

/-- Compiling keeps a session in order, with the new bytecode among what it issued. -/
theorem Orderly.compile (order : s.Orderly issued) (sound : s.Sound) (p : Program) :
    (s.compile p).session.Orderly ((s.compile p).result.toOption.toList ++ issued) := by
  cases result : (s.compile p).result with
  | error e =>
      rw [session_compile_of_error result]
      exact order
  | ok b =>
      obtain ⟨f, a, compiled, rfl⟩ := exists_compiled result
      rw [(compile_eq compiled).2]
      have more : s.names.size ≤ a.names.size := compiled.grown.names.size_le
      refine ⟨order.unlimited, Nat.le_trans order.globals_le more, fun c issuedNow => ?_⟩
      rcases List.mem_cons.mp issuedNow with rfl | before
      · exact ⟨f, compiled.isCodeOf sound.pool,
          compiled.rules.storesBelow (compiled.grown.soundNames sound.names)⟩
      · obtain ⟨g, code, below⟩ := order.owns c before
        exact ⟨g, code, below.mono more⟩

/-- Executing what was issued keeps a session in order. -/
theorem Orderly.execute (order : s.Orderly issued) (own : b ∈ issued) :
    (s.execute b).session.Orderly issued := by
  obtain ⟨f, code, below⟩ := order.owns b own
  rw [(execute_eq code order.unlimited).2]
  exact ⟨order.unlimited, below.globals_le order.globals_le, order.owns⟩

/-- Evaluating a program keeps a session in order. -/
theorem Orderly.evalProgram (order : s.Orderly issued) (sound : s.Sound) (p : Program) :
    (s.evalProgram p).session.Orderly issued := by
  have compiled := order.compile sound p
  rw [session_evalProgram]
  cases result : (s.compile p).result with
  | error e =>
      rw [result] at compiled
      exact compiled
  | ok b =>
      rw [result] at compiled
      have executed := compiled.execute (b := b) List.mem_cons_self
      exact ⟨executed.unlimited, executed.globals_le,
        fun c before => executed.owns c (List.mem_cons_of_mem b before)⟩

/-- **Sessions that keep to themselves are in order.** -/
theorem OwnHistory.orderly (h : s.OwnHistory issued) : s.Orderly issued := by
  induction h with
  | new stackSize => exact ⟨rfl, Nat.zero_le _, nofun⟩
  | @eval s issued text before ih =>
      rcases s.session_eval text with same | ⟨p, same⟩
      · rwa [same]
      · rw [same]
        exact ih.evalProgram before.reachable.sound p
  | evalProgram p before ih => exact ih.evalProgram before.reachable.sound p
  | compile p before ih => exact ih.compile before.reachable.sound p
  | execute _ own ih => exact ih.execute own

/-! ### What a session shows -/

/-- The environment that a session **shows**. -/
def environment (s : Session) : Environment := s.names.view s.globals

/-- Names that are bound later have no value yet. -/
theorem Orderly.view_grown (order : s.Orderly issued) {names : NameTable}
    (grows : s.names.Grows names) : names.view s.globals = s.environment := by
  funext name
  cases known : s.names.slot? name with
  | some slot =>
      rw [environment, NameTable.view_of_some known, NameTable.view_of_some (grows.keeps known)]
  | none =>
      rw [environment, NameTable.view, NameTable.view, known]
      cases later : names.slot? name with
      | none => rfl
      | some slot =>
          have beyond : s.globals.size ≤ slot :=
            Nat.le_trans order.globals_le (grows.fresh known later)
          dsimp only
          rw [Array.getElem?_eq_none beyond]
          rfl

end Session

end StackScript
