import StackScript.Session
import StackScript.Proofs.Assembling
import StackScript.Proofs.CodeReading
import StackScript.Proofs.Simulation

/-!
# Compiled Programs

A program that compiles becomes the code of a fragment, and a session that runs this code ends as
the fragment does. So everything about sessions can be said of fragments.

## Main definitions

* `Program.Compiled`: **a program compiles to a fragment**, over names and constants.

## Main results

* `Program.exists_compiled`, `Program.Compiled.compile`: the programs that compile are those that
  compile to a fragment.
* `Program.Compiled.isCodeOf`: and their bytecode is its code.
* `Session.execute_eq`, `Session.evalProgram_eq`: what sessions do with it.
-/

namespace StackScript

open Assembler (Lays)

/-- A program **compiles to a fragment**, starting from names and constants, and coming to those
of an assembly. -/
structure Program.Compiled (p : Program) (names : NameTable) (pool : ConstantPool) (f : Fragment)
    (a : Assembly) : Prop where
  lays : Lays (Program.assemble p) (.start names pool) f a
  grown : (Assembly.start names pool).Extends a
  rules : Translation a.names a.pool (.statements p) f
  fits : f.Fits 0

/-- The bytecode of a fragment over constants. -/
def Fragment.bytecode (f : Fragment) (pool : ConstantPool) : Bytecode :=
  { code := codeOf (f.layout 0), constants := pool.values }

/-- A fragment that was laid down from the start is finished as the bytecode of that fragment. -/
theorem Assembly.bytecode_laid (names : NameTable) (pool : ConstantPool) (f : Fragment)
    (a : Assembly) (begun : Array Statement) :
    ((Assembly.start names pool).laid f a begun).bytecode = f.bytecode a.pool := by
  have code : ((Assembly.start names pool).laid f a begun).code.toList = f.layout 0 := by
    simp [laid, start]
  rw [Fragment.bytecode, ← code, ← bytecode_code]
  rfl

namespace Program

variable {p q : Program} {names : NameTable} {pool : ConstantPool} {f : Fragment} {a : Assembly}

/-- Programs in sequence are assembled in sequence. -/
theorem assemble_append (p q : Program) :
    Program.assemble (p ++ q) = (do Program.assemble p; Program.assemble q) := by
  induction p with
  | nil =>
      funext a
      rw [List.nil_append, bind_run, Program.assemble]
      rfl
  | cons s rest ih => rw [List.cons_append, Program.assemble, ih, Program.assemble, bind_assoc]

/-- The assembly of what compiles. -/
theorem assemble_of_compile (h : (p.compile names pool).outcome = .ok ()) :
    Program.assemble p (.start names pool) = .ok () (p.compile names pool).assembly := by
  rw [Program.compile, assembleAfter] at h ⊢
  cases assembled : Program.assemble p (.start names pool) with
  | error e a =>
      rw [assembled] at h
      cases h
  | ok _ a => rfl

/-- What compiles, compiles to a fragment. -/
theorem exists_compiled (h : (p.compile names pool).outcome = .ok ()) :
    ∃ f, p.Compiled names pool f (p.compile names pool).assembly := by
  have assembled := assemble_of_compile h
  obtain ⟨f, lays, grown, rules⟩ := Program.follows p _ _ assembled
  exact ⟨f, lays, grown, rules, (lays.laid rfl rfl assembled).1⟩

/-- **Splitting**: what compiles, compiles part by part, and becomes the same fragments. -/
theorem exists_compiled_append (h : ((p ++ q).compile names pool).outcome = .ok ()) :
    ∃ f g a₁ a₂, p.Compiled names pool f a₁ ∧ q.Compiled a₁.names a₁.pool g a₂ ∧
      (p ++ q).Compiled names pool (f ++ g) a₂ := by
  have assembled := assemble_of_compile h
  rw [assemble_append] at assembled
  obtain ⟨_, a₁, first, second⟩ := bind_ok assembled
  obtain ⟨f, lays, grown, rules⟩ := Program.follows p _ a₁ first
  obtain ⟨g, lays', grown', rules'⟩ := Program.follows q a₁ _ second
  obtain ⟨fits, begun, laid⟩ := lays.laid rfl rfl first
  have place : a₁.size = 0 + f.size := by
    rw [laid]
    rfl
  have fits' := (lays'.laid rfl rfl second).1
  rw [place] at fits'
  have all := lays.append lays'
  rw [← assemble_append] at all
  refine ⟨f, g, a₁, _, ⟨lays, grown, rules, fits⟩,
    ⟨lays'.congr rfl rfl rfl rfl, grown'.of_start, rules', fits'.mono (Nat.zero_le _)⟩,
    ⟨all, grown.trans grown', ?_, (Fragment.fits_append f g 0).mpr ⟨fits, fits'⟩⟩⟩
  exact (Translation.mono rules grown'.names grown'.pool).append rules'

namespace Compiled

/-- What compiles to a fragment, compiles. -/
theorem compile (h : p.Compiled names pool f a) :
    ∃ begun, p.compile names pool = ⟨.ok (), (Assembly.start names pool).laid f a begun⟩ := by
  obtain ⟨begun, assembled⟩ := h.lays.succeeds (b := .start names pool) rfl rfl h.fits
  exact ⟨begun, by rw [Program.compile, assembleAfter, assembled]⟩

/-- The bytecode of what compiles to a fragment is that of the fragment. -/
theorem bytecode_eq (h : p.Compiled names pool f a) :
    (p.compile names pool).assembly.bytecode = f.bytecode a.pool := by
  obtain ⟨begun, compiled⟩ := h.compile
  rw [compiled]
  exact Assembly.bytecode_laid names pool f a begun

/-- The bytecode of what compiles to a fragment is the code of that fragment. -/
theorem isCodeOf (h : p.Compiled names pool f a) (sound : pool.Sound) :
    (f.bytecode a.pool).IsCodeOf f where
  code := rfl
  fits := h.fits
  balanced := h.rules.balanced (h.grown.soundPool sound) 0

end Compiled

end Program

/-! ### Sessions -/

namespace Session

variable {s : Session} {p : Program} {f : Fragment} {a : Assembly} {b : Bytecode}

/-- A session that compiled a program has its names and constants. -/
def compiledTo (s : Session) (a : Assembly) : Session :=
  { s with names := a.names, pool := a.pool }

/-- What a session makes of a program that compiles to a fragment. -/
theorem compile_eq (h : p.Compiled s.names s.pool f a) :
    (s.compile p).result = .ok (f.bytecode a.pool) ∧
      (s.compile p).session = s.compiledTo a := by
  obtain ⟨begun, compiled⟩ := h.compile
  simp only [Session.compile, compiled, Assembly.bytecode_laid, true_and]
  rfl

/-- Where a session has compiled a program, the assembler has succeeded on it. -/
theorem outcome_of_compile (h : (s.compile p).result = .ok b) :
    (p.compile s.names s.pool).outcome = .ok () := by
  rw [Session.compile] at h
  dsimp only at h
  split at h
  · assumption
  · cases h

/-- What a session compiles, compiles to a fragment. -/
theorem exists_compiled (h : (s.compile p).result = .ok b) :
    ∃ f a, p.Compiled s.names s.pool f a ∧ b = f.bytecode a.pool := by
  obtain ⟨f, compiled⟩ := Program.exists_compiled (outcome_of_compile h)
  have result := (compile_eq compiled).1
  rw [h] at result
  cases result
  exact ⟨f, _, compiled, rfl⟩

/-- A program that does not compile leaves the session as it was. -/
theorem session_compile_of_error {e : EvalError} (h : (s.compile p).result = .error e) :
    (s.compile p).session = s := by
  rw [Session.compile] at h ⊢
  dsimp only at h ⊢
  split at h
  · cases h
  · rfl

/-- A result that is there is no error. -/
theorem eq_ok_of_toOption {ε α : Type} {x : Except ε α} {v : α} (h : x.toOption = some v) :
    x = .ok v := by
  cases x with
  | ok w =>
      cases h
      rfl
  | error e => cases h

/-- What an answer says of a run of a fragment. -/
def answerOf {α : Type} (value : Memory → α) :
    EStateM.Result RuntimeError Memory Unit → Except EvalError α
  | .ok _ m => .ok (value m)
  | .error e _ => .error (.runtime e)

/-- How a fragment runs in a session. -/
def runOf (s : Session) (f : Fragment) (constants : Array Value) :
    EStateM.Result RuntimeError Memory Unit :=
  f.exec constants s.config.stackSize { globals := s.globals }

/-- A session that executes the code of a fragment ends as the fragment does, unless a step limit
cuts it off. -/
theorem execute_cases (h : b.IsCodeOf f) :
    ((s.execute b).result = answerOf (fun m => m.stack.justAbove) (s.runOf f b.constants) ∧
      (s.execute b).session = { s with globals := (stateOf (s.runOf f b.constants)).globals }) ∨
    ∃ k, s.config.maxSteps = some k ∧
      (s.execute b).result = .error (.runtime (.stepLimitExceeded k)) := by
  have code : (Machine.load b s.config s.globals).program.IsCodeOf f := h
  rcases Machine.run_of_isCodeOf code with ⟨outcome, memory⟩ | ⟨k, limited, cut⟩
  · refine .inl ?_
    have run : outcomeOf (s.runOf f b.constants) =
        (Machine.load b s.config s.globals).run.outcome := outcome.symm
    have left : stateOf (s.runOf f b.constants) =
        (Machine.load b s.config s.globals).run.machine.state.memory := memory.symm
    rw [left, Session.execute]
    cases ran : s.runOf f b.constants with
    | ok _ m =>
        rw [ran] at run left
        rw [← run]
        exact ⟨congrArg (fun m : Memory => Except.ok m.stack.justAbove) left.symm, rfl⟩
    | error e m =>
        rw [ran] at run
        rw [← run]
        exact ⟨rfl, rfl⟩
  · refine .inr ⟨k, limited, ?_⟩
    rw [Session.execute, cut]

/-- The value popped last is what the fragment left above the top of the stack. -/
theorem execute_ok {v : Value} (h : b.IsCodeOf f) (executed : (s.execute b).result = .ok v) :
    ∃ m, s.runOf f b.constants = .ok () m ∧ v = m.stack.justAbove := by
  rcases execute_cases (s := s) h with ⟨result, -⟩ | ⟨k, -, cut⟩
  · rw [executed] at result
    cases ran : s.runOf f b.constants with
    | ok _ m =>
        rw [ran] at result
        cases result
        exact ⟨m, rfl, rfl⟩
    | error e m =>
        rw [ran] at result
        cases result
  · rw [executed] at cut
    cases cut

/-- A session without a step limit ends as the fragment does. -/
theorem execute_eq (h : b.IsCodeOf f) (unlimited : s.config.maxSteps = none) :
    (s.execute b).result = answerOf (fun m => m.stack.justAbove) (s.runOf f b.constants) ∧
      (s.execute b).session = { s with globals := (stateOf (s.runOf f b.constants)).globals } := by
  rcases execute_cases (s := s) h with run | ⟨k, limited, -⟩
  · exact run
  · rw [unlimited] at limited
    cases limited

/-- What the answer to a program is, given what memory its code left. -/
def valueOf (p : Program) (m : Memory) : Option Value :=
  if Program.endsInExpression p then some m.stack.justAbove else none

/-- To evaluate a program is to compile it and to execute the code. -/
theorem evalProgram_of_compile (h : (s.compile p).result = .ok b) :
    (s.evalProgram p).result = (((s.compile p).session.execute b).result.map fun v =>
      if Program.endsInExpression p then some v else none) := by
  rw [evalProgram, Answer.andThen, h]
  rfl

/-- A program with an answer compiled, and its code came to a value popped last. -/
theorem execute_of_evalProgram {r : Option Value} (h : (s.evalProgram p).result = .ok r) :
    ∃ b v, (s.compile p).result = .ok b ∧ ((s.compile p).session.execute b).result = .ok v ∧
      r = if Program.endsInExpression p then some v else none := by
  cases compiled : (s.compile p).result with
  | error e =>
      rw [evalProgram, Answer.andThen, compiled] at h
      cases h
  | ok b =>
      rw [evalProgram_of_compile compiled] at h
      cases executed : ((s.compile p).session.execute b).result with
      | error e =>
          rw [executed] at h
          cases h
      | ok v =>
          rw [executed] at h
          cases h
          exact ⟨b, v, rfl, executed, rfl⟩

/-- What a session makes of a program that compiles to a fragment, if it runs it at once. -/
theorem evalProgram_cases (h : p.Compiled s.names s.pool f a) (sound : s.pool.Sound) :
    ((s.evalProgram p).result = answerOf (valueOf p) (s.runOf f a.pool.values) ∧
      (s.evalProgram p).session =
        { s.compiledTo a with globals := (stateOf (s.runOf f a.pool.values)).globals }) ∨
    ∃ k, s.config.maxSteps = some k ∧
      (s.evalProgram p).result = .error (.runtime (.stepLimitExceeded k)) := by
  obtain ⟨result, session⟩ := compile_eq h
  have same : (s.compiledTo a).runOf f (f.bytecode a.pool).constants =
      s.runOf f a.pool.values := rfl
  rcases execute_cases (s := s.compiledTo a) (h.isCodeOf sound)
    with ⟨executed, after⟩ | ⟨k, limited, cut⟩
  · refine .inl ?_
    rw [same] at executed after
    simp only [Session.evalProgram, Answer.andThen, result, session, Answer.map, executed, after,
      and_true]
    cases s.runOf f a.pool.values <;> rfl
  · refine .inr ⟨k, limited, ?_⟩
    simp only [Session.evalProgram, Answer.andThen, result, session, Answer.map, cut]
    rfl

/-- A session without a step limit ends as the fragment does. -/
theorem evalProgram_eq (h : p.Compiled s.names s.pool f a) (sound : s.pool.Sound)
    (unlimited : s.config.maxSteps = none) :
    (s.evalProgram p).result = answerOf (valueOf p) (s.runOf f a.pool.values) ∧
      (s.evalProgram p).session =
        { s.compiledTo a with globals := (stateOf (s.runOf f a.pool.values)).globals } := by
  rcases evalProgram_cases (s := s) h sound with run | ⟨k, limited, -⟩
  · exact run
  · rw [unlimited] at limited
    cases limited

end Session

end StackScript
