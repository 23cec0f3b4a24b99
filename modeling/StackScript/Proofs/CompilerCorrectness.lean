import StackScript.Proofs.SessionHistory

/-!
# Compiler Correctness

A session that executes what it just compiled ends as the program evaluates in the environment
that the session shows: with the same outcome, with the same value of the last statement, and
showing the environment that the evaluation comes to. This is so in every session that keeps to
itself, as long as its stack has room for the values that the evaluation holds at once.

## Main definitions

* `Answer.EndsAs`: an answer is what an evaluation says it should be.

## Main results

* `Session.execute_compile`: **compiler correctness**.
-/

namespace StackScript

/-- An answer to the execution of a program **ends as an evaluation** of it. On success it is the
value of the last statement, if this is an expression once nested blocks are dissolved; and
whether it succeeds or fails, the session shows the environment that the evaluation comes to. -/
def Answer.EndsAs (answer : Answer Value) (p : Program) :
    EStateM.Result RuntimeError Environment (Option Value) → Prop
  | .ok last env => answer.session.environment = env ∧
      ∃ v, answer.result = .ok v ∧ (Program.yieldsValue false p = true → last = some v)
  | .error e env => answer.session.environment = env ∧ answer.result = .error (.runtime e)

namespace Session

variable {s : Session} {issued : List Bytecode} {p : Program} {b : Bytecode}

/-- **Compiler correctness.** In a session that keeps to itself, to execute what was compiled is
to evaluate the program, if the stack has room for the values held at once. -/
theorem execute_compile (history : s.OwnHistory issued) (compiled : (s.compile p).result = .ok b)
    (room : Program.peak p s.environment ≤ s.config.stackSize) :
    ((s.compile p).session.execute b).EndsAs p (Program.evaluate none p s.environment) := by
  have order := history.orderly
  have sound := history.reachable.sound
  obtain ⟨f, a, compiles, rfl⟩ := exists_compiled compiled
  have soundNames := compiles.grown.soundNames sound.names
  have soundPool := compiles.grown.soundPool sound.pool
  have view : a.names.view s.globals = s.environment := order.view_grown compiles.grown.names
  have free : 0 + Program.peak p (a.names.view s.globals) ≤ s.config.stackSize := by
    rw [view, Nat.zero_add]
    exact room
  have parallel := compiles.rules.corresponds soundNames soundPool s.config.stackSize
    { globals := s.globals } none (Memory.recalls_none _) free
  obtain ⟨result, session⟩ :=
    execute_eq (s := s.compiledTo a) (compiles.isCodeOf sound.pool) order.unlimited
  have same : (s.compiledTo a).runOf f (f.bytecode a.pool).constants =
      f.exec a.pool.values s.config.stackSize { globals := s.globals } := rfl
  rw [(compile_eq compiles).2]
  rw [same] at result session
  rw [view] at parallel
  cases ran : f.exec a.pool.values s.config.stackSize { globals := s.globals } with
  | ok _ m =>
      rw [ran] at parallel result session
      obtain ⟨last, env, evaluated, -, shows, above⟩ := parallel.of_ok
      rw [evaluated, Answer.EndsAs, session]
      refine ⟨shows, m.stack.justAbove, result, fun yields => ?_⟩
      have some : last.isSome = true := by
        rw [Program.evaluate_isSome p evaluated]
        exact yields
      obtain ⟨w, rfl⟩ := Option.isSome_iff_exists.mp some
      rw [above w rfl]
  | error e m =>
      rw [ran] at parallel result session
      obtain ⟨env, evaluated, shows⟩ := parallel.of_error
      rw [evaluated, Answer.EndsAs, session]
      exact ⟨shows, result⟩

/-- A new session binds `a` to `1` and finds that `a < 2`. -/
theorem execute_compile_binding :
    let p : Program := [.binding default ⟨default, "a"⟩ (.integer default 1),
      .expression default (.binary default (.name ⟨default, "a"⟩) "<" (.integer default 2))]
    ∃ b, (Session.compile {} p).result = .ok b ∧
      ((Session.compile {} p).session.execute b).result = .ok (.boolean true) ∧
      ((Session.compile {} p).session.execute b).session.environment "a" = .integer 1 := by
  intro p
  obtain ⟨b, compiled⟩ : ∃ b, (Session.compile {} p).result = .ok b := ⟨_, rfl⟩
  have room : Program.peak p (Session.environment {}) ≤ 2048 := by decide
  obtain ⟨shows, v, result, last⟩ := execute_compile (.new 2048) compiled room
  cases last rfl
  exact ⟨b, compiled, result, congrFun shows "a"⟩

end Session

end StackScript
