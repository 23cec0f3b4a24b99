import StackScript.Proofs.CompilerCorrectness
import StackScript.Proofs.References

/-!
# What a Session Keeps

Whatever is asked of a session, in whatever order and with whatever outcome, the slots of its
names are numbered without gaps, names keep their slots and constants their places, and what does
not parse or compile changes nothing at all. So bytecode that was compiled once can be executed at
any later moment: it still reads and writes the globals of the names that its program used.

## Main definitions

* `Session.Operation`, `Session.answer`: the operations, and what comes of one.
* `Session.perform`: a session after operations.
* `Session.Numbered`, `Session.Keeps`: **what holds of every session**, and from one to a later one.

## Main results

* `Session.widens_answer`, `Session.widens_perform`: tables after an operation, and after any
  number of them.
* `Session.perform_keeps`: **the state of sessions**.
-/

namespace StackScript

namespace Session

/-- An **operation** of a session. -/
inductive Operation
  /-- Reads, compiles and runs a text. -/
  | eval (text : String)
  /-- Compiles and runs a program. -/
  | evalProgram (p : Program)
  /-- Reads and compiles a text. -/
  | compileText (text : String)
  /-- Compiles a program. -/
  | compile (p : Program)
  /-- Runs a bytecode, wherever it comes from. -/
  | execute (b : Bytecode)

/-- What comes of an operation, apart from its value. -/
def answer (s : Session) : Operation → Answer Unit
  | .eval text => (s.eval text).map fun _ => ()
  | .evalProgram p => (s.evalProgram p).map fun _ => ()
  | .compileText text => (s.compileText text).map fun _ => ()
  | .compile p => (s.compile p).map fun _ => ()
  | .execute b => (s.execute b).map fun _ => ()

/-- The session after operations, any of which may have failed. -/
def perform (s : Session) (ops : List Operation) : Session :=
  ops.foldl (fun s op => (s.answer op).session) s

/-- A session whose names are **numbered**: their slots are pairwise distinct and are exactly those
below the number of names. Both names and constants can be told apart by an operand. -/
structure Numbered (s : Session) : Prop where
  distinct : ∀ a b slot, s.names.slot? a = some slot → s.names.slot? b = some slot → a = b
  slots : ∀ slot, (∃ name, s.names.slot? name = some slot) ↔ slot < s.names.size
  names_le : s.names.size ≤ 65536
  constants_le : s.pool.size ≤ 65536

/-- A session **keeps** the state of an earlier one: names have the slots they had, and constants
were only added at the end. -/
structure Keeps (s s' : Session) : Prop where
  slot : ∀ name slot, s.names.slot? name = some slot → s'.names.slot? name = some slot
  constants : s.pool.values.toList <+: s'.pool.values.toList

end Session

/-- An error of a text or a program that is **rejected** before any of it runs. -/
def EvalError.IsRejection : EvalError → Prop
  | parse _ | compile _ => True
  | runtime _ => False

namespace Session

variable {s s' : Session} {p : Program} {b : Bytecode} {e : EvalError}

/-! ### Tables -/

/-- The names and constants of a session, as an assembly without instructions. -/
def tables (s : Session) : Assembly := .start s.names s.pool

/-- Compiling widens the tables if it succeeds, and leaves them as they are if it does not. -/
theorem widens_compile (s : Session) (p : Program) :
    s.tables.Widens none (s.compile p).session.tables := by
  cases result : (s.compile p).result with
  | error e =>
      rw [session_compile_of_error result]
      exact .of_eq rfl rfl
  | ok b =>
      obtain ⟨f, a, compiled, -⟩ := exists_compiled result
      obtain ⟨begun, succeeded⟩ := compiled.compile
      have widens := p.widens_assembleAfter s.tables
      rw [show p.assembleAfter s.tables = _ from succeeded] at widens
      rw [(compile_eq compiled).2]
      exact widens.trans (.of_eq rfl rfl)

/-- Executing leaves the tables as they are. -/
theorem tables_execute (s : Session) (b : Bytecode) : (s.execute b).session.tables = s.tables := by
  rw [session_execute]
  rfl

/-- Evaluating a program widens the tables at most. -/
theorem widens_evalProgram (s : Session) (p : Program) :
    s.tables.Widens none (s.evalProgram p).session.tables := by
  have compiled := s.widens_compile p
  rw [session_evalProgram]
  split
  · rw [tables_execute]
    exact compiled
  · exact compiled

/-- What is done with the program of a text is done if the text holds one, and otherwise the
session does not change. -/
theorem andThen_parse_cases {α : Type} (s : Session) (text : String)
    (next : Program → Session → Answer α) :
    (((s.parse text).andThen next).session = s ∧
      ∃ errors, ((s.parse text).andThen next).result = .error (.parse errors)) ∨
    ∃ p, ((s.parse text).andThen next).session = (next p s).session ∧
      ((s.parse text).andThen next).result = (next p s).result := by
  rw [Answer.andThen]
  cases read : (s.parse text).result with
  | ok p => exact .inr ⟨p, rfl, rfl⟩
  | error e =>
      refine .inl ⟨rfl, ?_⟩
      rw [parse] at read
      dsimp only at read
      split at read
      · cases read
      · cases read
        exact ⟨_, rfl⟩

/-- **An operation widens the tables.** -/
theorem widens_answer (s : Session) (op : Operation) :
    s.tables.Widens none (s.answer op).session.tables := by
  have ofText {α : Type} {text : String} {next : Program → Session → Answer α}
      (widens : ∀ p, s.tables.Widens none (next p s).session.tables) :
      s.tables.Widens none ((s.parse text).andThen next).session.tables := by
    rcases s.andThen_parse_cases text next with ⟨same, -⟩ | ⟨p, same, -⟩
    · rw [same]
      exact .of_eq rfl rfl
    · rw [same]
      exact widens p
  cases op with
  | eval text =>
      change s.tables.Widens none (s.eval text).session.tables
      exact ofText fun p => s.widens_evalProgram p
  | evalProgram p => exact s.widens_evalProgram p
  | compileText text =>
      change s.tables.Widens none (s.compileText text).session.tables
      exact ofText fun p => s.widens_compile p
  | compile p => exact s.widens_compile p
  | execute b =>
      change s.tables.Widens none (s.execute b).session.tables
      rw [tables_execute]
      exact .of_eq rfl rfl

/-- So does any sequence of operations. -/
theorem widens_perform (s : Session) (ops : List Operation) :
    s.tables.Widens none (s.perform ops).tables := by
  induction ops generalizing s with
  | nil => exact .of_eq rfl rfl
  | cons op rest ih => exact (s.widens_answer op).trans (ih _)

/-- Where tables were only widened, the state of the session was kept. -/
theorem Keeps.of_widens (widens : s.tables.Widens none s'.tables) : s.Keeps s' where
  slot _ _ bound := widens.names.keeps bound
  constants := by
    have stays := widens.pool.stays
    rw [List.prefix_iff_getElem?]
    intro k below
    have inside : k < s.pool.values.size := below
    have kept : s'.pool.values[k]? = s.pool.values[k]? := stays k inside
    rw [Array.getElem?_toList, kept, Array.getElem?_eq_getElem inside]
    rfl

/-! ### Rejection -/

/-- What is made of a value has no part in an error. -/
theorem result_of_map {α β : Type} {answer : Answer α} {f : α → β}
    (failed : (answer.map f).result = .error e) : answer.result = .error e := by
  rw [Answer.map] at failed
  cases result : answer.result with
  | ok v =>
      rw [result] at failed
      cases failed
  | error e' =>
      rw [result] at failed
      cases failed
      rfl

/-- An execution fails with no other errors than those of the machine. -/
theorem not_isRejection_of_execute (failed : (s.execute b).result = .error e) :
    ¬ e.IsRejection := by
  rw [Session.execute] at failed
  split at failed
  · cases failed
  · cases failed
    exact id

/-- A program that is rejected leaves the session as it was. -/
theorem session_evalProgram_of_rejection (rejected : e.IsRejection)
    (failed : (s.evalProgram p).result = .error e) : (s.evalProgram p).session = s := by
  rw [session_evalProgram]
  cases compiled : (s.compile p).result with
  | error e' => exact session_compile_of_error compiled
  | ok b =>
      rw [evalProgram_of_compile compiled] at failed
      have executed : ((s.compile p).session.execute b).result = .error e := result_of_map failed
      exact absurd rejected (not_isRejection_of_execute executed)

/-- **What is rejected changes nothing.** -/
theorem session_answer_of_rejection {op : Operation} (rejected : e.IsRejection)
    (failed : (s.answer op).result = .error e) : (s.answer op).session = s := by
  have ofText {α : Type} {text : String} {next : Program → Session → Answer α}
      (keeps : ∀ p, (next p s).result = .error e → (next p s).session = s)
      (failed : ((s.parse text).andThen next).result = .error e) :
      ((s.parse text).andThen next).session = s := by
    rcases s.andThen_parse_cases text next with ⟨same, -⟩ | ⟨p, same, result⟩
    · exact same
    · rw [same]
      exact keeps p (result ▸ failed)
  cases op with
  | eval text =>
      have failed : (s.eval text).result = .error e := result_of_map failed
      change (s.eval text).session = s
      exact ofText (fun p => session_evalProgram_of_rejection rejected) failed
  | evalProgram p => exact session_evalProgram_of_rejection rejected (result_of_map failed)
  | compileText text =>
      have failed : (s.compileText text).result = .error e := result_of_map failed
      change (s.compileText text).session = s
      exact ofText (fun p => session_compile_of_error) failed
  | compile p => exact session_compile_of_error (result_of_map failed)
  | execute b => exact absurd rejected (not_isRejection_of_execute (result_of_map failed))

/-! ### Every session -/

/-- Operations lead from reachable sessions to reachable ones. -/
theorem Reachable.perform (reachable : s.Reachable) (ops : List Operation) :
    (s.perform ops).Reachable := by
  induction ops generalizing s with
  | nil => exact reachable
  | cons op rest ih =>
      refine ih ?_
      cases op with
      | eval text => exact .eval text reachable
      | evalProgram p => exact .evalProgram p reachable
      | compileText text =>
          change (s.compileText text).session.Reachable
          rcases s.andThen_parse_cases text (fun p s => s.compile p) with ⟨same, -⟩ | ⟨p, same, -⟩
          · rw [compileText, same]
            exact reachable
          · rw [compileText, same]
            exact .compile p reachable
      | compile p => exact .compile p reachable
      | execute b => exact .execute b reachable

/-- The names of a session are numbered, whatever it was asked to do. -/
theorem numbered_perform (config : Config) (ops : List Operation) :
    (Session.perform { config } ops).Numbered := by
  have sound := (Reachable.perform (.new config) ops).sound
  have dense := (widens_perform { config } ops).dense NameTable.dense_empty
  refine ⟨fun a b slot => sound.names.injective, fun slot => ⟨?_, dense slot⟩,
    sound.names.size_le, sound.pool.size_le⟩
  rintro ⟨name, bound⟩
  exact sound.names.slot_lt bound

/-! ### Bytecode that was compiled before -/

/-- Bytecode still denotes, in a later session, what its program refers to. -/
theorem denotes_of_compile (sound : s.Sound) (compiled : (s.compile p).result = .ok b)
    (later : (s.compile p).session.tables.Widens none s'.tables) :
    List.Forall₂ (Reference.Denotes s'.names s'.pool) (Program.references p)
      (referring b.code) := by
  obtain ⟨f, a, compiles, rfl⟩ := exists_compiled compiled
  have soundNames := compiles.grown.soundNames sound.names
  have soundPool := compiles.grown.soundPool sound.pool
  have code : referring (f.bytecode a.pool).code = f.referring := by
    rw [Fragment.bytecode, referring_codeOf, f.filter_layout]
  rw [(compile_eq compiles).2] at later
  rw [code]
  refine compiles.rules.refers.imp fun r i wraps => ?_
  have denotes : r.Denotes a.names a.pool i := by
    refine wraps.denotes fun place found _ => ?_
    cases r with
    | literal v => exact Nat.lt_of_lt_of_le (soundPool.index_lt found) soundPool.size_le
    | read name => exact soundNames.inReach found
    | write name => exact soundNames.inReach found
  exact denotes.mono later.names later.pool

/-- A session that executes the code of a program, under names that came to be more, ends as the
program evaluates in the environment that the session shows. -/
theorem execute_later (sound : s.Sound) (compiled : (s.compile p).result = .ok b)
    (later : (s.compile p).session.tables.Widens none s'.tables) (soundNames : s'.names.Sound)
    (unlimited : s'.config.maxSteps = none)
    (room : Program.peak p s'.environment ≤ s'.config.stackSize) :
    (s'.execute b).EndsAs p (Program.evaluate none p s'.environment) := by
  obtain ⟨f, a, compiles, rfl⟩ := exists_compiled compiled
  rw [(compile_eq compiles).2] at later
  have soundPool := compiles.grown.soundPool sound.pool
  have rules : Translation s'.names a.pool (.statements p) f :=
    Translation.mono compiles.rules later.names (.refl _)
  have free : 0 + Program.peak p (s'.names.view s'.globals) ≤ s'.config.stackSize := by
    rw [Nat.zero_add]
    exact room
  have parallel := rules.corresponds soundNames soundPool s'.config.stackSize
    { globals := s'.globals } none (Memory.recalls_none _) free
  obtain ⟨result, session⟩ := execute_eq (s := s') (compiles.isCodeOf sound.pool) unlimited
  have same : s'.runOf f (f.bytecode a.pool).constants =
      f.exec a.pool.values s'.config.stackSize { globals := s'.globals } := rfl
  rw [same] at result session
  change Parallel _ _ _ (Program.evaluate none p s'.environment) at parallel
  cases ran : f.exec a.pool.values s'.config.stackSize { globals := s'.globals } with
  | ok _ m =>
      rw [ran] at parallel result session
      obtain ⟨last, env, evaluated, -, shows, above⟩ := parallel.of_ok
      rw [evaluated, Answer.EndsAs, session]
      refine ⟨shows, m.stack.justAbove, result, fun yields => ?_⟩
      have some : last.isSome = true := by
        rw [Program.evaluate_isSome p evaluated]
        exact yields
      obtain ⟨w, rfl⟩ := Option.isSome_iff_exists.mp some
      rw [above w rfl]
  | error e m =>
      rw [ran] at parallel result session
      obtain ⟨env, evaluated, shows⟩ := parallel.of_error
      rw [evaluated, Answer.EndsAs, session]
      exact ⟨shows, result⟩

/-- **The state of sessions.** After any operations, in any order and with any outcomes, the names
of a session are numbered without gaps; a further operation changes neither the slot of a name
nor a constant that is there, and nothing at all if it is rejected. Bytecode that is compiled then
and executed after any operations more has, as its operands, the very slots that the names of its
program have in that session; and if no limit is in its way, it ends as the program evaluates in
the environment that the session shows. -/
theorem perform_keeps (config : Config) (ops : List Operation) :
    (Session.perform { config } ops).Numbered ∧
    (∀ op, (Session.perform { config } ops).Keeps
        ((Session.perform { config } ops).answer op).session ∧
      ∀ e, ((Session.perform { config } ops).answer op).result = .error e → e.IsRejection →
        ((Session.perform { config } ops).answer op).session = Session.perform { config } ops) ∧
    (∀ p b more s', ((Session.perform { config } ops).compile p).result = .ok b →
      s' = ((Session.perform { config } ops).compile p).session.perform more →
      List.Forall₂ (Reference.Denotes s'.names s'.pool) (Program.references p)
        (referring b.code) ∧
      (s'.config.maxSteps = none → Program.peak p s'.environment ≤ s'.config.stackSize →
        (s'.execute b).EndsAs p (Program.evaluate none p s'.environment))) := by
  have reachable : (Session.perform { config } ops).Reachable := .perform (.new config) ops
  refine ⟨numbered_perform config ops, fun op => ⟨.of_widens (widens_answer _ op),
    fun e failed rejected => session_answer_of_rejection rejected failed⟩, ?_⟩
  rintro p b more _ compiled rfl
  have later := widens_perform ((Session.perform { config } ops).compile p).session more
  have sound := (Reachable.perform (.compile p reachable) more).sound
  exact ⟨denotes_of_compile reachable.sound compiled later,
    execute_later reachable.sound compiled later sound.names⟩

/-- A new session compiles that `a` is `1`, compiles another binding, and then executes the
first. -/
theorem perform_keeps_binding :
    let p : Program := [.binding default ⟨default, "a"⟩ (.integer default 1)]
    let other := Operation.compile [.binding default ⟨default, "b"⟩ (.integer default 2)]
    ∃ b, (Session.compile {} p).result = .ok b ∧ referring b.code = [.constant 0, .store 0] ∧
      (((Session.compile {} p).session.perform [other]).execute b).session.environment "a" =
        .integer 1 := by
  intro p other
  obtain ⟨b, compiled, code⟩ :
    ∃ b, (Session.compile {} p).result = .ok b ∧ referring b.code = [.constant 0, .store 0] :=
    ⟨_, rfl, by decide⟩
  have room : Program.peak p ((Session.compile {} p).session.perform [other]).environment ≤ 2048 :=
    by decide
  obtain ⟨-, -, compiles⟩ := perform_keeps {} []
  obtain ⟨-, executes⟩ := compiles p b [other] _ compiled rfl
  obtain ⟨shows, -⟩ := executes rfl room
  exact ⟨b, compiled, code, congrFun shows "a"⟩

end Session

end StackScript
