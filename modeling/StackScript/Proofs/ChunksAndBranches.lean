import StackScript.Proofs.SessionHistory

/-!
# The Value of Statements, by Themselves and in a Branch

The same statements can be evaluated as a program of their own or as the branch of a conditional
whose condition is `true`. In either case their value is that of the last expression statement,
or there is none, and `null` stands in for it in the branch. But there are two notions of the
last statement: a program looks at the last statement of the list, and of any block that it is;
a branch dissolves all blocks into the list. The two disagree where an expression is followed by
nothing but empty blocks.

## Main definitions

* `Program.ifTrue`: the conditional whose branch is the given statements.

## Main results

* `Session.evalProgram_ifTrue`: **what a branch makes of statements**, and when this is what a
  program makes of them.
* `Session.evalProgram_ifTrue_differs`: it need not be.
-/

namespace StackScript

open Assembler (Lays lays_emit lays_pure lays_begin)
open Fragment (single)

/-- The expression statement that evaluates statements in a branch which is always taken. -/
def Program.ifTrue (tokens : Fin 4 → Token) (p : Program) : Program :=
  [.expression (tokens 0) (.conditional (tokens 1) (.boolean (tokens 2) true)
    (.mk (tokens 3) p) none)]

/-- The code around a branch that is always taken. -/
def Fragment.ifTrue (c : Fragment) : Fragment :=
  single (.boolean true) ++ .choice c (single .null) .done ++ single .pop

/-- The code of a branch, given that of its statements: the last value is kept, or `null` stands
in for it. -/
inductive Fragment.Keeps (p : Program) : Fragment → Fragment → Prop
  | value {c : Fragment} : Program.yieldsValue false p = true → Keeps p (c ++ single .pop) c
  | null {f : Fragment} : Program.yieldsValue false p = false → Keeps p f (f ++ single .null)

variable {p : Program} {f c : Fragment}

/-- Statements that compile have code as a branch. -/
theorem Translation.exists_keeps {names : NameTable} {pool : ConstantPool}
    (h : Translation names pool (.statements p) f) : ∃ c, f.Keeps p c := by
  cases yields : Program.yieldsValue false p with
  | true =>
      rcases h.ends_in_pop yields with ⟨c, rfl⟩ | ⟨-, impossible⟩
      · exact ⟨c, .value yields⟩
      · cases impossible
  | false => exact ⟨_, .null yields⟩

/-- Where the conditional compiles at all, its code is that of the statements as a branch, and
its names and constants are those of the statements. -/
theorem Program.Compiled.ifTrue {names : NameTable} {pool : ConstantPool} {a : Assembly}
    {tokens : Fin 4 → Token} (h : p.Compiled names pool f a) (keeps : f.Keeps p c)
    (compiled : ((Program.ifTrue tokens p).compile names pool).outcome = .ok ()) :
    (Program.ifTrue tokens p).Compiled names pool c.ifTrue a := by
  have branch : Lays (Block.assembleBranch (.mk (tokens 3) p)) (.start names pool) c a := by
    rw [Block.assembleBranch_eq]
    cases keeps with
    | value yields =>
        rw [yields]
        exact h.lays.unemit
    | null yields =>
        rw [yields]
        exact h.lays.append (lays_emit .null a)
  have rules : Translation a.names a.pool (.branch (.mk (tokens 3) p)) c := by
    cases keeps with
    | value yields => exact .keptValue h.rules yields
    | null yields => exact .nullValue h.rules yields
  have value : Lays (Expr.assemble (.conditional (tokens 1) (.boolean (tokens 2) true)
      (.mk (tokens 3) p) none)) (.start names pool)
      (single (.boolean true) ++ .choice c (single .null) .done) a := by
    rw [Expr.assemble, Expr.assemble]
    exact (lays_emit (.boolean true) _).append (branch.choice (lays_emit .null a))
  have lays : Lays (Program.assemble (Program.ifTrue tokens p)) (.start names pool) c.ifTrue a := by
    rw [Program.ifTrue, Program.assemble, Statement.assemble, Program.assemble]
    rw [← Fragment.append_done c.ifTrue]
    exact .append (.begun (value.append (lays_emit .pop a))) (lays_pure a)
  have whole : Translation a.names a.pool (.statements (Program.ifTrue tokens p))
      (c.ifTrue ++ .done) :=
    .cons (.expression (.choiceOrNull (.boolean (tokens 2) true) rules)) .nil
  rw [Fragment.append_done] at whole
  exact ⟨lays, h.grown, whole, (lays.laid rfl rfl (assemble_of_compile compiled)).1⟩

/-! ### Running the branch -/

variable {constants : Array Value} {limit : Nat}

/-- Where there is room for the condition, the branch runs on what the memory held. -/
theorem Fragment.exec_ifTrue (c : Fragment) {m : Memory} (room : m.height < limit) :
    c.ifTrue.exec constants limit m =
      (c ++ single .pop).exec constants limit
        ⟨(m.stack.push (.boolean true)).drop (.boolean true), m.globals⟩ := by
  have pushed : (Instruction.boolean true).act constants limit m =
      .ok () { m with stack := m.stack.push (.boolean true) } := by
    change Memory.push limit (.boolean true) m = _
    rw [Memory.push, if_pos room]
  rw [ifTrue, exec_append, exec_append, exec_single, exec_choice, exec_append, bind_assoc,
    bind_run, pushed]
  dsimp only
  rw [bind_assoc, bind_run,
    Memory.pop_of_top (m := { m with stack := m.stack.push (.boolean true) })
      (Stack.top?_push _ _)]
  rfl

/-- Where there is no room for the condition, the stack overflows. -/
theorem Fragment.exec_ifTrue_of_full (c : Fragment) {m : Memory} (full : ¬ m.height < limit) :
    c.ifTrue.exec constants limit m = .error (.stackOverflow limit) m := by
  have overflowed : (Instruction.boolean true).act constants limit m =
      .error (.stackOverflow limit) m := by
    change Memory.push limit (.boolean true) m = _
    rw [Memory.push, if_neg full]
  rw [ifTrue, exec_append, exec_append, exec_single, bind_assoc, bind_run, overflowed]

/-- Where the statements succeed, the branch leaves the value that they discard last, or `null`
if they discard none then, unless there is no room for `null`. -/
theorem Fragment.Keeps.exec {m m' n : Memory} (keeps : f.Keeps p c) (agrees : m.Agrees m')
    (ran : f.exec constants limit m = .ok () n) :
    (∃ n', (c ++ single .pop).exec constants limit m' = .ok () n' ∧ n'.stack.justAbove =
      if Program.yieldsValue false p then n.stack.justAbove else .null) ∨
    ∃ t, (c ++ single .pop).exec constants limit m' = .error (.stackOverflow limit) t := by
  cases keeps with
  | value yields =>
      have parallel := c.parallel_exec_pop constants limit agrees
      rw [ran] at parallel
      obtain ⟨_, n', ran', -, above⟩ := parallel.of_ok
      refine .inl ⟨n', ran', ?_⟩
      rw [if_pos yields, above]
  | null yields =>
      have parallel := f.parallel_exec constants limit agrees
      rw [ran] at parallel
      obtain ⟨_, n', ran', -⟩ := parallel.of_ok
      have behind : (f ++ single .null ++ single .pop).exec constants limit m' =
          (do Memory.push limit .null; let _ ← Memory.pop) n' := by
        rw [append_assoc, exec_append, bind_run, ran', exec_append, exec_single, exec_single]
        rfl
      rw [behind, bind_run, Memory.push]
      by_cases room : n'.height < limit
      · rw [if_pos room]
        dsimp only
        rw [bind_run, Memory.pop_of_top (m := { n' with stack := n'.stack.push .null })
          (Stack.top?_push _ _)]
        refine .inl ⟨_, rfl, ?_⟩
        rw [yields]
        rfl
      · rw [if_neg room]
        exact .inr ⟨n', rfl⟩

namespace Session

variable {s : Session} {b : Bytecode} {tokens : Fin 4 → Token} {r : Option Value}

/-- In a session, too, the branch leaves what the statements discard last, or `null`, unless it
overflows the stack. -/
theorem runOf_ifTrue {n : Memory} (keeps : f.Keeps p c) (ran : s.runOf f constants = .ok () n) :
    (∃ n', s.runOf c.ifTrue constants = .ok () n' ∧ n'.stack.justAbove =
      if Program.yieldsValue false p then n.stack.justAbove else .null) ∨
    ∃ t, s.runOf c.ifTrue constants = .error (.stackOverflow s.config.stackSize) t := by
  by_cases room : Memory.height { globals := s.globals } < s.config.stackSize
  · have agrees : Memory.Agrees { globals := s.globals }
        ⟨(Stack.push {} (.boolean true)).drop (.boolean true), s.globals⟩ := ⟨rfl, rfl⟩
    have entered : s.runOf c.ifTrue constants = _ := c.exec_ifTrue room
    rw [entered]
    exact keeps.exec agrees ran
  · exact .inr ⟨_, c.exec_ifTrue_of_full room⟩

/-- **What a branch makes of statements.** Where they succeed as a program of their own and the
conditional compiles and stays within its limits, its value is the one that they discarded last,
if blocks are dissolved, and `null` otherwise. This is what the program yields, or `null` if it
yields nothing, just when the program ends in an expression, or no value is discarded last, or
that value is `null` itself. -/
theorem evalProgram_ifTrue (reachable : s.Reachable) (chunk : (s.evalProgram p).result = .ok r)
    (compiled : (s.compile (Program.ifTrue tokens p)).result = .ok b)
    (roomy : ∀ k, (s.evalProgram (Program.ifTrue tokens p)).result ≠
      .error (.runtime (.stackOverflow k)))
    (uncut : ∀ k, (s.evalProgram (Program.ifTrue tokens p)).result ≠
      .error (.runtime (.stepLimitExceeded k))) :
    ∃ b' u v, (s.compile p).result = .ok b' ∧
      ((s.compile p).session.execute b').result = .ok u ∧
      (s.evalProgram (Program.ifTrue tokens p)).result = .ok (some v) ∧
      v = (if Program.yieldsValue false p then u else .null) ∧
      (v = r.getD .null ↔ Program.endsInExpression p = true ∨
        Program.yieldsValue false p = false ∨ u = .null) := by
  have sound := reachable.sound.pool
  obtain ⟨b', u, issued, executed, answer⟩ := execute_of_evalProgram chunk
  obtain ⟨f, a, compiles, rfl⟩ := exists_compiled issued
  obtain ⟨c, keeps⟩ := compiles.rules.exists_keeps
  have session := (compile_eq compiles).2
  obtain ⟨n, ran, rfl⟩ := execute_ok (compiles.isCodeOf sound) (session ▸ executed)
  have branch := compiles.ifTrue keeps (outcome_of_compile compiled)
  rcases evalProgram_cases branch sound with ⟨whole, -⟩ | ⟨k, -, cut⟩
  · rcases runOf_ifTrue keeps ran with ⟨n', ran', kept⟩ | ⟨t, overflowed⟩
    · have value : s.runOf c.ifTrue a.pool.values = .ok () n' := ran'
      rw [value] at whole
      refine ⟨_, _, n'.stack.justAbove, issued, executed, whole, kept, ?_⟩
      rw [kept, answer]
      cases ends : Program.endsInExpression p with
      | true => simp [Program.yieldsValue_of_endsInExpression p ends false]
      | false => cases Program.yieldsValue false p <;> simp
    · have failed : s.runOf c.ifTrue a.pool.values =
          .error (.stackOverflow s.config.stackSize) t := overflowed
      rw [failed] at whole
      exact absurd whole (roomy _)
  · exact absurd cut (uncut k)

/-- A binding has no value, so a branch that is one has the value `null`. -/
theorem evalProgram_ifTrue_binding :
    let p : Program := [.binding default ⟨default, "a"⟩ (.integer default 1)]
    (Session.evalProgram {} p).result = .ok none ∧
      (Session.evalProgram {} (Program.ifTrue (fun _ => default) p)).result =
        .ok (some .null) := by
  intro p
  have chunk : (Session.evalProgram {} p).result = .ok none :=
    eq_ok_of_toOption (by decide +kernel)
  obtain ⟨b, compiled⟩ : ∃ b,
    (Session.compile {} (Program.ifTrue (fun _ => default) p)).result = .ok b := ⟨_, rfl⟩
  have succeeds : (Session.evalProgram {} (Program.ifTrue (fun _ => default) p)).result =
      .ok (some .null) := eq_ok_of_toOption (by decide +kernel)
  have fails (e : EvalError) :
      (Session.evalProgram {} (Program.ifTrue (fun _ => default) p)).result ≠ .error e := by
    rw [succeeds]
    nofun
  obtain ⟨b', u, v, -, -, branch, -, agree⟩ :=
    evalProgram_ifTrue (.new {}) chunk compiled (fun k => fails _) (fun k => fails _)
  have null : v = .null := agree.mpr (.inr (.inl rfl))
  exact ⟨chunk, null ▸ branch⟩

/-- **The two notions differ**: a program in which an empty block follows an expression yields
nothing, but as a branch it has the value of the expression. -/
theorem evalProgram_ifTrue_differs :
    let p : Program := [.expression default (.integer default 1), .block (.mk default [])]
    (Session.evalProgram {} p).result.toOption = some none ∧
      (Session.evalProgram {} (Program.ifTrue (fun _ => default) p)).result.toOption =
        some (some (.integer 1)) := by
  decide +kernel

end Session

end StackScript
