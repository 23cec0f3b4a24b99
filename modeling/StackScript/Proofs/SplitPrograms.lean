import StackScript.Proofs.SessionHistory

/-!
# Splitting a Program over Evaluations

To evaluate the two parts of a program one after the other in a session is to evaluate the whole
of it. The parts become the same fragments either way, with jump targets that differ and with
constants that the whole program has already when its first part runs; the second part runs on an
empty stack either way, over slots that may have held other values.

## Main results

* `Session.evalProgram_append`: **splitting changes nothing**.
-/

namespace StackScript

/-- What statements that end in an expression discard last does not depend on what was left
behind above the top of the stack. -/
theorem Translation.parallel_exec {names : NameTable} {pool : ConstantPool} {p : Program}
    {f : Fragment} (h : Translation names pool (.statements p) f) (constants : Array Value)
    (limit : Nat) {m n : Memory} (agrees : m.Agrees n) :
    Parallel (fun _ m' _ n' => m'.Agrees n' ∧
        (Program.endsInExpression p = true → m'.stack.justAbove = n'.stack.justAbove))
      Memory.Agrees (f.exec constants limit m) (f.exec constants limit n) := by
  cases ends : Program.endsInExpression p with
  | false => exact .imp (f.parallel_exec constants limit agrees) fun _ _ _ _ same => ⟨same, nofun⟩
  | true =>
      have discards := Program.yieldsValue_of_endsInExpression p ends false
      rcases h.ends_in_pop discards with ⟨g, rfl⟩ | ⟨-, impossible⟩
      · exact .imp (g.parallel_exec_pop constants limit agrees) fun _ _ _ _ same =>
          ⟨same.1, fun _ => same.2⟩
      · cases impossible

namespace Session

/-- Where two runs of the code of a program end in parallel, the answers are the same, and so are
the globals. -/
theorem answers_agree {p : Program} {r r' : EStateM.Result RuntimeError Memory Unit}
    (h : Parallel (fun _ m _ n => m.Agrees n ∧
        (Program.endsInExpression p = true → m.stack.justAbove = n.stack.justAbove))
      Memory.Agrees r r') :
    answerOf (valueOf p) r = answerOf (valueOf p) r' ∧
      (stateOf r).globals = (stateOf r').globals := by
  cases r with
  | error e m =>
      obtain ⟨n, rfl, agrees⟩ := h.of_error
      exact ⟨rfl, agrees.globals⟩
  | ok _ m =>
      obtain ⟨_, n, rfl, agrees, above⟩ := h.of_ok
      refine ⟨?_, agrees.globals⟩
      rw [answerOf, answerOf, valueOf, valueOf]
      split
      · next ends => rw [above ends]
      · rfl

/-- The value of a program is that of its second part, unless this is empty. -/
theorem valueOf_append (p : Program) {q : Program} (nonempty : q ≠ []) :
    valueOf (p ++ q) = valueOf q := by
  funext m
  rw [valueOf, valueOf, Program.endsInExpression_append p nonempty]

variable {s : Session} {p q : Program} {b : Bytecode} {f g : Fragment} {a₁ a₂ : Assembly}

/-- The whole runs as its parts do in sequence: over the constants of the whole, the first part
runs as over its own. -/
theorem runOf_append (first : p.Compiled s.names s.pool f a₁)
    (second : q.Compiled a₁.names a₁.pool g a₂) (sound : s.pool.Sound) :
    s.runOf (f ++ g) a₂.pool.values =
      match s.runOf f a₁.pool.values with
      | .ok _ m => g.exec a₂.pool.values s.config.stackSize m
      | .error e m => .error e m := by
  have balanced := first.rules.balanced (first.grown.soundPool sound) 0
  rw [runOf, Fragment.exec_append, bind_run, balanced.exec_congr second.grown.pool.stays, runOf]
  cases f.exec a₁.pool.values s.config.stackSize { globals := s.globals } <;> rfl

/-- Behind a part the stack is empty, as it is before the next one, except for what was left
behind in its slots. -/
theorem agrees_of_runOf {m : Memory} (first : p.Compiled s.names s.pool f a₁)
    (sound : s.pool.Sound) (ran : s.runOf f a₁.pool.values = .ok () m) :
    Memory.Agrees { globals := m.globals } m := by
  have balanced := first.rules.balanced (first.grown.soundPool sound) 0
  have ends := balanced.ends_exec s.config.stackSize (m := { globals := s.globals }) rfl
  change Ends _ _ (s.runOf f a₁.pool.values) at ends
  rw [ran] at ends
  exact ⟨(Array.size_eq_zero_iff.mp ends).symm, rfl⟩

/-- **Splitting changes nothing.** Where a program compiles as a whole, its parts compile one
after the other; and if the first part succeeds, the second one comes to the answer of the whole
and to the same session. If the first part fails, the whole fails with the same error and leaves
the same globals. -/
theorem evalProgram_append (reachable : s.Reachable) (unlimited : s.config.maxSteps = none)
    (nonempty : q ≠ []) (compiled : (s.compile (p ++ q)).result = .ok b) :
    (∀ r, (s.evalProgram p).result = .ok r →
      ((s.evalProgram p).session.evalProgram q).result = (s.evalProgram (p ++ q)).result ∧
      ((s.evalProgram p).session.evalProgram q).session = (s.evalProgram (p ++ q)).session) ∧
    (∀ e, (s.evalProgram p).result = .error e →
      (s.evalProgram (p ++ q)).result = .error e ∧
      (s.evalProgram (p ++ q)).session.globals = (s.evalProgram p).session.globals) := by
  have sound := reachable.sound.pool
  obtain ⟨f, g, a₁, a₂, first, second, whole⟩ :=
    Program.exists_compiled_append (outcome_of_compile compiled)
  obtain ⟨result, session⟩ := evalProgram_eq first sound unlimited
  obtain ⟨resultWhole, sessionWhole⟩ := evalProgram_eq whole sound unlimited
  rw [runOf_append first second sound] at resultWhole sessionWhole
  cases ran : s.runOf f a₁.pool.values with
  | error e m =>
      rw [ran] at result session resultWhole sessionWhole
      rw [result, session, resultWhole, sessionWhole]
      refine ⟨nofun, ?_⟩
      rintro _ ⟨⟩
      exact ⟨rfl, rfl⟩
  | ok _ m =>
      rw [ran] at result session resultWhole sessionWhole
      have sound₁ := first.grown.soundPool sound
      have agrees := agrees_of_runOf first sound ran
      have parallel := second.rules.parallel_exec a₂.pool.values s.config.stackSize agrees
      obtain ⟨same, globals⟩ := answers_agree parallel
      obtain ⟨result₂, session₂⟩ := evalProgram_eq
        (s := { s.compiledTo a₁ with globals := m.globals }) second sound₁ unlimited
      dsimp only at resultWhole sessionWhole
      rw [valueOf_append p nonempty, ← same] at resultWhole
      rw [← globals] at sessionWhole
      rw [result, session, resultWhole, sessionWhole]
      exact ⟨fun _ _ => ⟨result₂, session₂⟩, nofun⟩

/-- A new session binds `a` first and compares it then, or does both at once. -/
theorem evalProgram_append_binding :
    let p : Program := [.binding default ⟨default, "a"⟩ (.integer default 1)]
    let q : Program := [.expression default
      (.binary default (.name ⟨default, "a"⟩) "<" (.integer default 2))]
    (∃ r, (Session.evalProgram {} p).result = .ok r) ∧
      ((Session.evalProgram {} p).session.evalProgram q).result =
        (Session.evalProgram {} (p ++ q)).result ∧
      ((Session.evalProgram {} p).session.evalProgram q).session =
        (Session.evalProgram {} (p ++ q)).session := by
  intro p q
  obtain ⟨b, compiled⟩ : ∃ b, (Session.compile {} (p ++ q)).result = .ok b := ⟨_, rfl⟩
  have succeeds : (Session.evalProgram {} p).result = .ok none :=
    eq_ok_of_toOption (by decide +kernel)
  obtain ⟨same, -⟩ := evalProgram_append (.new {}) rfl (List.cons_ne_nil _ _) compiled
  exact ⟨⟨none, succeeds⟩, same none succeeds⟩

end Session

end StackScript
