import StackScript.Proofs.SessionHistory

/-!
# Compiled Code Is Safe

Whatever compiles passes the stack check, and no machine that runs it ever finds its stack too
low, a byte that is no instruction, an instruction that is cut off, or a constant that does not
exist. A run that succeeds leaves an empty stack.

## Main definitions

* `Bytecode.Safe`: **a bytecode that can be run anywhere**.
* `Bytecode.Yielded`: one that came of a compilation.

## Main results

* `Bytecode.IsCodeOf.safe`: the code of balanced fragments is safe.
* `Bytecode.safe_of_yielded`: **and so is whatever compiles**.
-/

namespace StackScript

/-- A bytecode is **safe** if it passes the stack check, and no machine over it, with whatever
globals and limits, fails for a fault of the code or leaves a value on the stack. -/
structure Bytecode.Safe (b : Bytecode) : Prop where
  checked : ∃ height, finalHeight b.code = .ok height
  blameless : ∀ m : Machine, m.program = b → ∀ e, m.run.outcome = .error e → e.isCodeFault = false
  empty : ∀ m : Machine, m.program = b → m.run.outcome = .ok () → m.run.machine.top? = none

/-- The code of a balanced fragment is safe. -/
theorem Bytecode.IsCodeOf.safe {b : Bytecode} {f : Fragment} (h : b.IsCodeOf f) : b.Safe where
  checked := by
    rw [h.code]
    exact h.balanced.finalHeight_layout
  blameless := by
    rintro m rfl e failed
    have ends := h.balanced.ends_exec m.config.stackSize (m := m.state.begin.memory) rfl
    rcases Machine.run_of_isCodeOf h with ⟨outcome, -⟩ | ⟨k, -, cut⟩
    · rw [failed] at outcome
      cases ran : f.exec m.program.constants m.config.stackSize m.state.begin.memory with
      | ok _ n =>
          rw [ran] at outcome
          cases outcome
      | error e' n =>
          rw [ran] at outcome ends
          cases outcome
          exact RuntimeError.isCodeFault_of_isOrdinary ends
    · rw [failed] at cut
      cases cut
      rfl
  empty := by
    rintro m rfl succeeded
    have ends := h.balanced.ends_exec m.config.stackSize (m := m.state.begin.memory) rfl
    rcases Machine.run_of_isCodeOf h with ⟨outcome, memory⟩ | ⟨k, -, cut⟩
    · rw [succeeded] at outcome
      cases ran : f.exec m.program.constants m.config.stackSize m.state.begin.memory with
      | ok _ n =>
          rw [ran] at memory ends
          rw [Machine.top?, Stack.top?_eq_none_iff]
          exact (congrArg Memory.height memory).trans ends
      | error e n =>
          rw [ran] at outcome
          cases outcome
    · rw [succeeded] at cut
      cases cut

/-- Bytecode that compiling **yields**: in a session, in whatever state operations led it to, or
in a compilation that starts from nothing. -/
inductive Bytecode.Yielded : Bytecode → Prop
  | session {s : Session} {p : Program} {b : Bytecode} :
      s.Reachable → (s.compile p).result = .ok b → Yielded b
  | fresh {p : Program} :
      (p.compile {} {}).outcome = .ok () → Yielded (p.compile {} {}).assembly.bytecode

/-- **Compiled code is safe.** -/
theorem Bytecode.safe_of_yielded {b : Bytecode} (h : b.Yielded) : b.Safe := by
  cases h with
  | session reachable compiled =>
      obtain ⟨f, a, compiles, rfl⟩ := Session.exists_compiled compiled
      exact (compiles.isCodeOf reachable.sound.pool).safe
  | @fresh p compiled =>
      obtain ⟨f, compiles⟩ := Program.exists_compiled compiled
      obtain ⟨begun, whole⟩ := compiles.compile
      have same : (p.compile {} {}).assembly.bytecode =
          f.bytecode (p.compile {} {}).assembly.pool := by
        conv => lhs; rw [whole]
        exact Assembly.bytecode_laid _ _ _ _ _
      rw [same]
      exact (compiles.isCodeOf ConstantPool.sound_empty).safe

/-- The code of a conditional inside an operand is safe. -/
theorem Bytecode.safe_of_conditional :
    let p : Program := [.expression default (.binary default (.integer default 1) "<"
      (.conditional default (.boolean default true)
        (.mk default [.expression default (.integer default 2)]) none))]
    ∃ b, (Session.compile {} p).result = .ok b ∧ b.Safe := by
  intro p
  obtain ⟨b, compiled⟩ : ∃ b, (Session.compile {} p).result = .ok b := ⟨_, rfl⟩
  exact ⟨b, compiled, Bytecode.safe_of_yielded (.session (.new {}) compiled)⟩

end StackScript
