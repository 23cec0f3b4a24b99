/-!
# Computations That Keep Their State

A computation that fails keeps what it did to its state until then. The machine, the assembler and
the readers of programs and of images are all of this kind; this module says how such computations
end, one by itself and two side by side.

## Main definitions

* `Ends`, `Parallel`: how one computation ends, and how two of them do.
* `outcomeOf`, `stateOf`: the outcome of a computation, and the state it left.

## Main results

* `bind_ok`: where a sequence succeeds, both its steps do.
* `Ends.bind`, `Parallel.bind`: how sequences end.
-/

namespace StackScript

variable {ε σ τ α β : Type}

/-- A sequence runs its first part, and goes on from the state that this leaves unless it fails. -/
theorem bind_run (x : EStateM ε σ α) (f : α → EStateM ε σ β) (s : σ) :
    (x >>= f) s = match x s with | .ok a s => f a s | .error e s => .error e s := rfl

/-- Where a sequence succeeds, both its steps do. -/
theorem bind_ok {x : EStateM ε σ α} {f : α → EStateM ε σ β} {s t : σ} {b : β}
    (h : (x >>= f) s = .ok b t) : ∃ a s', x s = .ok a s' ∧ f a s' = .ok b t := by
  rw [bind_run] at h
  cases hx : x s with
  | ok a s' =>
      rw [hx] at h
      exact ⟨a, s', rfl, h⟩
  | error e s' =>
      rw [hx] at h
      cases h

/-- To get the state leaves it as it is. -/
theorem get_run (s : σ) : (get : EStateM ε σ σ) s = .ok s s := rfl

/-- To change the state always succeeds. -/
theorem modify_run (f : σ → σ) (s : σ) :
    (modify f : EStateM ε σ PUnit) s = .ok ⟨⟩ (f s) := rfl

/-- To yield a value leaves the state as it is. -/
@[simp] theorem pure_run (a : α) (s : σ) : (pure a : EStateM ε σ α) s = .ok a s := rfl

/-- How a computation ends. -/
def Ends (ok : α → σ → Prop) (error : ε → σ → Prop) : EStateM.Result ε σ α → Prop
  | .ok a s => ok a s
  | .error e s => error e s

/-- The outcome of a computation, apart from the state it left. -/
def outcomeOf : EStateM.Result ε σ α → Except ε α
  | .ok a _ => .ok a
  | .error e _ => .error e

/-- The state that a computation left. -/
def stateOf : EStateM.Result ε σ α → σ
  | .ok _ s => s
  | .error _ s => s

/-- Two computations **end in parallel**: both succeed, or both fail with the same error. -/
def Parallel (ok : α → σ → β → τ → Prop) (error : σ → τ → Prop) :
    EStateM.Result ε σ α → EStateM.Result ε τ β → Prop
  | .ok a s, .ok b t => ok a s b t
  | .error e s, .error e' t => e = e' ∧ error s t
  | _, _ => False

/-- What two computations end in may be said more weakly. -/
theorem Parallel.imp {ok ok' : α → σ → β → τ → Prop} {error : σ → τ → Prop}
    {r : EStateM.Result ε σ α} {r' : EStateM.Result ε τ β} (h : Parallel ok error r r')
    (weaker : ∀ a s b t, ok a s b t → ok' a s b t) : Parallel ok' error r r' := by
  cases r with
  | ok a s =>
      cases r' with
      | ok b t => exact weaker a s b t h
      | error e' t => exact h.elim
  | error e s =>
      cases r' with
      | ok b t => exact h.elim
      | error e' t => exact h

/-- If the first one succeeds, so does the second. -/
theorem Parallel.of_ok {ok : α → σ → β → τ → Prop} {error : σ → τ → Prop} {a : α} {s : σ}
    {r : EStateM.Result ε τ β} (h : Parallel ok error (.ok a s) r) :
    ∃ b t, r = .ok b t ∧ ok a s b t := by
  cases r with
  | ok b t => exact ⟨b, t, rfl, h⟩
  | error e t => exact h.elim

/-- If the first one fails, the second one fails with the same error. -/
theorem Parallel.of_error {ok : α → σ → β → τ → Prop} {error : σ → τ → Prop} {e : ε} {s : σ}
    {r : EStateM.Result ε τ β} (h : Parallel ok error (.error e s) r) :
    ∃ t, r = .error e t ∧ error s t := by
  cases r with
  | ok b t => exact h.elim
  | error e' t =>
      obtain ⟨rfl, both⟩ := h
      exact ⟨t, rfl, both⟩

/-- A sequence ends well if its parts do. -/
theorem Ends.bind {α' : Type} {ok : α → σ → Prop} {ok' : α' → σ → Prop} {error : ε → σ → Prop}
    {x : EStateM ε σ α} {f : α → EStateM ε σ α'} {s : σ} (first : Ends ok error (x s))
    (next : ∀ a s', ok a s' → Ends ok' error (f a s')) : Ends ok' error ((x >>= f) s) := by
  rw [bind_run]
  cases hx : x s with
  | ok a s' =>
      rw [hx] at first
      exact next a s' first
  | error e s' =>
      rw [hx] at first
      exact first

/-- Sequences are parallel if their parts are, where the second parts may rely on how the first ones
ended. -/
theorem Parallel.bind {α' β' : Type} {ok : α → σ → β → τ → Prop}
    {ok' : α' → σ → β' → τ → Prop} {error : σ → τ → Prop}
    {x : EStateM ε σ α} {f : α → EStateM ε σ α'} {s : σ}
    {y : EStateM ε τ β} {g : β → EStateM ε τ β'} {t : τ}
    (first : Parallel ok error (x s) (y t))
    (next : ∀ a s' b t', x s = .ok a s' → y t = .ok b t' → ok a s' b t' →
      Parallel ok' error (f a s') (g b t')) :
    Parallel ok' error ((x >>= f) s) ((y >>= g) t) := by
  rw [bind_run, bind_run]
  cases hx : x s with
  | ok a s' =>
      cases hy : y t with
      | ok b t' =>
          rw [hx, hy] at first
          exact next a s' b t' hx hy first
      | error e t' =>
          rw [hx, hy] at first
          exact first.elim
  | error e s' =>
      cases hy : y t with
      | ok b t' =>
          rw [hx, hy] at first
          exact first.elim
      | error e' t' =>
          rw [hx, hy] at first
          exact first

end StackScript
