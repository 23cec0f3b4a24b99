import StackScript.Proofs.Execution

/-!
# Running Structured Code

A fragment runs without any places: its instructions perform their deeds one after the other, and
a choice takes a value and runs one of its branches. How this comes about on the machine, with
its jumps, is the subject of `Proofs.Simulation`.

## Main definitions

* `Fragment.exec`: runs a fragment on a memory.

## Main results

* `Fragment.exec_append`: fragments in sequence run in sequence.
* `Fragment.Balanced.ends_exec`: a balanced fragment ends with the height it promises, or with an
  ordinary error.
* `Fragment.parallel_exec`: what was left behind above the top of the stack makes no difference;
  and after a final pop (`Fragment.parallel_exec_pop`) the same value is found there.
* `Fragment.Balanced.exec_congr`: constants that a fragment does not use make no difference.
* `Fragment.exec_keeps`: what every assignment keeps true of the globals, a run does.
-/

namespace StackScript

/-- Performs the deed of an instruction. -/
def Instruction.act (constants : Array Value) (limit : Nat) (i : Instruction) :
    EStateM RuntimeError Memory Unit := fun m =>
  match i.deed? constants m.globals with
  | some d => d.perform limit m
  | none => .ok () m

/-- Runs a **fragment**. -/
def Fragment.exec (constants : Array Value) (limit : Nat) :
    Fragment → EStateM RuntimeError Memory Unit
  | done => pure ()
  | op i rest => do
    i.act constants limit
    rest.exec constants limit
  | choice consequence alternative rest => do
    let condition ← Memory.pop
    bif condition.isTruthy then consequence.exec constants limit
    else alternative.exec constants limit
    rest.exec constants limit

variable {constants : Array Value} {limit : Nat}

/-- Fragments in sequence run in sequence. -/
theorem Fragment.exec_append (f g : Fragment) :
    (f ++ g).exec constants limit = (do f.exec constants limit; g.exec constants limit) := by
  induction f with
  | done =>
      funext m
      rfl
  | op i rest ih => simp only [op_append, exec, ih, bind_assoc]
  | choice c a rest _ _ ih => simp only [choice_append, exec, ih, bind_assoc]

/-- A single instruction performs its deed. -/
theorem Fragment.exec_single (i : Instruction) :
    (single i).exec constants limit = i.act constants limit := by
  simp only [single, exec, bind_pure_unit]

/-- A choice pops its condition and runs one of its branches. -/
theorem Fragment.exec_choice (c d : Fragment) :
    (choice c d done).exec constants limit = (do
      let condition ← Memory.pop
      bif condition.isTruthy then c.exec constants limit else d.exec constants limit) := by
  simp only [exec, bind_pure_unit]

/-! ### Heights -/

/-- Where the stack is high enough, a straight instruction changes its height as it should. -/
theorem Instruction.Straight.ends_act {i : Instruction} (straight : i.Straight constants.size)
    (limit : Nat) {m : Memory} (pops : i.effect.pops ≤ m.height) :
    Ends (fun _ m' => m'.height = m.height - i.effect.pops + i.effect.pushes)
      (fun e _ => e.isOrdinary = true) (i.act constants limit m) := by
  obtain ⟨d, deed⟩ := straight.exists_deed m.globals
  simp only [Instruction.act, deed]
  rw [Instruction.effect_deed deed] at pops ⊢
  exact Deed.ends (Instruction.blameless_deed deed) limit pops

/-- **Balanced code is blameless**: it ends with the height it promises, or with an ordinary
error. -/
theorem Fragment.Balanced.ends_exec {f : Fragment} {h h' : Nat}
    (balanced : f.Balanced constants.size h h') (limit : Nat) {m : Memory} (height : m.height = h) :
    Ends (fun _ m' => m'.height = h') (fun e _ => e.isOrdinary = true)
      (f.exec constants limit m) := by
  induction balanced generalizing m with
  | done h => exact height
  | op straight pops _ ih =>
      refine (straight.ends_act limit (height ▸ pops)).bind fun _ m' higher => ?_
      exact ih (by rw [higher, height])
  | @choice c a rest h h' _ _ _ ihc iha ih =>
      refine (Memory.ends_pop (by omega)).bind fun condition m₁ lower => ?_
      have entry : m₁.height = h := by omega
      refine Ends.bind ?_ fun _ m₂ joined => ih joined
      cases condition.isTruthy with
      | true => exact ihc entry
      | false => exact iha entry

/-! ### What does not matter -/

/-- An instruction keeps memories in agreement. -/
theorem Instruction.parallel_act (i : Instruction) {m n : Memory} (h : m.Agrees n) :
    Parallel (fun _ m' _ n' => m'.Agrees n') Memory.Agrees (i.act constants limit m)
      (i.act constants limit n) := by
  rw [act, act, h.globals]
  split
  · next d _ => exact d.parallel limit h
  · exact h

/-- On memories that agree, a fragment ends in parallel, and on memories that agree again. -/
theorem Fragment.parallel_exec (f : Fragment) (constants : Array Value) (limit : Nat)
    {m n : Memory} (h : m.Agrees n) :
    Parallel (fun _ m' _ n' => m'.Agrees n') Memory.Agrees (f.exec constants limit m)
      (f.exec constants limit n) := by
  induction f generalizing m n with
  | done => exact h
  | op i rest ih => exact (i.parallel_act h).bind fun _ _ _ _ _ _ agrees => ih agrees
  | choice c a rest ihc iha ih =>
      refine (Memory.parallel_pop h).bind ?_
      rintro condition m₁ _ n₁ - - ⟨rfl, agrees, -⟩
      refine Parallel.bind ?_ fun _ _ _ _ _ _ joined => ih joined
      cases condition.isTruthy with
      | true => exact ihc agrees
      | false => exact iha agrees

/-- On memories that agree, code with a final pop discards the same value. -/
theorem Fragment.parallel_exec_pop (f : Fragment) (constants : Array Value) (limit : Nat)
    {m n : Memory} (h : m.Agrees n) :
    Parallel (fun _ m' _ n' => m'.Agrees n' ∧ m'.stack.justAbove = n'.stack.justAbove)
      Memory.Agrees ((f ++ single .pop).exec constants limit m)
      ((f ++ single .pop).exec constants limit n) := by
  rw [exec_append, exec_single]
  refine (f.parallel_exec constants limit h).bind fun _ m' _ n' _ _ agrees => ?_
  exact (Memory.parallel_pop agrees).bind fun _ _ _ _ _ _ same => same.2

/-- A deed needs no more of the constants than the one it pushes. -/
theorem Instruction.Straight.act_congr {more : Array Value} {i : Instruction}
    (straight : i.Straight constants.size)
    (same : ∀ k < constants.size, more[k]? = constants[k]?) :
    i.act more limit = i.act constants limit := by
  funext m
  cases i with
  | constant index => simp only [Instruction.act, Instruction.deed?, same _ straight]
  | _ => rfl

/-- Constants that a fragment does not use make no difference to it. -/
theorem Fragment.Balanced.exec_congr {more : Array Value} {f : Fragment} {h h' : Nat}
    (balanced : f.Balanced constants.size h h')
    (same : ∀ k < constants.size, more[k]? = constants[k]?) :
    f.exec more limit = f.exec constants limit := by
  induction balanced with
  | done h => rfl
  | op straight _ _ ih => simp only [exec, straight.act_congr same, ih]
  | choice _ _ _ ihc iha ih => simp only [exec, ihc, iha, ih]

/-! ### Assignments -/

/-- A push leaves the globals as they are. -/
theorem Memory.globals_push (limit : Nat) (v : Value) (m : Memory) :
    (stateOf (push limit v m)).globals = m.globals := by
  rw [push]
  split <;> rfl

/-- So does a pop. -/
theorem Memory.globals_pop (m : Memory) : (stateOf (pop m)).globals = m.globals := by
  rw [pop]
  split <;> rfl

/-- So does the outcome of an operator. -/
theorem Memory.globals_settle (limit : Nat) (outcome : Except RuntimeError Value) (m : Memory) :
    (stateOf (settle limit outcome m)).globals = m.globals := by
  cases outcome with
  | ok v => exact globals_push limit v m
  | error e => rfl

/-- What both steps of a computation keep true of the globals is true of them at its end. -/
theorem Memory.keeps_bind {α β : Type} {Q : Array Value → Prop}
    {x : EStateM RuntimeError Memory α} {f : α → EStateM RuntimeError Memory β} {m : Memory}
    (first : Q (stateOf (x m)).globals)
    (next : ∀ a m', Q m'.globals → Q (stateOf (f a m')).globals) :
    Q (stateOf ((x >>= f) m)).globals := by
  rw [bind_run]
  cases hx : x m with
  | ok a m' =>
      rw [hx] at first
      exact next a m' first
  | error e m' =>
      rw [hx] at first
      exact first

/-- Of all instructions only assignments change the globals. -/
theorem Instruction.act_keeps {Q : Array Value → Prop} {i : Instruction}
    (assigns : ∀ slot, i = .store slot → ∀ globals v, Q globals →
      Q (Exec.extended globals slot.toNat v)) {m : Memory} (h : Q m.globals) :
    Q (stateOf (i.act constants limit m)).globals := by
  have popped {m : Memory} (h : Q m.globals) : Q (stateOf (Memory.pop m)).globals := by
    rwa [Memory.globals_pop]
  have settled (outcome : Except RuntimeError Value) {m : Memory} (h : Q m.globals) :
      Q (stateOf (Memory.settle limit outcome m)).globals := by
    rwa [Memory.globals_settle]
  rw [act]
  split
  · next d deed =>
      cases d with
      | push v => exact settled (.ok v) h
      | discard => exact Memory.keeps_bind (popped h) fun _ _ h => h
      | keep slot =>
          refine Memory.keeps_bind (popped h) fun v m' h => ?_
          cases i with
          | store slot' =>
              cases deed
              exact assigns slot' rfl m'.globals v h
          | constant index =>
              obtain ⟨v, -, wrong⟩ := Option.map_eq_some_iff.mp deed
              cases wrong
          | _ => cases deed
      | unary f =>
          exact Memory.keeps_bind (popped h) fun v _ h => settled (f v) h
      | binary f =>
          refine Memory.keeps_bind (popped h) fun right m' h => ?_
          exact Memory.keeps_bind (popped h) fun left _ h =>
            settled (f left right) h
  · exact h

/-- What every assignment of a fragment keeps true of the globals, its run keeps true of them,
also when it fails. -/
theorem Fragment.exec_keeps {Q : Array Value → Prop} {f : Fragment}
    (assigns : f.Each fun i => ∀ slot, i = .store slot → ∀ globals v, Q globals →
      Q (Exec.extended globals slot.toNat v)) {m : Memory} (h : Q m.globals) :
    Q (stateOf (f.exec constants limit m)).globals := by
  induction f generalizing m with
  | done => exact h
  | op i rest ih =>
      exact Memory.keeps_bind (Instruction.act_keeps assigns.1 h)
        fun _ _ h => ih assigns.2 h
  | choice c a rest ihc iha ih =>
      refine Memory.keeps_bind
        (by rwa [Memory.globals_pop]) fun condition _ h => ?_
      refine Memory.keeps_bind ?_ fun _ _ h => ih assigns.2.2 h
      cases condition.isTruthy with
      | true => exact ihc assigns.1 h
      | false => exact iha assigns.2.1 h

end StackScript
