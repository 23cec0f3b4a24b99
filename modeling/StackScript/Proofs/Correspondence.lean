import StackScript.Proofs.Evaluation
import StackScript.Proofs.StructuredRun
import StackScript.Proofs.Translation

/-!
# Code Does What Programs Mean

The fragment of a phrase runs on a memory as the phrase evaluates in the environment that the
memory shows: it succeeds with the same value, or fails with the same error, and shows the same
environment then. For this the stack must have room for the values that the evaluation holds at
once; nothing else about the stack or about the offset of the code matters.

## Main definitions

* `NameTable.view`: the environment that the globals of a machine show.
* `Corresponds`: a fragment does what a phrase means.

## Main results

* `NameTable.Sound.view_extended`: an assignment to a slot is seen as a write to its name.
* `Translation.corresponds`: **correspondence** of every phrase and its fragment, by the lemmas
  `Corresponds.literal`, `Corresponds.keptValue` and so on, one for each rule of `Translation`.
* `parallel_unpopped`: to take back a final pop is to keep the value that it would discard.
* `Program.evaluate_isSome`: statements have a last value just when `Program.yieldsValue` says so.
-/

namespace StackScript

/-! ### Globals as an environment -/

/-- What stands in a slot after an assignment. -/
theorem Exec.getD_extended (globals : Array Value) (slot : Nat) (v : Value) (k : Nat) :
    (Exec.extended globals slot v)[k]?.getD .null =
      if k = slot then v else globals[k]?.getD .null := by
  rw [extended]
  split
  · next inside =>
      rw [Array.getElem?_setIfInBounds]
      by_cases same : slot = k
      · subst same
        simp [inside]
      · simp [same, Ne.symm same]
  · next outside =>
      have width : (globals ++ Array.replicate (slot - globals.size) Value.null).size = slot := by
        rw [Array.size_append, Array.size_replicate]
        omega
      rw [Array.getElem?_push, width]
      by_cases same : k = slot
      · simp [same]
      · rw [if_neg same, if_neg same, Array.getElem?_append]
        split
        · rfl
        · next behind =>
            rw [Array.getElem?_replicate, Array.getElem?_eq_none (Nat.le_of_not_lt behind)]
            split <;> rfl

/-- The environment that globals show: every name has what stands in its slot. -/
def NameTable.view (t : NameTable) (globals : Array Value) : Environment := fun name =>
  match t.slot? name with
  | some slot => globals[slot]?.getD .null
  | none => .null

/-- A name that is bound shows what stands in its slot. -/
theorem NameTable.view_of_some {t : NameTable} {name : String} {slot : Nat}
    (h : t.slot? name = some slot) (globals : Array Value) :
    t.view globals name = globals[slot]?.getD .null := by
  rw [view, h]

/-- An assignment to the slot of a name is seen as a write to that name, because no other name
has the slot. -/
theorem NameTable.Sound.view_extended {t : NameTable} (sound : t.Sound) {name : String}
    {slot : Nat} (h : t.slot? name = some slot) (globals : Array Value) (v : Value) :
    t.view (Exec.extended globals slot v) = (t.view globals).write name v := by
  funext other
  rw [Environment.write]
  split
  · next same => rw [same, view_of_some h, Exec.getD_extended, if_pos rfl]
  · next ne =>
      cases hother : t.slot? other with
      | none => simp only [view, hother]
      | some slot' =>
          have apart : slot' ≠ slot := fun same => ne (sound.injective hother (same ▸ h))
          rw [view_of_some hother, view_of_some hother, Exec.getD_extended, if_neg apart]

/-! ### Instructions and operators -/

/-- The instruction of a unary operator does what the operator means. -/
theorem Instruction.deed_ofUnary? {written : String} {i : Instruction}
    (h : ofUnary? written = some i) (constants globals : Array Value) :
    i.deed? constants globals = some (.unary (Value.unary written)) := by
  rw [ofUnary?.eq_def] at h
  split at h <;> cases h <;> rfl

/-- The instruction of a binary operator does what the operator means. -/
theorem Instruction.deed_ofBinary? {written : String} {i : Instruction}
    (h : ofBinary? written = some i) (constants globals : Array Value) :
    i.deed? constants globals = some (.binary (Value.binary written)) := by
  rw [ofBinary?.eq_def] at h
  split at h <;> cases h <;> rfl

/-- The last one of the values on a stack is on top. -/
theorem Stack.top?_of_live {s : Stack} {base : Array Value} {v : Value}
    (live : s.live = base.push v) : s.top? = some v := by
  rw [top?, live, Array.back?_push]

/-- A drop leaves the values below the top. -/
theorem Stack.live_drop {s : Stack} {base : Array Value} {v : Value}
    (live : s.live = base.push v) : (s.drop v).live = base := by
  rw [drop, live, Array.pop_push]

open Fragment (single exec_single exec_append)

/-- A stack that is not empty has a last value. -/
theorem Stack.exists_live {s : Stack} (h : 1 ≤ s.height) :
    ∃ base v, s.live = Array.push base v := by
  obtain ⟨v, top⟩ := exists_top h
  obtain ⟨base, live⟩ := Array.back?_eq_some_iff.mp top
  exact ⟨base, v, live⟩

/-- A pop drops the top of the stack. -/
theorem act_pop_run {constants : Array Value} {limit : Nat} {m : Memory} {base : Array Value}
    {v : Value} (live : m.stack.live = base.push v) :
    Instruction.pop.act constants limit m = .ok () { m with stack := m.stack.drop v } := by
  change (do let _ ← Memory.pop) m = _
  rw [bind_run, Memory.pop_of_top (Stack.top?_of_live live)]
  rfl

/-- The memory **recalls** a value: it was discarded last and is still found above the top of the
stack. -/
def Memory.Recalls (m : Memory) (last : Option Value) : Prop :=
  ∀ w, last = some w → m.stack.justAbove = w

/-- Where no value was discarded, there is none to be recalled. -/
theorem Memory.recalls_none (m : Memory) : m.Recalls none := by
  intro w impossible
  cases impossible

section Steps

variable (names : NameTable) {constants : Array Value} {limit : Nat}

/-- A value was left on top of what a memory held. -/
def Leaves (base : Memory) : Unit → Memory → Value → Environment → Prop :=
  fun _ m v env => m.stack.live = base.stack.live.push v ∧ names.view m.globals = env

/-- The memory holds on its stack what it held, and recalls the last value. -/
def Settles (base : Memory) : Unit → Memory → Option Value → Environment → Prop :=
  fun _ m last env => m.stack.live = base.stack.live ∧ names.view m.globals = env ∧
    m.Recalls last

/-- The globals show the environment. -/
def Shows (m : Memory) (env : Environment) : Prop := names.view m.globals = env

variable {names} {base m : Memory} {i : Instruction} {v left right : Value}

/-- A value that is pushed is left on top, if there is room for it. -/
theorem parallel_push (room : base.height < limit) (live : m.stack.live = base.stack.live) :
    Parallel (Leaves names base) (Shows names) (Memory.push limit v m)
      ((pure v : Evaluator Value) (names.view m.globals)) := by
  have height : m.height < limit := by
    rw [Memory.height, Stack.height, live]
    exact room
  rw [Memory.push, if_pos height]
  exact ⟨by rw [Stack.push, live], rfl⟩

/-- The outcome of an operator is left on top, or is the error on both sides. -/
theorem parallel_settle (room : base.height < limit) (live : m.stack.live = base.stack.live)
    (outcome : Except RuntimeError Value) :
    Parallel (Leaves names base) (Shows names) (Memory.settle limit outcome m)
      (Evaluator.settle outcome (names.view m.globals)) := by
  cases outcome with
  | ok v => exact parallel_push room live
  | error e => exact ⟨rfl, rfl⟩

/-- An instruction that pushes a value leaves it. -/
theorem parallel_act_push (deed : i.deed? constants m.globals = some (.push v))
    (room : m.height < limit) :
    Parallel (Leaves names m) (Shows names) (i.act constants limit m)
      ((pure v : Evaluator Value) (names.view m.globals)) := by
  rw [Instruction.act, deed]
  exact parallel_push room rfl

/-- An instruction with one operand leaves what its operator makes of it. -/
theorem parallel_act_unary {op : Value → Except RuntimeError Value}
    (deed : i.deed? constants m.globals = some (.unary op)) (room : base.height < limit)
    (live : m.stack.live = base.stack.live.push v) :
    Parallel (Leaves names base) (Shows names) (i.act constants limit m)
      (Evaluator.settle (op v) (names.view m.globals)) := by
  rw [Instruction.act, deed]
  dsimp only [Deed.perform]
  rw [bind_run, Memory.pop_of_top (Stack.top?_of_live live)]
  exact parallel_settle (m := { m with stack := m.stack.drop v }) room (Stack.live_drop live) _

/-- An instruction with two operands leaves what its operator makes of them. -/
theorem parallel_act_binary {op : Value → Value → Except RuntimeError Value}
    (deed : i.deed? constants m.globals = some (.binary op)) (room : base.height < limit)
    (live : m.stack.live = (base.stack.live.push left).push right) :
    Parallel (Leaves names base) (Shows names) (i.act constants limit m)
      (Evaluator.settle (op left right) (names.view m.globals)) := by
  rw [Instruction.act, deed]
  dsimp only [Deed.perform]
  have below := Stack.live_drop live
  rw [bind_run, Memory.pop_of_top (Stack.top?_of_live live)]
  dsimp only
  rw [bind_run, Memory.pop_of_top (m := { m with stack := m.stack.drop right })
    (Stack.top?_of_live below)]
  exact parallel_settle (m := { m with stack := (m.stack.drop right).drop left }) room
    (Stack.live_drop below) _

/-- Only the values on the stack count for what is left on top of them. -/
theorem leaves_congr (live : m.stack.live = base.stack.live) :
    Leaves names m = Leaves names base := by
  funext _ _ _ _
  rw [Leaves, Leaves, live]

/-- Only the values on the stack count for what it means to restore them. -/
theorem settles_congr (live : m.stack.live = base.stack.live) :
    Settles names m = Settles names base := by
  funext _ _ _ _
  rw [Settles, Settles, live]

/-- A stack with one more value on it is one higher. -/
theorem height_of_live (live : m.stack.live = base.stack.live.push v) :
    m.height = base.height + 1 := by
  rw [Memory.height, Stack.height, live, Array.size_push]
  rfl

/-- Two operands, and the instruction of an operator behind them: the second operand is evaluated
while the value of the first one is on the stack. -/
theorem parallel_operands {x y : Evaluator Value} {first : Nat} {next : Environment → Nat}
    {op : Value → Value → Except RuntimeError Value} {f g : Fragment}
    (hx : m.height + first ≤ limit → Parallel (Leaves names m) (Shows names)
      (f.exec constants limit m) (x (names.view m.globals)))
    (hy : ∀ m₁ : Memory, m₁.height + next (names.view m₁.globals) ≤ limit →
      Parallel (Leaves names m₁) (Shows names) (g.exec constants limit m₁)
        (y (names.view m₁.globals)))
    (deed : ∀ globals, i.deed? constants globals = some (.binary op))
    (room : m.height + x.peakThen first (fun _ env => 1 + next env) (names.view m.globals) ≤ limit)
    (free : m.height < limit) :
    Parallel (Leaves names m) (Shows names) ((f ++ (g ++ single i)).exec constants limit m)
      ((do let a ← x; let b ← y; Evaluator.settle (op a b) : Evaluator Value)
        (names.view m.globals)) := by
  rw [exec_append, exec_append, exec_single]
  refine (hx (Evaluator.room_first room)).bind ?_
  rintro _ m₁ a _ - evaluated ⟨live, rfl⟩
  have room₁ := Evaluator.room_next room evaluated
  refine (hy m₁ (by rw [height_of_live live]; omega)).bind ?_
  rintro _ m₂ b _ - - ⟨live', rfl⟩
  exact parallel_act_binary (deed m₂.globals) free (live ▸ live')

/-- A condition and two branches behind it: the condition is gone when a branch begins. -/
theorem parallel_choice {x yes no : Evaluator Value} {first : Nat} {peak peak' : Environment → Nat}
    {f c d : Fragment}
    (hx : m.height + first ≤ limit → Parallel (Leaves names m) (Shows names)
      (f.exec constants limit m) (x (names.view m.globals)))
    (hc : ∀ m₁ : Memory, m₁.height + peak (names.view m₁.globals) ≤ limit →
      Parallel (Leaves names m₁) (Shows names) (c.exec constants limit m₁)
        (yes (names.view m₁.globals)))
    (hd : ∀ m₁ : Memory, m₁.height + peak' (names.view m₁.globals) ≤ limit →
      Parallel (Leaves names m₁) (Shows names) (d.exec constants limit m₁)
        (no (names.view m₁.globals)))
    (room : m.height + x.peakThen first (fun v env => if v.isTruthy then peak env else peak' env)
      (names.view m.globals) ≤ limit) :
    Parallel (Leaves names m) (Shows names) ((f ++ .choice c d .done).exec constants limit m)
      ((do let v ← x; if v.isTruthy then yes else no : Evaluator Value)
        (names.view m.globals)) := by
  rw [exec_append, Fragment.exec_choice]
  refine (hx (Evaluator.room_first room)).bind ?_
  rintro _ m₁ v _ - evaluated ⟨live, rfl⟩
  have room₁ := Evaluator.room_next room evaluated
  have below : (m₁.stack.drop v).live = m.stack.live := Stack.live_drop live
  have height : Memory.height ⟨m₁.stack.drop v, m₁.globals⟩ = m.height :=
    congrArg Array.size below
  rw [bind_run, Memory.pop_of_top (Stack.top?_of_live live)]
  dsimp only
  rw [← leaves_congr (m := ⟨m₁.stack.drop v, m₁.globals⟩) below]
  cases truth : v.isTruthy with
  | true =>
      rw [truth] at room₁
      exact hc _ (by rw [height]; exact room₁)
  | false =>
      rw [truth] at room₁
      exact hd _ (by rw [height]; exact room₁)

/-- A pop discards a value, which is still found above the top. -/
theorem parallel_act_pop (live : m.stack.live = base.stack.live.push v) :
    Parallel (Settles names base) (Shows names) (Instruction.pop.act constants limit m)
      ((pure (some v) : Evaluator (Option Value)) (names.view m.globals)) := by
  rw [act_pop_run live]
  refine ⟨Stack.live_drop live, rfl, ?_⟩
  rintro w ⟨⟩
  rfl

/-- An assignment takes a value and writes it. -/
theorem parallel_act_store (sound : names.Sound) {name : String} {slot : Nat}
    (found : names.slot? name = some slot) (live : m.stack.live = base.stack.live.push v) :
    Parallel (Settles names base) (Shows names)
      ((Instruction.store (UInt16.ofNat slot)).act constants limit m)
      ((do Evaluator.write name v; return none : Evaluator (Option Value))
        (names.view m.globals)) := by
  change Parallel _ _ ((do let v ← Memory.pop; Memory.keep (UInt16.ofNat slot).toNat v) m) _
  rw [bind_run, Memory.pop_of_top (Stack.top?_of_live live), sound.toNat_ofNat found]
  exact ⟨Stack.live_drop live, sound.view_extended found _ _, Memory.recalls_none _⟩

/-- **Taking back a final pop keeps the value** that the pop would discard. This is the last value,
where the evaluation comes to one. -/
theorem parallel_unpopped {x : Evaluator (Option Value)} {f : Fragment} {env : Environment}
    (whole : Parallel (Settles names m) (Shows names)
      ((f ++ single .pop).exec constants limit m) (x env))
    (higher : Ends (fun _ m' => m'.height = m.height + 1) (fun e _ => e.isOrdinary = true)
      (f.exec constants limit m))
    (comes : ∀ last env', x env = .ok last env' → last.isSome = true) :
    Parallel (Leaves names m) (Shows names) (f.exec constants limit m)
      ((do let last ← x; return last.getD .null : Evaluator Value) env) := by
  rw [exec_append, exec_single, bind_run] at whole
  rw [bind_run]
  cases ran : f.exec constants limit m with
  | error e m' =>
      rw [ran] at whole
      obtain ⟨env', evaluated, shows⟩ := whole.of_error
      rw [evaluated]
      exact ⟨rfl, shows⟩
  | ok _ m' =>
      rw [ran] at whole higher
      have height : m'.stack.height = m.height + 1 := higher
      obtain ⟨base, v, live⟩ := Stack.exists_live (s := m'.stack) (by omega)
      dsimp only at whole
      rw [act_pop_run live] at whole
      obtain ⟨last, env', evaluated, restored, shows, above⟩ := whole.of_ok
      obtain ⟨w, rfl⟩ := Option.isSome_iff_exists.mp (comes last env' evaluated)
      -- the value that the pop would discard is found above the top, and so is the last one
      have same : v = w := above w rfl
      rw [evaluated]
      refine ⟨?_, shows⟩
      rw [live, ← restored, Stack.live_drop live, same]
      rfl

/-- Where the evaluation comes to no last value, `null` stands in for it. -/
theorem parallel_null {x : Evaluator (Option Value)} {f : Fragment} {env : Environment}
    (whole : Parallel (Settles names m) (Shows names) (f.exec constants limit m) (x env))
    (free : m.height < limit)
    (comes : ∀ last env', x env = .ok last env' → last.isSome = false) :
    Parallel (Leaves names m) (Shows names) ((f ++ single .null).exec constants limit m)
      ((do let last ← x; return last.getD .null : Evaluator Value) env) := by
  rw [exec_append, exec_single]
  refine whole.bind ?_
  rintro _ m' last env' - evaluated ⟨live, rfl, -⟩
  have none : last = none := by
    rw [← Option.not_isSome_iff_eq_none, comes last _ evaluated]
    exact Bool.false_ne_true
  have free' : m'.height < limit := by
    rw [Memory.height, Stack.height, live]
    exact free
  rw [none, ← leaves_congr live]
  exact parallel_act_push rfl free'

end Steps

/-! ### Phrases -/

mutual

/-- A statement has a last value just when it leaves one. -/
theorem Statement.evaluate_isSome : (s : Statement) → {last last' : Option Value} →
    {env env' : Environment} → s.evaluate last env = .ok last' env' →
    last'.isSome = s.yieldsValue last.isSome
  | .expression _ _, _, _, _, _, h => by
      rw [Statement.evaluate] at h
      obtain ⟨v, _, -, h⟩ := bind_ok h
      cases h
      rfl
  | .binding _ _ _, _, _, _, _, h => by
      rw [Statement.evaluate] at h
      obtain ⟨v, _, -, h⟩ := bind_ok h
      obtain ⟨_, _, -, h⟩ := bind_ok h
      cases h
      rfl
  | .block (.mk _ statements), _, _, _, _, h => by
      rw [Statement.evaluate] at h
      rw [Statement.yieldsValue]
      exact Program.evaluate_isSome statements h
  | .returning _ _, _, _, _, _, h => by
      rw [Statement.evaluate] at h
      cases h
      rfl

/-- Statements have a last value just when they leave one. -/
theorem Program.evaluate_isSome : (p : List Statement) → {last last' : Option Value} →
    {env env' : Environment} → Program.evaluate last p env = .ok last' env' →
    last'.isSome = Program.yieldsValue last.isSome p
  | [], _, _, _, _, h => by
      rw [Program.evaluate] at h
      cases h
      rfl
  | s :: rest, _, _, _, _, h => by
      rw [Program.evaluate] at h
      obtain ⟨_, _, first, h⟩ := bind_ok h
      rw [Program.yieldsValue, Program.evaluate_isSome rest h, s.evaluate_isSome first]

end


/-- The code of a phrase **corresponds** to it: on a stack with room for the values that the
evaluation holds at once, both end in parallel. -/
def Corresponds (names : NameTable) (constants : Array Value) (limit : Nat) :
    Phrase → Fragment → Prop
  | .value e, f => ∀ m : Memory, m.height + e.peak (names.view m.globals) ≤ limit →
      Parallel (Leaves names m) (Shows names) (f.exec constants limit m)
        (e.evaluate (names.view m.globals))
  | .branch b, f => ∀ m : Memory, m.height + b.peak (names.view m.globals) ≤ limit →
      Parallel (Leaves names m) (Shows names) (f.exec constants limit m)
        (b.evaluate (names.view m.globals))
  | .statement s, f => ∀ (m : Memory) (last : Option Value), m.Recalls last →
      m.height + s.peak (names.view m.globals) ≤ limit →
      Parallel (Settles names m) (Shows names) (f.exec constants limit m)
        (s.evaluate last (names.view m.globals))
  | .statements p, f => ∀ (m : Memory) (last : Option Value), m.Recalls last →
      m.height + Program.peak p (names.view m.globals) ≤ limit →
      Parallel (Settles names m) (Shows names) (f.exec constants limit m)
        (Program.evaluate last p (names.view m.globals))

namespace Corresponds

variable {names : NameTable} {pool : ConstantPool} {constants : Array Value} {limit : Nat}
  {token : Token} {e left right condition : Expr} {written : String} {p : Program} {s : Statement}
  {consequence alternative : Block} {i : Instruction} {f g c d : Fragment}

/-- A literal: its constant is pushed. -/
theorem literal {v : Value} {index : Nat} (sound : pool.Sound) (known : e.literal? = some v)
    (found : pool.index? v = some index) :
    Corresponds names pool.values limit (.value e) (single (.constant (UInt16.ofNat index))) := by
  intro m room
  have deed : (Instruction.constant (UInt16.ofNat index)).deed? pool.values m.globals =
      some (.push v) := by
    rw [Instruction.deed?, sound.toNat_ofNat found, sound.found found, Option.map_some]
  have value : e.evaluate = (pure v : Evaluator Value) := by
    cases e <;> cases known <;> rw [Expr.evaluate]
  rw [exec_single, value]
  exact parallel_act_push deed (Expr.lt_of_room room)

/-- A truth value: it is pushed. -/
theorem boolean (b : Bool) :
    Corresponds names constants limit (.value (.boolean token b)) (single (.boolean b)) := by
  intro m room
  rw [exec_single, Expr.evaluate]
  exact parallel_act_push rfl (Expr.lt_of_room room)

/-- A name: what stands in its slot is pushed. -/
theorem name {n : Name} {slot : Nat} (sound : names.Sound)
    (found : names.slot? n.text = some slot) :
    Corresponds names constants limit (.value (.name n)) (single (.load (UInt16.ofNat slot))) := by
  intro m room
  have deed : (Instruction.load (UInt16.ofNat slot)).deed? constants m.globals =
      some (.push (names.view m.globals n.text)) := by
    rw [Instruction.deed?, sound.toNat_ofNat found, NameTable.view_of_some found]
  rw [exec_single, Expr.evaluate]
  exact parallel_act_push deed (Expr.lt_of_room room)

/-- A unary operator: its instruction takes the operand. -/
theorem unary (operand : Corresponds names constants limit (.value e) f)
    (known : Instruction.ofUnary? written = some i) :
    Corresponds names constants limit (.value (.unary token written e)) (f ++ single i) := by
  intro m room
  have free := Expr.lt_of_room room
  rw [Expr.peak] at room
  rw [exec_append, exec_single, Expr.evaluate]
  refine (operand m room).bind ?_
  rintro _ m' v _ - - ⟨live, rfl⟩
  exact parallel_act_unary (Instruction.deed_ofUnary? known _ _) free live

/-- The operator `<`: its operands are evaluated from right to left. -/
theorem less (hr : Corresponds names constants limit (.value right) f)
    (hl : Corresponds names constants limit (.value left) g) :
    Corresponds names constants limit (.value (.binary token left "<" right))
      (f ++ (g ++ single (.compare .greater))) := by
  intro m room
  have free := Expr.lt_of_room room
  rw [Expr.peak_less] at room
  rw [Expr.evaluate_less]
  exact parallel_operands (hr m) hl (fun _ => rfl) room free

/-- Any other binary operator: its operands are evaluated from left to right. -/
theorem binary (other : written ≠ "<") (hl : Corresponds names constants limit (.value left) f)
    (hr : Corresponds names constants limit (.value right) g)
    (known : Instruction.ofBinary? written = some i) :
    Corresponds names constants limit (.value (.binary token left written right))
      (f ++ (g ++ single i)) := by
  intro m room
  have free := Expr.lt_of_room room
  rw [Expr.peak_binary other] at room
  rw [Expr.evaluate_binary other]
  exact parallel_operands (hl m) hr (Instruction.deed_ofBinary? known constants) room free

/-- A conditional with both branches. -/
theorem choice (h : Corresponds names constants limit (.value condition) f)
    (hc : Corresponds names constants limit (.branch consequence) c)
    (hd : Corresponds names constants limit (.branch alternative) d) :
    Corresponds names constants limit
      (.value (.conditional token condition consequence (some alternative)))
      (f ++ .choice c d .done) := by
  intro m room
  rw [Expr.peak] at room
  rw [Expr.evaluate]
  exact parallel_choice (h m) hc hd room

/-- A conditional whose alternative is `null`. -/
theorem choiceOrNull (h : Corresponds names constants limit (.value condition) f)
    (hc : Corresponds names constants limit (.branch consequence) c) :
    Corresponds names constants limit (.value (.conditional token condition consequence none))
      (f ++ .choice c (single .null) .done) := by
  intro m room
  rw [Expr.peak] at room
  rw [Expr.evaluate]
  refine parallel_choice (h m) hc (fun m₁ room₁ => ?_) room
  rw [exec_single]
  exact parallel_act_push rfl room₁

/-- A branch that comes to a value keeps it. -/
theorem keptValue (h : Corresponds names constants limit (.statements p) (f ++ single .pop))
    (balanced : ∀ height, (f ++ single .pop).Balanced constants.size height height)
    (yields : Program.yieldsValue false p = true) :
    Corresponds names constants limit (.branch (.mk token p)) f := by
  intro m room
  rw [Block.peak] at room
  rw [Block.evaluate]
  have higher := (balanced m.height).before_pop.ends_exec limit (m := m) rfl
  refine parallel_unpopped (h m none m.recalls_none (by omega)) higher ?_
  intro last env evaluated
  rw [Program.evaluate_isSome p evaluated]
  exact yields

/-- A branch that comes to no value leaves `null`. -/
theorem nullValue (h : Corresponds names constants limit (.statements p) f)
    (yields : Program.yieldsValue false p = false) :
    Corresponds names constants limit (.branch (.mk token p)) (f ++ single .null) := by
  intro m room
  rw [Block.peak] at room
  rw [Block.evaluate]
  refine parallel_null (h m none m.recalls_none (by omega)) (by omega) ?_
  intro last env evaluated
  rw [Program.evaluate_isSome p evaluated]
  exact yields

/-- An expression as a statement: its value is discarded. -/
theorem expression (h : Corresponds names constants limit (.value e) f) :
    Corresponds names constants limit (.statement (.expression token e)) (f ++ single .pop) := by
  intro m last before room
  rw [Statement.peak] at room
  rw [exec_append, exec_single, Statement.evaluate]
  refine (h m room).bind ?_
  rintro _ m' v _ - - ⟨live, rfl⟩
  exact parallel_act_pop live

/-- A binding: the value is written to the slot of the name. -/
theorem binding {n : Name} {slot : Nat} (h : Corresponds names constants limit (.value e) f)
    (sound : names.Sound) (found : names.slot? n.text = some slot) :
    Corresponds names constants limit (.statement (.binding token n e))
      (f ++ single (.store (UInt16.ofNat slot))) := by
  intro m last before room
  rw [Statement.peak] at room
  rw [exec_append, exec_single, Statement.evaluate]
  refine (h m room).bind ?_
  rintro _ m' v _ - - ⟨live, rfl⟩
  exact parallel_act_store sound found live

/-- A block: its statements. -/
theorem block (h : Corresponds names constants limit (.statements p) f) :
    Corresponds names constants limit (.statement (.block (.mk token p))) f := by
  intro m last before room
  rw [Statement.peak] at room
  rw [Statement.evaluate]
  exact h m last before room

/-- No statements: the value discarded before them is still the last one. -/
theorem nil : Corresponds names constants limit (.statements []) .done := by
  intro m last before room
  rw [Program.evaluate]
  exact ⟨rfl, rfl, before⟩

/-- A statement and those behind it. -/
theorem cons (hs : Corresponds names constants limit (.statement s) f)
    (hp : Corresponds names constants limit (.statements p) g) :
    Corresponds names constants limit (.statements (s :: p)) (f ++ g) := by
  intro m last before room
  rw [Program.peak] at room
  have first := Evaluator.room_first room
  rw [exec_append, Program.evaluate]
  refine (hs m last before first).bind ?_
  rintro _ m' last' _ ran evaluated ⟨live, rfl, after⟩
  -- whatever value there was before it, `s` comes to the same environment
  have again := hs m none m.recalls_none first
  rw [ran] at again
  obtain ⟨_, _, evaluated₀, -, rfl, -⟩ := again.of_ok
  have room' := Evaluator.room_next room evaluated₀
  rw [← settles_congr live]
  refine hp m' last' after ?_
  rwa [Memory.height, Stack.height, live]

end Corresponds

/-- **Correspondence.** Whatever is translated corresponds to its code: by induction on the rules,
with one lemma for each of them. -/
theorem Translation.corresponds {names : NameTable} {pool : ConstantPool} {x : Phrase}
    {f : Fragment} (h : Translation names pool x f) (soundNames : names.Sound)
    (sound : pool.Sound) (limit : Nat) : Corresponds names pool.values limit x f := by
  induction h with
  | literal known found => exact .literal sound known found
  | boolean token b => exact .boolean b
  | name found => exact .name soundNames found
  | unary _ known ih => exact .unary ih known
  | less _ _ ihr ihl => exact .less ihr ihl
  | binary other _ _ known ihl ihr => exact .binary other ihl ihr known
  | choice _ _ _ ih ihc iha => exact .choice ih ihc iha
  | choiceOrNull _ _ ih ihc => exact .choiceOrNull ih ihc
  | keptValue code yields ih => exact .keptValue ih (code.balanced sound) yields
  | nullValue _ yields ih => exact .nullValue ih yields
  | expression _ ih => exact .expression ih
  | binding _ found _ ih => exact .binding ih soundNames found
  | block _ ih => exact .block ih
  | nil => exact .nil
  | cons _ _ ih ihp => exact .cons ih ihp

end StackScript
