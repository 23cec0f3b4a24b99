import StackScript.Proofs.Assembling

/-!
# What a Compilation Does to Its Tables

A compilation that fails has changed the tables all the same: it bound the names and added the
constants that came before the error. This module says what every compilation does to its tables,
whether it succeeds or not. Only an error for want of slots leaves something behind that it
should not: a name whose slot is out of reach.

## Main definitions

* `NameTable.Dense`, `NameTable.InReach`, `ConstantPool.Faithful`: what tables may be asked for.
* `Assembly.Widens`: **what a step does to the tables**.
* `Assembly.resume`: an assembly after more programs, any of which may have failed.

## Main results

* `Program.widening`: every compilation widens its tables.
* `Assembly.faithful_resume`, `Assembly.inReach_resume`: and so does any number of them.
-/

namespace StackScript

/-! ### Names and constants -/

namespace NameTable

variable {t : NameTable}

/-- **Dense names**: no slot below the number of names is without a name. -/
def Dense (t : NameTable) : Prop :=
  ∀ slot < t.size, ∃ name, t.slot? name = some slot

/-- Names whose slots can all be written in an operand. -/
def InReach (t : NameTable) : Prop :=
  ∀ ⦃name slot⦄, t.slot? name = some slot → slot < Assembly.slotLimit

/-- The empty table is dense. -/
theorem dense_empty : Dense {} := by
  intro slot below
  exact absurd below (by simp [size])

/-- A new name gets the next slot, so names stay dense. -/
theorem Dense.bind (dense : t.Dense) (name : String) : (t.bind name).Dense := by
  intro slot below
  have old (h : slot < t.size) : ∃ name', (t.bind name).slot? name' = some slot := by
    obtain ⟨other, bound⟩ := dense slot h
    exact ⟨other, (grows_bind t name).keeps bound⟩
  cases known : t.slot? name with
  | some slot' =>
      rw [size_bind_of_some known] at below
      exact old below
  | none =>
      rw [size_bind_of_none known] at below
      rcases Nat.lt_succ_iff_lt_or_eq.mp below with before | rfl
      · exact old before
      · exact ⟨name, by rw [slot?_bind_self, slotFor_of_none known]⟩

/-- Slots stay in reach where the new one is. -/
theorem InReach.bind (inReach : t.InReach) {name : String}
    (room : t.slotFor name < Assembly.slotLimit) : (t.bind name).InReach := by
  intro other slot bound
  rw [slot?_bind] at bound
  split at bound
  · cases bound
    exact room
  · exact inReach bound

/-- Sound names have their slots in reach. -/
theorem Sound.inReach (sound : t.Sound) : t.InReach :=
  fun _ _ bound => Nat.lt_of_lt_of_le (sound.slot_lt bound) sound.size_le

end NameTable

namespace ConstantPool

variable {p : ConstantPool}

/-- **Faithful constants**: at the index that is found for a constant, that constant stands. -/
def Faithful (p : ConstantPool) : Prop :=
  ∀ ⦃v index⦄, p.index? v = some index → p.values[index]? = some v

/-- A constant that is added keeps the pool faithful, even one that is there already. -/
theorem Faithful.push (faithful : p.Faithful) (v : Value) : (p.push v).Faithful := by
  have old {w : Value} {index : Nat} (h : p.index? w = some index) :
      (p.push v).values[index]? = some w :=
    (grows_push p v).stands (faithful h)
  intro w index found
  rw [index?_push] at found
  split at found
  · next same =>
      subst same
      cases known : p.index? w with
      | some index' =>
          rw [known] at found
          cases found
          exact old known
      | none =>
          rw [known] at found
          cases found
          simp [ConstantPool.push, size]
  · exact old found

/-- So do any number of them. -/
theorem Faithful.foldl_push (faithful : p.Faithful) (values : List Value) :
    (values.foldl ConstantPool.push p).Faithful := by
  induction values generalizing p with
  | nil => exact faithful
  | cons v rest ih => exact ih (faithful.push v)

/-- A pool made of values is faithful, with repetitions or without. -/
theorem faithful_ofValues (values : Array Value) : (ofValues values).Faithful := by
  have empty : Faithful {} := fun _ _ found => by simp [index?] at found
  rw [ofValues, ← Array.foldl_toList]
  exact empty.foldl_push values.toList

/-- Constants are added behind the others, in their order. -/
theorem values_foldl_push (p : ConstantPool) (values : List Value) :
    (values.foldl ConstantPool.push p).values = p.values ++ values.toArray := by
  induction values generalizing p with
  | nil => simp
  | cons v rest ih =>
      rw [List.foldl_cons, ih]
      simp [ConstantPool.push]

/-- A pool made of values holds these values. -/
theorem values_ofValues (values : Array Value) : (ofValues values).values = values := by
  rw [ofValues, ← Array.foldl_toList, values_foldl_push]
  simp

end ConstantPool

/-! ### Steps -/

/-- **What a step does to the tables.** They only grow, what is new in them is in reach of an
operand, and they keep what may be asked of them. The one exception is the error for want of
slots, after which a name has a slot that is out of reach. -/
structure Assembly.Widens (e? : Option CompileError) (a a' : Assembly) : Prop where
  names : a.names.Grows a'.names
  pool : a.pool.Grows a'.pool
  dense : a.names.Dense → a'.names.Dense
  faithful : a.pool.Faithful → a'.pool.Faithful
  index_lt : ∀ {v index}, a'.pool.index? v = some index →
    a.pool.index? v = some index ∨ index < ConstantPool.capacity
  inReach : e? ≠ some (.tooManyGlobals slotLimit) → a.names.InReach → a'.names.InReach

namespace Assembly.Widens

variable {e? : Option CompileError} {a a' a'' : Assembly}

/-- Tables that stay as they are count as widened. -/
theorem of_eq (names : a'.names = a.names) (pool : a'.pool = a.pool) : a.Widens e? a' := by
  refine ⟨?_, ?_, ?_, ?_, ?_, ?_⟩
  · rw [names]; exact .refl _
  · rw [pool]; exact .refl _
  · rw [names]; exact id
  · rw [pool]; exact id
  · rw [pool]; exact .inl
  · rw [names]; exact fun _ => id

/-- What is widened after it was widened is widened. -/
theorem trans (h : a.Widens none a') (h' : a'.Widens e? a'') : a.Widens e? a'' where
  names := h.names.trans h'.names
  pool := h.pool.trans h'.pool
  dense dense := h'.dense (h.dense dense)
  faithful faithful := h'.faithful (h.faithful faithful)
  index_lt found := by
    rcases h'.index_lt found with between | new
    · exact h.index_lt between
    · exact .inr new
  inReach allowed inReach := h'.inReach allowed (h.inReach nofun inReach)

/-- To bind a name widens the tables, if its slot is in reach or the error says that it is not. -/
theorem bind {name : String} (names : a'.names = a.names.bind name) (pool : a'.pool = a.pool)
    (room : e? ≠ some (.tooManyGlobals slotLimit) → a.names.slotFor name < slotLimit) :
    a.Widens e? a' := by
  refine ⟨?_, ?_, ?_, ?_, ?_, ?_⟩
  · rw [names]; exact NameTable.grows_bind _ _
  · rw [pool]; exact .refl _
  · rw [names]; exact fun dense => dense.bind name
  · rw [pool]; exact id
  · rw [pool]; exact .inl
  · rw [names]; exact fun allowed inReach => inReach.bind (room allowed)

/-- To add a new constant widens the tables, if there is room for it. -/
theorem push {v : Value} (names : a'.names = a.names) (pool : a'.pool = a.pool.push v)
    (new : a.pool.index? v = none) (room : a.pool.size < ConstantPool.capacity) :
    a.Widens e? a' := by
  refine ⟨?_, ?_, ?_, ?_, ?_, ?_⟩
  · rw [names]; exact .refl _
  · rw [pool]; exact ConstantPool.grows_push _ _
  · rw [names]; exact id
  · rw [pool]; exact fun faithful => faithful.push v
  · intro w index found
    rw [pool, ConstantPool.index?_push, new] at found
    split at found
    · cases found
      exact .inr room
    · exact .inl found
  · rw [names]; exact fun _ => id

end Assembly.Widens

namespace Assembler

variable {α β : Type}

/-- A step that **widens the tables**, whether it succeeds or not. -/
def Widening (x : Assembler α) : Prop :=
  ∀ a, Ends (fun _ a' => a.Widens none a') (fun e a' => a.Widens (some e) a') (x a)

/-- Steps in sequence widen the tables if each of them does. -/
theorem Widening.bind {x : Assembler α} {f : α → Assembler β} (hx : Widening x)
    (hf : ∀ v, Widening (f v)) : Widening (x >>= f) := by
  intro a
  have first := hx a
  rw [bind_run]
  cases ran : x a with
  | error e a' =>
      rw [ran] at first
      exact first
  | ok v a' =>
      rw [ran] at first
      have next := hf v a'
      dsimp only
      cases ran' : f v a' with
      | ok w a'' =>
          rw [ran'] at next
          exact first.trans next
      | error e a'' =>
          rw [ran'] at next
          exact first.trans next

/-- So do steps whose results do not matter. -/
theorem Widening.andThen {x y : Assembler Unit} (hx : Widening x) (hy : Widening y) :
    Widening (do x; y) :=
  hx.bind fun _ => hy

/-- Adding an instruction leaves the tables alone. -/
theorem widening_emit (i : Instruction) : Widening (emit i) :=
  fun _ => .of_eq rfl rfl

/-- So does taking one back. -/
theorem widening_unemit : Widening unemit :=
  fun _ => .of_eq rfl rfl

/-- So does beginning a statement. -/
theorem widening_begin (s : Statement) : Widening (begin s) :=
  fun _ => .of_eq rfl rfl

/-- So does refusing a node. -/
theorem widening_unsupported (node text : String) : Widening (unsupported node text) :=
  fun _ => .of_eq rfl rfl

/-- So does an operator, whether or not it has an instruction. -/
theorem widening_operator (i? : Option Instruction) (written : String) :
    Widening (operator i? written) := by
  intro a
  cases i? <;> exact .of_eq rfl rfl

/-- So does a jump whose target is not known yet. -/
theorem widening_reserve (jump : UInt16 → Instruction) : Widening (reserve jump) :=
  fun _ => .of_eq rfl rfl

/-- So does a jump that lands, or is out of reach. -/
theorem widening_land (index : Nat) (jump : UInt16 → Instruction) :
    Widening (land index jump) := by
  intro a
  by_cases near : a.size ≤ Assembly.targetLimit
  · rw [land_of_le near]
    exact .of_eq rfl rfl
  · rw [land_of_lt (Nat.lt_of_not_le near)]
    exact .of_eq rfl rfl

/-- A constant is added only where it is new and there is room. -/
theorem widening_constant (v : Value) : Widening (constant v) := by
  intro a
  rw [constant_run]
  cases known : a.pool.index? v with
  | some index => exact .of_eq rfl rfl
  | none =>
      dsimp only
      split
      · exact .of_eq rfl rfl
      · next room => exact .push rfl rfl known (Nat.lt_of_not_le room)

/-- Reading a name leaves the tables alone. -/
theorem widening_load (name : String) : Widening (load name) := by
  intro a
  rw [load_run]
  cases a.names.slot? name <;> exact .of_eq rfl rfl

/-- Assigning to a name binds it, and fails where its slot is out of reach. -/
theorem widening_store (name : String) : Widening (store name) := by
  intro a
  rw [store_run]
  split
  · next room => exact Assembly.Widens.bind rfl rfl fun _ => room
  · exact Assembly.Widens.bind rfl rfl fun allowed => absurd rfl allowed

/-- Branches widen the tables if both of them do: the jumps around them leave the tables alone. -/
theorem Widening.branches {x y : Assembler Unit} (hx : Widening x) (hy : Widening y) :
    Widening (branches x y) :=
  (widening_reserve _).bind fun _ => hx.andThen <| (widening_reserve _).bind fun _ =>
    (widening_land _ _).andThen (hy.andThen (widening_land _ _))

end Assembler

open Assembler

/-! ### Programs -/

mutual

/-- Every expression widens the tables. -/
theorem Expr.widening : (e : Expr) → Widening e.assemble
  | .integer _ _ | .float _ _ | .string _ _ => by
      rw [Expr.assemble]
      exact widening_constant _
  | .boolean _ _ => by
      rw [Expr.assemble]
      exact widening_emit _
  | .name n => by
      rw [Expr.assemble]
      exact widening_load n.text
  | .unary _ written operand => by
      rw [Expr.assemble]
      exact operand.widening.andThen (widening_operator _ written)
  | .binary _ left written right => by
      rw [Expr.assemble]
      split
      · exact right.widening.andThen (left.widening.andThen (widening_emit _))
      · exact left.widening.andThen (right.widening.andThen (widening_operator _ written))
  | .conditional _ condition consequence none => by
      rw [Expr.assemble]
      exact condition.widening.andThen (consequence.widening.branches (widening_emit .null))
  | .conditional _ condition consequence (some alternative) => by
      rw [Expr.assemble]
      exact condition.widening.andThen (consequence.widening.branches alternative.widening)
  | .function _ _ _ | .call _ _ _ => by
      rw [Expr.assemble]
      exact widening_unsupported _ _

/-- So does every branch. -/
theorem Block.widening : (b : Block) → Widening b.assembleBranch
  | .mk _ statements => by
      rw [Block.assembleBranch_eq]
      refine (Program.widening statements).andThen ?_
      split
      · exact widening_unemit
      · exact widening_emit .null

/-- So does every statement. -/
theorem Statement.widening : (s : Statement) → Widening s.assemble
  | .expression _ value => by
      rw [Statement.assemble]
      exact (widening_begin _).andThen (value.widening.andThen (widening_emit .pop))
  | .binding _ name value => by
      rw [Statement.assemble]
      exact (widening_begin _).andThen (value.widening.andThen (widening_store name.text))
  | .block (.mk _ statements) => by
      rw [Statement.assemble]
      exact (widening_begin _).andThen (Program.widening statements)
  | .returning _ _ => by
      rw [Statement.assemble]
      exact (widening_begin _).andThen (widening_unsupported _ _)

/-- **Every compilation widens its tables**, whether it succeeds or not. -/
theorem Program.widening : (p : List Statement) → Widening (Program.assemble p)
  | [] => by
      rw [Program.assemble]
      exact fun a => .of_eq rfl rfl
  | s :: rest => by
      rw [Program.assemble]
      exact s.widening.andThen (Program.widening rest)

end

/-! ### One compilation after another -/

/-- The error that a compilation ended with, if it did not succeed. -/
def Compilation.error? (c : Compilation) : Option CompileError :=
  match c.outcome with
  | .ok _ => none
  | .error e => some e

/-- To go on with a program widens the tables, with its error as the exception. -/
theorem Program.widens_assembleAfter (p : Program) (a : Assembly) :
    a.Widens (p.assembleAfter a).error? (p.assembleAfter a).assembly := by
  have ends := Program.widening p a
  rw [Program.assembleAfter]
  cases ran : Program.assemble p a with
  | ok _ a' =>
      rw [ran] at ends
      exact ends
  | error e a' =>
      rw [ran] at ends
      exact ends

namespace Assembly

/-- An assembly after more programs, any of which may have failed. -/
def resume (a : Assembly) (programs : List Program) : Assembly :=
  programs.foldl (fun a p => (p.assembleAfter a).assembly) a

/-- No program of the list is refused for want of slots. -/
def Admits (a : Assembly) : List Program → Prop
  | [] => True
  | p :: rest => (p.assembleAfter a).error? ≠ some (.tooManyGlobals slotLimit) ∧
      (p.assembleAfter a).assembly.Admits rest

/-- More programs only add to the constants. -/
theorem grows_resume (a : Assembly) (programs : List Program) :
    a.pool.Grows (a.resume programs).pool := by
  induction programs generalizing a with
  | nil => exact .refl _
  | cons p rest ih => exact (p.widens_assembleAfter a).pool.trans (ih _)

/-- More programs keep the pool faithful. -/
theorem faithful_resume {a : Assembly} (faithful : a.pool.Faithful) (programs : List Program) :
    (a.resume programs).pool.Faithful := by
  induction programs generalizing a with
  | nil => exact faithful
  | cons p rest ih => exact ih ((p.widens_assembleAfter a).faithful faithful)

/-- A constant that is found after more programs was there before, or its index is in reach. -/
theorem index_lt_resume {a : Assembly} {programs : List Program} {v : Value} {index : Nat}
    (found : (a.resume programs).pool.index? v = some index) :
    a.pool.index? v = some index ∨ index < ConstantPool.capacity := by
  induction programs generalizing a with
  | nil => exact .inl found
  | cons p rest ih =>
      rcases ih found with before | new
      · exact (p.widens_assembleAfter a).index_lt before
      · exact .inr new

/-- More programs keep slots in reach, if none of them is refused for want of slots. -/
theorem inReach_resume {a : Assembly} {programs : List Program} (inReach : a.names.InReach)
    (admits : a.Admits programs) : (a.resume programs).names.InReach := by
  induction programs generalizing a with
  | nil => exact inReach
  | cons p rest ih =>
      obtain ⟨allowed, later⟩ := admits
      exact ih ((p.widens_assembleAfter a).inReach allowed inReach) later

end Assembly

end StackScript
