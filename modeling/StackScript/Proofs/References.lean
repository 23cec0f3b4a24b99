import Mathlib.Data.List.Forall2
import StackScript.Proofs.Compiling
import StackScript.Proofs.TableGrowth

/-!
# What Operands Refer To

The literals of a program and the names it reads and writes are references to tables: a literal
to the constant pool, a name to the slots. Compiling turns each of them, in the order in which it
meets them, into one instruction with an operand of sixteen bits. This module says when that
operand is the very index or slot.

A binding is refused when its slot is out of reach of an operand, and a constant is when there is
no index for it. Nothing is checked where a name is read, or where a constant is found in the
pool: there the operand is exact only because the slot or the index is in reach, which it is
unless a table was too large from the start or a binding was refused before.

## Main definitions

* `Reference`, `Program.references`: what a program refers to, in the order of compiling.
* `referring`: the instructions that refer to something, decoded from a code.
* `Reference.Denotes`: **an instruction has the very index or slot as its operand**.

## Main results

* `Translation.refers`: one instruction for each reference.
* `Program.operands_exact`: **operands are exact**.
-/

namespace StackScript

/-- A **reference** of a program to a table. -/
inductive Reference
  /-- To a constant. -/
  | literal (v : Value)
  /-- To the slot of a name whose value is used. -/
  | read (name : String)
  /-- To the slot of a name that is bound. -/
  | write (name : String)
  deriving DecidableEq, Repr

mutual

/-- The references of an expression, in the order of its code. -/
def Expr.references : Expr → List Reference
  | .integer _ value => [.literal (.integer value)]
  | .float _ value => [.literal (.float value)]
  | .string _ value => [.literal (.string value)]
  | .boolean _ _ => []
  | .name n => [.read n.text]
  | .unary _ _ operand => operand.references
  | .binary _ left written right =>
    if written = "<" then right.references ++ left.references
    else left.references ++ right.references
  | .conditional _ condition consequence none =>
    condition.references ++ consequence.references
  | .conditional _ condition consequence (some alternative) =>
    condition.references ++ (consequence.references ++ alternative.references)
  | .function _ _ _ | .call _ _ _ => []

/-- The references of a block. -/
def Block.references : Block → List Reference
  | .mk _ statements => Program.references statements

/-- The references of a statement. A binding refers to its name behind its value. -/
def Statement.references : Statement → List Reference
  | .expression _ value => value.references
  | .binding _ name value => value.references ++ [.write name.text]
  | .block (.mk _ statements) => Program.references statements
  | .returning _ _ => []

/-- The references of statements. -/
def Program.references : List Statement → List Reference
  | [] => []
  | s :: rest => s.references ++ Program.references rest

end

/-- The references of a phrase. -/
def Phrase.references : Phrase → List Reference
  | value e => e.references
  | branch b => b.references
  | statement s => s.references
  | statements p => Program.references p

namespace Reference

/-- The index or the slot of a reference. -/
def place? (names : NameTable) (pool : ConstantPool) : Reference → Option Nat
  | literal v => pool.index? v
  | read name | write name => names.slot? name

/-- The instruction of a reference. -/
def instruction (operand : UInt16) : Reference → Instruction
  | literal _ => .constant operand
  | read _ => .load operand
  | write _ => .store operand

/-- An instruction **denotes** a reference: it is the reference's own, and its operand is the very
index or slot. -/
def Denotes (names : NameTable) (pool : ConstantPool) (r : Reference) (i : Instruction) : Prop :=
  ∃ operand : UInt16, i = r.instruction operand ∧ r.place? names pool = some operand.toNat

/-- Whether the index or the slot of a reference can be written in an operand. The slot of a name
that is bound is not asked for, because it is checked. -/
def InReach (names : NameTable) (pool : ConstantPool) : Reference → Prop
  | literal v => ∀ index, pool.index? v = some index → index < ConstantPool.capacity
  | read name => ∀ slot, names.slot? name = some slot → slot < Assembly.slotLimit
  | write _ => True

/-- An instruction whose operand is what is left of the index or the slot in sixteen bits. -/
def Wraps (names : NameTable) (pool : ConstantPool) (r : Reference) (i : Instruction) : Prop :=
  ∃ place, r.place? names pool = some place ∧ i = r.instruction (UInt16.ofNat place) ∧
    ∀ name, r = write name → place < Assembly.slotLimit

variable {names names' : NameTable} {pool pool' : ConstantPool} {r : Reference} {i : Instruction}

/-- What is in reach is not cut down. -/
theorem Wraps.denotes (wraps : r.Wraps names pool i)
    (inReach : ∀ place, r.place? names pool = some place →
      (∀ name, r ≠ write name) → place < Assembly.slotLimit) : r.Denotes names pool i := by
  obtain ⟨place, found, rfl, checked⟩ := wraps
  refine ⟨UInt16.ofNat place, rfl, ?_⟩
  have small : place < Assembly.slotLimit := by
    cases r with
    | write name => exact checked name rfl
    | literal v => exact inReach place found nofun
    | read name => exact inReach place found nofun
  have same : (UInt16.ofNat place).toNat = place := UInt16.toNat_ofNat_of_lt small
  rw [same, found]

/-- Tables that grow leave instructions with what they denote. -/
theorem Denotes.mono (denotes : r.Denotes names pool i) (grows : names.Grows names')
    (grows' : pool.Grows pool') : r.Denotes names' pool' i := by
  obtain ⟨operand, same, found⟩ := denotes
  refine ⟨operand, same, ?_⟩
  cases r with
  | literal v => exact grows'.keeps found
  | read name => exact grows.keeps found
  | write name => exact grows.keeps found

end Reference

/-! ### Decoding -/

/-- Whether an instruction refers to a table. -/
def Instruction.refers : Instruction → Bool
  | .constant _ | .load _ | .store _ => true
  | _ => false

/-- The instruction at a place of a code, if it refers to a table. -/
def Located.reference? (l : Located) : Option Instruction :=
  match l.fetched with
  | .instruction i => if i.refers then some i else none
  | _ => none

/-- The instructions that refer to a table, **decoded** from the bytes of a code, in order. -/
def referring (code : Array UInt8) : List Instruction :=
  (scan code).filterMap Located.reference?

/-- What refers to a table among located instructions does so without their offsets. -/
theorem filterMap_located (o : Nat) (is : List Instruction) :
    (located o is).filterMap Located.reference? = is.filter Instruction.refers := by
  induction is generalizing o with
  | nil => rfl
  | cons i is ih =>
      rw [located, List.filterMap_cons, ih, List.filter_cons, Located.reference?]
      cases refers : i.refers <;> simp [refers]

/-- What is decoded from a code of instructions is those of them that refer to a table. -/
theorem referring_codeOf (is : List Instruction) :
    referring (codeOf is) = is.filter Instruction.refers := by
  rw [referring, scan_codeOf, filterMap_located]

/-- The instructions of a fragment that refer to a table. -/
def Fragment.referring : Fragment → List Instruction
  | done => []
  | op i rest => if i.refers then i :: rest.referring else rest.referring
  | choice c a rest => c.referring ++ (a.referring ++ rest.referring)

namespace Fragment

/-- Fragments in sequence refer to tables in sequence. -/
theorem referring_append (f g : Fragment) : (f ++ g).referring = f.referring ++ g.referring := by
  induction f with
  | done => rfl
  | op i rest ih =>
      rw [op_append, referring, referring, ih]
      split <;> rfl
  | choice c a rest _ _ ih =>
      rw [choice_append, referring, referring, ih, List.append_assoc, List.append_assoc]

/-- Jumps refer to no table, so it does not matter where a fragment is laid out. -/
theorem filter_layout (f : Fragment) (o : Nat) :
    (f.layout o).filter Instruction.refers = f.referring := by
  induction f generalizing o with
  | done => rfl
  | op i rest ih => rw [layout, List.filter_cons, ih, referring]
  | choice c a rest ihc iha ih =>
      rw [layout, List.filter_cons, List.filter_append, List.filter_cons, List.filter_append,
        ihc, iha, ih]
      rfl

end Fragment

open Fragment (single referring_append)

/-- **One instruction for each reference**, in order. -/
theorem Translation.refers {names : NameTable} {pool : ConstantPool} {x : Phrase} {f : Fragment}
    (h : Translation names pool x f) :
    List.Forall₂ (Reference.Wraps names pool) x.references f.referring := by
  have one {r : Reference} {place : Nat} (found : r.place? names pool = some place)
      (checked : ∀ name, r = .write name → place < Assembly.slotLimit) :
      List.Forall₂ (Reference.Wraps names pool) [r]
        (single (r.instruction (UInt16.ofNat place))).referring := by
    have refers : (single (r.instruction (UInt16.ofNat place))).referring =
        [r.instruction (UInt16.ofNat place)] := by
      cases r <;> rfl
    rw [refers]
    exact .cons ⟨place, found, rfl, checked⟩ .nil
  have silent {f : Fragment} {i : Instruction} (none : i.refers = false) :
      (f ++ single i).referring = f.referring := by
    simp [referring_append, single, Fragment.referring, none]
  induction h with
  | @literal e v index known found =>
      have references : e.references = [.literal v] := by
        cases e <;> cases known <;> rw [Expr.references]
      rw [Phrase.references, references]
      exact one (r := .literal v) found fun _ write => by cases write
  | boolean token b =>
      rw [Phrase.references, Expr.references]
      exact .nil
  | @name n slot found =>
      rw [Phrase.references, Expr.references]
      exact one (r := .read n.text) found fun _ write => by cases write
  | @unary _ written operand f i _ known ih =>
      have none : i.refers = false := by
        rw [Instruction.ofUnary?.eq_def] at known
        split at known <;> cases known <;> rfl
      rw [Phrase.references, Expr.references, silent none]
      exact ih
  | less _ _ ihr ihl =>
      rw [Phrase.references, Expr.references, if_pos rfl, referring_append, silent rfl]
      exact List.rel_append ihr ihl
  | @binary _ left right written f g i other _ _ known ihl ihr =>
      have none : i.refers = false := by
        rw [Instruction.ofBinary?.eq_def] at known
        split at known <;> cases known <;> rfl
      rw [Phrase.references, Expr.references, if_neg other, referring_append, silent none]
      exact List.rel_append ihl ihr
  | @choice _ _ _ _ f c a _ _ _ ih ihc iha =>
      rw [Phrase.references, Expr.references, referring_append, Fragment.referring,
        Fragment.referring, List.append_nil]
      exact List.rel_append ih (List.rel_append ihc iha)
  | @choiceOrNull _ _ _ f c _ _ ih ihc =>
      have null : (Fragment.choice c (single .null) .done).referring = c.referring := by
        simp [Fragment.referring, single, Instruction.refers]
      rw [Phrase.references, Expr.references, referring_append, null]
      exact List.rel_append ih ihc
  | keptValue _ _ ih =>
      rw [silent rfl] at ih
      rw [Phrase.references, Block.references]
      exact ih
  | nullValue _ _ ih =>
      rw [Phrase.references, Block.references, silent rfl]
      exact ih
  | expression _ ih =>
      rw [Phrase.references, Statement.references, silent rfl]
      exact ih
  | @binding _ n e f slot _ found room ih =>
      rw [Phrase.references, Statement.references, referring_append]
      exact List.rel_append ih (one (r := .write n.text) found fun _ _ => room)
  | block _ ih =>
      rw [Phrase.references, Statement.references]
      exact ih
  | nil =>
      rw [Phrase.references, Program.references]
      exact .nil
  | cons _ _ ih ihp =>
      rw [Phrase.references, Program.references, referring_append]
      exact List.rel_append ih ihp

/-! ### Compiling -/

/-- What is decoded from finished bytecode is what the assembly holds. -/
theorem Assembly.referring_bytecode (a : Assembly) :
    referring a.bytecode.code = a.code.toList.filter Instruction.refers := by
  rw [Assembly.bytecode_code, referring_codeOf]

/-- A program that compiles behind what an assembly holds adds an instruction for each of its
references, in order. -/
theorem Program.exists_wraps {p : Program} {a a' : Assembly}
    (compiled : p.assembleAfter a = ⟨.ok (), a'⟩) :
    ∃ is, referring a'.bytecode.code = referring a.bytecode.code ++ is ∧
      List.Forall₂ (Reference.Wraps a'.names a'.pool) (Program.references p) is := by
  have assembled : Program.assemble p a = .ok () a' := by
    rw [assembleAfter] at compiled
    cases ran : Program.assemble p a with
    | ok _ b =>
        rw [ran] at compiled
        cases compiled
        rfl
    | error e b =>
        rw [ran] at compiled
        cases compiled
  obtain ⟨f, lays, -, rules⟩ := Program.follows p a a' assembled
  obtain ⟨-, begun, laid⟩ := lays.laid rfl rfl assembled
  refine ⟨f.referring, ?_, rules.refers⟩
  have code : a'.code.toList = a.code.toList ++ f.layout a.size := by
    rw [laid]
    simp [Assembly.laid]
  rw [Assembly.referring_bytecode, Assembly.referring_bytecode, code, List.filter_append,
    f.filter_layout]

namespace Assembly

/-- An assembly that programs were compiled into one after the other, starting from given names
and constants. What failed may have left something behind. -/
def resumed (names : NameTable) (values : Array Value) (earlier : List Program) : Assembly :=
  (Assembly.start names (.ofValues values)).resume earlier

/-- The pool stays faithful through any number of compilations, failed ones included. -/
theorem faithful_resumed (names : NameTable) (values : Array Value) (earlier : List Program) :
    (resumed names values earlier).pool.Faithful :=
  faithful_resume (ConstantPool.faithful_ofValues values) earlier

end Assembly

/-- From tables that are in reach, and unless a binding was refused before, everything that a
program refers to is in reach. -/
theorem Program.references_inReach {names : NameTable} {values : Array Value}
    {earlier : List Program} {p : Program} {a' : Assembly} (inReach : names.InReach)
    (few : values.size ≤ ConstantPool.capacity)
    (admits : (Assembly.start names (.ofValues values)).Admits earlier)
    (compiled : p.assembleAfter (Assembly.resumed names values earlier) = ⟨.ok (), a'⟩) :
    ∀ r ∈ Program.references p,
      r.InReach a'.names (Assembly.resumed names values earlier).pool := by
  have widens := p.widens_assembleAfter (Assembly.resumed names values earlier)
  rw [compiled] at widens
  have now : a'.names.InReach := widens.inReach nofun (Assembly.inReach_resume inReach admits)
  rintro (v | name | name) -
  · intro index found
    rcases Assembly.index_lt_resume found with before | new
    · have stands := ConstantPool.faithful_ofValues values before
      have inside := (Array.getElem?_eq_some_iff.mp stands).1
      rw [ConstantPool.values_ofValues] at inside
      exact Nat.lt_of_lt_of_le inside few
    · exact new
  · exact fun slot found => now found
  · trivial

/-- **Operands are exact.** When a program compiles, behind whatever was compiled before, the
bytecode has an instruction more for each of its references, in order, with the very index or
slot as its operand; and at the index of a constant that constant stands. This holds as long as
the slots of the names that are read and the indices of the constants that were there before are
in reach of an operand. The slots of names that are bound and the indices of new constants are
checked: a binding without a slot in reach is refused, and so is a constant without an index. -/
theorem Program.operands_exact {names : NameTable} {values : Array Value}
    {earlier : List Program} {p : Program} {a' : Assembly}
    (compiled : p.assembleAfter (Assembly.resumed names values earlier) = ⟨.ok (), a'⟩)
    (inReach : ∀ r ∈ Program.references p,
      r.InReach a'.names (Assembly.resumed names values earlier).pool) :
    (∃ is, referring a'.bytecode.code =
        referring (Assembly.resumed names values earlier).bytecode.code ++ is ∧
      List.Forall₂ (Reference.Denotes a'.names a'.pool) (Program.references p) is) ∧
    (∀ v index, a'.pool.index? v = some index → a'.bytecode.constants[index]? = some v) ∧
    (∀ name a, Assembly.slotLimit ≤ a.names.slotFor name →
      outcomeOf (Assembler.store name a) = .error (.tooManyGlobals Assembly.slotLimit)) ∧
    (∀ v a, a.pool.index? v = none → ConstantPool.capacity ≤ a.pool.size →
      outcomeOf (Assembler.constant v a) = .error (.tooManyConstants ConstantPool.capacity)) := by
  have widens := p.widens_assembleAfter (Assembly.resumed names values earlier)
  rw [compiled] at widens
  obtain ⟨is, code, wraps⟩ := Program.exists_wraps compiled
  refine ⟨⟨is, code, ?_⟩, ?_, ?_, ?_⟩
  · refine ((List.forall₂_and_left _ _).mpr ⟨inReach, wraps⟩).imp ?_
    rintro r i ⟨reach, wraps⟩
    refine wraps.denotes fun place found noWrite => ?_
    cases r with
    | literal v =>
        rcases widens.index_lt found with before | new
        · exact reach place before
        · exact new
    | read name => exact reach place found
    | write name => exact absurd rfl (noWrite name)
  · exact widens.faithful (Assembly.faithful_resumed names values earlier)
  · intro name a beyond
    rw [Assembler.store_run, if_neg (Nat.not_lt.mpr beyond)]
    rfl
  · intro v a new full
    rw [Assembler.constant_run, new]
    dsimp only
    rw [if_pos full]
    rfl

/-- After a binding that succeeds and a name that is not bound, a comparison refers to its literal
and to the bound name. -/
theorem Program.operands_exact_comparison :
    let earlier : List Program := [[.binding default ⟨default, "a"⟩ (.integer default 1)],
      [.expression default (.name ⟨default, "b"⟩)]]
    let p : Program := [.expression default
      (.binary default (.name ⟨default, "a"⟩) "<" (.integer default 2))]
    ∃ a' is, p.assembleAfter (Assembly.resumed {} #[] earlier) = ⟨.ok (), a'⟩ ∧
      referring a'.bytecode.code =
        referring (Assembly.resumed {} #[] earlier).bytecode.code ++ is ∧
      List.Forall₂ (Reference.Denotes a'.names a'.pool) [.literal (.integer 2), .read "a"] is := by
  intro earlier p
  obtain ⟨a', compiled⟩ : ∃ a', p.assembleAfter (Assembly.resumed {} #[] earlier) =
    ⟨.ok (), a'⟩ := ⟨_, rfl⟩
  have admits : (Assembly.start {} (.ofValues #[])).Admits earlier :=
    ⟨by decide, by decide, trivial⟩
  have few : (#[] : Array Value).size ≤ ConstantPool.capacity := by decide
  have inReach := Program.references_inReach NameTable.sound_empty.inReach few admits compiled
  obtain ⟨⟨is, code, denotes⟩, -⟩ := Program.operands_exact compiled inReach
  exact ⟨a', is, compiled, code, denotes⟩

/-! ### A slot that is out of reach -/

/-- The names `x0`, `x1`, `x2` and so on. -/
def numberedName (i : Nat) : String := String.ofList ('x' :: Nat.toDigits 10 i)

/-- Bindings of that many numbered names, all to the same value. -/
def numberedBindings (count : Nat) : Program :=
  (List.range count).map fun i =>
    .binding default ⟨default, numberedName i⟩ (.integer default 0)

/-- Numbered names are told apart by their numbers. -/
theorem numberedName_injective {i j : Nat} (h : numberedName i = numberedName j) : i = j := by
  have digits : Nat.toDigits 10 i = Nat.toDigits 10 j :=
    (List.cons.inj (String.ofList_injective h)).2
  rw [← Nat.ofDigitChars_ten_toDigits (n := i), digits, Nat.ofDigitChars_ten_toDigits]

/-- To begin a statement always succeeds. -/
theorem Assembler.begin_run (s : Statement) (a : Assembly) :
    Assembler.begin s a = .ok () { a with begun := a.begun.push s } := rfl

/-- A binding to a constant that is there already comes down to the store. -/
theorem Statement.assemble_binding (name : String) {v : Int64} {a : Assembly} {index : Nat}
    (found : a.pool.index? (.integer v) = some index) :
    ∃ b, b.names = a.names ∧ b.pool = a.pool ∧
      (Statement.binding default ⟨default, name⟩ (.integer default v)).assemble a =
        Assembler.store name b := by
  let begun := a.begun.push (.binding default ⟨default, name⟩ (.integer default v))
  have pushed : (Expr.integer default v).assemble { a with begun } =
      .ok () (Assembly.push { a with begun } (.constant (UInt16.ofNat index))) := by
    rw [Expr.assemble, Assembler.constant_run, found]
  refine ⟨Assembly.push { a with begun } (.constant (UInt16.ofNat index)), rfl, rfl, ?_⟩
  rw [Statement.assemble, bind_run, Assembler.begin_run]
  dsimp only
  rw [bind_run, pushed]

/-- The tables behind numbered bindings: every name so far has its number as its slot. -/
structure Assembly.Numbered (count : Nat) (a : Assembly) : Prop where
  pool : a.pool = .ofValues #[.integer 0]
  size : a.names.size = count
  slot : ∀ i < count, a.names.slot? (numberedName i) = some i
  fresh : ∀ i, count ≤ i → a.names.slot? (numberedName i) = none

/-- The next numbered name gets the next slot. -/
theorem Assembly.Numbered.slotFor {count : Nat} {a : Assembly} (numbered : a.Numbered count) :
    a.names.slotFor (numberedName count) = count := by
  rw [NameTable.slotFor_of_none (numbered.fresh count (Nat.le_refl count)), numbered.size]

/-- The next binding keeps the names numbered. -/
theorem Assembly.Numbered.bind {count : Nat} {a b : Assembly} (numbered : a.Numbered count)
    (names : b.names = a.names.bind (numberedName count)) (pool : b.pool = a.pool) :
    b.Numbered (count + 1) := by
  have new := numbered.fresh count (Nat.le_refl count)
  refine ⟨pool.trans numbered.pool, ?_, fun i below => ?_, fun i above => ?_⟩
  · rw [names, NameTable.size_bind_of_none new, numbered.size]
  · rw [names, NameTable.slot?_bind]
    split
    · next same => rw [numberedName_injective same, numbered.slotFor]
    · next other =>
        have ne : i ≠ count := fun same => other (by rw [same])
        exact numbered.slot i (by omega)
  · have other : numberedName i ≠ numberedName count := fun same => by
      have := numberedName_injective same
      omega
    rw [names, NameTable.slot?_bind, if_neg other]
    exact numbered.fresh i (by omega)

/-- One more binding stands behind the others. -/
theorem numberedBindings_succ (count : Nat) :
    numberedBindings (count + 1) = numberedBindings count ++
      [.binding default ⟨default, numberedName count⟩ (.integer default 0)] := by
  rw [numberedBindings, List.range_succ, List.map_append]
  rfl

/-- One more binding succeeds if there is a slot for it. If there is none it is refused, but its
name keeps the slot. -/
theorem Assembly.Numbered.next {count : Nat} {a : Assembly} (numbered : a.Numbered count)
    (assembled : Program.assemble (numberedBindings count)
      (Assembly.start {} (.ofValues #[.integer 0])) = .ok () a) :
    ∃ b, b.Numbered (count + 1) ∧ Program.assemble (numberedBindings (count + 1))
        (Assembly.start {} (.ofValues #[.integer 0])) =
      if count < Assembly.slotLimit then .ok () b
      else .error (.tooManyGlobals Assembly.slotLimit) b := by
  have found : a.pool.index? (.integer 0) = some 0 := by
    rw [numbered.pool]
    decide
  obtain ⟨b, names, pool, last⟩ := Statement.assemble_binding (numberedName count) found
  rw [Assembler.store_run, names, numbered.slotFor] at last
  have whole : Program.assemble (numberedBindings (count + 1))
      (Assembly.start {} (.ofValues #[.integer 0])) =
      Program.assemble [.binding default ⟨default, numberedName count⟩ (.integer default 0)] a := by
    rw [numberedBindings_succ, Program.assemble_append, bind_run, assembled]
  by_cases room : count < Assembly.slotLimit
  · refine ⟨Assembly.push { b with names := a.names.bind (numberedName count) }
      (.store (UInt16.ofNat count)), numbered.bind rfl pool, ?_⟩
    rw [whole, Program.assemble, bind_run, last, if_pos room, if_pos room]
    rfl
  · refine ⟨{ b with names := a.names.bind (numberedName count) }, numbered.bind rfl pool, ?_⟩
    rw [whole, Program.assemble, bind_run, last, if_neg room, if_neg room]

/-- Bindings succeed as long as there are slots for them. -/
theorem exists_numbered {count : Nat} (few : count ≤ Assembly.slotLimit) :
    ∃ a, Program.assemble (numberedBindings count)
        (Assembly.start {} (.ofValues #[.integer 0])) = .ok () a ∧ a.Numbered count := by
  induction count with
  | zero => exact ⟨_, rfl, rfl, rfl, nofun, fun _ _ => rfl⟩
  | succ count ih =>
      obtain ⟨a, assembled, numbered⟩ := ih (by omega)
      obtain ⟨b, numbered', next⟩ := numbered.next assembled
      rw [if_pos (by omega : count < Assembly.slotLimit)] at next
      exact ⟨b, next, numbered'⟩

/-- An assembly after one binding more than there are slots. -/
def crowded : Assembly :=
  Assembly.resumed {} #[.integer 0] [numberedBindings (Assembly.slotLimit + 1)]

/-- Every name is numbered after one binding more than there are slots, the refused one included. -/
theorem numbered_crowded : crowded.Numbered (Assembly.slotLimit + 1) := by
  obtain ⟨a, assembled, numbered⟩ := exists_numbered (Nat.le_refl Assembly.slotLimit)
  obtain ⟨b, numbered', refused⟩ := numbered.next assembled
  rw [if_neg (Nat.lt_irrefl _)] at refused
  have same : crowded = b := by
    rw [crowded, Assembly.resumed, Assembly.resume, List.foldl_cons, List.foldl_nil,
      Program.assembleAfter, refused]
  rw [same]
  exact numbered'

/-- A name alone is read from its slot, however great this is. -/
theorem Program.assembleAfter_name {name : String} {a : Assembly} {slot : Nat}
    (bound : a.names.slot? name = some slot) :
    ∃ a', Program.assembleAfter [.expression default (.name ⟨default, name⟩)] a = ⟨.ok (), a'⟩ ∧
      a'.names = a.names ∧
      referring a'.bytecode.code = referring a.bytecode.code ++ [.load (UInt16.ofNat slot)] := by
  let b := { a with begun := a.begun.push (.expression default (.name ⟨default, name⟩)) }
  have loaded : Assembler.load name b = .ok () (b.push (.load (UInt16.ofNat slot))) := by
    rw [Assembler.load_run]
    dsimp only [b]
    rw [bound]
  have assembled : Program.assemble [.expression default (.name ⟨default, name⟩)] a =
      .ok () ((b.push (.load (UInt16.ofNat slot))).push .pop) := by
    rw [Program.assemble, Statement.assemble, Expr.assemble, bind_run, bind_run,
      Assembler.begin_run]
    dsimp only
    rw [bind_run, loaded]
    rfl
  refine ⟨(b.push (.load (UInt16.ofNat slot))).push .pop, ?_, rfl, ?_⟩
  · rw [Program.assembleAfter, assembled]
  · rw [Assembly.referring_bytecode, Assembly.referring_bytecode]
    simp only [b, Assembly.push, Array.toList_push, List.append_assoc, List.filter_append]
    rfl

/-- **An operand can be wrong.** After one binding more than there are slots was refused, its name
can be read all the same, and what is read is the first slot, which is that of another name. -/
theorem Program.operand_wraps :
    ∃ a', Program.assembleAfter [.expression default (.name ⟨default, "x65536"⟩)] crowded =
        ⟨.ok (), a'⟩ ∧
      referring a'.bytecode.code = referring crowded.bytecode.code ++ [.load 0] ∧
      a'.names.slot? "x65536" = some 65536 ∧ a'.names.slot? "x0" = some 0 := by
  have limit : Assembly.slotLimit = 65536 := rfl
  have last : numberedName 65536 = "x65536" := by decide +kernel
  have first : numberedName 0 = "x0" := by decide +kernel
  have bound := numbered_crowded.slot 65536 (by omega)
  have other := numbered_crowded.slot 0 (Nat.succ_pos _)
  rw [last] at bound
  rw [first] at other
  have wrapped : UInt16.ofNat 65536 = 0 := by decide
  obtain ⟨a', compiled, names, code⟩ := Program.assembleAfter_name bound
  rw [wrapped] at code
  rw [← names] at bound other
  exact ⟨a', compiled, code, bound, other⟩

end StackScript
