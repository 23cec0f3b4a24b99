import Mathlib.Data.List.Induction
import StackScript.Proofs.CompileOrder

/-!
# Which Programs Compile

A program compiles just when nothing is wrong at any point of its compilation, and if something is,
the error is that of the first such point. What may be wrong at a point is a matter of the points
before it and of the tables that the compilation starts from: which names were bound by then, which
constants were met, and how long the code has become. Nothing here refers to how the assembler goes
about it.

The proof follows the assembler through the points: every step of it meets some of them, and fails
at the first that is not admissible.

## Main definitions

* `Visit.Admissible`: **nothing is wrong at a point**, given the points before it.
* `Visit.fault`: the error if something is.
* `Visit.Accepted`, `Visit.Refused`: nothing is wrong at any point, or this is the first error.
* `Assembler.Meets`: a step meets points.

## Main results

* `Program.meets`: the assembler meets the points of a program, in order.
* `Program.compile_exact`: **which programs compile, and what the error is if they do not**.
-/

namespace StackScript

namespace Visit

/-! ### What is asked at a point -/

/-- The names after a point. -/
def nameAfter (names : NameTable) : Visit → NameTable
  | refer (.write name) => names.bind name
  | _ => names

/-- The constants after a point. Each is kept once. -/
def constantAfter (constants : List Value) : Visit → List Value
  | refer (.literal v) => if v ∈ constants then constants else constants ++ [v]
  | _ => constants

/-- The names after points. -/
def namesAfter (names : NameTable) (visits : List Visit) : NameTable :=
  visits.foldl nameAfter names

/-- The constants after points. -/
def constantsAfter (constants : List Value) (visits : List Visit) : List Value :=
  visits.foldl constantAfter constants

/-- A point is **admissible** behind others if nothing is wrong there: a literal does not make the
constants too many, a name that is read was bound by then or from the start, a name that is bound
has a slot in reach, an operator is one that there is, and an offset can be jumped to. A node that
is refused never is. -/
def Admissible (names : NameTable) (constants : List Value) (before : List Visit) : Visit → Prop
  | refer (.literal v) =>
    (constantsAfter constants (before ++ [refer (.literal v)])).length ≤ ConstantPool.capacity
  | refer (.read name) => names.slot? name ≠ none ∨ refer (.write name) ∈ before
  | refer (.write name) => (namesAfter names before).slotFor name < Assembly.slotLimit
  | unary written => written ∈ ["!", "-"]
  | binary written => written ∈ ["+", "-", "*", "/", "**", "<", ">", "==", "!="]
  | target o => o ≤ Assembly.targetLimit
  | refuse _ _ => False

instance (names : NameTable) (constants : List Value) (before : List Visit) :
    (v : Visit) → Decidable (v.Admissible names constants before)
  | refer (.literal _) => inferInstanceAs (Decidable (_ ≤ _))
  | refer (.read _) => inferInstanceAs (Decidable (_ ∨ _))
  | refer (.write _) => inferInstanceAs (Decidable (_ < _))
  | unary _ | binary _ => inferInstanceAs (Decidable (_ ∈ _))
  | target _ => inferInstanceAs (Decidable (_ ≤ _))
  | refuse _ _ => inferInstanceAs (Decidable False)

/-- The error at a point that is not admissible. -/
def fault : Visit → CompileError
  | refer (.literal _) => .tooManyConstants ConstantPool.capacity
  | refer (.read name) => .undefinedVariable name
  | refer (.write _) => .tooManyGlobals Assembly.slotLimit
  | unary written | binary written => .unknownOperator written
  | target _ => .programTooLarge Assembly.targetLimit
  | refuse node text => .unsupported node text

/-- Points are **accepted** if each is admissible behind those before it. -/
def Accepted (names : NameTable) (constants : List Value) (visits : List Visit) : Prop :=
  ∀ before v behind, visits = before ++ v :: behind → v.Admissible names constants before

/-- Points are **refused** with the error of the first that is not admissible. -/
def Refused (names : NameTable) (constants : List Value) (visits : List Visit) (e : CompileError) :
    Prop :=
  ∃ before v behind, visits = before ++ v :: behind ∧ Accepted names constants before ∧
    ¬ v.Admissible names constants before ∧ e = v.fault

section Points

variable {names : NameTable} {constants : List Value} {visits : List Visit} {v : Visit}
  {e e' : CompileError} {name : String}

/-- One more point binds at most one more name, behind those bound before. -/
theorem namesAfter_concat :
    namesAfter names (visits ++ [v]) = v.nameAfter (namesAfter names visits) := by
  rw [namesAfter, List.foldl_concat]
  rfl

/-- One more point adds at most one more constant, behind those added before. -/
theorem constantsAfter_concat :
    constantsAfter constants (visits ++ [v]) =
      v.constantAfter (constantsAfter constants visits) := by
  rw [constantsAfter, List.foldl_concat]
  rfl

/-- Where there are no points, nothing is refused. -/
theorem accepted_nil : Accepted names constants [] := by
  intro before v behind same
  exact absurd same.symm (by simp)

/-- One more point is accepted if it is admissible. -/
theorem Accepted.concat (accepted : Accepted names constants visits)
    (admissible : v.Admissible names constants visits) :
    Accepted names constants (visits ++ [v]) := by
  intro before w behind same
  rcases List.eq_nil_or_concat behind with rfl | ⟨rest, last, rfl⟩
  · obtain ⟨rfl, last⟩ := List.append_inj' same rfl
    cases last
    exact admissible
  · rw [List.concat_eq_append, ← List.cons_append, ← List.append_assoc] at same
    obtain ⟨rfl, -⟩ := List.append_inj' same rfl
    exact accepted before w rest rfl

/-- Points behind the first error make no difference. -/
theorem Refused.append (refused : Refused names constants visits e) (more : List Visit) :
    Refused names constants (visits ++ more) e := by
  obtain ⟨before, v, behind, rfl, accepted, wrong, fault⟩ := refused
  exact ⟨before, v, behind ++ more, by simp, accepted, wrong, fault⟩

/-- Points of which one is refused are not accepted. -/
theorem Refused.not_accepted (refused : Refused names constants visits e) :
    ¬ Accepted names constants visits := by
  obtain ⟨before, v, behind, rfl, -, wrong, -⟩ := refused
  exact fun accepted => wrong (accepted before v behind rfl)

/-- There is only one first error. -/
theorem Refused.unique (refused : Refused names constants visits e)
    (refused' : Refused names constants visits e') : e = e' := by
  obtain ⟨before, v, behind, same, accepted, wrong, rfl⟩ := refused
  obtain ⟨before', v', behind', rfl, accepted', wrong', rfl⟩ := refused'
  rcases List.append_eq_append_iff.mp same with ⟨between, rfl, tails⟩ | ⟨between, rfl, tails⟩
  · cases between with
    | nil =>
        cases tails
        rfl
    | cons w rest =>
        cases tails
        exact absurd (accepted before' v' rest rfl) wrong'
  · cases between with
    | nil =>
        cases tails
        rfl
    | cons w rest =>
        cases tails
        exact absurd (accepted' before v rest rfl) wrong

/-- A name has a slot after points if it had one, or if one of them bound it. -/
theorem slot?_namesAfter_ne_none :
    (namesAfter names visits).slot? name ≠ none ↔
      names.slot? name ≠ none ∨ refer (.write name) ∈ visits := by
  induction visits using List.reverseRecOn with
  | nil => simp [namesAfter]
  | append_singleton visits v ih =>
      have other (same : v.nameAfter (namesAfter names visits) = namesAfter names visits)
          (ne : refer (.write name) ≠ v) :
          (namesAfter names (visits ++ [v])).slot? name ≠ none ↔
            names.slot? name ≠ none ∨ refer (.write name) ∈ visits ++ [v] := by
        rw [namesAfter_concat, same, ih, List.mem_append, List.mem_singleton]
        simp only [ne, or_false]
      cases v with
      | refer r =>
          cases r with
          | write bound =>
              rw [namesAfter_concat, nameAfter, NameTable.slot?_bind]
              by_cases same : name = bound
              · subst same
                simp
              · rw [if_neg same, ih]
                simp [same]
          | literal w | read other' => exact other rfl nofun
      | _ => exact other rfl nofun

/-- A name that no point binds keeps the slot that it had, if any. -/
theorem slot?_namesAfter (unbound : refer (.write name) ∉ visits) :
    (namesAfter names visits).slot? name = names.slot? name := by
  induction visits generalizing names with
  | nil => rfl
  | cons v visits ih =>
      rw [List.mem_cons, not_or] at unbound
      have first : (v.nameAfter names).slot? name = names.slot? name := by
        rw [nameAfter.eq_def]
        split
        · next bound =>
            rw [NameTable.slot?_bind, if_neg]
            rintro rfl
            exact unbound.1 rfl
        · rfl
      exact (ih unbound.2).trans first

end Points

end Visit

/-! ### Tables -/

/-- A constant pool **holds** constants: these are its values, and all of them are found. -/
structure ConstantPool.Holds (pool : ConstantPool) (constants : List Value) : Prop where
  values : pool.values.toList = constants
  found : ∀ v, pool.index? v ≠ none ↔ v ∈ constants

namespace ConstantPool

variable {pool : ConstantPool} {constants : List Value}

/-- The pool is as large as its list of constants. -/
theorem Holds.size (holds : pool.Holds constants) : pool.size = constants.length := by
  rw [ConstantPool.size, ← holds.values, Array.length_toList]

/-- A constant that is added to the pool is added to the list. -/
theorem Holds.push (holds : pool.Holds constants) (v : Value) :
    (pool.push v).Holds (constants ++ [v]) where
  values := by rw [ConstantPool.push, Array.toList_push, holds.values]
  found w := by
    rw [index?_push, List.mem_append, List.mem_singleton, ← holds.found w]
    by_cases same : w = v
    · simp [same]
    · simp [same]

/-- A pool made of values holds just those, in their order. -/
theorem holds_ofValues (values : Array Value) : (ofValues values).Holds values.toList := by
  have all (vs : List Value) : ∀ {pool : ConstantPool} {constants : List Value},
      pool.Holds constants → (vs.foldl ConstantPool.push pool).Holds (constants ++ vs) := by
    induction vs with
    | nil =>
        intro pool constants holds
        rwa [List.append_nil]
    | cons v vs ih =>
        intro pool constants holds
        rw [List.append_cons]
        exact ih (holds.push v)
  have empty : Holds {} [] := ⟨rfl, by simp [index?]⟩
  rw [ofValues, ← Array.foldl_toList]
  exact all values.toList empty

end ConstantPool

/-- An assembly has the tables **after points**, if the constants are not too many. -/
structure Assembly.After (names : NameTable) (constants : List Value) (visits : List Visit)
    (a : Assembly) : Prop where
  names : a.names = Visit.namesAfter names visits
  pool : a.pool.Holds (Visit.constantsAfter constants visits)
  few : (Visit.constantsAfter constants visits).length ≤ ConstantPool.capacity

open Visit (Admissible Accepted Refused elseAt)
open Fragment (jumpSize)

namespace Assembly.After

variable {names : NameTable} {constants : List Value} {visits : List Visit} {v : Visit}
  {a a' : Assembly}

/-- Only the tables matter. -/
theorem of_eq (after : a.After names constants visits) (sameNames : a'.names = a.names)
    (samePool : a'.pool = a.pool) : a'.After names constants visits :=
  ⟨sameNames.trans after.names, samePool ▸ after.pool, after.few⟩

/-- A point that is about no constant leaves the pool as it is. -/
theorem next (after : a.After names constants visits) (bound : a'.names = v.nameAfter a.names)
    (samePool : a'.pool = a.pool) (silent : ∀ constants, v.constantAfter constants = constants) :
    a'.After names constants (visits ++ [v]) := by
  refine ⟨?_, ?_, ?_⟩
  · rw [bound, after.names, Visit.namesAfter_concat]
  · rw [Visit.constantsAfter_concat, silent, samePool]
    exact after.pool
  · rw [Visit.constantsAfter_concat, silent]
    exact after.few

end Assembly.After

/-! ### Steps -/

namespace Assembler

variable {α β : Type} {names : NameTable} {constants : List Value}

/-- A step **meets points**, which may depend on the offset at which it begins: it succeeds if all
of them are admissible, and comes to the tables after them, and it fails with the first error
otherwise. -/
def Meets (names : NameTable) (constants : List Value) (x : Assembler α)
    (visits : Nat → List Visit) : Prop :=
  ∀ before a, a.After names constants before → Accepted names constants before →
    Ends (fun _ a' => a'.After names constants (before ++ visits a.size) ∧
        Accepted names constants (before ++ visits a.size))
      (fun e _ => Refused names constants (before ++ visits a.size) e) (x a)

/-- A step that succeeds **adds** a number of bytes. -/
def Adds (x : Assembler α) (n : Nat) : Prop :=
  ∀ a r a', x a = .ok r a' → a'.size = a.size + n

/-- Steps in sequence meet points in sequence. -/
theorem Meets.bind {x : Assembler α} {f : α → Assembler β} {visits visits' : Nat → List Visit}
    {n : Nat} (hx : Meets names constants x visits) (adds : Adds x n)
    (hf : ∀ r, Meets names constants (f r) visits') :
    Meets names constants (x >>= f) fun o => visits o ++ visits' (o + n) := by
  intro before a after accepted
  have first := hx before a after accepted
  rw [bind_run, ← List.append_assoc]
  cases ran : x a with
  | error e a' =>
      rw [ran] at first
      exact first.append _
  | ok r a' =>
      rw [ran] at first
      have second := hf r _ a' first.1 first.2
      rwa [adds a r a' ran] at second

/-- A step that always succeeds and leaves the tables as they are meets no points. -/
theorem Meets.of_ok {x : Assembler α}
    (h : ∀ a, ∃ r a', x a = .ok r a' ∧ a'.names = a.names ∧ a'.pool = a.pool) :
    Meets names constants x fun _ => [] := by
  intro before a after accepted
  obtain ⟨r, a', ran, sameNames, samePool⟩ := h a
  rw [ran, List.append_nil]
  exact ⟨after.of_eq sameNames samePool, accepted⟩

/-- A step that meets one point succeeds or fails by it. -/
theorem Meets.of_single {x : Assembler α} {v : Nat → Visit}
    (h : ∀ before a, a.After names constants before →
      Ends (fun _ a' => (v a.size).Admissible names constants before ∧
          a'.After names constants (before ++ [v a.size]))
        (fun e _ => ¬ (v a.size).Admissible names constants before ∧ e = (v a.size).fault) (x a)) :
    Meets names constants x fun o => [v o] := by
  intro before a after accepted
  have ends := h before a after
  cases ran : x a with
  | ok r a' =>
      rw [ran] at ends
      exact ⟨ends.2, accepted.concat ends.1⟩
  | error e a' =>
      rw [ran] at ends
      exact ⟨before, v a.size, [], rfl, accepted, ends.1, ends.2⟩

/-- An instruction is added without a point. -/
theorem meets_emit (i : Instruction) : Meets names constants (emit i) fun _ => [] :=
  .of_ok fun a => ⟨(), a.push i, rfl, rfl, rfl⟩

/-- A statement is begun without a point. -/
theorem meets_begin (s : Statement) : Meets names constants (begin s) fun _ => [] :=
  .of_ok fun a => ⟨(), { a with begun := a.begun.push s }, rfl, rfl, rfl⟩

/-- An instruction is taken back without a point. -/
theorem meets_unemit : Meets names constants unemit fun _ => [] :=
  .of_ok fun a => ⟨(), a.pop, rfl, rfl, rfl⟩

/-- A jump is put down without a point: its target is checked where it lands. -/
theorem meets_reserve (jump : UInt16 → Instruction) :
    Meets names constants (reserve jump) fun _ => [] :=
  .of_ok fun a => ⟨a.code.size, a.push (jump 0xFFFF), rfl, rfl, rfl⟩

/-- A node without instructions is a point of its own, and is refused. -/
theorem meets_unsupported (node text : String) :
    Meets names constants (unsupported node text) fun _ => [.refuse node text] :=
  .of_single fun _ _ _ => ⟨id, rfl⟩

/-- A jump lands where its target is in reach. -/
theorem meets_land (index : Nat) (jump : UInt16 → Instruction) :
    Meets names constants (land index jump) fun o => [.target o] := by
  refine .of_single fun before a after => ?_
  by_cases near : a.size ≤ Assembly.targetLimit
  · rw [land_of_le near]
    exact ⟨near, after.next rfl rfl fun _ => rfl⟩
  · rw [land_of_lt (Nat.lt_of_not_le near)]
    exact ⟨near, rfl⟩

/-- An operator is added if there is one. -/
theorem meets_operator {i? : Option Instruction} {written : String} {v : Visit}
    (known : ∀ before, v.Admissible names constants before ↔ i? ≠ none)
    (fault : v.fault = .unknownOperator written) (unbound : ∀ names, v.nameAfter names = names)
    (silent : ∀ constants, v.constantAfter constants = constants) :
    Meets names constants (operator i? written) fun _ => [v] := by
  refine .of_single fun before a after => ?_
  cases i? with
  | none => exact ⟨fun admissible => (known before).mp admissible rfl, fault.symm⟩
  | some i => exact ⟨(known before).mpr nofun, after.next (unbound _).symm rfl silent⟩

/-- A unary operator is accepted just when it has an instruction. -/
theorem meets_unary (written : String) :
    Meets names constants (operator (Instruction.ofUnary? written) written)
      fun _ => [.unary written] := by
  refine meets_operator (fun before => ?_) rfl (fun _ => rfl) (fun _ => rfl)
  rw [Admissible, Instruction.ofUnary?.eq_def]
  split <;> simp_all

/-- A binary operator, `<` apart, is accepted just when it has an instruction. -/
theorem meets_binary {written : String} (other : written ≠ "<") :
    Meets names constants (operator (Instruction.ofBinary? written) written)
      fun _ => [.binary written] := by
  refine meets_operator (fun before => ?_) rfl (fun _ => rfl) (fun _ => rfl)
  rw [Admissible, Instruction.ofBinary?.eq_def]
  split <;> simp_all

/-- The operator `<` is always known. -/
theorem meets_less :
    Meets names constants (emit (.compare .greater)) fun _ => [.binary "<"] := by
  refine .of_single fun before a after => ?_
  exact ⟨by simp [Admissible], after.next rfl rfl fun _ => rfl⟩

/-- Whether a constant is found or added, the constants are those after it then. -/
theorem meets_constant (v : Value) :
    Meets names constants (constant v) fun _ => [.refer (.literal v)] := by
  refine .of_single fun before a after => ?_
  have next : Visit.constantsAfter constants (before ++ [.refer (.literal v)]) =
      if v ∈ Visit.constantsAfter constants before then Visit.constantsAfter constants before
      else Visit.constantsAfter constants before ++ [v] := Visit.constantsAfter_concat
  have bound : a.names = Visit.namesAfter names (before ++ [.refer (.literal v)]) := by
    rw [Visit.namesAfter_concat]
    exact after.names
  rw [constant_run, Admissible]
  cases known : a.pool.index? v with
  | some index =>
      have mem : v ∈ Visit.constantsAfter constants before :=
        (after.pool.found v).mp (by rw [known]; nofun)
      rw [if_pos mem] at next
      refine ⟨by rw [next]; exact after.few, bound, ?_, ?_⟩
      · rw [next]
        exact after.pool
      · rw [next]
        exact after.few
  | none =>
      have new : v ∉ Visit.constantsAfter constants before := fun mem =>
        (after.pool.found v).mpr mem known
      rw [if_neg new] at next
      have one : (Visit.constantsAfter constants before ++ [v]).length = a.pool.size + 1 := by
        rw [List.length_append, after.pool.size]
        rfl
      dsimp only
      rw [next, one]
      split
      · next full => exact ⟨Nat.not_le.mpr (Nat.lt_succ_of_le full), rfl⟩
      · next room =>
          have few : a.pool.size + 1 ≤ ConstantPool.capacity := Nat.lt_of_not_le room
          refine ⟨few, bound, ?_, ?_⟩
          · rw [next]
            exact after.pool.push v
          · rw [next, one]
            exact few

/-- A name is read if it is bound. -/
theorem meets_load (name : String) :
    Meets names constants (load name) fun _ => [.refer (.read name)] := by
  refine .of_single fun before a after => ?_
  rw [load_run, Admissible, ← Visit.slot?_namesAfter_ne_none, ← after.names]
  cases a.names.slot? name with
  | none => exact ⟨fun bound => bound rfl, rfl⟩
  | some slot => exact ⟨nofun, after.next rfl rfl fun _ => rfl⟩

/-- A name is bound if there is a slot for it. -/
theorem meets_store (name : String) :
    Meets names constants (store name) fun _ => [.refer (.write name)] := by
  refine .of_single fun before a after => ?_
  rw [store_run, Admissible, ← after.names]
  split
  · next room => exact ⟨room, after.next rfl rfl fun _ => rfl⟩
  · next full => exact ⟨full, rfl⟩

/-- The points may be written in another way. -/
theorem Meets.congr {x : Assembler α} {visits visits' : Nat → List Visit}
    (hx : Meets names constants x visits) (same : ∀ o, visits' o = visits o) :
    Meets names constants x visits' := by
  rwa [funext same]

/-- What is assembled by the rules of a phrase adds the extent of the phrase. -/
theorem Follows.adds {x : Assembler Unit} {phrase : Phrase} (hx : Follows x phrase.Rules) :
    Adds x phrase.extent := by
  intro a r a' success
  obtain ⟨f, lays, -, rules⟩ := hx a a' success
  obtain ⟨-, begun, laid⟩ := lays.laid rfl rfl success
  rw [laid]
  exact congrArg (a.size + ·) rules.size_eq

/-- To begin a statement adds no bytes. -/
theorem adds_begin (s : Statement) : Adds (begin s) 0 := by
  rintro a r _ ⟨⟩
  rfl

/-- A jump adds its bytes before its target is known. -/
theorem adds_reserve {jump : UInt16 → Instruction} (long : (jump 0xFFFF).length = jumpSize) :
    Adds (reserve jump) jumpSize := by
  rintro a r _ ⟨⟩
  exact congrArg (a.size + ·) long

/-- A jump that lands adds no bytes: its target is written over the placeholder. -/
theorem adds_land (index : Nat) (jump : UInt16 → Instruction) : Adds (land index jump) 0 := by
  intro a r a' success
  by_cases near : a.size ≤ Assembly.targetLimit
  · rw [land_of_le near] at success
    cases success
    rfl
  · rw [land_of_lt (Nat.lt_of_not_le near)] at success
    cases success

/-- That a statement is begun adds nothing, and asks for nothing. -/
theorem Meets.begun {x : Assembler Unit} {visits : Nat → List Visit}
    (hx : Meets names constants x visits) (s : Statement) :
    Meets names constants (do begin s; x) visits :=
  ((meets_begin s).bind (adds_begin s) fun _ => hx).congr fun _ => rfl

/-- The jumps around two branches land behind the first and behind the second. -/
theorem Meets.branches {x y : Assembler Unit} {visits visits' : Nat → List Visit} {n k : Nat}
    (hx : Meets names constants x visits) (addsX : Adds x n)
    (hy : Meets names constants y visits') (addsY : Adds y k) :
    Meets names constants (branches x y) fun o =>
      visits (o + jumpSize) ++
        .target (elseAt o n) :: (visits' (elseAt o n) ++ [.target (elseAt o n + k)]) := by
  have second (toAlternative toEnd : Nat) :=
    (meets_land toAlternative .jumpUnless).bind (adds_land toAlternative .jumpUnless) fun _ =>
      hy.bind addsY fun _ => meets_land toEnd .jump
  have first (toAlternative : Nat) := hx.bind addsX fun _ =>
    (meets_reserve .jump).bind (adds_reserve rfl) fun toEnd => second toAlternative toEnd
  exact ((meets_reserve .jumpUnless).bind (adds_reserve rfl) first).congr fun _ => rfl

end Assembler

open Assembler

/-! ### The assembler -/

section Assembler

variable {names : NameTable} {constants : List Value}

mutual

/-- The assembler meets the points of expressions. -/
theorem Expr.meets : (e : Expr) → Meets names constants e.assemble fun o => e.visits o
  | .integer _ _ | .float _ _ | .string _ _ => by
      rw [Expr.assemble]
      refine (meets_constant _).congr fun o => ?_
      rw [Expr.visits]
  | .boolean _ b => by
      rw [Expr.assemble]
      refine (meets_emit (.boolean b)).congr fun o => ?_
      rw [Expr.visits]
  | .name n => by
      rw [Expr.assemble]
      refine (meets_load n.text).congr fun o => ?_
      rw [Expr.visits]
  | .unary _ written operand => by
      rw [Expr.assemble]
      refine (operand.meets.bind operand.follows.adds fun _ => meets_unary written).congr
        fun o => ?_
      rw [Expr.visits]
  | .binary _ left written right => by
      rw [Expr.assemble]
      split
      · next less =>
          refine (right.meets.bind right.follows.adds fun _ =>
            left.meets.bind left.follows.adds fun _ => meets_less).congr fun o => ?_
          rw [Expr.visits, if_pos less, less]
          rfl
      · next other =>
          refine (left.meets.bind left.follows.adds fun _ =>
            right.meets.bind right.follows.adds fun _ => meets_binary other).congr fun o => ?_
          rw [Expr.visits, if_neg other]
          rfl
  | .conditional _ condition consequence none => by
      rw [Expr.assemble]
      have null : Adds (emit .null) 1 := by
        rintro a r _ ⟨⟩
        rfl
      refine (condition.meets.bind condition.follows.adds fun _ =>
        consequence.meets.branches consequence.follows.adds (meets_emit .null) null).congr
        fun o => ?_
      rw [Expr.visits]
      rfl
  | .conditional _ condition consequence (some alternative) => by
      rw [Expr.assemble]
      refine (condition.meets.bind condition.follows.adds fun _ =>
        consequence.meets.branches consequence.follows.adds alternative.meets
          alternative.follows.adds).congr fun o => ?_
      rw [Expr.visits]
      rfl
  | .function _ _ _ | .call _ _ _ => by
      rw [Expr.assemble]
      refine (meets_unsupported _ _).congr fun o => ?_
      rw [Expr.visits]

/-- The assembler meets the points of branches. -/
theorem Block.meets : (b : Block) → Meets names constants b.assembleBranch fun o => b.visits o
  | .mk _ statements => by
      rw [Block.assembleBranch_eq]
      have last : Meets names constants
          (if Program.yieldsValue false statements then unemit else emit .null) fun _ => [] := by
        split
        · exact meets_unemit
        · exact meets_emit .null
      refine ((Program.meets statements).bind (Program.follows statements).adds
        fun _ => last).congr fun o => ?_
      rw [Block.visits, List.append_nil]

/-- The assembler meets the points of statements. -/
theorem Statement.meets : (s : Statement) →
    Meets names constants s.assemble fun o => s.visits o
  | .expression _ value => by
      rw [Statement.assemble]
      refine .begun ((value.meets.bind value.follows.adds fun _ => meets_emit .pop).congr
        fun o => ?_) _
      rw [Statement.visits, List.append_nil]
  | .binding _ name value => by
      rw [Statement.assemble]
      refine .begun ((value.meets.bind value.follows.adds fun _ =>
        meets_store name.text).congr fun o => ?_) _
      rw [Statement.visits]
  | .block (.mk _ statements) => by
      rw [Statement.assemble]
      refine .begun ((Program.meets statements).congr fun o => ?_) _
      rw [Statement.visits]
  | .returning _ _ => by
      rw [Statement.assemble]
      refine .begun ((meets_unsupported _ _).congr fun o => ?_) _
      rw [Statement.visits]

/-- **The assembler meets the points of a program**, in order. -/
theorem Program.meets : (p : List Statement) →
    Meets names constants (Program.assemble p) fun o => Program.visits o p
  | [] => by
      rw [Program.assemble]
      refine (Meets.of_ok fun a => ⟨(), a, rfl, rfl, rfl⟩).congr fun o => ?_
      rw [Program.visits]
  | s :: rest => by
      rw [Program.assemble]
      refine (s.meets.bind s.follows.adds fun _ => Program.meets rest).congr fun o => ?_
      rw [Program.visits]
      rfl

end

end Assembler

/-! ### Compilations -/

/-- A compilation behind points that were accepted meets the points of the program: it succeeds
with the tables after them, or fails with the first error. -/
theorem Program.assembleAfter_cases (p : Program) {names : NameTable} {constants : List Value}
    {before : List Visit} {a : Assembly} (after : a.After names constants before)
    (accepted : Accepted names constants before) :
    ((p.assembleAfter a).outcome = .ok () ∧
      (p.assembleAfter a).assembly.After names constants (before ++ Program.visits a.size p) ∧
      Accepted names constants (before ++ Program.visits a.size p)) ∨
    ∃ e, (p.assembleAfter a).outcome = .error e ∧
      Refused names constants (before ++ Program.visits a.size p) e := by
  have ends := Program.meets p before a after accepted
  rw [Program.assembleAfter]
  cases ran : Program.assemble p a with
  | ok r a' =>
      rw [ran] at ends
      exact .inl ⟨rfl, ends⟩
  | error e a' =>
      rw [ran] at ends
      exact .inr ⟨e, rfl, ends⟩

/-- From constants that are not too many, a compilation meets the points of the program and no
others. -/
theorem Program.compile_cases (p : Program) (names : NameTable) {pool : ConstantPool}
    {constants : List Value} (holds : pool.Holds constants)
    (few : constants.length ≤ ConstantPool.capacity) :
    ((p.compile names pool).outcome = .ok () ∧
      (p.compile names pool).assembly.After names constants (Program.visits 0 p) ∧
      Accepted names constants (Program.visits 0 p)) ∨
    ∃ e, (p.compile names pool).outcome = .error e ∧
      Refused names constants (Program.visits 0 p) e := by
  have start : (Assembly.start names pool).After names constants [] := ⟨rfl, holds, few⟩
  exact p.assembleAfter_cases start Visit.accepted_nil

/-- **Which programs compile.** Whatever names a compilation starts from, and whatever constants if
they are not more than there are indices: it succeeds just when every point of the program is
admissible behind those before it. Otherwise its error is that of the first point that is not.

The points stand in the order of compiling: statements in order, the value of a binding before its
name, operands from left to right, but those of `<` from right to left, each operator behind its
operands, and the condition, the consequence and the alternative of a conditional with the offsets
of its jumps. A function literal, a call or a return statement is a point that is never admissible,
and its parts are not gone into. -/
theorem Program.compile_exact (p : Program) (names : NameTable) {values : Array Value}
    (few : values.size ≤ ConstantPool.capacity) :
    let outcome := (p.compile names (.ofValues values)).outcome
    let visits := Program.visits 0 p
    (outcome = .ok () ↔ Accepted names values.toList visits) ∧
      ∀ e, outcome = .error e ↔ Refused names values.toList visits e := by
  intro outcome visits
  rcases p.compile_cases names (ConstantPool.holds_ofValues values) few with
    ⟨succeeded, -, accepted⟩ | ⟨e, failed, refused⟩
  · have never (e : CompileError) : ¬ Refused names values.toList visits e := fun refused =>
      refused.not_accepted accepted
    refine ⟨iff_of_true succeeded accepted, fun e => iff_of_false ?_ (never e)⟩
    rw [show outcome = .ok () from succeeded]
    nofun
  · refine ⟨iff_of_false ?_ refused.not_accepted, fun e' => ?_⟩
    · rw [show outcome = .error e from failed]
      nofun
    · rw [show outcome = .error e from failed, Except.error.injEq]
      constructor
      · rintro rfl
        exact refused
      · exact refused.unique

/-- Of two names that are not bound, the one on the right of `<` is met first; and a name that is
bound in a branch which is never taken is bound behind it. -/
theorem Program.compile_exact_less :
    let name (text : String) : Name := ⟨default, text⟩
    let arm : Statement := .expression default (.conditional default (.boolean default false)
      (.mk default [.binding default (name "b") (.integer default 1)]) none)
    let less : Statement := .expression default
      (.binary default (.name (name "a")) "<" (.name (name "b")))
    (Program.compile [less] {} (.ofValues #[])).outcome = .error (.undefinedVariable "b") ∧
      (Program.compile [arm, less] {} (.ofValues #[])).outcome =
        .error (.undefinedVariable "a") := by
  intro name arm less
  have few : (#[] : Array Value).size ≤ ConstantPool.capacity := Nat.zero_le _
  have alone : Program.visits 0 [less] =
      [] ++ .refer (.read "b") :: [.refer (.read "a"), .binary "<"] := by decide +kernel
  have behind : Program.visits 0 [arm, less] =
      [.refer (.literal (.integer 1)), .refer (.write "b"), .target 14, .target 15,
        .refer (.read "b")] ++ .refer (.read "a") :: [.binary "<"] := by decide +kernel
  refine ⟨((compile_exact [less] {} few).2 _).mpr ⟨_, _, _, alone, Visit.accepted_nil, ?_, rfl⟩,
    ((compile_exact [arm, less] {} few).2 _).mpr ⟨_, _, _, behind, ?_, ?_, rfl⟩⟩
  · decide +kernel
  · exact .concat (.concat (.concat (.concat (.concat Visit.accepted_nil (by decide +kernel))
      (by decide +kernel)) (by decide +kernel)) (by decide +kernel)) (by decide +kernel)
  · decide +kernel

end StackScript
