import Mathlib.Data.List.Forall2
import Mathlib.Data.List.Nodup
import StackScript.Proofs.Acceptance

/-!
# Interning

A constant pool keeps a literal once, whatever the pool held before: constants that were handed
over stay where they are, repeated or not, and behind them stand the literals that were not among
them, each once and in the order in which they were met first. The index table never drifts away
from the constants. What a literal is compiled to pushes the very constant at its index.

Two literals are the same only as data: an integer is never a float, and two floats are the same
just when their bits are.

## Main definitions

* `Program.literals`: the literals of a program, in the order of compiling.
* `pushedIndices`: the indices that a code pushes constants from, decoded from its bytes.
* `Assembly.CompilesAll`: programs that compile, one after the other.

## Main results

* `Visit.constantsAfter_eq`: which constants there are after points.
* `Program.exists_pushes`: every literal pushes itself.
* `Assembly.interning_exact`: **interning is exact**.
-/

namespace StackScript

/-! ### Literals -/

/-- The constant that a reference is to. -/
def Reference.literal? : Reference → Option Value
  | literal v => some v
  | _ => none

/-- The **literals** of a program, in the order of compiling. One that is repeated is listed as
often as it occurs. -/
def Program.literals (p : Program) : List Value :=
  (Program.references p).filterMap Reference.literal?

/-- The constant that is asked for at a point. -/
def Visit.literal? (v : Visit) : Option Value := v.reference?.bind Reference.literal?

/-- The literals of a program are what some of the points of its compilation ask for. -/
theorem Program.literals_eq (p : Program) (o : Nat) :
    p.literals = (Program.visits o p).filterMap Visit.literal? := by
  rw [literals, Program.references_eq p o, List.filterMap_filterMap]
  rfl

/-- The index of an instruction that pushes a constant. -/
def Instruction.constantIndex? : Instruction → Option UInt16
  | constant index => some index
  | _ => none

/-- The **indices** that a code pushes constants from, in the order of its instructions, decoded
from the bytes. -/
def pushedIndices (code : Array UInt8) : List UInt16 :=
  (referring code).filterMap Instruction.constantIndex?

/-! ### Constants that are kept once -/

section Once

variable {α : Type} [DecidableEq α]

/-- Of a repeated element the first occurrence stays. -/
theorem eraseDups_concat (l : List α) (a : α) :
    (l ++ [a]).eraseDups = if a ∈ l then l.eraseDups else l.eraseDups ++ [a] := by
  rw [List.eraseDups_append]
  split
  · next mem => simp [List.removeAll, mem]
  · next new => simp [List.removeAll, new, List.eraseDups_cons]

/-- Where repetitions are left out, nothing occurs twice. -/
theorem nodup_eraseDups (l : List α) : l.eraseDups.Nodup := by
  induction l using List.reverseRecOn with
  | nil => exact List.nodup_nil
  | append_singleton l a ih =>
      rw [eraseDups_concat]
      split
      · exact ih
      · next new =>
          rw [← List.concat_eq_append]
          exact List.Nodup.concat (fun mem => new (List.mem_eraseDups.mp mem)) ih

end Once

namespace Visit

variable {constants : List Value} {visits : List Visit} {v : Visit} {w : Value}

/-- A literal is added to the constants unless it is among them, and nothing else is. -/
theorem constantAfter_eq (constants : List Value) (v : Visit) :
    v.constantAfter constants = match v.literal? with
      | some w => if w ∈ constants then constants else constants ++ [w]
      | none => constants := by
  cases v with
  | refer r => cases r <;> rfl
  | _ => rfl

/-- The literals that are asked for at points and are not among the constants, each once and in the
order of the points. -/
def newLiterals (constants : List Value) (visits : List Visit) : List Value :=
  ((visits.filterMap literal?).filter (· ∉ constants)).eraseDups

/-- One more point adds its literal, unless this is among the constants or was asked for before. -/
theorem newLiterals_concat :
    newLiterals constants (visits ++ [v]) = match v.literal? with
      | some w =>
        if w ∈ constants ++ newLiterals constants visits then newLiterals constants visits
        else newLiterals constants visits ++ [w]
      | none => newLiterals constants visits := by
  rw [newLiterals, newLiterals, List.filterMap_append, List.filter_append]
  cases asks : v.literal? with
  | none => simp [asks]
  | some w =>
      rw [List.filterMap_cons_some asks, List.filterMap_nil]
      by_cases known : w ∈ constants
      · simp [known]
      · have new : [w].filter (· ∉ constants) = [w] := by simp [known]
        rw [new, eraseDups_concat]
        simp [known]

/-- **Which constants there are after points**: those from before, and the literals that are new. -/
theorem constantsAfter_eq (constants : List Value) (visits : List Visit) :
    constantsAfter constants visits = constants ++ newLiterals constants visits := by
  induction visits using List.reverseRecOn with
  | nil => exact (List.append_nil constants).symm
  | append_singleton visits v ih =>
      rw [constantsAfter_concat, constantAfter_eq, newLiterals_concat, ih]
      cases v.literal? with
      | none => rfl
      | some w =>
          dsimp only
          split
          · rfl
          · exact List.append_assoc _ _ _

/-- A literal that is new occurs once among all constants. -/
theorem count_newLiterals (mem : w ∈ newLiterals constants visits) :
    (constants ++ newLiterals constants visits).count w = 1 := by
  have fresh : w ∉ constants := by
    have chosen := List.mem_filter.mp (List.mem_eraseDups.mp mem)
    exact of_decide_eq_true chosen.2
  have once : (newLiterals constants visits).count w = 1 :=
    List.count_eq_one_of_mem (nodup_eraseDups _) mem
  rw [List.count_append, List.count_eq_zero_of_not_mem fresh, once]

end Visit

/-! ### Programs -/

/-- The constant of an instruction that refers to what it should. -/
theorem Reference.Wraps.literal {names : NameTable} {pool : ConstantPool} {r : Reference}
    {i : Instruction} (wraps : r.Wraps names pool i) (faithful : pool.Faithful)
    (few : pool.size ≤ ConstantPool.capacity) :
    Option.Rel (fun v index => pool.values[index.toNat]? = some v) r.literal? i.constantIndex? := by
  obtain ⟨place, found, rfl, -⟩ := wraps
  cases r with
  | literal v =>
      have stands : pool.values[place]? = some v := faithful found
      have inside : place < pool.values.size := (Array.getElem?_eq_some_iff.mp stands).1
      have exactly : (UInt16.ofNat place).toNat = place :=
        UInt16.toNat_ofNat_of_lt (Nat.lt_of_lt_of_le inside few)
      exact .some (by rw [exactly]; exact stands)
  | read name | write name => exact .none

/-- **Every literal pushes itself.** A program that compiles adds an instruction that pushes a
constant for each of its literals, in order, and at the index of that instruction stands the
literal. -/
theorem Program.exists_pushes {p : Program} {a a' : Assembly}
    (compiled : p.assembleAfter a = ⟨.ok (), a'⟩) (faithful : a'.pool.Faithful)
    (few : a'.pool.size ≤ ConstantPool.capacity) :
    ∃ indices, pushedIndices a'.bytecode.code = pushedIndices a.bytecode.code ++ indices ∧
      List.Forall₂ (fun v index => a'.pool.values[index.toNat]? = some v) p.literals indices := by
  obtain ⟨is, code, wraps⟩ := Program.exists_wraps compiled
  refine ⟨is.filterMap Instruction.constantIndex?, ?_, ?_⟩
  · rw [pushedIndices, code, List.filterMap_append]
    rfl
  · exact List.rel_filterMap (fun _ _ related => related.literal faithful few) wraps

/-! ### One program after another -/

namespace Assembly

open Session (eq_ok_of_toOption)

/-- Programs that **all compile**, one after the other. -/
def CompilesAll (a : Assembly) : List Program → Prop
  | [] => True
  | p :: rest => (p.assembleAfter a).outcome = .ok () ∧
      (p.assembleAfter a).assembly.CompilesAll rest

/-- What programs that all compile add to an assembly: points at which their literals are asked
for, and for each literal an instruction that pushes it. -/
theorem After.resume {names : NameTable} {constants : List Value} {before : List Visit}
    {a : Assembly} {programs : List Program} (after : a.After names constants before)
    (accepted : Visit.Accepted names constants before) (faithful : a.pool.Faithful)
    (compiles : a.CompilesAll programs) :
    ∃ visits indices, (a.resume programs).After names constants (before ++ visits) ∧
      visits.filterMap Visit.literal? = programs.flatMap Program.literals ∧
      pushedIndices (a.resume programs).bytecode.code =
        pushedIndices a.bytecode.code ++ indices ∧
      List.Forall₂ (fun v index => (a.resume programs).pool.values[index.toNat]? = some v)
        (programs.flatMap Program.literals) indices := by
  induction programs generalizing a before with
  | nil =>
      refine ⟨[], [], ?_, rfl, (List.append_nil _).symm, .nil⟩
      rw [List.append_nil]
      exact after
  | cons p rest ih =>
      obtain ⟨succeeded, compiles⟩ := compiles
      rcases p.assembleAfter_cases after accepted with
        ⟨-, after', accepted'⟩ | ⟨e, failed, -⟩
      · have faithful' := (p.widens_assembleAfter a).faithful faithful
        have few : (p.assembleAfter a).assembly.pool.size ≤ ConstantPool.capacity := by
          rw [after'.pool.size]
          exact after'.few
        have compiled : p.assembleAfter a = ⟨.ok (), (p.assembleAfter a).assembly⟩ := by
          rw [← succeeded]
        obtain ⟨first, code, pushes⟩ := Program.exists_pushes compiled faithful' few
        obtain ⟨visits, indices, after'', literals, code', pushes'⟩ :=
          ih after' accepted' faithful' compiles
        refine ⟨Program.visits a.size p ++ visits, first ++ indices, ?_, ?_, ?_, ?_⟩
        · rw [← List.append_assoc]
          exact after''
        · rw [List.filterMap_append, literals, ← p.literals_eq, List.flatMap_cons]
        · rw [← List.append_assoc, ← code]
          exact code'
        · rw [List.flatMap_cons]
          refine List.rel_append (pushes.imp fun v index stands => ?_) pushes'
          exact (grows_resume _ rest).stands stands
      · rw [succeeded] at failed
        cases failed

/-- **Interning is exact.** Whatever names and constants an assembly starts from, if the constants
are not more than there are indices, and whatever programs are compiled into it, one after the
other, as long as they all compile:

* the constants it comes to are those it started from, in their places, and others behind them;
* these others are the literals of the programs that were not there before, in the order in which
  they were first met, and each occurs once among all constants;
* the code pushes one constant for each literal, in order, and what stands at its index is that
  literal.

Values are compared as data, so a float is the same literal only if it has the same bits. -/
theorem interning_exact (names : NameTable) {values : Array Value}
    (few : values.size ≤ ConstantPool.capacity) {programs : List Program}
    (compiles : (start names (.ofValues values)).CompilesAll programs) :
    let a := resumed names values programs
    let literals := programs.flatMap Program.literals
    ∃ added, a.bytecode.constants.toList = values.toList ++ added ∧
      added = (literals.filter (· ∉ values.toList)).eraseDups ∧
      (∀ v ∈ added, a.bytecode.constants.toList.count v = 1) ∧
      List.Forall₂ (fun v index => a.bytecode.constants[index.toNat]? = some v) literals
        (pushedIndices a.bytecode.code) := by
  intro a literals
  have after : (start names (.ofValues values)).After names values.toList [] :=
    ⟨rfl, ConstantPool.holds_ofValues values, few⟩
  obtain ⟨visits, indices, after', asked, code, pushes⟩ :=
    after.resume Visit.accepted_nil (ConstantPool.faithful_ofValues values) compiles
  have constants : a.bytecode.constants.toList =
      values.toList ++ Visit.newLiterals values.toList visits := by
    rw [← Visit.constantsAfter_eq]
    exact after'.pool.values
  refine ⟨Visit.newLiterals values.toList visits, constants, ?_, fun v mem => ?_, ?_⟩
  · rw [Visit.newLiterals, asked]
  · rw [constants]
    exact Visit.count_newLiterals mem
  · have none : pushedIndices (start names (.ofValues values)).bytecode.code = [] := rfl
    rw [none, List.nil_append] at code
    rw [← code] at pushes
    exact pushes

/-- A pool that holds a `null` and an integer twice, and two programs: the integer is found, the
whole float is another constant, and the two zeros are two more. -/
theorem interning_exact_zeros :
    let value (v : Expr) : Statement := .expression default v
    let float (bits : UInt64) : Statement := value (.float default ⟨bits⟩)
    let values := #[.null, .integer 1, .integer 1]
    let programs := [[value (.integer default 1), float 0x3FF0000000000000],
      [float 0, float 0x8000000000000000, float 0x3FF0000000000000]]
    let added := [.float ⟨0x3FF0000000000000⟩, .float ⟨0⟩, .float ⟨0x8000000000000000⟩]
    values.size ≤ ConstantPool.capacity ∧
      (start {} (.ofValues values)).CompilesAll programs ∧
      (resumed {} values programs).bytecode.constants.toList = values.toList ++ added ∧
      ∀ v ∈ added, (resumed {} values programs).bytecode.constants.toList.count v = 1 := by
  intro value float values programs added
  have few : values.size ≤ ConstantPool.capacity := by decide
  have compiles : (start {} (.ofValues values)).CompilesAll programs :=
    ⟨eq_ok_of_toOption (by decide +kernel), eq_ok_of_toOption (by decide +kernel), trivial⟩
  obtain ⟨new, constants, same, once, -⟩ := interning_exact {} few compiles
  have known : ((programs.flatMap Program.literals).filter (· ∉ values.toList)).eraseDups =
      added := by
    decide +kernel
  rw [known] at same
  rw [same] at constants once
  exact ⟨few, compiles, constants, once⟩

end Assembly

end StackScript
