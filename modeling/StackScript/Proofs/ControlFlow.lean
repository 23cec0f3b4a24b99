import StackScript.Proofs.LinearHeight
import StackScript.Proofs.Runs
import StackScript.Proofs.Execution

/-!
# Where Control Goes

What one instruction does to the height of the stack and to the place, jumps included, and why it
fails if it does. From this follows what one step does that begins where an instruction begins: it
comes behind that instruction or to the target of a jump. Everything about where runs come to is
derived from these two facts.

## Main definitions

* `Exec.Fault`: **why an instruction fails**.
* `IsBoundary`, `JumpsTo`: the offsets at which something stands in a code, and the jumps there.
* `MachineState.Between`: a state between two parts of a code.

## Main results

* `Exec.ends_run`: what an instruction does.
* `exists_codeOf`: **a code in which a scan finds nothing but instructions is their code**.
* `MachineState.Between.goes`, `MachineState.Between.fails`: what a step does from there.
* `Machine.Stops.ne_stepLimitExceeded`: a run that stops does not do so for a step limit.
-/

namespace StackScript

/-! ### One instruction -/

namespace Exec

/-- **Why an instruction fails** in a state. -/
inductive Fault (program : Bytecode) (i : Instruction) (s : MachineState) : RuntimeError → Prop
  /-- For reasons that are not those of the code. -/
  | ordinary {e : RuntimeError} : e.isOrdinary = true → Fault program i s e
  /-- Because there is no such constant. -/
  | missing {index : UInt16} : i = .constant index →
      Fault program i s (.constantOutOfRange index.toNat program.constants.size)
  /-- Because the stack is too low. -/
  | low : s.stack.height < i.effect.pops → Fault program i s (.stackUnderflow s.place)

variable {program : Bytecode} {i : Instruction} {s : MachineState}

/-- Where an instruction that begins with a pop finds no value, it fails. -/
theorem bind_pop_of_empty {α : Type} (empty : s.stack.height = 0) (f : Value → Exec α) :
    (pop >>= f) s = .error (.stackUnderflow s.place) s := by
  rw [bind_run, pop_of_empty empty]

/-- Where an instruction that begins with two pops finds only one value, it fails. -/
theorem exists_bind_pop_pop {α : Type} (low : s.stack.height < 2) (f : Value → Value → Exec α) :
    ∃ t, (do let right ← pop; let left ← pop; f right left : Exec α) s =
      .error (.stackUnderflow s.place) t := by
  by_cases empty : s.stack.height = 0
  · exact ⟨s, bind_pop_of_empty empty _⟩
  · obtain ⟨stack, place, globals, steps⟩ := s
    have one : stack.height = 1 := by
      change stack.height < 2 at low
      change ¬ stack.height = 0 at empty
      omega
    obtain ⟨v, top⟩ := Stack.exists_top (s := stack) (by omega)
    refine ⟨⟨stack.drop v, place, globals, steps⟩, ?_⟩
    rw [bind_run, pop_of_top top]
    exact bind_pop_of_empty (by rw [Stack.height_drop, one]) _

/-- An instruction that finds the stack too low fails for it. -/
theorem exists_run_of_low (program : Bytecode) (limit : Nat)
    (low : s.stack.height < i.effect.pops) :
    ∃ t, run program limit i s = .error (.stackUnderflow s.place) t := by
  have empty (one : i.effect.pops = 1) : s.stack.height = 0 := by omega
  cases i with
  | arithmetic op | compare op => exact exists_bind_pop_pop low _
  | pop | negate | not | store slot | jumpUnless target =>
      exact ⟨s, bind_pop_of_empty (empty rfl) _⟩
  | constant index | boolean b | null | load slot | jump target =>
      exact absurd low (Nat.not_lt_zero _)

/-- **What an instruction does**: it finds the stack high enough and changes its height by its
effect, and the machine goes on behind it or at its target; or it fails. -/
theorem ends_run (program : Bytecode) (limit : Nat) (i : Instruction) (s : MachineState) :
    Ends (fun _ t => i.effect.pops ≤ s.stack.height ∧
        t.stack.height = s.stack.height - i.effect.pops + i.effect.pushes ∧
        (t.place = s.place + i.length ∨ i.target? = some t.place))
      (fun e _ => Fault program i s e) (run program limit i s) := by
  by_cases pops : i.effect.pops ≤ s.stack.height
  · cases deed : i.deed? program.constants s.globals with
    | some d =>
        rw [run_eq_perform limit deed pops]
        have ends := Deed.ends (Instruction.blameless_deed deed) limit (m := s.memory)
          (Instruction.effect_deed deed ▸ pops)
        cases performed : d.perform limit s.memory with
        | ok _ m =>
            rw [performed] at ends
            rw [Instruction.effect_deed deed] at pops ⊢
            exact ⟨pops, ends, .inl rfl⟩
        | error e m =>
            rw [performed] at ends
            exact .ordinary ends
    | none =>
        -- only the jumps and a constant that is missing have no deed
        cases i with
        | constant index =>
            have missing : program.constants[index.toNat]? = none := Option.map_eq_none_iff.mp deed
            simp only [run, missing]
            exact .missing rfl
        | jump target => exact ⟨pops, rfl, .inr rfl⟩
        | jumpUnless target =>
            obtain ⟨stack, place, globals, steps⟩ := s
            obtain ⟨v, top⟩ := Stack.exists_top pops
            have lower : (stack.drop v).height = stack.height - 1 + 0 := Stack.height_drop stack v
            simp only [run, bind_run, pop_of_top top]
            cases v.isTruthy with
            | true => exact ⟨pops, lower, .inl rfl⟩
            | false => exact ⟨pops, lower, .inr rfl⟩
        | _ => cases deed
  · obtain ⟨t, failed⟩ := exists_run_of_low program limit (Nat.lt_of_not_le pops)
    rw [failed]
    exact .low (Nat.lt_of_not_le pops)

end Exec

/-! ### What stands in a code -/

/-- A **boundary** of a code is an offset at which a scan finds something. -/
def IsBoundary (code : Array UInt8) (o : Nat) : Prop :=
  ∃ l ∈ scan code, l.offset = o

/-- At an offset of a code stands a jump to another. -/
def JumpsTo (code : Array UInt8) (o target : Nat) : Prop :=
  ∃ i, ⟨o, .instruction i⟩ ∈ scan code ∧ i.target? = some target

/-- What stands in the code of instructions are these instructions, each behind those before it. -/
theorem mem_located_iff {o : Nat} {is : List Instruction} {l : Located} :
    l ∈ located o is ↔ ∃ before i behind, is = before ++ i :: behind ∧
      l = ⟨o + codeSize before, .instruction i⟩ := by
  constructor
  · intro mem
    induction is generalizing o with
    | nil => cases mem
    | cons i is ih =>
        rcases List.mem_cons.mp mem with rfl | mem
        · exact ⟨[], i, is, rfl, rfl⟩
        · obtain ⟨before, j, behind, rfl, rfl⟩ := ih mem
          exact ⟨i :: before, j, behind, rfl, by rw [codeSize_cons, Nat.add_assoc]⟩
  · rintro ⟨before, i, behind, rfl, rfl⟩
    rw [located_append]
    exact List.mem_append_right _ (List.mem_cons_self ..)

/-- Where an instruction stands, there is a boundary. -/
theorem isBoundary_codeOf {before behind : List Instruction} (nonempty : behind ≠ []) :
    IsBoundary (codeOf (before ++ behind)) (codeSize before) := by
  obtain ⟨i, rest, rfl⟩ := List.exists_cons_of_ne_nil nonempty
  refine ⟨⟨codeSize before, .instruction i⟩, ?_, rfl⟩
  rw [scan_codeOf, mem_located_iff]
  exact ⟨before, i, rest, rfl, by rw [Nat.zero_add]⟩

/-- At a boundary a code of instructions divides in two. -/
theorem exists_of_isBoundary {is : List Instruction} {o : Nat} (h : IsBoundary (codeOf is) o) :
    ∃ before behind, is = before ++ behind ∧ o = codeSize before := by
  obtain ⟨l, mem, rfl⟩ := h
  rw [scan_codeOf, mem_located_iff] at mem
  obtain ⟨before, i, behind, rfl, rfl⟩ := mem
  exact ⟨before, i :: behind, rfl, Nat.zero_add _⟩

/-- A jump in a code goes to its target. -/
theorem jumpsTo_codeOf {before behind : List Instruction} {i : Instruction} {target : Nat}
    (jump : i.target? = some target) :
    JumpsTo (codeOf (before ++ i :: behind)) (codeSize before) target := by
  refine ⟨i, ?_, jump⟩
  rw [scan_codeOf, mem_located_iff]
  exact ⟨before, i, behind, rfl, by rw [Nat.zero_add]⟩

/-- Whatever jumps in a code of instructions is one of them. -/
theorem exists_of_jumpsTo {is : List Instruction} {o target : Nat}
    (h : JumpsTo (codeOf is) o target) :
    ∃ before i behind, is = before ++ i :: behind ∧ o = codeSize before ∧
      i.target? = some target := by
  obtain ⟨i, mem, jump⟩ := h
  rw [scan_codeOf, mem_located_iff] at mem
  obtain ⟨before, j, behind, rfl, same⟩ := mem
  cases same
  exact ⟨before, i, behind, rfl, Nat.zero_add _, jump⟩

/-- The bytes that were read as an instruction are its bytes. -/
theorem Instruction.bytes_ofOpcode {op : Opcode} (operand : UInt16) :
    (ofOpcode op operand).bytes =
      op.byte :: if op.hasOperand then wordBytes operand.toNat else [] := by
  cases op <;> rfl

/-- Bytes in which a scan finds nothing but instructions are the bytes of instructions. -/
theorem exists_bytesOf (o : Nat) (found : Array Located) (code : List UInt8)
    (whole : ∀ l ∈ (scanFrom o found code).toList, ∃ i, l.fetched = .instruction i) :
    ∃ is, code = bytesOf is := by
  -- what was found before or is found now, is found in the end
  have found_mem {o : Nat} {found : Array Located} {l : Located} (code : List UInt8)
      (mem : l ∈ found.toList) : l ∈ (scanFrom o found code).toList := by
    rw [scanFrom_eq_append, Array.toList_append]
    exact List.mem_append_left _ mem
  fun_induction scanFrom o found code with
  | case1 => exact ⟨[], rfl⟩
  | case2 o found byte rest undefined ih =>
      obtain ⟨i, wrong⟩ := whole ⟨o, .undefined byte⟩ (found_mem rest (by simp))
      cases wrong
  | case3 o found byte op known hasOperand high low rest i ih =>
      obtain ⟨is, rfl⟩ := ih whole
      have word : (UInt16.ofNat (wordOf high low)).toNat = wordOf high low :=
        UInt16.toNat_ofNat_of_lt (wordOf_lt high low)
      refine ⟨i :: is, ?_⟩
      rw [bytesOf_cons, Instruction.bytes_ofOpcode, word, hasOperand, if_pos rfl,
        wordBytes_wordOf, Opcode.byte_of_ofByte? known]
      rfl
  | case4 o found byte rest op known hasOperand short =>
      obtain ⟨i, wrong⟩ := whole ⟨o, .truncated op⟩ (by simp)
      cases wrong
  | case5 o found byte rest op known hasNone i ih =>
      obtain ⟨is, rfl⟩ := ih whole
      refine ⟨i :: is, ?_⟩
      rw [bytesOf_cons, Instruction.bytes_ofOpcode, if_neg hasNone,
        Opcode.byte_of_ofByte? known]
      rfl

/-- **A code in which a scan finds nothing but instructions is their code.** -/
theorem exists_codeOf {code : Array UInt8}
    (whole : ∀ l ∈ scan code, ∃ i, l.fetched = .instruction i) : ∃ is, code = codeOf is := by
  obtain ⟨is, bytes⟩ := exists_bytesOf 0 #[] code.toList whole
  exact ⟨is, by rw [codeOf, ← bytes, Array.toArray_toList]⟩

/-! ### Steps -/

namespace MachineState

/-- A state stands **between** two parts of a code: at the end of the first one. -/
structure Between (program : Bytecode) (before behind : List Instruction) (s : MachineState) :
    Prop where
  code : program.code = codeOf (before ++ behind)
  place : s.place = codeSize before

variable {program : Bytecode} {limit : Nat} {before behind : List Instruction} {i : Instruction}
  {s t : MachineState} {e : RuntimeError}

/-- A run begins with nothing before it and the whole code behind it. -/
theorem between_begin {is : List Instruction} (code : program.code = codeOf is)
    (s : MachineState) : s.begin.Between program [] is :=
  ⟨code, rfl⟩

namespace Between

/-- Nothing is left of a code just when its end is reached. -/
theorem atEnd_iff (h : s.Between program before behind) :
    s.atEnd program = true ↔ behind = [] := by
  rw [atEnd, decide_eq_true_iff, h.code, size_codeOf, codeSize_append, h.place]
  constructor
  · intro outside
    cases behind with
    | nil => rfl
    | cons i rest =>
        have := i.one_le_length
        rw [codeSize_cons] at outside
        omega
  · rintro rfl
    exact Nat.le_refl _

/-- Where an instruction is left, it is the one to run. -/
theorem step_eq (h : s.Between program before (i :: behind)) :
    step program limit s = Exec.run program limit i { s with steps := s.steps + 1 } := by
  refine step_of_fetch ?_
  rw [h.code, h.place, fetch?_codeOf]

/-- **What a step does**: it runs the next instruction, which changes the height of the stack by
its effect, and comes behind it or to its target. -/
theorem goes (h : s.Between program before behind) (goes : s.GoesTo program limit t) :
    ∃ i rest, behind = i :: rest ∧ i.effect.pops ≤ s.stack.height ∧
      t.stack.height = s.stack.height - i.effect.pops + i.effect.pushes ∧
      (t.Between program (before ++ [i]) rest ∨ i.target? = some t.place) := by
  cases behind with
  | nil => exact absurd (h.atEnd_iff.mpr rfl) (by rw [goes.1]; exact Bool.false_ne_true)
  | cons i rest =>
      have ends := Exec.ends_run program limit i { s with steps := s.steps + 1 }
      rw [← h.step_eq, goes.2] at ends
      obtain ⟨pops, height, past | jumped⟩ := ends
      · refine ⟨i, rest, rfl, pops, height, .inl ⟨?_, ?_⟩⟩
        · rw [h.code, List.append_assoc]
          rfl
        · rw [past, codeSize_append, codeSize_cons, codeSize_nil, Nat.add_zero]
          exact congrArg (· + i.length) h.place
      · exact ⟨i, rest, rfl, pops, height, .inr jumped⟩

/-- **Why a step fails**: for what is wrong with the next instruction. -/
theorem fails (h : s.Between program before behind) (fails : s.FailsWith program limit e t) :
    ∃ i rest, behind = i :: rest ∧ Exec.Fault program i { s with steps := s.steps + 1 } e := by
  cases behind with
  | nil => exact absurd (h.atEnd_iff.mpr rfl) (by rw [fails.1]; exact Bool.false_ne_true)
  | cons i rest =>
      have ends := Exec.ends_run program limit i { s with steps := s.steps + 1 }
      rw [← h.step_eq, fails.2] at ends
      exact ⟨i, rest, rfl, ends⟩

end Between

/-- No step fails for a step limit. -/
theorem FailsWith.ne_stepLimitExceeded (fails : s.FailsWith program limit e t) (k : Nat) :
    e ≠ .stepLimitExceeded k := by
  have stepped := fails.2
  simp only [step, bind_run, get_run, modify_run] at stepped
  rintro rfl
  cases fetched : fetch? program.code s.place with
  | none =>
      rw [fetched] at stepped
      cases stepped
  | some fetched' =>
      rw [fetched] at stepped
      cases fetched' with
      | undefined byte | truncated op => cases stepped
      | instruction i =>
          have ends := Exec.ends_run program limit i { s with steps := s.steps + 1 }
          dsimp only at stepped
          rw [stepped] at ends
          cases ends with
          | ordinary ordinary => cases ordinary

end MachineState

/-- A run that stops does not do so for a step limit. -/
theorem Machine.Stops.ne_stepLimitExceeded {m : Machine} {n : Nat}
    {outcome : Except RuntimeError Unit} {t : MachineState} (h : m.Stops n outcome t) (k : Nat) :
    outcome ≠ .error (.stepLimitExceeded k) := by
  cases h with
  | refused refusal => nofun
  | ran accepted stops =>
      rcases stops.exists_last with ⟨-, -, rfl⟩ | ⟨_, u, e, -, -, fails, rfl⟩
      · nofun
      · exact fun same => fails.ne_stepLimitExceeded k (Except.error.inj same)

end StackScript
