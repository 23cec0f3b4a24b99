import StackScript.Proofs.ExactIntegers
import StackScript.Proofs.OperatorSteps

/-!
# What Running an Operation on Integers Comes To

An operation on integers has an exact result, which is a number of any size. Where the machine runs
the operation, it leaves this result on the stack if it has 64 bits, and if it has not, it fails;
there is no third possibility but a division by zero, which has no result.

## Main definitions

* `IntegerOperation`: an operation with its operands, negation included, and its exact result.
* `IntegerOperation.Executes`: a state in which the machine is to run an operation.

## Main results

* `IntegerOperation.outcome_cases`: the three things that an operation can come to.
* `IntegerOperation.goesTo_iff`, `failsWith_iff`: what a machine makes of an operation.
* `IntegerOperation.step_exact`: **the machine computes with integers exactly, or fails**.
-/

namespace StackScript

/-- An **operation on integers**: an operator with its operands. -/
inductive IntegerOperation
  | binary (op : Arithmetic) (left right : Int64)
  | negative (operand : Int64)
  deriving DecidableEq, Repr

namespace IntegerOperation

/-- The instruction that runs an operation. -/
def instruction : IntegerOperation → Instruction
  | binary op _ _ => .arithmetic op
  | negative _ => .negate

/-- The operands as they lie on the stack, the right one on top. -/
def operands : IntegerOperation → Array Value
  | binary _ left right => #[.integer left, .integer right]
  | negative operand => #[.integer operand]

/-- How the operator of an operation is written. -/
def symbol : IntegerOperation → String
  | binary op _ _ => op.symbol
  | negative _ => "-"

/-- The **exact** result of an operation, whether or not it has 64 bits. -/
def exact : IntegerOperation → Int
  | binary op left right => op.exact left.toInt right.toInt
  | negative operand => -operand.toInt

/-- The exact result has 64 bits. -/
def Fits (o : IntegerOperation) : Prop :=
  Int64.minValue.toInt ≤ o.exact ∧ o.exact ≤ Int64.maxValue.toInt

/-- The operation is a division by zero. -/
def DividesByZero : IntegerOperation → Prop
  | binary .div _ right => right.toInt = 0
  | _ => False

/-- The operation stays among the integers: it is no power with a negative exponent. -/
def IsIntegral : IntegerOperation → Prop
  | binary .pow _ right => 0 ≤ right.toInt
  | _ => True

/-- What the operators make of an operation. -/
def outcome : IntegerOperation → Except RuntimeError Value
  | binary op left right => op.apply (.integer left) (.integer right)
  | negative operand => (Value.integer operand).negate

instance (o : IntegerOperation) : Decidable o.Fits :=
  inferInstanceAs (Decidable (_ ∧ _))

instance : (o : IntegerOperation) → Decidable o.DividesByZero
  | binary .div _ right => inferInstanceAs (Decidable (right.toInt = 0))
  | binary .add _ _ | binary .sub _ _ | binary .mul _ _ | binary .pow _ _ | negative _ =>
    isFalse id

instance : (o : IntegerOperation) → Decidable o.IsIntegral
  | binary .pow _ right => inferInstanceAs (Decidable (0 ≤ right.toInt))
  | binary .add _ _ | binary .sub _ _ | binary .mul _ _ | binary .div _ _ | negative _ =>
    isTrue trivial

variable {o : IntegerOperation}

/-- The exact result fits just when it is the value of an integer of 64 bits. -/
theorem fits_iff : o.Fits ↔ ∃ n : Int64, n.toInt = o.exact := by
  constructor
  · intro fits
    exact ⟨Int64.ofInt o.exact, integer64?_eq_some_iff.mp (if_pos fits)⟩
  · rintro ⟨n, value⟩
    rw [Fits, ← value]
    exact ⟨n.minValue_le_toInt, n.toInt_le⟩

/-- Unless it divides by zero, an operation gives its exact result or fails. -/
theorem outcome_eq (integral : o.IsIntegral) (divides : ¬ o.DividesByZero) :
    o.outcome =
      match integer64? o.exact with
      | some n => .ok (.integer n)
      | none => .error (.integerOverflow o.symbol) := by
  cases o with
  | negative operand => rfl
  | binary op left right =>
      refine Arithmetic.onIntegers_eq ?_ ?_
      · rintro rfl
        exact divides
      · rintro rfl
        exact integral

/-- An operation divides by zero, gives its exact result, or is too large. -/
theorem outcome_cases (integral : o.IsIntegral) :
    (o.DividesByZero ∧ o.outcome = .error .divisionByZero) ∨
      (¬ o.DividesByZero ∧ ∃ n : Int64, n.toInt = o.exact ∧ o.outcome = .ok (.integer n)) ∨
      (¬ o.DividesByZero ∧ ¬ o.Fits ∧ o.outcome = .error (.integerOverflow o.symbol)) := by
  by_cases divides : o.DividesByZero
  · refine .inl ⟨divides, ?_⟩
    cases o with
    | negative operand => exact divides.elim
    | binary op left right =>
        cases op with
        | div => exact if_pos divides
        | add | sub | mul | pow => exact divides.elim
  · refine .inr ?_
    rw [outcome_eq integral divides]
    cases result : integer64? o.exact with
    | some n => exact .inl ⟨divides, n, integer64?_eq_some_iff.mp result, rfl⟩
    | none =>
        refine .inr ⟨divides, fun fits => ?_, rfl⟩
        obtain ⟨n, value⟩ := fits_iff.mp fits
        rw [integer64?_eq_some_iff.mpr value] at result
        cases result

/-- An integral operation succeeds just when nothing is divided by zero and the exact result fits;
it is this result then. -/
theorem outcome_eq_ok_iff {v : Value} (integral : o.IsIntegral) :
    o.outcome = .ok v ↔
      ¬ o.DividesByZero ∧ ∃ n : Int64, n.toInt = o.exact ∧ v = .integer n := by
  rcases outcome_cases integral with
    ⟨divides, outcome⟩ | ⟨divides, n, value, outcome⟩ | ⟨divides, large, outcome⟩
  · rw [outcome]
    exact ⟨nofun, fun possible => absurd divides possible.1⟩
  · rw [outcome]
    constructor
    · rintro ⟨⟩
      exact ⟨divides, n, value, rfl⟩
    · rintro ⟨-, n', value', rfl⟩
      rw [Int64.toInt_inj.mp (value.trans value'.symm)]
  · rw [outcome]
    constructor
    · nofun
    · rintro ⟨-, n, value, -⟩
      exact absurd (fits_iff.mpr ⟨n, value⟩) large

/-- It fails just when something is divided by zero, or else the exact result does not fit. -/
theorem outcome_eq_error_iff {e : RuntimeError} (integral : o.IsIntegral) :
    o.outcome = .error e ↔
      o.DividesByZero ∧ e = .divisionByZero ∨
        ¬ o.DividesByZero ∧ ¬ o.Fits ∧ e = .integerOverflow o.symbol := by
  rcases outcome_cases integral with
    ⟨divides, outcome⟩ | ⟨divides, n, value, outcome⟩ | ⟨divides, large, outcome⟩
  · simp only [outcome, divides, not_true, true_and, false_and, or_false, Except.error.injEq,
      eq_comm]
  · have fits : o.Fits := fits_iff.mpr ⟨n, value⟩
    simp only [outcome, divides, fits, not_true, false_and, and_false, or_false, reduceCtorEq]
  · simp only [outcome, divides, large, not_false_eq_true, true_and, false_and, false_or,
      Except.error.injEq, eq_comm]

/-! ### The machine runs operations -/

/-- The machine **executes** an operation in a state: the instruction comes next, and the operands
are on top of the stack, above other values. -/
structure Executes (o : IntegerOperation) (program : Bytecode) (s : MachineState)
    (below : Array Value) : Prop where
  next : fetch? program.code s.place = some (.instruction o.instruction)
  operands : s.stack.live = below ++ o.operands

/-- The state with the operands off the stack. -/
def popped (o : IntegerOperation) (s : MachineState) (below : Array Value) : MachineState :=
  { s with stack := ⟨below, o.operands.toList ++ s.stack.stale⟩, steps := s.steps + 1 }

/-- The state with a result in place of the operands, behind the instruction. -/
def pushed (o : IntegerOperation) (s : MachineState) (below : Array Value) (v : Value) :
    MachineState :=
  { o.popped s below with
    stack := (o.popped s below).stack.push v
    place := s.place + o.instruction.length }

/-- The instruction of an operation does with its operands what the operation does. -/
theorem outcome?_instruction (o : IntegerOperation) :
    o.instruction.outcome? o.operands.toList = some o.outcome := by
  cases o with
  | binary op left right => rfl
  | negative operand => rfl

variable {program : Bytecode} {limit : Nat} {s t : MachineState} {below : Array Value}
  {e : RuntimeError}

/-- A state that executes an operation stands at an operator with its operands on top. -/
theorem Executes.operates (executes : o.Executes program s below) :
    s.Operates program o.instruction o.operands.toList below :=
  ⟨executes.next, executes.operands⟩

/-- The machine goes on from an operation just if it has a result. -/
theorem goesTo_iff (executes : o.Executes program s below) (within : s.stack.height ≤ limit) :
    s.GoesTo program limit t ↔ ∃ v, o.outcome = .ok v ∧ t = o.pushed s below v :=
  executes.operates.goesTo_iff o.outcome?_instruction within

/-- The machine fails at an operation just if that fails, and with the same error. -/
theorem failsWith_iff (executes : o.Executes program s below) (within : s.stack.height ≤ limit) :
    s.FailsWith program limit e t ↔ o.outcome = .error e ∧ t = o.popped s below :=
  executes.operates.failsWith_iff o.outcome?_instruction within

/-- **The machine computes with integers exactly, or fails.** Wherever a machine that was loaded,
and run any number of times, comes to an operation on integers, and whatever the operands: it goes
on if the exact result has 64 bits, and then leaves that result on the stack; it fails for a
division by zero at every division by zero; and it fails for an overflow of the operator in every
other case. -/
theorem step_exact (program : Bytecode) (config : Config) (globals : Array Value) (k n : Nat)
    (s : MachineState) (below : Array Value) (o : IntegerOperation) (integral : o.IsIntegral)
    (comes : ((Machine.load program config globals).after k).Comes n s)
    (executes : o.Executes program s below) :
    ((∃ t, s.GoesTo program config.stackSize t) ↔ ¬ o.DividesByZero ∧ o.Fits) ∧
      (∀ t, s.GoesTo program config.stackSize t →
        ∃ v : Int64, v.toInt = o.exact ∧ t.stack.live = below.push (.integer v)) ∧
      ∀ e, (∃ t, s.FailsWith program config.stackSize e t) ↔
        o.DividesByZero ∧ e = .divisionByZero ∨
          ¬ o.DividesByZero ∧ ¬ o.Fits ∧ e = .integerOverflow o.symbol := by
  have within : s.stack.height ≤ config.stackSize := Machine.height_le_of_comes comes
  refine ⟨?_, fun t goes => ?_, fun e => ?_⟩
  · rw [fits_iff]
    constructor
    · rintro ⟨t, goes⟩
      obtain ⟨v, outcome, -⟩ := (goesTo_iff executes within).mp goes
      obtain ⟨divides, n, value, -⟩ := (outcome_eq_ok_iff integral).mp outcome
      exact ⟨divides, n, value⟩
    · rintro ⟨divides, n, value⟩
      have outcome := (outcome_eq_ok_iff integral).mpr ⟨divides, n, value, rfl⟩
      exact ⟨_, (goesTo_iff executes within).mpr ⟨_, outcome, rfl⟩⟩
  · obtain ⟨v, outcome, rfl⟩ := (goesTo_iff executes within).mp goes
    obtain ⟨-, n, value, rfl⟩ := (outcome_eq_ok_iff integral).mp outcome
    exact ⟨n, value, rfl⟩
  · rw [← outcome_eq_error_iff integral]
    constructor
    · rintro ⟨t, fails⟩
      exact ((failsWith_iff executes within).mp fails).1
    · intro outcome
      exact ⟨_, (failsWith_iff executes within).mpr ⟨outcome, rfl⟩⟩

/-- A program that pushes the operands and runs the operation. -/
def ownProgram : IntegerOperation → Bytecode
  | binary op left right =>
    { code := #[0, 0, 0, 0, 0, 1, op.opcode.byte]
      constants := #[.integer left, .integer right] }
  | negative operand =>
    { code := #[0, 0, 0, 11]
      constants := #[.integer operand] }

/-- Every operation is executed by some machine, whatever its operands. -/
theorem exists_executes (o : IntegerOperation) :
    ∃ n s, (Machine.load o.ownProgram {} #[]).Comes n s ∧ o.Executes o.ownProgram s #[] := by
  cases o with
  | negative operand =>
      have first : fetch? #[0, 0, 0, 11] 0 = some (.instruction (.constant 0)) := by decide
      have last : fetch? #[0, 0, 0, 11] 3 = some (.instruction .negate) := by decide
      refine ⟨1, { stack := ⟨#[.integer operand], []⟩, place := 3, steps := 1 },
        .next ⟨rfl, ?_⟩ (.start _), last, rfl⟩
      exact (MachineState.step_of_fetch first).trans rfl
  | binary op left right =>
      obtain ⟨n, s, comes, operates⟩ :=
        Instruction.exists_operates (binary op left right).outcome?_instruction
      exact ⟨n, s, comes, operates.next, operates.live⟩

/-- The least integer is a power of `-2`, and its quotient by `-1` does not fit. -/
theorem step_exact_least :
    let power := binary .pow (-2) 63
    let quotient := binary .div Int64.minValue (-1)
    (∃ s t : MachineState, s.GoesTo power.ownProgram 2048 t ∧
        ∃ v : Int64, v.toInt = -9223372036854775808 ∧ t.stack.live = #[.integer v]) ∧
      ∃ s t : MachineState, s.FailsWith quotient.ownProgram 2048 (.integerOverflow "/") t := by
  intro power quotient
  obtain ⟨n, s, raises, raising⟩ := power.exists_executes
  obtain ⟨k, u, divides, dividing⟩ := quotient.exists_executes
  obtain ⟨goes, result, -⟩ :=
    step_exact power.ownProgram {} #[] 0 n s #[] power (by decide) raises raising
  obtain ⟨-, -, fails⟩ :=
    step_exact quotient.ownProgram {} #[] 0 k u #[] quotient trivial divides dividing
  obtain ⟨t, goes⟩ := goes.mpr ⟨nofun, by decide⟩
  obtain ⟨t', fails⟩ := (fails (.integerOverflow "/")).mpr (.inr ⟨by decide, by decide, rfl⟩)
  exact ⟨⟨s, t, goes, result t goes⟩, u, t', fails⟩

end IntegerOperation

end StackScript
