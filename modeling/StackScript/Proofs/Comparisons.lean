import StackScript.Proofs.OperatorSteps
import StackScript.Proofs.RoundingOrder

/-!
# Comparing Numbers

Two integers are compared exactly; as soon as a float takes part, both numbers are compared as
floats, an integer after it was rounded. Rounding keeps the order but not the differences, so the
two ways never contradict each other, though one can tell apart what the other cannot.

Hence one of the three relations holds between any two numbers, and `>` is transitive. Equality is
transitive as well, apart from one case: a float can equal two different integers, both of which are
rounded to it. These have at least 54 binary digits, or are `2 ^ 53` itself.

## Main definitions

* `Value.IsNumber`: an integer or a finite float.
* `Comparison.holds`: whether a comparison holds.
* `Comparison.IsRun`: what the machine makes of a comparison, wherever it comes to it.
* `Value.Joins`: a float that equals two different integers.

## Main results

* `Comparison.isRun_holds`: the machine leaves on the stack whether a comparison holds.
* `Comparison.equal_holds_iff`, `Comparison.greater_holds_iff`: when comparisons hold, in terms of
  the order of the integers and of the floats.
* `Comparison.coherent`: **how comparisons of numbers hang together**.
-/

namespace StackScript

namespace Value

/-- A **number**: an integer or a finite float. -/
def IsNumber : Value → Prop
  | integer _ => True
  | float x => x.isFinite = true
  | string _ | boolean _ | null => False

instance : (v : Value) → Decidable v.IsNumber
  | integer _ => isTrue trivial
  | float x => inferInstanceAs (Decidable (x.isFinite = true))
  | string _ | boolean _ | null => isFalse id

/-- The place of a number in the order of the floats. -/
def rank : Value → Int
  | integer n => (Binary64.ofInt n.toInt).rank
  | float x => x.rank
  | string _ | boolean _ | null => 0

/-- A float **joins** two different integers, which are large. -/
def Joins (b a c : Value) : Prop :=
  ∃ x m n, b = float x ∧ a = integer m ∧ c = integer n ∧ m ≠ n ∧
    9007199254740992 ≤ m.toInt.natAbs ∧ 9007199254740992 ≤ n.toInt.natAbs

end Value

namespace Comparison

/-- Whether a comparison **holds** between two values. -/
def holds (op : Comparison) (left right : Value) : Bool :=
  match op.apply left right with
  | .ok v => v = .boolean true
  | .error _ => false

/-- The machine **runs** a comparison to an answer: wherever it comes to it, it goes on, and leaves
the answer in place of the operands. -/
def IsRun (op : Comparison) (left right : Value) (answer : Bool) : Prop :=
  ∀ (program : Bytecode) (config : Config) (globals : Array Value) (k n : Nat) (s : MachineState)
    (below : Array Value), ((Machine.load program config globals).after k).Comes n s →
    s.Operates program (.compare op) [left, right] below →
    (∃ t, s.GoesTo program config.stackSize t) ∧
      ∀ t, s.GoesTo program config.stackSize t → t.stack.live = below.push (.boolean answer)

variable {op : Comparison} {a b c : Value}

/-! ### Numbers as floats -/

/-- An integer, taken as a float, is a number. -/
theorem not_isNaN_ofInt (n : Int64) : (Binary64.ofInt n.toInt).isNaN = false := by
  have low := n.le_toInt
  have high := n.toInt_lt
  exact Binary64.not_isNaN_of_isFinite (Binary64.isFinite_ofInt (by omega))

/-- A number as a float, which is no NaN and has the place of the number. -/
theorem exists_asFloat (number : a.IsNumber) :
    ∃ x, a.asFloat? = some x ∧ x.isNaN = false ∧ x.rank = a.rank := by
  cases a with
  | integer n => exact ⟨_, rfl, not_isNaN_ofInt n, rfl⟩
  | float x => exact ⟨x, rfl, Binary64.not_isNaN_of_isFinite number, rfl⟩
  | string _ | boolean _ | null => exact number.elim

/-- Unless both are integers, two numbers are compared as floats. -/
theorem apply_of_mixed (number : a.IsNumber) (number' : b.IsNumber)
    (mixed : ∀ m n, a = .integer m → b ≠ .integer n) : ∃ x y,
    (∀ op : Comparison, op.apply a b = .ok (.boolean (op.onFloats x y))) ∧ x.isNaN = false ∧
      y.isNaN = false ∧ x.rank = a.rank ∧ y.rank = b.rank := by
  obtain ⟨x, known, isNumber, rank⟩ := exists_asFloat number
  obtain ⟨y, known', isNumber', rank'⟩ := exists_asFloat number'
  refine ⟨x, y, fun op => ?_, isNumber, isNumber', rank, rank'⟩
  unfold apply
  split
  · next m n => exact absurd rfl (mixed m n rfl)
  · rw [known, known']

/-- Two numbers can be compared, and the answer is a truth value. -/
theorem apply_eq (number : a.IsNumber) (number' : b.IsNumber) (op : Comparison) :
    op.apply a b = .ok (.boolean (op.holds a b)) := by
  have answered : ∃ answer, op.apply a b = .ok (.boolean answer) := by
    by_cases both : ∃ m n, a = .integer m ∧ b = .integer n
    · obtain ⟨m, n, rfl, rfl⟩ := both
      exact ⟨_, rfl⟩
    · obtain ⟨x, y, apply, -⟩ := apply_of_mixed number number' fun m n same same' =>
        both ⟨m, n, same, same'⟩
      exact ⟨_, apply op⟩
  obtain ⟨answer, apply⟩ := answered
  rw [holds, apply]
  cases answer <;> rfl

/-- **The machine leaves on the stack whether a comparison holds.** -/
theorem isRun_holds (number : a.IsNumber) (number' : b.IsNumber) (op : Comparison) :
    op.IsRun a b (op.holds a b) := by
  intro program config globals k n s below comes operates
  have within := Machine.height_le_of_comes comes
  have known : (Instruction.compare op).outcome? [a, b] = some (.ok (.boolean (op.holds a b))) :=
    congrArg some (apply_eq number number' op)
  refine ⟨⟨_, (operates.goesTo_iff known within).mpr ⟨_, rfl, rfl⟩⟩, fun t goes => ?_⟩
  obtain ⟨v, same, rfl⟩ := (operates.goesTo_iff known within).mp goes
  cases same
  rfl

/-! ### The order of numbers -/

/-- Two numbers are equal if they have one place, and if they are no different integers. -/
theorem equal_holds_iff (number : a.IsNumber) (number' : b.IsNumber) :
    equal.holds a b = true ↔
      a.rank = b.rank ∧ ∀ m n, a = .integer m → b = .integer n → m = n := by
  by_cases both : ∃ m n, a = .integer m ∧ b = .integer n
  · obtain ⟨m, n, rfl, rfl⟩ := both
    have exact : equal.holds (.integer m) (.integer n) = true ↔ m = n := by
      simp [holds, apply, onIntegers, Int64.toInt_inj]
    rw [exact]
    constructor
    · rintro rfl
      exact ⟨rfl, fun m n same same' => by cases same; cases same'; rfl⟩
    · rintro ⟨-, same⟩
      exact same m n rfl rfl
  · obtain ⟨x, y, apply, isNumber, isNumber', rank, rank'⟩ :=
      apply_of_mixed number number' fun m n same same' => both ⟨m, n, same, same'⟩
    have floats : equal.holds a b = true ↔ a.rank = b.rank := by
      simp [holds, apply, onFloats, Binary64.same, isNumber, isNumber', rank, rank']
    rw [floats]
    refine ⟨fun same => ⟨same, fun m n left right => ?_⟩, And.left⟩
    exact absurd ⟨m, n, left, right⟩ both

/-- Numbers are different just when they are not equal. -/
theorem notEqual_holds (number : a.IsNumber) (number' : b.IsNumber) :
    notEqual.holds a b = !equal.holds a b := by
  by_cases both : ∃ m n, a = .integer m ∧ b = .integer n
  · obtain ⟨m, n, rfl, rfl⟩ := both
    simp [holds, apply, onIntegers]
  · obtain ⟨x, y, apply, -⟩ :=
      apply_of_mixed number number' fun m n same same' => both ⟨m, n, same, same'⟩
    simp [holds, apply, onFloats]

/-- A number is greater than another if it has a greater place, or if it is a greater integer. -/
theorem greater_holds_iff (number : a.IsNumber) (number' : b.IsNumber) :
    greater.holds a b = true ↔
      b.rank < a.rank ∨ ∃ m n, a = .integer m ∧ b = .integer n ∧ n.toInt < m.toInt := by
  by_cases both : ∃ m n, a = .integer m ∧ b = .integer n
  · obtain ⟨m, n, rfl, rfl⟩ := both
    have exact : greater.holds (.integer m) (.integer n) = true ↔ n.toInt < m.toInt := by
      simp [holds, apply, onIntegers]
    rw [exact]
    constructor
    · exact fun less => .inr ⟨m, n, rfl, rfl, less⟩
    · rintro (higher | ⟨_, _, same, same', less⟩)
      · -- rounding keeps the order, so what is higher after it was greater before
        refine Int.not_le.mp fun le => ?_
        have kept : (Value.integer m).rank ≤ (Value.integer n).rank := Binary64.rank_ofInt_mono le
        omega
      · cases same
        cases same'
        exact less
  · obtain ⟨x, y, apply, isNumber, isNumber', rank, rank'⟩ :=
      apply_of_mixed number number' fun m n same same' => both ⟨m, n, same, same'⟩
    have floats : greater.holds a b = true ↔ b.rank < a.rank := by
      simp [holds, apply, onFloats, Binary64.above, isNumber, isNumber', rank, rank']
    rw [floats]
    refine ⟨.inl, ?_⟩
    rintro (higher | ⟨m, n, same, same', -⟩)
    · exact higher
    · exact absurd ⟨m, n, same, same'⟩ both

/-- The greater one of two integers does not have the lower place. -/
theorem rank_le_of_greater (number : a.IsNumber) (number' : b.IsNumber)
    (greater : greater.holds a b = true) : b.rank ≤ a.rank := by
  rcases (greater_holds_iff number number').mp greater with higher | ⟨m, n, rfl, rfl, less⟩
  · exact Int.le_of_lt higher
  · exact Binary64.rank_ofInt_mono (Int.le_of_lt less)

/-- The number of the higher rank is the greater one. -/
theorem greater_of_rank (number : a.IsNumber) (number' : b.IsNumber) (higher : b.rank < a.rank) :
    greater.holds a b = true :=
  (greater_holds_iff number number').mpr (.inl higher)

/-- Two numbers are compared like two integers of any size. -/
theorem exists_order (number : a.IsNumber) (number' : b.IsNumber) : ∃ x y : Int,
    (equal.holds a b = true ↔ x = y) ∧ (greater.holds a b = true ↔ y < x) ∧
      (greater.holds b a = true ↔ x < y) := by
  by_cases both : ∃ m n, a = .integer m ∧ b = .integer n
  · obtain ⟨m, n, rfl, rfl⟩ := both
    exact ⟨m.toInt, n.toInt, by simp [holds, apply, onIntegers]⟩
  · refine ⟨a.rank, b.rank, ?_, ?_, ?_⟩
    · rw [equal_holds_iff number number']
      exact ⟨And.left, fun same => ⟨same, fun m n left right => absurd ⟨m, n, left, right⟩ both⟩⟩
    · rw [greater_holds_iff number number']
      exact ⟨fun higher => higher.resolve_right fun ⟨m, n, left, right, _⟩ =>
        both ⟨m, n, left, right⟩, .inl⟩
    · rw [greater_holds_iff number' number]
      exact ⟨fun higher => higher.resolve_right fun ⟨m, n, right, left, _⟩ =>
        both ⟨n, m, left, right⟩, .inl⟩

/-- Just one of the three relations holds between two numbers. -/
theorem trichotomy (number : a.IsNumber) (number' : b.IsNumber) :
    (greater.holds a b = true ∧ equal.holds a b = false ∧ greater.holds b a = false) ∨
      (greater.holds a b = false ∧ equal.holds a b = true ∧ greater.holds b a = false) ∨
      (greater.holds a b = false ∧ equal.holds a b = false ∧ greater.holds b a = true) := by
  obtain ⟨x, y, same, above, below⟩ := exists_order number number'
  simp only [← Bool.not_eq_true, same, above, below]
  omega

/-- Of numbers, what is greater than a greater one is greater. -/
theorem greater_trans (number : a.IsNumber) (number' : b.IsNumber) (number'' : c.IsNumber)
    (first : greater.holds a b = true) (second : greater.holds b c = true) :
    greater.holds a c = true := by
  have le := rank_le_of_greater number number' first
  have le' := rank_le_of_greater number' number'' second
  rcases (greater_holds_iff number number').mp first with higher | ⟨m, n, rfl, rfl, less⟩
  · exact greater_of_rank number number'' (by omega)
  rcases (greater_holds_iff number' number'').mp second with higher | ⟨_, k, same, rfl, less'⟩
  · exact greater_of_rank number number'' (by omega)
  · cases same
    exact (greater_holds_iff number number'').mpr (.inr ⟨m, k, rfl, rfl, Int.lt_trans less' less⟩)

/-- Two different integers that have one place are both large. -/
theorem large_of_rank_eq {m n : Int64}
    (same : (Value.integer m).rank = (Value.integer n).rank) (other : m ≠ n) :
    9007199254740992 ≤ m.toInt.natAbs ∧ 9007199254740992 ≤ n.toInt.natAbs := by
  have apart : m.toInt ≠ n.toInt := fun equal => other (Int64.toInt_inj.mp equal)
  have up : m.toInt < n.toInt → _ → (Value.integer m).rank < (Value.integer n).rank :=
    Binary64.rank_ofInt_lt
  have down : n.toInt < m.toInt → _ → (Value.integer n).rank < (Value.integer m).rank :=
    Binary64.rank_ofInt_lt
  omega

/-- **Equality is transitive**, unless a float joins two different integers. -/
theorem equal_trans_iff (number : a.IsNumber) (number' : b.IsNumber) (number'' : c.IsNumber)
    (first : equal.holds a b = true) (second : equal.holds b c = true) :
    equal.holds a c = true ↔ ¬ b.Joins a c := by
  obtain ⟨rank, exact⟩ := (equal_holds_iff number number').mp first
  obtain ⟨rank', exact'⟩ := (equal_holds_iff number' number'').mp second
  rw [equal_holds_iff number number'']
  constructor
  · rintro ⟨-, same⟩ ⟨x, m, n, -, left, right, other, -⟩
    exact other (same m n left right)
  · intro apart
    refine ⟨rank.trans rank', fun m n left right => ?_⟩
    subst left right
    cases b with
    | integer k => exact (exact m k rfl rfl).trans (exact' k n rfl rfl)
    | float x =>
        refine Classical.byContradiction fun other => apart ?_
        exact ⟨x, m, n, rfl, rfl, rfl, other, large_of_rank_eq (rank.trans rank') other⟩
    | string _ | boolean _ | null => exact number'.elim

/-- **How comparisons of numbers hang together.** The machine never fails to compare two numbers.
`!=` is the negation of `==`; of `>`, `==` and `>` with its operands swapped just one holds; and `>`
is transitive. So is `==`, unless a float joins two different integers, which have magnitudes of at
least `2 ^ 53`; these two are not equal. -/
theorem coherent (number : a.IsNumber) (number' : b.IsNumber) (number'' : c.IsNumber) :
    (∀ op : Comparison, op.IsRun a b (op.holds a b)) ∧
      notEqual.holds a b = !equal.holds a b ∧
      ((greater.holds a b = true ∧ equal.holds a b = false ∧ greater.holds b a = false) ∨
        (greater.holds a b = false ∧ equal.holds a b = true ∧ greater.holds b a = false) ∨
        (greater.holds a b = false ∧ equal.holds a b = false ∧ greater.holds b a = true)) ∧
      (greater.holds a b = true → greater.holds b c = true → greater.holds a c = true) ∧
      (equal.holds a b = true → equal.holds b c = true →
        (equal.holds a c = true ↔ ¬ b.Joins a c)) :=
  ⟨isRun_holds number number', notEqual_holds number number', trichotomy number number',
    greater_trans number number' number'', equal_trans_iff number number' number''⟩

/-- An integer, a float and an integer, one greater than the next; and the machine compares the
first two. -/
theorem coherent_descending :
    let first : Value := .integer 9007199254740994
    let second : Value := .float ⟨0x4340000000000000⟩
    let third : Value := .integer 9007199254740991
    first.IsNumber ∧ second.IsNumber ∧ third.IsNumber ∧ greater.holds first third = true ∧
      ∃ s t : MachineState,
        s.GoesTo ((Instruction.compare .greater).ownProgram first second) 2048 t ∧
        t.stack.live = #[.boolean true] := by
  intro first second third
  have above : greater.holds first second = true := by decide +kernel
  have above' : greater.holds second third = true := by decide +kernel
  obtain ⟨runs, -, -, transitive, -⟩ := @coherent first second third trivial (by decide) trivial
  refine ⟨trivial, by decide, trivial, transitive above above', ?_⟩
  have known : (Instruction.compare .greater).outcome? [first, second] =
      some (greater.apply first second) := rfl
  obtain ⟨n, s, comes, operates⟩ := Instruction.exists_operates known
  obtain ⟨⟨t, goes⟩, leaves⟩ := runs .greater _ {} #[] 0 n s #[] comes operates
  rw [above] at leaves
  exact ⟨s, t, goes, leaves t goes⟩

/-- A float can equal two different integers: `2 ^ 53` as a float is equal to `2 ^ 53 + 1`, which is
rounded to it, and to `2 ^ 53`. -/
theorem equal_not_transitive :
    ¬ ∀ a b c : Value, a.IsNumber → b.IsNumber → c.IsNumber →
      equal.holds a b = true → equal.holds b c = true → equal.holds a c = true := by
  intro transitive
  have same := transitive (.integer 9007199254740993) (.float ⟨0x4340000000000000⟩)
    (.integer 9007199254740992) trivial (by decide) trivial (by decide +kernel) (by decide +kernel)
  exact absurd same (by decide)

end Comparison

end StackScript
