import StackScript.Proofs.References

/-!
# The Order of Compiling

A compilation goes through a program in one fixed order, and only at some points of it anything is
asked: whether a name is bound, whether there is an index for a constant or a slot for a binding,
whether an operator is known, whether a jump can go to where it should, or whether a node can be
compiled at all. This module lists these points, from the program alone.

The offsets at which jumps land depend on how long the code before them is. So the list comes with
the extents of all parts of a program: the numbers of bytes of their code, where this exists.

## Main definitions

* `Phrase.extent`: the number of bytes of a phrase's code.
* `Visit`: a point of a compilation at which something is asked.
* `Program.visits`: **the points of a compilation, in order**.

## Main results

* `Translation.size_eq`: the extent of a phrase is the size of its fragment.
* `Program.references_eq`: the references of a program are what some of the points ask for.
-/

namespace StackScript

open Fragment (jumpSize)

/-! ### Extents -/

mutual

/-- The **extent** of an expression: the number of bytes of its code. -/
def Expr.extent : Expr → Nat
  | .integer _ _ | .float _ _ | .string _ _ | .name _ => 3
  | .boolean _ _ => 1
  | .unary _ _ operand => operand.extent + 1
  | .binary _ left _ right => left.extent + right.extent + 1
  | .conditional _ condition consequence none =>
    condition.extent + (jumpSize + consequence.extent + jumpSize + 1)
  | .conditional _ condition consequence (some alternative) =>
    condition.extent + (jumpSize + consequence.extent + jumpSize + alternative.extent)
  | .function _ _ _ | .call _ _ _ => 0

/-- The extent of a branch. The pop behind the last expression is taken back; where there is none,
a `null` is added. -/
def Block.extent : Block → Nat
  | .mk _ statements =>
    if Program.yieldsValue false statements then Program.extent statements - 1
    else Program.extent statements + 1

/-- The extent of a statement. -/
def Statement.extent : Statement → Nat
  | .expression _ value => value.extent + 1
  | .binding _ _ value => value.extent + 3
  | .block (.mk _ statements) => Program.extent statements
  | .returning _ _ => 0

/-- The extent of statements. -/
def Program.extent : List Statement → Nat
  | [] => 0
  | s :: rest => s.extent + Program.extent rest

end

/-- The **extent** of a phrase. -/
def Phrase.extent : Phrase → Nat
  | value e => e.extent
  | branch b => b.extent
  | statement s => s.extent
  | statements p => Program.extent p

/-- The instruction of a unary operator is a single byte. -/
theorem Instruction.length_ofUnary? {written : String} {i : Instruction}
    (h : ofUnary? written = some i) : i.length = 1 := by
  rw [ofUnary?.eq_def] at h
  split at h <;> cases h <;> rfl

/-- The instruction of a binary operator is a single byte. -/
theorem Instruction.length_ofBinary? {written : String} {i : Instruction}
    (h : ofBinary? written = some i) : i.length = 1 := by
  rw [ofBinary?.eq_def] at h
  split at h <;> cases h <;> rfl

/-- **Extents are sizes**: the fragment of a phrase has as many bytes as its extent. -/
theorem Translation.size_eq {names : NameTable} {pool : ConstantPool} {x : Phrase} {f : Fragment}
    (h : Translation names pool x f) : f.size = x.extent := by
  induction h with
  | @literal e v index known found =>
      have three : e.extent = 3 := by
        cases e <;> cases known <;> rw [Expr.extent]
      rw [Phrase.extent, three]
      rfl
  | boolean token b => cases b <;> rfl
  | name found => rfl
  | unary _ known ih =>
      rw [Fragment.size_append, ih, Fragment.size_single, Instruction.length_ofUnary? known]
      rfl
  | less _ _ ihr ihl =>
      have one : (Instruction.compare .greater).length = 1 := rfl
      rw [Fragment.size_append, Fragment.size_append, ihr, ihl, Fragment.size_single, one]
      simp only [Phrase.extent, Expr.extent]
      omega
  | binary _ _ _ known ihl ihr =>
      rw [Fragment.size_append, Fragment.size_append, ihl, ihr, Fragment.size_single,
        Instruction.length_ofBinary? known]
      simp only [Phrase.extent, Expr.extent]
      omega
  | choice _ _ _ ih ihc iha =>
      rw [Fragment.size_append, ih, Fragment.size, ihc, iha]
      simp only [Phrase.extent, Expr.extent, Fragment.size, Nat.add_zero]
  | choiceOrNull _ _ ih ihc =>
      rw [Fragment.size_append, ih, Fragment.size, ihc]
      rfl
  | @keptValue token p f _ yields ih =>
      have whole : f.size + 1 = Program.extent p := (Fragment.size_append f _).symm.trans ih
      rw [Phrase.extent, Block.extent, if_pos yields, ← whole, Nat.add_sub_cancel]
  | @nullValue token p f _ yields ih =>
      rw [Fragment.size_append, ih, Phrase.extent, Phrase.extent, Block.extent, yields]
      rfl
  | expression _ ih =>
      rw [Fragment.size_append, ih]
      rfl
  | binding _ _ _ ih =>
      rw [Fragment.size_append, ih]
      rfl
  | block _ ih =>
      rw [ih, Phrase.extent, Phrase.extent, Statement.extent]
  | nil => rfl
  | cons _ _ ih ihp =>
      rw [Fragment.size_append, ih, ihp, Phrase.extent, Phrase.extent, Phrase.extent,
        Program.extent]

/-! ### Points -/

/-- A point of a compilation at which something is asked: a **visit**. -/
inductive Visit
  /-- Of a literal, of a name that is read, or of a name that is bound. -/
  | refer (r : Reference)
  /-- Of a unary operator, behind its operand. -/
  | unary (written : String)
  /-- Of a binary operator, behind its operands. -/
  | binary (written : String)
  /-- Of an offset that a jump goes to, when the code has come to it. -/
  | target (offset : Nat)
  /-- Of a node that is refused, by the name of its kind and its text. -/
  | refuse (node text : String)
  deriving DecidableEq, Repr

/-- The reference of a point. -/
def Visit.reference? : Visit → Option Reference
  | refer r => some r
  | _ => none

/-- Where the alternative of a conditional begins, given where its condition ends and the extent of
its consequence. -/
def Visit.elseAt (o consequence : Nat) : Nat := o + jumpSize + consequence + jumpSize

open Visit (elseAt)

mutual

/-- The points of an expression whose code begins at an offset. A node without instructions is
refused before any of its parts is looked at. -/
def Expr.visits (o : Nat) : Expr → List Visit
  | .integer _ value => [.refer (.literal (.integer value))]
  | .float _ value => [.refer (.literal (.float value))]
  | .string _ value => [.refer (.literal (.string value))]
  | .boolean _ _ => []
  | .name n => [.refer (.read n.text)]
  | .unary _ written operand => operand.visits o ++ [.unary written]
  | .binary _ left written right =>
    if written = "<" then right.visits o ++ (left.visits (o + right.extent) ++ [.binary written])
    else left.visits o ++ (right.visits (o + left.extent) ++ [.binary written])
  | .conditional _ condition consequence none =>
    let test := o + condition.extent
    let otherwise := elseAt test consequence.extent
    condition.visits o ++ (consequence.visits (test + jumpSize) ++
      [.target otherwise, .target (otherwise + 1)])
  | .conditional _ condition consequence (some alternative) =>
    let test := o + condition.extent
    let otherwise := elseAt test consequence.extent
    condition.visits o ++ (consequence.visits (test + jumpSize) ++
      .target otherwise :: (alternative.visits otherwise ++
        [.target (otherwise + alternative.extent)]))
  | .function token parameters body =>
    [.refuse "function literal" (Expr.function token parameters body).text]
  | .call token callee arguments =>
    [.refuse "call expression" (Expr.call token callee arguments).text]

/-- The points of a branch. -/
def Block.visits (o : Nat) : Block → List Visit
  | .mk _ statements => Program.visits o statements

/-- The points of a statement. A name is bound behind its value. -/
def Statement.visits (o : Nat) : Statement → List Visit
  | .expression _ value => value.visits o
  | .binding _ name value => value.visits o ++ [.refer (.write name.text)]
  | .block (.mk _ statements) => Program.visits o statements
  | .returning token value =>
    [.refuse "return statement" (Statement.returning token value).text]

/-- **The points of a compilation**: those of the statements, in order. -/
def Program.visits (o : Nat) : List Statement → List Visit
  | [] => []
  | s :: rest => s.visits o ++ Program.visits (o + s.extent) rest

end

/-! ### References among the points -/

mutual

/-- The references of an expression are those among the points it is compiled in, wherever it
stands. -/
theorem Expr.references_eq : (e : Expr) → (o : Nat) →
    e.references = (e.visits o).filterMap Visit.reference?
  | .integer _ _, _ | .float _ _, _ | .string _ _, _ | .boolean _ _, _ | .name _, _
  | .function _ _ _, _ | .call _ _ _, _ => by
      rw [Expr.references, Expr.visits]
      rfl
  | .unary _ _ operand, o => by
      rw [Expr.references, Expr.visits, List.filterMap_append, operand.references_eq o]
      exact (List.append_nil _).symm
  | .binary _ left written right, o => by
      rw [Expr.references, Expr.visits]
      split
      · rw [List.filterMap_append, List.filterMap_append, right.references_eq o,
          left.references_eq (o + right.extent)]
        simp [Visit.reference?]
      · rw [List.filterMap_append, List.filterMap_append, left.references_eq o,
          right.references_eq (o + left.extent)]
        simp [Visit.reference?]
  | .conditional _ condition consequence none, o => by
      rw [Expr.references, Expr.visits, List.filterMap_append, List.filterMap_append,
        condition.references_eq o, consequence.references_eq (o + condition.extent + jumpSize)]
      simp [Visit.reference?]
  | .conditional _ condition consequence (some alternative), o => by
      rw [Expr.references, Expr.visits, List.filterMap_append, List.filterMap_append,
        condition.references_eq o, consequence.references_eq (o + condition.extent + jumpSize),
        alternative.references_eq (elseAt (o + condition.extent) consequence.extent),
        List.filterMap_cons_none rfl, List.filterMap_append]
      simp [Visit.reference?]

/-- The references of a branch are those among its points. -/
theorem Block.references_eq : (b : Block) → (o : Nat) →
    b.references = (b.visits o).filterMap Visit.reference?
  | .mk _ statements, o => by
      rw [Block.references, Block.visits, Program.references_eq statements o]

/-- The references of a statement are those among its points. -/
theorem Statement.references_eq : (s : Statement) → (o : Nat) →
    s.references = (s.visits o).filterMap Visit.reference?
  | .expression _ value, o => by
      rw [Statement.references, Statement.visits, value.references_eq o]
  | .binding _ name value, o => by
      rw [Statement.references, Statement.visits, List.filterMap_append, value.references_eq o]
      rfl
  | .block (.mk _ statements), o => by
      rw [Statement.references, Statement.visits, Program.references_eq statements o]
  | .returning _ _, _ => by
      rw [Statement.references, Statement.visits]
      rfl

/-- The references of a program are what the points ask for that are not about operators, offsets
or refused nodes. -/
theorem Program.references_eq : (p : List Statement) → (o : Nat) →
    Program.references p = (Program.visits o p).filterMap Visit.reference?
  | [], _ => by
      rw [Program.references, Program.visits]
      rfl
  | s :: rest, o => by
      rw [Program.references, Program.visits, List.filterMap_append, s.references_eq o,
        Program.references_eq rest (o + s.extent)]

end

end StackScript
