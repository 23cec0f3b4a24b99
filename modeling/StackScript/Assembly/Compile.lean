import StackScript.Assembly

/-!
# From Trees to Code

Every expression becomes code that leaves its value on the stack, and every statement code that
leaves the stack as it was. Operands are evaluated from left to right, except those of `<`,
which is run as `>` with its operands exchanged. The first thing that cannot be compiled ends
the compilation.

A branch of a conditional leaves exactly one value: that which its code would discard last, and
`null` if its code does not end in a pop.

## Main definitions

* `Expr.assemble`, `Block.assembleBranch`, `Statement.assemble`, `Program.assemble`.
* `Program.compile`: the assembly of a program that goes on from given names and constants.
-/

namespace StackScript

/-- The instruction of a unary operator. -/
def Instruction.ofUnary? : String → Option Instruction
  | "!" => some not
  | "-" => some negate
  | _ => none

/-- The instruction of a binary operator that takes its operands in their order. -/
def Instruction.ofBinary? : String → Option Instruction
  | "+" => some (arithmetic .add)
  | "-" => some (arithmetic .sub)
  | "*" => some (arithmetic .mul)
  | "/" => some (arithmetic .div)
  | "**" => some (arithmetic .pow)
  | ">" => some (compare .greater)
  | "==" => some (compare .equal)
  | "!=" => some (compare .notEqual)
  | _ => none

namespace Assembler

/-- Adds the instruction of an operator, if it has one. -/
def operator (i? : Option Instruction) (written : String) : Assembler Unit :=
  match i? with
  | some i => emit i
  | none => throw (.unknownOperator written)

/-- Refuses a node that has no instructions. -/
def unsupported (node text : String) : Assembler Unit :=
  throw (.unsupported node text)

end Assembler

open Assembler

mutual

/-- Code that leaves the value of an expression. -/
def Expr.assemble : Expr → Assembler Unit
  | .integer _ value => constant (.integer value)
  | .float _ value => constant (.float value)
  | .string _ value => constant (.string value)
  | .boolean _ value => emit (.boolean value)
  | .name n => load n.text
  | .unary _ written operand => do
    operand.assemble
    operator (Instruction.ofUnary? written) written
  | .binary _ left written right =>
    if written = "<" then do
      right.assemble
      left.assemble
      emit (.compare .greater)
    else do
      left.assemble
      right.assemble
      operator (Instruction.ofBinary? written) written
  | .conditional _ condition consequence alternative => do
    condition.assemble
    let toAlternative ← reserve .jumpUnless
    consequence.assembleBranch
    let toEnd ← reserve .jump
    land toAlternative .jumpUnless
    match alternative with
    | some block => block.assembleBranch
    | none => emit .null
    land toEnd .jump
  | .function token parameters body =>
    unsupported "function literal" (Expr.function token parameters body).text
  | .call token callee arguments =>
    unsupported "call expression" (Expr.call token callee arguments).text

/-- Code that leaves the value of a branch: the value discarded last is kept, and where there is
none, `null` stands in for it. -/
def Block.assembleBranch : Block → Assembler Unit
  | .mk _ statements => leavingValue (Program.assemble statements)

/-- Code that runs a statement. -/
def Statement.assemble : Statement → Assembler Unit
  | .expression token value => do
    begin (.expression token value)
    value.assemble
    emit .pop
  | .binding token name value => do
    begin (.binding token name value)
    value.assemble
    store name.text
  | .block (.mk token statements) => do
    begin (.block (.mk token statements))
    Program.assemble statements
  | .returning token value => do
    begin (.returning token value)
    unsupported "return statement" (Statement.returning token value).text

/-- Code that runs statements in order. -/
def Program.assemble : List Statement → Assembler Unit
  | [] => return
  | s :: rest => do
    s.assemble
    Program.assemble rest

end

/-- A compilation: whether it succeeded, and the assembly it came to. -/
structure Compilation where
  outcome : Except CompileError Unit
  assembly : Assembly

/-- Assembles a program behind what an assembly already holds. -/
def Program.assembleAfter (p : Program) (a : Assembly) : Compilation :=
  match Program.assemble p a with
  | .ok _ a => ⟨.ok (), a⟩
  | .error e a => ⟨.error e, a⟩

/-- Compiles a program that goes on from the given names and constants. -/
def Program.compile (p : Program) (names : NameTable) (pool : ConstantPool) : Compilation :=
  p.assembleAfter (.start names pool)

end StackScript
