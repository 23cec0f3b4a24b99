import StackScript.Assembly.ConstantPool
import StackScript.Assembly.NameTable
import StackScript.Bytecode
import StackScript.Tree.Canonical

/-!
# Assemblies

An assembly is a program on its way to bytecode: the instructions so far, the constants and the
names they refer to. What was assembled before an error stays, so that a caller can go on with
the same assembly.

A jump forward is put down before its target is known, with a placeholder for it; once the code
has come to the target, the jump is made to land there.

## Main definitions

* `Assembly`: instructions, constants, names, and the statements gone through.
* `CompileError`: why a program has no bytecode.
* `Assembler`: a step that extends an assembly or fails, keeping what it did.
* `Assembler.emit`, `reserve`, `land`, `constant`: the steps.
* `Assembler.leavingValue`: how a branch of a conditional keeps its last value.
* `Assembly.bytecode`: the finished bytecode.
-/

namespace StackScript

/-- Why a program has no bytecode. -/
inductive CompileError
  /-- A name that is used before any binding of it. -/
  | undefinedVariable (name : String)
  /-- A node that the machine has no instructions for, and its text. -/
  | unsupported (node text : String)
  /-- An operator that is none. -/
  | unknownOperator (operator : String)
  /-- More constants than indices. -/
  | tooManyConstants (limit : Nat)
  /-- More names than slots. -/
  | tooManyGlobals (limit : Nat)
  /-- A jump whose target is out of reach. -/
  | programTooLarge (limit : Nat)
  /-- A broken promise of the assembler itself, which no program leads to. -/
  | internal (message : String)
  deriving DecidableEq, Inhabited, Repr

/-- The text of an error. -/
def CompileError.text : CompileError → String
  | undefinedVariable name => "compile error: undefined variable '" ++ name ++ "'"
  | unsupported node text =>
    "compile error: cannot compile " ++ node ++ " '" ++ text ++
      "'\n  hint: functions, calls and return are parsed but have no bytecode form"
  | unknownOperator operator => "compile error: unknown operator '" ++ operator ++ "'"
  | tooManyConstants limit =>
    "compile error: constant pool exceeds " ++ toString limit ++ " entries"
  | tooManyGlobals limit => "compile error: more than " ++ toString limit ++ " global bindings"
  | programTooLarge limit =>
    "compile error: program exceeds " ++ toString limit ++ " bytes of bytecode"
  | internal message => "compile error: internal: " ++ message

/-- An **assembly**: a program on its way to bytecode. -/
structure Assembly where
  /-- The instructions so far. -/
  code : Array Instruction := #[]
  /-- The number of their bytes. -/
  size : Nat := 0
  pool : ConstantPool := {}
  names : NameTable := {}
  /-- The statements gone through, in the order in which they were begun. -/
  begun : Array Statement := #[]
  deriving Inhabited

namespace Assembly

/-- As many names as an operand can tell apart. -/
def slotLimit : Nat := 65536

/-- The greatest offset that a jump can have as its target. -/
def targetLimit : Nat := 65535

/-- An assembly without instructions that goes on from the given names and constants. -/
def start (names : NameTable) (pool : ConstantPool) : Assembly :=
  { names, pool }

/-- The bytes of the instructions. -/
def bytes (a : Assembly) : Array UInt8 :=
  a.code.foldl (fun code i => i.bytes.foldl Array.push code) #[]

/-- The finished bytecode. -/
def bytecode (a : Assembly) : Bytecode :=
  { code := a.bytes, constants := a.pool.values }

/-- The assembly with one more instruction. -/
def push (a : Assembly) (i : Instruction) : Assembly :=
  { a with code := a.code.push i, size := a.size + i.length }

/-- The assembly without its last instruction. -/
def pop (a : Assembly) : Assembly :=
  let dropped := a.code.back?.elim 0 Instruction.length
  { a with code := a.code.pop, size := a.size - dropped }

/-- Whether the last instruction is this one, and was added at this offset or behind it. -/
def endsIn (a : Assembly) (i : Instruction) (since : Nat) : Bool :=
  a.code.back?.any fun last => last = i ∧ since + last.length ≤ a.size

end Assembly

/-- A step of assembling. What it did to the assembly stays when it fails. -/
abbrev Assembler := EStateM CompileError Assembly

namespace Assembler

/-- Adds an instruction. -/
def emit (i : Instruction) : Assembler Unit :=
  modify (·.push i)

/-- Removes the last instruction. -/
def unemit : Assembler Unit :=
  modify Assembly.pop

/-- Adds a jump with a placeholder for its target, and yields its index. -/
def reserve (jump : UInt16 → Instruction) : Assembler Nat := do
  let index := (← get).code.size
  emit (jump 0xFFFF)
  return index

/-- Makes the jump with this index land behind the last instruction. -/
def land (index : Nat) (jump : UInt16 → Instruction) : Assembler Unit := do
  let target := (← get).size
  if Assembly.targetLimit < target then throw (.programTooLarge Assembly.targetLimit)
  else
    modify fun a => { a with code := a.code.setIfInBounds index (jump (UInt16.ofNat target)) }

/-- Pushes a constant, which is added to the pool unless it is there already. -/
def constant (v : Value) : Assembler Unit := do
  match (← get).pool.index? v with
  | some index => emit (.constant (UInt16.ofNat index))
  | none =>
    let index := (← get).pool.size
    if ConstantPool.capacity ≤ index then throw (.tooManyConstants ConstantPool.capacity)
    else
      modify fun a => { a with pool := a.pool.push v }
      emit (.constant (UInt16.ofNat index))

/-- Pushes the value of a name. -/
def load (name : String) : Assembler Unit := do
  match (← get).names.slot? name with
  | some slot => emit (.load (UInt16.ofNat slot))
  | none => throw (.undefinedVariable name)

/-- Pops a value into a name, which is bound first. A name beyond the last slot stays bound. -/
def store (name : String) : Assembler Unit := do
  let slot := (← get).names.slotFor name
  modify fun a => { a with names := a.names.bind name }
  if slot < Assembly.slotLimit then emit (.store (UInt16.ofNat slot))
  else throw (.tooManyGlobals Assembly.slotLimit)

/-- Makes a step leave exactly one value. If the last instruction it added is a pop, this is taken
back, so that the value is not discarded; otherwise `null` is pushed. -/
def leavingValue (x : Assembler Unit) : Assembler Unit := do
  let start := (← get).size
  x
  if (← get).endsIn .pop start then unemit else emit .null

/-- Notes that a statement is begun. -/
def begin (s : Statement) : Assembler Unit :=
  modify fun a => { a with begun := a.begun.push s }

end Assembler

end StackScript
