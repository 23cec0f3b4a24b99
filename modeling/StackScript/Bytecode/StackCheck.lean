import StackScript.Instruction
import StackScript.Text.Field

/-!
# The Stack Check

A code is checked once from start to end, counting the height of the stack. Jumps are not
followed: both branches of a conditional count as if they ran one after the other, which
overestimates the height where they join, and never reports an underflow that no path has.

## Main definitions

* `StackEffect`, `Instruction.effect`: what an instruction takes from the stack and leaves there.
* `StackFault`, `StackCheckError`: why a code is refused, and where.
* `finalHeight`: the height at the end of a code, or the first fault.
-/

namespace StackScript

/-- How many values an instruction takes from the stack, and how many it then leaves there. -/
structure StackEffect where
  pops : Nat
  pushes : Nat
  deriving DecidableEq, Repr

/-- The effect of an instruction. -/
def Instruction.effect : Instruction → StackEffect
  | constant _ | boolean _ | null | load _ => ⟨0, 1⟩
  | pop | store _ | jumpUnless _ => ⟨1, 0⟩
  | arithmetic _ | compare _ => ⟨2, 1⟩
  | negate | not => ⟨1, 1⟩
  | jump _ => ⟨0, 0⟩

/-- Why a code is refused. -/
inductive StackFault
  /-- A byte that is no opcode. -/
  | undefined (byte : UInt8)
  /-- An instruction whose operand is cut off. -/
  | truncated (op : Opcode)
  /-- An instruction that takes more values than there are. -/
  | underflow (op : Opcode) (needed had : Nat)
  deriving DecidableEq, Inhabited, Repr

/-- The message of a fault. -/
def StackFault.message : StackFault → String
  | undefined byte => Opcode.undefinedText byte
  | truncated op => "truncated operand for " ++ op.name
  | underflow op needed had =>
    "stack underflow in " ++ op.name ++ ", needed " ++ toString needed ++ " items, had " ++
      toString had

/-- Why a code is refused, and where. -/
structure StackCheckError where
  fault : StackFault
  offset : Nat
  deriving DecidableEq, Inhabited, Repr

namespace StackCheckError

/-- A message with the place of the fault in front. -/
def located (offset : Nat) (message : String) : String :=
  "stack-check error at " ++ Text.zeroPadded 4 offset ++ ": " ++ message

/-- The text of a refusal. -/
def text (e : StackCheckError) : String :=
  located e.offset e.fault.message

end StackCheckError

/-- The height behind one thing found in a code. -/
def Located.heightAfter (l : Located) (height : Nat) : Except StackCheckError Nat :=
  match l.fetched with
  | .undefined byte => .error ⟨.undefined byte, l.offset⟩
  | .truncated op => .error ⟨.truncated op, l.offset⟩
  | .instruction i =>
    if height < i.effect.pops then .error ⟨.underflow i.opcode i.effect.pops height, l.offset⟩
    else .ok (height - i.effect.pops + i.effect.pushes)

/-- The height behind everything found in a code. -/
def heightAfterAll (height : Nat) : List Located → Except StackCheckError Nat
  | [] => .ok height
  | l :: rest =>
    match l.heightAfter height with
    | .ok height => heightAfterAll height rest
    | .error e => .error e

/-- The height at the end of a code that starts on an empty stack, or the first fault. -/
def finalHeight (code : Array UInt8) : Except StackCheckError Nat :=
  heightAfterAll 0 (scan code)

end StackScript
