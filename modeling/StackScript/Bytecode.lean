import StackScript.Instruction
import StackScript.Value

/-!
# Bytecode

What compiling yields and the machine runs: a code, and the constants that its instructions
refer to by index.
-/

namespace StackScript

/-- A **bytecode**: a code and its constants. -/
structure Bytecode where
  code : Array UInt8 := #[]
  constants : Array Value := #[]
  deriving DecidableEq, Inhabited, Repr

end StackScript
