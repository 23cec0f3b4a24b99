import StackScript.Bytecode
import StackScript.Text.Field

/-!
# Disassembly

A code as text, one line for everything that is found in it: the offset, and the name and the
operand of an instruction. What is no instruction shows as an error line, and the lines go on
behind it, so that a damaged code can be read as well.

## Main definitions

* `Located.line`: one line.
* `disassemble`: all lines of a code.
* `Bytecode.listing`: the constants and the code of a bytecode.
-/

namespace StackScript

open Text

/-- The text of an instruction. -/
def Instruction.text (i : Instruction) : String :=
  i.operands.foldl (fun text n => text ++ " " ++ toString n) i.opcode.name

/-- The text of what stands in a code. -/
def Fetched.text : Fetched → String
  | undefined byte => "ERROR: " ++ Opcode.undefinedText byte
  | truncated op =>
    "ERROR: operand len 0 does not match defined " ++ toString op.operandWidths.length
  | instruction i => i.text

/-- One line of a disassembly. -/
def Located.line (l : Located) : String :=
  zeroPadded 4 l.offset ++ " " ++ l.fetched.text ++ "\n"

/-- The lines of a code. -/
def disassemble (code : Array UInt8) : String :=
  (scan code).foldl (fun text l => text ++ l.line) ""

namespace Bytecode

/-- A title between two rules. -/
def heading (title : String) : String :=
  let rule := "".pushn '═' 40 ++ "\n"
  rule ++ " " ++ title ++ "\n" ++ rule

/-- The line of a constant. -/
def constantLine (index : Nat) (v : Value) : String :=
  zeroPadded 4 index ++ " " ++ leftAligned 8 v.typeName ++ " " ++ v.text ++ "\n"

/-- The constants with their indices, then the disassembled code. -/
def listing (b : Bytecode) : String :=
  heading ("constants (" ++ toString b.constants.size ++ ")") ++
    b.constants.toList.zipIdx.foldl (fun text (v, index) => text ++ constantLine index v) "" ++
    "\n" ++
    heading ("instructions (" ++ toString b.code.size ++ " bytes)") ++
    disassemble b.code ++ "\n"

end Bytecode

end StackScript
