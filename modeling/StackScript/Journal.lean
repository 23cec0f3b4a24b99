import StackScript.Tree.Canonical

/-!
# The Journal

What a session notes down as it works, in order: one event for each stage that a text goes
through, and one for each statement that is begun to be compiled.

## Main definitions

* `Event`, with the `Event.level` and the `Event.text` of its entry.
-/

namespace StackScript

/-- Something that a session notes down. -/
inductive Event
  /-- A text was read. -/
  | parsed (statements errors : Nat)
  /-- A statement is begun. -/
  | compiling (s : Statement)
  /-- A program was compiled. -/
  | compiled (statements bytes constants : Nat)
  /-- A code passed the stack check. -/
  | checked (bytes height : Nat)
  /-- A run came to its end. -/
  | finished (steps height globals : Nat)
  deriving Inhabited

namespace Event

/-- The level of an entry: single statements are finer than stages. -/
def level : Event → String
  | compiling _ => "TRACE"
  | _ => "DEBUG"

/-- The text of an entry. -/
def text : Event → String
  | parsed statements errors =>
    "parsed " ++ toString statements ++ " statements, " ++ toString errors ++ " errors"
  | compiling s => "compiling statement `" ++ s.text ++ "`"
  | compiled statements bytes constants =>
    "compiled " ++ toString statements ++ " statements into " ++ toString bytes ++ " bytes, " ++
      toString constants ++ " constants"
  | checked bytes height =>
    "stack check passed, " ++ toString bytes ++ " bytes, final height " ++ toString height
  | finished steps height globals =>
    "vm finished after " ++ toString steps ++ " steps, sp=" ++ toString height ++ ", " ++
      toString globals ++ " globals"

end Event

end StackScript
