import StackScript.Assembly.Compile
import StackScript.Journal
import StackScript.Machine
import StackScript.Tree.Parse

/-!
# Sessions

A session evaluates one text after another. It keeps the names that were bound, the constants
they were compiled with, and the values of the globals. Names and constants change only when a
whole program compiles; globals keep what was written to them even when a run fails.

## Main definitions

* `EvalError`: why an evaluation has no answer.
* `Session`: what is kept from one text to the next.
* `Answer`: the result of an operation, the session after it, and what was noted down.
* `Session.compile`, `execute`, `evalProgram`, `compileText`, `eval`: the operations.
-/

namespace StackScript

/-- Why an evaluation has no answer. -/
inductive EvalError
  | parse (errors : Array ParseError)
  | compile (e : CompileError)
  | runtime (e : RuntimeError)
  deriving Inhabited

/-- The text of an error. -/
def EvalError.text : EvalError → String
  | parse errors => ParseError.listing (errors.toList.map ParseError.text)
  | compile e => e.text
  | runtime e => e.text

/-- A **session**: what is kept from one text to the next. -/
structure Session where
  names : NameTable := {}
  pool : ConstantPool := {}
  globals : Array Value := #[]
  config : Config := {}
  deriving Inhabited

/-- An **answer**: the result of an operation, the session after it, and what was noted down. -/
structure Answer (α : Type) where
  result : Except EvalError α
  session : Session
  events : List Event

namespace Answer

/-- Goes on with a result, in the session it left. An error is passed on. -/
def andThen {α β : Type} (answer : Answer α) (next : α → Session → Answer β) : Answer β :=
  match answer.result with
  | .ok a =>
    let later := next a answer.session
    ⟨later.result, later.session, answer.events ++ later.events⟩
  | .error e => ⟨.error e, answer.session, answer.events⟩

/-- Changes a result. -/
def map {α β : Type} (f : α → β) (answer : Answer α) : Answer β :=
  ⟨answer.result.map f, answer.session, answer.events⟩

end Answer

namespace Session

/-- Reads a text. The session does not change. -/
def parse (s : Session) (text : String) : Answer Program :=
  let (p, errors) := readProgram text
  ⟨if errors.isEmpty then .ok p else .error (.parse errors), s, [.parsed p.length errors.size]⟩

/-- Compiles a program with the names and the constants of the session, which takes over those
of the program if all of it compiles. -/
def compile (s : Session) (p : Program) : Answer Bytecode :=
  let ⟨outcome, a⟩ := p.compile s.names s.pool
  let begun := a.begun.toList.map Event.compiling
  match outcome with
  | .ok _ =>
    ⟨.ok a.bytecode, { s with names := a.names, pool := a.pool },
      begun ++ [.compiled p.length a.size a.pool.size]⟩
  | .error e => ⟨.error (.compile e), s, begun⟩

/-- Runs a bytecode on the globals of the session, and yields the value popped last. What it
wrote to the globals stays, also when it fails. -/
def execute (s : Session) (b : Bytecode) : Answer Value :=
  let run := (Machine.load b s.config s.globals).run
  let m := run.machine
  let checked := run.height?.toList.map (Event.checked b.code.size)
  let s := { s with globals := m.globals }
  match run.outcome with
  | .ok _ =>
    ⟨.ok m.lastPopped, s,
      checked ++ [.finished m.state.steps m.state.stack.height m.globals.size]⟩
  | .error e => ⟨.error (.runtime e), s, checked⟩

/-- Compiles and runs a program. Its value is that of its last statement, if this is an
expression or a block that ends in one. -/
def evalProgram (s : Session) (p : Program) : Answer (Option Value) :=
  (s.compile p).andThen fun b s =>
    (s.execute b).map fun v => if Program.endsInExpression p then some v else none

/-- Reads and compiles a text. -/
def compileText (s : Session) (text : String) : Answer Bytecode :=
  (s.parse text).andThen fun p s => s.compile p

/-- Reads, compiles and runs a text. -/
def eval (s : Session) (text : String) : Answer (Option Value) :=
  (s.parse text).andThen fun p s => s.evalProgram p

end Session

end StackScript
