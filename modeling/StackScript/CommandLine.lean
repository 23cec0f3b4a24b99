import StackScript.Bytecode.Disassembly
import StackScript.Bytecode.Image
import StackScript.Session
import StackScript.Text.Backspace
import StackScript.Token.Listing

/-!
# The Command Line

What the program does with its arguments. Given a file it lists its tokens, writes its tree,
compiles it to an image, or runs it; a file can also be an image that is run. Without a file it
evaluates its input line by line in one session, once the backspaces in a line are carried out.

Nothing here touches a file or a terminal: an invocation is a function of the arguments, of the
files there are and of the input, and yields what is to be written where.

## Main definitions

* `Options`, `Options.ofArguments`: the arguments.
* `Failure`: why an invocation fails, with the causes behind it.
* `Effect`: what an invocation writes, and how it exits.
* `Options.perform`: an invocation.
-/

namespace StackScript

/-- The arguments of an invocation. -/
structure Options where
  /-- The source file, or the image. -/
  file : Option String := none
  /-- List the tokens and stop. -/
  tokens : Bool := false
  /-- Write the canonical text and stop. -/
  tree : Bool := false
  /-- List the bytecode before running it. -/
  bytecode : Bool := false
  /-- No colours in the list of tokens. -/
  plain : Bool := false
  /-- The shorter list of tokens. -/
  brief : Bool := false
  /-- Write an image to this file instead of running. -/
  emit : Option String := none
  /-- The file is an image. -/
  image : Bool := false
  maxSteps : Option Nat := none
  stackSize : Option Nat := none
  deriving DecidableEq, Inhabited, Repr

namespace Options

/-- Takes a file name where none was given yet. -/
def takeFile (o : Options) (file : String) : Options :=
  { o with file := o.file.or (some file) }

/-- Takes a switch, or else a file name. -/
def takeWord (o : Options) (word : String) : Options :=
  match word with
  | "--tokens" => { o with tokens := true }
  | "--ast" => { o with tree := true }
  | "--bc" => { o with bytecode := true }
  | "--no-color" => { o with plain := true }
  | "--pretty" => { o with brief := true }
  | "--image" => { o with image := true }
  | "--verbose" | "-v" => o
  | file => o.takeFile file

/-- The number that a value stands for, perhaps behind a plus sign. -/
def number? (value : String) : Option Nat :=
  match value.toList with
  | '+' :: digits => (String.ofList digits).toNat?
  | _ => value.toNat?

/-- Takes an option with its value, if it is one. -/
def takePair? (o : Options) (name value : String) : Option Options :=
  match name with
  | "--emit" => some { o with emit := some value }
  | "--max-steps" => some { o with maxSteps := number? value }
  | "--stack-size" => some { o with stackSize := number? value }
  | _ => none

/-- Splits a word at its first equals sign. -/
def splitAtEquals (word : String) : String × String :=
  let letters := word.toList
  (String.ofList (letters.takeWhile (· ≠ '=')), String.ofList (letters.dropWhile (· ≠ '=')).tail)

/-- Takes arguments one after the other. The value of an option stands behind an equals sign or
is the next argument; behind two dashes by themselves there are only file names. -/
def take (o : Options) : List String → Options
  | [] => o
  | "--" :: rest => rest.foldl takeFile o
  | [word] =>
    let (name, value) := splitAtEquals word
    (o.takePair? name value).getD (o.takeWord word)
  | word :: next :: rest =>
    match o.takePair? word next with
    | some o => take o rest
    | none =>
      let (name, value) := splitAtEquals word
      take ((o.takePair? name value).getD (o.takeWord word)) (next :: rest)

/-- The options of a list of arguments. -/
def ofArguments (arguments : List String) : Options :=
  take {} arguments

/-- The limits that the options set. -/
def config (o : Options) : Config where
  stackSize := o.stackSize.getD ({} : Config).stackSize
  maxSteps := o.maxSteps

end Options

/-- Why an invocation fails, and the causes behind it, nearest first. -/
structure Failure where
  message : String
  causes : List String := []
  deriving DecidableEq, Inhabited, Repr

namespace Failure

/-- The lines of the causes, which are numbered if there are several. -/
def causeLines : List String → String
  | [] => ""
  | [cause] => "\n\nCaused by:\n    " ++ cause
  | causes =>
    "\n\nCaused by:" ++ causes.zipIdx.foldl
      (fun text (cause, index) => text ++ "\n    " ++ toString index ++ ": " ++ cause) ""

/-- The text of a failure. -/
def text (f : Failure) : String :=
  "Error: " ++ f.message ++ causeLines f.causes ++ "\n"

/-- The failure of an evaluation. Only a refused code has a cause behind it. -/
def ofEval (e : EvalError) : Failure :=
  match e with
  | .runtime (.stackCheck check) => ⟨e.text, [check.text]⟩
  | e => ⟨e.text, []⟩

/-- The failure to read a file. -/
def unreadable (file cause : String) : Failure :=
  ⟨"failed to read '" ++ file ++ "'", [cause]⟩

/-- The failure to take a file for an image. An encoding has a cause of its own. -/
def notAnImage (file : String) (e : ImageError) : Failure :=
  ⟨"'" ++ file ++ "' is not a usable image",
    match e with
    | .encoding fault => [e.text, fault.message]
    | e => [e.text]⟩

end Failure

/-- What an invocation writes, and how it exits. -/
structure Effect where
  output : String := ""
  errors : String := ""
  exitCode : Nat := 0
  /-- A file and the bytes written to it. -/
  written : Option (String × List UInt8) := none
  deriving DecidableEq, Inhabited, Repr

namespace Effect

/-- Writes to the output and succeeds. -/
def print (text : String) : Effect :=
  { output := text }

/-- Fails after something was written to the output. -/
def fail (f : Failure) (output : String) : Effect :=
  { output, errors := f.text, exitCode := 1 }

end Effect

namespace CommandLine

/-- The lines of an input. A line ends at a newline, perhaps with a carriage return before it,
or at the end of the input. -/
def lines (input : String) : List String :=
  let pieces := input.splitOn "\n"
  let ended := pieces.dropLast.map fun line =>
    match line.toList.reverse with
    | '\r' :: rest => String.ofList rest.reverse
    | _ => line
  match pieces.getLast? with
  | none | some "" => ended
  | some last => ended ++ [last]

/-- Whether a line has nothing but white space. -/
def isEmptyLine (line : String) : Bool :=
  line.toList.all Text.isWhiteSpace

/-- What is printed for a line, and the session after it. -/
def evaluateLine (s : Session) (line : String) : String × Session :=
  let answer := s.eval line
  let shown := match answer.result with
    | .ok (some v) => v.text ++ "\n"
    | .ok none => ""
    | .error e => e.text ++ "\n"
  (shown, answer.session)

/-- What is printed for all lines that are not empty, backspaces done. -/
def evaluateLines (config : Config) (input : String) : String :=
  let evaluate (state : String × Session) (line : String) : String × Session :=
    if isEmptyLine line then state
    else
      let (shown, s) := evaluateLine state.2 line
      (state.1 ++ shown, s)
  (((lines input).map Text.afterBackspaces).foldl evaluate ("", { config })).1

end CommandLine

namespace Options

open CommandLine

/-- The listing of a bytecode, if it is asked for. -/
def listing (o : Options) (b : Bytecode) : String :=
  if o.bytecode then b.listing else ""

/-- Runs a bytecode, and prints its value if it is to be shown. -/
def execute (o : Options) (s : Session) (b : Bytecode) (shows : Value → Bool) : Effect :=
  match (s.execute b).result with
  | .ok v => .print (o.listing b ++ if shows v then v.text ++ "\n" else "")
  | .error e => .fail (.ofEval e) (o.listing b)

/-- Runs an image. It has no tree, so any value but `null` is shown. -/
def performImage (o : Options) (file : String) (bytes : List UInt8) : Effect :=
  match Bytecode.ofImage bytes with
  | .error e => .fail (.notAnImage file e) ""
  | .ok b => o.execute { config := o.config } b (· ≠ .null)

/-- Works on a source text. -/
def performText (o : Options) (text : String) : Effect :=
  if o.tokens then
    let listing : Listing := { coloured := !o.plain, brief := o.brief }
    .print (listing.render (tokenize (.ofString text)))
  else
    match parse text with
    | .error errors => .fail (.ofEval (.parse errors)) ""
    | .ok p =>
      if o.tree then .print (Program.text p ++ "\n")
      else
        let answer := Session.compile { config := o.config } p
        match answer.result with
        | .error e => .fail (.ofEval e) ""
        | .ok b =>
          match o.emit with
          | some target => { written := some (target, b.image) }
          | none => o.execute answer.session b fun _ => Program.endsInExpression p

/-- An invocation, given the files there are and the input. -/
def perform (o : Options) (files : String → Option ByteArray) (input : String) : Effect :=
  match o.file with
  | none => .print (evaluateLines o.config input)
  | some file =>
    match files file with
    | none => .fail (.unreadable file "No such file or directory (os error 2)") ""
    | some bytes =>
      if o.image then o.performImage file bytes.data.toList
      else
        match String.fromUTF8? bytes with
        | none => .fail (.unreadable file "stream did not contain valid UTF-8") ""
        | some text => o.performText text

end Options

end StackScript
