import StackScript.Number.Integer64
import StackScript.Number.Written
import StackScript.Token.Scan
import StackScript.Tree.Canonical
import StackScript.Tree.Precedence

/-!
# Reading Trees

Trees are read from tokens with one token of foresight. A statement that cannot be read is
reported and left out, and reading goes on with the next token, so that one pass reports
everything that is wrong; a program read with reports is incomplete.

Every rule takes a budget of steps, of which each call spends one. The tokens that are left
bound what a rule can spend, so the entry points work out a budget that suffices; running out
is an outcome of its own, `ParseStop.starved`, apart from a refusal.

## Main definitions

* `ParseError`: a report, its cause a `ParseFault`.
* `Reader`: the tokens left, the place where they end, and the reports so far.
* `Reader.expression`, `Reader.program`: the entry points.
* `readProgram`, `parse`: a whole text, with its reports, or accepted only without any.
-/

namespace StackScript

/-- What is wrong with a text. -/
inductive ParseFault
  /-- Another kind of token had to follow. -/
  | expected (wanted found : TokenKind)
  /-- The text ended inside a block. -/
  | unclosedBlock
  /-- A character or an unfinished string that is no token. -/
  | illegal (literal : String)
  /-- A token that starts no expression. -/
  | noOperand (found : TokenKind)
  /-- An integer beyond the largest. -/
  | badInteger (literal : String)
  /-- A float that cannot be read. -/
  | badFloat (literal : String)
  /-- A call of something that is neither a name nor a function. -/
  | notCallable (callee : Expr)
  deriving Inhabited

/-- The message of a fault. -/
def ParseFault.message : ParseFault → String
  | expected wanted found =>
    "expected next token to be " ++ wanted.name ++ ", got " ++ found.name ++ " instead"
  | unclosedBlock => "expected \x7d, got EOF instead"
  | illegal literal => "illegal token '" ++ literal ++ "'"
  | noOperand found => "no prefix parse function for " ++ found.name ++ " found"
  | badInteger literal => "could not parse " ++ literal ++ " as integer"
  | badFloat literal => "could not parse " ++ literal ++ " as float"
  | notCallable callee => "cannot call " ++ callee.kindName ++ " '" ++ callee.text ++ "'"

/-- A **report**: what is wrong, and where. -/
structure ParseError where
  fault : ParseFault
  position : Position
  deriving Inhabited

namespace ParseError

/-- A message with its place in front. -/
def located (position : Position) (message : String) : String :=
  toString position.line ++ ":" ++ toString position.column ++ ": " ++ message

/-- The text of a report. -/
def text (e : ParseError) : String :=
  located e.position e.fault.message

/-- The texts of several reports, each on a line of its own behind a tab. -/
def listing (texts : List String) : String :=
  "\n".intercalate (texts.map ("\t" ++ ·))

end ParseError

/-- A **reader** of tokens: those left, from the current one on, and the reports made. -/
structure Reader where
  /-- The tokens left, without the end of the text. -/
  tokens : List Token
  /-- Where the text ends. -/
  finish : Position
  /-- The reports, oldest first. -/
  errors : Array ParseError := #[]
  deriving Inhabited

namespace Reader

/-- A reader at the start of a text. -/
def ofString (text : String) : Reader :=
  let (tokens, cursor) := (Cursor.ofString text).tokens
  { tokens, finish := cursor.position }

/-- The end of the text, as a token. -/
def endToken (r : Reader) : Token := ⟨.eof, "", r.finish⟩

/-- The current token; after the last one, the end of the text for ever. -/
def current (r : Reader) : Token := r.tokens.head?.getD r.endToken

/-- The token after the current one. -/
def upcoming (r : Reader) : Token := r.tokens.tail.head?.getD r.endToken

end Reader

/-- Why a rule gave no result: it made a report, or its budget ran out. -/
inductive ParseStop
  | refused
  | starved
  deriving DecidableEq, Repr

/-- A rule that reads tokens. -/
abbrev Parser := EStateM ParseStop Reader

namespace Parser

/-- The current token. -/
def current : Parser Token := do
  return (← get).current

/-- The token after the current one. -/
def upcoming : Parser Token := do
  return (← get).upcoming

/-- Moves to the next token. -/
def advance : Parser Unit :=
  modify fun r => { r with tokens := r.tokens.tail }

/-- Makes a report and goes on. -/
def report (fault : ParseFault) (position : Position) : Parser Unit :=
  modify fun r => { r with errors := r.errors.push ⟨fault, position⟩ }

/-- Makes a report and gives up the rule. -/
def refuse {α : Type} (fault : ParseFault) (position : Position) : Parser α := do
  report fault position
  throw .refused

/-- Moves to the next token if it is of this kind. -/
def expect (kind : TokenKind) : Parser Unit := do
  let next ← upcoming
  if next.kind = kind then advance
  else refuse (.expected kind next.kind) next.position

/-- Moves to the next token if it is a semicolon. -/
def skipSemicolon : Parser Unit := do
  if (← upcoming).kind = .semicolon then advance

/-- Runs a rule and goes on when it gave up. -/
def attempt {α : Type} (rule : Parser α) : Parser (Option α) := fun r =>
  match rule r with
  | .ok a r => .ok (some a) r
  | .error .refused r => .ok none r
  | .error .starved r => .error .starved r

/-- The current token as a name. -/
def name : Parser Name := do
  let token ← current
  return ⟨token, token.literal⟩

/-- The current token as an integer, which has to be one of 64 bits. -/
def integer : Parser Expr := do
  let token ← current
  match integer64? (Binary64.digitsValue token.literal.toList) with
  | some value => return .integer token value
  | none => refuse (.badInteger token.literal) token.position

/-- The current token as a float. -/
def float : Parser Expr := do
  let token ← current
  match Binary64.ofDigits? false token.literal.toList with
  | some value => return .float token value
  | none => refuse (.badFloat token.literal) token.position

/-- The parameters that follow a first one, up to the closing parenthesis. The parameters read
so far are carried along in reverse. -/
def moreParameters : Nat → List Name → Parser (List Name)
  | 0, _ => throw .starved
  | budget + 1, read => do
    if (← upcoming).kind = .comma then
      advance
      expect .ident
      moreParameters budget ((← name) :: read)
    else
      expect .rightParen
      return read.reverse

/-- The parameters of a function, from its opening to its closing parenthesis. -/
def parameters (budget : Nat) : Parser (List Name) := do
  if (← upcoming).kind = .rightParen then
    advance
    return []
  else
    expect .ident
    moreParameters budget [← name]

mutual

/-- An expression whose outer operators bind tighter than `least`, from its first to its last
token. -/
def expression : Nat → Precedence → Parser Expr
  | 0, _ => throw .starved
  | budget + 1, least => do
    let left ← operand budget
    operators budget least left

/-- The operators after an operand, as long as they bind tighter than `least`. -/
def operators : Nat → Precedence → Expr → Parser Expr
  | 0, _, _ => throw .starved
  | budget + 1, least, left => do
    let next ← upcoming
    if least.level < (Precedence.ofKind next.kind).level then
      advance
      if next.kind = .leftParen then
        if left.isCallable then
          let given ← arguments budget
          operators budget least (.call next left given)
        else refuse (.notCallable left) next.position
      else
        advance
        let right ← expression budget (.onRight next.kind)
        operators budget least (.binary next left next.literal right)
    else return left

/-- An operand: a literal, a name, or an expression that starts with a token of its own. -/
def operand : Nat → Parser Expr
  | 0 => throw .starved
  | budget + 1 => do
    let token ← current
    match token.kind with
    | .ident => return .name (← name)
    | .int => integer
    | .float => float
    | .string => return .string token token.literal
    | .trueWord => return .boolean token true
    | .falseWord => return .boolean token false
    | .bang | .minus =>
      advance
      let right ← expression budget .unary
      return .unary token token.literal right
    | .leftParen =>
      advance
      let inner ← expression budget .lowest
      expect .rightParen
      return inner
    | .ifWord =>
      expect .leftParen
      advance
      let condition ← expression budget .lowest
      expect .rightParen
      expect .leftBrace
      let consequence ← block budget
      if (← upcoming).kind = .elseWord then
        advance
        expect .leftBrace
        let alternative ← block budget
        return .conditional token condition consequence (some alternative)
      else return .conditional token condition consequence none
    | .fnWord =>
      expect .leftParen
      let parameters ← parameters budget
      expect .leftBrace
      let body ← block budget
      return .function token parameters body
    | .illegal => refuse (.illegal token.literal) token.position
    | other => refuse (.noOperand other) token.position

/-- The arguments of a call, from its opening to its closing parenthesis. -/
def arguments : Nat → Parser (List Expr)
  | 0 => throw .starved
  | budget + 1 => do
    if (← upcoming).kind = .rightParen then
      advance
      return []
    else
      advance
      let first ← expression budget .lowest
      moreArguments budget [first]

/-- The arguments that follow a first one, up to the closing parenthesis. The arguments read so
far are carried along in reverse. -/
def moreArguments : Nat → List Expr → Parser (List Expr)
  | 0, _ => throw .starved
  | budget + 1, read => do
    if (← upcoming).kind = .comma then
      advance
      advance
      let next ← expression budget .lowest
      moreArguments budget (next :: read)
    else
      expect .rightParen
      return read.reverse

/-- A block, from its opening brace to its closing one. A block that the text leaves open is
reported and kept. -/
def block : Nat → Parser Block
  | 0 => throw .starved
  | budget + 1 => do
    let token ← current
    advance
    let body ← statements budget true []
    let last ← current
    if last.kind = .eof then report .unclosedBlock last.position
    return .mk token body

/-- A statement. -/
def statement : Nat → Parser Statement
  | 0 => throw .starved
  | budget + 1 => do
    let token ← current
    match token.kind with
    | .letWord =>
      expect .ident
      let bound ← name
      expect .assign
      advance
      let value ← expression budget .lowest
      skipSemicolon
      return .binding token bound value
    | .returnWord =>
      advance
      let value ← expression budget .lowest
      skipSemicolon
      return .returning token value
    | .leftBrace => return .block (← block budget)
    | _ =>
      let value ← expression budget .lowest
      skipSemicolon
      return .expression token value

/-- Statements to the end of the text, or in a block to its closing brace. The statements read
so far are carried along in reverse. -/
def statements : Nat → Bool → List Statement → Parser (List Statement)
  | 0, _, _ => throw .starved
  | budget + 1, inBlock, read => do
    let kind := (← current).kind
    if kind = .eof || (inBlock && kind = .rightBrace) then return read.reverse
    else
      let found ← attempt (statement budget)
      advance
      statements budget inBlock (found.toList ++ read)

end

end Parser

namespace Reader

/-- A budget that suffices for the tokens left: no rule spends more than four steps before it
takes a token. -/
def budget (r : Reader) : Nat :=
  4 * r.tokens.length + 4

/-- Reads an expression whose outer operators bind tighter than `least`. -/
def expression (r : Reader) (least : Precedence) : Option Expr × Reader :=
  match Parser.expression r.budget least r with
  | .ok e r => (some e, r)
  | .error _ r => (none, r)

/-- Reads statements to the end of the text. -/
def program (r : Reader) : Program × Reader :=
  match Parser.statements r.budget false [] r with
  | .ok p r => (p, r)
  | .error _ r => ([], r)

end Reader

/-- The program of a whole text and the reports made on it. With reports, the program lacks the
statements that could not be read. -/
def readProgram (text : String) : Program × Array ParseError :=
  let (p, r) := (Reader.ofString text).program
  (p, r.errors)

/-- The program of a whole text, or the reports made on it. -/
def parse (text : String) : Except (Array ParseError) Program :=
  let (p, errors) := readProgram text
  if errors.isEmpty then .ok p else .error errors

end StackScript
