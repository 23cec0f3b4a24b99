import StackScript.Text.Field
import StackScript.Text.Quoted
import StackScript.Token

/-!
# Token Listings

One line for each token: where it starts, the group it belongs to, and what it is. The full
form shows the kind and the quoted literal, the brief form the literal alone. In colour, all
that follows the position is set in the colour of the kind.

## Main definitions

* `Listing`: the choices of a listing.
* `Listing.render`: the lines for a list of tokens.
-/

namespace StackScript

open Text

namespace TokenKind

/-- The group under which a kind is listed. -/
def group : TokenKind → String
  | illegal => "ILLEGAL"
  | eof => "EOF"
  | int => "INT"
  | float => "FLOAT"
  | string => "STRING"
  | trueWord | falseWord => "BOOL"
  | ident => "IDENT"
  | leftParen | rightParen => "PAREN"
  | leftBrace | rightBrace => "BRACE"
  | leftBracket | rightBracket => "BRACKET"
  | comma | semicolon | colon => "DELIM"
  | assign | plus | minus | bang | asterisk | slash | pow => "OP"
  | equal | notEqual | less | greater => "CMP"
  | fnWord | letWord | ifWord | elseWord | returnWord => "KEYWORD"

end TokenKind

/-- The terminal colours of a listing. -/
inductive Colour
  | plain
  | dim
  | red
  | green
  | yellow
  | magenta
  | cyan
  deriving DecidableEq, Repr

namespace Colour

/-- The control sequence that switches to a colour. -/
def code : Colour → String
  | plain => "\x1b[0m"
  | dim => "\x1b[2m"
  | red => "\x1b[31m"
  | green => "\x1b[32m"
  | yellow => "\x1b[33m"
  | magenta => "\x1b[35m"
  | cyan => "\x1b[36m"

/-- The colour of a kind. -/
def ofKind : TokenKind → Colour
  | .eof => dim
  | .illegal => red
  | .string => green
  | .int | .float | .trueWord | .falseWord => cyan
  | .ident => yellow
  | .assign | .plus | .minus | .bang | .asterisk | .slash | .pow => magenta
  | .equal | .notEqual | .less | .greater => magenta
  | _ => plain

end Colour

/-- The choices of a listing. -/
structure Listing where
  /-- Whether colours are switched on and off. -/
  coloured : Bool := true
  /-- Whether only the literal is shown. -/
  brief : Bool := false

namespace Listing

/-- What is shown of a token. The brief form has nothing to show at the end of the text. -/
def shown (listing : Listing) (t : Token) : String :=
  let group := leftAligned 8 t.kind.group
  if !listing.brief then group ++ " " ++ t.kind.label ++ " " ++ quoted t.literal
  else if t.kind = .eof then group
  else group ++ " " ++ t.literal

/-- The line of one token. -/
def line (listing : Listing) (t : Token) : String :=
  let place := "[" ++ zeroPadded 2 t.position.line ++ ":" ++ zeroPadded 2 t.position.column ++ "] "
  let shown := listing.shown t
  if listing.coloured then
    place ++ (Colour.ofKind t.kind).code ++ shown ++ Colour.plain.code ++ "\n"
  else place ++ shown ++ "\n"

/-- The lines of a list of tokens. -/
def render (listing : Listing) (tokens : List Token) : String :=
  tokens.foldl (fun text t => text ++ listing.line t) ""

end Listing

end StackScript
