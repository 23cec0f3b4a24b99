/-!
# Tokens

The words of a source text: what kind each is, how it is spelled, and where it starts.

## Main definitions

* `Position`: a line and a column, and how characters move it.
* `TokenKind` and its name in messages, `TokenKind.name`.
* `Token`: a kind, a literal and a position.
* `TokenKind.ofWord`: the kind of a word, a keyword's or an identifier's.

## Main results

* `TokenKind.mem_all`: the list of kinds is complete.
-/

namespace StackScript

/-- A place in a source text, counted in characters from line 1, column 1. -/
structure Position where
  line : Nat
  column : Nat
  deriving DecidableEq, Inhabited, Repr

namespace Position

/-- The place of a text's first character. -/
def start : Position := ⟨1, 1⟩

/-- The place after a character. -/
def after (p : Position) (c : Char) : Position :=
  if c = '\n' then ⟨p.line + 1, 1⟩ else ⟨p.line, p.column + 1⟩

/-- The place after a run of characters. -/
def afterAll (p : Position) (text : List Char) : Position :=
  text.foldl after p

/-- No characters lead nowhere else. -/
@[simp] theorem afterAll_nil (p : Position) : p.afterAll [] = p := rfl

/-- The first character is passed first. -/
@[simp] theorem afterAll_cons (p : Position) (c : Char) (text : List Char) :
    p.afterAll (c :: text) = (p.after c).afterAll text := rfl

end Position

/-- The kinds of tokens. -/
inductive TokenKind
  /-- A character that starts no token, or a string without its closing quote. -/
  | illegal
  /-- The end of the text. -/
  | eof
  | ident
  | int
  | float
  | string
  | assign
  | plus
  | minus
  | bang
  | asterisk
  | slash
  | pow
  | equal
  | notEqual
  | less
  | greater
  | comma
  | semicolon
  | colon
  | leftParen
  | rightParen
  | leftBrace
  | rightBrace
  | leftBracket
  | rightBracket
  | fnWord
  | letWord
  | trueWord
  | falseWord
  | ifWord
  | elseWord
  | returnWord
  deriving DecidableEq, Inhabited, Repr

namespace TokenKind

/-- The name of a kind in messages: an operator or delimiter is named by its own spelling. -/
def name : TokenKind → String
  | illegal => "ILLEGAL"
  | eof => "EOF"
  | ident => "IDENT"
  | int => "INT"
  | float => "FLOAT"
  | string => "STRING"
  | assign => "="
  | plus => "+"
  | minus => "-"
  | bang => "!"
  | asterisk => "*"
  | slash => "/"
  | pow => "**"
  | equal => "=="
  | notEqual => "!="
  | less => "<"
  | greater => ">"
  | comma => ","
  | semicolon => ";"
  | colon => ":"
  | leftParen => "("
  | rightParen => ")"
  | leftBrace => "\x7b"
  | rightBrace => "\x7d"
  | leftBracket => "["
  | rightBracket => "]"
  | fnWord => "FUNCTION"
  | letWord => "LET"
  | trueWord => "TRUE"
  | falseWord => "FALSE"
  | ifWord => "IF"
  | elseWord => "ELSE"
  | returnWord => "RETURN"

/-- The label of a kind in full listings. -/
def label : TokenKind → String
  | illegal => "Illegal"
  | eof => "Eof"
  | ident => "Ident"
  | int => "Int"
  | float => "Float"
  | string => "String"
  | assign => "Assign"
  | plus => "Plus"
  | minus => "Minus"
  | bang => "Bang"
  | asterisk => "Asterisk"
  | slash => "Slash"
  | pow => "Pow"
  | equal => "Eq"
  | notEqual => "NotEq"
  | less => "Lt"
  | greater => "Gt"
  | comma => "Comma"
  | semicolon => "Semicolon"
  | colon => "Colon"
  | leftParen => "LParen"
  | rightParen => "RParen"
  | leftBrace => "LBrace"
  | rightBrace => "RBrace"
  | leftBracket => "LBracket"
  | rightBracket => "RBracket"
  | fnWord => "Function"
  | letWord => "Let"
  | trueWord => "True"
  | falseWord => "False"
  | ifWord => "If"
  | elseWord => "Else"
  | returnWord => "Return"

/-- Every kind, in the order of declaration. -/
def all : List TokenKind :=
  [illegal, eof, ident, int, float, string, assign, plus, minus, bang, asterisk, slash, pow,
    equal, notEqual, less, greater, comma, semicolon, colon, leftParen, rightParen, leftBrace,
    rightBrace, leftBracket, rightBracket, fnWord, letWord, trueWord, falseWord, ifWord,
    elseWord, returnWord]

/-- The reserved words and their kinds. -/
def keywords : List (String × TokenKind) :=
  [("fn", fnWord), ("let", letWord), ("true", trueWord), ("false", falseWord), ("if", ifWord),
    ("else", elseWord), ("return", returnWord)]

/-- Whether the kind is that of a reserved word. -/
def isKeyword : TokenKind → Bool
  | fnWord | letWord | trueWord | falseWord | ifWord | elseWord | returnWord => true
  | _ => false

/-- The kind of a word: its own if the word is reserved, and an identifier otherwise. -/
def ofWord (word : String) : TokenKind :=
  (keywords.lookup word).getD ident

/-- The list of kinds is complete. -/
theorem mem_all (k : TokenKind) : k ∈ all := by
  cases k <;> decide

end TokenKind

/-- A **token**: its kind, its literal, and the position of its first character. The literal is
the spelling itself, except that a string has its decoded content and the end of the text
nothing. -/
structure Token where
  kind : TokenKind
  literal : String
  position : Position
  deriving DecidableEq, Inhabited, Repr

end StackScript
