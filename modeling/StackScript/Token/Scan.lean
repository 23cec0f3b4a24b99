import StackScript.Text.Alphabet
import StackScript.Token

/-!
# Cutting a Text into Tokens

A text is read one lexeme at a time. Between lexemes stand blanks; a lexeme is a quoted string,
a number, a word, or one of the marks, of which the two-character ones win over their first
characters. Nothing is refused here: a character that starts no lexeme makes an illegal token
of its own, and so does a string that never ends.

## Main definitions

* `Lexeme`: what is cut off the front of a text, and what is left of it.
* `Lexeme.cut`: the rule that picks the lexeme at the front.
* `Cursor.next`: one token, and the place behind it.
* `Cursor.tokens`, `tokenize`: all tokens to the end of a text.
* `Scanner`: a cursor that is asked for its tokens in turn; `Scanner.toList` are all of them.

## Main results

* `Lexeme.spelling_append_rest`: a lexeme and the rest make up the text again.
-/

namespace StackScript

open Text

/-- A **lexeme**, cut off the front of a text. -/
structure Lexeme where
  kind : TokenKind
  literal : String
  /-- The characters taken. -/
  spelling : List Char
  /-- The characters left. -/
  rest : List Char
  deriving DecidableEq, Repr

namespace Lexeme

/-- Characters that may start a word. -/
def startsWord (c : Char) : Bool :=
  isLetter c || c = '_'

/-- Characters that may continue a word. -/
def continuesWord (c : Char) : Bool :=
  isLetter c || isNumeral c || c = '_'

/-- The longest word at the front. -/
def word (text : List Char) : Lexeme :=
  let spelling := text.takeWhile continuesWord
  let literal := String.ofList spelling
  ⟨.ofWord literal, literal, spelling, text.dropWhile continuesWord⟩

/-- The longest number at the front. A point belongs to it only if a digit follows, and only
the first one. -/
def number (text : List Char) : Lexeme :=
  let whole := text.takeWhile Char.isDigit
  let int (rest : List Char) : Lexeme := ⟨.int, String.ofList whole, whole, rest⟩
  match text.dropWhile Char.isDigit with
  | '.' :: digit :: rest =>
    if digit.isDigit then
      let spelling := whole ++ '.' :: (digit :: rest).takeWhile Char.isDigit
      ⟨.float, String.ofList spelling, spelling, (digit :: rest).dropWhile Char.isDigit⟩
    else int ('.' :: digit :: rest)
  | rest => int rest

/-- Puts what a backslash and the character after it stand for in front of reversed content.
Five characters are escaped; before any other the backslash stands for itself. -/
def unescape (c : Char) (content : List Char) : List Char :=
  match c with
  | 'n' => '\n' :: content
  | 't' => '\t' :: content
  | 'r' => '\r' :: content
  | '\\' => '\\' :: content
  | '"' => '"' :: content
  | c => c :: '\\' :: content

/-- The string whose content starts at the front. The content read so far and the characters
taken so far are carried along in reverse. A string without its closing quote is illegal; its
literal is the opening quote and the content. -/
def quoted : (text content taken : List Char) → Lexeme
  | [], content, taken => ⟨.illegal, String.ofList ('"' :: content.reverse), taken.reverse, []⟩
  | '"' :: rest, content, taken =>
    ⟨.string, String.ofList content.reverse, ('"' :: taken).reverse, rest⟩
  | ['\\'], content, taken =>
    ⟨.illegal, String.ofList ('"' :: ('\\' :: content).reverse), ('\\' :: taken).reverse, []⟩
  | '\\' :: c :: rest, content, taken => quoted rest (unescape c content) (c :: '\\' :: taken)
  | c :: rest, content, taken => quoted rest (c :: content) (c :: taken)

/-- The kind of a mark of two characters. -/
def pairKind? : Char → Char → Option TokenKind
  | '=', '=' => some .equal
  | '!', '=' => some .notEqual
  | '*', '*' => some .pow
  | _, _ => none

/-- The kind of a mark of one character. -/
def markKind? : Char → Option TokenKind
  | '=' => some .assign
  | '!' => some .bang
  | '*' => some .asterisk
  | '+' => some .plus
  | '-' => some .minus
  | '/' => some .slash
  | '<' => some .less
  | '>' => some .greater
  | ',' => some .comma
  | ';' => some .semicolon
  | ':' => some .colon
  | '(' => some .leftParen
  | ')' => some .rightParen
  | '\x7b' => some .leftBrace
  | '\x7d' => some .rightBrace
  | '[' => some .leftBracket
  | ']' => some .rightBracket
  | _ => none

/-- A lexeme of one character: a mark, or an illegal character. -/
def single (c : Char) (rest : List Char) : Lexeme :=
  ⟨(markKind? c).getD .illegal, c.toString, [c], rest⟩

/-- The mark at the front, of two characters if it can be. -/
def mark (c : Char) : List Char → Lexeme
  | [] => single c []
  | d :: rest =>
    match pairKind? c d with
    | some kind => ⟨kind, String.ofList [c, d], [c, d], rest⟩
    | none => single c (d :: rest)

/-- The lexeme that starts with the character `c`, which is no blank. -/
def first (c : Char) (rest : List Char) : Lexeme :=
  if c = '"' then quoted rest [] [c]
  else if c.isDigit then number (c :: rest)
  else if startsWord c then word (c :: rest)
  else mark c rest

/-- The lexeme at the front of a text that does not start with a blank. -/
def cut : List Char → Option Lexeme
  | [] => none
  | c :: rest => some (first c rest)

/-! ### A lexeme and its rest -/

/-- A word is cut off from the front of the text. -/
theorem word_spelling_append_rest (text : List Char) :
    (word text).spelling ++ (word text).rest = text :=
  List.takeWhile_append_dropWhile

/-- A number is cut off from the front of the text. -/
theorem number_spelling_append_rest (text : List Char) :
    (number text).spelling ++ (number text).rest = text := by
  have parts : text.takeWhile Char.isDigit ++ text.dropWhile Char.isDigit = text :=
    List.takeWhile_append_dropWhile
  unfold number
  dsimp only
  split
  · next digit rest h =>
    rw [h] at parts
    split
    · simp only [List.append_assoc, List.cons_append, List.takeWhile_append_dropWhile]
      exact parts
    · exact parts
  · exact parts

/-- What is cut off as a string goes on from what was taken of it before. -/
theorem quoted_spelling_append_rest (text content taken : List Char) :
    (quoted text content taken).spelling ++ (quoted text content taken).rest =
      taken.reverse ++ text := by
  fun_induction quoted text content taken with
  | case1 => rfl
  | case2 => simp
  | case3 => simp
  | case4 c rest content taken ih => simp [ih]
  | case5 c rest content taken _ _ _ ih => simp [ih]

/-- An operator or a delimiter is cut off from the front of the text. -/
theorem mark_spelling_append_rest (c : Char) (rest : List Char) :
    (mark c rest).spelling ++ (mark c rest).rest = c :: rest := by
  cases rest with
  | nil => rfl
  | cons d rest =>
    unfold mark
    dsimp only
    split <;> rfl

/-- A lexeme and the rest make up the text again. -/
theorem spelling_append_rest (c : Char) (rest : List Char) :
    (first c rest).spelling ++ (first c rest).rest = c :: rest := by
  unfold first
  split
  · exact quoted_spelling_append_rest rest [] [c]
  split
  · exact number_spelling_append_rest (c :: rest)
  split
  · exact word_spelling_append_rest (c :: rest)
  · exact mark_spelling_append_rest c rest

end Lexeme

/-- A **cursor**, a place in a text: the characters from there on, and their position. -/
structure Cursor where
  rest : List Char
  position : Position
  deriving DecidableEq, Repr

namespace Cursor

/-- The start of a text. -/
def ofString (text : String) : Cursor := ⟨text.toList, .start⟩

/-- The place behind a run of blanks. -/
def skipBlanks (c : Cursor) : Cursor :=
  ⟨c.rest.dropWhile isBlank, c.position.afterAll (c.rest.takeWhile isBlank)⟩

/-- The end-of-text token at this place. -/
def endToken (c : Cursor) : Token := ⟨.eof, "", c.position⟩

/-- The next lexeme as a token, and the place behind it. -/
def next? (c : Cursor) : Option (Token × Cursor) :=
  let c := c.skipBlanks
  (Lexeme.cut c.rest).map fun l =>
    (⟨l.kind, l.literal, c.position⟩, ⟨l.rest, c.position.afterAll l.spelling⟩)

/-- The next token, which at the end of the text is the end-of-text token for ever. -/
def next (c : Cursor) : Token × Cursor :=
  c.next?.getD (c.skipBlanks.endToken, c.skipBlanks)

/-- At most `count` more tokens, in reverse before those already read. -/
def collect (c : Cursor) (count : Nat) (read : List Token) : List Token × Cursor :=
  match count with
  | 0 => (read.reverse, c)
  | more + 1 =>
    match c.next? with
    | none => (read.reverse, c.skipBlanks)
    | some (token, c) => collect c more (token :: read)

/-- The tokens before the end of the text, and the place of the end. There are no more tokens
than characters. -/
def tokens (c : Cursor) : List Token × Cursor :=
  c.collect (c.rest.length + 1) []

end Cursor

/-- All tokens of a text, the last being its end. -/
def tokenize (c : Cursor) : List Token :=
  c.tokens.1 ++ [c.tokens.2.endToken]

/-- A **scanner**, a cursor that is asked for its tokens in turn. Once the end of the text has
been handed out in turn, nothing follows it. -/
structure Scanner where
  cursor : Cursor
  finished : Bool := false

namespace Scanner

/-- The next token, whether or not the end was handed out before. -/
def next (s : Scanner) : Token × Scanner :=
  let (token, cursor) := s.cursor.next
  (token, { s with cursor })

/-- The next token in turn. -/
def inTurn (s : Scanner) : Option Token × Scanner :=
  if s.finished then (none, s)
  else
    let (token, s) := s.next
    (some token, if token.kind = .eof then { s with finished := true } else s)

/-- All tokens that are left, up to and including the end of the text. -/
def remaining (s : Scanner) : List Token × Scanner :=
  let (tokens, cursor) := s.cursor.tokens
  (tokens ++ [cursor.endToken], { s with cursor })

/-- At most `count` tokens in turn, in reverse before those already read. -/
def collect (s : Scanner) (count : Nat) (read : List Token) : List Token :=
  match count with
  | 0 => read.reverse
  | more + 1 =>
    match s.inTurn with
    | (none, _) => read.reverse
    | (some token, s) => collect s more (token :: read)

/-- The tokens handed out in turn: one for each character at most, and the end of the text. -/
def toList (s : Scanner) : List Token :=
  s.collect (s.cursor.rest.length + 1) []

end Scanner

end StackScript
