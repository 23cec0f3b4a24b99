import StackScript.Token.Scan

/-!
# Spelling

How words are written, and that cutting a text into tokens undoes it: the words are found again
in whatever way their strings are escaped and whatever blanks stand between them, as long as no
word runs into the next.

## Main definitions

* `Word`: a token without its place; `Word.isShaped`: one whose literal is as its kind demands.
* `Word.Spells`: the spellings of a word.
* `WrittenAs`: **the texts of words**.
* `Word.listSource`: a text of words, with a blank behind each.

## Main results

* `Word.Spells.isCut`: a word at the front is cut off.
* `Cursor.tokens_of_writtenAs`: **the words of a text are found again**.
* `Word.writtenAs_listSource`: every list of words has a text.
-/

namespace StackScript

open Text

/-- A **word**, a token without its place. -/
structure Word where
  kind : TokenKind
  literal : String
  deriving DecidableEq, Repr

/-- The token without its place. -/
def Token.word (token : Token) : Word := ⟨token.kind, token.literal⟩

namespace TokenKind

/-- How words of the kind are spelled, where all of them are spelled the same. -/
def spelling : TokenKind → String
  | fnWord => "fn"
  | letWord => "let"
  | trueWord => "true"
  | falseWord => "false"
  | ifWord => "if"
  | elseWord => "else"
  | returnWord => "return"
  | kind => kind.name

/-- Whether a character right behind a word of the kind is, or may be, taken into it. -/
def takes (kind : TokenKind) (c : Char) : Bool :=
  match kind with
  | ident | fnWord | letWord | trueWord | falseWord | ifWord | elseWord | returnWord =>
    Lexeme.continuesWord c
  | int => c.isDigit || c = '.'
  | float => c.isDigit
  | assign | bang => c = '='
  | asterisk => c = '*'
  | _ => false

end TokenKind

/-- Digits, at least one. -/
def isDigits (text : List Char) : Bool :=
  !text.isEmpty && text.all Char.isDigit

/-- Characters that make up a word, if perhaps a reserved one. -/
def isWordShaped : List Char → Bool
  | [] => false
  | c :: rest => Lexeme.startsWord c && rest.all Lexeme.continuesWord

/-- Digits, a point and digits. -/
def isFloatShaped (text : List Char) : Bool :=
  match text.dropWhile Char.isDigit with
  | '.' :: places => isDigits (text.takeWhile Char.isDigit) && isDigits places
  | _ => false

/-- Whether the literal of a word is as its kind demands. There are no words that are illegal or
the end of the text. -/
def Word.isShaped (w : Word) : Bool :=
  match w.kind with
  | .illegal | .eof => false
  | .ident => isWordShaped w.literal.toList && TokenKind.ofWord w.literal = .ident
  | .int => isDigits w.literal.toList
  | .float => isFloatShaped w.literal.toList
  | .string => true
  | kind => w.literal = kind.spelling

/-- The characters that are written behind a backslash, and what they stand for. -/
def escapes : List (Char × Char) :=
  [('n', '\n'), ('t', '\t'), ('r', '\r'), ('\\', '\\'), ('"', '"')]

/-- The ways to write a content between quotes. Quotes and backslashes have to be escaped. -/
inductive Escapes : (content body : List Char) → Prop
  | nil : Escapes [] []
  | plain {c : Char} {content body : List Char} :
      c ≠ '"' → c ≠ '\\' → Escapes content body → Escapes (c :: content) (c :: body)
  | escaped {e c : Char} {content body : List Char} :
      (e, c) ∈ escapes → Escapes content body → Escapes (c :: content) ('\\' :: e :: body)

/-- The **spellings** of a word: a string is quoted, any other word is its literal. -/
inductive Word.Spells : Word → List Char → Prop
  | quoted {content : String} {body : List Char} :
      Escapes content.toList body → Spells ⟨.string, content⟩ ('"' :: (body ++ ['"']))
  | plain {w : Word} : w.kind ≠ .string → Spells w w.literal.toList

/-- The **texts of words**: the words in order, with blanks around them. Between two of them may
stand nothing if the first does not take what the second starts with. -/
inductive WrittenAs : List Word → List Char → Prop
  | blanks {blanks : List Char} : (∀ c ∈ blanks, isBlank c = true) → WrittenAs [] blanks
  | word {w : Word} {ws : List Word} {blanks spelling rest : List Char} :
      (∀ c ∈ blanks, isBlank c = true) → w.Spells spelling →
      (∀ c ∈ rest.head?, w.kind.takes c = false) → WrittenAs ws rest →
      WrittenAs (w :: ws) (blanks ++ (spelling ++ rest))

/-! ### Runs of characters -/

section Runs

variable {p : Char → Bool} {run rest : List Char}

/-- A run of characters with a property is taken whole, up to a character without it. -/
theorem takeWhile_run (all : ∀ c ∈ run, p c = true) (ends : ∀ c ∈ rest.head?, p c = false) :
    (run ++ rest).takeWhile p = run := by
  rw [List.takeWhile_append_of_pos all]
  cases rest with
  | nil => exact List.append_nil run
  | cons c rest => rw [List.takeWhile_cons_of_neg (by simp [ends c rfl]), List.append_nil]

/-- What such a run is dropped from begins behind it. -/
theorem dropWhile_run (all : ∀ c ∈ run, p c = true) (ends : ∀ c ∈ rest.head?, p c = false) :
    (run ++ rest).dropWhile p = rest := by
  rw [List.dropWhile_append_of_pos all]
  cases rest with
  | nil => rfl
  | cons c rest => exact List.dropWhile_cons_of_neg (by simp [ends c rfl])

end Runs

/-- Digits are a text of digits that is not empty. -/
theorem isDigits_iff {text : List Char} :
    isDigits text = true ↔ text ≠ [] ∧ ∀ d ∈ text, d.isDigit = true := by
  cases text <;> simp [isDigits]

/-- Digits begin with a digit. -/
theorem exists_digit {text : List Char} (digits : isDigits text = true) :
    ∃ c more, text = c :: more ∧ c.isDigit = true := by
  obtain ⟨some, all⟩ := isDigits_iff.mp digits
  obtain ⟨c, more, rfl⟩ := List.exists_cons_of_ne_nil some
  exact ⟨c, more, rfl, all c List.mem_cons_self⟩

/-- What is shaped as a float has digits on both sides of a point. -/
theorem exists_parts_of_floatShaped {text : List Char} (shaped : isFloatShaped text = true) :
    ∃ whole places, text = whole ++ '.' :: places ∧ isDigits whole = true ∧
      isDigits places = true := by
  rw [isFloatShaped] at shaped
  split at shaped
  · next places found =>
      obtain ⟨whole, digits⟩ := Bool.and_eq_true_iff.mp shaped
      refine ⟨text.takeWhile Char.isDigit, places, ?_, whole, digits⟩
      rw [← found, List.takeWhile_append_dropWhile]
  · cases shaped

/-! ### Characters -/

namespace Lexeme

variable {c d : Char} {kind : TokenKind}

/-- A digit starts no word. -/
theorem startsWord_of_isDigit (h : c.isDigit = true) : startsWord c = false := by
  have bounds : 48 ≤ c.toNat ∧ c.toNat ≤ 57 := by
    simpa [Char.isDigit, UInt32.le_iff_toNat_le] using h
  have ascii : c.toNat < 0x80 := by omega
  have noLetter : c.isAlpha = false := by
    have upper : ¬ 'A'.toNat ≤ c.toNat :=
      fun above => absurd (Nat.le_trans above bounds.2) (by decide)
    have lower : ¬ 'a'.toNat ≤ c.toNat :=
      fun above => absurd (Nat.le_trans above bounds.2) (by decide)
    have noUpper : c.isUpper = false := decide_eq_false fun capital => upper capital.1
    have noLower : c.isLower = false := Bool.and_eq_false_iff.mpr (.inl (decide_eq_false lower))
    exact Bool.or_eq_false_iff.mpr ⟨noUpper, noLower⟩
  have other : c ≠ '_' := by
    rintro rfl
    exact absurd bounds.2 (by decide)
  rw [startsWord, isLetter_of_ascii ascii, noLetter, decide_eq_false other]
  rfl

/-- What starts a word may go on in it. -/
theorem continuesWord_of_startsWord (h : startsWord c = true) : continuesWord c = true := by
  rcases Bool.or_eq_true_iff.mp h with letter | underscore
  · rw [continuesWord, letter]
    rfl
  · rw [continuesWord, underscore, Bool.or_true]

/-- A character with a property that no blank has is not blank. -/
theorem isBlank_of_solid {p : Char → Bool} (h : p c = true)
    (solid : p ' ' = false ∧ p '\t' = false ∧ p '\n' = false ∧ p '\r' = false) :
    isBlank c = false := by
  obtain ⟨space, tab, newline, carriage⟩ := solid
  cases blank : isBlank c with
  | false => rfl
  | true =>
      simp only [isBlank, Bool.or_eq_true, decide_eq_true_eq] at blank
      rcases blank with ((rfl | rfl) | rfl) | rfl <;>
        exact absurd h (Bool.eq_false_iff.mp (by assumption))

/-- No blank starts a word. -/
theorem isBlank_of_startsWord (h : startsWord c = true) : isBlank c = false :=
  isBlank_of_solid h ⟨by decide, by decide, by decide, by decide⟩

/-- No blank is a digit. -/
theorem isBlank_of_isDigit (h : c.isDigit = true) : isBlank c = false :=
  isBlank_of_solid h ⟨by decide, by decide, by decide, by decide⟩

/-- A character that is a mark by itself starts nothing else. -/
theorem plain_of_markKind? (h : markKind? c = some kind) :
    isBlank c = false ∧ c ≠ '"' ∧ c.isDigit = false ∧ startsWord c = false := by
  unfold markKind? at h
  split at h <;> first | decide | cases h

/-- Nor does one that is the first of two. -/
theorem plain_of_pairKind? (h : pairKind? c d = some kind) :
    isBlank c = false ∧ c ≠ '"' ∧ c.isDigit = false ∧ startsWord c = false := by
  unfold pairKind? at h
  split at h <;> first | decide | cases h

/-- A mark that does not take the next character makes no mark with it. -/
theorem pairKind?_of_takes (h : markKind? c = some kind) (apart : kind.takes d = false) :
    pairKind? c d = none := by
  unfold pairKind?
  split
  · cases h
    cases apart
  · cases h
    cases apart
  · cases h
    cases apart
  · rfl

/-! ### Lexemes -/

variable {more rest : List Char}

/-- A string ends at its quote, with the content that is written in it. -/
theorem quoted_of_escapes {content body : List Char} (escapes : Escapes content body)
    (read taken : List Char) : ∃ spelling, quoted (body ++ '"' :: rest) read taken =
      ⟨.string, String.ofList (read.reverse ++ content), spelling, rest⟩ := by
  induction escapes generalizing read taken with
  | nil => exact ⟨_, by rw [List.nil_append, quoted, List.append_nil]⟩
  | @plain c content body noQuote noBackslash _ ih =>
      obtain ⟨spelling, same⟩ := ih (c :: read) (c :: taken)
      refine ⟨spelling, ?_⟩
      have step : quoted (c :: (body ++ '"' :: rest)) read taken =
          quoted (body ++ '"' :: rest) (c :: read) (c :: taken) := by
        rw [quoted]
        · exact noQuote
        · exact fun same _ => noBackslash same
        · exact fun _ _ same _ => noBackslash same
      rw [List.cons_append, step, same, List.reverse_cons, List.append_assoc, List.singleton_append]
  | @escaped e c content body mem _ ih =>
      obtain ⟨spelling, same⟩ := ih (c :: read) (e :: '\\' :: taken)
      refine ⟨spelling, ?_⟩
      have decoded : unescape e read = c :: read := by
        simp only [StackScript.escapes, List.mem_cons, Prod.mk.injEq, List.not_mem_nil,
          or_false] at mem
        rcases mem with ⟨rfl, rfl⟩ | ⟨rfl, rfl⟩ | ⟨rfl, rfl⟩ | ⟨rfl, rfl⟩ | ⟨rfl, rfl⟩ <;> rfl
      have step : quoted ('\\' :: e :: (body ++ '"' :: rest)) read taken =
          quoted (body ++ '"' :: rest) (unescape e read) (e :: '\\' :: taken) := by
        rw [quoted]
      rw [List.cons_append, List.cons_append, step, decoded, same, List.reverse_cons,
        List.append_assoc, List.singleton_append]

/-- What is shaped as a word is cut off whole, where nothing goes on in it. -/
theorem first_of_wordShaped (shaped : isWordShaped (c :: more) = true)
    (apart : ∀ d ∈ rest.head?, continuesWord d = false) :
    first c (more ++ rest) = ⟨.ofWord (String.ofList (c :: more)), String.ofList (c :: more),
      c :: more, rest⟩ := by
  obtain ⟨starts, continues⟩ := Bool.and_eq_true_iff.mp shaped
  have noQuote : c ≠ '"' := by
    rintro rfl
    exact absurd starts (by decide)
  have noDigit : ¬ c.isDigit = true := fun digit => by
    rw [startsWord_of_isDigit digit] at starts
    cases starts
  have all : ∀ d ∈ c :: more, continuesWord d = true :=
    List.forall_mem_cons.mpr ⟨continuesWord_of_startsWord starts, List.all_eq_true.mp continues⟩
  rw [first, if_neg noQuote, if_neg noDigit, if_pos starts, ← List.cons_append, word,
    takeWhile_run all apart, dropWhile_run all apart]

/-- A digit at the front starts a number. -/
theorem first_of_isDigit (digit : c.isDigit = true) : first c more = number (c :: more) := by
  have noQuote : c ≠ '"' := by
    rintro rfl
    exact absurd digit (by decide)
  rw [first, if_neg noQuote, if_pos digit]

/-- Digits are cut off whole as an integer, where neither a digit nor a point follows. -/
theorem number_of_digits {digits : List Char} (shaped : isDigits digits = true)
    (apart : ∀ d ∈ rest.head?, (d.isDigit || d = '.') = false) :
    number (digits ++ rest) = ⟨.int, String.ofList digits, digits, rest⟩ := by
  obtain ⟨-, all⟩ := isDigits_iff.mp shaped
  have ends : ∀ d ∈ rest.head?, d.isDigit = false := fun d first =>
    (Bool.or_eq_false_iff.mp (apart d first)).1
  rw [number, takeWhile_run all ends, dropWhile_run all ends]
  dsimp only
  split
  · exact absurd (apart '.' rfl) (by decide)
  · rfl

/-- What is shaped as a float is cut off whole, where no digit follows. -/
theorem number_of_floatShaped {text : List Char} (shaped : isFloatShaped text = true)
    (apart : ∀ d ∈ rest.head?, d.isDigit = false) :
    ∃ spelling, number (text ++ rest) = ⟨.float, String.ofList text, spelling, rest⟩ := by
  obtain ⟨whole, places, rfl, digits, digits'⟩ := exists_parts_of_floatShaped shaped
  obtain ⟨-, all⟩ := isDigits_iff.mp digits
  obtain ⟨-, all'⟩ := isDigits_iff.mp digits'
  obtain ⟨d, more, rfl, digit⟩ := exists_digit digits'
  have ends : ∀ c ∈ ('.' :: d :: (more ++ rest)).head?, c.isDigit = false := by
    rintro _ ⟨⟩
    rfl
  have split : whole ++ '.' :: d :: more ++ rest = whole ++ '.' :: d :: (more ++ rest) := by simp
  refine ⟨whole ++ '.' :: d :: more, ?_⟩
  rw [split, number, takeWhile_run all ends, dropWhile_run all ends]
  split
  · next same =>
      cases same
      rw [if_pos digit, ← List.cons_append, takeWhile_run all' apart, dropWhile_run all' apart]
  · next other => exact absurd rfl (other d (more ++ rest))

/-- A mark of one character is cut off, where the next character is not taken into it. -/
theorem first_of_markKind? (mark : markKind? c = some kind)
    (apart : ∀ d ∈ rest.head?, kind.takes d = false) :
    first c rest = ⟨kind, String.ofList [c], [c], rest⟩ := by
  obtain ⟨-, noQuote, noDigit, noWord⟩ := plain_of_markKind? mark
  have alone : single c rest = ⟨kind, String.ofList [c], [c], rest⟩ := by
    rw [single, mark]
    rfl
  rw [first, if_neg noQuote, noDigit, if_neg nofun, noWord, if_neg nofun]
  cases rest with
  | nil => exact alone
  | cons d rest =>
      rw [Lexeme.mark, pairKind?_of_takes mark (apart d rfl)]
      exact alone

/-- A mark of two characters is cut off, whatever follows. -/
theorem first_of_pairKind? (pair : pairKind? c d = some kind) :
    first c (d :: rest) = ⟨kind, String.ofList [c, d], [c, d], rest⟩ := by
  obtain ⟨-, noQuote, noDigit, noWord⟩ := plain_of_pairKind? pair
  rw [first, if_neg noQuote, noDigit, if_neg nofun, noWord, if_neg nofun, mark, pair]

end Lexeme

/-! ### Words -/

namespace TokenKind

/-- The kinds of operators and delimiters. -/
def isMark : TokenKind → Bool
  | illegal | eof | ident | int | float | string => false
  | kind => !kind.isKeyword

/-- A mark is spelled with one character or with two. -/
theorem spelling_of_isMark {kind : TokenKind} (mark : kind.isMark = true) :
    (∃ c, kind.spelling = String.ofList [c] ∧ Lexeme.markKind? c = some kind) ∨
    ∃ c d, kind.spelling = String.ofList [c, d] ∧ Lexeme.pairKind? c d = some kind := by
  cases kind <;>
    first | exact .inl ⟨_, rfl, rfl⟩ | exact .inr ⟨_, _, rfl, rfl⟩ | cases mark

end TokenKind

namespace Word

variable {w : Word} {spelling rest : List Char}

/-- Whether a word is cut off the front of a text and leaves the rest of it. -/
def IsCut (w : Word) (spelling rest : List Char) : Prop :=
  ∃ c more taken, spelling = c :: more ∧ isBlank c = false ∧
    Lexeme.first c (more ++ rest) = ⟨w.kind, w.literal, taken, rest⟩

/-- A word that is shaped as one is cut off the front of a text. -/
theorem isCut_of_wordShaped (shaped : isWordShaped w.literal.toList = true)
    (reserved : TokenKind.ofWord w.literal = w.kind)
    (apart : ∀ d ∈ rest.head?, Lexeme.continuesWord d = false) :
    w.IsCut w.literal.toList rest := by
  cases text : w.literal.toList with
  | nil =>
      rw [text] at shaped
      cases shaped
  | cons c more =>
      rw [text] at shaped
      have same : w.literal = String.ofList (c :: more) := by rw [← text, String.ofList_toList]
      refine ⟨c, more, c :: more, rfl, ?_, ?_⟩
      · exact Lexeme.isBlank_of_startsWord (Bool.and_eq_true_iff.mp shaped).1
      · rw [Lexeme.first_of_wordShaped shaped apart, ← same, reserved]

/-- So is a number. -/
theorem isCut_of_isDigit {c : Char} {more : List Char} (digit : c.isDigit = true)
    (number : ∃ taken, Lexeme.number (c :: more ++ rest) = ⟨w.kind, w.literal, taken, rest⟩) :
    w.IsCut (c :: more) rest := by
  obtain ⟨taken, number⟩ := number
  refine ⟨c, more, taken, rfl, Lexeme.isBlank_of_isDigit digit, ?_⟩
  rw [Lexeme.first_of_isDigit digit]
  exact number

/-- So is a mark. -/
theorem isCut_of_isMark (mark : w.kind.isMark = true) (same : w.literal = w.kind.spelling)
    (apart : ∀ d ∈ rest.head?, w.kind.takes d = false) : w.IsCut w.literal.toList rest := by
  rcases TokenKind.spelling_of_isMark mark with ⟨c, spelled, single⟩ | ⟨c, d, spelled, pair⟩
  · rw [spelled] at same
    rw [same, String.toList_ofList]
    refine ⟨c, [], [c], rfl, (Lexeme.plain_of_markKind? single).1, ?_⟩
    rw [List.nil_append, Lexeme.first_of_markKind? single apart, same]
  · rw [spelled] at same
    rw [same, String.toList_ofList]
    refine ⟨c, [d], [c, d], rfl, (Lexeme.plain_of_pairKind? pair).1, ?_⟩
    rw [List.singleton_append, Lexeme.first_of_pairKind? pair, same]

/-- A word at the front of a text is cut off, however it is spelled. -/
theorem Spells.isCut (spells : w.Spells spelling) (shaped : w.isShaped = true)
    (apart : ∀ d ∈ rest.head?, w.kind.takes d = false) : w.IsCut spelling rest := by
  cases spells with
  | @quoted content body escapes =>
      obtain ⟨taken, read⟩ := @Lexeme.quoted_of_escapes rest _ _ escapes [] ['"']
      refine ⟨'"', body ++ ['"'], taken, rfl, rfl, ?_⟩
      rw [List.append_assoc, List.singleton_append, Lexeme.first, if_pos rfl, read]
      rw [List.reverse_nil, List.nil_append, String.ofList_toList]
  | plain noString =>
      obtain ⟨kind, literal⟩ := w
      cases kind with
      | illegal | eof => cases shaped
      | string => exact absurd rfl noString
      | ident =>
          obtain ⟨wordShaped, reserved⟩ := Bool.and_eq_true_iff.mp shaped
          exact isCut_of_wordShaped wordShaped (of_decide_eq_true reserved) apart
      | fnWord | letWord | trueWord | falseWord | ifWord | elseWord | returnWord =>
          have same := of_decide_eq_true shaped
          dsimp only at same
          subst same
          exact isCut_of_wordShaped (by decide) (by decide) apart
      | int =>
          obtain ⟨c, more, text, digit⟩ := exists_digit shaped
          have number := Lexeme.number_of_digits shaped apart
          rw [String.ofList_toList] at number
          dsimp only at text ⊢
          rw [text] at number ⊢
          exact isCut_of_isDigit digit ⟨_, number⟩
      | float =>
          obtain ⟨taken, number⟩ := Lexeme.number_of_floatShaped shaped apart
          rw [String.ofList_toList] at number
          obtain ⟨whole, places, text, digits, -⟩ := exists_parts_of_floatShaped shaped
          obtain ⟨c, more, rfl, digit⟩ := exists_digit digits
          dsimp only at text ⊢
          rw [text] at number ⊢
          exact isCut_of_isDigit digit ⟨_, number⟩
      | _ => exact isCut_of_isMark rfl (of_decide_eq_true shaped) apart

end Word

/-! ### Texts -/

namespace Cursor

variable {ws : List Word} {text : List Char}

/-- The next token of a text of words is the first of them. -/
theorem next?_of_isCut {w : Word} {blanks spelling rest : List Char} {position : Position}
    (blank : ∀ c ∈ blanks, isBlank c = true) (cut : w.IsCut spelling rest) :
    ∃ token c, (Cursor.mk (blanks ++ (spelling ++ rest)) position).next? = some (token, c) ∧
      token.word = w ∧ c.rest = rest := by
  obtain ⟨c, more, taken, rfl, solid, first⟩ := cut
  have ends : ∀ d ∈ (c :: more ++ rest).head?, isBlank d = false := by
    rintro _ ⟨⟩
    exact solid
  have skipped : (Cursor.mk (blanks ++ (c :: more ++ rest)) position).skipBlanks.rest =
      c :: (more ++ rest) := dropWhile_run blank ends
  rw [next?, skipped, Lexeme.cut, first]
  exact ⟨_, _, rfl, rfl, rfl⟩

/-- A text of words has no more words than characters. -/
theorem length_le_of_writtenAs (written : WrittenAs ws text)
    (shaped : ∀ w ∈ ws, w.isShaped = true) : ws.length ≤ text.length := by
  induction written with
  | blanks => exact Nat.zero_le _
  | word _ spells apart _ ih =>
      obtain ⟨here, later⟩ := List.forall_mem_cons.mp shaped
      obtain ⟨c, more, _, rfl, -⟩ := spells.isCut here apart
      have le := ih later
      simp only [List.length_append, List.length_cons]
      omega

/-- Whatever was collected before, the words of the rest of the text are collected behind it. -/
theorem collect_of_writtenAs (written : WrittenAs ws text)
    (shaped : ∀ w ∈ ws, w.isShaped = true) (position : Position) (count : Nat) (read : List Token)
    (enough : ws.length < count) :
    ((Cursor.mk text position).collect count read).1.map Token.word =
      read.reverse.map Token.word ++ ws := by
  induction written generalizing position count read with
  | @blanks blanks blank =>
      obtain ⟨count, rfl⟩ := Nat.exists_eq_add_of_le' (show 1 ≤ count from enough)
      have ended : (Cursor.mk blanks position).next? = none := by
        have none : blanks.dropWhile isBlank = [] := by
          have := @dropWhile_run isBlank blanks [] blank nofun
          rwa [List.append_nil] at this
        rw [next?, skipBlanks]
        dsimp only
        rw [none]
        rfl
      rw [collect, ended, List.append_nil]
  | word blank spells apart _ ih =>
      obtain ⟨here, later⟩ := List.forall_mem_cons.mp shaped
      rw [List.length_cons] at enough
      obtain ⟨count, rfl⟩ := Nat.exists_eq_add_of_le' (show 1 ≤ count by omega)
      obtain ⟨token, ⟨_, position'⟩, next, rfl, rfl⟩ :=
        @next?_of_isCut _ _ _ _ position blank (spells.isCut here apart)
      rw [collect, next]
      dsimp only
      rw [ih later position' count (token :: read) (by omega)]
      simp

/-- **The words of a text are found again.** -/
theorem tokens_of_writtenAs (written : WrittenAs ws text) (shaped : ∀ w ∈ ws, w.isShaped = true)
    (position : Position) : (Cursor.mk text position).tokens.1.map Token.word = ws := by
  have le := length_le_of_writtenAs written shaped
  rw [tokens, collect_of_writtenAs written shaped position _ [] (Nat.lt_succ_of_le le)]
  rfl

end Cursor

/-! ### A text of words -/

/-- How a character is written between quotes. -/
def escapeChar (c : Char) : List Char :=
  match escapes.find? fun pair => pair.2 = c with
  | some (e, _) => ['\\', e]
  | none => [c]

/-- The spelling of a word, a string with as many escapes as there can be. -/
def Word.source (w : Word) : List Char :=
  if w.kind = .string then '"' :: (w.literal.toList.flatMap escapeChar ++ ['"'])
  else w.literal.toList

/-- A text of words, with a blank behind each of them. -/
def Word.listSource (ws : List Word) : List Char :=
  ws.flatMap fun w => w.source ++ [' ']

/-- A content is written between quotes character by character. -/
theorem escapes_flatMap (content : List Char) : Escapes content (content.flatMap escapeChar) := by
  induction content with
  | nil => exact .nil
  | cons c content ih =>
      rw [List.flatMap_cons, escapeChar]
      cases found : escapes.find? fun pair => pair.2 = c with
      | none =>
          have others : ∀ pair ∈ escapes, pair.2 ≠ c := by
            intro pair mem
            simpa using List.find?_eq_none.mp found pair mem
          refine .plain ?_ ?_ ih
          · rintro rfl
            exact others ('"', '"') (by decide) rfl
          · rintro rfl
            exact others ('\\', '\\') (by decide) rfl
      | some pair =>
          obtain ⟨e, c'⟩ := pair
          have same : c' = c := by simpa using List.find?_some found
          subst same
          exact .escaped (List.mem_of_find?_eq_some found) ih

/-- The source of a word is a spelling of it. -/
theorem Word.spells_source (w : Word) : w.Spells w.source := by
  obtain ⟨kind, literal⟩ := w
  rw [source]
  split
  · next string =>
      dsimp only at string
      subst string
      exact .quoted (escapes_flatMap _)
  · next other => exact .plain other

/-- No word takes a blank. -/
theorem TokenKind.takes_of_isBlank {c : Char} (kind : TokenKind) (blank : isBlank c = true) :
    kind.takes c = false := by
  simp only [isBlank, Bool.or_eq_true, decide_eq_true_eq] at blank
  rcases blank with ((rfl | rfl) | rfl) | rfl <;> cases kind <;> rfl

/-- A blank may stand in front of any words. -/
theorem WrittenAs.blank {ws : List Word} {text : List Char} (written : WrittenAs ws text) {c : Char}
    (blank : isBlank c = true) : WrittenAs ws (c :: text) := by
  cases written with
  | blanks all => exact .blanks (List.forall_mem_cons.mpr ⟨blank, all⟩)
  | word all spells apart rest =>
      rw [← List.cons_append]
      exact .word (List.forall_mem_cons.mpr ⟨blank, all⟩) spells apart rest

/-- Every list of words has a text. -/
theorem Word.writtenAs_listSource (ws : List Word) : WrittenAs ws (listSource ws) := by
  induction ws with
  | nil => exact .blanks nofun
  | cons w ws ih =>
      have split : listSource (w :: ws) = [] ++ (w.source ++ ' ' :: listSource ws) := by
        simp [listSource]
      rw [split]
      refine .word nofun w.spells_source ?_ (ih.blank rfl)
      rintro _ ⟨⟩
      exact w.kind.takes_of_isBlank rfl

end StackScript
