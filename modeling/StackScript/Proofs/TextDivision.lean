import StackScript.Proofs.LexemeShapes

/-!
# A Text and Its Tokens

Cutting a text into tokens loses nothing. The text is the lexemes of its tokens, in order, with
blanks around them; each token can be read from its lexeme alone; a word, a number or an operator
goes on as far as it can; and the position of a token says how many lines there are before it, and
how many characters stand before it in its line.

What a lexeme may look like is said here without the scanner, by the classes of words and by what
may be written between quotes.

## Main definitions

* `Position.behind`: the place behind a text, counted from the text itself.
* `StandsFor`: what is written between quotes, and the content it stands for.
* `ReadFrom`: **a token is read from a lexeme** in front of a rest.
* `Divides`: **tokens divide a text**.

## Main results

* `Lexeme.first_isRead`: what is cut off the front of a text is read from what was there.
* `tokenize_of_some`: a text has its next token and then those of the rest.
* `tokenize_divides`: **a text is divided into its tokens**.
-/

namespace StackScript

open Text

/-! ### Places -/

namespace Position

/-- The place **behind** a text: one line for each newline, and one column for each character
behind the last of them. -/
def behind (text : List Char) : Position :=
  ⟨1 + text.count '\n', 1 + (text.reverse.takeWhile fun c => c ≠ '\n').length⟩

/-- A place stands **before** another in a text. -/
def Precedes (p q : Position) : Prop :=
  p.line < q.line ∨ p.line = q.line ∧ p.column < q.column

/-- What stands before a place stands before every later one. -/
theorem Precedes.trans {p q r : Position} (h : p.Precedes q) (h' : q.Precedes r) :
    p.Precedes r := by
  unfold Precedes at *
  omega

/-- One more character is one step further. -/
theorem behind_concat (text : List Char) (c : Char) :
    behind (text ++ [c]) = (behind text).after c := by
  unfold behind after
  by_cases newline : c = '\n'
  · simp [newline, Nat.add_assoc]
  · simp [newline, Nat.add_comm]

/-- The place that is counted up from the start of a text is the place behind it. -/
theorem afterAll_behind (before text : List Char) :
    (behind before).afterAll text = behind (before ++ text) := by
  induction text generalizing before with
  | nil => rw [afterAll_nil, List.append_nil]
  | cons c rest ih =>
      rw [afterAll_cons, ← behind_concat, ih, List.append_assoc, List.singleton_append]

/-- Every character takes up room: the place behind it is a later one. -/
theorem precedes_after (p : Position) (c : Char) : p.Precedes (p.after c) := by
  unfold Precedes after
  split
  · exact .inl (Nat.lt_succ_self _)
  · exact .inr ⟨rfl, Nat.lt_succ_self _⟩

/-- Behind more of a text is a later place. -/
theorem behind_precedes (before : List Char) {text : List Char} (some : text ≠ []) :
    (behind before).Precedes (behind (before ++ text)) := by
  obtain ⟨c, rest, rfl⟩ := List.exists_cons_of_ne_nil some
  induction rest generalizing before c with
  | nil =>
      rw [behind_concat]
      exact precedes_after _ c
  | cons d rest ih =>
      have first := precedes_after (behind before) c
      rw [← behind_concat] at first
      have later := ih (before ++ [c]) d nofun
      rw [List.append_assoc, List.singleton_append] at later
      exact first.trans later

end Position

/-! ### Lexemes -/

/-- What is written between quotes **stands for** a content. Behind a backslash stands one of the
escapes; before any other character the backslash stands for itself. -/
inductive StandsFor : (body content : List Char) → Prop
  | nil : StandsFor [] []
  | plain {c : Char} {body content : List Char} :
      c ≠ '"' → c ≠ '\\' → StandsFor body content → StandsFor (c :: body) (c :: content)
  | escaped {e c : Char} {body content : List Char} :
      (e, c) ∈ escapes → StandsFor body content → StandsFor ('\\' :: e :: body) (c :: content)
  | kept {e : Char} {body content : List Char} :
      (∀ c, (e, c) ∉ escapes) → StandsFor body content →
      StandsFor ('\\' :: e :: body) ('\\' :: e :: content)

/-- What is written in sequence stands for contents in sequence. -/
theorem StandsFor.append {body content body' content' : List Char} (h : StandsFor body content)
    (h' : StandsFor body' content') : StandsFor (body ++ body') (content ++ content') := by
  induction h with
  | nil => exact h'
  | plain noQuote noBackslash _ ih => exact .plain noQuote noBackslash ih
  | escaped mem _ ih => exact .escaped mem ih
  | kept others _ ih => exact .kept others ih

/-- A whole number or one with a point. -/
def isNumberShaped (text : List Char) : Bool :=
  isDigits text || isFloatShaped text

/-- The spelling of an operator or a delimiter. -/
def isMarkSpelling (text : List Char) : Bool :=
  TokenKind.all.any fun kind => kind.isMark && kind.spelling.toList = text

/-- The class of a kind, of which the longest lexeme counts. A string ends at its quote, and what
is illegal belongs to no class. -/
def TokenKind.class? : TokenKind → Option (List Char → Bool)
  | illegal | eof | string => none
  | ident | fnWord | letWord | trueWord | falseWord | ifWord | elseWord | returnWord =>
    some isWordShaped
  | int | float => some isNumberShaped
  | _ => some isMarkSpelling

/-- A token of a kind and with a literal is **read from** a lexeme in front of a rest. -/
inductive ReadFrom : TokenKind → (literal lexeme rest : List Char) → Prop
  /-- A word, a number or a mark is its own literal, and the longest one there is. -/
  | longest {kind : TokenKind} {shape : List Char → Bool} {lexeme rest : List Char} :
      kind.class? = some shape → (Word.mk kind (String.ofList lexeme)).isShaped = true →
      (∀ other, shape other = true → other <+: lexeme ++ rest → other.length ≤ lexeme.length) →
      ReadFrom kind lexeme lexeme rest
  /-- A string is what stands between its quotes. -/
  | quoted {body content rest : List Char} :
      StandsFor body content → ReadFrom .string content ('"' :: (body ++ ['"'])) rest
  /-- A string without its closing quote is illegal, and takes all that is left. -/
  | unclosed {body content : List Char} :
      StandsFor body content → ReadFrom .illegal ('"' :: content) ('"' :: body) []
  /-- So is one whose last character is a backslash. -/
  | unclosedEscape {body content : List Char} :
      StandsFor body content →
      ReadFrom .illegal ('"' :: (content ++ ['\\'])) ('"' :: (body ++ ['\\'])) []
  /-- A character that nothing starts with is illegal by itself. -/
  | stray {c : Char} {rest : List Char} :
      c ≠ '"' → (∀ (kind : TokenKind) shape more, kind.class? = some shape →
        shape (c :: more) = false) → ReadFrom .illegal [c] [c] rest

/-- Tokens **divide** a text that stands behind another: it is their lexemes in order, with blanks
around them, and each token has the place of its lexeme. The last token is the end of the text. -/
inductive Divides : (before : List Char) → List Token → (text : List Char) → Prop
  | ended {before blanks : List Char} :
      (∀ c ∈ blanks, isBlank c = true) →
      Divides before [⟨.eof, "", .behind (before ++ blanks)⟩] blanks
  | lexeme {before blanks literal lexeme rest : List Char} {kind : TokenKind}
      {tokens : List Token} :
      (∀ c ∈ blanks, isBlank c = true) → (∀ c ∈ lexeme.head?, isBlank c = false) →
      ReadFrom kind literal lexeme rest → Divides (before ++ blanks ++ lexeme) tokens rest →
      Divides before (⟨kind, String.ofList literal, .behind (before ++ blanks)⟩ :: tokens)
        (blanks ++ (lexeme ++ rest))

/-! ### Classes -/

/-- A prefix whose characters all have a property is not longer than the longest of them. -/
theorem length_le_takeWhile {p : Char → Bool} {other text : List Char}
    (all : ∀ c ∈ other, p c = true) (start : other <+: text) :
    other.length ≤ (text.takeWhile p).length := by
  obtain ⟨rest, rfl⟩ := start
  rw [List.takeWhile_append_of_pos all, List.length_append]
  exact Nat.le_add_right _ _

/-- Every character of a word may go on in it. -/
theorem continuesWord_of_isWordShaped {text : List Char} (shaped : isWordShaped text = true) :
    ∀ c ∈ text, Lexeme.continuesWord c = true := by
  cases text with
  | nil => cases shaped
  | cons c rest =>
      obtain ⟨starts, continues⟩ := Bool.and_eq_true_iff.mp shaped
      exact List.forall_mem_cons.mpr
        ⟨Lexeme.continuesWord_of_startsWord starts, List.all_eq_true.mp continues⟩

/-- The spellings of marks are those of all kinds of marks: the list of kinds is complete. -/
theorem isMarkSpelling_iff {text : List Char} :
    isMarkSpelling text = true ↔
      ∃ kind : TokenKind, kind.isMark = true ∧ kind.spelling.toList = text := by
  simp only [isMarkSpelling, List.any_eq_true, Bool.and_eq_true, decide_eq_true_eq]
  exact ⟨fun ⟨kind, _, mark⟩ => ⟨kind, mark⟩, fun ⟨kind, mark⟩ => ⟨kind, kind.mem_all, mark⟩⟩

/-- A mark has one or two characters. -/
theorem exists_of_isMarkSpelling {text : List Char} (h : isMarkSpelling text = true) :
    ∃ kind : TokenKind, (∃ c, text = [c] ∧ Lexeme.markKind? c = some kind) ∨
      ∃ c d, text = [c, d] ∧ Lexeme.pairKind? c d = some kind := by
  obtain ⟨kind, mark, rfl⟩ := isMarkSpelling_iff.mp h
  refine ⟨kind, ?_⟩
  rcases TokenKind.spelling_of_isMark mark with ⟨c, same, single⟩ | ⟨c, d, same, pair⟩
  · exact .inl ⟨c, by rw [same, String.toList_ofList], single⟩
  · exact .inr ⟨c, d, by rw [same, String.toList_ofList], pair⟩

namespace Lexeme

variable {c d : Char} {kind : TokenKind} {rest more : List Char}

/-- The first character of a mark of two characters is a mark by itself. -/
theorem isSome_markKind?_of_pairKind? (pair : pairKind? c d = some kind) :
    (markKind? c).isSome = true := by
  unfold pairKind? at pair
  split at pair <;> first | rfl | cases pair

/-- A character that is a mark is among the spellings of marks. -/
theorem mark_of_markKind? (mark : markKind? c = some kind) :
    kind.class? = some isMarkSpelling ∧ (Word.mk kind (String.ofList [c])).isShaped = true := by
  unfold markKind? at mark
  split at mark <;> cases mark <;> exact ⟨rfl, rfl⟩

/-- So are two characters that make up a mark. -/
theorem mark_of_pairKind? (pair : pairKind? c d = some kind) :
    kind.class? = some isMarkSpelling ∧ (Word.mk kind (String.ofList [c, d])).isShaped = true := by
  unfold pairKind? at pair
  split at pair <;> cases pair <;> exact ⟨rfl, rfl⟩

/-- What starts no lexeme starts nothing of any class. -/
theorem class_eq_false (noDigit : c.isDigit = false) (noWord : startsWord c = false)
    (noMark : markKind? c = none) (kind : TokenKind) (shape : List Char → Bool)
    (more : List Char) (known : kind.class? = some shape) : shape (c :: more) = false := by
  have word : isWordShaped (c :: more) = false := by rw [isWordShaped, noWord, Bool.false_and]
  have number : isNumberShaped (c :: more) = false := by
    have whole : isDigits (c :: more) = false := by
      rw [isDigits, List.all_cons, noDigit, Bool.false_and, Bool.and_false]
    have none : (c :: more).takeWhile Char.isDigit = [] :=
      List.takeWhile_cons_of_neg (by rw [noDigit]; exact Bool.false_ne_true)
    rw [isNumberShaped, whole, Bool.false_or, isFloatShaped, none]
    split <;> rfl
  have mark : isMarkSpelling (c :: more) = false := by
    refine Bool.eq_false_iff.mpr fun spelled => ?_
    obtain ⟨kind, ⟨_, same, single⟩ | ⟨_, d, same, pair⟩⟩ := exists_of_isMarkSpelling spelled
    · cases same
      rw [noMark] at single
      cases single
    · cases same
      have some := isSome_markKind?_of_pairKind? pair
      rw [noMark] at some
      cases some
  unfold TokenKind.class? at known
  split at known <;> cases known <;> assumption

/-! ### What is cut off -/

/-- A lexeme that is cut off the front of a text is **read from** what was there. -/
def IsRead (l : Lexeme) : Prop :=
  ReadFrom l.kind l.literal.toList l.spelling l.rest

/-- A backslash and a character stand for what they are decoded to. -/
theorem exists_unescape (c : Char) (content : List Char) : ∃ decoded,
    StandsFor ['\\', c] decoded ∧ unescape c content = decoded.reverse ++ content := by
  have escaped {e d : Char} (mem : (e, d) ∈ escapes) : StandsFor ['\\', e] [d] :=
    .escaped mem .nil
  unfold unescape
  split
  · exact ⟨['\n'], escaped (by decide), rfl⟩
  · exact ⟨['\t'], escaped (by decide), rfl⟩
  · exact ⟨['\r'], escaped (by decide), rfl⟩
  · exact ⟨['\\'], escaped (by decide), rfl⟩
  · exact ⟨['"'], escaped (by decide), rfl⟩
  · next noNewline noTab noReturn noBackslash noQuote =>
      refine ⟨['\\', c], .kept (fun d mem => ?_) .nil, rfl⟩
      simp only [escapes, List.mem_cons, Prod.mk.injEq, List.not_mem_nil, or_false] at mem
      rcases mem with ⟨rfl, -⟩ | ⟨rfl, -⟩ | ⟨rfl, -⟩ | ⟨rfl, -⟩ | ⟨rfl, -⟩ <;> contradiction

/-- A string is read from all that is written up to its closing quote, or up to the end of the text.
-/
theorem quoted_isRead {body : List Char} (text content taken : List Char)
    (stands : StandsFor body content.reverse) (took : taken.reverse = '"' :: body) :
    (quoted text content taken).IsRead := by
  fun_induction quoted text content taken generalizing body with
  | case1 content taken =>
      rw [IsRead, String.toList_ofList, took]
      exact .unclosed stands
  | case2 content taken rest =>
      rw [IsRead, String.toList_ofList, List.reverse_cons, took, List.cons_append]
      exact .quoted stands
  | case3 content taken =>
      rw [IsRead, String.toList_ofList, List.reverse_cons, List.reverse_cons, took,
        List.cons_append]
      exact .unclosedEscape stands
  | case4 c rest content taken ih =>
      obtain ⟨decoded, pair, same⟩ := exists_unescape c content
      refine @ih (body ++ ['\\', c]) ?_ (by simp [took])
      rw [same, List.reverse_append, List.reverse_reverse]
      exact stands.append pair
  | case5 c rest content taken noQuote noLast noPair ih =>
      have noBackslash : c ≠ '\\' := fun same => by
        cases rest with
        | nil => exact noLast same rfl
        | cons d rest => exact noPair d rest same rfl
      refine @ih (body ++ [c]) ?_ (by simp [took])
      rw [List.reverse_cons]
      exact stands.append (.plain noQuote noBackslash .nil)

/-- A number with a point goes on to the last of its places. -/
theorem spelling_number_of_point {whole more : List Char} (all : ∀ e ∈ whole, e.isDigit = true)
    (digit : d.isDigit = true) : (number (whole ++ '.' :: d :: more)).spelling =
      whole ++ '.' :: (d :: more).takeWhile Char.isDigit := by
  have point : ∀ e ∈ ('.' :: d :: more).head?, e.isDigit = false := by
    rintro _ ⟨⟩
    rfl
  rw [number, takeWhile_run all point, dropWhile_run all point]
  split
  · next same =>
      cases same
      rw [if_pos digit]
  · next other => exact absurd rfl (other d more)

/-- The digits at the front belong to the number. -/
theorem length_takeWhile_le_number (text : List Char) :
    (text.takeWhile Char.isDigit).length ≤ (number text).spelling.length := by
  unfold number
  dsimp only
  split
  · split
    · rw [List.length_append]
      exact Nat.le_add_right _ _
    · exact Nat.le_refl _
  · exact Nat.le_refl _

/-- No number at the front is longer than the one that is cut off. -/
theorem length_le_number {other text : List Char} (shaped : isNumberShaped other = true)
    (start : other <+: text) : other.length ≤ (number text).spelling.length := by
  rcases Bool.or_eq_true_iff.mp shaped with digits | float
  · exact Nat.le_trans (length_le_takeWhile (isDigits_iff.mp digits).2 start)
      (length_takeWhile_le_number text)
  · obtain ⟨whole, places, rfl, digits, digits'⟩ := exists_parts_of_floatShaped float
    obtain ⟨tail, rfl⟩ := start
    obtain ⟨-, all⟩ := isDigits_iff.mp digits
    obtain ⟨-, all'⟩ := isDigits_iff.mp digits'
    obtain ⟨d, more, rfl, digit⟩ := exists_digit digits'
    have fits := length_le_takeWhile all' (List.prefix_append (d :: more) tail)
    rw [List.append_assoc, List.cons_append, List.cons_append,
      spelling_number_of_point all digit, List.length_append, List.length_append,
      List.length_cons, List.length_cons]
    exact Nat.add_le_add_left (Nat.succ_le_succ fits) _

/-- A number is its own literal. -/
theorem number_literal (text : List Char) :
    ((number text).kind = .int ∨ (number text).kind = .float) ∧
      (number text).literal = String.ofList (number text).spelling := by
  unfold number
  dsimp only
  split
  · split
    · exact ⟨.inr rfl, rfl⟩
    · exact ⟨.inl rfl, rfl⟩
  · exact ⟨.inl rfl, rfl⟩

/-- The longest lexeme of its class is read from what was there. -/
theorem isRead_of_longest {l : Lexeme} {shape : List Char → Bool} {text : List Char}
    (known : l.kind.class? = some shape) (sound : l.IsSound)
    (literal : l.literal = String.ofList l.spelling) (parts : l.spelling ++ l.rest = text)
    (longest : ∀ other, shape other = true → other <+: text →
      other.length ≤ l.spelling.length) : l.IsRead := by
  have shaped : (Word.mk l.kind (String.ofList l.spelling)).isShaped = true := by
    rcases sound with illegal | shaped
    · rw [illegal] at known
      cases known
    · rwa [literal] at shaped
  rw [IsRead, literal, String.toList_ofList]
  exact .longest known shaped (parts ▸ longest)

/-- A number is read from as many digits as there are, with a point only between digits. -/
theorem number_isRead (digit : c.isDigit = true) : (number (c :: rest)).IsRead := by
  obtain ⟨kind, literal⟩ := number_literal (c :: rest)
  have known : (number (c :: rest)).kind.class? = some isNumberShaped := by
    rcases kind with int | float
    · rw [int]
      rfl
    · rw [float]
      rfl
  exact isRead_of_longest known (number_sound digit) literal
    (number_spelling_append_rest (c :: rest)) fun _ => length_le_number

/-- A reserved word has the class of words, as an identifier has. -/
theorem class?_ofWord (word : String) : (TokenKind.ofWord word).class? = some isWordShaped := by
  have reserved : ∀ entry ∈ TokenKind.keywords, entry.2.class? = some isWordShaped := by
    simp [TokenKind.keywords, TokenKind.class?]
  rcases TokenKind.ofWord_cases word with ident | mem
  · rw [ident]
    rfl
  · exact reserved _ mem

/-- A word is read from as many characters as may go on in it. -/
theorem word_isRead (starts : startsWord c = true) : (word (c :: rest)).IsRead :=
  isRead_of_longest (class?_ofWord _) (word_sound starts) rfl
    (word_spelling_append_rest (c :: rest)) fun _ shaped =>
      length_le_takeWhile (continuesWord_of_isWordShaped shaped)

/-- Where no mark of two characters stands, none is longer than one. -/
theorem length_le_one {other : List Char} (spelled : isMarkSpelling other = true)
    (start : other <+: c :: rest) (single : ∀ d ∈ rest.head?, pairKind? c d = none) :
    other.length ≤ 1 := by
  obtain ⟨kind, ⟨e, rfl, -⟩ | ⟨e, d, rfl, pair⟩⟩ := exists_of_isMarkSpelling spelled
  · exact Nat.le_refl 1
  · obtain ⟨tail, same⟩ := start
    cases same
    rw [single d rfl] at pair
    cases pair

/-- A single character is read from itself, if it makes no mark with the next one. -/
theorem single_isRead (noQuote : c ≠ '"') (noDigit : c.isDigit = false)
    (noWord : startsWord c = false) (alone : ∀ d ∈ rest.head?, pairKind? c d = none) :
    (single c rest).IsRead := by
  cases known : markKind? c with
  | none =>
      have illegal : single c rest = ⟨.illegal, String.ofList [c], [c], rest⟩ := by
        rw [single, known]
        rfl
      rw [illegal, IsRead, String.toList_ofList]
      exact .stray noQuote (class_eq_false noDigit noWord known)
  | some kind =>
      have mark : single c rest = ⟨kind, String.ofList [c], [c], rest⟩ := by
        rw [single, known]
        rfl
      obtain ⟨isMark, shaped⟩ := mark_of_markKind? known
      rw [mark]
      exact isRead_of_longest isMark (.inr shaped) rfl rfl fun _ spelled start =>
        length_le_one spelled start alone

/-- A mark is read from two characters where they make one up, and from one otherwise. -/
theorem mark_isRead (noQuote : c ≠ '"') (noDigit : c.isDigit = false)
    (noWord : startsWord c = false) (rest : List Char) : (mark c rest).IsRead := by
  cases rest with
  | nil => exact single_isRead noQuote noDigit noWord nofun
  | cons d rest =>
      rw [mark]
      split
      · next kind pair =>
          obtain ⟨isMark, shaped⟩ := mark_of_pairKind? pair
          refine isRead_of_longest isMark (.inr shaped) rfl rfl fun other spelled _ => ?_
          -- a mark has at most two characters
          obtain ⟨_, ⟨_, rfl, -⟩ | ⟨_, _, rfl, -⟩⟩ := exists_of_isMarkSpelling spelled
          · exact Nat.le_succ 1
          · exact Nat.le_refl 2
      · next none =>
          refine single_isRead noQuote noDigit noWord ?_
          rintro _ ⟨⟩
          exact none

/-- **What is cut off the front of a text is read from what was there.** -/
theorem first_isRead (c : Char) (rest : List Char) : (first c rest).IsRead := by
  unfold first
  split
  · next quote =>
      subst quote
      exact quoted_isRead rest [] ['"'] .nil rfl
  next noQuote =>
  split
  · next digit => exact number_isRead digit
  next noDigit =>
  split
  · next starts => exact word_isRead starts
  · next noWord =>
      exact mark_isRead noQuote (Bool.eq_false_iff.mpr noDigit) (Bool.eq_false_iff.mpr noWord) rest

end Lexeme

/-- A lexeme is not empty. -/
theorem ReadFrom.ne_nil {kind : TokenKind} {literal lexeme rest : List Char}
    (h : ReadFrom kind literal lexeme rest) : lexeme ≠ [] := by
  cases h with
  | longest known shaped _ =>
      have isString : (Word.mk kind "").isShaped = true → kind = .string := by
        cases kind <;> decide
      rintro rfl
      rw [isString shaped] at known
      cases known
  | quoted _ | unclosed _ | unclosedEscape _ | stray _ _ => nofun

/-- The end of a text has no lexeme. -/
theorem ReadFrom.kind_ne_eof {kind : TokenKind} {literal lexeme rest : List Char}
    (h : ReadFrom kind literal lexeme rest) : kind ≠ .eof := by
  rintro rfl
  cases h with
  | longest known _ _ => cases known

/-! ### Texts -/

namespace Cursor

variable {c c' : Cursor} {token : Token}

/-- The next token is read from a lexeme behind blanks, and leaves the rest. -/
theorem next?_eq_some (h : c.next? = some (token, c')) :
    ∃ blanks literal lexeme kind, c.rest = blanks ++ (lexeme ++ c'.rest) ∧
      (∀ d ∈ blanks, isBlank d = true) ∧ (∀ d ∈ lexeme.head?, isBlank d = false) ∧
      ReadFrom kind literal lexeme c'.rest ∧
      token = ⟨kind, String.ofList literal, c.position.afterAll blanks⟩ ∧
      c'.position = (c.position.afterAll blanks).afterAll lexeme := by
  obtain ⟨l, cut, same⟩ := Option.map_eq_some_iff.mp h
  cases same
  have solid := List.head?_dropWhile_not isBlank c.rest
  have parts : c.rest.takeWhile isBlank ++ c.rest.dropWhile isBlank = c.rest :=
    List.takeWhile_append_dropWhile
  have skipped : c.skipBlanks.rest = c.rest.dropWhile isBlank := rfl
  rw [skipped] at cut
  cases left : c.rest.dropWhile isBlank with
  | nil =>
      rw [left] at cut
      cases cut
  | cons d more =>
      rw [left] at cut solid parts
      cases cut
      have whole := Lexeme.spelling_append_rest d more
      have read := Lexeme.first_isRead d more
      refine ⟨c.rest.takeWhile isBlank, _, _, _, ?_, ?_, ?_, read, ?_, rfl⟩
      · rw [whole, parts]
      · exact List.all_eq_true.mp List.all_takeWhile
      · obtain ⟨e, tail, spelled⟩ := List.exists_cons_of_ne_nil read.ne_nil
        rw [spelled] at whole ⊢
        have same : e = d := (List.cons.inj whole).1
        rintro _ ⟨⟩
        rw [same]
        exact solid
      · rw [String.ofList_toList]
        rfl

/-- Where there is no next token, there are only blanks. -/
theorem next?_eq_none (h : c.next? = none) : c.rest.takeWhile isBlank = c.rest := by
  have cut : Lexeme.cut (c.rest.dropWhile isBlank) = none := Option.map_eq_none_iff.mp h
  have parts : c.rest.takeWhile isBlank ++ c.rest.dropWhile isBlank = c.rest :=
    List.takeWhile_append_dropWhile
  cases left : c.rest.dropWhile isBlank with
  | nil => rwa [left, List.append_nil] at parts
  | cons d more =>
      rw [left] at cut
      cases cut

/-- A token takes at least one character. -/
theorem length_lt_of_next? (h : c.next? = some (token, c')) :
    c'.rest.length < c.rest.length := by
  obtain ⟨blanks, literal, lexeme, kind, same, -, -, read, -⟩ := next?_eq_some h
  have some := List.length_pos_iff.mpr read.ne_nil
  rw [same, List.length_append, List.length_append]
  omega

/-- It does not matter how far is counted, as long as it is further than there are characters. -/
theorem collect_congr {count count' : Nat} (enough : c.rest.length < count)
    (enough' : c.rest.length < count') (read : List Token) :
    c.collect count read = c.collect count' read := by
  induction count generalizing c count' read with
  | zero => exact absurd enough (Nat.not_lt_zero _)
  | succ count ih =>
      obtain ⟨count', rfl⟩ := Nat.exists_eq_add_of_le' (Nat.lt_of_le_of_lt (Nat.zero_le _) enough')
      rw [collect, collect]
      cases next : c.next? with
      | none => rfl
      | some pair =>
          have fewer := length_lt_of_next? next
          exact ih (by omega) (by omega) _

/-- What was read before stays before what is collected. -/
theorem collect_read (c : Cursor) (count : Nat) (read : List Token) :
    c.collect count read = (read.reverse ++ (c.collect count []).1, (c.collect count []).2) := by
  induction count generalizing c read with
  | zero => simp [collect]
  | succ count ih =>
      rw [collect, collect]
      cases next : c.next? with
      | none => simp
      | some pair =>
          dsimp only
          rw [ih pair.2 (pair.1 :: read), ih pair.2 [pair.1]]
          simp

end Cursor

/-- Where a text ends, there is only its end. -/
theorem tokenize_of_none {c : Cursor} (h : c.next? = none) :
    tokenize c = [c.skipBlanks.endToken] := by
  rw [tokenize, Cursor.tokens, Cursor.collect, h]
  rfl

/-- **A text has its next token and then those of the rest.** -/
theorem tokenize_of_some {c c' : Cursor} {token : Token} (h : c.next? = some (token, c')) :
    tokenize c = token :: tokenize c' := by
  have fewer := Cursor.length_lt_of_next? h
  rw [tokenize, Cursor.tokens, Cursor.collect, h]
  dsimp only
  rw [Cursor.collect_congr fewer (Nat.lt_succ_self _), Cursor.collect_read]
  rfl

/-- A cursor divides what it has left into the tokens that it finds. -/
theorem Cursor.divides_tokenize (c : Cursor) {before : List Char}
    (place : c.position = .behind before) : Divides before (tokenize c) c.rest := by
  induction left : c.rest.length using Nat.strongRecOn generalizing c before with
  | ind count ih =>
    subst left
    cases next : c.next? with
    | none =>
        have all := next?_eq_none next
        have blank : c.rest.all isBlank = true := all ▸ List.all_takeWhile
        have ended : c.skipBlanks.endToken = ⟨.eof, "", .behind (before ++ c.rest)⟩ := by
          rw [endToken, skipBlanks, all, place, Position.afterAll_behind]
        rw [tokenize_of_none next, ended]
        exact .ended (List.all_eq_true.mp blank)
    | some pair =>
        obtain ⟨token, c'⟩ := pair
        obtain ⟨blanks, literal, lexeme, kind, rest, blank, solid, read, rfl, place'⟩ :=
          next?_eq_some next
        rw [place, Position.afterAll_behind, Position.afterAll_behind] at place'
        have later := ih _ (length_lt_of_next? next) c' place' rfl
        rw [tokenize_of_some next, rest, place, Position.afterAll_behind]
        exact .lexeme blank solid read later

namespace Scanner

/-- Once the end was handed out, nothing follows it. -/
theorem collect_of_finished (c : Cursor) (count : Nat) (read : List Token) :
    (Scanner.mk c true).collect count read = read.reverse := by
  cases count <;> rfl

/-- **A scanner that is asked in turn hands out the tokens of its text**, and nothing after them,
however often it is asked. -/
theorem collect_eq_tokenize (c : Cursor) {count : Nat} (enough : c.rest.length < count)
    (read : List Token) : (Scanner.mk c false).collect count read = read.reverse ++ tokenize c := by
  induction count generalizing c read with
  | zero => exact absurd enough (Nat.not_lt_zero _)
  | succ count ih =>
      cases next : c.next? with
      | none =>
          have turn : (Scanner.mk c false).inTurn =
              (some c.skipBlanks.endToken, ⟨c.skipBlanks, true⟩) := by
            simp only [inTurn, Scanner.next, Cursor.next, next]
            rfl
          rw [collect, turn, tokenize_of_none next]
          dsimp only
          rw [collect_of_finished, List.reverse_cons]
      | some pair =>
          obtain ⟨token, c'⟩ := pair
          obtain ⟨blanks, literal, lexeme, kind, -, -, -, lexed, same, -⟩ :=
            Cursor.next?_eq_some next
          have inside : token.kind ≠ .eof := by
            rw [same]
            exact lexed.kind_ne_eof
          have turn : (Scanner.mk c false).inTurn = (some token, ⟨c', false⟩) := by
            simp only [inTurn, Scanner.next, Cursor.next, next, Option.getD_some, inside]
            rfl
          have fewer := Cursor.length_lt_of_next? next
          rw [collect, turn, tokenize_of_some next]
          dsimp only
          rw [ih c' (by omega), List.reverse_cons, List.append_assoc, List.singleton_append]

end Scanner

namespace Divides

variable {before text : List Char} {tokens : List Token}

/-- The tokens of a division have places in the text or at its end. -/
theorem exists_place (h : Divides before tokens text) :
    ∀ token ∈ tokens, ∃ more, token.position = .behind (before ++ more) := by
  induction h with
  | @ended before blanks _ =>
      intro token mem
      rw [List.mem_singleton.mp mem]
      exact ⟨blanks, rfl⟩
  | @lexeme before blanks literal lexeme rest kind tokens _ _ _ _ ih =>
      refine List.forall_mem_cons.mpr ⟨⟨blanks, rfl⟩, fun token mem => ?_⟩
      obtain ⟨more, place⟩ := ih token mem
      exact ⟨blanks ++ (lexeme ++ more), by rw [place, List.append_assoc, List.append_assoc]⟩

/-- The tokens of a division stand at ever later places. -/
theorem pairwise_precedes (h : Divides before tokens text) :
    tokens.Pairwise fun s t => s.position.Precedes t.position := by
  induction h with
  | ended _ => exact List.pairwise_singleton _ _
  | @lexeme before blanks literal lexeme rest kind tokens _ _ read later ih =>
      refine List.pairwise_cons.mpr ⟨fun token mem => ?_, ih⟩
      obtain ⟨more, place⟩ := later.exists_place token mem
      rw [place, List.append_assoc]
      exact Position.behind_precedes _ (List.append_ne_nil_of_left_ne_nil read.ne_nil more)

end Divides

/-- **A text is divided into its tokens.** Its characters are the lexemes of its tokens, in order,
with blanks around them. Each token is read from its lexeme: the literal is the lexeme itself, or
for a string what stands between the quotes with its escapes decoded; and words, numbers and
operators are the longest there are. The place of a token is the one behind all that stands before
its lexeme, so that places increase. The last token, and no other, is the end of the text, and a
scanner that is asked in turn hands out the same tokens and then nothing more. -/
theorem tokenize_divides (text : String) :
    Divides [] (tokenize (.ofString text)) text.toList ∧
    (∃ tokens place, tokenize (.ofString text) = tokens ++ [⟨.eof, "", place⟩] ∧
      ∀ token ∈ tokens, token.kind ≠ .eof) ∧
    ((tokenize (.ofString text)).Pairwise fun s t => s.position.Precedes t.position) ∧
    Scanner.toList ⟨.ofString text, false⟩ = tokenize (.ofString text) ∧
    ∀ count, text.toList.length < count →
      Scanner.collect ⟨.ofString text, false⟩ count [] = tokenize (.ofString text) := by
  have divides : Divides [] (tokenize (.ofString text)) text.toList :=
    Cursor.divides_tokenize (.ofString text) rfl
  have inTurn (count : Nat) (enough : text.toList.length < count) :
      Scanner.collect ⟨.ofString text, false⟩ count [] = tokenize (.ofString text) :=
    Scanner.collect_eq_tokenize (.ofString text) enough []
  exact ⟨divides, ⟨_, _, rfl, Cursor.kind_ne_eof _⟩, divides.pairwise_precedes,
    inTurn _ (Nat.lt_succ_self _), inTurn⟩

/-- A number with two points, and a string that goes on to the next line and ends with the text in
a backslash: the second point starts nothing, and the string is illegal as a whole. -/
theorem tokenize_divides_unclosed :
    let text := "1.2.3\n \"a\\q\n\\"
    let tokens : List Token := [⟨.float, "1.2", ⟨1, 1⟩⟩, ⟨.illegal, ".", ⟨1, 4⟩⟩,
      ⟨.int, "3", ⟨1, 5⟩⟩, ⟨.illegal, "\"a\\q\n\\", ⟨2, 2⟩⟩, ⟨.eof, "", ⟨3, 2⟩⟩]
    tokenize (.ofString text) = tokens ∧ Divides [] tokens text.toList ∧
      Scanner.collect ⟨.ofString text, false⟩ 20 [] = tokens := by
  intro text tokens
  have found : tokenize (.ofString text) = tokens := by decide
  obtain ⟨divides, -, -, -, inTurn⟩ := tokenize_divides text
  rw [found] at divides inTurn
  exact ⟨found, divides, inTurn 20 (by decide)⟩

end StackScript
