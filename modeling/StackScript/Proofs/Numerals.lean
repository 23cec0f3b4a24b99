import StackScript.Proofs.ParserCompleteness
import StackScript.Proofs.ReportedIntegers
import StackScript.Proofs.Rounding

/-!
# What Numerals Mean

Every number that is written in a text that is accepted stands in the program that was read, and
means what its digits say: an integer is exactly the number that they denote, however many zeros it
starts with, and a float is that number rounded. An integer that does not have 64 bits is reported.
A float that is too large is not: it is read as infinity, and where this begins is where rounding
overflows.

## Main definitions

* `Numeral`: a number that is written in a program; `Program.numerals` lists those of a program.
* `Token.numeral?`: the numeral that a token is read as.
* `Numeral.Denotes`: a numeral means what its digits say.

## Main results

* `Form.Yields.numerals_eq`: the numerals of a form are its tokens that are numbers, in order.
* `Token.denotes_of_numeral?`: what a token is read as means what its digits say.
* `parse_numerals`: **numerals denote their text**, or the text is not accepted.
-/

namespace StackScript

/-- A **numeral**: a number that is written in a program, with its token. -/
inductive Numeral
  | integer (token : Token) (value : Int64)
  | float (token : Token) (value : Binary64)
  deriving DecidableEq

/-- The token of a numeral. -/
def Numeral.token : Numeral → Token
  | integer token _ | float token _ => token

mutual

/-- The numerals of an expression, in order. -/
def Expr.numerals : Expr → List Numeral
  | .integer token value => [.integer token value]
  | .float token value => [.float token value]
  | .name _ | .string _ _ | .boolean _ _ => []
  | .unary _ _ operand => operand.numerals
  | .binary _ left _ right => left.numerals ++ right.numerals
  | .conditional _ condition consequence none => condition.numerals ++ consequence.numerals
  | .conditional _ condition consequence (some alternative) =>
    condition.numerals ++ (consequence.numerals ++ alternative.numerals)
  | .function _ _ body => body.numerals
  | .call _ callee given => callee.numerals ++ Expr.listNumerals given

/-- The numerals of expressions. -/
def Expr.listNumerals : List Expr → List Numeral
  | [] => []
  | e :: rest => e.numerals ++ Expr.listNumerals rest

/-- The numerals of a block. -/
def Block.numerals : Block → List Numeral
  | .mk _ statements => Program.numerals statements

/-- The numerals of a statement. -/
def Statement.numerals : Statement → List Numeral
  | .binding _ _ value | .returning _ value | .expression _ value => value.numerals
  | .block b => b.numerals

/-- The numerals of statements. -/
def Program.numerals : List Statement → List Numeral
  | [] => []
  | s :: rest => s.numerals ++ Program.numerals rest

end

/-- The numerals of a form. -/
def Form.numerals : Form → List Numeral
  | bare e | expression _ e => e.numerals
  | arguments es | moreArguments es => Expr.listNumerals es
  | parameters _ | moreParameters _ => []
  | block b => b.numerals
  | statement s => s.numerals
  | statements p => Program.numerals p

namespace Token

/-- Whether a token is a number. -/
def isNumber (token : Token) : Bool :=
  token.kind = .int || token.kind = .float

/-- The numeral that a token is read as. -/
def numeral? (token : Token) : Option Numeral :=
  match token.kind with
  | .int => (integer64? (Binary64.digitsValue token.literal.toList)).map (.integer token)
  | .float => (Binary64.ofDigits? false token.literal.toList).map (.float token)
  | _ => none

end Token

/-- What the tokens that are numbers are read as, in order. -/
def Token.listNumerals (ts : List Token) : List (Option Numeral) :=
  (ts.filter isNumber).map numeral?

/-! ### Numerals and tokens -/

namespace Token

/-- Tokens in sequence have their numerals in sequence. -/
theorem listNumerals_append (ts us : List Token) :
    listNumerals (ts ++ us) = listNumerals ts ++ listNumerals us := by
  rw [listNumerals, List.filter_append, List.map_append]
  rfl

/-- A token of another kind in front adds no numeral. -/
theorem listNumerals_cons {token : Token} {kind : TokenKind} (same : token.kind = kind)
    (other : (kind = .int || kind = .float) = false) (ts : List Token) :
    listNumerals (token :: ts) = listNumerals ts := by
  rw [listNumerals, List.filter_cons_of_neg]
  · rfl
  · rw [isNumber, same, other]
    exact Bool.false_ne_true

/-- Nor does one behind. -/
theorem listNumerals_concat {token : Token} {kind : TokenKind} (same : token.kind = kind)
    (other : (kind = .int || kind = .float) = false) (ts : List Token) :
    listNumerals (ts ++ [token]) = listNumerals ts := by
  rw [listNumerals_append, listNumerals_cons same other]
  exact List.append_nil _

/-- Semicolons are no numerals. -/
theorem listNumerals_semicolons {ts : List Token}
    (all : ∀ token ∈ ts, token.kind = .semicolon) : listNumerals ts = [] := by
  induction ts with
  | nil => rfl
  | cons token rest ih =>
      obtain ⟨here, there⟩ := List.forall_mem_cons.mp all
      rw [listNumerals_cons here rfl, ih there]

end Token

open Token (listNumerals listNumerals_append listNumerals_cons listNumerals_concat
  listNumerals_semicolons)

/-- The **numerals of a form** are its tokens that are numbers, in order, each as it is read. -/
theorem Form.Yields.numerals_eq {form : Form} {ts : List Token} (h : form.Yields ts) :
    listNumerals ts = form.numerals.map some := by
  induction h with
  | integer kind read | float kind read =>
      simp [listNumerals, Token.isNumber, Token.numeral?, Form.numerals, Expr.numerals, kind, read]
  | name kind | string kind | trueWord kind | falseWord kind => exact listNumerals_cons kind rfl _
  | unary kind _ ih =>
      rcases kind with kind | kind
      · exact (listNumerals_cons kind rfl _).trans ih
      · exact (listNumerals_cons kind rfl _).trans ih
  | @binary token _ _ _ _ joins _ _ ih ih' =>
      have other : (token.kind = .int || token.kind = .float) = false := by
        cases kind : token.kind <;> rw [kind] at joins <;> first | rfl | cases joins
      rw [listNumerals_append, listNumerals_cons rfl other, ih, ih', ← List.map_append]
      rfl
  | call _ opens closes _ _ ih ih' =>
      rw [listNumerals_append, listNumerals_cons opens rfl, listNumerals_concat closes rfl, ih, ih',
        ← List.map_append]
      rfl
  | conditional kind opens closes _ _ ih ih' =>
      rw [listNumerals_cons kind rfl, listNumerals_cons opens rfl, listNumerals_append,
        listNumerals_cons closes rfl, ih, ih', ← List.map_append]
      rfl
  | alternative kind opens closes otherwise _ _ _ ih ih' ih'' =>
      rw [listNumerals_cons kind rfl, listNumerals_cons opens rfl, listNumerals_append,
        listNumerals_cons closes rfl, listNumerals_append, listNumerals_cons otherwise rfl, ih, ih',
        ih'', ← List.map_append, ← List.map_append]
      rfl
  | function kind opens closes _ _ ih ih' =>
      rw [listNumerals_cons kind rfl, listNumerals_cons opens rfl, listNumerals_append,
        listNumerals_cons closes rfl, ih, ih']
      rfl
  | grouped opens closes _ ih | block opens closes _ ih =>
      rw [listNumerals_cons opens rfl, listNumerals_concat closes rfl]
      exact ih
  | ofBare _ _ ih | blockStatement _ ih | expressionStatement _ ih => exact ih
  | noArguments | lastArgument | noParameters | lastParameter | noStatements => rfl
  | firstArgument _ _ ih ih' =>
      rw [listNumerals_append, ih, ih', ← List.map_append]
      rfl
  | nextArgument comma _ _ ih ih' =>
      rw [listNumerals_cons comma rfl, listNumerals_append, ih, ih', ← List.map_append]
      rfl
  | firstParameter kind _ ih => exact (listNumerals_cons kind rfl _).trans ih
  | nextParameter comma kind _ ih =>
      rw [listNumerals_cons comma rfl, listNumerals_cons kind rfl]
      exact ih
  | binding kind name assign _ ih =>
      rw [listNumerals_cons kind rfl, listNumerals_cons name rfl, listNumerals_cons assign rfl]
      exact ih
  | returning kind _ ih => exact (listNumerals_cons kind rfl _).trans ih
  | nextStatement _ closed _ ih ih' =>
      rw [listNumerals_append, listNumerals_append, listNumerals_semicolons closed.kind_eq, ih, ih',
        List.nil_append, ← List.map_append]
      rfl

/-! ### What numerals denote -/

open Binary64 (digitsValue overflowBound)

/-- A numeral **denotes** its text. An integer is the number that its digits are. A float, which has
digits on both sides of a point, is the number that they are, rounded; this is finite as long as
rounding does not overflow. -/
def Numeral.Denotes : Numeral → Prop
  | integer token value =>
    isDigits token.literal.toList = true ∧ value.toInt = digitsValue token.literal.toList
  | float token value =>
    ∃ whole places, token.literal.toList = whole ++ '.' :: places ∧ isDigits whole = true ∧
      isDigits places = true ∧
      value = .ofDecimal false (digitsValue (whole ++ places)) (-places.length) ∧
      (value.isFinite = true ↔
        digitsValue (whole ++ places) < overflowBound * Nat.pow 10 places.length)

/-- Digits around a point are a decimal number, whose exponent counts the places behind the point.
-/
theorem Binary64.ofDigits?_point (negative : Bool) {whole places : List Char}
    (digits : isDigits whole = true) (digits' : isDigits places = true) :
    ofDigits? negative (whole ++ '.' :: places) =
      some (.ofDecimal negative (digitsValue (whole ++ places)) (-places.length)) := by
  obtain ⟨c, more, rfl, -⟩ := exists_digit digits
  obtain ⟨-, all⟩ := isDigits_iff.mp digits
  obtain ⟨-, all'⟩ := isDigits_iff.mp digits'
  have point : ∀ d ∈ ('.' :: places).head?, d.isDigit = false := by
    rintro _ ⟨⟩
    rfl
  have none : ∀ d ∈ ([] : List Char).head?, d.isDigit = false := nofun
  have taken := takeWhile_run all' none
  have dropped := dropWhile_run all' none
  rw [List.append_nil] at taken dropped
  simp only [ofDigits?, takeWhile_run all point, dropWhile_run all point, taken, dropped]
  simp only [List.cons_append, Int.zero_sub]

/-- The numeral that a token is read as keeps the token. -/
theorem Token.token_of_numeral? {token : Token} {n : Numeral} (read : token.numeral? = some n) :
    n.token = token := by
  unfold numeral? at read
  split at read
  · obtain ⟨value, -, rfl⟩ := Option.map_eq_some_iff.mp read
    rfl
  · obtain ⟨value, -, rfl⟩ := Option.map_eq_some_iff.mp read
    rfl
  · cases read

/-- If all numbers among some tokens are read, they are the tokens of what is read. -/
theorem Token.map_token_of_listNumerals {ts : List Token} {ns : List Numeral}
    (read : listNumerals ts = ns.map some) : ns.map Numeral.token = ts.filter isNumber := by
  rw [listNumerals] at read
  generalize ts.filter isNumber = us at read ⊢
  induction ns generalizing us with
  | nil => exact (List.map_eq_nil_iff.mp read).symm
  | cons n ns ih =>
      obtain ⟨token, rest, rfl, first, later⟩ := List.map_eq_cons_iff.mp read
      rw [List.map_cons, token_of_numeral? first, ih rest later]

/-- **What a token is read as denotes its text**, if this is as its kind demands. -/
theorem Token.denotes_of_numeral? {token : Token} {n : Numeral}
    (shaped : token.word.isShaped = true) (read : token.numeral? = some n) : n.Denotes := by
  rw [Word.isShaped, Token.word] at shaped
  unfold numeral? at read
  split at read
  · next kind =>
      obtain ⟨value, known, rfl⟩ := Option.map_eq_some_iff.mp read
      rw [kind] at shaped
      exact ⟨shaped, integer64?_eq_some_iff.mp known⟩
  · next kind =>
      obtain ⟨value, known, rfl⟩ := Option.map_eq_some_iff.mp read
      rw [kind] at shaped
      obtain ⟨whole, places, parts, digits, digits'⟩ := exists_parts_of_floatShaped shaped
      rw [parts, Binary64.ofDigits?_point false digits digits'] at known
      cases known
      exact ⟨whole, places, parts, digits, digits', rfl, Binary64.isFinite_ofDecimal _ _ _⟩
  · cases read

/-- **Numerals denote their text, or the text is not accepted.** The numerals of a program that was
read are the numbers among the tokens of the text, all of them and in order, and each denotes its
text. A text with an integer that does not have 64 bits is refused, and this integer is reported at
its place.

A float that rounding takes to infinity is not refused. -/
theorem parse_numerals (text : String) :
    (∀ p, parse text = .ok p →
      (Program.numerals p).map Numeral.token =
        (Reader.ofString text).tokens.filter Token.isNumber ∧
      ∀ n ∈ Program.numerals p, n.Denotes) ∧
    ∀ token ∈ (Reader.ofString text).tokens, token.kind = .int →
      Int64.maxValue.toInt < digitsValue token.literal.toList →
      ∃ errors, parse text = .error errors ∧
        ⟨.badInteger token.literal, token.position⟩ ∈ errors := by
  constructor
  · intro p accepted
    have read := (yields_tokens_of_parse accepted).numerals_eq
    refine ⟨Token.map_token_of_listNumerals read, fun n mem => ?_⟩
    have among : some n ∈ listNumerals (Reader.ofString text).tokens :=
      read ▸ List.mem_map_of_mem mem
    obtain ⟨token, number, same⟩ := List.mem_map.mp among
    exact Token.denotes_of_numeral?
      (shaped_of_parse accepted token (List.mem_filter.mp number).1) same
  · intro token mem kind large
    have outside : token.IsOutOfRange := by
      refine ⟨kind, if_neg fun range => ?_⟩
      exact Int.not_lt.mpr range.2 large
    have reported : token.outOfRange ∈ (readProgram text).2 :=
      Reader.reports_program outside (Cursor.kind_ne_eof _) mem
    refine ⟨(readProgram text).2, if_neg fun none => ?_, reported⟩
    have nothing : (readProgram text).2 = #[] := Array.isEmpty_iff.mp none
    rw [nothing] at reported
    exact Array.not_mem_empty _ reported

/-- Zeros in front change nothing, and the least integer that is too large is reported. -/
theorem parse_numerals_zeros :
    (∃ p, parse "007 + 12.50" = .ok p ∧
      Program.numerals p = [.integer ⟨.int, "007", ⟨1, 1⟩⟩ 7,
        .float ⟨.float, "12.50", ⟨1, 7⟩⟩ ⟨0x4029000000000000⟩] ∧
      ∀ n ∈ Program.numerals p, n.Denotes) ∧
    ∃ errors, parse "9223372036854775808" = .error errors ∧
      ⟨.badInteger "9223372036854775808", ⟨1, 1⟩⟩ ∈ errors := by
  constructor
  · have read : (parse "007 + 12.50").toOption.map Program.numerals =
        some [.integer ⟨.int, "007", ⟨1, 1⟩⟩ 7,
          .float ⟨.float, "12.50", ⟨1, 7⟩⟩ ⟨0x4029000000000000⟩] := by decide +kernel
    obtain ⟨p, accepted⟩ : ∃ p, parse "007 + 12.50" = .ok p := ⟨_, rfl⟩
    rw [accepted] at read
    exact ⟨p, accepted, Option.some.inj read, ((parse_numerals "007 + 12.50").1 p accepted).2⟩
  · have tokens : (Reader.ofString "9223372036854775808").tokens =
        [⟨.int, "9223372036854775808", ⟨1, 1⟩⟩] := by decide +kernel
    exact (parse_numerals "9223372036854775808").2 _ (tokens ▸ List.mem_cons_self) rfl
      (by decide +kernel)

/-- A text that is nothing but a float is accepted, however large the float is. -/
theorem parse_float {whole places : List Char} (digits : isDigits whole = true)
    (digits' : isDigits places = true) :
    ∃ p token, parse (String.ofList (whole ++ '.' :: places)) = .ok p ∧
      Program.numerals p = [.float token
        (.ofDecimal false (digitsValue (whole ++ places)) (-places.length))] := by
  generalize same : String.ofList (whole ++ '.' :: places) = text
  have chars : text.toList = whole ++ '.' :: places := by rw [← same, String.toList_ofList]
  have shaped : (Word.mk .float text).isShaped = true := by
    obtain ⟨-, all⟩ := isDigits_iff.mp digits
    have point : ∀ d ∈ ('.' :: places).head?, d.isDigit = false := by
      rintro _ ⟨⟩
      rfl
    rw [Word.isShaped, chars, isFloatShaped, takeWhile_run all point, dropWhile_run all point]
    exact Bool.and_eq_true_iff.mpr ⟨digits, digits'⟩
  have written : WrittenAs [⟨.float, text⟩] text.toList := by
    have word : WrittenAs [⟨.float, text⟩] ([] ++ (text.toList ++ [])) :=
      .word (List.forall_mem_nil _) (.plain (by rintro ⟨⟩)) (by simp)
        (.blanks (List.forall_mem_nil _))
    rwa [List.nil_append, List.append_nil] at word
  have words := Cursor.tokens_of_writtenAs written (List.forall_mem_singleton.mpr shaped) ⟨1, 1⟩
  obtain ⟨token, tokens, word⟩ := List.map_eq_singleton_iff.mp words
  have kind : token.kind = .float := congrArg Word.kind word
  have literal : token.literal = text := congrArg Word.literal word
  have read := Binary64.ofDigits?_point false digits digits'
  rw [← chars, ← literal] at read
  have statement := Form.Yields.expressionStatement
    (.ofBare (Nat.zero_le _) (Form.Yields.float kind read))
  have closed : Closes [] [] := .inr ⟨rfl, by simp⟩
  have yields := Form.Yields.nextStatement statement closed .noStatements
  have only : (Reader.ofString text).tokens = [token] ++ ([] ++ []) := tokens
  rw [← only] at yields
  exact ⟨_, token, parse_of_yields yields, rfl⟩

/-- **A float that is too large is read as infinity.** The text has 400 digits before its point. -/
theorem parse_float_infinite :
    ∃ p token value,
      parse (String.ofList (List.replicate 400 '9' ++ ['.', '0'])) = .ok p ∧
      .float token value ∈ Program.numerals p ∧ value.isFinite = false := by
  obtain ⟨p, token, accepted, numerals⟩ :=
    @parse_float (List.replicate 400 '9') ['0'] (by decide +kernel) (by decide)
  refine ⟨p, token, _, accepted, numerals ▸ List.mem_cons_self, ?_⟩
  have large : ¬ digitsValue (List.replicate 400 '9' ++ ['0']) < overflowBound * Nat.pow 10 1 := by
    decide +kernel
  exact Bool.eq_false_iff.mpr (mt (Binary64.isFinite_ofDecimal false _ 1).mp large)

end StackScript
