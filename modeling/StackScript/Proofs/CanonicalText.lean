import StackScript.Proofs.ParserCompleteness
import StackScript.Proofs.WellFormedPrograms
import StackScript.Tree.Canonical

/-!
# Reading Canonical Text

The canonical text of a program that was read is read again as the same program. Each operator
brings parentheses along, so no operand needs any of its own; and no word of the text runs into the
next, although statements stand behind each other with nothing between them. Two things get lost in
the text, however: a string is written without its quotes, and nothing ends an expression statement,
so it can be told from what is behind it only if it is the last of its list.

## Main definitions

* `Program.isLegible`: whether neither happens in a program.
* `Program.canonicalWords`: **the words of the canonical text**.
* `Prints`, `PrintsWhole`: texts that have given words, whatever words stand behind them.

## Main results

* `Program.writtenBy_canonicalWords`: the canonical words write the program.
* `Program.prints`: the canonical text has the canonical words.
* `Program.text_eq_of_plain_eq`: canonical text does not depend on places.
* `parse_text`: **canonical text is read as the program it shows**.
-/

namespace StackScript

open Precedence (leftNeed rightNeed)

/-! ### Canonical words -/

/-- Whether a statement is an expression by itself. -/
def Statement.isExpression : Statement → Bool
  | expression _ _ => true
  | _ => false

mutual

/-- Whether the text of an expression shows all that is in it. -/
def Expr.isLegible : Expr → Bool
  | .name _ | .integer _ _ | .float _ _ | .boolean _ _ => true
  | .string _ _ => false
  | .unary _ _ e => e.isLegible
  | .binary _ left _ right => left.isLegible && right.isLegible
  | .conditional _ condition consequence none => condition.isLegible && consequence.isLegible
  | .conditional _ condition consequence (some alternative) =>
    condition.isLegible && consequence.isLegible && alternative.isLegible
  | .function _ _ body => body.isLegible
  | .call _ callee given => callee.isLegible && Expr.allLegible given

/-- Whether the texts of all of the expressions do. -/
def Expr.allLegible : List Expr → Bool
  | [] => true
  | e :: es => e.isLegible && Expr.allLegible es

/-- Whether the text of a block does. -/
def Block.isLegible : Block → Bool
  | .mk _ p => Program.isLegible p

/-- Whether the text of a statement does. -/
def Statement.isLegible : Statement → Bool
  | .binding _ _ value | .returning _ value | .expression _ value => value.isLegible
  | .block b => b.isLegible

/-- Whether the text of a program shows all that is in it: there is no string, and every expression
statement is the last of its list, on all levels. -/
def Program.isLegible : List Statement → Bool
  | [] => true
  | s :: p => s.isLegible && (p.isEmpty || !s.isExpression) && Program.isLegible p

end

mutual

/-- The **canonical words** of an expression: parentheses around every operator. -/
def Expr.canonicalWords : Expr → List Word
  | .name n => [n.token.word]
  | .integer token _ | .float token _ | .string token _ | .boolean token _ => [token.word]
  | .unary token _ e =>
    .fixed .leftParen :: (token.word :: e.canonicalWords ++ [.fixed .rightParen])
  | .binary token left _ right =>
    .fixed .leftParen ::
      ((left.canonicalWords ++ token.word :: right.canonicalWords) ++ [.fixed .rightParen])
  | .conditional token condition consequence none =>
    token.word :: .fixed .leftParen ::
      (condition.canonicalWords ++ .fixed .rightParen :: consequence.canonicalWords)
  | .conditional token condition consequence (some alternative) =>
    token.word :: .fixed .leftParen :: (condition.canonicalWords ++ .fixed .rightParen ::
      (consequence.canonicalWords ++ .fixed .elseWord :: alternative.canonicalWords))
  | .function token names body =>
    token.word :: .fixed .leftParen ::
      (Name.listWords names ++ .fixed .rightParen :: body.canonicalWords)
  | .call token callee given =>
    callee.canonicalWords ++ token.word :: (Expr.listCanonicalWords given ++ [.fixed .rightParen])

/-- The canonical words of expressions, separated by commas. -/
def Expr.listCanonicalWords : List Expr → List Word
  | [] => []
  | e :: es => e.canonicalWords ++ Expr.moreCanonicalWords es

/-- The canonical words of expressions behind others. -/
def Expr.moreCanonicalWords : List Expr → List Word
  | [] => []
  | e :: es => .fixed .comma :: (e.canonicalWords ++ Expr.moreCanonicalWords es)

/-- The canonical words of a block. -/
def Block.canonicalWords : Block → List Word
  | .mk token p => token.word :: (Program.canonicalWords p ++ [.fixed .rightBrace])

/-- The canonical words of a statement: a semicolon ends bindings and returns only. -/
def Statement.canonicalWords : Statement → List Word
  | .binding token name value =>
    token.word :: name.token.word :: .fixed .assign :: value.canonicalWords ++ [.fixed .semicolon]
  | .returning token value => token.word :: value.canonicalWords ++ [.fixed .semicolon]
  | .expression _ value => value.canonicalWords
  | .block b => b.canonicalWords

/-- The canonical words of statements, in order. -/
def Program.canonicalWords : List Statement → List Word
  | [] => []
  | s :: p => s.canonicalWords ++ Program.canonicalWords p

end

/-! ### The canonical words write the program -/

/-- The right operand of an infix operator may always be a call or anything tighter. -/
theorem Precedence.rightNeed_le_call {operator : TokenKind} (joins : operator.isInfix = true) :
    rightNeed operator ≤ call.level := by
  cases operator <;> first | decide | cases joins

/-- A legible list has its expression statement, if any, at its end. -/
theorem Program.isLegible_cons {s : Statement} {p : List Statement}
    (legible : Program.isLegible (s :: p) = true) :
    s.isLegible = true ∧ (s.isExpression = true → p = []) ∧ Program.isLegible p = true := by
  simp only [Program.isLegible, Bool.and_eq_true, Bool.or_eq_true, List.isEmpty_iff,
    Bool.not_eq_true'] at legible
  obtain ⟨⟨here, last⟩, later⟩ := legible
  refine ⟨here, fun expression => last.resolve_right fun other => ?_, later⟩
  rw [expression] at other
  cases other

mutual

/-- The canonical words of an expression are written by the grammar wherever an expression may
stand, as there are parentheses around every operator. -/
theorem Expr.writtenBy_canonicalWords : (e : Expr) → e.isWellFormed = true → e.isLegible = true →
    ∀ need ≤ Precedence.call.level, (Form.expression need e).WrittenBy e.canonicalWords
  | .name n, wellFormed, _, need, le => .ofBare le (.name wellFormed)
  | .integer token value, wellFormed, _, need, le => by
      simp only [Expr.isWellFormed, Bool.and_eq_true, decide_eq_true_eq] at wellFormed
      obtain ⟨⟨kind, shaped⟩, meant⟩ := wellFormed
      exact .ofBare le (.integer kind shaped meant)
  | .float token value, wellFormed, _, need, le => by
      simp only [Expr.isWellFormed, Bool.and_eq_true, decide_eq_true_eq] at wellFormed
      obtain ⟨⟨kind, shaped⟩, meant⟩ := wellFormed
      exact .ofBare le (.float kind shaped meant)
  | .string _ _, _, legible, _, _ => nomatch legible
  | .boolean token value, wellFormed, _, need, le =>
      .ofBare le (.boolean (of_decide_eq_true wellFormed))
  | .unary token operator e, wellFormed, legible, need, _ => by
      simp only [Expr.isWellFormed, Bool.and_eq_true, Bool.or_eq_true, decide_eq_true_eq]
        at wellFormed
      obtain ⟨⟨fixed, rfl⟩, wellFormed⟩ := wellFormed
      have inner := e.writtenBy_canonicalWords wellFormed legible Precedence.unary.level (by decide)
      exact .grouped (.ofBare (Nat.zero_le _) (.unary fixed inner))
  | .binary token left operator right, wellFormed, legible, need, _ => by
      simp only [Expr.isWellFormed, Bool.and_eq_true, decide_eq_true_eq] at wellFormed
      obtain ⟨⟨⟨⟨joins, fixed⟩, rfl⟩, wellFormedLeft⟩, wellFormedRight⟩ := wellFormed
      obtain ⟨legibleLeft, legibleRight⟩ := Bool.and_eq_true_iff.mp legible
      have first := left.writtenBy_canonicalWords wellFormedLeft legibleLeft _
        (Precedence.leftNeed_le_call token.kind)
      have second := right.writtenBy_canonicalWords wellFormedRight legibleRight _
        (Precedence.rightNeed_le_call joins)
      exact .grouped (.ofBare (Nat.zero_le _) (.binary joins fixed first second))
  | .conditional token condition consequence none, wellFormed, legible, need, le => by
      simp only [Expr.isWellFormed, Bool.and_eq_true, decide_eq_true_eq] at wellFormed
      obtain ⟨⟨fixed, wellFormedFirst⟩, wellFormedSecond⟩ := wellFormed
      obtain ⟨legibleFirst, legibleSecond⟩ := Bool.and_eq_true_iff.mp legible
      exact .ofBare le (.conditional fixed
        (condition.writtenBy_canonicalWords wellFormedFirst legibleFirst 0 (Nat.zero_le _))
        (consequence.writtenBy_canonicalWords wellFormedSecond legibleSecond))
  | .conditional token condition consequence (some alternative), wellFormed, legible, need, le => by
      simp only [Expr.isWellFormed, Bool.and_eq_true, decide_eq_true_eq] at wellFormed
      obtain ⟨⟨⟨fixed, wellFormedFirst⟩, wellFormedSecond⟩, wellFormedThird⟩ := wellFormed
      simp only [Expr.isLegible, Bool.and_eq_true] at legible
      obtain ⟨⟨legibleFirst, legibleSecond⟩, legibleThird⟩ := legible
      exact .ofBare le (.alternative fixed
        (condition.writtenBy_canonicalWords wellFormedFirst legibleFirst 0 (Nat.zero_le _))
        (consequence.writtenBy_canonicalWords wellFormedSecond legibleSecond)
        (alternative.writtenBy_canonicalWords wellFormedThird legibleThird))
  | .function token names body, wellFormed, legible, need, le => by
      simp only [Expr.isWellFormed, Bool.and_eq_true, decide_eq_true_eq] at wellFormed
      obtain ⟨⟨fixed, wellFormedNames⟩, wellFormedBody⟩ := wellFormed
      exact .ofBare le (.function fixed (.parameters wellFormedNames)
        (body.writtenBy_canonicalWords wellFormedBody legible))
  | .call token callee given, wellFormed, legible, need, le => by
      simp only [Expr.isWellFormed, Bool.and_eq_true, decide_eq_true_eq] at wellFormed
      obtain ⟨⟨⟨fixed, callable⟩, wellFormedCallee⟩, wellFormedGiven⟩ := wellFormed
      obtain ⟨legibleCallee, legibleGiven⟩ := Bool.and_eq_true_iff.mp legible
      exact .ofBare le (.call callable fixed
        (callee.writtenBy_canonicalWords wellFormedCallee legibleCallee 0 (Nat.zero_le _))
        (Expr.listWrittenBy_canonicalWords given wellFormedGiven legibleGiven))

/-- The canonical words of arguments are written by the grammar. -/
theorem Expr.listWrittenBy_canonicalWords : (es : List Expr) → Expr.allWellFormed es = true →
    Expr.allLegible es = true → (Form.arguments es).WrittenBy (Expr.listCanonicalWords es)
  | [], _, _ => .noArguments
  | e :: es, wellFormed, legible => by
      obtain ⟨here, later⟩ := Bool.and_eq_true_iff.mp wellFormed
      obtain ⟨legibleHere, legibleLater⟩ := Bool.and_eq_true_iff.mp legible
      exact .firstArgument (e.writtenBy_canonicalWords here legibleHere 0 (Nat.zero_le _))
        (Expr.moreWrittenBy_canonicalWords es later legibleLater)

/-- So are those of the arguments behind others. -/
theorem Expr.moreWrittenBy_canonicalWords : (es : List Expr) → Expr.allWellFormed es = true →
    Expr.allLegible es = true → (Form.moreArguments es).WrittenBy (Expr.moreCanonicalWords es)
  | [], _, _ => .lastArgument
  | e :: es, wellFormed, legible => by
      obtain ⟨here, later⟩ := Bool.and_eq_true_iff.mp wellFormed
      obtain ⟨legibleHere, legibleLater⟩ := Bool.and_eq_true_iff.mp legible
      exact .nextArgument (e.writtenBy_canonicalWords here legibleHere 0 (Nat.zero_le _))
        (Expr.moreWrittenBy_canonicalWords es later legibleLater)

/-- The canonical words of a block are written by the grammar. -/
theorem Block.writtenBy_canonicalWords : (b : Block) → b.isWellFormed = true →
    b.isLegible = true → (Form.block b).WrittenBy b.canonicalWords
  | .mk token p, wellFormed, legible => by
      simp only [Block.isWellFormed, Bool.and_eq_true, decide_eq_true_eq] at wellFormed
      obtain ⟨fixed, wellFormed⟩ := wellFormed
      exact .block fixed (Program.writtenBy_canonicalWords p wellFormed legible)

/-- An expression has to be the last statement: its words do not say where it ends. -/
theorem Statement.writtenBefore_canonicalWords : (s : Statement) → s.isWellFormed = true →
    s.isLegible = true → ∀ behind, (s.isExpression = true → behind = []) →
      s.WrittenBefore s.canonicalWords behind
  | .binding token name value, wellFormed, legible, behind, _ => by
      simp only [Statement.isWellFormed, Bool.and_eq_true, decide_eq_true_eq] at wellFormed
      obtain ⟨⟨fixed, wellFormedName⟩, wellFormed⟩ := wellFormed
      exact .semicolon nofun (.binding fixed wellFormedName
        (value.writtenBy_canonicalWords wellFormed legible 0 (Nat.zero_le _)))
  | .returning token value, wellFormed, legible, behind, _ => by
      simp only [Statement.isWellFormed, Bool.and_eq_true, decide_eq_true_eq] at wellFormed
      obtain ⟨fixed, wellFormed⟩ := wellFormed
      exact .semicolon nofun (.returning fixed
        (value.writtenBy_canonicalWords wellFormed legible 0 (Nat.zero_le _)))
  | .expression token value, wellFormed, legible, behind, last => by
      rw [last rfl]
      exact .last (value.writtenBy_canonicalWords wellFormed legible 0 (Nat.zero_le _))
  | .block b, wellFormed, legible, behind, _ =>
      .block (b.writtenBy_canonicalWords wellFormed legible)

/-- The canonical words write a program that is legible. -/
theorem Program.writtenBy_canonicalWords : (p : List Statement) → Program.isWellFormed p = true →
    Program.isLegible p = true → (Form.statements p).WrittenBy (Program.canonicalWords p)
  | [], _, _ => .noStatements
  | s :: p, wellFormed, legible => by
      obtain ⟨here, later⟩ := Bool.and_eq_true_iff.mp wellFormed
      obtain ⟨legibleHere, last, legibleLater⟩ := Program.isLegible_cons legible
      refine .nextStatement (s.writtenBefore_canonicalWords here legibleHere _ fun expression => ?_)
        (Program.writtenBy_canonicalWords p later legibleLater)
      rw [last expression, Program.canonicalWords]

end

/-! ### The canonical text has the canonical words -/

/-- The characters that stand right behind expressions in canonical text. -/
def isSeparator (c : Char) : Bool :=
  c = ' ' || c = '(' || c = ')' || c = ',' || c = ';'

/-- Whether a text does not run into the expression before it. -/
def StandsApart (text : List Char) : Prop := ∀ c ∈ text.head?, isSeparator c = true

/-- A text that begins with a separator stands apart. -/
theorem StandsApart.cons {c : Char} {text : List Char} (separates : isSeparator c = true) :
    StandsApart (c :: text) := by
  rintro _ ⟨⟩
  exact separates

/-- No token goes on with a separator. -/
theorem TokenKind.takes_of_isSeparator {c : Char} (kind : TokenKind)
    (separates : isSeparator c = true) : kind.takes c = false := by
  simp only [isSeparator, Bool.or_eq_true, decide_eq_true_eq] at separates
  rcases separates with (((rfl | rfl) | rfl) | rfl) | rfl <;> cases kind <;> rfl

/-- A text **prints** words if it has them in front of any text that stands apart from it. -/
def Prints (ws : List Word) (text : List Char) : Prop :=
  ∀ {vs : List Word} {rest : List Char}, StandsApart rest → WrittenAs vs rest →
    WrittenAs (ws ++ vs) (text ++ rest)

/-- A text **prints words whole** if it has them in front of any text. -/
def PrintsWhole (ws : List Word) (text : List Char) : Prop :=
  ∀ {vs : List Word} {rest : List Char}, WrittenAs vs rest → WrittenAs (ws ++ vs) (text ++ rest)

namespace WrittenAs

variable {vs : List Word} {rest : List Char}

/-- A word that is no string, in front of a text that it does not take the start of. -/
theorem plain {w : Word} (noString : w.kind ≠ .string)
    (apart : ∀ c ∈ rest.head?, w.kind.takes c = false) (written : WrittenAs vs rest) :
    WrittenAs (w :: vs) (w.literal.toList ++ rest) :=
  @word w vs [] _ rest nofun (.plain noString) apart written

/-- A word that is no string, in front of a text that stands apart. -/
theorem plain_of_apart {w : Word} (noString : w.kind ≠ .string) (apart : StandsApart rest)
    (written : WrittenAs vs rest) : WrittenAs (w :: vs) (w.literal.toList ++ rest) :=
  plain noString (fun c first => w.kind.takes_of_isSeparator (apart c first)) written

/-- A mark of one character that is part of no other mark. -/
theorem mark {kind : TokenKind} {c : Char} (spelled : kind.spelling = String.ofList [c])
    (noString : kind ≠ .string) (free : ∀ d, kind.takes d = false) (written : WrittenAs vs rest) :
    WrittenAs (.fixed kind :: vs) (c :: rest) := by
  have front := plain (w := .fixed kind) noString (fun d _ => free d) written
  rw [show (Word.fixed kind).literal.toList = [c] by
    rw [Word.fixed, spelled, String.toList_ofList]] at front
  exact front

end WrittenAs

/-- Whether a `!` may stand right in front of a text: before an equals sign it would be another
operator. -/
def AllowsBang (text : List Char) : Prop := ∀ c ∈ text.head?, TokenKind.bang.takes c = false

namespace AllowsBang

/-- Texts in sequence allow a `!` in front of them if each of them does. -/
theorem append {first second : List Char} (h : AllowsBang first) (h' : AllowsBang second) :
    AllowsBang (first ++ second) := by
  cases first with
  | nil => exact h'
  | cons c first => exact h

/-- A `!` may stand in front of anything but an equals sign. -/
theorem cons {c : Char} {text : List Char} (other : TokenKind.bang.takes c = false) :
    AllowsBang (c :: text) := by
  rintro _ ⟨⟩
  exact other

/-- What an equals sign starts is an assignment or an equality. -/
theorem kind_first (text : List Char) :
    (Lexeme.first '=' text).kind = .assign ∨ (Lexeme.first '=' text).kind = .equal := by
  have mark : Lexeme.markKind? '=' = some .assign := rfl
  cases text with
  | nil => exact .inl rfl
  | cons d rest =>
      by_cases equal : d = '='
      · rw [equal]
        exact .inr (congrArg Lexeme.kind
          (Lexeme.first_of_pairKind? (show Lexeme.pairKind? '=' '=' = some .equal from rfl)))
      · refine .inl (congrArg Lexeme.kind (Lexeme.first_of_markKind? mark ?_))
        rintro _ ⟨⟩
        exact decide_eq_false equal

/-- So any other word may stand behind a `!`. -/
theorem word {w : Word} (shaped : w.isShaped = true) (noString : w.kind ≠ .string)
    (noAssign : w.kind ≠ .assign) (noEqual : w.kind ≠ .equal) : AllowsBang w.literal.toList := by
  have cut : w.IsCut w.literal.toList [] := (Word.Spells.plain noString).isCut shaped nofun
  obtain ⟨c, more, taken, text, -, first⟩ := cut
  have kind := congrArg Lexeme.kind first
  rw [text]
  refine cons (decide_eq_false ?_)
  rintro rfl
  rcases kind_first (more ++ []) with assign | equal
  · exact noAssign (kind.symm.trans assign)
  · exact noEqual (kind.symm.trans equal)

end AllowsBang

/-- A `!` may stand in front of what can be called, a name or a function. -/
theorem Expr.allowsBang_of_isCallable {e : Expr} (callable : e.isCallable = true)
    (wellFormed : e.isWellFormed = true) : AllowsBang e.text.toList := by
  cases e with
  | name n =>
      simp only [isWellFormed, Name.isWellFormed, Bool.and_eq_true, decide_eq_true_eq] at wellFormed
      obtain ⟨⟨kind, shaped⟩, same⟩ := wellFormed
      rw [text, same]
      apply AllowsBang.word shaped <;> simp [Token.word, kind]
  | function token names body =>
      simp only [isWellFormed, Bool.and_eq_true, decide_eq_true_eq] at wellFormed
      have literal : token.literal = "fn" := congrArg Word.literal wellFormed.1.1
      simp only [text, literal, String.toList_append, List.append_assoc]
      exact .cons rfl
  | _ => cases callable

/-- The text of any expression may stand behind a `!`. -/
theorem Expr.allowsBang {e : Expr} (wellFormed : e.isWellFormed = true)
    (legible : e.isLegible = true) : AllowsBang e.text.toList := by
  cases e with
  | name n => exact allowsBang_of_isCallable rfl wellFormed
  | function token names body => exact allowsBang_of_isCallable rfl wellFormed
  | integer token value | float token value =>
      simp only [isWellFormed, Bool.and_eq_true, decide_eq_true_eq] at wellFormed
      obtain ⟨⟨kind, shaped⟩, -⟩ := wellFormed
      apply AllowsBang.word shaped <;> simp [Token.word, kind]
  | string token value => cases legible
  | boolean token value =>
      have literal := congrArg Word.literal (of_decide_eq_true wellFormed)
      change AllowsBang token.word.literal.toList
      rw [literal]
      cases value with
      | true => exact .cons rfl
      | false => exact .cons rfl
  | unary token operator e | binary token left operator right =>
      simp only [text, String.toList_append, List.append_assoc]
      exact .cons rfl
  | conditional token condition consequence alternative =>
      cases alternative with
      | none | some alternative =>
          simp only [text, String.toList_append, List.append_assoc]
          exact .cons rfl
  | call token callee given =>
      simp only [isWellFormed, Bool.and_eq_true] at wellFormed
      obtain ⟨⟨⟨-, callable⟩, wellFormedCallee⟩, -⟩ := wellFormed
      simp only [text, String.toList_append, List.append_assoc]
      exact (allowsBang_of_isCallable callable wellFormedCallee).append (.cons rfl)

/-! ### Texts of lists -/

/-- The texts of things behind others, each with a comma in front. -/
def moreText {α : Type} (text : α → String) (more : List α) : List Char :=
  more.flatMap fun a => ',' :: ' ' :: (text a).toList

/-- What stands behind others stands apart: there is a comma in front of it, or nothing at all. -/
theorem StandsApart.more {α : Type} (text : α → String) (more : List α) {rest : List Char}
    (apart : StandsApart rest) : StandsApart (moreText text more ++ rest) := by
  cases more with
  | nil => exact apart
  | cons a more => exact .cons rfl

/-- The text of parameters is the first of them, and the rest behind commas. -/
theorem Name.toList_listText (n : Name) (names : List Name) :
    (Name.listText (n :: names)).toList = n.text.toList ++ moreText Name.text names := by
  induction names generalizing n with
  | nil => simp [listText, moreText]
  | cons m names ih =>
      have split : listText (n :: m :: names) = n.text ++ ", " ++ listText (m :: names) :=
        String.intercalate_cons_cons
      rw [split, String.toList_append, String.toList_append, ih, List.append_assoc]
      rfl

/-- The text of arguments is the first of them, and the rest behind commas. -/
theorem Expr.toList_listTextAfter (before : String) (e : Expr) (es : List Expr) :
    (Expr.listTextAfter before (e :: es)).toList =
      before.toList ++ (e.text.toList ++ moreText Expr.text es) := by
  induction es generalizing before e with
  | nil => simp [listTextAfter, moreText]
  | cons e' es ih =>
      rw [listTextAfter, ih]
      · simp [moreText]
      · exact nofun

/-- The text of statements is their texts in a row. -/
theorem Program.toList_textAfter (before : String) (p : List Statement) :
    (Program.textAfter before p).toList =
      before.toList ++ p.flatMap fun s => s.text.toList := by
  rw [textAfter_eq, String.toList_append, String.toList_join, List.flatMap_map]

/-! ### Texts of programs -/

section Printing

variable {vs : List Word} {rest : List Char}

/-- A blank may stand in front of any words. -/
theorem WrittenAs.space (written : WrittenAs vs rest) : WrittenAs vs (' ' :: rest) :=
  written.blank rfl

/-- An opening parenthesis is a word, whatever stands behind it. -/
theorem WrittenAs.openParen (written : WrittenAs vs rest) :
    WrittenAs (.fixed .leftParen :: vs) ('(' :: rest) :=
  .mark rfl nofun (fun _ => rfl) written

/-- So is a closing one. -/
theorem WrittenAs.closeParen (written : WrittenAs vs rest) :
    WrittenAs (.fixed .rightParen :: vs) (')' :: rest) :=
  .mark rfl nofun (fun _ => rfl) written

/-- So is a semicolon. -/
theorem WrittenAs.semicolon (written : WrittenAs vs rest) :
    WrittenAs (.fixed .semicolon :: vs) (';' :: rest) :=
  .mark rfl nofun (fun _ => rfl) written

/-- A reserved word in front of a text that stands apart. -/
theorem WrittenAs.keyword {w : Word} (kind : TokenKind) (reserved : kind.isKeyword = true)
    (fixed : w = .fixed kind) (apart : StandsApart rest) (written : WrittenAs vs rest) :
    WrittenAs (w :: vs) (kind.spelling.toList ++ rest) := by
  rw [fixed]
  refine .plain_of_apart (w := .fixed kind) ?_ apart written
  rintro rfl
  cases reserved

/-- A name is a word, where the text behind it stands apart. -/
theorem Name.prints {n : Name} (wellFormed : n.isWellFormed = true) (apart : StandsApart rest)
    (written : WrittenAs vs rest) : WrittenAs (n.token.word :: vs) (n.text.toList ++ rest) := by
  simp only [isWellFormed, Bool.and_eq_true, decide_eq_true_eq] at wellFormed
  obtain ⟨⟨kind, -⟩, same⟩ := wellFormed
  rw [same]
  exact .plain_of_apart (w := n.token.word) (by simp [Token.word, kind]) apart written

/-- Parameters behind others print their words, each with its comma. -/
theorem Name.prints_more {names : List Name} (all : ∀ n ∈ names, n.isWellFormed = true)
    (apart : StandsApart rest) (written : WrittenAs vs rest) :
    WrittenAs ((names.flatMap fun n => [.fixed .comma, n.token.word]) ++ vs)
      (moreText Name.text names ++ rest) := by
  induction names with
  | nil => exact written
  | cons n names ih =>
      obtain ⟨here, later⟩ := List.forall_mem_cons.mp all
      have behind := Name.prints here (apart.more Name.text names) (ih later)
      rw [moreText, List.flatMap_cons, List.flatMap_cons, List.append_assoc, List.append_assoc]
      exact .mark rfl nofun (fun _ => rfl) behind.space

/-- Parameters print their words. -/
theorem Name.prints_list {names : List Name} (wellFormed : names.all Name.isWellFormed = true)
    (apart : StandsApart rest) (written : WrittenAs vs rest) :
    WrittenAs (Name.listWords names ++ vs) ((Name.listText names).toList ++ rest) := by
  have all := List.all_eq_true.mp wellFormed
  cases names with
  | nil => exact written
  | cons n names =>
      obtain ⟨here, later⟩ := List.forall_mem_cons.mp all
      rw [Name.toList_listText, List.append_assoc]
      exact Name.prints here (apart.more Name.text names) (Name.prints_more later apart written)

/-- A unary expression prints its words if its operand does: its operator does not run into the
text of the operand. -/
theorem Expr.prints_unary {token : Token} {operator : String} {e : Expr}
    (wellFormed : (Expr.unary token operator e).isWellFormed = true)
    (legible : e.isLegible = true) (operand : Prints e.canonicalWords e.text.toList) :
    Prints (Expr.unary token operator e).canonicalWords
      (Expr.unary token operator e).text.toList := by
  intro vs rest apart written
  simp only [Expr.isWellFormed, Bool.and_eq_true, Bool.or_eq_true, decide_eq_true_eq] at wellFormed
  obtain ⟨⟨fixed, rfl⟩, wellFormed⟩ := wellFormed
  have noString : token.word.kind ≠ .string := by
    rcases fixed with fixed | fixed <;> rw [fixed] <;> exact nofun
  have apartOperator : ∀ c ∈ (e.text.toList ++ ')' :: rest).head?,
      token.word.kind.takes c = false := by
    rcases fixed with fixed | fixed
    · rw [fixed]
      exact (Expr.allowsBang wellFormed legible).append (.cons rfl)
    · rw [fixed]
      exact fun _ _ => rfl
  have inner := operand (.cons rfl) written.closeParen
  simp only [Expr.canonicalWords, Expr.text, String.toList_append, List.append_assoc,
    List.cons_append, List.nil_append]
  exact (WrittenAs.plain noString apartOperator inner).openParen

/-- A binary expression prints its words if its operands do: there are blanks around its
operator. -/
theorem Expr.prints_binary {token : Token} {operator : String} {left right : Expr}
    (wellFormed : (Expr.binary token left operator right).isWellFormed = true)
    (first : Prints left.canonicalWords left.text.toList)
    (second : Prints right.canonicalWords right.text.toList) :
    Prints (Expr.binary token left operator right).canonicalWords
      (Expr.binary token left operator right).text.toList := by
  intro vs rest apart written
  simp only [Expr.isWellFormed, Bool.and_eq_true, decide_eq_true_eq] at wellFormed
  obtain ⟨⟨⟨⟨joins, fixed⟩, rfl⟩, -⟩, -⟩ := wellFormed
  have noString : token.word.kind ≠ .string := by
    intro string
    rw [show token.kind = .string from string] at joins
    cases joins
  have behind := WrittenAs.plain_of_apart noString (.cons rfl)
    (second (.cons rfl) written.closeParen).space
  simp only [Expr.canonicalWords, Expr.text, String.toList_append, List.append_assoc,
    List.cons_append, List.nil_append]
  exact (first (.cons rfl) behind.space).openParen

mutual

/-- **Expressions print their canonical words**, in front of anything that stands apart from them.
-/
theorem Expr.prints : (e : Expr) → e.isWellFormed = true → e.isLegible = true →
    Prints e.canonicalWords e.text.toList
  | .name n, wellFormed, _, vs, rest, apart, written => Name.prints wellFormed apart written
  | .integer token _, wellFormed, _, vs, rest, apart, written
  | .float token _, wellFormed, _, vs, rest, apart, written => by
      simp only [Expr.isWellFormed, Bool.and_eq_true, decide_eq_true_eq] at wellFormed
      obtain ⟨⟨kind, -⟩, -⟩ := wellFormed
      simp only [Expr.canonicalWords, Expr.text, List.singleton_append]
      exact .plain_of_apart (w := token.word) (by simp [Token.word, kind]) apart written
  | .string _ _, _, legible, _, _, _, _ => nomatch legible
  | .boolean token value, wellFormed, _, vs, rest, apart, written => by
      have fixed := of_decide_eq_true wellFormed
      simp only [Expr.canonicalWords, Expr.text, List.singleton_append]
      refine .plain_of_apart (w := token.word) ?_ apart written
      rw [fixed]
      cases value <;> exact nofun
  | .unary token operator e, wellFormed, legible, vs, rest, apart, written =>
      Expr.prints_unary wellFormed legible
        (e.prints (Bool.and_eq_true_iff.mp wellFormed).2 legible) apart written
  | .binary token left operator right, wellFormed, legible, vs, rest, apart, written => by
      obtain ⟨legibleLeft, legibleRight⟩ := Bool.and_eq_true_iff.mp legible
      obtain ⟨before, wellFormedRight⟩ := Bool.and_eq_true_iff.mp wellFormed
      have wellFormedLeft := (Bool.and_eq_true_iff.mp before).2
      exact Expr.prints_binary wellFormed (left.prints wellFormedLeft legibleLeft)
        (right.prints wellFormedRight legibleRight) apart written
  | .conditional token condition consequence none, wellFormed, legible, vs, rest, apart,
    written => by
      simp only [Expr.isWellFormed, Bool.and_eq_true, decide_eq_true_eq] at wellFormed
      obtain ⟨⟨fixed, wellFormedFirst⟩, wellFormedSecond⟩ := wellFormed
      obtain ⟨legibleFirst, legibleSecond⟩ := Bool.and_eq_true_iff.mp legible
      have second := consequence.prints wellFormedSecond legibleSecond written
      have first := condition.prints wellFormedFirst legibleFirst (.cons rfl)
        second.space.closeParen
      simp only [Expr.canonicalWords, Expr.text, String.toList_append, List.append_assoc,
        List.cons_append]
      exact .keyword _ rfl fixed (.cons rfl) first.openParen.space
  | .conditional token condition consequence (some alternative), wellFormed, legible, vs, rest,
    _, written => by
      simp only [Expr.isWellFormed, Bool.and_eq_true, decide_eq_true_eq] at wellFormed
      obtain ⟨⟨⟨fixed, wellFormedFirst⟩, wellFormedSecond⟩, wellFormedThird⟩ := wellFormed
      simp only [Expr.isLegible, Bool.and_eq_true] at legible
      obtain ⟨⟨legibleFirst, legibleSecond⟩, legibleThird⟩ := legible
      have third := alternative.prints wellFormedThird legibleThird written
      have otherwise := WrittenAs.keyword .elseWord rfl rfl (.cons rfl)
        third.space
      have second := consequence.prints wellFormedSecond legibleSecond
        otherwise.space
      have first := condition.prints wellFormedFirst legibleFirst (.cons rfl)
        second.space.closeParen
      simp only [Expr.canonicalWords, Expr.text, String.toList_append, List.append_assoc,
        List.cons_append]
      exact .keyword _ rfl fixed (.cons rfl) first.openParen.space
  | .function token names body, wellFormed, legible, vs, rest, _, written => by
      simp only [Expr.isWellFormed, Bool.and_eq_true, decide_eq_true_eq] at wellFormed
      obtain ⟨⟨fixed, wellFormedNames⟩, wellFormedBody⟩ := wellFormed
      have inner := body.prints wellFormedBody legible written
      have parameters := Name.prints_list wellFormedNames (.cons rfl)
        inner.space.closeParen
      have literal : token.literal = TokenKind.fnWord.spelling := congrArg Word.literal fixed
      simp only [Expr.canonicalWords, Expr.text, literal, String.toList_append, List.append_assoc,
        List.cons_append]
      exact .keyword _ rfl fixed (.cons rfl) parameters.openParen
  | .call token callee given, wellFormed, legible, vs, rest, _, written => by
      simp only [Expr.isWellFormed, Bool.and_eq_true, decide_eq_true_eq] at wellFormed
      obtain ⟨⟨⟨fixed, -⟩, wellFormedCallee⟩, wellFormedGiven⟩ := wellFormed
      obtain ⟨legibleCallee, legibleGiven⟩ := Bool.and_eq_true_iff.mp legible
      have inner := Expr.prints_list given wellFormedGiven legibleGiven (.cons rfl)
        written.closeParen
      have first := callee.prints wellFormedCallee legibleCallee (.cons rfl) inner.openParen
      simp only [Expr.canonicalWords, Expr.text, fixed, String.toList_append, List.append_assoc,
        List.cons_append, List.nil_append]
      exact first

/-- So do arguments. -/
theorem Expr.prints_list : (es : List Expr) → Expr.allWellFormed es = true →
    Expr.allLegible es = true →
      Prints (Expr.listCanonicalWords es) (Expr.listTextAfter "" es).toList
  | [], _, _, _, _, _, written => written
  | e :: es, wellFormed, legible, vs, rest, apart, written => by
      obtain ⟨here, later⟩ := Bool.and_eq_true_iff.mp wellFormed
      obtain ⟨legibleHere, legibleLater⟩ := Bool.and_eq_true_iff.mp legible
      have behind := Expr.prints_more es later legibleLater apart written
      rw [Expr.listCanonicalWords, Expr.toList_listTextAfter, List.append_assoc]
      simp only [String.toList_empty, List.nil_append, List.append_assoc]
      exact e.prints here legibleHere (apart.more Expr.text es) behind

/-- So do the arguments behind others. -/
theorem Expr.prints_more : (es : List Expr) → Expr.allWellFormed es = true →
    Expr.allLegible es = true → Prints (Expr.moreCanonicalWords es) (moreText Expr.text es)
  | [], _, _, _, _, _, written => written
  | e :: es, wellFormed, legible, vs, rest, apart, written => by
      obtain ⟨here, later⟩ := Bool.and_eq_true_iff.mp wellFormed
      obtain ⟨legibleHere, legibleLater⟩ := Bool.and_eq_true_iff.mp legible
      have behind := Expr.prints_more es later legibleLater apart written
      have first := e.prints here legibleHere (apart.more Expr.text es) behind
      rw [Expr.moreCanonicalWords, moreText, List.flatMap_cons, List.cons_append,
        List.append_assoc, List.append_assoc]
      exact .mark rfl nofun (fun _ => rfl) first.space

/-- Blocks print their canonical words in front of anything, because a brace ends them. -/
theorem Block.prints : (b : Block) → b.isWellFormed = true → b.isLegible = true →
    PrintsWhole b.canonicalWords b.text.toList
  | .mk token p, wellFormed, legible, vs, rest, written => by
      simp only [Block.isWellFormed, Bool.and_eq_true, decide_eq_true_eq] at wellFormed
      obtain ⟨fixed, wellFormed⟩ := wellFormed
      have closing : WrittenAs (.fixed .rightBrace :: vs) ('\x7d' :: rest) :=
        .mark rfl nofun (fun _ => rfl) written
      have inner := Program.prints p wellFormed legible (.cons rfl) closing.space
      simp only [Block.canonicalWords, Block.text, fixed, String.toList_append,
        Program.toList_textAfter, List.append_assoc, List.cons_append, List.nil_append]
      exact .mark rfl nofun (fun _ => rfl) inner.space

/-- A statement prints its words whole, unless it is an expression. -/
theorem Statement.prints : (s : Statement) → s.isWellFormed = true → s.isLegible = true →
    ∀ {vs rest}, (s.isExpression = true → StandsApart rest) → WrittenAs vs rest →
      WrittenAs (s.canonicalWords ++ vs) (s.text.toList ++ rest)
  | .binding token name value, wellFormed, legible, vs, rest, _, written => by
      simp only [Statement.isWellFormed, Bool.and_eq_true, decide_eq_true_eq] at wellFormed
      obtain ⟨⟨fixed, wellFormedName⟩, wellFormed⟩ := wellFormed
      have bound := value.prints wellFormed legible (.cons rfl) written.semicolon
      have assign := WrittenAs.plain_of_apart (w := .fixed .assign) nofun (.cons rfl)
        bound.space
      have left := Name.prints wellFormedName (.cons rfl) assign.space
      have literal : token.literal = TokenKind.letWord.spelling := congrArg Word.literal fixed
      simp only [Statement.canonicalWords, Statement.text, literal, String.toList_append,
        List.append_assoc, List.cons_append, List.nil_append]
      exact .keyword _ rfl fixed (.cons rfl) left.space
  | .returning token value, wellFormed, legible, vs, rest, _, written => by
      simp only [Statement.isWellFormed, Bool.and_eq_true, decide_eq_true_eq] at wellFormed
      obtain ⟨fixed, wellFormed⟩ := wellFormed
      have returned := value.prints wellFormed legible (.cons rfl) written.semicolon
      have literal : token.literal = TokenKind.returnWord.spelling := congrArg Word.literal fixed
      simp only [Statement.canonicalWords, Statement.text, literal, String.toList_append,
        List.append_assoc, List.cons_append, List.nil_append]
      exact .keyword _ rfl fixed (.cons rfl) returned.space
  | .expression _ value, wellFormed, legible, vs, rest, apart, written =>
      value.prints wellFormed legible (apart rfl) written
  | .block b, wellFormed, legible, vs, rest, _, written => b.prints wellFormed legible written

/-- The texts of statements print their canonical words. -/
theorem Program.prints : (p : List Statement) → Program.isWellFormed p = true →
    Program.isLegible p = true →
      Prints (Program.canonicalWords p) (p.flatMap fun s => s.text.toList)
  | [], _, _, _, _, _, written => written
  | s :: p, wellFormed, legible, vs, rest, apart, written => by
      obtain ⟨here, later⟩ := Bool.and_eq_true_iff.mp wellFormed
      obtain ⟨legibleHere, last, legibleLater⟩ := Program.isLegible_cons legible
      have behind := Program.prints p later legibleLater apart written
      rw [Program.canonicalWords, List.flatMap_cons, List.append_assoc, List.append_assoc]
      refine s.prints here legibleHere (fun expression => ?_) behind
      rw [last expression]
      exact apart

end

end Printing

/-! ### Reading the text -/

/-- The text of parameters does not show places. -/
theorem Name.listText_plain (names : List Name) :
    Name.listText (names.map Name.plain) = Name.listText names := by
  rw [listText, listText, List.map_map]
  rfl

mutual

/-- The text of an expression does not show places. -/
theorem Expr.text_plain : (e : Expr) → e.plain.text = e.text
  | .name _ | .integer _ _ | .float _ _ | .string _ _ | .boolean _ _ => rfl
  | .unary _ _ e => by rw [Expr.plain, Expr.text, Expr.text, e.text_plain]
  | .binary _ left _ right => by
      rw [Expr.plain, Expr.text, Expr.text, left.text_plain, right.text_plain]
  | .conditional _ condition consequence none => by
      rw [Expr.plain, Expr.text, Expr.text, condition.text_plain, consequence.text_plain]
  | .conditional _ condition consequence (some alternative) => by
      rw [Expr.plain, Expr.text, Expr.text, condition.text_plain, consequence.text_plain,
        alternative.text_plain]
  | .function _ names body => by
      rw [Expr.plain, Expr.text, Expr.text, Name.listText_plain, body.text_plain]
      rfl
  | .call _ callee given => by
      rw [Expr.plain, Expr.text, Expr.text, callee.text_plain, Expr.listTextAfter_plain]

/-- The text of arguments does not show places. -/
theorem Expr.listTextAfter_plain (before : String) : (es : List Expr) →
    Expr.listTextAfter before (Expr.listPlain es) = Expr.listTextAfter before es
  | [] => rfl
  | [e] => by
      rw [Expr.listPlain, Expr.listPlain, Expr.listTextAfter, Expr.listTextAfter, e.text_plain]
  | e :: e' :: es => by
      change Expr.listTextAfter (before ++ e.plain.text ++ ", ") (Expr.listPlain (e' :: es)) =
        Expr.listTextAfter (before ++ e.text ++ ", ") (e' :: es)
      rw [e.text_plain, Expr.listTextAfter_plain _ (e' :: es)]

/-- The text of a block does not show places. -/
theorem Block.text_plain : (b : Block) → b.plain.text = b.text
  | .mk _ p => by rw [Block.plain, Block.text, Block.text, Program.textAfter_plain]

/-- The text of a statement does not show places. -/
theorem Statement.text_plain : (s : Statement) → s.plain.text = s.text
  | .binding _ name value => by
      rw [Statement.plain, Statement.text, Statement.text, value.text_plain]
      rfl
  | .returning _ value => by
      rw [Statement.plain, Statement.text, Statement.text, value.text_plain]
      rfl
  | .expression _ value => by
      rw [Statement.plain, Statement.text, Statement.text, value.text_plain]
  | .block b => by rw [Statement.plain, Statement.text, Statement.text, b.text_plain]

/-- The text of statements does not show places. -/
theorem Program.textAfter_plain (before : String) : (p : List Statement) →
    Program.textAfter before (Program.plain p) = Program.textAfter before p
  | [] => rfl
  | s :: p => by
      rw [Program.plain, Program.textAfter, Program.textAfter, s.text_plain,
        Program.textAfter_plain]

end

/-- **Canonical text is read as the program it shows.** If a program was read from a text, and it
has no strings, and on all levels an expression statement only at the end of its list, then its
canonical text is read again, as the same program apart from places. So its canonical text is once
more the same. -/
theorem parse_text {source : String} {p : Program} (accepted : parse source = .ok p)
    (legible : Program.isLegible p = true) :
    ∃ q, parse (Program.text p) = .ok q ∧ Program.plain q = Program.plain p ∧
      Program.text q = Program.text p := by
  have wellFormed := isWellFormed_of_parse accepted
  have writtenBy := Program.writtenBy_canonicalWords p wellFormed legible
  have written : WrittenAs (Program.canonicalWords p) (Program.text p).toList := by
    have printed : WrittenAs (Program.canonicalWords p ++ [])
        ((p.flatMap fun s => s.text.toList) ++ []) :=
      Program.prints p wellFormed legible nofun (.blanks nofun)
    rw [List.append_nil, List.append_nil] at printed
    rw [Program.text, Program.toList_textAfter]
    exact printed
  have words : (Reader.ofString (Program.text p)).tokens.map Token.word =
      Program.canonicalWords p :=
    Cursor.tokens_of_writtenAs written writtenBy.shaped _
  obtain ⟨q, same, yields⟩ := writtenBy.again words
  refine ⟨q, parse_of_yields yields, same, ?_⟩
  rw [Program.text, ← Program.textAfter_plain, same, Program.textAfter_plain, Program.text]

/-- In the text of this program, `-b` stands in parentheses of its own and so does its power, and
the empty block stands right in front of them. -/
theorem parse_text_function :
    let source := "let f = fn(a) \x7b if (!a) \x7b \x7b\x7d -b ** 2 \x7d \x7d f(1, x)"
    ∃ p q, parse source = .ok p ∧ Program.isLegible p = true ∧
      Program.text p =
        "let f = fn(a) \x7b if ((!a)) \x7b \x7b  \x7d((-b) ** 2) \x7d \x7d;f(1, x)" ∧
      parse (Program.text p) = .ok q ∧ Program.plain q = Program.plain p := by
  intro source
  have known : (match parse source with
      | .ok p => (Program.isLegible p, Program.text p)
      | .error _ => (false, "")) = (true,
        "let f = fn(a) \x7b if ((!a)) \x7b \x7b  \x7d((-b) ** 2) \x7d \x7d;f(1, x)") := by
    decide +kernel
  cases accepted : parse source with
  | error _ =>
      rw [accepted] at known
      cases known
  | ok p =>
      rw [accepted] at known
      obtain ⟨legible, text⟩ := Prod.mk.inj known
      obtain ⟨q, again, same, -⟩ := parse_text accepted legible
      exact ⟨p, q, rfl, legible, text, again, same⟩

end StackScript
