import StackScript.Proofs.WrittenForms

/-!
# Writing Trees

The words a tree is written with, with parentheses only where an operand does not bind tightly
enough for its place, and a semicolon behind every statement that is not a block. Tokens that cut
out of a text have these words make up the tree again, apart from what they cannot know: where the
tokens of the tree were, and which token an expression statement claims to start with.

## Main definitions

* `Program.words`: **the words of a program**.
* `Program.isWellFormed`: whether its tokens are fit to be written and mean what its nodes say.

## Main results

* `Program.writtenBy`: a well-formed program is written by its words.
* `Program.exists_yields`: tokens with the words of a program are those of a like program.
* `Program.shaped_words`: the words of a well-formed program are shaped as their kinds demand.
-/

namespace StackScript

open Precedence (leftNeed rightNeed)

/-- The words of an operand at a place, in parentheses if it does not bind tightly enough. -/
def Word.operand (need : Nat) (e : Expr) (ws : List Word) : List Word :=
  if need ≤ e.strength then ws else fixed .leftParen :: (ws ++ [fixed .rightParen])

mutual

/-- The words of an expression. -/
def Expr.words : Expr → List Word
  | .name n => [n.token.word]
  | .integer token _ | .float token _ | .string token _ | .boolean token _ => [token.word]
  | .unary token _ e => token.word :: Word.operand Precedence.unary.level e e.words
  | .binary token left _ right =>
    Word.operand (leftNeed token.kind) left left.words ++
      token.word :: Word.operand (rightNeed token.kind) right right.words
  | .conditional token condition consequence none =>
    token.word :: .fixed .leftParen :: (condition.words ++ .fixed .rightParen :: consequence.words)
  | .conditional token condition consequence (some alternative) =>
    token.word :: .fixed .leftParen :: (condition.words ++ .fixed .rightParen ::
      (consequence.words ++ .fixed .elseWord :: alternative.words))
  | .function token names body =>
    token.word :: .fixed .leftParen :: (Name.listWords names ++ .fixed .rightParen :: body.words)
  | .call token callee given =>
    callee.words ++ token.word :: (Expr.listWords given ++ [.fixed .rightParen])

/-- The words of expressions, separated by commas. -/
def Expr.listWords : List Expr → List Word
  | [] => []
  | e :: es => e.words ++ Expr.moreWords es

/-- The words of expressions behind others. -/
def Expr.moreWords : List Expr → List Word
  | [] => []
  | e :: es => .fixed .comma :: (e.words ++ Expr.moreWords es)

/-- The words of a block. -/
def Block.words : Block → List Word
  | .mk token p => token.word :: (Program.words p ++ [.fixed .rightBrace])

/-- The words of a statement, with its semicolon. -/
def Statement.words : Statement → List Word
  | .binding token name value =>
    token.word :: name.token.word :: .fixed .assign :: (value.words ++ [.fixed .semicolon])
  | .returning token value => token.word :: (value.words ++ [.fixed .semicolon])
  | .expression _ value => value.words ++ [.fixed .semicolon]
  | .block b => b.words

/-- The words of statements, in order. -/
def Program.words : List Statement → List Word
  | [] => []
  | s :: p => s.words ++ Program.words p

end

/-! ### Well-formed trees -/

mutual

/-- Whether the tokens of an expression are shaped as their nodes demand and mean what the nodes
say, and only names and function literals are called. -/
def Expr.isWellFormed : Expr → Bool
  | .name n => n.isWellFormed
  | .integer token value =>
    token.kind = .int && token.word.isShaped &&
      value.toInt = Binary64.digitsValue token.literal.toList
  | .float token value =>
    token.kind = .float && token.word.isShaped &&
      Binary64.ofDigits? false token.literal.toList = some value
  | .string token value => token.kind = .string && value = token.literal
  | .boolean token value => token.word = .fixed (if value then .trueWord else .falseWord)
  | .unary token operator e =>
    (token.word = .fixed .bang || token.word = .fixed .minus) && operator = token.literal &&
      e.isWellFormed
  | .binary token left operator right =>
    token.kind.isInfix && token.word = .fixed token.kind && operator = token.literal &&
      left.isWellFormed && right.isWellFormed
  | .conditional token condition consequence none =>
    token.word = .fixed .ifWord && condition.isWellFormed && consequence.isWellFormed
  | .conditional token condition consequence (some alternative) =>
    token.word = .fixed .ifWord && condition.isWellFormed && consequence.isWellFormed &&
      alternative.isWellFormed
  | .function token names body =>
    token.word = .fixed .fnWord && names.all Name.isWellFormed && body.isWellFormed
  | .call token callee given =>
    token.word = .fixed .leftParen && callee.isCallable && callee.isWellFormed &&
      Expr.allWellFormed given

/-- Whether all of the expressions are well formed. -/
def Expr.allWellFormed : List Expr → Bool
  | [] => true
  | e :: es => e.isWellFormed && Expr.allWellFormed es

/-- Whether a block is well formed. -/
def Block.isWellFormed : Block → Bool
  | .mk token p => token.word = .fixed .leftBrace && Program.isWellFormed p

/-- Whether a statement is well formed. The token of an expression statement may be any. -/
def Statement.isWellFormed : Statement → Bool
  | .binding token name value =>
    token.word = .fixed .letWord && name.isWellFormed && value.isWellFormed
  | .returning token value => token.word = .fixed .returnWord && value.isWellFormed
  | .expression _ value => value.isWellFormed
  | .block b => b.isWellFormed

/-- Whether all of the statements are well formed. -/
def Program.isWellFormed : List Statement → Bool
  | [] => true
  | s :: p => s.isWellFormed && Program.isWellFormed p

end

/-! ### The words of well-formed trees -/

/-- An operand is written by its words, in parentheses where it needs them. -/
theorem Form.WrittenBy.operand {need : Nat} {e : Expr} {ws : List Word}
    (bare : WrittenBy (.bare e) ws) : WrittenBy (.expression need e) (Word.operand need e ws) := by
  rw [Word.operand]
  split
  · next tight => exact ofBare tight bare
  · exact grouped (ofBare (Nat.zero_le _) bare)

mutual

/-- The words of an expression are written by the grammar, with parentheses only where they are
needed. -/
theorem Expr.writtenBy : (e : Expr) → e.isWellFormed = true → (Form.bare e).WrittenBy e.words
  | .name n, wellFormed => .name wellFormed
  | .integer token value, wellFormed => by
      simp only [Expr.isWellFormed, Bool.and_eq_true, decide_eq_true_eq] at wellFormed
      obtain ⟨⟨kind, shaped⟩, meant⟩ := wellFormed
      exact .integer kind shaped meant
  | .float token value, wellFormed => by
      simp only [Expr.isWellFormed, Bool.and_eq_true, decide_eq_true_eq] at wellFormed
      obtain ⟨⟨kind, shaped⟩, meant⟩ := wellFormed
      exact .float kind shaped meant
  | .string token value, wellFormed => by
      simp only [Expr.isWellFormed, Bool.and_eq_true, decide_eq_true_eq] at wellFormed
      obtain ⟨kind, rfl⟩ := wellFormed
      exact .string kind
  | .boolean token value, wellFormed => .boolean (of_decide_eq_true wellFormed)
  | .unary token operator e, wellFormed => by
      simp only [Expr.isWellFormed, Bool.and_eq_true, Bool.or_eq_true, decide_eq_true_eq]
        at wellFormed
      obtain ⟨⟨fixed, rfl⟩, wellFormed⟩ := wellFormed
      exact .unary fixed (e.writtenBy wellFormed).operand
  | .binary token left operator right, wellFormed => by
      simp only [Expr.isWellFormed, Bool.and_eq_true, decide_eq_true_eq] at wellFormed
      obtain ⟨⟨⟨⟨joins, fixed⟩, rfl⟩, wellFormedLeft⟩, wellFormedRight⟩ := wellFormed
      exact .binary joins fixed (left.writtenBy wellFormedLeft).operand
        (right.writtenBy wellFormedRight).operand
  | .conditional token condition consequence none, wellFormed => by
      simp only [Expr.isWellFormed, Bool.and_eq_true, decide_eq_true_eq] at wellFormed
      obtain ⟨⟨fixed, wellFormedFirst⟩, wellFormedSecond⟩ := wellFormed
      exact .conditional fixed (.ofBare (Nat.zero_le _) (condition.writtenBy wellFormedFirst))
        (consequence.writtenBy wellFormedSecond)
  | .conditional token condition consequence (some alternative), wellFormed => by
      simp only [Expr.isWellFormed, Bool.and_eq_true, decide_eq_true_eq] at wellFormed
      obtain ⟨⟨⟨fixed, wellFormedFirst⟩, wellFormedSecond⟩, wellFormedThird⟩ := wellFormed
      exact .alternative fixed (.ofBare (Nat.zero_le _) (condition.writtenBy wellFormedFirst))
        (consequence.writtenBy wellFormedSecond) (alternative.writtenBy wellFormedThird)
  | .function token names body, wellFormed => by
      simp only [Expr.isWellFormed, Bool.and_eq_true, decide_eq_true_eq] at wellFormed
      obtain ⟨⟨fixed, wellFormedNames⟩, wellFormedBody⟩ := wellFormed
      exact .function fixed (.parameters wellFormedNames) (body.writtenBy wellFormedBody)
  | .call token callee given, wellFormed => by
      simp only [Expr.isWellFormed, Bool.and_eq_true, decide_eq_true_eq] at wellFormed
      obtain ⟨⟨⟨fixed, callable⟩, wellFormedCallee⟩, wellFormedGiven⟩ := wellFormed
      exact .call callable fixed (.ofBare (Nat.zero_le _) (callee.writtenBy wellFormedCallee))
        (Expr.listWrittenBy given wellFormedGiven)

/-- So are those of arguments. -/
theorem Expr.listWrittenBy : (es : List Expr) → Expr.allWellFormed es = true →
    (Form.arguments es).WrittenBy (Expr.listWords es)
  | [], _ => .noArguments
  | e :: es, wellFormed => by
      obtain ⟨here, later⟩ := Bool.and_eq_true_iff.mp wellFormed
      exact .firstArgument (.ofBare (Nat.zero_le _) (e.writtenBy here))
        (Expr.moreWrittenBy es later)

/-- So are those of the arguments behind others. -/
theorem Expr.moreWrittenBy : (es : List Expr) → Expr.allWellFormed es = true →
    (Form.moreArguments es).WrittenBy (Expr.moreWords es)
  | [], _ => .lastArgument
  | e :: es, wellFormed => by
      obtain ⟨here, later⟩ := Bool.and_eq_true_iff.mp wellFormed
      exact .nextArgument (.ofBare (Nat.zero_le _) (e.writtenBy here))
        (Expr.moreWrittenBy es later)

/-- So are those of a block. -/
theorem Block.writtenBy : (b : Block) → b.isWellFormed = true → (Form.block b).WrittenBy b.words
  | .mk token p, wellFormed => by
      simp only [Block.isWellFormed, Bool.and_eq_true, decide_eq_true_eq] at wellFormed
      obtain ⟨fixed, wellFormed⟩ := wellFormed
      exact .block fixed (Program.writtenBy p wellFormed)

/-- So are those of a statement, with the semicolon behind it, whatever follows. -/
theorem Statement.writtenBefore : (s : Statement) → s.isWellFormed = true →
    ∀ behind, s.WrittenBefore s.words behind
  | .binding token name value, wellFormed, behind => by
      simp only [Statement.isWellFormed, Bool.and_eq_true, decide_eq_true_eq] at wellFormed
      obtain ⟨⟨fixed, wellFormedName⟩, wellFormed⟩ := wellFormed
      exact .semicolon (s := .binding token name value) nofun (.binding fixed wellFormedName
        (.ofBare (Nat.zero_le _) (value.writtenBy wellFormed)))
  | .returning token value, wellFormed, behind => by
      simp only [Statement.isWellFormed, Bool.and_eq_true, decide_eq_true_eq] at wellFormed
      obtain ⟨fixed, wellFormed⟩ := wellFormed
      exact .semicolon (s := .returning token value) nofun (.returning fixed
        (.ofBare (Nat.zero_le _) (value.writtenBy wellFormed)))
  | .expression token value, wellFormed, behind =>
      .semicolon nofun (.expressionStatement
        (.ofBare (Nat.zero_le _) (value.writtenBy wellFormed)))
  | .block b, wellFormed, behind => .block (b.writtenBy wellFormed)

/-- A well-formed program is written by its words. -/
theorem Program.writtenBy : (p : List Statement) → Program.isWellFormed p = true →
    (Form.statements p).WrittenBy (Program.words p)
  | [], _ => .noStatements
  | s :: p, wellFormed => by
      obtain ⟨here, later⟩ := Bool.and_eq_true_iff.mp wellFormed
      exact .nextStatement (s.writtenBefore here _) (Program.writtenBy p later)

end

/-- Tokens with the words of a program make up the program again, apart from places. -/
theorem Program.exists_yields (p : List Statement) (wellFormed : Program.isWellFormed p = true)
    {ts : List Token} (written : ts.map Token.word = Program.words p) :
    ∃ p' : List Statement, Program.plain p' = Program.plain p ∧ (Form.statements p').Yields ts :=
  (Program.writtenBy p wellFormed).again written

/-- The words of a well-formed program are shaped as their kinds demand. -/
theorem Program.shaped_words (p : List Statement) (wellFormed : Program.isWellFormed p = true) :
    Word.AllShaped (Program.words p) :=
  (Program.writtenBy p wellFormed).shaped

end StackScript
