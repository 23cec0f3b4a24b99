import StackScript.Proofs.Grammar
import StackScript.Proofs.Spelling

/-!
# Forms Written with Words

The rules of the grammar are about tokens, and a token knows where it is. This module states the
rules once more for words, which do not: words write a form if any tokens that have these words
make it up again, apart from what tokens cut out of another text cannot know. That is where the
tokens of the form were, and which token an expression statement claims to start with. There is
one lemma for each rule, so that a form can be put together from its parts, whatever words are
chosen to write it.

## Main definitions

* `Program.plain`: a program apart from places.
* `Form.Again`: tokens that make up a form again.
* `Form.WrittenBy`, `Statement.WrittenBefore`: **the words that write a form**.

## Main results

* `Form.WrittenBy.unary`, `Form.WrittenBy.grouped` and others: the rules of the grammar, for words.
-/

namespace StackScript

open Precedence (leftNeed rightNeed)

/-- A word that is spelled like all of its kind. -/
def Word.fixed (kind : TokenKind) : Word := ⟨kind, kind.spelling⟩

/-- The words of names, separated by commas. -/
def Name.listWords : List Name → List Word
  | [] => []
  | n :: names => n.token.word :: names.flatMap fun n => [.fixed .comma, n.token.word]

/-- Whether a name is an identifier and says so. -/
def Name.isWellFormed (n : Name) : Bool :=
  n.token.kind = .ident && n.token.word.isShaped && n.text = n.token.literal

/-! ### Trees apart from places -/

/-- The token as it were anywhere. -/
def Token.plain (token : Token) : Token := { token with position := default }

/-- The name apart from its place. -/
def Name.plain (n : Name) : Name := { n with token := n.token.plain }

mutual

/-- The expression apart from its places. -/
@[simp] def Expr.plain : Expr → Expr
  | .name n => .name n.plain
  | .integer token value => .integer token.plain value
  | .float token value => .float token.plain value
  | .string token value => .string token.plain value
  | .boolean token value => .boolean token.plain value
  | .unary token operator e => .unary token.plain operator e.plain
  | .binary token left operator right => .binary token.plain left.plain operator right.plain
  | .conditional token condition consequence none =>
    .conditional token.plain condition.plain consequence.plain none
  | .conditional token condition consequence (some alternative) =>
    .conditional token.plain condition.plain consequence.plain (some alternative.plain)
  | .function token names body => .function token.plain (names.map Name.plain) body.plain
  | .call token callee given => .call token.plain callee.plain (Expr.listPlain given)

/-- The expressions apart from their places. -/
@[simp] def Expr.listPlain : List Expr → List Expr
  | [] => []
  | e :: es => e.plain :: Expr.listPlain es

/-- The block apart from its places. -/
@[simp] def Block.plain : Block → Block
  | .mk token p => .mk token.plain (Program.plain p)

/-- The statement apart from its places, and from the first token of an expression. -/
@[simp] def Statement.plain : Statement → Statement
  | .binding token name value => .binding token.plain name.plain value.plain
  | .returning token value => .returning token.plain value.plain
  | .expression _ value => .expression default value.plain
  | .block b => .block b.plain

/-- The statements apart from their places. -/
@[simp] def Program.plain : List Statement → List Statement
  | [] => []
  | s :: p => s.plain :: Program.plain p

end

/-! ### Words of the right shape -/

/-- Whether all words of a list are shaped as their kinds demand. -/
def Word.AllShaped (ws : List Word) : Prop := ∀ w ∈ ws, w.isShaped = true

namespace Word.AllShaped

variable {w : Word} {ws vs : List Word}

/-- Where there are no words, all are shaped. -/
theorem nil : AllShaped [] := nofun

/-- A word that is shaped may stand in front of others that are. -/
theorem cons (h : w.isShaped = true) (h' : AllShaped ws) : AllShaped (w :: ws) :=
  List.forall_mem_cons.mpr ⟨h, h'⟩

/-- Words that are shaped may stand in sequence. -/
theorem append (h : AllShaped ws) (h' : AllShaped vs) : AllShaped (ws ++ vs) :=
  List.forall_mem_append.mpr ⟨h, h'⟩

end Word.AllShaped

open Word.AllShaped (nil cons)

/-- A word that is spelled like all of its kind is shaped, if the kind has such a spelling. -/
theorem Word.isShaped_of_fixed {w : Word} {kind : TokenKind} (same : w = .fixed kind)
    (shaped : (Word.fixed kind).isShaped = true) : w.isShaped = true := by
  rw [same]
  exact shaped

/-- The token of a well-formed name is shaped. -/
theorem Name.isShaped {n : Name} (wellFormed : n.isWellFormed = true) :
    n.token.word.isShaped = true := by
  simp only [isWellFormed, Bool.and_eq_true, decide_eq_true_eq] at wellFormed
  exact wellFormed.1.2

/-! ### Tokens that have given words -/

/-- Tokens with one word are the same apart from their places. -/
theorem Token.plain_eq_of_word {t u : Token} (same : t.word = u.word) : t.plain = u.plain := by
  obtain ⟨kind, literal⟩ := Word.mk.injEq _ _ _ _ ▸ same
  rw [plain, plain]
  congr

/-- A token that is spelled like all of a kind is of that kind. -/
theorem Token.kind_of_fixed {t : Token} {kind : TokenKind} (same : t.word = .fixed kind) :
    t.kind = kind :=
  congrArg Word.kind same

/-- The last token of those that end in a fixed word. -/
theorem Token.exists_closing {ts : List Token} {ws : List Word} {kind : TokenKind}
    (written : ts.map Token.word = ws ++ [.fixed kind]) :
    ∃ inner closing, ts = inner ++ [closing] ∧ inner.map Token.word = ws ∧
      closing.kind = kind := by
  obtain ⟨inner, last, rfl, writtenInner, writtenLast⟩ := List.map_eq_append_iff.mp written
  obtain ⟨closing, rfl, word⟩ := List.map_eq_singleton_iff.mp writtenLast
  exact ⟨inner, closing, rfl, writtenInner, kind_of_fixed word⟩

/-- How tightly an expression binds does not depend on places. -/
theorem Expr.strength_plain (e : Expr) : e.plain.strength = e.strength := by
  cases e with
  | conditional _ _ _ alternative => cases alternative <;> rfl
  | _ => rfl

/-- Nor does whether it can be called. -/
theorem Expr.isCallable_plain (e : Expr) : e.plain.isCallable = e.isCallable := by
  cases e with
  | conditional _ _ _ alternative => cases alternative <;> rfl
  | _ => rfl

/-- Nor does what may stand behind a statement. -/
theorem Statement.closedBy_plain (s : Statement) : s.plain.ClosedBy = s.ClosedBy := by
  cases s with
  | binding _ _ _ | returning _ _ | expression _ _ | block _ => rfl

/-- A token with the word of a name is the name, wherever it is. -/
theorem Name.plain_eq {n : Name} {token : Token} (wellFormed : n.isWellFormed = true)
    (written : token.word = n.token.word) :
    token.kind = .ident ∧ Name.plain ⟨token, token.literal⟩ = n.plain := by
  simp only [isWellFormed, Bool.and_eq_true, decide_eq_true_eq] at wellFormed
  obtain ⟨⟨kind, -⟩, meant⟩ := wellFormed
  have literal : token.literal = n.token.literal := congrArg Word.literal written
  refine ⟨(congrArg Word.kind written).trans kind, ?_⟩
  rw [plain, plain]
  congr 1
  · exact Token.plain_eq_of_word written
  · exact literal.trans meant.symm

/-- Tokens **make up a form again** if they are those of one that is like it apart from places. -/
def Form.Again (ts : List Token) : Form → Prop
  | bare e => ∃ e' : Expr, e'.plain = e.plain ∧ (bare e').Yields ts
  | expression need e => ∃ e' : Expr, e'.plain = e.plain ∧ (expression need e').Yields ts
  | arguments es =>
    ∃ es' : List Expr, Expr.listPlain es' = Expr.listPlain es ∧ (arguments es').Yields ts
  | moreArguments es =>
    ∃ es' : List Expr, Expr.listPlain es' = Expr.listPlain es ∧ (moreArguments es').Yields ts
  | parameters names =>
    ∃ names' : List Name, names'.map Name.plain = names.map Name.plain ∧
      (parameters names').Yields ts
  | moreParameters names =>
    ∃ names' : List Name, names'.map Name.plain = names.map Name.plain ∧
      (moreParameters names').Yields ts
  | block b => ∃ b' : Block, b'.plain = b.plain ∧ (block b').Yields ts
  | statement s => ∃ s' : Statement, s'.plain = s.plain ∧ (statement s').Yields ts
  | statements p =>
    ∃ p' : List Statement, Program.plain p' = Program.plain p ∧ (statements p').Yields ts

/-- A form is **written by** words if they are shaped as their kinds demand, and any tokens that
have them make it up again. -/
structure Form.WrittenBy (form : Form) (ws : List Word) : Prop where
  shaped : Word.AllShaped ws
  again : ∀ {ts : List Token}, ts.map Token.word = ws → form.Again ts

/-! ### Expressions -/

namespace Form.WrittenBy

variable {token : Token} {need : Nat} {e : Expr} {es : List Expr} {names : List Name} {b : Block}
  {ws vs us : List Word}

/-- A name is its own word. -/
theorem name {n : Name} (wellFormed : n.isWellFormed = true) :
    WrittenBy (.bare (.name n)) [n.token.word] where
  shaped := cons (Name.isShaped wellFormed) nil
  again {ts} written := by
    obtain ⟨first, rfl, word⟩ := List.map_eq_singleton_iff.mp written
    obtain ⟨ident, same⟩ := Name.plain_eq wellFormed word
    refine ⟨.name ⟨first, first.literal⟩, ?_, .name ident⟩
    rw [Expr.plain, Expr.plain, same]

/-- An integer is a word of digits with that value. -/
theorem integer {value : Int64} (kind : token.kind = .int) (shaped : token.word.isShaped = true)
    (meant : value.toInt = Binary64.digitsValue token.literal.toList) :
    WrittenBy (.bare (.integer token value)) [token.word] where
  shaped := cons shaped nil
  again {ts} written := by
    obtain ⟨first, rfl, word⟩ := List.map_eq_singleton_iff.mp written
    have literal : first.literal = token.literal := congrArg Word.literal word
    refine ⟨.integer first value, ?_, .integer ((congrArg Word.kind word).trans kind) ?_⟩
    · rw [Expr.plain, Expr.plain, Token.plain_eq_of_word word]
    · rw [literal]
      exact integer64?_eq_some_iff.mpr meant

/-- A float is a word of digits around a point, with that value. -/
theorem float {value : Binary64} (kind : token.kind = .float) (shaped : token.word.isShaped = true)
    (meant : Binary64.ofDigits? false token.literal.toList = some value) :
    WrittenBy (.bare (.float token value)) [token.word] where
  shaped := cons shaped nil
  again {ts} written := by
    obtain ⟨first, rfl, word⟩ := List.map_eq_singleton_iff.mp written
    have literal : first.literal = token.literal := congrArg Word.literal word
    refine ⟨.float first value, ?_, .float ((congrArg Word.kind word).trans kind) ?_⟩
    · rw [Expr.plain, Expr.plain, Token.plain_eq_of_word word]
    · rw [literal]
      exact meant

/-- A string is a word with its content as the literal. -/
theorem string (kind : token.kind = .string) :
    WrittenBy (.bare (.string token token.literal)) [token.word] where
  shaped := cons (by rw [Word.isShaped, Token.word, kind]) nil
  again {ts} written := by
    obtain ⟨first, rfl, word⟩ := List.map_eq_singleton_iff.mp written
    have literal : first.literal = token.literal := congrArg Word.literal word
    refine ⟨.string first first.literal, ?_, .string ((congrArg Word.kind word).trans kind)⟩
    rw [Expr.plain, Expr.plain, Token.plain_eq_of_word word, literal]

/-- A truth value is one of two reserved words. -/
theorem boolean {value : Bool}
    (fixed : token.word = .fixed (if value then .trueWord else .falseWord)) :
    WrittenBy (.bare (.boolean token value)) [token.word] where
  shaped := cons (Word.isShaped_of_fixed fixed (by cases value <;> rfl)) nil
  again {ts} written := by
    obtain ⟨first, rfl, word⟩ := List.map_eq_singleton_iff.mp written
    have kind := Token.kind_of_fixed (word.trans fixed)
    refine ⟨.boolean first value, ?_, ?_⟩
    · rw [Expr.plain, Expr.plain, Token.plain_eq_of_word word]
    · cases value with
      | true => exact .trueWord kind
      | false => exact .falseWord kind

/-- A unary expression is its operator and an operand that binds as tightly as this. -/
theorem unary (fixed : token.word = .fixed .bang ∨ token.word = .fixed .minus)
    (operand : WrittenBy (.expression Precedence.unary.level e) ws) :
    WrittenBy (.bare (.unary token token.literal e)) (token.word :: ws) where
  shaped := by
    refine cons ?_ operand.shaped
    rcases fixed with fixed | fixed <;> exact Word.isShaped_of_fixed fixed rfl
  again {ts} written := by
    obtain ⟨first, rest, rfl, word, written⟩ := List.map_eq_cons_iff.mp written
    obtain ⟨e', same, yields⟩ := operand.again written
    have literal : first.literal = token.literal := congrArg Word.literal word
    refine ⟨.unary first first.literal e', ?_, .unary ?_ yields⟩
    · rw [Expr.plain, Expr.plain, Token.plain_eq_of_word word, literal, same]
    · exact fixed.imp (fun kind => Token.kind_of_fixed (word.trans kind))
        fun kind => Token.kind_of_fixed (word.trans kind)

/-- A binary expression is its operands around the operator, each as tight as its side needs. -/
theorem binary {left right : Expr} (joins : token.kind.isInfix = true)
    (fixed : token.word = .fixed token.kind)
    (first : WrittenBy (.expression (leftNeed token.kind) left) ws)
    (second : WrittenBy (.expression (rightNeed token.kind) right) vs) :
    WrittenBy (.bare (.binary token left token.literal right)) (ws ++ token.word :: vs) where
  shaped := by
    refine first.shaped.append (cons (Word.isShaped_of_fixed fixed ?_) second.shaped)
    cases kind : token.kind <;> rw [kind] at joins <;> first | rfl | cases joins
  again {ts} written := by
    obtain ⟨before, rest, rfl, writtenLeft, written⟩ := List.map_eq_append_iff.mp written
    obtain ⟨middle, behind, rfl, word, writtenRight⟩ := List.map_eq_cons_iff.mp written
    have kind : middle.kind = token.kind := congrArg Word.kind word
    have literal : middle.literal = token.literal := congrArg Word.literal word
    obtain ⟨left', same, yields⟩ := first.again writtenLeft
    obtain ⟨right', same', yields'⟩ := second.again writtenRight
    rw [← kind] at joins yields yields'
    refine ⟨.binary middle left' middle.literal right', ?_, .binary joins yields yields'⟩
    rw [Expr.plain, Expr.plain, Token.plain_eq_of_word word, literal, same, same']

/-- A call is its callee and its arguments in parentheses. -/
theorem call (callable : e.isCallable = true) (fixed : token.word = .fixed .leftParen)
    (callee : WrittenBy (.expression 0 e) ws) (given : WrittenBy (.arguments es) vs) :
    WrittenBy (.bare (.call token e es)) (ws ++ token.word :: (vs ++ [.fixed .rightParen])) where
  shaped := callee.shaped.append (cons (Word.isShaped_of_fixed fixed rfl)
    (given.shaped.append (cons rfl nil)))
  again {ts} written := by
    obtain ⟨before, rest, rfl, writtenCallee, written⟩ := List.map_eq_append_iff.mp written
    obtain ⟨opening, rest, rfl, word, written⟩ := List.map_eq_cons_iff.mp written
    obtain ⟨inner, closing, rfl, writtenGiven, closes⟩ := Token.exists_closing written
    obtain ⟨callee', same, yields⟩ := callee.again writtenCallee
    obtain ⟨given', same', yields'⟩ := given.again writtenGiven
    refine ⟨.call opening callee' given', ?_, .call ?_ (Token.kind_of_fixed (word.trans fixed))
      closes yields yields'⟩
    · rw [Expr.plain, Expr.plain, Token.plain_eq_of_word word, same, same']
    · rw [← callee'.isCallable_plain, same, e.isCallable_plain]
      exact callable

/-- A conditional without an alternative is its condition in parentheses and a block. -/
theorem conditional (fixed : token.word = .fixed .ifWord)
    (condition : WrittenBy (.expression 0 e) ws) (consequence : WrittenBy (.block b) vs) :
    WrittenBy (.bare (.conditional token e b none))
      (token.word :: .fixed .leftParen :: (ws ++ .fixed .rightParen :: vs)) where
  shaped := cons (Word.isShaped_of_fixed fixed rfl) (cons rfl
    (condition.shaped.append (cons rfl consequence.shaped)))
  again {ts} written := by
    obtain ⟨start, rest, rfl, word, written⟩ := List.map_eq_cons_iff.mp written
    obtain ⟨opening, rest, rfl, opens, written⟩ := List.map_eq_cons_iff.mp written
    obtain ⟨before, rest, rfl, writtenFirst, written⟩ := List.map_eq_append_iff.mp written
    obtain ⟨closing, rest, rfl, closes, writtenSecond⟩ := List.map_eq_cons_iff.mp written
    obtain ⟨condition', same, yields⟩ := condition.again writtenFirst
    obtain ⟨consequence', same', yields'⟩ := consequence.again writtenSecond
    refine ⟨.conditional start condition' consequence' none, ?_,
      .conditional (Token.kind_of_fixed (word.trans fixed)) (Token.kind_of_fixed opens)
        (Token.kind_of_fixed closes) yields yields'⟩
    rw [Expr.plain, Expr.plain, Token.plain_eq_of_word word, same, same']

/-- One with an alternative has `else` and another block behind it. -/
theorem alternative {b' : Block} (fixed : token.word = .fixed .ifWord)
    (condition : WrittenBy (.expression 0 e) ws) (consequence : WrittenBy (.block b) vs)
    (alternative : WrittenBy (.block b') us) :
    WrittenBy (.bare (.conditional token e b (some b')))
      (token.word :: .fixed .leftParen ::
        (ws ++ .fixed .rightParen :: (vs ++ .fixed .elseWord :: us))) where
  shaped := cons (Word.isShaped_of_fixed fixed rfl) (cons rfl
    (condition.shaped.append (cons rfl
      (consequence.shaped.append (cons rfl alternative.shaped)))))
  again {ts} written := by
    obtain ⟨start, rest, rfl, word, written⟩ := List.map_eq_cons_iff.mp written
    obtain ⟨opening, rest, rfl, opens, written⟩ := List.map_eq_cons_iff.mp written
    obtain ⟨before, rest, rfl, writtenFirst, written⟩ := List.map_eq_append_iff.mp written
    obtain ⟨closing, rest, rfl, closes, written⟩ := List.map_eq_cons_iff.mp written
    obtain ⟨middle, rest, rfl, writtenSecond, written⟩ := List.map_eq_append_iff.mp written
    obtain ⟨otherwise, rest, rfl, separates, writtenThird⟩ := List.map_eq_cons_iff.mp written
    obtain ⟨condition', same, yields⟩ := condition.again writtenFirst
    obtain ⟨consequence', same', yields'⟩ := consequence.again writtenSecond
    obtain ⟨alternative', same'', yields''⟩ := alternative.again writtenThird
    refine ⟨.conditional start condition' consequence' (some alternative'), ?_,
      .alternative (Token.kind_of_fixed (word.trans fixed)) (Token.kind_of_fixed opens)
        (Token.kind_of_fixed closes) (Token.kind_of_fixed separates) yields yields' yields''⟩
    rw [Expr.plain, Expr.plain, Token.plain_eq_of_word word, same, same', same'']

/-- A function is its parameters in parentheses and a block. -/
theorem function (fixed : token.word = .fixed .fnWord)
    (parameters : WrittenBy (.parameters names) ws) (body : WrittenBy (.block b) vs) :
    WrittenBy (.bare (.function token names b))
      (token.word :: .fixed .leftParen :: (ws ++ .fixed .rightParen :: vs)) where
  shaped := cons (Word.isShaped_of_fixed fixed rfl) (cons rfl
    (parameters.shaped.append (cons rfl body.shaped)))
  again {ts} written := by
    obtain ⟨start, rest, rfl, word, written⟩ := List.map_eq_cons_iff.mp written
    obtain ⟨opening, rest, rfl, opens, written⟩ := List.map_eq_cons_iff.mp written
    obtain ⟨before, rest, rfl, writtenNames, written⟩ := List.map_eq_append_iff.mp written
    obtain ⟨closing, rest, rfl, closes, writtenBody⟩ := List.map_eq_cons_iff.mp written
    obtain ⟨names', same, yields⟩ := parameters.again writtenNames
    obtain ⟨body', same', yields'⟩ := body.again writtenBody
    refine ⟨.function start names' body', ?_,
      .function (Token.kind_of_fixed (word.trans fixed)) (Token.kind_of_fixed opens)
        (Token.kind_of_fixed closes) yields yields'⟩
    rw [Expr.plain, Expr.plain, Token.plain_eq_of_word word, same, same']

/-! ### Expressions at their places -/

/-- An expression that binds tightly enough needs no parentheses. -/
theorem ofBare (tight : need ≤ e.strength) (bare : WrittenBy (.bare e) ws) :
    WrittenBy (.expression need e) ws where
  shaped := bare.shaped
  again {ts} written := by
    obtain ⟨e', same, yields⟩ := bare.again written
    refine ⟨e', same, .ofBare ?_ yields⟩
    rw [← e'.strength_plain, same, e.strength_plain]
    exact tight

/-- An expression in parentheses binds as tightly as anyone needs. -/
theorem grouped (inner : WrittenBy (.expression 0 e) ws) :
    WrittenBy (.expression need e)
      (.fixed .leftParen :: (ws ++ [.fixed .rightParen])) where
  shaped := cons rfl (inner.shaped.append (cons rfl nil))
  again {ts} written := by
    obtain ⟨opening, rest, rfl, first, written⟩ := List.map_eq_cons_iff.mp written
    obtain ⟨inside, closing, rfl, writtenInner, closes⟩ := Token.exists_closing written
    obtain ⟨e', same, yields⟩ := inner.again writtenInner
    exact ⟨e', same, .grouped (Token.kind_of_fixed first) closes yields⟩

/-! ### Lists -/

/-- No arguments have no words. -/
theorem noArguments : WrittenBy (.arguments []) [] where
  shaped := nil
  again {ts} written := by
    rw [List.map_eq_nil_iff.mp written]
    exact ⟨[], rfl, .noArguments⟩

/-- The first argument stands in front of the others. -/
theorem firstArgument (first : WrittenBy (.expression 0 e) ws)
    (more : WrittenBy (.moreArguments es) vs) : WrittenBy (.arguments (e :: es)) (ws ++ vs) where
  shaped := first.shaped.append more.shaped
  again {ts} written := by
    obtain ⟨before, rest, rfl, writtenFirst, writtenMore⟩ := List.map_eq_append_iff.mp written
    obtain ⟨e', same, yields⟩ := first.again writtenFirst
    obtain ⟨es', same', yields'⟩ := more.again writtenMore
    refine ⟨e' :: es', ?_, .firstArgument yields yields'⟩
    rw [Expr.listPlain, Expr.listPlain, same, same']

/-- Behind the last argument there are no words. -/
theorem lastArgument : WrittenBy (.moreArguments []) [] where
  shaped := nil
  again {ts} written := by
    rw [List.map_eq_nil_iff.mp written]
    exact ⟨[], rfl, .lastArgument⟩

/-- The next argument stands behind a comma. -/
theorem nextArgument (next : WrittenBy (.expression 0 e) ws)
    (more : WrittenBy (.moreArguments es) vs) :
    WrittenBy (.moreArguments (e :: es)) (.fixed .comma :: (ws ++ vs)) where
  shaped := cons rfl (next.shaped.append more.shaped)
  again {ts} written := by
    obtain ⟨comma, rest, rfl, separates, written⟩ := List.map_eq_cons_iff.mp written
    obtain ⟨before, rest, rfl, writtenFirst, writtenMore⟩ := List.map_eq_append_iff.mp written
    obtain ⟨e', same, yields⟩ := next.again writtenFirst
    obtain ⟨es', same', yields'⟩ := more.again writtenMore
    refine ⟨e' :: es', ?_, .nextArgument (Token.kind_of_fixed separates) yields yields'⟩
    rw [Expr.listPlain, Expr.listPlain, same, same']

/-- Every parameter behind others stands behind a comma. -/
theorem moreParameters (wellFormed : ∀ n ∈ names, n.isWellFormed = true) :
    WrittenBy (.moreParameters names)
      (names.flatMap fun n => [.fixed .comma, n.token.word]) := by
  induction names with
  | nil =>
      refine ⟨nil, fun {ts} written => ?_⟩
      rw [List.map_eq_nil_iff.mp written]
      exact ⟨[], rfl, .lastParameter⟩
  | cons n names ih =>
      obtain ⟨here, later⟩ := List.forall_mem_cons.mp wellFormed
      refine ⟨cons rfl (cons (Name.isShaped here) (ih later).shaped), fun {ts} written => ?_⟩
      obtain ⟨comma, rest, rfl, kind, written⟩ := List.map_eq_cons_iff.mp written
      obtain ⟨token, rest, rfl, word, written⟩ := List.map_eq_cons_iff.mp written
      obtain ⟨names', same, yields⟩ := (ih later).again written
      obtain ⟨ident, same'⟩ := Name.plain_eq here word
      exact ⟨_ :: names', by rw [List.map_cons, List.map_cons, same, same'],
        .nextParameter (Token.kind_of_fixed kind) ident yields⟩

/-- The names of parameters are written by their words. -/
theorem parameters (wellFormed : names.all Name.isWellFormed = true) :
    WrittenBy (.parameters names) (Name.listWords names) := by
  have all := List.all_eq_true.mp wellFormed
  cases names with
  | nil =>
      refine ⟨nil, fun {ts} written => ?_⟩
      rw [List.map_eq_nil_iff.mp written]
      exact ⟨[], rfl, .noParameters⟩
  | cons n names =>
      obtain ⟨here, later⟩ := List.forall_mem_cons.mp all
      have more := moreParameters later
      refine ⟨cons (Name.isShaped here) more.shaped, fun {ts} written => ?_⟩
      obtain ⟨token, rest, rfl, word, written⟩ := List.map_eq_cons_iff.mp written
      obtain ⟨names', same, yields⟩ := more.again written
      obtain ⟨ident, same'⟩ := Name.plain_eq here word
      exact ⟨_ :: names', by rw [List.map_cons, List.map_cons, same, same'],
        .firstParameter ident yields⟩

/-! ### Statements -/

/-- A block is its statements in braces. -/
theorem block {p : List Statement} (fixed : token.word = .fixed .leftBrace)
    (inner : WrittenBy (.statements p) ws) :
    WrittenBy (.block (.mk token p)) (token.word :: (ws ++ [.fixed .rightBrace])) where
  shaped := cons (Word.isShaped_of_fixed fixed rfl) (inner.shaped.append (cons rfl nil))
  again {ts} written := by
    obtain ⟨opening, rest, rfl, word, written⟩ := List.map_eq_cons_iff.mp written
    obtain ⟨inside, closing, rfl, writtenInner, closes⟩ := Token.exists_closing written
    obtain ⟨p', same, yields⟩ := inner.again writtenInner
    refine ⟨.mk opening p', ?_, .block (Token.kind_of_fixed (word.trans fixed)) closes yields⟩
    rw [Block.plain, Block.plain, Token.plain_eq_of_word word, same]

/-- A binding is `let`, a name, an equals sign and a value. -/
theorem binding {n : Name} (fixed : token.word = .fixed .letWord)
    (wellFormed : n.isWellFormed = true) (value : WrittenBy (.expression 0 e) ws) :
    WrittenBy (.statement (.binding token n e))
      (token.word :: n.token.word :: .fixed .assign :: ws) where
  shaped := cons (Word.isShaped_of_fixed fixed rfl) (cons (Name.isShaped wellFormed)
    (cons rfl value.shaped))
  again {ts} written := by
    obtain ⟨start, rest, rfl, word, written⟩ := List.map_eq_cons_iff.mp written
    obtain ⟨bound, rest, rfl, wordName, written⟩ := List.map_eq_cons_iff.mp written
    obtain ⟨assign, rest, rfl, assigns, written⟩ := List.map_eq_cons_iff.mp written
    obtain ⟨ident, same⟩ := Name.plain_eq wellFormed wordName
    obtain ⟨value', same', yields⟩ := value.again written
    refine ⟨.binding start ⟨bound, bound.literal⟩ value', ?_,
      .binding (Token.kind_of_fixed (word.trans fixed)) ident (Token.kind_of_fixed assigns)
        yields⟩
    rw [Statement.plain, Statement.plain, Token.plain_eq_of_word word, same, same']

/-- A return is its word and a value. -/
theorem returning (fixed : token.word = .fixed .returnWord)
    (value : WrittenBy (.expression 0 e) ws) :
    WrittenBy (.statement (.returning token e)) (token.word :: ws) where
  shaped := cons (Word.isShaped_of_fixed fixed rfl) value.shaped
  again {ts} written := by
    obtain ⟨start, rest, rfl, word, written⟩ := List.map_eq_cons_iff.mp written
    obtain ⟨value', same, yields⟩ := value.again written
    refine ⟨.returning start value', ?_,
      .returning (Token.kind_of_fixed (word.trans fixed)) yields⟩
    rw [Statement.plain, Statement.plain, Token.plain_eq_of_word word, same]

/-- An expression as a statement is the words of the expression. -/
theorem expressionStatement (value : WrittenBy (.expression 0 e) ws) :
    WrittenBy (.statement (.expression token e)) ws where
  shaped := value.shaped
  again {ts} written := by
    obtain ⟨value', same, yields⟩ := value.again written
    obtain ⟨first, rest, rfl, -⟩ := yields.opens
    refine ⟨.expression first value', ?_, .expressionStatement yields⟩
    rw [Statement.plain, Statement.plain, same]

/-- A block as a statement is the words of the block. -/
theorem blockStatement (inner : WrittenBy (.block b) ws) :
    WrittenBy (.statement (.block b)) ws where
  shaped := inner.shaped
  again {ts} written := by
    obtain ⟨b', same, yields⟩ := inner.again written
    refine ⟨.block b', ?_, .blockStatement yields⟩
    rw [Statement.plain, Statement.plain, same]

end Form.WrittenBy

/-- Words, before others, are those of a statement and of what ends it. -/
def Statement.WrittenBefore (s : Statement) (ws behind : List Word) : Prop :=
  ∃ us closing, ws = us ++ closing ∧ (Form.statement s).WrittenBy us ∧ Word.AllShaped closing ∧
    ∀ ts ts' : List Token, ts.map Token.word = closing → ts'.map Token.word = behind →
      s.ClosedBy ts ts'

namespace Statement.WrittenBefore

variable {s : Statement} {e : Expr} {token : Token} {ws behind : List Word}

/-- A semicolon ends any statement but a block. -/
theorem semicolon (notBlock : ∀ b, s ≠ .block b) (written : (Form.statement s).WrittenBy ws) :
    s.WrittenBefore (ws ++ [.fixed .semicolon]) behind := by
  refine ⟨ws, _, rfl, written, cons rfl nil, fun ts ts' closing _ => ?_⟩
  obtain ⟨token, rfl, word⟩ := List.map_eq_singleton_iff.mp closing
  have closes : Closes [token] ts' := .inl ⟨token, Token.kind_of_fixed word, rfl⟩
  cases s with
  | block b => exact absurd rfl (notBlock b)
  | binding _ _ _ | returning _ _ | expression _ _ => exact closes

/-- Nothing ends an expression that nothing stands behind. -/
theorem last (value : (Form.expression 0 e).WrittenBy ws) :
    (Statement.expression token e).WrittenBefore ws [] := by
  refine ⟨ws, [], (List.append_nil ws).symm, value.expressionStatement, nil,
    fun ts ts' closing none => .inr ⟨List.map_eq_nil_iff.mp closing, ?_⟩⟩
  rw [List.map_eq_nil_iff.mp none]
  exact nofun

/-- Nothing ends a block. -/
theorem block {b : Block} (written : (Form.block b).WrittenBy ws) :
    (Statement.block b).WrittenBefore ws behind :=
  ⟨ws, [], (List.append_nil ws).symm, written.blockStatement, nil,
    fun _ _ closing _ => List.map_eq_nil_iff.mp closing⟩

end Statement.WrittenBefore

/-- No statements have no words. -/
theorem Form.WrittenBy.noStatements : WrittenBy (.statements []) [] where
  shaped := nil
  again {ts} written := by
    rw [List.map_eq_nil_iff.mp written]
    exact ⟨[], rfl, .noStatements⟩

/-- The next statement stands in front of the others, with what ends it. -/
theorem Form.WrittenBy.nextStatement {s : Statement} {p : List Statement} {ws vs : List Word}
    (first : s.WrittenBefore ws vs) (rest : WrittenBy (.statements p) vs) :
    WrittenBy (.statements (s :: p)) (ws ++ vs) := by
  obtain ⟨us, closing, rfl, statement, shaped, closes⟩ := first
  refine ⟨(statement.shaped.append shaped).append rest.shaped, fun {ts} written => ?_⟩
  obtain ⟨before, behind, rfl, writtenFirst, writtenRest⟩ := List.map_eq_append_iff.mp written
  obtain ⟨inner, last, rfl, writtenInner, writtenLast⟩ := List.map_eq_append_iff.mp writtenFirst
  obtain ⟨s', same, yields⟩ := statement.again writtenInner
  obtain ⟨p', same', yields'⟩ := rest.again writtenRest
  refine ⟨s' :: p', ?_, ?_⟩
  · rw [Program.plain, Program.plain, same, same']
  · rw [List.append_assoc]
    refine .nextStatement yields ?_ yields'
    rw [← s'.closedBy_plain, same, s.closedBy_plain]
    exact closes last behind writtenLast writtenRest

end StackScript
