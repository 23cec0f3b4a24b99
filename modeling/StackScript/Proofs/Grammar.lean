import StackScript.Tree.Parse

/-!
# The Grammar

Which tokens a tree is written with, as rules. The tokens of a tree are those of its nodes, in
order; besides, whole expressions may stand in parentheses, and a semicolon may end a statement.
An operand of an operator stands bare only if it binds tightly enough for its place. No rule
mentions the reader; that it follows the rules exactly is the subject of `Proofs.ParserSoundness`
and `Proofs.ParserCompleteness`.

## Main definitions

* `Expr.strength`, `Precedence.leftNeed`, `Precedence.rightNeed`: how tightly an expression binds,
  and how tightly the operands of an operator have to.
* `Form`: the parts of a program that are written with tokens.
* `Form.Yields`: **the tokens of a form**.

## Main results

* `Form.Yields.opens`: which tokens expressions and statements start with.
* `Form.Yields.isWritten`: which tokens no form is written with.
-/

namespace StackScript

namespace TokenKind

/-- The operators that stand between two operands. -/
def isInfix : TokenKind → Bool
  | equal | notEqual | less | greater | plus | minus | asterisk | slash | pow => true
  | _ => false

/-- The tokens that go on with the expression before them. -/
def continues (kind : TokenKind) : Bool :=
  kind.isInfix || kind = leftParen

/-- The tokens that an expression can start with. -/
def opensExpression : TokenKind → Bool
  | ident | int | float | string | trueWord | falseWord | bang | minus | leftParen | ifWord
  | fnWord => true
  | _ => false

/-- The tokens that a statement can start with. -/
def opensStatement (kind : TokenKind) : Bool :=
  kind.opensExpression || kind = letWord || kind = returnWord || kind = leftBrace

/-- The tokens that programs are written with. -/
def isWritten : TokenKind → Bool
  | illegal | eof | colon | leftBracket | rightBracket => false
  | _ => true

end TokenKind

namespace Precedence

/-- How tightly the left operand of an operator has to bind to stand bare: as tightly as the
operator, so that a chain groups to the left, but tighter if the operator is `**`. -/
def leftNeed (operator : TokenKind) : Nat :=
  if operator = .pow then power.level + 1 else (ofKind operator).level

/-- How tightly the right operand has to bind to stand bare: tighter than the operator, but only
as tightly if it is `**`, which groups to the right. -/
def rightNeed (operator : TokenKind) : Nat :=
  if operator = .pow then power.level else (ofKind operator).level + 1

end Precedence

/-- How tightly an expression binds. Where it is no operator between operands it never needs
parentheses. -/
def Expr.strength : Expr → Nat
  | binary token _ _ _ => (Precedence.ofKind token.kind).level
  | _ => Precedence.call.level

/-- A **form**, a part of a program that is written with tokens. -/
inductive Form
  /-- An expression without parentheses of its own. -/
  | bare (e : Expr)
  /-- An expression at a place where it has to bind that tightly to stand bare. -/
  | expression (need : Nat) (e : Expr)
  /-- The arguments of a call, without the parentheses. -/
  | arguments (es : List Expr)
  /-- Arguments behind others. -/
  | moreArguments (es : List Expr)
  /-- The parameters of a function, without the parentheses. -/
  | parameters (names : List Name)
  /-- Parameters behind others. -/
  | moreParameters (names : List Name)
  /-- A block, with its braces. -/
  | block (b : Block)
  /-- A statement, without the semicolon that may end it. -/
  | statement (s : Statement)
  /-- Statements in order. -/
  | statements (p : List Statement)

/-- What may stand between an expression that ends a statement and the tokens behind it: a
semicolon, or nothing if what is behind it does not go on with the expression. -/
def Closes (closing behind : List Token) : Prop :=
  (∃ token, token.kind = .semicolon ∧ closing = [token]) ∨
    closing = [] ∧ ∀ token ∈ behind.head?, token.kind.continues = false

/-- What may stand between a statement and the tokens behind it. Behind a block stands nothing. -/
def Statement.ClosedBy : Statement → (closing behind : List Token) → Prop
  | block _, closing, _ => closing = []
  | binding _ _ _, closing, behind | returning _ _, closing, behind
  | expression _ _, closing, behind => Closes closing behind

open Precedence (leftNeed rightNeed)

/-- The **tokens of a form**. -/
inductive Form.Yields : Form → List Token → Prop
  | name {token : Token} :
      token.kind = .ident → Yields (.bare (.name ⟨token, token.literal⟩)) [token]
  | integer {token : Token} {value : Int64} :
      token.kind = .int →
      integer64? (Binary64.digitsValue token.literal.toList) = some value →
      Yields (.bare (.integer token value)) [token]
  | float {token : Token} {value : Binary64} :
      token.kind = .float → Binary64.ofDigits? false token.literal.toList = some value →
      Yields (.bare (.float token value)) [token]
  | string {token : Token} :
      token.kind = .string → Yields (.bare (.string token token.literal)) [token]
  | trueWord {token : Token} :
      token.kind = .trueWord → Yields (.bare (.boolean token true)) [token]
  | falseWord {token : Token} :
      token.kind = .falseWord → Yields (.bare (.boolean token false)) [token]
  | unary {token : Token} {operand : Expr} {ts : List Token} :
      token.kind = .bang ∨ token.kind = .minus →
      Yields (.expression Precedence.unary.level operand) ts →
      Yields (.bare (.unary token token.literal operand)) (token :: ts)
  | binary {token : Token} {left right : Expr} {ts us : List Token} :
      token.kind.isInfix = true → Yields (.expression (leftNeed token.kind) left) ts →
      Yields (.expression (rightNeed token.kind) right) us →
      Yields (.bare (.binary token left token.literal right)) (ts ++ token :: us)
  | call {opening closing : Token} {callee : Expr} {given : List Expr} {ts us : List Token} :
      callee.isCallable = true → opening.kind = .leftParen → closing.kind = .rightParen →
      Yields (.expression 0 callee) ts → Yields (.arguments given) us →
      Yields (.bare (.call opening callee given)) (ts ++ opening :: (us ++ [closing]))
  | conditional {token opening closing : Token} {condition : Expr} {consequence : Block}
      {ts us : List Token} :
      token.kind = .ifWord → opening.kind = .leftParen → closing.kind = .rightParen →
      Yields (.expression 0 condition) ts → Yields (.block consequence) us →
      Yields (.bare (.conditional token condition consequence none))
        (token :: opening :: (ts ++ closing :: us))
  | alternative {token opening closing otherwise : Token} {condition : Expr}
      {consequence alternative : Block} {ts us vs : List Token} :
      token.kind = .ifWord → opening.kind = .leftParen → closing.kind = .rightParen →
      otherwise.kind = .elseWord → Yields (.expression 0 condition) ts →
      Yields (.block consequence) us → Yields (.block alternative) vs →
      Yields (.bare (.conditional token condition consequence (some alternative)))
        (token :: opening :: (ts ++ closing :: (us ++ otherwise :: vs)))
  | function {token opening closing : Token} {names : List Name} {body : Block}
      {ts us : List Token} :
      token.kind = .fnWord → opening.kind = .leftParen → closing.kind = .rightParen →
      Yields (.parameters names) ts → Yields (.block body) us →
      Yields (.bare (.function token names body)) (token :: opening :: (ts ++ closing :: us))
  | ofBare {need : Nat} {e : Expr} {ts : List Token} :
      need ≤ e.strength → Yields (.bare e) ts → Yields (.expression need e) ts
  | grouped {need : Nat} {opening closing : Token} {e : Expr} {ts : List Token} :
      opening.kind = .leftParen → closing.kind = .rightParen → Yields (.expression 0 e) ts →
      Yields (.expression need e) (opening :: (ts ++ [closing]))
  | noArguments : Yields (.arguments []) []
  | firstArgument {e : Expr} {es : List Expr} {ts us : List Token} :
      Yields (.expression 0 e) ts → Yields (.moreArguments es) us →
      Yields (.arguments (e :: es)) (ts ++ us)
  | lastArgument : Yields (.moreArguments []) []
  | nextArgument {comma : Token} {e : Expr} {es : List Expr} {ts us : List Token} :
      comma.kind = .comma → Yields (.expression 0 e) ts → Yields (.moreArguments es) us →
      Yields (.moreArguments (e :: es)) (comma :: (ts ++ us))
  | noParameters : Yields (.parameters []) []
  | firstParameter {token : Token} {names : List Name} {ts : List Token} :
      token.kind = .ident → Yields (.moreParameters names) ts →
      Yields (.parameters (⟨token, token.literal⟩ :: names)) (token :: ts)
  | lastParameter : Yields (.moreParameters []) []
  | nextParameter {comma token : Token} {names : List Name} {ts : List Token} :
      comma.kind = .comma → token.kind = .ident → Yields (.moreParameters names) ts →
      Yields (.moreParameters (⟨token, token.literal⟩ :: names)) (comma :: token :: ts)
  | block {opening closing : Token} {p : List Statement} {ts : List Token} :
      opening.kind = .leftBrace → closing.kind = .rightBrace → Yields (.statements p) ts →
      Yields (.block (.mk opening p)) (opening :: (ts ++ [closing]))
  | binding {token name assign : Token} {value : Expr} {ts : List Token} :
      token.kind = .letWord → name.kind = .ident → assign.kind = .assign →
      Yields (.expression 0 value) ts →
      Yields (.statement (.binding token ⟨name, name.literal⟩ value))
        (token :: name :: assign :: ts)
  | returning {token : Token} {value : Expr} {ts : List Token} :
      token.kind = .returnWord → Yields (.expression 0 value) ts →
      Yields (.statement (.returning token value)) (token :: ts)
  | expressionStatement {token : Token} {value : Expr} {ts : List Token} :
      Yields (.expression 0 value) (token :: ts) →
      Yields (.statement (.expression token value)) (token :: ts)
  | blockStatement {b : Block} {ts : List Token} :
      Yields (.block b) ts → Yields (.statement (.block b)) ts
  | noStatements : Yields (.statements []) []
  | nextStatement {s : Statement} {p : List Statement} {ts closing us : List Token} :
      Yields (.statement s) ts → s.ClosedBy closing us → Yields (.statements p) us →
      Yields (.statements (s :: p)) (ts ++ (closing ++ us))

/-! ### The tokens of forms -/

/-- What closes a statement is semicolons. -/
theorem Closes.kind_eq {closing behind : List Token} (closed : Closes closing behind) :
    ∀ token ∈ closing, token.kind = .semicolon := by
  rcases closed with ⟨semicolon, kind, rfl⟩ | ⟨rfl, -⟩
  · intro token mem
    rw [List.mem_singleton.mp mem, kind]
  · exact nofun

/-- What stands between a statement and the tokens behind it is semicolons. -/
theorem Statement.ClosedBy.kind_eq {s : Statement} {closing behind : List Token}
    (closed : s.ClosedBy closing behind) : ∀ token ∈ closing, token.kind = .semicolon := by
  cases s with
  | block _ =>
      cases closed
      exact nofun
  | binding _ _ _ | returning _ _ | expression _ _ => exact Closes.kind_eq closed

/-- How the tokens of a form start. The forms that are lists may have none. -/
def Form.Opens (ts : List Token) : Form → Prop
  | bare _ | expression _ _ => ∃ token rest, ts = token :: rest ∧ token.kind.opensExpression = true
  | block _ => ∃ token rest, ts = token :: rest ∧ token.kind = .leftBrace
  | statement _ => ∃ token rest, ts = token :: rest ∧ token.kind.opensStatement = true
  | statements _ => ∀ token ∈ ts.head?, token.kind.opensStatement = true
  | arguments _ => ∀ token ∈ ts.head?, token.kind.opensExpression = true
  | parameters _ => ∀ token ∈ ts.head?, token.kind = .ident
  | moreArguments _ | moreParameters _ => ∀ token ∈ ts.head?, token.kind = .comma

namespace Form.Yields

variable {form : Form} {ts : List Token}

/-- Every form starts with a token that is fit for it. -/
theorem opens (h : form.Yields ts) : form.Opens ts := by
  induction h with
  | name kind | integer kind | float kind | string kind | trueWord kind | falseWord kind
  | conditional kind | alternative kind | function kind | grouped kind =>
      exact ⟨_, _, rfl, by rw [kind]; rfl⟩
  | unary kind =>
      refine ⟨_, _, rfl, ?_⟩
      rcases kind with kind | kind <;> rw [kind] <;> rfl
  | binary _ _ _ left | call _ _ _ _ _ left =>
      obtain ⟨token, rest, rfl, fit⟩ := left
      exact ⟨token, _, List.cons_append, fit⟩
  | ofBare _ _ ih => exact ih
  | noArguments | lastArgument | noParameters | lastParameter | noStatements => exact nofun
  | nextArgument kind | firstParameter kind | nextParameter kind =>
      rintro _ ⟨⟩
      exact kind
  | block kind => exact ⟨_, _, rfl, kind⟩
  | binding kind | returning kind =>
      exact ⟨_, _, rfl, by rw [kind]; rfl⟩
  | expressionStatement _ ih =>
      obtain ⟨_, _, same, fit⟩ := ih
      cases same
      exact ⟨_, _, rfl, by rw [TokenKind.opensStatement, fit]; rfl⟩
  | blockStatement _ ih =>
      obtain ⟨token, rest, rfl, kind⟩ := ih
      exact ⟨token, rest, rfl, by rw [kind]; rfl⟩
  | firstArgument _ _ ih | nextStatement _ _ _ ih =>
      obtain ⟨token, rest, rfl, fit⟩ := ih
      rintro _ ⟨⟩
      exact fit

/-- No form is written with the tokens that have no place in a program. -/
theorem isWritten (h : form.Yields ts) : ∀ token ∈ ts, token.kind.isWritten = true := by
  induction h with
  | name kind | integer kind | float kind | string kind | trueWord kind | falseWord kind =>
      simp [kind, TokenKind.isWritten]
  | @unary token _ _ kind _ ih =>
      have first : token.kind.isWritten = true := by
        rcases kind with kind | kind <;> rw [kind] <;> rfl
      exact List.forall_mem_cons.mpr ⟨first, ih⟩
  | @binary token _ _ _ _ joins _ _ left right =>
      have middle : token.kind.isWritten = true := by
        cases kind : token.kind <;> rw [kind] at joins <;> first | rfl | cases joins
      exact List.forall_mem_append.mpr ⟨left, List.forall_mem_cons.mpr ⟨middle, right⟩⟩
  | @nextStatement s _ _ closing us _ closed _ ih rest =>
      have last : ∀ token ∈ closing, token.kind.isWritten = true := by
        intro token mem
        rw [closed.kind_eq token mem]
        rfl
      simp only [List.forall_mem_append]
      exact ⟨ih, last, rest⟩
  | expressionStatement _ ih | blockStatement _ ih | ofBare _ _ ih => exact ih
  | _ =>
      simp_all only [List.forall_mem_cons, List.forall_mem_append, TokenKind.isWritten,
        List.not_mem_nil, implies_true, and_self]

end Form.Yields

end StackScript
