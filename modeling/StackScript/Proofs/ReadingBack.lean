import StackScript.Proofs.Reading

/-!
# Reading Back

What is written by the rules of the grammar is read back, token for token, without a report.

The one difficulty is the loop over operators. A left operand is not read by itself: it is what
the loop has come to when it meets the next operator. So an expression is not said to be read, but
to *pass*: whatever is read with it as a left operand is read from its tokens on. The conditions
under which a bare expression passes are about the token behind it, which must not take the end of
the expression for itself.

## Main definitions

* `Expr.EndsBefore`: the tokens that leave a bare expression alone.
* `Finds`: a rule that ends without a report.
* `Passes`: how an expression is read with what goes on with it.
* `Form.ReadBack`: what is read back of a form.

## Main results

* `Precedence.le_onRight_of_leftNeed`, `Precedence.onRight_le_of_rightNeed`: operands that need no
  parentheses end where they should.
* `Form.Yields.readBack`: **what is written by the rules is read back**.
* `Reader.program_of_yields`: so is a program.
-/

namespace StackScript

open Precedence (leftNeed rightNeed ofKind onRight)

/-- The kind of the first token, or the end of the text. -/
def headKind (ts : List Token) : TokenKind := (ts.head?.map Token.kind).getD .eof

/-- The tokens that may stand behind a statement. -/
def TokenKind.borders (kind : TokenKind) : Bool :=
  kind.opensStatement || kind = rightBrace || kind = eof

/-- A token that borders a statement without continuing it binds nothing. -/
theorem TokenKind.lowest_of_borders {kind : TokenKind} (borders : kind.borders = true)
    (ends : kind.continues = false) :
    ofKind kind = .lowest ∧ kind ≠ .elseWord ∧ kind ≠ .semicolon := by
  cases kind <;>
    first | decide | exact absurd borders (by decide) | exact absurd ends (by decide)

/-- The level that a token behind a bare expression must not exceed if the expression is to end
before it. -/
def Expr.limit : Expr → Nat
  | binary token _ _ _ => (onRight token.kind).level
  | unary _ _ _ => Precedence.unary.level
  | _ => Precedence.call.level

/-- Whether a bare expression ends before a token. -/
def Expr.EndsBefore (e : Expr) (kind : TokenKind) : Prop :=
  (ofKind kind).level ≤ e.limit ∧ kind ≠ .elseWord

namespace Precedence

/-- No infix operator binds tighter than `**`. -/
theorem ofKind_le_power {kind : TokenKind} (joins : kind.isInfix = true) :
    (ofKind kind).level ≤ power.level := by
  cases kind <;> first | decide | cases joins

/-- Only `**` binds as tightly as that. -/
theorem eq_pow_of_power {kind : TokenKind} (h : (ofKind kind).level = power.level) :
    kind = .pow := by
  cases kind <;> first | rfl | exact absurd h (by decide)

/-- The left operand of an operator has to bind at least as tightly as the operator. -/
theorem ofKind_le_leftNeed (operator : TokenKind) :
    (ofKind operator).level ≤ leftNeed operator := by
  rw [leftNeed]
  split
  · next pow =>
      subst pow
      decide
  · exact Nat.le_refl _

/-- The left operand of an operator ends before it. -/
theorem le_onRight_of_leftNeed {operator inner : TokenKind} (joins : operator.isInfix = true)
    (tight : leftNeed operator ≤ (ofKind inner).level) :
    (ofKind operator).level ≤ (onRight inner).level := by
  have le := ofKind_le_power joins
  have levels : power.level = product.level + 1 := rfl
  rw [leftNeed] at tight
  rw [onRight]
  split
  · next pow =>
      subst pow
      change _ ≤ power.level at tight
      split at tight
      · omega
      · next other =>
          have ne : (ofKind operator).level ≠ power.level :=
            fun same => other (eq_pow_of_power same)
          omega
  · split at tight
    · omega
    · exact tight

/-- The right operand of an operator is read with all its own operators. -/
theorem onRight_lt_of_rightNeed {operator : TokenKind} {strength : Nat}
    (tight : rightNeed operator ≤ strength) : (onRight operator).level < strength := by
  rw [rightNeed_eq] at tight
  exact tight

/-- The right operand of an operator ends where the operator does. -/
theorem onRight_le_of_rightNeed {operator inner : TokenKind}
    (tight : rightNeed operator ≤ (ofKind inner).level) :
    (onRight operator).level ≤ (onRight inner).level := by
  have levels : power.level = product.level + 1 := rfl
  rw [rightNeed_eq] at tight
  rw [onRight.eq_def inner]
  split
  · next pow =>
      subst pow
      change _ ≤ power.level at tight
      omega
  · omega

end Precedence

namespace Expr

variable {e : Expr} {operator kind : TokenKind}

/-- An expression ends before a token that binds nothing, unless this is `else`. -/
theorem endsBefore_of_lowest (loose : ofKind kind = .lowest) (other : kind ≠ .elseWord) :
    e.EndsBefore kind := by
  refine ⟨?_, other⟩
  rw [loose]
  exact Nat.zero_le _

/-- An expression that may be a left operand ends before its operator. -/
theorem endsBefore_of_leftNeed (joins : operator.isInfix = true)
    (tight : leftNeed operator ≤ e.strength) : e.EndsBefore operator := by
  have other : operator ≠ .elseWord := by
    rintro rfl
    cases joins
  have le := Precedence.ofKind_le_power joins
  refine ⟨?_, other⟩
  cases e with
  | binary => exact Precedence.le_onRight_of_leftNeed joins tight
  | unary => exact Nat.le_trans le (show Precedence.power.level ≤ Precedence.unary.level by decide)
  | _ => exact Precedence.level_le_call _

/-- An expression that may be a right operand ends where its operator does. -/
theorem endsBefore_of_rightNeed (joins : operator.isInfix = true)
    (tight : rightNeed operator ≤ e.strength)
    (loose : (ofKind kind).level ≤ (onRight operator).level)
    (other : kind ≠ .elseWord) : e.EndsBefore kind := by
  refine ⟨?_, other⟩
  cases e with
  | binary => exact Nat.le_trans loose (Precedence.onRight_le_of_rightNeed tight)
  | unary =>
      have below : (onRight operator).level < Precedence.call.level :=
        Precedence.onRight_lt_call fun same => by rw [same] at joins; cases joins
      exact Nat.le_trans loose (Nat.le_of_lt_succ below)
  | _ => exact Precedence.level_le_call _

/-- An expression that may be the operand of a unary operator ends where this does. -/
theorem endsBefore_of_unary (tight : Precedence.unary.level ≤ e.strength)
    (loose : (ofKind kind).level ≤ Precedence.unary.level) (other : kind ≠ .elseWord) :
    e.EndsBefore kind := by
  refine ⟨?_, other⟩
  cases e with
  | binary token =>
      change _ ≤ (ofKind token.kind).level at tight
      change _ ≤ (onRight token.kind).level
      cases same : token.kind <;> rw [same] at tight <;>
        first | exact Precedence.level_le_call _ | exact absurd tight (by decide)
  | unary => exact loose
  | _ => exact Precedence.level_le_call _

/-- Nothing binds exactly as tightly as a unary operator. -/
theorem unary_lt_strength (tight : Precedence.unary.level ≤ e.strength) :
    Precedence.unary.level < e.strength := by
  cases e with
  | binary token =>
      change _ ≤ (ofKind token.kind).level at tight
      change _ < (ofKind token.kind).level
      cases same : token.kind <;> rw [same] at tight <;>
        first | decide | exact absurd tight (by decide)
  | _ => exact (show Precedence.unary.level < Precedence.call.level by decide)

end Expr

/-! ### What rules find -/

section Finds

variable {α β : Type} {finish : Position} {errors : Array ParseError} {rest rest' : List Token}

/-- A rule **finds** a result without a report, with the last token of it as the current one. -/
def Finds (finish : Position) (errors : Array ParseError) (a : α) (rest : List Token)
    (result : EStateM.Result ParseStop Reader α) : Prop :=
  ∃ token, result = .ok a ⟨token :: rest, finish, errors⟩

/-- Rules in sequence find what the second one does, if it finds this behind whatever token the
first one ended with. -/
theorem Finds.bind {x : Parser α} {f : α → Parser β} {r : Reader} {a : α} {b : β}
    (first : Finds finish errors a rest (x r))
    (next : ∀ token, Finds finish errors b rest' (f a ⟨token :: rest, finish, errors⟩)) :
    Finds finish errors b rest' ((x >>= f) r) := by
  obtain ⟨token, ran⟩ := first
  rw [bind_run, ran]
  exact next token

/-- A token that is expected is read. -/
theorem Parser.expect_bind {last token : Token} {kind : TokenKind} (f : Unit → Parser β)
    (found : token.kind = kind) :
    (Parser.expect kind >>= f) ⟨last :: token :: rest, finish, errors⟩ =
      f () ⟨token :: rest, finish, errors⟩ := by
  have run : Parser.expect kind ⟨last :: token :: rest, finish, errors⟩ =
      (if token.kind = kind then Parser.advance
        else Parser.refuse (.expected kind token.kind) token.position)
        ⟨last :: token :: rest, finish, errors⟩ := rfl
  rw [bind_run, run, if_pos found]
  rfl

/-- To move on takes the first token. -/
theorem Parser.advance_bind (token : Token) (f : Unit → Parser β) :
    (Parser.advance >>= f) ⟨token :: rest, finish, errors⟩ = f () ⟨rest, finish, errors⟩ := rfl

/-- The first token is the current one. -/
theorem Parser.current_bind_cons (token : Token) (f : Token → Parser β) :
    (Parser.current >>= f) ⟨token :: rest, finish, errors⟩ =
      f token ⟨token :: rest, finish, errors⟩ := rfl

/-- The second token is the upcoming one. -/
theorem Parser.upcoming_bind_cons (last token : Token) (f : Token → Parser β) :
    (Parser.upcoming >>= f) ⟨last :: token :: rest, finish, errors⟩ =
      f token ⟨last :: token :: rest, finish, errors⟩ := rfl

/-- The kind of the current token is that of the first one, or the end of the text. -/
theorem current_kind (ts : List Token) :
    (Reader.mk ts finish errors).current.kind = headKind ts := by
  cases ts <;> rfl

/-- An expression at the front is read, and then whatever is read with it as a left operand. -/
def Passes (finish : Position) (errors : Array ParseError) (ts : List Token) (e : Expr)
    (least : Precedence) (rest : List Token) : Prop :=
  ∀ (x : Expr) (rest' : List Token) (cost : Nat), 1 ≤ cost →
    (∀ token budget, cost ≤ budget →
      Finds finish errors x rest'
        (Parser.operators budget least e ⟨token :: rest, finish, errors⟩)) →
    ∀ budget, cost + 4 * ts.length ≤ budget →
      Finds finish errors x rest' (Parser.expression budget least ⟨ts ++ rest, finish, errors⟩)

/-- What of a form is **read back** where its tokens stand at the front. -/
def Form.ReadBack (finish : Position) (errors : Array ParseError) (ts : List Token) :
    Form → Prop
  | bare e => ∀ least rest, least.level < e.strength → e.EndsBefore (headKind rest) →
      Passes finish errors ts e least rest
  | expression need e => ∀ least rest,
      (need ≤ e.strength → least.level < e.strength ∧ e.EndsBefore (headKind rest)) →
      Passes finish errors ts e least rest
  | arguments es => ∀ opening closing rest budget, closing.kind = .rightParen →
      4 * ts.length + 2 ≤ budget →
      Finds finish errors es rest
        (Parser.arguments budget ⟨opening :: (ts ++ closing :: rest), finish, errors⟩)
  | moreArguments es => ∀ last closing rest read budget, closing.kind = .rightParen →
      4 * ts.length + 1 ≤ budget →
      Finds finish errors (read.reverse ++ es) rest
        (Parser.moreArguments budget read ⟨last :: (ts ++ closing :: rest), finish, errors⟩)
  | parameters names => ∀ opening closing rest budget, closing.kind = .rightParen →
      ts.length + 1 ≤ budget →
      Finds finish errors names rest
        (Parser.parameters budget ⟨opening :: (ts ++ closing :: rest), finish, errors⟩)
  | moreParameters names => ∀ last closing rest read budget, closing.kind = .rightParen →
      ts.length + 1 ≤ budget →
      Finds finish errors (read.reverse ++ names) rest
        (Parser.moreParameters budget read ⟨last :: (ts ++ closing :: rest), finish, errors⟩)
  | block b => ∀ rest budget, 4 * ts.length ≤ budget →
      Finds finish errors b rest (Parser.block budget ⟨ts ++ rest, finish, errors⟩)
  | statement s => ∀ closing rest budget, s.ClosedBy closing rest →
      (headKind rest).borders = true → 4 * ts.length + 2 ≤ budget →
      Finds finish errors s rest
        (Parser.statement budget ⟨ts ++ (closing ++ rest), finish, errors⟩)
  | statements p => ∀ inBlock rest read budget,
      (headKind rest = .eof ∨ inBlock = true ∧ headKind rest = .rightBrace) →
      4 * ts.length + 3 ≤ budget →
      Parser.statements budget inBlock read ⟨ts ++ rest, finish, errors⟩ =
        .ok (read.reverse ++ p) ⟨rest, finish, errors⟩

/-! ### Expressions -/

variable {ts us vs : List Token} {least : Precedence} {e left right : Expr} {budget : Nat}

/-- An expression ends where what follows binds too loosely. -/
theorem operators_stop {token : Token} (loose : (ofKind (headKind rest)).level ≤ least.level)
    (enough : 1 ≤ budget) :
    Finds finish errors e rest
      (Parser.operators budget least e ⟨token :: rest, finish, errors⟩) := by
  obtain ⟨budget, rfl⟩ := Nat.exists_eq_add_of_le' enough
  rw [Parser.operators, Parser.upcoming_bind]
  have next : (Reader.mk (token :: rest) finish errors).advanced.current.kind = headKind rest :=
    current_kind rest
  rw [next, if_neg (Nat.not_lt_of_le loose)]
  exact ⟨token, rfl⟩

/-- An expression that is read with what follows is found as it is, where nothing follows that
continues it. -/
theorem Passes.finds (passes : Passes finish errors ts e least rest)
    (loose : (ofKind (headKind rest)).level ≤ least.level) (enough : 4 * ts.length + 1 ≤ budget) :
    Finds finish errors e rest (Parser.expression budget least ⟨ts ++ rest, finish, errors⟩) :=
  passes e rest 1 (Nat.le_refl 1) (fun _ _ enough => operators_stop loose enough) budget (by omega)

/-- What is found as an operand passes. -/
theorem passes_of_operand (solid : 1 ≤ ts.length)
    (operand : ∀ budget, 4 * ts.length ≤ budget →
      Finds finish errors e rest (Parser.operand budget ⟨ts ++ rest, finish, errors⟩)) :
    Passes finish errors ts e least rest := by
  intro x rest' cost _ continues budget enough
  obtain ⟨budget, rfl⟩ := Nat.exists_eq_add_of_le' (show 1 ≤ budget by omega)
  rw [Parser.expression]
  exact (operand budget (by omega)).bind fun token => continues token budget (by omega)

/-- Every expression binds tighter than no operator at all. -/
theorem Form.Yields.strength_pos {need : Nat} (h : (Form.expression need e).Yields ts) :
    0 < e.strength := by
  have call : 0 < Precedence.call.level := by decide
  generalize same : Form.expression need e = form at h
  induction h generalizing need with
  | ofBare _ bare =>
      cases same
      cases bare with
      | @binary token _ _ _ _ joins =>
          change 0 < (ofKind token.kind).level
          cases kind : token.kind <;> rw [kind] at joins <;> first | decide | cases joins
      | _ => exact call
  | grouped _ _ _ ih =>
      cases same
      exact ih rfl
  | _ => cases same

/-- A whole expression is found where nothing goes on with it. -/
theorem Form.ReadBack.finds {need : Nat}
    (readBack : (Form.expression 0 e).ReadBack finish errors ts)
    (yields : (Form.expression need e).Yields ts) (loose : ofKind (headKind rest) = .lowest)
    (other : headKind rest ≠ .elseWord) (enough : 4 * ts.length + 1 ≤ budget) :
    Finds finish errors e rest
      (Parser.expression budget .lowest ⟨ts ++ rest, finish, errors⟩) := by
  refine (readBack .lowest rest fun _ => ⟨yields.strength_pos, ?_⟩).finds ?_ enough
  · exact Expr.endsBefore_of_lowest loose other
  · exact Nat.le_of_eq (congrArg Precedence.level loose)

/-- A whole expression is found before a token that does not go on with it. -/
theorem Form.ReadBack.finds_before {need : Nat} {token : Token} {kind : TokenKind}
    (readBack : (Form.expression 0 e).ReadBack finish errors ts)
    (yields : (Form.expression need e).Yields ts) (same : token.kind = kind)
    (loose : ofKind kind = .lowest) (other : kind ≠ .elseWord)
    (enough : 4 * ts.length + 1 ≤ budget) :
    Finds finish errors e (token :: rest)
      (Parser.expression budget .lowest ⟨ts ++ token :: rest, finish, errors⟩) := by
  have next : headKind (token :: rest) = kind := same
  exact readBack.finds yields (next ▸ loose) (next ▸ other) enough

/-- Behind an infix operator its right operand is read, and the whole is the left operand of what
follows. -/
theorem operators_between {token last : Token} (joins : token.kind.isInfix = true)
    (tighter : least.level < (ofKind token.kind).level) :
    Parser.operators (budget + 1) least left ⟨last :: token :: rest, finish, errors⟩ =
      (Parser.expression budget (onRight token.kind) >>= fun right =>
        Parser.operators budget least (.binary token left token.literal right))
        ⟨rest, finish, errors⟩ := by
  have other : token.kind ≠ .leftParen := by
    intro same
    rw [same] at joins
    cases joins
  rw [Parser.operators, Parser.upcoming_bind_cons, if_pos tighter, Parser.advance_bind,
    if_neg other, Parser.advance_bind]

/-- Behind a callee its arguments are read, and the call is the left operand of what follows. -/
theorem operators_call {opening last : Token} (kind : opening.kind = .leftParen)
    (callable : left.isCallable = true) (below : least.level < Precedence.call.level) :
    Parser.operators (budget + 1) least left ⟨last :: opening :: rest, finish, errors⟩ =
      (Parser.arguments budget >>= fun given =>
        Parser.operators budget least (.call opening left given))
        ⟨opening :: rest, finish, errors⟩ := by
  have tighter : least.level < (ofKind opening.kind).level := by
    rw [kind]
    exact below
  rw [Parser.operators, Parser.upcoming_bind_cons, if_pos tighter, Parser.advance_bind,
    if_pos kind, if_pos callable]

/-- A binary expression is read back from its operands around the operator. -/
theorem readBack_binary {token : Token} (joins : token.kind.isInfix = true)
    (first : (Form.expression (leftNeed token.kind) left).ReadBack finish errors ts)
    (second : (Form.expression (rightNeed token.kind) right).ReadBack finish errors us) :
    (Form.bare (.binary token left token.literal right)).ReadBack finish errors
      (ts ++ token :: us) := by
  intro least rest tighter ends x rest' cost paid continues budget enough
  obtain ⟨loose, other⟩ := ends
  rw [List.append_assoc, List.cons_append]
  rw [List.length_append, List.length_cons] at enough
  -- The left operand passes: what is read with it is the operator, the right operand and the rest.
  refine first least (token :: (us ++ rest)) (fun tight => ⟨?_, ?_⟩) x rest'
    (cost + 4 * us.length + 2) (by omega) ?_ budget (by omega)
  · exact Nat.lt_of_lt_of_le tighter
      (Nat.le_trans (Precedence.ofKind_le_leftNeed token.kind) tight)
  · exact Expr.endsBefore_of_leftNeed joins tight
  · intro last budget enough
    obtain ⟨budget, rfl⟩ := Nat.exists_eq_add_of_le' (show 1 ≤ budget by omega)
    rw [operators_between joins tighter]
    have passes := second (onRight token.kind) rest fun tight =>
      ⟨Precedence.onRight_lt_of_rightNeed tight,
        Expr.endsBefore_of_rightNeed joins tight loose other⟩
    exact (passes.finds loose (by omega)).bind fun token' => continues token' budget (by omega)

/-- A call is read back from its callee and its arguments in parentheses. -/
theorem readBack_call {opening closing : Token} {callee : Expr} {given : List Expr}
    (callable : callee.isCallable = true) (kind : opening.kind = .leftParen)
    (kind' : closing.kind = .rightParen)
    (first : (Form.expression 0 callee).ReadBack finish errors ts)
    (second : (Form.arguments given).ReadBack finish errors us) :
    (Form.bare (.call opening callee given)).ReadBack finish errors
      (ts ++ opening :: (us ++ [closing])) := by
  intro least rest below _ x rest' cost paid continues budget enough
  have atom : callee.strength = Precedence.call.level ∧ callee.limit = Precedence.call.level := by
    cases callee <;> first | exact ⟨rfl, rfl⟩ | cases callable
  have split : ts ++ opening :: (us ++ [closing]) ++ rest =
      ts ++ opening :: (us ++ closing :: rest) := by simp
  rw [split]
  simp only [List.length_append, List.length_cons, List.length_nil] at enough
  refine first least (opening :: (us ++ closing :: rest)) (fun _ => ⟨?_, ?_, ?_⟩) x rest'
    (cost + 4 * us.length + 3) (by omega) ?_ budget (by omega)
  · rw [atom.1]
    exact below
  · rw [atom.2]
    exact Precedence.level_le_call _
  · change opening.kind ≠ _
    rw [kind]
    exact nofun
  · intro last budget enough
    obtain ⟨budget, rfl⟩ := Nat.exists_eq_add_of_le' (show 1 ≤ budget by omega)
    rw [operators_call kind callable below]
    exact (second opening closing rest budget kind' (by omega)).bind fun token =>
      continues token budget (by omega)

/-- A token that is an expression by itself. -/
theorem readBack_token {token : Token} (operand : ∀ budget rest,
    Parser.operand (budget + 1) ⟨token :: rest, finish, errors⟩ =
      .ok e ⟨token :: rest, finish, errors⟩) :
    (Form.bare e).ReadBack finish errors [token] := by
  intro least rest _ _
  refine passes_of_operand (Nat.le_refl 1) fun budget enough => ?_
  obtain ⟨budget, rfl⟩ := Nat.exists_eq_add_of_le' (show 1 ≤ budget from Nat.le_of_lt_succ (by
    rw [List.length_singleton] at enough
    omega))
  exact ⟨token, operand budget rest⟩

/-- A unary expression is read back from its operator and its operand. -/
theorem readBack_unary {token : Token} (kind : token.kind = .bang ∨ token.kind = .minus)
    (operand : (Form.expression Precedence.unary.level e).ReadBack finish errors ts) :
    (Form.bare (.unary token token.literal e)).ReadBack finish errors (token :: ts) := by
  intro least rest _ ends
  obtain ⟨loose, other⟩ := ends
  refine passes_of_operand (Nat.succ_pos _) fun budget enough => ?_
  rw [List.length_cons] at enough
  obtain ⟨budget, rfl⟩ := Nat.exists_eq_add_of_le' (show 1 ≤ budget by omega)
  have run : Parser.operand (budget + 1) ⟨token :: (ts ++ rest), finish, errors⟩ =
      (Parser.expression budget .unary >>= fun right =>
        pure (.unary token token.literal right) : Parser Expr) ⟨ts ++ rest, finish, errors⟩ := by
    rw [Parser.operand, Parser.current_bind_cons]
    rcases kind with kind | kind <;> rw [kind] <;> rfl
  have passes := operand .unary rest fun tight =>
    ⟨Expr.unary_lt_strength tight, Expr.endsBefore_of_unary tight loose other⟩
  rw [List.cons_append, run]
  exact (passes.finds loose (by omega)).bind fun last => ⟨last, rfl⟩

/-- An expression in parentheses is read back as itself, wherever it stands. -/
theorem readBack_grouped {opening closing : Token} {need : Nat} (kind : opening.kind = .leftParen)
    (kind' : closing.kind = .rightParen) (yields : (Form.expression 0 e).Yields ts)
    (inner : (Form.expression 0 e).ReadBack finish errors ts) :
    (Form.expression need e).ReadBack finish errors (opening :: (ts ++ [closing])) := by
  intro least rest _
  refine passes_of_operand (Nat.succ_pos _) fun budget enough => ?_
  simp only [List.length_append, List.length_cons, List.length_nil] at enough
  obtain ⟨budget, rfl⟩ := Nat.exists_eq_add_of_le' (show 1 ≤ budget by omega)
  have split : opening :: (ts ++ [closing]) ++ rest = opening :: (ts ++ closing :: rest) := by simp
  rw [split, Parser.operand, Parser.current_bind_cons, kind]
  refine (inner.finds_before yields kind' rfl (by decide) (by omega)).bind fun last => ?_
  rw [Parser.expect_bind _ kind']
  exact ⟨closing, rfl⟩

/-- A block begins with a brace. -/
theorem block_brace {b : Block} (yields : (Form.block b).Yields ts) :
    ∃ brace inner, ts = brace :: inner ∧ brace.kind = .leftBrace :=
  yields.opens

/-- What a conditional starts with, up to its consequence. -/
theorem operand_conditional {token opening closing : Token} {condition : Expr}
    {consequence : Block} {x : Expr} (kind : token.kind = .ifWord)
    (kindOpening : opening.kind = .leftParen) (kindClosing : closing.kind = .rightParen)
    (yields : (Form.expression 0 condition).Yields ts)
    (yields' : (Form.block consequence).Yields us)
    (first : (Form.expression 0 condition).ReadBack finish errors ts)
    (second : (Form.block consequence).ReadBack finish errors us)
    (enough : 4 * ts.length + 4 * us.length + 2 ≤ budget)
    (goesOn : ∀ last, Finds finish errors x rest' ((do
      if (← Parser.upcoming).kind = .elseWord then
        Parser.advance
        Parser.expect .leftBrace
        let alternative ← Parser.block budget
        return .conditional token condition consequence (some alternative)
      else return .conditional token condition consequence none : Parser Expr)
      ⟨last :: rest, finish, errors⟩)) :
    Finds finish errors x rest' (Parser.operand (budget + 1)
      ⟨token :: opening :: (ts ++ closing :: (us ++ rest)), finish, errors⟩) := by
  rw [Parser.operand, Parser.current_bind_cons, kind]
  dsimp only
  rw [Parser.expect_bind _ kindOpening, Parser.advance_bind]
  refine (first.finds_before yields kindClosing rfl (by decide) (by omega)).bind fun last => ?_
  obtain ⟨brace, inner, rfl, kindBrace⟩ := block_brace yields'
  rw [Parser.expect_bind _ kindClosing, List.cons_append, Parser.expect_bind _ kindBrace]
  exact (second rest budget (by omega)).bind fun last => goesOn last

/-- A conditional without an alternative is read back from its parts. -/
theorem readBack_conditional {token opening closing : Token} {condition : Expr}
    {consequence : Block} (kind : token.kind = .ifWord) (kindOpening : opening.kind = .leftParen)
    (kindClosing : closing.kind = .rightParen) (yields : (Form.expression 0 condition).Yields ts)
    (yields' : (Form.block consequence).Yields us)
    (first : (Form.expression 0 condition).ReadBack finish errors ts)
    (second : (Form.block consequence).ReadBack finish errors us) :
    (Form.bare (.conditional token condition consequence none)).ReadBack finish errors
      (token :: opening :: (ts ++ closing :: us)) := by
  intro least rest _ ends
  obtain ⟨-, other⟩ := ends
  refine passes_of_operand (Nat.succ_pos _) fun budget enough => ?_
  simp only [List.length_append, List.length_cons] at enough
  obtain ⟨budget, rfl⟩ := Nat.exists_eq_add_of_le' (show 1 ≤ budget by omega)
  have split : token :: opening :: (ts ++ closing :: us) ++ rest =
      token :: opening :: (ts ++ closing :: (us ++ rest)) := by simp
  rw [split]
  refine operand_conditional kind kindOpening kindClosing yields yields' first second (by omega) ?_
  intro last
  have next : (Reader.mk (last :: rest) finish errors).advanced.current.kind = headKind rest :=
    current_kind rest
  rw [Parser.upcoming_bind, next, if_neg other]
  exact ⟨last, rfl⟩

/-- So is one with an alternative. -/
theorem readBack_alternative {token opening closing otherwise : Token} {condition : Expr}
    {consequence alternative : Block} (kind : token.kind = .ifWord)
    (kindOpening : opening.kind = .leftParen) (kindClosing : closing.kind = .rightParen)
    (kindElse : otherwise.kind = .elseWord) (yields : (Form.expression 0 condition).Yields ts)
    (yields' : (Form.block consequence).Yields us) (yields'' : (Form.block alternative).Yields vs)
    (first : (Form.expression 0 condition).ReadBack finish errors ts)
    (second : (Form.block consequence).ReadBack finish errors us)
    (third : (Form.block alternative).ReadBack finish errors vs) :
    (Form.bare (.conditional token condition consequence (some alternative))).ReadBack
      finish errors (token :: opening :: (ts ++ closing :: (us ++ otherwise :: vs))) := by
  intro least rest _ _
  refine passes_of_operand (Nat.succ_pos _) fun budget enough => ?_
  simp only [List.length_append, List.length_cons] at enough
  obtain ⟨budget, rfl⟩ := Nat.exists_eq_add_of_le' (show 1 ≤ budget by omega)
  have split : token :: opening :: (ts ++ closing :: (us ++ otherwise :: vs)) ++ rest =
      token :: opening :: (ts ++ closing :: (us ++ otherwise :: (vs ++ rest))) := by simp
  rw [split]
  refine operand_conditional kind kindOpening kindClosing yields yields' first second (by omega) ?_
  intro last
  obtain ⟨brace, inner, rfl, kindBrace⟩ := block_brace yields''
  rw [Parser.upcoming_bind_cons, if_pos kindElse, Parser.advance_bind, List.cons_append,
    Parser.expect_bind _ kindBrace]
  exact (third rest budget (by omega)).bind fun last => ⟨last, rfl⟩

/-- A function is read back from its parameters and its body. -/
theorem readBack_function {token opening closing : Token} {names : List Name} {body : Block}
    (kind : token.kind = .fnWord) (kindOpening : opening.kind = .leftParen)
    (kindClosing : closing.kind = .rightParen) (yields' : (Form.block body).Yields us)
    (first : (Form.parameters names).ReadBack finish errors ts)
    (second : (Form.block body).ReadBack finish errors us) :
    (Form.bare (.function token names body)).ReadBack finish errors
      (token :: opening :: (ts ++ closing :: us)) := by
  intro least rest _ _
  refine passes_of_operand (Nat.succ_pos _) fun budget enough => ?_
  simp only [List.length_append, List.length_cons] at enough
  obtain ⟨budget, rfl⟩ := Nat.exists_eq_add_of_le' (show 1 ≤ budget by omega)
  have split : token :: opening :: (ts ++ closing :: us) ++ rest =
      token :: opening :: (ts ++ closing :: (us ++ rest)) := by simp
  rw [split, Parser.operand, Parser.current_bind_cons, kind]
  dsimp only
  rw [Parser.expect_bind _ kindOpening]
  refine (first opening closing _ budget kindClosing (by omega)).bind fun last => ?_
  obtain ⟨brace, inner, rfl, kindBrace⟩ := block_brace yields'
  rw [List.cons_append, Parser.expect_bind _ kindBrace]
  exact (second rest budget (by omega)).bind fun last => ⟨last, rfl⟩

/-! ### Lists -/

/-- Behind the last argument there are no more. -/
theorem readBack_moreArguments_nil :
    (Form.moreArguments []).ReadBack finish errors [] := by
  intro last closing rest read budget kind enough
  obtain ⟨budget, rfl⟩ := Nat.exists_eq_add_of_le' (show 1 ≤ budget from enough)
  rw [Parser.moreArguments, List.nil_append, Parser.upcoming_bind_cons, kind, if_neg (by decide),
    Parser.expect_bind _ kind, List.append_nil]
  exact ⟨closing, rfl⟩

/-- An argument is found up to the comma or the parenthesis behind it. -/
theorem finds_argument {closing : Token} {es : List Expr} (kindClosing : closing.kind = .rightParen)
    (yields : (Form.expression 0 e).Yields ts) (yields' : (Form.moreArguments es).Yields us)
    (first : (Form.expression 0 e).ReadBack finish errors ts)
    (enough : 4 * ts.length + 1 ≤ budget) :
    Finds finish errors e (us ++ closing :: rest) (Parser.expression budget .lowest
      ⟨ts ++ (us ++ closing :: rest), finish, errors⟩) := by
  cases us with
  | nil => exact first.finds_before yields kindClosing rfl nofun enough
  | cons comma us => exact first.finds_before yields (yields'.opens comma rfl) rfl nofun enough

/-- One more argument is read back behind its comma. -/
theorem readBack_moreArguments_cons {comma : Token} {es : List Expr} (kind : comma.kind = .comma)
    (yields : (Form.expression 0 e).Yields ts) (yields' : (Form.moreArguments es).Yields us)
    (first : (Form.expression 0 e).ReadBack finish errors ts)
    (more : (Form.moreArguments es).ReadBack finish errors us) :
    (Form.moreArguments (e :: es)).ReadBack finish errors (comma :: (ts ++ us)) := by
  intro last closing rest read budget kindClosing enough
  simp only [List.length_append, List.length_cons] at enough
  obtain ⟨budget, rfl⟩ := Nat.exists_eq_add_of_le' (show 1 ≤ budget by omega)
  have split :
      comma :: (ts ++ us) ++ closing :: rest = comma :: (ts ++ (us ++ closing :: rest)) := by
    simp
  rw [split, Parser.moreArguments, Parser.upcoming_bind_cons, if_pos kind, Parser.advance_bind,
    Parser.advance_bind]
  refine (finds_argument kindClosing yields yields' first (by omega)).bind fun last => ?_
  have goesOn := more last closing rest (e :: read) budget kindClosing (by omega)
  rw [List.reverse_cons, List.append_assoc] at goesOn
  exact goesOn

/-- No arguments are read back from nothing. -/
theorem readBack_arguments_nil : (Form.arguments []).ReadBack finish errors [] := by
  intro opening closing rest budget kind enough
  obtain ⟨budget, rfl⟩ := Nat.exists_eq_add_of_le' (show 1 ≤ budget from Nat.le_of_lt enough)
  rw [Parser.arguments, List.nil_append, Parser.upcoming_bind_cons, if_pos kind]
  exact ⟨closing, rfl⟩

/-- Arguments are read back from the first one and those behind it. -/
theorem readBack_arguments_cons {es : List Expr} (yields : (Form.expression 0 e).Yields ts)
    (yields' : (Form.moreArguments es).Yields us)
    (first : (Form.expression 0 e).ReadBack finish errors ts)
    (more : (Form.moreArguments es).ReadBack finish errors us) :
    (Form.arguments (e :: es)).ReadBack finish errors (ts ++ us) := by
  intro opening closing rest budget kindClosing enough
  rw [List.length_append] at enough
  obtain ⟨budget, rfl⟩ := Nat.exists_eq_add_of_le' (show 1 ≤ budget by omega)
  obtain ⟨token, inner, same, opens⟩ := yields.opens
  have next : (Reader.mk (opening :: (ts ++ us ++ closing :: rest)) finish
      errors).advanced.current = token := by
    rw [same]
    rfl
  have other : token.kind ≠ .rightParen := by
    intro ended
    rw [ended] at opens
    cases opens
  have solid : 1 ≤ ts.length := by
    rw [same]
    exact Nat.succ_pos _
  rw [Parser.arguments, Parser.upcoming_bind, next, if_neg other, Parser.advance_bind,
    List.append_assoc]
  refine (finds_argument kindClosing yields yields' first (by omega)).bind fun last => ?_
  exact more last closing rest [e] budget kindClosing (by omega)

/-- Behind the last parameter there are no more. -/
theorem readBack_moreParameters_nil :
    (Form.moreParameters []).ReadBack finish errors [] := by
  intro last closing rest read budget kind enough
  obtain ⟨budget, rfl⟩ := Nat.exists_eq_add_of_le' (show 1 ≤ budget from enough)
  rw [Parser.moreParameters, List.nil_append, Parser.upcoming_bind_cons, kind, if_neg (by decide),
    Parser.expect_bind _ kind, List.append_nil]
  exact ⟨closing, rfl⟩

/-- One more parameter is read back behind its comma. -/
theorem readBack_moreParameters_cons {comma token : Token} {names : List Name}
    (kind : comma.kind = .comma) (kindToken : token.kind = .ident)
    (more : (Form.moreParameters names).ReadBack finish errors ts) :
    (Form.moreParameters (⟨token, token.literal⟩ :: names)).ReadBack finish errors
      (comma :: token :: ts) := by
  intro last closing rest read budget kindClosing enough
  simp only [List.length_cons] at enough
  obtain ⟨budget, rfl⟩ := Nat.exists_eq_add_of_le' (show 1 ≤ budget by omega)
  rw [Parser.moreParameters, List.cons_append, List.cons_append, Parser.upcoming_bind_cons,
    if_pos kind, Parser.advance_bind, Parser.expect_bind _ kindToken, Parser.name_bind]
  have goesOn := more token closing rest (⟨token, token.literal⟩ :: read) budget kindClosing
    (by omega)
  rw [List.reverse_cons, List.append_assoc] at goesOn
  exact goesOn

/-- No parameters are read back from nothing. -/
theorem readBack_parameters_nil : (Form.parameters []).ReadBack finish errors [] := by
  intro opening closing rest budget kind _
  rw [Parser.parameters, List.nil_append, Parser.upcoming_bind_cons, if_pos kind]
  exact ⟨closing, rfl⟩

/-- Parameters are read back from the first one and those behind it. -/
theorem readBack_parameters_cons {token : Token} {names : List Name}
    (kind : token.kind = .ident) (more : (Form.moreParameters names).ReadBack finish errors ts) :
    (Form.parameters (⟨token, token.literal⟩ :: names)).ReadBack finish errors (token :: ts) := by
  intro opening closing rest budget kindClosing enough
  rw [Parser.parameters, List.cons_append, Parser.upcoming_bind_cons, kind, if_neg (by decide),
    Parser.expect_bind _ kind, Parser.name_bind]
  exact more token closing rest [⟨token, token.literal⟩] budget kindClosing (Nat.le_of_lt enough)

/-! ### Statements -/

/-- A block is read back from its statements in braces. -/
theorem readBack_block {opening closing : Token} {p : List Statement}
    (kindClosing : closing.kind = .rightBrace)
    (inner : (Form.statements p).ReadBack finish errors ts) :
    (Form.block (.mk opening p)).ReadBack finish errors (opening :: (ts ++ [closing])) := by
  intro rest budget enough
  simp only [List.length_append, List.length_cons, List.length_nil] at enough
  obtain ⟨budget, rfl⟩ := Nat.exists_eq_add_of_le' (show 1 ≤ budget by omega)
  have split : opening :: (ts ++ [closing]) ++ rest = opening :: (ts ++ closing :: rest) := by simp
  rw [split, Parser.block, Parser.current_bind_cons, Parser.advance_bind, bind_run,
    inner true (closing :: rest) [] budget (.inr ⟨rfl, kindClosing⟩) (by omega)]
  dsimp only
  rw [Parser.current_bind_cons, kindClosing, if_neg (by decide)]
  exact ⟨closing, rfl⟩

/-- A semicolon is passed over if it comes next. -/
theorem Parser.skipSemicolon_bind {last : Token} (f : Unit → Parser β) :
    (Parser.skipSemicolon >>= f) ⟨last :: rest, finish, errors⟩ =
      if headKind rest = .semicolon then f () ⟨rest, finish, errors⟩
      else f () ⟨last :: rest, finish, errors⟩ := by
  have next : (Reader.mk (last :: rest) finish errors).upcoming.kind = headKind rest :=
    @current_kind finish errors rest
  have run : Parser.skipSemicolon ⟨last :: rest, finish, errors⟩ =
      (if (Reader.mk (last :: rest) finish errors).upcoming.kind = .semicolon then Parser.advance
        else pure ()) ⟨last :: rest, finish, errors⟩ := rfl
  rw [bind_run, run, next]
  by_cases semicolon : headKind rest = .semicolon
  · rw [if_pos semicolon, if_pos semicolon]
    rfl
  · rw [if_neg semicolon, if_neg semicolon]
    rfl

/-- A whole expression is found with the semicolon behind it, if there is one. -/
theorem finds_closed {closing : List Token} {make : Expr → Statement}
    (yields : (Form.expression 0 e).Yields ts)
    (readBack : (Form.expression 0 e).ReadBack finish errors ts) (closes : Closes closing rest)
    (borders : (headKind rest).borders = true) (enough : 4 * ts.length + 1 ≤ budget) :
    Finds finish errors (make e) rest ((do
      let value ← Parser.expression budget .lowest
      Parser.skipSemicolon
      return make value : Parser Statement) ⟨ts ++ (closing ++ rest), finish, errors⟩) := by
  rcases closes with ⟨token, kind, rfl⟩ | ⟨rfl, apart⟩
  · rw [List.singleton_append]
    refine (readBack.finds_before yields kind rfl nofun enough).bind fun last => ?_
    have next : headKind (token :: rest) = .semicolon := kind
    rw [Parser.skipSemicolon_bind, if_pos next]
    exact ⟨token, rfl⟩
  · have ends : (headKind rest).continues = false := by
      cases rest with
      | nil => rfl
      | cons token rest => exact apart token rfl
    obtain ⟨loose, noElse, noSemicolon⟩ := TokenKind.lowest_of_borders borders ends
    refine (readBack.finds yields loose noElse enough).bind fun last => ?_
    rw [Parser.skipSemicolon_bind, if_neg noSemicolon]
    exact ⟨last, rfl⟩

/-- A binding is read back from its name and its value. -/
theorem readBack_binding {token name assign : Token} (kind : token.kind = .letWord)
    (kindName : name.kind = .ident) (kindAssign : assign.kind = .assign)
    (yields : (Form.expression 0 e).Yields ts)
    (readBack : (Form.expression 0 e).ReadBack finish errors ts) :
    (Form.statement (.binding token ⟨name, name.literal⟩ e)).ReadBack finish errors
      (token :: name :: assign :: ts) := by
  intro closing rest budget closes borders enough
  simp only [List.length_cons] at enough
  obtain ⟨budget, rfl⟩ := Nat.exists_eq_add_of_le' (show 1 ≤ budget by omega)
  simp only [List.cons_append]
  rw [Parser.statement, Parser.current_bind_cons, kind]
  dsimp only
  rw [Parser.expect_bind _ kindName, Parser.name_bind, Parser.expect_bind _ kindAssign,
    Parser.advance_bind]
  exact finds_closed yields readBack closes borders (by omega)

/-- A return is read back from its value. -/
theorem readBack_returning {token : Token} (kind : token.kind = .returnWord)
    (yields : (Form.expression 0 e).Yields ts)
    (readBack : (Form.expression 0 e).ReadBack finish errors ts) :
    (Form.statement (.returning token e)).ReadBack finish errors (token :: ts) := by
  intro closing rest budget closes borders enough
  simp only [List.length_cons] at enough
  obtain ⟨budget, rfl⟩ := Nat.exists_eq_add_of_le' (show 1 ≤ budget by omega)
  rw [List.cons_append, Parser.statement, Parser.current_bind_cons, kind]
  dsimp only
  rw [Parser.advance_bind]
  exact finds_closed yields readBack closes borders (by omega)

/-- An expression as a statement is read back from the expression. -/
theorem readBack_expressionStatement {token : Token}
    (yields : (Form.expression 0 e).Yields (token :: ts))
    (readBack : (Form.expression 0 e).ReadBack finish errors (token :: ts)) :
    (Form.statement (.expression token e)).ReadBack finish errors (token :: ts) := by
  intro closing rest budget closes borders enough
  simp only [List.length_cons] at enough
  obtain ⟨budget, rfl⟩ := Nat.exists_eq_add_of_le' (show 1 ≤ budget by omega)
  have start : (Reader.mk (token :: ts ++ (closing ++ rest)) finish errors).current = token := rfl
  have enough' : 4 * (token :: ts).length + 1 ≤ budget := by
    rw [List.length_cons]
    omega
  obtain ⟨_, _, same, opens⟩ := yields.opens
  cases same
  rw [Parser.statement, Parser.current_bind, start]
  cases kind : token.kind <;> rw [kind] at opens <;>
    first | exact finds_closed yields readBack closes borders enough' | cases opens

/-- A block as a statement is read back from the block. -/
theorem readBack_blockStatement {b : Block} (yields : (Form.block b).Yields ts)
    (readBack : (Form.block b).ReadBack finish errors ts) :
    (Form.statement (.block b)).ReadBack finish errors ts := by
  intro closing rest budget closes _ enough
  cases closes
  obtain ⟨budget, rfl⟩ := Nat.exists_eq_add_of_le' (show 1 ≤ budget by omega)
  obtain ⟨brace, inner, rfl, kind⟩ := block_brace yields
  rw [List.nil_append, List.cons_append, Parser.statement, Parser.current_bind_cons, kind]
  exact (readBack rest budget (by omega)).bind fun last => ⟨last, rfl⟩

/-- What closes a statement closes it in front of more tokens, if these do not continue it. -/
theorem Closes.append {closing : List Token} (closes : Closes closing us)
    (ends : (headKind rest).continues = false) : Closes closing (us ++ rest) := by
  refine closes.imp_right fun ⟨bare, apart⟩ => ⟨bare, fun token first => ?_⟩
  cases us with
  | nil =>
      cases rest with
      | nil => cases first
      | cons token rest =>
          cases first
          exact ends
  | cons token us => exact apart _ first

/-- So does what stands between a statement and the tokens behind it. -/
theorem Statement.ClosedBy.append {statement : Statement} {closing : List Token}
    (closes : statement.ClosedBy closing us) (ends : (headKind rest).continues = false) :
    statement.ClosedBy closing (us ++ rest) := by
  cases statement with
  | block _ => exact closes
  | binding _ _ _ | returning _ _ | expression _ _ => exact Closes.append closes ends

/-- No statements are read back from nothing. -/
theorem readBack_statements_nil : (Form.statements []).ReadBack finish errors [] := by
  intro inBlock rest read budget ends enough
  obtain ⟨budget, rfl⟩ := Nat.exists_eq_add_of_le' (show 1 ≤ budget by omega)
  have ended : (decide (headKind rest = .eof) || inBlock && decide (headKind rest = .rightBrace)) =
      true := by
    rcases ends with ended | ⟨rfl, closing⟩
    · simp [ended]
    · simp [closing]
  rw [Parser.statements, Parser.current_bind, List.nil_append, current_kind, if_pos ended,
    List.append_nil]
  rfl

/-- Statements are read back from the first one, what closes it, and those behind it. -/
theorem readBack_statements_cons {statement : Statement} {p : List Statement} {closing : List Token}
    (yields : (Form.statement statement).Yields ts) (closes : statement.ClosedBy closing us)
    (yields' : (Form.statements p).Yields us)
    (first : (Form.statement statement).ReadBack finish errors ts)
    (more : (Form.statements p).ReadBack finish errors us) :
    (Form.statements (statement :: p)).ReadBack finish errors (ts ++ (closing ++ us)) := by
  intro inBlock rest read budget ends enough
  simp only [List.length_append] at enough
  obtain ⟨budget, rfl⟩ := Nat.exists_eq_add_of_le' (show 1 ≤ budget by omega)
  obtain ⟨token, inner, same, opens⟩ := yields.opens
  have solid : 1 ≤ ts.length := by
    rw [same]
    exact Nat.succ_pos _
  have start : headKind (ts ++ (closing ++ (us ++ rest))) = token.kind := by
    rw [same]
    rfl
  have inside : ¬ (decide (token.kind = .eof) || inBlock && decide (token.kind = .rightBrace)) =
      true := by
    cases kind : token.kind <;> rw [kind] at opens <;> first | exact absurd opens (by decide) | simp
  -- Whatever ends the statements can neither go on with the last of them nor start an `else`.
  have behind : (headKind rest).continues = false ∧ (headKind rest).borders = true := by
    rcases ends with ended | ⟨-, ended⟩ <;> rw [ended] <;> decide
  have borders : (headKind (us ++ rest)).borders = true := by
    cases us with
    | nil => exact behind.2
    | cons next us =>
        have opens : next.kind.opensStatement = true := yields'.opens next rfl
        change next.kind.borders = true
        rw [TokenKind.borders, opens]
        rfl
  obtain ⟨last, found⟩ := first closing (us ++ rest) budget (closes.append behind.1) borders
    (by omega)
  have tried : Parser.attempt (Parser.statement budget)
      ⟨ts ++ (closing ++ (us ++ rest)), finish, errors⟩ =
        .ok (some statement) ⟨last :: (us ++ rest), finish, errors⟩ := by
    rw [Parser.attempt, found]
  have goesOn := more inBlock rest (statement :: read) budget ends (by omega)
  rw [List.reverse_cons, List.append_assoc] at goesOn
  rw [List.append_assoc, List.append_assoc, Parser.statements, Parser.current_bind, current_kind,
    start, if_neg inside, bind_run, tried]
  exact goesOn

/-- **What is written by the rules is read back.** -/
theorem Form.Yields.readBack {form : Form} (h : form.Yields ts) :
    form.ReadBack finish errors ts := by
  -- By the rules of the grammar, one lemma for each that has a proof of more than a few lines.
  induction h with
  | name kind | string kind | trueWord kind | falseWord kind =>
      refine readBack_token fun budget rest => ?_
      rw [Parser.operand, Parser.current_bind_cons, kind]
      rfl
  | integer kind known =>
      refine readBack_token fun budget rest => ?_
      rw [Parser.operand, Parser.current_bind_cons, kind]
      dsimp only
      rw [Parser.integer, Parser.current_bind_cons, known]
      rfl
  | float kind known =>
      refine readBack_token fun budget rest => ?_
      rw [Parser.operand, Parser.current_bind_cons, kind]
      dsimp only
      rw [Parser.float, Parser.current_bind_cons, known]
      rfl
  | unary kind _ ih => exact readBack_unary kind ih
  | binary joins _ _ first second => exact readBack_binary joins first second
  | call callable kind kind' _ _ first second =>
      exact readBack_call callable kind kind' first second
  | conditional kind opening closing yields yields' first second =>
      exact readBack_conditional kind opening closing yields yields' first second
  | alternative kind opening closing otherwise yields yields' yields'' first second third =>
      exact readBack_alternative kind opening closing otherwise yields yields' yields'' first second
        third
  | function kind opening closing _ yields' first second =>
      exact readBack_function kind opening closing yields' first second
  | ofBare tight _ ih =>
      intro least rest fits
      obtain ⟨tighter, ends⟩ := fits tight
      exact ih least rest tighter ends
  | grouped opening closing yields ih => exact readBack_grouped opening closing yields ih
  | noArguments => exact readBack_arguments_nil
  | firstArgument yields yields' first more =>
      exact readBack_arguments_cons yields yields' first more
  | lastArgument => exact readBack_moreArguments_nil
  | nextArgument kind yields yields' first more =>
      exact readBack_moreArguments_cons kind yields yields' first more
  | noParameters => exact readBack_parameters_nil
  | firstParameter kind _ more => exact readBack_parameters_cons kind more
  | lastParameter => exact readBack_moreParameters_nil
  | nextParameter comma kind _ more => exact readBack_moreParameters_cons comma kind more
  | block _ closing _ inner => exact readBack_block closing inner
  | binding kind name assign yields ih => exact readBack_binding kind name assign yields ih
  | returning kind yields ih => exact readBack_returning kind yields ih
  | expressionStatement yields ih => exact readBack_expressionStatement yields ih
  | blockStatement yields ih => exact readBack_blockStatement yields ih
  | noStatements => exact readBack_statements_nil
  | nextStatement yields closes yields' first more =>
      exact readBack_statements_cons yields closes yields' first more

end Finds

/-- **A program is read back** from its tokens, without a report. -/
theorem Reader.program_of_yields {p : Program} {ts : List Token} {finish : Position}
    {errors : Array ParseError} (h : (Form.statements p).Yields ts) :
    (Reader.mk ts finish errors).program = (p, ⟨[], finish, errors⟩) := by
  have readBack : (Form.statements p).ReadBack finish errors ts := h.readBack
  have found := readBack false [] [] (4 * ts.length + 4) (.inl rfl) (Nat.le_succ _)
  rw [List.append_nil] at found
  rw [program, budget]
  dsimp only
  rw [found]
  rfl

end StackScript
