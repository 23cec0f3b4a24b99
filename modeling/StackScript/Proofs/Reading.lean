import StackScript.Proofs.Computations
import StackScript.Proofs.Grammar

/-!
# Reading by the Rules

What each rule of the reader does, whatever tokens are left. It only moves on and adds to the
reports; if it gives up it has made a report, and with a budget that is in proportion to the
tokens left it does not starve. If it makes no report then what it read is a form of the grammar.
The last token of the form is then the current one, so that where one rule ends the next one finds
its first token as the upcoming one.

## Main definitions

* `Reader.OnFrom`: from one reader to a later one.
* `Reader.Leads`: **how a rule ends**; `Reader.Leads.bind` is its rule of sequence.
* `Reader.Reads`, `Reader.Extends`: what was read of an expression.
* `Rules`: what every rule does at a budget.

## Main results

* `Precedence.leftNeed_le`: why an operator may take what was read before it as its left operand.
* `Rules.all`: **the rules**, at every budget.
-/

namespace StackScript

namespace Reader

variable {r r' r'' : Reader}

/-- The reader one token on. -/
def advanced (r : Reader) : Reader := { r with tokens := r.tokens.tail }

/-- A reader is **on from** another: tokens were taken from the front, reports added at the end. -/
structure OnFrom (r r' : Reader) : Prop where
  tokens : r'.tokens <:+ r.tokens
  finish : r'.finish = r.finish
  errors : r.errors.toList <+: r'.errors.toList

namespace OnFrom

/-- A reader is on from itself. -/
theorem refl (r : Reader) : r.OnFrom r := ⟨List.suffix_rfl, rfl, List.prefix_rfl⟩

/-- To be on from one another composes. -/
theorem trans (h : r.OnFrom r') (h' : r'.OnFrom r'') : r.OnFrom r'' :=
  ⟨h'.tokens.trans h.tokens, h'.finish.trans h.finish, h.errors.trans h'.errors⟩

/-- A reader is on from where it was a token before. -/
theorem advanced (r : Reader) : r.OnFrom r.advanced :=
  ⟨List.tail_suffix r.tokens, rfl, List.prefix_rfl⟩

/-- A report is added at the end, so the reader is on from where it was. -/
theorem reported (r : Reader) (e : ParseError) : r.OnFrom { r with errors := r.errors.push e } :=
  ⟨List.suffix_rfl, rfl, by rw [Array.toList_push]; exact List.prefix_append _ _⟩

/-- Further on there are no more tokens left. -/
theorem length_le (h : r.OnFrom r') : r'.tokens.length ≤ r.tokens.length := h.tokens.length_le

/-- Further on there are no fewer reports. -/
theorem errors_le (h : r.OnFrom r') : r.errors.size ≤ r'.errors.size := h.errors.length_le

end OnFrom

/-! ### The current token -/

/-- A current token that is not the end of the text is the first of those left. -/
theorem tokens_of_current (r : Reader) (h : r.current.kind ≠ .eof) :
    r.tokens = r.current :: r.advanced.tokens := by
  rw [current, advanced]
  cases tokens : r.tokens with
  | nil => rw [current, tokens] at h; exact absurd rfl h
  | cons token rest => rfl

/-- Among tokens none of which is the end of the text, it is current only when none is left. -/
theorem tokens_eq_nil (real : ∀ token ∈ r.tokens, token.kind ≠ .eof)
    (ended : r.current.kind = .eof) : r.tokens = [] := by
  cases tokens : r.tokens with
  | nil => rfl
  | cons token rest =>
      rw [current, tokens] at ended
      exact absurd ended (real token (tokens ▸ List.mem_cons_self))

end Reader

namespace Parser

variable {α : Type} (r : Reader)

/-- To look at the current token leaves the reader as it is. -/
theorem current_bind (f : Token → Parser α) : (current >>= f) r = f r.current r := rfl

/-- So does to look at the token behind it. -/
theorem upcoming_bind (f : Token → Parser α) :
    (upcoming >>= f) r = f r.advanced.current r := rfl

/-- So does to take the current token for a name. -/
theorem name_bind (f : Name → Parser α) :
    (name >>= f) r = f ⟨r.current, r.current.literal⟩ r := rfl

/-- A kind is expected of the upcoming token, which is read if it is of this kind and reported if it
is not. -/
theorem expect_run (kind : TokenKind) : expect kind r =
    (if r.advanced.current.kind = kind then advance
      else refuse (.expected kind r.advanced.current.kind) r.advanced.current.position) r := rfl

/-- An upcoming semicolon is passed over. -/
theorem skipSemicolon_run : skipSemicolon r =
    (if r.advanced.current.kind = .semicolon then advance else pure ()) r := rfl

end Parser

namespace Reader

variable {r r' r'' : Reader}

/-- A rule **reads on**: it moves on and, if it makes no report, its result is as stated; where it
gives up it has made a report. It does not run out of its budget. -/
def Leads {α : Type} (r : Reader) (post : α → Reader → Prop) :
    EStateM.Result ParseStop Reader α → Prop :=
  Ends (fun a r' => r.OnFrom r' ∧ (r'.errors.size = r.errors.size → post a r'))
    (fun e r' => r.OnFrom r' ∧ e = .refused ∧ r.errors.size < r'.errors.size)

namespace Leads

variable {α β : Type} {post : β → Reader → Prop} {f : Unit → Parser β} {kind : TokenKind}

/-- To yield a value reads on, if the value is as stated. -/
theorem pure {b : β} (h : post b r) : r.Leads post ((pure b : Parser β) r) :=
  ⟨.refl r, fun _ => h⟩

/-- What is stated of a result may be said more weakly. -/
theorem imp {post' : β → Reader → Prop} {x : EStateM.Result ParseStop Reader β}
    (h : r.Leads post x) (weaker : ∀ b r', post b r' → post' b r') : r.Leads post' x := by
  cases x with
  | ok b r' => exact ⟨h.1, fun quiet => weaker b r' (h.2 quiet)⟩
  | error e r' => exact h

/-- To read on leads to a reader that is on from here. -/
theorem onFrom {x : EStateM.Result ParseStop Reader β} (h : r.Leads post x) :
    r.OnFrom (stateOf x) := by
  cases x with
  | ok b r' => exact h.1
  | error e r' => exact h.1

/-- A rule that reads on does not run out of its budget. -/
theorem ne_starved {x : EStateM.Result ParseStop Reader β} (h : r.Leads post x) (r' : Reader) :
    x ≠ .error .starved r' := by
  rintro rfl
  cases h.2.1

/-- **Rules in sequence read on**, the second one from where the first one ended. -/
theorem bind {x : Parser α} {g : α → Parser β} {mid : α → Reader → Prop} (first : r.Leads mid (x r))
    (next : ∀ a r', r.OnFrom r' → r'.Leads (fun b r'' => mid a r' → post b r'') (g a r')) :
    r.Leads post ((x >>= g) r) := by
  rw [bind_run]
  cases ran : x r with
  | error e r' =>
      rw [ran] at first
      exact first
  | ok a r' =>
      rw [ran] at first
      obtain ⟨on, reads⟩ := first
      have second := next a r' on
      have le := on.errors_le
      dsimp only
      cases ran' : g a r' with
      | error e r'' =>
          rw [ran'] at second
          obtain ⟨on', refused, more⟩ := second
          exact ⟨on.trans on', refused, Nat.lt_of_le_of_lt le more⟩
      | ok b r'' =>
          rw [ran'] at second
          obtain ⟨on', reads'⟩ := second
          have le' := on'.errors_le
          exact ⟨on.trans on', fun quiet => reads' (by omega) (reads (by omega))⟩

/-- What reads on from the next token reads on from the current one. -/
theorem of_advanced {x : EStateM.Result ParseStop Reader β} (h : r.advanced.Leads post x) :
    r.Leads post x := by
  cases x with
  | ok b r' => exact ⟨(OnFrom.advanced r).trans h.1, h.2⟩
  | error e r' => exact ⟨(OnFrom.advanced r).trans h.1, h.2⟩

/-- To give up with a report reads on. -/
theorem refuse (fault : ParseFault) (position : Position) :
    r.Leads post ((Parser.refuse fault position : Parser β) r) :=
  ⟨.reported r _, rfl, by simp⟩

/-- To move on by a token, and to read on from there, is to read on. -/
theorem advance (next : r.advanced.Leads post (f () r.advanced)) :
    r.Leads post ((Parser.advance >>= f) r) :=
  next.of_advanced

/-- What follows a token of the right kind; there is a report if it is another. -/
theorem expect (next : r.advanced.current.kind = kind → r.advanced.Leads post (f () r.advanced)) :
    r.Leads post ((Parser.expect kind >>= f) r) := by
  rw [bind_run, Parser.expect_run]
  by_cases found : r.advanced.current.kind = kind
  · rw [if_pos found]
    exact (next found).of_advanced
  · rw [if_neg found]
    exact refuse _ _

/-- What follows a semicolon, or the lack of one. -/
theorem skipSemicolon
    (taken : r.advanced.current.kind = .semicolon → r.advanced.Leads post (f () r.advanced))
    (other : r.advanced.current.kind ≠ .semicolon → r.Leads post (f () r)) :
    r.Leads post ((Parser.skipSemicolon >>= f) r) := by
  rw [bind_run, Parser.skipSemicolon_run]
  by_cases found : r.advanced.current.kind = .semicolon
  · rw [if_pos found]
    exact (taken found).of_advanced
  · rw [if_neg found]
    exact other found

/-- A rule that is tried has a result or makes a report. -/
theorem attempt {rule : Parser α} {mid : α → Reader → Prop} (h : r.Leads mid (rule r)) :
    r.Leads (fun a? r' => ∃ a, a? = some a ∧ mid a r') (Parser.attempt rule r) := by
  rw [Parser.attempt]
  cases ran : rule r with
  | ok a r' =>
      rw [ran] at h
      exact ⟨h.1, fun quiet => ⟨a, rfl, h.2 quiet⟩⟩
  | error e r' =>
      rw [ran] at h
      obtain ⟨on, rfl, more⟩ := h
      exact ⟨on, fun quiet => absurd quiet (Nat.ne_of_gt more)⟩

end Leads

end Reader

open Precedence (leftNeed rightNeed)

/-! ### Needs -/

/-- What binds no tighter than the loosest operators does not continue an expression. -/
theorem TokenKind.continues_eq_false {kind : TokenKind}
    (loose : (Precedence.ofKind kind).level ≤ Precedence.lowest.level) :
    kind.continues = false := by
  cases kind <;> first | rfl | exact absurd loose (by decide)

/-- What closes a statement closes it in front of fewer tokens. -/
theorem Closes.of_append {closing behind rest : List Token}
    (closed : Closes closing (behind ++ rest)) : Closes closing behind := by
  refine closed.imp_right fun ⟨bare, apart⟩ => ⟨bare, fun token first => apart token ?_⟩
  rw [List.head?_append, first]
  rfl

/-- So does what stands between a statement and the tokens behind it. -/
theorem Statement.ClosedBy.of_append {s : Statement} {closing behind rest : List Token}
    (closed : s.ClosedBy closing (behind ++ rest)) : s.ClosedBy closing behind := by
  cases s with
  | block _ => exact closed
  | binding _ _ _ | returning _ _ | expression _ _ => exact Closes.of_append closed

/-- An expression that binds as tightly as is needed does so where less is needed. -/
theorem Form.Yields.mono {need need' : Nat} {e : Expr} {ts : List Token}
    (h : (Form.expression need e).Yields ts) (le : need' ≤ need) :
    (Form.expression need' e).Yields ts := by
  cases h with
  | ofBare tight bare => exact .ofBare (Nat.le_trans le tight) bare
  | grouped opening closing inner => exact .grouped opening closing inner

namespace Precedence

/-- What binds at all, an opening parenthesis apart, is an infix operator. -/
theorem isInfix_of_tighter {least : Precedence} {kind : TokenKind}
    (tighter : least.level < (ofKind kind).level) (other : kind ≠ .leftParen) :
    kind.isInfix = true := by
  cases kind <;> first | rfl | exact absurd rfl other | exact absurd tighter (Nat.not_lt_zero _)

/-- A right operand has to bind tighter than what ends it. -/
theorem rightNeed_eq {operator : TokenKind} :
    rightNeed operator = (onRight operator).level + 1 := by
  rw [rightNeed, onRight]
  split <;> rfl

/-- Nothing binds tighter than a call. -/
theorem level_le_call (p : Precedence) : p.level ≤ call.level := by
  cases p <;> decide

/-- The left operand of an operator may always be a call. -/
theorem leftNeed_le_call (kind : TokenKind) : leftNeed kind ≤ call.level := by
  rw [leftNeed]
  split
  · decide
  · cases kind <;> decide

/-- The right operand of an operator may always be a call. -/
theorem onRight_lt_call {operator : TokenKind} (other : operator ≠ .leftParen) :
    (onRight operator).level < call.level := by
  rw [onRight]
  split
  · decide
  · cases operator <;> first | decide | exact absurd rfl other

/-- Where an operator ends the right operand of another, the other can be its left operand. -/
theorem leftNeed_le {operator next : TokenKind} (joins : operator.isInfix = true)
    (loose : (ofKind next).level ≤ (onRight operator).level) :
    leftNeed next ≤ (ofKind operator).level := by
  rw [leftNeed]
  split
  · next pow =>
      subst pow
      cases operator <;> first | exact absurd loose (by decide) | cases joins
  · refine Nat.le_trans loose ?_
    rw [onRight]
    split
    · next pow =>
        subst pow
        decide
    · exact Nat.le_refl _

end Precedence

namespace Reader

variable {r r' : Reader} {budget : Nat}

/-- The current token stands first among those left, unless they are at an end. -/
theorem tokens_of_kind {kind : TokenKind} (h : r.current.kind = kind) (real : kind ≠ .eof) :
    r.tokens = r.current :: r.advanced.tokens :=
  r.tokens_of_current (h ▸ real)

/-- The first of the tokens left is the current one. -/
theorem current_of_head? {token : Token} (h : r.tokens.head? = some token) :
    r.current = token := by
  rw [current, h]
  rfl

/-- One token on there is one token less. -/
theorem length_advanced (r : Reader) : r.advanced.tokens.length = r.tokens.length - 1 :=
  List.length_tail

/-- Where the tokens are not at an end, there is one more of them than a token on. -/
theorem length_of_current (h : r.current.kind ≠ .eof) :
    r.tokens.length = r.advanced.tokens.length + 1 := by
  rw [r.tokens_of_current h]
  rfl

/-- The tokens from the current one on are those of a form, up to the current one of the later
reader. -/
def Reads (r : Reader) (form : Form) (r' : Reader) : Prop :=
  ∃ ts, r.tokens = ts ++ r'.advanced.tokens ∧ form.Yields ts

/-- The tokens behind the current one are those of a form, up to a closing parenthesis. -/
def ReadsEnclosed (r : Reader) (form : Form) (r' : Reader) : Prop :=
  ∃ ts closing, r.advanced.tokens = ts ++ closing :: r'.advanced.tokens ∧
    closing.kind = .rightParen ∧ form.Yields ts

/-- The tokens behind the current one continue an expression to a longer one, as far as what
follows binds tighter than `least`. -/
def Extends (r : Reader) (least : Precedence) (left e : Expr) (r' : Reader) : Prop :=
  ∀ ts, (Form.expression (least.level + 1) left).Yields ts →
    (Form.expression (leftNeed r.advanced.current.kind) left).Yields ts →
    ∃ us, r.advanced.tokens = us ++ r'.advanced.tokens ∧
      (Form.expression (least.level + 1) e).Yields (ts ++ us) ∧
      (Precedence.ofKind r'.advanced.current.kind).level ≤ least.level

end Reader

open Reader

/-- What each **rule** does with a budget that suffices for the tokens left. Statements, a
statement, an expression and its operand can be entered one inside the other before the reader moves
on, so a token has to pay for four rules, and each rule of such a row has one less to spare. -/
structure Rules (budget : Nat) : Prop where
  expression : ∀ (r : Reader) (least : Precedence), least.level < Precedence.call.level →
    4 * r.tokens.length + 2 ≤ budget →
    r.Leads (fun e r' => r.Reads (.expression (least.level + 1) e) r' ∧
      (Precedence.ofKind r'.advanced.current.kind).level ≤ least.level)
      (Parser.expression budget least r)
  operators : ∀ (r : Reader) (least : Precedence) (left : Expr),
    least.level < Precedence.call.level → 4 * r.tokens.length + 1 ≤ budget →
    r.Leads (r.Extends least left) (Parser.operators budget least left r)
  operand : ∀ r : Reader, 4 * r.tokens.length + 1 ≤ budget →
    r.Leads (fun e r' => r.Reads (.expression Precedence.call.level e) r')
      (Parser.operand budget r)
  arguments : ∀ r : Reader, 4 * r.tokens.length + 3 ≤ budget →
    r.Leads (fun es r' => r.ReadsEnclosed (.arguments es) r') (Parser.arguments budget r)
  moreArguments : ∀ (r : Reader) (read : List Expr), 4 * r.tokens.length + 1 ≤ budget →
    r.Leads (fun es r' => ∃ more, es = read.reverse ++ more ∧
      r.ReadsEnclosed (.moreArguments more) r') (Parser.moreArguments budget read r)
  block : ∀ r : Reader, r.current.kind = .leftBrace → 4 * r.tokens.length + 1 ≤ budget →
    r.Leads (fun b r' => r.Reads (.block b) r') (Parser.block budget r)
  statement : ∀ r : Reader, 4 * r.tokens.length + 3 ≤ budget →
    r.Leads (fun s r' => ∃ ts closing, r.tokens = ts ++ (closing ++ r'.advanced.tokens) ∧
      (Form.statement s).Yields ts ∧ s.ClosedBy closing r'.advanced.tokens)
      (Parser.statement budget r)
  statements : ∀ (r : Reader) (inBlock : Bool) (read : List Statement),
    4 * r.tokens.length + 4 ≤ budget →
    r.Leads (fun p r' => ∃ more ts, p = read.reverse ++ more ∧ r.tokens = ts ++ r'.tokens ∧
      (Form.statements more).Yields ts ∧
      (r'.current.kind = .eof ∨ inBlock = true ∧ r'.current.kind = .rightBrace))
      (Parser.statements budget inBlock read r)

namespace Rules

variable {budget : Nat} {r : Reader}

/-- An expression is read with its operators, as long as these bind tighter than `least`. -/
theorem expression_succ (rules : Rules budget) {least : Precedence}
    (below : least.level < Precedence.call.level) (enough : 4 * r.tokens.length + 2 ≤ budget + 1) :
    r.Leads (fun e r' => r.Reads (.expression (least.level + 1) e) r' ∧
      (Precedence.ofKind r'.advanced.current.kind).level ≤ least.level)
      (Parser.expression (budget + 1) least r) := by
  rw [Parser.expression]
  refine .bind (rules.operand r (by omega)) fun left r₁ on => ?_
  have le := on.length_le
  refine (rules.operators r₁ least left below (by omega)).imp fun e r' continues reads => ?_
  obtain ⟨ts, tokens, yields⟩ := reads
  obtain ⟨us, more, longer, loose⟩ := continues ts (yields.mono below)
    (yields.mono (Precedence.leftNeed_le_call _))
  exact ⟨⟨ts ++ us, by rw [tokens, more, List.append_assoc], longer⟩, loose⟩

/-- The operators behind an expression are read one by one, each with its right operand. -/
theorem operators_succ (rules : Rules budget) {least : Precedence} {left : Expr}
    (below : least.level < Precedence.call.level) (enough : 4 * r.tokens.length + 1 ≤ budget + 1) :
    r.Leads (r.Extends least left) (Parser.operators (budget + 1) least left r) := by
  rw [Parser.operators, Parser.upcoming_bind]
  split
  · next tighter =>
      have real : r.advanced.current.kind ≠ .eof := by
        intro ended
        rw [ended] at tighter
        exact Nat.not_lt_zero _ tighter
      have length := r.length_advanced
      have length' := length_of_current real
      refine .advance ?_
      split
      · next opening =>
          split
          · next callable =>
              refine .bind (rules.arguments r.advanced (by omega)) fun given r₁ on => ?_
              have le := on.length_le
              refine (rules.operators r₁ least _ below (by omega)).imp ?_
              intro e r' grows enclosed ts needed _
              obtain ⟨us, closing, tokens, kind, arguments⟩ := enclosed
              have called := Form.Yields.call callable opening kind (needed.mono (Nat.zero_le _))
                arguments
              obtain ⟨vs, more, longer, loose⟩ := grows _ (.ofBare below called)
                (.ofBare (Precedence.leftNeed_le_call _) called)
              refine ⟨r.advanced.current :: (us ++ closing :: vs), ?_, ?_, loose⟩
              · rw [r.advanced.tokens_of_current real, tokens, more]
                simp
              · simpa using longer
          · exact .refuse _ _
      · next other =>
          have joins := Precedence.isInfix_of_tighter tighter other
          -- What was read before becomes the left operand, so it meets the need of this operator.
          refine .advance ?_
          refine .bind (rules.expression r.advanced.advanced _ (Precedence.onRight_lt_call other)
            (by omega)) fun right r₁ on => ?_
          have le := on.length_le
          refine (rules.operators r₁ least _ below (by omega)).imp ?_
          intro e r' grows reads ts _ prior
          obtain ⟨⟨us, tokens, yields⟩, loose⟩ := reads
          rw [← Precedence.rightNeed_eq] at yields
          have joined := Form.Yields.binary joins prior yields
          -- The right operand ended before the next operator, which can go on with the whole.
          obtain ⟨vs, more, longer, ends⟩ := grows _ (.ofBare tighter joined)
            (.ofBare (Precedence.leftNeed_le joins loose) joined)
          refine ⟨r.advanced.current :: (us ++ vs), ?_, ?_, ends⟩
          · rw [r.advanced.tokens_of_current real, tokens, more]
            simp
          · simpa using longer
  · next loose =>
      refine .pure fun ts needed _ => ⟨[], rfl, ?_, Nat.le_of_not_lt loose⟩
      rw [List.append_nil]
      exact needed

/-- Arguments are read up to the closing parenthesis. -/
theorem arguments_succ (rules : Rules budget) (enough : 4 * r.tokens.length + 3 ≤ budget + 1) :
    r.Leads (fun es r' => r.ReadsEnclosed (.arguments es) r')
      (Parser.arguments (budget + 1) r) := by
  have length := r.length_advanced
  rw [Parser.arguments, Parser.upcoming_bind]
  split
  · next closing =>
      exact .advance (.pure ⟨[], _, tokens_of_kind closing nofun, closing, .noArguments⟩)
  · refine .advance ?_
    refine .bind (rules.expression r.advanced .lowest (by decide) (by omega)) fun e r₁ on => ?_
    have le := on.length_le
    refine (rules.moreArguments r₁ [e] (by omega)).imp ?_
    rintro _ r' ⟨es, rfl, us, closing, more, kind, rest⟩ ⟨⟨ts, tokens, first⟩, -⟩
    refine ⟨ts ++ us, closing, ?_, kind, .firstArgument (first.mono (Nat.zero_le _)) rest⟩
    rw [tokens, more, List.append_assoc]

/-- The arguments behind others are read up to there, each behind its comma. -/
theorem moreArguments_succ (rules : Rules budget) {read : List Expr}
    (enough : 4 * r.tokens.length + 1 ≤ budget + 1) :
    r.Leads (fun es r' => ∃ more, es = read.reverse ++ more ∧
      r.ReadsEnclosed (.moreArguments more) r') (Parser.moreArguments (budget + 1) read r) := by
  rw [Parser.moreArguments, Parser.upcoming_bind]
  split
  · next comma =>
      have real : r.advanced.current.kind ≠ .eof := by rw [comma]; decide
      have length := r.length_advanced
      have length' := length_of_current real
      refine .advance (.advance ?_)
      refine .bind (rules.expression r.advanced.advanced .lowest (by decide) (by omega))
        fun e r₁ on => ?_
      have le := on.length_le
      refine (rules.moreArguments r₁ (e :: read) (by omega)).imp ?_
      rintro _ r' ⟨es, rfl, us, closing, more, kind, rest⟩ ⟨⟨ts, tokens, next⟩, -⟩
      refine ⟨e :: es, by simp, r.advanced.current :: (ts ++ us), closing, ?_, kind,
        .nextArgument comma (next.mono (Nat.zero_le _)) rest⟩
      rw [r.advanced.tokens_of_current real, tokens, more]
      simp
  · refine .expect fun closing => .pure ⟨[], (List.append_nil _).symm, ?_⟩
    exact ⟨[], _, tokens_of_kind closing nofun, closing, .lastArgument⟩

end Rules

/-- The parameters behind others are read up to the closing parenthesis, each behind its comma. -/
theorem Parser.leads_moreParameters {budget : Nat} {r : Reader} {read : List Name}
    (enough : r.tokens.length + 1 ≤ budget) :
    r.Leads (fun names r' => ∃ more, names = read.reverse ++ more ∧
      r.ReadsEnclosed (.moreParameters more) r') (Parser.moreParameters budget read r) := by
  induction budget generalizing r read with
  | zero => exact absurd enough (Nat.not_succ_le_zero _)
  | succ budget ih =>
      rw [Parser.moreParameters, Parser.upcoming_bind]
      split
      · next comma =>
          refine .advance (.expect fun ident => ?_)
          rw [Parser.name_bind]
          have length := r.length_advanced
          have length' := length_of_current (r := r.advanced) (by rw [comma]; decide)
          refine (ih (by omega)).imp ?_
          rintro _ r' ⟨names, rfl, ts, closing, more, kind, rest⟩
          refine ⟨_ :: names, by rw [List.reverse_cons, List.append_assoc]; rfl,
            r.advanced.current :: r.advanced.advanced.current :: ts, closing, ?_, kind,
            .nextParameter comma ident rest⟩
          rw [tokens_of_kind comma nofun, tokens_of_kind ident nofun, more]
          rfl
      · refine .expect fun closing => .pure ⟨[], (List.append_nil _).symm, ?_⟩
        exact ⟨[], _, tokens_of_kind closing nofun, closing, .lastParameter⟩

/-- Parameters are read up to the closing parenthesis. -/
theorem Parser.leads_parameters {budget : Nat} {r : Reader} (enough : r.tokens.length ≤ budget) :
    r.Leads (fun names r' => r.ReadsEnclosed (.parameters names) r')
      (Parser.parameters budget r) := by
  rw [Parser.parameters, Parser.upcoming_bind]
  split
  · next closing =>
      exact .advance (.pure ⟨[], _, tokens_of_kind closing nofun, closing, .noParameters⟩)
  · refine .expect fun ident => ?_
    rw [Parser.name_bind]
    have length := r.length_advanced
    have length' := length_of_current (r := r.advanced) (by rw [ident]; decide)
    refine (Parser.leads_moreParameters (by omega)).imp ?_
    rintro _ r' ⟨names, rfl, ts, closing, more, kind, rest⟩
    refine ⟨r.advanced.current :: ts, closing, ?_, kind, .firstParameter ident rest⟩
    rw [tokens_of_kind ident nofun, more]
    rfl

namespace Rules

variable {budget : Nat} {r : Reader}

/-- A block is read up to its closing brace. -/
theorem block_succ (rules : Rules budget) (opening : r.current.kind = .leftBrace)
    (enough : 4 * r.tokens.length + 1 ≤ budget + 1) :
    r.Leads (fun b r' => r.Reads (.block b) r') (Parser.block (budget + 1) r) := by
  rw [Parser.block, Parser.current_bind]
  have length := length_of_current (r := r) (by rw [opening]; decide)
  refine .advance (.bind (rules.statements r.advanced true [] (by omega)) fun p r₁ on => ?_)
  rw [Parser.current_bind]
  split
  · next ended =>
      exact ⟨.reported r₁ _, fun quiet => absurd quiet (by simp)⟩
  · next inside =>
      refine .pure ?_
      rintro ⟨_, ts, rfl, tokens, yields, ended | ⟨-, closing⟩⟩
      · exact absurd ended inside
      · refine ⟨r.current :: (ts ++ [r₁.current]), ?_, .block opening closing yields⟩
        rw [tokens_of_kind opening nofun, tokens, tokens_of_kind closing nofun]
        simp

/-- The single token of an operand. -/
theorem reads_of_bare {e : Expr} {kind : TokenKind} (same : r.current.kind = kind)
    (real : kind ≠ .eof) (tight : Precedence.call.level ≤ e.strength)
    (yields : (Form.bare e).Yields [r.current]) :
    r.Reads (.expression Precedence.call.level e) r :=
  ⟨[r.current], tokens_of_kind same real, .ofBare tight yields⟩

/-- An integer in range is read as its value. -/
theorem leads_integer (same : r.current.kind = .int) :
    r.Leads (fun e r' => r.Reads (.expression Precedence.call.level e) r') (Parser.integer r) := by
  rw [Parser.integer, Parser.current_bind]
  cases known : integer64? (Binary64.digitsValue r.current.literal.toList) with
  | none => exact .refuse _ _
  | some value => exact .pure (reads_of_bare same nofun (Nat.le_refl _) (.integer same known))

/-- A float is read as its value. -/
theorem leads_float (same : r.current.kind = .float) :
    r.Leads (fun e r' => r.Reads (.expression Precedence.call.level e) r') (Parser.float r) := by
  rw [Parser.float, Parser.current_bind]
  cases known : Binary64.ofDigits? false r.current.literal.toList with
  | none => exact .refuse _ _
  | some value => exact .pure (reads_of_bare same nofun (Nat.le_refl _) (.float same known))

/-- A unary operator is read with the operand behind it. -/
theorem leads_unary (rules : Rules budget) (same : r.current.kind = .bang ∨ r.current.kind = .minus)
    (enough : 4 * r.tokens.length ≤ budget) :
    r.Leads (fun e r' => r.Reads (.expression Precedence.call.level e) r')
      ((do
        Parser.advance
        let right ← Parser.expression budget .unary
        return .unary r.current r.current.literal right : Parser Expr) r) := by
  have real : r.current.kind ≠ .eof := by rcases same with same | same <;> rw [same] <;> decide
  have length := length_of_current real
  refine .advance (.bind (rules.expression r.advanced .unary (by decide) (by omega)) ?_)
  intro right r₁ _
  refine .pure ?_
  rintro ⟨⟨ts, tokens, yields⟩, -⟩
  refine ⟨r.current :: ts, ?_, .ofBare (Nat.le_refl _) (.unary same (yields.mono (by decide)))⟩
  rw [r.tokens_of_current real, tokens]
  rfl

/-- An expression in parentheses is read as itself. -/
theorem leads_grouped (rules : Rules budget) (same : r.current.kind = .leftParen)
    (enough : 4 * r.tokens.length ≤ budget) :
    r.Leads (fun e r' => r.Reads (.expression Precedence.call.level e) r')
      ((do
        Parser.advance
        let inner ← Parser.expression budget .lowest
        Parser.expect .rightParen
        return inner : Parser Expr) r) := by
  have length := length_of_current (r := r) (by rw [same]; decide)
  refine .advance (.bind (rules.expression r.advanced .lowest (by decide) (by omega)) ?_)
  intro inner r₁ _
  refine .expect fun closing => .pure ?_
  rintro ⟨⟨ts, tokens, yields⟩, -⟩
  refine ⟨r.current :: (ts ++ [r₁.advanced.current]), ?_,
    .grouped same closing (yields.mono (Nat.zero_le _))⟩
  rw [tokens_of_kind same nofun, tokens, tokens_of_kind closing nofun]
  simp

/-- A conditional is read with its condition, and with one branch or two. -/
theorem leads_conditional (rules : Rules budget) (same : r.current.kind = .ifWord)
    (enough : 4 * r.tokens.length ≤ budget) :
    r.Leads (fun e r' => r.Reads (.expression Precedence.call.level e) r')
      ((do
        Parser.expect .leftParen
        Parser.advance
        let condition ← Parser.expression budget .lowest
        Parser.expect .rightParen
        Parser.expect .leftBrace
        let consequence ← Parser.block budget
        if (← Parser.upcoming).kind = .elseWord then
          Parser.advance
          Parser.expect .leftBrace
          let alternative ← Parser.block budget
          return .conditional r.current condition consequence (some alternative)
        else return .conditional r.current condition consequence none : Parser Expr) r) := by
  have length := length_of_current (r := r) (by rw [same]; decide)
  refine .expect fun opening => ?_
  have length₁ := length_of_current (r := r.advanced) (by rw [opening]; decide)
  refine .advance (.bind (rules.expression r.advanced.advanced .lowest (by decide) (by omega)) ?_)
  intro condition r₁ on
  have le := on.length_le
  refine .expect fun closing => .expect fun brace => ?_
  have lengthBlock := r₁.length_advanced
  have lengthBlock' := r₁.advanced.length_advanced
  refine .bind (rules.block r₁.advanced.advanced brace (by omega)) fun consequence r₂ on₂ => ?_
  have le₂ := on₂.length_le
  rw [Parser.upcoming_bind]
  split
  · next otherwise =>
      refine .advance (.expect fun brace' => ?_)
      have lengthLast := r₂.length_advanced
      have lengthLast' := r₂.advanced.length_advanced
      refine .bind (rules.block r₂.advanced.advanced brace' (by omega)) fun alternative r₃ _ => ?_
      refine .pure ?_
      rintro ⟨vs, tokens₃, last⟩ ⟨us, tokens₂, block⟩ ⟨⟨ts, tokens₁, first⟩, -⟩
      refine ⟨_, ?_, .ofBare (Nat.le_refl _)
        (.alternative same opening closing otherwise (first.mono (Nat.zero_le _)) block last)⟩
      rw [tokens_of_kind same nofun, tokens_of_kind opening nofun, tokens₁,
        tokens_of_kind closing nofun, tokens₂, tokens_of_kind otherwise nofun, tokens₃]
      simp
  · refine .pure ?_
    rintro ⟨us, tokens₂, block⟩ ⟨⟨ts, tokens₁, first⟩, -⟩
    refine ⟨_, ?_, .ofBare (Nat.le_refl _)
      (.conditional same opening closing (first.mono (Nat.zero_le _)) block)⟩
    rw [tokens_of_kind same nofun, tokens_of_kind opening nofun, tokens₁,
      tokens_of_kind closing nofun, tokens₂]
    simp

/-- A function is read with its parameters and its body. -/
theorem leads_function (rules : Rules budget) (same : r.current.kind = .fnWord)
    (enough : 4 * r.tokens.length ≤ budget) :
    r.Leads (fun e r' => r.Reads (.expression Precedence.call.level e) r')
      ((do
        Parser.expect .leftParen
        let parameters ← Parser.parameters budget
        Parser.expect .leftBrace
        let body ← Parser.block budget
        return .function r.current parameters body : Parser Expr) r) := by
  have length := length_of_current (r := r) (by rw [same]; decide)
  refine .expect fun opening => ?_
  refine .bind (Parser.leads_parameters (by omega)) fun parameters r₁ on => ?_
  have le := on.length_le
  refine .expect fun brace => ?_
  have lengthBlock := r₁.length_advanced
  refine .bind (rules.block r₁.advanced brace (by omega)) fun body r₂ _ => ?_
  refine .pure ?_
  rintro ⟨us, tokens₂, block⟩ ⟨ts, closing, tokens₁, kind, names⟩
  refine ⟨_, ?_, .ofBare (Nat.le_refl _) (.function same opening kind names block)⟩
  rw [tokens_of_kind same nofun, tokens_of_kind opening nofun, tokens₁, tokens₂]
  simp

/-- An operand is read by the kind of its first token. -/
theorem operand_succ (rules : Rules budget) (enough : 4 * r.tokens.length + 1 ≤ budget + 1) :
    r.Leads (fun e r' => r.Reads (.expression Precedence.call.level e) r')
      (Parser.operand (budget + 1) r) := by
  have enough : 4 * r.tokens.length ≤ budget := by omega
  rw [Parser.operand, Parser.current_bind]
  generalize same : r.current.kind = kind
  split
  · rw [Parser.name_bind]
    exact .pure (reads_of_bare same nofun (Nat.le_refl _) (.name same))
  · exact leads_integer same
  · exact leads_float same
  · exact .pure (reads_of_bare same nofun (Nat.le_refl _) (.string same))
  · exact .pure (reads_of_bare same nofun (Nat.le_refl _) (.trueWord same))
  · exact .pure (reads_of_bare same nofun (Nat.le_refl _) (.falseWord same))
  · exact rules.leads_unary (.inl same) enough
  · exact rules.leads_unary (.inr same) enough
  · exact rules.leads_grouped same enough
  · exact rules.leads_conditional same enough
  · exact rules.leads_function same enough
  · exact .refuse _ _
  · exact .refuse _ _

/-- An expression and the semicolon behind it, if there is one. -/
theorem closed (rules : Rules budget) {make : Expr → Statement}
    (enough : 4 * r.tokens.length + 2 ≤ budget) :
    r.Leads (fun s r' => ∃ e ts closing, s = make e ∧
      r.tokens = ts ++ (closing ++ r'.advanced.tokens) ∧ (Form.expression 0 e).Yields ts ∧
      Closes closing r'.advanced.tokens)
      ((do
        let value ← Parser.expression budget .lowest
        Parser.skipSemicolon
        return make value : Parser Statement) r) := by
  refine .bind (rules.expression r .lowest (by decide) enough) fun e r₁ on => ?_
  refine .skipSemicolon (fun semicolon => .pure ?_) (fun _ => .pure ?_)
  · rintro ⟨⟨ts, tokens, yields⟩, -⟩
    refine ⟨e, ts, [r₁.advanced.current], rfl, ?_, yields.mono (Nat.zero_le _),
      .inl ⟨_, semicolon, rfl⟩⟩
    rw [tokens, tokens_of_kind semicolon nofun]
    rfl
  · rintro ⟨⟨ts, tokens, yields⟩, loose⟩
    refine ⟨e, ts, [], rfl, tokens, yields.mono (Nat.zero_le _), .inr ⟨rfl, fun token first => ?_⟩⟩
    rw [current_of_head? first] at loose
    exact TokenKind.continues_eq_false loose

/-- A statement is read with the semicolon that closes it. -/
theorem statement_succ (rules : Rules budget) (enough : 4 * r.tokens.length + 3 ≤ budget + 1) :
    r.Leads (fun s r' => ∃ ts closing, r.tokens = ts ++ (closing ++ r'.advanced.tokens) ∧
      (Form.statement s).Yields ts ∧ s.ClosedBy closing r'.advanced.tokens)
      (Parser.statement (budget + 1) r) := by
  have length := r.length_advanced
  rw [Parser.statement, Parser.current_bind]
  generalize same : r.current.kind = kind
  split
  · next word =>
      refine .expect fun ident => ?_
      rw [Parser.name_bind]
      refine .expect fun assign => .advance ?_
      have length₁ := r.advanced.length_advanced
      have length₂ := r.advanced.advanced.length_advanced
      refine (rules.closed (by omega)).imp ?_
      rintro _ r' ⟨e, ts, closing, rfl, tokens, yields, closes⟩
      refine ⟨_, closing, ?_, .binding same ident assign yields, closes⟩
      rw [tokens_of_kind same nofun, tokens_of_kind ident nofun, tokens_of_kind assign nofun,
        tokens]
      rfl
  · next word =>
      refine .advance ((rules.closed (by omega)).imp ?_)
      rintro _ r' ⟨e, ts, closing, rfl, tokens, yields, closes⟩
      refine ⟨_, closing, ?_, .returning same yields, closes⟩
      rw [tokens_of_kind same nofun, tokens]
      rfl
  · next opening =>
      refine .bind (rules.block r same (by omega)) fun b r₁ _ => ?_
      exact .pure fun ⟨ts, tokens, yields⟩ => ⟨ts, [], tokens, .blockStatement yields, rfl⟩
  · refine (rules.closed (by omega)).imp ?_
    rintro _ r' ⟨e, ts, closing, rfl, tokens, yields, closes⟩
    obtain ⟨token, rest, rfl, -⟩ := yields.opens
    have first : r.current = token := by
      rw [current, tokens]
      rfl
    refine ⟨_, closing, tokens, ?_, closes⟩
    rw [first]
    exact .expressionStatement yields

/-- Statements are read to the end of the text or of their block. -/
theorem statements_succ (rules : Rules budget) {inBlock : Bool} {read : List Statement}
    (enough : 4 * r.tokens.length + 4 ≤ budget + 1) :
    r.Leads (fun p r' => ∃ more ts, p = read.reverse ++ more ∧ r.tokens = ts ++ r'.tokens ∧
      (Form.statements more).Yields ts ∧
      (r'.current.kind = .eof ∨ inBlock = true ∧ r'.current.kind = .rightBrace))
      (Parser.statements (budget + 1) inBlock read r) := by
  rw [Parser.statements, Parser.current_bind]
  split
  · next ended =>
      refine .pure ⟨[], [], (List.append_nil _).symm, rfl, .noStatements, ?_⟩
      simpa using ended
  · next inside =>
      have real : r.current.kind ≠ .eof := fun ended => inside (by simp [ended])
      have length := length_of_current real
      refine .bind (.attempt (rules.statement r (by omega))) fun s? r₁ on => .advance ?_
      have le := on.length_le
      have length₁ := r₁.length_advanced
      refine (rules.statements r₁.advanced inBlock _ (by omega)).imp ?_
      rintro _ r' ⟨more, us, rfl, rest, later, ends⟩ ⟨s, rfl, ts, closing, tokens, first, closed⟩
      rw [rest] at tokens closed
      refine ⟨s :: more, ts ++ (closing ++ us), by simp, ?_,
        .nextStatement first closed.of_append later, ends⟩
      rw [tokens]
      simp only [List.append_assoc]

end Rules

/-- **The rules**, at every budget. -/
theorem Rules.all (budget : Nat) : Rules budget := by
  induction budget with
  | zero => constructor <;> intros <;> omega
  | succ budget ih =>
      exact ⟨fun _ _ => ih.expression_succ, fun _ _ _ => ih.operators_succ,
        fun _ => ih.operand_succ, fun _ => ih.arguments_succ, fun _ _ => ih.moreArguments_succ,
        fun _ => ih.block_succ, fun _ => ih.statement_succ, fun _ _ _ => ih.statements_succ⟩

end StackScript
