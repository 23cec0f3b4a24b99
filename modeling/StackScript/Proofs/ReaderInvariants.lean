import StackScript.Proofs.Reading

/-!
# What the Rules of the Reader Preserve

The rules of the reader move on by one token at a time, read the current token, and make reports on
the current or on the upcoming one. What all of these preserve, every rule preserves, whatever the
tokens are and however the rule ends: the induction over the rules is done here, once.

A property of readers may change as a token is read. So there are three of them in an invariant:
one that holds while the current token is still ahead, one that holds when it is behind, and one
that holds where a rule has given up and left the rest to the next statement.

## Main definitions

* `Reader.reported`: a reader with one more report.
* `Parser.Invariant`: **what the steps of a reader preserve**.
* `Parser.Invariant.Keeps`, `Kept`: how a rule ends, and how all of them do.

## Main results

* `Parser.Invariant.kept`: **the rules preserve what their steps do**.
* `Parser.Invariant.statements_ok`: statements are read up to the end of the text.
-/

namespace StackScript

/-- The reader with one more report. -/
def Reader.reported (r : Reader) (fault : ParseFault) (position : Position) : Reader :=
  { r with errors := r.errors.push ⟨fault, position⟩ }

/-- An **invariant** of reading. An integer is the one kind of token that can be refused for what it
is, so it is read by a condition of its own; every other token is just read. -/
structure Parser.Invariant where
  /-- What is true while the current token is still to be read. -/
  ahead : Reader → Prop
  /-- What is true when it has been read. -/
  behind : Reader → Prop
  /-- What is true where a rule gave up. -/
  gaveUp : Reader → Prop
  move : ∀ r, behind r → ahead r.advanced
  read : ∀ r, r.current.kind ≠ .int → ahead r → behind r
  readInteger : ∀ r value, r.current.kind = .int →
    integer64? (Binary64.digitsValue r.current.literal.toList) = some value → ahead r → behind r
  unclosed : ∀ r, r.current.kind = .eof → behind r →
    behind (r.reported .unclosedBlock r.current.position)
  refuse : ∀ r fault, behind r → gaveUp (r.reported fault r.current.position)
  refuseInteger : ∀ r, r.current.kind = .int →
    integer64? (Binary64.digitsValue r.current.literal.toList) = none → ahead r →
    gaveUp (r.reported (.badInteger r.current.literal) r.current.position)
  miss : ∀ r fault, behind r → gaveUp (r.reported fault r.upcoming.position)
  resume : ∀ r, gaveUp r → ahead r.advanced

namespace Parser.Invariant

variable {inv : Parser.Invariant} {α β : Type} {r : Reader} {budget : Nat}

/-- Where a rule ends, the current token has been read, or the rule has given up; unless its budget
ran out. -/
def Keeps {α : Type} (inv : Parser.Invariant) : EStateM.Result ParseStop Reader α → Prop :=
  Ends (fun _ r => inv.behind r) fun e r => e = .starved ∨ inv.gaveUp r

namespace Keeps

variable {f : Unit → Parser β} {kind : TokenKind}

/-- To yield a value keeps to an invariant, where the current token has been read. -/
theorem pure {b : β} (behind : inv.behind r) : inv.Keeps ((pure b : Parser β) r) :=
  behind

/-- Rules in sequence keep to an invariant if each does from where the one before it ended. -/
theorem bind {x : Parser α} {g : α → Parser β} (first : inv.Keeps (x r))
    (next : ∀ a r', inv.behind r' → inv.Keeps (g a r')) : inv.Keeps ((x >>= g) r) := by
  rw [bind_run]
  cases ran : x r with
  | ok a r' =>
      rw [ran] at first
      exact next a r' first
  | error e r' =>
      rw [ran] at first
      exact first

/-- To run out of budget keeps to any invariant. -/
theorem starve : inv.Keeps ((throw .starved : Parser β) r) :=
  .inl rfl

/-- To give up at a token that has been read keeps to an invariant, with the report that is made. -/
theorem refuse (behind : inv.behind r) (fault : ParseFault) :
    inv.Keeps ((Parser.refuse fault r.current.position : Parser β) r) :=
  .inr (inv.refuse r fault behind)

/-- What is behind a token is read on from there. -/
theorem advance (next : inv.Keeps (f () r.advanced)) : inv.Keeps ((Parser.advance >>= f) r) :=
  next

/-- No rule expects an integer. -/
theorem expect (behind : inv.behind r) (other : kind ≠ .int)
    (next : inv.behind r.advanced → inv.Keeps (f () r.advanced)) :
    inv.Keeps ((Parser.expect kind >>= f) r) := by
  rw [bind_run, Parser.expect_run]
  by_cases found : r.advanced.current.kind = kind
  · rw [if_pos found]
    exact next (inv.read r.advanced (found ▸ other) (inv.move r behind))
  · rw [if_neg found]
    exact .inr (inv.miss r _ behind)

/-- A semicolon may be passed over. -/
theorem skipSemicolon (behind : inv.behind r) {b : β} :
    inv.Keeps ((do Parser.skipSemicolon; return b : Parser β) r) := by
  rw [bind_run, Parser.skipSemicolon_run]
  by_cases found : r.advanced.current.kind = .semicolon
  · rw [if_pos found]
    exact inv.read r.advanced (by rw [found]; decide) (inv.move r behind)
  · rw [if_neg found]
    exact behind

end Keeps

/-- The upcoming token is read as the reader moves on to it. -/
theorem behind_advanced {kind : TokenKind} (behind : inv.behind r)
    (found : r.advanced.current.kind = kind) (other : kind ≠ .int) : inv.behind r.advanced :=
  inv.read r.advanced (found ▸ other) (inv.move r behind)

/-- What each rule does at a budget. A rule that starts at the current token reads it; the others
start behind it. -/
structure Kept (inv : Parser.Invariant) (budget : Nat) : Prop where
  expression : ∀ (r : Reader) (least : Precedence), inv.ahead r →
    inv.Keeps (Parser.expression budget least r)
  operators : ∀ (r : Reader) (least : Precedence) (left : Expr), inv.behind r →
    inv.Keeps (Parser.operators budget least left r)
  operand : ∀ r : Reader, inv.ahead r → inv.Keeps (Parser.operand budget r)
  arguments : ∀ r : Reader, inv.behind r → inv.Keeps (Parser.arguments budget r)
  moreArguments : ∀ (r : Reader) (read : List Expr), inv.behind r →
    inv.Keeps (Parser.moreArguments budget read r)
  block : ∀ r : Reader, inv.behind r → inv.Keeps (Parser.block budget r)
  statement : ∀ r : Reader, inv.ahead r → inv.Keeps (Parser.statement budget r)
  statements : ∀ (r : Reader) (inBlock : Bool) (read : List Statement), inv.ahead r →
    Ends (fun _ r' => inv.ahead r' ∧
        (r'.current.kind = .eof ∨ inBlock = true ∧ r'.current.kind = .rightBrace))
      (fun e _ => e = .starved) (Parser.statements budget inBlock read r)

/-- Parameters behind others keep to an invariant. -/
theorem keeps_moreParameters {read : List Name} (behind : inv.behind r) :
    inv.Keeps (Parser.moreParameters budget read r) := by
  induction budget generalizing r read with
  | zero => exact .starve
  | succ budget ih =>
      rw [Parser.moreParameters, Parser.upcoming_bind]
      split
      · next comma =>
          have behind' := behind_advanced behind comma (by decide)
          refine .advance (.expect behind' (by decide) fun named => ?_)
          rw [Parser.name_bind]
          exact ih named
      · exact .expect behind (by decide) .pure

/-- So do parameters. -/
theorem keeps_parameters (behind : inv.behind r) : inv.Keeps (Parser.parameters budget r) := by
  rw [Parser.parameters, Parser.upcoming_bind]
  split
  · next closing => exact .advance (.pure (behind_advanced behind closing (by decide)))
  · refine .expect behind (by decide) fun named => ?_
    rw [Parser.name_bind]
    exact keeps_moreParameters named

namespace Kept

/-- An expression keeps to an invariant with one more step, if its parts do. -/
theorem expression_succ (kept : inv.Kept budget) {least : Precedence} (ahead : inv.ahead r) :
    inv.Keeps (Parser.expression (budget + 1) least r) := by
  rw [Parser.expression]
  exact .bind (kept.operand r ahead) fun left r₁ => kept.operators r₁ least left

/-- So do the operators behind an expression. -/
theorem operators_succ (kept : inv.Kept budget) {least : Precedence} {left : Expr}
    (behind : inv.behind r) : inv.Keeps (Parser.operators (budget + 1) least left r) := by
  rw [Parser.operators, Parser.upcoming_bind]
  split
  · next tighter =>
      have operator : inv.behind r.advanced := by
        refine behind_advanced behind rfl fun same => ?_
        rw [same] at tighter
        exact Nat.not_lt_zero _ tighter
      refine .advance ?_
      split
      · split
        · exact .bind (kept.arguments r.advanced operator) fun given r₁ =>
            kept.operators r₁ least _
        · exact .refuse operator _
      · have ahead := inv.move r.advanced operator
        refine .advance (.bind (kept.expression r.advanced.advanced _ ahead) ?_)
        exact fun right r₁ => kept.operators r₁ least _
  · exact .pure behind

/-- So do arguments. -/
theorem arguments_succ (kept : inv.Kept budget) (behind : inv.behind r) :
    inv.Keeps (Parser.arguments (budget + 1) r) := by
  rw [Parser.arguments, Parser.upcoming_bind]
  split
  · next closing => exact .advance (.pure (behind_advanced behind closing (by decide)))
  · refine .advance (.bind (kept.expression r.advanced .lowest (inv.move r behind)) ?_)
    exact fun first r₁ => kept.moreArguments r₁ [first]

/-- So do the arguments behind others. -/
theorem moreArguments_succ (kept : inv.Kept budget) {read : List Expr} (behind : inv.behind r) :
    inv.Keeps (Parser.moreArguments (budget + 1) read r) := by
  rw [Parser.moreArguments, Parser.upcoming_bind]
  split
  · next comma =>
      have ahead := inv.move r.advanced (behind_advanced behind comma (by decide))
      refine .advance (.advance (.bind (kept.expression r.advanced.advanced .lowest ahead) ?_))
      exact fun next r₁ => kept.moreArguments r₁ (next :: read)
  · exact .expect behind (by decide) .pure

/-- So does a block. -/
theorem block_succ (kept : inv.Kept budget) (behind : inv.behind r) :
    inv.Keeps (Parser.block (budget + 1) r) := by
  rw [Parser.block, Parser.current_bind]
  refine .advance ?_
  have inside := kept.statements r.advanced true [] (inv.move r behind)
  rw [bind_run]
  cases ran : Parser.statements budget true [] r.advanced with
  | error e r₁ =>
      rw [ran] at inside
      exact .inl inside
  | ok body r₁ =>
      rw [ran] at inside
      obtain ⟨ahead, ends⟩ := inside
      have read : inv.behind r₁ := by
        refine inv.read r₁ (fun same => ?_) ahead
        rw [same] at ends
        rcases ends with ended | ⟨-, ended⟩ <;> cases ended
      dsimp only
      rw [Parser.current_bind]
      split
      · next ended => exact inv.unclosed r₁ ended read
      · exact read

/-- An integer keeps to an invariant, whether it is in range or reported. -/
theorem keeps_integer (int : r.current.kind = .int) (ahead : inv.ahead r) :
    inv.Keeps (Parser.integer r) := by
  rw [Parser.integer, Parser.current_bind]
  cases known : integer64? (Binary64.digitsValue r.current.literal.toList) with
  | some value => exact .pure (inv.readInteger r value int known ahead)
  | none => exact .inr (inv.refuseInteger r int known ahead)

/-- An operand keeps to an invariant, whichever token it starts with. -/
theorem operand_succ (kept : inv.Kept budget) (ahead : inv.ahead r) :
    inv.Keeps (Parser.operand (budget + 1) r) := by
  rw [Parser.operand, Parser.current_bind]
  generalize same : r.current.kind = kind
  by_cases int : kind = .int
  · subst int
    exact keeps_integer same ahead
  have behind : inv.behind r := inv.read r (same ▸ int) ahead
  have next := inv.move r behind
  split
  · rw [Parser.name_bind]
    exact .pure behind
  · exact absurd rfl int
  · rw [Parser.float, Parser.current_bind]
    cases Binary64.ofDigits? false r.current.literal.toList with
    | some value => exact .pure behind
    | none => exact .refuse behind _
  · exact .pure behind
  · exact .pure behind
  · exact .pure behind
  · exact .advance (.bind (kept.expression r.advanced .unary next) fun _ _ => .pure)
  · exact .advance (.bind (kept.expression r.advanced .unary next) fun _ _ => .pure)
  · refine .advance (.bind (kept.expression r.advanced .lowest next) fun inner r₁ behind₁ => ?_)
    exact .expect behind₁ (by decide) .pure
  · refine .expect behind (by decide) fun opened => .advance ?_
    have condition := inv.move r.advanced opened
    refine .bind (kept.expression r.advanced.advanced .lowest condition) fun _ r₁ behind₁ => ?_
    refine .expect behind₁ (by decide) fun closed => ?_
    refine .expect closed (by decide) fun braced => ?_
    refine .bind (kept.block r₁.advanced.advanced braced) fun _ r₂ behind₂ => ?_
    rw [Parser.upcoming_bind]
    split
    · next otherwise =>
        have behind' := behind_advanced behind₂ otherwise (by decide)
        refine .advance (.expect behind' (by decide) fun braced' => ?_)
        exact .bind (kept.block r₂.advanced.advanced braced') fun _ _ => .pure
    · exact .pure behind₂
  · refine .expect behind (by decide) fun opened => ?_
    refine .bind (keeps_parameters opened) fun _ r₁ behind₁ => ?_
    refine .expect behind₁ (by decide) fun braced => ?_
    exact .bind (kept.block r₁.advanced braced) fun _ _ => .pure
  · exact .refuse behind _
  · exact .refuse behind _

/-- An expression and the semicolon behind it, if there is one. -/
theorem closed (kept : inv.Kept budget) (ahead : inv.ahead r) (make : Expr → Statement) :
    inv.Keeps ((do
      let value ← Parser.expression budget .lowest
      Parser.skipSemicolon
      return make value : Parser Statement) r) :=
  .bind (kept.expression r .lowest ahead) fun _ _ behind => .skipSemicolon behind

/-- So does a statement. -/
theorem statement_succ (kept : inv.Kept budget) (ahead : inv.ahead r) :
    inv.Keeps (Parser.statement (budget + 1) r) := by
  have behind (other : r.current.kind ≠ .int) : inv.behind r := inv.read r other ahead
  rw [Parser.statement, Parser.current_bind]
  generalize same : r.current.kind = kind at behind
  split
  · refine .expect (behind (by decide)) (by decide) fun named => ?_
    rw [Parser.name_bind]
    refine .expect named (by decide) fun assigned => .advance ?_
    exact kept.closed (inv.move _ assigned) _
  · exact .advance (kept.closed (inv.move r (behind (by decide))) _)
  · exact .bind (kept.block r (behind (by decide))) fun _ _ => .pure
  · exact kept.closed ahead _

/-- Statements keep to an invariant, and go on to the end of the text or of their block, past any
statement that gave up. -/
theorem statements_succ (kept : inv.Kept budget) {inBlock : Bool} {read : List Statement}
    (ahead : inv.ahead r) :
    Ends (fun _ r' => inv.ahead r' ∧
        (r'.current.kind = .eof ∨ inBlock = true ∧ r'.current.kind = .rightBrace))
      (fun e _ => e = .starved) (Parser.statements (budget + 1) inBlock read r) := by
  rw [Parser.statements, Parser.current_bind]
  split
  · next ended =>
      refine ⟨ahead, ?_⟩
      simpa using ended
  · have first := kept.statement r ahead
    rw [bind_run, Parser.attempt]
    cases ran : Parser.statement budget r with
    | ok s r₁ =>
        rw [ran] at first
        exact kept.statements r₁.advanced inBlock _ (inv.move r₁ first)
    | error e r₁ =>
        rw [ran] at first
        cases e with
        | starved => exact rfl
        | refused =>
            rcases first with starved | gaveUp
            · cases starved
            · exact kept.statements r₁.advanced inBlock _ (inv.resume r₁ gaveUp)

end Kept

/-- **The rules preserve what their steps do**, at every budget. -/
theorem kept (inv : Parser.Invariant) (budget : Nat) : inv.Kept budget := by
  induction budget with
  | zero =>
      exact ⟨fun _ _ _ => .starve, fun _ _ _ _ => .starve, fun _ _ => .starve, fun _ _ => .starve,
        fun _ _ _ => .starve, fun _ _ => .starve, fun _ _ => .starve, fun _ _ _ _ => rfl⟩
  | succ budget ih =>
      exact ⟨fun _ _ => ih.expression_succ, fun _ _ _ => ih.operators_succ,
        fun _ => ih.operand_succ, fun _ => ih.arguments_succ, fun _ _ => ih.moreArguments_succ,
        fun _ => ih.block_succ, fun _ => ih.statement_succ, fun _ _ _ => ih.statements_succ⟩

/-- Statements are read up to the end of the text, and what was true at the first one still is. -/
theorem statements_ok (inv : Parser.Invariant) (enough : 4 * r.tokens.length + 4 ≤ budget)
    (ahead : inv.ahead r) : ∃ p r', Parser.statements budget false [] r = .ok p r' ∧
      r.OnFrom r' ∧ r'.current.kind = .eof ∧ inv.ahead r' := by
  have kept := (inv.kept budget).statements r false [] ahead
  have leads := (Rules.all budget).statements r false [] enough
  cases ran : Parser.statements budget false [] r with
  | error e r' =>
      rw [ran] at kept leads
      exact absurd (congrArg (EStateM.Result.error · r') kept) (leads.ne_starved r')
  | ok p r' =>
      rw [ran] at kept leads
      obtain ⟨ahead', ended | ⟨inBlock, -⟩⟩ := kept
      · exact ⟨p, r', rfl, leads.1, ended, ahead'⟩
      · cases inBlock

/-- What is true of every reader is preserved. -/
protected def trivial : Parser.Invariant where
  ahead _ := True
  behind _ := True
  gaveUp _ := True
  move _ _ := trivial
  read _ _ _ := trivial
  readInteger _ _ _ _ _ := trivial
  unclosed _ _ _ := trivial
  refuse _ _ _ := trivial
  refuseInteger _ _ _ _ := trivial
  miss _ _ _ := trivial
  resume _ _ := trivial

end Parser.Invariant

end StackScript
