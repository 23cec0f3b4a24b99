import StackScript.Proofs.ReaderInvariants

/-!
# Integers Out of Range Are Reported

Reading goes on after a report with the next token, so a report might hide another: the tokens of a
statement that is given up could be passed over. An integer that does not have 64 bits never is. No
rule expects such a token, and none moves on over a token that it did not expect, except to read it
as an operand, which makes the report.

## Main definitions

* `Token.outOfRange`: the report on an integer that is out of range.
* `Reader.Faces`: a token is still ahead of a reader, or it has been reported.
* `Parser.Invariant.facing`: **no rule passes over an integer that is out of range**.

## Main results

* `Reader.reports_program`: a reader that comes to the end has reported all of them.
-/

namespace StackScript

namespace Token

/-- A token is an integer that is **out of range**. -/
structure IsOutOfRange (token : Token) : Prop where
  kind : token.kind = .int
  large : integer64? (Binary64.digitsValue token.literal.toList) = none

/-- The report on an integer that is out of range. -/
def outOfRange (token : Token) : ParseError :=
  ⟨.badInteger token.literal, token.position⟩

end Token

variable {token : Token} {r : Reader}

namespace Reader

/-- A reader **faces** an integer that is out of range: it is among the tokens left, the current one
included, or it has been reported. -/
def Faces (token : Token) (r : Reader) : Prop :=
  token ∈ r.tokens ∨ token.outOfRange ∈ r.errors

/-- What a reader faces is behind the current token, or the current token itself. -/
theorem Faces.behind_or_current (faces : r.Faces token) :
    r.advanced.Faces token ∨ r.current = token := by
  rcases faces with mem | reported
  · cases tokens : r.tokens with
    | nil =>
        rw [tokens] at mem
        cases mem
    | cons first rest =>
        rw [tokens] at mem
        rcases List.mem_cons.mp mem with rfl | later
        · exact .inr (current_of_head? (by rw [tokens]; rfl))
        · exact .inl (.inl (by rwa [Reader.advanced, tokens]))
  · exact .inl (.inr reported)

/-- A reader moves on over any current token but an integer. -/
theorem Faces.advanced (faces : r.Faces token) (int : token.kind = .int)
    (other : r.current.kind ≠ .int) : r.advanced.Faces token := by
  rcases faces.behind_or_current with behind | rfl
  · exact behind
  · exact absurd int other

/-- A report does not move a reader past a token. -/
theorem Faces.reported (faces : r.Faces token) (fault : ParseFault) (position : Position) :
    (r.reported fault position).Faces token :=
  faces.imp_right fun mem => Array.mem_push.mpr (.inl mem)

end Reader

/-- An integer is read or reported, unless it is the one in question; then it is reported. -/
theorem Token.IsOutOfRange.reported (outside : token.IsOutOfRange) (faces : r.Faces token) :
    (r.reported (.badInteger r.current.literal) r.current.position).advanced.Faces token := by
  rcases faces.behind_or_current with behind | rfl
  · exact behind.reported _ _
  · exact .inr (Array.mem_push.mpr (.inr rfl))

/-- **No rule passes over an integer that is out of range**: it stays ahead until it is reported. -/
def Parser.Invariant.facing (outside : token.IsOutOfRange) : Parser.Invariant where
  ahead r := r.Faces token
  behind r := r.advanced.Faces token
  gaveUp r := r.advanced.Faces token
  move _ faces := faces
  read _ other faces := faces.advanced outside.kind other
  readInteger r value _ known faces := by
    rcases faces.behind_or_current with behind | rfl
    · exact behind
    · rw [outside.large] at known
      cases known
  unclosed _ _ faces := faces.reported _ _
  refuse _ _ faces := faces.reported _ _
  refuseInteger _ _ _ faces := outside.reported faces
  miss _ _ faces := faces.reported _ _
  resume _ faces := faces

/-- **A reader that comes to the end has reported every integer that is out of range.** -/
theorem Reader.reports_program (outside : token.IsOutOfRange)
    (real : ∀ t ∈ r.tokens, t.kind ≠ .eof) (mem : token ∈ r.tokens) :
    token.outOfRange ∈ r.program.2.errors := by
  obtain ⟨p, r', ran, on, ended, faces⟩ :=
    (Parser.Invariant.facing outside).statements_ok (Nat.le_refl r.budget) (.inl mem)
  rw [program, ran]
  rcases faces with ahead | reported
  · rw [tokens_eq_nil (fun t mem => real t (on.tokens.subset mem)) ended] at ahead
    cases ahead
  · exact reported

end StackScript
