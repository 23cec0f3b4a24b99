import StackScript.Proofs.LexemeShapes
import StackScript.Proofs.Reading

/-!
# Soundness of the Parser

A program that is read without reports was written by the rules of the grammar, with the very
tokens that the text is cut into. None is passed over and none is used twice.

## Main results

* `Reader.yields_program`: what a reader reads without reports.
* `yields_of_parse`: **the parser is sound**.
-/

namespace StackScript

namespace Reader

variable {r r' : Reader} {p : Program}

/-- A reader that makes no report reads, up to the end, the tokens of the program. -/
theorem yields_program (real : ∀ token ∈ r.tokens, token.kind ≠ .eof) (read : r.program = (p, r'))
    (quiet : r'.errors.size = r.errors.size) : (Form.statements p).Yields r.tokens := by
  have leads := (Rules.all r.budget).statements r false [] (Nat.le_refl _)
  rw [program] at read
  cases ran : Parser.statements r.budget false [] r with
  | error e r'' =>
      rw [ran] at leads read
      cases read
      exact absurd quiet (Nat.ne_of_gt leads.2.2)
  | ok p' r'' =>
      rw [ran] at leads read
      cases read
      obtain ⟨on, reads⟩ := leads
      obtain ⟨_, ts, rfl, tokens, yields, ended | ⟨inBlock, -⟩⟩ := reads quiet
      · have none : r'.tokens = [] :=
          tokens_eq_nil (fun token mem => real token (on.tokens.subset mem)) ended
        rw [tokens, none, List.append_nil]
        exact yields
      · cases inBlock

end Reader

/-- The tokens of a text that is accepted are those of the program. -/
theorem yields_tokens_of_parse {text : String} {p : Program} (accepted : parse text = .ok p) :
    (Form.statements p).Yields (Reader.ofString text).tokens := by
  rw [parse, readProgram] at accepted
  dsimp only at accepted
  split at accepted
  · next quiet =>
      cases accepted
      refine Reader.yields_program (Cursor.kind_ne_eof _) rfl ?_
      exact Array.isEmpty_iff_size_eq_zero.mp quiet
  · cases accepted

/-- All tokens of a text that is accepted are shaped as their kinds demand. -/
theorem shaped_of_parse {text : String} {p : Program} (accepted : parse text = .ok p) :
    ∀ token ∈ (Reader.ofString text).tokens, token.word.isShaped = true := by
  intro token mem
  rcases Cursor.tokens_shaped _ token mem with illegal | shaped
  · have written := (yields_tokens_of_parse accepted).isWritten token mem
    rw [illegal] at written
    cases written
  · exact shaped

/-- **The parser is sound.** The tokens of a text that is accepted are, up to its end, exactly
those of the program, written by the rules of the grammar. -/
theorem yields_of_parse {text : String} {p : Program} (accepted : parse text = .ok p) :
    ∃ ts finish, tokenize (.ofString text) = ts ++ [⟨.eof, "", finish⟩] ∧
      (Form.statements p).Yields ts ∧
      ∀ token ∈ ts, token.kind ∉ [TokenKind.illegal, .colon, .leftBracket, .rightBracket] := by
  have yields := yields_tokens_of_parse accepted
  refine ⟨_, (Cursor.ofString text).tokens.2.position, rfl, yields, fun token mem => ?_⟩
  have written := yields.isWritten token mem
  intro foreign
  have others : ∀ kind ∈ [TokenKind.illegal, .colon, .leftBracket, .rightBracket],
    kind.isWritten = false := by decide
  rw [others _ foreign] at written
  cases written

/-- Of `-a ** (b)`, the parentheses are no node of the tree but belong to its tokens. -/
theorem yields_of_parse_power : ∃ p ts, parse "-a ** (b)" = .ok p ∧ (Form.statements p).Yields ts ∧
    ts.map Token.literal = ["-", "a", "**", "(", "b", ")"] := by
  obtain ⟨p, accepted⟩ : ∃ p, parse "-a ** (b)" = .ok p := ⟨_, rfl⟩
  obtain ⟨ts, finish, tokens, yields, -⟩ := yields_of_parse accepted
  have literals := congrArg (List.map Token.literal) tokens
  rw [List.map_append] at literals
  have known : (tokenize (.ofString "-a ** (b)")).map Token.literal =
      ["-", "a", "**", "(", "b", ")"] ++ [""] := by decide
  exact ⟨p, ts, accepted, yields, List.append_cancel_right (literals.symm.trans known)⟩

end StackScript
