import StackScript.Proofs.ParserSoundness
import StackScript.Proofs.ReadingBack
import StackScript.Proofs.Writing

/-!
# Completeness of the Parser

What is written by the rules of the grammar is accepted, and is read as the very program that was
written. With soundness, the grammar says exactly which texts are accepted, and as what. In
particular every well-formed tree can be written and read again, with no more parentheses than
precedence demands.

## Main definitions

* `Program.source`: a text of a program.

## Main results

* `parse_eq_ok_iff`: **the texts that are accepted**.
* `parse_written`: **the parser is complete**.
-/

namespace StackScript

/-- A text whose tokens are those of a program is accepted as this program. -/
theorem parse_of_yields {text : String} {p : Program}
    (yields : (Form.statements p).Yields (Reader.ofString text).tokens) : parse text = .ok p := by
  have read : (Reader.ofString text).program = (p, ⟨[], (Reader.ofString text).finish, #[]⟩) :=
    Reader.program_of_yields yields
  rw [parse, readProgram, read]
  rfl

/-- **The texts that are accepted** are those whose tokens are the tokens of a program, which is
then the one that is read. -/
theorem parse_eq_ok_iff {text : String} {p : Program} :
    parse text = .ok p ↔ (Form.statements p).Yields (Reader.ofString text).tokens :=
  ⟨yields_tokens_of_parse, parse_of_yields⟩

/-- A text of a program: its words with a blank behind each. -/
def Program.source (p : Program) : String :=
  String.ofList (Word.listSource (Program.words p))

/-- **The parser is complete.** A well-formed program that is written with parentheses only where
precedence demands them, with semicolons and with its strings escaped, is read again from any such
text, apart from places; and there is such a text. -/
theorem parse_written {p : Program} (wellFormed : Program.isWellFormed p = true) :
    WrittenAs (Program.words p) p.source.toList ∧
    ∀ text : String, WrittenAs (Program.words p) text.toList →
      ∃ q, parse text = .ok q ∧ Program.plain q = Program.plain p := by
  refine ⟨?_, fun text written => ?_⟩
  · rw [Program.source, String.toList_ofList]
    exact Word.writtenAs_listSource _
  · have words : (Reader.ofString text).tokens.map Token.word = Program.words p :=
      Cursor.tokens_of_writtenAs written (Program.shaped_words p wellFormed) _
    obtain ⟨q, same, yields⟩ := Program.exists_yields p wellFormed words
    exact ⟨q, parse_of_yields yields, same⟩

/-- The left operand of `**` needs its parentheses, the right one and that of `-` do not. -/
theorem parse_written_power :
    let word (kind : TokenKind) (literal : String) : Token := ⟨kind, literal, default⟩
    let name (text : String) : Expr := .name ⟨word .ident text, text⟩
    let power (left right : Expr) : Expr := .binary (word .pow "**") left "**" right
    let p : Program := [.expression default
      (power (power (name "a") (name "b")) (power (.unary (word .minus "-") "-" (name "c"))
        (.string (word .string "\"") "\"")))]
    p.source = "( a ** b ) ** - c ** \"\\\"\" ; " ∧
      ∃ q, parse p.source = .ok q ∧ Program.plain q = Program.plain p := by
  intro word name power p
  have wellFormed : Program.isWellFormed p = true := by decide
  obtain ⟨written, reads⟩ := parse_written wellFormed
  exact ⟨by decide, reads p.source written⟩

end StackScript
