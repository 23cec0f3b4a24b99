import StackScript.Proofs.Spelling

/-!
# Words with Blanks between Them

Words that are written out one after the other, with blanks of any kind and number between them, are
what the text is cut into again. A word ends at the blank behind it, since no kind of word takes a
blank; and a string ends at its quote whatever its content is, since in the content every quote and
every backslash is escaped, so that the backslashes before a quote are never taken for its escape.

## Main definitions

* `SpacedWords`: **words and the blanks around them**.
* `SpacedWords.text`: how they are written.

## Main results

* `SpacedWords.writtenAs`: a text of spaced words is a text of the words.
* `SpacedWords.tokenize_text`: **cutting a text into tokens undoes writing it**.
-/

namespace StackScript

open Text

/-- **Spaced words**: words, each of them as its kind demands, with the blanks that follow it. There
are blanks between any two of them; in front of the first and behind the last there may be none. -/
structure SpacedWords where
  lead : List Char
  pieces : List (Word × List Char)
  lead_blank : ∀ c ∈ lead, isBlank c = true
  gaps_blank : ∀ piece ∈ pieces, ∀ c ∈ piece.2, isBlank c = true
  apart : ∀ piece ∈ pieces.dropLast, piece.2 ≠ []
  shaped : ∀ piece ∈ pieces, piece.1.isShaped = true

namespace SpacedWords

/-- The words alone. -/
def words (s : SpacedWords) : List Word :=
  s.pieces.map Prod.fst

/-- How words and the blanks behind them are written. -/
def source (pieces : List (Word × List Char)) : List Char :=
  pieces.flatMap fun piece => piece.1.source ++ piece.2

/-- The text of spaced words. -/
def text (s : SpacedWords) : String :=
  String.ofList (s.lead ++ source s.pieces)

/-- Behind a word that is followed by another one stands a blank. -/
theorem takes_eq_false {w : Word} {gap : List Char} {rest : List (Word × List Char)}
    (blank : ∀ c ∈ gap, isBlank c = true) (apart : rest ≠ [] → gap ≠ []) :
    ∀ c ∈ (gap ++ source rest).head?, w.kind.takes c = false := by
  intro c first
  cases gap with
  | nil =>
      cases rest with
      | nil => cases first
      | cons piece more => exact absurd rfl (apart nofun)
  | cons d gap =>
      obtain rfl : d = c := Option.some.inj first
      exact w.kind.takes_of_isBlank (blank d List.mem_cons_self)

/-- Words that are spaced are written out, whatever blanks stand in front. -/
theorem writtenAs_source {lead : List Char} {pieces : List (Word × List Char)}
    (lead_blank : ∀ c ∈ lead, isBlank c = true)
    (gaps_blank : ∀ piece ∈ pieces, ∀ c ∈ piece.2, isBlank c = true)
    (apart : ∀ piece ∈ pieces.dropLast, piece.2 ≠ []) :
    WrittenAs (pieces.map Prod.fst) (lead ++ source pieces) := by
  induction pieces generalizing lead with
  | nil =>
      rw [source, List.flatMap_nil, List.append_nil]
      exact .blanks lead_blank
  | cons piece rest ih =>
      obtain ⟨w, gap⟩ := piece
      obtain ⟨gap_blank, later_blank⟩ := List.forall_mem_cons.mp gaps_blank
      have gap_apart : rest ≠ [] → gap ≠ [] := by
        intro more
        rw [List.dropLast_cons_of_ne_nil more] at apart
        exact apart (w, gap) List.mem_cons_self
      have later_apart : ∀ piece ∈ rest.dropLast, piece.2 ≠ [] := by
        intro piece mem
        have more : rest ≠ [] := List.ne_nil_of_mem (rest.dropLast_sublist.subset mem)
        rw [List.dropLast_cons_of_ne_nil more] at apart
        exact apart piece (List.mem_cons_of_mem _ mem)
      rw [source, List.flatMap_cons, List.append_assoc]
      exact .word lead_blank w.spells_source (takes_eq_false gap_blank gap_apart)
        (ih gap_blank later_blank later_apart)

/-- **Cutting a text into tokens undoes writing it.** The kinds and the literals of the tokens are
those of the words that were written, and behind them comes the end of the text. -/
theorem tokenize_text (s : SpacedWords) :
    (tokenize (.ofString s.text)).map Token.word = s.words ++ [⟨.eof, ""⟩] := by
  have written : WrittenAs s.words (s.lead ++ source s.pieces) :=
    writtenAs_source s.lead_blank s.gaps_blank s.apart
  have shaped : ∀ w ∈ s.words, w.isShaped = true := List.forall_mem_map.mpr s.shaped
  have found := Cursor.tokens_of_writtenAs written shaped .start
  have start : Cursor.ofString s.text = ⟨s.lead ++ source s.pieces, .start⟩ := by
    rw [Cursor.ofString, text, String.toList_ofList]
  rw [tokenize, List.map_append, start, found]
  rfl

/-- A string of a quote and a backslash, marks that would run into each other, and a word that
starts like a reserved one. -/
theorem tokenize_text_backslash : ∃ s : SpacedWords,
    s.text = "\t\"\\\"\\\\\" \r\n= == 1.50\nif iffy" ∧
    s.words = [⟨.string, "\"\\"⟩, ⟨.assign, "="⟩, ⟨.equal, "=="⟩, ⟨.float, "1.50"⟩,
      ⟨.ifWord, "if"⟩, ⟨.ident, "iffy"⟩] ∧
    (tokenize (.ofString s.text)).map Token.word = s.words ++ [⟨.eof, ""⟩] := by
  let s : SpacedWords := {
    lead := ['\t']
    pieces := [(⟨.string, "\"\\"⟩, [' ', '\r', '\n']), (⟨.assign, "="⟩, [' ']),
      (⟨.equal, "=="⟩, [' ']), (⟨.float, "1.50"⟩, ['\n']), (⟨.ifWord, "if"⟩, [' ']),
      (⟨.ident, "iffy"⟩, [])]
    lead_blank := by simp [isBlank]
    gaps_blank := by simp [isBlank]
    apart := by simp
    shaped := by decide }
  exact ⟨s, by decide, rfl, s.tokenize_text⟩

end SpacedWords

end StackScript
