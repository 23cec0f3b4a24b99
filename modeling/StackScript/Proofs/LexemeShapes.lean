import StackScript.Proofs.Spelling

/-!
# What Lexemes Look Like

Cutting a text into tokens never yields a token whose literal is not as its kind demands, unless
the token is illegal: an identifier looks like one and is not reserved, a number has its digits,
and a mark is spelled like all of its kind.

## Main results

* `Lexeme.first_sound`: **a lexeme is illegal, or it is shaped as its kind demands**.
* `Cursor.tokens_shaped`: so are all tokens of a text.
* `Cursor.kind_ne_eof`: the end of a text is none of its tokens.
-/

namespace StackScript

open Text

namespace TokenKind

/-- A word is an identifier or one of the reserved words. -/
theorem ofWord_cases (word : String) : ofWord word = ident ∨ (word, ofWord word) ∈ keywords := by
  rw [ofWord]
  cases found : keywords.lookup word with
  | none => exact .inl rfl
  | some kind =>
      obtain ⟨before, behind, split, -⟩ := List.lookup_eq_some_iff.mp found
      rw [split]
      exact .inr (List.mem_append_right before List.mem_cons_self)

end TokenKind

namespace Lexeme

/-- The lexeme is **sound**: it is illegal, or shaped as its kind demands. -/
def IsSound (l : Lexeme) : Prop :=
  l.kind = .illegal ∨ (Word.mk l.kind l.literal).isShaped = true

/-- A string is sound, whether or not its closing quote is there. -/
theorem quoted_sound (text content taken : List Char) : (quoted text content taken).IsSound := by
  fun_induction quoted text content taken with
  | case1 => exact .inl rfl
  | case2 => exact .inr rfl
  | case3 => exact .inl rfl
  | case4 _ _ _ _ ih => exact ih
  | case5 _ _ _ _ _ _ _ ih => exact ih

/-- The digits from the front of a text, with one of them there, are digits and not empty. -/
theorem isDigits_takeWhile {c : Char} {rest : List Char} (digit : c.isDigit = true) :
    isDigits ((c :: rest).takeWhile Char.isDigit) = true := by
  rw [isDigits, List.all_takeWhile, List.takeWhile_cons_of_pos digit]
  rfl

/-- A number is sound: digits, or digits on both sides of a point. -/
theorem number_sound {c : Char} {rest : List Char} (digit : c.isDigit = true) :
    (number (c :: rest)).IsSound := by
  have whole := @isDigits_takeWhile c rest digit
  have int (behind : List Char) : IsSound ⟨.int,
      String.ofList ((c :: rest).takeWhile Char.isDigit), (c :: rest).takeWhile Char.isDigit,
      behind⟩ := by
    refine .inr ?_
    rw [Word.isShaped, String.toList_ofList]
    exact whole
  unfold number
  dsimp only
  split
  · next place more _ =>
      split
      · next placeDigit =>
          obtain ⟨-, all⟩ := isDigits_iff.mp whole
          have point : ∀ d ∈ ('.' :: (place :: more).takeWhile Char.isDigit).head?,
              d.isDigit = false := by
            rintro _ ⟨⟩
            rfl
          refine .inr ?_
          rw [Word.isShaped, String.toList_ofList, isFloatShaped, takeWhile_run all point,
            dropWhile_run all point]
          exact Bool.and_eq_true_iff.mpr ⟨whole, isDigits_takeWhile placeDigit⟩
      · exact int _
  · exact int _

/-- A word is sound, as an identifier or as the reserved word it is. -/
theorem word_sound {c : Char} {rest : List Char} (starts : startsWord c = true) :
    (word (c :: rest)).IsSound := by
  have shaped : isWordShaped ((c :: rest).takeWhile continuesWord) = true := by
    rw [List.takeWhile_cons_of_pos (continuesWord_of_startsWord starts)]
    exact Bool.and_eq_true_iff.mpr ⟨starts, List.all_takeWhile⟩
  refine .inr ?_
  rw [word]
  dsimp only
  rcases TokenKind.ofWord_cases (String.ofList ((c :: rest).takeWhile continuesWord)) with
    ident | reserved
  · rw [ident, Word.isShaped]
    refine Bool.and_eq_true_iff.mpr ⟨?_, decide_eq_true ident⟩
    rw [String.toList_ofList]
    exact shaped
  · have all : ∀ entry ∈ TokenKind.keywords, (Word.mk entry.2 entry.1).isShaped = true := by
      decide
    exact all _ reserved

/-- A single character is sound, as a mark or as illegal. -/
theorem single_sound (c : Char) (rest : List Char) : (single c rest).IsSound := by
  cases mark : markKind? c with
  | none =>
      refine .inl ?_
      rw [single, mark]
      rfl
  | some kind =>
      refine .inr ?_
      rw [single, mark]
      unfold markKind? at mark
      split at mark <;> cases mark <;> rfl

/-- So is a mark of one or two characters. -/
theorem mark_sound (c : Char) (rest : List Char) : (mark c rest).IsSound := by
  cases rest with
  | nil => exact single_sound c []
  | cons d rest =>
      rw [mark]
      split
      · next kind pair =>
          refine .inr ?_
          unfold pairKind? at pair
          split at pair <;> cases pair <;> rfl
      · exact single_sound c (d :: rest)

/-- **A lexeme is illegal, or it is shaped as its kind demands.** -/
theorem first_sound (c : Char) (rest : List Char) : (first c rest).IsSound := by
  unfold first
  split
  · exact quoted_sound _ _ _
  split
  · next digit => exact number_sound digit
  split
  · next starts => exact word_sound starts
  · exact mark_sound c rest

end Lexeme

namespace Cursor

/-- What is true of every lexeme is true of every token of a text. -/
theorem forall_tokens {P : Token → Prop}
    (every : ∀ c rest position, P ⟨(Lexeme.first c rest).kind, (Lexeme.first c rest).literal,
      position⟩) (c : Cursor) : ∀ token ∈ c.tokens.1, P token := by
  have step {c c' : Cursor} {token : Token} (h : c.next? = some (token, c')) : P token := by
    obtain ⟨lexeme, cut, same⟩ := Option.map_eq_some_iff.mp h
    cases same
    cases rest : c.skipBlanks.rest with
    | nil =>
        rw [rest] at cut
        cases cut
    | cons first rest' =>
        rw [rest] at cut
        cases cut
        exact every _ _ _
  have collected : ∀ count (c : Cursor) (read : List Token), (∀ token ∈ read, P token) →
      ∀ token ∈ (c.collect count read).1, P token := by
    intro count
    induction count with
    | zero =>
        intro c read good token mem
        exact good token (List.mem_reverse.mp mem)
    | succ count ih =>
        intro c read good
        rw [collect]
        cases next : c.next? with
        | none =>
            intro token mem
            exact good token (List.mem_reverse.mp mem)
        | some pair => exact ih pair.2 (pair.1 :: read) (List.forall_mem_cons.mpr ⟨step next, good⟩)
  exact collected _ c [] fun _ mem => absurd mem List.not_mem_nil

/-- Every token of a text is illegal, or shaped as its kind demands. -/
theorem tokens_shaped (c : Cursor) :
    ∀ token ∈ c.tokens.1, token.kind = .illegal ∨ token.word.isShaped = true :=
  c.forall_tokens fun first rest _ => Lexeme.first_sound first rest

/-- The end of a text is none of its tokens. -/
theorem kind_ne_eof (c : Cursor) : ∀ token ∈ c.tokens.1, token.kind ≠ .eof := by
  intro token mem ended
  rcases c.tokens_shaped token mem with illegal | shaped
  · rw [illegal] at ended
    cases ended
  · rw [Word.isShaped, Token.word, ended] at shaped
    cases shaped

end Cursor

end StackScript
