import StackScript.Proofs.ParserSoundness
import StackScript.Proofs.Writing

/-!
# Programs That Were Read Are Well Formed

A program that was read could have been written: the tokens of its nodes are of the right kinds and
shapes, since they were cut out of a text, and they mean what the nodes say, since the grammar takes
the meaning of a node from its token. So what is known about well-formed programs applies to every
program that was read.

## Main results

* `Form.Yields.isWellFormed`: **a form whose tokens were cut out of a text is well formed**.
* `isWellFormed_of_parse`: so is a program that was read.
-/

namespace StackScript

/-- A token of a kind whose words are all spelled the same is spelled so. -/
theorem Token.word_eq_fixed {token : Token} {kind : TokenKind}
    (shaped : token.word.isShaped = true) (same : token.kind = kind)
    (fixed : (kind.isMark || kind.isKeyword) = true) : token.word = .fixed kind := by
  obtain ⟨kind', literal, _⟩ := token
  obtain rfl : kind' = kind := same
  cases kind' with
  | illegal | eof | ident | int | float | string => cases fixed
  | _ => exact congrArg (Word.mk _) (of_decide_eq_true shaped)

/-- Whether a form is well formed. -/
def Form.isWellFormed : Form → Bool
  | bare e | expression _ e => e.isWellFormed
  | arguments es | moreArguments es => Expr.allWellFormed es
  | parameters names | moreParameters names => names.all Name.isWellFormed
  | block b => b.isWellFormed
  | statement s => s.isWellFormed
  | statements p => Program.isWellFormed p

/-- An identifier of the right shape is a name. -/
theorem Name.isWellFormed_of_ident {token : Token} (kind : token.kind = .ident)
    (shaped : token.word.isShaped = true) : Name.isWellFormed ⟨token, token.literal⟩ = true := by
  simp only [isWellFormed, kind, shaped, decide_true, Bool.and_self]

open Token (word_eq_fixed)

/-- **A form whose tokens were cut out of a text is well formed.** -/
theorem Form.Yields.isWellFormed {form : Form} {ts : List Token} (h : form.Yields ts)
    (shaped : ∀ token ∈ ts, token.word.isShaped = true) : form.isWellFormed = true := by
  induction h with
  | name kind => exact Name.isWellFormed_of_ident kind (shaped _ List.mem_cons_self)
  | integer kind meant =>
      have here := shaped _ List.mem_cons_self
      have value := integer64?_eq_some_iff.mp meant
      simp only [Form.isWellFormed, Expr.isWellFormed, kind, here, value, decide_true,
        Bool.and_self]
  | float kind meant =>
      have here := shaped _ List.mem_cons_self
      simp only [Form.isWellFormed, Expr.isWellFormed, kind, here, meant, decide_true,
        Bool.and_self]
  | string kind =>
      simp only [Form.isWellFormed, Expr.isWellFormed, kind, decide_true, Bool.and_self]
  | trueWord kind | falseWord kind =>
      exact decide_eq_true (word_eq_fixed (shaped _ List.mem_cons_self) kind rfl)
  | unary kind _ ih =>
      obtain ⟨here, there⟩ := List.forall_mem_cons.mp shaped
      simp only [Form.isWellFormed, Expr.isWellFormed, Bool.and_eq_true, Bool.or_eq_true,
        decide_eq_true_eq, and_true]
      exact ⟨kind.imp (word_eq_fixed here · rfl) (word_eq_fixed here · rfl), ih there⟩
  | @binary token _ _ _ _ joins _ _ ih ih' =>
      obtain ⟨before, rest⟩ := List.forall_mem_append.mp shaped
      obtain ⟨here, behind⟩ := List.forall_mem_cons.mp rest
      have mark : (token.kind.isMark || token.kind.isKeyword) = true := by
        cases kind : token.kind <;> rw [kind] at joins <;> first | rfl | cases joins
      simp only [Form.isWellFormed, Expr.isWellFormed, Bool.and_eq_true, decide_eq_true_eq,
        and_true]
      exact ⟨⟨⟨joins, word_eq_fixed here rfl mark⟩, ih before⟩, ih' behind⟩
  | call callable opens closes _ _ ih ih' =>
      obtain ⟨before, rest⟩ := List.forall_mem_append.mp shaped
      obtain ⟨here, behind⟩ := List.forall_mem_cons.mp rest
      obtain ⟨inside, -⟩ := List.forall_mem_append.mp behind
      simp only [Form.isWellFormed, Expr.isWellFormed, Bool.and_eq_true, decide_eq_true_eq]
      exact ⟨⟨⟨word_eq_fixed here opens rfl, callable⟩, ih before⟩, ih' inside⟩
  | conditional kind _ _ _ _ ih ih' =>
      obtain ⟨here, rest⟩ := List.forall_mem_cons.mp shaped
      obtain ⟨first, rest⟩ := List.forall_mem_append.mp (List.forall_mem_cons.mp rest).2
      obtain ⟨-, second⟩ := List.forall_mem_cons.mp rest
      simp only [Form.isWellFormed, Expr.isWellFormed, Bool.and_eq_true, decide_eq_true_eq]
      exact ⟨⟨word_eq_fixed here kind rfl, ih first⟩, ih' second⟩
  | alternative kind _ _ _ _ _ _ ih ih' ih'' =>
      obtain ⟨here, rest⟩ := List.forall_mem_cons.mp shaped
      obtain ⟨first, rest⟩ := List.forall_mem_append.mp (List.forall_mem_cons.mp rest).2
      obtain ⟨second, rest⟩ := List.forall_mem_append.mp (List.forall_mem_cons.mp rest).2
      obtain ⟨-, third⟩ := List.forall_mem_cons.mp rest
      simp only [Form.isWellFormed, Expr.isWellFormed, Bool.and_eq_true, decide_eq_true_eq]
      exact ⟨⟨⟨word_eq_fixed here kind rfl, ih first⟩, ih' second⟩, ih'' third⟩
  | function kind _ _ _ _ ih ih' =>
      obtain ⟨here, rest⟩ := List.forall_mem_cons.mp shaped
      obtain ⟨first, rest⟩ := List.forall_mem_append.mp (List.forall_mem_cons.mp rest).2
      obtain ⟨-, second⟩ := List.forall_mem_cons.mp rest
      simp only [Form.isWellFormed, Expr.isWellFormed, Bool.and_eq_true, decide_eq_true_eq]
      exact ⟨⟨word_eq_fixed here kind rfl, ih first⟩, ih' second⟩
  | ofBare _ _ ih => exact ih shaped
  | grouped _ _ _ ih =>
      obtain ⟨-, rest⟩ := List.forall_mem_cons.mp shaped
      exact ih (List.forall_mem_append.mp rest).1
  | noArguments | lastArgument | noParameters | lastParameter | noStatements => rfl
  | firstArgument _ _ ih ih' =>
      obtain ⟨first, rest⟩ := List.forall_mem_append.mp shaped
      exact Bool.and_eq_true_iff.mpr ⟨ih first, ih' rest⟩
  | nextArgument _ _ _ ih ih' =>
      obtain ⟨first, rest⟩ := List.forall_mem_append.mp (List.forall_mem_cons.mp shaped).2
      exact Bool.and_eq_true_iff.mpr ⟨ih first, ih' rest⟩
  | firstParameter kind _ ih =>
      obtain ⟨here, rest⟩ := List.forall_mem_cons.mp shaped
      exact Bool.and_eq_true_iff.mpr ⟨Name.isWellFormed_of_ident kind here, ih rest⟩
  | nextParameter _ kind _ ih =>
      obtain ⟨here, rest⟩ := List.forall_mem_cons.mp (List.forall_mem_cons.mp shaped).2
      exact Bool.and_eq_true_iff.mpr ⟨Name.isWellFormed_of_ident kind here, ih rest⟩
  | block kind _ _ ih =>
      obtain ⟨here, rest⟩ := List.forall_mem_cons.mp shaped
      exact Bool.and_eq_true_iff.mpr ⟨decide_eq_true (word_eq_fixed here kind rfl),
        ih (List.forall_mem_append.mp rest).1⟩
  | binding kind ident _ _ ih =>
      obtain ⟨here, rest⟩ := List.forall_mem_cons.mp shaped
      obtain ⟨name, rest⟩ := List.forall_mem_cons.mp rest
      simp only [Form.isWellFormed, Statement.isWellFormed, Bool.and_eq_true, decide_eq_true_eq]
      exact ⟨⟨word_eq_fixed here kind rfl, Name.isWellFormed_of_ident ident name⟩,
        ih (List.forall_mem_cons.mp rest).2⟩
  | returning kind _ ih =>
      obtain ⟨here, rest⟩ := List.forall_mem_cons.mp shaped
      exact Bool.and_eq_true_iff.mpr ⟨decide_eq_true (word_eq_fixed here kind rfl), ih rest⟩
  | expressionStatement _ ih | blockStatement _ ih => exact ih shaped
  | nextStatement _ _ _ ih ih' =>
      obtain ⟨first, rest⟩ := List.forall_mem_append.mp shaped
      exact Bool.and_eq_true_iff.mpr ⟨ih first, ih' (List.forall_mem_append.mp rest).2⟩

/-- A program that was read is well formed. -/
theorem isWellFormed_of_parse {text : String} {p : Program} (accepted : parse text = .ok p) :
    Program.isWellFormed p = true :=
  (yields_tokens_of_parse accepted).isWellFormed (shaped_of_parse accepted)

end StackScript
