import StackScript.Proofs.ReaderInvariants
import StackScript.Proofs.TextDivision

/-!
# Reading Ends

The rules of the reader call one another, and the end of the text, which never goes away, is a token
that all of them look at. Reading ends all the same: on every way from a rule back to itself the
reader moves on, over a token that is then no longer left, or else the rule finds the end of the
text and is done.

The budget that the rules carry is a measure of this, and no part of what they do. A rule that does
not run out of its budget ends in the same way with any larger one, so that its result is the one of
the rule without any budget. What suffices is four for each token that is left, and up to four more
for the rules that can be entered, one from the other, before the next token is taken.

## Main definitions

* `Parser.Within`: a rule ends as another one does, unless it runs out of its budget.
* `Parser.EndsFrom`: **a rule ends**, with every budget from some bound on, in one and the same way.

## Main results

* `Parser.Widens.all`: no rule depends on its budget.
* `Parser.leads_expression`: an expression of any precedence is read with a budget in proportion to
  the tokens that are left.
* `reading_ends`: **reading ends**, for every text and from every reader.
-/

namespace StackScript

namespace Parser

variable {α β : Type}

/-- A rule is **within** another: the other one ends as it does, unless it runs out of budget. -/
def Within (rule longer : Parser α) : Prop :=
  ∀ r, (∃ r', rule r = .error .starved r') ∨ longer r = rule r

namespace Within

/-- A rule is within itself. -/
theorem refl (rule : Parser α) : Within rule rule := fun _ => .inr rfl

/-- A rule that has run out of budget is within any rule. -/
theorem starve (longer : Parser α) : Within (throw .starved) longer := fun r => .inl ⟨r, rfl⟩

/-- What is within a rule is within all that this is within. -/
theorem trans {x y z : Parser α} (h : Within x y) (h' : Within y z) : Within x z := by
  intro r
  rcases h r with starved | same
  · exact .inl starved
  rcases h' r with starved | same'
  · exact .inl (same ▸ starved)
  · exact .inr (same'.trans same)

/-- Rules in sequence are within rules in sequence. -/
theorem bind {x y : Parser α} {f g : α → Parser β} (first : Within x y)
    (next : ∀ a, Within (f a) (g a)) : Within (x >>= f) (y >>= g) := by
  intro r
  rw [bind_run, bind_run]
  rcases first r with ⟨r', starved⟩ | same
  · exact .inl ⟨r', by rw [starved]⟩
  · rw [same]
    cases x r with
    | ok a r' => exact next a r'
    | error e r' => exact .inr rfl

/-- A rule that may give up is within another as the rule itself is. -/
theorem attempt {x y : Parser α} (h : Within x y) :
    Within (Parser.attempt x) (Parser.attempt y) := by
  intro r
  rw [Parser.attempt, Parser.attempt]
  rcases h r with ⟨r', starved⟩ | same
  · exact .inl ⟨r', by rw [starved]⟩
  · exact .inr (by rw [same])

/-- Both rules look at the same thing first. -/
theorem cases {test : Prop} [Decidable test] {x y x' y' : Parser α} (yes : Within x x')
    (no : Within y y') : Within (if test then x else y) (if test then x' else y') := by
  split
  · exact yes
  · exact no

end Within

/-- Each rule **widens** a budget: with one more step it ends as before, unless it ran out. -/
structure Widens (budget : Nat) : Prop where
  expression : ∀ least : Precedence,
    Within (expression budget least) (expression (budget + 1) least)
  operators : ∀ (least : Precedence) (left : Expr),
    Within (operators budget least left) (operators (budget + 1) least left)
  operand : Within (operand budget) (operand (budget + 1))
  arguments : Within (arguments budget) (arguments (budget + 1))
  moreArguments : ∀ read : List Expr,
    Within (moreArguments budget read) (moreArguments (budget + 1) read)
  block : Within (block budget) (block (budget + 1))
  statement : Within (statement budget) (statement (budget + 1))
  statements : ∀ (inBlock : Bool) (read : List Statement),
    Within (statements budget inBlock read) (statements (budget + 1) inBlock read)

/-- More budget does not change how parameters behind others are read. -/
theorem within_moreParameters (budget : Nat) (read : List Name) :
    Within (moreParameters budget read) (moreParameters (budget + 1) read) := by
  induction budget generalizing read with
  | zero => exact .starve _
  | succ budget ih =>
      rw [moreParameters, moreParameters]
      refine .bind (.refl _) fun next => .cases ?_ (.refl _)
      exact .bind (.refl _) fun _ => .bind (.refl _) fun _ => .bind (.refl _) fun _ => ih _

/-- Nor does it change how parameters are read. -/
theorem within_parameters (budget : Nat) :
    Within (parameters budget) (parameters (budget + 1)) := by
  rw [parameters, parameters]
  refine .bind (.refl _) fun next => .cases (.refl _) ?_
  exact .bind (.refl _) fun _ => .bind (.refl _) fun _ => within_moreParameters budget _

namespace Widens

variable {budget : Nat}

/-- An expression is read as before with one more step, if its parts are. -/
theorem expression_succ (widens : Widens budget) (least : Precedence) :
    Within (Parser.expression (budget + 1) least) (Parser.expression (budget + 2) least) := by
  rw [Parser.expression, Parser.expression]
  exact .bind widens.operand fun left => widens.operators least left

/-- So are the operators behind an expression. -/
theorem operators_succ (widens : Widens budget) (least : Precedence) (left : Expr) :
    Within (Parser.operators (budget + 1) least left)
      (Parser.operators (budget + 2) least left) := by
  rw [Parser.operators, Parser.operators]
  refine .bind (.refl _) fun next => .cases (.bind (.refl _) fun _ => .cases ?_ ?_) (.refl _)
  · refine .cases (.bind widens.arguments fun given => ?_) (.refl _)
    exact widens.operators least _
  · refine .bind (.refl _) fun _ => .bind (widens.expression _) fun right => ?_
    exact widens.operators least _

/-- So is an operand. -/
theorem operand_succ (widens : Widens budget) :
    Within (Parser.operand (budget + 1)) (Parser.operand (budget + 2)) := by
  rw [Parser.operand, Parser.operand]
  refine .bind (.refl _) fun token => ?_
  generalize token.kind = kind
  -- Only the operands of more than one token call rules: unary operators, parentheses, conditionals
  -- and functions.
  split
  case h_7 | h_8 | h_9 =>
    exact .bind (.refl _) fun _ => .bind (widens.expression _) fun _ => .refl _
  case h_10 =>
    refine .bind (.refl _) fun _ => .bind (.refl _) fun _ => .bind (widens.expression _) ?_
    refine fun _ => .bind (.refl _) fun _ => .bind (.refl _) fun _ => .bind widens.block ?_
    refine fun _ => .bind (.refl _) fun _ => .cases ?_ (.refl _)
    refine .bind (.refl _) fun _ => .bind (.refl _) fun _ => .bind widens.block fun _ => .refl _
  case h_11 =>
    refine .bind (.refl _) fun _ => .bind (within_parameters budget) fun _ => ?_
    exact .bind (.refl _) fun _ => .bind widens.block fun _ => .refl _
  all_goals exact .refl _

/-- So are arguments. -/
theorem arguments_succ (widens : Widens budget) :
    Within (Parser.arguments (budget + 1)) (Parser.arguments (budget + 2)) := by
  rw [Parser.arguments, Parser.arguments]
  refine .bind (.refl _) fun next => .cases (.refl _) ?_
  exact .bind (.refl _) fun _ => .bind (widens.expression _) fun _ => widens.moreArguments _

/-- So are the arguments behind others. -/
theorem moreArguments_succ (widens : Widens budget) (read : List Expr) :
    Within (Parser.moreArguments (budget + 1) read) (Parser.moreArguments (budget + 2) read) := by
  rw [Parser.moreArguments, Parser.moreArguments]
  refine .bind (.refl _) fun next => .cases ?_ (.refl _)
  refine .bind (.refl _) fun _ => .bind (.refl _) fun _ => .bind (widens.expression _) fun _ => ?_
  exact widens.moreArguments _

/-- So is a block. -/
theorem block_succ (widens : Widens budget) :
    Within (Parser.block (budget + 1)) (Parser.block (budget + 2)) := by
  rw [Parser.block, Parser.block]
  refine .bind (.refl _) fun token => .bind (.refl _) fun _ => ?_
  exact .bind (widens.statements true []) fun body => .refl _

/-- So is a statement. -/
theorem statement_succ (widens : Widens budget) :
    Within (Parser.statement (budget + 1)) (Parser.statement (budget + 2)) := by
  have closed (make : Expr → Statement) := Within.bind (widens.expression .lowest) fun value =>
    .refl (do Parser.skipSemicolon; return make value)
  rw [Parser.statement, Parser.statement]
  refine .bind (.refl _) fun token => ?_
  generalize token.kind = kind
  split
  · refine .bind (.refl _) fun _ => .bind (.refl _) fun bound => .bind (.refl _) fun _ => ?_
    exact .bind (.refl _) fun _ => closed _
  · exact .bind (.refl _) fun _ => closed _
  · exact .bind widens.block fun _ => .refl _
  · exact closed _

/-- So are statements. -/
theorem statements_succ (widens : Widens budget) (inBlock : Bool) (read : List Statement) :
    Within (Parser.statements (budget + 1) inBlock read)
      (Parser.statements (budget + 2) inBlock read) := by
  rw [Parser.statements, Parser.statements]
  refine .bind (.refl _) fun token => .cases (.refl _) ?_
  refine .bind (.attempt widens.statement) fun found => .bind (.refl _) fun _ => ?_
  exact widens.statements inBlock _

/-- **No rule depends on its budget**, as long as it does not run out of it. -/
theorem all (budget : Nat) : Widens budget := by
  induction budget with
  | zero =>
      exact ⟨fun _ => .starve _, fun _ _ => .starve _, .starve _, .starve _, fun _ => .starve _,
        .starve _, .starve _, fun _ _ => .starve _⟩
  | succ budget ih =>
      exact ⟨ih.expression_succ, ih.operators_succ, ih.operand_succ, ih.arguments_succ,
        ih.moreArguments_succ, ih.block_succ, ih.statement_succ, ih.statements_succ⟩

end Widens

/-! ### Ends -/

variable {rule : Nat → Parser α} {r : Reader} {bound : Nat}
  {result : EStateM.Result ParseStop Reader α}

/-- A rule **ends** at a reader: with every budget from a bound on its result is the same, it does
not run out, and what the reader is left with is what was there, less the tokens that it took. -/
structure EndsFrom (rule : Nat → Parser α) (r : Reader) (bound : Nat)
    (result : EStateM.Result ParseStop Reader α) : Prop where
  same : ∀ budget, bound ≤ budget → rule budget r = result
  fed : ∀ r', result ≠ .error .starved r'
  on : r.OnFrom (stateOf result)

/-- What holds of one more step holds of any number of them. -/
theorem within_of_le (widens : ∀ budget, Within (rule budget) (rule (budget + 1)))
    {budget budget' : Nat} (le : budget ≤ budget') : Within (rule budget) (rule budget') := by
  induction le with
  | refl => exact .refl _
  | step _ ih => exact ih.trans (widens _)

/-- A rule that reads on with some budget ends there. -/
theorem endsFrom_of_leads (rule : Nat → Parser α) {post : α → Reader → Prop}
    (widens : ∀ budget, Within (rule budget) (rule (budget + 1)))
    (leads : r.Leads post (rule bound r)) : EndsFrom rule r bound (rule bound r) := by
  refine ⟨fun budget enough => ?_, leads.ne_starved, leads.onFrom⟩
  rcases within_of_le widens enough r with ⟨r', starved⟩ | same
  · exact absurd starved (leads.ne_starved r')
  · exact same

/-- A rule that ends with every budget from a bound on does so from a larger bound on. -/
theorem EndsFrom.mono (ends : EndsFrom rule r bound result) {bound' : Nat} (le : bound ≤ bound') :
    EndsFrom rule r bound' result :=
  ⟨fun budget enough => ends.same budget (Nat.le_trans le enough), ends.fed, ends.on⟩

/-- An expression of any precedence is read. Above a call there are no operators, so that it is
over with its operand. -/
theorem leads_expression {budget : Nat} (enough : 4 * r.tokens.length + 2 ≤ budget)
    (least : Precedence) :
    r.Leads (fun _ _ => True) (expression budget least r) := by
  by_cases below : least.level < Precedence.call.level
  · exact ((Rules.all budget).expression r least below enough).imp fun _ _ _ => trivial
  obtain ⟨more, rfl⟩ := Nat.exists_eq_add_of_le' (Nat.le_trans (Nat.le_add_left 2 _) enough)
  rw [expression]
  refine .bind ((Rules.all (more + 1)).operand r (by omega)) fun left r₁ on => ?_
  rw [operators, upcoming_bind, if_neg]
  · exact .pure fun _ => trivial
  · have le := Precedence.level_le_call (.ofKind r₁.advanced.current.kind)
    omega

/-- The rule of expressions ends, and a reader's call of it has the result it ends with. -/
theorem expression_endsFrom (r : Reader) (least : Precedence) : ∃ result,
    EndsFrom (fun budget => expression budget least) r (4 * r.tokens.length + 2) result ∧
      r.expression least = ((outcomeOf result).toOption, stateOf result) := by
  have leads := leads_expression (Nat.le_refl (4 * r.tokens.length + 2)) least
  have ends := endsFrom_of_leads (fun budget => expression budget least)
    (fun budget => (Widens.all budget).expression least) leads
  refine ⟨_, ends, ?_⟩
  have ran := ends.same r.budget (Nat.add_le_add_left (by decide) _)
  rw [Reader.expression, ran]
  cases expression (4 * r.tokens.length + 2) least r with
  | ok e r' => rfl
  | error e r' => rfl

/-- An expression is what is read with any budget that suffices. -/
theorem expression_eq {budget : Nat} (enough : 4 * r.tokens.length + 2 ≤ budget)
    {least : Precedence} : r.expression least =
      ((outcomeOf (expression budget least r)).toOption, stateOf (expression budget least r)) := by
  obtain ⟨result, ends, same⟩ := expression_endsFrom r least
  rw [same, ends.same budget enough]

/-- The statements of a text come to its end. -/
theorem statements_endsFrom (r : Reader) : ∃ p r',
    EndsFrom (fun budget => statements budget false []) r r.budget (.ok p r') ∧
      r'.current.kind = .eof ∧ r.program = (p, r') := by
  have leads := (Rules.all r.budget).statements r false [] (Nat.le_refl _)
  have ends := endsFrom_of_leads (fun budget => statements budget false [])
    (fun budget => (Widens.all budget).statements false []) leads
  obtain ⟨p, r', ran, -, ended, -⟩ := Invariant.trivial.statements_ok (Nat.le_refl r.budget) trivial
  rw [ran] at ends
  refine ⟨p, r', ends, ended, ?_⟩
  rw [Reader.program, ran]

end Parser

/-- There are no more tokens than characters, and the end. -/
theorem length_tokenize_le (c : Cursor) : (tokenize c).length ≤ c.rest.length + 1 := by
  induction left : c.rest.length using Nat.strongRecOn generalizing c with
  | ind count ih =>
    subst left
    cases next : c.next? with
    | none =>
        rw [tokenize_of_none next]
        exact Nat.le_add_left 1 _
    | some pair =>
        obtain ⟨token, c'⟩ := pair
        have fewer := Cursor.length_lt_of_next? next
        have later := ih _ fewer c' rfl
        rw [tokenize_of_some next, List.length_cons]
        omega

/-- **Reading ends.** A text is cut into its tokens however far is counted, as long as it is further
than there are characters; and its statements are read up to its end with every budget from one on
that is in proportion to its characters. From every reader, whatever its tokens are and whichever of
them is current, the end of the text included, statements are read up to an end, and an expression
of any precedence is read or refused, with every budget from one on that is in proportion to the
tokens left. -/
theorem reading_ends (text : String) :
    (∀ count, text.toList.length < count →
      (Cursor.ofString text).collect count [] = (Cursor.ofString text).tokens) ∧
    (∃ p r, Parser.EndsFrom (fun budget => Parser.statements budget false []) (.ofString text)
        (4 * text.toList.length + 4) (.ok p r) ∧
      r.tokens = [] ∧ readProgram text = (p, r.errors)) ∧
    ∀ r : Reader,
      (∃ p r', Parser.EndsFrom (fun budget => Parser.statements budget false []) r
          (4 * r.tokens.length + 4) (.ok p r') ∧
        r'.current.kind = .eof ∧ r.program = (p, r')) ∧
      ∀ least, ∃ result, Parser.EndsFrom (fun budget => Parser.expression budget least) r
          (4 * r.tokens.length + 2) result ∧
        r.expression least = ((outcomeOf result).toOption, stateOf result) := by
  refine ⟨fun count enough => ?_, ?_,
    fun r => ⟨Parser.statements_endsFrom r, Parser.expression_endsFrom r⟩⟩
  · exact Cursor.collect_congr enough (Nat.lt_succ_self _) []
  · obtain ⟨p, r, ends, ended, read⟩ := Parser.statements_endsFrom (.ofString text)
    have fewer : (Reader.ofString text).tokens.length + 1 ≤ text.toList.length + 1 := by
      have le := length_tokenize_le (.ofString text)
      rwa [tokenize, List.length_append] at le
    refine ⟨p, r, ends.mono ?_, ?_, ?_⟩
    · rw [Reader.budget]
      omega
    · refine Reader.tokens_eq_nil (fun token mem => ?_) ended
      exact Cursor.kind_ne_eof _ token (ends.on.tokens.subset mem)
    · rw [readProgram, read]

/-- A text that opens a block, a call and a function and closes none of them. It is read with a
budget of a thousand as with any that suffices, and of these two is enough at its end. -/
theorem reading_ends_unclosed :
    (Cursor.ofString "\x7b f(fn(a, [").collect 1000 [] = (Cursor.ofString "\x7b f(fn(a, [").tokens ∧
    ∃ p r, Parser.statements 1000 false [] (.ofString "\x7b f(fn(a, [") = .ok p r ∧
      r.tokens = [] ∧
      r.errors.toList.map ParseError.position = [⟨1, 11⟩, ⟨1, 11⟩, ⟨1, 12⟩] ∧
      Parser.expression 1000 .call r = Parser.expression 2 .call r := by
  obtain ⟨lexed, ⟨p, r, ends, none, read⟩, every⟩ := reading_ends "\x7b f(fn(a, ["
  have places : (readProgram "\x7b f(fn(a, [").2.toList.map ParseError.position =
      [⟨1, 11⟩, ⟨1, 11⟩, ⟨1, 12⟩] := by decide +kernel
  rw [read] at places
  obtain ⟨result, expression, -⟩ := (every r).2 .call
  rw [none] at expression
  exact ⟨lexed 1000 (by decide), p, r, ends.same 1000 (by decide), none, places,
    (expression.same 1000 (by decide)).trans (expression.same 2 (by decide)).symm⟩

end StackScript
