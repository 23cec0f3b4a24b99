import StackScript.Proofs.ParserTermination

/-!
# What Is Reported, and Where

A rule that gives no result has made a report, and every report has the place of a token. Reports
are made on the current token or on the one that is upcoming, whatever rule makes them and whatever
is read after them, and the reader never goes back; so they come in the order of the text.

That is an invariant of reading: no report is made beyond the current token, as long as no rule
gives up. The rule that does may report the upcoming token, but then reading goes on there.

## Main definitions

* `Position.AtMost`: the order of places, by line and then by column.
* `Reader.since`: what was reported from one reader to a later one.
* `Reader.InOrder`: the tokens that are left stand one behind the other.
* `Reader.ReportedUpTo`: **reports in order**, none of them beyond a place.
* `Reader.AnswersFor`: what a rule has to report.

## Main results

* `Parser.Invariant.reporting`: the rules report in order.
* `reports_complete_and_ordered`: **what is reported of a text**.
-/

namespace StackScript

/-! ### Places -/

/-- A place stands **at most** as far as another: in an earlier line, or in the same line in an
earlier or the same column. -/
def Position.AtMost (p q : Position) : Prop :=
  p.line < q.line ∨ p.line = q.line ∧ p.column ≤ q.column

namespace Position

/-- A place stands at most as far as itself. -/
theorem AtMost.refl (p : Position) : p.AtMost p := .inr ⟨rfl, Nat.le_refl _⟩

/-- Of places, what stands at most as far as one stands at most as far as any that this does. -/
theorem AtMost.trans {p q s : Position} (h : p.AtMost q) (h' : q.AtMost s) : p.AtMost s := by
  unfold AtMost at *
  omega

/-- A place in front of another stands at most as far. -/
theorem Precedes.atMost {p q : Position} (h : p.Precedes q) : p.AtMost q := by
  unfold Precedes AtMost at *
  omega

end Position

namespace Reader

variable {start r : Reader}

/-- The places of the tokens that are left, and of the end. -/
def places (r : Reader) : List Position :=
  r.tokens.map Token.position ++ [r.finish]

/-- The tokens that are left stand one behind the other. -/
def InOrder (r : Reader) : Prop :=
  r.places.Pairwise Position.AtMost

/-- The place of the current token is among those that are left. -/
theorem current_mem_places (r : Reader) : r.current.position ∈ r.places := by
  rw [places, current]
  cases r.tokens with
  | nil => exact List.mem_singleton_self _
  | cons token rest => exact List.mem_cons_self

/-- The places left later are the last ones of those left before. -/
theorem OnFrom.places (on : start.OnFrom r) : r.places <:+ start.places := by
  obtain ⟨before, tokens⟩ := on.tokens
  refine ⟨before.map Token.position, ?_⟩
  rw [Reader.places, Reader.places, ← tokens, on.finish, List.map_append, List.append_assoc]

/-- What is left later is in order as well. -/
theorem InOrder.of_onFrom (ordered : start.InOrder) (on : start.OnFrom r) : r.InOrder :=
  ordered.sublist on.places.sublist

/-- The current token stands before the upcoming one, or both are the end. -/
theorem InOrder.current_atMost (ordered : r.InOrder) :
    r.current.position.AtMost r.upcoming.position := by
  rw [InOrder, places] at ordered
  rw [current, upcoming]
  cases tokens : r.tokens with
  | nil => exact .refl _
  | cons token rest =>
      rw [tokens] at ordered
      have first := (List.pairwise_cons.mp ordered).1
      cases rest with
      | nil => exact first _ (List.mem_singleton_self _)
      | cons next more => exact first _ List.mem_cons_self

/-! ### Reports -/

/-- What was reported from one reader to a later one. -/
def since (start r : Reader) : List ParseError :=
  r.errors.toList.drop start.errors.size

/-- A report is added behind those made since the start. -/
theorem OnFrom.since_reported (on : start.OnFrom r) (fault : ParseFault) (position : Position) :
    start.since (r.reported fault position) = start.since r ++ [⟨fault, position⟩] := by
  rw [since, Reader.reported, Array.toList_push]
  exact List.drop_append_of_le_length on.errors_le

/-- The reports since a start are **in order up to** a place: they have places of tokens, none goes
back behind the one made before it, and none goes beyond that place. -/
structure ReportedUpTo (start r : Reader) (limit : Position) : Prop where
  on : start.OnFrom r
  placed : ∀ e ∈ start.since r, e.position ∈ start.places
  sorted : (start.since r).Pairwise fun e e' => e.position.AtMost e'.position
  bounded : ∀ e ∈ start.since r, e.position.AtMost limit

namespace ReportedUpTo

variable {limit : Position}

/-- At the start there are no reports yet, so they are in order up to the current token. -/
theorem start_current (start : Reader) : start.ReportedUpTo start start.current.position := by
  have none : start.since start = [] := List.drop_length
  exact ⟨.refl _, by simp [none], by simp [none], by simp [none]⟩

/-- Reports that are in order up to a place are so up to any place behind it. -/
theorem mono (h : start.ReportedUpTo r limit) {limit' : Position} (le : limit.AtMost limit') :
    start.ReportedUpTo r limit' :=
  ⟨h.on, h.placed, h.sorted, fun e mem => (h.bounded e mem).trans le⟩

/-- To move on makes no report. -/
theorem advanced (h : start.ReportedUpTo r limit) : start.ReportedUpTo r.advanced limit :=
  ⟨h.on.trans (.advanced r), h.placed, h.sorted, h.bounded⟩

/-- A report is added at the limit. -/
theorem reported (h : start.ReportedUpTo r limit) (mem : limit ∈ r.places) (fault : ParseFault) :
    start.ReportedUpTo (r.reported fault limit) limit := by
  have since := h.on.since_reported fault limit
  refine ⟨h.on.trans (.reported r _), ?_, ?_, ?_⟩ <;> rw [since]
  · have placed : ∀ e ∈ [ParseError.mk fault limit], e.position ∈ start.places :=
      List.forall_mem_singleton.mpr (h.on.places.subset mem)
    exact List.forall_mem_append.mpr ⟨h.placed, placed⟩
  · refine List.pairwise_append.mpr ⟨h.sorted, List.pairwise_singleton _ _, ?_⟩
    intro e before e' last
    rw [List.mem_singleton.mp last]
    exact h.bounded e before
  · have bounded : ∀ e ∈ [ParseError.mk fault limit], e.position.AtMost limit :=
      List.forall_mem_singleton.mpr (.refl _)
    exact List.forall_mem_append.mpr ⟨h.bounded, bounded⟩

end ReportedUpTo

end Reader

open Reader

/-- **The rules report in order.** Nothing is reported beyond the current token; where a rule gives
up, nothing is reported beyond the upcoming one. -/
def Parser.Invariant.reporting {start : Reader} (ordered : start.InOrder) : Parser.Invariant where
  ahead r := start.ReportedUpTo r r.current.position
  behind r := start.ReportedUpTo r r.current.position
  gaveUp r := start.ReportedUpTo r r.upcoming.position
  move r upTo := upTo.advanced.mono (ordered.of_onFrom upTo.on).current_atMost
  read _ _ upTo := upTo
  readInteger _ _ _ _ upTo := upTo
  unclosed r _ upTo := upTo.reported r.current_mem_places _
  refuse r fault upTo :=
    (upTo.reported r.current_mem_places fault).mono (ordered.of_onFrom upTo.on).current_atMost
  refuseInteger r _ _ upTo :=
    (upTo.reported r.current_mem_places _).mono (ordered.of_onFrom upTo.on).current_atMost
  miss r fault upTo := by
    have upTo' := upTo.mono (ordered.of_onFrom upTo.on).current_atMost
    exact upTo'.reported ((OnFrom.advanced r).places.subset r.advanced.current_mem_places) fault
  resume _ upTo := upTo.advanced

/-! ### Calls -/

/-- A rule that was called at a reader **accounts for** what it read of a text. Where it has no
result it has made a report; and its reports have places of tokens, in order. -/
structure Reader.Accounts {α : Type} (text : String) (r : Reader) (found : Option α)
    (r' : Reader) : Prop where
  on : r.OnFrom r'
  complete : found = none → r.since r' ≠ []
  placed : ∀ e ∈ r.since r', ∃ token ∈ tokenize (.ofString text), e.position = token.position
  sorted : (r.since r').Pairwise fun e e' => e.position.AtMost e'.position

namespace Reader

variable {α : Type} {text : String} {r r' : Reader}

/-- The places of a text are those of its tokens. -/
theorem places_ofString (text : String) :
    (ofString text).places = (tokenize (.ofString text)).map Token.position := by
  rw [tokenize, List.map_append]
  rfl

/-- A place that is left in a text is the place of a token of it. -/
theorem exists_token (on : (ofString text).OnFrom r) {place : Position} (mem : place ∈ r.places) :
    ∃ token ∈ tokenize (.ofString text), place = token.position := by
  have mem' := on.places.subset mem
  rw [places_ofString] at mem'
  obtain ⟨token, found, same⟩ := List.mem_map.mp mem'
  exact ⟨token, found, same.symm⟩

/-- A text has its tokens in order. -/
theorem inOrder_ofString (text : String) : (ofString text).InOrder := by
  have divides : Divides [] (tokenize (.ofString text)) text.toList :=
    Cursor.divides_tokenize (.ofString text) rfl
  rw [InOrder, places_ofString, List.pairwise_map]
  exact divides.pairwise_precedes.imp Position.Precedes.atMost

/-- Where there are more reports than before, some were made since. -/
theorem since_ne_nil (more : r.errors.size < r'.errors.size) : r.since r' ≠ [] := by
  refine List.ne_nil_of_length_pos ?_
  rw [since, List.length_drop, Array.length_toList]
  omega

/-- A rule that reads on and reports in order accounts for what it read. -/
theorem accounts_of_leads {post : α → Reader → Prop} {x : EStateM.Result ParseStop Reader α}
    (on : (ofString text).OnFrom r) (leads : r.Leads post x)
    (keeps : (Parser.Invariant.reporting ((inOrder_ofString text).of_onFrom on)).Keeps x) :
    r.Accounts text (outcomeOf x).toOption (stateOf x) := by
  cases x with
  | ok a r' =>
      refine ⟨leads.1, nofun, fun e mem => ?_, keeps.sorted⟩
      exact exists_token on (keeps.placed e mem)
  | error e r' =>
      obtain ⟨on', rfl, more⟩ := leads
      rcases keeps with starved | upTo
      · cases starved
      refine ⟨on', fun _ => since_ne_nil more, fun e mem => ?_, upTo.sorted⟩
      exact exists_token on (upTo.placed e mem)

end Reader

/-- A rule that does not run out of its budget can be tried. -/
theorem Parser.attempt_eq {α : Type} {rule : Parser α} {r : Reader}
    {post : α → Reader → Prop} (leads : r.Leads post (rule r)) :
    Parser.attempt rule r = .ok (outcomeOf (rule r)).toOption (stateOf (rule r)) := by
  rw [Parser.attempt]
  cases ran : rule r with
  | ok a r' => rfl
  | error e r' =>
      rw [ran] at leads
      obtain ⟨-, rfl, -⟩ := leads
      rfl

/-- **What is reported of a text is complete and in order.** Wherever reading may have come to, an
expression or a statement that is not found has been reported by the call that looked for it; every
report has the place of a token of the text, or of its end; and the places of the reports never go
back, neither within a call nor in the text as a whole. -/
theorem reports_complete_and_ordered (text : String) :
    (∀ r, (Reader.ofString text).OnFrom r →
      (∀ least, r.Accounts text (r.expression least).1 (r.expression least).2) ∧
      (∀ least budget, 4 * r.tokens.length + 2 ≤ budget →
        Parser.attempt (Parser.expression budget least) r =
          .ok (r.expression least).1 (r.expression least).2) ∧
      ∀ budget, 4 * r.tokens.length + 3 ≤ budget → ∃ found r',
        Parser.attempt (Parser.statement budget) r = .ok found r' ∧
          r.Accounts text found r') ∧
    (∀ e ∈ (readProgram text).2, ∃ token ∈ tokenize (.ofString text),
      e.position = token.position) ∧
    (readProgram text).2.toList.Pairwise fun e e' => e.position.AtMost e'.position := by
  have places (r : Reader) (on : (Reader.ofString text).OnFrom r) :=
    (inOrder_ofString text).of_onFrom on
  refine ⟨fun r on => ⟨fun least => ?_, fun least budget enough => ?_, fun budget enough => ?_⟩, ?_⟩
  · have enough : 4 * r.tokens.length + 2 ≤ r.budget := Nat.add_le_add_left (by decide) _
    have keeps := ((Parser.Invariant.reporting (places r on)).kept r.budget).expression r least
      (.start_current r)
    rw [Parser.expression_eq enough]
    exact accounts_of_leads on (Parser.leads_expression enough least) keeps
  · rw [Parser.expression_eq enough]
    exact Parser.attempt_eq (Parser.leads_expression enough least)
  · have leads := (Rules.all budget).statement r enough
    have keeps := ((Parser.Invariant.reporting (places r on)).kept budget).statement r
      (.start_current r)
    exact ⟨_, _, Parser.attempt_eq leads, accounts_of_leads on leads keeps⟩
  · have ordered := inOrder_ofString text
    obtain ⟨p, r, ran, -, -, upTo⟩ := (Parser.Invariant.reporting ordered).statements_ok
      (Nat.le_refl (Reader.ofString text).budget) (.start_current _)
    have read : readProgram text = (p, r.errors) := by
      rw [readProgram, Reader.program, ran]
    have all : (Reader.ofString text).since r = r.errors.toList := rfl
    rw [read]
    refine ⟨fun e mem => ?_, all ▸ upTo.sorted⟩
    exact exists_token (.refl _) (upTo.placed e (all ▸ Array.mem_toList_iff.mpr mem))

/-- The binding has no name, the call in the block is not closed, and neither is the block. -/
theorem reports_complete_and_ordered_nested :
    let text := "let 1 \x7b f(2 3"
    let start := Reader.ofString text
    (∃ r', Parser.attempt (Parser.statement 100) start = .ok none r' ∧ start.since r' ≠ []) ∧
    (readProgram text).2.toList.map ParseError.position = [⟨1, 5⟩, ⟨1, 13⟩, ⟨1, 14⟩] ∧
    (readProgram text).2.toList.Pairwise fun e e' => e.position.AtMost e'.position := by
  intro text start
  obtain ⟨calls, -, sorted⟩ := reports_complete_and_ordered text
  obtain ⟨-, -, statements⟩ := calls start (.refl start)
  obtain ⟨found, r', ran, accounts⟩ := statements 100 (by decide +kernel)
  have none : (outcomeOf (Parser.attempt (Parser.statement 100) start)).toOption.map
      Option.isNone = some true := by decide +kernel
  rw [ran] at none
  cases found with
  | some s => cases none
  | none => exact ⟨⟨r', ran, accounts.complete rfl⟩, by decide +kernel, sorted⟩

end StackScript
