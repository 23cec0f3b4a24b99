import StackScript.Assembly.Compile
import StackScript.Proofs.Fragment
import StackScript.Proofs.Tables

/-!
# Translation

Which fragment is the code of which part of a program, as rules. The rules say nothing of the
order in which names are bound or constants found: they refer to the tables at the end of the
compilation, or later, in which every name the part uses has its slot and every literal its
index. There are no rules for what cannot be compiled. That the assembler follows the rules is
the subject of `Proofs.Assembling`.

## Main definitions

* `Program.yieldsValue`: whether statements come to a value, once nested blocks are dissolved.
* `Phrase`: the parts of a program that have code of their own.
* `Translation`: **the fragment of a phrase**.

## Main results

* `Translation.balanced`: expressions and branches leave one value, and statements none.
* `Translation.each`: no instruction of a translation is a jump, but for those of its choices.
* `Translation.ends_in_pop`: the code of statements that come to a value ends in the pop that
  discards it.
* `Translation.discards_iff`: whether they do can be read off the last instruction of the layout.
* `Translation.mono`: the tables may grow.
* `Program.yieldsValue_of_endsInExpression`: how the two notions of the last statement compare.
-/

namespace StackScript

mutual

/-- Whether a statement leaves a value, given whether one was there before it. An empty block
changes nothing. -/
def Statement.yieldsValue (before : Bool) : Statement → Bool
  | .expression _ _ => true
  | .block (.mk _ statements) => Program.yieldsValue before statements
  | .binding _ _ _ | .returning _ _ => false

/-- Whether the last statement is an expression once nested blocks are dissolved into the list
they stand in. This is what gives a branch of a conditional its value. -/
def Program.yieldsValue (before : Bool) : List Statement → Bool
  | [] => before
  | s :: rest => Program.yieldsValue (s.yieldsValue before) rest

end

/-- A part of a program that has code of its own. -/
inductive Phrase
  /-- An expression, which leaves its value. -/
  | value (e : Expr)
  /-- A branch of a conditional, which leaves its value. -/
  | branch (b : Block)
  /-- A statement, which leaves nothing. -/
  | statement (s : Statement)
  /-- Statements in order. -/
  | statements (p : Program)

/-- The value of a literal that is kept as a constant. -/
def Expr.literal? : Expr → Option Value
  | integer _ n => some (.integer n)
  | float _ x => some (.float x)
  | string _ s => some (.string s)
  | _ => none

open Fragment (single append_assoc append_done layout_append layout_single)

/-- The **fragment of a phrase**, over names and constants that need not be the ones it was
compiled with but may have grown since. -/
inductive Translation (names : NameTable) (pool : ConstantPool) : Phrase → Fragment → Prop
  | literal {e : Expr} {v : Value} {index : Nat} :
      e.literal? = some v → pool.index? v = some index →
      Translation names pool (.value e) (single (.constant (UInt16.ofNat index)))
  | boolean (token : Token) (b : Bool) :
      Translation names pool (.value (.boolean token b)) (single (.boolean b))
  | name {n : Name} {slot : Nat} :
      names.slot? n.text = some slot →
      Translation names pool (.value (.name n)) (single (.load (UInt16.ofNat slot)))
  | unary {token : Token} {written : String} {operand : Expr} {f : Fragment} {i : Instruction} :
      Translation names pool (.value operand) f → Instruction.ofUnary? written = some i →
      Translation names pool (.value (.unary token written operand)) (f ++ single i)
  | less {token : Token} {left right : Expr} {f g : Fragment} :
      Translation names pool (.value right) f → Translation names pool (.value left) g →
      Translation names pool (.value (.binary token left "<" right))
        (f ++ (g ++ single (.compare .greater)))
  | binary {token : Token} {left right : Expr} {written : String} {f g : Fragment}
      {i : Instruction} :
      written ≠ "<" → Translation names pool (.value left) f →
      Translation names pool (.value right) g → Instruction.ofBinary? written = some i →
      Translation names pool (.value (.binary token left written right)) (f ++ (g ++ single i))
  | choice {token : Token} {condition : Expr} {consequence alternative : Block}
      {f c a : Fragment} :
      Translation names pool (.value condition) f → Translation names pool (.branch consequence) c →
      Translation names pool (.branch alternative) a →
      Translation names pool (.value (.conditional token condition consequence (some alternative)))
        (f ++ .choice c a .done)
  | choiceOrNull {token : Token} {condition : Expr} {consequence : Block} {f c : Fragment} :
      Translation names pool (.value condition) f → Translation names pool (.branch consequence) c →
      Translation names pool (.value (.conditional token condition consequence none))
        (f ++ .choice c (single .null) .done)
  | keptValue {token : Token} {p : Program} {f : Fragment} :
      Translation names pool (.statements p) (f ++ single .pop) →
      Program.yieldsValue false p = true →
      Translation names pool (.branch (.mk token p)) f
  | nullValue {token : Token} {p : Program} {f : Fragment} :
      Translation names pool (.statements p) f → Program.yieldsValue false p = false →
      Translation names pool (.branch (.mk token p)) (f ++ single .null)
  | expression {token : Token} {e : Expr} {f : Fragment} :
      Translation names pool (.value e) f →
      Translation names pool (.statement (.expression token e)) (f ++ single .pop)
  | binding {token : Token} {n : Name} {e : Expr} {f : Fragment} {slot : Nat} :
      Translation names pool (.value e) f → names.slot? n.text = some slot →
      slot < Assembly.slotLimit →
      Translation names pool (.statement (.binding token n e))
        (f ++ single (.store (UInt16.ofNat slot)))
  | block {token : Token} {p : Program} {f : Fragment} :
      Translation names pool (.statements p) f →
      Translation names pool (.statement (.block (.mk token p))) f
  | nil : Translation names pool (.statements []) .done
  | cons {s : Statement} {p : Program} {f g : Fragment} :
      Translation names pool (.statement s) f → Translation names pool (.statements p) g →
      Translation names pool (.statements (s :: p)) (f ++ g)

/-- The instruction of a unary operator replaces one value by another. -/
theorem Instruction.ofUnary?_straight {written : String} {i : Instruction}
    (h : ofUnary? written = some i) (constants : Nat) :
    i.Straight constants ∧ i.effect = ⟨1, 1⟩ := by
  rw [ofUnary?.eq_def] at h
  split at h <;> cases h <;> exact ⟨trivial, rfl⟩

/-- The instruction of a binary operator replaces two values by one. -/
theorem Instruction.ofBinary?_straight {written : String} {i : Instruction}
    (h : ofBinary? written = some i) (constants : Nat) :
    i.Straight constants ∧ i.effect = ⟨2, 1⟩ := by
  rw [ofBinary?.eq_def] at h
  split at h <;> cases h <;> exact ⟨trivial, rfl⟩

/-- An instruction that translations may **use**: it is no jump, and if it assigns, then to the slot
of a name. -/
structure Instruction.Usable (names : NameTable) (i : Instruction) : Prop where
  straight : i.target? = none
  assigns : ∀ operand, i = .store operand →
    ∃ name slot, names.slot? name = some slot ∧ operand = UInt16.ofNat slot

/-- The instruction of an operator may be used. -/
theorem Instruction.Straight.usable {names : NameTable} {constants : Nat} {i : Instruction}
    (straight : i.Straight constants) (pushes : i.effect.pushes = 1) : i.Usable names := by
  constructor
  · cases i with
    | jump target | jumpUnless target => exact straight.elim
    | _ => rfl
  · rintro operand rfl
    cases pushes

/-- How many values a phrase leaves on the stack. -/
def Phrase.leaves : Phrase → Nat
  | value _ | branch _ => 1
  | statement _ | statements _ => 0

/-- Whether a phrase discards the value it comes to last, given whether one was discarded just
before it. -/
def Phrase.discards (before : Bool) : Phrase → Bool
  | value _ | branch _ => false
  | statement s => s.yieldsValue before
  | statements p => Program.yieldsValue before p

namespace Translation

variable {names names' : NameTable} {pool pool' : ConstantPool} {x : Phrase} {f : Fragment}

/-- The tables may grow. -/
theorem mono (h : Translation names pool x f) (grows : names.Grows names')
    (grows' : pool.Grows pool') : Translation names' pool' x f := by
  induction h with
  | literal known found => exact .literal known (grows'.keeps found)
  | boolean token b => exact .boolean token b
  | name found => exact .name (grows.keeps found)
  | unary _ known ih => exact .unary ih known
  | less _ _ ihr ihl => exact .less ihr ihl
  | binary ne _ _ known ihl ihr => exact .binary ne ihl ihr known
  | choice _ _ _ ih ihc iha => exact .choice ih ihc iha
  | choiceOrNull _ _ ih ihc => exact .choiceOrNull ih ihc
  | keptValue _ yields ih => exact .keptValue ih yields
  | nullValue _ yields ih => exact .nullValue ih yields
  | expression _ ih => exact .expression ih
  | binding _ found room ih => exact .binding ih (grows.keeps found) room
  | block _ ih => exact .block ih
  | nil => exact .nil
  | cons _ _ ih ihp => exact .cons ih ihp

/-- Statements in sequence have code in sequence. -/
theorem append {p q : Program} {g : Fragment} (hp : Translation names pool (.statements p) f)
    (hq : Translation names pool (.statements q) g) :
    Translation names pool (.statements (p ++ q)) (f ++ g) := by
  induction p generalizing f with
  | nil =>
      cases hp
      exact hq
  | cons s rest ih =>
      cases hp with
      | cons hs hrest =>
          rw [append_assoc]
          exact .cons hs (ih hrest)

/-- **Translations are balanced**: a phrase leaves as many values as it should, on top of
whatever was there, and its constants exist. -/
theorem balanced (h : Translation names pool x f) (sound : pool.Sound) (height : Nat) :
    f.Balanced pool.values.size height (height + x.leaves) := by
  induction h generalizing height with
  | @literal e v index known found =>
      have inRange : Instruction.Straight pool.values.size (.constant (UInt16.ofNat index)) := by
        rw [Instruction.Straight, sound.toNat_ofNat found]
        exact sound.index_lt found
      exact .single inRange (Nat.zero_le _)
  | boolean token b => exact .single trivial (Nat.zero_le _)
  | name found => exact .single trivial (Nat.zero_le _)
  | @unary _ written operand f i _ known ih =>
      obtain ⟨straight, effect⟩ := Instruction.ofUnary?_straight known pool.values.size
      have last := Fragment.Balanced.single (h := height + 1) straight (by rw [effect]; simp)
      rw [effect] at last
      exact (ih height).append last
  | less _ _ ihr ihl =>
      refine (ihr height).append ((ihl (height + 1)).append ?_)
      exact .single (i := .compare .greater) trivial (by simp [Instruction.effect, Phrase.leaves])
  | @binary _ left right written f g i _ _ _ known ihl ihr =>
      obtain ⟨straight, effect⟩ := Instruction.ofBinary?_straight known pool.values.size
      have last := Fragment.Balanced.single (h := height + 1 + 1) straight (by rw [effect]; simp)
      rw [effect] at last
      exact (ihl height).append ((ihr (height + 1)).append last)
  | choice _ _ _ ih ihc iha =>
      exact (ih height).append (.choice (ihc height) (iha height) (.done _))
  | choiceOrNull _ _ ih ihc =>
      have null : (single .null).Balanced pool.values.size height (height + 1) :=
        .single trivial (Nat.zero_le _)
      exact (ih height).append (.choice (ihc height) null (.done _))
  | keptValue _ _ ih => exact (ih height).before_pop
  | nullValue _ _ ih =>
      exact (ih height).append (.single (i := .null) trivial (Nat.zero_le _))
  | expression _ ih =>
      exact (ih height).append
        (.single (i := .pop) trivial (by simp [Instruction.effect, Phrase.leaves]))
  | @binding _ n e f slot _ _ _ ih =>
      exact (ih height).append
        (.single (i := .store (UInt16.ofNat slot)) trivial
          (by simp [Instruction.effect, Phrase.leaves]))
  | block _ ih => exact ih height
  | nil => exact .done height
  | cons _ _ ih ihp => exact (ih height).append (ihp height)

/-- Translations consist of instructions that they may use. -/
theorem each (h : Translation names pool x f) : f.Each (Instruction.Usable names) := by
  have one {i : Instruction} (straight : i.target? = none) (other : ∀ operand, i ≠ .store operand) :
      (single i).Each (Instruction.Usable names) :=
    ⟨⟨straight, fun operand eq => absurd eq (other operand)⟩, trivial⟩
  have append {f g : Fragment} (hf : f.Each (Instruction.Usable names))
      (hg : g.Each (Instruction.Usable names)) : (f ++ g).Each (Instruction.Usable names) :=
    (Fragment.each_append f g).mpr ⟨hf, hg⟩
  induction h with
  | literal _ _ | boolean _ _ | name _ => exact one rfl nofun
  | unary _ known ih =>
      obtain ⟨straight, effect⟩ := Instruction.ofUnary?_straight known 0
      exact append ih ⟨straight.usable (by rw [effect]), trivial⟩
  | less _ _ ihr ihl => exact append ihr (append ihl (one rfl nofun))
  | binary _ _ _ known ihl ihr =>
      obtain ⟨straight, effect⟩ := Instruction.ofBinary?_straight known 0
      exact append ihl (append ihr ⟨straight.usable (by rw [effect]), trivial⟩)
  | choice _ _ _ ih ihc iha => exact append ih ⟨ihc, iha, trivial⟩
  | choiceOrNull _ _ ih ihc => exact append ih ⟨ihc, one rfl nofun, trivial⟩
  | keptValue _ _ ih => exact ((Fragment.each_append _ _).mp ih).1
  | nullValue _ _ ih => exact append ih (one rfl nofun)
  | expression _ ih => exact append ih (one rfl nofun)
  | @binding _ n _ _ slot _ found _ ih =>
      refine append ih ⟨⟨rfl, ?_⟩, trivial⟩
      rintro _ ⟨⟩
      exact ⟨n.text, slot, found, rfl⟩
  | block _ ih => exact ih
  | nil => trivial
  | cons _ _ ih ihp => exact append ih ihp

/-- Where a phrase leaves nothing, its code ends in an instruction, unless it is empty. -/
theorem ends_in_single (h : Translation names pool x f) (nothing : x.leaves = 0) :
    f = .done ∨ ∃ g i, f = g ++ single i := by
  induction h with
  | expression _ _ | binding _ _ _ _ => exact .inr ⟨_, _, rfl⟩
  | block _ ih => exact ih rfl
  | nil => exact .inl rfl
  | @cons s p f g _ _ ih ihp =>
      rcases ihp rfl with rfl | ⟨g', i, rfl⟩
      · rw [append_done]
        exact ih rfl
      · exact .inr ⟨f ++ g', i, (append_assoc f g' (single i)).symm⟩
  | _ => cases nothing

/-- **What is discarded last**: the code of a phrase that discards a value last ends in a pop,
unless it is empty and the value was discarded before it. -/
theorem ends_in_pop (h : Translation names pool x f) {before : Bool}
    (discards : x.discards before = true) :
    (∃ g, f = g ++ single .pop) ∨ (f = .done ∧ before = true) := by
  induction h generalizing before with
  | expression _ _ => exact .inl ⟨_, rfl⟩
  | block _ ih =>
      rw [Phrase.discards, Statement.yieldsValue] at discards
      exact ih discards
  | nil =>
      rw [Phrase.discards, Program.yieldsValue] at discards
      exact .inr ⟨rfl, discards⟩
  | @cons s p f g _ _ ih ihp =>
      rw [Phrase.discards, Program.yieldsValue] at discards
      rcases ihp discards with ⟨g', rfl⟩ | ⟨rfl, first⟩
      · exact .inl ⟨f ++ g', (append_assoc f g' (single .pop)).symm⟩
      · rw [append_done]
        exact ih first
  | _ => cases discards

/-- The code of a phrase that leaves nothing ends in a pop just when the phrase discards a value
last; code that is empty discards what was there before it. -/
theorem discards_iff (h : Translation names pool x f) (nothing : x.leaves = 0) (o : Nat)
    {before : Bool} :
    x.discards before = true ↔
      (f.layout o).getLast? = some .pop ∨ (f.layout o = [] ∧ before = true) := by
  induction h generalizing before o with
  | @expression _ e f _ _ =>
      rw [layout_append, layout_single, List.getLast?_concat]
      exact iff_of_true rfl (.inl rfl)
  | @binding _ _ _ f slot _ _ _ _ =>
      rw [layout_append, layout_single, List.getLast?_concat]
      refine iff_of_false Bool.false_ne_true ?_
      rintro (store | ⟨empty, -⟩)
      · cases store
      · exact List.append_ne_nil_of_right_ne_nil _ (List.cons_ne_nil _ _) empty
  | block _ ih =>
      rw [Phrase.discards, Statement.yieldsValue]
      exact ih rfl o
  | nil =>
      rw [Phrase.discards, Program.yieldsValue]
      exact ⟨fun first => .inr ⟨rfl, first⟩, fun ends => ends.elim (fun pop => by cases pop) (·.2)⟩
  | @cons s p f g _ _ ih ihp =>
      rw [Phrase.discards, Program.yieldsValue, layout_append, List.getLast?_append,
        List.append_eq_nil_iff]
      refine (ihp rfl (o + f.size)).trans ?_
      cases last : (g.layout (o + f.size)).getLast? with
      | none =>
          -- the rest is empty, so what is discarded last is what the first statement discards
          have first : s.yieldsValue before = true ↔
              (f.layout o).getLast? = some .pop ∨ (f.layout o = [] ∧ before = true) := ih rfl o
          rw [List.getLast?_eq_none_iff.mp last]
          simpa using first
      | some i =>
          have nonempty : g.layout (o + f.size) ≠ [] := by
            rintro empty
            rw [empty] at last
            cases last
          simp [nonempty]
  | _ => cases nothing

end Translation

/-! ### The last statement -/

mutual

/-- A statement that ends in an expression leaves a value, whatever was there before it. -/
theorem Statement.yieldsValue_of_endsInExpression : (s : Statement) →
    s.endsInExpression = true → ∀ before, s.yieldsValue before = true
  | .expression _ _, _, _ => rfl
  | .block (.mk _ statements), h, before => by
      rw [Statement.endsInExpression] at h
      rw [Statement.yieldsValue]
      exact Program.yieldsValue_of_endsInExpression statements h before
  | .binding _ _ _, h, _ | .returning _ _, h, _ => by
      rw [Statement.endsInExpression] at h
      cases h

/-- Statements that end in an expression leave a value, whatever was there before them. -/
theorem Program.yieldsValue_of_endsInExpression : (p : List Statement) →
    Program.endsInExpression p = true → ∀ before, Program.yieldsValue before p = true
  | [], h, _ => by
      rw [Program.endsInExpression] at h
      cases h
  | [last], h, before => by
      rw [Program.endsInExpression] at h
      rw [Program.yieldsValue, Program.yieldsValue]
      exact last.yieldsValue_of_endsInExpression h before
  | s :: next :: rest, h, before => by
      rw [Program.endsInExpression] at h
      rw [Program.yieldsValue]
      · exact Program.yieldsValue_of_endsInExpression (next :: rest) h _
      · nofun

end

/-- Whether statements end in an expression is a matter of the last of them. -/
theorem Program.endsInExpression_append (p : Program) {q : Program} (nonempty : q ≠ []) :
    Program.endsInExpression (p ++ q) = Program.endsInExpression q := by
  induction p with
  | nil => rfl
  | cons s rest ih =>
      rw [List.cons_append, Program.endsInExpression, ih]
      exact fun none => nonempty (List.append_eq_nil_iff.mp none).2

end StackScript
