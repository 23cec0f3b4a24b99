import StackScript.Assembly
import StackScript.Bytecode.StackCheck

/-!
# Structured Code

A fragment is code before its jumps are laid out: straight-line instructions, and choices
between two fragments by a value on the stack. Laying a fragment out at an offset turns every
choice into the jump around its first branch and the jump around its second one, with the
absolute targets that follow from the sizes of the parts.

What code does is easier to say of fragments than of bytes, because a fragment has no places to
jump to. How a laid-out fragment runs on the machine is the subject of `Proofs.Simulation`.

## Main definitions

* `Fragment`, with `++` and `Fragment.single`.
* `Fragment.layout`: the instructions of a fragment at an offset.
* `Fragment.Fits`: every jump target of the layout can be written in an operand.
* `Fragment.Each`: a property of all instructions of a fragment, its jumps apart.
* `Fragment.Balanced`: **the height discipline**, from one stack height to another along every
  path, with every constant in range.

## Main results

* `Fragment.layout_append`, `Fragment.codeSize_layout`: layouts compose by offsets.
* `Fragment.Balanced.append`, `Fragment.Balanced.split`: so do heights.
-/

namespace StackScript

/-- The number of bytes of instructions. -/
def codeSize : List Instruction → Nat
  | [] => 0
  | i :: is => i.length + codeSize is

/-- No instructions have no size. -/
@[simp] theorem codeSize_nil : codeSize [] = 0 := rfl

/-- The first instruction counts with its length. -/
@[simp] theorem codeSize_cons (i : Instruction) (is : List Instruction) :
    codeSize (i :: is) = i.length + codeSize is := rfl

/-- Instructions in sequence add up their sizes. -/
@[simp] theorem codeSize_append (is js : List Instruction) :
    codeSize (is ++ js) = codeSize is + codeSize js := by
  induction is with
  | nil => simp
  | cons i is ih => rw [List.cons_append, codeSize_cons, codeSize_cons, ih, Nat.add_assoc]

/-- A **fragment**: structured code. -/
inductive Fragment
  /-- No code. -/
  | done
  /-- An instruction that is no jump, and what follows it. -/
  | op (i : Instruction) (rest : Fragment)
  /-- Pops a condition and runs one of two branches, and then what follows them. -/
  | choice (consequence alternative rest : Fragment)

namespace Fragment

/-- One fragment behind another. -/
def append : Fragment → Fragment → Fragment
  | done, g => g
  | op i rest, g => op i (rest.append g)
  | choice consequence alternative rest, g => choice consequence alternative (rest.append g)

instance : Append Fragment := ⟨append⟩

/-- A single instruction. -/
def single (i : Instruction) : Fragment := op i done

/-- In front of a fragment, no code makes no difference. -/
@[simp] theorem done_append (g : Fragment) : done ++ g = g := rfl

/-- What follows a fragment follows its first instruction. -/
@[simp] theorem op_append (i : Instruction) (f g : Fragment) : op i f ++ g = op i (f ++ g) := rfl

/-- What follows a fragment follows its first choice. -/
@[simp] theorem choice_append (c a f g : Fragment) :
    choice c a f ++ g = choice c a (f ++ g) := rfl

/-- Behind a fragment, no code makes no difference. -/
@[simp] theorem append_done (f : Fragment) : f ++ done = f := by
  induction f with
  | done => rfl
  | op i rest ih => rw [op_append, ih]
  | choice c a rest _ _ ih => rw [choice_append, ih]

/-- Sequences of fragments need no parentheses. -/
theorem append_assoc (f g h : Fragment) : f ++ g ++ h = f ++ (g ++ h) := by
  induction f with
  | done => rfl
  | op i rest ih => rw [op_append, op_append, op_append, ih]
  | choice c a rest _ _ ih => rw [choice_append, choice_append, choice_append, ih]

/-! ### Layout -/

/-- The number of bytes of either jump of a choice. -/
def jumpSize : Nat := 3

/-- The number of bytes of a fragment, wherever it is laid out. -/
def size : Fragment → Nat
  | done => 0
  | op i rest => i.length + rest.size
  | choice c a rest => jumpSize + c.size + jumpSize + a.size + rest.size

/-- Where the alternative of a choice begins, if the choice stands at `o`. -/
def alternativeAt (o : Nat) (c : Fragment) : Nat := o + jumpSize + c.size + jumpSize

/-- Where a choice ends, if it stands at `o`. -/
def joinAt (o : Nat) (c a : Fragment) : Nat := alternativeAt o c + a.size

/-- The **layout** of a fragment at an offset. -/
def layout (o : Nat) : Fragment → List Instruction
  | done => []
  | op i rest => i :: rest.layout (o + i.length)
  | choice c a rest =>
    .jumpUnless (UInt16.ofNat (alternativeAt o c)) :: (c.layout (o + jumpSize) ++
      .jump (UInt16.ofNat (joinAt o c a)) :: (a.layout (alternativeAt o c) ++
        rest.layout (joinAt o c a)))

/-- Every jump target of the layout at an offset can be written in an operand. -/
def Fits (o : Nat) : Fragment → Prop
  | done => True
  | op i rest => rest.Fits (o + i.length)
  | choice c a rest =>
    c.Fits (o + jumpSize) ∧ a.Fits (alternativeAt o c) ∧
      joinAt o c a ≤ Assembly.targetLimit ∧ rest.Fits (joinAt o c a)

/-- A target that can be written in an operand is read from it again. -/
theorem toNat_ofNat_target {target : Nat} (near : target ≤ Assembly.targetLimit) :
    (UInt16.ofNat target).toNat = target :=
  UInt16.toNat_ofNat_of_lt (Nat.lt_succ_of_le near)

/-- Fragments in sequence add up their sizes. -/
@[simp] theorem size_append (f g : Fragment) : (f ++ g).size = f.size + g.size := by
  induction f with
  | done => simp [size]
  | op i rest ih => simp only [op_append, size, ih, Nat.add_assoc]
  | choice c a rest _ _ ih => simp only [choice_append, size, ih, Nat.add_assoc]

/-- A single instruction has its length as its size. -/
@[simp] theorem size_single (i : Instruction) : (single i).size = i.length := rfl

/-- What follows a choice ends where the whole does. -/
theorem joinAt_add_size (o : Nat) (c a rest : Fragment) :
    joinAt o c a + rest.size = o + (choice c a rest).size := by
  simp only [joinAt, alternativeAt, size]
  omega

/-- The second fragment is laid out where the first one ends. -/
theorem layout_append (f g : Fragment) (o : Nat) :
    (f ++ g).layout o = f.layout o ++ g.layout (o + f.size) := by
  induction f generalizing o with
  | done => rfl
  | op i rest ih => simp only [op_append, layout, size, ih, List.cons_append, Nat.add_assoc]
  | choice c a rest _ _ ih =>
      simp only [choice_append, layout, ih, List.cons_append, List.append_assoc,
        joinAt_add_size]

/-- A single instruction is laid out as itself, wherever it stands. -/
@[simp] theorem layout_single (i : Instruction) (o : Nat) : (single i).layout o = [i] := rfl

/-- A layout has the size of its fragment. -/
@[simp] theorem codeSize_layout (f : Fragment) (o : Nat) : codeSize (f.layout o) = f.size := by
  induction f generalizing o with
  | done => rfl
  | op i rest ih => simp only [layout, codeSize_cons, ih, size]
  | choice c a rest ihc iha ih =>
      have away (target : UInt16) : (Instruction.jumpUnless target).length = jumpSize := rfl
      have across (target : UInt16) : (Instruction.jump target).length = jumpSize := rfl
      simp only [layout, codeSize_cons, codeSize_append, ihc, iha, ih, size, away, across]
      omega

/-- Fragments in sequence fit if each fits where it stands. -/
theorem fits_append (f g : Fragment) (o : Nat) :
    (f ++ g).Fits o ↔ f.Fits o ∧ g.Fits (o + f.size) := by
  induction f generalizing o with
  | done => simp [Fits, size]
  | op i rest ih => simp only [op_append, Fits, size, ih, Nat.add_assoc]
  | choice c a rest _ _ ih =>
      simp only [choice_append, Fits, ih, and_assoc, joinAt_add_size]

/-- An instruction that is no jump fits anywhere. -/
@[simp] theorem fits_single (i : Instruction) (o : Nat) : (single i).Fits o := trivial

/-- What fits at an offset fits at every smaller one. -/
theorem Fits.mono {f : Fragment} {o o' : Nat} (h : f.Fits o) (le : o' ≤ o) : f.Fits o' := by
  induction f generalizing o o' with
  | done => trivial
  | op i rest ih => exact ih h (by omega)
  | choice c a rest ihc iha ih =>
      obtain ⟨hc, ha, bound, hrest⟩ := h
      have before : alternativeAt o' c ≤ alternativeAt o c := by
        simp only [alternativeAt]; omega
      have behind : joinAt o' c a ≤ joinAt o c a := by
        simp only [joinAt]; omega
      exact ⟨ihc hc (by omega), iha ha before, Nat.le_trans behind bound, ih hrest behind⟩

/-! ### Instructions -/

/-- All instructions of a fragment have a property. -/
def Each (P : Instruction → Prop) : Fragment → Prop
  | done => True
  | op i rest => P i ∧ rest.Each P
  | choice c a rest => c.Each P ∧ a.Each P ∧ rest.Each P

/-- What holds of all instructions of a sequence holds of all those of its parts. -/
theorem each_append {P : Instruction → Prop} (f g : Fragment) :
    (f ++ g).Each P ↔ f.Each P ∧ g.Each P := by
  induction f with
  | done => simp [Each]
  | op i rest ih => simp only [op_append, Each, ih, and_assoc]
  | choice c a rest _ _ ih => simp only [choice_append, Each, ih, and_assoc]

/-- What holds of all instructions may be said more weakly. -/
theorem Each.imp {P Q : Instruction → Prop} (weaker : ∀ i, P i → Q i) :
    {f : Fragment} → f.Each P → f.Each Q
  | done, _ => trivial
  | op i _, h => ⟨weaker i h.1, imp weaker h.2⟩
  | choice _ _ _, h => ⟨imp weaker h.1, imp weaker h.2.1, imp weaker h.2.2⟩

/-! ### Heights -/

end Fragment

/-- Where a jump goes. -/
def Instruction.target? : Instruction → Option Nat
  | .jump target | .jumpUnless target => some target.toNat
  | _ => none

/-- Whether an instruction may stand in a fragment over this many constants: it is no jump, and
a constant it pushes exists. -/
def Instruction.Straight (constants : Nat) : Instruction → Prop
  | .constant index => index.toNat < constants
  | .jump _ | .jumpUnless _ => False
  | _ => True

namespace Fragment

/-- The **height discipline**: run on a stack of the first height, a fragment leaves one of the
second height, whichever branches are taken. Either branch of a choice leaves one value. -/
inductive Balanced (constants : Nat) : Fragment → Nat → Nat → Prop
  | done (h : Nat) : Balanced constants done h h
  | op {i : Instruction} {rest : Fragment} {h h' : Nat} :
      i.Straight constants → i.effect.pops ≤ h →
      Balanced constants rest (h - i.effect.pops + i.effect.pushes) h' →
      Balanced constants (.op i rest) h h'
  | choice {c a rest : Fragment} {h h' : Nat} :
      Balanced constants c h (h + 1) → Balanced constants a h (h + 1) →
      Balanced constants rest (h + 1) h' → Balanced constants (.choice c a rest) (h + 1) h'

namespace Balanced

variable {constants : Nat} {f g : Fragment} {h m h' : Nat}

/-- A single instruction changes the height by its effect. -/
theorem single {i : Instruction} (straight : i.Straight constants) (pops : i.effect.pops ≤ h) :
    Balanced constants (single i) h (h - i.effect.pops + i.effect.pushes) :=
  .op straight pops (.done _)

/-- Balanced fragments compose where their heights meet. -/
theorem append (hf : Balanced constants f h m) (hg : Balanced constants g m h') :
    Balanced constants (f ++ g) h h' := by
  induction hf with
  | done h => exact hg
  | op straight pops _ ih => exact .op straight pops (ih hg)
  | choice hc ha _ _ _ ih => exact .choice hc ha (ih hg)

/-- Between two fragments there is a height. -/
theorem split (hfg : Balanced constants (f ++ g) h h') :
    ∃ m, Balanced constants f h m ∧ Balanced constants g m h' := by
  induction f generalizing h with
  | done => exact ⟨h, .done h, hfg⟩
  | op i rest ih =>
      cases hfg with
      | op straight pops hrest =>
          obtain ⟨m, hf, hg⟩ := ih hrest
          exact ⟨m, .op straight pops hf, hg⟩
  | choice c a rest _ _ ih =>
      cases hfg with
      | choice hc ha hrest =>
          obtain ⟨m, hf, hg⟩ := ih hrest
          exact ⟨m, .choice hc ha hf, hg⟩

/-- Before a final pop the stack is one higher. -/
theorem before_pop (hf : Balanced constants (f ++ Fragment.single .pop) h h') :
    Balanced constants f h (h' + 1) := by
  obtain ⟨m, hf, hpop⟩ := hf.split
  cases hpop with
  | op _ pops hrest =>
      cases hrest
      have enough : 1 ≤ m := pops
      have restored : m - Instruction.pop.effect.pops + Instruction.pop.effect.pushes + 1 = m := by
        simp only [Instruction.effect]
        omega
      rwa [restored]

end Balanced

end Fragment

end StackScript
