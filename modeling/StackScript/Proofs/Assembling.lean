import StackScript.Proofs.Execution
import StackScript.Proofs.Translation

/-!
# The Assembler Lays Down Fragments

What the assembler adds to an assembly depends only on the names and constants that are there:
it is the layout of one fragment, at whatever offset the assembly has come to. So the same
program, assembled elsewhere with the same names and constants, becomes the same fragment, with
other jump targets; the only thing that can go wrong there is that a target is out of reach.

The proof follows the assembler: for every step of it there is a lemma that says what the step
lays down, and a lemma that takes the step's success apart.

## Main definitions

* `Assembler.Lays`: **a step lays down a fragment**, wherever it is run.
* `Assembly.Extends`: an assembly whose names and constants came to be more.
* `Assembler.Follows`: whenever a step succeeds, it lays down a fragment with a property.

## Main results

* `Program.follows`: the assembler follows the rules of `Translation`.
* `Block.assembleBranch_eq`: the last instruction tells whether the statements of a branch come to
  a value.
* `Assembler.Lays.append`, `Assembler.Lays.choice`, `Assembler.Lays.unemit`: how steps compose.
-/

namespace StackScript

open Fragment (single jumpSize alternativeAt joinAt)

/-- The assembly with a fragment laid down behind it, and the names and constants of another. -/
def Assembly.laid (b : Assembly) (f : Fragment) (a : Assembly) (begun : Array Statement) :
    Assembly :=
  { code := b.code ++ (f.layout b.size).toArray, size := b.size + f.size,
    names := a.names, pool := a.pool, begun }

/-- The assembly before the alternative of a conditional: behind the consequence stands the jump
over the alternative, whose target is not known yet. -/
def Assembly.opened (b : Assembly) (c : Fragment) (a : Assembly) (begun : Array Statement) :
    Assembly :=
  { code := (b.code.push (.jumpUnless (UInt16.ofNat (alternativeAt b.size c))) ++
      (c.layout (b.size + jumpSize)).toArray).push (.jump 0xFFFF),
    size := alternativeAt b.size c, names := a.names, pool := a.pool, begun }

/-- An assembly that **extends** another: its names and constants came to be more, and are as
sound as they were. -/
structure Assembly.Extends (a a' : Assembly) : Prop where
  names : a.names.Grows a'.names
  pool : a.pool.Grows a'.pool
  soundNames : a.names.Sound → a'.names.Sound
  soundPool : a.pool.Sound → a'.pool.Sound

/-- The same names and constants are an extension. -/
theorem Assembly.Extends.of_eq {a a' : Assembly} (names : a'.names = a.names)
    (pool : a'.pool = a.pool) : a.Extends a' := by
  refine ⟨?_, ?_, ?_, ?_⟩
  · rw [names]; exact .refl _
  · rw [pool]; exact .refl _
  · rw [names]; exact id
  · rw [pool]; exact id

/-- Extensions compose. -/
theorem Assembly.Extends.trans {a a' a'' : Assembly} (h : a.Extends a') (h' : a'.Extends a'') :
    a.Extends a'' where
  names := h.names.trans h'.names
  pool := h.pool.trans h'.pool
  soundNames sound := h'.soundNames (h.soundNames sound)
  soundPool sound := h'.soundPool (h.soundPool sound)

/-- The code that is there already has no part in what an extension is. -/
theorem Assembly.Extends.of_start {a a' : Assembly} (h : a.Extends a') :
    (Assembly.start a.names a.pool).Extends a' :=
  ⟨h.names, h.pool, h.soundNames, h.soundPool⟩

/-- What was laid down behind an assembly ends in the last instruction of its layout. -/
theorem Assembly.endsIn_laid (b : Assembly) (f : Fragment) (a : Assembly)
    (begun : Array Statement) (i : Instruction) :
    (b.laid f a begun).endsIn i b.size = true ↔ (f.layout b.size).getLast? = some i := by
  have size : f.size = codeSize (f.layout b.size) := (f.codeSize_layout b.size).symm
  rw [endsIn, laid, size]
  rcases List.eq_nil_or_concat (f.layout b.size) with empty | ⟨before, last, ends⟩
  · -- nothing was laid down, and what stood there before does not count
    rw [empty]
    have behind (last : Instruction) : ¬ b.size + last.length ≤ b.size := by
      have := last.one_le_length
      omega
    simp [behind]
  · rw [ends]
    simp

namespace Assembler

/-! ### Laying down -/

/-- A step **lays down a fragment**: run on any assembly with the names and constants of `a`, it
adds the layout of the fragment, and comes to the names and constants of `a'`. It fails just
when a jump target is out of reach. -/
def Lays (x : Assembler Unit) (a : Assembly) (f : Fragment) (a' : Assembly) : Prop :=
  ∀ b : Assembly, b.names = a.names → b.pool = a.pool →
    Ends (fun _ b' => f.Fits b.size ∧ ∃ begun, b' = b.laid f a' begun)
      (fun e _ => e = .programTooLarge Assembly.targetLimit ∧ ¬ f.Fits b.size) (x b)

namespace Lays

variable {x y z : Assembler Unit} {a a' a'' a''' : Assembly} {f g : Fragment} {i : Instruction}

/-- Where the fragment fits, the step succeeds. -/
theorem succeeds (h : Lays x a f a') {b : Assembly} (names : b.names = a.names)
    (pool : b.pool = a.pool) (fits : f.Fits b.size) :
    ∃ begun, x b = .ok () (b.laid f a' begun) := by
  have ends := h b names pool
  cases hx : x b with
  | ok _ b' =>
      rw [hx] at ends
      obtain ⟨-, begun, rfl⟩ := ends
      exact ⟨begun, rfl⟩
  | error e b' =>
      rw [hx] at ends
      exact absurd fits ends.2

/-- Where the step succeeds, the fragment fits. -/
theorem laid (h : Lays x a f a') {b b' : Assembly} (names : b.names = a.names)
    (pool : b.pool = a.pool) (success : x b = .ok () b') :
    f.Fits b.size ∧ ∃ begun, b' = b.laid f a' begun := by
  have ends := h b names pool
  rwa [success] at ends

/-- Only the names and constants matter. -/
theorem congr {b b' : Assembly} (h : Lays x a f a') (names : a.names = b.names)
    (pool : a.pool = b.pool) (names' : b'.names = a'.names) (pool' : b'.pool = a'.pool) :
    Lays x b f b' := by
  intro c hnames hpool
  have laid (begun : Array Statement) : c.laid f b' begun = c.laid f a' begun := by
    rw [Assembly.laid, names', pool', Assembly.laid]
  simp only [laid]
  exact h c (hnames.trans names.symm) (hpool.trans pool.symm)

/-- Steps in sequence lay down fragments in sequence. -/
theorem append (hx : Lays x a f a') (hy : Lays y a' g a'') :
    Lays (do x; y) a (f ++ g) a'' := by
  intro b names pool
  have first := hx b names pool
  rw [bind_run]
  cases hb : x b with
  | error e b' =>
      rw [hb] at first
      exact ⟨first.1, fun fits => first.2 ((Fragment.fits_append f g _).mp fits).1⟩
  | ok _ b' =>
      rw [hb] at first
      obtain ⟨fits, begun, rfl⟩ := first
      have second := hy (b.laid f a' begun) rfl rfl
      dsimp only
      cases hb' : y (b.laid f a' begun) with
      | error e b'' =>
          rw [hb'] at second
          exact ⟨second.1, fun both => second.2 ((Fragment.fits_append f g _).mp both).2⟩
      | ok _ b'' =>
          rw [hb'] at second
          obtain ⟨fits', begun', rfl⟩ := second
          refine ⟨(Fragment.fits_append f g _).mpr ⟨fits, fits'⟩, begun', ?_⟩
          simp only [Assembly.laid, Fragment.layout_append, Fragment.size_append, Nat.add_assoc,
            List.append_toArray, Array.append_assoc]

/-- The end of a fragment can be taken back, if it is an instruction. -/
theorem unemit (h : Lays x a (f ++ single i) a') :
    Lays (do x; Assembler.unemit) a f a' := by
  intro b names pool
  have all := h b names pool
  rw [bind_run]
  cases hb : x b with
  | error e b' =>
      rw [hb] at all
      exact ⟨all.1, fun fits =>
        all.2 ((Fragment.fits_append f _ _).mpr ⟨fits, Fragment.fits_single i _⟩)⟩
  | ok _ b' =>
      rw [hb] at all
      obtain ⟨fits, begun, rfl⟩ := all
      refine ⟨((Fragment.fits_append f _ _).mp fits).1, begun, ?_⟩
      have last : b.code ++ ((f ++ single i).layout b.size).toArray =
          (b.code ++ (f.layout b.size).toArray).push i := by
        rw [Fragment.layout_append, Fragment.layout_single, Array.push_eq_append,
          Array.append_assoc, ← List.append_toArray]
      simp only [Assembly.laid, Assembly.pop, last, Array.back?_push, Array.pop_push,
        Option.elim_some, Fragment.size_append, Fragment.size_single]
      congr 1
      omega

end Lays

/-- A step that makes the names and constants what they should be, and adds an instruction. -/
theorem Lays.of_push {x : Assembler Unit} {a a' : Assembly} {i : Instruction}
    (h : ∀ b : Assembly, b.names = a.names → b.pool = a.pool →
      x b = .ok () (Assembly.push { b with names := a'.names, pool := a'.pool } i)) :
    Lays x a (single i) a' := by
  intro b names pool
  rw [h b names pool]
  refine ⟨Fragment.fits_single i _, b.begun, ?_⟩
  simp only [Assembly.push, Assembly.laid, Fragment.layout_single, Fragment.size_single,
    Array.push_eq_append]

/-- Adding an instruction lays down that instruction. -/
theorem lays_emit (i : Instruction) (a : Assembly) : Lays (emit i) a (single i) a :=
  .of_push fun b names pool => by rw [← names, ← pool]; rfl

/-- Beginning a statement lays down nothing. -/
theorem lays_begin (s : Statement) (a : Assembly) : Lays (begin s) a .done a := by
  intro b names pool
  refine ⟨trivial, b.begun.push s, ?_⟩
  simp only [Assembly.laid, Fragment.layout, Fragment.size, Nat.add_zero, Array.append_empty,
    ← names, ← pool]

/-- That a statement is begun leaves no trace in the code. -/
theorem Lays.begun {y : Assembler Unit} {a a' : Assembly} {f : Fragment} {s : Statement}
    (hy : Lays y a f a') : Lays (do begin s; y) a f a' :=
  (lays_begin s a).append hy

/-- A step that does nothing lays down nothing. -/
theorem lays_pure (a : Assembly) : Lays (pure ()) a .done a := by
  intro b names pool
  refine ⟨trivial, b.begun, ?_⟩
  simp only [Assembly.laid, Fragment.layout, Fragment.size, Nat.add_zero, Array.append_empty,
    ← names, ← pool]

/-! ### Choices -/

/-- The two branches of a conditional, with the jumps around them. -/
def branches (consequence alternative : Assembler Unit) : Assembler Unit := do
  let toAlternative ← reserve .jumpUnless
  consequence
  let toEnd ← reserve .jump
  land toAlternative .jumpUnless
  alternative
  land toEnd .jump

/-- A jump is put down with a placeholder, and its index is where the code ended. -/
theorem reserve_run (jump : UInt16 → Instruction) (b : Assembly) :
    reserve jump b = .ok b.code.size (b.push (jump 0xFFFF)) := rfl

/-- Where the target is in reach, a jump is made to land. -/
theorem land_of_le {index : Nat} {jump : UInt16 → Instruction} {b : Assembly}
    (near : b.size ≤ Assembly.targetLimit) :
    land index jump b =
      .ok () { b with code := b.code.setIfInBounds index (jump (UInt16.ofNat b.size)) } := by
  change (if Assembly.targetLimit < b.size then _ else _ : Assembler Unit) b = _
  rw [if_neg (Nat.not_lt.mpr near)]
  rfl

/-- Where the target is out of reach, the jump does not land, and nothing changes. -/
theorem land_of_lt {index : Nat} {jump : UInt16 → Instruction} {b : Assembly}
    (far : Assembly.targetLimit < b.size) :
    land index jump b = .error (.programTooLarge Assembly.targetLimit) b := by
  change (if Assembly.targetLimit < b.size then _ else _ : Assembler Unit) b = _
  rw [if_pos far]
  rfl

/-- An instruction in the middle of a code is replaced at the index it was added at. -/
theorem setIfInBounds_reserved (before behind : Array Instruction) (i j : Instruction) :
    (before.push i ++ behind).setIfInBounds before.size j = before.push j ++ behind := by
  rw [Array.setIfInBounds_append_left (by simp)]
  simp [Array.setIfInBounds, Array.set_push]

/-- The first jump lands behind the second one. -/
theorem land_alternative {b a : Assembly} {c : Fragment} {begun : Array Statement}
    (near : alternativeAt b.size c ≤ Assembly.targetLimit) :
    land b.code.size .jumpUnless
        (((b.push (.jumpUnless 0xFFFF)).laid c a begun).push (.jump 0xFFFF)) =
      .ok () (b.opened c a begun) := by
  rw [land_of_le near]
  congr 2
  simp only [Assembly.push, Assembly.laid]
  rw [← Array.append_push, setIfInBounds_reserved, Array.append_push]
  rfl

/-- The second jump lands behind the alternative. -/
theorem land_join {b a a' : Assembly} {c d : Fragment} {begun begun' : Array Statement}
    (near : joinAt b.size c d ≤ Assembly.targetLimit) :
    land ((b.push (.jumpUnless 0xFFFF)).laid c a begun).code.size .jump
        ((b.opened c a begun).laid d a' begun') =
      .ok () (b.laid (.choice c d .done) a' begun') := by
  rw [land_of_le near]
  congr 1
  have away : (Instruction.jumpUnless 0xFFFF).length = jumpSize := rfl
  have index : ((b.push (.jumpUnless 0xFFFF)).laid c a begun).code.size =
      (b.code.push (.jumpUnless (UInt16.ofNat (alternativeAt b.size c))) ++
        (c.layout (b.size + jumpSize)).toArray).size := by
    simp [Assembly.push, Assembly.laid, away]
  have code : (b.code.push (.jumpUnless (UInt16.ofNat (alternativeAt b.size c))) ++
        (c.layout (b.size + jumpSize)).toArray).push (.jump (UInt16.ofNat (joinAt b.size c d))) ++
        (d.layout (alternativeAt b.size c)).toArray =
      b.code ++ ((Fragment.choice c d .done).layout b.size).toArray := by
    apply Array.ext'
    simp [Fragment.layout]
  have size : alternativeAt b.size c + d.size = b.size + (Fragment.choice c d .done).size := by
    simp only [alternativeAt, Fragment.size]
    omega
  rw [index]
  simp only [Assembly.opened, Assembly.laid, setIfInBounds_reserved]
  rw [← code, ← size]
  rfl

/-- **Back-patching**: branches that are laid down make up a choice, with both jumps landing
where they should. -/
theorem Lays.choice {x y : Assembler Unit} {a a' a'' : Assembly} {c d : Fragment}
    (hx : Lays x a c a') (hy : Lays y a' d a'') :
    Lays (branches x y) a (.choice c d .done) a'' := by
  intro b names pool
  have first := hx (b.push (.jumpUnless 0xFFFF)) names pool
  simp only [branches, bind_run, reserve_run]
  cases hb : x (b.push (.jumpUnless 0xFFFF)) with
  | error e b' =>
      rw [hb] at first
      exact ⟨first.1, fun fits => first.2 fits.1⟩
  | ok _ b' =>
      rw [hb] at first
      obtain ⟨fitsC, begun, rfl⟩ := first
      dsimp only
      by_cases near : alternativeAt b.size c ≤ Assembly.targetLimit
      · rw [land_alternative near]
        have second := hy (b.opened c a' begun) rfl rfl
        dsimp only
        cases hb' : y (b.opened c a' begun) with
        | error e b'' =>
            rw [hb'] at second
            exact ⟨second.1, fun fits => second.2 fits.2.1⟩
        | ok _ b'' =>
            rw [hb'] at second
            obtain ⟨fitsD, begun', rfl⟩ := second
            dsimp only
            by_cases near' : joinAt b.size c d ≤ Assembly.targetLimit
            · rw [land_join near']
              exact ⟨⟨fitsC, fitsD, near', trivial⟩, begun', rfl⟩
            · rw [land_of_lt (Nat.lt_of_not_le near')]
              exact ⟨rfl, fun fits => near' fits.2.2.1⟩
      · rw [land_of_lt (Nat.lt_of_not_le near)]
        exact ⟨rfl, fun fits => near (Nat.le_trans (Nat.le_add_right _ d.size) fits.2.2.1)⟩

/-! ### Following the rules -/

/-- A step **follows** a property of fragments over names and constants: whenever it succeeds, it
lays down a fragment that has the property over what it came to. -/
def Follows (x : Assembler Unit) (R : NameTable → ConstantPool → Fragment → Prop) : Prop :=
  ∀ a a', x a = .ok () a' → ∃ f, Lays x a f a' ∧ a.Extends a' ∧ R a'.names a'.pool f

section Steps

variable {x y : Assembler Unit} {R S T : NameTable → ConstantPool → Fragment → Prop}

/-- A step that follows a property follows a weaker one. -/
theorem Follows.imp (hx : Follows x R) (weaker : ∀ names pool f, R names pool f → S names pool f) :
    Follows x S := by
  intro a a' success
  obtain ⟨f, lays, grown, hf⟩ := hx a a' success
  exact ⟨f, lays, grown, weaker _ _ f hf⟩

/-- Steps in sequence follow what their properties join to, the first one over the names and
constants of that time. -/
theorem Follows.bind (hx : Follows x R) (hy : Follows y S)
    (join : ∀ (a a' : Assembly) f g, a.Extends a' → R a.names a.pool f →
      S a'.names a'.pool g → T a'.names a'.pool (f ++ g)) :
    Follows (do x; y) T := by
  intro a a'' success
  obtain ⟨_, a', hxa, hya⟩ := bind_ok success
  obtain ⟨f, laysX, grown, hf⟩ := hx a a' hxa
  obtain ⟨g, laysY, grown', hg⟩ := hy a' a'' hya
  exact ⟨f ++ g, laysX.append laysY, grown.trans grown', join a' a'' f g grown' hf hg⟩

/-- A step that lays down the same, whatever the names and constants. -/
theorem Follows.of_lays {f : Fragment} (h : ∀ a, Lays x a f a) :
    Follows x fun _ _ g => g = f := by
  intro a a' success
  obtain ⟨-, begun, rfl⟩ := (h a).laid rfl rfl success
  exact ⟨f, h a, .of_eq rfl rfl, rfl⟩

/-- Adding an instruction lays down that instruction and no other. -/
theorem follows_emit (i : Instruction) : Follows (emit i) fun _ _ f => f = single i :=
  .of_lays (lays_emit i)

/-- An operator lays down its instruction, if it has one. -/
theorem follows_operator (i? : Option Instruction) (written : String) :
    Follows (operator i? written) fun _ _ f => ∃ i, i? = some i ∧ f = single i := by
  cases i? with
  | none =>
      intro a a' success
      cases success
  | some i =>
      intro a a' success
      obtain ⟨f, lays, grown, rfl⟩ := follows_emit i a a' success
      exact ⟨single i, lays, grown, i, rfl, rfl⟩

/-- What pushing a constant does: it is looked up, and added where it is new and there is room. -/
theorem constant_run (v : Value) (a : Assembly) :
    constant v a =
      match a.pool.index? v with
      | some index => .ok () (a.push (.constant (UInt16.ofNat index)))
      | none =>
        if ConstantPool.capacity ≤ a.pool.size then
          .error (.tooManyConstants ConstantPool.capacity) a
        else
          .ok () (Assembly.push { a with pool := a.pool.push v }
            (.constant (UInt16.ofNat a.pool.size))) := by
  change (match a.pool.index? v with | some index => _ | none => _ : Assembler Unit) a = _
  cases a.pool.index? v with
  | some index => rfl
  | none =>
      change (if ConstantPool.capacity ≤ a.pool.size then _ else _ : Assembler Unit) a = _
      dsimp only
      split <;> rfl

/-- A constant is pushed by the index it has then. -/
theorem follows_constant (v : Value) :
    Follows (constant v) fun _ pool f =>
      ∃ index, pool.index? v = some index ∧ f = single (.constant (UInt16.ofNat index)) := by
  intro a a' success
  rw [constant_run] at success
  cases known : a.pool.index? v with
  | some index =>
      rw [known] at success
      cases success
      refine ⟨_, .of_push ?_, .of_eq rfl rfl, index, known, rfl⟩
      rintro ⟨code, size, _, _, begun⟩ rfl rfl
      rw [constant_run, known]
      rfl
  | none =>
      rw [known] at success
      dsimp only at success
      split at success
      · cases success
      · next room =>
          cases success
          refine ⟨_, .of_push ?_, ?_, a.pool.size, ConstantPool.index?_push_self known, rfl⟩
          · rintro ⟨code, size, _, _, begun⟩ rfl rfl
            rw [constant_run, known]
            dsimp only
            rw [if_neg room]
            rfl
          · exact ⟨.refl _, ConstantPool.grows_push a.pool v, id,
              fun sound => sound.push known (Nat.lt_of_not_le room)⟩

/-- What reading a name does: its slot is looked up. -/
theorem load_run (name : String) (a : Assembly) :
    load name a =
      match a.names.slot? name with
      | some slot => .ok () (a.push (.load (UInt16.ofNat slot)))
      | none => .error (.undefinedVariable name) a := by
  change (match a.names.slot? name with | some slot => _ | none => _ : Assembler Unit) a = _
  cases a.names.slot? name <;> rfl

/-- A name is read from its slot. -/
theorem follows_load (name : String) :
    Follows (load name) fun names _ f =>
      ∃ slot, names.slot? name = some slot ∧ f = single (.load (UInt16.ofNat slot)) := by
  intro a a' success
  rw [load_run] at success
  cases bound : a.names.slot? name with
  | none =>
      rw [bound] at success
      cases success
  | some slot =>
      rw [bound] at success
      cases success
      refine ⟨_, .of_push ?_, .of_eq rfl rfl, slot, bound, rfl⟩
      rintro ⟨code, size, _, _, begun⟩ rfl rfl
      rw [load_run, bound]
      rfl

/-- What assigning to a name does: it is bound, and stays so where its slot is out of reach. -/
theorem store_run (name : String) (a : Assembly) :
    store name a =
      if a.names.slotFor name < Assembly.slotLimit then
        .ok () (Assembly.push { a with names := a.names.bind name }
          (.store (UInt16.ofNat (a.names.slotFor name))))
      else .error (.tooManyGlobals Assembly.slotLimit) { a with names := a.names.bind name } := by
  change (if a.names.slotFor name < Assembly.slotLimit then _ else _ : Assembler Unit)
    { a with names := a.names.bind name } = _
  split <;> rfl

/-- A name is written to its slot, which it has from then on. -/
theorem follows_store (name : String) :
    Follows (store name) fun names _ f =>
      ∃ slot, names.slot? name = some slot ∧ slot < Assembly.slotLimit ∧
        f = single (.store (UInt16.ofNat slot)) := by
  intro a a' success
  rw [store_run] at success
  split at success
  · next room =>
      cases success
      refine ⟨_, .of_push ?_, ?_, a.names.slotFor name,
        NameTable.slot?_bind_self a.names name, room, rfl⟩
      · rintro ⟨code, size, _, _, begun⟩ rfl rfl
        rw [store_run, if_pos room]
        rfl
      · exact ⟨NameTable.grows_bind a.names name, .refl _, fun sound => sound.bind room, id⟩
  · cases success

/-- A jump lands without a change of names or constants. -/
theorem of_land {index : Nat} {jump : UInt16 → Instruction} {a a' : Assembly}
    (success : land index jump a = .ok () a') : a'.names = a.names ∧ a'.pool = a.pool := by
  by_cases near : a.size ≤ Assembly.targetLimit
  · rw [land_of_le near] at success
    cases success
    exact ⟨rfl, rfl⟩
  · rw [land_of_lt (Nat.lt_of_not_le near)] at success
    cases success

/-- Branches that follow properties make up a choice of such. -/
theorem Follows.branches (hx : Follows x R) (hy : Follows y S)
    (join : ∀ (a a' : Assembly) f g, a.Extends a' → R a.names a.pool f →
      S a'.names a'.pool g → T a'.names a'.pool (.choice f g .done)) :
    Follows (branches x y) T := by
  intro a a'' success
  obtain ⟨a₁, a₂, a₃, hxa, hl, hya, hl'⟩ : ∃ a₁ a₂ a₃,
      x (a.push (.jumpUnless 0xFFFF)) = .ok () a₁ ∧
      land a.code.size .jumpUnless (a₁.push (.jump 0xFFFF)) = .ok () a₂ ∧
      y a₂ = .ok () a₃ ∧ land a₁.code.size .jump a₃ = .ok () a'' := by
    obtain ⟨_, a₀, reserved, success⟩ := bind_ok success
    cases reserved
    obtain ⟨_, a₁, hxa, success⟩ := bind_ok success
    obtain ⟨_, a₁', reserved, success⟩ := bind_ok success
    cases reserved
    obtain ⟨_, a₂, hl, success⟩ := bind_ok success
    obtain ⟨_, a₃, hya, success⟩ := bind_ok success
    exact ⟨a₁, a₂, a₃, hxa, hl, hya, success⟩
  obtain ⟨f, laysX, grown, hf⟩ := hx _ a₁ hxa
  obtain ⟨g, laysY, grown', hg⟩ := hy _ a₃ hya
  obtain ⟨names, pool⟩ := of_land hl
  obtain ⟨names', pool'⟩ := of_land hl'
  have between : a₁.Extends a₃ := .trans (.of_eq names pool) grown'
  have before : a.Extends a₁ :=
    .trans (.of_eq rfl rfl : a.Extends (a.push (.jumpUnless 0xFFFF))) grown
  have whole : a.Extends a'' := before.trans (between.trans (.of_eq names' pool'))
  refine ⟨.choice f g .done, ?_, whole, ?_⟩
  · exact Lays.choice (laysX.congr rfl rfl rfl rfl)
      (laysY.congr names pool names' pool')
  · rw [names', pool']
    exact join a₁ a₃ f g between hf hg

/-- The last instruction can be taken back. -/
theorem Follows.unemit (hx : Follows x R)
    (last : ∀ names pool f, R names pool f → ∃ g i, f = g ++ single i ∧ T names pool g) :
    Follows (do x; Assembler.unemit) T := by
  intro a a'' success
  obtain ⟨_, a', hxa, dropped⟩ := bind_ok success
  cases dropped
  obtain ⟨f, lays, grown, hf⟩ := hx a a' hxa
  obtain ⟨g, i, rfl, hg⟩ := last _ _ f hf
  exact ⟨g, lays.unemit, grown.trans (.of_eq rfl rfl), hg⟩

end Steps

end Assembler

open Assembler

/-- The fragments of a phrase, as a property. -/
def Phrase.Rules (x : Phrase) (names : NameTable) (pool : ConstantPool) (f : Fragment) : Prop :=
  Translation names pool x f

/-- Rules that held before a further step hold after it. -/
theorem Assembler.Follows.andThen {x y : Assembler Unit} {p : Phrase}
    {S : NameTable → ConstantPool → Fragment → Prop} (hx : Follows x p.Rules)
    (hy : Follows y S) :
    Follows (do x; y) fun names pool h =>
      ∃ f g, Translation names pool p f ∧ S names pool g ∧ h = f ++ g :=
  hx.bind hy fun _ _ f g grown hf hg =>
    ⟨f, g, Translation.mono hf grown.names grown.pool, hg, rfl⟩

/-- Branches that follow rules make up a choice whose consequence obeys them still. -/
theorem Assembler.Follows.andEither {x y : Assembler Unit} {p : Phrase}
    {S : NameTable → ConstantPool → Fragment → Prop} (hx : Follows x p.Rules)
    (hy : Follows y S) :
    Follows (Assembler.branches x y) fun names pool h =>
      ∃ c d, Translation names pool p c ∧ S names pool d ∧ h = .choice c d .done :=
  hx.branches hy fun _ _ c d grown hc hd =>
    ⟨c, d, Translation.mono hc grown.names grown.pool, hd, rfl⟩

/-- To begin a statement makes no difference to the rules. -/
theorem Assembler.Follows.begun {y : Assembler Unit}
    {S : NameTable → ConstantPool → Fragment → Prop} (s : Statement) (hy : Follows y S) :
    Follows (do begin s; y) S := by
  refine (Follows.of_lays (lays_begin s)).bind hy ?_
  rintro _ _ _ f - rfl hf
  exact hf

/-- The literals all follow one rule. -/
theorem follows_literal {e : Expr} {v : Value} (known : e.literal? = some v) :
    Follows (constant v) (Phrase.value e).Rules := by
  refine (follows_constant v).imp ?_
  rintro names pool _ ⟨index, found, rfl⟩
  exact .literal known found

/-- What is refused follows any rules. -/
theorem follows_unsupported (node text : String) (x : Phrase) :
    Follows (unsupported node text) x.Rules := by
  intro a a' success
  cases success

/-- **Which value a branch keeps** can be told from its statements: they end in a pop just when
their last value would be discarded. -/
theorem leavingValue_eq {p : Program} (follows : Follows (Program.assemble p)
    (Phrase.statements p).Rules) :
    leavingValue (Program.assemble p) = (do
      Program.assemble p
      if Program.yieldsValue false p then unemit else emit .null) := by
  funext a
  change (do Program.assemble p; if (← get).endsIn .pop a.size then unemit else emit .null :
    Assembler Unit) a = _
  rw [bind_run, bind_run]
  cases ran : Program.assemble p a with
  | error e a' => rfl
  | ok _ a' =>
      obtain ⟨f, lays, -, rules⟩ := follows a a' ran
      obtain ⟨-, begun, added⟩ := lays.laid rfl rfl ran
      have discards : Program.yieldsValue false p = true ↔ (f.layout a.size).getLast? = some .pop ∨
          (f.layout a.size = [] ∧ false = true) := Translation.discards_iff rules rfl a.size
      have same : a'.endsIn .pop a.size = Program.yieldsValue false p := by
        rw [added, Bool.eq_iff_iff, Assembly.endsIn_laid]
        simpa using discards.symm
      dsimp only
      rw [bind_run, get_run]
      dsimp only
      rw [same]

/-! ### The assembler -/

mutual

/-- The assembler follows the rules of expressions. -/
theorem Expr.follows : (e : Expr) → Follows e.assemble (Phrase.value e).Rules
  | .integer _ _ | .float _ _ | .string _ _ => by
      rw [Expr.assemble]
      exact follows_literal rfl
  | .boolean token b => by
      rw [Expr.assemble]
      refine (follows_emit (.boolean b)).imp ?_
      rintro names pool _ rfl
      exact .boolean token b
  | .name n => by
      rw [Expr.assemble]
      refine (follows_load n.text).imp ?_
      rintro names pool _ ⟨slot, found, rfl⟩
      exact .name found
  | .unary _ written operand => by
      rw [Expr.assemble]
      refine (operand.follows.andThen (follows_operator _ written)).imp ?_
      rintro names pool _ ⟨f, _, hf, ⟨i, known, rfl⟩, rfl⟩
      exact .unary hf known
  | .binary _ left written right => by
      rw [Expr.assemble]
      split
      · next less =>
          subst less
          refine (right.follows.andThen
            (left.follows.andThen (follows_emit (.compare .greater)))).imp ?_
          rintro names pool _ ⟨f, _, hf, ⟨g, _, hg, rfl, rfl⟩, rfl⟩
          exact .less hf hg
      · next other =>
          refine (left.follows.andThen
            (right.follows.andThen (follows_operator _ written))).imp ?_
          rintro names pool _ ⟨f, _, hf, ⟨g, _, hg, ⟨i, known, rfl⟩, rfl⟩, rfl⟩
          exact .binary other hf hg known
  | .conditional _ condition consequence none => by
      rw [Expr.assemble]
      refine (condition.follows.andThen
        (consequence.follows.andEither (follows_emit .null))).imp ?_
      rintro names pool _ ⟨f, _, hf, ⟨c, _, hc, rfl, rfl⟩, rfl⟩
      exact .choiceOrNull hf hc
  | .conditional _ condition consequence (some alternative) => by
      rw [Expr.assemble]
      refine (condition.follows.andThen
        (consequence.follows.andEither alternative.follows)).imp ?_
      rintro names pool _ ⟨f, _, hf, ⟨c, d, hc, hd, rfl⟩, rfl⟩
      exact .choice hf hc hd
  | .function _ _ _ | .call _ _ _ => by
      rw [Expr.assemble]
      exact follows_unsupported _ _ _

/-- The assembler follows the rules of branches. Where the value of the last statement is to be
kept, the code of the statements ends in the pop that discards it, so that taking back the last
instruction takes back just that. -/
theorem Block.follows : (b : Block) → Follows b.assembleBranch (Phrase.branch b).Rules
  | .mk token statements => by
      have all := Program.follows statements
      rw [Block.assembleBranch, leavingValue_eq all]
      cases yields : Program.yieldsValue false statements with
      | true =>
          refine all.unemit fun names pool f hf => ?_
          rcases Translation.ends_in_pop hf yields with ⟨g, rfl⟩ | ⟨-, impossible⟩
          · exact ⟨g, .pop, rfl, .keptValue hf yields⟩
          · cases impossible
      | false =>
          refine (all.andThen (follows_emit .null)).imp ?_
          rintro names pool _ ⟨f, _, hf, rfl, rfl⟩
          exact .nullValue hf yields

/-- The assembler follows the rules of statements. -/
theorem Statement.follows : (s : Statement) → Follows s.assemble (Phrase.statement s).Rules
  | .expression token value => by
      rw [Statement.assemble]
      refine .begun _ ((value.follows.andThen (follows_emit .pop)).imp ?_)
      rintro names pool _ ⟨f, _, hf, rfl, rfl⟩
      exact .expression hf
  | .binding token name value => by
      rw [Statement.assemble]
      refine .begun _ ((value.follows.andThen (follows_store name.text)).imp ?_)
      rintro names pool _ ⟨f, _, hf, ⟨slot, found, room, rfl⟩, rfl⟩
      exact .binding hf found room
  | .block (.mk token statements) => by
      rw [Statement.assemble]
      refine .begun _ ((Program.follows statements).imp ?_)
      rintro names pool f hf
      exact .block hf
  | .returning token value => by
      rw [Statement.assemble]
      exact .begun _ (follows_unsupported _ _ _)

/-- **The assembler follows the rules of** `Translation`. -/
theorem Program.follows : (p : List Statement) →
    Follows (Program.assemble p) (Phrase.statements p).Rules
  | [] => by
      rw [Program.assemble]
      refine (Follows.of_lays lays_pure).imp ?_
      rintro names pool _ rfl
      exact .nil
  | s :: rest => by
      rw [Program.assemble]
      refine (s.follows.andThen (Program.follows rest)).imp ?_
      rintro names pool _ ⟨f, g, hf, hg, rfl⟩
      exact .cons hf hg

end

/-- The assembler keeps the value of a branch just when its statements come to one. -/
theorem Block.assembleBranch_eq (token : Token) (p : Program) :
    (Block.mk token p).assembleBranch = (do
      Program.assemble p
      if Program.yieldsValue false p then unemit else emit .null) := by
  rw [Block.assembleBranch, leavingValue_eq (Program.follows p)]

end StackScript
