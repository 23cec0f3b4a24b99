import StackScript.Proofs.CodeReading

/-!
# The Stack Check Accepts Balanced Code

The stack check goes through a code from start to end and follows no jumps, so it counts both
branches of a choice as if they ran one after the other. The height it counts is never below the
one that any path has at that place: what it counts too much behind a choice is the value of one
branch, and it only adds to that. So it refuses no code that is balanced.

## Main results

* `Fragment.Balanced.heightAfterAll_layout`: **domination** of the real height by the counted one.
* `Fragment.Balanced.finalHeight_layout`: the stack check accepts balanced code.
-/

namespace StackScript

/-- The height behind what stands in sequence is counted on from the one between. -/
theorem heightAfterAll_append {ls ls' : List Located} {h h' : Nat}
    (first : heightAfterAll h ls = .ok h') :
    heightAfterAll h (ls ++ ls') = heightAfterAll h' ls' := by
  induction ls generalizing h with
  | nil =>
      cases first
      rfl
  | cons l ls ih =>
      simp only [List.cons_append, heightAfterAll] at first ⊢
      cases hl : l.heightAfter h with
      | ok m =>
          rw [hl] at first
          exact ih first
      | error e =>
          rw [hl] at first
          cases first

/-- The check counts the effect of an instruction where it finds enough values. -/
theorem heightAfterAll_cons {i : Instruction} {h : Nat} (pops : i.effect.pops ≤ h) (o : Nat)
    (ls : List Located) :
    heightAfterAll h (⟨o, .instruction i⟩ :: ls) =
      heightAfterAll (h - i.effect.pops + i.effect.pushes) ls := by
  simp only [heightAfterAll, Located.heightAfter, if_neg (Nat.not_lt.mpr pops)]

/-- **Domination.** Where the check counts too much before balanced code, it counts at least as
much too much behind it. -/
theorem Fragment.Balanced.heightAfterAll_layout {constants : Nat} {f : Fragment} {h h' : Nat}
    (balanced : f.Balanced constants h h') (o k : Nat) :
    ∃ k', k ≤ k' ∧ heightAfterAll (h + k) (located o (f.layout o)) = .ok (h' + k') := by
  induction balanced generalizing o k with
  | done h => exact ⟨k, Nat.le_refl k, rfl⟩
  | @op i rest h h' _ pops _ ih =>
      obtain ⟨k', le, counted⟩ := ih (o + i.length) k
      refine ⟨k', le, ?_⟩
      rw [layout, located, heightAfterAll_cons (Nat.le_trans pops (Nat.le_add_right h k)),
        ← counted]
      congr 1
      omega
  | @choice c a rest h h' _ _ _ ihc iha ih =>
      obtain ⟨kc, lec, countedC⟩ := ihc (o + jumpSize) k
      -- the alternative is counted on top of the value of the consequence
      obtain ⟨ka, lea, countedA⟩ := iha (alternativeAt o c) (kc + 1)
      obtain ⟨k', le, counted⟩ := ih (joinAt o c a) ka
      refine ⟨k', by omega, ?_⟩
      have places : located o ((Fragment.choice c a rest).layout o) =
          ⟨o, .instruction (.jumpUnless (UInt16.ofNat (alternativeAt o c)))⟩ ::
            (located (o + jumpSize) (c.layout (o + jumpSize)) ++
              ⟨o + jumpSize + c.size, .instruction (.jump (UInt16.ofNat (joinAt o c a)))⟩ ::
                (located (alternativeAt o c) (a.layout (alternativeAt o c)) ++
                  located (joinAt o c a) (rest.layout (joinAt o c a)))) := by
        rw [layout, located, located_append, codeSize_layout, located, located_append,
          codeSize_layout]
        rfl
      have enough : 1 ≤ h + 1 + k := by omega
      have taken : h + 1 + k - 1 + 0 = h + k := by omega
      have kept : h + 1 + kc - 0 + 0 = h + (kc + 1) := by omega
      rw [places, heightAfterAll_cons enough]
      simp only [Instruction.effect, taken]
      rw [heightAfterAll_append countedC, heightAfterAll_cons (Nat.zero_le _)]
      simp only [Instruction.effect, kept]
      rw [heightAfterAll_append countedA, counted]

/-- The stack check accepts balanced code. -/
theorem Fragment.Balanced.finalHeight_layout {constants : Nat} {f : Fragment} {h : Nat}
    (balanced : f.Balanced constants 0 h) :
    ∃ height, finalHeight (codeOf (f.layout 0)) = .ok height := by
  obtain ⟨k, -, counted⟩ := balanced.heightAfterAll_layout 0 0
  exact ⟨h + k, by rw [finalHeight, scan_codeOf]; exact counted⟩

end StackScript
