import Std.Data.TreeMap
import StackScript.Value

/-!
# An Order for Look-Up

Values can be kept in search trees. The order has no meaning in the language; what matters is
that it is total and that two values compare as equal just when they are the same data.

## Main results

* The instances of `Std.TransOrd` and `Std.LawfulEqOrd`, by which search trees of values obey
  the laws of finite maps.
-/

namespace StackScript.Value

/-- A number that tells all values but texts apart: four times their content, and their type. -/
def number : Value → Nat
  | integer n => 4 * n.toUInt64.toNat
  | float x => 4 * x.bits.toNat + 1
  | string _ => 2
  | boolean false => 3
  | boolean true => 7
  | null => 11

/-- The content of a text. -/
def content : Value → String
  | string s => s
  | _ => ""

/-- By number, and texts among themselves by content. -/
instance : Ord Value := ⟨compareLex (compareOn number) (compareOn content)⟩

instance : Std.TransOrd Value :=
  inferInstanceAs (Std.TransCmp (compareLex (compareOn number) (compareOn content)))

/-- A value is known by its number, and a text by its content besides. -/
theorem eq_of_number_of_content {v w : Value} (hn : v.number = w.number)
    (hc : v.content = w.content) : v = w := by
  cases v with
  | integer n =>
    cases w with
    | integer m =>
      have same : n.toUInt64 = m.toUInt64 :=
        UInt64.toNat_inj.mp (by simp only [number] at hn; omega)
      obtain ⟨n⟩ := n
      obtain ⟨m⟩ := m
      exact congrArg (fun bits => integer ⟨bits⟩) same
    | boolean b => cases b <;> simp only [number] at hn <;> omega
    | _ => simp only [number] at hn; omega
  | float x =>
    cases w with
    | float y =>
      have same : x.bits = y.bits := UInt64.toNat_inj.mp (by simp only [number] at hn; omega)
      obtain ⟨x⟩ := x
      obtain ⟨y⟩ := y
      exact congrArg (fun bits => float ⟨bits⟩) same
    | boolean b => cases b <;> simp only [number] at hn <;> omega
    | _ => simp only [number] at hn; omega
  | string s =>
    cases w with
    | string t => exact congrArg string hc
    | boolean b => cases b <;> simp only [number] at hn <;> omega
    | _ => simp only [number] at hn; omega
  | boolean b =>
    cases b <;> cases w with
    | boolean c => cases c <;> simp_all [number]
    | _ => simp only [number] at hn; omega
  | null =>
    cases w with
    | null => rfl
    | boolean b => cases b <;> simp only [number] at hn <;> omega
    | _ => simp only [number] at hn; omega

instance : Std.LawfulEqOrd Value where
  compare_self := Std.ReflCmp.compare_self
  eq_of_compare {v w} h := by
    have h : (compareOn number v w).then (compareOn content v w) = .eq := h
    rw [Ordering.then_eq_eq] at h
    exact eq_of_number_of_content (Std.LawfulEqOrd.eq_of_compare h.1)
      (Std.LawfulEqOrd.eq_of_compare h.2)

end StackScript.Value
