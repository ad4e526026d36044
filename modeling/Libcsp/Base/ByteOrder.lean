import Mathlib.Data.List.Basic
import Mathlib.Tactic.Common

namespace Sys

/-- The difference of two texts at the first place where they differ. A text that
ends there counts as zero, as the NUL behind it does. -/
def byteDifference : List UInt8 → List UInt8 → Int
  | [], [] => 0
  | [], b :: _ => -(b.toNat : Int)
  | a :: _, [] => a.toNat
  | a :: as, b :: bs => if a = b then byteDifference as bs else (a.toNat : Int) - b.toNat

theorem byteDifference_antisymm (as bs : List UInt8) : byteDifference as bs = -byteDifference bs as := by
  fun_induction byteDifference as bs with
  | case1 => rfl
  | case2 b bs => simp [byteDifference]
  | case3 a as => simp [byteDifference]
  | case4 as a bs ih => rw [byteDifference, if_pos rfl, ih]
  | case5 a as b bs differ =>
    rw [byteDifference, if_neg (Ne.symm differ)]
    omega

/-- Negative exactly for the lexicographically smaller text, a proper start of a text
being smaller than it. -/
theorem byteDifference_neg_iff {as bs : List UInt8} (noNul : 0 ∉ bs) : byteDifference as bs < 0 ↔ as < bs := by
  fun_induction byteDifference as bs with
  | case1 => simp
  | case2 b bs =>
    have positive : b.toNat ≠ 0 := by
      intro zero
      exact noNul (by simp [← UInt8.toNat_inj, zero])
    simp only [List.nil_lt_cons, iff_true]
    omega
  | case3 a as =>
    simp only [List.not_lt_nil, iff_false]
    omega
  | case4 as a bs ih =>
    rw [ih fun member => noNul (List.mem_cons_of_mem a member), List.cons_lt_cons_iff]
    simp
  | case5 a as b bs differ =>
    rw [List.cons_lt_cons_iff, UInt8.lt_iff_toNat_lt]
    simp only [differ, false_and, or_false]
    omega

theorem byteDifference_pos_iff {as bs : List UInt8} (noNul : 0 ∉ as) : 0 < byteDifference as bs ↔ bs < as := by
  rw [← byteDifference_neg_iff noNul, byteDifference_antisymm]
  omega

theorem byteDifference_le_iff {as bs : List UInt8} (noNul : 0 ∉ as) : byteDifference as bs ≤ 0 ↔ as ≤ bs := by
  rw [← List.not_lt, ← byteDifference_pos_iff noNul]
  omega

theorem byteDifference_eq_zero_iff {as bs : List UInt8} (noNulA : 0 ∉ as) (noNulB : 0 ∉ bs) :
    byteDifference as bs = 0 ↔ as = bs := by
  have below := @byteDifference_le_iff as bs noNulA
  have above := @byteDifference_le_iff bs as noNulB
  rw [byteDifference_antisymm] at above
  constructor
  · intro zero
    exact List.le_antisymm (below.mp (by omega)) (above.mp (by omega))
  · rintro rfl
    have least := below.mpr (List.le_refl as)
    have most := above.mpr (List.le_refl as)
    omega

end Sys
