import Mathlib.Algebra.Ring.Nat
import Mathlib.Data.List.Basic
import Mathlib.Algebra.BigOperators.Group.List.Basic
import Mathlib.Tactic.Common

/- A number as a sequence of bit fields, given by their widths, the most significant first. -/
namespace Sys.BitField

def pack : List Nat → List Nat → Nat
  | _ :: widths, v :: vs => v * 2 ^ widths.sum + pack widths vs
  | _, _ => 0

def unpack : List Nat → Nat → List Nat
  | [], _ => []
  | width :: widths, n => n / 2 ^ widths.sum % 2 ^ width :: unpack widths n

/-- There is one value for each field, and it fits. -/
def Fits : List Nat → List Nat → Prop := List.Forall₂ fun width v => v < 2 ^ width

variable {widths vs us : List Nat}

theorem pack_lt (fits : Fits widths vs) : pack widths vs < 2 ^ widths.sum := by
  induction fits with
  | nil => simp [pack]
  | @cons width v widths vs small _ ih =>
    rw [pack, List.sum_cons, pow_add]
    calc v * 2 ^ widths.sum + pack widths vs < v * 2 ^ widths.sum + 2 ^ widths.sum := Nat.add_lt_add_left ih _
      _ = (v + 1) * 2 ^ widths.sum := (Nat.succ_mul ..).symm
      _ ≤ 2 ^ width * 2 ^ widths.sum := Nat.mul_le_mul_right _ small

/-- What lies above the fields is not looked at. -/
theorem unpack_mod (widths : List Nat) (n above : Nat) (wide : widths.sum ≤ above) :
    unpack widths (n % 2 ^ above) = unpack widths n := by
  induction widths with
  | nil => rfl
  | cons width widths ih =>
    rw [List.sum_cons] at wide
    rw [unpack, unpack, ih (by omega)]
    congr 1
    obtain ⟨rest, rfl⟩ : ∃ rest, above = widths.sum + (width + rest) := ⟨above - widths.sum - width, by omega⟩
    rw [pow_add, Nat.mod_mul_right_div_self, pow_add, Nat.mod_mul_right_mod]

theorem unpack_fits (widths : List Nat) (n : Nat) : Fits widths (unpack widths n) := by
  induction widths with
  | nil => exact .nil
  | cons width widths ih => exact .cons (Nat.mod_lt _ (Nat.two_pow_pos width)) ih

theorem pack_unpack (widths : List Nat) (n : Nat) : pack widths (unpack widths n) = n % 2 ^ widths.sum := by
  induction widths with
  | nil => simp [pack, Nat.mod_one]
  | cons width widths ih =>
    rw [unpack, pack, ih, List.sum_cons, Nat.add_comm width, pow_add, Nat.mod_mul]
    rw [Nat.mul_comm, Nat.add_comm]

theorem unpack_pack (fits : Fits widths vs) : unpack widths (pack widths vs) = vs := by
  induction fits with
  | nil => rfl
  | @cons width v widths vs small fits ih =>
    have below := pack_lt fits
    have positive := Nat.two_pow_pos widths.sum
    have high : (v * 2 ^ widths.sum + pack widths vs) / 2 ^ widths.sum = v := by
      rw [Nat.mul_comm, Nat.mul_add_div positive, Nat.div_eq_of_lt below, Nat.add_zero]
    have low : unpack widths (v * 2 ^ widths.sum + pack widths vs) = vs := by
      rw [← unpack_mod widths _ widths.sum (Nat.le_refl _), Nat.mul_comm, Nat.mul_add_mod, Nat.mod_eq_of_lt below, ih]
    rw [pack, unpack, high, low, Nat.mod_eq_of_lt small]

/-- The numbers are in the order of the fields. -/
theorem pack_lt_pack_iff (fitsV : Fits widths vs) (fitsU : Fits widths us) :
    pack widths vs < pack widths us ↔ vs < us := by
  induction fitsV generalizing us with
  | nil =>
    cases fitsU
    simp [pack]
  | @cons width v widths vs _ fits ih =>
    cases fitsU with
    | @cons _ u _ us _ fits' =>
      have belowV := pack_lt fits
      have belowU := pack_lt fits'
      rw [List.cons_lt_cons_iff, pack, pack]
      rcases Nat.lt_trichotomy v u with less | rfl | more
      · have step : (v + 1) * 2 ^ widths.sum ≤ u * 2 ^ widths.sum := Nat.mul_le_mul_right _ less
        rw [Nat.succ_mul] at step
        exact iff_of_true (by omega) (.inl less)
      · rw [Nat.add_lt_add_iff_left, ih fits']
        exact ⟨fun order => .inr ⟨rfl, order⟩, fun order => (order.resolve_left (Nat.lt_irrefl v)).2⟩
      · have step : (u + 1) * 2 ^ widths.sum ≤ v * 2 ^ widths.sum := Nat.mul_le_mul_right _ more
        rw [Nat.succ_mul] at step
        refine iff_of_false (by omega) ?_
        rintro (less | ⟨same, -⟩)
        · omega
        · omega

end Sys.BitField
