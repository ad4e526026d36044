import Mathlib.Data.List.Basic
import Mathlib.Tactic.Common

namespace Sys

universe u
variable {α : Type u}

/-- Copy `xs` into `buf` at `offset`, as `memcpy` into an existing buffer. -/
def overwrite (buf : List α) (offset : Nat) (xs : List α) : List α :=
  buf.take offset ++ xs ++ buf.drop (offset + xs.length)

@[simp] theorem overwrite_length {buf xs : List α} {offset : Nat}
    (fits : offset + xs.length ≤ buf.length) : (overwrite buf offset xs).length = buf.length := by
  simp only [overwrite, List.length_append, List.length_take, List.length_drop]
  omega

theorem overwrite_take {buf xs : List α} {offset : Nat} (fits : offset + xs.length ≤ buf.length) :
    (overwrite buf offset xs).take (offset + xs.length) = buf.take offset ++ xs := by
  have length : (buf.take offset ++ xs).length = offset + xs.length := by
    simp only [List.length_append, List.length_take]
    omega
  rw [overwrite, ← length, List.take_left]

theorem overwrite_getElem? {buf xs : List α} {offset : Nat} (fits : offset + xs.length ≤ buf.length) (i : Nat) :
    (overwrite buf offset xs)[i]? = if offset ≤ i ∧ i < offset + xs.length then xs[i - offset]? else buf[i]? := by
  have front : (buf.take offset).length = offset := by
    rw [List.length_take]
    omega
  unfold overwrite
  rw [List.append_assoc, List.getElem?_append, List.getElem?_append, front]
  split_ifs with before inside inside behind
  · omega
  · rw [List.getElem?_take, if_pos before]
  · rfl
  · omega
  · omega
  · rw [List.getElem?_drop]
    congr 1
    omega

/-- The `k`-th of consecutive pieces of `size` elements. -/
def slot (buf : List α) (size k : Nat) : List α := (buf.drop (k * size)).take size

theorem slot_getElem? (buf : List α) (size k i : Nat) :
    (slot buf size k)[i]? = if i < size then buf[k * size + i]? else none := by
  rw [slot, List.getElem?_take, List.getElem?_drop]

theorem slot_overwrite_self {buf xs : List α} {k : Nat} (fits : (k + 1) * xs.length ≤ buf.length) :
    slot (overwrite buf (k * xs.length) xs) xs.length k = xs := by
  rw [Nat.succ_mul] at fits
  apply List.ext_getElem?
  intro i
  rw [slot_getElem?, overwrite_getElem? fits]
  split_ifs with inside written
  · congr 1
    omega
  · omega
  · rw [List.getElem?_eq_none (by omega)]

/-- Writing one piece leaves the others as they are. -/
theorem slot_overwrite_of_ne {buf xs : List α} {j k : Nat} (other : j ≠ k)
    (fits : (k + 1) * xs.length ≤ buf.length) :
    slot (overwrite buf (k * xs.length) xs) xs.length j = slot buf xs.length j := by
  rw [Nat.succ_mul] at fits
  apply List.ext_getElem?
  intro i
  rw [slot_getElem?, slot_getElem?, overwrite_getElem? fits]
  split_ifs with inside written
  · rcases Nat.lt_or_gt_of_ne other with below | above
    · have apart : (j + 1) * xs.length ≤ k * xs.length := Nat.mul_le_mul_right _ below
      rw [Nat.succ_mul] at apart
      omega
    · have apart : (k + 1) * xs.length ≤ j * xs.length := Nat.mul_le_mul_right _ above
      rw [Nat.succ_mul] at apart
      omega
  · rfl
  · rfl

end Sys
