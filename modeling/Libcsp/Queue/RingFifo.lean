import Libcsp.Queue.Ring

namespace Libcsp.Queue
open Sys

variable {capacity itemSize : Nat}

/-- Bytes of one item. -/
abbrev Item (itemSize : Nat) := { bytes : List UInt8 // bytes.length = itemSize }

def Buffer.content (buf : Buffer itemSize) : Item itemSize := ⟨buf.item, buf.item_length⟩

/-- `count` slots from `head` on, around the end of the buffer, hold the items. -/
structure Ring.Holds (r : Ring capacity itemSize) (items : List (Item itemSize)) : Prop where
  enough : capacity * itemSize ≤ r.buffer.length
  count : r.count = items.length
  bounded : items.length ≤ capacity
  head : 0 < capacity → r.head < capacity
  tail : 0 < capacity → r.tail = (r.head + r.count) % capacity
  slots : ∀ k item, items[k]? = some item → slot r.buffer itemSize ((r.head + k) % capacity) = item.1

theorem Ring.holds_new {buffer : List UInt8} (enough : capacity * itemSize ≤ buffer.length) :
    (Ring.new buffer : Ring capacity itemSize).Holds [] where
  enough := enough
  count := rfl
  bounded := Nat.zero_le _
  head positive := positive
  tail _ := (Nat.zero_mod _).symm
  slots k item := by simp

theorem slot_fits {buffer : List UInt8} {k : Nat} (enough : capacity * itemSize ≤ buffer.length) (inside : k < capacity) :
    (k + 1) * itemSize ≤ buffer.length :=
  Nat.le_trans (Nat.mul_le_mul_right itemSize inside) enough

/-- Two places less than a full turn apart are different slots. -/
theorem turn_ne {head k n capacity : Nat} (before : k < n) (turn : n < k + capacity) :
    (head + k) % capacity ≠ (head + n) % capacity := by
  intro same
  have apart := Nat.sub_mod_eq_zero_of_mod_eq same.symm
  rw [Nat.mod_eq_of_lt (by omega)] at apart
  omega

theorem Ring.Holds.enqueue {r : Ring capacity itemSize} {items : List (Item itemSize)} (holds : r.Holds items)
    (item : Buffer itemSize) (room : items.length < capacity) :
    @Ring.Holds capacity itemSize ⟨overwrite r.buffer (r.tail * itemSize) item.item, r.head, (r.tail + 1) % capacity, r.count + 1⟩
      (items ++ [Buffer.content item]) := by
  have positive : 0 < capacity := by omega
  have tail := holds.tail positive
  have inside : r.tail < capacity := by
    rw [tail]
    exact Nat.mod_lt _ positive
  have size := item.item_length
  have fits : (r.tail + 1) * item.item.length ≤ r.buffer.length := by
    rw [size]
    exact slot_fits holds.enough inside
  have written := slot_overwrite_self fits
  rw [size] at written
  refine ⟨?_, ?_, ?_, holds.head, ?_, ?_⟩
  · have whole : r.tail * itemSize + item.item.length ≤ r.buffer.length := by
      rw [Nat.succ_mul, size] at fits
      rwa [size]
    rw [overwrite_length whole]
    exact holds.enough
  · rw [List.length_append, holds.count, List.length_singleton]
  · rw [List.length_append, List.length_singleton]
    exact room
  · intro _
    show (r.tail + 1) % capacity = (r.head + (r.count + 1)) % capacity
    rw [tail, Nat.mod_add_mod, Nat.add_assoc]
  · intro k found atK
    by_cases last : k = items.length
    · rw [last, List.getElem?_concat_length, Option.some.injEq] at atK
      rw [last, ← holds.count, ← tail, ← atK]
      exact written
    · have before : k < items.length := by
        have range := (List.getElem?_eq_some_iff.mp atK).1
        rw [List.length_append, List.length_singleton] at range
        omega
      rw [List.getElem?_append_left before] at atK
      have other : (r.head + k) % capacity ≠ r.tail := by
        rw [tail, holds.count]
        exact turn_ne before (by omega)
      have kept := slot_overwrite_of_ne other fits
      rw [size] at kept
      rw [kept]
      exact holds.slots k found atK

theorem Ring.Holds.dequeue {r : Ring capacity itemSize} {first : Item itemSize} {rest : List (Item itemSize)}
    (holds : r.Holds (first :: rest)) :
    slot r.buffer itemSize r.head = first.1 ∧
    @Ring.Holds capacity itemSize ⟨r.buffer, (r.head + 1) % capacity, r.tail, r.count - 1⟩ rest := by
  have count := holds.count
  have bounded := holds.bounded
  rw [List.length_cons] at count bounded
  have positive : 0 < capacity := by omega
  have head := holds.head positive
  constructor
  · have front := holds.slots 0 first rfl
    rwa [Nat.add_zero, Nat.mod_eq_of_lt head] at front
  · refine ⟨holds.enough, ?_, ?_, ?_, ?_, ?_⟩
    · show r.count - 1 = rest.length
      omega
    · omega
    · intro _
      exact Nat.mod_lt _ positive
    · intro _
      show r.tail = ((r.head + 1) % capacity + (r.count - 1)) % capacity
      have shifted : r.head + 1 + (r.count - 1) = r.head + r.count := by omega
      rw [holds.tail positive, Nat.mod_add_mod, shifted]
    · intro k item atK
      have next := holds.slots (k + 1) item (by simpa using atK)
      have shifted : r.head + 1 + k = r.head + (k + 1) := by omega
      show slot r.buffer itemSize (((r.head + 1) % capacity + k) % capacity) = item.1
      rwa [Nat.mod_add_mod, shifted]

end Libcsp.Queue
