import Libcsp.Base.Overwrite
import Mathlib.Data.List.Basic
import Mathlib.Data.Set.Lattice
import Mathlib.Order.CompletePartialOrder
import Mathlib.Order.Interval.Set.Basic
import Mathlib.Order.Nat
import Mathlib.Logic.Function.Basic
import Mathlib.Tactic.Common

namespace Sys

/-- Byte-addressed memory. A program that accesses an address that is not mapped
does not come back. -/
abbrev Memory := Nat → Option UInt8

namespace Memory

def unmapped : Memory := fun _ => none

def store (mem : Memory) (a : Nat) (b : UInt8) : Option Memory :=
  (mem a).map fun _ => Function.update mem a (some b)

/-- Memory with `bytes` from `p` on. -/
def write (mem : Memory) (p : Nat) (bytes : List UInt8) : Memory :=
  fun a => if p ≤ a ∧ a < p + bytes.length then bytes[a - p]? else mem a

def Holds (mem : Memory) (p : Nat) (bytes : List UInt8) : Prop :=
  ∀ i < bytes.length, mem (p + i) = bytes[i]?

instance (mem : Memory) (p : Nat) (bytes : List UInt8) : Decidable (mem.Holds p bytes) :=
  inferInstanceAs (Decidable (∀ i < bytes.length, mem (p + i) = bytes[i]?))

def Mapped (mem : Memory) (p n : Nat) : Prop := ∀ a ∈ Set.Ico p (p + n), (mem a).isSome

/-- The `n` bytes from `p` on, read one after the other. -/
def load (mem : Memory) : Nat → Nat → Option (List UInt8)
  | _, 0 => some []
  | p, n + 1 => do
    let b ← mem p
    let rest ← mem.load (p + 1) n
    some (b :: rest)

def storeAll (mem : Memory) : Nat → List UInt8 → Option Memory
  | _, [] => some mem
  | p, b :: rest => do
    let mem ← mem.store p b
    mem.storeAll (p + 1) rest

/-- What `completes` says of `mem` it says of every memory with the same bytes in
`region`, whatever lies outside and whether or not it is mapped. -/
def AccessesOnly (mem : Memory) (region : Set Nat) (completes : Memory → Prop) : Prop :=
  ∀ other : Memory, (∀ a ∈ region, other a = mem a) → completes other

section
variable {mem : Memory} {p q a : Nat} {b : UInt8} {bytes rest : List UInt8}

theorem store_eq (mapped : (mem a).isSome) : mem.store a b = some (mem.write a [b]) := by
  obtain ⟨old, atOld⟩ := Option.isSome_iff_exists.mp mapped
  rw [store, atOld, Option.map_some]
  congr 1
  funext x
  by_cases same : x = a
  · subst same
    simp [write]
  · rw [Function.update_of_ne same, write, if_neg]
    simp only [List.length_singleton]
    omega

@[simp] theorem write_nil : mem.write p [] = mem := by
  funext x
  rw [write, if_neg]
  simp only [List.length_nil]
  omega

theorem write_same (found : mem a = some b) : mem.write a [b] = mem := by
  funext x
  unfold write
  split
  · rename_i inside
    simp only [List.length_singleton] at inside
    obtain rfl : x = a := by omega
    simp [found]
  · rfl

theorem write_append : (mem.write p bytes).write (p + bytes.length) rest = mem.write p (bytes ++ rest) := by
  funext x
  simp only [write, List.length_append]
  by_cases first : x < p + bytes.length
  · rw [if_neg (by omega), List.getElem?_append]
    by_cases lower : p ≤ x
    · rw [if_pos ⟨lower, first⟩, if_pos (by omega), if_pos (by omega)]
    · rw [if_neg (by omega), if_neg (by omega)]
  · rw [if_neg (c := p ≤ x ∧ x < p + bytes.length) (by omega), List.getElem?_append_right (by omega)]
    by_cases second : x < p + bytes.length + rest.length
    · rw [if_pos (by omega), if_pos (by omega)]
      congr 1
      omega
    · rw [if_neg (by omega), if_neg (by omega)]

theorem write_cons : (mem.write p [b]).write (p + 1) rest = mem.write p (b :: rest) :=
  write_append

theorem write_of_notMem (outside : a ∉ Set.Ico p (p + bytes.length)) : mem.write p bytes a = mem a := by
  rw [write, if_neg (by rwa [← Set.mem_Ico])]

theorem write_of_ne (other : a ≠ p) : mem.write p [b] a = mem a := by
  refine write_of_notMem ?_
  rintro ⟨lower, upper⟩
  rw [List.length_singleton] at upper
  omega

theorem write_at {i : Nat} (inside : i < bytes.length) : mem.write p bytes (p + i) = bytes[i]? := by
  rw [write, if_pos (by omega)]
  congr 1
  omega

theorem write_holds : (mem.write p bytes).Holds p bytes := fun _ inside => write_at inside

theorem Holds.nil : mem.Holds p [] := by
  intro i inside
  exact absurd inside (Nat.not_lt_zero i)

theorem holds_cons : mem.Holds p (b :: rest) ↔ mem p = some b ∧ mem.Holds (p + 1) rest := by
  constructor
  · intro held
    refine ⟨held 0 (by simp), ?_⟩
    intro i inside
    have next := held (i + 1) (by simpa using inside)
    rw [List.getElem?_cons_succ] at next
    rw [← next]
    congr 1
    omega
  · rintro ⟨first, held⟩ i inside
    cases i with
    | zero => exact first
    | succ i =>
      rw [List.getElem?_cons_succ, ← held i (by simpa using inside)]
      congr 1
      omega

theorem holds_append : mem.Holds p (bytes ++ rest) ↔ mem.Holds p bytes ∧ mem.Holds (p + bytes.length) rest := by
  induction bytes generalizing p with
  | nil => simp [Holds.nil]
  | cons b bytes ih =>
    have shift : p + 1 + bytes.length = p + (b :: bytes).length := by
      rw [List.length_cons]
      omega
    rw [List.cons_append, holds_cons, holds_cons, ih, and_assoc, shift]

theorem Holds.take (held : mem.Holds p bytes) (n : Nat) : mem.Holds p (bytes.take n) := by
  rw [← List.take_append_drop n bytes, holds_append] at held
  exact held.1

theorem Holds.mapped (held : mem.Holds p bytes) : mem.Mapped p bytes.length := by
  rintro a ⟨lower, upper⟩
  have found := held (a - p) (by omega)
  rw [Nat.add_sub_cancel' lower] at found
  rw [found, List.getElem?_eq_getElem (by omega)]
  rfl

theorem Holds.congr {other : Memory} (held : mem.Holds p bytes)
    (same : ∀ a ∈ Set.Ico p (p + bytes.length), other a = mem a) : other.Holds p bytes := by
  intro i inside
  rw [same (p + i) ⟨by omega, by omega⟩]
  exact held i inside

theorem Mapped.congr {other : Memory} {n : Nat} (mapped : mem.Mapped p n)
    (same : ∀ a ∈ Set.Ico p (p + n), other a = mem a) : other.Mapped p n := by
  intro a inside
  rw [same a inside]
  exact mapped a inside

/-- A write elsewhere leaves what is held. -/
theorem Holds.write (held : mem.Holds q rest)
    (apart : ∀ a ∈ Set.Ico q (q + rest.length), a ∉ Set.Ico p (p + bytes.length)) :
    (mem.write p bytes).Holds q rest :=
  held.congr fun a inside => write_of_notMem (apart a inside)

theorem Holds.write_byte (held : mem.Holds q rest) (apart : ∀ k < rest.length, p ≠ q + k) :
    (mem.write p [b]).Holds q rest := by
  refine held.write ?_
  rintro a ⟨lower, upper⟩ ⟨above, below⟩
  rw [List.length_singleton] at below
  exact apart (a - q) (by omega) (by omega)

theorem Mapped.write {n : Nat} (mapped : mem.Mapped q n) : (mem.write p bytes).Mapped q n := by
  intro a inside
  unfold Memory.write
  split
  · rw [List.getElem?_eq_getElem (by omega)]
    rfl
  · exact mapped a inside

/-- The room left after the first byte of it was written. -/
theorem Mapped.write_byte {n : Nat} (mapped : mem.Mapped p (n + 1)) : (mem.write p [b]).Mapped (p + 1) n :=
  Mapped.write fun a ⟨lower, upper⟩ => mapped a ⟨by omega, by omega⟩

theorem Holds.load (held : mem.Holds p bytes) : mem.load p bytes.length = some bytes := by
  induction bytes generalizing p with
  | nil => rfl
  | cons b rest ih =>
    obtain ⟨first, later⟩ := holds_cons.mp held
    simp only [List.length_cons, Memory.load, first, ih later, Option.bind_eq_bind, Option.bind_some]

theorem storeAll_eq (mapped : mem.Mapped p bytes.length) : mem.storeAll p bytes = some (mem.write p bytes) := by
  induction bytes generalizing mem p with
  | nil => rw [storeAll, write_nil]
  | cons b rest ih =>
    have first : (mem p).isSome := mapped p ⟨Nat.le_refl p, by simp⟩
    rw [storeAll, store_eq first, Option.bind_eq_bind, Option.bind_some, ih mapped.write_byte, write_cons]

theorem storeAll_of_notMem {other : Memory} (stores : mem.storeAll p bytes = some other)
    (outside : a ∉ Set.Ico p (p + bytes.length)) : other a = mem a := by
  rw [Set.mem_Ico] at outside
  induction bytes generalizing mem p with
  | nil =>
    cases stores
    rfl
  | cons b rest ih =>
    rw [storeAll, Option.bind_eq_bind, Option.bind_eq_some_iff] at stores
    obtain ⟨first, one, later⟩ := stores
    rw [List.length_cons] at outside
    rw [ih later (by omega)]
    obtain ⟨_, -, rfl⟩ := Option.map_eq_some_iff.mp one
    exact Function.update_of_ne (by omega) ..

theorem Mapped.holds {n : Nat} (mapped : mem.Mapped p n) : ∃ bytes, bytes.length = n ∧ mem.Holds p bytes := by
  induction n generalizing p with
  | zero => exact ⟨[], rfl, .nil⟩
  | succ n ih =>
    obtain ⟨b, first⟩ := Option.isSome_iff_exists.mp (mapped p ⟨Nat.le_refl p, by omega⟩)
    obtain ⟨rest, length, held⟩ := ih (p := p + 1) fun a ⟨low, high⟩ => mapped a ⟨by omega, by omega⟩
    exact ⟨b :: rest, by rw [List.length_cons, length], holds_cons.mpr ⟨first, held⟩⟩

/-- A copy into the middle of what is held. -/
theorem Holds.overwrite {offset : Nat} {xs : List UInt8} (held : mem.Holds p bytes)
    (fits : offset + xs.length ≤ bytes.length) :
    (mem.write (p + offset) xs).Holds p (overwrite bytes offset xs) := by
  intro i inside
  rw [overwrite_length fits] at inside
  rw [overwrite_getElem? fits]
  split_ifs with written
  · have here := @write_at mem (p + offset) xs (i - offset) (by omega)
    rwa [show p + offset + (i - offset) = p + i by omega] at here
  · rw [write_of_notMem, held i inside]
    rintro ⟨low, high⟩
    omega

theorem Holds.load_part {offset n : Nat} (held : mem.Holds p bytes) (fits : offset + n ≤ bytes.length) :
    mem.load (p + offset) n = some ((bytes.drop offset).take n) := by
  have back : mem.Holds (p + offset) (bytes.drop offset) := by
    rw [← List.take_append_drop offset bytes, holds_append, List.length_take,
      Nat.min_eq_left (Nat.le_of_add_right_le fits)] at held
    exact held.2
  have part := (back.take n).load
  rwa [List.length_take, List.length_drop, Nat.min_eq_left (by omega)] at part

end

end Memory

/-- A loop with a bound on its rounds returns `x` once the bound is large enough. -/
def Returns {α : Type*} (run : Nat → Option α) (x : α) : Prop := ∃ rounds, ∀ fuel, rounds ≤ fuel → run fuel = some x

theorem Returns.unique {α : Type*} {run : Nat → Option α} {x y : α} (first : Returns run x) (second : Returns run y) :
    x = y := by
  obtain ⟨m, atM⟩ := first
  obtain ⟨n, atN⟩ := second
  have left := atM (max m n) (Nat.le_max_left m n)
  have right := atN (max m n) (Nat.le_max_right m n)
  exact Option.some.inj (left.symm.trans right)

end Sys
