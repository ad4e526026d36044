import Libcsp.Base.ByteOrder
import Libcsp.Base.Memory

namespace Libcsp
open Sys

/-- A NUL-terminated string. A `c_char` is its byte here: the source compares chars for
equality or after a cast to `u8`. -/
structure HoldsString (mem : Memory) (p : Nat) (s : List UInt8) : Prop where
  noNul : 0 ∉ s
  held : mem.Holds p (s ++ [0])

theorem HoldsString.congr {mem other : Memory} {p : Nat} {s : List UInt8} (atS : HoldsString mem p s)
    (same : ∀ x ∈ Set.Ico p (p + s.length + 1), other x = mem x) : HoldsString other p s := by
  refine ⟨atS.noNul, atS.held.congr ?_⟩
  rwa [List.length_append, List.length_singleton]

namespace CspArch

/-- The first loop of `strncpy`, with `left = n - i` rounds to go. -/
def strncpyCopy (dest src : Nat) : Nat → Nat → Memory → Option (Nat × Memory)
  | 0, i, mem => some (i, mem)
  | left + 1, i, mem => do
    let c ← mem (src + i)
    if c ≠ 0 then
      let mem ← mem.store (dest + i) c
      strncpyCopy dest src left (i + 1) mem
    else return (i, mem)

def strncpyPad (dest : Nat) : Nat → Nat → Memory → Option Memory
  | 0, _, mem => some mem
  | left + 1, i, mem => do
    let mem ← mem.store (dest + i) 0
    strncpyPad dest left (i + 1) mem

def strncpy (mem : Memory) (dest src n : Nat) : Option (Nat × Memory) := do
  let (i, mem) ← strncpyCopy dest src n 0 mem
  let mem ← strncpyPad dest (n - i) i mem
  return (dest, mem)

/-- The loop of `strcpy`, at most `fuel` rounds of it. The source byte is read again
after the store. -/
def strcpyLoop (dest src : Nat) : Nat → Nat → Memory → Option Memory
  | 0, _, _ => none
  | fuel + 1, i, mem => do
    let c ← mem (src + i)
    let mem ← mem.store (dest + i) c
    let c ← mem (src + i)
    if c = 0 then return mem else strcpyLoop dest src fuel (i + 1) mem

def strcpy (fuel : Nat) (mem : Memory) (dest src : Nat) : Option (Nat × Memory) := do
  let mem ← strcpyLoop dest src fuel 0 mem
  return (dest, mem)

def strnlenLoop (mem : Memory) (s : Nat) : Nat → Nat → Option Nat
  | 0, len => some len
  | left + 1, len => do
    let c ← mem (s + len)
    if c ≠ 0 then strnlenLoop mem s left (len + 1) else return len

def strnlen (mem : Memory) (s maxlen : Nat) : Option Nat := strnlenLoop mem s maxlen 0

/-- `u8::to_ascii_lowercase`. -/
def toAsciiLowercase (b : UInt8) : UInt8 := if 0x41 ≤ b ∧ b ≤ 0x5A then b + 0x20 else b

/-- The loop of `strncasecmp` over the folded bytes. -/
def compareLoop (fold : UInt8 → UInt8) (mem : Memory) (s1 s2 : Nat) : Nat → Nat → Option Int
  | 0, _ => some 0
  | left + 1, i => do
    let c1 ← mem (s1 + i)
    let c2 ← mem (s2 + i)
    if fold c1 ≠ fold c2 ∨ fold c1 = 0 then return ((fold c1).toNat : Int) - (fold c2).toNat
    else compareLoop fold mem s1 s2 left (i + 1)

def strncasecmp (mem : Memory) (s1 s2 n : Nat) : Option Int := compareLoop toAsciiLowercase mem s1 s2 n 0

/-- The loop of the `strncmp` that `export_arch!` exports. -/
def strncmpLoop (mem : Memory) (s1 s2 : Nat) : Nat → Nat → Option Int
  | 0, _ => some 0
  | left + 1, i => do
    let a ← mem (s1 + i)
    let b ← mem (s2 + i)
    if a ≠ b then return (a.toNat : Int) - b.toNat
    else if a = 0 then return 0
    else strncmpLoop mem s1 s2 left (i + 1)

def strncmp (mem : Memory) (s1 s2 n : Nat) : Option Int := strncmpLoop mem s1 s2 n 0

theorem strncmpLoop_eq (mem : Memory) (s1 s2 left i : Nat) :
    strncmpLoop mem s1 s2 left i = compareLoop id mem s1 s2 left i := by
  induction left generalizing i with
  | zero => rfl
  | succ left ih =>
    unfold strncmpLoop compareLoop
    cases mem (s1 + i) with
    | none => rfl
    | some a =>
      cases mem (s2 + i) with
      | none => rfl
      | some b =>
        by_cases same : a = b
        · by_cases nul : b = 0 <;> simp [same, nul, ih]
        · simp [same]

theorem toAsciiLowercase_eq_zero_iff (b : UInt8) : toAsciiLowercase b = 0 ↔ b = 0 := by
  unfold toAsciiLowercase
  split
  · rename_i upper
    simp only [UInt8.le_iff_toNat_le, ← UInt8.toNat_inj, UInt8.toNat_add] at upper ⊢
    simp at upper ⊢
    omega
  · rfl

section
variable {mem : Memory} {p left : Nat}

theorem held_nil (held : mem.Holds p (([] ++ [0] : List UInt8).take (left + 1))) : mem p = some 0 :=
  (Memory.holds_cons.mp held).1

/-- What a loop with `left + 1` rounds sees of a string: its first byte, and what the
later rounds see of the rest. -/
theorem held_cons {x : UInt8} {xs : List UInt8} (held : mem.Holds p ((x :: xs ++ [0]).take (left + 1))) :
    mem p = some x ∧ mem.Holds (p + 1) ((xs ++ [0]).take left) :=
  Memory.holds_cons.mp held

end

theorem compareLoop_eq {fold : UInt8 → UInt8} (zero : ∀ b, fold b = 0 ↔ b = 0) {mem : Memory}
    {s1 s2 left i : Nat} {a b : List UInt8} (noNulA : 0 ∉ a) (noNulB : 0 ∉ b)
    (atA : mem.Holds (s1 + i) ((a ++ [0]).take left)) (atB : mem.Holds (s2 + i) ((b ++ [0]).take left)) :
    compareLoop fold mem s1 s2 left i =
      some (byteDifference ((a.take left).map fold) ((b.take left).map fold)) := by
  have nul : fold 0 = 0 := (zero 0).mpr rfl
  induction left generalizing i a b with
  | zero => simp [compareLoop, byteDifference]
  | succ left ih =>
    unfold compareLoop
    cases a with
    | nil =>
      have firstA := held_nil atA
      cases b with
      | nil => simp [firstA, held_nil atB, nul, byteDifference]
      | cons y ys => simp [firstA, (held_cons atB).1, nul, byteDifference]
    | cons x xs =>
      obtain ⟨firstA, restA⟩ := held_cons atA
      have nonzero : fold x ≠ 0 := by
        rw [ne_eq, zero]
        exact (List.ne_of_not_mem_cons noNulA).symm
      cases b with
      | nil => simp [firstA, held_nil atB, nul, nonzero, byteDifference]
      | cons y ys =>
        obtain ⟨firstB, restB⟩ := held_cons atB
        by_cases same : fold x = fold y
        · have later := ih (i := i + 1) (List.not_mem_of_not_mem_cons noNulA)
            (List.not_mem_of_not_mem_cons noNulB) restA restB
          have nonzeroB : fold y ≠ 0 := same ▸ nonzero
          simp [firstA, firstB, same, nonzeroB, byteDifference, later]
        · simp [firstA, firstB, same, byteDifference]

theorem strnlenLoop_eq {mem : Memory} {p left len : Nat} {s : List UInt8} (noNul : 0 ∉ s)
    (held : mem.Holds (p + len) ((s ++ [0]).take left)) :
    strnlenLoop mem p left len = some (len + min left s.length) := by
  induction left generalizing len s with
  | zero => simp [strnlenLoop]
  | succ left ih =>
    unfold strnlenLoop
    cases s with
    | nil => simp [held_nil held]
    | cons x xs =>
      obtain ⟨first, rest⟩ := held_cons held
      have nonzero := (List.ne_of_not_mem_cons noNul).symm
      have later : strnlenLoop mem p left (len + 1) = some (len + 1 + min left xs.length) :=
        ih (List.not_mem_of_not_mem_cons noNul) rest
      simp only [first, Option.bind_eq_bind, Option.bind_some, ne_eq, nonzero, not_false_eq_true, if_true, later,
        List.length_cons]
      congr 1
      omega

/-- Copying stops at the NUL or after `left` bytes. The string stays as it is because
what is written lies outside of it. -/
theorem strncpyCopy_eq {mem : Memory} {dest src left i : Nat} {s : List UInt8} (noNul : 0 ∉ s)
    (held : mem.Holds (src + i) ((s ++ [0]).take left)) (room : mem.Mapped (dest + i) left)
    (apart : ∀ j k, j < left → k ≤ s.length → dest + i + j ≠ src + i + k) :
    strncpyCopy dest src left i mem = some (i + min left s.length, mem.write (dest + i) (s.take left)) := by
  induction left generalizing i s mem with
  | zero => simp [strncpyCopy]
  | succ left ih =>
    unfold strncpyCopy
    cases s with
    | nil => simp [held_nil held]
    | cons x xs =>
      obtain ⟨first, rest⟩ := held_cons held
      have nonzero := (List.ne_of_not_mem_cons noNul).symm
      have stored : mem.store (dest + i) x = some (mem.write (dest + i) [x]) :=
        Memory.store_eq (room _ ⟨by omega, by omega⟩)
      have heldAfter : (mem.write (dest + i) [x]).Holds (src + (i + 1)) ((xs ++ [0]).take left) := by
        refine rest.write_byte ?_
        intro k inside
        simp only [List.length_take, List.length_append, List.length_singleton] at inside
        have := apart 0 (k + 1) (by omega) (by simp only [List.length_cons]; omega)
        omega
      have later := ih (List.not_mem_of_not_mem_cons noNul) heldAfter room.write_byte (by
        intro j k small short
        have := apart (j + 1) (k + 1) (by omega) (by simp only [List.length_cons]; omega)
        omega)
      simp only [first, Option.bind_eq_bind, Option.bind_some, ne_eq, nonzero, not_false_eq_true, if_true, stored,
        later, List.length_cons, List.take_succ_cons]
      rw [← Nat.add_assoc, Memory.write_cons]
      congr 2
      omega

theorem strncpyPad_eq {mem : Memory} {dest left i : Nat} (room : mem.Mapped (dest + i) left) :
    strncpyPad dest left i mem = some (mem.write (dest + i) (List.replicate left 0)) := by
  induction left generalizing i mem with
  | zero => simp [strncpyPad]
  | succ left ih =>
    have stored : mem.store (dest + i) 0 = some (mem.write (dest + i) [0]) :=
      Memory.store_eq (room _ ⟨by omega, by omega⟩)
    rw [strncpyPad, stored, Option.bind_eq_bind, Option.bind_some, ih room.write_byte, ← Nat.add_assoc,
      Memory.write_cons, List.replicate_succ]

theorem strcpyLoop_round {mem : Memory} {dest src fuel i : Nat} {c : UInt8} (first : mem (src + i) = some c)
    (mapped : (mem (dest + i)).isSome) (differ : dest + i ≠ src + i) :
    strcpyLoop dest src (fuel + 1) i mem =
      if c = 0 then some (mem.write (dest + i) [c])
      else strcpyLoop dest src fuel (i + 1) (mem.write (dest + i) [c]) := by
  have again : mem.write (dest + i) [c] (src + i) = some c := by
    rw [Memory.write_of_ne differ.symm, first]
  simp only [strcpyLoop, first, Memory.store_eq mapped, again, Option.bind_eq_bind, Option.bind_some,
    Option.pure_def]

theorem strcpyLoop_eq {mem : Memory} {dest src fuel i : Nat} {s : List UInt8} (noNul : 0 ∉ s)
    (held : mem.Holds (src + i) (s ++ [0])) (room : mem.Mapped (dest + i) (s.length + 1))
    (apart : ∀ j k, j ≤ s.length → k ≤ s.length → dest + i + j ≠ src + i + k) (enough : s.length < fuel) :
    strcpyLoop dest src fuel i mem = some (mem.write (dest + i) (s ++ [0])) := by
  induction fuel generalizing i s mem with
  | zero => exact absurd enough (Nat.not_lt_zero _)
  | succ fuel ih =>
    have mapped := room (dest + i) ⟨by omega, by omega⟩
    have differ := apart 0 0 (Nat.zero_le _) (Nat.zero_le _)
    cases s with
    | nil => rw [strcpyLoop_round (Memory.holds_cons.mp held).1 mapped differ, if_pos rfl, List.nil_append]
    | cons x xs =>
      rw [List.cons_append] at held
      obtain ⟨first, rest⟩ := Memory.holds_cons.mp held
      simp only [List.length_cons] at room apart enough
      have heldAfter : (mem.write (dest + i) [x]).Holds (src + (i + 1)) (xs ++ [0]) := by
        refine rest.write_byte ?_
        intro k inside
        simp only [List.length_append, List.length_singleton] at inside
        have := apart 0 (k + 1) (by omega) (by omega)
        omega
      have later := ih (List.not_mem_of_not_mem_cons noNul) heldAfter room.write_byte (by
        intro j k short short'
        have := apart (j + 1) (k + 1) (by omega) (by omega)
        omega) (by omega)
      rw [strcpyLoop_round first mapped differ, if_neg (List.ne_of_not_mem_cons noNul).symm, later,
        ← Nat.add_assoc, Memory.write_cons, List.cons_append]

/-- A comparison of at most `n` bytes of two strings orders them by `key`, and looks at
nothing behind their NULs. -/
structure OrdersStrings (compare : Memory → Nat → Nat → Nat → Option Int) (key : List UInt8 → List UInt8)
    (mem : Memory) (n pa pb pc : Nat) (a b c : List UInt8) : Prop where
  sign : ∃ r, compare mem pa pb n = some r ∧ (r = 0 ↔ key a = key b) ∧ (r < 0 ↔ key a < key b) ∧
    (0 < r ↔ key b < key a)
  antisymm : ∃ r, compare mem pa pb n = some r ∧ compare mem pb pa n = some (-r)
  trans : ∃ r₁ r₂ r₃, compare mem pa pb n = some r₁ ∧ compare mem pb pc n = some r₂ ∧
    compare mem pa pc n = some r₃ ∧ (r₁ ≤ 0 → r₂ ≤ 0 → r₃ ≤ 0)
  reads : mem.AccessesOnly (Set.Ico pa (pa + a.length + 1) ∪ Set.Ico pb (pb + b.length + 1)) fun other =>
    (compare other pa pb n).isSome

section
variable {mem : Memory} {pa pb pc : Nat} {a b c : List UInt8}

theorem compareLoop_strings {fold : UInt8 → UInt8} (zero : ∀ b, fold b = 0 ↔ b = 0)
    (atA : HoldsString mem pa a) (atB : HoldsString mem pb b) (n : Nat) :
    compareLoop fold mem pa pb n 0 = some (byteDifference ((a.take n).map fold) ((b.take n).map fold)) :=
  compareLoop_eq zero atA.noNul atB.noNul (atA.held.take n) (atB.held.take n)

theorem zero_notMem_key {fold : UInt8 → UInt8} (zero : ∀ b, fold b = 0 ↔ b = 0) (atA : HoldsString mem pa a)
    (n : Nat) : 0 ∉ (a.take n).map fold := by
  intro member
  obtain ⟨x, inTake, atZero⟩ := List.mem_map.mp member
  rw [zero] at atZero
  exact atA.noNul (atZero ▸ List.mem_of_mem_take inTake)

theorem compareLoop_orders {fold : UInt8 → UInt8} (zero : ∀ b, fold b = 0 ↔ b = 0)
    (atA : HoldsString mem pa a) (atB : HoldsString mem pb b) (atC : HoldsString mem pc c) (n : Nat) :
    OrdersStrings (fun mem s1 s2 n => compareLoop fold mem s1 s2 n 0) (fun s => (s.take n).map fold)
      mem n pa pb pc a b c := by
  have keyA := zero_notMem_key zero atA n
  have keyB := zero_notMem_key zero atB n
  have ab := compareLoop_strings zero atA atB n
  have bc := compareLoop_strings zero atB atC n
  have ac := compareLoop_strings zero atA atC n
  refine ⟨⟨_, ab, byteDifference_eq_zero_iff keyA keyB, byteDifference_neg_iff keyB,
    byteDifference_pos_iff keyA⟩, ⟨_, ab, ?_⟩, ⟨_, _, _, ab, bc, ac, ?_⟩, ?_⟩
  · rw [← byteDifference_antisymm]
    exact compareLoop_strings zero atB atA n
  · rw [byteDifference_le_iff keyA, byteDifference_le_iff keyB, byteDifference_le_iff keyA]
    exact List.le_trans
  · intro other same
    have otherA := atA.congr fun x inside => same x (Or.inl inside)
    have otherB := atB.congr fun x inside => same x (Or.inr inside)
    rw [compareLoop_strings zero otherA otherB]
    rfl

/-- Both comparisons are orders on strings cut off after `n` bytes, `strncasecmp` after
folding case. -/
theorem string_comparisons_order (atA : HoldsString mem pa a) (atB : HoldsString mem pb b)
    (atC : HoldsString mem pc c) (n : Nat) :
    OrdersStrings strncasecmp (fun s => (s.take n).map toAsciiLowercase) mem n pa pb pc a b c ∧
      OrdersStrings strncmp (fun s => s.take n) mem n pa pb pc a b c ∧
      (strncmp mem pa pb n = some 0 → strncasecmp mem pa pb n = some 0) := by
  have exactly : OrdersStrings (fun mem s1 s2 n => compareLoop id mem s1 s2 n 0) (fun s => (s.take n).map id)
      mem n pa pb pc a b c := compareLoop_orders (fun _ => Iff.rfl) atA atB atC n
  have folded := compareLoop_orders toAsciiLowercase_eq_zero_iff atA atB atC n
  have plain : strncmp = fun mem s1 s2 n => compareLoop id mem s1 s2 n 0 := by
    funext mem s1 s2 n
    exact strncmpLoop_eq mem s1 s2 n 0
  simp only [List.map_id, ← plain] at exactly
  refine ⟨folded, exactly, ?_⟩
  intro equal
  obtain ⟨r, compared, zero, -⟩ := exactly.sign
  obtain ⟨r', compared', zero', -⟩ := folded.sign
  have same := zero.mp (Option.some.inj (compared.symm.trans equal))
  rw [strncasecmp, compared', zero'.mpr (by rw [same])]

end

/-- Two interface names and a third one, each on its own. -/
def threeNames : Memory :=
  ((Memory.unmapped.write 16 [0x43, 0x41, 0x4E, 0]).write 32 [0x63, 0x61, 0x6E, 0x30, 0]).write 64
    [0x65, 0x74, 0x68, 0]

theorem string_comparisons_order_names :
    strncasecmp threeNames 16 32 3 = some 0 ∧ strncmp threeNames 16 32 3 = some (-32) ∧
      OrdersStrings strncasecmp (fun s => (s.take 3).map toAsciiLowercase) threeNames 3 16 32 64
        [0x43, 0x41, 0x4E] [0x63, 0x61, 0x6E, 0x30] [0x65, 0x74, 0x68] :=
  ⟨by decide, by decide, (string_comparisons_order ⟨by decide, by decide⟩ ⟨by decide, by decide⟩
    ⟨by decide, by decide⟩ 3).1⟩

section
variable {mem : Memory} {dest src : Nat} {s : List UInt8}

theorem strnlen_eq (atS : HoldsString mem src s) (n : Nat) : strnlen mem src n = some (min n s.length) := by
  rw [strnlen, strnlenLoop_eq atS.noNul (atS.held.take n), Nat.zero_add]

theorem copied_length (s : List UInt8) (n : Nat) : (s.take n ++ List.replicate (n - s.length) 0).length = n := by
  simp only [List.length_append, List.length_take, List.length_replicate]
  omega

/-- What `strncpy` needs of memory: of the source no more than `n` bytes, and none behind
the NUL. -/
theorem strncpy_eq {n : Nat} (noNul : 0 ∉ s) (held : mem.Holds src ((s ++ [0]).take n))
    (room : mem.Mapped dest n)
    (apart : Disjoint (Set.Ico dest (dest + n)) (Set.Ico src (src + s.length + 1))) :
    strncpy mem dest src n =
      some (dest, mem.write dest (s.take n ++ List.replicate (n - s.length) 0)) := by
  have copied := @strncpyCopy_eq mem dest src n 0 s noNul held room (by
    intro j k small short same
    exact Set.disjoint_left.mp apart ⟨by omega, by omega⟩ (show dest + j ∈ _ from ⟨by omega, by omega⟩))
  have padded := @strncpyPad_eq (mem.write dest (s.take n)) dest (n - min n s.length) (min n s.length)
    (Memory.Mapped.write fun a ⟨lower, upper⟩ => room a ⟨by omega, by omega⟩)
  have length : (s.take n).length = min n s.length := List.length_take
  have left : n - min n s.length = n - s.length := by omega
  rw [Nat.zero_add, Nat.add_zero] at copied
  rw [← length, Memory.write_append, length, left] at padded
  rw [strncpy, copied]
  simp only [Option.bind_eq_bind, Option.bind_some, Option.pure_def, left, padded]

theorem strcpy_eq (atS : HoldsString mem src s) (room : mem.Mapped dest (s.length + 1))
    (apart : Disjoint (Set.Ico dest (dest + s.length + 1)) (Set.Ico src (src + s.length + 1))) {fuel : Nat}
    (enough : s.length < fuel) : strcpy fuel mem dest src = some (dest, mem.write dest (s ++ [0])) := by
  have copied := @strcpyLoop_eq mem dest src fuel 0 s atS.noNul atS.held room (by
    intro j k short short' same
    exact Set.disjoint_left.mp apart ⟨by omega, by omega⟩ (show dest + j ∈ _ from ⟨by omega, by omega⟩)) enough
  rw [strcpy, copied]
  rfl

/-- After `strncpy` the two strings compare equal over `n` bytes, terminated or not. -/
theorem strncasecmp_copy {n : Nat} (atS : HoldsString mem src s)
    (apart : Disjoint (Set.Ico dest (dest + n)) (Set.Ico src (src + s.length + 1))) :
    strncasecmp (mem.write dest (s.take n ++ List.replicate (n - s.length) 0)) dest src n = some 0 := by
  have length := copied_length s n
  have atCopy : (mem.write dest (s.take n ++ List.replicate (n - s.length) 0)).Holds dest ((s ++ [0]).take n) := by
    intro i inside
    simp only [List.length_take, List.length_append, List.length_singleton] at inside
    rw [Memory.write_at (by omega), List.getElem?_take, if_pos (by omega)]
    by_cases copied : i < s.length
    · rw [List.getElem?_append_left (by rw [List.length_take]; omega), List.getElem?_append_left copied,
        List.getElem?_take, if_pos (by omega)]
    · rw [List.getElem?_append_right (by rw [List.length_take]; omega), List.getElem?_append_right (by omega),
        List.length_take, List.getElem?_replicate, if_pos (by omega), show i - s.length = 0 by omega]
      rfl
  have atSource : (mem.write dest (s.take n ++ List.replicate (n - s.length) 0)).Holds src ((s ++ [0]).take n) := by
    refine (atS.held.take n).write ?_
    intro a inside
    rw [length]
    refine Set.disjoint_right.mp apart ?_
    simp only [Set.mem_Ico, List.length_take, List.length_append, List.length_singleton] at inside ⊢
    omega
  have compared := @compareLoop_eq toAsciiLowercase toAsciiLowercase_eq_zero_iff _ dest src n 0 s s atS.noNul atS.noNul
    atCopy atSource
  rw [strncasecmp, compared]
  have noNul : 0 ∉ (s.take n).map toAsciiLowercase := zero_notMem_key toAsciiLowercase_eq_zero_iff atS n
  rw [(byteDifference_eq_zero_iff noNul noNul).mpr rfl]

/-- The copying routines do what `strnlen` measures: `strncpy` copies that much and pads,
`strcpy` copies the string with its NUL. Each needs room for itself only. -/
theorem string_copies_exact (atS : HoldsString mem src s) (n : Nat) :
    strnlen mem src n = some (min n s.length) ∧
      (∀ dest, mem.Mapped dest n → Disjoint (Set.Ico dest (dest + n)) (Set.Ico src (src + s.length + 1)) →
        (∃ mem', strncpy mem dest src n = some (dest, mem') ∧
          (∀ i < min n s.length, mem' (dest + i) = mem (src + i)) ∧
          (∀ i, min n s.length ≤ i → i < n → mem' (dest + i) = some 0) ∧
          (∀ a ∉ Set.Ico dest (dest + n), mem' a = mem a) ∧ strncasecmp mem' dest src n = some 0) ∧
        mem.AccessesOnly (Set.Ico dest (dest + n) ∪ Set.Ico src (src + min n (s.length + 1))) fun other =>
          (strncpy other dest src n).isSome) ∧
      ∀ dest, mem.Mapped dest (s.length + 1) →
        Disjoint (Set.Ico dest (dest + s.length + 1)) (Set.Ico src (src + s.length + 1)) →
          ∃ mem', Returns (fun fuel => strcpy fuel mem dest src) (dest, mem') ∧ mem'.Holds dest (s ++ [0]) ∧
            ∀ a ∉ Set.Ico dest (dest + s.length + 1), mem' a = mem a := by
  have length := copied_length s n
  refine ⟨strnlen_eq atS n, ?_, ?_⟩
  · intro dest room apart
    have copied := strncpy_eq atS.noNul (atS.held.take n) room apart
    refine ⟨⟨_, copied, ?_, ?_, ?_, strncasecmp_copy atS apart⟩, ?_⟩
    · intro i small
      rw [Memory.write_at (by omega), List.getElem?_append_left (by rw [List.length_take]; omega),
        List.getElem?_take, if_pos (by omega), atS.held i (by simp only [List.length_append]; omega),
        List.getElem?_append_left (by omega)]
    · intro i past inside
      rw [Memory.write_at (by omega), List.getElem?_append_right (by rw [List.length_take]; omega),
        List.length_take, List.getElem?_replicate, if_pos (by omega)]
    · intro a outside
      exact Memory.write_of_notMem (by rwa [length])
    · intro other same
      have held : other.Holds src ((s ++ [0]).take n) := by
        refine (atS.held.take n).congr ?_
        simp only [List.length_take, List.length_append, List.length_singleton]
        exact fun a inside => same a (Or.inr inside)
      rw [strncpy_eq atS.noNul held (room.congr fun a inside => same a (Or.inl inside)) apart]
      rfl
  · intro dest room apart
    refine ⟨_, ⟨s.length + 1, fun fuel enough => strcpy_eq atS room apart enough⟩, Memory.write_holds, ?_⟩
    intro a outside
    exact Memory.write_of_notMem (by rwa [List.length_append, List.length_singleton])

end

/-- A name, eight bytes to copy it to and five more, none of them the same. -/
def nameAndRoom : Memory :=
  ((Memory.unmapped.write 16 [0x43, 0x41, 0x4E, 0x30, 0]).write 32 (List.replicate 8 0xFF)).write 64
    (List.replicate 5 0xFF)

theorem string_copies_exact_short :
    strnlen nameAndRoom 16 3 = some 3 ∧
      (∃ mem', strncpy nameAndRoom 32 16 3 = some (32, mem') ∧ mem' 34 = nameAndRoom 18 ∧ mem' 35 = some 0xFF ∧
        strncasecmp mem' 32 16 3 = some 0) ∧
      ∃ mem', Returns (fun fuel => strcpy fuel nameAndRoom 64 16) (64, mem') ∧
        mem'.Holds 64 [0x43, 0x41, 0x4E, 0x30, 0] ∧ mem' 32 = some 0xFF := by
  have room : nameAndRoom.Holds 32 (List.replicate 8 0xFF) := by decide
  have room' : nameAndRoom.Holds 64 (List.replicate 5 0xFF) := by decide
  obtain ⟨len, bounded, whole⟩ :=
    @string_copies_exact nameAndRoom 16 [0x43, 0x41, 0x4E, 0x30] ⟨by decide, by decide⟩ 3
  obtain ⟨⟨mem', copied, same, -, frame, equal⟩, -⟩ :=
    bounded 32 (room.take 3).mapped (Set.disjoint_left.mpr fun a ⟨_, _⟩ ⟨_, _⟩ => by simp at *; omega)
  obtain ⟨mem'', returns, held, frame'⟩ :=
    whole 64 room'.mapped (Set.disjoint_left.mpr fun a ⟨_, _⟩ ⟨_, _⟩ => by simp at *; omega)
  exact ⟨len, ⟨mem', copied, same 2 (by decide), (frame 35 (by simp)).trans (by decide), equal⟩,
    mem'', returns, held, (frame' 32 (by simp)).trans (by decide)⟩

end CspArch

end Libcsp
