import Mathlib.Data.List.Basic
import Mathlib.Tactic.Common

namespace Sys

/-- The C string that starts where `memory` does, without its NUL. `none` if no NUL
follows in memory that can be read. -/
def cString : List UInt8 → Option (List UInt8)
  | [] => none
  | b :: rest => if b = 0 then some [] else (cString rest).map (b :: ·)

/-- A NUL among the first `n + 1` bytes ends the string within the first `n`. -/
theorem cString_of_mem_take {memory : List UInt8} {n : Nat} (ends : 0 ∈ memory.take (n + 1)) :
    cString memory = some ((memory.take n).takeWhile (· ≠ 0)) := by
  induction memory generalizing n with
  | nil => simp at ends
  | cons b rest ih =>
    by_cases nul : b = 0
    · subst nul
      cases n <;> simp [cString]
    · cases n with
      | zero => simp [Ne.symm nul] at ends
      | succ n =>
        have later : 0 ∈ rest.take (n + 1) := by simpa [List.take_succ_cons, Ne.symm nul] using ends
        simp [cString, nul, ih later]

theorem cString_append_zero {bytes : List UInt8} (plain : 0 ∉ bytes) : cString (bytes ++ [0]) = some bytes := by
  induction bytes with
  | nil => simp [cString]
  | cons b rest ih =>
    have first : b ≠ 0 := fun zero => plain (by simp [zero])
    have later : 0 ∉ rest := fun member => plain (List.mem_cons_of_mem b member)
    simp [cString, first, ih later]

theorem mem_take_of_cString {memory bytes : List UInt8} {n : Nat} (found : cString memory = some bytes)
    (short : bytes.length ≤ n) : 0 ∈ memory.take (n + 1) := by
  induction memory generalizing bytes n with
  | nil => exact nomatch found
  | cons b rest ih =>
    rw [List.take_succ_cons]
    by_cases nul : b = 0
    · rw [nul]
      exact List.mem_cons_self
    · simp only [cString, nul, if_false, Option.map_eq_some_iff] at found
      obtain ⟨later, foundLater, rfl⟩ := found
      simp only [List.length_cons] at short
      have shorter := ih foundLater (n := n - 1) (by omega)
      rw [show n - 1 + 1 = n by omega] at shorter
      exact List.mem_cons_of_mem b shorter

theorem takeWhile_append_zeros {bytes : List UInt8} (plain : 0 ∉ bytes) (n : Nat) :
    (bytes ++ List.replicate n 0).takeWhile (· ≠ 0) = bytes := by
  rw [List.takeWhile_append_of_pos]
  · cases n <;> simp [List.replicate_succ]
  · intro b member
    simp only [ne_eq, decide_eq_true_eq]
    rintro rfl
    exact plain member

/-- `utf8_char_width`: the length of the sequence a byte introduces, or 0. -/
def utf8CharWidth (byte : Nat) : Nat :=
  if byte < 0x80 then 1
  else if byte < 0xC2 then 0
  else if byte < 0xE0 then 2
  else if byte < 0xF0 then 3
  else if byte < 0xF5 then 4
  else 0

def isContinuation (byte : Nat) : Prop := 0x80 ≤ byte ∧ byte < 0xC0

/-- The second bytes allowed after the first byte of a sequence of three: no overlong
forms and no surrogates. -/
def secondOfThree (first second : Nat) : Prop :=
  first = 0xE0 ∧ 0xA0 ≤ second ∧ second < 0xC0 ∨ 0xE1 ≤ first ∧ first ≤ 0xEC ∧ isContinuation second ∨
    first = 0xED ∧ 0x80 ≤ second ∧ second < 0xA0 ∨ 0xEE ≤ first ∧ first ≤ 0xEF ∧ isContinuation second

/-- Likewise of four: no overlong forms, nothing past the last scalar value. -/
def secondOfFour (first second : Nat) : Prop :=
  first = 0xF0 ∧ 0x90 ≤ second ∧ second < 0xC0 ∨ 0xF1 ≤ first ∧ first ≤ 0xF3 ∧ isContinuation second ∨
    first = 0xF4 ∧ 0x80 ≤ second ∧ second < 0x90

instance (byte : Nat) : Decidable (isContinuation byte) := inferInstanceAs (Decidable (_ ∧ _))

instance (first second : Nat) : Decidable (secondOfThree first second) :=
  inferInstanceAs (Decidable (_ ∨ _ ∨ _ ∨ _))

instance (first second : Nat) : Decidable (secondOfFour first second) :=
  inferInstanceAs (Decidable (_ ∨ _ ∨ _))

def replacement : Char := Char.ofNat 0xFFFD

/-- `String::from_utf8_lossy`, a string being its scalar values. The longest start of a
sequence that is then broken off becomes one replacement character. -/
def fromUtf8Lossy : List UInt8 → List Char
  | [] => []
  | a :: rest =>
    if utf8CharWidth a.toNat = 1 then Char.ofNat a.toNat :: fromUtf8Lossy rest
    else if utf8CharWidth a.toNat = 2 then
      match rest with
      | [] => [replacement]
      | b :: rest₁ =>
        if isContinuation b.toNat then
          Char.ofNat (a.toNat % 32 * 64 + b.toNat % 64) :: fromUtf8Lossy rest₁
        else replacement :: fromUtf8Lossy (b :: rest₁)
    else if utf8CharWidth a.toNat = 3 then
      match rest with
      | [] => [replacement]
      | b :: rest₁ =>
        if secondOfThree a.toNat b.toNat then
          match rest₁ with
          | [] => [replacement]
          | c :: rest₂ =>
            if isContinuation c.toNat then
              Char.ofNat (a.toNat % 16 * 4096 + b.toNat % 64 * 64 + c.toNat % 64) :: fromUtf8Lossy rest₂
            else replacement :: fromUtf8Lossy (c :: rest₂)
        else replacement :: fromUtf8Lossy (b :: rest₁)
    else if utf8CharWidth a.toNat = 4 then
      match rest with
      | [] => [replacement]
      | b :: rest₁ =>
        if secondOfFour a.toNat b.toNat then
          match rest₁ with
          | [] => [replacement]
          | c :: rest₂ =>
            if isContinuation c.toNat then
              match rest₂ with
              | [] => [replacement]
              | d :: rest₃ =>
                if isContinuation d.toNat then
                  Char.ofNat (a.toNat % 8 * 262144 + b.toNat % 64 * 4096 + c.toNat % 64 * 64 + d.toNat % 64) ::
                    fromUtf8Lossy rest₃
                else replacement :: fromUtf8Lossy (d :: rest₃)
            else replacement :: fromUtf8Lossy (c :: rest₂)
        else replacement :: fromUtf8Lossy (b :: rest₁)
    else replacement :: fromUtf8Lossy rest

section
variable {a b c d : UInt8} {rest : List UInt8}

theorem fromUtf8Lossy_one (first : utf8CharWidth a.toNat = 1) :
    fromUtf8Lossy (a :: rest) = Char.ofNat a.toNat :: fromUtf8Lossy rest := by
  rw [fromUtf8Lossy.eq_def]
  simp [first]

theorem fromUtf8Lossy_two (first : utf8CharWidth a.toNat = 2) (second : isContinuation b.toNat) :
    fromUtf8Lossy (a :: b :: rest) =
      Char.ofNat (a.toNat % 32 * 64 + b.toNat % 64) :: fromUtf8Lossy rest := by
  rw [fromUtf8Lossy.eq_def]
  simp [first, second]

theorem fromUtf8Lossy_three (first : utf8CharWidth a.toNat = 3) (second : secondOfThree a.toNat b.toNat)
    (third : isContinuation c.toNat) :
    fromUtf8Lossy (a :: b :: c :: rest) =
      Char.ofNat (a.toNat % 16 * 4096 + b.toNat % 64 * 64 + c.toNat % 64) :: fromUtf8Lossy rest := by
  rw [fromUtf8Lossy.eq_def]
  simp [first, second, third]

theorem fromUtf8Lossy_four (first : utf8CharWidth a.toNat = 4) (second : secondOfFour a.toNat b.toNat)
    (third : isContinuation c.toNat) (fourth : isContinuation d.toNat) :
    fromUtf8Lossy (a :: b :: c :: d :: rest) =
      Char.ofNat (a.toNat % 8 * 262144 + b.toNat % 64 * 4096 + c.toNat % 64 * 64 + d.toNat % 64) ::
        fromUtf8Lossy rest := by
  rw [fromUtf8Lossy.eq_def]
  simp [first, second, third, fourth]

end

theorem utf8CharWidth_spec (byte : Nat) :
    (byte < 0x80 → utf8CharWidth byte = 1) ∧ (0xC2 ≤ byte ∧ byte < 0xE0 → utf8CharWidth byte = 2) ∧
      (0xE0 ≤ byte ∧ byte < 0xF0 → utf8CharWidth byte = 3) ∧
      (0xF0 ≤ byte ∧ byte < 0xF5 → utf8CharWidth byte = 4) := by
  unfold utf8CharWidth
  split_ifs <;> omega

theorem toNat_ofNat_of_lt {n : Nat} (fits : n < 256) : (UInt8.ofNat n).toNat = n := by
  rw [UInt8.toNat_ofNat']
  exact Nat.mod_eq_of_lt fits

theorem isContinuation_low (n : Nat) : isContinuation (UInt8.ofNat (n % 64 + 128)).toNat := by
  rw [toNat_ofNat_of_lt (by omega), isContinuation]
  omega

/-- An encoded character in front of any bytes is read back. The second byte of a longer
sequence is in range because the character is no surrogate and the form is the shortest. -/
theorem fromUtf8Lossy_encode_cons (x : Char) (rest : List UInt8) :
    fromUtf8Lossy (String.utf8EncodeChar x ++ rest) = x :: fromUtf8Lossy rest := by
  have valid : x.val.toNat < 0xD800 ∨ 0xDFFF < x.val.toNat ∧ x.val.toNat < 0x110000 := x.valid
  have same : Char.ofNat x.val.toNat = x := Char.ofNat_toNat x
  have low := @toNat_ofNat_of_lt (x.val.toNat % 64 + 128) (by omega)
  have middle := @toNat_ofNat_of_lt (x.val.toNat / 64 % 64 + 128) (by omega)
  have high := @toNat_ofNat_of_lt (x.val.toNat / 4096 % 64 + 128) (by omega)
  unfold String.utf8EncodeChar
  generalize x.val.toNat = v at valid same low middle high
  simp only
  split_ifs with one two three
  · have first := @toNat_ofNat_of_lt v (by omega)
    have width : utf8CharWidth (UInt8.ofNat v).toNat = 1 := by
      rw [first]
      exact (utf8CharWidth_spec v).1 (by omega)
    rw [List.singleton_append, fromUtf8Lossy_one width, first, same]
  · have first := @toNat_ofNat_of_lt (v / 64 % 32 + 192) (by omega)
    have width : utf8CharWidth (UInt8.ofNat (v / 64 % 32 + 192)).toNat = 2 := by
      rw [first]
      exact (utf8CharWidth_spec _).2.1 (by omega)
    have value : (v / 64 % 32 + 192) % 32 * 64 + (v % 64 + 128) % 64 = v := by omega
    rw [List.cons_append, List.singleton_append, fromUtf8Lossy_two width (isContinuation_low v),
      first, low, value, same]
  · have first := @toNat_ofNat_of_lt (v / 4096 % 16 + 224) (by omega)
    have width : utf8CharWidth (UInt8.ofNat (v / 4096 % 16 + 224)).toNat = 3 := by
      rw [first]
      exact (utf8CharWidth_spec _).2.2.1 (by omega)
    have second : secondOfThree (UInt8.ofNat (v / 4096 % 16 + 224)).toNat
        (UInt8.ofNat (v / 64 % 64 + 128)).toNat := by
      rw [first, middle]
      unfold secondOfThree isContinuation
      omega
    have value : (v / 4096 % 16 + 224) % 16 * 4096 + (v / 64 % 64 + 128) % 64 * 64 + (v % 64 + 128) % 64 = v := by
      omega
    rw [List.cons_append, List.cons_append, List.singleton_append,
      fromUtf8Lossy_three width second (isContinuation_low v), first, middle, low, value, same]
  · have first := @toNat_ofNat_of_lt (v / 262144 % 8 + 240) (by omega)
    have width : utf8CharWidth (UInt8.ofNat (v / 262144 % 8 + 240)).toNat = 4 := by
      rw [first]
      exact (utf8CharWidth_spec _).2.2.2 (by omega)
    have second : secondOfFour (UInt8.ofNat (v / 262144 % 8 + 240)).toNat
        (UInt8.ofNat (v / 4096 % 64 + 128)).toNat := by
      rw [first, high]
      unfold secondOfFour isContinuation
      omega
    have value : (v / 262144 % 8 + 240) % 8 * 262144 + (v / 4096 % 64 + 128) % 64 * 4096 +
        (v / 64 % 64 + 128) % 64 * 64 + (v % 64 + 128) % 64 = v := by
      omega
    rw [List.cons_append, List.cons_append, List.cons_append, List.singleton_append,
      fromUtf8Lossy_four width second (isContinuation_low _) (isContinuation_low v),
      first, high, middle, low, value, same]

/-- UTF-8 is decoded without loss. -/
theorem fromUtf8Lossy_encode (text : List Char) :
    fromUtf8Lossy (text.flatMap String.utf8EncodeChar) = text := by
  induction text with
  | nil => rfl
  | cons x text ih => rw [List.flatMap_cons, fromUtf8Lossy_encode_cons, ih]

/-- `core::str::from_utf8`: bytes are UTF-8 exactly when nothing is lost. -/
def fromUtf8 (bytes : List UInt8) : Option (List Char) :=
  if (fromUtf8Lossy bytes).flatMap String.utf8EncodeChar = bytes then some (fromUtf8Lossy bytes) else none

theorem fromUtf8_encode (text : List Char) : fromUtf8 (text.flatMap String.utf8EncodeChar) = some text := by
  simp only [fromUtf8, fromUtf8Lossy_encode, if_true]

theorem zero_not_mem_encode {text : List Char} (noNul : ∀ x ∈ text, x ≠ Char.ofNat 0) :
    0 ∉ text.flatMap String.utf8EncodeChar := by
  intro member
  obtain ⟨x, inText, nul⟩ := List.mem_flatMap.mp member
  have positive : x.val.toNat ≠ 0 := by
    intro zero
    refine noNul x inText ?_
    rw [← Char.ofNat_toNat x]
    exact congrArg Char.ofNat zero
  have valid : x.val.toNat < 0xD800 ∨ 0xDFFF < x.val.toNat ∧ x.val.toNat < 0x110000 := x.valid
  have byte : ∀ n, n < 256 → n ≠ 0 → (0 : UInt8) ≠ UInt8.ofNat n := by
    intro n fits nonzero same
    refine nonzero ?_
    rw [← toNat_ofNat_of_lt fits, ← same]
    rfl
  unfold String.utf8EncodeChar at nul
  simp only at nul
  split_ifs at nul <;> simp only [List.mem_cons, List.not_mem_nil, or_false] at nul
  · exact byte _ (by omega) positive nul
  · rcases nul with nul | nul <;> exact byte _ (by omega) (by omega) nul
  · rcases nul with nul | nul | nul <;> exact byte _ (by omega) (by omega) nul
  · rcases nul with nul | nul | nul | nul <;> exact byte _ (by omega) (by omega) nul

end Sys
