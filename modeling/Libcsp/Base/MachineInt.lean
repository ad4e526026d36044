import Mathlib.Algebra.Ring.Nat
import Mathlib.Data.List.Basic
import Mathlib.Tactic.Common

namespace Sys

theorem asU32_toNat {n : Nat} (fits : n < 2 ^ 32) : (UInt32.ofNat n).toNat = n :=
  UInt32.toNat_ofNat_of_lt' fits

def saturatingAdd (a b : UInt32) : UInt32 :=
  if a.toNat + b.toNat < 2 ^ 32 then a + b else UInt32.ofNat (2 ^ 32 - 1)

theorem saturatingAdd_toNat (a b : UInt32) :
    (saturatingAdd a b).toNat = min (a.toNat + b.toNat) (2 ^ 32 - 1) := by
  unfold saturatingAdd
  split
  · rename_i small
    rw [UInt32.toNat_add, Nat.mod_eq_of_lt small]
    omega
  · rw [UInt32.toNat_ofNat']
    omega

/-- The width of `usize`. -/
inductive PointerWidth
  | w32 | w64
  deriving DecidableEq, Repr

def PointerWidth.bits : PointerWidth → Nat
  | .w32 => 32
  | .w64 => 64

def PointerWidth.bytes : PointerWidth → Nat
  | .w32 => 4
  | .w64 => 8

theorem PointerWidth.pow_bytes (w : PointerWidth) : 256 ^ w.bytes = 2 ^ w.bits := by
  cases w <;> rfl

theorem PointerWidth.bytes_le (w : PointerWidth) : w.bytes ≤ 8 := by
  cases w <;> decide

theorem PointerWidth.ge_u32 (w : PointerWidth) : 2 ^ 32 ≤ 2 ^ w.bits := by
  cases w <;> decide

def checkedAdd (w : PointerWidth) (a b : Nat) : Option Nat :=
  if a + b < 2 ^ w.bits then some (a + b) else none

/-- `a % b`, which panics on a divisor of 0. -/
def rem? (a b : Nat) : Option Nat := if b = 0 then none else some (a % b)

theorem rem?_eq {a b : Nat} (positive : 0 < b) : rem? a b = some (a % b) := if_neg (Nat.pos_iff_ne_zero.mp positive)

def PointerWidth.usizeMax (w : PointerWidth) : Nat := 2 ^ w.bits - 1

def i32Max : Nat := 2 ^ 31 - 1

def asI32 (n : Nat) : Int := (n : Int).bmod (2 ^ 32)

theorem asI32_eq_self_iff {n : Nat} : asI32 n = n ↔ n ≤ i32Max := by
  unfold asI32 i32Max
  constructor
  · intro same
    have upper := Int.bmod_lt (x := (n : Int)) (m := 2 ^ 32) (by decide)
    omega
  · intro fits
    exact Int.bmod_eq_of_le (by omega) (by omega)

theorem asI32_of_le {n : Nat} (fits : n ≤ i32Max) : asI32 n = n := asI32_eq_self_iff.mpr fits

end Sys
