import Libcsp.Base.BitPolynomial
import Libcsp.Base.Period
import Mathlib.Order.Interval.Finset.Nat
import Mathlib.Tactic.NormNum.Prime

namespace Libcsp
open Sys

/-- The three lines that `rand`, `rand_r` and the generators of the stress tests share. -/
def xorshift (x : UInt32) : UInt32 :=
  let x := x ^^^ (x <<< 13)
  let x := x ^^^ (x >>> 17)
  x ^^^ (x <<< 5)

theorem xor_interchange (a b c d : UInt32) : a ^^^ b ^^^ (c ^^^ d) = a ^^^ c ^^^ (b ^^^ d) := by
  rw [UInt32.xor_assoc, UInt32.xor_assoc, ← UInt32.xor_assoc b, UInt32.xor_comm b c, UInt32.xor_assoc c]

theorem xor_shiftLeft (a b n : UInt32) : a ^^^ b ^^^ ((a ^^^ b) <<< n) = a ^^^ (a <<< n) ^^^ (b ^^^ (b <<< n)) := by
  rw [UInt32.shiftLeft_xor, xor_interchange]

theorem xor_shiftRight (a b n : UInt32) : a ^^^ b ^^^ ((a ^^^ b) >>> n) = a ^^^ (a >>> n) ^^^ (b ^^^ (b >>> n)) := by
  rw [UInt32.shiftRight_xor, xor_interchange]

theorem xorshift_xor (a b : UInt32) : xorshift (a ^^^ b) = xorshift a ^^^ xorshift b := by
  simp only [xorshift]
  rw [xor_shiftLeft a b, xor_shiftRight, xor_shiftLeft]

/-- A word as a vector over two elements: its sum is exclusive or. -/
@[ext]
structure Word where
  bits : UInt32
  deriving DecidableEq

instance : AddCommGroup Word where
  add a b := ⟨a.bits ^^^ b.bits⟩
  zero := ⟨0⟩
  neg a := a
  nsmul := @nsmulRec Word ⟨⟨0⟩⟩ ⟨fun a b => ⟨a.bits ^^^ b.bits⟩⟩
  zsmul := @zsmulRec Word ⟨⟨0⟩⟩ ⟨fun a b => ⟨a.bits ^^^ b.bits⟩⟩ ⟨fun a => a⟩
    (@nsmulRec Word ⟨⟨0⟩⟩ ⟨fun a b => ⟨a.bits ^^^ b.bits⟩⟩)
  add_assoc a b c := Word.ext (UInt32.xor_assoc ..)
  zero_add _ := Word.ext UInt32.zero_xor
  add_zero _ := Word.ext UInt32.xor_zero
  add_comm _ _ := Word.ext (UInt32.xor_comm ..)
  neg_add_cancel _ := Word.ext UInt32.xor_self

/-- The shifts as an endomorphism. -/
def shifts : AddMonoid.End Word where
  toFun x := ⟨xorshift x.bits⟩
  map_zero' := by decide
  map_add' a b := Word.ext (xorshift_xor a.bits b.bits)

theorem shifts_iterate (n : Nat) (x : UInt32) : (shifts^[n] ⟨x⟩).bits = xorshift^[n] x := by
  induction n generalizing x with
  | zero => rfl
  | succ n ih => exact ih (xorshift x)

instance : CharP (AddMonoid.End Word) 2 := by
  refine CharTwo.of_one_ne_zero_of_two_eq_zero ?_ ?_
  · intro same
    exact absurd (congrArg (fun f : AddMonoid.End Word => f ⟨1⟩) same) (by decide)
  · refine AddMonoidHom.ext fun x => ?_
    rw [← one_add_one_eq_two]
    exact Word.ext UInt32.xor_self

/-- The characteristic polynomial of the shifts. -/
def shiftsModulus : Nat := 0x1003EC241

theorem shiftsModulus_bit : ∀ i < 32, applyBits shifts ⟨UInt32.ofNat (2 ^ i)⟩ 33 shiftsModulus = 0 := by
  decide +kernel

theorem shiftsModulus_vanishes : evalBits shifts shiftsModulus = 0 := by
  refine AddMonoidHom.ext fun x => ?_
  have word : ∀ n < 2 ^ 32, evalBits shifts shiftsModulus ⟨UInt32.ofNat n⟩ = 0 := by
    intro n small
    refine xor_induction (P := fun n => evalBits shifts shiftsModulus ⟨UInt32.ofNat n⟩ = 0) ?_ ?_ ?_ small
    · exact map_zero (evalBits shifts shiftsModulus)
    · intro i below
      rw [evalBits_apply shifts _ (show shiftsModulus < 2 ^ 33 by decide)]
      exact shiftsModulus_bit i below
    · intro a b first second
      have sum : (⟨UInt32.ofNat (a ^^^ b)⟩ : Word) = ⟨UInt32.ofNat a⟩ + ⟨UInt32.ofNat b⟩ :=
        Word.ext (UInt32.ofNat_xor a b)
      rw [sum, map_add, first, second, add_zero]
  have all := word x.bits.toNat x.bits.toNat_lt
  rwa [UInt32.ofNat_toNat] at all

/-- The number of words but zero. -/
def fullPeriod : Nat := 2 ^ 32 - 1

theorem powMod_fullPeriod : powMod shiftsModulus 32 32 2 fullPeriod = some 1 := by decide +kernel

theorem shifts_order : shifts ^ fullPeriod = 1 := by
  have power := evalBits_powMod shiftsModulus_vanishes powMod_fullPeriod
  rwa [evalBits_one, evalBits_two, eq_comm] at power

/-- For each prime factor of the full period, the power of the shifts that the shorter cycle
belongs to, less one. -/
def shorterCycles : List (Nat × Nat) :=
  [(3, 2863311530), (5, 1145324612), (17, 3991793133), (257, 2812716966), (65537, 3034363099)]

theorem shorterCycles_powMod : ∀ cycle ∈ shorterCycles,
    (powMod shiftsModulus 32 32 2 cycle.2).isSome ∧ powMod shiftsModulus 32 32 2 (fullPeriod / cycle.1) =
      (powMod shiftsModulus 32 32 2 cycle.2).map (· ^^^ 1) := by
  decide +kernel

theorem prime_dvd_fullPeriod {p : Nat} (prime : p.Prime) (divides : p ∣ fullPeriod) :
    ∃ k, (p, k) ∈ shorterCycles := by
  have factors : fullPeriod = 3 * (5 * (17 * (257 * 65537))) := by decide
  rw [factors, prime.dvd_mul, prime.dvd_mul, prime.dvd_mul, prime.dvd_mul,
    Nat.prime_dvd_prime_iff_eq prime (by norm_num), Nat.prime_dvd_prime_iff_eq prime (by norm_num),
    Nat.prime_dvd_prime_iff_eq prime (by norm_num), Nat.prime_dvd_prime_iff_eq prime (by norm_num),
    Nat.prime_dvd_prime_iff_eq prime (by norm_num)] at divides
  rcases divides with rfl | rfl | rfl | rfl | rfl <;> simp [shorterCycles]

theorem minimalPeriod_shifts {x : Word} (nonzero : x ≠ 0) : Function.minimalPeriod shifts x = fullPeriod := by
  refine minimalPeriod_eq_order (by decide) shifts_order ?_ nonzero
  intro p prime divides
  obtain ⟨k, listed⟩ := prime_dvd_fullPeriod prime divides
  obtain ⟨returns, same⟩ := shorterCycles_powMod _ listed
  obtain ⟨c, power⟩ := Option.isSome_iff_exists.mp returns
  rw [power, Option.map_some] at same
  have above := evalBits_powMod shiftsModulus_vanishes power
  have below := evalBits_powMod shiftsModulus_vanishes same
  rw [evalBits_two] at above below
  exact ⟨k, by rw [← above, ← below, evalBits_xor, evalBits_one]⟩

theorem isPeriodicPt_shifts (n : Nat) (x : UInt32) :
    Function.IsPeriodicPt xorshift n x ↔ Function.IsPeriodicPt shifts n ⟨x⟩ := by
  unfold Function.IsPeriodicPt Function.IsFixedPt
  rw [Word.ext_iff, shifts_iterate]

/-- From any word but zero it takes the whole period to come back. -/
theorem minimalPeriod_xorshift {x : UInt32} (nonzero : x ≠ 0) : Function.minimalPeriod xorshift x = fullPeriod := by
  have word : (⟨x⟩ : Word) ≠ 0 := by
    intro zero
    exact nonzero (congrArg Word.bits zero)
  rw [← minimalPeriod_shifts word]
  exact Function.minimalPeriod_eq_minimalPeriod_iff.mpr fun n => isPeriodicPt_shifts n x

theorem xorshift_injective : Function.Injective xorshift := by
  intro a b same
  rw [← UInt32.xor_eq_zero_iff] at same ⊢
  rw [← xorshift_xor] at same
  by_contra nonzero
  have fixed : Function.IsPeriodicPt xorshift 1 0 := by decide
  have later : xorshift^[fullPeriod] (a ^^^ b) = 0 := by
    rw [show fullPeriod = fullPeriod - 1 + 1 by decide, Function.iterate_succ_apply, same]
    exact Function.iterate_fixed fixed _
  have back := Function.iterate_minimalPeriod (f := xorshift) (x := a ^^^ b)
  rw [minimalPeriod_xorshift nonzero, later] at back
  exact nonzero back.symm

theorem xorshift_iterate_ne_zero {x : UInt32} (nonzero : x ≠ 0) (n : Nat) : xorshift^[n] x ≠ 0 := by
  have fixed : xorshift^[n] 0 = 0 := Function.iterate_fixed (by decide) n
  rw [← fixed]
  exact (xorshift_injective.iterate n).ne nonzero

/-- On its way it passes every other word but zero. -/
theorem xorshift_bijOn {x : UInt32} (nonzero : x ≠ 0) :
    Set.BijOn (fun i => (xorshift^[i] x).toNat) (Finset.range fullPeriod) (Finset.Ico 1 (2 ^ 32)) := by
  have maps : Set.MapsTo (fun i => (xorshift^[i] x).toNat) (Finset.range fullPeriod) (Finset.Ico 1 (2 ^ 32)) := by
    intro i _
    have positive : (xorshift^[i] x).toNat ≠ 0 := by
      intro zero
      exact xorshift_iterate_ne_zero nonzero i (UInt32.toNat_inj.mp zero)
    simp only [Finset.coe_Ico, Set.mem_Ico]
    exact ⟨Nat.one_le_iff_ne_zero.mpr positive, UInt32.toNat_lt _⟩
  have distinct : Set.InjOn (fun i => (xorshift^[i] x).toNat) (Finset.range fullPeriod) := by
    intro i below j above same
    rw [Finset.mem_coe, Finset.mem_range, ← minimalPeriod_xorshift nonzero] at below above
    exact Function.iterate_injOn_Iio_minimalPeriod below above (UInt32.toNat_inj.mp same)
  refine ⟨maps, distinct, Finset.surjOn_of_injOn_of_card_le _ maps distinct ?_⟩
  rw [Nat.card_Ico, Finset.card_range, fullPeriod]

end Libcsp
