import Mathlib.Algebra.Group.Hom.End
import Mathlib.Data.Nat.Prime.Basic
import Mathlib.Dynamics.PeriodicPts.Lemmas

namespace Sys

universe u
variable {V : Type u} [AddCommGroup V]

/-- An endomorphism of finite order moves every vector but zero through a full cycle, if each
power that a shorter cycle would make trivial somewhere differs from the identity by a power
of the endomorphism again. -/
theorem minimalPeriod_eq_order {T : AddMonoid.End V} {n : Nat} (positive : 0 < n) (order : T ^ n = 1)
    (shorter : ∀ p, p.Prime → p ∣ n → ∃ k, T ^ (n / p) = T ^ k + 1) {x : V} (nonzero : x ≠ 0) :
    Function.minimalPeriod T x = n := by
  have returns : Function.IsPeriodicPt T n x := by
    have fixed := congrArg (fun f : AddMonoid.End V => f x) order
    rwa [AddMonoid.End.coe_pow] at fixed
  obtain ⟨q, cycles⟩ := returns.minimalPeriod_dvd
  by_contra early
  have several : q ≠ 1 := by
    rintro rfl
    exact early (cycles.trans (Nat.mul_one _)).symm
  obtain ⟨p, prime, r, rfl⟩ := Nat.exists_prime_and_dvd several
  have split : n = p * (Function.minimalPeriod T x * r) := cycles.trans (Nat.mul_left_comm _ _ _)
  obtain ⟨k, differs⟩ := shorter p prime ⟨_, split⟩
  have early : (T ^ (n / p)) x = x := by
    rw [split, Nat.mul_div_cancel_left _ prime.pos, AddMonoid.End.coe_pow]
    exact (Function.isPeriodicPt_minimalPeriod T x).mul_const r
  have gone : (T ^ k) x = 0 := by
    have sum : (T ^ k) x + x = x := by rwa [differs] at early
    exact add_eq_right.mp sum
  refine nonzero ?_
  calc x = (T ^ (k * n)) x := by rw [mul_comm, pow_mul, order, one_pow]; rfl
    _ = (T ^ (k * n - k)) ((T ^ k) x) := by
      rw [← Nat.sub_add_cancel (Nat.le_mul_of_pos_right k positive), pow_add, Nat.add_sub_cancel]
      rfl
    _ = 0 := by rw [gone, map_zero]

end Sys
