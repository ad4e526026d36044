import Mathlib.Algebra.CharP.Two
import Mathlib.Algebra.Group.Hom.End
import Mathlib.Data.Nat.Bitwise
import Mathlib.Tactic.Abel

namespace Sys

universe u
variable {R : Type u} [Semiring R]

/-- A number as a polynomial over two elements, its bits being the coefficients, evaluated
at `t`. -/
def evalBits (t : R) (p : Nat) : R :=
  if p = 0 then 0 else ((p % 2 : Nat) : R) + t * evalBits t (p / 2)
termination_by p
decreasing_by omega

theorem evalBits_eq (t : R) (p : Nat) : evalBits t p = ((p % 2 : Nat) : R) + t * evalBits t (p / 2) := by
  by_cases zero : p = 0
  · subst zero
    simp [evalBits]
  · rw [evalBits, if_neg zero]

theorem evalBits_zero (t : R) : evalBits t 0 = 0 := by rw [evalBits, if_pos rfl]

theorem evalBits_one (t : R) : evalBits t 1 = 1 := by
  rw [evalBits_eq, Nat.div_eq_of_lt Nat.one_lt_two, evalBits_zero]
  simp

theorem evalBits_double (t : R) (p : Nat) : evalBits t (2 * p) = t * evalBits t p := by
  rw [evalBits_eq, Nat.mul_mod_right, Nat.mul_div_cancel_left p Nat.two_pos, Nat.cast_zero, zero_add]

theorem evalBits_two (t : R) : evalBits t 2 = t := by
  simpa [evalBits_one] using evalBits_double t 1

section
variable [CharP R 2]

theorem cast_mod_two_xor (a b : Nat) : (((a ^^^ b) % 2 : Nat) : R) = ((a % 2 : Nat) : R) + ((b % 2 : Nat) : R) := by
  rcases Nat.mod_two_eq_zero_or_one a with first | first <;>
    rcases Nat.mod_two_eq_zero_or_one b with second | second <;>
    simp [Nat.xor_mod_two_eq, Nat.add_mod, first, second, CharTwo.add_self_eq_zero]

/-- Adding polynomials is the exclusive or of their bits. -/
theorem evalBits_xor (t : R) (a b : Nat) : evalBits t (a ^^^ b) = evalBits t a + evalBits t b := by
  induction a using Nat.strong_induction_on generalizing b with
  | _ a ih =>
    by_cases zero : a = 0
    · rw [zero, Nat.zero_xor, evalBits_zero, zero_add]
    · rw [evalBits_eq t (a ^^^ b), evalBits_eq t a, evalBits_eq t b, cast_mod_two_xor, Nat.xor_div_two,
        ih (a / 2) (by omega), mul_add]
      abel

end

/-- Times the indeterminate, with `modulus` of degree `w` taken off an overflow. -/
def timesX (modulus w a : Nat) : Nat :=
  if 2 ^ w ≤ 2 * a then (2 * a) ^^^ modulus else 2 * a

/-- The product, bit by bit of the first factor. `none` if it has more than `k` bits. -/
def mulMod (modulus w b : Nat) : Nat → Nat → Option Nat
  | 0, a => if a = 0 then some 0 else none
  | k + 1, a => (mulMod modulus w b k (a / 2)).map fun rest => (a % 2 * b) ^^^ timesX modulus w rest

/-- Square and multiply. -/
def powMod (modulus w : Nat) : Nat → Nat → Nat → Option Nat
  | 0, _, n => if n = 0 then some 1 else none
  | k + 1, a, n => do
    let square ← mulMod modulus w a w a
    let rest ← powMod modulus w k square (n / 2)
    if n % 2 = 0 then some rest else mulMod modulus w rest w a

section
variable [CharP R 2] {t : R} {modulus w : Nat}

theorem evalBits_timesX (vanishes : evalBits t modulus = 0) (a : Nat) :
    evalBits t (timesX modulus w a) = t * evalBits t a := by
  unfold timesX
  split_ifs
  · rw [evalBits_xor, vanishes, add_zero, evalBits_double]
  · exact evalBits_double t a

theorem evalBits_mulMod (vanishes : evalBits t modulus = 0) {b k a c : Nat} (product : mulMod modulus w b k a = some c) :
    evalBits t c = evalBits t a * evalBits t b := by
  induction k generalizing a c with
  | zero =>
    simp only [mulMod] at product
    split_ifs at product with zero
    rw [zero, ← Option.some.inj product, evalBits_zero, zero_mul]
  | succ k ih =>
    obtain ⟨rest, multiplied, rfl⟩ := Option.map_eq_some_iff.mp product
    have low : evalBits t (a % 2 * b) = ((a % 2 : Nat) : R) * evalBits t b := by
      rcases Nat.mod_two_eq_zero_or_one a with bit | bit <;> simp [bit, evalBits_zero]
    rw [evalBits_xor, evalBits_timesX vanishes, ih multiplied, low, evalBits_eq t a, add_mul, mul_assoc]

theorem evalBits_powMod (vanishes : evalBits t modulus = 0) {k a n c : Nat} (power : powMod modulus w k a n = some c) :
    evalBits t c = evalBits t a ^ n := by
  induction k generalizing a n c with
  | zero =>
    simp only [powMod] at power
    split_ifs at power with zero
    rw [zero, ← Option.some.inj power, evalBits_one, pow_zero]
  | succ k ih =>
    simp only [powMod, Option.bind_eq_bind, Option.bind_eq_some_iff] at power
    obtain ⟨square, squared, rest, powered, last⟩ := power
    have halved : evalBits t rest = evalBits t a ^ (2 * (n / 2)) := by
      rw [ih powered, evalBits_mulMod vanishes squared, pow_mul, pow_two]
    split_ifs at last with even
    · rw [← Option.some.inj last, halved]
      congr 1
      omega
    · rw [evalBits_mulMod vanishes last, halved, ← pow_succ']
      congr 1
      omega

end

section
variable {V : Type u} [AddCommMonoid V]

/-- A polynomial in an operation, applied to one vector; `k` bits of it. -/
def applyBits (f : V → V) (x : V) : Nat → Nat → V
  | 0, _ => 0
  | k + 1, p => (if p % 2 = 0 then 0 else x) + f (applyBits f x k (p / 2))

theorem evalBits_apply (t : AddMonoid.End V) (x : V) {k p : Nat} (short : p < 2 ^ k) :
    evalBits t p x = applyBits t x k p := by
  induction k generalizing p with
  | zero =>
    have zero : p = 0 := by simpa using short
    rw [zero, evalBits_zero]
    rfl
  | succ k ih =>
    have low : ((p % 2 : Nat) : AddMonoid.End V) x = if p % 2 = 0 then 0 else x := by
      rcases Nat.mod_two_eq_zero_or_one p with bit | bit
      · rw [bit, Nat.cast_zero, if_pos rfl]
        rfl
      · rw [bit, Nat.cast_one, if_neg Nat.one_ne_zero]
        rfl
    have rest := ih (p := p / 2) (by rw [Nat.pow_succ] at short; omega)
    rw [evalBits_eq, applyBits, ← low, ← rest]
    rfl

end

/-- What is closed under exclusive or and holds of the single bits holds of every word. -/
theorem xor_induction {P : Nat → Prop} {w : Nat} (zero : P 0) (bit : ∀ i < w, P (2 ^ i))
    (xor : ∀ a b, P a → P b → P (a ^^^ b)) {x : Nat} (small : x < 2 ^ w) : P x := by
  induction w generalizing x with
  | zero =>
    have none : x = 0 := by simpa using small
    rwa [none]
  | succ w ih =>
    have lower := fun i below => bit i (Nat.lt_succ_of_lt below)
    by_cases top : x < 2 ^ w
    · exact ih lower top
    · have rest : x ^^^ 2 ^ w < 2 ^ w := by
        refine Nat.lt_pow_two_of_testBit _ ?_
        intro i above
        rw [Nat.testBit_xor, Nat.testBit_two_pow]
        rcases Nat.eq_or_lt_of_le above with rfl | higher
        · have set : x.testBit w = true := by
            rw [Nat.testBit_eq_decide_div_mod_eq]
            rw [Nat.pow_succ] at small
            have one : x / 2 ^ w = 1 := by
              refine Nat.div_eq_of_lt_le ?_ ?_ <;> omega
            simp [one]
          simp [set]
        · have clear : x.testBit i = false :=
            Nat.testBit_lt_two_pow (lt_of_lt_of_le small (Nat.pow_le_pow_right (by omega) higher))
          simp [clear, Nat.ne_of_lt higher]
      have back : x ^^^ 2 ^ w ^^^ 2 ^ w = x := Nat.xor_xor_cancel_right ..
      rw [← back]
      exact xor _ _ (ih lower rest) (bit w (Nat.lt_succ_self w))

end Sys
