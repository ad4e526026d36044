import Mathlib.Data.List.Basic
import Mathlib.Tactic.Common

namespace Sys

universe u
variable {σ : Type u}

/-- `while dequeue() {}` comes to its end after `n` turns. An undefined turn is `none`. -/
inductive Drains (dequeue : σ → Option (Bool × σ)) : σ → Nat → σ → Prop
  | done {s t} : dequeue s = some (false, t) → Drains dequeue s 0 t
  | again {s t n u} : dequeue s = some (true, t) → Drains dequeue t n u → Drains dequeue s (n + 1) u

variable {dequeue : σ → Option (Bool × σ)}

theorem Drains.never (goes : ∀ s, ∃ t, dequeue s = some (true, t)) {s t : σ} {n : Nat} : ¬ Drains dequeue s n t := by
  intro drains
  induction drains with
  | @done s t stops =>
    obtain ⟨_, more⟩ := goes s
    exact nomatch more.symm.trans stops
  | again _ _ ih => exact ih

/-- A store of so many elements, each of which can be taken out if `safe`. -/
structure Drainable (dequeue : σ → Option (Bool × σ)) (size : σ → Nat) (safe : Prop) : Prop where
  empty : ∀ s, size s = 0 → dequeue s = some (false, s)
  takes : safe → ∀ s, 0 < size s → ∃ t, dequeue s = some (true, t) ∧ size t + 1 = size s
  overruns : ¬ safe → ∀ s, 0 < size s → dequeue s = none

theorem Drainable.drains {size : σ → Nat} {safe : Prop} (drainable : Drainable dequeue size safe) {s : σ}
    (may : safe ∨ size s = 0) : ∃ t, Drains dequeue s (size s) t ∧ size t = 0 := by
  obtain ⟨n, atN⟩ : ∃ n, n = size s := ⟨_, rfl⟩
  induction n generalizing s with
  | zero =>
    rw [← atN]
    exact ⟨s, .done (drainable.empty s atN.symm), atN.symm⟩
  | succ n ih =>
    have possible : safe := may.resolve_right (by omega)
    obtain ⟨t, takes, fewer⟩ := drainable.takes possible s (by omega)
    obtain ⟨u, drains, nothing⟩ := ih (s := t) (.inl possible) (by omega)
    rw [← fewer]
    exact ⟨u, .again takes drains, nothing⟩

theorem Drainable.of_drains {size : σ → Nat} {safe : Prop} (drainable : Drainable dequeue size safe) {s t : σ} {n : Nat}
    (drains : Drains dequeue s n t) : (safe ∨ size s = 0) ∧ n = size s ∧ size t = 0 := by
  induction drains with
  | @done s t stops =>
    rcases Nat.eq_zero_or_pos (size s) with nothing | some
    · cases (drainable.empty s nothing).symm.trans stops
      exact ⟨.inr nothing, nothing.symm, nothing⟩
    · by_cases possible : safe
      · obtain ⟨_, takes, -⟩ := drainable.takes possible s some
        exact nomatch takes.symm.trans stops
      · exact nomatch (drainable.overruns possible s some).symm.trans stops
  | @again s t n u takes _ ih =>
    rcases Nat.eq_zero_or_pos (size s) with nothing | some
    · exact nomatch (drainable.empty s nothing).symm.trans takes
    · by_cases possible : safe
      · obtain ⟨t', takes', fewer⟩ := drainable.takes possible s some
        cases takes'.symm.trans takes
        obtain ⟨-, turns, nothing⟩ := ih
        exact ⟨.inl possible, by omega, nothing⟩
      · exact nomatch (drainable.overruns possible s some).symm.trans takes

theorem Drainable.exactly {size : σ → Nat} {safe : Prop} (drainable : Drainable dequeue size safe) (s : σ) (n : Nat) :
    (∃ t, Drains dequeue s n t) ↔ (safe ∨ size s = 0) ∧ n = size s := by
  constructor
  · rintro ⟨t, drains⟩
    obtain ⟨may, turns, -⟩ := drainable.of_drains drains
    exact ⟨may, turns⟩
  · rintro ⟨may, rfl⟩
    obtain ⟨t, drains, -⟩ := drainable.drains may
    exact ⟨t, drains⟩

end Sys
