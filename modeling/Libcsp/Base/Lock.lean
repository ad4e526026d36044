import Libcsp.Base.Machine

namespace Sys

universe u v
variable {τ : Type u}

inductive LockOp (τ : Type u)
  | acquire (t : τ)
  | release (t : τ)

/-- A lock is the identity of its holder. It is taken only when free and
given back only by the holder, so two holders cannot be written down. -/
def exclusiveLock (τ : Type u) : Machine (Option τ) (LockOp τ) where
  init := none
  step
    | held, .acquire t, held' => held = none ∧ held' = some t
    | held, .release t, held' => held = some t ∧ held' = none

def Exclusive {σ : Type u} {α : Type v} (M : Machine σ α) (inside : σ → τ → Prop) : Prop :=
  ∀ tr s, M.Run tr s → ∀ t₁ t₂, inside s t₁ → inside s t₂ → t₁ = t₂

/-- A system that refines the lock, with everyone inside holding it, is
exclusive. -/
theorem Refines.exclusive {σ : Type u} {α : Type u} {M : Machine σ α} {rel : σ → Option τ → Prop}
    {obs : α → Option (LockOp τ)} {inside : σ → τ → Prop}
    (sim : Refines M (exclusiveLock τ) rel obs)
    (holds : ∀ {s held t}, rel s held → inside s t → held = some t) : Exclusive M inside := by
  intro tr s run t₁ t₂ first second
  obtain ⟨held, _, related⟩ := sim.run run
  exact Option.some.inj ((holds related first).symm.trans (holds related second))

end Sys
