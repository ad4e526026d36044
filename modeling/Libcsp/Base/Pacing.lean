import Libcsp.Base.Machine

namespace Sys

/-- What a paced loop does to the time its next round is due. -/
inductive PaceOp
  | round (start : Nat)
  | charge (cost : Nat)

/-- A loop that begins no round before it is due. A round puts off the next one by `period` and
may take more on its account. A loop that is behind catches up, on no more than `slack`. -/
def pacer (period slack due : Nat) : Machine Nat PaceOp where
  init := due
  step
    | due, .round start, due' => due ≤ start ∧ due + period ≤ due' ∧ start ≤ due' + slack
    | due, .charge cost, due' => due' = due + cost

def PaceOp.cost (period : Nat) : PaceOp → Nat
  | .round _ => period
  | .charge cost => cost

def paceCost (period : Nat) : List PaceOp → Nat
  | [] => 0
  | op :: ops => op.cost period + paceCost period ops

variable {period slack due due' : Nat} {ops : List PaceOp}

theorem paceCost_append (ops more : List PaceOp) :
    paceCost period (ops ++ more) = paceCost period ops + paceCost period more := by
  induction ops with
  | nil => exact (Nat.zero_add _).symm
  | cons op ops ih => rw [List.cons_append, paceCost, paceCost, ih, Nat.add_assoc]

@[simp] theorem paceCost_singleton (op : PaceOp) : paceCost period [op] = op.cost period := rfl

/-- The next round is put off by what has been done. -/
theorem pacer_due (run : (pacer period slack due).Run ops due') : due + paceCost period ops ≤ due' := by
  induction run with
  | start => exact Nat.le_refl due
  | @next ops middle op after _ taken ih =>
    rw [paceCost_append, paceCost_singleton]
    cases op with
    | round start =>
      obtain ⟨_, puts, _⟩ := taken
      simp only [PaceOp.cost]
      omega
    | charge cost =>
      have puts : after = middle + cost := taken
      simp only [PaceOp.cost]
      omega

/-- Between the starts of two rounds there is time for what is done between them, but for the
slack. -/
theorem pacer_window {before between after : List PaceOp} {first last : Nat}
    (run : (pacer period slack due).Run (before ++ .round first :: (between ++ .round last :: after)) due') :
    first + paceCost period between ≤ last + slack := by
  obtain ⟨_, afterFirst, _, begins, rest⟩ := run.around
  obtain ⟨beforeLast, _, working, ends, _⟩ := rest.around
  obtain ⟨_, _, behind⟩ := begins
  obtain ⟨waits, _, _⟩ := ends
  calc first + paceCost period between
      ≤ afterFirst + paceCost period between + slack := by omega
    _ ≤ beforeLast + slack := Nat.add_le_add_right (pacer_due working) slack
    _ ≤ last + slack := Nat.add_le_add_right waits slack

end Sys
