import Libcsp.Base.Machine

namespace Sys

universe u
variable {α : Type u}

inductive FifoOp (α : Type u)
  | push (x : α)
  | pop (x : α)

def FifoOp.pushed? : FifoOp α → Option α
  | .push x => some x
  | .pop _ => none

def FifoOp.popped? : FifoOp α → Option α
  | .push _ => none
  | .pop x => some x

/-- A first-in first-out store of at most `capacity` elements. Operations
that change nothing are not events of this machine. -/
def boundedFifo (α : Type u) (capacity : Nat) : Machine (List α) (FifoOp α) where
  init := []
  step
    | q, .push x, q' => q.length < capacity ∧ q' = q ++ [x]
    | q, .pop x, q' => q = x :: q'

theorem boundedFifo_conserves {capacity : Nat} {tr : List (FifoOp α)} {q : List α}
    (run : (boundedFifo α capacity).Run tr q) :
    tr.filterMap FifoOp.popped? ++ q = tr.filterMap FifoOp.pushed? := by
  refine run.history (P := fun tr q => tr.filterMap FifoOp.popped? ++ q = tr.filterMap FifoOp.pushed?) rfl ?_
  intro tr q op q' conserved taken
  cases op with
  | push x =>
    obtain ⟨_, rfl⟩ := taken
    simp only [List.filterMap_append, List.filterMap_cons, List.filterMap_nil, FifoOp.popped?,
      FifoOp.pushed?, List.append_nil, ← conserved, List.append_assoc]
  | pop x =>
    cases taken
    simpa only [List.filterMap_append, List.filterMap_cons, List.filterMap_nil, FifoOp.popped?,
      FifoOp.pushed?, List.append_nil, List.append_assoc, List.singleton_append] using conserved

theorem boundedFifo_length_le {capacity : Nat} {tr : List (FifoOp α)} {q : List α}
    (run : (boundedFifo α capacity).Run tr q) : q.length ≤ capacity := by
  refine run.invariant (P := fun q => q.length ≤ capacity) (Nat.zero_le _) ?_
  intro q op q' bound taken
  cases op with
  | push x =>
    obtain ⟨room, rfl⟩ := taken
    simpa using Nat.succ_le_of_lt room
  | pop x =>
    cases taken
    exact Nat.le_of_succ_le bound

/-- A system that refines the store keeps what it takes in until it hands it out, in order. -/
theorem Refines.conserves {σ : Type u} {ω : Type u} {C : Machine σ ω} {capacity : Nat} {rel : σ → List α → Prop}
    {obs : ω → Option (FifoOp α)} (sim : Refines C (boundedFifo α capacity) rel obs)
    (pushed popped : ω → Option α) (pushes : ∀ a, (obs a).bind FifoOp.pushed? = pushed a)
    (pops : ∀ a, (obs a).bind FifoOp.popped? = popped a) {tr : List ω} {s : σ} (run : C.Run tr s) :
    ∃ q, rel s q ∧ q.length ≤ capacity ∧ tr.filterMap popped ++ q = tr.filterMap pushed := by
  obtain ⟨q, above, related⟩ := sim.run run
  refine ⟨q, related, boundedFifo_length_le above, ?_⟩
  have conserved := boundedFifo_conserves above
  rw [List.filterMap_filterMap, List.filterMap_filterMap] at conserved
  rwa [funext pushes, funext pops] at conserved

end Sys
