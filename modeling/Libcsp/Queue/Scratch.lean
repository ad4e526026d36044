import Libcsp.Base.Drain
import Libcsp.Queue.Ring
import Libcsp.Queue.TestQueue

namespace Libcsp.Queue
open Sys

/-- The bytes that `csp_queue_empty` lets items be copied to. -/
def scratchSize : Nat := 16

def scratchFor {itemSize : Nat} (fits : itemSize ≤ scratchSize) : Buffer itemSize :=
  ⟨List.replicate scratchSize 0, by rwa [List.length_replicate]⟩

/-- `TestArch::queue_dequeue` without a wait, into the scratch. The item pointer is only used
when there is an item, and then for all of it. -/
def TestQueue.dequeueScratch (q : TestQueue) (data : List (List UInt8)) : Option (Bool × List (List UInt8)) :=
  if data.isEmpty then some (false, data)
  else if fits : q.itemSize ≤ scratchSize then
    match dequeuePass data (scratchFor fits) 0 none true with
    | .done (_, rest) => some (true, rest)
    | _ => some (false, data)
  else none

/-- `EmbassyArch::queue_dequeue`, into the scratch. -/
def Ring.dequeueScratch {capacity itemSize : Nat} (r : Ring capacity itemSize) : Option (Bool × Ring capacity itemSize) :=
  if r.count = 0 then some (false, r)
  else if fits : itemSize ≤ scratchSize then some ((r.dequeue (scratchFor fits)).1, (r.dequeue (scratchFor fits)).2.2)
  else none

/-- `MyCustomArch::queue_dequeue` of the example for other architectures. -/
def MyCustomArch.dequeueScratch (s : Unit) : Option (Bool × Unit) := some (true, s)

theorem TestQueue.drainable (q : TestQueue) : Drainable q.dequeueScratch List.length (q.itemSize ≤ scratchSize) where
  empty data nothing := by
    rw [dequeueScratch, List.length_eq_zero_iff.mp nothing]
    rfl
  takes fits data some := by
    cases data with
    | nil => exact absurd some (Nat.lt_irrefl 0)
    | cons queued rest =>
      refine ⟨rest, ?_, rfl⟩
      simp only [dequeueScratch, List.isEmpty_cons, Bool.false_eq_true, if_false, dif_pos fits]
      rfl
  overruns long data some := by
    cases data with
    | nil => exact absurd some (Nat.lt_irrefl 0)
    | cons queued rest => simp only [dequeueScratch, List.isEmpty_cons, Bool.false_eq_true, if_false, dif_neg long]

theorem Ring.drainable (capacity itemSize : Nat) :
    Drainable (@Ring.dequeueScratch capacity itemSize) Ring.count (itemSize ≤ scratchSize) where
  empty r nothing := by rw [dequeueScratch, if_pos nothing]
  takes fits r some := by
    rw [dequeueScratch, if_neg (by omega), dif_pos fits]
    obtain ⟨took, fewer⟩ | ⟨-, nothing⟩ := r.dequeue_cases (scratchFor fits)
    · exact ⟨_, by rw [took], fewer⟩
    · omega
  overruns long r some := by rw [dequeueScratch, if_neg (by omega), dif_neg long]

/-- `csp_queue_empty` comes back, having taken out every item, exactly from an empty queue or
one of items of at most 16 bytes. Over the stubs of the example it never does. -/
theorem queue_empty_exactly :
    (∀ (q : TestQueue) data n, ((∃ t, Drains q.dequeueScratch data n t) ↔
      (q.itemSize ≤ 16 ∨ data = []) ∧ n = data.length) ∧ ∀ t, Drains q.dequeueScratch data n t → t = []) ∧
    (∀ capacity itemSize (r : Ring capacity itemSize) n, ((∃ t, Drains Ring.dequeueScratch r n t) ↔
      (itemSize ≤ 16 ∨ r.count = 0) ∧ n = r.count) ∧ ∀ t, Drains Ring.dequeueScratch r n t → t.count = 0) ∧
    ∀ s n t, ¬ Drains MyCustomArch.dequeueScratch s n t := by
  refine ⟨?_, ?_, ?_⟩
  · intro q data n
    refine ⟨?_, ?_⟩
    · rw [q.drainable.exactly, List.length_eq_zero_iff]
      rfl
    · intro t drains
      exact List.length_eq_zero_iff.mp (q.drainable.of_drains drains).2.2
  · intro capacity itemSize r n
    refine ⟨(Ring.drainable capacity itemSize).exactly r n, ?_⟩
    intro t drains
    exact ((Ring.drainable capacity itemSize).of_drains drains).2.2
  · intro s n t
    exact Drains.never fun s => ⟨s, rfl⟩

theorem queue_empty_exactly_two_items : ∃ t, Drains (TestQueue.dequeueScratch ⟨2, 16⟩) [[7], [8]] 2 t :=
  (queue_empty_exactly.1 ⟨2, 16⟩ [[7], [8]] 2).1.mpr ⟨.inl (Nat.le_refl 16), rfl⟩

end Libcsp.Queue
