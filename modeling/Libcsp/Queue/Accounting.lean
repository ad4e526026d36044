import Libcsp.Queue.Linearizable
import Libcsp.Queue.Ring

namespace Libcsp.Queue
open Sys

variable {τ : Type} [DecidableEq τ] {capacity itemSize : Nat}

def testArch (w : PointerWidth) (τ : Type) (itemSize : Nat) : CspArchQueue w (State τ itemSize) where
  queueSize s := s.data.length

def embassyArch (w : PointerWidth) (capacity itemSize : Nat) : CspArchQueue w (Ring capacity itemSize) where
  queueSize := Ring.size

/-- What the two counters of a queue of length `length` tell after `inserted` items
went in and `removed` came out. -/
structure Accounted (size free length inserted removed : Int) : Prop where
  queued : size + removed = inserted
  nonneg : 0 ≤ size
  bounded : size ≤ length
  unlimited : free = i32Max
  sum : size + free = length ↔ length = i32Max ∧ size = 0

theorem cspQueueFree_default {w : PointerWidth} {κ : Type} {arch : CspArchQueue w κ} {queue : κ}
    (default : arch.queueFreeSlots queue = w.usizeMax) : cspQueueFree arch queue = i32Max := by
  have large : i32Max < w.usizeMax := by
    cases w <;> decide
  rw [cspQueueFree, default, if_pos large]

theorem Accounted.of_count {w : PointerWidth} {κ : Type} {arch : CspArchQueue w κ} {queue : κ} {length : Int}
    {inserted removed : Nat} (default : arch.queueFreeSlots queue = w.usizeMax) (small : length ≤ i32Max)
    (bounded : (arch.queueSize queue : Int) ≤ length) (queued : arch.queueSize queue + removed = inserted) :
    Accounted (cspQueueSize arch queue) (cspQueueFree arch queue) length inserted removed := by
  have size : cspQueueSize arch queue = arch.queueSize queue := asI32_of_le (by omega)
  have free := cspQueueFree_default default
  refine ⟨by omega, by omega, by omega, free, ?_⟩
  rw [free]
  omega

def Ring.Event.inserted : Ring.Event → Nat
  | .enqueued code => if code = 0 then 1 else 0
  | _ => 0

def Ring.Event.removed : Ring.Event → Nat
  | .dequeued code => if code = 0 then 1 else 0
  | .emptied removed => removed
  | _ => 0

theorem Ring.Step.count {r r' : Ring capacity itemSize} {event : Ring.Event} (taken : Ring.Step r event r')
    (bound : r.count ≤ capacity) : r'.count ≤ capacity ∧ r'.count + event.removed = r.count + event.inserted := by
  cases taken with
  | enqueue item =>
    rcases r.enqueue_cases item with ⟨ok, room, more⟩ | ⟨same, _⟩
    · rw [ok, more]
      exact ⟨room, rfl⟩
    · rw [same]
      exact ⟨bound, rfl⟩
  | dequeue item =>
    rcases r.dequeue_cases item with ⟨ok, fewer⟩ | ⟨same, _⟩
    · rw [ok]
      exact ⟨by omega, fewer⟩
    · rw [same]
      exact ⟨bound, rfl⟩
  | empty scratch _ =>
    obtain ⟨removed, nothing⟩ := r.drain_count scratch
    rw [nothing, removed]
    exact ⟨Nat.zero_le _, Nat.zero_add _⟩

theorem Ring.run_count {buffer : List UInt8} {tr : List Ring.Event} {r : Ring capacity itemSize}
    (run : (Ring.machine (Ring.new buffer)).Run tr r) :
    r.count ≤ capacity ∧ r.count + (tr.map Ring.Event.removed).sum = (tr.map Ring.Event.inserted).sum := by
  induction run with
  | start => exact ⟨Nat.zero_le _, rfl⟩
  | @next tr r event r' _ taken ih =>
    obtain ⟨bound, moved⟩ := Ring.Step.count taken ih.1
    refine ⟨bound, ?_⟩
    simp only [List.map_append, List.map_cons, List.map_nil, List.sum_append, List.sum_cons, List.sum_nil]
    omega

/-- In every reachable state of either backend `csp_queue_size` is the number of queued
items, and `csp_queue_free` is the trait's default whatever is queued. -/
theorem queue_accounting (w : PointerWidth) (τ : Type) [DecidableEq τ] {length : Int} (small : length ≤ i32Max)
    (itemSize : Nat) :
    (∀ q, cspQueueCreateStatic (queueCreate itemSize) length = some q →
      ∀ tr (s : State τ q.itemSize), (machine τ q).Run tr s →
        Accounted (cspQueueSize (testArch w τ q.itemSize) s) (cspQueueFree (testArch w τ q.itemSize) s) length
          (tr.filterMap (·.2.pushed?)).length (tr.filterMap (·.2.popped?)).length) ∧
    ∀ malloc r₀, cspQueueCreateStatic (Ring.queueCreate w malloc itemSize) length = some r₀ →
      ∀ tr r, (Ring.machine r₀).Run tr r →
        Accounted (cspQueueSize (embassyArch w length.toNat itemSize) r)
          (cspQueueFree (embassyArch w length.toNat itemSize) r) length
          (tr.map Ring.Event.inserted).sum (tr.map Ring.Event.removed).sum := by
  constructor
  · intro q created tr s run
    obtain ⟨positive, made⟩ := cspQueueCreateStatic_some created
    have maxLen : q.maxLen = length.toNat := by
      cases made
      rfl
    obtain ⟨bounded, conserved⟩ := contents run
    have lengths := congrArg List.length conserved
    rw [List.length_append] at lengths
    refine .of_count rfl small ?_ ?_
    · simp only [testArch]
      omega
    · simp only [testArch]
      omega
  · intro malloc r₀ created tr r run
    obtain ⟨positive, made⟩ := cspQueueCreateStatic_some created
    obtain ⟨buffer, _, rfl⟩ := Option.map_eq_some_iff.mp made
    obtain ⟨bounded, conserved⟩ := Ring.run_count run
    refine .of_count rfl small ?_ conserved
    simp only [embassyArch, Ring.size]
    omega

/-- The item of the first enqueue finds the one slot, that of the second does not, and that of
the third goes with `csp_queue_empty`. -/
def ringCalls : List Ring.Event := [.enqueued 0, .enqueued (-1), .dequeued 0, .enqueued 0, .emptied 1]

theorem ringCalls_run : ∃ r : Ring 1 1, (Ring.machine (Ring.new [0])).Run ringCalls r ∧ r.count = 0 := by
  have filled : (Ring.machine (Ring.new [0] : Ring 1 1)).Run [.enqueued 0] ⟨[7], 0, 0, 1⟩ :=
    Machine.Run.start.next (Ring.Step.enqueue (byte 7))
  have refused : (Ring.machine (Ring.new [0] : Ring 1 1)).Run [.enqueued 0, .enqueued (-1)] ⟨[7], 0, 0, 1⟩ :=
    filled.next (Ring.Step.enqueue (byte 8))
  have taken : (Ring.machine (Ring.new [0] : Ring 1 1)).Run [.enqueued 0, .enqueued (-1), .dequeued 0] ⟨[7], 0, 0, 0⟩ :=
    refused.next (Ring.Step.dequeue (byte 0))
  have refilled : (Ring.machine (Ring.new [0] : Ring 1 1)).Run (ringCalls.take 4) ⟨[8], 0, 0, 1⟩ :=
    taken.next (Ring.Step.enqueue (byte 8))
  have emptied := refilled.next (Ring.Step.empty ⟨List.replicate 16 0, by decide⟩ rfl)
  obtain ⟨removed, nothing⟩ := Ring.drain_count (⟨[8], 0, 0, 1⟩ : Ring 1 1) ⟨List.replicate 16 0, by decide⟩
  rw [removed] at emptied
  exact ⟨_, emptied, nothing⟩

/-- Two of three enqueues succeed, a dequeue and `csp_queue_empty` take the items out. -/
theorem queue_accounting_one_slot :
    (∃ s, (machine Bool ⟨1, 1⟩).Run callsInTurn s ∧
      Accounted (cspQueueSize (testArch .w64 Bool 1) s) (cspQueueFree (testArch .w64 Bool 1) s) 1 2 2) ∧
    ∃ r : Ring 1 1, (Ring.machine (Ring.new [0])).Run ringCalls r ∧
      Accounted (cspQueueSize (embassyArch .w32 1 1) r) (cspQueueFree (embassyArch .w32 1 1) r) 1 2 2 := by
  have small : (1 : Int) ≤ i32Max := by decide
  constructor
  · obtain ⟨s, run, -⟩ := callsInTurn_run
    exact ⟨s, run, (queue_accounting .w64 Bool small 1).1 ⟨1, 1⟩ rfl _ _ run⟩
  · obtain ⟨r, run, -⟩ := ringCalls_run
    exact ⟨r, run, (queue_accounting .w32 Bool small 1).2 (fun _ => some [0]) _ rfl _ _ run⟩

/-- An empty queue of two slots on either backend: no item, and more than two free slots. -/
theorem free_slots_not_complementary :
    ¬ (∀ q, cspQueueCreateStatic (queueCreate 8) 2 = some q →
      ∀ tr (s : State (Fin 2) q.itemSize), (machine (Fin 2) q).Run tr s →
        cspQueueSize (testArch .w64 (Fin 2) q.itemSize) s + cspQueueFree (testArch .w64 (Fin 2) q.itemSize) s = 2) ∧
    ¬ (∀ r₀, cspQueueCreateStatic (Ring.queueCreate .w32 (fun _ => some (List.replicate 16 0)) 8) 2 = some r₀ →
      ∀ tr r, (Ring.machine r₀).Run tr r →
        cspQueueSize (embassyArch .w32 2 8) r + cspQueueFree (embassyArch .w32 2 8) r = 2) := by
  constructor
  · intro complementary
    exact absurd (complementary ⟨2, 8⟩ rfl [] ⟨[], fun _ => .idle⟩ .start) (by decide)
  · intro complementary
    exact absurd (complementary _ rfl [] _ .start) (by decide)

end Libcsp.Queue
