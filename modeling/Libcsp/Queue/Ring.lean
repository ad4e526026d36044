import Libcsp.Arch
import Libcsp.Base.Machine

namespace Libcsp.Queue
open Sys

/-- The cells of the embassy example's `Queue`, for a fixed capacity and item size. -/
structure Ring (capacity itemSize : Nat) where
  buffer : List UInt8
  head : Nat
  tail : Nat
  count : Nat

variable {capacity itemSize : Nat}

def Ring.new (buffer : List UInt8) : Ring capacity itemSize := ⟨buffer, 0, 0, 0⟩

/-- `Queue::enqueue`, one critical section. The timeout is not looked at. -/
def Ring.enqueue (r : Ring capacity itemSize) (item : Buffer itemSize) : Bool × Ring capacity itemSize :=
  if capacity ≤ r.count then (false, r)
  else
    (true,
      { r with
        tail := (r.tail + 1) % capacity
        buffer := overwrite r.buffer (r.tail * itemSize) item.item
        count := r.count + 1 })

def Ring.dequeue (r : Ring capacity itemSize) (item : Buffer itemSize) :
    Bool × Buffer itemSize × Ring capacity itemSize :=
  if r.count = 0 then (false, item, r)
  else
    (true, item.store ((r.buffer.drop (r.head * itemSize)).take itemSize) (List.length_take_le ..),
      { r with
        head := (r.head + 1) % capacity
        count := r.count - 1 })

def Ring.size (r : Ring capacity itemSize) : Nat := r.count

/-- `EmbassyArch::queue_create`, over the memory that `malloc` gives for the product. -/
def Ring.queueCreate (w : PointerWidth) (malloc : Nat → Option (List UInt8)) (itemSize length : Nat) :
    Option (Ring length itemSize) :=
  (malloc (length * itemSize % 2 ^ w.bits)).map Ring.new

/-- The loop of `csp_queue_empty`, with the number of items it takes out. -/
def Ring.drain (r : Ring capacity itemSize) (scratch : Buffer itemSize) : Nat × Ring capacity itemSize :=
  match equal : r.dequeue scratch with
  | (true, scratch, rest) =>
    let later := rest.drain scratch
    (later.1 + 1, later.2)
  | (false, _, rest) => (0, rest)
termination_by r.count
decreasing_by
  unfold Ring.dequeue at equal
  split at equal
  · exact nomatch equal
  · cases equal
    simp only
    omega

theorem Ring.enqueue_cases (r : Ring capacity itemSize) (item : Buffer itemSize) :
    (r.enqueue item).1 = true ∧ r.count < capacity ∧ (r.enqueue item).2.count = r.count + 1 ∨
    r.enqueue item = (false, r) ∧ capacity ≤ r.count := by
  unfold Ring.enqueue
  split
  · exact Or.inr ⟨rfl, by assumption⟩
  · exact Or.inl ⟨rfl, by omega, rfl⟩

theorem Ring.dequeue_cases (r : Ring capacity itemSize) (item : Buffer itemSize) :
    (r.dequeue item).1 = true ∧ (r.dequeue item).2.2.count + 1 = r.count ∨
    r.dequeue item = (false, item, r) ∧ r.count = 0 := by
  unfold Ring.dequeue
  split
  · exact Or.inr ⟨rfl, by assumption⟩
  · exact Or.inl ⟨rfl, by simp only; omega⟩

theorem Ring.drain_count (r : Ring capacity itemSize) (scratch : Buffer itemSize) :
    (r.drain scratch).1 = r.count ∧ (r.drain scratch).2.count = 0 := by
  fun_induction Ring.drain r scratch with
  | case1 r scratch scratch' rest equal later ih =>
    rcases r.dequeue_cases scratch with ⟨_, fewer⟩ | ⟨same, _⟩
    · rw [equal] at fewer
      refine ⟨?_, ih.2⟩
      calc later.1 + 1 = rest.count + 1 := by rw [ih.1]
        _ = r.count := fewer
    · exact nomatch equal.symm.trans same
  | case2 r scratch _ rest equal =>
    rcases r.dequeue_cases scratch with ⟨took, _⟩ | ⟨same, nothing⟩
    · rw [equal] at took
      exact nomatch took
    · cases equal.symm.trans same
      exact ⟨nothing.symm, nothing⟩

inductive Ring.Event
  | enqueued (code : Int)
  | dequeued (code : Int)
  | emptied (removed : Nat)

inductive Ring.Step : Ring capacity itemSize → Ring.Event → Ring capacity itemSize → Prop
  | enqueue {r} (item : Buffer itemSize) : Ring.Step r (.enqueued (shimCode (r.enqueue item).1)) (r.enqueue item).2
  | dequeue {r} (item : Buffer itemSize) : Ring.Step r (.dequeued (shimCode (r.dequeue item).1)) (r.dequeue item).2.2
  | empty {r} (scratch : Buffer itemSize) : scratch.bytes = List.replicate 16 0 →
      Ring.Step r (.emptied (r.drain scratch).1) (r.drain scratch).2

def Ring.machine (r : Ring capacity itemSize) : Machine (Ring capacity itemSize) Ring.Event where
  init := r
  step := Ring.Step

end Libcsp.Queue
