import Libcsp.Base.Transducer
import Libcsp.EmbassyArch.Malloc
import Libcsp.Queue.RingFifo

namespace Libcsp.EmbassyArch
open Sys

/-- `Queue`, with the address of its buffer. -/
structure Queue where
  buffer : Nat
  capacity : Nat
  itemSize : Nat
  head : Nat
  tail : Nat
  count : Nat

def Queue.new (buffer capacity itemSize : Nat) : Queue := ⟨buffer, capacity, itemSize, 0, 0, 0⟩

/-- `Queue::enqueue`: one critical section. A copy to unmapped memory does not come back, nor
does a remainder by zero. -/
def Queue.enqueue (w : PointerWidth) (mem : Memory) (q : Queue) (item : List UInt8) : Option (Bool × Queue × Memory) :=
  if q.capacity ≤ q.count then some (false, q, mem)
  else do
    let tailPos := q.tail
    let tail ← rem? ((tailPos + 1) % 2 ^ w.bits) q.capacity
    let dest := q.buffer + tailPos * q.itemSize % 2 ^ w.bits
    let mem ← mem.storeAll dest (item.take q.itemSize)
    some (true, { q with tail, count := (q.count + 1) % 2 ^ w.bits }, mem)

def Queue.dequeue (w : PointerWidth) (mem : Memory) (q : Queue) (item : List UInt8) : Option (Bool × List UInt8 × Queue) :=
  if q.count = 0 then some (false, item, q)
  else do
    let headPos := q.head
    let head ← rem? ((headPos + 1) % 2 ^ w.bits) q.capacity
    let src := q.buffer + headPos * q.itemSize % 2 ^ w.bits
    let bytes ← mem.load src q.itemSize
    some (true, overwrite item 0 bytes, { q with head, count := q.count - 1 })

def Queue.size (q : Queue) : Nat := q.count

inductive Queue.Op
  | enqueue (item : List UInt8)
  | dequeue (item : List UInt8)
  | size

/-- What a call gives back; `dequeue` also leaves the caller's memory behind. -/
inductive Queue.Answer
  | enqueued (ok : Bool)
  | dequeued (ok : Bool) (item : List UInt8)
  | sized (count : Nat)

def Queue.perform (w : PointerWidth) (s : Queue × Memory) : Queue.Op → Option (Queue.Answer × Queue × Memory)
  | .enqueue item => (s.1.enqueue w s.2 item).map fun ret => (.enqueued ret.1, ret.2)
  | .dequeue item => (s.1.dequeue w s.2 item).map fun ret => (.dequeued ret.1 ret.2.1, ret.2.2, s.2)
  | .size => some (.sized s.1.size, s)

/-- The caller's memory is long enough for an item. -/
def Queue.Op.Supplies (itemSize : Nat) : Queue.Op → Prop
  | .enqueue item | .dequeue item => itemSize ≤ item.length
  | .size => True

def Queue.Answer.Refuses : Queue.Answer → Prop
  | .enqueued ok | .dequeued ok _ => ok = false
  | .sized _ => False

namespace Queues

/-- The queue that is meant. -/
structure Fifo where
  capacity : Nat
  itemSize : Nat
  items : List (List UInt8)

def Fifo.enqueue (f : Fifo) (item : List UInt8) : Bool × Fifo :=
  if f.items.length = f.capacity then (false, f) else (true, { f with items := f.items ++ [item.take f.itemSize] })

def Fifo.dequeue (f : Fifo) (item : List UInt8) : Bool × List UInt8 × Fifo :=
  match f with
  | ⟨_, _, []⟩ => (false, item, f)
  | ⟨capacity, itemSize, first :: rest⟩ => (true, overwrite item 0 first, ⟨capacity, itemSize, rest⟩)

def Fifo.perform (f : Fifo) : Queue.Op → Queue.Answer × Fifo
  | .enqueue item => (.enqueued (f.enqueue item).1, (f.enqueue item).2)
  | .dequeue item => (.dequeued (f.dequeue item).1 (f.dequeue item).2.1, (f.dequeue item).2.2)
  | .size => (.sized f.items.length, f)

/-- The ring of a queue in memory holds the items of the queue that is meant. -/
structure Stored (w : PointerWidth) (mem : Memory) (q : Queue) (f : Fifo) : Prop where
  capacity : f.capacity = q.capacity
  itemSize : f.itemSize = q.itemSize
  small : q.capacity < 2 ^ w.bits ∧ q.capacity * q.itemSize < 2 ^ w.bits
  ring : ∃ bytes items, bytes.length = q.capacity * q.itemSize ∧ mem.Holds q.buffer bytes ∧
    (⟨bytes, q.head, q.tail, q.count⟩ : Libcsp.Queue.Ring q.capacity q.itemSize).Holds items ∧
    f.items = items.map Subtype.val

variable {w : PointerWidth} {mem : Memory} {q : Queue} {f : Fifo} {item : List UInt8}

theorem Stored.congr {mem' : Memory} (stored : Stored w mem q f)
    (same : ∀ x ∈ Set.Ico q.buffer (q.buffer + q.capacity * q.itemSize), mem' x = mem x) : Stored w mem' q f := by
  obtain ⟨bytes, items, length, held, ring, meant⟩ := stored.ring
  refine ⟨stored.capacity, stored.itemSize, stored.small, bytes, items, length, held.congr ?_, ring, meant⟩
  intro x inside
  rw [length] at inside
  exact same x inside

/-- The offset of a slot is what the wrapping product computes. -/
theorem slot_offset {capacity itemSize k : Nat} (small : capacity * itemSize < 2 ^ w.bits) (inside : k < capacity) :
    k * itemSize % 2 ^ w.bits = k * itemSize ∧ k * itemSize + itemSize ≤ capacity * itemSize := by
  have room : (k + 1) * itemSize ≤ capacity * itemSize := Nat.mul_le_mul_right itemSize inside
  rw [Nat.succ_mul] at room
  exact ⟨Nat.mod_eq_of_lt (by omega), room⟩

/-- A queue with room stores the item in its next slot, which is free. -/
theorem Stored.put (stored : Stored w mem q f) (enough : q.itemSize ≤ item.length) (room : q.count < q.capacity) :
    ∃ tail mem' offset, q.enqueue w mem item = some (true, { q with tail, count := q.count + 1 }, mem') ∧
      Stored w mem' { q with tail, count := q.count + 1 } { f with items := f.items ++ [item.take f.itemSize] } ∧
      offset + (item.take q.itemSize).length ≤ q.capacity * q.itemSize ∧
      mem.storeAll (q.buffer + offset) (item.take q.itemSize) = some mem' := by
  obtain ⟨capacity, itemSize, ⟨small, product⟩, bytes, items, length, held, ring, meant⟩ := stored
  have positive : 0 < q.capacity := by omega
  have tail : q.tail = (q.head + q.count) % q.capacity := ring.tail positive
  have inside : q.tail < q.capacity := by
    rw [tail]
    exact Nat.mod_lt _ positive
  obtain ⟨offset, within⟩ := @slot_offset w _ _ _ product inside
  have size : (item.take q.itemSize).length = q.itemSize := by rw [List.length_take, Nat.min_eq_left enough]
  have fits : q.tail * q.itemSize + (item.take q.itemSize).length ≤ bytes.length := by rw [size, length]; exact within
  have mapped : mem.Mapped (q.buffer + q.tail * q.itemSize) (item.take q.itemSize).length := by
    rintro x ⟨low, high⟩
    exact held.mapped x ⟨by omega, by omega⟩
  have stores := Memory.storeAll_eq mapped
  have turned : (q.tail + 1) % 2 ^ w.bits = q.tail + 1 := Nat.mod_eq_of_lt (by omega)
  have counted : (q.count + 1) % 2 ^ w.bits = q.count + 1 := Nat.mod_eq_of_lt (by omega)
  refine ⟨(q.tail + 1) % q.capacity, _, q.tail * q.itemSize, ?_, ?_, by omega, stores⟩
  · rw [Queue.enqueue, if_neg (by omega)]
    simp only [rem?_eq positive, offset, stores, turned, counted, Option.bind_eq_bind, Option.bind_some]
  · have count : q.count = items.length := ring.count
    have after := ring.enqueue ⟨item, enough⟩ (by omega)
    refine ⟨capacity, itemSize, ⟨small, product⟩, _, items ++ [Libcsp.Queue.Buffer.content ⟨item, enough⟩], ?_,
      held.overwrite fits, after, ?_⟩
    · rw [overwrite_length fits, length]
    · simp only [meant, itemSize, List.map_append, List.map_cons, List.map_nil]
      rfl

theorem Stored.enqueue (stored : Stored w mem q f) (enough : q.itemSize ≤ item.length) :
    ∃ q' mem' offset bytes, q.enqueue w mem item = some ((f.enqueue item).1, q', mem') ∧
      Stored w mem' q' (f.enqueue item).2 ∧
      q'.buffer = q.buffer ∧ q'.capacity = q.capacity ∧ q'.itemSize = q.itemSize ∧
      offset + bytes.length ≤ q.capacity * q.itemSize ∧ mem.storeAll (q.buffer + offset) bytes = some mem' := by
  obtain ⟨_, items, -, -, ring, meant⟩ := stored.ring
  have count : q.count = items.length := ring.count
  have number : f.items.length = items.length := by rw [meant, List.length_map]
  have bounded := ring.bounded
  have capacity := stored.capacity
  unfold Fifo.enqueue
  by_cases full : q.capacity ≤ q.count
  · rw [if_pos (by omega), Queue.enqueue, if_pos full]
    exact ⟨q, mem, 0, [], rfl, stored, rfl, rfl, rfl, by simp, by simp [Memory.storeAll]⟩
  · obtain ⟨tail, mem', offset, returns, after, inside, stores⟩ := stored.put enough (by omega)
    rw [if_neg (by omega)]
    exact ⟨_, mem', offset, _, returns, after, rfl, rfl, rfl, inside, stores⟩

theorem Stored.dequeue (stored : Stored w mem q f) :
    ∃ q', q.dequeue w mem item = some ((f.dequeue item).1, (f.dequeue item).2.1, q') ∧
      Stored w mem q' (f.dequeue item).2.2 ∧
      q'.buffer = q.buffer ∧ q'.capacity = q.capacity ∧ q'.itemSize = q.itemSize := by
  obtain ⟨capacity, itemSize, ⟨small, product⟩, bytes, items, length, held, ring, meant⟩ := stored
  obtain ⟨c, i, queued⟩ := f
  subst capacity itemSize meant
  have count : q.count = items.length := ring.count
  have bounded := ring.bounded
  unfold Queue.dequeue Fifo.dequeue
  cases items with
  | nil =>
    have nothing : q.count = 0 := count
    rw [if_pos nothing]
    exact ⟨q, rfl, ⟨rfl, rfl, ⟨small, product⟩, bytes, [], length, held, ring, rfl⟩, rfl, rfl, rfl⟩
  | cons first rest =>
    rw [List.length_cons] at count bounded
    have positive : 0 < q.capacity := by omega
    have head : q.head < q.capacity := ring.head positive
    obtain ⟨offset, room⟩ := @slot_offset w _ _ _ product head
    obtain ⟨front, after⟩ := ring.dequeue
    have loaded : mem.load (q.buffer + q.head * q.itemSize) q.itemSize = some first.1 := by
      rw [held.load_part (by omega)]
      exact congrArg some front
    rw [if_neg (by omega)]
    simp only [rem?_eq positive, offset, loaded, Option.bind_eq_bind, Option.bind_some, List.map_cons]
    refine ⟨_, rfl, ?_, rfl, rfl, rfl⟩
    have turned : (q.head + 1) % 2 ^ w.bits % q.capacity = (q.head + 1) % q.capacity := by
      rw [Nat.mod_eq_of_lt (show q.head + 1 < 2 ^ w.bits by omega)]
    refine ⟨rfl, rfl, ⟨small, product⟩, bytes, rest, length, held, ?_, rfl⟩
    simp only [turned]
    exact after

/-- A queue over a buffer of its own. -/
theorem Stored.new {buffer capacity itemSize : Nat} (small : capacity < 2 ^ w.bits)
    (product : capacity * itemSize < 2 ^ w.bits) (mapped : mem.Mapped buffer (capacity * itemSize)) :
    Stored w mem (.new buffer capacity itemSize) ⟨capacity, itemSize, []⟩ := by
  obtain ⟨bytes, size, holds⟩ := mapped.holds
  exact ⟨rfl, rfl, ⟨small, product⟩, bytes, [], size, holds, Libcsp.Queue.Ring.holds_new (Nat.le_of_eq size.symm), rfl⟩

theorem Queue.enqueue_cases {q' : Queue} {mem' : Memory} {ok : Bool} (returns : q.enqueue w mem item = some (ok, q', mem')) :
    ok = false ∧ q' = q ∧ mem' = mem ∨ ok = true ∧ q'.buffer = q.buffer := by
  unfold Queue.enqueue at returns
  split at returns
  · cases returns
    exact .inl ⟨rfl, rfl, rfl⟩
  · simp only [Option.bind_eq_bind, Option.bind_eq_some_iff] at returns
    obtain ⟨_, -, _, -, same⟩ := returns
    cases same
    exact .inr ⟨rfl, rfl⟩

theorem Queue.dequeue_cases {q' : Queue} {got : List UInt8} {ok : Bool}
    (returns : q.dequeue w mem item = some (ok, got, q')) :
    ok = false ∧ got = item ∧ q' = q ∨ ok = true ∧ q'.buffer = q.buffer := by
  unfold Queue.dequeue at returns
  split at returns
  · cases returns
    exact .inl ⟨rfl, rfl, rfl⟩
  · simp only [Option.bind_eq_bind, Option.bind_eq_some_iff] at returns
    obtain ⟨_, -, _, -, same⟩ := returns
    cases same
    exact .inr ⟨rfl, rfl⟩

theorem Queue.perform_refuses {s s' : Queue × Memory} {op : Queue.Op} {answer : Queue.Answer}
    (returns : Queue.perform w s op = some (answer, s')) (refuses : answer.Refuses) : s' = s := by
  cases op with
  | enqueue item =>
    obtain ⟨⟨ok, q', mem'⟩, enqueued, same⟩ := Option.map_eq_some_iff.mp returns
    cases same
    obtain ⟨-, rfl, rfl⟩ | ⟨rfl, -⟩ := Queue.enqueue_cases enqueued
    · rfl
    · exact nomatch refuses
  | dequeue item =>
    obtain ⟨⟨ok, got, q'⟩, dequeued, same⟩ := Option.map_eq_some_iff.mp returns
    cases same
    obtain ⟨-, -, rfl⟩ | ⟨rfl, -⟩ := Queue.dequeue_cases dequeued
    · rfl
    · exact nomatch refuses
  | size =>
    cases returns
    rfl

/-- A queue at work in its buffer, which is all it has changed of the memory. -/
structure Within (w : PointerWidth) (start : Queue) (before : Memory) (s : Queue × Memory) (f : Fifo) : Prop where
  stored : Stored w s.2 s.1 f
  shape : s.1.buffer = start.buffer ∧ s.1.capacity = start.capacity ∧ s.1.itemSize = start.itemSize
  frame : ∀ a ∉ Set.Ico start.buffer (start.buffer + start.capacity * start.itemSize), s.2 a = before a

/-- One call in memory is answered as by the list. -/
theorem Within.perform {start : Queue} {before : Memory} {s : Queue × Memory} (within : Within w start before s f)
    {op : Queue.Op} (supplied : op.Supplies start.itemSize) :
    ∃ s', Queue.perform w s op = some ((f.perform op).1, s') ∧ Within w start before s' (f.perform op).2 := by
  obtain ⟨stored, ⟨buffer, capacity, itemSize⟩, frame⟩ := within
  cases op with
  | enqueue item =>
    have enough : s.1.itemSize ≤ item.length := by rw [itemSize]; exact supplied
    obtain ⟨q', mem', offset, bytes, returns, after, buffer', capacity', itemSize', inside, stores⟩ := stored.enqueue enough
    refine ⟨(q', mem'), ?_, after, ⟨buffer'.trans buffer, capacity'.trans capacity, itemSize'.trans itemSize⟩, ?_⟩
    · simp only [Queue.perform, returns, Option.map_some, Fifo.perform]
    · intro a outside
      rw [← frame a outside]
      refine Memory.storeAll_of_notMem stores ?_
      rw [buffer]
      rw [capacity, itemSize] at inside
      rintro ⟨low, high⟩
      exact outside ⟨by omega, by omega⟩
  | dequeue item =>
    obtain ⟨q', returns, after, buffer', capacity', itemSize'⟩ := @Stored.dequeue _ _ _ _ item stored
    refine ⟨(q', s.2), ?_, after, ⟨buffer'.trans buffer, capacity'.trans capacity, itemSize'.trans itemSize⟩, frame⟩
    simp only [Queue.perform, returns, Option.map_some, Fifo.perform]
  | size =>
    obtain ⟨bytes, items, -, -, ring, meant⟩ := stored.ring
    have count : s.1.count = items.length := ring.count
    refine ⟨s, ?_, stored, ⟨buffer, capacity, itemSize⟩, frame⟩
    simp only [Queue.perform, Queue.size, Fifo.perform, meant, List.length_map, count]

/-- Any sequence of calls on a fresh queue comes back, answered as by a list of at most
`capacity` items, and a refused call changes nothing. What is mapped outside of the buffer
does not matter, and is left as it is. -/
theorem ring_refines_fifo {buffer capacity itemSize : Nat} (small : capacity < 2 ^ w.bits)
    (product : capacity * itemSize < 2 ^ w.bits) (mapped : mem.Mapped buffer (capacity * itemSize))
    {ops : List Queue.Op} (supplied : ∀ op ∈ ops, op.Supplies itemSize) :
    (∃ q mem', runAll? (Queue.perform w) (.new buffer capacity itemSize, mem) ops =
        some ((runAll Fifo.perform ⟨capacity, itemSize, []⟩ ops).1, q, mem') ∧
      ∀ a ∉ Set.Ico buffer (buffer + capacity * itemSize), mem' a = mem a) ∧
    ∀ s op answer s', Queue.perform w s op = some (answer, s') → answer.Refuses → s' = s := by
  have fresh : Within w (.new buffer capacity itemSize) mem (.new buffer capacity itemSize, mem) ⟨capacity, itemSize, []⟩ :=
    ⟨.new small product mapped, ⟨rfl, rfl, rfl⟩, fun _ _ => rfl⟩
  obtain ⟨⟨q, mem'⟩, answers, within⟩ := @runAll?_agree _ _ _ _ (Queue.perform w) Fifo.perform
    (Within w (.new buffer capacity itemSize) mem) (Queue.Op.Supplies itemSize)
    (fun _ allowed within => within.perform allowed) _ _ fresh ops supplied
  exact ⟨⟨q, mem', answers, within.frame⟩, fun _ _ _ _ returns refuses => Queue.perform_refuses returns refuses⟩

def twoBytes : Memory := fun a => if 64 ≤ a ∧ a < 66 then some 0 else none

/-- Three items through two slots of one byte, with no other byte mapped: the third is written
where the first was. -/
theorem ring_refines_fifo_wraps : ∃ q mem',
    runAll? (Queue.perform .w32) (.new 64 2 1, twoBytes)
      [.enqueue [7], .enqueue [8], .enqueue [9], .dequeue [0], .enqueue [9], .dequeue [0], .dequeue [0], .dequeue [0], .size] =
    some ([.enqueued true, .enqueued true, .enqueued false, .dequeued true [7], .enqueued true, .dequeued true [8],
      .dequeued true [9], .dequeued false [0], .sized 0], q, mem') := by
  have mapped : twoBytes.Mapped 64 (2 * 1) := by
    rintro a ⟨low, high⟩
    rw [twoBytes, if_pos ⟨low, high⟩]
    rfl
  obtain ⟨⟨q, mem', answers, -⟩, -⟩ := @ring_refines_fifo .w32 twoBytes 64 2 1 (by decide) (by decide) mapped
    [.enqueue [7], .enqueue [8], .enqueue [9], .dequeue [0], .enqueue [9], .dequeue [0], .dequeue [0], .dequeue [0], .size]
    (by simp [Queue.Op.Supplies])
  exact ⟨q, mem', answers⟩

end Queues

end Libcsp.EmbassyArch
