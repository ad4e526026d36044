import Libcsp.EmbassyArch.Queue

namespace Libcsp.EmbassyArch
open Sys

namespace Queues

/-- What is behind a handle. `queue_remove` first takes the box back, then frees the buffer
and at last the box. -/
inductive Slot
  | live (queue : Queue)
  | freeing (buffer : Nat)
  | freed

def Slot.buffer? : Slot → Option Nat
  | .live queue => some queue.buffer
  | .freeing buffer => some buffer
  | .freed => none

/-- The heap, the buffers whose queue is not in its box yet, with the arguments of their
`queue_create`, and the boxes of queues. -/
structure State where
  arch : EmbassyArch.State
  pending : Nat → Option (Nat × Nat)
  slots : Nat → Option Slot

def State.store (s : State) (mem : Memory) : EmbassyArch.State := { s.arch with heap := { s.arch.heap with mem } }

/-- The queue methods of `EmbassyArch`. A handle that is none does not come back. -/
def queueEnqueue (w : PointerWidth) (s : State) (queue : Option Nat) (item : Option (List UInt8)) : Option (Bool × State) :=
  match queue, item with
  | some p, some item =>
    match s.slots p with
    | some (.live q) => do
      let (ok, q, mem) ← q.enqueue w s.arch.heap.mem item
      some (ok, { s with arch := s.store mem, slots := Function.update s.slots p (some (.live q)) })
    | _ => none
  | _, _ => some (false, s)

def queueDequeue (w : PointerWidth) (s : State) (queue : Option Nat) (item : Option (List UInt8)) :
    Option (Bool × Option (List UInt8) × State) :=
  match queue, item with
  | some p, some item =>
    match s.slots p with
    | some (.live q) => do
      let (ok, item, q) ← q.dequeue w s.arch.heap.mem item
      some (ok, some item, { s with slots := Function.update s.slots p (some (.live q)) })
    | _ => none
  | _, _ => some (false, item, s)

def queueSize (s : State) (queue : Option Nat) : Option Nat :=
  match queue with
  | some p =>
    match s.slots p with
    | some (.live q) => some q.size
    | _ => none
  | none => some 0

/-- A call that comes back with an answer of its queue changes no more than that queue and the memory. -/
theorem queueEnqueue_cases {w : PointerWidth} {s t : State} {queue : Option Nat} {item : Option (List UInt8)} {ok : Bool}
    (returned : queueEnqueue w s queue item = some (ok, t)) :
    t = s ∨ ∃ p q q' mem, s.slots p = some (.live q) ∧ q'.buffer = q.buffer ∧
      t = { s with arch := s.store mem, slots := Function.update s.slots p (some (.live q')) } := by
  unfold queueEnqueue at returned
  split at returned
  · split at returned
    · rename_i q found
      simp only [Option.bind_eq_bind, Option.bind_eq_some_iff] at returned
      obtain ⟨⟨_, q', mem⟩, enqueued, same⟩ := returned
      cases same
      refine .inr ⟨_, q, q', mem, found, ?_, rfl⟩
      obtain ⟨-, rfl, -⟩ | ⟨-, buffer⟩ := Queue.enqueue_cases enqueued
      · rfl
      · exact buffer
    · exact nomatch returned
  · cases returned
    exact .inl rfl

theorem queueDequeue_cases {w : PointerWidth} {s t : State} {queue : Option Nat} {item got : Option (List UInt8)}
    {ok : Bool} (returned : queueDequeue w s queue item = some (ok, got, t)) :
    t = s ∨ ∃ p q q', s.slots p = some (.live q) ∧ q'.buffer = q.buffer ∧
      t = { s with slots := Function.update s.slots p (some (.live q')) } := by
  unfold queueDequeue at returned
  split at returned
  · split at returned
    · rename_i q found
      simp only [Option.bind_eq_bind, Option.bind_eq_some_iff] at returned
      obtain ⟨⟨_, _, q'⟩, dequeued, same⟩ := returned
      cases same
      refine .inr ⟨_, q, q', found, ?_, rfl⟩
      obtain ⟨-, -, rfl⟩ | ⟨-, buffer⟩ := Queue.dequeue_cases dequeued
      · rfl
      · exact buffer
    · exact nomatch returned
  · cases returned
    exact .inl rfl

inductive Act
  | buffer (length itemSize ptr : Nat)
  | create (length itemSize : Nat) (queue : Option Nat)
  | enqueue (queue : Option Nat) (item : Option (List UInt8)) (ok : Bool)
  | dequeue (queue : Option Nat) (item : Option (List UInt8)) (ok : Bool) (got : Option (List UInt8))
  | size (queue : Option Nat) (count : Nat)
  | remove (queue : Option Nat)
  | free (queue : Nat)
  | drop (queue : Nat)
  | other (act : EmbassyArch.Act)

/-- One step for each critical section: the calls of the heap that `queue_create` and
`queue_remove` are made of, whole calls of the others, and whatever else uses the heap.
`queueLayout` is the layout of `Queue`. A box that cannot be had ends the program. -/
inductive Step (w : PointerWidth) (queueLayout : Layout) : State → Act → State → Prop
  | refused {s length itemSize arch} :
      EmbassyArch.Step w s.arch (.malloc (length * itemSize % 2 ^ w.bits) none) arch →
      Step w queueLayout s (.create length itemSize none) { s with arch }
  | buffer {s length itemSize ptr arch} : length < 2 ^ w.bits → itemSize < 2 ^ w.bits →
      EmbassyArch.Step w s.arch (.malloc (length * itemSize % 2 ^ w.bits) (some ptr)) arch →
      Step w queueLayout s (.buffer length itemSize ptr)
        { s with arch, pending := Function.update s.pending ptr (some (length, itemSize)) }
  | create {s length itemSize ptr queue arch} : s.pending ptr = some (length, itemSize) →
      EmbassyArch.Step w s.arch (.boxAlloc queueLayout (some queue)) arch →
      Step w queueLayout s (.create length itemSize (some queue))
        ⟨arch, Function.update s.pending ptr none,
          Function.update s.slots queue (some (.live (.new ptr length itemSize)))⟩
  | enqueue {s queue item ok t} : queueEnqueue w s queue item = some (ok, t) →
      Step w queueLayout s (.enqueue queue item ok) t
  | dequeue {s queue item ok got t} : queueDequeue w s queue item = some (ok, got, t) →
      Step w queueLayout s (.dequeue queue item ok got) t
  | size {s queue count} : queueSize s queue = some count → Step w queueLayout s (.size queue count) s
  | removeNull {s} : Step w queueLayout s (.remove none) s
  | remove {s queue q} : s.slots queue = some (.live q) →
      Step w queueLayout s (.remove (some queue))
        { s with slots := Function.update s.slots queue (some (.freeing q.buffer)) }
  | free {s queue buffer arch} : s.slots queue = some (.freeing buffer) →
      EmbassyArch.Step w s.arch (.free (some buffer)) arch →
      Step w queueLayout s (.free queue) { s with arch, slots := Function.update s.slots queue (some .freed) }
  | drop {s queue arch} : s.slots queue = some .freed →
      EmbassyArch.Step w s.arch (.boxFree queue queueLayout) arch →
      Step w queueLayout s (.drop queue) { s with arch, slots := Function.update s.slots queue none }
  | other {s act arch} : EmbassyArch.Step w s.arch act arch → Step w queueLayout s (.other act) { s with arch }

def machine (w : PointerWidth) (queueLayout : Layout) (mem : Memory) : Machine State Act where
  init := ⟨(EmbassyArch.machine w mem).init, fun _ => none, fun _ => none⟩
  step := Step w queueLayout

/-- The buffers that queues have, or are about to have. -/
def State.Owns (s : State) (p : Nat) : Prop :=
  s.pending p ≠ none ∨ ∃ queue slot, s.slots queue = some slot ∧ slot.buffer? = some p

/-- Callers put nothing into a queue whose product wraps, use handles that are not removed,
with memory for an item, and leave the insides of queues alone. -/
def Disciplined (w : PointerWidth) (s : State) : Act → Prop
  | .enqueue (some queue) (some item) _ => ∃ q, s.slots queue = some (.live q) ∧
      q.capacity * q.itemSize < 2 ^ w.bits ∧ q.itemSize ≤ item.length
  | .dequeue (some queue) (some item) _ _ => ∃ q, s.slots queue = some (.live q) ∧ q.itemSize ≤ item.length
  | .other act => EmbassyArch.Disciplined s.arch act ∧
      (∀ p, s.Owns p → act ≠ .free (some p) ∧ ∀ offset bytes, act ≠ .write p offset bytes) ∧
      ∀ queue, s.slots queue ≠ none → (∀ layout, act ≠ .boxFree queue layout) ∧
        ∀ offset bytes, act ≠ .boxWrite queue offset bytes
  | _ => True

/-- A store of queues, as libcsp thinks of it: each one on its own. -/
inductive Fifo.Step : (Nat → Option Fifo) → Act → (Nat → Option Fifo) → Prop
  | refused {fifos length itemSize} : Fifo.Step fifos (.create length itemSize none) fifos
  | create {fifos length itemSize queue} : fifos queue = none →
      Fifo.Step fifos (.create length itemSize (some queue))
        (Function.update fifos queue (some ⟨length, itemSize, []⟩))
  | enqueue {fifos queue item f} : fifos queue = some f →
      Fifo.Step fifos (.enqueue (some queue) (some item) (f.enqueue item).1)
        (Function.update fifos queue (some (f.enqueue item).2))
  | enqueueNull {fifos queue item} : queue = none ∨ item = none → Fifo.Step fifos (.enqueue queue item false) fifos
  | dequeue {fifos queue item f} : fifos queue = some f →
      Fifo.Step fifos (.dequeue (some queue) (some item) (f.dequeue item).1 (some (f.dequeue item).2.1))
        (Function.update fifos queue (some (f.dequeue item).2.2))
  | dequeueNull {fifos queue item} : queue = none ∨ item = none → Fifo.Step fifos (.dequeue queue item false item) fifos
  | size {fifos queue f} : fifos queue = some f → Fifo.Step fifos (.size (some queue) f.items.length) fifos
  | sizeNull {fifos} : Fifo.Step fifos (.size none 0) fifos
  | remove {fifos queue} : fifos queue ≠ none →
      Fifo.Step fifos (.remove (some queue)) (Function.update fifos queue none)
  | removeNull {fifos} : Fifo.Step fifos (.remove none) fifos

def Fifo.machine : Machine (Nat → Option Fifo) Act where
  init := fun _ => none
  step := Fifo.Step

/-- What libcsp sees of a step. -/
def Act.seen? : Act → Option Act
  | .buffer .. => none
  | .free _ => none
  | .drop _ => none
  | .other _ => none
  | act => some act

variable {w : PointerWidth}

section
variable {s t : EmbassyArch.State} {a : EmbassyArch.Act} (inv : EmbassyArch.Inv w s)
include inv

theorem boxes_kept (step : EmbassyArch.Step w s a t) {base : Nat} {layout : Layout} (box : s.boxes base = some layout)
    (notFreed : ∀ l, a ≠ .boxFree base l) : t.boxes base = some layout := by
  cases step with
  | @boxAlloc l new heap positive answer =>
    cases answer with
    | refused keeps => simpa using box
    | @given mem new keeps fits mapped =>
      have fresh := (inv.unused (inv.fresh positive fits)).1
      have other : new ≠ base := by
        rintro rfl
        exact nomatch fresh.symm.trans box
      simpa [other] using box
  | @boxFree b l dealloc contract =>
    have other : base ≠ b := by
      rintro rfl
      exact notFreed l rfl
    simpa [other] using box
  | malloc => exact box
  | free => exact box
  | write => exact box
  | boxWrite => exact box

theorem malloc_new {size p : Nat} (step : EmbassyArch.Step w s (.malloc size (some p)) t) :
    s.held p = none ∧ t.held p = some size := by
  cases step with
  | @malloc _ _ heap alloc _ contract returned =>
    obtain ⟨mem, keeps, same⟩ | ⟨mem, base, keeps, fits, mapped, same⟩ := @malloc_cases w alloc s.heap size contract
    · exact nomatch same.symm.trans returned
    · cases same.symm.trans returned
      have fresh := inv.unused (inv.fresh (by simp [headered, align]) fits)
      exact ⟨fresh.2, by simp⟩

theorem boxAlloc_new {layout : Layout} {base : Nat} (step : EmbassyArch.Step w s (.boxAlloc layout (some base)) t) :
    s.boxes base = none ∧ t.boxes base = some layout := by
  cases step with
  | boxAlloc positive answer =>
    cases answer with
    | given keeps fits mapped => exact ⟨(inv.unused (inv.fresh positive fits)).1, by simp⟩

end

/-- A queue that answers as it is meant to: its ring is in its buffer, or its product wraps and
nobody has put anything into it. -/
inductive Meets (w : PointerWidth) (mem : Memory) (q : Queue) (f : Fifo) : Prop
  | stored : Stored w mem q f → Meets w mem q f
  | unused : 2 ^ w.bits ≤ q.capacity * q.itemSize → q.count = 0 → f.items = [] → Meets w mem q f

section
variable {mem : Memory} {q : Queue} {f : Fifo}

theorem Meets.ring (meets : Meets w mem q f) (product : q.capacity * q.itemSize < 2 ^ w.bits) : Stored w mem q f := by
  cases meets with
  | stored stored => exact stored
  | unused wraps => exact absurd wraps (Nat.not_le_of_lt product)

theorem Meets.count (meets : Meets w mem q f) : f.items.length = q.count := by
  cases meets with
  | stored stored =>
    obtain ⟨bytes, items, -, -, ring, same⟩ := stored.ring
    rw [same, List.length_map]
    exact ring.count.symm
  | unused _ nothing empty => rw [nothing, empty, List.length_nil]

theorem Meets.congr {mem' : Memory} (meets : Meets w mem q f)
    (same : ∀ x ∈ Set.Ico q.buffer (q.buffer + q.capacity * q.itemSize % 2 ^ w.bits), mem' x = mem x) :
    Meets w mem' q f := by
  cases meets with
  | stored stored =>
    rw [Nat.mod_eq_of_lt stored.small.2] at same
    exact .stored (stored.congr same)
  | unused wraps nothing empty => exact .unused wraps nothing empty

theorem Meets.dequeue (meets : Meets w mem q f) (item : List UInt8) :
    ∃ q', q.dequeue w mem item = some ((f.dequeue item).1, (f.dequeue item).2.1, q') ∧
      Meets w mem q' (f.dequeue item).2.2 ∧
      q'.buffer = q.buffer ∧ q'.capacity = q.capacity ∧ q'.itemSize = q.itemSize := by
  cases meets with
  | stored stored =>
    obtain ⟨q', returns, after, same⟩ := @Stored.dequeue _ _ _ _ item stored
    exact ⟨q', returns, .stored after, same⟩
  | unused wraps nothing empty =>
    obtain ⟨capacity, itemSize, items⟩ := f
    dsimp only at empty
    subst empty
    refine ⟨q, ?_, .unused wraps nothing rfl, rfl, rfl, rfl⟩
    rw [Queue.dequeue, if_pos nothing]
    rfl

end

/-- The queues in the heap are the ones that are meant, and share nothing. -/
structure Rel (w : PointerWidth) (queueLayout : Layout) (s : State) (fifos : Nat → Option Fifo) : Prop where
  arch : EmbassyArch.Inv w s.arch
  pending : ∀ p length itemSize, s.pending p = some (length, itemSize) →
    s.arch.held p = some (length * itemSize % 2 ^ w.bits) ∧ length < 2 ^ w.bits
  boxed : ∀ queue slot, s.slots queue = some slot → s.arch.boxes queue = some queueLayout
  buffer : ∀ queue slot p, s.slots queue = some slot → slot.buffer? = some p →
    s.arch.held p ≠ none ∧ s.pending p = none
  single : ∀ queue queue' slot slot' p, s.slots queue = some slot → s.slots queue' = some slot' →
    slot.buffer? = some p → slot'.buffer? = some p → queue = queue'
  live : ∀ queue q, s.slots queue = some (.live q) →
    s.arch.held q.buffer = some (q.capacity * q.itemSize % 2 ^ w.bits) ∧
    ∃ f, fifos queue = some f ∧ Meets w s.arch.heap.mem q f
  gone : ∀ queue, (∀ q, s.slots queue ≠ some (.live q)) → fifos queue = none

section
variable {queueLayout : Layout} {s : State} {fifos : Nat → Option Fifo} (rel : Rel w queueLayout s fifos)
include rel

/-- A step of the heap that leaves queues alone. -/
theorem Rel.arch_step {a : EmbassyArch.Act} {arch : EmbassyArch.State} (step : EmbassyArch.Step w s.arch a arch)
    (disciplined : EmbassyArch.Disciplined s.arch a)
    (buffers : ∀ p, s.Owns p → a ≠ .free (some p) ∧ ∀ offset bytes, a ≠ .write p offset bytes)
    (boxes : ∀ queue, s.slots queue ≠ none → ∀ layout, a ≠ .boxFree queue layout) :
    Rel w queueLayout { s with arch } fifos := by
  have keeps := rel.arch.kept disciplined step
  have held : ∀ p, s.Owns p → ∀ size, s.arch.held p = some size → arch.held p = some size := by
    intro p owns size found
    exact (keeps p size found (buffers p owns).1 (buffers p owns).2).1
  refine ⟨rel.arch.step disciplined step, ?_, ?_, ?_, rel.single, ?_, rel.gone⟩
  · intro p length itemSize found
    dsimp only at found
    obtain ⟨size, small⟩ := rel.pending p length itemSize found
    exact ⟨held p (.inl (by simp [found])) _ size, small⟩
  · intro queue slot found
    dsimp only at found
    exact boxes_kept rel.arch step (rel.boxed queue slot found) (boxes queue (by simp [found]))
  · intro queue slot p found buffer
    obtain ⟨before, free⟩ := rel.buffer queue slot p found buffer
    obtain ⟨size, atSize⟩ := Option.ne_none_iff_exists'.mp before
    exact ⟨by simp [held p (.inr ⟨queue, slot, found, buffer⟩) size atSize], free⟩
  · intro queue q found
    obtain ⟨size, f, meant, meets⟩ := rel.live queue q found
    have owns : s.Owns q.buffer := .inr ⟨queue, _, found, rfl⟩
    refine ⟨held _ owns _ size, f, meant, meets.congr ?_⟩
    exact (keeps _ _ size (buffers _ owns).1 (buffers _ owns).2).2

/-- Buffers stay apart as long as handles keep or give up the one they have. -/
theorem Rel.fewer {slots : Nat → Option Slot} (old : ∀ queue slot, slots queue = some slot →
      ∃ before, s.slots queue = some before ∧ ∀ p, slot.buffer? = some p → before.buffer? = some p) :
    (∀ queue slot, slots queue = some slot → s.arch.boxes queue = some queueLayout) ∧
    (∀ queue slot p, slots queue = some slot → slot.buffer? = some p → s.arch.held p ≠ none ∧ s.pending p = none) ∧
    ∀ queue queue' slot slot' p, slots queue = some slot → slots queue' = some slot' →
      slot.buffer? = some p → slot'.buffer? = some p → queue = queue' := by
  refine ⟨?_, ?_, ?_⟩
  · intro queue slot at'
    obtain ⟨before, found, -⟩ := old queue slot at'
    exact rel.boxed queue before found
  · intro queue slot p at' ends
    obtain ⟨before, found, same⟩ := old queue slot at'
    exact rel.buffer queue before p found (same p ends)
  · intro queue₁ queue₂ slot₁ slot₂ p at₁ at₂ ends₁ ends₂
    obtain ⟨before₁, found₁, same₁⟩ := old queue₁ slot₁ at₁
    obtain ⟨before₂, found₂, same₂⟩ := old queue₂ slot₂ at₂
    exact rel.single queue₁ queue₂ before₁ before₂ p found₁ found₂ (same₁ p ends₁) (same₂ p ends₂)

theorem Rel.gone_others {queue queue' : Nat} {after : Option Slot} (own : queue' ≠ queue)
    (dead : ∀ q, Function.update s.slots queue after queue' ≠ some (.live q)) : fifos queue' = none := by
  refine rel.gone queue' ?_
  intro q
  have here := dead q
  rwa [Function.update_of_ne own] at here

/-- A call on one queue, with what it does to its buffer. -/
theorem Rel.call {queue : Nat} {q q' : Queue} {f' : Fifo} {mem : Memory} {offset : Nat} {bytes : List UInt8}
    (found : s.slots queue = some (.live q)) (meets : Meets w mem q' f')
    (same : q'.buffer = q.buffer ∧ q'.capacity = q.capacity ∧ q'.itemSize = q.itemSize)
    (inside : offset + bytes.length ≤ q.capacity * q.itemSize % 2 ^ w.bits)
    (stores : s.arch.heap.mem.storeAll (q.buffer + offset) bytes = some mem) :
    Rel w queueLayout { s with arch := s.store mem, slots := Function.update s.slots queue (some (.live q')) }
      (Function.update fifos queue (some f')) := by
  obtain ⟨buffer, capacity, itemSize⟩ := same
  obtain ⟨size, -⟩ := rel.live queue q found
  have write : EmbassyArch.Step w s.arch (.write q.buffer offset bytes) (s.store mem) := .write stores
  have disciplined : EmbassyArch.Disciplined s.arch (.write q.buffer offset bytes) := ⟨_, size, inside⟩
  have keeps := rel.arch.kept disciplined write
  have old : ∀ queue' slot, Function.update s.slots queue (some (.live q')) queue' = some slot →
      ∃ slot', s.slots queue' = some slot' ∧ ∀ p, slot.buffer? = some p → slot'.buffer? = some p := by
    intro queue' slot at'
    by_cases own : queue' = queue
    · subst own
      rw [Function.update_self] at at'
      cases at'
      exact ⟨_, found, fun p ends => by rw [← ends]; simp [Slot.buffer?, buffer]⟩
    · rw [Function.update_of_ne own] at at'
      exact ⟨slot, at', fun _ ends => ends⟩
  obtain ⟨boxed, buffers, single⟩ := rel.fewer old
  refine ⟨rel.arch.step disciplined write, rel.pending, boxed, buffers, single, ?_, ?_⟩
  · intro queue' other at'
    dsimp only at at'
    by_cases own : queue' = queue
    · subst own
      rw [Function.update_self] at at'
      cases at'
      refine ⟨?_, f', Function.update_self .., meets⟩
      rw [buffer, capacity, itemSize]
      exact size
    · rw [Function.update_of_ne own] at at'
      obtain ⟨size', f, meant, meets'⟩ := rel.live queue' other at'
      have apart : q.buffer ≠ other.buffer := by
        intro shared
        exact own (rel.single queue' queue _ _ other.buffer at' found rfl (by rw [← shared]; rfl))
      refine ⟨size', f, by rw [Function.update_of_ne own]; exact meant, meets'.congr ?_⟩
      refine (keeps _ _ size' nofun ?_).2
      intro offset' bytes' same
      exact apart (EmbassyArch.Act.write.inj same).1
  · intro queue' dead
    have own : queue' ≠ queue := by
      rintro rfl
      exact dead q' (Function.update_self ..)
    rw [Function.update_of_ne own]
    exact rel.gone_others own dead

/-- A handle on its way out. -/
theorem Rel.retire {queue : Nat} {slot : Slot} {after : Option Slot} (found : s.slots queue = some slot)
    (dead : ∀ q, after ≠ some (.live q))
    (less : ∀ slot' p, after = some slot' → slot'.buffer? = some p → slot.buffer? = some p) :
    Rel w queueLayout { s with slots := Function.update s.slots queue after } (Function.update fifos queue none) := by
  have old : ∀ queue' slot', Function.update s.slots queue after queue' = some slot' →
      ∃ slot'', s.slots queue' = some slot'' ∧ ∀ p, slot'.buffer? = some p → slot''.buffer? = some p := by
    intro queue' slot' at'
    by_cases own : queue' = queue
    · subst own
      rw [Function.update_self] at at'
      exact ⟨slot, found, fun p ends => less slot' p at' ends⟩
    · rw [Function.update_of_ne own] at at'
      exact ⟨slot', at', fun _ ends => ends⟩
  obtain ⟨boxed, buffers, single⟩ := rel.fewer old
  refine ⟨rel.arch, rel.pending, boxed, buffers, single, ?_, ?_⟩
  · intro queue' q at'
    dsimp only at at'
    have own : queue' ≠ queue := by
      rintro rfl
      rw [Function.update_self] at at'
      exact dead q at'
    rw [Function.update_of_ne own] at at' ⊢
    exact rel.live queue' q at'
  · intro queue' gone
    by_cases own : queue' = queue
    · rw [own, Function.update_self]
    · rw [Function.update_of_ne own]
      exact rel.gone_others own gone

theorem Rel.retired {queue : Nat} {slot : Slot} (found : s.slots queue = some slot) (dead : ∀ q, slot ≠ .live q) :
    Function.update fifos queue none = fifos := by
  have gone : fifos queue = none := by
    refine rel.gone queue ?_
    intro q same
    exact dead q (Option.some.inj (found.symm.trans same))
  rw [← gone, Function.update_eq_self]

theorem Rel.free_step {queue buffer : Nat} {arch : EmbassyArch.State} (found : s.slots queue = some (.freeing buffer))
    (step : EmbassyArch.Step w s.arch (.free (some buffer)) arch) :
    Rel w queueLayout { s with arch, slots := Function.update s.slots queue (some .freed) } fifos := by
  have left : Rel w queueLayout { s with slots := Function.update s.slots queue (some .freed) } fifos := by
    rw [← rel.retired found nofun]
    refine rel.retire found nofun ?_
    intro slot' p same ends
    cases same
    exact nomatch ends
  obtain ⟨held, loose⟩ := rel.buffer queue _ buffer found rfl
  refine left.arch_step step held ?_ (fun _ _ _ => nofun)
  intro p owns
  refine ⟨?_, fun _ _ => nofun⟩
  intro same
  cases same
  obtain pending | ⟨queue', slot, at', ends⟩ := owns
  · exact pending loose
  · dsimp only at at'
    by_cases own : queue' = queue
    · rw [own, Function.update_self] at at'
      cases at'
      exact nomatch ends
    · rw [Function.update_of_ne own] at at'
      exact own (rel.single queue' queue slot _ buffer at' found ends rfl)

theorem Rel.drop_step {queue : Nat} {arch : EmbassyArch.State} (found : s.slots queue = some .freed)
    (step : EmbassyArch.Step w s.arch (.boxFree queue queueLayout) arch) :
    Rel w queueLayout { s with arch, slots := Function.update s.slots queue none } fifos := by
  have left : Rel w queueLayout { s with slots := Function.update s.slots queue none } fifos := by
    rw [← rel.retired found nofun]
    exact rel.retire found nofun nofun
  refine left.arch_step step (rel.boxed queue _ found) (fun _ _ => ⟨nofun, fun _ _ => nofun⟩) ?_
  intro queue' present layout same
  cases same
  exact present (Function.update_self ..)

theorem Rel.buffer_step {length itemSize ptr : Nat} {arch : EmbassyArch.State} (small : length < 2 ^ w.bits)
    (step : EmbassyArch.Step w s.arch (.malloc (length * itemSize % 2 ^ w.bits) (some ptr)) arch) :
    Rel w queueLayout { s with arch, pending := Function.update s.pending ptr (some (length, itemSize)) } fifos := by
  obtain ⟨fresh, held⟩ := malloc_new rel.arch step
  have after := rel.arch_step step trivial (fun _ _ => ⟨nofun, fun _ _ => nofun⟩) (fun _ _ _ => nofun)
  refine ⟨after.arch, ?_, after.boxed, ?_, after.single, after.live, after.gone⟩
  · intro p length' itemSize' found
    dsimp only at found
    by_cases new : p = ptr
    · subst new
      rw [Function.update_self] at found
      cases found
      exact ⟨held, small⟩
    · rw [Function.update_of_ne new] at found
      exact after.pending p length' itemSize' found
  · intro queue slot p found ends
    obtain ⟨given, loose⟩ := after.buffer queue slot p found ends
    have other : p ≠ ptr := by
      rintro rfl
      exact (rel.buffer queue slot p found ends).1 fresh
    refine ⟨given, ?_⟩
    dsimp only
    rw [Function.update_of_ne other]
    exact loose

theorem Rel.meets_new {length itemSize ptr : Nat} (pending : s.pending ptr = some (length, itemSize)) :
    Meets w s.arch.heap.mem (.new ptr length itemSize) ⟨length, itemSize, []⟩ := by
  obtain ⟨held, small⟩ := rel.pending ptr length itemSize pending
  by_cases product : length * itemSize < 2 ^ w.bits
  · rw [Nat.mod_eq_of_lt product] at held
    exact .stored (.new small product (rel.arch.sound.block ptr _ held).2.2.2)
  · exact .unused (Nat.le_of_not_lt product) rfl rfl

theorem Rel.unused {queue : Nat} {arch : EmbassyArch.State}
    (step : EmbassyArch.Step w s.arch (.boxAlloc queueLayout (some queue)) arch) (slot : Slot) :
    s.slots queue ≠ some slot := by
  intro found
  exact nomatch (boxAlloc_new rel.arch step).1.symm.trans (rel.boxed queue slot found)

theorem Rel.create_step {length itemSize ptr queue : Nat} {arch : EmbassyArch.State}
    (pending : s.pending ptr = some (length, itemSize))
    (step : EmbassyArch.Step w s.arch (.boxAlloc queueLayout (some queue)) arch) :
    fifos queue = none ∧ Rel w queueLayout
      ⟨arch, Function.update s.pending ptr none,
        Function.update s.slots queue (some (.live (.new ptr length itemSize)))⟩
      (Function.update fifos queue (some ⟨length, itemSize, []⟩)) := by
  have box := (boxAlloc_new rel.arch step).2
  have after := rel.arch_step step trivial (fun _ _ => ⟨nofun, fun _ _ => nofun⟩) (fun _ _ _ => nofun)
  have meets := after.meets_new pending
  obtain ⟨held, -⟩ := after.pending ptr length itemSize pending
  have elsewhere : ∀ queue' slot p, s.slots queue' = some slot → slot.buffer? = some p → p ≠ ptr := by
    rintro queue' slot p found ends rfl
    exact nomatch (rel.buffer queue' slot p found ends).2.symm.trans pending
  refine ⟨rel.gone queue fun q => rel.unused step _, after.arch, ?_, ?_, ?_, ?_, ?_, ?_⟩
  · intro p length' itemSize' found
    dsimp only at found
    have other : p ≠ ptr := by
      rintro rfl
      rw [Function.update_self] at found
      exact nomatch found
    rw [Function.update_of_ne other] at found
    exact after.pending p length' itemSize' found
  · intro queue' slot found
    dsimp only at found
    by_cases own : queue' = queue
    · rw [own]
      exact box
    · rw [Function.update_of_ne own] at found
      exact after.boxed queue' slot found
  · intro queue' slot p found ends
    dsimp only at found
    by_cases own : queue' = queue
    · rw [own, Function.update_self] at found
      cases found
      cases ends
      refine ⟨?_, Function.update_self ..⟩
      intro lost
      exact nomatch lost.symm.trans held
    · rw [Function.update_of_ne own] at found
      obtain ⟨given, loose⟩ := after.buffer queue' slot p found ends
      refine ⟨given, ?_⟩
      dsimp only
      rw [Function.update_of_ne (elsewhere queue' slot p found ends)]
      exact loose
  · intro queue₁ queue₂ slot₁ slot₂ p found₁ found₂ ends₁ ends₂
    dsimp only at found₁ found₂
    by_cases own₁ : queue₁ = queue
    · by_cases own₂ : queue₂ = queue
      · rw [own₁, own₂]
      · rw [own₁, Function.update_self] at found₁
        rw [Function.update_of_ne own₂] at found₂
        cases found₁
        cases ends₁
        exact absurd rfl (elsewhere queue₂ slot₂ _ found₂ ends₂)
    · rw [Function.update_of_ne own₁] at found₁
      by_cases own₂ : queue₂ = queue
      · rw [own₂, Function.update_self] at found₂
        cases found₂
        cases ends₂
        exact absurd rfl (elsewhere queue₁ slot₁ _ found₁ ends₁)
      · rw [Function.update_of_ne own₂] at found₂
        exact rel.single queue₁ queue₂ slot₁ slot₂ p found₁ found₂ ends₁ ends₂
  · intro queue' q found
    dsimp only at found
    by_cases own : queue' = queue
    · subst own
      rw [Function.update_self] at found
      cases found
      exact ⟨held, _, Function.update_self .., meets⟩
    · rw [Function.update_of_ne own] at found ⊢
      exact after.live queue' q found
  · intro queue' gone
    have own : queue' ≠ queue := by
      rintro rfl
      exact gone _ (Function.update_self ..)
    rw [Function.update_of_ne own]
    exact rel.gone_others own gone

theorem Rel.enqueue_step {queue : Nat} {q : Queue} {item : List UInt8} (found : s.slots queue = some (.live q))
    (product : q.capacity * q.itemSize < 2 ^ w.bits) (enough : q.itemSize ≤ item.length) :
    ∃ f t, fifos queue = some f ∧ queueEnqueue w s (some queue) (some item) = some ((f.enqueue item).1, t) ∧
      Rel w queueLayout t (Function.update fifos queue (some (f.enqueue item).2)) := by
  obtain ⟨-, f, meant, meets⟩ := rel.live queue q found
  obtain ⟨q', mem, offset, bytes, returns, after, buffer, capacity, itemSize, inside, stores⟩ :=
    (meets.ring product).enqueue enough
  rw [← Nat.mod_eq_of_lt product] at inside
  refine ⟨f, _, meant, ?_, rel.call found (.stored after) ⟨buffer, capacity, itemSize⟩ inside stores⟩
  simp only [queueEnqueue, found, returns, Option.bind_eq_bind, Option.bind_some]

theorem Rel.dequeue_step {queue : Nat} {q : Queue} (found : s.slots queue = some (.live q)) (item : List UInt8) :
    ∃ f t, fifos queue = some f ∧
      queueDequeue w s (some queue) (some item) = some ((f.dequeue item).1, some (f.dequeue item).2.1, t) ∧
      Rel w queueLayout t (Function.update fifos queue (some (f.dequeue item).2.2)) := by
  obtain ⟨-, f, meant, meets⟩ := rel.live queue q found
  obtain ⟨q', returns, after, same⟩ := meets.dequeue item
  have untouched : s.arch.heap.mem.storeAll (q.buffer + 0) [] = some s.arch.heap.mem := rfl
  refine ⟨f, _, meant, ?_, rel.call found after same (Nat.zero_le _) untouched⟩
  simp only [queueDequeue, found, returns, Option.bind_eq_bind, Option.bind_some]
  rfl

/-- What libcsp sees of a step is a step of the queues it thinks of. -/
theorem Rel.visible {a b : Act} {t : State} (step : Step w queueLayout s a t) (disciplined : Disciplined w s a)
    (seen : a.seen? = some b) : ∃ fifos', Fifo.Step fifos b fifos' ∧ Rel w queueLayout t fifos' := by
  cases step with
  | buffer => exact nomatch seen
  | free => exact nomatch seen
  | drop => exact nomatch seen
  | other => exact nomatch seen
  | refused step =>
    cases seen
    exact ⟨fifos, .refused, rel.arch_step step trivial (fun _ _ => ⟨nofun, fun _ _ => nofun⟩) (fun _ _ _ => nofun)⟩
  | create pending step =>
    cases seen
    obtain ⟨fresh, after⟩ := rel.create_step pending step
    exact ⟨_, .create fresh, after⟩
  | @enqueue queue item ok t returned =>
    cases seen
    cases queue with
    | none =>
      cases returned
      exact ⟨fifos, .enqueueNull (.inl rfl), rel⟩
    | some queue =>
      cases item with
      | none =>
        cases returned
        exact ⟨fifos, .enqueueNull (.inr rfl), rel⟩
      | some item =>
        obtain ⟨q, found, product, enough⟩ := disciplined
        obtain ⟨f, t', meant, returns, after⟩ := rel.enqueue_step found product enough
        cases returns.symm.trans returned
        exact ⟨_, .enqueue meant, after⟩
  | @dequeue queue item ok got t returned =>
    cases seen
    cases queue with
    | none =>
      cases returned
      exact ⟨fifos, .dequeueNull (.inl rfl), rel⟩
    | some queue =>
      cases item with
      | none =>
        cases returned
        exact ⟨fifos, .dequeueNull (.inr rfl), rel⟩
      | some item =>
        obtain ⟨q, found, enough⟩ := disciplined
        obtain ⟨f, t', meant, returns, after⟩ := rel.dequeue_step found item
        cases returns.symm.trans returned
        exact ⟨_, .dequeue meant, after⟩
  | @size queue count returned =>
    cases seen
    cases queue with
    | none =>
      cases returned
      exact ⟨fifos, .sizeNull, rel⟩
    | some queue =>
      simp only [queueSize] at returned
      split at returned
      · rename_i q found
        obtain ⟨-, f, meant, meets⟩ := rel.live queue q found
        cases returned
        rw [Queue.size, ← meets.count]
        exact ⟨fifos, .size meant, rel⟩
      · simp at returned
  | removeNull =>
    cases seen
    exact ⟨fifos, .removeNull, rel⟩
  | @remove queue q found =>
    cases seen
    obtain ⟨-, f, meant, -⟩ := rel.live queue q found
    refine ⟨_, .remove (by simp [meant]), rel.retire found (by simp) ?_⟩
    intro slot' p same ends
    cases same
    exact ends

theorem Rel.silent {a : Act} {t : State} (step : Step w queueLayout s a t) (disciplined : Disciplined w s a)
    (unseen : a.seen? = none) : Rel w queueLayout t fifos := by
  cases step with
  | buffer small _ step => exact rel.buffer_step small step
  | free found step => exact rel.free_step found step
  | drop found step => exact rel.drop_step found step
  | other step =>
    obtain ⟨disciplined, buffers, boxes⟩ := disciplined
    exact rel.arch_step step disciplined buffers fun queue present => (boxes queue present).1
  | refused => exact nomatch unseen
  | create => exact nomatch unseen
  | enqueue => exact nomatch unseen
  | dequeue => exact nomatch unseen
  | size => exact nomatch unseen
  | removeNull => exact nomatch unseen
  | remove => exact nomatch unseen

end

theorem rel_init (w : PointerWidth) (queueLayout : Layout) (mem : Memory) :
    Rel w queueLayout (machine w queueLayout mem).init Fifo.machine.init :=
  ⟨boot_inv mem, nofun, nofun, nofun, nofun, nofun, fun _ _ => rfl⟩

theorem simulates (w : PointerWidth) (queueLayout : Layout) (mem : Memory) :
    Refines ((machine w queueLayout mem).restrict (Disciplined w)) Fifo.machine (Rel w queueLayout) Act.seen? where
  init := rel_init w queueLayout mem
  visible rel taken seen := rel.visible taken.1 taken.2 seen
  silent rel taken unseen := rel.silent taken.1 taken.2 unseen

/-- Calls on the handles that a caller may use come back. -/
structure Serves (w : PointerWidth) (s : State) : Prop where
  enqueue : ∀ queue q item, s.slots queue = some (.live q) → q.capacity * q.itemSize < 2 ^ w.bits →
    q.itemSize ≤ item.length → (queueEnqueue w s (some queue) (some item)).isSome
  dequeue : ∀ queue q item, s.slots queue = some (.live q) → (queueDequeue w s (some queue) (some item)).isSome
  free : ∀ queue buffer, s.slots queue = some (.freeing buffer) →
    ∀ dealloc, (EmbassyArch.free w dealloc s.arch.heap (some buffer)).isSome

theorem Rel.serves {queueLayout : Layout} {s : State} {fifos : Nat → Option Fifo} (rel : Rel w queueLayout s fifos) :
    Serves w s := by
  refine ⟨?_, ?_, ?_⟩
  · intro queue q item found product enough
    obtain ⟨f, t, -, returns, -⟩ := rel.enqueue_step found product enough
    rw [returns, Option.isSome_some]
  · intro queue q item found
    obtain ⟨f, t, -, returns, -⟩ := rel.dequeue_step found item
    rw [returns, Option.isSome_some]
  · intro queue buffer found dealloc
    obtain ⟨size, held⟩ := Option.ne_none_iff_exists'.mp (rel.buffer queue _ buffer found rfl).1
    rw [(free_held rel.arch held).2 dealloc, Option.isSome_some]

end Queues

end Libcsp.EmbassyArch
