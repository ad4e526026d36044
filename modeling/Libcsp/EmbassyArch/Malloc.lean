import Libcsp.Base.Allocator
import Libcsp.Base.LittleEndian
import Libcsp.Base.Machine
import Libcsp.Base.MachineInt

namespace Libcsp.EmbassyArch
open Sys

/-- `EmbassyArch::ALIGN`: the alignment of every block and the room for its header. -/
def align : Nat := 8

/-- `Layout::from_size_align`. -/
def fromSizeAlign (w : PointerWidth) (size align : Nat) : Option Layout :=
  if align ≠ 0 ∧ align &&& (align - 1) = 0 ∧ size + align ≤ 2 ^ (w.bits - 1) then some ⟨size, align⟩ else none

/-- `EmbassyArch::malloc` over the `alloc` of the global heap. A store to unmapped memory
does not come back. -/
def malloc (w : PointerWidth) (alloc : Heap → Layout → Option Nat × Heap) (heap : Heap) (size : Nat) :
    Option (Option Nat × Heap) :=
  match checkedAdd w size align with
  | none => some (none, heap)
  | some total =>
    match fromSizeAlign w total align with
    | none => some (none, heap)
    | some layout =>
      match alloc heap layout with
      | (none, heap) => some (none, heap)
      | (some base, heap) => do
        let mem ← heap.mem.storeAll base (leBytes w.bytes size)
        some (some (base + align), { heap with mem })

/-- `EmbassyArch::free`: the layout is rebuilt from the header. -/
def free (w : PointerWidth) (dealloc : Heap → Nat → Layout → Heap) (heap : Heap) : Option Nat → Option Heap
  | none => some heap
  | some ptr => do
    let base := ptr - align
    let header ← heap.mem.load base w.bytes
    some (dealloc heap base ⟨(ofLeBytes header + align) % 2 ^ w.bits, align⟩)

/-- The heap, what the callers of `malloc` hold with the size they asked for, and what
Rust code got from the heap directly. -/
structure State where
  heap : Heap
  held : Nat → Option Nat
  boxes : Nat → Option Layout

inductive Act
  | malloc (size : Nat) (ptr : Option Nat)
  | free (ptr : Option Nat)
  | write (ptr offset : Nat) (bytes : List UInt8)
  | boxAlloc (layout : Layout) (base : Option Nat)
  | boxFree (base : Nat) (layout : Layout)
  | boxWrite (base offset : Nat) (bytes : List UInt8)

/-- The heap keeps its contract for every call that keeps to it: no block of no bytes is
asked for, and a block is given back with its own layout. -/
inductive Step (w : PointerWidth) : State → Act → State → Prop
  | malloc {s size ptr heap} (alloc : Heap → Layout → Option Nat × Heap) : size < 2 ^ w.bits →
      (∀ layout, 0 < layout.size → s.heap.Allocates (2 ^ w.bits) layout (alloc s.heap layout)) →
      EmbassyArch.malloc w alloc s.heap size = some (ptr, heap) →
      Step w s (.malloc size ptr)
        { s with heap, held := fun p => if ptr = some p then some size else s.held p }
  | free {s ptr heap} (dealloc : Heap → Nat → Layout → Heap) :
      (∀ base layout, s.heap.live base = some layout → s.heap.Releases base (dealloc s.heap base layout)) →
      EmbassyArch.free w dealloc s.heap ptr = some heap →
      Step w s (.free ptr) { s with heap, held := fun p => if ptr = some p then none else s.held p }
  | write {s ptr offset bytes mem} : s.heap.mem.storeAll (ptr + offset) bytes = some mem →
      Step w s (.write ptr offset bytes) { s with heap := { s.heap with mem } }
  | boxAlloc {s layout base heap} : 0 < layout.size → s.heap.Allocates (2 ^ w.bits) layout (base, heap) →
      Step w s (.boxAlloc layout base)
        { s with heap, boxes := fun b => if base = some b then some layout else s.boxes b }
  | boxFree {s base layout} (dealloc : Heap → Nat → Layout → Heap) :
      (∀ base layout, s.heap.live base = some layout → s.heap.Releases base (dealloc s.heap base layout)) →
      Step w s (.boxFree base layout)
        { s with heap := dealloc s.heap base layout, boxes := Function.update s.boxes base none }
  | boxWrite {s base offset bytes mem} : s.heap.mem.storeAll (base + offset) bytes = some mem →
      Step w s (.boxWrite base offset bytes) { s with heap := { s.heap with mem } }

def machine (w : PointerWidth) (mem : Memory) : Machine State Act where
  init := ⟨⟨mem, fun _ => none⟩, fun _ => none, fun _ => none⟩
  step := Step w

/-- Callers give back only what they hold and write only inside of it. -/
def Disciplined (s : State) : Act → Prop
  | .free (some p) => s.held p ≠ none
  | .write p offset bytes => ∃ size, s.held p = some size ∧ offset + bytes.length ≤ size
  | .boxFree base layout => s.boxes base = some layout
  | .boxWrite base offset bytes => ∃ layout, s.boxes base = some layout ∧ offset + bytes.length ≤ layout.size
  | _ => True

/-- The block of the heap behind a block of `malloc`. -/
def headered (size : Nat) : Layout := ⟨size + align, align⟩

/-- The layout for which the block at `base` is held by someone. -/
def State.given (s : State) (base : Nat) : Option Layout := (s.boxes base).or ((s.held (base + align)).map headered)

structure Sound (w : PointerWidth) (s : State) : Prop where
  /-- Nothing is lost: the heap has given out what is held, and nothing else. -/
  live : s.heap.live = s.given
  apart : ∀ p q m n, p ≠ q → s.held p = some m → s.held q = some n → p + m ≤ q ∨ q + n ≤ p
  block : ∀ p size, s.held p = some size → p ≠ 0 ∧ align ∣ p ∧ p + size ≤ 2 ^ w.bits ∧ s.heap.mem.Mapped p size
  /-- The layout that `free` rebuilds is the one the block was given out for. -/
  frees : ∀ p size, s.held p = some size → s.heap.live (p - align) = some (headered size) ∧
    ∀ dealloc, EmbassyArch.free w dealloc s.heap (some p) = some (dealloc s.heap (p - align) (headered size))
  /-- `malloc` comes back for every size, whatever a heap that keeps its contract does. -/
  returns : ∀ alloc size, (∀ layout, 0 < layout.size → s.heap.Allocates (2 ^ w.bits) layout (alloc s.heap layout)) →
    (EmbassyArch.malloc w alloc s.heap size).isSome

/-- What is written to a block stays there until its owner writes to it again or gives
it back. -/
def Keeps (s : State) (a : Act) (t : State) : Prop :=
  ∀ p size, s.held p = some size → a ≠ .free (some p) → (∀ offset bytes, a ≠ .write p offset bytes) →
    t.held p = some size ∧ ∀ x ∈ Set.Ico p (p + size), t.heap.mem x = s.heap.mem x

structure Inv (w : PointerWidth) (s : State) : Prop where
  separate : s.heap.Separate
  live : s.heap.live = s.given
  exclusive : ∀ base, s.boxes base = none ∨ s.held (base + align) = none
  positive : ∀ base layout, s.heap.live base = some layout → 0 < layout.size
  mapped : ∀ base layout, s.heap.live base = some layout → s.heap.mem.Mapped base layout.size
  above : ∀ p size, s.held p = some size → align ≤ p
  block : ∀ base size, s.held (base + align) = some size →
    base ≠ 0 ∧ align ∣ base ∧ base + align + size ≤ 2 ^ w.bits ∧ s.heap.mem.Holds base (leBytes w.bytes size)

variable {w : PointerWidth} {s t : State} {a : Act}

/-- What `malloc` does with a heap that keeps its contract: it asks for a layout unless
there is none for so many bytes, and it always comes back. -/
theorem malloc_cases {alloc : Heap → Layout → Option Nat × Heap} {heap : Heap} {size : Nat}
    (contract : ∀ layout, 0 < layout.size → heap.Allocates (2 ^ w.bits) layout (alloc heap layout)) :
    (∃ mem, heap.KeepsBlocks mem ∧ malloc w alloc heap size = some (none, ⟨mem, heap.live⟩)) ∨
    ∃ mem base, heap.KeepsBlocks mem ∧ heap.Fits (2 ^ w.bits) (headered size) base ∧
      mem.Mapped base (size + align) ∧
      malloc w alloc heap size = some (some (base + align),
        ⟨mem.write base (leBytes w.bytes size), Function.update heap.live base (some (headered size))⟩) := by
  unfold malloc checkedAdd
  split
  · exact Or.inl ⟨heap.mem, Heap.KeepsBlocks.refl heap, rfl⟩
  · rename_i total added
    split at added
    · cases added
      unfold fromSizeAlign
      split
      · exact Or.inl ⟨heap.mem, Heap.KeepsBlocks.refl heap, rfl⟩
      · rename_i layout found
        split at found
        · cases found
          have answer := contract (headered size) (by simp [headered, align])
          unfold headered at answer
          generalize alloc heap ⟨size + align, align⟩ = result at answer
          cases answer with
          | refused keeps => exact Or.inl ⟨_, keeps, rfl⟩
          | @given mem base keeps fits mapped =>
            refine Or.inr ⟨mem, base, keeps, fits, mapped, ?_⟩
            have room : mem.Mapped base (leBytes w.bytes size).length := by
              have small := w.bytes_le
              rintro x ⟨low, high⟩
              rw [leBytes_length] at high
              refine mapped x ⟨low, ?_⟩
              simp only [align]
              omega
            simp only [Memory.storeAll_eq room, Option.bind_eq_bind, Option.bind_some]
            rfl
        · exact nomatch found
    · exact nomatch added

section
variable (inv : Inv w s)
include inv

theorem Inv.live_held {base size : Nat} (held : s.held (base + align) = some size) :
    s.heap.live base = some (headered size) := by
  rw [inv.live, State.given, (inv.exclusive base).resolve_right (by simp [held]), held]
  rfl

theorem Inv.live_box {base : Nat} {layout : Layout} (box : s.boxes base = some layout) :
    s.heap.live base = some layout := by
  rw [inv.live, State.given, box]
  rfl

theorem Inv.unused {base : Nat} (dead : s.heap.live base = none) :
    s.boxes base = none ∧ s.held (base + align) = none := by
  rw [inv.live, State.given, Option.or_eq_none_iff, Option.map_eq_none_iff] at dead
  exact dead

theorem Inv.fresh {layout : Layout} {base : Nat} (positive : 0 < layout.size)
    (fits : s.heap.Fits (2 ^ w.bits) layout base) : s.heap.live base = none := by
  by_contra live
  obtain ⟨l, given⟩ := Option.ne_none_iff_exists'.mp live
  have room := inv.positive base l given
  have apart := fits.apart base l given
  omega

/-- A memory with the same headers has them where `free` looks. -/
theorem Inv.header {mem : Memory} {base size : Nat} (held : s.held (base + align) = some size)
    (same : ∀ x ∈ Set.Ico base (base + align), mem x = s.heap.mem x) : mem.Holds base (leBytes w.bytes size) := by
  refine (inv.block base size held).2.2.2.congr ?_
  rintro x ⟨low, high⟩
  rw [leBytes_length] at high
  have small := w.bytes_le
  exact same x ⟨low, by simp only [align]; omega⟩

end

/-- The blocks are where they were and keep their headers. -/
theorem Inv.same_blocks (inv : Inv w s) {mem : Memory}
    (mapped : ∀ base layout, s.heap.live base = some layout → mem.Mapped base layout.size)
    (headers : ∀ base size, s.held (base + align) = some size → ∀ x ∈ Set.Ico base (base + align), mem x = s.heap.mem x) :
    Inv w { s with heap := { s.heap with mem } } where
  separate := inv.separate
  live := inv.live
  exclusive := inv.exclusive
  positive := inv.positive
  mapped := mapped
  above := inv.above
  block := by
    intro base size held
    obtain ⟨nonnull, aligned, inside, _⟩ := inv.block base size held
    exact ⟨nonnull, aligned, inside, inv.header held (headers base size held)⟩

theorem Inv.keeps (inv : Inv w s) {mem : Memory} (keeps : s.heap.KeepsBlocks mem) :
    Inv w { s with heap := { s.heap with mem } } := by
  refine inv.same_blocks ?_ ?_
  · intro base layout live
    exact (inv.mapped base layout live).congr (keeps base layout live)
  · intro base size held x ⟨low, high⟩
    exact keeps base _ (inv.live_held held) x ⟨low, by simp only [headered]; omega⟩

theorem free_held {p size : Nat} (inv : Inv w s) (held : s.held p = some size) :
    s.heap.live (p - align) = some (headered size) ∧
    ∀ dealloc, EmbassyArch.free w dealloc s.heap (some p) = some (dealloc s.heap (p - align) (headered size)) := by
  have above := inv.above p size held
  obtain ⟨base, rfl⟩ : ∃ base, p = base + align := ⟨p - align, by omega⟩
  obtain ⟨nonnull, _, inside, header⟩ := inv.block base size held
  rw [Nat.add_sub_cancel]
  constructor
  · exact inv.live_held held
  · intro dealloc
    have loaded := header.load
    rw [leBytes_length] at loaded
    have fits : size < 256 ^ w.bytes := by
      rw [w.pow_bytes]
      simp only [align] at inside
      omega
    have unwrapped : (size + align) % 2 ^ w.bits = size + align := Nat.mod_eq_of_lt (by omega)
    simp only [EmbassyArch.free, Nat.add_sub_cancel, loaded, Option.bind_eq_bind, Option.bind_some,
      ofLeBytes_leBytes_of_lt fits, unwrapped, headered]

/-- A write behind the header of a block, and inside of it. -/
theorem Inv.write (inv : Inv w s) {base p : Nat} {layout : Layout} {bytes : List UInt8}
    (live : s.heap.live base = some layout) (lower : base ≤ p) (upper : p + bytes.length ≤ base + layout.size)
    (behind : s.held (base + align) = none ∨ base + align ≤ p) :
    Inv w { s with heap := { s.heap with mem := s.heap.mem.write p bytes } } := by
  refine inv.same_blocks ?_ ?_
  · intro other l given
    exact (inv.mapped other l given).write
  · intro other size held x ⟨low, high⟩
    by_cases same : other = base
    · subst same
      refine Memory.write_of_notMem ?_
      rintro ⟨above, _⟩
      have past := behind.resolve_left (by simp [held])
      omega
    · exact inv.separate.write live lower upper same (inv.live_held held) ⟨low, by simp only [headered]; omega⟩

/-- A new block, with or without a header. -/
theorem Inv.gains (inv : Inv w s) {mem : Memory} {base : Nat} {layout : Layout} {held : Nat → Option Nat}
    {boxes : Nat → Option Layout} (positive : 0 < layout.size) (keeps : s.heap.KeepsBlocks mem)
    (fits : s.heap.Fits (2 ^ w.bits) layout base) {bytes : List UInt8} (mapped : mem.Mapped base layout.size)
    (inside : bytes.length ≤ layout.size) (own : (boxes base).or ((held (base + align)).map headered) = some layout)
    (one : boxes base = none ∨ held (base + align) = none)
    (header : ∀ size, held (base + align) = some size → layout = headered size ∧ bytes = leBytes w.bytes size)
    (others : ∀ b ≠ base, boxes b = s.boxes b ∧ held (b + align) = s.held (b + align))
    (low : ∀ p size, held p = some size → align ≤ p) :
    Inv w ⟨⟨mem.write base bytes, Function.update s.heap.live base (some layout)⟩, held, boxes⟩ := by
  have separate : Heap.Separate ⟨mem, Function.update s.heap.live base (some layout)⟩ :=
    inv.separate.allocates (.given keeps fits mapped)
  have same : ∀ b l, b ≠ base → s.heap.live b = some l → ∀ x ∈ Set.Ico b (b + l.size),
      mem.write base bytes x = s.heap.mem x := by
    intro b l differs live x member
    rw [separate.write (Function.update_self ..) (Nat.le_refl base) (by omega) differs
      (by simpa [differs] using live) member]
    exact keeps b l live x member
  refine ⟨separate, ?_, ?_, ?_, ?_, low, ?_⟩
  · funext b
    by_cases new : b = base
    · rw [new, State.given]
      simpa using own.symm
    · simpa [new, State.given, (others b new).1, (others b new).2] using congrFun inv.live b
  · intro b
    by_cases new : b = base
    · rw [new]
      exact one
    · simpa only [(others b new).1, (others b new).2] using inv.exclusive b
  · intro b l live
    by_cases new : b = base
    · subst new
      simp only [Function.update_self, Option.some.injEq] at live
      rwa [← live]
    · simp only [Function.update_of_ne new] at live
      exact inv.positive b l live
  · intro b l live
    by_cases new : b = base
    · subst new
      simp only [Function.update_self, Option.some.injEq] at live
      rw [← live]
      exact mapped.write
    · simp only [Function.update_of_ne new] at live
      exact (inv.mapped b l live).congr (same b l new live)
  · intro b size given
    by_cases new : b = base
    · subst new
      obtain ⟨rfl, rfl⟩ := header size given
      have within := fits.inside
      simp only [headered] at within
      exact ⟨fits.nonnull, fits.aligned, by omega, Memory.write_holds⟩
    · simp only [(others b new).2] at given
      obtain ⟨nonnull, aligned, within, _⟩ := inv.block b size given
      refine ⟨nonnull, aligned, within, inv.header given ?_⟩
      intro x ⟨from', to'⟩
      exact same b _ new (inv.live_held given) x ⟨from', by simp only [headered]; omega⟩

theorem Inv.loses (inv : Inv w s) {heap : Heap} {base : Nat} {held : Nat → Option Nat} {boxes : Nat → Option Layout}
    (released : s.heap.Releases base heap) (nobody : boxes base = none ∧ held (base + align) = none)
    (others : ∀ b ≠ base, boxes b = s.boxes b ∧ held (b + align) = s.held (b + align))
    (low : ∀ p size, held p = some size → align ≤ p) : Inv w ⟨heap, held, boxes⟩ := by
  have separate := inv.separate.releases released
  cases released with
  | @released mem keeps =>
    have dead : ∀ b l, Function.update s.heap.live base none b = some l → b ≠ base ∧ s.heap.live b = some l := by
      intro b l live
      by_cases gone : b = base
      · subst gone
        simp at live
      · exact ⟨gone, by simpa [gone] using live⟩
    have old : ∀ b size, held (b + align) = some size → b ≠ base ∧ s.held (b + align) = some size := by
      intro b size given
      have other : b ≠ base := by
        rintro rfl
        simp [nobody.2] at given
      exact ⟨other, by rw [← (others b other).2, given]⟩
    refine ⟨separate, ?_, ?_, ?_, ?_, low, ?_⟩
    · funext b
      by_cases gone : b = base
      · subst gone
        simp [State.given, nobody.1, nobody.2]
      · simpa [gone, State.given, (others b gone).1, (others b gone).2] using congrFun inv.live b
    · intro b
      by_cases gone : b = base
      · rw [gone]
        exact Or.inl nobody.1
      · simpa only [(others b gone).1, (others b gone).2] using inv.exclusive b
    · intro b l live
      exact inv.positive b l (dead b l live).2
    · intro b l live
      exact (inv.mapped b l (dead b l live).2).congr (keeps b l live)
    · intro b size given
      obtain ⟨other, before⟩ := old b size given
      obtain ⟨nonnull, aligned, within, _⟩ := inv.block b size before
      refine ⟨nonnull, aligned, within, inv.header before ?_⟩
      intro x ⟨from', to'⟩
      refine keeps b (headered size) ?_ x ⟨from', by simp only [headered]; omega⟩
      simpa [other] using inv.live_held before

/-- A store inside of a block that is given out gets through. -/
theorem Inv.stores (inv : Inv w s) {base offset : Nat} {layout : Layout} {bytes : List UInt8} {mem : Memory}
    (live : s.heap.live base = some layout) (within : offset + bytes.length ≤ layout.size)
    (stored : s.heap.mem.storeAll (base + offset) bytes = some mem) : mem = s.heap.mem.write (base + offset) bytes := by
  have room : s.heap.mem.Mapped (base + offset) bytes.length := by
    rintro x ⟨low, high⟩
    exact inv.mapped base layout live x ⟨by omega, by omega⟩
  exact Option.some.inj (stored.symm.trans (Memory.storeAll_eq room))

theorem Inv.not_box (inv : Inv w s) {base b size : Nat} {layout : Layout} (held : s.held (base + align) = some size)
    (box : s.boxes b = some layout) : base ≠ b := by
  rintro rfl
  rcases inv.exclusive base with gone | gone
  · exact nomatch gone.symm.trans box
  · exact nomatch gone.symm.trans held

theorem Inv.step (inv : Inv w s) (disciplined : Disciplined s a) (step : Step w s a t) : Inv w t := by
  cases step with
  | @malloc size ptr heap alloc _ contract returned =>
    rcases malloc_cases contract with ⟨mem, keeps, same⟩ | ⟨mem, base, keeps, fits, mapped, same⟩
    · cases same.symm.trans returned
      exact inv.keeps keeps
    · cases same.symm.trans returned
      have fresh := inv.unused (inv.fresh (by simp [headered, align]) fits)
      have room := w.bytes_le
      refine inv.gains (by simp [headered, align]) keeps fits mapped ?_ ?_ (Or.inl fresh.1) ?_ ?_ ?_
      · simp only [leBytes_length, headered, align]
        omega
      · simp [fresh.1]
      · intro size' given
        simp only [if_true, Option.some.injEq] at given
        exact given ▸ ⟨rfl, rfl⟩
      · intro b other
        simp [Ne.symm other]
      · intro p size' given
        simp only [Option.some.injEq] at given
        split_ifs at given with new
        · omega
        · exact inv.above p size' given
  | @free ptr heap dealloc contract returned =>
    cases ptr with
    | none =>
      cases returned
      simpa using inv
    | some p =>
      obtain ⟨size, held⟩ := Option.ne_none_iff_exists'.mp disciplined
      obtain ⟨live, calls⟩ := free_held inv held
      cases (calls dealloc).symm.trans returned
      have above := inv.above p size held
      have here : p - align + align = p := by omega
      have box := (inv.exclusive (p - align)).resolve_right (by simp [here, held])
      refine inv.loses (contract _ _ live) ⟨box, by simp [here]⟩ ?_ ?_
      · intro b other
        have apart : ¬ p = b + align := by omega
        simp [apart]
      · intro q size' given
        simp only [Option.some.injEq] at given
        split_ifs at given
        exact inv.above q size' given
  | @write ptr offset bytes mem stored =>
    obtain ⟨size, held, within⟩ := disciplined
    have above := inv.above ptr size held
    obtain ⟨base, rfl⟩ : ∃ base, ptr = base + align := ⟨ptr - align, by omega⟩
    have live := inv.live_held held
    have inside : align + offset + bytes.length ≤ (headered size).size := by
      simp only [headered]
      omega
    rw [Nat.add_assoc] at stored
    cases inv.stores live inside stored
    exact inv.write live (by omega) (by omega) (Or.inr (by omega))
  | @boxAlloc layout base heap positive answer =>
    cases answer with
    | refused keeps => simpa using inv.keeps keeps
    | @given mem base keeps fits mapped =>
      have fresh := inv.unused (inv.fresh positive fits)
      have gained : Inv w ⟨⟨mem.write base [], Function.update s.heap.live base (some layout)⟩, s.held,
          fun b => if some base = some b then some layout else s.boxes b⟩ := by
        refine inv.gains positive keeps fits mapped (Nat.zero_le _) (by simp) (Or.inr fresh.2) (by simp [fresh.2]) ?_
          inv.above
        intro b other
        simp [Ne.symm other]
      rwa [Memory.write_nil] at gained
  | @boxFree base layout dealloc contract =>
    have live := inv.live_box disciplined
    have held := (inv.exclusive base).resolve_left (by simp [show s.boxes base = some layout from disciplined])
    refine inv.loses (contract base layout live) ⟨Function.update_self .., held⟩ ?_ inv.above
    intro b other
    simp [other]
  | @boxWrite base offset bytes mem stored =>
    obtain ⟨layout, box, within⟩ := disciplined
    have live := inv.live_box box
    have held := (inv.exclusive base).resolve_left (by simp [box])
    cases inv.stores live within stored
    exact inv.write live (by omega) (by omega) (Or.inl held)

theorem Inv.sound (inv : Inv w s) : Sound w s where
  live := inv.live
  apart := by
    intro p q m n differ heldP heldQ
    have aboveP := inv.above p m heldP
    have aboveQ := inv.above q n heldQ
    have apart := inv.separate (p - align) (q - align) _ _ (by omega) (free_held inv heldP).1 (free_held inv heldQ).1
    simp only [headered] at apart
    omega
  block := by
    intro p size held
    have above := inv.above p size held
    obtain ⟨base, rfl⟩ : ∃ base, p = base + align := ⟨p - align, by omega⟩
    obtain ⟨nonnull, aligned, inside, _⟩ := inv.block base size held
    refine ⟨by omega, (Nat.dvd_add_right aligned).mpr (Nat.dvd_refl align), inside, ?_⟩
    rintro x ⟨low, high⟩
    exact inv.mapped base _ (inv.live_held held) x ⟨by omega, by simp only [headered]; omega⟩
  frees _ _ held := free_held inv held
  returns := by
    intro alloc size contract
    rcases @malloc_cases w alloc s.heap size contract with ⟨mem, _, same⟩ | ⟨mem, base, _, _, _, same⟩ <;> simp [same]

/-- The bytes of a block that a step neither writes to nor gives back. -/
theorem Inv.kept (inv : Inv w s) (disciplined : Disciplined s a) (step : Step w s a t) : Keeps s a t := by
  intro p size held notFreed notWritten
  have above := inv.above p size held
  obtain ⟨base, rfl⟩ : ∃ base, p = base + align := ⟨p - align, by omega⟩
  have live := inv.live_held held
  have inside : ∀ x ∈ Set.Ico (base + align) (base + align + size), x ∈ Set.Ico base (base + (headered size).size) := by
    rintro x ⟨low, high⟩
    exact ⟨by omega, by simp only [headered]; omega⟩
  cases step with
  | @malloc n ptr heap alloc _ contract returned =>
    rcases malloc_cases contract with ⟨mem, keeps, same⟩ | ⟨mem, new, keeps, fits, mapped, same⟩
    · cases same.symm.trans returned
      exact ⟨by simpa using held, fun x member => keeps base _ live x (inside x member)⟩
    · cases same.symm.trans returned
      have fresh := inv.fresh (by simp [headered, align]) fits
      have other : base ≠ new := by
        rintro rfl
        exact nomatch fresh.symm.trans live
      have room := w.bytes_le
      refine ⟨by simpa [Ne.symm other] using held, ?_⟩
      intro x member
      have separate := inv.separate.allocates (.given keeps fits mapped)
      rw [← keeps base _ live x (inside x member)]
      refine separate.write (Function.update_self ..) (Nat.le_refl new) ?_ other ?_ (inside x member)
      · simp only [leBytes_length, headered, align]
        omega
      · simpa [other] using live
  | @free ptr heap dealloc contract returned =>
    cases ptr with
    | none =>
      cases returned
      exact ⟨by simpa using held, fun _ _ => rfl⟩
    | some q =>
      obtain ⟨n, heldQ⟩ := Option.ne_none_iff_exists'.mp disciplined
      obtain ⟨liveQ, calls⟩ := free_held inv heldQ
      cases (calls dealloc).symm.trans returned
      have differ : q ≠ base + align := fun same => notFreed (by rw [same])
      have aboveQ := inv.above q n heldQ
      refine ⟨by simpa [differ] using held, ?_⟩
      intro x member
      exact (contract _ _ liveQ).keeps (by omega) live (inside x member)
  | @write ptr offset bytes mem stored =>
    obtain ⟨n, heldQ, within⟩ := disciplined
    have differ : ptr ≠ base + align := by
      rintro rfl
      exact notWritten offset bytes rfl
    have aboveQ := inv.above ptr n heldQ
    obtain ⟨b, rfl⟩ : ∃ b, ptr = b + align := ⟨ptr - align, by omega⟩
    have liveQ := inv.live_held heldQ
    rw [Nat.add_assoc] at stored
    cases inv.stores liveQ (by simp only [headered]; omega) stored
    refine ⟨held, fun x member => ?_⟩
    exact inv.separate.write liveQ (by omega) (by simp only [headered]; omega) (by omega) live (inside x member)
  | @boxAlloc layout new heap positive answer =>
    cases answer with
    | refused keeps => exact ⟨held, fun x member => keeps base _ live x (inside x member)⟩
    | given keeps fits mapped => exact ⟨held, fun x member => keeps base _ live x (inside x member)⟩
  | @boxFree b layout dealloc contract =>
    have other := inv.not_box held disciplined
    refine ⟨held, fun x member => ?_⟩
    exact (contract b layout (inv.live_box disciplined)).keeps other live (inside x member)
  | @boxWrite b offset bytes mem stored =>
    obtain ⟨layout, box, within⟩ := disciplined
    have liveB := inv.live_box box
    have other := inv.not_box held box
    cases inv.stores liveB within stored
    refine ⟨held, fun x member => ?_⟩
    exact inv.separate.write liveB (by omega) (by omega) other live (inside x member)

theorem boot_inv (mem : Memory) : Inv w (machine w mem).init where
  separate _ _ _ _ _ first := nomatch first
  live := rfl
  exclusive _ := Or.inl rfl
  positive _ _ live := nomatch live
  mapped _ _ live := nomatch live
  above _ _ held := nomatch held
  block _ _ held := nomatch held

/-- Callers that keep to their blocks find `malloc` and `free` sound in every run, next to
Rust code on the same heap: blocks are apart, nothing else writes to them, every block is
given back with the layout it was given out for, and none is lost. -/
theorem malloc_free_sound {mem : Memory} {tr : List Act} {s : State}
    (run : ((machine w mem).restrict Disciplined).Run tr s) :
    Sound w s ∧ (((machine w mem).restrict Disciplined).obey Keeps).Run tr s := by
  suffices Inv w s ∧ (((machine w mem).restrict Disciplined).obey Keeps).Run tr s from ⟨this.1.sound, this.2⟩
  induction run with
  | start => exact ⟨boot_inv mem, .start⟩
  | next _ taken ih =>
    obtain ⟨inv, lawful⟩ := ih
    exact ⟨inv.step taken.2 taken.1, lawful.next ⟨taken, inv.kept taken.2 taken.1⟩⟩

/-- Sixteen free bytes at address 64, and a heap that gives them out once. -/
def smallHeap : Memory := fun a => if 64 ≤ a ∧ a < 80 then some 0 else none

def giveOnce (heap : Heap) (layout : Layout) : Option Nat × Heap :=
  if heap.live 64 = none ∧ layout = ⟨10, 8⟩ then (some 64, ⟨heap.mem, Function.update heap.live 64 (some layout)⟩)
  else (none, heap)

def takeBack (heap : Heap) (base : Nat) (_ : Layout) : Heap := ⟨heap.mem, Function.update heap.live base none⟩

theorem takeBack_releases (heap : Heap) (base : Nat) (layout : Layout) : heap.Releases base (takeBack heap base layout) :=
  .released fun _ _ _ _ _ => rfl

theorem giveOnce_allocates (layout : Layout) :
    Heap.Allocates ⟨smallHeap, fun _ => none⟩ (2 ^ 32) layout (giveOnce ⟨smallHeap, fun _ => none⟩ layout) := by
  unfold giveOnce
  split
  · rename_i fits
    obtain ⟨_, rfl⟩ := fits
    refine .given (fun _ _ given => nomatch given) ⟨by decide, by decide, by decide, fun _ _ given => nomatch given⟩ ?_
    rintro x ⟨low, high⟩
    simp only at high
    have inside : 64 ≤ x ∧ x < 80 := ⟨low, by omega⟩
    simp [smallHeap, inside]
  · exact .refused fun _ _ given => nomatch given

theorem malloc_free_sound_two_bytes :
    ∃ s, ((machine .w32 smallHeap).restrict Disciplined).Run
        [.malloc 2 (some 72), .write 72 0 [7, 9], .free (some 72)] s ∧ Sound .w32 s ∧ s.heap.live 64 = none := by
  obtain ⟨s₁, given, held⟩ : ∃ s, ((machine .w32 smallHeap).restrict Disciplined).Run [.malloc 2 (some 72)] s ∧
      s.held 72 = some 2 :=
    ⟨_, .next .start ⟨Step.malloc giveOnce (by decide) (fun layout _ => giveOnce_allocates layout) rfl, trivial⟩, rfl⟩
  have mapped : s₁.heap.mem.Mapped (72 + 0) [7, 9].length := ((malloc_free_sound given).1.block 72 2 held).2.2.2
  have write : Step .w32 s₁ (.write 72 0 [7, 9]) _ := .write (Memory.storeAll_eq mapped)
  have written := given.next ⟨write, 2, held, by decide⟩
  have frees := ((malloc_free_sound written).1.frees 72 2 held).2 takeBack
  have free := Step.free takeBack (fun base layout _ => takeBack_releases _ base layout) frees
  have freed := written.next ⟨free, by simp [Disciplined, held]⟩
  exact ⟨_, freed, (malloc_free_sound freed).1, rfl⟩

end Libcsp.EmbassyArch
