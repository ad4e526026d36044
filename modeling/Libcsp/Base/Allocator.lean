import Libcsp.Base.Memory

namespace Sys

structure Layout where
  size : Nat
  align : Nat
  deriving DecidableEq, Repr

/-- A heap as its clients know it: the memory and the blocks that are given out. What it
keeps in the rest of the memory is its own affair. -/
structure Heap where
  mem : Memory
  live : Nat → Option Layout

namespace Heap

/-- What is in the blocks given out of `heap` is left alone. -/
def KeepsBlocks (heap : Heap) (mem : Memory) : Prop :=
  ∀ base layout, heap.live base = some layout → ∀ a ∈ Set.Ico base (base + layout.size), mem a = heap.mem a

/-- A new block for `layout`, somewhere in the first `space` addresses. -/
structure Fits (heap : Heap) (space : Nat) (layout : Layout) (base : Nat) : Prop where
  nonnull : base ≠ 0
  aligned : layout.align ∣ base
  inside : base + layout.size ≤ space
  apart : ∀ other l, heap.live other = some l → base + layout.size ≤ other ∨ other + l.size ≤ base

/-- What an allocator may do for `layout`. -/
inductive Allocates (heap : Heap) (space : Nat) (layout : Layout) : Option Nat × Heap → Prop
  | refused {mem} : heap.KeepsBlocks mem → Allocates heap space layout (none, ⟨mem, heap.live⟩)
  | given {mem base} : heap.KeepsBlocks mem → heap.Fits space layout base → mem.Mapped base layout.size →
      Allocates heap space layout (some base, ⟨mem, Function.update heap.live base (some layout)⟩)

/-- What an allocator may do with a block that is given back with the layout it was
given out for. -/
inductive Releases (heap : Heap) (base : Nat) : Heap → Prop
  | released {mem} : KeepsBlocks ⟨heap.mem, Function.update heap.live base none⟩ mem →
      Releases heap base ⟨mem, Function.update heap.live base none⟩

/-- Blocks given out do not share addresses. -/
def Separate (heap : Heap) : Prop :=
  ∀ b₁ b₂ l₁ l₂, b₁ ≠ b₂ → heap.live b₁ = some l₁ → heap.live b₂ = some l₂ →
    b₁ + l₁.size ≤ b₂ ∨ b₂ + l₂.size ≤ b₁

theorem KeepsBlocks.refl (heap : Heap) : heap.KeepsBlocks heap.mem := fun _ _ _ _ _ => rfl

/-- A write into one block leaves the others. -/
theorem Separate.write {heap : Heap} (separate : heap.Separate) {base p : Nat} {layout : Layout} {bytes : List UInt8}
    (block : heap.live base = some layout) (lower : base ≤ p) (upper : p + bytes.length ≤ base + layout.size)
    {other : Nat} {l : Layout} (differs : other ≠ base) (given : heap.live other = some l) {a : Nat}
    (member : a ∈ Set.Ico other (other + l.size)) : heap.mem.write p bytes a = heap.mem a := by
  refine Memory.write_of_notMem ?_
  rintro ⟨above, below⟩
  have apart := separate other base l layout differs given block
  obtain ⟨low, high⟩ := member
  omega

theorem Separate.allocates {heap heap' : Heap} (separate : heap.Separate) {space : Nat} {layout : Layout} {result : Option Nat}
    (answer : heap.Allocates space layout (result, heap')) : heap'.Separate := by
  cases answer with
  | refused _ => exact separate
  | @given mem base _ fits _ =>
    intro b₁ b₂ l₁ l₂ differ first second
    simp only [Function.update_apply] at first second
    split_ifs at first second with same₁ same₂ same₂
    · exact absurd (same₁.trans same₂.symm) differ
    · cases first
      rw [same₁]
      exact fits.apart b₂ l₂ second
    · cases second
      rw [same₂]
      exact (fits.apart b₁ l₁ first).symm
    · exact separate b₁ b₂ l₁ l₂ differ first second

theorem Separate.releases {heap heap' : Heap} (separate : heap.Separate) {base : Nat} (released : heap.Releases base heap') :
    heap'.Separate := by
  cases released
  intro b₁ b₂ l₁ l₂ differ first second
  simp only [Function.update_apply] at first second
  split_ifs at first second
  exact separate b₁ b₂ l₁ l₂ differ first second

theorem Releases.keeps {heap heap' : Heap} {base : Nat} (released : heap.Releases base heap') {b : Nat} {l : Layout}
    (other : b ≠ base) (live : heap.live b = some l) {x : Nat} (member : x ∈ Set.Ico b (b + l.size)) :
    heap'.mem x = heap.mem x := by
  cases released with
  | released keeps => exact keeps b l (by simpa [other] using live) x member

end Heap

end Sys
