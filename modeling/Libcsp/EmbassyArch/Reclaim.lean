import Libcsp.EmbassyArch.Queues

namespace Libcsp.EmbassyArch.Queues
open Sys

variable {w : PointerWidth}

/-- The block at `p` is somebody else's: they have asked for it and not given it back since. -/
def Others (p : Nat) : List Act → Prop :=
  Since (fun act => ∃ size, act = .other (.malloc size (some p))) (· = .other (.free (some p)))

def OthersBox (base : Nat) : List Act → Prop :=
  Since (fun act => ∃ layout, act = .other (.boxAlloc layout (some base))) (fun act => ∃ layout, act = .other (.boxFree base layout))

/-- What is held is the queues', or somebody else's. -/
structure NoLeak (tr : List Act) (s : State) : Prop where
  buffers : ∀ p, s.arch.held p ≠ none → s.Owns p ∨ Others p tr
  boxes : ∀ base, s.arch.boxes base ≠ none → s.slots base ≠ none ∨ OthersBox base tr

theorem held_after {s t : EmbassyArch.State} {a : EmbassyArch.Act} (step : EmbassyArch.Step w s a t) {p : Nat}
    (held : t.held p ≠ none) : (s.held p ≠ none ∧ a ≠ .free (some p)) ∨ ∃ size, a = .malloc size (some p) := by
  cases step with
  | @malloc size ptr heap alloc _ contract returned =>
    by_cases new : ptr = some p
    · exact .inr ⟨size, by rw [new]⟩
    · exact .inl ⟨by simpa [new] using held, nofun⟩
  | @free ptr heap dealloc contract returned =>
    by_cases gone : ptr = some p
    · simp [gone] at held
    · exact .inl ⟨by simpa [gone] using held, by simpa using gone⟩
  | write => exact .inl ⟨held, nofun⟩
  | boxAlloc => exact .inl ⟨held, nofun⟩
  | boxFree => exact .inl ⟨held, nofun⟩
  | boxWrite => exact .inl ⟨held, nofun⟩

theorem boxes_after {s t : EmbassyArch.State} {a : EmbassyArch.Act} (step : EmbassyArch.Step w s a t) {base : Nat}
    (box : t.boxes base ≠ none) :
    (s.boxes base ≠ none ∧ ∀ layout, a ≠ .boxFree base layout) ∨ ∃ layout, a = .boxAlloc layout (some base) := by
  cases step with
  | malloc => exact .inl ⟨box, fun _ => nofun⟩
  | free => exact .inl ⟨box, fun _ => nofun⟩
  | write => exact .inl ⟨box, fun _ => nofun⟩
  | @boxAlloc layout new heap positive answer =>
    by_cases same : new = some base
    · exact .inr ⟨layout, by rw [same]⟩
    · exact .inl ⟨by simpa [same] using box, fun _ => nofun⟩
  | @boxFree b layout dealloc contract =>
    have other : base ≠ b := by
      rintro rfl
      exact box (Function.update_self ..)
    refine .inl ⟨by simpa [other] using box, ?_⟩
    intro layout' same
    exact other (EmbassyArch.Act.boxFree.inj same).1.symm
  | boxWrite => exact .inl ⟨box, fun _ => nofun⟩

/-- Nothing is lost in a step of the heap, if what the queues give up is given back and what
they get is theirs. -/
theorem NoLeak.arch_step {tr : List Act} {s t : State} {act : Act} {a : EmbassyArch.Act} (kept : NoLeak tr s)
    (step : EmbassyArch.Step w s.arch a t.arch)
    (buffers : ∀ p, s.Owns p → t.Owns p ∨ a = .free (some p))
    (boxes : ∀ base, s.slots base ≠ none → t.slots base ≠ none ∨ ∃ layout, a = .boxFree base layout)
    (malloc : ∀ size p, a = .malloc size (some p) → t.Owns p ∨ act = .other a)
    (boxAlloc : ∀ layout base, a = .boxAlloc layout (some base) → t.slots base ≠ none ∨ act = .other a)
    (others : ∀ b, act = .other b → b = a) : NoLeak (tr ++ [act]) t := by
  refine ⟨?_, ?_⟩
  · intro p held
    obtain ⟨before, stays⟩ | ⟨size, new⟩ := held_after step held
    · obtain owns | lent := kept.buffers p before
      · exact .inl ((buffers p owns).resolve_right stays)
      · refine .inr (lent.on ?_)
        intro gives
        exact stays (others _ gives).symm
    · obtain owns | same := malloc size p new
      · exact .inl owns
      · exact .inr (.now ⟨size, by rw [same, new]⟩ tr)
  · intro base box
    obtain ⟨before, stays⟩ | ⟨layout, new⟩ := boxes_after step box
    · obtain present | lent := kept.boxes base before
      · refine .inl ((boxes base present).resolve_right ?_)
        rintro ⟨layout, same⟩
        exact stays layout same
      · refine .inr (lent.on ?_)
        rintro ⟨layout, gives⟩
        exact stays layout (others _ gives).symm
    · obtain present | same := boxAlloc layout base new
      · exact .inl present
      · exact .inr (.now ⟨layout, by rw [same, new]⟩ tr)

theorem State.Owns.update {s : State} {arch : EmbassyArch.State} {queue p : Nat} {slot after : Slot}
    (found : s.slots queue = some slot) (owns : s.Owns p)
    (same : slot.buffer? = some p → after.buffer? = some p) :
    ({ s with arch, slots := Function.update s.slots queue (some after) } : State).Owns p := by
  obtain pending | ⟨queue', slot', at', ends⟩ := owns
  · exact .inl pending
  · by_cases own : queue' = queue
    · subst own
      cases found.symm.trans at'
      exact .inr ⟨queue', after, Function.update_self .., same ends⟩
    · exact .inr ⟨queue', slot', by rw [← at']; exact Function.update_of_ne own .., ends⟩

/-- A step that neither takes nor gives back memory. -/
theorem NoLeak.in_place {tr : List Act} {s : State} {act : Act} {arch : EmbassyArch.State} {queue : Nat}
    {slot after : Slot} (kept : NoLeak tr s) (found : s.slots queue = some slot)
    (same : arch.held = s.arch.held ∧ arch.boxes = s.arch.boxes) (buffer : after.buffer? = slot.buffer?)
    (own : ∀ a, act ≠ .other a) :
    NoLeak (tr ++ [act]) { s with arch, slots := Function.update s.slots queue (some after) } := by
  obtain ⟨held, boxes⟩ := same
  refine ⟨?_, ?_⟩
  · intro p given
    rw [held] at given
    obtain owns | lent := kept.buffers p given
    · exact .inl (owns.update found fun ends => by rw [buffer, ends])
    · exact .inr (lent.on (own _))
  · intro base given
    rw [boxes] at given
    obtain present | lent := kept.boxes base given
    · left
      by_cases same : base = queue
      · simp [same]
      · simpa [same] using present
    · exact .inr (lent.on fun ⟨_, gives⟩ => own _ gives)

theorem NoLeak.unchanged {tr : List Act} {s : State} {act : Act} (kept : NoLeak tr s) (own : ∀ a, act ≠ .other a) :
    NoLeak (tr ++ [act]) s := by
  refine ⟨?_, ?_⟩
  · intro p given
    exact (kept.buffers p given).imp_right fun lent => lent.on (own _)
  · intro base given
    exact (kept.boxes base given).imp_right fun lent => lent.on fun ⟨_, gives⟩ => own _ gives

theorem NoLeak.step {queueLayout : Layout} {tr : List Act} {s t : State} {a : Act} {fifos : Nat → Option Fifo}
    (kept : NoLeak tr s) (rel : Rel w queueLayout s fifos) (step : Step w queueLayout s a t) :
    NoLeak (tr ++ [a]) t := by
  cases step with
  | refused step =>
    exact kept.arch_step step (fun _ owns => .inl owns) (fun _ present => .inl present) nofun nofun nofun
  | @buffer length itemSize ptr arch _ _ step =>
    refine kept.arch_step step ?_ (fun _ present => .inl present) ?_ nofun nofun
    · intro p owns
      left
      obtain pending | queued := owns
      · left
        by_cases new : p = ptr
        · simp [new]
        · simpa [new] using pending
      · exact .inr queued
    · intro size p same
      cases same
      exact .inl (.inl (by simp))
  | @create length itemSize ptr queue arch pending step =>
    have unused := rel.unused step
    refine kept.arch_step step ?_ ?_ nofun ?_ nofun
    · intro p owns
      left
      obtain waiting | ⟨queue', slot, at', ends⟩ := owns
      · by_cases own : p = ptr
        · rw [own]
          exact .inr ⟨queue, _, Function.update_self .., rfl⟩
        · left
          simpa [own] using waiting
      · have other : queue' ≠ queue := by
          rintro rfl
          exact unused slot at'
        exact .inr ⟨queue', slot, by rw [← at']; exact Function.update_of_ne other .., ends⟩
    · intro base present
      left
      by_cases own : base = queue
      · simp [own]
      · simpa [own] using present
    · intro layout base same
      cases same
      exact .inl (by simp)
  | enqueue returned =>
    obtain rfl | ⟨p, q, q', mem, found, buffer, rfl⟩ := queueEnqueue_cases returned
    · exact kept.unchanged nofun
    · exact kept.in_place found ⟨rfl, rfl⟩ (congrArg some buffer) nofun
  | dequeue returned =>
    obtain rfl | ⟨p, q, q', found, buffer, rfl⟩ := queueDequeue_cases returned
    · exact kept.unchanged nofun
    · exact kept.in_place found ⟨rfl, rfl⟩ (congrArg some buffer) nofun
  | size => exact kept.unchanged nofun
  | removeNull => exact kept.unchanged nofun
  | remove found => exact kept.in_place found ⟨rfl, rfl⟩ rfl nofun
  | @free queue buffer arch found step =>
    refine kept.arch_step step ?_ ?_ nofun nofun nofun
    · intro p owns
      by_cases own : p = buffer
      · exact .inr (by rw [own])
      · refine .inl (owns.update found ?_)
        intro ends
        exact absurd (Option.some.inj ends).symm own
    · intro base present
      left
      by_cases own : base = queue
      · simp [own]
      · simpa [own] using present
  | @drop queue arch found step =>
    refine kept.arch_step step ?_ ?_ nofun nofun nofun
    · intro p owns
      left
      obtain waiting | ⟨queue', slot, at', ends⟩ := owns
      · exact .inl waiting
      · have other : queue' ≠ queue := by
          rintro rfl
          cases found.symm.trans at'
          exact nomatch ends
        exact .inr ⟨queue', slot, by rw [← at']; exact Function.update_of_ne other .., ends⟩
    · intro base present
      by_cases own : base = queue
      · exact .inr ⟨queueLayout, by rw [own]⟩
      · left
        simpa [own] using present
  | other step =>
    exact kept.arch_step step (fun _ owns => .inl owns) (fun _ present => .inl present) (fun _ _ _ => .inr rfl)
      (fun _ _ _ => .inr rfl) fun _ same => (Act.other.inj same).symm

/-- Whatever interleaves, each queue in the heap answers like a list of its own, every call
that may be made comes back, and nothing is held that is not a queue's or somebody else's. -/
theorem queues_refine_fifos {queueLayout : Layout} {mem : Memory} {tr : List Act} {s : State}
    (run : ((machine w queueLayout mem).restrict (Disciplined w)).Run tr s) :
    (∃ fifos, Fifo.machine.Run (tr.filterMap Act.seen?) fifos ∧
      ∀ queue, (∃ q, s.slots queue = some (.live q)) ↔ fifos queue ≠ none) ∧ Serves w s ∧ NoLeak tr s := by
  obtain ⟨fifos, above, rel⟩ := (simulates w queueLayout mem).run run
  refine ⟨⟨fifos, above, ?_⟩, rel.serves, ?_⟩
  · intro queue
    constructor
    · rintro ⟨q, found⟩
      obtain ⟨-, f, meant, -⟩ := rel.live queue q found
      simp [meant]
    · intro meant
      by_contra dead
      exact meant (rel.gone queue fun q found => dead ⟨q, found⟩)
  · clear above rel fifos
    induction run with
    | start => exact ⟨fun _ held => absurd rfl held, fun _ box => absurd rfl box⟩
    | next before taken ih =>
      obtain ⟨fifos, -, rel⟩ := (simulates w queueLayout mem).run before
      exact ih.step rel taken.1

/-- Room for a block of `malloc` at 64 and for a box at 128. -/
def twoBlocks : Memory := fun a => if 64 ≤ a ∧ a < 80 ∨ 128 ≤ a ∧ a < 152 then some 0 else none

theorem giveOnce_allocates_two (layout : Layout) :
    Heap.Allocates ⟨twoBlocks, fun _ => none⟩ (2 ^ 32) layout (giveOnce ⟨twoBlocks, fun _ => none⟩ layout) := by
  unfold giveOnce
  split
  · rename_i fits
    obtain ⟨_, rfl⟩ := fits
    refine .given (fun _ _ given => nomatch given) ⟨by decide, by decide, by decide, fun _ _ given => nomatch given⟩ ?_
    rintro x ⟨low, high⟩
    simp only at high
    have inside : 64 ≤ x ∧ x < 80 := ⟨low, by omega⟩
    simp [twoBlocks, inside]
  · exact .refused fun _ _ given => nomatch given

/-- A queue for two items of a byte: one goes in and comes out again. -/
def storedAndTaken : List Act :=
  [.buffer 2 1 72, .create 2 1 (some 128), .enqueue (some 128) (some [7]) true,
    .dequeue (some 128) (some [0]) true (some [7])]

/-- The queue is made from what the heap has. -/
theorem created_run : ∃ s, ((machine .w32 ⟨24, 4⟩ twoBlocks).restrict (Disciplined .w32)).Run (storedAndTaken.take 2) s ∧
    s.slots 128 = some (.live (.new 72 2 1)) ∧
    Rel .w32 ⟨24, 4⟩ s (Function.update (fun _ => none) 128 (some ⟨2, 1, []⟩)) := by
  have malloc := @EmbassyArch.Step.malloc .w32 (EmbassyArch.machine .w32 twoBlocks).init 2 _ _ giveOnce (by decide)
    (fun layout _ => giveOnce_allocates_two layout) rfl
  obtain ⟨s, run, rel, pending, live, mapped⟩ : ∃ s,
      ((machine .w32 ⟨24, 4⟩ twoBlocks).restrict (Disciplined .w32)).Run [.buffer 2 1 72] s ∧
      Rel .w32 ⟨24, 4⟩ s (fun _ => none) ∧
      s.pending 72 = some (2, 1) ∧ s.arch.heap.live = Function.update (fun _ => none) 64 (some ⟨10, 8⟩) ∧
      s.arch.heap.mem.Mapped 128 24 := by
    refine ⟨_, .next .start ⟨.buffer (by decide) (by decide) malloc, trivial⟩,
      (rel_init .w32 ⟨24, 4⟩ twoBlocks).buffer_step (by decide) malloc, rfl, rfl, ?_⟩
    rintro x ⟨low, high⟩
    simp (disch := omega) only [Function.update_of_ne]
    have inside : 128 ≤ x ∧ x < 152 := ⟨low, high⟩
    simp [EmbassyArch.machine, twoBlocks, inside]
  have fits : s.arch.heap.Fits (2 ^ 32) ⟨24, 4⟩ 128 := by
    refine ⟨by decide, by decide, by decide, ?_⟩
    intro other l given
    rw [live] at given
    by_cases first : other = 64
    · subst first
      rw [Function.update_self] at given
      cases given
      exact .inr (by decide)
    · rw [Function.update_of_ne first] at given
      exact nomatch given
  have box := @EmbassyArch.Step.boxAlloc .w32 s.arch ⟨24, 4⟩ _ _ (by decide)
    (.given (Heap.KeepsBlocks.refl _) fits mapped)
  exact ⟨_, run.next ⟨.create pending box, trivial⟩, by simp, (rel.create_step pending box).2⟩

theorem queues_refine_fifos_two_bytes :
    ∃ s, ((machine .w32 ⟨24, 4⟩ twoBlocks).restrict (Disciplined .w32)).Run storedAndTaken s ∧ Serves .w32 s ∧
      NoLeak storedAndTaken s := by
  obtain ⟨s, created, found, rel⟩ := created_run
  obtain ⟨f, s₁, meant, stores, rel₁⟩ := @Rel.enqueue_step _ _ _ _ rel _ _ [7] found (by decide) (by decide)
  rw [Function.update_self] at meant
  cases meant
  have stored := created.next ⟨Step.enqueue stores, _, found, by decide, by decide⟩
  obtain ⟨q, found₁⟩ : ∃ q, s₁.slots 128 = some (.live q) := by
    by_contra dead
    have gone := rel₁.gone 128 fun q found => dead ⟨q, found⟩
    rw [Function.update_self] at gone
    exact nomatch gone
  obtain ⟨-, f₁, meant₁, meets⟩ := rel₁.live 128 q found₁
  rw [Function.update_self] at meant₁
  cases meant₁
  have byte : q.itemSize ≤ 1 := by
    cases meets with
    | stored ring => exact Nat.le_of_eq ring.itemSize.symm
    | unused _ _ empty => exact nomatch empty
  obtain ⟨f₂, s₂, meant₂, takes, -⟩ := rel₁.dequeue_step found₁ [0]
  rw [Function.update_self] at meant₂
  cases meant₂
  have taken : ((machine .w32 ⟨24, 4⟩ twoBlocks).restrict (Disciplined .w32)).Run storedAndTaken s₂ :=
    stored.next ⟨Step.dequeue takes, _, found₁, byte⟩
  obtain ⟨-, serves, noLeak⟩ := queues_refine_fifos taken
  exact ⟨_, taken, serves, noLeak⟩

end Libcsp.EmbassyArch.Queues
