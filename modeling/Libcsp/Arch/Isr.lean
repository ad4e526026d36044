import Libcsp.Arch

namespace Libcsp
open Sys

variable {σ : Type}

/-- The time methods of `CspArch`, with the defaults of the trait. What a method reads
and changes is the world `σ`. -/
structure CspArchTime (σ : Type) where
  getMs : σ → UInt32 × σ
  getS : σ → UInt32 × σ
  getMsIsr : σ → UInt32 × σ := getMs
  getUptimeS : σ → UInt32 × σ := getS

/-- The methods of `CspArch` behind the symbols that are called from interrupts. Pointers
are addresses; what they point to is part of the world. -/
structure CspArch (σ : Type) extends CspArchTime σ where
  binSemPost : σ → (sem : Nat) → Bool × σ
  binSemPostIsr : σ → (sem taskWoken : Nat) → Bool × σ := fun s sem _ => binSemPost s sem
  queueEnqueue : σ → (queue item : Nat) → (timeout : UInt32) → Bool × σ
  queueEnqueueIsr : σ → (queue item taskWoken : Nat) → Bool × σ := fun s queue item _ => queueEnqueue s queue item 0
  queueDequeue : σ → (queue item : Nat) → (timeout : UInt32) → Bool × σ
  queueDequeueIsr : σ → (queue item taskWoken : Nat) → Bool × σ := fun s queue item _ => queueDequeue s queue item 0
  queueSize : σ → (queue : Nat) → Nat × σ
  queueSizeIsr : σ → (queue : Nat) → Nat × σ := queueSize

/-- A method that returns a `bool`, as its symbol returns it to C. -/
def shimReturn (r : Bool × σ) : Int × σ := (shimCode r.1, r.2)

def cspGetMsIsr (A : CspArch σ) (s : σ) : UInt32 × σ := A.getMsIsr s

/-- The slot `sem` points to is given by the handle in it; `none` is a null pointer. -/
def cspBinSemPostIsr (A : CspArch σ) (s : σ) (sem : Option Nat) (_px : Nat) : Int × σ :=
  match sem with
  | none => (-1, s)
  | some sem => shimReturn (A.binSemPost s sem)

def cspQueueEnqueueIsr (A : CspArch σ) (s : σ) (queue item _px : Nat) : Int × σ :=
  shimReturn (A.queueEnqueue s queue item 0)

def cspQueueDequeueIsr (A : CspArch σ) (s : σ) (queue item _px : Nat) : Int × σ :=
  shimReturn (A.queueDequeue s queue item 0)

def cspQueueSizeIsr (A : CspArch σ) (s : σ) (queue : Nat) : Int × σ :=
  (asI32 (A.queueSize s queue).1, (A.queueSize s queue).2)

/-- The C call does what the method does, and returns 0 iff the method returns `true`. -/
def BehavesAs (call : Int × σ) (method : Bool × σ) : Prop :=
  (call.1 = 0 ↔ method.1 = true) ∧ call.2 = method.2

/-- Every symbol for interrupts behaves as the implementation's own method. -/
structure HonoursIsr (A : CspArch σ) : Prop where
  getMs : ∀ s, cspGetMsIsr A s = A.getMsIsr s
  post : ∀ s sem px, BehavesAs (cspBinSemPostIsr A s (some sem) px) (A.binSemPostIsr s sem px)
  enqueue : ∀ s queue item px, BehavesAs (cspQueueEnqueueIsr A s queue item px) (A.queueEnqueueIsr s queue item px)
  dequeue : ∀ s queue item px, BehavesAs (cspQueueDequeueIsr A s queue item px) (A.queueDequeueIsr s queue item px)
  size : ∀ s queue, cspQueueSizeIsr A s queue = (asI32 (A.queueSizeIsr s queue).1, (A.queueSizeIsr s queue).2)

/-- The implementation does in its methods for interrupts what the trait's defaults
would do, as far as an `int` can tell for the size. -/
structure LikeDefaults (A : CspArch σ) : Prop where
  post : ∀ s sem px, A.binSemPostIsr s sem px = A.binSemPost s sem
  enqueue : ∀ s queue item px, A.queueEnqueueIsr s queue item px = A.queueEnqueue s queue item 0
  dequeue : ∀ s queue item px, A.queueDequeueIsr s queue item px = A.queueDequeue s queue item 0
  size : ∀ s queue, (A.queueSizeIsr s queue).1 % 2 ^ 32 = (A.queueSize s queue).1 % 2 ^ 32 ∧
    (A.queueSizeIsr s queue).2 = (A.queueSize s queue).2

theorem behavesAs_shimReturn {r method : Bool × σ} : BehavesAs (shimReturn r) method ↔ method = r := by
  obtain ⟨ok, s⟩ := r
  obtain ⟨ok', s'⟩ := method
  simp only [BehavesAs, shimReturn, shimCode, Prod.mk.injEq]
  constructor
  · rintro ⟨code, rfl⟩
    cases ok <;> cases ok' <;> simp_all
  · rintro ⟨rfl, rfl⟩
    cases ok' <;> simp

theorem asI32_eq_iff {a b : Nat} : asI32 a = asI32 b ↔ b % 2 ^ 32 = a % 2 ^ 32 := by
  unfold asI32
  rw [Int.bmod_eq_bmod_iff_bmod_sub_eq_zero]
  rw [Int.bmod_def]
  split <;> omega

/-- The symbols that `export_arch!` emits for interrupts honour an implementation
exactly when its own methods for interrupts do what the defaults would do. -/
theorem isr_honoured_iff (A : CspArch σ) : HonoursIsr A ↔ LikeDefaults A := by
  constructor
  · intro honours
    refine ⟨?_, ?_, ?_, ?_⟩
    · intro s sem px
      exact behavesAs_shimReturn.mp (honours.post s sem px)
    · intro s queue item px
      exact behavesAs_shimReturn.mp (honours.enqueue s queue item px)
    · intro s queue item px
      exact behavesAs_shimReturn.mp (honours.dequeue s queue item px)
    · intro s queue
      have same := honours.size s queue
      simp only [cspQueueSizeIsr, Prod.mk.injEq] at same
      exact ⟨asI32_eq_iff.mp same.1, same.2.symm⟩
  · intro like
    refine ⟨fun _ => rfl, ?_, ?_, ?_, ?_⟩
    · intro s sem px
      exact behavesAs_shimReturn.mpr (like.post s sem px)
    · intro s queue item px
      exact behavesAs_shimReturn.mpr (like.enqueue s queue item px)
    · intro s queue item px
      exact behavesAs_shimReturn.mpr (like.dequeue s queue item px)
    · intro s queue
      obtain ⟨count, world⟩ := like.size s queue
      simp only [cspQueueSizeIsr, asI32_eq_iff.mpr count, world]

/-- An RTOS whose blocking calls fail inside an interrupt, which is what the world says,
and which has calls of its own for interrupts. -/
def rtos : CspArch Bool where
  getMs inIsr := (0, inIsr)
  getS inIsr := (0, inIsr)
  binSemPost inIsr _ := (!inIsr, inIsr)
  binSemPostIsr inIsr _ _ := (true, inIsr)
  queueEnqueue inIsr _ _ _ := (!inIsr, inIsr)
  queueEnqueueIsr inIsr _ _ _ := (true, inIsr)
  queueDequeue inIsr _ _ _ := (!inIsr, inIsr)
  queueDequeueIsr inIsr _ _ _ := (true, inIsr)
  queueSize inIsr _ := (0, inIsr)

theorem isr_override_ignored : ¬ HonoursIsr rtos ∧
    (rtos.queueEnqueueIsr true 1 2 3).1 = true ∧ (cspQueueEnqueueIsr rtos true 1 2 3).1 = -1 := by
  refine ⟨?_, rfl, rfl⟩
  intro honours
  have same := (honours.enqueue true 1 2 3).1
  exact absurd (same.mpr rfl) (by decide)

end Libcsp
