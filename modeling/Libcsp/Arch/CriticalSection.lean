import Libcsp.Queue.Ring
import Mathlib.Data.Multiset.AddSub

namespace Libcsp.CriticalSection
open Sys

variable {μ : Type} [DecidableEq μ] {capacity itemSize : Nat}

/-- The interrupt mask and a queue of the embassy example. `held` is what the callers hold,
which no code records: a mutex is a marker. `saved` is the mask that `interrupt::free`
found, while a queue operation is inside it. -/
structure State (μ : Type) (capacity itemSize : Nat) where
  masked : Bool
  held : Multiset μ
  saved : Option Bool
  queue : Queue.Ring capacity itemSize

/-- `EmbassyArch::mutex_lock`: `interrupt::disable`, whatever the mutex. -/
def mutexLock (s : State μ capacity itemSize) (m : μ) : State μ capacity itemSize :=
  { s with masked := true, held := m ::ₘ s.held }

/-- `EmbassyArch::mutex_unlock`: `interrupt::enable`, whatever the mutex. -/
def mutexUnlock (s : State μ capacity itemSize) (m : μ) : State μ capacity itemSize :=
  { s with masked := false, held := s.held.erase m }

/-- The two ends of `interrupt::free`. Leaving enables interrupts if entering found them
enabled, and does nothing otherwise. -/
def enterFree (s : State μ capacity itemSize) : State μ capacity itemSize :=
  { s with masked := true, saved := some s.masked }

def leaveFree (s : State μ capacity itemSize) (was : Bool) : State μ capacity itemSize :=
  { s with masked := if was then s.masked else false, saved := none }

inductive Act (μ : Type)
  | lock (m : μ)
  | unlock (m : μ)
  | enter
  | enqueue
  | dequeue
  | leave

inductive Step : State μ capacity itemSize → Act μ → State μ capacity itemSize → Prop
  | lock {s} (m : μ) : s.saved = none → Step s (.lock m) (mutexLock s m)
  | unlock {s} (m : μ) : s.saved = none → m ∈ s.held → Step s (.unlock m) (mutexUnlock s m)
  | enter {s} : s.saved = none → Step s .enter (enterFree s)
  | enqueue {s was} (item : Buffer itemSize) : s.saved = some was →
      Step s .enqueue { s with queue := (s.queue.enqueue item).2 }
  | dequeue {s was} (item : Buffer itemSize) : s.saved = some was →
      Step s .dequeue { s with queue := (s.queue.dequeue item).2.2 }
  | leave {s was} : s.saved = some was → Step s .leave (leaveFree s was)

def machine (μ : Type) [DecidableEq μ] (masked : Bool) (queue : Queue.Ring capacity itemSize) :
    Machine (State μ capacity itemSize) (Act μ) where
  init := ⟨masked, 0, none, queue⟩
  step := Step

/-- Interrupts are off while anything is held, and on again when nothing is, if they were
on at the start. -/
structure Protected (maskedAtStart : Bool) (s : State μ capacity itemSize) : Prop where
  holders : s.held ≠ 0 → s.masked = true
  restored : s.held = 0 → s.saved = none → maskedAtStart = false → s.masked = false

/-- What is unlocked is all that is held. -/
def Alone (s : State μ capacity itemSize) : Act μ → Prop
  | .unlock m => s.held = {m}
  | _ => True

/-- `Protected`, and the mask that a queue operation will restore fits the holders. -/
structure Inv (maskedAtStart : Bool) (s : State μ capacity itemSize) : Prop extends Protected maskedAtStart s where
  inside : ∀ was, s.saved = some was → s.masked = true ∧ (s.held ≠ 0 → was = true) ∧
    (s.held = 0 → maskedAtStart = false → was = false)

variable {maskedAtStart : Bool} {s t : State μ capacity itemSize} {a : Act μ}

theorem erase_eq_zero_iff {held : Multiset μ} {m : μ} (member : m ∈ held) : held.erase m = 0 ↔ held = {m} := by
  constructor
  · intro empty
    rw [← Multiset.cons_erase member, empty]
    rfl
  · intro alone
    rw [alone]
    exact Multiset.erase_singleton m

theorem mutexUnlock_protected_iff {m : μ} (member : m ∈ s.held) :
    Protected maskedAtStart (mutexUnlock s m) ↔ s.held = {m} := by
  rw [← erase_eq_zero_iff member]
  constructor
  · intro safe
    by_contra others
    exact absurd (safe.holders others) Bool.false_ne_true
  · intro empty
    exact ⟨fun others => absurd empty others, fun _ _ _ => rfl⟩

theorem Inv.protected_iff (inv : Inv maskedAtStart s) (taken : Step s a t) : Protected maskedAtStart t ↔ Alone s a := by
  cases taken with
  | lock m outside => exact iff_of_true ⟨fun _ => rfl, by simp [mutexLock]⟩ trivial
  | unlock m outside member => exact mutexUnlock_protected_iff member
  | enter outside => exact iff_of_true ⟨fun _ => rfl, by simp [enterFree]⟩ trivial
  | enqueue item within => exact iff_of_true ⟨inv.holders, inv.restored⟩ trivial
  | dequeue item within => exact iff_of_true ⟨inv.holders, inv.restored⟩ trivial
  | @leave was within =>
    obtain ⟨masked, busy, idle⟩ := inv.inside was within
    refine iff_of_true ⟨?_, ?_⟩ trivial
    · intro others
      rw [leaveFree, busy others]
      exact masked
    · intro none _ enabled
      rw [leaveFree, idle none enabled]
      rfl

theorem Inv.step (inv : Inv maskedAtStart s) (taken : Step s a t) (alone : Alone s a) : Inv maskedAtStart t := by
  refine ⟨(inv.protected_iff taken).mpr alone, ?_⟩
  intro was saved
  cases taken with
  | lock m outside => exact absurd (outside.symm.trans saved) (by simp)
  | unlock m outside member => exact absurd (outside.symm.trans saved) (by simp)
  | enter outside =>
    obtain rfl : s.masked = was := Option.some.inj saved
    exact ⟨rfl, inv.holders, fun none enabled => inv.restored none outside enabled⟩
  | enqueue item within => exact inv.inside was saved
  | dequeue item within => exact inv.inside was saved
  | leave within => exact absurd saved (by simp [leaveFree])

/-- Over every run, every holder is protected throughout exactly when each unlock releases
the only mutex that is held. -/
theorem critical_sections_protect_iff (queue : Queue.Ring capacity itemSize) (tr : List (Act μ)) :
    ((machine μ maskedAtStart queue).confine fun _ => Protected maskedAtStart).Run tr s ↔
      ((machine μ maskedAtStart queue).restrict Alone).Run tr s := by
  apply Machine.confine_run_iff (Q := Inv maskedAtStart)
  · exact ⟨⟨fun held => absurd rfl held, fun _ _ enabled => enabled⟩, by simp [machine]⟩
  · exact fun inv taken => inv.protected_iff taken
  · exact fun inv taken alone => inv.step taken alone

/-- Two mutexes, taken one inside the other: releasing the inner one enables interrupts
while the outer one is held. -/
theorem inner_unlock_enables_interrupts :
    let queue : Queue.Ring 1 4 := .new [0, 0, 0, 0]
    ∃ s : State Nat 1 4, (machine Nat false queue).Run [.lock 0, .lock 1, .unlock 1] s ∧
      s.held = {0} ∧ s.masked = false ∧ ¬ Protected false s := by
  intro queue
  let M := machine Nat false queue
  let outer : State Nat 1 4 := mutexLock M.init 0
  let inner : State Nat 1 4 := mutexLock outer 1
  have first : M.Run [.lock 0] outer := .next .start (.lock 0 rfl)
  have second : M.Run [.lock 0, .lock 1] inner := .next first (.lock 1 rfl)
  have member : 1 ∈ inner.held := Multiset.mem_cons_self 1 outer.held
  have third : M.Run [.lock 0, .lock 1, .unlock 1] (mutexUnlock inner 1) := .next second (.unlock 1 rfl member)
  have held : (mutexUnlock inner 1).held = {0} := Multiset.erase_cons_head 1 outer.held
  refine ⟨mutexUnlock inner 1, third, held, rfl, ?_⟩
  intro safe
  exact absurd (safe.holders (held ▸ Multiset.singleton_ne_zero 0)) Bool.false_ne_true

end Libcsp.CriticalSection
