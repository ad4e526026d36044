import Libcsp.Base.Lock
import Libcsp.Ffi.Shims

namespace Libcsp.Ffi
open Sys

variable {τ ι κ π ρ : Type}

/-- The lock that a call takes if it gets as far as the user's callback. -/
def Call.lock (w : PointerWidth) (call : Call ι κ π ρ) : Option (Lock ι κ) :=
  match call.start w with
  | .answers _ => none
  | .asks frame => frame.lock

theorem Call.lock_of_asks {w : PointerWidth} {call : Call ι κ π ρ} {frame : Frame ι κ π ρ}
    (starts : call.start w = .asks frame) : call.lock w = frame.lock := by
  simp only [Call.lock, starts]

section
variable [DecidableEq ι] [DecidableEq κ]

/-- The steps that begin and end a callback on the object behind `l`: the `&mut self` of one
`CspInterface` or of one `CanDriver`. -/
def Act.lockOp (w : PointerWidth) (l : Lock ι κ) : Act τ ι κ π ρ → Option (LockOp τ)
  | .answered _ _ _ => none
  | .asked t call => if call.lock w = some l then some (.acquire t) else none
  | .ended t frame _ _ _ => if frame.lock = some l then some (.release t) else none

/-- Every callback of a thread runs under its lock, and no two of them under one. -/
structure Nested (holder : Lock ι κ → Option τ) (t : τ) (frames : List (Frame ι κ π ρ)) : Prop where
  held : ∀ frame ∈ frames, ∀ l, frame.lock = some l → holder l = some t
  once : frames.Pairwise fun inner outer => ∀ l, inner.lock = some l → outer.lock ≠ some l

/-- The callbacks of one object run one at a time, whichever threads they run on. -/
structure OneAtATime [DecidableEq τ] (w : PointerWidth) (l : Lock ι κ) (tr : List (Act τ ι κ π ρ))
    (s : State τ ι κ π ρ) : Prop where
  alternate : (exclusiveLock τ).Run (tr.filterMap (Act.lockOp w l)) (s.holder l)
  inside : ∀ t, s.holder l = some t ↔ ∃ frame ∈ s.frames t, frame.lock = some l
  once : ∀ t, ((s.frames t).filter fun frame => frame.lock = some l).length ≤ 1
  /-- A callback that comes back to its own object through C waits for itself: until it has
  ended, nobody gets in. -/
  stuck : ∀ t more s', s.holder l = some t → ((machine τ ι κ π ρ w).startAt s).Run more s' →
    (∀ frame o stderrFails back, .ended t frame o stderrFails back ∈ more → frame.lock ≠ some l) →
      s'.holder l = some t ∧ ∀ u call, .asked u call ∈ more → call.lock w ≠ some l

section
variable {l : Lock ι κ} {lock : Option (Lock ι κ)} {holder : Lock ι κ → Option τ} {t : τ} {next : Option τ}

theorem setHolder_of_ne (other : lock ≠ some l) : setHolder holder lock next l = holder l := if_neg other

theorem setHolder_self : setHolder holder (some l) next l = next := if_pos rfl

theorem Nested.cons {frame : Frame ι κ π ρ} {frames : List (Frame ι κ π ρ)} (nested : Nested holder t frames)
    (free : ∀ l ∈ frame.lock, holder l = none) :
    Nested (setHolder holder frame.lock (some t)) t (frame :: frames) where
  held inner member l locks := by
    by_cases new : frame.lock = some l
    · rw [new, setHolder_self]
    · rw [setHolder_of_ne new]
      rcases List.mem_cons.mp member with rfl | older
      · exact absurd locks new
      · exact nested.held inner older l locks
  once := by
    refine List.pairwise_cons.mpr ⟨?_, nested.once⟩
    intro outer member l new locks
    have held := nested.held outer member l locks
    rw [free l new] at held
    exact nomatch held

theorem Nested.tail {frame : Frame ι κ π ρ} {rest : List (Frame ι κ π ρ)} (nested : Nested holder t (frame :: rest)) :
    Nested (setHolder holder frame.lock none) t rest where
  held outer member l locks := by
    have apart : frame.lock ≠ some l := by
      intro inner
      exact List.rel_of_pairwise_cons nested.once member l inner locks
    rw [setHolder_of_ne apart]
    exact nested.held outer (List.mem_cons_of_mem _ member) l locks
  once := nested.once.of_cons

/-- What a thread holds is not touched by the lock another one takes or gives back. -/
theorem Nested.others {frames : List (Frame ι κ π ρ)} (nested : Nested holder t frames)
    (apart : ∀ l ∈ lock, holder l ≠ some t) : Nested (setHolder holder lock next) t frames where
  held frame member l locks := by
    have held := nested.held frame member l locks
    have other : lock ≠ some l := by
      intro taken
      exact apart l taken held
    rw [setHolder_of_ne other]
    exact held
  once := nested.once

theorem Nested.filter_le_one {frames : List (Frame ι κ π ρ)} (nested : Nested holder t frames) (l : Lock ι κ) :
    (frames.filter fun frame => frame.lock = some l).length ≤ 1 := by
  have apart := nested.once.filter fun frame => decide (frame.lock = some l)
  have ours : ∀ frame ∈ frames.filter fun frame => frame.lock = some l, frame.lock = some l := by
    intro frame member
    simpa using (List.mem_filter.mp member).2
  generalize (frames.filter fun frame => frame.lock = some l) = callbacks at apart ours
  rcases callbacks with _ | ⟨first, _ | ⟨second, rest⟩⟩
  · exact Nat.zero_le 1
  · exact Nat.le_refl 1
  · exact absurd (ours second (by simp)) (List.rel_of_pairwise_cons apart (by simp) l (ours first (by simp)))

end

variable [DecidableEq τ] {w : PointerWidth} {s s' : State τ ι κ π ρ} {a : Act τ ι κ π ρ} {tr : List (Act τ ι κ π ρ)}
  {l : Lock ι κ} {t : τ}

theorem Step.nested (nested : ∀ t, Nested s.holder t (s.frames t)) (step : Step w s a s') (t : τ) :
    Nested s'.holder t (s'.frames t) := by
  cases step with
  | answered => exact nested t
  | @asked u call frame starts free =>
    simp only [Function.update_apply]
    split_ifs with own
    · subst own
      exact (nested t).cons free
    · refine (nested t).others ?_
      intro l new held
      simp [free l new] at held
  | @ended u frame rest o stderrFails top =>
    have running := nested u
    rw [top] at running
    simp only [Function.update_apply]
    split_ifs with own
    · subst own
      exact running.tail
    · refine (nested t).others ?_
      intro l inner held
      rw [running.held frame List.mem_cons_self l inner] at held
      exact own (Option.some.inj held).symm

theorem nested_run (run : (machine τ ι κ π ρ w).Run tr s) (t : τ) : Nested s.holder t (s.frames t) := by
  refine run.invariant (P := fun s => ∀ t, Nested s.holder t (s.frames t)) ?_ ?_ t
  · intro t
    exact ⟨fun _ member => (nomatch member), .nil⟩
  · intro _ _ _ nested step
    exact Step.nested nested step

theorem alternates (run : (machine τ ι κ π ρ w).Run tr s) (l : Lock ι κ) :
    (exclusiveLock τ).Run (tr.filterMap (Act.lockOp w l)) (s.holder l) := by
  induction run with
  | start => exact .start
  | @next tr s a s' previous taken ih =>
    rw [filterMap_concat]
    cases taken with
    | answered => simpa [Act.lockOp] using ih
    | @asked t call frame starts free =>
      simp only [Act.lockOp, Call.lock_of_asks starts]
      split_ifs with locks
      · exact ih.next ⟨free l locks, by rw [locks, setHolder_self]⟩
      · simpa [setHolder_of_ne locks] using ih
    | @ended t frame rest o stderrFails top =>
      simp only [Act.lockOp]
      split_ifs with locks
      · have running := nested_run previous t
        rw [top] at running
        exact ih.next ⟨running.held frame List.mem_cons_self l locks, by rw [locks, setHolder_self]⟩
      · simpa [setHolder_of_ne locks] using ih

/-- Nobody but its holder frees a lock, and nobody takes it before. -/
theorem Step.waits (nested : ∀ t, Nested s.holder t (s.frames t)) (step : Step w s a s') (held : s.holder l = some t)
    (stays : ∀ frame o stderrFails back, a = .ended t frame o stderrFails back → frame.lock ≠ some l) :
    s'.holder l = some t ∧ ∀ u call, a = .asked u call → call.lock w ≠ some l := by
  cases step with
  | answered => exact ⟨held, fun _ _ same => (nomatch same)⟩
  | @asked u call frame starts free =>
    have apart : frame.lock ≠ some l := by
      intro locks
      rw [free l locks] at held
      exact nomatch held
    refine ⟨(setHolder_of_ne apart).trans held, ?_⟩
    rintro _ _ ⟨⟩
    rw [Call.lock_of_asks starts]
    exact apart
  | @ended u frame rest o stderrFails top =>
    have apart : frame.lock ≠ some l := by
      intro locks
      have running := nested u
      rw [top] at running
      have holds := running.held frame List.mem_cons_self l locks
      rw [held] at holds
      obtain rfl := Option.some.inj holds
      exact stays _ _ _ _ rfl locks
    exact ⟨(setHolder_of_ne apart).trans held, fun _ _ same => (nomatch same)⟩

theorem waits (run : (machine τ ι κ π ρ w).Run tr s) (held : s.holder l = some t) {more : List (Act τ ι κ π ρ)}
    (later : ((machine τ ι κ π ρ w).startAt s).Run more s')
    (stays : ∀ frame o stderrFails back, .ended t frame o stderrFails back ∈ more → frame.lock ≠ some l) :
    s'.holder l = some t ∧ ∀ u call, .asked u call ∈ more → call.lock w ≠ some l := by
  suffices (∀ t, Nested s'.holder t (s'.frames t)) ∧ s'.holder l = some t ∧
    ∀ u call, .asked u call ∈ more → call.lock w ≠ some l from this.2
  induction later with
  | start => exact ⟨nested_run run, held, fun _ _ member => (nomatch member)⟩
  | @next more mid a s' _ taken ih =>
    obtain ⟨nested, still, none⟩ := ih fun frame o stderrFails back member =>
      stays frame o stderrFails back (List.mem_append_left _ member)
    obtain ⟨stillAfter, notNow⟩ := Step.waits nested taken still fun frame o stderrFails back same =>
      stays frame o stderrFails back (by simp [same])
    refine ⟨Step.nested nested taken, stillAfter, ?_⟩
    intro u call member
    rcases List.mem_append.mp member with earlier | last
    · exact none u call earlier
    · exact notNow u call (List.mem_singleton.mp last).symm

theorem callbacks_one_at_a_time (run : (machine τ ι κ π ρ w).Run tr s) (l : Lock ι κ) : OneAtATime w l tr s where
  alternate := alternates run l
  inside t := by
    constructor
    · intro held
      have inside : HeldInside s := by
        refine run.invariant ?_ fun inside step => inside.step step
        rintro _ _ ⟨⟩
      exact inside l t held
    · rintro ⟨frame, member, locks⟩
      exact (nested_run run t).held frame member l locks
  once t := (nested_run run t).filter_le_one l
  stuck t more s' held later stays := waits run held later stays

end

/-- A thread is in the `nexthop` of an interface. It panics, and the next call is another
thread's. -/
def nexthopPanicsFirst : List (Act Bool Unit Unit Unit Unit) :=
  [.asked false (.nexthopShim (some ()) 7 (some ()) 1),
    .ended false (.nexthopShim () 7 () true) (.panics false) false (.value (.code 0)),
    .asked true (.nexthopShim (some ()) 7 (some ()) 0)]

theorem callbacks_one_at_a_time_nexthop :
    ∃ s, (machine Bool Unit Unit Unit Unit .w64).Run nexthopPanicsFirst s ∧ s.holder (.userIface ()) = some true ∧
      OneAtATime .w64 (.userIface ()) nexthopPanicsFirst s := by
  have first : (machine Bool Unit Unit Unit Unit .w64).Run [.asked false (.nexthopShim (some ()) 7 (some ()) 1)] _ :=
    .next .start (Step.asked rfl (fun _ _ => rfl))
  have ended := first.next (@Step.ended _ _ _ _ _ _ _ _ _ _ false (.nexthopShim () 7 () true) [] (.panics false) false rfl)
  have second := ended.next (@Step.asked _ _ _ _ _ _ _ _ _ _ true (.nexthopShim (some ()) 7 (some ()) 0) _ rfl
    (fun | .userIface (), _ => rfl))
  exact ⟨_, second, rfl, callbacks_one_at_a_time second _⟩

end Libcsp.Ffi
