import Libcsp.BinSem.Backends

namespace Libcsp
open Sys

variable {τ : Type} [DecidableEq τ]

namespace Embassy

def lockOp : Act τ → Option (LockOp τ)
  | .swapTaken t => some (.acquire t)
  | .post t => some (.release t)
  | _ => none

/-- The flag is set exactly when nobody holds the semaphore. -/
structure Holding (s : State τ) (held : Option τ) : Prop where
  free : s.flag = true ↔ held = none
  holder : ∀ t, s.pc t = .inside → held = some t

theorem refines_lock : Refines (machine τ true) (exclusiveLock τ) Holding lockOp where
  init := ⟨by simp [machine, exclusiveLock], by simp [machine]⟩
  visible := by
    rintro s a t' held op ⟨free, holder⟩ taken seen
    cases taken with
    | @swapTaken t _ atSpin set =>
      cases seen
      have none := free.mp set
      refine ⟨some t, ⟨none, rfl⟩, by simp, ?_⟩
      intro u inside
      by_cases same : u = t
      · rw [same]
      · have taken := holder u (by simpa [Function.update_of_ne same] using inside)
        rw [none] at taken
        exact nomatch taken
    | @post t atInside =>
      cases seen
      have mine := holder t atInside
      refine ⟨none, ⟨mine, rfl⟩, by simp [Embassy.post], ?_⟩
      intro u inside
      by_cases same : u = t
      · simp [same] at inside
      · have other := holder u (by simpa [Function.update_of_ne same] using inside)
        exact absurd (Option.some.inj (other.symm.trans mine)) same
    | callWait | swapEmpty | giveUp | retry => exact nomatch seen
  silent := by
    rintro s a t' held ⟨free, holder⟩ taken seen
    have keeps : ∀ t pc', pc' ≠ At.inside → ∀ u, Function.update s.pc t pc' u = .inside → held = some u := by
      intro t pc' notInside u inside
      by_cases same : u = t
      · subst same
        exact absurd (by simpa using inside) notInside
      · exact holder u (by simpa [Function.update_of_ne same] using inside)
    cases taken with
    | callWait => exact ⟨free, keeps _ _ (by simp)⟩
    | swapEmpty _ clear => exact ⟨by simpa [clear] using free, keeps _ _ (by simp)⟩
    | giveUp => exact ⟨free, keeps _ _ (by simp)⟩
    | retry => exact ⟨free, keeps _ _ (by simp)⟩
    | swapTaken | post => exact nomatch seen

theorem exclusive : Exclusive (machine τ true) Inside :=
  refines_lock.exclusive fun related inside => related.holder _ inside

end Embassy

namespace Pthread

def lockOp : Act τ → Option (LockOp τ)
  | .take t => some (.acquire t)
  | .postWrite t => some (.release t)
  | _ => none

/-- What the place of one thread says about the shared state: the locations
inside the pthread mutex own it, and those from the taking write to the
releasing write own the semaphore. -/
def Fact (mutex : Option τ) (value : Int) (held : Option τ) (t : τ) : At → Prop
  | .outside | .waitEnter _ | .waitBlocked _ | .waitWoken _ _ => True
  | .waitTest _ | .waitLeave false | .postSignal | .postLeave => mutex = some t
  | .waitTake => mutex = some t ∧ value = 1
  | .waitLeave true | .postTest => mutex = some t ∧ held = some t
  | .inside | .postEnter => held = some t

structure Holding (s : State τ) (held : Option τ) : Prop where
  binary : s.value = 0 ∨ s.value = 1
  free : s.value = 1 ↔ held = none
  thread : ∀ t, Fact s.mutex s.value held t (s.pc t)

omit [DecidableEq τ] in
theorem Fact.mono {mutex mutex' held held' : Option τ} {value value' : Int} {t : τ} {pc : At}
    (fact : Fact mutex value held t pc) (sameMutex : mutex = some t → mutex' = some t)
    (sameValue : mutex = some t → value = 1 → value' = 1) (sameHeld : held = some t → held' = some t) :
    Fact mutex' value' held' t pc := by
  cases pc with
  | waitLeave ok => cases ok <;> simp_all [Fact]
  | _ => simp_all [Fact]

/-- A step moves one thread. The other threads keep their facts as long as the
shared state they own is untouched. -/
theorem Holding.move {s : State τ} {held held' mutex' : Option τ} {value' : Int} {t : τ} {pc' : At}
    (related : Holding s held) (binary : value' = 0 ∨ value' = 1) (free : value' = 1 ↔ held' = none)
    (mine : Fact mutex' value' held' t pc')
    (sameMutex : ∀ u, u ≠ t → s.mutex = some u → mutex' = some u)
    (sameValue : ∀ u, u ≠ t → s.mutex = some u → s.value = 1 → value' = 1)
    (sameHeld : ∀ u, u ≠ t → held = some u → held' = some u) :
    Holding ⟨mutex', value', Function.update s.pc t pc'⟩ held' where
  binary := binary
  free := free
  thread := (Function.forall_update_iff _ _).mpr ⟨mine, fun u other =>
    (related.thread u).mono (sameMutex u other) (sameValue u other) (sameHeld u other)⟩

theorem Holding.moveQuiet {s : State τ} {held mutex' : Option τ} {t : τ} {pc' : At}
    (related : Holding s held) (mine : Fact mutex' s.value held t pc')
    (sameMutex : ∀ u, u ≠ t → s.mutex = some u → mutex' = some u) :
    Holding ⟨mutex', s.value, Function.update s.pc t pc'⟩ held :=
  related.move related.binary related.free mine sameMutex (fun _ _ _ one => one) (fun _ _ owner => owner)

theorem refines_lock : Refines (machine τ 1) (exclusiveLock τ) Holding lockOp where
  init := ⟨Or.inr rfl, by simp [machine, exclusiveLock], fun _ => trivial⟩
  visible := by
    intro s a s' held op related taken seen
    cases taken with
    | @take t atTake =>
      cases seen
      have mine := related.thread t
      rw [atTake] at mine
      have none := related.free.mp mine.2
      refine ⟨some t, ⟨none, rfl⟩, related.move (Or.inl rfl) (by simp) ⟨mine.1, rfl⟩ (fun _ _ owner => owner) ?_ ?_⟩
      · intro u other owner
        exact absurd (Option.some.inj (owner.symm.trans mine.1)) other
      · intro u _ owner
        exact nomatch none.symm.trans owner
    | @postWrite t atTest _ =>
      cases seen
      have mine := related.thread t
      rw [atTest] at mine
      refine ⟨none, ⟨mine.2, rfl⟩, related.move (Or.inr rfl) (by simp) mine.1 (fun _ _ owner => owner)
        (fun _ _ _ _ => rfl) ?_⟩
      intro u other owner
      exact absurd (Option.some.inj (owner.symm.trans mine.2)) other
    | callWait | waitLockFails | waitLock | waitFree | waitBlock | wake | relock | relockFailed | waitUnlock
    | callPost | postLockFails | postLock | postNoop | signal | postUnlock => exact nomatch seen
  silent := by
    intro s a s' held related taken seen
    have keep : ∀ t u : τ, u ≠ t → s.mutex = some u → s.mutex = some u := fun _ _ _ owner => owner
    have acquire : s.mutex = none → ∀ t u : τ, u ≠ t → s.mutex = some u → some t = some u :=
      fun free _ _ _ owner => nomatch free.symm.trans owner
    have release : ∀ t : τ, s.mutex = some t → ∀ u, u ≠ t → s.mutex = some u → none = some u :=
      fun _ mine _ other owner => absurd (Option.some.inj (owner.symm.trans mine)) other
    cases taken with
    | callWait => exact related.moveQuiet trivial (keep _)
    | waitLockFails => exact related.moveQuiet trivial (keep _)
    | waitLock _ unlocked => exact related.moveQuiet rfl (acquire unlocked _)
    | @waitFree t _ atTest nonzero =>
      have mine := related.thread t
      rw [atTest] at mine
      exact related.moveQuiet ⟨mine, related.binary.resolve_left nonzero⟩ (keep _)
    | @waitBlock t _ atTest _ =>
      have mine := related.thread t
      rw [atTest] at mine
      exact related.moveQuiet trivial (release t mine)
    | wake => exact related.moveQuiet trivial (keep _)
    | relock _ unlocked => exact related.moveQuiet rfl (acquire unlocked _)
    | relockFailed _ _ unlocked => exact related.moveQuiet rfl (acquire unlocked _)
    | @waitUnlock t ok atLeave =>
      have mine := related.thread t
      rw [atLeave] at mine
      cases ok with
      | false => exact related.moveQuiet trivial (release t mine)
      | true => exact related.moveQuiet mine.2 (release t mine.1)
    | @callPost t atInside =>
      have mine := related.thread t
      rw [atInside] at mine
      exact related.moveQuiet mine (keep _)
    | postLockFails => exact related.moveQuiet trivial (keep _)
    | @postLock t atEnter unlocked =>
      have mine := related.thread t
      rw [atEnter] at mine
      exact related.moveQuiet ⟨rfl, mine⟩ (acquire unlocked _)
    | @postNoop t atTest _ =>
      have mine := related.thread t
      rw [atTest] at mine
      exact related.moveQuiet mine.1 (keep _)
    | @signal t atSignal =>
      have mine := related.thread t
      rw [atSignal] at mine
      exact related.moveQuiet mine (keep _)
    | @postUnlock t atLeave =>
      have mine := related.thread t
      rw [atLeave] at mine
      exact related.moveQuiet trivial (release t mine)
    | take | postWrite => exact nomatch seen

theorem exclusive : Exclusive (machine τ 1) Inside := by
  refine refines_lock.exclusive ?_
  intro s held t related inside
  have mine := related.thread t
  rcases inside with at_ | at_ | at_ <;> rw [at_] at mine
  · exact mine
  · exact mine
  · exact mine.2

end Pthread

namespace SemT

theorem both_enter {t u : τ} (different : u ≠ t) : ∃ tr s, (machine τ 2).Run tr s ∧ Inside s t ∧ Inside s u := by
  refine ⟨_, _, .next (.next .start (.waitOk (t := t) rfl Nat.two_pos))
    (.waitOk (t := u) (Function.update_of_ne different _ _) Nat.one_pos), ?_, ?_⟩
  · simp [Inside, Function.update_of_ne different.symm]
  · simp [Inside]

end SemT

inductive BinSemBackend
  | testArchSemT | testArchMacos | embassyArch
  deriving DecidableEq, Repr

/-- Mutual exclusion from every handle that `csp_bin_sem_init` can leave behind. -/
def BinSemBackend.MutualExclusion (backend : BinSemBackend) (τ : Type) [DecidableEq τ] : Prop :=
  match backend with
  | .testArchSemT => ∀ allocated sem, cspBinSemInit (SemT.create allocated) SemT.post = some sem →
      Exclusive (SemT.machine τ sem) SemT.Inside
  | .testArchMacos => ∀ allocated sem, cspBinSemInit (Pthread.create allocated) Pthread.post = some sem →
      Exclusive (Pthread.machine τ sem) Pthread.Inside
  | .embassyArch => ∀ sem, cspBinSemInit Embassy.create Embassy.post = some sem →
      Exclusive (Embassy.machine τ sem) Embassy.Inside

/-- The semaphore that `csp_bin_sem_init` sets up excludes for the two backends
whose post is clamped. The `sem_t` one starts at two, so it excludes only if
there is no second thread. -/
theorem bin_sem_mutual_exclusion_iff (backend : BinSemBackend) (τ : Type) [DecidableEq τ] :
    backend.MutualExclusion τ ↔ backend ≠ .testArchSemT ∨ Subsingleton τ := by
  cases backend with
  | testArchSemT =>
    simp only [ne_eq, not_true_eq_false, false_or]
    constructor
    · intro exclusion
      refine ⟨fun u t => ?_⟩
      by_contra different
      obtain ⟨tr, s, run, first, second⟩ := SemT.both_enter different
      exact different (exclusion true 2 rfl tr s run u t second first)
    · intro single _ _ _ _ _ _ t u _ _
      exact Subsingleton.elim t u
  | testArchMacos =>
    refine ⟨fun _ => Or.inl (by decide), ?_⟩
    intro _ allocated sem ready
    cases allocated with
    | false => exact nomatch ready
    | true =>
      cases ready
      exact Pthread.exclusive
  | embassyArch =>
    refine ⟨fun _ => Or.inl (by decide), ?_⟩
    intro _ sem ready
    cases ready
    exact Embassy.exclusive

/-- Two threads on the `sem_t` backend, both between their wait and their post. -/
theorem bin_sem_not_exclusive : ¬ BinSemBackend.MutualExclusion .testArchSemT (Fin 2) := by
  intro exclusion
  obtain ⟨tr, s, run, first, second⟩ := SemT.both_enter (t := (0 : Fin 2)) (u := 1) (by decide)
  exact absurd (exclusion true 2 rfl tr s run 0 1 first second) (by decide)

end Libcsp
