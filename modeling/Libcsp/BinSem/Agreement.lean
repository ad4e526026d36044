import Libcsp.Base.Transducer
import Libcsp.BinSem.Backends
import Mathlib.Data.List.Induction

namespace Libcsp
open Sys

/-- An operation on one semaphore, with no other thread around. A wait of the condition
variable may wake spuriously that many times before it ends. -/
inductive SemOp
  | post
  | wait (timeout : UInt32) (spurious : Nat)

/-- `bin_sem::wait` over `sem_t`; `none` is a call that never returns. -/
def SemT.wait (value : Nat) (timeout : UInt32) : Option Bool × Nat :=
  if 0 < value then (some true, value - 1)
  else if timeout = waitForever then (none, value)
  else (some false, value)

def SemT.perform (value : Nat) : SemOp → Option Bool × Nat
  | .post => (some true, SemT.post value)
  | .wait timeout _ => SemT.wait value timeout

/-- `ETIMEDOUT` of macOS. -/
def etimedout : Int := 60

/-- What the condition waits of one call return while nobody posts. -/
def condReturns (timeout : UInt32) (spurious : Nat) : List Int :=
  List.replicate spurious 0 ++ if timeout = waitForever then [] else [etimedout]

/-- `while value.read() == 0` over the returns of the condition waits: the final `ok`,
or `none` if the last of them does not return. -/
def Pthread.waitLoop (value : Int) : List Int → Option Bool
  | [] => if value = 0 then none else some true
  | rc :: rest =>
    if value = 0 then
      if rc ≠ 0 then some false else Pthread.waitLoop value rest
    else some true

def Pthread.wait (value : Int) (timeout : UInt32) (spurious : Nat) : Option Bool × Int :=
  match Pthread.waitLoop value (condReturns timeout spurious) with
  | none => (none, value)
  | some ok => (some ok, if ok then 0 else value)

def Pthread.perform (value : Int) : SemOp → Option Bool × Int
  | .post => (some true, Pthread.post value)
  | .wait timeout spurious => Pthread.wait value timeout spurious

theorem Pthread.wait_unlocked {value : Int} (unlocked : value ≠ 0) (timeout : UInt32) (spurious : Nat) :
    Pthread.wait value timeout spurious = (some true, 0) := by
  have free : ∀ wakes, Pthread.waitLoop value wakes = some true := by
    intro wakes
    cases wakes with
    | nil => simp [Pthread.waitLoop, unlocked]
    | cons => simp [Pthread.waitLoop, unlocked]
  simp [Pthread.wait, free]

/-- Spurious wake-ups find the semaphore locked and wait again. -/
theorem Pthread.wait_locked (timeout : UInt32) (spurious : Nat) :
    Pthread.wait 0 timeout spurious = (if timeout = waitForever then none else some false, 0) := by
  have loop : ∀ wakes, Pthread.waitLoop 0 (List.replicate spurious 0 ++ wakes) = Pthread.waitLoop 0 wakes := by
    intro wakes
    induction spurious with
    | zero => rfl
    | succ n ih => simpa [List.replicate_succ, Pthread.waitLoop] using ih
  unfold Pthread.wait condReturns
  rw [loop]
  split_ifs with forever
  · rfl
  · rfl

section
variable {τ : Type} [DecidableEq τ]

/-- The loop of a thread that holds the mutex, step by step. -/
theorem Pthread.waitLoop_undisturbed {M : State τ} {sem value : Int} {t : τ} {pc : τ → At} {timeout : UInt32}
    {wakes : List Int} {ok : Bool} (loop : Pthread.waitLoop value wakes = some ok) {tr : List (Act τ)}
    (run : ((machine τ sem).startAt M).Run tr ⟨some t, value, Function.update pc t (.waitTest timeout)⟩) :
    ∃ tr', ((machine τ sem).startAt M).Run tr'
      ⟨some t, value, Function.update pc t (if ok then .waitTake else .waitLeave false)⟩ := by
  have here : ∀ at', (Function.update pc t at') t = at' := fun at' => Function.update_self t at' pc
  induction wakes generalizing tr with
  | nil =>
    simp only [waitLoop] at loop
    split_ifs at loop with locked
    obtain rfl := Option.some.inj loop
    have taken := run.next (Step.waitFree (here _) locked)
    simp only [Function.update_idem] at taken
    exact ⟨_, taken⟩
  | cons rc rest ih =>
    simp only [waitLoop] at loop
    by_cases locked : value = 0
    · rw [if_pos locked] at loop
      have blocked := run.next (Step.waitBlock (here _) locked)
      simp only [Function.update_idem] at blocked
      have woken := blocked.next (Step.wake (here _) : Step _ (.wake t rc) _)
      simp only [Function.update_idem] at woken
      by_cases failed : rc = 0
      · subst failed
        have tested := woken.next (Step.relock (here _) rfl)
        simp only [Function.update_idem] at tested
        exact ih (by simpa using loop) tested
      · have left := woken.next (Step.relockFailed (here _) failed rfl)
        simp only [Function.update_idem] at left
        obtain rfl : false = ok := by simpa [failed] using loop
        exact ⟨_, left⟩
    · simp only [locked, if_false] at loop
      obtain rfl := Option.some.inj loop
      have taken := run.next (Step.waitFree (here _) locked)
      simp only [Function.update_idem] at taken
      exact ⟨_, taken⟩

/-- `wait` is what a thread does that runs through it alone. -/
theorem Pthread.wait_undisturbed {sem value value' : Int} {t : τ} {pc : τ → At} (outside : pc t = .outside)
    {timeout : UInt32} {spurious : Nat} {ok : Bool}
    (returns : Pthread.wait value timeout spurious = (some ok, value')) :
    ∃ tr, ((machine τ sem).startAt ⟨none, value, pc⟩).Run tr
      ⟨none, value', Function.update pc t (if ok then .inside else .outside)⟩ := by
  have here : ∀ at', (Function.update pc t at') t = at' := fun at' => Function.update_self t at' pc
  have called : ((machine τ sem).startAt ⟨none, value, pc⟩).Run [.callWait t timeout]
      ⟨none, value, Function.update pc t (.waitEnter timeout)⟩ := .next .start (Step.callWait outside)
  have entered := called.next (Step.waitLock (here _) rfl)
  simp only [Function.update_idem] at entered
  unfold Pthread.wait at returns
  cases loop : Pthread.waitLoop value (condReturns timeout spurious) with
  | none => simp [loop] at returns
  | some result =>
    simp only [loop, Prod.mk.injEq, Option.some_inj] at returns
    obtain ⟨rfl, rfl⟩ := returns
    obtain ⟨tr, ended⟩ := Pthread.waitLoop_undisturbed loop entered
    cases result with
    | true =>
      have taken := ended.next (Step.take (here _))
      simp only [Function.update_idem] at taken
      have left := taken.next (Step.waitUnlock (here _))
      simp only [Function.update_idem] at left
      exact ⟨_, left⟩
    | false =>
      have left := ended.next (Step.waitUnlock (here _))
      simp only [Function.update_idem] at left
      exact ⟨_, left⟩

end

/-- A post directly after `create` or directly after another post. -/
def SurplusAt (ops : List SemOp) (i : Nat) : Prop :=
  ops[i]? = some .post ∧ (i = 0 ∨ ops[i - 1]? = some .post)

def WaitAt (ops : List SemOp) (i : Nat) : Prop := ∃ timeout spurious, ops[i]? = some (.wait timeout spurious)

/-- No wait directly follows another one once a post has met an unlocked semaphore. -/
def NoWaitOnSurplus (ops : List SemOp) : Prop :=
  ∀ i j, SurplusAt ops i → WaitAt ops j → WaitAt ops (j + 1) → j < i

def endsInWait (ops : List SemOp) : Bool :=
  match ops.getLast? with
  | some (.wait _ _) => true
  | _ => false

theorem endsInWait_false_iff {ops : List SemOp} :
    endsInWait ops = false ↔ ops.length = 0 ∨ ops[ops.length - 1]? = some .post := by
  rw [endsInWait, ← List.getLast?_eq_getElem?, List.length_eq_zero_iff, ← List.getLast?_eq_none_iff]
  cases ops.getLast? with
  | none => simp
  | some op => cases op <;> simp

theorem concat_getElem? (ops : List SemOp) (op : SemOp) (i : Nat) :
    (ops ++ [op])[i]? = if i = ops.length then some op else ops[i]? := by
  rcases Nat.lt_trichotomy i ops.length with before | here | beyond
  · rw [List.getElem?_append_left before, if_neg (Nat.ne_of_lt before)]
  · rw [here, List.getElem?_concat_length, if_pos rfl]
  · have outside : (ops ++ [op]).length ≤ i := by
      rw [List.length_append, List.length_singleton]
      omega
    rw [if_neg (Nat.ne_of_gt beyond), List.getElem?_eq_none outside, List.getElem?_eq_none (Nat.le_of_lt beyond)]

theorem surplusAt_concat {ops : List SemOp} {op : SemOp} {i : Nat} :
    SurplusAt (ops ++ [op]) i ↔ SurplusAt ops i ∨ i = ops.length ∧ op = .post ∧ endsInWait ops = false := by
  rw [endsInWait_false_iff]
  unfold SurplusAt
  rw [concat_getElem?, concat_getElem?]
  by_cases here : i = ops.length
  · subst here
    rw [if_pos rfl, List.getElem?_eq_none (Nat.le_refl _)]
    by_cases nothing : ops.length = 0
    · simp [nothing]
    · rw [if_neg (by omega)]
      simp [nothing]
  · rw [if_neg here]
    simp only [here, false_and, or_false]
    refine and_congr_right ?_
    intro inside
    have before := (List.getElem?_eq_some_iff.mp inside).1
    rw [if_neg (by omega)]

theorem waitAt_concat {ops : List SemOp} {op : SemOp} {i : Nat} :
    WaitAt (ops ++ [op]) i ↔ WaitAt ops i ∨ i = ops.length ∧ ∃ timeout spurious, op = .wait timeout spurious := by
  unfold WaitAt
  rw [concat_getElem?]
  by_cases here : i = ops.length
  · subst here
    rw [if_pos rfl, List.getElem?_eq_none (Nat.le_refl _)]
    simp
  · simp [here]

theorem WaitAt.lt {ops : List SemOp} {i : Nat} (waits : WaitAt ops i) : i < ops.length := by
  obtain ⟨timeout, spurious, atI⟩ := waits
  exact (List.getElem?_eq_some_iff.mp atI).1

theorem SurplusAt.lt {ops : List SemOp} {i : Nat} (surplus : SurplusAt ops i) : i < ops.length :=
  (List.getElem?_eq_some_iff.mp surplus.1).1

theorem endsInWait_waitAt {ops : List SemOp} (ends : endsInWait ops = true) :
    0 < ops.length ∧ WaitAt ops (ops.length - 1) := by
  unfold endsInWait at ends
  split at ends
  · rename_i timeout spurious last
    rw [List.getLast?_eq_getElem?] at last
    have inside := (List.getElem?_eq_some_iff.mp last).1
    exact ⟨by omega, timeout, spurious, last⟩
  · exact nomatch ends

theorem WaitAt.endsInWait {ops : List SemOp} {i : Nat} (waits : WaitAt ops i) (last : i + 1 = ops.length) :
    Libcsp.endsInWait ops = true := by
  obtain ⟨timeout, spurious, atI⟩ := waits
  have atEnd : ops.getLast? = some (.wait timeout spurious) := by
    rw [List.getLast?_eq_getElem?, ← last]
    exact atI
  simp [Libcsp.endsInWait, atEnd]

theorem noWaitOnSurplus_concat_post {ops : List SemOp} :
    NoWaitOnSurplus (ops ++ [.post]) ↔ NoWaitOnSurplus ops := by
  constructor
  · intro clean i j surplus first second
    exact clean i j (surplusAt_concat.mpr (Or.inl surplus)) (waitAt_concat.mpr (Or.inl first))
      (waitAt_concat.mpr (Or.inl second))
  · intro clean i j surplus first second
    rcases waitAt_concat.mp first with first | ⟨_, _, _, impossible⟩
    · rcases waitAt_concat.mp second with second | ⟨_, _, _, impossible⟩
      · rcases surplusAt_concat.mp surplus with earlier | ⟨rfl, _⟩
        · exact clean i j earlier first second
        · exact first.lt
      · exact nomatch impossible
    · exact nomatch impossible

theorem noWaitOnSurplus_concat_wait {ops : List SemOp} {timeout : UInt32} {spurious : Nat} :
    NoWaitOnSurplus (ops ++ [.wait timeout spurious]) ↔
      NoWaitOnSurplus ops ∧ (endsInWait ops = true → ¬ ∃ i, SurplusAt ops i) := by
  constructor
  · intro clean
    refine ⟨?_, ?_⟩
    · intro i j surplus first second
      exact clean i j (surplusAt_concat.mpr (Or.inl surplus)) (waitAt_concat.mpr (Or.inl first))
        (waitAt_concat.mpr (Or.inl second))
    · rintro ends ⟨i, surplus⟩
      obtain ⟨some, first⟩ := endsInWait_waitAt ends
      have second : WaitAt (ops ++ [.wait timeout spurious]) (ops.length - 1 + 1) :=
        waitAt_concat.mpr (Or.inr ⟨by omega, _, _, rfl⟩)
      have before := clean i _ (surplusAt_concat.mpr (Or.inl surplus)) (waitAt_concat.mpr (Or.inl first)) second
      have inside := surplus.lt
      omega
  · rintro ⟨clean, last⟩ i j surplus first second
    rcases surplusAt_concat.mp surplus with surplus | ⟨_, impossible, _⟩
    · rcases waitAt_concat.mp second with second | ⟨atEnd, _⟩
      · rcases waitAt_concat.mp first with first | ⟨atEnd, _⟩
        · exact clean i j surplus first second
        · have inside := second.lt
          omega
      · rcases waitAt_concat.mp first with first | ⟨atEnd', _⟩
        · exact absurd ⟨i, surplus⟩ (last (first.endsInWait atEnd))
        · omega
    · exact nomatch impossible

/-- The values of the two implementations as long as their results agree: the clamped
one tells whether the last operation was a wait, the counter is ahead by the posts that
met an unlocked semaphore. -/
structure Tracks (ops : List SemOp) (count : Nat) (value : Int) : Prop where
  locked : value = if endsInWait ops then 0 else 1
  ahead : value ≤ count
  surplus : value < count ↔ ∃ i, SurplusAt ops i

theorem endsInWait_concat (ops : List SemOp) (op : SemOp) :
    endsInWait (ops ++ [op]) = match op with | .wait _ _ => true | .post => false := by
  unfold endsInWait
  rw [List.getLast?_concat]
  cases op <;> rfl

theorem Tracks.post {ops : List SemOp} {count : Nat} {value : Int} (tracks : Tracks ops count value) :
    Tracks (ops ++ [.post]) (SemT.post count) (Pthread.post value) := by
  have locked := tracks.locked
  have ahead := tracks.ahead
  have surplus := tracks.surplus
  simp only [SemT.post, Pthread.post]
  cases ends : endsInWait ops with
  | true =>
    simp only [ends, if_true] at locked
    subst locked
    refine ⟨?_, ?_, ?_⟩
    · simp [endsInWait_concat]
    · simp only [if_true]
      omega
    · simp only [surplusAt_concat, ends, Bool.true_eq_false, and_false, or_false, ← surplus, if_true]
      omega
  | false =>
    simp only [ends, Bool.false_eq_true, if_false] at locked
    subst locked
    refine ⟨?_, ?_, ?_⟩
    · simp [endsInWait_concat]
    · simp only [Int.one_ne_zero, if_false]
      omega
    · simp only [Int.one_ne_zero, if_false]
      refine ⟨fun _ => ⟨ops.length, surplusAt_concat.mpr (Or.inr ⟨rfl, rfl, ends⟩)⟩, fun _ => by omega⟩

/-- A wait is answered alike by both unless it follows a wait and the counter is ahead. -/
theorem Tracks.wait_agree_iff {ops : List SemOp} {count : Nat} {value : Int} (tracks : Tracks ops count value)
    {timeout : UInt32} {spurious : Nat} :
    (SemT.wait count timeout).1 = (Pthread.wait value timeout spurious).1 ↔
      (endsInWait ops = true → ¬ ∃ i, SurplusAt ops i) := by
  have locked := tracks.locked
  have ahead := tracks.ahead
  rw [← tracks.surplus]
  cases ends : endsInWait ops with
  | true =>
    simp only [ends, if_true] at locked
    subst locked
    rw [Pthread.wait_locked]
    by_cases token : 0 < count
    · have different : some true ≠ if timeout = waitForever then none else some false := by
        split_ifs <;> simp
      simp only [SemT.wait, token, if_true, different, false_iff, forall_const]
      omega
    · have none : ¬ (0 : Int) < count := by omega
      simp only [SemT.wait, token, if_false, none, not_false_eq_true, implies_true, iff_true]
      split_ifs <;> rfl
  | false =>
    simp only [ends, Bool.false_eq_true, if_false] at locked
    subst locked
    have token : 0 < count := by omega
    rw [Pthread.wait_unlocked Int.one_ne_zero]
    simp [SemT.wait, token]

theorem Tracks.wait {ops : List SemOp} {count : Nat} {value : Int} (tracks : Tracks ops count value)
    {timeout : UInt32} {spurious : Nat}
    (agree : (SemT.wait count timeout).1 = (Pthread.wait value timeout spurious).1) :
    Tracks (ops ++ [.wait timeout spurious]) (SemT.wait count timeout).2
      (Pthread.wait value timeout spurious).2 := by
  have locked := tracks.locked
  have ahead := tracks.ahead
  have surplus := tracks.surplus
  have allowed := tracks.wait_agree_iff.mp agree
  have posts : (∃ i, SurplusAt (ops ++ [.wait timeout spurious]) i) ↔ ∃ i, SurplusAt ops i := by
    simp [surplusAt_concat]
  have taken : Pthread.wait value timeout spurious = ((Pthread.wait value timeout spurious).1, 0) ∧
      (SemT.wait count timeout).2 + (if endsInWait ops then 0 else 1) = count := by
    cases ends : endsInWait ops with
    | true =>
      simp only [ends, if_true] at locked
      subst locked
      have empty : ¬ 0 < count := by
        intro token
        exact allowed ends (surplus.mp (by omega))
      refine ⟨by rw [Pthread.wait_locked], ?_⟩
      simp only [SemT.wait, empty, if_false, if_true]
      split_ifs <;> omega
    | false =>
      simp only [ends, Bool.false_eq_true, if_false] at locked
      subst locked
      have token : 0 < count := by omega
      refine ⟨by rw [Pthread.wait_unlocked Int.one_ne_zero], ?_⟩
      simp only [SemT.wait, token, if_true, Bool.false_eq_true, if_false]
      omega
  obtain ⟨cleared, counted⟩ := taken
  rw [cleared]
  refine ⟨?_, ?_, ?_⟩
  · simp [endsInWait_concat]
  · exact Int.natCast_nonneg _
  · rw [posts, ← surplus, locked]
    split_ifs at counted ⊢ <;> omega

/-- As long as the answers agree the values do too, up to the surplus. -/
theorem tracks_of_agree {ops : List SemOp} :
    ((runAll SemT.perform 1 ops).1 = (runAll Pthread.perform 1 ops).1 ↔ NoWaitOnSurplus ops) ∧
      ((runAll SemT.perform 1 ops).1 = (runAll Pthread.perform 1 ops).1 →
        Tracks ops (runAll SemT.perform 1 ops).2 (runAll Pthread.perform 1 ops).2) := by
  induction ops using List.reverseRecOn with
  | nil =>
    refine ⟨⟨?_, fun _ => rfl⟩, ?_⟩
    · intro _ i j surplus
      exact nomatch surplus.1
    · intro _
      refine ⟨rfl, Int.le_refl 1, ?_⟩
      simp [SurplusAt, runAll]
  | append_singleton ops op ih =>
    obtain ⟨agreeIff, tracks⟩ := ih
    rw [runAll_concat_agree_iff, agreeIff]
    simp only [runAll_append, runAll]
    cases op with
    | post =>
      refine ⟨?_, ?_⟩
      · rw [noWaitOnSurplus_concat_post]
        exact and_iff_left rfl
      · intro agree
        exact (tracks (agreeIff.mpr agree.1)).post
    | wait timeout spurious =>
      refine ⟨?_, ?_⟩
      · rw [noWaitOnSurplus_concat_wait]
        refine and_congr_right ?_
        intro clean
        exact (tracks (agreeIff.mpr clean)).wait_agree_iff
      · intro agree
        exact (tracks (agreeIff.mpr agree.1)).wait agree.2

/-- The promise that `wait(0xFFFFFFFF)` is issued only when it can succeed is not needed:
a call that never returns is an answer of its own. -/
theorem backends_agree_iff (ops : List SemOp) :
    (SemT.create true).map (fun sem => (runAll SemT.perform sem ops).1) =
        (Pthread.create true).map (fun sem => (runAll Pthread.perform sem ops).1) ↔
      NoWaitOnSurplus ops := by
  simp only [SemT.create, Pthread.create, if_true, Option.map_some, Option.some_inj]
  exact tracks_of_agree.1

/-- Two waits after a post on the unlocked semaphore: the counter kept the post, the
clamped value dropped it. -/
theorem surplus_post_kept_or_dropped :
    (SemT.create true).map (fun sem => (runAll SemT.perform sem [.post, .wait 0 0, .wait 0 0]).1) =
        some [some true, some true, some true] ∧
      (Pthread.create true).map (fun sem => (runAll Pthread.perform sem [.post, .wait 0 0, .wait 0 0]).1) =
        some [some true, some true, some false] := by
  decide

end Libcsp
