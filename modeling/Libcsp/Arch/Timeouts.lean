import Libcsp.Arch
import Libcsp.Arch.Clock
import Libcsp.Base.TimedWait

namespace Libcsp
open Sys

theorem millis_nanos (timeout : UInt32) : (timeout % 1000 * 1000000).toNat = timeout.toNat % 1000 * 1000000 := by
  have thousand : (1000 : UInt32).toNat = 1000 := rfl
  have million : (1000000 : UInt32).toNat = 1000000 := rfl
  have below : timeout.toNat % 1000 < 1000 := Nat.mod_lt _ (by decide)
  rw [UInt32.toNat_mul, UInt32.toNat_mod, thousand, million]
  exact Nat.mod_eq_of_lt (by omega)

/-- `bin_sem::deadline`, over the reading that `clock_gettime` stores. The fraction that it
returns is in range, as `sem_timedwait` and `pthread_cond_timedwait` want it. -/
def deadline (ts : Timespec) (timeout : UInt32) : Timespec :=
  let sec := ts.sec + (timeout / 1000).toNat
  let nsec := ts.nsec + (timeout % 1000 * 1000000).toNat
  if carry : 1000000000 ≤ nsec then ⟨sec + 1, nsec - 1000000000, by
    have fraction := ts.fraction
    have added := millis_nanos timeout
    omega⟩
  else ⟨sec, nsec, by omega⟩

theorem deadline_nanos (ts : Timespec) (timeout : UInt32) :
    (deadline ts timeout).nanos = ts.nanos + timeout.toNat * 10 ^ 6 := by
  have sec : (timeout / 1000).toNat = timeout.toNat / 1000 := UInt32.toNat_div timeout 1000
  have added := millis_nanos timeout
  simp only [deadline]
  split_ifs with carry
  · simp only [Timespec.nanos]
    omega
  · simp only [Timespec.nanos]
    omega

/- What the waits of the backends do when there is nothing to take. Times are nanoseconds. -/

/-- `bin_sem::wait` with `sem_t`: one deadline on `CLOCK_REALTIME`, from the time of the call. A
signal handler that returns makes `sem_wait` and `sem_timedwait` fail. -/
def SemT.loop (timeout : UInt32) : Waiter.Loop where
  blocked start _now :=
    if timeout = waitForever then .sleep .never else .sleep (.at (deadline (.ofNanos start) timeout).nanos)
  ofDay := true
  interruptible := true

/-- `bin_sem::wait` on macOS: the deadline is taken anew in every turn of the loop. -/
def Pthread.loop (timeout : UInt32) : Waiter.Loop where
  blocked _start now :=
    if timeout = waitForever then .sleep .never else .sleep (.at (deadline (.ofNanos now) timeout).nanos)
  ofDay := true
  interruptible := false

/-- `queue_enqueue` and `queue_dequeue` of the test backend, on the clock of `Instant`. -/
def TestQueue.loop (timeout : UInt32) : Waiter.Loop where
  blocked start now :=
    if timeout = 0xFFFFFFFF then .sleep .never
    else if 0 < timeout then
      let deadline := start + timeout.toNat * 10 ^ 6
      if deadline ≤ now then .giveUp
      else
        let timeoutRemaining := deadline - now
        .sleep (.after timeoutRemaining)
    else .giveUp
  ofDay := false
  interruptible := false

/-- `bin_sem_wait` of Embassy, in ticks of its clock, of which there are `tickHz` in a second. -/
def Embassy.loop (tickHz : Nat) (timeout : UInt32) : Waiter.Loop where
  blocked start now :=
    if timeout ≠ 0xFFFFFFFF ∧ timeout.toNat ≤ (now - start) * 1000 / tickHz then .giveUp else .again
  ofDay := false
  interruptible := false

variable {timeout : UInt32}

theorem SemT.blocked_eq (finite : timeout ≠ waitForever) (start now : Nat) :
    (SemT.loop timeout).blocked start now = .sleep (.at (start + timeout.toNat * 10 ^ 6)) := by
  simp only [SemT.loop, if_neg finite, deadline_nanos, Timespec.ofNanos_nanos]

theorem Pthread.blocked_eq (finite : timeout ≠ waitForever) (start now : Nat) :
    (Pthread.loop timeout).blocked start now = .sleep (.at (now + timeout.toNat * 10 ^ 6)) := by
  simp only [Pthread.loop, if_neg finite, deadline_nanos, Timespec.ofNanos_nanos]

theorem SemT.patient (finite : timeout ≠ waitForever) :
    Waiter.Patient (SemT.loop timeout) (timeout.toNat * 10 ^ 6) := by
  refine ⟨?_, ?_⟩
  · intro start now _ gives
    rw [SemT.blocked_eq finite] at gives
    exact nomatch gives
  · intro start read alarm now _ _ sleeps time rings
    rw [SemT.blocked_eq finite] at sleeps
    cases sleeps
    cases rings
    exact Nat.le_refl _

theorem SemT.punctual (finite : timeout ≠ waitForever) (start read : Nat) (alarm : Alarm) (now : Nat)
    (sleeps : (SemT.loop timeout).blocked start read = .sleep alarm) :
    alarm.ring now = some (start + timeout.toNat * 10 ^ 6) := by
  rw [SemT.blocked_eq finite] at sleeps
  cases sleeps
  rfl

theorem Pthread.patient (finite : timeout ≠ waitForever) :
    Waiter.Patient (Pthread.loop timeout) (timeout.toNat * 10 ^ 6) := by
  refine ⟨?_, ?_⟩
  · intro start now _ gives
    rw [Pthread.blocked_eq finite] at gives
    exact nomatch gives
  · intro start read alarm now after _ sleeps time rings
    rw [Pthread.blocked_eq finite] at sleeps
    cases sleeps
    cases rings
    exact Nat.add_le_add_right after _

theorem TestQueue.blocked_eq (finite : timeout ≠ waitForever) (start now : Nat) :
    (TestQueue.loop timeout).blocked start now =
      if start + timeout.toNat * 10 ^ 6 ≤ now ∨ timeout = 0 then .giveUp
      else .sleep (.after (start + timeout.toNat * 10 ^ 6 - now)) := by
  have finite' : ¬ timeout = 0xFFFFFFFF := finite
  simp only [TestQueue.loop, if_neg finite']
  by_cases zero : timeout = 0
  · rw [zero]
    simp
  · have positive : 0 < timeout := UInt32.pos_iff_ne_zero.mpr zero
    simp only [if_pos positive, zero, or_false]

theorem TestQueue.patient (finite : timeout ≠ waitForever) :
    Waiter.Patient (TestQueue.loop timeout) (timeout.toNat * 10 ^ 6) := by
  refine ⟨?_, ?_⟩
  · intro start now after gives
    rw [TestQueue.blocked_eq finite] at gives
    split_ifs at gives with ended
    obtain late | zero := ended
    · exact late
    · simpa [zero] using after
  · intro start read alarm now _ before sleeps time rings
    rw [TestQueue.blocked_eq finite] at sleeps
    split_ifs at sleeps with ended
    cases sleeps
    cases rings
    omega

theorem TestQueue.firm (finite : timeout ≠ waitForever) (start now : Nat)
    (late : start + timeout.toNat * 10 ^ 6 ≤ now) : (TestQueue.loop timeout).blocked start now = .giveUp := by
  rw [TestQueue.blocked_eq finite, if_pos (.inl late)]

/-- The ticks that make up the timeout, the last one begun. -/
def Embassy.limit (tickHz : Nat) (timeout : UInt32) : Nat := (timeout.toNat * tickHz + 999) / 1000

theorem Embassy.late_iff {tickHz start now : Nat} (ticking : 0 < tickHz) (after : start ≤ now) :
    timeout.toNat ≤ (now - start) * 1000 / tickHz ↔ start + Embassy.limit tickHz timeout ≤ now := by
  rw [Nat.le_div_iff_mul_le ticking, Embassy.limit]
  omega

theorem Embassy.patient {tickHz : Nat} (ticking : 0 < tickHz) :
    Waiter.Patient (Embassy.loop tickHz timeout) (Embassy.limit tickHz timeout) := by
  refine ⟨?_, ?_⟩
  · intro start now after gives
    simp only [Embassy.loop] at gives
    split_ifs at gives with ended
    exact (Embassy.late_iff ticking after).mp ended.2
  · intro start read alarm now _ _ sleeps
    simp only [Embassy.loop] at sleeps
    split_ifs at sleeps

theorem Embassy.firm {tickHz : Nat} (ticking : 0 < tickHz) (finite : timeout ≠ waitForever) (start now : Nat)
    (late : start + Embassy.limit tickHz timeout ≤ now) : (Embassy.loop tickHz timeout).blocked start now = .giveUp := by
  have ended := (Embassy.late_iff ticking (Nat.le_of_add_right_le late)).mpr late
  exact if_pos ⟨finite, ended⟩

/-- Woken and sent back to sleep over and over, a wait of the macOS loop is put off by all
the time that has passed. -/
theorem Pthread.put_off (finite : timeout ≠ waitForever) (day bound : Nat) :
    ∃ tr s, ((Waiter.machine (Pthread.loop timeout) day).restrict (Waiter.Unset (Pthread.loop timeout))).Run tr s ∧
      s.began = 0 ∧ s.now = bound ∧ s.phase = .sleeping day (some (day + bound + timeout.toNat * 10 ^ 6)) := by
  have called : ((Waiter.machine (Pthread.loop timeout) day).restrict (Waiter.Unset (Pthread.loop timeout))).Run [.calls] _ :=
    .next .start ⟨.calls rfl, trivial⟩
  have decided := called.next ⟨.reads rfl rfl, trivial⟩
  simp only [Pthread.blocked_eq finite] at decided
  have slept := decided.next ⟨.sleeps rfl, trivial⟩
  have passed := slept.next ⟨@Waiter.Step.passes _ _ bound, trivial⟩
  have woken := passed.next ⟨.wakes rfl, trivial⟩
  have again := woken.next ⟨.reads rfl rfl, trivial⟩
  simp only [Pthread.blocked_eq finite] at again
  refine ⟨_, _, again.next ⟨.sleeps rfl, trivial⟩, rfl, ?_, ?_⟩
  · simp [Waiter.machine, Machine.restrict]
  · simp [Waiter.machine, Machine.restrict, Waiter.Loop.reading, Pthread.loop, Alarm.ring]

/-- A loop that sleeps up to a deadline on the clock of the day fails at once when that clock
is set to the deadline. -/
theorem early_when_set {loop : Waiter.Loop} {day deadline : Nat} (ofDay : loop.ofDay = true)
    (blocked : loop.blocked day day = .sleep (.at deadline)) :
    ∃ tr s, (Waiter.machine loop day).Run tr s ∧ .expires ∈ tr ∧ s.now = 0 := by
  have shows : ∀ s, loop.reading s = s.day := fun s => by simp [Waiter.Loop.reading, ofDay]
  have called : (Waiter.machine loop day).Run [.calls] _ := .next .start (.calls rfl)
  have decided := called.next (.reads rfl rfl)
  simp only [shows] at decided
  have asleep := decided.next (.sleeps (congrArg _ blocked))
  have forward := asleep.next (@Waiter.Step.sets _ _ deadline)
  refine ⟨_, _, forward.next (.expires rfl ?_), by simp, rfl⟩
  rw [shows]

/-- The loops of the four backends. -/
def timedLoops (tickHz : Nat) (timeout : UInt32) : List Waiter.Loop :=
  [SemT.loop timeout, Pthread.loop timeout, TestQueue.loop timeout, Embassy.loop tickHz timeout]

theorem loops_forever {tickHz : Nat} {loop : Waiter.Loop} (backend : loop ∈ timedLoops tickHz waitForever)
    (start now : Nat) : loop.blocked start now = .again ∨ loop.blocked start now = .sleep .never := by
  simp only [timedLoops, List.mem_cons, List.not_mem_nil, or_false] at backend
  obtain rfl | rfl | rfl | rfl := backend
  · right
    simp [SemT.loop]
  · right
    simp [Pthread.loop]
  · right
    simp [TestQueue.loop, waitForever]
  · left
    simp [Embassy.loop, waitForever]

/-- The waits of a finite timeout. None fails before its time unless a signal cuts it short.
Those of `sem_t` are called at their one deadline; those of the queues and of Embassy give up
the first time they look after it; those of macOS start over with each wakeup. For both
semaphores this takes a `CLOCK_REALTIME` that nobody sets. -/
structure TimedWaits (tickHz : Nat) (timeout : UInt32) (day : Nat) : Prop where
  semT : ∀ tr s, ((Waiter.machine (SemT.loop timeout) day).restrict (Waiter.Unset (SemT.loop timeout))).Run tr s →
    ((Waiter.machine (SemT.loop timeout) day).obey (Waiter.NotEarly (timeout.toNat * 10 ^ 6))).Run tr s ∧
      Waiter.Due (SemT.loop timeout) (timeout.toNat * 10 ^ 6) s
  queue : ∀ tr s, (Waiter.machine (TestQueue.loop timeout) day).Run tr s →
    ((Waiter.machine (TestQueue.loop timeout) day).obey (Waiter.NotEarly (timeout.toNat * 10 ^ 6))).Run tr s ∧
      ((Waiter.machine (TestQueue.loop timeout) day).obey (Waiter.Firm (timeout.toNat * 10 ^ 6))).Run tr s
  embassy : ∀ tr s, (Waiter.machine (Embassy.loop tickHz timeout) day).Run tr s →
    ((Waiter.machine (Embassy.loop tickHz timeout) day).obey (Waiter.NotEarly (Embassy.limit tickHz timeout))).Run tr s ∧
      ((Waiter.machine (Embassy.loop tickHz timeout) day).obey (Waiter.Firm (Embassy.limit tickHz timeout))).Run tr s
  pthread : ∀ tr s, ((Waiter.machine (Pthread.loop timeout) day).restrict (Waiter.Unset (Pthread.loop timeout))).Run tr s →
    ((Waiter.machine (Pthread.loop timeout) day).obey (Waiter.NotEarly (timeout.toNat * 10 ^ 6))).Run tr s
  putOff : ∀ bound, ∃ tr s,
    ((Waiter.machine (Pthread.loop timeout) day).restrict (Waiter.Unset (Pthread.loop timeout))).Run tr s ∧
      s.began = 0 ∧ s.now = bound ∧ s.phase = .sleeping day (some (day + bound + timeout.toNat * 10 ^ 6))
  early : ∀ loop ∈ [SemT.loop timeout, Pthread.loop timeout],
    ∃ tr s, (Waiter.machine loop day).Run tr s ∧ .expires ∈ tr ∧ s.now = 0

/-- A timeout is kept by every backend, and `WAIT_FOREVER` never runs out. -/
theorem timed_waits {tickHz : Nat} (ticking : 0 < tickHz) (day : Nat) :
    (∀ timeout, timeout ≠ waitForever → TimedWaits tickHz timeout day) ∧
    ∀ loop ∈ timedLoops tickHz waitForever, ∀ tr s, (Waiter.machine loop day).Run tr s → .givesUp ∉ tr ∧ .expires ∉ tr := by
  refine ⟨?_, ?_⟩
  · intro timeout finite
    refine ⟨?_, ?_, ?_, ?_, Pthread.put_off finite day, ?_⟩
    · intro tr s run
      exact ⟨Waiter.patient_run (SemT.patient finite) run, Waiter.due_run (SemT.punctual finite) run⟩
    · intro tr s run
      have unset := Waiter.steady_run rfl run
      exact ⟨Waiter.patient_run (TestQueue.patient finite) unset, Waiter.firm_run (TestQueue.firm finite) unset⟩
    · intro tr s run
      have unset := Waiter.steady_run rfl run
      exact ⟨Waiter.patient_run (Embassy.patient ticking) unset, Waiter.firm_run (Embassy.firm ticking finite) unset⟩
    · intro tr s run
      exact Waiter.patient_run (Pthread.patient finite) run
    · intro loop semaphore
      simp only [List.mem_cons, List.not_mem_nil, or_false] at semaphore
      obtain rfl | rfl := semaphore
      · exact early_when_set rfl (SemT.blocked_eq finite day day)
      · exact early_when_set rfl (Pthread.blocked_eq finite day day)
  · intro loop backend tr s run
    exact (Waiter.endless_run (loops_forever backend) run).kept

/-- Half a second on a clock of 32768 ticks, asleep for half a minute on macOS. -/
theorem timed_waits_half_second : Embassy.limit 32768 500 = 16384 ∧
    ∃ tr s, ((Waiter.machine (Pthread.loop 500) 0).restrict (Waiter.Unset (Pthread.loop 500))).Run tr s ∧
      s.began = 0 ∧ s.now = 30 * 10 ^ 9 ∧ s.phase = .sleeping 0 (some (0 + 30 * 10 ^ 9 + 500 * 10 ^ 6)) := by
  have ticking : 0 < 32768 := by decide
  exact ⟨by decide, ((timed_waits ticking 0).1 500 (by decide)).putOff (30 * 10 ^ 9)⟩

end Libcsp
