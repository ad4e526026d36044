import Libcsp.Queue.Monitor
import Mathlib.Data.Finset.Card
import Mathlib.Tactic.IntervalCases

namespace Libcsp.Queue.Monitor
open Sys

/-- What a thread waits for at each condition variable: items, or free places. -/
def supply (q : TestQueue) (data : List (List UInt8)) : Cond → Nat
  | .notEmpty => data.length
  | .notFull => q.maxLen - data.length

/-- Between acquiring the mutex and its `notify_one`. -/
def At.BeforeNotify {itemSize : Nat} : At itemSize → Prop
  | .testing _ _ _ | .acting _ _ _ | .unlocking _ _ | .notifying _ _ | .failing _ _ => True
  | _ => False

/-- Picked by a `notify_one` of the condition variable that it has not acted on yet. A
thread whose wait has timed out has used the notification up. -/
def At.Pending {itemSize : Nat} (cond : Cond) : At itemSize → Prop
  | .blocked call true => call.waitsOn = some cond
  | .woken call false true => call.waitsOn = some cond
  | _ => False

def At.Waiting {itemSize : Nat} (cond : Cond) : At itemSize → Prop
  | .blocked call false => call.waitsOn = some cond
  | _ => False

theorem At.Waiting.blocked {itemSize : Nat} {cond : Cond} {pc : At itemSize} (waits : pc.Waiting cond) :
    ∃ call, pc = .blocked call false ∧ call.waitsOn = some cond := by
  cases pc with
  | blocked call notified =>
    cases notified with
    | false => exact ⟨call, rfl, waits⟩
    | true => exact waits.elim
  | _ => exact waits.elim

/-- A caller without a timeout is blocked although what it waits for is there, and nobody
is about to notify it. -/
structure LostWakeup {τ : Type} (q : TestQueue) (s : State τ q.itemSize) (cond : Cond) : Prop where
  waiter : ∃ t call notified, s.pc t = .blocked call notified ∧ call.waitsOn = some cond ∧
    call.timeout = waitForever
  available : 0 < supply q s.data cond
  quiet : ∀ t, ¬ (s.pc t).BeforeNotify
  delivered : ∀ t, ¬ (s.pc t).Pending cond

/-- No wait that a `notify_one` has picked ends in a timeout. -/
def NoPickedTimeout {τ : Type} {itemSize : Nat} (s : State τ itemSize) : τ × Move itemSize → Prop
  | (t, .event (.woke true)) => ∀ call, s.pc t ≠ .blocked call true
  | _ => True

/-- A thread that answers for one item, or one free place: it will notify a waiter, or it
has been picked and will look for itself. -/
def At.Carries {itemSize : Nat} (cond : Cond) : At itemSize → Prop
  | .unlocking call _ => call.signals = some cond
  | .notifying call _ => call.signals = some cond
  | .blocked call true => call.waitsOn = some cond
  | .woken call false true => call.waitsOn = some cond
  | .testing call wake true => wake ≠ some true ∧ call.waitsOn = some cond
  | .acting call _ true => call.waitsOn = some cond
  | _ => False

variable {τ : Type} {q : TestQueue}

/-- While somebody waits, no more is there than threads answer for. -/
def Covered (q : TestQueue) (cond : Cond) (s : State τ q.itemSize) : Prop :=
  (∃ u, (s.pc u).Waiting cond) →
    ∃ carriers : Finset τ, (∀ t ∈ carriers, (s.pc t).Carries cond) ∧ supply q s.data cond ≤ carriers.card

theorem Covered.not_lost {cond : Cond} {s : State τ q.itemSize} (covered : Covered q cond s) :
    ¬ LostWakeup q s cond := by
  intro lost
  obtain ⟨t, call, notified, blocked, waitsOn, _⟩ := lost.waiter
  have waiting : (s.pc t).Waiting cond := by
    cases notified with
    | false => rwa [blocked]
    | true => exact absurd (by rwa [blocked]) (lost.delivered t)
  obtain ⟨carriers, carry, enough⟩ := covered ⟨t, waiting⟩
  have some : 0 < carriers.card := Nat.lt_of_lt_of_le lost.available enough
  obtain ⟨u, member⟩ := Finset.card_pos.mp some
  have busy := carry u member
  have quiet := lost.quiet u
  have delivered := lost.delivered u
  cases place : s.pc u with
  | blocked call notified => cases notified <;> simp_all [At.Carries, At.Pending]
  | woken call timedOut notified => cases timedOut <;> cases notified <;> simp_all [At.Carries, At.Pending]
  | _ => simp_all [At.Carries, At.BeforeNotify]

section
variable [DecidableEq τ] {cond : Cond} {s : State τ q.itemSize} {t : τ} {pc : At q.itemSize} {mutex : Option τ}
  {data : List (List UInt8)}

omit [DecidableEq τ] in
/-- Nothing is there to be waited for. -/
theorem Covered.of_none (nothing : supply q data cond = 0) (place : τ → At q.itemSize) :
    Covered q cond ⟨mutex, data, place⟩ :=
  fun _ => ⟨∅, by simp, by simp [nothing]⟩

theorem waiting_before (quiet : ¬ pc.Waiting cond)
    (waiting : ∃ u, (Function.update s.pc t pc u).Waiting cond) : ∃ u, (s.pc u).Waiting cond := by
  obtain ⟨u, waits⟩ := waiting
  simp only [Function.update_apply] at waits
  split_ifs at waits
  · exact absurd waits quiet
  · exact ⟨u, waits⟩

theorem Covered.of_nobody (nobody : ∀ u, ¬ (s.pc u).Waiting cond) (quiet : ¬ pc.Waiting cond) :
    Covered q cond ⟨mutex, data, Function.update s.pc t pc⟩ := by
  intro waiting
  obtain ⟨u, waits⟩ := waiting_before quiet waiting
  exact absurd waits (nobody u)

/-- A thread moves on and still answers for what it answered for. -/
theorem Covered.keep (covered : Covered q cond s) (quiet : ¬ pc.Waiting cond)
    (carries : (s.pc t).Carries cond → pc.Carries cond) :
    Covered q cond ⟨mutex, s.data, Function.update s.pc t pc⟩ := by
  intro waiting
  obtain ⟨carriers, carry, enough⟩ := covered (waiting_before quiet waiting)
  refine ⟨carriers, ?_, enough⟩
  intro u member
  simp only [Function.update_apply]
  split_ifs with own
  · subst own
    exact carries (carry u member)
  · exact carry u member

/-- A thread takes one, whether or not it answered for one. -/
theorem Covered.spend (covered : Covered q cond s) (quiet : ¬ pc.Waiting cond)
    (less : supply q data cond ≤ supply q s.data cond - 1) :
    Covered q cond ⟨mutex, data, Function.update s.pc t pc⟩ := by
  intro waiting
  obtain ⟨carriers, carry, enough⟩ := covered (waiting_before quiet waiting)
  refine ⟨carriers.erase t, ?_, ?_⟩
  · intro u member
    obtain ⟨other, member⟩ := Finset.mem_erase.mp member
    simp only [Function.update_of_ne other]
    exact carry u member
  · calc supply q data cond
        ≤ supply q s.data cond - 1 := less
      _ ≤ carriers.card - 1 := Nat.sub_le_sub_right enough 1
      _ ≤ (carriers.erase t).card := Finset.pred_card_le_card_erase

/-- A thread adds one and answers for it. -/
theorem Covered.gain (covered : Covered q cond s) (quiet : ¬ pc.Waiting cond) (carries : pc.Carries cond)
    (before : ¬ (s.pc t).Carries cond) (more : supply q data cond ≤ supply q s.data cond + 1) :
    Covered q cond ⟨mutex, data, Function.update s.pc t pc⟩ := by
  intro waiting
  obtain ⟨carriers, carry, enough⟩ := covered (waiting_before quiet waiting)
  refine ⟨insert t carriers, ?_, ?_⟩
  · intro u member
    simp only [Function.update_apply]
    split_ifs with own
    · exact carries
    · rcases Finset.mem_insert.mp member with same | member
      · exact absurd same own
      · exact carry u member
  · have new : t ∉ carriers := fun member => before (carry t member)
    calc supply q data cond
        ≤ supply q s.data cond + 1 := more
      _ ≤ carriers.card + 1 := Nat.add_le_add_right enough 1
      _ = (insert t carriers).card := (Finset.card_insert_of_notMem new).symm

omit [DecidableEq τ] in
theorem At.Waiting.not_carries {place : At q.itemSize} (waits : place.Waiting cond) : ¬ place.Carries cond := by
  obtain ⟨call, rfl, _⟩ := waits.blocked
  exact id

/-- A notification passes the duty on to the thread it picks. -/
theorem Covered.pass (covered : Covered q cond s) {u : τ} {picked : At q.itemSize} (waits : (s.pc u).Waiting cond)
    (other : u ≠ t) (carries : picked.Carries cond) :
    Covered q cond ⟨mutex, s.data, Function.update (Function.update s.pc u picked) t pc⟩ := by
  intro _
  obtain ⟨carriers, carry, enough⟩ := covered ⟨u, waits⟩
  have new : u ∉ carriers := fun member => waits.not_carries (carry u member)
  refine ⟨insert u (carriers.erase t), ?_, ?_⟩
  · intro v member
    rcases Finset.mem_insert.mp member with rfl | member
    · simp only [Function.update_of_ne other, Function.update_self]
      exact carries
    · obtain ⟨apart, member⟩ := Finset.mem_erase.mp member
      have notPicked : v ≠ u := fun same => new (same ▸ member)
      simp only [Function.update_of_ne apart, Function.update_of_ne notPicked]
      exact carry v member
  · have one : (insert u (carriers.erase t)).card = (carriers.erase t).card + 1 :=
      Finset.card_insert_of_notMem (fun member => new (Finset.mem_of_mem_erase member))
    have erased : carriers.card - 1 ≤ (carriers.erase t).card := Finset.pred_card_le_card_erase
    calc supply q s.data cond
        ≤ carriers.card := enough
      _ ≤ (insert u (carriers.erase t)).card := by omega

end

theorem supply_of_blocked {cond : Cond} {data : List (List UInt8)} {call : Call q.itemSize}
    (waitsOn : call.waitsOn = some cond) (blocked : call.blocked q data = true) : supply q data cond = 0 := by
  cases call with
  | enqueue src timeout =>
    cases waitsOn
    have full := of_decide_eq_true blocked
    simp only [supply]
    omega
  | dequeue dst timeout =>
    cases waitsOn
    simpa [supply, Call.blocked] using blocked
  | size => simp [Call.waitsOn] at waitsOn
  | empty => simp [Call.waitsOn] at waitsOn

theorem waitSection_wait {blocked late : Bool} {timeout : UInt32} {wake : Option Bool}
    (waits : waitSection blocked timeout wake late = .wait) : blocked = true := by
  unfold waitSection at waits
  split_ifs at waits <;> simp_all

/-- Without a timeout of the wait just finished, `false` is returned only to a caller that
is blocked. -/
theorem blocked_of_giveUp {blocked late : Bool} {timeout : UInt32} {wake : Option Bool} (inTime : wake ≠ some true)
    (givesUp : waitSection blocked timeout wake late = .giveUp) : blocked = true := by
  unfold waitSection at givesUp
  split_ifs at givesUp <;> simp_all

theorem act_supply {data data' : List (List UInt8)} {call : Call q.itemSize} {e : Event q.itemSize}
    {ret : Return q.itemSize} (acts : call.act q data = some (e, data', ret)) (cond : Cond) :
    call.waitsOn = some cond ∧ call.signals ≠ some cond ∧ supply q data' cond ≤ supply q data cond - 1 ∨
      call.signals = some cond ∧ call.waitsOn ≠ some cond ∧ supply q data' cond ≤ supply q data cond + 1 := by
  cases call with
  | enqueue src timeout =>
    cases acts
    cases cond with
    | notEmpty => exact Or.inr ⟨rfl, by simp [Call.waitsOn], by simp [supply]⟩
    | notFull => exact Or.inl ⟨rfl, by simp [Call.signals], by simp only [supply, List.length_append, List.length_singleton]; omega⟩
  | dequeue dst timeout =>
    simp only [Call.act] at acts
    cases popped : popFront data dst with
    | none => simp [popped] at acts
    | some found =>
      obtain ⟨dst', rest⟩ := found
      have length := popFront_length popped
      simp only [popped, Option.some.injEq, Prod.mk.injEq] at acts
      obtain ⟨rfl, rfl, rfl⟩ := acts
      cases cond with
      | notEmpty => exact Or.inl ⟨rfl, by simp [Call.signals], by simp only [supply]; omega⟩
      | notFull => exact Or.inr ⟨rfl, by simp [Call.waitsOn], by simp only [supply]; omega⟩
  | size => simp [Call.act] at acts
  | empty => simp [Call.act] at acts

theorem supply_of_act_none {cond : Cond} {data : List (List UInt8)} {call : Call q.itemSize}
    (waitsOn : call.waitsOn = some cond) (nothing : call.act q data = none) : supply q data cond = 0 := by
  cases call with
  | enqueue src timeout => simp [Call.act] at nothing
  | dequeue dst timeout =>
    cases waitsOn
    cases data with
    | nil => rfl
    | cons queued rest => simp [Call.act, popFront] at nothing
  | size => simp [Call.waitsOn] at waitsOn
  | empty => simp [Call.waitsOn] at waitsOn

section
variable [DecidableEq τ] {cond : Cond} {s s' : State τ q.itemSize} {a : τ × Move q.itemSize}

theorem Covered.step (covered : Covered q cond s) (step : Step q s a s') (inTime : NoPickedTimeout s a) :
    Covered q cond s' := by
  cases step with
  | called idle _ => exact covered.keep nofun (by rw [idle]; exact False.elim)
  | locked entering _ => exact covered.keep nofun (by rw [entering]; exact False.elim)
  | @relocked t call timedOut notified woken _ =>
    refine covered.keep nofun ?_
    rw [woken]
    cases timedOut <;> cases notified <;> simp [At.Carries]
  | @proceeds t call wake notified late testing _ =>
    refine covered.keep nofun ?_
    rw [testing]
    cases notified <;> simp [At.Carries]
  | @waits t call wake notified late testing verdict =>
    by_cases waitsOn : call.waitsOn = some cond
    · exact .of_none (supply_of_blocked waitsOn (waitSection_wait verdict)) _
    · refine covered.keep waitsOn ?_
      rw [testing]
      cases notified <;> simp [At.Carries, waitsOn]
  | @givesUp t call wake notified late testing verdict =>
    by_cases carries : (s.pc t).Carries cond
    · rw [testing] at carries
      cases notified with
      | false => exact carries.elim
      | true => exact .of_none (supply_of_blocked carries.2 (blocked_of_giveUp carries.1 verdict)) _
    · exact covered.keep nofun (fun carried => absurd carried carries)
  | @acted t call wake notified e data' ret acting acts =>
    rcases act_supply acts cond with ⟨_, _, less⟩ | ⟨signals, waitsOn, more⟩
    · exact covered.spend nofun less
    · refine covered.gain nofun signals ?_ more
      rw [acting]
      cases notified <;> simp [At.Carries, waitsOn]
  | @nothingThere t call wake notified acting nothing =>
    by_cases waitsOn : call.waitsOn = some cond
    · exact .of_none (supply_of_act_none waitsOn nothing) _
    · refine covered.keep nofun ?_
      rw [acting]
      cases notified <;> simp [At.Carries, waitsOn]
  | unlocked unlocking => exact covered.keep nofun (by rw [unlocking]; exact id)
  | unlockedFailed failing => exact covered.keep nofun (by rw [failing]; exact False.elim)
  | @woke t call notified timedOut blocked _ =>
    refine covered.keep nofun ?_
    rw [blocked]
    cases timedOut with
    | false => cases notified <;> simp [At.Carries]
    | true =>
      cases notified with
      | false => exact False.elim
      | true => exact absurd blocked (inTime call)
  | @notifiedOne t u call ret waiter notifying blocked waitsOn =>
    have apart : u ≠ t := by
      rintro rfl
      rw [blocked] at notifying
      exact nomatch notifying
    by_cases signals : call.signals = some cond
    · exact covered.pass (by rw [blocked]; exact waitsOn.trans signals) apart (waitsOn.trans signals)
    · have picked : Covered q cond (s.at u (.blocked waiter true)) :=
        covered.keep nofun (by rw [blocked]; exact False.elim)
      refine picked.keep nofun ?_
      simp only [State.at, Function.update_of_ne apart.symm, notifying]
      exact fun carries => absurd carries signals
  | @notifiedNone t call ret notifying nobody =>
    by_cases signals : call.signals = some cond
    · refine Covered.of_nobody ?_ nofun
      intro u waits
      obtain ⟨waiter, blocked, waitsOn⟩ := waits.blocked
      exact nobody u waiter blocked (waitsOn.trans signals.symm)
    · refine covered.keep nofun ?_
      rw [notifying]
      exact fun carries => absurd carries signals
  | returned leaving => exact covered.keep nofun (by rw [leaving]; exact False.elim)

/-- With any number of callers and any timeouts, as long as no wait that a notification
has picked ends in a timeout. -/
theorem no_lost_wakeup {tr : List (τ × Move q.itemSize)}
    (run : ((machine τ q).restrict NoPickedTimeout).Run tr s) (cond : Cond) : ¬ LostWakeup q s cond := by
  have covered : Covered q cond s := by
    refine run.invariant ?_ (fun covered step => covered.step step.1 step.2)
    rintro ⟨u, waiting⟩
    exact waiting.elim
  exact covered.not_lost

end

section
variable [DecidableEq τ] {allowed : State τ q.itemSize → τ × Move q.itemSize → Prop}
  {tr : List (τ × Move q.itemSize)} {s : State τ q.itemSize} {t u : τ}

/-- A caller that finds the queue empty, with nobody else around. -/
theorem dequeue_waits (allows : ∀ s a, NoPickedTimeout s a → allowed s a) (dst : Buffer q.itemSize) {timeout : UInt32}
    (run : ((machine τ q).restrict allowed).Run tr s) (idle : s.pc t = .idle) (free : s.mutex = none)
    (nothing : s.data = []) (patient : 0 < timeout) :
    ((machine τ q).restrict allowed).Run
      (tr ++ [(t, .event (.called (.dequeue dst timeout))), (t, .locks), (t, .event .waits)])
      (s.at t (.blocked (.dequeue dst timeout) false)) := by
  have called := run.next ⟨(Step.called idle rfl : Step q s (t, .event (.called (.dequeue dst timeout))) _),
    allows _ _ trivial⟩
  have locked := called.next ⟨Step.locked (Function.update_self ..) free, allows _ _ trivial⟩
  have verdict : waitSection (Call.blocked q s.data (.dequeue dst timeout)) timeout none false = .wait := by
    simp [Call.blocked, nothing, waitSection, patient]
  have waits := locked.next ⟨Step.waits (Function.update_self ..) verdict, allows _ _ trivial⟩
  simp only [State.at, Function.update_idem, List.append_assoc, List.cons_append, List.nil_append] at waits
  rw [← free] at waits
  exact waits

/-- A caller whose wait ends in a timeout returns without another look at the queue. -/
theorem dequeue_times_out (allows : ∀ s a, NoPickedTimeout s a → allowed s a) {dst : Buffer q.itemSize}
    {timeout : UInt32} {notified : Bool} (run : ((machine τ q).restrict allowed).Run tr s)
    (blocked : s.pc t = .blocked (.dequeue dst timeout) notified) (free : s.mutex = none)
    (patient : 0 < timeout) (timed : timeout ≠ waitForever) (times : allowed s (t, .event (.woke true))) :
    ((machine τ q).restrict allowed).Run
      (tr ++ [(t, .event (.woke true)), (t, .locks), (t, .event .failed), (t, .unlocks),
        (t, .event (.returned (.dequeue dst timeout) (.dequeued (shimCode false) dst)))])
      (s.at t .idle) := by
  have woke := run.next ⟨(Step.woke blocked (fun _ => timed) : Step q s (t, .event (.woke true)) _), times⟩
  have locked := woke.next ⟨Step.relocked (Function.update_self ..) free, allows _ _ trivial⟩
  have verdict : waitSection (Call.blocked q s.data (.dequeue dst timeout)) timeout (some true) false = .giveUp := by
    simp [waitSection, timed, patient]
  have failed := locked.next ⟨Step.givesUp (Function.update_self ..) verdict, allows _ _ trivial⟩
  have unlocked := failed.next ⟨Step.unlockedFailed (Function.update_self ..), allows _ _ trivial⟩
  have returned := unlocked.next ⟨Step.returned (Function.update_self ..), allows _ _ trivial⟩
  simp only [State.at, Function.update_idem, List.append_assoc, List.cons_append, List.nil_append] at returned
  rw [← free] at returned
  exact returned

/-- A caller that puts an item in and notifies some waiting thread. -/
theorem enqueue_notifies (allows : ∀ s a, NoPickedTimeout s a → allowed s a) (src : Buffer q.itemSize)
    (run : ((machine τ q).restrict allowed).Run tr s) (idle : s.pc t = .idle) (free : s.mutex = none)
    (room : s.data.length < q.maxLen) {waiter : Call q.itemSize} (blocked : s.pc u = .blocked waiter false)
    (waitsOn : waiter.waitsOn = some .notEmpty) :
    ((machine τ q).restrict allowed).Run
      (tr ++ [(t, .event (.called (.enqueue src 0))), (t, .locks), (t, .proceeds), (t, .event (.pushed src.item)),
        (t, .unlocks), (t, .event .notified), (t, .event (.returned (.enqueue src 0) (.enqueued (shimCode true))))])
      { s.at u (.blocked waiter true) with data := s.data ++ [src.item] } := by
  have apart : u ≠ t := by
    rintro rfl
    rw [blocked] at idle
    exact nomatch idle
  have called := run.next ⟨(Step.called idle rfl : Step q s (t, .event (.called (.enqueue src 0))) _),
    allows _ _ trivial⟩
  have locked := called.next ⟨Step.locked (Function.update_self ..) free, allows _ _ trivial⟩
  have verdict : waitSection (Call.blocked q s.data (.enqueue src 0)) 0 none false = .proceed := by
    simp [Call.blocked, waitSection, waitForever, room]
  have proceeds := locked.next ⟨Step.proceeds (Function.update_self ..) verdict, allows _ _ trivial⟩
  have acted := proceeds.next ⟨Step.acted (Function.update_self ..) rfl, allows _ _ trivial⟩
  have unlocked := acted.next ⟨Step.unlocked (Function.update_self ..), allows _ _ trivial⟩
  simp only [State.at, Function.update_idem] at unlocked
  have notified := unlocked.next ⟨Step.notifiedOne (u := u) (Function.update_self ..)
    (by simpa only [Function.update_of_ne apart] using blocked) waitsOn, allows _ _ trivial⟩
  have returned := notified.next ⟨Step.returned (Function.update_self ..), allows _ _ trivial⟩
  simp only [State.at, Function.update_idem, List.append_assoc, List.cons_append, List.nil_append] at returned
  rw [Function.update_comm apart, Function.update_idem, ← idle, Function.update_eq_self, ← free] at returned
  exact returned

end

/-- A queue for one item of no bytes, and the caller's memory for it. -/
def tinyQueue : TestQueue := ⟨1, 0⟩

def noBytes : Buffer tinyQueue.itemSize := ⟨[], Nat.zero_le _⟩

/-- Thread 0 waits for ever and thread 1 for ten milliseconds. Thread 2 puts an item in and
notifies one of them, and the wait of thread 1 ends in the timeout. -/
def itemAndTimeout : List (Nat × Move tinyQueue.itemSize) :=
  [(0, .event (.called (.dequeue noBytes waitForever))), (0, .locks), (0, .event .waits),
    (1, .event (.called (.dequeue noBytes 10))), (1, .locks), (1, .event .waits),
    (2, .event (.called (.enqueue noBytes 0))), (2, .locks), (2, .proceeds), (2, .event (.pushed noBytes.item)),
    (2, .unlocks), (2, .event .notified), (2, .event (.returned (.enqueue noBytes 0) (.enqueued (shimCode true)))),
    (1, .event (.woke true)), (1, .locks), (1, .event .failed), (1, .unlocks),
    (1, .event (.returned (.dequeue noBytes 10) (.dequeued (shimCode false) noBytes)))]

/-- Whichever of the two waiting threads is picked. -/
theorem itemAndTimeout_run {allowed : State Nat tinyQueue.itemSize → Nat × Move tinyQueue.itemSize → Prop}
    (allows : ∀ s a, NoPickedTimeout s a → allowed s a) {picked : Nat} (which : picked < 2)
    (times : ∀ s : State Nat tinyQueue.itemSize, s.pc 1 = .blocked (.dequeue noBytes 10) (decide (picked = 1)) →
      allowed s (1, .event (.woke true))) :
    ∃ s, ((machine Nat tinyQueue).restrict allowed).Run itemAndTimeout s ∧ s.data = [noBytes.item] ∧
      s.pc 0 = .blocked (.dequeue noBytes waitForever) (decide (picked = 0)) ∧ ∀ t, 0 < t → s.pc t = .idle := by
  have empty : ((machine Nat tinyQueue).restrict allowed).Run [] ⟨none, [], fun _ => .idle⟩ := .start
  have forever := @dequeue_waits _ _ _ _ _ _ 0 allows noBytes waitForever empty rfl rfl rfl (by decide)
  have waiting := @dequeue_waits _ _ _ _ _ _ 1 allows noBytes 10 forever rfl rfl rfl (by decide)
  obtain ⟨s, both, free, nothing, first, second, others⟩ : ∃ s : State Nat tinyQueue.itemSize,
      ((machine Nat tinyQueue).restrict allowed).Run (itemAndTimeout.take 6) s ∧ s.mutex = none ∧ s.data = [] ∧
        s.pc 0 = .blocked (.dequeue noBytes waitForever) false ∧ s.pc 1 = .blocked (.dequeue noBytes 10) false ∧
        ∀ t, s.pc (t + 2) = .idle :=
    ⟨_, waiting, rfl, rfl, rfl, rfl, fun _ => rfl⟩
  have room : s.data.length < 1 := by simp [nothing]
  interval_cases picked
  · have stored := @enqueue_notifies _ _ _ _ _ s 2 0 allows noBytes both (others 0) free room _ first rfl
    have late := @dequeue_times_out _ _ _ _ _ _ 1 allows _ _ _ stored second free (by decide) (by decide)
      (times _ second)
    exact ⟨_, late, by simp [State.at, nothing], rfl, fun | 1, _ => rfl | t + 2, _ => others t⟩
  · have stored := @enqueue_notifies _ _ _ _ _ s 2 1 allows noBytes both (others 0) free room _ second rfl
    have late := @dequeue_times_out _ _ _ _ _ _ 1 allows _ _ _ stored rfl free (by decide) (by decide) (times _ rfl)
    exact ⟨_, late, by simp [State.at, nothing], first, fun | 1, _ => rfl | t + 2, _ => others t⟩

/-- The notification picks thread 1, whose wait ends in the timeout all the same. -/
theorem timeout_takes_the_notification :
    ∃ tr s, (machine Nat tinyQueue).Run tr s ∧ LostWakeup tinyQueue s .notEmpty := by
  obtain ⟨s, run, stored, waits, idle⟩ := @itemAndTimeout_run (fun _ _ => True) (fun _ _ _ => trivial) 1
    (by decide) (fun _ _ => trivial)
  have quiet : ∀ t, s.pc t = .blocked (.dequeue noBytes waitForever) false ∨ s.pc t = .idle
    | 0 => Or.inl waits
    | t + 1 => Or.inr (idle _ t.succ_pos)
  refine ⟨_, s, run.of_restrict, ⟨0, _, _, waits, rfl, rfl⟩, by simp [supply, stored], ?_, ?_⟩ <;>
    · intro t
      rcases quiet t with place | place <;> rw [place] <;> exact id

/-- The notification picks thread 0, and the wait of thread 1 may end in the timeout. -/
theorem no_lost_wakeup_one_late :
    ∃ s, ((machine Nat tinyQueue).restrict NoPickedTimeout).Run itemAndTimeout s ∧ s.data = [noBytes.item] ∧
      s.pc 0 = .blocked (.dequeue noBytes waitForever) true ∧ ∀ cond, ¬ LostWakeup tinyQueue s cond := by
  obtain ⟨s, run, stored, picked, _⟩ := @itemAndTimeout_run NoPickedTimeout (fun _ _ allowed => allowed) 0
    (by decide) (fun s waits call blocked => nomatch waits.symm.trans blocked)
  exact ⟨s, run, stored, picked, no_lost_wakeup run⟩

end Libcsp.Queue.Monitor
