import Libcsp.Queue.Linearizable

namespace Libcsp.Queue
open Sys

/-- The two condition variables of `TestQueue`. -/
inductive Cond
  | notEmpty | notFull
  deriving DecidableEq

def Call.waitsOn {itemSize : Nat} : Call itemSize → Option Cond
  | .enqueue _ _ => some .notFull
  | .dequeue _ _ => some .notEmpty
  | .size | .empty => none

def Call.signals {itemSize : Nat} : Call itemSize → Option Cond
  | .enqueue _ _ => some .notEmpty
  | .dequeue _ _ => some .notFull
  | .size | .empty => none

/-- The test of the wait loops. -/
def Call.blocked (q : TestQueue) (data : List (List UInt8)) : Call q.itemSize → Bool
  | .enqueue _ _ => decide (q.maxLen ≤ data.length)
  | .dequeue _ _ => data.isEmpty
  | .size | .empty => false

/-- `push_back`, or `pop_front` and the copy to the caller. -/
def Call.act (q : TestQueue) (data : List (List UInt8)) :
    Call q.itemSize → Option (Event q.itemSize × List (List UInt8) × Return q.itemSize)
  | .enqueue src _ => some (.pushed src.item, data ++ [src.item], .enqueued (shimCode true))
  | .dequeue dst _ =>
    match popFront data dst with
    | some (dst', rest) => some (.popped dst'.item, rest, .dequeued (shimCode true) dst')
    | none => none
  | .size | .empty => none

def Call.failure {itemSize : Nat} : Call itemSize → Return itemSize
  | .enqueue _ _ => .enqueued (shimCode false)
  | .dequeue dst _ => .dequeued (shimCode false) dst
  | .size => .sized 0
  | .empty => .emptied

namespace Monitor

/-- Where a thread is within `queue_enqueue` or `queue_dequeue`. From `testing` to
`unlocking`, and at `failing`, it has the mutex. After a wait it is remembered whether a
`notify_one` had picked the thread, which the thread itself cannot see. -/
inductive At (itemSize : Nat)
  | idle
  | entering (call : Call itemSize)
  | testing (call : Call itemSize) (wake : Option Bool) (notified : Bool)
  | acting (call : Call itemSize) (wake : Option Bool) (notified : Bool)
  | unlocking (call : Call itemSize) (ret : Return itemSize)
  | notifying (call : Call itemSize) (ret : Return itemSize)
  | failing (call : Call itemSize) (ret : Return itemSize)
  | blocked (call : Call itemSize) (notified : Bool)
  | woken (call : Call itemSize) (timedOut notified : Bool)
  | leaving (call : Call itemSize) (ret : Return itemSize)

structure State (τ : Type) (itemSize : Nat) where
  mutex : Option τ
  data : List (List UInt8)
  pc : τ → At itemSize

/-- The events of `Queue.machine`, and the steps that nobody else can see. -/
inductive Move (itemSize : Nat)
  | event (e : Event itemSize)
  | locks
  | proceeds
  | unlocks

variable {τ : Type} [DecidableEq τ] {q : TestQueue}

def State.at {itemSize : Nat} (s : State τ itemSize) (t : τ) (pc : At itemSize) : State τ itemSize :=
  { s with pc := Function.update s.pc t pc }

/-- One step for each lock, test, wait, re-lock, push or pop, unlock and notification. A
condition wait may end at any time; if it has a timeout it may also time out, whether or
not a `notify_one` has picked it. -/
inductive Step (q : TestQueue) : State τ q.itemSize → τ × Move q.itemSize → State τ q.itemSize → Prop
  | called {s t call} : s.pc t = .idle → (call.waitsOn).isSome →
      Step q s (t, .event (.called call)) (s.at t (.entering call))
  | locked {s t call} : s.pc t = .entering call → s.mutex = none →
      Step q s (t, .locks) { s.at t (.testing call none false) with mutex := some t }
  | relocked {s t call timedOut notified} : s.pc t = .woken call timedOut notified → s.mutex = none →
      Step q s (t, .locks) { s.at t (.testing call (some timedOut) notified) with mutex := some t }
  | proceeds {s t call wake notified late} : s.pc t = .testing call wake notified →
      waitSection (call.blocked q s.data) call.timeout wake late = .proceed →
      Step q s (t, .proceeds) (s.at t (.acting call wake notified))
  | waits {s t call wake notified late} : s.pc t = .testing call wake notified →
      waitSection (call.blocked q s.data) call.timeout wake late = .wait →
      Step q s (t, .event .waits) { s.at t (.blocked call false) with mutex := none }
  | givesUp {s t call wake notified late} : s.pc t = .testing call wake notified →
      waitSection (call.blocked q s.data) call.timeout wake late = .giveUp →
      Step q s (t, .event .failed) (s.at t (.failing call call.failure))
  | acted {s t call wake notified e data' ret} : s.pc t = .acting call wake notified →
      call.act q s.data = some (e, data', ret) →
      Step q s (t, .event e) { s.at t (.unlocking call ret) with data := data' }
  | nothingThere {s t call wake notified} : s.pc t = .acting call wake notified → call.act q s.data = none →
      Step q s (t, .event .failed) (s.at t (.failing call call.failure))
  | unlocked {s t call ret} : s.pc t = .unlocking call ret →
      Step q s (t, .unlocks) { s.at t (.notifying call ret) with mutex := none }
  | unlockedFailed {s t call ret} : s.pc t = .failing call ret →
      Step q s (t, .unlocks) { s.at t (.leaving call ret) with mutex := none }
  | woke {s t call notified timedOut} : s.pc t = .blocked call notified →
      (timedOut = true → call.timeout ≠ waitForever) →
      Step q s (t, .event (.woke timedOut)) (s.at t (.woken call timedOut notified))
  | notifiedOne {s t u call ret waiter} : s.pc t = .notifying call ret → s.pc u = .blocked waiter false →
      waiter.waitsOn = call.signals →
      Step q s (t, .event .notified) ((s.at u (.blocked waiter true)).at t (.leaving call ret))
  | notifiedNone {s t call ret} : s.pc t = .notifying call ret →
      (∀ u waiter, s.pc u = .blocked waiter false → waiter.waitsOn ≠ call.signals) →
      Step q s (t, .event .notified) (s.at t (.leaving call ret))
  | returned {s t call ret} : s.pc t = .leaving call ret →
      Step q s (t, .event (.returned call ret)) (s.at t .idle)

def machine (τ : Type) [DecidableEq τ] (q : TestQueue) :
    Machine (State τ q.itemSize) (τ × Move q.itemSize) where
  init := ⟨none, [], fun _ => .idle⟩
  step := Step q

/-- The place of `Queue.machine`, in which a pass through the mutex is one step. -/
def At.shown {itemSize : Nat} : At itemSize → Queue.At itemSize
  | .idle => .idle
  | .entering call => .ready call none
  | .testing call wake _ => .ready call wake
  | .acting call wake _ => .ready call wake
  | .unlocking call ret => .notifying call ret
  | .notifying call ret => .notifying call ret
  | .failing call ret => .leaving call ret
  | .blocked call notified => .blocked call notified
  | .woken call timedOut _ => .ready call (some timedOut)
  | .leaving call ret => .leaving call ret

def At.HasMutex {itemSize : Nat} : At itemSize → Prop
  | .testing _ _ _ | .acting _ _ _ | .unlocking _ _ | .failing _ _ => True
  | _ => False

def At.call? {itemSize : Nat} : At itemSize → Option (Call itemSize)
  | .idle => none
  | .entering call | .testing call _ _ | .acting call _ _ | .unlocking call _ | .notifying call _
  | .failing call _ | .blocked call _ | .woken call _ _ | .leaving call _ => some call

/-- The decision to go on, made under the mutex, still stands. -/
def At.Decided (q : TestQueue) (data : List (List UInt8)) : At q.itemSize → Prop
  | .acting call wake _ => ∃ late, waitSection (call.blocked q data) call.timeout wake late = .proceed
  | _ => True

structure Shows (q : TestQueue) (s : State τ q.itemSize) (x : Queue.State τ q.itemSize) : Prop where
  data : x.data = s.data
  pc : ∀ t, x.pc t = (s.pc t).shown
  owner : ∀ t, (s.pc t).HasMutex → s.mutex = some t
  decided : ∀ t, (s.pc t).Decided q s.data
  kind : ∀ t call, (s.pc t).call? = some call → call.waitsOn.isSome

section
variable {s : State τ q.itemSize} {x : Queue.State τ q.itemSize} {t : τ}

/-- A step of one thread. The others keep the mutex if they have it, and then the data
stays as it is. -/
theorem Shows.move (rel : Shows q s x) (pc : At q.itemSize) {mutex : Option τ} {data : List (List UInt8)}
    (owner : pc.HasMutex → mutex = some t) (others : ∀ u, u ≠ t → s.mutex = some u → mutex = some u ∧ data = s.data)
    (decided : pc.Decided q data) (kind : ∀ call, pc.call? = some call → call.waitsOn.isSome) :
    Shows q ⟨mutex, data, Function.update s.pc t pc⟩ ⟨data, Function.update x.pc t pc.shown⟩ where
  data := rfl
  pc := by
    intro u
    simp only [Function.update_apply]
    split_ifs
    · rfl
    · exact rel.pc u
  owner := by
    intro u holds
    simp only [Function.update_apply] at holds
    split_ifs at holds with own
    · rw [own]
      exact owner holds
    · exact (others u own (rel.owner u holds)).1
  decided := by
    intro u
    simp only [Function.update_apply]
    split_ifs with own
    · exact decided
    · have stands := rel.decided u
      cases place : s.pc u with
      | acting call wake notified =>
        have holds : s.mutex = some u := rel.owner u (by rw [place]; trivial)
        rw [place] at stands
        rwa [(others u own holds).2]
      | _ => trivial
  kind := by
    intro u call isCall
    simp only [Function.update_apply] at isCall
    split_ifs at isCall
    · exact kind call isCall
    · exact rel.kind u call isCall

omit [DecidableEq τ] in
/-- A thread that has the mutex has it alone. -/
theorem Shows.alone (rel : Shows q s x) (holds : (s.pc t).HasMutex) {u : τ} (other : u ≠ t) : s.mutex ≠ some u := by
  rw [rel.owner t holds]
  exact fun same => other (Option.some.inj same).symm

/-- A step that the coarse machine does not see. -/
theorem Shows.silent (rel : Shows q s x) (pc : At q.itemSize) {mutex : Option τ} (same : pc.shown = (s.pc t).shown)
    (owner : pc.HasMutex → mutex = some t) (others : ∀ u, u ≠ t → s.mutex = some u → mutex = some u)
    (decided : pc.Decided q s.data) (kind : pc.call? = (s.pc t).call?) :
    Shows q ⟨mutex, s.data, Function.update s.pc t pc⟩ x := by
  have moved := rel.move pc owner (fun u other held => ⟨others u other held, rfl⟩) decided
    (fun call isCall => rel.kind t call (kind ▸ isCall))
  rw [same, ← rel.pc t, Function.update_eq_self] at moved
  have unchanged : x = ⟨s.data, x.pc⟩ := by rw [← rel.data]
  rw [unchanged]
  exact moved

end

section
variable {x : Queue.State τ q.itemSize} {t : τ} {call : Call q.itemSize} {wake : Option Bool} {late : Bool}

theorem section_waits (ready : x.pc t = .ready call wake) (kind : call.waitsOn.isSome)
    (verdict : waitSection (call.blocked q x.data) call.timeout wake late = .wait) :
    Queue.Step q x (t, .waits) ⟨x.data, Function.update x.pc t (.blocked call false)⟩ := by
  cases call with
  | enqueue src timeout =>
    simp only [Call.blocked, Call.timeout] at verdict
    have pass : enqueuePass q x.data src timeout wake late = .waits := by rw [enqueuePass, verdict]
    exact .enqueueWaits ready pass
  | dequeue dst timeout =>
    simp only [Call.blocked, Call.timeout] at verdict
    have pass : dequeuePass x.data dst timeout wake late = .waits := by rw [dequeuePass, verdict]
    exact .dequeueWaits ready pass
  | size => simp [Call.waitsOn] at kind
  | empty => simp [Call.waitsOn] at kind

theorem section_givesUp (ready : x.pc t = .ready call wake) (kind : call.waitsOn.isSome)
    (verdict : waitSection (call.blocked q x.data) call.timeout wake late = .giveUp) :
    Queue.Step q x (t, .failed) ⟨x.data, Function.update x.pc t (.leaving call call.failure)⟩ := by
  cases call with
  | enqueue src timeout =>
    simp only [Call.blocked, Call.timeout] at verdict
    have pass : enqueuePass q x.data src timeout wake late = .failed := by rw [enqueuePass, verdict]
    exact .enqueueFailed ready pass
  | dequeue dst timeout =>
    simp only [Call.blocked, Call.timeout] at verdict
    have pass : dequeuePass x.data dst timeout wake late = .failed := by rw [dequeuePass, verdict]
    exact .dequeueFailed ready pass
  | size => simp [Call.waitsOn] at kind
  | empty => simp [Call.waitsOn] at kind

theorem section_acts (ready : x.pc t = .ready call wake)
    (verdict : waitSection (call.blocked q x.data) call.timeout wake late = .proceed)
    {e : Event q.itemSize} {data : List (List UInt8)} {ret : Return q.itemSize}
    (acts : call.act q x.data = some (e, data, ret)) :
    Queue.Step q x (t, e) ⟨data, Function.update x.pc t (.notifying call ret)⟩ := by
  cases call with
  | enqueue src timeout =>
    simp only [Call.blocked, Call.timeout] at verdict
    have pass : enqueuePass q x.data src timeout wake late = .done (x.data ++ [src.item]) := by
      rw [enqueuePass, verdict]
    cases acts
    exact .pushed ready pass
  | dequeue dst timeout =>
    simp only [Call.blocked, Call.timeout] at verdict
    simp only [Call.act] at acts
    cases popped : popFront x.data dst with
    | none => simp [popped] at acts
    | some found =>
      obtain ⟨dst', rest⟩ := found
      have pass : dequeuePass x.data dst timeout wake late = .done (dst', rest) := by
        rw [dequeuePass, verdict, popped]
      simp only [popped, Option.some.injEq, Prod.mk.injEq] at acts
      obtain ⟨rfl, rfl, rfl⟩ := acts
      exact .popped ready pass
  | size => simp [Call.act] at acts
  | empty => simp [Call.act] at acts

omit [DecidableEq τ] in
/-- The `else` behind `pop_front` is not reached. -/
theorem section_finds (kind : call.waitsOn.isSome)
    (verdict : waitSection (call.blocked q x.data) call.timeout wake late = .proceed) :
    call.act q x.data ≠ none := by
  have free := waitSection_proceed verdict
  cases call with
  | enqueue src timeout => simp [Call.act]
  | dequeue dst timeout =>
    cases filled : x.data with
    | nil => simp [Call.blocked, filled] at free
    | cons queued rest => simp [Call.act, popFront]
  | size => simp [Call.waitsOn] at kind
  | empty => simp [Call.waitsOn] at kind

theorem notifies_iff {waiter : Call q.itemSize} (kind : call.waitsOn.isSome) :
    call.notifies waiter = true ↔ waiter.waitsOn = call.signals := by
  cases call <;> cases waiter <;> simp_all [Call.notifies, Call.waitsOn, Call.signals]

end

def observed {itemSize : Nat} : τ × Move itemSize → Option (τ × Event itemSize)
  | (t, .event e) => some (t, e)
  | _ => none

theorem At.shown_blocked {itemSize : Nat} {pc : At itemSize} {call : Call itemSize} {notified : Bool}
    (shown : pc.shown = .blocked call notified) : pc = .blocked call notified := by
  cases pc <;> simp_all [At.shown]

section
variable {s s' : State τ q.itemSize} {x : Queue.State τ q.itemSize} {t : τ}

/-- Each step that can be seen is the step of a whole section. -/
theorem Shows.event (rel : Shows q s x) {e : Event q.itemSize} (step : Step q s (t, .event e) s') :
    ∃ y, Queue.Step q x (t, e) y ∧ Shows q s' y := by
  obtain ⟨data, pc⟩ := x
  obtain rfl : data = s.data := rel.data
  have shows : ∀ place, s.pc t = place → pc t = place.shown := fun place here => here ▸ rel.pc t
  have kind : ∀ call, (s.pc t).call? = some call → call.waitsOn.isSome := rel.kind t
  have keep : ∀ u, u ≠ t → s.mutex = some u → s.mutex = some u ∧ s.data = s.data := fun _ _ held => ⟨held, rfl⟩
  cases step with
  | @called _ call idle isKind =>
    refine ⟨_, Queue.Step.called (shows _ idle) (by rintro rfl; exact nomatch isKind), ?_⟩
    exact rel.move (.entering call) nofun keep trivial (by rintro _ ⟨⟩; exact isKind)
  | @waits _ call _ _ _ testing verdict =>
    have isKind := kind call (by rw [testing]; rfl)
    refine ⟨_, section_waits (shows _ testing) isKind verdict, ?_⟩
    refine rel.move (.blocked call false) nofun ?_ trivial (by rintro _ ⟨⟩; exact isKind)
    exact fun u other held => absurd held (rel.alone (by rw [testing]; trivial) other)
  | @givesUp _ call _ _ _ testing verdict =>
    have isKind := kind call (by rw [testing]; rfl)
    refine ⟨_, section_givesUp (shows _ testing) isKind verdict, ?_⟩
    refine rel.move (.failing call call.failure) ?_ keep trivial (by rintro _ ⟨⟩; exact isKind)
    exact fun _ => rel.owner t (by rw [testing]; trivial)
  | @acted _ call _ _ e data' ret acting acts =>
    have isKind := kind call (by rw [acting]; rfl)
    have holds : (s.pc t).HasMutex := by rw [acting]; trivial
    obtain ⟨late, verdict⟩ : At.Decided q s.data (.acting call _ _) := acting ▸ rel.decided t
    refine ⟨_, section_acts (shows _ acting) verdict acts, ?_⟩
    refine rel.move (.unlocking call ret) (fun _ => rel.owner t holds) ?_ trivial (by rintro _ ⟨⟩; exact isKind)
    exact fun u other held => absurd held (rel.alone holds other)
  | @nothingThere _ call _ _ acting nothing =>
    obtain ⟨late, verdict⟩ : At.Decided q s.data (.acting call _ _) := acting ▸ rel.decided t
    exact absurd nothing (section_finds (x := ⟨s.data, pc⟩) (kind call (by rw [acting]; rfl)) verdict)
  | @woke _ call notified timedOut blocked timed =>
    refine ⟨_, Queue.Step.woke (shows _ blocked) timed, ?_⟩
    exact rel.move (.woken call timedOut notified) nofun keep trivial
      (by rintro _ ⟨⟩; exact kind call (by rw [blocked]; rfl))
  | @notifiedOne _ u call ret waiter notifying blocked waits =>
    have isKind := kind call (by rw [notifying]; rfl)
    have before : (pc t).afterNotify = some (call, .leaving call ret) := by rw [shows _ notifying]; rfl
    refine ⟨_, Queue.Step.notifiedOne before (by rw [rel.pc, blocked]; rfl) ((notifies_iff isKind).mpr waits), ?_⟩
    have picked := rel.move (t := u) (.blocked waiter true) nofun (fun _ _ held => ⟨held, rfl⟩) trivial
      (by rintro _ ⟨⟩; exact rel.kind u waiter (by rw [blocked]; rfl))
    exact picked.move (.leaving call ret) nofun (fun _ _ held => ⟨held, rfl⟩) trivial
      (by rintro _ ⟨⟩; exact isKind)
  | @notifiedNone _ call ret notifying nobody =>
    have isKind := kind call (by rw [notifying]; rfl)
    have before : (pc t).afterNotify = some (call, .leaving call ret) := by rw [shows _ notifying]; rfl
    refine ⟨_, Queue.Step.notifiedNone before ?_, ?_⟩
    · intro u waiter blocked
      rw [rel.pc] at blocked
      rw [Bool.eq_false_iff, ne_eq, notifies_iff isKind]
      exact nobody u waiter (At.shown_blocked blocked)
    · exact rel.move (.leaving call ret) nofun keep trivial (by rintro _ ⟨⟩; exact isKind)
  | @returned _ call ret leaving =>
    exact ⟨_, Queue.Step.returned (shows _ leaving), rel.move .idle nofun keep trivial nofun⟩

theorem Shows.quiet (rel : Shows q s x) {move : Move q.itemSize} (step : Step q s (t, move) s')
    (unseen : observed (t, move) = none) : Shows q s' x := by
  have given : (s.pc t).HasMutex → ∀ u, u ≠ t → s.mutex = some u → (none : Option τ) = some u :=
    fun holds u other held => absurd held (rel.alone holds other)
  cases step with
  | @locked _ call entering free =>
    refine rel.silent (.testing call none false) (by rw [entering]; rfl) (fun _ => rfl) ?_ trivial
      (by rw [entering]; rfl)
    exact fun u _ held => nomatch free.symm.trans held
  | @relocked _ call timedOut notified woken free =>
    refine rel.silent (.testing call (some timedOut) notified) (by rw [woken]; rfl) (fun _ => rfl) ?_ trivial
      (by rw [woken]; rfl)
    exact fun u _ held => nomatch free.symm.trans held
  | @proceeds _ call wake notified late testing verdict =>
    exact rel.silent (.acting call wake notified) (by rw [testing]; rfl)
      (fun _ => rel.owner t (by rw [testing]; trivial)) (fun _ _ held => held) ⟨late, verdict⟩
      (by rw [testing]; rfl)
  | @unlocked _ call ret unlocking =>
    exact rel.silent (.notifying call ret) (by rw [unlocking]; rfl) nofun (given (by rw [unlocking]; trivial))
      trivial (by rw [unlocking]; rfl)
  | @unlockedFailed _ call ret failing =>
    exact rel.silent (.leaving call ret) (by rw [failing]; rfl) nofun (given (by rw [failing]; trivial))
      trivial (by rw [failing]; rfl)
  | _ => exact nomatch unseen

end

/-- The sections under the mutex can be taken as single steps. -/
theorem refines_sections (τ : Type) [DecidableEq τ] (q : TestQueue) :
    Refines (machine τ q) (Queue.machine τ q) (Shows q) observed where
  init := ⟨rfl, fun _ => rfl, fun _ holds => holds.elim, fun _ => trivial, fun _ _ isCall => nomatch isCall⟩
  visible := by
    rintro s ⟨t, move⟩ s' x b rel step seen
    cases move with
    | event e =>
      cases seen
      exact rel.event step
    | locks | proceeds | unlocks => exact nomatch seen
  silent := fun rel step unseen => rel.quiet step unseen

/-- Whatever the interleaving of the steps, items come out as they went in. -/
theorem conserves {tr : List (τ × Move q.itemSize)} {s : State τ q.itemSize} (run : (machine τ q).Run tr s) :
    s.data.length ≤ q.maxLen ∧
      (tr.filterMap observed).filterMap (·.2.popped?) ++ s.data = (tr.filterMap observed).filterMap (·.2.pushed?) := by
  obtain ⟨x, sections, shows⟩ := (refines_sections τ q).run run
  rw [← shows.data]
  exact contents sections

end Monitor

end Libcsp.Queue
