import Libcsp.Arch
import Libcsp.Base.Fifo
import Mathlib.Logic.Function.Basic

namespace Libcsp.Queue
open Sys

/-- The part of `TestQueue` that never changes. -/
structure TestQueue where
  maxLen : Nat
  itemSize : Nat
  deriving DecidableEq, Repr

def queueCreate (itemSize length : Nat) : Option TestQueue := some ⟨length, itemSize⟩

/-- What one pass through the mutex decides in `queue_enqueue` and `queue_dequeue`. -/
inductive Verdict
  | proceed | giveUp | wait
  deriving DecidableEq, Repr

/-- The timeout branches of both operations up to the next wait. `blocked` is the test
of the wait loops, `wake` the `timed_out()` of the wait just finished (`none` on the
first pass) and `late` the answer of `now >= deadline`. -/
def waitSection (blocked : Bool) (timeout : UInt32) (wake : Option Bool) (late : Bool) : Verdict :=
  if timeout = waitForever then
    if blocked then .wait else .proceed
  else if 0 < timeout then
    if wake = some true then .giveUp
    else if blocked then
      if late then .giveUp else .wait
    else .proceed
  else if blocked then .giveUp else .proceed

def popFront {itemSize : Nat} (data : List (List UInt8)) (dst : Buffer itemSize) :
    Option (Buffer itemSize × List (List UInt8)) :=
  match data with
  | [] => none
  | queued :: rest =>
    let copyLen := min queued.length itemSize
    some (dst.store (queued.take copyLen) (by simp only [List.length_take]; omega), rest)

theorem popFront_item {itemSize : Nat} {data rest : List (List UInt8)} {dst dst' : Buffer itemSize}
    (sized : ∀ item ∈ data, item.length = itemSize) (popped : popFront data dst = some (dst', rest)) :
    data = dst'.item :: rest := by
  cases data with
  | nil => exact nomatch popped
  | cons queued rest =>
    cases popped
    have size := sized queued (List.mem_cons_self ..)
    have whole : queued.take (min queued.length itemSize) = queued := List.take_of_length_le (by omega)
    simp only [whole, Buffer.store_item size]

theorem popFront_frame {itemSize : Nat} {data rest : List (List UInt8)} {dst dst' : Buffer itemSize}
    (popped : popFront data dst = some (dst', rest)) : dst'.bytes.drop itemSize = dst.bytes.drop itemSize := by
  cases data with
  | nil => exact nomatch popped
  | cons queued rest =>
    cases popped
    exact Buffer.store_frame _

theorem popFront_length {itemSize : Nat} {data rest : List (List UInt8)} {dst dst' : Buffer itemSize}
    (popped : popFront data dst = some (dst', rest)) : data.length = rest.length + 1 := by
  cases data with
  | nil => exact nomatch popped
  | cons queued rest =>
    cases popped
    rfl

/-- One pass of an operation through the mutex: it succeeds, returns `false` or waits. -/
inductive Pass (α : Type)
  | done (x : α)
  | failed
  | waits

/-- `queue_enqueue` from taking the mutex to releasing it. -/
def enqueuePass (q : TestQueue) (data : List (List UInt8)) (src : Buffer q.itemSize) (timeout : UInt32)
    (wake : Option Bool) (late : Bool) : Pass (List (List UInt8)) :=
  match waitSection (decide (q.maxLen ≤ data.length)) timeout wake late with
  | .wait => .waits
  | .giveUp => .failed
  | .proceed => .done (data ++ [src.item])

def dequeuePass {itemSize : Nat} (data : List (List UInt8)) (dst : Buffer itemSize) (timeout : UInt32)
    (wake : Option Bool) (late : Bool) : Pass (Buffer itemSize × List (List UInt8)) :=
  match waitSection data.isEmpty timeout wake late with
  | .wait => .waits
  | .giveUp => .failed
  | .proceed =>
    match popFront data dst with
    | some popped => .done popped
    | none => .failed

theorem waitSection_proceed {blocked late : Bool} {timeout : UInt32} {wake : Option Bool}
    (proceeds : waitSection blocked timeout wake late = .proceed) : blocked = false := by
  unfold waitSection at proceeds
  split_ifs at proceeds <;> simp_all

/-- Who neither proceeds nor comes from a timeout is in the way of the queue. -/
theorem waitSection_hindered {blocked late : Bool} {timeout : UInt32} {wake : Option Bool}
    (stops : waitSection blocked timeout wake late ≠ .proceed) : blocked = true ∨ wake = some true := by
  unfold waitSection at stops
  split_ifs at stops <;> simp_all

theorem waitSection_giveUp {blocked late : Bool} {timeout : UInt32} {wake : Option Bool}
    (givesUp : waitSection blocked timeout wake late = .giveUp) : timeout ≠ waitForever := by
  intro forever
  unfold waitSection at givesUp
  rw [if_pos forever] at givesUp
  split at givesUp <;> exact nomatch givesUp

theorem enqueuePass_done {q : TestQueue} {data data' : List (List UInt8)} {src : Buffer q.itemSize}
    {timeout : UInt32} {wake : Option Bool} {late : Bool}
    (done : enqueuePass q data src timeout wake late = .done data') :
    data.length < q.maxLen ∧ data' = data ++ [src.item] := by
  unfold enqueuePass at done
  split at done
  · exact nomatch done
  · exact nomatch done
  · rename_i proceeds
    have room := waitSection_proceed proceeds
    rw [decide_eq_false_iff_not] at room
    cases done
    exact ⟨by omega, rfl⟩

theorem enqueuePass_failed {q : TestQueue} {data : List (List UInt8)} {src : Buffer q.itemSize}
    {timeout : UInt32} {wake : Option Bool} {late : Bool}
    (failed : enqueuePass q data src timeout wake late = .failed) : timeout ≠ waitForever := by
  unfold enqueuePass at failed
  split at failed
  · exact nomatch failed
  · rename_i givesUp
    exact waitSection_giveUp givesUp
  · exact nomatch failed

theorem enqueuePass_hindered {q : TestQueue} {data : List (List UInt8)} {src : Buffer q.itemSize}
    {timeout : UInt32} {wake : Option Bool} {late : Bool}
    (undone : ∀ data', enqueuePass q data src timeout wake late ≠ .done data') :
    q.maxLen ≤ data.length ∨ wake = some true := by
  have stops : waitSection (decide (q.maxLen ≤ data.length)) timeout wake late ≠ .proceed := by
    intro proceeds
    refine undone (data ++ [src.item]) ?_
    rw [enqueuePass, proceeds]
  rcases waitSection_hindered stops with full | timedOut
  · exact Or.inl (of_decide_eq_true full)
  · exact Or.inr timedOut

theorem dequeuePass_done {itemSize : Nat} {data rest : List (List UInt8)} {dst dst' : Buffer itemSize}
    {timeout : UInt32} {wake : Option Bool} {late : Bool}
    (done : dequeuePass data dst timeout wake late = .done (dst', rest)) :
    popFront data dst = some (dst', rest) := by
  unfold dequeuePass at done
  split at done
  · exact nomatch done
  · exact nomatch done
  · split at done
    · rename_i popped
      cases done
      exact popped
    · exact nomatch done

/-- The `else` of `if let Some(queued_item) = data.pop_front()` is never reached. -/
theorem dequeuePass_failed {itemSize : Nat} {data : List (List UInt8)} {dst : Buffer itemSize}
    {timeout : UInt32} {wake : Option Bool} {late : Bool}
    (failed : dequeuePass data dst timeout wake late = .failed) :
    timeout ≠ waitForever ∧ waitSection data.isEmpty timeout wake late = .giveUp := by
  unfold dequeuePass at failed
  split at failed
  · exact nomatch failed
  · rename_i givesUp
    exact ⟨waitSection_giveUp givesUp, givesUp⟩
  · rename_i proceeds
    have nonempty := waitSection_proceed proceeds
    cases data with
    | nil => exact nomatch nonempty
    | cons queued rest => exact nomatch failed

theorem dequeuePass_hindered {itemSize : Nat} {data : List (List UInt8)} {dst : Buffer itemSize}
    {timeout : UInt32} {wake : Option Bool} {late : Bool}
    (undone : ∀ popped, dequeuePass data dst timeout wake late ≠ .done popped) :
    data = [] ∨ wake = some true := by
  cases data with
  | nil => exact Or.inl rfl
  | cons queued rest =>
    have stops : waitSection (queued :: rest).isEmpty timeout wake late ≠ .proceed := by
      intro proceeds
      obtain ⟨popped, pops⟩ : ∃ popped, popFront (queued :: rest) dst = some popped := ⟨_, rfl⟩
      exact undone popped (by simp only [dequeuePass, proceeds, pops])
    rcases waitSection_hindered stops with empty | timedOut
    · exact nomatch empty
    · exact Or.inr timedOut

theorem dequeuePass_now {itemSize : Nat} (data : List (List UInt8)) (dst : Buffer itemSize) (late : Bool) :
    (∃ dst' rest, dequeuePass data dst 0 none late = .done (dst', rest)) ∨
      dequeuePass data dst 0 none late = .failed := by
  cases data with
  | nil => exact Or.inr rfl
  | cons queued rest => exact Or.inl ⟨_, _, rfl⟩

theorem dequeuePass_now_failed {itemSize : Nat} {data : List (List UInt8)} {dst : Buffer itemSize} {late : Bool}
    (failed : dequeuePass data dst 0 none late = .failed) : data = [] := by
  cases data with
  | nil => rfl
  | cons queued rest => exact nomatch failed

inductive Call (itemSize : Nat)
  | enqueue (src : Buffer itemSize) (timeout : UInt32)
  | dequeue (dst : Buffer itemSize) (timeout : UInt32)
  | size
  | empty

def Call.timeout {itemSize : Nat} : Call itemSize → UInt32
  | .enqueue _ timeout | .dequeue _ timeout => timeout
  | .size | .empty => 0

/-- What a call gives back; `csp_queue_dequeue` also leaves its memory behind. -/
inductive Return (itemSize : Nat)
  | enqueued (code : Int)
  | dequeued (code : Int) (dst : Buffer itemSize)
  | sized (count : Int)
  | emptied

/-- Where a thread is. `ready` waits for the mutex, with the `timed_out()` of the
condition wait it comes from; `blocked` is inside a condition wait, with whether a
`notify_one` has picked it; `notifying` has released the mutex and notifies next. The
drain places are those of the loop of `csp_queue_empty`. -/
inductive At (itemSize : Nat)
  | idle
  | ready (call : Call itemSize) (wake : Option Bool)
  | blocked (call : Call itemSize) (notified : Bool)
  | notifying (call : Call itemSize) (ret : Return itemSize)
  | draining (scratch : Buffer itemSize)
  | drainNotifying (scratch : Buffer itemSize)
  | leaving (call : Call itemSize) (ret : Return itemSize)

/-- The call that a notification is made for, and where the thread goes next. -/
def At.afterNotify {itemSize : Nat} : At itemSize → Option (Call itemSize × At itemSize)
  | .notifying call ret => some (call, .leaving call ret)
  | .drainNotifying scratch => some (.empty, .draining scratch)
  | _ => none

/-- Producers wait on `not_full`, which a successful dequeue notifies, and consumers on
`not_empty`, which a successful enqueue notifies. -/
def Call.notifies {itemSize : Nat} : Call itemSize → Call itemSize → Bool
  | .enqueue _ _, .dequeue _ _ => true
  | .dequeue _ _, .enqueue _ _ | .empty, .enqueue _ _ => true
  | _, _ => false

structure State (τ : Type) (itemSize : Nat) where
  data : List (List UInt8)
  pc : τ → At itemSize

/-- What a thread does in one step. The item of `pushed` and `popped` is the caller's
memory before and after it. -/
inductive Event (itemSize : Nat)
  | called (call : Call itemSize)
  | pushed (item : List UInt8)
  | popped (item : List UInt8)
  | failed
  | waits
  | woke (timedOut : Bool)
  | sized (count : Int)
  | notified
  | returned (call : Call itemSize) (ret : Return itemSize)

variable {τ : Type} [DecidableEq τ]

/-- The steps of the threads, with the sections under the mutex as single steps. A
blocked thread may wake at any time; a wait without a timeout never times out. -/
inductive Step (q : TestQueue) :
    State τ q.itemSize → τ × Event q.itemSize → State τ q.itemSize → Prop
  | called {s t call} : s.pc t = .idle → call ≠ .empty →
      Step q s (t, .called call) ⟨s.data, Function.update s.pc t (.ready call none)⟩
  | calledEmpty {s t scratch} : s.pc t = .idle → Buffer.bytes scratch = List.replicate 16 0 →
      Step q s (t, .called .empty) ⟨s.data, Function.update s.pc t (.draining scratch)⟩
  | pushed {s t src timeout wake late data'} : s.pc t = .ready (.enqueue src timeout) wake →
      enqueuePass q s.data src timeout wake late = .done data' →
      Step q s (t, .pushed src.item)
        ⟨data', Function.update s.pc t (.notifying (.enqueue src timeout) (.enqueued (shimCode true)))⟩
  | enqueueFailed {s t src timeout wake late} : s.pc t = .ready (.enqueue src timeout) wake →
      enqueuePass q s.data src timeout wake late = .failed →
      Step q s (t, .failed)
        ⟨s.data, Function.update s.pc t (.leaving (.enqueue src timeout) (.enqueued (shimCode false)))⟩
  | enqueueWaits {s t src timeout wake late} : s.pc t = .ready (.enqueue src timeout) wake →
      enqueuePass q s.data src timeout wake late = .waits →
      Step q s (t, .waits) ⟨s.data, Function.update s.pc t (.blocked (.enqueue src timeout) false)⟩
  | popped {s t dst timeout wake late dst' rest} : s.pc t = .ready (.dequeue dst timeout) wake →
      dequeuePass s.data dst timeout wake late = .done (dst', rest) →
      Step q s (t, .popped dst'.item)
        ⟨rest, Function.update s.pc t (.notifying (.dequeue dst timeout) (.dequeued (shimCode true) dst'))⟩
  | dequeueFailed {s t dst timeout wake late} : s.pc t = .ready (.dequeue dst timeout) wake →
      dequeuePass s.data dst timeout wake late = .failed →
      Step q s (t, .failed)
        ⟨s.data, Function.update s.pc t (.leaving (.dequeue dst timeout) (.dequeued (shimCode false) dst))⟩
  | dequeueWaits {s t dst timeout wake late} : s.pc t = .ready (.dequeue dst timeout) wake →
      dequeuePass s.data dst timeout wake late = .waits →
      Step q s (t, .waits) ⟨s.data, Function.update s.pc t (.blocked (.dequeue dst timeout) false)⟩
  | drainPopped {s t scratch late scratch' rest} : s.pc t = .draining scratch →
      dequeuePass s.data scratch 0 none late = .done (scratch', rest) →
      Step q s (t, .popped scratch'.item) ⟨rest, Function.update s.pc t (.drainNotifying scratch')⟩
  | drainFailed {s t scratch late} : s.pc t = .draining scratch →
      dequeuePass s.data scratch 0 none late = .failed →
      Step q s (t, .failed) ⟨s.data, Function.update s.pc t (.leaving .empty .emptied)⟩
  | sized {s t} : s.pc t = .ready .size none →
      Step q s (t, .sized (asI32 s.data.length))
        ⟨s.data, Function.update s.pc t (.leaving .size (.sized (asI32 s.data.length)))⟩
  | woke {s t call notified timedOut} : s.pc t = .blocked call notified →
      (timedOut = true → call.timeout ≠ waitForever) →
      Step q s (t, .woke timedOut) ⟨s.data, Function.update s.pc t (.ready call (some timedOut))⟩
  | notifiedOne {s t u call next waiter} : (s.pc t).afterNotify = some (call, next) →
      s.pc u = .blocked waiter false → call.notifies waiter = true →
      Step q s (t, .notified)
        ⟨s.data, Function.update (Function.update s.pc u (.blocked waiter true)) t next⟩
  | notifiedNone {s t call next} : (s.pc t).afterNotify = some (call, next) →
      (∀ u waiter, s.pc u = .blocked waiter false → call.notifies waiter = false) →
      Step q s (t, .notified) ⟨s.data, Function.update s.pc t next⟩
  | returned {s t call ret} : s.pc t = .leaving call ret →
      Step q s (t, .returned call ret) ⟨s.data, Function.update s.pc t .idle⟩

def machine (τ : Type) [DecidableEq τ] (q : TestQueue) :
    Machine (State τ q.itemSize) (τ × Event q.itemSize) where
  init := ⟨[], fun _ => .idle⟩
  step := Step q

end Libcsp.Queue
