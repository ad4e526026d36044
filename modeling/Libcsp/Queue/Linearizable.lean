import Libcsp.Queue.TestQueue

namespace Libcsp.Queue
open Sys

variable {τ : Type} [DecidableEq τ] {q : TestQueue}

def Event.pushed? {itemSize : Nat} : Event itemSize → Option (List UInt8)
  | .pushed item => some item
  | _ => none

def Event.popped? {itemSize : Nat} : Event itemSize → Option (List UInt8)
  | .popped item => some item
  | _ => none

def fifoOp {itemSize : Nat} (act : τ × Event itemSize) : Option (FifoOp (List UInt8)) :=
  match act.2 with
  | .pushed item => some (.push item)
  | .popped item => some (.pop item)
  | _ => none

omit [DecidableEq τ] in
theorem fifoOp_none {itemSize : Nat} {t : τ} {event : Event itemSize} (noPush : event.pushed? = none)
    (noPop : event.popped? = none) : fifoOp (t, event) = none := by
  cases event with
  | pushed => exact nomatch noPush
  | popped => exact nomatch noPop
  | called | failed | waits | woke | sized | notified | returned => rfl

theorem Step.data_cases {s s' : State τ q.itemSize} {t : τ} {event : Event q.itemSize}
    (taken : Step q s (t, event) s') :
    (∃ src : Buffer q.itemSize, event = .pushed src.item ∧ s.data.length < q.maxLen ∧
      s'.data = s.data ++ [src.item]) ∨
    (∃ dst dst' : Buffer q.itemSize, event = .popped dst'.item ∧
      popFront s.data dst = some (dst', s'.data)) ∨
    event.pushed? = none ∧ event.popped? = none ∧ s'.data = s.data := by
  cases taken with
  | pushed _ done => exact Or.inl ⟨_, rfl, enqueuePass_done done⟩
  | popped _ done => exact Or.inr (Or.inl ⟨_, _, rfl, dequeuePass_done done⟩)
  | drainPopped _ done => exact Or.inr (Or.inl ⟨_, _, rfl, dequeuePass_done done⟩)
  | called | calledEmpty | enqueueFailed | enqueueWaits | dequeueFailed | dequeueWaits | drainFailed | sized
  | woke | notifiedOne | notifiedNone | returned => exact Or.inr (Or.inr ⟨rfl, rfl, rfl⟩)

structure Holds (s : State τ q.itemSize) (items : List (List UInt8)) : Prop where
  same : s.data = items
  sized : ∀ item ∈ s.data, item.length = q.itemSize

theorem refines_fifo (q : TestQueue) :
    Refines (machine τ q) (boundedFifo (List UInt8) q.maxLen) Holds fifoOp where
  init := ⟨rfl, nofun⟩
  visible := by
    rintro s ⟨t, event⟩ s' items op ⟨rfl, sized⟩ taken seen
    rcases Step.data_cases taken with ⟨src, rfl, room, after⟩ | ⟨dst, dst', rfl, popped⟩ | ⟨noPush, noPop, _⟩
    · cases seen
      refine ⟨s'.data, ⟨room, after⟩, rfl, ?_⟩
      rw [after]
      simpa [or_imp, forall_and] using sized
    · cases seen
      have before := popFront_item sized popped
      refine ⟨s'.data, before, rfl, ?_⟩
      rw [before] at sized
      exact fun item member => sized item (List.mem_cons_of_mem _ member)
    · rw [fifoOp_none noPush noPop] at seen
      exact nomatch seen
  silent := by
    rintro s ⟨t, event⟩ s' items ⟨rfl, sized⟩ taken seen
    rcases Step.data_cases taken with ⟨src, rfl, _⟩ | ⟨dst, dst', rfl, _⟩ | ⟨_, _, same⟩
    · exact nomatch seen
    · exact nomatch seen
    · exact ⟨same, by rwa [same]⟩

theorem contents {tr : List (τ × Event q.itemSize)} {s : State τ q.itemSize} (run : (machine τ q).Run tr s) :
    s.data.length ≤ q.maxLen ∧ tr.filterMap (·.2.popped?) ++ s.data = tr.filterMap (·.2.pushed?) := by
  obtain ⟨items, ⟨rfl, _⟩, bounded, conserved⟩ := (refines_fifo q).conserves (·.2.pushed?)
    (·.2.popped?) (by rintro ⟨t, event⟩; cases event <;> rfl)
    (by rintro ⟨t, event⟩; cases event <;> rfl) run
  exact ⟨bounded, conserved⟩

/-- What a completed call did to the queue between its start and its end: an enqueue
that returns 0 pushed its item, a dequeue that returns 0 popped the item it leaves in
the caller's memory, a call that returns -1 did nothing and had a timeout, and
`csp_queue_size` returns the count it took. -/
inductive Effect {itemSize : Nat} : Call itemSize → List (Event itemSize) → Return itemSize → Prop
  | enqueued {src timeout} : Effect (.enqueue src timeout) [.pushed src.item] (.enqueued 0)
  | enqueueFailed {src timeout} : timeout ≠ waitForever → Effect (.enqueue src timeout) [] (.enqueued (-1))
  | dequeued {dst dst' timeout} : (Buffer.bytes dst').drop itemSize = (Buffer.bytes dst).drop itemSize →
      Effect (.dequeue dst timeout) [.popped dst'.item] (.dequeued 0 dst')
  | dequeueFailed {dst timeout} : timeout ≠ waitForever → Effect (.dequeue dst timeout) [] (.dequeued (-1) dst)
  | sized {count} : Effect .size [.sized count] (.sized count)
  | emptied {items : List (List UInt8)} : Effect .empty (items.map .popped) .emptied

inductive Calls {itemSize : Nat} : List (Event itemSize) → Prop
  | start : Calls []
  | next {events call effects ret} : Calls events → Effect call effects ret →
      Calls (events ++ .called call :: effects ++ [.returned call ret])

inductive Begun {itemSize : Nat} : At itemSize → List (Event itemSize) → Prop
  | idle : Begun .idle []
  | ready {call wake} : Begun (.ready call wake) [.called call]
  | blocked {call notified} : Begun (.blocked call notified) [.called call]
  | notifying {call effects ret} : Effect call effects ret → Begun (.notifying call ret) (.called call :: effects)
  | draining {scratch} (items : List (List UInt8)) : Begun (.draining scratch) (.called .empty :: items.map .popped)
  | drainNotifying {scratch} (items : List (List UInt8)) :
      Begun (.drainNotifying scratch) (.called .empty :: items.map .popped)
  | leaving {call effects ret} : Effect call effects ret → Begun (.leaving call ret) (.called call :: effects)

/-- The events that a caller can tell: calls, returns, what happens to the items and the
look at their number. -/
def Event.shown? {itemSize : Nat} : Event itemSize → Option (Event itemSize)
  | .called call => some (.called call)
  | .pushed item => some (.pushed item)
  | .popped item => some (.popped item)
  | .sized count => some (.sized count)
  | .returned call ret => some (.returned call ret)
  | .failed | .waits | .woke _ | .notified => none

def shownBy {itemSize : Nat} (t : τ) (act : τ × Event itemSize) : Option (Event itemSize) :=
  if act.1 = t then act.2.shown? else none

theorem Begun.afterNotify {itemSize : Nat} {pc next : At itemSize} {call : Call itemSize}
    {events : List (Event itemSize)} (begun : Begun pc events) (moves : pc.afterNotify = some (call, next)) :
    Begun next events := by
  cases begun with
  | notifying effect =>
    cases moves
    exact .leaving effect
  | drainNotifying items =>
    cases moves
    exact .draining items
  | idle | ready | blocked | draining | leaving => exact nomatch moves

/-- A step of another thread moves this one only by marking it as notified. -/
theorem Step.pc_other {s s' : State τ q.itemSize} {t u : τ} {event : Event q.itemSize}
    (taken : Step q s (u, event) s') (other : t ≠ u) :
    s'.pc t = s.pc t ∨ ∃ waiter, s.pc t = .blocked waiter false ∧ s'.pc t = .blocked waiter true := by
  cases taken with
  | @notifiedOne _ v call next waiter _ atWait _ =>
    simp only [Function.update_of_ne other]
    by_cases same : t = v
    · subst same
      exact Or.inr ⟨waiter, atWait, Function.update_self ..⟩
    · exact Or.inl (Function.update_of_ne same ..)
  | called | calledEmpty | pushed | enqueueFailed | enqueueWaits | popped | dequeueFailed | dequeueWaits
  | drainPopped | drainFailed | sized | woke | notifiedNone | returned =>
    exact Or.inl (Function.update_of_ne other ..)

theorem Step.other {s s' : State τ q.itemSize} {t u : τ} {event : Event q.itemSize}
    (taken : Step q s (u, event) s') (other : t ≠ u) {events : List (Event q.itemSize)}
    (begun : Begun (s.pc t) events) : Begun (s'.pc t) events := by
  rcases taken.pc_other other with same | ⟨waiter, before, after⟩
  · rwa [same]
  · rw [before] at begun
    cases begun
    rw [after]
    exact .blocked

theorem Step.own {s s' : State τ q.itemSize} {t : τ} {event : Event q.itemSize}
    (taken : Step q s (t, event) s') {begun : List (Event q.itemSize)} (atPlace : Begun (s.pc t) begun) :
    Begun (s'.pc t) (begun ++ event.shown?.toList) ∨
    ∃ call effects ret, Effect call effects ret ∧ begun = .called call :: effects ∧
      event = .returned call ret ∧ s'.pc t = .idle := by
  cases taken with
  | called atIdle _ =>
    rw [atIdle] at atPlace
    cases atPlace
    exact Or.inl (by simpa [Event.shown?, shimCode] using Begun.ready)
  | calledEmpty atIdle _ =>
    rw [atIdle] at atPlace
    cases atPlace
    exact Or.inl (by simpa [Event.shown?, shimCode] using Begun.draining [])
  | pushed atReady _ =>
    rw [atReady] at atPlace
    cases atPlace
    exact Or.inl (by simpa [Event.shown?, shimCode] using Begun.notifying Effect.enqueued)
  | enqueueFailed atReady failed =>
    rw [atReady] at atPlace
    cases atPlace
    exact Or.inl (by simpa [Event.shown?, shimCode] using Begun.leaving (Effect.enqueueFailed (enqueuePass_failed failed)))
  | enqueueWaits atReady _ | dequeueWaits atReady _ =>
    rw [atReady] at atPlace
    cases atPlace
    exact Or.inl (by simpa [Event.shown?, shimCode] using Begun.blocked)
  | popped atReady done =>
    rw [atReady] at atPlace
    cases atPlace
    exact Or.inl (by simpa [Event.shown?, shimCode] using Begun.notifying (Effect.dequeued (popFront_frame (dequeuePass_done done))))
  | dequeueFailed atReady failed =>
    rw [atReady] at atPlace
    cases atPlace
    exact Or.inl (by simpa [Event.shown?, shimCode] using Begun.leaving (Effect.dequeueFailed (dequeuePass_failed failed).1))
  | @drainPopped _ _ _ scratch' _ atDrain _ =>
    rw [atDrain] at atPlace
    cases atPlace with
    | draining items => exact Or.inl (by simpa [Event.shown?, shimCode] using Begun.drainNotifying (items ++ [scratch'.item]))
  | drainFailed atDrain _ =>
    rw [atDrain] at atPlace
    cases atPlace with
    | draining items => exact Or.inl (by simpa [Event.shown?, shimCode] using Begun.leaving (@Effect.emptied _ items))
  | sized atReady =>
    rw [atReady] at atPlace
    cases atPlace
    exact Or.inl (by simpa [Event.shown?, shimCode] using Begun.leaving Effect.sized)
  | woke atWait _ =>
    rw [atWait] at atPlace
    cases atPlace
    exact Or.inl (by simpa [Event.shown?, shimCode] using Begun.ready)
  | notifiedOne moves _ _ | notifiedNone moves _ =>
    exact Or.inl (by simpa [Event.shown?, shimCode] using atPlace.afterNotify moves)
  | returned atLeave =>
    rw [atLeave] at atPlace
    cases atPlace with
    | leaving effect => exact Or.inr ⟨_, _, _, effect, rfl, rfl, Function.update_self ..⟩

theorem in_calls {tr : List (τ × Event q.itemSize)} {s : State τ q.itemSize}
    (run : (machine τ q).Run tr s) (t : τ) :
    ∃ completed begun, Calls completed ∧ Begun (s.pc t) begun ∧ tr.filterMap (shownBy t) = completed ++ begun := by
  induction run with
  | start => exact ⟨[], [], .start, .idle, rfl⟩
  | @next tr s act s' _ taken ih =>
    obtain ⟨u, event⟩ := act
    obtain ⟨completed, begun, calls, atPlace, same⟩ := ih
    rw [filterMap_concat, same]
    by_cases own : u = t
    · subst own
      simp only [shownBy, if_true]
      rcases Step.own taken atPlace with goesOn | ⟨call, effects, ret, effect, rfl, rfl, atIdle⟩
      · exact ⟨completed, _, calls, goesOn, List.append_assoc ..⟩
      · exact ⟨_, [], calls.next effect, by rw [atIdle]; exact .idle, by simp [Event.shown?]⟩
    · simp only [shownBy, own, if_false, Option.toList_none, List.append_nil]
      exact ⟨completed, begun, calls, Step.other taken (Ne.symm own) atPlace, rfl⟩

def Return.code {itemSize : Nat} : Return itemSize → Option Int
  | .enqueued code | .dequeued code _ => some code
  | .sized _ | .emptied => none

theorem Effect.forever {itemSize : Nat} {call : Call itemSize} {effects : List (Event itemSize)}
    {ret : Return itemSize} (effect : Effect call effects ret) (forever : call.timeout = waitForever) :
    ret.code ≠ some (-1) := by
  cases effect with
  | enqueued | dequeued | sized | emptied => simp [Return.code]
  | enqueueFailed finite | dequeueFailed finite => exact absurd forever finite

theorem Effect.no_return {itemSize : Nat} {call call' : Call itemSize} {effects : List (Event itemSize)}
    {ret ret' : Return itemSize} (effect : Effect call effects ret) : .returned call' ret' ∉ effects := by
  cases effect <;> simp

theorem Begun.no_return {itemSize : Nat} {pc : At itemSize} {events : List (Event itemSize)}
    {call : Call itemSize} {ret : Return itemSize} (begun : Begun pc events) : .returned call ret ∉ events := by
  cases begun with
  | idle | ready | blocked | draining | drainNotifying => simp
  | notifying effect | leaving effect => simpa using effect.no_return

theorem Calls.effect {itemSize : Nat} {events : List (Event itemSize)} {call : Call itemSize}
    {ret : Return itemSize} (calls : Calls events) (member : .returned call ret ∈ events) :
    ∃ effects, Effect call effects ret := by
  induction calls with
  | start => exact nomatch member
  | @next events call' effects ret' _ effect ih =>
    simp only [List.mem_append, List.mem_cons, List.not_mem_nil, or_false] at member
    rcases member with (earlier | called | inside) | last
    · exact ih earlier
    · exact nomatch called
    · exact absurd inside effect.no_return
    · cases last
      exact ⟨effects, effect⟩

theorem returned_effect {tr : List (τ × Event q.itemSize)} {s : State τ q.itemSize}
    (run : (machine τ q).Run tr s) {t : τ} {call : Call q.itemSize} {ret : Return q.itemSize}
    (member : (t, .returned call ret) ∈ tr) : ∃ effects, Effect call effects ret := by
  obtain ⟨completed, begun, calls, atPlace, shown⟩ := in_calls run t
  have seen : Event.returned call ret ∈ tr.filterMap (shownBy t) :=
    List.mem_filterMap.mpr ⟨_, member, if_pos rfl⟩
  rw [shown, List.mem_append] at seen
  exact calls.effect (seen.resolve_right atPlace.no_return)

def Event.enqueued? {itemSize : Nat} : Event itemSize → Option (List UInt8)
  | .returned (.enqueue src _) (.enqueued code) => if code = 0 then some src.item else none
  | _ => none

def At.inserted {itemSize : Nat} : At itemSize → List (List UInt8)
  | .notifying call ret | .leaving call ret => (Event.returned call ret).enqueued?.toList
  | _ => []

theorem popped_not_pushed {itemSize : Nat} (items : List (List UInt8)) :
    (items.map Event.popped : List (Event itemSize)).filterMap Event.pushed? = [] ∧
      (items.map Event.popped : List (Event itemSize)).filterMap Event.enqueued? = [] := by
  simp [List.filterMap_eq_nil_iff, Event.pushed?, Event.enqueued?]

theorem Effect.pushed {itemSize : Nat} {call : Call itemSize} {effects : List (Event itemSize)}
    {ret : Return itemSize} (effect : Effect call effects ret) :
    effects.filterMap Event.pushed? = (Event.returned call ret).enqueued?.toList ∧
      effects.filterMap Event.enqueued? = [] := by
  cases effect with
  | enqueued | enqueueFailed | dequeued | dequeueFailed | sized => exact ⟨rfl, rfl⟩
  | emptied => exact popped_not_pushed _

theorem Calls.pushed {itemSize : Nat} {events : List (Event itemSize)} (calls : Calls events) :
    events.filterMap Event.pushed? = events.filterMap Event.enqueued? := by
  induction calls with
  | start => rfl
  | @next events call effects ret _ effect ih =>
    obtain ⟨pushes, noReturn⟩ := effect.pushed
    have push : (Event.called call :: effects).filterMap Event.pushed? = _ := pushes
    have enqueue : (Event.called call :: effects).filterMap Event.enqueued? = _ := noReturn
    rw [filterMap_concat, filterMap_concat, List.filterMap_append, List.filterMap_append, ih, push, enqueue,
      List.append_nil]
    exact List.append_nil _

theorem Begun.pushed {itemSize : Nat} {pc : At itemSize} {events : List (Event itemSize)}
    (begun : Begun pc events) :
    events.filterMap Event.pushed? = pc.inserted ∧ events.filterMap Event.enqueued? = [] := by
  cases begun with
  | idle | ready | blocked => exact ⟨rfl, rfl⟩
  | draining items | drainNotifying items => exact popped_not_pushed items
  | notifying effect | leaving effect => exact effect.pushed

/-- What a thread has pushed are the items of its enqueues that returned 0, and of the
one that is about to. -/
theorem pushed_by {tr : List (τ × Event q.itemSize)} {s : State τ q.itemSize}
    (run : (machine τ q).Run tr s) (t : τ) :
    (tr.filterMap (shownBy t)).filterMap Event.pushed? =
      (tr.filterMap (shownBy t)).filterMap Event.enqueued? ++ (s.pc t).inserted := by
  obtain ⟨completed, begun, calls, atPlace, shown⟩ := in_calls run t
  obtain ⟨pushes, noReturn⟩ := atPlace.pushed
  rw [shown, List.filterMap_append, List.filterMap_append, calls.pushed, pushes, noReturn, List.append_nil]

/-- The items that are queued behind `tr`: what went in, less what came out. -/
def queuedAfter {itemSize : Nat} (tr : List (τ × Event itemSize)) : List (List UInt8) :=
  (tr.filterMap (·.2.pushed?)).drop (tr.filterMap (·.2.popped?)).length

theorem queuedAfter_run {tr : List (τ × Event q.itemSize)} {s : State τ q.itemSize} (run : (machine τ q).Run tr s) :
    queuedAfter tr = s.data := by
  rw [queuedAfter, ← (contents run).2, List.drop_left]

/-- A call begins or ends. -/
def Event.bounds {itemSize : Nat} : Event itemSize → Bool
  | .called _ | .returned _ _ => true
  | _ => false

/-- `tr` ends inside of this call of `t`. -/
def Inside {itemSize : Nat} (t : τ) (call : Call itemSize) (tr : List (τ × Event itemSize)) : Prop :=
  ∃ earlier during, tr = earlier ++ (t, .called call) :: during ∧ ∀ event, (t, event) ∈ during → event.bounds = false

/-- What refuses a call: a full queue an enqueue, and an empty one a dequeue. -/
def Call.RefusedBy {itemSize : Nat} (capacity : Nat) (items : List (List UInt8)) : Call itemSize → Prop
  | .enqueue _ _ => items.length = capacity
  | .dequeue _ _ => items = []
  | .size | .empty => False

/-- At some point inside of this call of `t`, which `tr` has not left, the queue was one that
refuses it. -/
def RefusedInside {itemSize : Nat} (capacity : Nat) (t : τ) (call : Call itemSize) (tr : List (τ × Event itemSize)) :
    Prop :=
  ∃ early late, tr = early ++ late ∧ Inside t call early ∧ (∀ event, (t, event) ∈ late → event.bounds = false) ∧
    call.RefusedBy capacity (queuedAfter early)

section
variable {itemSize capacity : Nat} {t u : τ} {call : Call itemSize} {tr : List (τ × Event itemSize)} {event : Event itemSize}

omit [DecidableEq τ] in
theorem Inside.begin (t : τ) (call : Call itemSize) (tr : List (τ × Event itemSize)) :
    Inside t call (tr ++ [(t, .called call)]) :=
  ⟨tr, [], rfl, fun _ => nofun⟩

omit [DecidableEq τ] in
theorem Inside.on (inside : Inside t call tr) (goes : u = t → event.bounds = false) : Inside t call (tr ++ [(u, event)]) := by
  obtain ⟨earlier, during, rfl, inner⟩ := inside
  refine ⟨earlier, during ++ [(u, event)], by simp, ?_⟩
  intro e member
  rcases List.mem_append.mp member with before | last
  · exact inner e before
  · cases List.mem_singleton.mp last
    exact goes rfl

omit [DecidableEq τ] in
theorem RefusedInside.on (refused : RefusedInside capacity t call tr) (goes : u = t → event.bounds = false) :
    RefusedInside capacity t call (tr ++ [(u, event)]) := by
  obtain ⟨early, late, rfl, inside, inner, refuses⟩ := refused
  refine ⟨early, late ++ [(u, event)], List.append_assoc .., inside, ?_, refuses⟩
  intro e member
  rcases List.mem_append.mp member with before | last
  · exact inner e before
  · cases List.mem_singleton.mp last
    exact goes rfl

omit [DecidableEq τ] in
theorem Inside.refused (inside : Inside t call tr) (refuses : call.RefusedBy capacity (queuedAfter tr)) :
    RefusedInside capacity t call tr :=
  ⟨tr, [], (List.append_nil tr).symm, inside, fun _ => nofun, refuses⟩

omit [DecidableEq τ] in
theorem RefusedInside.inside (refused : RefusedInside capacity t call tr) : Inside t call tr := by
  obtain ⟨early, late, rfl, ⟨earlier, during, rfl, inner⟩, outer, -⟩ := refused
  refine ⟨earlier, during ++ late, by simp, ?_⟩
  intro e member
  rcases List.mem_append.mp member with before | after
  · exact inner e before
  · exact outer e after

end

/-- What a thread has met on the way to where it is: who has waited has been refused. -/
inductive Marked (capacity : Nat) {itemSize : Nat} (t : τ) (tr : List (τ × Event itemSize)) : At itemSize → Prop
  | idle : Marked capacity t tr .idle
  | fresh {call} : Inside t call tr → Marked capacity t tr (.ready call none)
  | ready {call timedOut} : RefusedInside capacity t call tr → Marked capacity t tr (.ready call (some timedOut))
  | blocked {call notified} : RefusedInside capacity t call tr → Marked capacity t tr (.blocked call notified)
  | notifying {call ret} : ret.code ≠ some (-1) → Marked capacity t tr (.notifying call ret)
  | draining {scratch} : Marked capacity t tr (.draining scratch)
  | drainNotifying {scratch} : Marked capacity t tr (.drainNotifying scratch)
  | leaving {call ret} : (ret.code = some (-1) → RefusedInside capacity t call tr) →
      Marked capacity t tr (.leaving call ret)

section
variable {itemSize capacity : Nat} {t u : τ} {call : Call itemSize} {tr : List (τ × Event itemSize)}
  {event : Event itemSize} {pc next : At itemSize}

omit [DecidableEq τ] in
theorem Marked.refused {wake : Option Bool} (marked : Marked capacity t tr (.ready call wake))
    (hindered : call.RefusedBy capacity (queuedAfter tr) ∨ wake = some true) : RefusedInside capacity t call tr := by
  cases marked with
  | ready refused => exact refused
  | fresh inside => exact inside.refused (hindered.resolve_right nofun)

omit [DecidableEq τ] in
theorem Marked.away (marked : Marked capacity t tr pc) (other : t ≠ u) : Marked capacity t (tr ++ [(u, event)]) pc := by
  have away : u = t → event.bounds = false := fun same => absurd same.symm other
  cases marked with
  | idle => exact .idle
  | fresh inside => exact .fresh (inside.on away)
  | ready refused => exact .ready (refused.on away)
  | blocked refused => exact .blocked (refused.on away)
  | notifying succeeds => exact .notifying succeeds
  | draining => exact .draining
  | drainNotifying => exact .drainNotifying
  | leaving fails => exact .leaving fun code => (fails code).on away

omit [DecidableEq τ] in
theorem Marked.afterNotify (marked : Marked capacity t tr pc) (moves : pc.afterNotify = some (call, next)) :
    Marked capacity t (tr ++ [(t, .notified)]) next := by
  cases marked with
  | notifying succeeds =>
    cases moves
    exact .leaving fun fails => absurd fails succeeds
  | drainNotifying =>
    cases moves
    exact .draining
  | idle | fresh | ready | blocked | draining | leaving => exact nomatch moves

end

theorem Marked.other {tr : List (τ × Event q.itemSize)} {s s' : State τ q.itemSize} {t u : τ}
    {event : Event q.itemSize} (marked : Marked q.maxLen t tr (s.pc t)) (taken : Step q s (u, event) s') (other : t ≠ u) :
    Marked q.maxLen t (tr ++ [(u, event)]) (s'.pc t) := by
  rcases taken.pc_other other with same | ⟨waiter, before, after⟩
  · rw [same]
    exact marked.away other
  · rw [before] at marked
    rw [after]
    cases marked.away other with
    | blocked refused => exact .blocked refused

theorem Marked.own {tr : List (τ × Event q.itemSize)} {s s' : State τ q.itemSize} {t : τ} {event : Event q.itemSize}
    (run : (machine τ q).Run tr s) (marked : Marked q.maxLen t tr (s.pc t)) (taken : Step q s (t, event) s') :
    Marked q.maxLen t (tr ++ [(t, event)]) (s'.pc t) := by
  have queued := queuedAfter_run run
  have bounded := (contents run).1
  have full : ∀ {src : Buffer q.itemSize} {timeout wake late}, s.pc t = .ready (.enqueue src timeout) wake →
      (∀ data', enqueuePass q s.data src timeout wake late ≠ .done data') →
      RefusedInside q.maxLen t (.enqueue src timeout) tr := by
    intro src timeout wake late atReady undone
    rw [atReady] at marked
    refine marked.refused ((enqueuePass_hindered undone).imp_left ?_)
    intro atLeast
    rw [Call.RefusedBy, queued]
    exact Nat.le_antisymm bounded atLeast
  have empty : ∀ {dst : Buffer q.itemSize} {timeout wake late}, s.pc t = .ready (.dequeue dst timeout) wake →
      (∀ popped, dequeuePass s.data dst timeout wake late ≠ .done popped) →
      RefusedInside q.maxLen t (.dequeue dst timeout) tr := by
    intro dst timeout wake late atReady undone
    rw [atReady] at marked
    refine marked.refused ((dequeuePass_hindered undone).imp_left ?_)
    intro nothing
    rw [Call.RefusedBy, queued]
    exact nothing
  cases taken with
  | called =>
    simp only [Function.update_self]
    exact .fresh (.begin ..)
  | calledEmpty =>
    simp only [Function.update_self]
    exact .draining
  | pushed | popped =>
    simp only [Function.update_self]
    exact .notifying (by simp [Return.code, shimCode])
  | enqueueFailed atReady failed =>
    have refused := full atReady fun _ done => nomatch failed.symm.trans done
    simp only [Function.update_self]
    exact .leaving fun _ => refused.on fun _ => rfl
  | enqueueWaits atReady waits =>
    have refused := full atReady fun _ done => nomatch waits.symm.trans done
    simp only [Function.update_self]
    exact .blocked (refused.on fun _ => rfl)
  | dequeueFailed atReady failed =>
    have refused := empty atReady fun _ done => nomatch failed.symm.trans done
    simp only [Function.update_self]
    exact .leaving fun _ => refused.on fun _ => rfl
  | dequeueWaits atReady waits =>
    have refused := empty atReady fun _ done => nomatch waits.symm.trans done
    simp only [Function.update_self]
    exact .blocked (refused.on fun _ => rfl)
  | drainPopped =>
    simp only [Function.update_self]
    exact .drainNotifying
  | drainFailed | sized =>
    simp only [Function.update_self]
    exact .leaving nofun
  | woke atWait _ =>
    rw [atWait] at marked
    simp only [Function.update_self]
    cases marked with
    | blocked refused => exact .ready (refused.on fun _ => rfl)
  | notifiedOne moves _ _ | notifiedNone moves _ =>
    simp only [Function.update_self]
    exact marked.afterNotify moves
  | returned =>
    simp only [Function.update_self]
    exact .idle

theorem marked {tr : List (τ × Event q.itemSize)} {s : State τ q.itemSize} (run : (machine τ q).Run tr s) (t : τ) :
    Marked q.maxLen t tr (s.pc t) := by
  induction run with
  | start => exact .idle
  | @next tr s act s' before taken ih =>
    obtain ⟨u, event⟩ := act
    by_cases own : t = u
    · subst own
      exact ih.own before taken
    · exact ih.other taken own

/-- A call that returns -1 has met a queue that refuses it. -/
theorem refused_inside {before after : List (τ × Event q.itemSize)} {s : State τ q.itemSize} {t : τ}
    {call : Call q.itemSize} {ret : Return q.itemSize}
    (run : (machine τ q).Run (before ++ (t, .returned call ret) :: after) s) (fails : ret.code = some (-1)) :
    RefusedInside q.maxLen t call before := by
  obtain ⟨s₁, s₂, earlier, taken, _⟩ := run.around
  have marks := marked earlier t
  cases taken with
  | returned atLeave =>
    rw [atLeave] at marks
    cases marks with
    | leaving refused => exact refused fails

/-- `csp_queue_size` counts what is queued when it looks. -/
theorem counted {before after : List (τ × Event q.itemSize)} {s : State τ q.itemSize} {t : τ} {count : Int}
    (run : (machine τ q).Run (before ++ (t, .sized count) :: after) s) : count = asI32 (queuedAfter before).length := by
  obtain ⟨s₁, s₂, earlier, taken, _⟩ := run.around
  rw [queuedAfter_run earlier]
  generalize looks : (t, Event.sized count) = act at taken
  cases taken with
  | sized => exact Event.sized.inj (Prod.mk.inj looks).2
  | _ => exact nomatch looks

/-- What is known of a thread once it has entered the loop of `csp_queue_empty`, up to
its return. -/
inductive DrainAt {itemSize : Nat} (data : List (List UInt8)) : At itemSize → Prop
  | draining {scratch} : DrainAt data (.draining scratch)
  | notifying {scratch} : DrainAt data (.drainNotifying scratch)
  | leaving : data = [] → DrainAt data (.leaving .empty .emptied)
  | returned : data = [] → DrainAt data .idle

/-- Nobody pushes, and the draining thread makes no further call. -/
def NoProducer {itemSize : Nat} (t : τ) (act : τ × Event itemSize) : Prop :=
  act.2.pushed? = none ∧ (act.1 = t → ∀ call, act.2 ≠ .called call)

/-- How many steps the loop has left at most: two for each item, the failing pass and
the return. -/
def drainRank {itemSize : Nat} (data : List (List UInt8)) : At itemSize → Nat
  | .draining _ => 2 * data.length + 2
  | .drainNotifying _ => 2 * data.length + 3
  | .leaving _ _ => 1
  | _ => 0

theorem Step.data_shrinks {s s' : State τ q.itemSize} {t : τ} {event : Event q.itemSize}
    (taken : Step q s (t, event) s') (noPush : event.pushed? = none) :
    s'.data.length ≤ s.data.length ∧ (s.data = [] → s'.data = []) := by
  rcases taken.data_cases with ⟨src, rfl, _⟩ | ⟨dst, dst', rfl, popped⟩ | ⟨_, _, same⟩
  · exact nomatch noPush
  · have length := popFront_length popped
    refine ⟨by omega, fun nothing => ?_⟩
    rw [nothing, List.length_nil] at length
    omega
  · rw [same]
    exact ⟨Nat.le_refl _, id⟩

theorem DrainAt.mono {itemSize : Nat} {data data' : List (List UInt8)} {pc : At itemSize}
    (drain : DrainAt data pc) (length : data'.length ≤ data.length) (empty : data = [] → data' = []) :
    DrainAt data' pc ∧ drainRank data' pc ≤ drainRank data pc := by
  cases drain with
  | draining => exact ⟨.draining, by simp only [drainRank]; omega⟩
  | notifying => exact ⟨.notifying, by simp only [drainRank]; omega⟩
  | leaving nothing => exact ⟨.leaving (empty nothing), Nat.le_refl _⟩
  | returned nothing => exact ⟨.returned (empty nothing), Nat.le_refl _⟩

theorem DrainAt.afterNotify {itemSize : Nat} {data : List (List UInt8)} {pc next : At itemSize}
    {call : Call itemSize} (drain : DrainAt data pc) (moves : pc.afterNotify = some (call, next)) :
    DrainAt data next ∧ drainRank data next + 1 ≤ drainRank data pc := by
  cases drain with
  | notifying =>
    cases moves
    exact ⟨.draining, Nat.le_refl _⟩
  | draining | leaving | returned => exact nomatch moves

/-- Every step keeps the draining thread in its loop or ends it on an empty queue, and
its own steps use up the rank. -/
theorem DrainAt.step {s s' : State τ q.itemSize} {t u : τ} {event : Event q.itemSize}
    (drain : DrainAt s.data (s.pc t)) (taken : Step q s (u, event) s') (allowed : NoProducer t (u, event)) :
    DrainAt s'.data (s'.pc t) ∧
      drainRank s'.data (s'.pc t) + (if u = t then 1 else 0) ≤ drainRank s.data (s.pc t) := by
  obtain ⟨length, empty⟩ := taken.data_shrinks allowed.1
  by_cases own : u = t
  · subst own
    simp only [if_true]
    cases taken with
    | called => exact absurd rfl (allowed.2 rfl _)
    | calledEmpty => exact absurd rfl (allowed.2 rfl _)
    | drainPopped atDrain done =>
      have fewer := popFront_length (dequeuePass_done done)
      simp only [Function.update_self, atDrain, drainRank]
      exact ⟨.notifying, by omega⟩
    | drainFailed atDrain failed =>
      simp only [Function.update_self, atDrain, drainRank]
      exact ⟨.leaving (dequeuePass_now_failed failed), by omega⟩
    | returned atLeave =>
      rw [atLeave] at drain ⊢
      cases drain with
      | leaving nothing =>
        simp only [Function.update_self]
        exact ⟨.returned nothing, Nat.le_refl _⟩
    | notifiedOne moves _ _ | notifiedNone moves _ =>
      simp only [Function.update_self]
      exact drain.afterNotify moves
    | pushed atReady | enqueueFailed atReady | enqueueWaits atReady | popped atReady | dequeueFailed atReady
    | dequeueWaits atReady | sized atReady | woke atReady =>
      rw [atReady] at drain
      cases drain
  · rw [if_neg own]
    rcases taken.pc_other (Ne.symm own) with same | ⟨waiter, before, _⟩
    · rw [same]
      exact drain.mono length empty
    · rw [before] at drain
      cases drain

theorem DrainAt.enabled {s : State τ q.itemSize} {t : τ} (drain : DrainAt s.data (s.pc t)) :
    s.pc t = .idle ∧ s.data = [] ∨ ∃ event s', Step q s (t, event) s' ∧ NoProducer t (t, event) := by
  cases place : s.pc t with
  | idle =>
    rw [place] at drain
    cases drain with
    | returned nothing => exact Or.inl ⟨rfl, nothing⟩
  | draining scratch =>
    rcases dequeuePass_now s.data scratch false with ⟨scratch', rest, done⟩ | failed
    · exact Or.inr ⟨_, _, .drainPopped place done, rfl, fun _ _ => nofun⟩
    · exact Or.inr ⟨_, _, .drainFailed place failed, rfl, fun _ _ => nofun⟩
  | drainNotifying scratch =>
    have moves : (s.pc t).afterNotify = some (.empty, .draining scratch) := by rw [place]; rfl
    by_cases waiting : ∃ u waiter, s.pc u = .blocked waiter false ∧ Call.notifies .empty waiter = true
    · obtain ⟨u, waiter, atWait, notifies⟩ := waiting
      exact Or.inr ⟨_, _, .notifiedOne moves atWait notifies, rfl, fun _ _ => nofun⟩
    · refine Or.inr ⟨_, _, .notifiedNone moves ?_, rfl, fun _ _ => nofun⟩
      intro u waiter atWait
      exact Bool.eq_false_iff.mpr fun notifies => waiting ⟨u, waiter, atWait, notifies⟩
  | leaving call ret => exact Or.inr ⟨_, _, .returned place, rfl, fun _ _ => nofun⟩
  | ready | blocked | notifying =>
    rw [place] at drain
    cases drain

/-- `csp_queue_empty` without producers: at every point of such a run it has returned
and left the queue empty, or it can go on, and it goes on only so many times. -/
theorem DrainAt.ends {s s' : State τ q.itemSize} {t : τ} (drain : DrainAt s.data (s.pc t))
    {tr : List (τ × Event q.itemSize)}
    (run : (((machine τ q).startAt s).restrict fun _ => NoProducer t).Run tr s') :
    (tr.filter (·.1 = t)).length ≤ drainRank s.data (s.pc t) ∧
      (s'.pc t = .idle ∧ s'.data = [] ∨ ∃ event s'', Step q s' (t, event) s'' ∧ NoProducer t (t, event)) := by
  have inLoop : DrainAt s'.data (s'.pc t) ∧
      drainRank s'.data (s'.pc t) + (tr.filter (·.1 = t)).length ≤ drainRank s.data (s.pc t) := by
    induction run with
    | start => exact ⟨drain, Nat.le_refl _⟩
    | @next tr s₁ act s₂ _ taken ih =>
      obtain ⟨u, event⟩ := act
      obtain ⟨drain₁, rank₁⟩ := ih
      obtain ⟨drain₂, rank₂⟩ := drain₁.step taken.1 taken.2
      refine ⟨drain₂, ?_⟩
      rw [List.filter_append, List.length_append]
      by_cases own : u = t
      · simp only [own, if_true, decide_true, List.filter_cons_of_pos, List.filter_nil, List.length_singleton] at rank₂ ⊢
        omega
      · simp only [own, if_false, decide_false, Bool.false_eq_true, not_false_eq_true, List.filter_cons_of_neg,
          List.filter_nil, List.length_nil] at rank₂ ⊢
        omega
  exact ⟨by omega, inLoop.1.enabled⟩

/-- What a queue of `capacity` items promises the callers of a run `tr` that ends in `s`. -/
structure LinearizableFifo (q : TestQueue) (capacity : Int) (itemSize : Nat)
    (tr : List (τ × Event q.itemSize)) (s : State τ q.itemSize) : Prop where
  bounded : (s.data.length : Int) ≤ capacity
  fifo : tr.filterMap (·.2.popped?) ++ s.data = tr.filterMap (·.2.pushed?)
  sized : ∀ item ∈ tr.filterMap (·.2.pushed?), item.length = itemSize
  /-- What went in are the items of the enqueues that returned 0, and of those that
  have nothing left to do but return it. -/
  accepted : ∀ t, (tr.filterMap (shownBy t)).filterMap Event.pushed? =
    (tr.filterMap (shownBy t)).filterMap Event.enqueued? ++ (s.pc t).inserted
  /-- Each call takes effect at one point between its start and its return; one that
  returns -1 takes none. The items of a `csp_queue_empty` come out one by one. -/
  calls : ∀ t, ∃ completed begun, Calls completed ∧ Begun (s.pc t) begun ∧
    tr.filterMap (shownBy t) = completed ++ begun
  /-- Where `csp_queue_size` takes its count, that many items are queued. -/
  counted : ∀ before t count after, tr = before ++ (t, .sized count) :: after →
    count = asI32 (queuedAfter before).length
  /-- A call that returns -1 has met a full queue, or an empty one, on its way. -/
  refused : ∀ before t call ret after, tr = before ++ (t, .returned call ret) :: after → ret.code = some (-1) →
    RefusedInside q.maxLen t call before
  effects : ∀ t event s', Step q s (t, event) s' → event.pushed? = none → event.popped? = none → s'.data = s.data
  forever : ∀ t call ret, (t, .returned call ret) ∈ tr → call.timeout = waitForever → ret.code ≠ some (-1)
  /-- `csp_queue_empty` can be called, and without producers it ends with nothing queued. -/
  callEmpty : ∀ t, s.pc t = .idle → ∃ s', Step q s (t, .called .empty) s'
  emptied : ∀ t scratch, s.pc t = .draining scratch → ∀ tr' s',
    (((machine τ q).startAt s).restrict fun _ => NoProducer t).Run tr' s' →
    (tr'.filter (·.1 = t)).length ≤ 2 * s.data.length + 2 ∧
      (s'.pc t = .idle ∧ s'.data = [] ∨ ∃ event s'', Step q s' (t, event) s'' ∧ NoProducer t (t, event))

/-- `TestArch`'s queue, through the exported calls of any number of threads in any order. -/
theorem test_queue_linearizable {length : Int} {itemSize : Nat} {q : TestQueue}
    (created : cspQueueCreateStatic (queueCreate itemSize) length = some q) (small : itemSize ≤ 16)
    {tr : List (τ × Event q.itemSize)} {s : State τ q.itemSize} (run : (machine τ q).Run tr s) :
    LinearizableFifo q length itemSize tr s := by
  obtain ⟨positive, made⟩ := cspQueueCreateStatic_some created
  cases made
  obtain ⟨bounded, conserved⟩ := contents run
  refine ⟨?_, conserved, ?_, pushed_by run, in_calls run, ?_, ?_, ?_, ?_, ?_, ?_⟩
  · have cast : (length.toNat : Int) = length := Int.toNat_of_nonneg (by omega)
    exact cast ▸ Int.ofNat_le.mpr bounded
  · intro item member
    obtain ⟨⟨t, event⟩, inRun, pushes⟩ := List.mem_filterMap.mp member
    obtain ⟨before, after, taken⟩ := run.taken inRun
    rcases taken.data_cases with ⟨src, rfl, _⟩ | ⟨dst, dst', rfl, _⟩ | ⟨noPush, _, _⟩
    · cases pushes
      exact src.item_length
    · exact nomatch pushes
    · exact nomatch noPush.symm.trans pushes
  · intro before t count after cut
    subst cut
    exact counted run
  · intro before t call ret after cut fails
    subst cut
    exact refused_inside run fails
  · intro t event s' taken noPush noPop
    rcases taken.data_cases with ⟨src, rfl, _⟩ | ⟨dst, dst', rfl, _⟩ | ⟨_, _, same⟩
    · exact nomatch noPush
    · exact nomatch noPop
    · exact same
  · intro t call ret member forever
    obtain ⟨effects, effect⟩ := returned_effect run member
    exact effect.forever forever
  · intro t atIdle
    exact ⟨_, @Step.calledEmpty _ _ _ _ _ ⟨List.replicate 16 0, by simpa using small⟩ atIdle rfl⟩
  · intro t scratch atDrain tr' s' continues
    have ends := DrainAt.ends (s := s) (t := t) (by rw [atDrain]; exact .draining) continues
    rwa [atDrain] at ends

/-- Memory of one byte. -/
def byte (b : UInt8) : Buffer 1 := ⟨[b], Nat.le_refl 1⟩

/-- Two threads in turn: an enqueue into the one slot, one that finds it taken, a look at the
number of items, a dequeue, an enqueue again and `csp_queue_empty`. -/
def callsInTurn : List (Bool × Event 1) :=
  [(false, .called (.enqueue (byte 7) 0)), (false, .pushed [7]), (false, .notified),
    (false, .returned (.enqueue (byte 7) 0) (.enqueued 0)),
    (true, .called (.enqueue (byte 8) 0)), (true, .failed),
    (true, .returned (.enqueue (byte 8) 0) (.enqueued (-1))),
    (false, .called .size), (false, .sized 1), (false, .returned .size (.sized 1)),
    (true, .called (.dequeue (byte 0) waitForever)), (true, .popped [7]), (true, .notified),
    (true, .returned (.dequeue (byte 0) waitForever) (.dequeued 0 (byte 7))),
    (true, .called (.enqueue (byte 8) 0)), (true, .pushed [8]), (true, .notified),
    (true, .returned (.enqueue (byte 8) 0) (.enqueued 0)),
    (false, .called .empty), (false, .popped [8]), (false, .notified), (false, .failed), (false, .returned .empty .emptied)]

theorem callsInTurn_run : ∃ s, (machine Bool ⟨1, 1⟩).Run callsInTurn s ∧ s.data = [] := by
  have one : asI32 1 = 1 := asI32_of_le (by decide)
  have asked : (machine Bool ⟨1, 1⟩).Run [(false, .called (.enqueue (byte 7) 0))] _ :=
    Machine.Run.start.next (Step.called rfl nofun)
  have pushed := asked.next (@Step.pushed _ _ _ _ false _ _ _ false _ rfl rfl)
  have notified := pushed.next (@Step.notifiedNone _ _ _ _ false _ _ rfl
    fun | false, _, atWait => nomatch atWait | true, _, atWait => nomatch atWait)
  obtain ⟨⟨_, pc₁⟩, enqueued, rfl, idle₁⟩ : ∃ s, (machine Bool ⟨1, 1⟩).Run (callsInTurn.take 4) s ∧
      [[7]] = s.data ∧ ∀ t, s.pc t = .idle :=
    ⟨_, notified.next (@Step.returned _ _ _ _ false _ _ rfl), rfl, fun | false => rfl | true => rfl⟩
  -- The slot is taken.
  have again := enqueued.next (@Step.called _ _ _ _ true (.enqueue (byte 8) 0) (idle₁ true) nofun)
  have failed := again.next (@Step.enqueueFailed _ _ _ _ true _ _ _ false rfl rfl)
  have refused := failed.next (@Step.returned _ _ _ _ true _ _ rfl)
  have looks := refused.next (@Step.called _ _ _ _ false .size (idle₁ false) nofun)
  have counted := looks.next (@Step.sized _ _ _ _ false rfl)
  change (machine Bool ⟨1, 1⟩).Run (_ ++ [(false, .sized (asI32 1))])
    ⟨_, Function.update _ false (.leaving .size (.sized (asI32 1)))⟩ at counted
  rw [one] at counted
  obtain ⟨⟨_, pc₂⟩, sized, rfl, idle₂⟩ : ∃ s, (machine Bool ⟨1, 1⟩).Run (callsInTurn.take 10) s ∧
      [[7]] = s.data ∧ ∀ t, s.pc t = .idle :=
    ⟨_, counted.next (@Step.returned _ _ _ _ false _ _ rfl), rfl, fun | false => rfl | true => rfl⟩
  have takes := sized.next (@Step.called _ _ _ _ true (.dequeue (byte 0) waitForever) (idle₂ true) nofun)
  have popped := takes.next (@Step.popped _ _ _ _ true _ _ _ false _ _ rfl rfl)
  have told := popped.next (@Step.notifiedNone _ _ _ _ true _ _ rfl
    fun | false, _, atWait => nomatch (idle₂ false).symm.trans atWait | true, _, atWait => nomatch atWait)
  obtain ⟨⟨_, pc₃⟩, dequeued, rfl, idle₃⟩ : ∃ s, (machine Bool ⟨1, 1⟩).Run (callsInTurn.take 14) s ∧
      [] = s.data ∧ ∀ t, s.pc t = .idle :=
    ⟨_, told.next (@Step.returned _ _ _ _ true _ _ rfl), rfl, fun | false => idle₂ false | true => rfl⟩
  -- The slot is free again.
  have once := dequeued.next (@Step.called _ _ _ _ true (.enqueue (byte 8) 0) (idle₃ true) nofun)
  have refilled := once.next (@Step.pushed _ _ _ _ true _ _ _ false _ rfl rfl)
  have said := refilled.next (@Step.notifiedNone _ _ _ _ true _ _ rfl
    fun | false, _, atWait => nomatch (idle₃ false).symm.trans atWait | true, _, atWait => nomatch atWait)
  obtain ⟨⟨_, pc₄⟩, full, rfl, idle₄⟩ : ∃ s, (machine Bool ⟨1, 1⟩).Run (callsInTurn.take 18) s ∧
      [[8]] = s.data ∧ ∀ t, s.pc t = .idle :=
    ⟨_, said.next (@Step.returned _ _ _ _ true _ _ rfl), rfl, fun | false => idle₃ false | true => rfl⟩
  have drains := full.next (@Step.calledEmpty _ _ _ _ false ⟨List.replicate 16 0, by decide⟩ (idle₄ false) rfl)
  have drained := drains.next (@Step.drainPopped _ _ _ _ false _ false _ _ rfl rfl)
  have free := drained.next (@Step.notifiedNone _ _ _ _ false _ _ rfl
    fun | false, _, atWait => nomatch atWait | true, _, atWait => nomatch (idle₄ true).symm.trans atWait)
  have nothing := free.next (@Step.drainFailed _ _ _ _ false _ false rfl rfl)
  have emptied := nothing.next (@Step.returned _ _ _ _ false _ _ rfl)
  exact ⟨_, emptied, rfl⟩

theorem test_queue_linearizable_two_threads : ∃ s, (machine Bool ⟨1, 1⟩).Run callsInTurn s ∧ s.data = [] ∧
    LinearizableFifo ⟨1, 1⟩ 1 1 callsInTurn s := by
  obtain ⟨s, run, nothing⟩ := callsInTurn_run
  exact ⟨s, run, nothing, test_queue_linearizable rfl (by decide) run⟩

end Libcsp.Queue
