import Libcsp.Base.Fifo
import Libcsp.Dispatcher.Register

namespace Libcsp.Backlog
open Sys

/-- What libcsp keeps for the dispatcher's socket. There is no receive queue before
the first `csp_listen`. -/
structure RxSocket where
  ports : List UInt8
  rxQueue : Option (List Connection)

def RxSocket.queue (sock : RxSocket) : List Connection := sock.rxQueue.getD []

def cspBind (code : Int) (sock : RxSocket) (port : UInt8) : RxSocket :=
  if code = cspErrNone then { sock with ports := port :: sock.ports } else sock

/-- `csp_listen` replaces the receive queue by a fresh empty one. -/
def cspListen (sock : RxSocket) : RxSocket := { sock with rxQueue := some [] }

def RxSocket.Admits (sock : RxSocket) (conn : Connection) : Prop :=
  conn.dstPort ∈ sock.ports ∨ Port.any.toU8 ∈ sock.ports

inductive Method
  | register | registerWithResult | bindService
  deriving DecidableEq, Repr

/-- Where the owner of the dispatcher is: the C call that it makes next. The methods
take `&mut self`, so there is one owner. -/
inductive Phase
  | idle
  | binding (port : UInt8)
  | bindListening
  | runListening
  | accepting
  | serving (conn : Connection)

structure State where
  sock : RxSocket
  phase : Phase

inductive Act
  | call (method : Method) (port : Port)
  | bindReturned (code : Int)
  | bindListened
  | run
  | runListened
  | accepted (conn : Connection)
  | acceptTimedOut
  | served
  | arrived (conn : Connection)

/-- What `Socket::bind` does after `csp_bind`: `?` returns an error to the caller. -/
def afterBind : Except CspError Unit → Phase
  | .error _ => .idle
  | .ok () => .bindListening

/-- One C call of the owner, or one arrival through the router, which needs room in
the current receive queue. -/
inductive Step (capacity : Nat) : State → Act → State → Prop
  | call {sock method port} : Step capacity ⟨sock, .idle⟩ (.call method port) ⟨sock, .binding port.toU8⟩
  | bindReturned {sock port code} :
      Step capacity ⟨sock, .binding port⟩ (.bindReturned code) ⟨cspBind code sock port, afterBind (cspResult code)⟩
  | bindListened {sock} : Step capacity ⟨sock, .bindListening⟩ .bindListened ⟨cspListen sock, .idle⟩
  | run {sock} : Step capacity ⟨sock, .idle⟩ .run ⟨sock, .runListening⟩
  | runListened {sock} : Step capacity ⟨sock, .runListening⟩ .runListened ⟨cspListen sock, .accepting⟩
  | accepted {ports conn rest} :
      Step capacity ⟨⟨ports, some (conn :: rest)⟩, .accepting⟩ (.accepted conn) ⟨⟨ports, some rest⟩, .serving conn⟩
  | acceptTimedOut {sock} : Step capacity ⟨sock, .accepting⟩ .acceptTimedOut ⟨sock, .idle⟩
  | served {sock conn} : Step capacity ⟨sock, .serving conn⟩ .served ⟨sock, .accepting⟩
  | arrived {ports q phase conn} : RxSocket.Admits ⟨ports, some q⟩ conn → q.length < capacity →
      Step capacity ⟨⟨ports, some q⟩, phase⟩ (.arrived conn) ⟨⟨ports, some (q ++ [conn])⟩, phase⟩

def machine (capacity : Nat) : Machine State Act where
  init := ⟨⟨[], none⟩, .idle⟩
  step := Step capacity

/-- The C state as `Socket::bind` and `Socket::listen` see it when nothing arrives
meanwhile and `csp_bind` returns `code`. -/
def rxApi (code : Int) : SocketApi RxSocket where
  cspBind sock port := (code, cspBind code sock port)
  cspListen sock _ := (cspErrNone, cspListen sock)

/-- Undisturbed, the steps of a registering call are `Socket::bind`. -/
theorem bind_undisturbed (capacity : Nat) (code : Int) (sock : RxSocket) (method : Method) (port : Port) :
    ∃ tr, ((machine capacity).startAt ⟨sock, .idle⟩).Run (.call method port :: .bindReturned code :: tr)
      ⟨(Socket.bind (rxApi code) sock port.toU8).2, .idle⟩ := by
  have returned : ((machine capacity).startAt ⟨sock, .idle⟩).Run [.call method port, .bindReturned code]
      ⟨cspBind code sock port.toU8, afterBind (cspResult code)⟩ :=
    .next (.next .start Step.call) Step.bindReturned
  unfold Socket.bind
  cases outcome : cspResult code with
  | error e =>
    rw [outcome] at returned
    exact ⟨[], by simpa [rxApi, outcome, afterBind] using returned⟩
  | ok _ =>
    rw [outcome] at returned
    exact ⟨[.bindListened], by simpa [rxApi, outcome] using returned.next Step.bindListened⟩

theorem listen_undisturbed (capacity : Nat) (code : Int) (sock : RxSocket) :
    ((machine capacity).startAt ⟨sock, .idle⟩).Run [.run, .runListened]
      ⟨(Socket.listen (rxApi code) sock 10).2, .accepting⟩ :=
  .next (.next .start Step.run) Step.runListened

def Act.arrived? : Act → Option Connection
  | .arrived conn => some conn
  | _ => none

def Act.accepted? : Act → Option Connection
  | .accepted conn => some conn
  | _ => none

/-- Every connection that arrived was returned by accept, once and in arrival order,
or is still queued. -/
def NoneLost (tr : List Act) (s : State) : Prop :=
  tr.filterMap Act.accepted? ++ s.sock.queue = tr.filterMap Act.arrived?

def ListensOnEmptyQueue (s : State) : Act → Prop
  | .bindListened | .runListened => s.sock.queue = []
  | _ => True

def fifoOp : Act → Option (FifoOp Connection)
  | .arrived conn => some (.push conn)
  | .accepted conn => some (.pop conn)
  | _ => none

theorem cspBind_queue (code : Int) (sock : RxSocket) (port : UInt8) :
    (cspBind code sock port).queue = sock.queue := by
  unfold cspBind
  split <;> rfl

/-- While `csp_listen` finds nothing to discard, the socket is a queue. -/
theorem refines_fifo (capacity : Nat) :
    Refines ((machine capacity).restrict ListensOnEmptyQueue) (boundedFifo Connection capacity)
      (fun s q => s.sock.queue = q) fifoOp where
  init := rfl
  visible := by
    rintro s a t q op rfl ⟨taken, -⟩ seen
    cases taken with
    | accepted =>
      cases seen
      exact ⟨_, rfl, rfl⟩
    | arrived _ room =>
      cases seen
      exact ⟨_, ⟨room, rfl⟩, rfl⟩
    | call | bindReturned | bindListened | run | runListened | acceptTimedOut | served => exact nomatch seen
  silent := by
    rintro s a t q rfl ⟨taken, allowed⟩ seen
    cases taken with
    | bindReturned => exact cspBind_queue _ _ _
    | bindListened | runListened => exact Eq.symm allowed
    | call | run | acceptTimedOut | served => rfl
    | accepted | arrived => exact nomatch seen

/-- A step moves connections from the router to the queue and from the queue to the
caller of accept, unless it is a `csp_listen`. -/
theorem Step.queue {capacity : Nat} {s t : State} {a : Act} (taken : Step capacity s a t) :
    a.accepted?.toList ++ t.sock.queue = s.sock.queue ++ a.arrived?.toList ∧ ListensOnEmptyQueue s a ∨
    a.accepted? = none ∧ a.arrived? = none ∧ t.sock.queue = [] ∧
      (ListensOnEmptyQueue s a ↔ s.sock.queue = []) := by
  cases taken with
  | bindReturned => exact Or.inl ⟨by simp [Act.accepted?, Act.arrived?, cspBind_queue], trivial⟩
  | bindListened | runListened => exact Or.inr ⟨rfl, rfl, rfl, Iff.rfl⟩
  | accepted | arrived => exact Or.inl ⟨by simp [Act.accepted?, Act.arrived?, RxSocket.queue], trivial⟩
  | call | run | acceptTimedOut | served => exact Or.inl ⟨by simp [Act.accepted?, Act.arrived?], trivial⟩

theorem accepted_queued_le {capacity : Nat} {tr : List Act} {s : State} (run : (machine capacity).Run tr s) :
    (tr.filterMap Act.accepted?).length + s.sock.queue.length ≤ (tr.filterMap Act.arrived?).length := by
  induction run with
  | start => exact Nat.le_refl 0
  | @next tr s a t _ taken ih =>
    simp only [filterMap_concat, List.length_append]
    rcases taken.queue with ⟨moved, -⟩ | ⟨noneAccepted, noneArrived, empty, -⟩
    · have lengths := congrArg List.length moved
      simp only [List.length_append] at lengths
      omega
    · simp only [noneAccepted, noneArrived, empty, Option.toList_none, List.length_nil]
      omega

/-- A connection once lost stays lost, so a run that ends with none lost discarded
none on the way. -/
theorem NoneLost.before {capacity : Nat} {tr : List Act} {s t : State} {a : Act}
    (run : (machine capacity).Run tr s) (taken : Step capacity s a t) (kept : NoneLost (tr ++ [a]) t) :
    NoneLost tr s ∧ ListensOnEmptyQueue s a := by
  unfold NoneLost at kept ⊢
  simp only [filterMap_concat, List.append_assoc] at kept
  rcases taken.queue with ⟨moved, allowed⟩ | ⟨noneAccepted, noneArrived, empty, allowedIff⟩
  · rw [moved, ← List.append_assoc] at kept
    exact ⟨List.append_cancel_right kept, allowed⟩
  · simp only [noneAccepted, noneArrived, empty, Option.toList_none, List.append_nil] at kept
    have bound := accepted_queued_le run
    rw [← kept] at bound
    have nothing : s.sock.queue = [] := List.length_eq_zero_iff.mp (by omega)
    exact ⟨by rw [nothing, List.append_nil, kept], allowedIff.mpr nothing⟩

/-- A run loses no connection exactly when every `csp_listen` in it, inside a
registering call or at the start of `run`, found the receive queue empty. -/
theorem no_connection_lost_iff {capacity : Nat} {tr : List Act} {s : State}
    (run : (machine capacity).Run tr s) :
    NoneLost tr s ↔ ((machine capacity).restrict ListensOnEmptyQueue).Run tr s := by
  refine run.restrict_iff (P := NoneLost) ?_ ?_
  · intro tr s restricted
    obtain ⟨q, rfl, _, conserved⟩ := (refines_fifo capacity).conserves Act.arrived?
      Act.accepted? (by intro a; cases a <;> rfl) (by intro a; cases a <;> rfl) restricted
    exact conserved
  · intro tr s a t previous taken kept
    exact kept.before previous taken

theorem registered_run : ((machine 10).restrict ListensOnEmptyQueue).Run
    [.call .register (.custom 11), .bindReturned 0, .bindListened] ⟨⟨[11], some []⟩, .idle⟩ := by
  have called : ((machine 10).restrict ListensOnEmptyQueue).Run [.call .register (.custom 11)]
      ⟨⟨[], none⟩, .binding 11⟩ := Machine.Run.start.next ⟨Step.call, trivial⟩
  have bound := called.next ⟨@Step.bindReturned _ _ _ 0, trivial⟩
  exact bound.next ⟨Step.bindListened, rfl⟩

theorem no_connection_lost_iff_late_arrival :
    ∃ s, (machine 10).Run [.call .register (.custom 11), .bindReturned 0, .bindListened, .run, .runListened,
        .arrived ⟨1, 11⟩, .accepted ⟨1, 11⟩] s ∧
      NoneLost [.call .register (.custom 11), .bindReturned 0, .bindListened, .run, .runListened,
        .arrived ⟨1, 11⟩, .accepted ⟨1, 11⟩] s := by
  have started := registered_run.next ⟨Step.run, trivial⟩
  have accepting := started.next ⟨Step.runListened, rfl⟩
  have arrived := accepting.next
    ⟨@Step.arrived _ _ _ _ ⟨1, 11⟩ (Or.inl (by decide)) (by decide), trivial⟩
  have accepted := arrived.next ⟨Step.accepted, trivial⟩
  exact ⟨_, accepted.of_restrict, (no_connection_lost_iff accepted.of_restrict).mpr accepted⟩

/-- A connection that arrives between `register` and `run` is discarded by the
`csp_listen` at the start of `run`. -/
theorem early_connection_lost : ¬ ∀ tr s, (machine 10).Run tr s → NoneLost tr s := by
  intro claim
  have arrived := registered_run.of_restrict.next
    (@Step.arrived _ _ _ _ ⟨1, 11⟩ (Or.inl (by decide)) (by decide))
  have started := arrived.next Step.run
  have accepting := started.next Step.runListened
  exact nomatch claim _ _ accepting

end Libcsp.Backlog
