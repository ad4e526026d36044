import Libcsp.Base.Lock
import Libcsp.Base.Pacing
import Libcsp.Stress.Payload

namespace Libcsp.Stress.Tx
open Sys

def dataPort : Nat := 10

def sfpPort : Nat := 11

/-- `Duration::from_millis`, in nanoseconds like every time here. -/
def fromMillis (ms : Nat) : Nat := ms * 1000000

def interval : Nat := fromMillis 5

inductive ProtocolMode
  | normal
  | rdp
  | sfp
  | rdpSfp
  deriving DecidableEq

def ProtocolMode.nextMode : ProtocolMode → ProtocolMode
  | .normal => .rdp
  | .rdp => .sfp
  | .sfp => .rdpSfp
  | .rdpSfp => .normal

inductive ConnOpts
  | none
  | rdp
  deriving DecidableEq

/-- A connection, by what `connect` was asked for. -/
structure Conn where
  dst : Nat
  dstPort : Nat
  opts : ConnOpts
  deriving DecidableEq

/-- The connection a mode works on. Packets of the normal mode go out by `sendto`. -/
def ProtocolMode.conn : ProtocolMode → Option Conn
  | .normal => none
  | .rdp => some ⟨2, dataPort, .rdp⟩
  | .sfp => some ⟨2, sfpPort, .none⟩
  | .rdpSfp => some ⟨2, sfpPort, .rdp⟩

/-- The bytes of a packet, or of a blob. -/
def ProtocolMode.size : ProtocolMode → Nat
  | .normal | .rdp => 200
  | .sfp | .rdpSfp => 600

/-- `burst_packets`: the intervals a blob that was sent takes beside its own. -/
def burstPackets (size : Nat) : Nat := size / 180 + 1

/-- `next_tick` when the pacing is through. The clock is read again to see how late it is, and
once more if that is too much. -/
def paceTick (nextTick checked late : Nat) : Nat :=
  let nextTick := nextTick + interval
  if nextTick + fromMillis 100 < checked then late + interval else nextTick

/-- Where the loop is. -/
inductive Phase
  | pacing
  | modeSwitch
  | leaving
  | modeLogic
  | givingUp
  deriving DecidableEq

structure State where
  clock : Nat
  nextTick : Nat
  modeStart : Nat
  currentMode : ProtocolMode
  activeConn : Option Conn
  count : UInt64
  phase : Phase

structure Message where
  via : Option Conn
  data : List UInt8
  deriving DecidableEq

inductive Event
  | tick
  | opened (conn : Conn)
  | closed (conn : Conn)
  | sent (message : Message)
  | failed (message : Message)
  | modeEnd
  | modeStart (mode : ProtocolMode)
  | idle

structure Act where
  time : Nat
  event : Event

/-- Any time may pass before each step. -/
inductive Step : State → Act → State → Prop
  | pace {s now woke checked late} : s.phase = .pacing → s.clock ≤ now →
      now + (if now < s.nextTick then s.nextTick - now else 0) ≤ woke → woke ≤ checked → checked ≤ late →
      Step s ⟨woke, .tick⟩
        { s with clock := late, nextTick := paceTick s.nextTick checked late, phase := .modeSwitch }
  | stay {s now} : s.phase = .modeSwitch → s.clock ≤ now → now - s.modeStart < fromMillis 10000 →
      Step s ⟨now, .idle⟩ { s with clock := now, phase := .modeLogic }
  | leave {s now} : s.phase = .modeSwitch → s.clock ≤ now → fromMillis 10000 ≤ now - s.modeStart →
      Step s ⟨now, .modeEnd⟩ { s with clock := now, phase := .leaving }
  | hangUp {s now conn} : s.phase = .leaving → s.activeConn = some conn → s.clock ≤ now →
      Step s ⟨now, .closed conn⟩ { s with clock := now, activeConn := none }
  /-- `thread::sleep`, and on in the next mode. -/
  | switch {s now woke started} : s.phase = .leaving → s.activeConn = none → s.clock ≤ now →
      now + fromMillis 500 ≤ woke → woke ≤ started →
      Step s ⟨woke, .modeStart s.currentMode.nextMode⟩
        { s with clock := started, currentMode := s.currentMode.nextMode, modeStart := started, phase := .modeLogic }
  | connect {s now conn} : s.phase = .modeLogic → s.activeConn = none → s.currentMode.conn = some conn →
      s.clock ≤ now → Step s ⟨now, .opened conn⟩ { s with clock := now, activeConn := some conn }
  | noConnection {s now conn} : s.phase = .modeLogic → s.activeConn = none → s.currentMode.conn = some conn →
      s.clock ≤ now → Step s ⟨now, .idle⟩ { s with clock := now, phase := .pacing }
  /-- `Packet::get` has none. -/
  | noPacket {s now} : s.phase = .modeLogic → s.currentMode = .normal ∨ s.currentMode = .rdp ∧ s.activeConn.isSome →
      s.clock ≤ now → Step s ⟨now, .idle⟩ { s with clock := now, phase := .pacing }
  | datagram {s now} : s.phase = .modeLogic → s.currentMode = .normal → s.clock ≤ now →
      Step s ⟨now, .sent ⟨none, payload 200 s.count⟩⟩ { s with clock := now, count := s.count + 1, phase := .pacing }
  | packet {s now conn} : s.phase = .modeLogic → s.currentMode = .rdp → s.activeConn = some conn → s.clock ≤ now →
      Step s ⟨now, .sent ⟨some conn, payload 200 s.count⟩⟩
        { s with clock := now, count := s.count + 1, phase := .pacing }
  | blob {s now conn} : s.phase = .modeLogic → s.currentMode = .sfp ∨ s.currentMode = .rdpSfp →
      s.activeConn = some conn → s.clock ≤ now →
      Step s ⟨now, .sent ⟨some conn, payload 600 s.count⟩⟩
        { s with
          clock := now
          count := s.count + 1
          nextTick := s.nextTick + burstPackets 600 * interval
          phase := .pacing }
  | blobFails {s now conn} : s.phase = .modeLogic → s.currentMode = .sfp ∨ s.currentMode = .rdpSfp →
      s.activeConn = some conn → s.clock ≤ now →
      Step s ⟨now, .failed ⟨some conn, payload 600 s.count⟩⟩ { s with clock := now, phase := .givingUp }
  | giveUp {s now conn} : s.phase = .givingUp → s.activeConn = some conn → s.clock ≤ now →
      Step s ⟨now, .closed conn⟩ { s with clock := now, activeConn := none, phase := .pacing }

/-- The sender, from its first readings of the clock for `mode_start` and `next_tick`. -/
def machine (modeStart nextTick : Nat) : Machine State Act where
  init := ⟨nextTick, nextTick, modeStart, .normal, none, 0, .pacing⟩
  step := Step

def Act.message? : Act → Option Message
  | ⟨_, .sent message⟩ => some message
  | _ => none

def Act.switches : Act → Bool
  | ⟨_, .modeStart _⟩ => true
  | _ => false

def Act.lockOp : Act → Option (LockOp Conn)
  | ⟨_, .opened conn⟩ => some (.acquire conn)
  | ⟨_, .closed conn⟩ => some (.release conn)
  | _ => none

/-- What has gone out in full. -/
def messages (tr : List Act) : List Message := tr.filterMap Act.message?

/-- The mode behind so many switches. -/
def modeAfter (tr : List Act) : ProtocolMode := ProtocolMode.nextMode^[tr.countP Act.switches] .normal

structure Inv (begun : Nat) (tr : List Act) (s : State) : Prop where
  clock : ∀ a ∈ tr, a.time ≤ s.clock
  numbers : s.count = UInt64.ofNat (messages tr).length
  mode : s.currentMode = modeAfter tr
  conn : ∀ conn, s.activeConn = some conn → s.currentMode.conn = some conn
  conns : (exclusiveLock Conn).Run (tr.filterMap Act.lockOp) s.activeConn
  first : begun ≤ s.modeStart
  dwell : ∀ a ∈ tr, a.switches → a.time ≤ s.modeStart
  leaving : s.phase = .leaving → s.modeStart + fromMillis 10000 ≤ s.clock

/-- What an action may be, after the ones before it and the start of the first mode. -/
structure Proper (begun : Nat) (before : List Act) (a : Act) : Prop where
  order : ∀ x ∈ before, x.time ≤ a.time
  /-- Data go the way of the mode, over what is open. They carry the number of those that went
  out before, so those that failed are sent again. -/
  message : ∀ message, a.event = .sent message ∨ a.event = .failed message →
    message.via = (modeAfter before).conn ∧ (exclusiveLock Conn).Run (before.filterMap Act.lockOp) message.via ∧
      message.data = payload (modeAfter before).size (UInt64.ofNat (messages before).length)
  opened : ∀ conn, a.event = .opened conn → (modeAfter before).conn = some conn
  modeEnd : a.event = .modeEnd → begun + fromMillis 10000 ≤ a.time ∧
    ∀ x ∈ before, x.switches → x.time + fromMillis 10000 ≤ a.time
  /-- A mode begins with nothing open, after half a second of silence and ten seconds in the
  mode before it. -/
  modeStart : ∀ mode, a.event = .modeStart mode → mode = (modeAfter before).nextMode ∧
    (exclusiveLock Conn).Run (before.filterMap Act.lockOp) none ∧
    (∀ x ∈ before, x.time + fromMillis 500 ≤ a.time) ∧ begun + fromMillis 10500 ≤ a.time ∧
    ∀ x ∈ before, x.switches → x.time + fromMillis 10500 ≤ a.time

theorem messages_concat (tr : List Act) (a : Act) : messages (tr ++ [a]) = messages tr ++ a.message?.toList :=
  filterMap_concat Act.message? tr a

theorem modeAfter_concat (tr : List Act) (a : Act) :
    modeAfter (tr ++ [a]) = if a.switches then (modeAfter tr).nextMode else modeAfter tr := by
  rw [modeAfter, List.countP_append, List.countP_singleton]
  split_ifs with switches
  · exact Function.iterate_succ_apply' ProtocolMode.nextMode _ _
  · rfl

variable {begun : Nat} {tr : List Act} {s s' : State} {a : Act}

/-- The clock of the sender never runs back, and nothing is done before the time it shows. -/
theorem Step.time (step : Step s a s') : s.clock ≤ a.time ∧ a.time ≤ s'.clock := by
  cases step <;> simp only <;> omega

theorem Inv.message (inv : Inv begun tr s) {via : Option Conn} {size : Nat} (isOpen : s.activeConn = via)
    (route : s.currentMode.conn = via) (sized : s.currentMode.size = size) :
    via = (modeAfter tr).conn ∧ (exclusiveLock Conn).Run (tr.filterMap Act.lockOp) via ∧
      payload size s.count = payload (modeAfter tr).size (UInt64.ofNat (messages tr).length) := by
  have conns := inv.conns
  rw [isOpen] at conns
  rw [← inv.mode, ← inv.numbers, route, sized]
  exact ⟨rfl, conns, rfl⟩

theorem Inv.nothing_open (inv : Inv begun tr s) (normal : s.currentMode = .normal) : s.activeConn = none := by
  refine Option.eq_none_iff_forall_ne_some.mpr ?_
  intro conn isOpen
  have route := inv.conn conn isOpen
  rw [normal] at route
  exact nomatch route

theorem size_of_blob {mode : ProtocolMode} (blob : mode = .sfp ∨ mode = .rdpSfp) : mode.size = 600 := by
  obtain rfl | rfl := blob
  · rfl
  · rfl

theorem Inv.proper (inv : Inv begun tr s) (step : Step s a s') : Proper begun tr a where
  order x member := (inv.clock x member).trans step.time.1
  message message event := by
    cases step with
    | datagram _ mode _ =>
      rcases event with sent | failed
      · cases sent
        exact inv.message (inv.nothing_open mode) (congrArg ProtocolMode.conn mode) (congrArg ProtocolMode.size mode)
      · exact nomatch failed
    | packet _ mode isOpen _ =>
      rcases event with sent | failed
      · cases sent
        exact inv.message isOpen (inv.conn _ isOpen) (congrArg ProtocolMode.size mode)
      · exact nomatch failed
    | blob _ mode isOpen _ =>
      rcases event with sent | failed
      · cases sent
        exact inv.message isOpen (inv.conn _ isOpen) (size_of_blob mode)
      · exact nomatch failed
    | blobFails _ mode isOpen _ =>
      rcases event with sent | failed
      · exact nomatch sent
      · cases failed
        exact inv.message isOpen (inv.conn _ isOpen) (size_of_blob mode)
    | _ => rcases event with sent | failed <;> contradiction
  opened conn event := by
    cases step with
    | connect _ _ route _ =>
      cases event
      rw [← inv.mode, route]
    | _ => exact nomatch event
  modeEnd event := by
    cases step with
    | @leave now _ _ ended =>
      have first := inv.first
      refine ⟨?_, ?_⟩
      · show begun + fromMillis 10000 ≤ now
        unfold fromMillis at *
        omega
      · intro x member switches
        have before := inv.dwell x member switches
        show x.time + fromMillis 10000 ≤ now
        unfold fromMillis at *
        omega
    | _ => exact nomatch event
  modeStart mode event := by
    cases step with
    | @switch now woke started leaving closed waits sleeps _ =>
      cases event
      have atLeast := inv.leaving leaving
      refine ⟨by rw [inv.mode], ?_, ?_, ?_, ?_⟩
      · rw [← closed]
        exact inv.conns
      · intro x member
        have before := inv.clock x member
        show x.time + fromMillis 500 ≤ woke
        omega
      · have before := inv.first
        show begun + fromMillis 10500 ≤ woke
        unfold fromMillis at *
        omega
      · intro x member switches
        have before := inv.dwell x member switches
        show x.time + fromMillis 10500 ≤ woke
        unfold fromMillis at *
        omega
    | _ => exact nomatch event

theorem Step.count (step : Step s a s') : s'.count = s.count + UInt64.ofNat a.message?.toList.length := by
  cases step with
  | datagram | packet | blob => rfl
  | _ => exact (UInt64.add_zero _).symm

theorem Step.mode (step : Step s a s') :
    s'.currentMode = if a.switches then s.currentMode.nextMode else s.currentMode := by
  cases step <;> rfl

/-- What is open changes as a lock changes hands. -/
theorem Step.conns (step : Step s a s') :
    match a.lockOp with
    | some op => (exclusiveLock Conn).step s.activeConn op s'.activeConn
    | none => s'.activeConn = s.activeConn := by
  cases step with
  | connect _ closed _ _ => exact ⟨closed, rfl⟩
  | hangUp _ isOpen _ | giveUp _ isOpen _ => exact ⟨isOpen, rfl⟩
  | _ => rfl

/-- A connection is the one of the mode, or there is none. -/
theorem Step.conn (fits : ∀ conn, s.activeConn = some conn → s.currentMode.conn = some conn) (step : Step s a s') :
    ∀ conn, s'.activeConn = some conn → s'.currentMode.conn = some conn := by
  cases step with
  | connect _ _ route _ =>
    intro conn isOpen
    cases isOpen
    exact route
  | switch _ closed _ _ _ =>
    intro conn isOpen
    exact nomatch closed.symm.trans isOpen
  | hangUp | giveUp =>
    intro conn isOpen
    exact nomatch isOpen
  | _ => exact fits

theorem Step.modeStart (step : Step s a s') :
    (a.switches = false ∧ s'.modeStart = s.modeStart) ∨
      (a.switches = true ∧ s.phase = .leaving ∧ a.time ≤ s'.modeStart) := by
  cases step with
  | switch leaving _ _ _ later => exact .inr ⟨rfl, leaving, later⟩
  | _ => exact .inl ⟨rfl, rfl⟩

theorem Step.leaving (lasted : s.phase = .leaving → s.modeStart + fromMillis 10000 ≤ s.clock) (step : Step s a s') :
    s'.phase = .leaving → s'.modeStart + fromMillis 10000 ≤ s'.clock := by
  intro leaving
  cases step with
  | leave _ _ elapsed =>
    have positive : 0 < fromMillis 10000 := by decide
    simp only
    omega
  | hangUp _ _ waits =>
    have atLeast := lasted leaving
    simp only
    omega
  | connect working _ _ _ => exact nomatch working.symm.trans leaving
  | _ => exact nomatch leaving

theorem Inv.conns_step (inv : Inv begun tr s) (step : Step s a s') :
    (exclusiveLock Conn).Run ((tr ++ [a]).filterMap Act.lockOp) s'.activeConn := by
  have change := step.conns
  rw [filterMap_concat]
  cases seen : a.lockOp with
  | none =>
    rw [seen] at change
    rw [change, Option.toList_none, List.append_nil]
    exact inv.conns
  | some op =>
    rw [seen] at change
    exact inv.conns.next change

theorem Inv.step (inv : Inv begun tr s) (step : Step s a s') : Inv begun (tr ++ [a]) s' where
  clock x member := by
    rcases List.mem_append.mp member with earlier | last
    · have before := inv.clock x earlier
      have passes := step.time
      omega
    · rw [List.mem_singleton.mp last]
      exact step.time.2
  numbers := by
    rw [step.count, inv.numbers, messages_concat, List.length_append, UInt64.ofNat_add]
  mode := by rw [step.mode, modeAfter_concat, inv.mode]
  conn := step.conn inv.conn
  conns := inv.conns_step step
  first := by
    have before := inv.first
    have passes := step.time
    rcases step.modeStart with ⟨_, same⟩ | ⟨_, leaving, since⟩
    · rw [same]
      exact before
    · have lasted := inv.leaving leaving
      omega
  dwell x member switches := by
    have passes := step.time
    rcases List.mem_append.mp member with earlier | last
    · rcases step.modeStart with ⟨_, same⟩ | ⟨_, _, since⟩
      · rw [same]
        exact inv.dwell x earlier switches
      · have before := inv.clock x earlier
        omega
    · rw [List.mem_singleton.mp last] at switches ⊢
      rcases step.modeStart with ⟨stays, _⟩ | ⟨_, _, since⟩
      · exact nomatch stays.symm.trans switches
      · exact since
  leaving := step.leaving inv.leaving

theorem Run.inv {modeStart nextTick : Nat} (run : (machine modeStart nextTick).Run tr s) : Inv modeStart tr s := by
  refine run.history ?_ fun inv step => inv.step step
  exact ⟨by simp, rfl, rfl, nofun, .start, Nat.le_refl _, by simp, nofun⟩

/-- The pacing as a `pacer`: what a blob takes beside its own interval is a charge. -/
def Act.paceOp : Act → Option PaceOp
  | ⟨time, .tick⟩ => some (.round time)
  | ⟨_, .sent message⟩ => if message.data.length = 600 then some (.charge (burstPackets 600 * interval)) else none
  | _ => none

theorem paceTick_puts (nextTick checked late : Nat) (order : checked ≤ late) :
    nextTick + interval ≤ paceTick nextTick checked late ∧ checked ≤ paceTick nextTick checked late + fromMillis 100 := by
  simp only [paceTick]
  split_ifs with behind
  · omega
  · omega

theorem Step.paces (step : Step s a s') :
    match a.paceOp with
    | some op => (pacer interval (fromMillis 100) s.nextTick).step s.nextTick op s'.nextTick
    | none => s'.nextTick = s.nextTick := by
  cases step with
  | @pace now woke checked late _ _ sleeps reads order =>
    obtain ⟨puts, behind⟩ := paceTick_puts s.nextTick checked late order
    refine ⟨?_, puts, reads.trans behind⟩
    split_ifs at sleeps <;> omega
  | datagram | packet =>
    have packet : (payload 200 s.count).length ≠ 600 := by rw [payload_length (by decide)]; decide
    simp only [Act.paceOp, if_neg packet]
  | blob =>
    simp only [Act.paceOp, if_pos (@payload_length 600 (by decide) s.count)]
    rfl
  | _ => rfl

def paceOps (tr : List Act) : List PaceOp := tr.filterMap Act.paceOp

theorem paceOps_concat (tr : List Act) (a : Act) : paceOps (tr ++ [a]) = paceOps tr ++ a.paceOp.toList :=
  filterMap_concat Act.paceOp tr a

theorem pacing {modeStart nextTick : Nat} (run : (machine modeStart nextTick).Run tr s) :
    (pacer interval (fromMillis 100) nextTick).Run (paceOps tr) s.nextTick := by
  induction run with
  | start => exact .start
  | @next tr s a s' _ taken ih =>
    have change := Step.paces taken
    rw [paceOps_concat]
    cases seen : a.paceOp with
    | none =>
      rw [seen] at change
      rw [change, Option.toList_none, List.append_nil]
      exact ih
    | some op =>
      rw [seen] at change
      exact ih.next change

def Act.bytes : Act → Nat
  | ⟨_, .sent message⟩ => message.data.length
  | _ => 0

/-- The bytes of what has gone out in full. -/
def bytes (tr : List Act) : Nat := (tr.map Act.bytes).sum

/-- What a round that has begun may still send for its own interval. -/
def State.allowance (s : State) : Nat := if s.phase = .pacing then 0 else interval

theorem tick_cost (time period : Nat) : paceCost period (Act.paceOp ⟨time, .tick⟩).toList = period := by
  simp [Act.paceOp, PaceOp.cost]

/-- 200 bytes for an interval: the packets go up to it, the blobs stay below. -/
theorem Step.budget (step : Step s a s') :
    interval * a.bytes + 200 * s'.allowance ≤ 200 * (paceCost interval a.paceOp.toList + s.allowance) := by
  cases step with
  | pace top =>
    rw [tick_cost]
    simp [Act.bytes, State.allowance, top]
  | datagram working | packet working =>
    have length := @payload_length 200 (by decide) s.count
    simp [Act.bytes, Act.paceOp, State.allowance, working, length]
    omega
  | blob working =>
    have length := @payload_length 600 (by decide) s.count
    simp [Act.bytes, Act.paceOp, State.allowance, working, length, PaceOp.cost, burstPackets]
    omega
  | stay working | leave working | hangUp working | switch working | connect working | noConnection working
  | noPacket working | blobFails working | giveUp working =>
    simp [Act.bytes, Act.paceOp, State.allowance, working]

theorem budget {modeStart nextTick : Nat} (run : ((machine modeStart nextTick).startAt s).Run tr s') :
    interval * bytes tr + 200 * s'.allowance ≤ 200 * (paceCost interval (paceOps tr) + s.allowance) := by
  induction run with
  | start => simp [bytes, paceOps, Machine.startAt]
  | @next tr middle a after _ taken ih =>
    have last := Step.budget taken
    have sent : bytes (tr ++ [a]) = bytes tr + a.bytes := by simp [bytes]
    rw [sent, paceOps_concat, paceCost_append, Nat.mul_add]
    omega

def Act.ticks : Act → Bool
  | ⟨_, .tick⟩ => true
  | _ => false

theorem ticks_cost (tr : List Act) : interval * tr.countP Act.ticks ≤ paceCost interval (paceOps tr) := by
  induction tr using List.reverseRecOn with
  | nil => exact Nat.le_refl 0
  | append_singleton tr a ih =>
    have one : interval * [a].countP Act.ticks ≤ paceCost interval a.paceOp.toList := by
      obtain ⟨time, event⟩ := a
      cases event with
      | tick =>
        rw [tick_cost]
        exact Nat.le_of_eq (Nat.mul_one interval)
      | _ => exact Nat.zero_le _
    rw [List.countP_append, paceOps_concat, paceCost_append, Nat.mul_add]
    omega

/-- The steps as those of the sender that an arbitrary network is behind. -/
def Act.seen? : Act → Option Stress.Act
  | ⟨_, .sent message⟩ => some (.sent message.data.length)
  | ⟨_, .failed _⟩ => some .failed
  | _ => none

/-- The loop in `main` of the sender. -/
structure Behaves (begun : Nat) (tr : List Act) (s : State) : Prop where
  proper : ∀ before a after, tr = before ++ a :: after → Proper begun before a
  /-- At most one connection is open, and it is closed before the next one is opened. -/
  conns : (exclusiveLock Conn).Run (tr.filterMap Act.lockOp) s.activeConn
  /-- However late the loop gets, it makes up for no more than 100 ms of rounds. With what the
  first round sends, that is 105 ms of bytes. -/
  paced : ∀ before first between last after, tr = before ++ first :: (between ++ last :: after) →
    first.event = .tick → last.event = .tick →
      first.time + interval * between.countP Act.ticks ≤ last.time + fromMillis 100 ∧
        interval * bytes between + 200 * first.time ≤ 200 * (last.time + fromMillis 105)
  counted : ∃ x, Stress.machine.Run (tr.filterMap Act.seen?) x ∧ x.count = s.count ∧
    x.sent = (messages tr).map Message.data

theorem counted {modeStart nextTick : Nat} (run : (machine modeStart nextTick).Run tr s) :
    ∃ x, Stress.machine.Run (tr.filterMap Act.seen?) x ∧ x.count = s.count ∧ x.sent = (messages tr).map Message.data := by
  induction run with
  | start => exact ⟨_, .start, rfl, rfl⟩
  | @next tr s a s' _ taken ih =>
    obtain ⟨x, above, counts, sent⟩ := ih
    have goesOut : ∀ size, 8 ≤ size → ∃ y, Stress.machine.Run
        (tr.filterMap Act.seen? ++ [.sent (payload size s.count).length]) y ∧ y.count = s.count + 1 ∧
        y.sent = (messages tr).map Message.data ++ [payload size s.count] := by
      intro size long
      rw [payload_length long, ← counts, ← sent]
      exact ⟨_, above.next (.sent long), rfl, rfl⟩
    rw [filterMap_concat, messages_concat, List.map_append]
    cases taken with
    | datagram | packet => exact goesOut 200 (by decide)
    | blob => exact goesOut 600 (by decide)
    | blobFails => exact ⟨x, above.next .failed, counts, by simpa [Act.message?] using sent⟩
    | _ => exact ⟨x, by simpa [Act.seen?] using above, counts, by simpa [Act.message?] using sent⟩

theorem paced {modeStart nextTick : Nat} (run : (machine modeStart nextTick).Run tr s)
    {before between after : List Act} {first last : Act} (cut : tr = before ++ first :: (between ++ last :: after))
    (begins : first.event = .tick) (ends : last.event = .tick) :
    first.time + interval * between.countP Act.ticks ≤ last.time + fromMillis 100 ∧
      interval * bytes between + 200 * first.time ≤ 200 * (last.time + fromMillis 105) := by
  obtain ⟨start, firstEvent⟩ := first
  obtain ⟨stop, lastEvent⟩ := last
  cases begins
  cases ends
  subst cut
  have ops : paceOps (before ++ ⟨start, .tick⟩ :: (between ++ ⟨stop, .tick⟩ :: after)) =
      paceOps before ++ .round start :: (paceOps between ++ .round stop :: paceOps after) := by
    simp [paceOps, Act.paceOp]
  have paces := pacing run
  rw [ops] at paces
  have window := pacer_window paces
  have rounds := ticks_cost between
  obtain ⟨_, inRound, _, _, rest⟩ := run.around
  obtain ⟨_, working, _⟩ := rest.split
  have sent := budget working
  have own : inRound.allowance ≤ interval := by
    unfold State.allowance
    split_ifs <;> omega
  have late : fromMillis 105 = fromMillis 100 + interval := rfl
  show start + interval * between.countP Act.ticks ≤ stop + fromMillis 100 ∧
    interval * bytes between + 200 * start ≤ 200 * (stop + fromMillis 105)
  constructor
  · omega
  · omega

theorem stress_tx_behaves {modeStart nextTick : Nat} (run : (machine modeStart nextTick).Run tr s) :
    Behaves modeStart tr s where
  proper before a after cut := by
    subst cut
    obtain ⟨_, _, earlier, taken, _⟩ := run.around
    exact (Run.inv earlier).proper taken
  conns := (Run.inv run).conns
  paced _ _ _ _ _ cut begins ends := paced run cut begins ends
  counted := counted run

/-- Ten seconds late, the sender falls silent, goes on in the next mode and sends its first packet. -/
theorem stress_tx_behaves_late : ∃ tr s, (machine 0 0).Run tr s ∧ Behaves 0 tr s ∧
    messages tr = [⟨some ⟨2, dataPort, .rdp⟩, payload 200 0⟩] ∧ s.nextTick = fromMillis 10005 := by
  have late : (machine 0 0).Run [⟨fromMillis 10000, .tick⟩] _ :=
    .next .start (@Step.pace _ (fromMillis 10000) (fromMillis 10000) (fromMillis 10000) (fromMillis 10000) rfl
      (by decide) (by decide) (by decide) (by decide))
  have left := late.next (@Step.leave _ (fromMillis 10000) rfl (by decide) (by decide))
  have silent := left.next (@Step.switch _ (fromMillis 10000) (fromMillis 10500) (fromMillis 10500) rfl rfl
    (by decide) (by decide) (by decide))
  have opened := silent.next (@Step.connect _ (fromMillis 10500) _ rfl rfl rfl (by decide))
  have sent := opened.next (@Step.packet _ (fromMillis 10500) _ rfl rfl rfl (by decide))
  exact ⟨_, _, sent, stress_tx_behaves sent, rfl, by decide⟩

end Libcsp.Stress.Tx
