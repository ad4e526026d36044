import Libcsp.Error
import Mathlib.Logic.Function.Basic

namespace Libcsp

inductive Port
  | cmp | ping | ps | memFree | reboot | bufFree | uptime | any
  | custom (p : UInt8)
  deriving DecidableEq, Repr

def Port.ofU8 (p : UInt8) : Port :=
  if p = 0 then .cmp else if p = 1 then .ping else if p = 2 then .ps else if p = 3 then .memFree
  else if p = 4 then .reboot else if p = 5 then .bufFree else if p = 6 then .uptime
  else if p = 255 then .any else .custom p

def Port.toU8 : Port → UInt8
  | .cmp => 0
  | .ping => 1
  | .ps => 2
  | .memFree => 3
  | .reboot => 4
  | .bufFree => 5
  | .uptime => 6
  | .any => 255
  | .custom p => p

def Port.isServicePort (port : Port) : Bool := decide (port.toU8 ≤ 6)

theorem Port.toU8_ofU8 (p : UInt8) : (Port.ofU8 p).toU8 = p := by
  unfold Port.ofU8
  split_ifs <;> simp_all [Port.toU8]

/-- The C calls behind `Socket::bind` and `Socket::listen` on one socket. `κ` is
the state of libcsp, with the port table in it. -/
structure SocketApi (κ : Type) where
  cspBind : κ → UInt8 → Int × κ
  cspListen : κ → Nat → Int × κ

/-- What is relied on of the two calls: a bound port stays bound and cannot be
bound again, and `csp_listen` succeeds. -/
structure SocketApi.Lawful {κ : Type} (api : SocketApi κ) (bound : κ → UInt8 → Prop) : Prop where
  busy : ∀ s p, bound s p → (api.cspBind s p).1 ≠ 0
  binds : ∀ s p, (api.cspBind s p).1 = 0 → bound (api.cspBind s p).2 p
  bindKeeps : ∀ s p q, bound s q → bound (api.cspBind s p).2 q
  listenKeeps : ∀ s n q, bound s q → bound (api.cspListen s n).2 q
  listens : ∀ s n, (api.cspListen s n).1 = 0

/-- `Socket::bind`: bind, then listen with backlog 0. -/
def Socket.bind {κ : Type} (api : SocketApi κ) (s : κ) (port : UInt8) : Except CspError Unit × κ :=
  match cspResult (api.cspBind s port).1 with
  | .error e => (.error e, (api.cspBind s port).2)
  | .ok () =>
    (cspResult (api.cspListen (api.cspBind s port).2 0).1, (api.cspListen (api.cspBind s port).2 0).2)

def Socket.listen {κ : Type} (api : SocketApi κ) (s : κ) (backlog : Nat) : Except CspError Unit × κ :=
  (cspResult (api.cspListen s backlog).1, (api.cspListen s backlog).2)

/-- The spec of `Socket::bind` over a lawful API: either the port was free and is
bound now, or nothing but the return code happened to it. -/
theorem Socket.bind_cases {κ : Type} {api : SocketApi κ} {bound : κ → UInt8 → Prop}
    (lawful : api.Lawful bound) (s : κ) (port : UInt8) :
    ((Socket.bind api s port).1 = .ok () ∧ ¬ bound s port ∧ bound (Socket.bind api s port).2 port ∨
      ∃ e, (Socket.bind api s port).1 = .error e) ∧
    ∀ q, bound s q → bound (Socket.bind api s port).2 q := by
  unfold Socket.bind
  cases outcome : cspResult (api.cspBind s port).1 with
  | error e => exact ⟨Or.inr ⟨e, rfl⟩, fun q => lawful.bindKeeps s port q⟩
  | ok _ =>
    have zero := cspResult_ok_iff.mp outcome
    refine ⟨Or.inl ⟨?_, fun already => lawful.busy s port already zero, ?_⟩, ?_⟩
    · rw [cspResult_ok_iff.mpr (lawful.listens _ 0)]
    · exact lawful.listenKeeps _ 0 _ (lawful.binds s port zero)
    · exact fun q already => lawful.listenKeeps _ 0 _ (lawful.bindKeeps s port q already)

/-- An accepted `csp_conn_t`, by identity and destination port. -/
structure Connection where
  id : Nat
  dstPort : UInt8
  deriving DecidableEq, Repr

variable {κ σ π ε : Type}

/-- `ServiceHandler`. What handler closures capture, shared or not, is the world `σ`. -/
abbrev ServiceHandler (σ π : Type) := Connection → π → σ → Option π × σ

abbrev ServiceHandlerResult (σ π ε : Type) := Connection → π → σ → Except ε (Option π) × σ

/-- `Dispatcher` in the `std` build, without its socket. -/
structure Dispatcher (σ π ε : Type) where
  handlers : UInt8 → Option (ServiceHandler σ π)
  resultHandlers : UInt8 → Option (ServiceHandlerResult σ π ε)
  errorCallback : Option (String → ε → σ → σ)

def Dispatcher.new : Dispatcher σ π ε := ⟨fun _ => none, fun _ => none, none⟩

def Dispatcher.onError (d : Dispatcher σ π ε) (callback : String → ε → σ → σ) : Dispatcher σ π ε :=
  { d with errorCallback := some callback }

def Dispatcher.register (api : SocketApi κ) (d : Dispatcher σ π ε) (s : κ) (port : Port)
    (handler : ServiceHandler σ π) : Except CspError Unit × Dispatcher σ π ε × κ :=
  match Socket.bind api s port.toU8 with
  | (.error e, s) => (.error e, d, s)
  | (.ok (), s) => (.ok (), { d with handlers := Function.update d.handlers port.toU8 (some handler) }, s)

def Dispatcher.registerWithResult (api : SocketApi κ) (d : Dispatcher σ π ε) (s : κ) (port : Port)
    (handler : ServiceHandlerResult σ π ε) : Except CspError Unit × Dispatcher σ π ε × κ :=
  match Socket.bind api s port.toU8 with
  | (.error e, s) => (.error e, d, s)
  | (.ok (), s) =>
    (.ok (), { d with resultHandlers := Function.update d.resultHandlers port.toU8 (some handler) }, s)

def Dispatcher.bindService (api : SocketApi κ) (d : Dispatcher σ π ε) (s : κ) (port : Port) :
    Except CspError Unit × Dispatcher σ π ε × κ :=
  ((Socket.bind api s port.toU8).1, d, (Socket.bind api s port.toU8).2)

inductive RegisterCall (σ π ε : Type)
  | register (port : Port) (handler : ServiceHandler σ π)
  | registerWithResult (port : Port) (handler : ServiceHandlerResult σ π ε)
  | bindService (port : Port)

def RegisterCall.port : RegisterCall σ π ε → Port
  | .register port _ | .registerWithResult port _ | .bindService port => port

def RegisterCall.apply (api : SocketApi κ) (d : Dispatcher σ π ε) (s : κ) :
    RegisterCall σ π ε → Except CspError Unit × Dispatcher σ π ε × κ
  | .register port handler => d.register api s port handler
  | .registerWithResult port handler => d.registerWithResult api s port handler
  | .bindService port => d.bindService api s port

/-- The handler of a successful call, in the map it belongs to. -/
def RegisterCall.Stored (d : Dispatcher σ π ε) : RegisterCall σ π ε → Prop
  | .register port handler => d.handlers port.toU8 = some handler
  | .registerWithResult port handler => d.resultHandlers port.toU8 = some handler
  | .bindService _ => True

theorem RegisterCall.apply_of_failed {api : SocketApi κ} {d : Dispatcher σ π ε} {s s' : κ} {call : RegisterCall σ π ε} {e : CspError}
    (bind : Socket.bind api s call.port.toU8 = (.error e, s')) : call.apply api d s = (.error e, d, s') := by
  cases call <;>
    simp only [RegisterCall.port] at bind <;>
    simp only [RegisterCall.apply, Dispatcher.register, Dispatcher.registerWithResult, Dispatcher.bindService, bind]

theorem RegisterCall.apply_of_done {api : SocketApi κ} (d : Dispatcher σ π ε) {s s' : κ} {call : RegisterCall σ π ε}
    (bind : Socket.bind api s call.port.toU8 = (.ok (), s')) :
    ∃ d', call.apply api d s = (.ok (), d', s') ∧ call.Stored d' := by
  cases call with
  | register port handler =>
    simp only [RegisterCall.port] at bind
    simp only [RegisterCall.apply, Dispatcher.register, bind]
    exact ⟨_, rfl, Function.update_self ..⟩
  | registerWithResult port handler =>
    simp only [RegisterCall.port] at bind
    simp only [RegisterCall.apply, Dispatcher.registerWithResult, bind]
    exact ⟨_, rfl, Function.update_self ..⟩
  | bindService port =>
    simp only [RegisterCall.port] at bind
    simp only [RegisterCall.apply, Dispatcher.bindService, bind]
    exact ⟨_, rfl, trivial⟩

inductive Registered (api : SocketApi κ) (d₀ : Dispatcher σ π ε) (s₀ : κ) :
    List (RegisterCall σ π ε × Except CspError Unit) → Dispatcher σ π ε → κ → Prop
  | start : Registered api d₀ s₀ [] d₀ s₀
  | next {log d s} (call : RegisterCall σ π ε) : Registered api d₀ s₀ log d s →
      Registered api d₀ s₀ (log ++ [(call, (call.apply api d s).1)]) (call.apply api d s).2.1
        (call.apply api d s).2.2

def RegisterCall.plainFor (p : UInt8) :
    RegisterCall σ π ε × Except CspError Unit → Option (ServiceHandler σ π)
  | (.register port handler, .ok ()) => if port.toU8 = p then some handler else none
  | _ => none

def RegisterCall.resultFor (p : UInt8) :
    RegisterCall σ π ε × Except CspError Unit → Option (ServiceHandlerResult σ π ε)
  | (.registerWithResult port handler, .ok ()) => if port.toU8 = p then some handler else none
  | _ => none

end Libcsp
