import Libcsp.Dispatcher.Exact
import Mathlib.Data.List.Forall2

namespace Libcsp

variable {κ σ π ε : Type}

def handlerOn (log : List (RegisterCall σ π ε × Except CspError Unit)) (p : UInt8) : Option Consumer :=
  if (log.findSome? (RegisterCall.plainFor p)).isSome then some (.plain p)
  else if (log.findSome? (RegisterCall.resultFor p)).isSome then some (.result p)
  else none

/-- Who is to get the traffic that the binds admit: the handler of the port itself,
else the handler registered for `Port::Any`. -/
def admittedHandler (log : List (RegisterCall σ π ε × Except CspError Unit)) (dport : UInt8) :
    Option Consumer :=
  (handlerOn log dport).or (handlerOn log Port.any.toU8)

/-- The packets read over a run, one after the other, each went to the handler that
its destination port is admitted for. -/
def EachToItsHandler (log : List (RegisterCall σ π ε × Except CspError Unit)) (events : List (Event π ε))
    (reads : List (Connection × π)) : Prop :=
  List.Forall₂ (fun consumed read => consumed.2 = read ∧
      ∀ handler, admittedHandler log read.1.dstPort = some handler → consumed.1 = handler)
    (events.filterMap Event.consumed?) reads

theorem handlerOn_some {log : List (RegisterCall σ π ε × Except CspError Unit)} {p : UInt8}
    (registered : (handlerOn log p).isSome) :
    handlerOn log p = some (consumerOf (fun p => log.findSome? (RegisterCall.plainFor p))
      (fun p => log.findSome? (RegisterCall.resultFor p)) p) := by
  unfold handlerOn consumerOf at *
  split_ifs at registered ⊢ <;> simp_all

theorem consumerOf_of_handlerOn_none {log : List (RegisterCall σ π ε × Except CspError Unit)} {p : UInt8}
    (missing : handlerOn log p = none) :
    consumerOf (fun p => log.findSome? (RegisterCall.plainFor p))
      (fun p => log.findSome? (RegisterCall.resultFor p)) p = if p ≤ 6 then .service else .dropped := by
  unfold handlerOn at missing
  unfold consumerOf
  split_ifs at missing with plain result
  rw [if_neg plain, if_neg result]

theorem handlerOn_ne_unhandled {log : List (RegisterCall σ π ε × Except CspError Unit)} {p q : UInt8}
    {handler : Consumer} (registered : handlerOn log p = some handler) :
    (if q ≤ 6 then Consumer.service else .dropped) ≠ handler := by
  unfold handlerOn at registered
  split_ifs at registered <;> cases registered <;> split <;> simp

/-- The lookup of `Dispatcher::run` agrees with the port table on a destination port
exactly when the port has its own handler or there is no wildcard handler. -/
theorem consumerOf_agrees_iff (log : List (RegisterCall σ π ε × Except CspError Unit)) (p : UInt8) :
    (∀ handler, admittedHandler log p = some handler →
      consumerOf (fun p => log.findSome? (RegisterCall.plainFor p))
        (fun p => log.findSome? (RegisterCall.resultFor p)) p = handler) ↔
    (handlerOn log p).isSome ∨ handlerOn log Port.any.toU8 = none := by
  unfold admittedHandler
  cases own : handlerOn log p with
  | some handler =>
    have registered := @handlerOn_some _ _ _ log p (by rw [own]; rfl)
    simp only [Option.some_or, Option.some.injEq, forall_eq', Option.isSome_some, true_or, iff_true]
    exact Option.some.inj (registered.symm.trans own)
  | none =>
    rw [consumerOf_of_handlerOn_none own]
    simp only [Option.none_or, Option.isSome_none, Bool.false_eq_true, false_or]
    constructor
    · intro agrees
      cases wildcard : handlerOn log Port.any.toU8 with
      | none => rfl
      | some handler => exact absurd (agrees handler wildcard) (handlerOn_ne_unhandled wildcard)
    · intro missing handler registered
      exact nomatch missing.symm.trans registered

/-- Every packet of a run goes to the handler its bind admits it for exactly when no
packet was read on a port that only the wildcard handler covers. -/
theorem each_to_its_handler_iff {api : SocketApi κ} {bound : κ → UInt8 → Prop} (lawful : api.Lawful bound)
    {s₀ s : κ} {log : List (RegisterCall σ π ε × Except CspError Unit)} {d : Dispatcher σ π ε}
    (registered : Registered api Dispatcher.new s₀ log d s) (onError : Option (String → ε → σ → σ))
    (script : List (Connection × List π)) (world : σ) :
    EachToItsHandler log ({ d with errorCallback := onError }.run api s script world).events
        (packetsRead script) ↔
      ∀ read ∈ packetsRead script,
        (handlerOn log read.1.dstPort).isSome ∨ handlerOn log Port.any.toU8 = none := by
  rw [EachToItsHandler, registered.consumed lawful onError script world, List.forall₂_map_left_iff,
    List.forall₂_same]
  simp only [true_and, consumerOf_agrees_iff]

theorem each_to_its_handler_iff_own_port :
    ∃ (log : List (RegisterCall Nat Nat String × Except CspError Unit)) (d : Dispatcher Nat Nat String)
      (s : List UInt8),
      Registered portTable Dispatcher.new [] log d s ∧ log.map Prod.snd = [.ok (), .ok ()] ∧
      EachToItsHandler log (d.run portTable s [(⟨1, 10⟩, [5, 6])] 0).events
        (packetsRead [(⟨1, 10⟩, [5, 6])]) := by
  have registered := Registered.next (.register .any fun _ pkt seen => (some pkt, seen))
    (.next (.register (.custom 10) fun _ pkt seen => (some pkt, seen + 1))
      (@Registered.start _ Nat Nat String portTable Dispatcher.new []))
  refine ⟨_, _, _, registered, rfl, ?_⟩
  refine (each_to_its_handler_iff portTable_lawful registered none [(⟨1, 10⟩, [5, 6])] 0).mpr ?_
  simp [packetsRead, handlerOn, RegisterCall.apply, RegisterCall.plainFor, Dispatcher.register, Socket.bind,
    portTable, Port.toU8, cspResult, cspErrNone]

/-- A dispatcher with only a wildcard handler: the connection on port 10 is admitted
by the bind and its packet is dropped. -/
theorem wildcard_packet_dropped :
    ∃ (log : List (RegisterCall Nat Nat String × Except CspError Unit)) (d : Dispatcher Nat Nat String)
      (s : List UInt8),
      Registered portTable Dispatcher.new [] log d s ∧ log.map Prod.snd = [.ok ()] ∧
      admittedHandler log 10 = some (.plain 255) ∧
      (d.run portTable s [(⟨1, 10⟩, [5])] 0).events.filterMap Event.consumed? = [(.dropped, ⟨1, 10⟩, 5)] ∧
      ¬ EachToItsHandler log (d.run portTable s [(⟨1, 10⟩, [5])] 0).events (packetsRead [(⟨1, 10⟩, [5])]) := by
  refine ⟨_, _, _, .next (.register .any fun _ pkt seen => (some pkt, seen)) .start, rfl, rfl, rfl, ?_⟩
  intro delivered
  cases delivered with
  | cons head _ => exact nomatch head.2 (.plain 255) rfl

end Libcsp
