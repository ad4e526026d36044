import Libcsp.Dispatcher.Register

namespace Libcsp

variable {κ σ π ε : Type}

/-- Who took a packet that `Dispatcher::run` read. A handler is named by the key
under which the maps hold it. -/
inductive Consumer
  | plain (port : UInt8)
  | result (port : UInt8)
  | service
  | dropped
  deriving DecidableEq, Repr

inductive Event (π ε : Type)
  | consumed (consumer : Consumer) (conn : Connection) (pkt : π)
  | reply (conn : Connection) (pkt : π)
  | errorCallback (context : String) (err : ε)
  | closed (conn : Connection)

/-- The body of the read loop. `contains_key` followed by `get_mut().unwrap()` is
one lookup here. -/
def Dispatcher.dispatch (d : Dispatcher σ π ε) (conn : Connection) (pkt : π) (world : σ) :
    List (Event π ε) × σ :=
  let dport := conn.dstPort
  match d.handlers dport with
  | some handler =>
    match handler conn pkt world with
    | (some reply, world) => ([.consumed (.plain dport) conn pkt, .reply conn reply], world)
    | (none, world) => ([.consumed (.plain dport) conn pkt], world)
  | none =>
    match d.resultHandlers dport with
    | some handler =>
      match handler conn pkt world with
      | (.ok (some reply), world) => ([.consumed (.result dport) conn pkt, .reply conn reply], world)
      | (.ok none, world) => ([.consumed (.result dport) conn pkt], world)
      | (.error err, world) =>
        match d.errorCallback with
        | some callback =>
          ([.consumed (.result dport) conn pkt, .errorCallback "handler" err], callback "handler" err world)
        | none => ([.consumed (.result dport) conn pkt], world)
    | none =>
      if (Port.ofU8 dport).isServicePort then ([.consumed .service conn pkt], world)
      else ([.consumed .dropped conn pkt], world)

/-- `while let Some(pkt) = conn.read(100)`, over the packets these reads return;
the connection is dropped, and so closed, when they are used up. -/
def Dispatcher.serve (d : Dispatcher σ π ε) (conn : Connection) : List π → σ → List (Event π ε) × σ
  | [], world => ([.closed conn], world)
  | pkt :: rest, world =>
    let first := d.dispatch conn pkt world
    let later := d.serve conn rest first.2
    (first.1 ++ later.1, later.2)

/-- `while let Some(conn) = self.socket.accept(timeout)`, over the connections
these accepts return, each with the packets read from it. -/
def Dispatcher.acceptLoop (d : Dispatcher σ π ε) : List (Connection × List π) → σ → List (Event π ε) × σ
  | [], world => ([], world)
  | (conn, pkts) :: rest, world =>
    let first := d.serve conn pkts world
    let later := d.acceptLoop rest first.2
    (first.1 ++ later.1, later.2)

structure RunOutcome (κ σ π ε : Type) where
  events : List (Event π ε)
  world : σ
  socket : κ

/-- `Dispatcher::run`. The result of the initial `listen` is discarded. -/
def Dispatcher.run (api : SocketApi κ) (d : Dispatcher σ π ε) (s : κ)
    (script : List (Connection × List π)) (world : σ) : RunOutcome κ σ π ε where
  events := (d.acceptLoop script world).1
  world := (d.acceptLoop script world).2
  socket := (Socket.listen api s 10).2

/-- What the loops see, flattened: packets in read order and the end of each
connection. -/
inductive Seen (π : Type)
  | packet (conn : Connection) (pkt : π)
  | finished (conn : Connection)

def seenOf (script : List (Connection × List π)) : List (Seen π) :=
  script.flatMap fun entry => entry.2.map (Seen.packet entry.1) ++ [Seen.finished entry.1]

/-- What serving a sequence of packets is meant to be, one rule for each way a
packet can be consumed. -/
inductive Served (plain : UInt8 → Option (ServiceHandler σ π))
    (result : UInt8 → Option (ServiceHandlerResult σ π ε)) (onError : Option (String → ε → σ → σ)) :
    List (Seen π) → σ → List (Event π ε) → σ → Prop
  | done {w} : Served plain result onError [] w [] w
  | finished {conn rest w events w'} : Served plain result onError rest w events w' →
      Served plain result onError (.finished conn :: rest) w (.closed conn :: events) w'
  | plainReply {conn pkt rest w handler reply w₁ events w'} : plain conn.dstPort = some handler →
      handler conn pkt w = (some reply, w₁) → Served plain result onError rest w₁ events w' →
      Served plain result onError (.packet conn pkt :: rest) w
        (.consumed (.plain conn.dstPort) conn pkt :: .reply conn reply :: events) w'
  | plainQuiet {conn pkt rest w handler w₁ events w'} : plain conn.dstPort = some handler →
      handler conn pkt w = (none, w₁) → Served plain result onError rest w₁ events w' →
      Served plain result onError (.packet conn pkt :: rest) w
        (.consumed (.plain conn.dstPort) conn pkt :: events) w'
  | resultReply {conn pkt rest w handler reply w₁ events w'} : plain conn.dstPort = none →
      result conn.dstPort = some handler → handler conn pkt w = (.ok (some reply), w₁) →
      Served plain result onError rest w₁ events w' →
      Served plain result onError (.packet conn pkt :: rest) w
        (.consumed (.result conn.dstPort) conn pkt :: .reply conn reply :: events) w'
  | resultQuiet {conn pkt rest w handler w₁ events w'} : plain conn.dstPort = none →
      result conn.dstPort = some handler → handler conn pkt w = (.ok none, w₁) →
      Served plain result onError rest w₁ events w' →
      Served plain result onError (.packet conn pkt :: rest) w
        (.consumed (.result conn.dstPort) conn pkt :: events) w'
  | resultError {conn pkt rest w handler err w₁ callback events w'} : plain conn.dstPort = none →
      result conn.dstPort = some handler → handler conn pkt w = (.error err, w₁) →
      onError = some callback → Served plain result onError rest (callback "handler" err w₁) events w' →
      Served plain result onError (.packet conn pkt :: rest) w
        (.consumed (.result conn.dstPort) conn pkt :: .errorCallback "handler" err :: events) w'
  | resultErrorUnset {conn pkt rest w handler err w₁ events w'} : plain conn.dstPort = none →
      result conn.dstPort = some handler → handler conn pkt w = (.error err, w₁) →
      onError = none → Served plain result onError rest w₁ events w' →
      Served plain result onError (.packet conn pkt :: rest) w
        (.consumed (.result conn.dstPort) conn pkt :: events) w'
  | service {conn pkt rest w events w'} : plain conn.dstPort = none → result conn.dstPort = none →
      conn.dstPort ≤ 6 → Served plain result onError rest w events w' →
      Served plain result onError (.packet conn pkt :: rest) w (.consumed .service conn pkt :: events) w'
  | dropped {conn pkt rest w events w'} : plain conn.dstPort = none → result conn.dstPort = none →
      6 < conn.dstPort → Served plain result onError rest w events w' →
      Served plain result onError (.packet conn pkt :: rest) w (.consumed .dropped conn pkt :: events) w'

def Event.consumed? : Event π ε → Option (Consumer × Connection × π)
  | .consumed consumer conn pkt => some (consumer, conn, pkt)
  | _ => none

def Seen.packet? : Seen π → Option (Connection × π)
  | .packet conn pkt => some (conn, pkt)
  | .finished _ => none

def consumerOf (plain : UInt8 → Option (ServiceHandler σ π))
    (result : UInt8 → Option (ServiceHandlerResult σ π ε)) (dport : UInt8) : Consumer :=
  if (plain dport).isSome then .plain dport
  else if (result dport).isSome then .result dport
  else if dport ≤ 6 then .service else .dropped

/-- Every packet is consumed exactly once, in read order, by the consumer its
destination port selects. -/
theorem Served.consumed_eq {plain : UInt8 → Option (ServiceHandler σ π)}
    {result : UInt8 → Option (ServiceHandlerResult σ π ε)} {onError : Option (String → ε → σ → σ)}
    {seen : List (Seen π)} {w w' : σ} {events : List (Event π ε)}
    (served : Served plain result onError seen w events w') :
    events.filterMap Event.consumed? = (seen.filterMap Seen.packet?).map fun read =>
      (consumerOf plain result read.1.dstPort, read) := by
  induction served with
  | done => rfl
  | finished _ ih => simpa only [List.filterMap_cons, Event.consumed?, Seen.packet?] using ih
  | plainReply atPlain _ _ ih | plainQuiet atPlain _ _ ih =>
    simp only [List.filterMap_cons, Event.consumed?, Seen.packet?, ih, List.map_cons, consumerOf, atPlain,
      Option.isSome_some, if_true]
  | resultReply noPlain atResult _ _ ih | resultQuiet noPlain atResult _ _ ih
  | resultError noPlain atResult _ _ _ ih | resultErrorUnset noPlain atResult _ _ _ ih =>
    simp only [List.filterMap_cons, Event.consumed?, Seen.packet?, ih, List.map_cons, consumerOf, noPlain,
      atResult, Option.isSome_some, Option.isSome_none, Bool.false_eq_true, if_true, if_false]
  | service noPlain noResult low _ ih =>
    simp only [List.filterMap_cons, Event.consumed?, Seen.packet?, ih, List.map_cons, consumerOf, noPlain,
      noResult, Option.isSome_none, Bool.false_eq_true, if_false, low, if_true]
  | dropped noPlain noResult high _ ih =>
    simp only [List.filterMap_cons, Event.consumed?, Seen.packet?, ih, List.map_cons, consumerOf, noPlain,
      noResult, Option.isSome_none, Bool.false_eq_true, if_false, UInt8.not_le.mpr high]

def packetsRead (script : List (Connection × List π)) : List (Connection × π) :=
  script.flatMap fun entry => entry.2.map fun pkt => (entry.1, pkt)

theorem seenOf_packets (script : List (Connection × List π)) :
    (seenOf script).filterMap Seen.packet? = packetsRead script := by
  induction script with
  | nil => rfl
  | cons entry rest ih =>
    rw [seenOf, List.flatMap_cons, List.filterMap_append, ← seenOf, ih, packetsRead, packetsRead,
      List.flatMap_cons]
    congr 1
    simp [List.filterMap_append, List.filterMap_map, Seen.packet?, Function.comp_def]

theorem Served.dispatch {d : Dispatcher σ π ε} {conn : Connection} {pkt : π} {rest : List (Seen π)}
    {w w' : σ} {events : List (Event π ε)}
    (later : Served d.handlers d.resultHandlers d.errorCallback rest (d.dispatch conn pkt w).2 events w') :
    Served d.handlers d.resultHandlers d.errorCallback (.packet conn pkt :: rest) w
      ((d.dispatch conn pkt w).1 ++ events) w' := by
  unfold Dispatcher.dispatch at later ⊢
  dsimp only at later ⊢
  split
  · rename_i handler atPlain
    simp only [atPlain] at later
    split
    · rename_i reply w₁ answer
      simp only [answer] at later
      exact .plainReply atPlain answer later
    · rename_i w₁ answer
      simp only [answer] at later
      exact .plainQuiet atPlain answer later
  · rename_i noPlain
    simp only [noPlain] at later
    split
    · rename_i handler atResult
      simp only [atResult] at later
      split
      · rename_i reply w₁ answer
        simp only [answer] at later
        exact .resultReply noPlain atResult answer later
      · rename_i w₁ answer
        simp only [answer] at later
        exact .resultQuiet noPlain atResult answer later
      · rename_i err w₁ answer
        simp only [answer] at later
        split
        · rename_i callback isSet
          simp only [isSet] at later ⊢
          exact .resultError noPlain atResult answer rfl later
        · rename_i unset
          simp only [unset] at later ⊢
          exact .resultErrorUnset noPlain atResult answer rfl later
    · rename_i noResult
      simp only [noResult] at later
      split
      · rename_i isService
        rw [if_pos isService] at later
        rw [Port.isServicePort, Port.toU8_ofU8, decide_eq_true_eq] at isService
        exact .service noPlain noResult isService later
      · rename_i notService
        rw [if_neg notService] at later
        rw [Port.isServicePort, Port.toU8_ofU8, decide_eq_true_eq, UInt8.not_le] at notService
        exact .dropped noPlain noResult notService later

theorem Served.serve {d : Dispatcher σ π ε} {conn : Connection} {pkts : List π} {rest : List (Seen π)}
    {w w' : σ} {events : List (Event π ε)}
    (later : Served d.handlers d.resultHandlers d.errorCallback rest (d.serve conn pkts w).2 events w') :
    Served d.handlers d.resultHandlers d.errorCallback
      (pkts.map (Seen.packet conn) ++ .finished conn :: rest) w ((d.serve conn pkts w).1 ++ events) w' := by
  induction pkts generalizing w with
  | nil => exact .finished later
  | cons pkt pkts ih =>
    simp only [Dispatcher.serve, List.append_assoc, List.map_cons, List.cons_append] at later ⊢
    exact .dispatch (ih later)

theorem Dispatcher.acceptLoop_served (d : Dispatcher σ π ε) (script : List (Connection × List π)) (w : σ) :
    Served d.handlers d.resultHandlers d.errorCallback (seenOf script) w
      (d.acceptLoop script w).1 (d.acceptLoop script w).2 := by
  induction script generalizing w with
  | nil => exact .done
  | cons entry rest ih =>
    simp only [seenOf, List.flatMap_cons, List.append_assoc, List.singleton_append, Dispatcher.acceptLoop]
    exact .serve (ih _)

end Libcsp
