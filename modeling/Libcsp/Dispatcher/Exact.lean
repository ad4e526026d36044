import Libcsp.Dispatcher.Run

namespace Libcsp

variable {κ σ π ε : Type}

/-- The maps after a sequence of calls are what the successful calls say, every
port in them is bound, and no port is in both. -/
structure RegisterInv (bound : κ → UInt8 → Prop) (log : List (RegisterCall σ π ε × Except CspError Unit))
    (d : Dispatcher σ π ε) (s : κ) : Prop where
  plain : ∀ p, d.handlers p = log.findSome? (RegisterCall.plainFor p)
  result : ∀ p, d.resultHandlers p = log.findSome? (RegisterCall.resultFor p)
  bound : ∀ p, d.handlers p ≠ none ∨ d.resultHandlers p ≠ none → bound s p
  disjoint : ∀ p, d.handlers p = none ∨ d.resultHandlers p = none

theorem RegisterInv.free {bound : κ → UInt8 → Prop} {log : List (RegisterCall σ π ε × Except CspError Unit)}
    {d : Dispatcher σ π ε} {s : κ} (inv : RegisterInv bound log d s) {p : UInt8} (free : ¬ bound s p) :
    d.handlers p = none ∧ d.resultHandlers p = none := by
  constructor
  · by_contra some
    exact free (inv.bound p (Or.inl some))
  · by_contra some
    exact free (inv.bound p (Or.inr some))

theorem RegisterInv.quiet {bound : κ → UInt8 → Prop} {log : List (RegisterCall σ π ε × Except CspError Unit)}
    {d : Dispatcher σ π ε} {s s' : κ} (inv : RegisterInv bound log d s) (keeps : ∀ q, bound s q → bound s' q)
    {entry : RegisterCall σ π ε × Except CspError Unit} (noPlain : ∀ p, RegisterCall.plainFor p entry = none)
    (noResult : ∀ p, RegisterCall.resultFor p entry = none) : RegisterInv bound (log ++ [entry]) d s' where
  plain p := by simp [List.findSome?_append, noPlain, inv.plain p]
  result p := by simp [List.findSome?_append, noResult, inv.result p]
  bound p some := keeps p (inv.bound p some)
  disjoint := inv.disjoint

/-- A call that binds a free port stores at most one handler, for that port only. -/
theorem RegisterInv.stored {bound : κ → UInt8 → Prop} {log : List (RegisterCall σ π ε × Except CspError Unit)}
    {d d' : Dispatcher σ π ε} {s s' : κ} (inv : RegisterInv bound log d s) {port : UInt8}
    (wasFree : ¬ bound s port) (nowBound : bound s' port) (keeps : ∀ q, bound s q → bound s' q)
    {entry : RegisterCall σ π ε × Except CspError Unit}
    (own : d'.handlers port = RegisterCall.plainFor port entry ∧
      d'.resultHandlers port = RegisterCall.resultFor port entry)
    (one : RegisterCall.plainFor port entry = none ∨ RegisterCall.resultFor port entry = none)
    (others : ∀ p ≠ port, d'.handlers p = d.handlers p ∧ d'.resultHandlers p = d.resultHandlers p)
    (unnamed : ∀ p ≠ port, RegisterCall.plainFor p entry = none ∧ RegisterCall.resultFor p entry = none) :
    RegisterInv bound (log ++ [entry]) d' s' := by
  obtain ⟨noPlain, noResult⟩ := inv.free wasFree
  refine ⟨?_, ?_, ?_, ?_⟩
  · intro p
    rw [List.findSome?_append, ← inv.plain p]
    by_cases same : p = port
    · subst same
      simp [own.1, noPlain]
    · simp [(others p same).1, (unnamed p same).1]
  · intro p
    rw [List.findSome?_append, ← inv.result p]
    by_cases same : p = port
    · subst same
      simp [own.2, noResult]
    · simp [(others p same).2, (unnamed p same).2]
  · intro p some
    by_cases same : p = port
    · rw [same]; exact nowBound
    · rw [(others p same).1, (others p same).2] at some
      exact keeps p (inv.bound p some)
  · intro p
    by_cases same : p = port
    · rw [same, own.1, own.2]; exact one
    · rw [(others p same).1, (others p same).2]
      exact inv.disjoint p

theorem RegisterInv.next {api : SocketApi κ} {bound : κ → UInt8 → Prop} (lawful : api.Lawful bound)
    {log : List (RegisterCall σ π ε × Except CspError Unit)} {d : Dispatcher σ π ε} {s : κ}
    (inv : RegisterInv bound log d s) (call : RegisterCall σ π ε) :
    RegisterInv bound (log ++ [(call, (call.apply api d s).1)]) (call.apply api d s).2.1
      (call.apply api d s).2.2 := by
  obtain ⟨outcome, keeps⟩ := Socket.bind_cases lawful s call.port.toU8
  rcases bind : Socket.bind api s call.port.toU8 with ⟨result, s'⟩
  rw [bind] at outcome keeps
  rcases outcome with ⟨ok, wasFree, nowBound⟩ | ⟨e, failed⟩
  · cases ok
    obtain ⟨noPlain, noResult⟩ := inv.free wasFree
    cases call with
    | bindService port =>
      simp only [RegisterCall.apply, Dispatcher.bindService, RegisterCall.port] at bind ⊢
      rw [bind]
      exact inv.quiet keeps (fun _ => rfl) (fun _ => rfl)
    | register port handler =>
      simp only [RegisterCall.apply, Dispatcher.register, RegisterCall.port] at bind wasFree nowBound noResult ⊢
      rw [bind]
      refine inv.stored wasFree nowBound keeps ?_ (Or.inr rfl) ?_ ?_
      · simp [RegisterCall.plainFor, RegisterCall.resultFor, noResult]
      · intro p other
        simp [Function.update_of_ne other]
      · intro p other
        simp [RegisterCall.plainFor, RegisterCall.resultFor, other.symm]
    | registerWithResult port handler =>
      simp only [RegisterCall.apply, Dispatcher.registerWithResult, RegisterCall.port] at bind wasFree nowBound noPlain ⊢
      rw [bind]
      refine inv.stored wasFree nowBound keeps ?_ (Or.inl rfl) ?_ ?_
      · simp [RegisterCall.plainFor, RegisterCall.resultFor, noPlain]
      · intro p other
        simp [Function.update_of_ne other]
      · intro p other
        simp [RegisterCall.plainFor, RegisterCall.resultFor, other.symm]
  · cases failed
    rw [RegisterCall.apply_of_failed bind]
    refine inv.quiet keeps ?_ ?_ <;> cases call <;> exact fun _ => rfl

theorem Registered.inv {api : SocketApi κ} {bound : κ → UInt8 → Prop} (lawful : api.Lawful bound)
    {s₀ s : κ} {log : List (RegisterCall σ π ε × Except CspError Unit)} {d : Dispatcher σ π ε}
    (registered : Registered api Dispatcher.new s₀ log d s) : RegisterInv bound log d s := by
  induction registered with
  | start => exact ⟨fun _ => rfl, fun _ => rfl, by simp [Dispatcher.new], fun _ => Or.inl rfl⟩
  | @next log d s call _ ih => exact ih.next lawful call

theorem RegisterCall.apply_failed {api : SocketApi κ} {d : Dispatcher σ π ε} {s : κ}
    {call : RegisterCall σ π ε} (failed : (call.apply api d s).1 ≠ .ok ()) :
    (call.apply api d s).2.1 = d := by
  rcases bind : Socket.bind api s call.port.toU8 with ⟨_ | _, s'⟩
  · rw [RegisterCall.apply_of_failed bind]
  · obtain ⟨d', applied, -⟩ := RegisterCall.apply_of_done d bind
    exact absurd (congrArg Prod.fst applied) failed

theorem RegisterCall.apply_bindFailed {api : SocketApi κ} {d : Dispatcher σ π ε} {s : κ}
    {call : RegisterCall σ π ε} (failed : (api.cspBind s call.port.toU8).1 ≠ 0) :
    (call.apply api d s).1 = .error (CspError.fromCode (api.cspBind s call.port.toU8).1) := by
  have bind : Socket.bind api s call.port.toU8 =
      (.error (CspError.fromCode (api.cspBind s call.port.toU8).1), (api.cspBind s call.port.toU8).2) := by
    simp only [Socket.bind, cspResult, if_neg failed]
  rw [RegisterCall.apply_of_failed bind]

theorem Registered.served {api : SocketApi κ} {bound : κ → UInt8 → Prop} (lawful : api.Lawful bound)
    {s₀ s : κ} {log : List (RegisterCall σ π ε × Except CspError Unit)} {d : Dispatcher σ π ε}
    (registered : Registered api Dispatcher.new s₀ log d s) (onError : Option (String → ε → σ → σ))
    (script : List (Connection × List π)) (world : σ) :
    Served (fun p => log.findSome? (RegisterCall.plainFor p)) (fun p => log.findSome? (RegisterCall.resultFor p))
      onError (seenOf script) world ({ d with errorCallback := onError }.run api s script world).events
      ({ d with errorCallback := onError }.run api s script world).world := by
  have inv := registered.inv lawful
  have plainEq : d.handlers = fun p => log.findSome? (RegisterCall.plainFor p) := funext inv.plain
  have resultEq : d.resultHandlers = fun p => log.findSome? (RegisterCall.resultFor p) := funext inv.result
  rw [← plainEq, ← resultEq]
  exact Dispatcher.acceptLoop_served { d with errorCallback := onError } script world

theorem Registered.consumed {api : SocketApi κ} {bound : κ → UInt8 → Prop} (lawful : api.Lawful bound)
    {s₀ s : κ} {log : List (RegisterCall σ π ε × Except CspError Unit)} {d : Dispatcher σ π ε}
    (registered : Registered api Dispatcher.new s₀ log d s) (onError : Option (String → ε → σ → σ))
    (script : List (Connection × List π)) (world : σ) :
    ({ d with errorCallback := onError }.run api s script world).events.filterMap Event.consumed? =
      (packetsRead script).map fun read =>
        (consumerOf (fun p => log.findSome? (RegisterCall.plainFor p))
          (fun p => log.findSome? (RegisterCall.resultFor p)) read.1.dstPort, read) := by
  rw [(registered.served lawful onError script world).consumed_eq, seenOf_packets]

def portTable : SocketApi (List UInt8) where
  cspBind bound p := if p ∈ bound then (cspErrUsed, bound) else (cspErrNone, p :: bound)
  cspListen bound _ := (cspErrNone, bound)

theorem portTable_lawful : portTable.Lawful (fun bound p => p ∈ bound) where
  busy bound p taken := by simp [portTable, taken, cspErrUsed]
  binds bound p := by
    simp only [portTable]
    split <;> simp [cspErrUsed]
  bindKeeps bound p q taken := by
    simp only [portTable]
    split
    · exact taken
    · exact List.mem_cons_of_mem p taken
  listenKeeps _ _ _ taken := taken
  listens _ _ := rfl

/-- After any sequence of registrations, no port has two handlers, a failed `csp_bind`
changes neither map, and every run serves each packet by the rules of `Served`, with the
handlers that the successful calls name. -/
theorem dispatch_exact {api : SocketApi κ} {bound : κ → UInt8 → Prop} (lawful : api.Lawful bound)
    {s₀ s : κ} {log : List (RegisterCall σ π ε × Except CspError Unit)} {d : Dispatcher σ π ε}
    (registered : Registered api Dispatcher.new s₀ log d s) :
    (∀ p, d.handlers p = none ∨ d.resultHandlers p = none) ∧
    (∀ call : RegisterCall σ π ε, (api.cspBind s call.port.toU8).1 ≠ 0 →
      (call.apply api d s).1 ≠ .ok () ∧ (call.apply api d s).2.1 = d) ∧
    ∀ (onError : Option (String → ε → σ → σ)) (script : List (Connection × List π)) (world : σ),
      let plain := fun p => log.findSome? (RegisterCall.plainFor p)
      let result := fun p => log.findSome? (RegisterCall.resultFor p)
      let out := { d with errorCallback := onError }.run api s script world
      Served plain result onError (seenOf script) world out.events out.world ∧
      out.events.filterMap Event.consumed? =
        (packetsRead script).map fun read => (consumerOf plain result read.1.dstPort, read) := by
  refine ⟨(registered.inv lawful).disjoint, ?_, ?_⟩
  · intro call failed
    have notOk : (call.apply api d s).1 ≠ .ok () := by
      rw [RegisterCall.apply_bindFailed failed]
      exact nofun
    exact ⟨notOk, RegisterCall.apply_failed notOk⟩
  · intro onError script world
    exact ⟨registered.served lawful onError script world, registered.consumed lawful onError script world⟩

/-- Port 10 is registered twice, the second time in vain; two packets arrive on it
and one on a port nobody serves. -/
theorem dispatch_exact_registered_twice :
    ∃ (log : List (RegisterCall Nat Nat String × Except CspError Unit)) (d : Dispatcher Nat Nat String)
      (s : List UInt8),
      Registered portTable Dispatcher.new [] log d s ∧
      log.map Prod.snd = [.ok (), .error .resourceInUse] ∧
      (d.run portTable s [(⟨1, 10⟩, [5, 6]), (⟨2, 9⟩, [7])] 0).events.filterMap Event.consumed? =
        [(.plain 10, ⟨1, 10⟩, 5), (.plain 10, ⟨1, 10⟩, 6), (.dropped, ⟨2, 9⟩, 7)] := by
  have registered := Registered.next (.registerWithResult (.custom 10) fun _ _ seen => (.error "late", seen))
    (.next (.register (.custom 10) fun _ pkt seen => (some pkt, seen + 1))
      (@Registered.start _ Nat Nat String portTable Dispatcher.new []))
  have served := (dispatch_exact portTable_lawful registered).2.2 none [(⟨1, 10⟩, [5, 6]), (⟨2, 9⟩, [7])] 0
  exact ⟨_, _, _, registered, rfl, served.2⟩

end Libcsp
