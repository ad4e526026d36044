import Libcsp.Dispatcher.Register

namespace Libcsp

variable {κ σ π ε : Type} {api : SocketApi κ} {owns : κ → UInt8 → Prop}

/-- What is relied on of the two calls, whatever they return. `owns` says which ports the
table gives to this socket. -/
structure SocketApi.BindLaws (api : SocketApi κ) (owns : κ → UInt8 → Prop) : Prop where
  refused : ∀ s p, (api.cspBind s p).1 ≠ 0 → (api.cspBind s p).2 = s
  free : ∀ s p, (api.cspBind s p).1 = 0 → ¬ owns s p
  binds : ∀ s p, (api.cspBind s p).1 = 0 → owns (api.cspBind s p).2 p
  listenKeeps : ∀ s n q, owns s q → owns (api.cspListen s n).2 q

/-- `csp_bind` takes the port and `csp_listen` fails after it. -/
def SocketApi.HalfBinds (api : SocketApi κ) (s : κ) (port : UInt8) : Prop :=
  (api.cspBind s port).1 = 0 ∧ (api.cspListen (api.cspBind s port).2 0).1 ≠ 0

/-- The state that libcsp and the socket are left in, next to what the caller is told. -/
structure Socket.BindsWhollyOrNot (owns : κ → UInt8 → Prop) (port : UInt8) (s : κ)
    (out : Except CspError Unit × κ) : Prop where
  failed : ∀ e, out.1 = .error e → out.2 = s
  done : out.1 = .ok () → owns out.2 port

structure RegisterCall.BindsWhollyOrNot (owns : κ → UInt8 → Prop) (d : Dispatcher σ π ε) (s : κ)
    (call : RegisterCall σ π ε) (out : Except CspError Unit × Dispatcher σ π ε × κ) : Prop where
  failed : ∀ e, out.1 = .error e → out.2 = (d, s)
  done : out.1 = .ok () → owns out.2.2 call.port.toU8 ∧ call.Stored out.2.1

/-- The three ways in which `Socket::bind` can go. -/
theorem Socket.bind_outcome (laws : api.BindLaws owns) (s : κ) (port : UInt8) :
    (¬ api.HalfBinds s port ∧ ∃ e, Socket.bind api s port = (.error e, s)) ∨
      (api.HalfBinds s port ∧ ¬ owns s port ∧ ∃ e s', Socket.bind api s port = (.error e, s') ∧ owns s' port) ∨
      (¬ api.HalfBinds s port ∧ ∃ s', Socket.bind api s port = (.ok (), s') ∧ owns s' port) := by
  unfold Socket.bind SocketApi.HalfBinds
  by_cases taken : (api.cspBind s port).1 = 0
  · have owned := laws.listenKeeps _ 0 _ (laws.binds s port taken)
    rw [cspResult_ok_iff.mpr taken]
    by_cases listens : (api.cspListen (api.cspBind s port).2 0).1 = 0
    · rw [cspResult_ok_iff.mpr listens]
      exact .inr (.inr ⟨fun half => half.2 listens, _, rfl, owned⟩)
    · rw [cspResult, if_neg listens]
      exact .inr (.inl ⟨⟨taken, listens⟩, laws.free s port taken, _, _, rfl, owned⟩)
  · rw [cspResult, if_neg taken, laws.refused s port taken]
    exact .inl ⟨fun half => taken half.1, _, rfl⟩

theorem Socket.bindsWhollyOrNot_iff (laws : api.BindLaws owns) (s : κ) (port : UInt8) :
    Socket.BindsWhollyOrNot owns port s (Socket.bind api s port) ↔ ¬ api.HalfBinds s port := by
  obtain ⟨whole, e, bind⟩ | ⟨half, wasFree, e, s', bind, owned⟩ | ⟨whole, s', bind, owned⟩ :=
    Socket.bind_outcome laws s port
  · rw [bind]
    exact iff_of_true ⟨fun _ _ => rfl, by simp⟩ whole
  · rw [bind]
    refine iff_of_false ?_ (not_not.mpr half)
    intro binding
    have same : s' = s := binding.failed e rfl
    exact wasFree (same ▸ owned)
  · rw [bind]
    exact iff_of_true ⟨by simp, fun _ => owned⟩ whole

theorem RegisterCall.bindsWhollyOrNot_iff (laws : api.BindLaws owns) (d : Dispatcher σ π ε) (s : κ)
    (call : RegisterCall σ π ε) :
    call.BindsWhollyOrNot owns d s (call.apply api d s) ↔ ¬ api.HalfBinds s call.port.toU8 := by
  obtain ⟨whole, e, bind⟩ | ⟨half, wasFree, e, s', bind, owned⟩ | ⟨whole, s', bind, owned⟩ :=
    Socket.bind_outcome laws s call.port.toU8
  · rw [RegisterCall.apply_of_failed bind]
    exact iff_of_true ⟨fun _ _ => rfl, by simp⟩ whole
  · rw [RegisterCall.apply_of_failed bind]
    refine iff_of_false ?_ (not_not.mpr half)
    intro binding
    have same : s' = s := congrArg Prod.snd (binding.failed e rfl)
    exact wasFree (same ▸ owned)
  · obtain ⟨d', applied, stored⟩ := RegisterCall.apply_of_done d bind
    rw [applied]
    exact iff_of_true ⟨by simp, fun _ => ⟨owned, stored⟩⟩ whole

/-- `Socket::bind` and the three register calls leave all or nothing behind exactly when
`csp_listen` does not fail after `csp_bind` took the port. -/
theorem binding_all_or_nothing_iff (laws : api.BindLaws owns) (d : Dispatcher σ π ε) (s : κ) (port : UInt8)
    (call : RegisterCall σ π ε) :
    (Socket.BindsWhollyOrNot owns port s (Socket.bind api s port) ↔
        ¬ ((api.cspBind s port).1 = 0 ∧ (api.cspListen (api.cspBind s port).2 0).1 ≠ 0)) ∧
      (call.BindsWhollyOrNot owns d s (call.apply api d s) ↔
        ¬ ((api.cspBind s call.port.toU8).1 = 0 ∧
          (api.cspListen (api.cspBind s call.port.toU8).2 0).1 ≠ 0)) :=
  ⟨Socket.bindsWhollyOrNot_iff laws s port, RegisterCall.bindsWhollyOrNot_iff laws d s call⟩

/-- A port table by the ports it gives to the socket, and a `csp_listen` that always
returns the same code. -/
def listenTable (listenCode : Int) : SocketApi (List UInt8) where
  cspBind s p := if p ∈ s then (cspErrUsed, s) else (cspErrNone, p :: s)
  cspListen s _ := (listenCode, s)

theorem listenTable_laws (listenCode : Int) : (listenTable listenCode).BindLaws fun s p => p ∈ s where
  refused s p refused := by
    by_cases bound : p ∈ s
    · simp only [listenTable, if_pos bound]
    · simp [listenTable, bound, cspErrNone] at refused
  free s p taken bound := by
    simp only [listenTable, if_pos bound] at taken
    exact absurd taken (by decide)
  binds s p taken := by
    by_cases bound : p ∈ s
    · simpa only [listenTable, if_pos bound] using bound
    · simp only [listenTable, if_neg bound, List.mem_cons_self]
  listenKeeps _ _ _ bound := bound

/-- With a `csp_listen` that succeeds, a handler is registered on a free port and refused
on a bound one. -/
theorem binding_all_or_nothing_listening :
    let call : RegisterCall Unit Nat Unit := .register (.custom 10) fun _ _ world => (none, world)
    let d : Dispatcher Unit Nat Unit := .new
    call.BindsWhollyOrNot (fun s p => p ∈ s) d [] (call.apply (listenTable 0) d []) ∧
      (call.apply (listenTable 0) d []).1 = .ok () ∧
      Socket.BindsWhollyOrNot (fun s p => p ∈ s) 10 [10] (Socket.bind (listenTable 0) [10] 10) ∧
      (Socket.bind (listenTable 0) [10] 10).1 = .error .resourceInUse := by
  intro call d
  obtain ⟨busy, fresh⟩ := binding_all_or_nothing_iff (listenTable_laws 0) d [] 10 call
  exact ⟨fresh.mpr (by decide), rfl,
    (binding_all_or_nothing_iff (listenTable_laws 0) d [10] 10 call).1.mpr (by decide), rfl⟩

/-- With a `csp_listen` that fails, the caller is told so while the port is taken: trying
again fails for another reason. -/
theorem failed_binding_keeps_port :
    let call : RegisterCall Unit Nat Unit := .register (.custom 10) fun _ _ world => (none, world)
    let d : Dispatcher Unit Nat Unit := .new
    Socket.bind (listenTable cspErrNomem) [] 10 = (.error .noMemory, [10]) ∧
      Socket.bind (listenTable cspErrNomem) [10] 10 = (.error .resourceInUse, [10]) ∧
      ¬ Socket.BindsWhollyOrNot (fun s p => p ∈ s) 10 [] (Socket.bind (listenTable cspErrNomem) [] 10) ∧
      ¬ call.BindsWhollyOrNot (fun s p => p ∈ s) d [] (call.apply (listenTable cspErrNomem) d []) := by
  intro call d
  have laws := listenTable_laws cspErrNomem
  refine ⟨rfl, rfl, ?_, ?_⟩
  · rw [Socket.bindsWhollyOrNot_iff laws, not_not]
    exact ⟨by decide, by decide⟩
  · rw [RegisterCall.bindsWhollyOrNot_iff laws, not_not]
    exact ⟨by decide, by decide⟩

end Libcsp
