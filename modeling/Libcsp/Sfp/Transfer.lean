import Libcsp.Sfp.Callbacks

namespace Libcsp
open Sys

/-- One SFP fragment on the wire: its place, the announced total, its payload. -/
structure Fragment where
  offset : UInt32
  total : UInt32
  bytes : List UInt8
  deriving DecidableEq, Repr

structure SfpSendReturn (κ : Type) where
  ret : Int
  ctx : κ
  sent : List Fragment

/-- `csp_sfp_send`, a C function outside this tree: read callback, its user
data, `totalsize`, `mtu`, `timeout`. The fragments it transmits are part of
what the call returns. -/
abbrev CspSfpSend (κ : Type) :=
  (κ → UInt32 → UInt32 → ReadReturn κ) → κ → UInt32 → UInt32 → UInt32 → SfpSendReturn κ

/-- The loop of `csp_sfp_send` from one offset on. A fragment is transmitted
after each zero return of the callback; the first other return ends the call. -/
inductive SfpSendRun {κ : Type} (read : κ → UInt32 → UInt32 → ReadReturn κ) (total mtu : UInt32) :
    Nat → κ → SfpSendReturn κ → Prop
  | done {offset ctx} : total.toNat ≤ offset → SfpSendRun read total mtu offset ctx ⟨cspErrNone, ctx, []⟩
  | stop {offset ctx call} : offset < total.toNat →
      call = read ctx (UInt32.ofNat (min mtu.toNat (total.toNat - offset))) (UInt32.ofNat offset) →
      call.ret ≠ cspErrNone → SfpSendRun read total mtu offset ctx ⟨call.ret, call.ctx, []⟩
  | next {offset ctx call bytes out} : offset < total.toNat →
      call = read ctx (UInt32.ofNat (min mtu.toNat (total.toNat - offset))) (UInt32.ofNat offset) →
      call.ret = cspErrNone → (∀ stored, call.buffer = some stored → bytes = stored) →
      SfpSendRun read total mtu (offset + mtu.toNat) call.ctx out →
      SfpSendRun read total mtu offset ctx
        ⟨out.ret, out.ctx, ⟨UInt32.ofNat offset, total, bytes⟩ :: out.sent⟩

/-- What is relied on of `csp_sfp_send`, for every `mtu` a packet has room for. -/
def CspSfpSend.Follows {κ : Type} (cspSfpSend : CspSfpSend κ) (maxMtu : UInt32) : Prop :=
  ∀ read ctx total mtu timeout, 1 ≤ mtu → mtu ≤ maxMtu →
    SfpSendRun read total mtu 0 ctx (cspSfpSend read ctx total mtu timeout)

structure SfpRecvReturn (κ : Type) where
  ret : Int
  ctx : κ

/-- `csp_sfp_recv_fp`, a C function outside this tree: write callback, its user
data, the fragments that arrive on the connection, `timeout`. -/
abbrev CspSfpRecvFp (κ : Type) :=
  (κ → RawPtr → UInt32 → UInt32 → UInt32 → Int × κ) → κ → List Fragment → UInt32 → SfpRecvReturn κ

/-- The loop of `csp_sfp_recv_fp` once `received` bytes are in. Each in-order
fragment is written once; reaching the total ends the call with no error. -/
inductive SfpRecvRun {κ : Type} (write : κ → RawPtr → UInt32 → UInt32 → UInt32 → Int × κ) (total : UInt32) :
    Nat → κ → List Fragment → SfpRecvReturn κ → Prop
  | timeout {received ctx code} : code ≠ cspErrNone → SfpRecvRun write total received ctx [] ⟨code, ctx⟩
  | disorder {received ctx fragment rest code} : fragment.offset.toNat ≠ received → code ≠ cspErrNone →
      SfpRecvRun write total received ctx (fragment :: rest) ⟨code, ctx⟩
  | stop {received ctx fragment rest beyond call} : fragment.offset.toNat = received →
      call = write ctx (asPtr fragment.bytes beyond) (UInt32.ofNat fragment.bytes.length)
        fragment.offset total →
      call.1 ≠ cspErrNone → SfpRecvRun write total received ctx (fragment :: rest) ⟨call.1, call.2⟩
  | next {received ctx fragment rest beyond call out} : fragment.offset.toNat = received →
      call = write ctx (asPtr fragment.bytes beyond) (UInt32.ofNat fragment.bytes.length)
        fragment.offset total →
      call.1 = cspErrNone → received + fragment.bytes.length < total.toNat →
      SfpRecvRun write total (received + fragment.bytes.length) call.2 rest out →
      SfpRecvRun write total received ctx (fragment :: rest) out
  | done {received ctx fragment rest beyond call} : fragment.offset.toNat = received →
      call = write ctx (asPtr fragment.bytes beyond) (UInt32.ofNat fragment.bytes.length)
        fragment.offset total →
      call.1 = cspErrNone → total.toNat ≤ received + fragment.bytes.length →
      SfpRecvRun write total received ctx (fragment :: rest) ⟨cspErrNone, call.2⟩

/-- What is relied on of `csp_sfp_recv_fp`, for fragments that carry payload
and agree on the total. -/
def CspSfpRecvFp.Follows {κ : Type} (cspSfpRecvFp : CspSfpRecvFp κ) : Prop :=
  ∀ write ctx incoming timeout total,
    (∀ fragment ∈ incoming, fragment.total = total ∧ fragment.bytes ≠ []) →
    SfpRecvRun write total 0 ctx incoming (cspSfpRecvFp write ctx incoming timeout)

/-- A send loop that keeps to the assumptions, with enough fuel for fragments
of one byte. -/
def sfpSendSteps {κ : Type} (read : κ → UInt32 → UInt32 → ReadReturn κ) (total mtu : UInt32) :
    Nat → Nat → κ → SfpSendReturn κ
  | 0, _, ctx => ⟨cspErrNone, ctx, []⟩
  | fuel + 1, offset, ctx =>
    if total.toNat ≤ offset then ⟨cspErrNone, ctx, []⟩
    else
      let call := read ctx (UInt32.ofNat (min mtu.toNat (total.toNat - offset))) (UInt32.ofNat offset)
      if call.ret ≠ cspErrNone then ⟨call.ret, call.ctx, []⟩
      else
        let out := sfpSendSteps read total mtu fuel (offset + mtu.toNat) call.ctx
        ⟨out.ret, out.ctx, ⟨UInt32.ofNat offset, total, call.buffer.getD []⟩ :: out.sent⟩

def sfpSendLoop {κ : Type} : CspSfpSend κ :=
  fun read ctx total mtu _ => sfpSendSteps read total mtu total.toNat 0 ctx

theorem sfpSendSteps_follows {κ : Type} {read : κ → UInt32 → UInt32 → ReadReturn κ} {total mtu : UInt32}
    (positive : 0 < mtu.toNat) {fuel offset : Nat} {ctx : κ} (enough : total.toNat ≤ offset + fuel) :
    SfpSendRun read total mtu offset ctx (sfpSendSteps read total mtu fuel offset ctx) := by
  induction fuel generalizing offset ctx with
  | zero => exact .done (by omega)
  | succ fuel ih =>
    unfold sfpSendSteps
    split
    · exact .done (by omega)
    · rename_i before
      dsimp only
      split
      · rename_i declined
        exact .stop (by omega) rfl declined
      · rename_i accepted
        refine .next (by omega) rfl (by simpa using accepted) ?_ (ih (by omega))
        intro stored atStored
        rw [atStored, Option.getD_some]

theorem sfpSendLoop_follows {κ : Type} (maxMtu : UInt32) : @CspSfpSend.Follows κ sfpSendLoop maxMtu :=
  fun _ _ _ _ _ positive _ => sfpSendSteps_follows (UInt32.le_iff_toNat_le.mp positive) (by omega)

def sfpRecvSteps {κ : Type} (write : κ → RawPtr → UInt32 → UInt32 → UInt32 → Int × κ) :
    Nat → κ → List Fragment → SfpRecvReturn κ
  | _, ctx, [] => ⟨cspErrTimedout, ctx⟩
  | received, ctx, fragment :: rest =>
    if fragment.offset.toNat ≠ received then ⟨cspErrSfp, ctx⟩
    else
      let call := write ctx (asPtr fragment.bytes fun _ => 0) (UInt32.ofNat fragment.bytes.length)
        fragment.offset fragment.total
      if call.1 ≠ cspErrNone then ⟨call.1, call.2⟩
      else if received + fragment.bytes.length < fragment.total.toNat then
        sfpRecvSteps write (received + fragment.bytes.length) call.2 rest
      else ⟨cspErrNone, call.2⟩

def sfpRecvLoop {κ : Type} : CspSfpRecvFp κ :=
  fun write ctx incoming _ => sfpRecvSteps write 0 ctx incoming

theorem sfpRecvSteps_follows {κ : Type} {write : κ → RawPtr → UInt32 → UInt32 → UInt32 → Int × κ}
    {total : UInt32} {incoming : List Fragment} {received : Nat} {ctx : κ}
    (agree : ∀ fragment ∈ incoming, fragment.total = total ∧ fragment.bytes ≠ []) :
    SfpRecvRun write total received ctx incoming (sfpRecvSteps write received ctx incoming) := by
  induction incoming generalizing received ctx with
  | nil => exact .timeout (by decide)
  | cons fragment rest ih =>
    obtain ⟨rfl, -⟩ := agree fragment List.mem_cons_self
    unfold sfpRecvSteps
    split
    · rename_i misplaced
      exact .disorder misplaced (by decide)
    · rename_i inOrder
      rw [not_not] at inOrder
      dsimp only
      split
      · rename_i declined
        exact .stop inOrder rfl declined
      · rename_i accepted
        rw [not_not] at accepted
        split
        · rename_i more
          exact .next inOrder rfl accepted more
            (ih fun other member => agree other (List.mem_cons_of_mem _ member))
        · rename_i complete
          exact .done inOrder rfl accepted (by omega)

theorem sfpRecvLoop_follows {κ : Type} : @CspSfpRecvFp.Follows κ sfpRecvLoop :=
  fun _ _ _ _ _ agree => sfpRecvSteps_follows agree

structure SendOutcome (σ : Type) where
  result : Except CspError Unit
  progress : σ
  sent : List Fragment

/-- `Connection::sfp_send_with_progress`. `data.len() as u32` is taken twice, for
the context and for the C call. -/
def sfpSendWithProgress {σ : Type} (cspSfpSend : CspSfpSend (SendCtx σ))
    (onProgress : σ → UInt32 → UInt32 → Bool × σ) (progress : σ)
    (data : List UInt8) (beyond : RawPtr) (mtu timeout : UInt32) : SendOutcome σ :=
  let ctx := { ptr := asPtr data beyond, len := UInt32.ofNat data.length, progress : SendCtx σ }
  let out := cspSfpSend (readCb onProgress) ctx (UInt32.ofNat data.length) mtu timeout
  { result := if out.ret = cspErrNone then .ok () else .error (CspError.fromCode out.ret)
    progress := out.ctx.progress
    sent := out.sent }

structure RecvOutcome (σ : Type) where
  result : Except CspError (List UInt8)
  progress : σ

def sfpRecvWithProgress {σ : Type} (w : PointerWidth) (cspSfpRecvFp : CspSfpRecvFp (VecCtx σ))
    (onProgress : σ → UInt32 → UInt32 → List UInt8 → Bool × σ) (progress : σ)
    (incoming : List Fragment) (timeout : UInt32) : RecvOutcome σ :=
  let out := cspSfpRecvFp (writeCb w onProgress) { buf := [], progress } incoming timeout
  { result := if out.ret = cspErrNone then .ok out.ctx.buf else .error (CspError.fromCode out.ret)
    progress := out.ctx.progress }

end Libcsp
