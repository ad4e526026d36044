import Libcsp.Sfp.RoundTrip

namespace Libcsp
open Sys

variable {σ τ κ : Type}

/-- `csp_sfp_send` from one offset on, as far as aborting rests on it. It may end by
itself at any point, with any code of libcsp: no buffer, a failed transmission, an `mtu`
it refuses. A fragment is transmitted only after the callback returned zero for it. -/
inductive SfpSendCourse (read : κ → UInt32 → UInt32 → ReadReturn κ) (total mtu : UInt32) :
    Nat → κ → SfpSendReturn κ → Prop
  | ended {offset ctx code} : code ≠ cspErrAborted → SfpSendCourse read total mtu offset ctx ⟨code, ctx, []⟩
  | unsent {offset ctx call code} : offset < total.toNat →
      call = read ctx (UInt32.ofNat (min mtu.toNat (total.toNat - offset))) (UInt32.ofNat offset) →
      call.ret = cspErrNone → code ≠ cspErrAborted → SfpSendCourse read total mtu offset ctx ⟨code, call.ctx, []⟩
  | stop {offset ctx call} : offset < total.toNat →
      call = read ctx (UInt32.ofNat (min mtu.toNat (total.toNat - offset))) (UInt32.ofNat offset) →
      call.ret ≠ cspErrNone → SfpSendCourse read total mtu offset ctx ⟨call.ret, call.ctx, []⟩
  | next {offset ctx call bytes out} : offset < total.toNat →
      call = read ctx (UInt32.ofNat (min mtu.toNat (total.toNat - offset))) (UInt32.ofNat offset) →
      call.ret = cspErrNone → (∀ stored, call.buffer = some stored → bytes = stored) →
      SfpSendCourse read total mtu (offset + mtu.toNat) call.ctx out →
      SfpSendCourse read total mtu offset ctx ⟨out.ret, out.ctx, ⟨UInt32.ofNat offset, total, bytes⟩ :: out.sent⟩

/-- `csp_sfp_recv_fp`, as far as aborting rests on it. Which fragments it hands to the
callback, and when it ends by itself, is left open. -/
inductive SfpRecvCourse (write : κ → RawPtr → UInt32 → UInt32 → UInt32 → Int × κ) : κ → SfpRecvReturn κ → Prop
  | ended {ctx code} : code ≠ cspErrAborted → SfpRecvCourse write ctx ⟨code, ctx⟩
  | stop {ctx buffer size offset totalsz call} : call = write ctx buffer size offset totalsz →
      call.1 ≠ cspErrNone → SfpRecvCourse write ctx ⟨call.1, call.2⟩
  | next {ctx buffer size offset totalsz call out} : call = write ctx buffer size offset totalsz →
      call.1 = cspErrNone → SfpRecvCourse write call.2 out → SfpRecvCourse write ctx out

def CspSfpSend.StopsAtFirstError (cspSfpSend : CspSfpSend κ) : Prop :=
  ∀ read ctx total mtu timeout, 1 ≤ mtu →
    SfpSendCourse read total mtu 0 ctx (cspSfpSend read ctx total mtu timeout)

def CspSfpRecvFp.StopsAtFirstError (cspSfpRecvFp : CspSfpRecvFp κ) : Prop :=
  ∀ write ctx incoming timeout, SfpRecvCourse write ctx (cspSfpRecvFp write ctx incoming timeout)

theorem SfpSendRun.course {read : κ → UInt32 → UInt32 → ReadReturn κ} {total mtu : UInt32} {offset : Nat} {ctx : κ}
    {out : SfpSendReturn κ} (run : SfpSendRun read total mtu offset ctx out) :
    SfpSendCourse read total mtu offset ctx out := by
  induction run with
  | done _ => exact .ended (by decide)
  | stop before made declined => exact .stop before made declined
  | next before made accepted stored _ ih => exact .next before made accepted stored ih

theorem sfpRecvSteps_course {write : κ → RawPtr → UInt32 → UInt32 → UInt32 → Int × κ} {incoming : List Fragment}
    {received : Nat} {ctx : κ} : SfpRecvCourse write ctx (sfpRecvSteps write received ctx incoming) := by
  induction incoming generalizing received ctx with
  | nil => exact .ended (by decide)
  | cons fragment rest ih =>
    unfold sfpRecvSteps
    split
    · exact .ended (by decide)
    · dsimp only
      split
      · rename_i declined
        exact .stop rfl declined
      · rename_i accepted
        rw [not_not] at accepted
        refine .next rfl accepted ?_
        split
        · exact ih
        · exact .ended (by decide)

/-- An answer of the closure, noted after those it gave before. -/
def noted (answers : List Bool) (answer : Bool × σ) : Bool × (σ × List Bool) :=
  (answer.1, (answer.2, answers ++ [answer.1]))

def noteSend (onProgress : σ → UInt32 → UInt32 → Bool × σ) :
    σ × List Bool → UInt32 → UInt32 → Bool × (σ × List Bool) :=
  fun seen sent total => noted seen.2 (onProgress seen.1 sent total)

def noteReceive (onProgress : σ → UInt32 → UInt32 → List UInt8 → Bool × σ) :
    σ × List Bool → UInt32 → UInt32 → List UInt8 → Bool × (σ × List Bool) :=
  fun seen received total stored => noted seen.2 (onProgress seen.1 received total stored)

/-- The answers `gained` during a call of C that returned `ret`: a refusal is the last
one, and it alone makes C return the sentinel. -/
def EndsAtRefusal (gained : List Bool) (ret : Int) : Prop :=
  (∃ n, gained = List.replicate n true ∧ ret ≠ cspErrAborted) ∨
    ∃ k, gained = List.replicate k true ++ [false] ∧ ret = cspErrAborted

theorem EndsAtRefusal.cons_true {gained : List Bool} {ret : Int} (ends : EndsAtRefusal gained ret) :
    EndsAtRefusal (true :: gained) ret := by
  rcases ends with ⟨n, rfl, own⟩ | ⟨k, rfl, aborted⟩
  · exact .inl ⟨n + 1, rfl, own⟩
  · exact .inr ⟨k + 1, rfl, aborted⟩

theorem EndsAtRefusal.of_refusal {gained : List Bool} {ret : Int} (ends : EndsAtRefusal gained ret) {k : Nat}
    (refused : gained[k]? = some false) : gained = List.replicate k true ++ [false] ∧ ret = cspErrAborted := by
  rcases ends with ⟨n, rfl, _⟩ | ⟨last, rfl, aborted⟩
  · exact absurd (List.eq_of_mem_replicate (List.mem_of_getElem? refused)) (by decide)
  · have inside := (List.getElem?_eq_some_iff.mp refused).1
    rw [List.length_append, List.length_replicate, List.length_singleton] at inside
    by_cases before : k < last
    · rw [List.getElem?_append_left (by rwa [List.length_replicate]), List.getElem?_replicate, if_pos before] at refused
      cases refused
    · obtain rfl : k = last := by omega
      exact ⟨rfl, aborted⟩

theorem EndsAtRefusal.of_no_refusal {gained : List Bool} {ret : Int} (ends : EndsAtRefusal gained ret)
    (agreed : false ∉ gained) : ret ≠ cspErrAborted := by
  rcases ends with ⟨n, _, own⟩ | ⟨k, rfl, _⟩
  · exact own
  · exact absurd (List.mem_append_right _ (List.mem_singleton_self _)) agreed

/-- What `read_cb` returns for a fragment of the transfer, whatever the closure answers. -/
theorem readCb_noted {onProgress : σ → UInt32 → UInt32 → Bool × σ} {data : List UInt8} {beyond : RawPtr}
    {mtu offset : Nat} {s : σ} {answers : List Bool} {call : ReadReturn (SendCtx (σ × List Bool))}
    (bound : data.length < 2 ^ 32) (before : offset < (UInt32.ofNat data.length).toNat)
    (made : call = readCb (noteSend onProgress) ⟨asPtr data beyond, UInt32.ofNat data.length, (s, answers)⟩
      (UInt32.ofNat (min mtu ((UInt32.ofNat data.length).toNat - offset))) (UInt32.ofNat offset)) :
    ∃ agreed s', call =
      { ret := if agreed then cspErrNone else cspErrAborted
        buffer := some ((data.drop offset).take mtu)
        ctx := ⟨asPtr data beyond, UInt32.ofNat data.length, (s', answers ++ [agreed])⟩ } := by
  rw [asU32_toNat bound] at before made
  rw [made]
  exact ⟨_, _, readCb_fragment bound before rfl⟩

theorem SfpSendCourse.refusal {onProgress : σ → UInt32 → UInt32 → Bool × σ} {data : List UInt8} {beyond : RawPtr}
    {mtu : UInt32} (bound : data.length < 2 ^ 32) (positive : 0 < mtu.toNat) {offset : Nat} {s : σ}
    {answers : List Bool} {out : SfpSendReturn (SendCtx (σ × List Bool))}
    (course : SfpSendCourse (readCb (noteSend onProgress))
      (UInt32.ofNat data.length) mtu offset ⟨asPtr data beyond, UInt32.ofNat data.length, (s, answers)⟩ out) :
    ∃ gained, out.ctx.progress.2 = answers ++ gained ∧ EndsAtRefusal gained out.ret ∧
      ∀ k, gained[k]? = some false → out.sent.length = k ∧
        out.sent = ((sfpOffsets data.length mtu.toNat offset).map (fragmentAt data mtu.toNat)).take k := by
  have aborts : cspErrAborted ≠ cspErrNone := by decide
  generalize start : (⟨asPtr data beyond, UInt32.ofNat data.length, (s, answers)⟩ : SendCtx (σ × List Bool)) = ctx
    at course
  induction course generalizing s answers with
  | ended own =>
    subst start
    refine ⟨[], (List.append_nil _).symm, .inl ⟨0, rfl, own⟩, ?_⟩
    intro k refused
    exact absurd (List.mem_of_getElem? refused) (by decide)
  | @unsent offset ctx call code before made accepted own =>
    subst start
    obtain ⟨agreed, s', rfl⟩ := readCb_noted bound before made
    cases agreed with
    | false => exact absurd accepted aborts
    | true =>
      refine ⟨[true], rfl, .inl ⟨1, rfl, own⟩, ?_⟩
      intro k refused
      exact absurd (List.mem_of_getElem? refused) (by decide)
  | @stop offset ctx call before made declined =>
    subst start
    obtain ⟨agreed, s', rfl⟩ := readCb_noted bound before made
    cases agreed with
    | false =>
      refine ⟨[false], rfl, .inr ⟨0, rfl, rfl⟩, ?_⟩
      intro k refused
      have inside : k < [false].length := (List.getElem?_eq_some_iff.mp refused).1
      obtain rfl : k = 0 := Nat.lt_one_iff.mp inside
      exact ⟨rfl, rfl⟩
    | true => exact absurd rfl declined
  | @next offset ctx call bytes out before made accepted stored rest ih =>
    subst start
    obtain ⟨agreed, s', rfl⟩ := readCb_noted bound before made
    rw [asU32_toNat bound] at before
    cases agreed with
    | false => exact absurd accepted aborts
    | true =>
      obtain ⟨gained, answered, ends, sent⟩ := ih rfl
      refine ⟨true :: gained, by rw [answered, List.append_assoc, List.singleton_append], ends.cons_true, ?_⟩
      intro k refused
      cases k with
      | zero => cases refused
      | succ k =>
        obtain ⟨count, same⟩ := sent k refused
        rw [sfpOffsets_next positive before, List.map_cons, List.take_succ_cons, ← same, stored _ rfl]
        exact ⟨congrArg (· + 1) count, rfl⟩

theorem writeCb_noted (w : PointerWidth) (onProgress : σ → UInt32 → UInt32 → List UInt8 → Bool × σ)
    (ctx : VecCtx (σ × List Bool)) (buffer : RawPtr) (size offset totalsz : UInt32)
    {call : Int × VecCtx (σ × List Bool)}
    (made : call = writeCb w (noteReceive onProgress) ctx buffer size offset totalsz) :
    (call.1 = cspErrInval ∧ call.2.progress = ctx.progress) ∨
      ∃ agreed, call.1 = (if agreed then cspErrNone else cspErrAborted) ∧
        call.2.progress.2 = ctx.progress.2 ++ [agreed] := by
  unfold writeCb at made
  rw [Reassembly.sizing_eq] at made
  dsimp only [noteReceive] at made
  split at made
  · exact .inl ⟨congrArg Prod.fst made, by rw [made]⟩
  · split at made
    · exact .inl ⟨congrArg Prod.fst made, by rw [made]⟩
    · generalize onProgress ctx.progress.1 _ _ _ = answer at made
      refine .inr ⟨answer.1, ?_, by rw [made]; rfl⟩
      rw [made, noted]
      cases answer.1 <;> rfl

theorem SfpRecvCourse.refusal {w : PointerWidth} {onProgress : σ → UInt32 → UInt32 → List UInt8 → Bool × σ}
    {ctx : VecCtx (σ × List Bool)} {out : SfpRecvReturn (VecCtx (σ × List Bool))}
    (course : SfpRecvCourse (writeCb w (noteReceive onProgress)) ctx out) :
    ∃ gained, out.ctx.progress.2 = ctx.progress.2 ++ gained ∧ EndsAtRefusal gained out.ret := by
  induction course with
  | ended own => exact ⟨[], (List.append_nil _).symm, .inl ⟨0, rfl, own⟩⟩
  | stop made declined =>
    obtain ⟨returned, kept⟩ | ⟨agreed, returned, answered⟩ := writeCb_noted _ _ _ _ _ _ _ made
    · have own : cspErrInval ≠ cspErrAborted := by decide
      exact ⟨[], by rw [kept, List.append_nil], .inl ⟨0, rfl, returned ▸ own⟩⟩
    · cases agreed with
      | false => exact ⟨[false], answered, .inr ⟨0, rfl, returned⟩⟩
      | true => exact absurd returned declined
  | next made accepted _ ih =>
    obtain ⟨gained, later, ends⟩ := ih
    obtain ⟨returned, kept⟩ | ⟨agreed, returned, answered⟩ := writeCb_noted _ _ _ _ _ _ _ made
    · exact absurd (accepted.symm.trans returned) (by decide)
    · cases agreed with
      | false => exact absurd (accepted.symm.trans returned) (by decide)
      | true => exact ⟨true :: gained, by rw [later, answered, List.append_assoc, List.singleton_append], ends.cons_true⟩

theorem aborted_iff {β : Type} {code : Int} {value : β} :
    (if code = cspErrNone then Except.ok value else .error (CspError.fromCode code)) = .error CspError.aborted ↔
      code = cspErrAborted := by
  split
  · rename_i none
    rw [none]
    exact iff_of_false (by simp) (by decide)
  · rw [Except.error.injEq, CspError.fromCode_aborted_iff]

/-- A transfer whose closure first declines at its call number `k`, counted from zero, is
aborted there: `k` fragments were transmitted, the one of that call was not. Nothing else
is reported as an abort. -/
theorem sfp_abort_exact {cspSfpSend : CspSfpSend (SendCtx (σ × List Bool))} (sends : cspSfpSend.StopsAtFirstError)
    {cspSfpRecvFp : CspSfpRecvFp (VecCtx (τ × List Bool))} (receives : cspSfpRecvFp.StopsAtFirstError)
    (onSend : σ → UInt32 → UInt32 → Bool × σ) (onReceive : τ → UInt32 → UInt32 → List UInt8 → Bool × τ) (s : σ) (t : τ)
    (w : PointerWidth) (data : List UInt8) (beyond : RawPtr) (mtu timeout : UInt32) (incoming : List Fragment)
    (bound : data.length < 2 ^ 32) (positive : 1 ≤ mtu) :
    let send := sfpSendWithProgress cspSfpSend (noteSend onSend) (s, []) data beyond mtu timeout
    let recv := sfpRecvWithProgress w cspSfpRecvFp (noteReceive onReceive) (t, []) incoming timeout
    (∀ k : Nat, send.progress.2[k]? = some false → (∀ i < k, send.progress.2[i]? = some true) →
      send.result = .error .aborted ∧ send.progress.2.length = k + 1 ∧ send.sent.length = k ∧
        send.sent = ((sfpOffsets data.length mtu.toNat 0).map (fragmentAt data mtu.toNat)).take k) ∧
    (∀ k : Nat, recv.progress.2[k]? = some false → (∀ i < k, recv.progress.2[i]? = some true) →
      recv.result = .error .aborted ∧ recv.progress.2.length = k + 1) ∧
    (false ∉ send.progress.2 → send.result ≠ .error .aborted) ∧
    (false ∉ recv.progress.2 → recv.result ≠ .error .aborted) := by
  intro send recv
  obtain ⟨answers, answered, ends, sent⟩ :
      ∃ answers, send.progress.2 = [] ++ answers ∧ EndsAtRefusal answers _ ∧ _ :=
    (sends _ _ _ mtu timeout positive).refusal bound (UInt32.le_iff_toNat_le.mp positive)
  obtain ⟨answers', answered', ends'⟩ : ∃ answers, recv.progress.2 = [] ++ answers ∧ EndsAtRefusal answers _ :=
    (receives _ _ incoming timeout).refusal
  rw [List.nil_append] at answered answered'
  rw [answered, answered']
  refine ⟨?_, ?_, ?_, ?_⟩
  · intro k refused _
    obtain ⟨whole, aborted⟩ := ends.of_refusal refused
    exact ⟨aborted_iff.mpr aborted, by simp [whole], sent k refused⟩
  · intro k refused _
    obtain ⟨whole, aborted⟩ := ends'.of_refusal refused
    exact ⟨aborted_iff.mpr aborted, by simp [whole]⟩
  · intro agreed aborted
    exact ends.of_no_refusal agreed (aborted_iff.mp aborted)
  · intro agreed aborted
    exact ends'.of_no_refusal agreed (aborted_iff.mp aborted)

/-- Five bytes in fragments of two. The sender declines the last fragment, the receiver
the second. -/
theorem sfp_abort_exact_five_bytes :
    let send := sfpSendWithProgress sfpSendLoop (noteSend fun calls _ _ => (calls < 2, calls + 1)) (0, [])
      [1, 2, 3, 4, 5] (fun _ => 0) 2 1000
    let recv := sfpRecvWithProgress .w64 sfpRecvLoop (noteReceive fun calls _ _ _ => (calls < 1, calls + 1)) (0, [])
      [⟨0, 5, [1, 2]⟩, ⟨2, 5, [3, 4]⟩, ⟨4, 5, [5]⟩] 1000
    send.progress.2 = [true, true, false] ∧ send.result = .error .aborted ∧
      send.sent = [⟨0, 5, [1, 2]⟩, ⟨2, 5, [3, 4]⟩] ∧
      recv.progress.2 = [true, false] ∧ recv.result = .error .aborted := by
  intro send recv
  have sends : @CspSfpSend.StopsAtFirstError (SendCtx (Nat × List Bool)) sfpSendLoop := fun _ _ _ _ _ positive =>
    (sfpSendSteps_follows (UInt32.le_iff_toNat_le.mp positive) (by omega)).course
  have receives : @CspSfpRecvFp.StopsAtFirstError (VecCtx (Nat × List Bool)) sfpRecvLoop := fun _ _ _ _ =>
    sfpRecvSteps_course
  obtain ⟨sent, received, _⟩ := sfp_abort_exact sends receives (fun calls _ _ => (calls < 2, calls + 1))
    (fun calls _ _ _ => (calls < 1, calls + 1)) 0 0 .w64 [1, 2, 3, 4, 5] (fun _ => 0) 2 1000
    [⟨0, 5, [1, 2]⟩, ⟨2, 5, [3, 4]⟩, ⟨4, 5, [5]⟩] (by decide) (by decide)
  have declined := sent 2 (by decide) (by decide)
  exact ⟨by decide, declined.1, declined.2.2.2, by decide, (received 1 (by decide) (by decide)).1⟩

end Libcsp
