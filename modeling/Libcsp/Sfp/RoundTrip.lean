import Libcsp.Sfp.ReadBounds
import Libcsp.Sfp.Reassembly
import Libcsp.Sfp.Transfer

namespace Libcsp
open Sys

variable {σ τ : Type}

/-- Offsets at which fragments start, from one of them to the end of the blob. -/
def sfpOffsets (len mtu offset : Nat) : List Nat :=
  List.range' offset ((len - offset + mtu - 1) / mtu) mtu

theorem sfpOffsets_done {len mtu offset : Nat} (positive : 0 < mtu) (past : len ≤ offset) :
    sfpOffsets len mtu offset = [] := by
  have none : (len - offset + mtu - 1) / mtu = 0 := Nat.div_eq_of_lt (by omega)
  simp only [sfpOffsets, none, List.range'_zero]

theorem sfpOffsets_next {len mtu offset : Nat} (positive : 0 < mtu) (before : offset < len) :
    sfpOffsets len mtu offset = offset :: sfpOffsets len mtu (offset + mtu) := by
  have count : (len - offset + mtu - 1) / mtu = (len - (offset + mtu) + mtu - 1) / mtu + 1 := by
    by_cases short : len - offset ≤ mtu
    · have rest : len - (offset + mtu) + mtu - 1 = mtu - 1 := by omega
      rw [rest, Nat.div_eq_of_lt (by omega : mtu - 1 < mtu)]
      exact Nat.div_eq_of_lt_le (by omega) (by omega)
    · have more : len - offset + mtu - 1 = (len - (offset + mtu) + mtu - 1) + mtu := by omega
      rw [more, Nat.add_div_right _ positive]
  simp only [sfpOffsets, count, List.range'_succ]

def fragmentAt (data : List UInt8) (mtu offset : Nat) : Fragment :=
  ⟨UInt32.ofNat offset, UInt32.ofNat data.length, (data.drop offset).take mtu⟩

def countAt (len mtu offset : Nat) : Nat := min (offset + mtu) len

theorem readCb_fragment {onProgress : σ → UInt32 → UInt32 → Bool × σ}
    {data : List UInt8} {beyond : RawPtr} {mtu offset : Nat} {s : σ} {answer : Bool × σ}
    (bound : data.length < 2 ^ 32) (before : offset < data.length)
    (asked : onProgress s (UInt32.ofNat (countAt data.length mtu offset)) (UInt32.ofNat data.length) = answer) :
    readCb onProgress ⟨asPtr data beyond, UInt32.ofNat data.length, s⟩
        (UInt32.ofNat (min mtu (data.length - offset))) (UInt32.ofNat offset) =
      { ret := if answer.1 then cspErrNone else cspErrAborted
        buffer := some ((data.drop offset).take mtu)
        ctx := ⟨asPtr data beyond, UInt32.ofNat data.length, answer.2⟩ } := by
  have total := asU32_toNat bound
  have start := asU32_toNat (by omega : offset < 2 ^ 32)
  have size := asU32_toNat (by omega : min mtu (data.length - offset) < 2 ^ 32)
  have stop : offset + min mtu (data.length - offset) = countAt data.length mtu offset := by
    unfold countAt
    omega
  rw [readCb_inside (by rw [total, start, size]; omega)]
  simp only [SendCtx.blob, total, start, size, stop, asked]
  rw [asPtr_read (by omega), List.drop_zero, List.take_length, ← List.length_drop, ← List.take_eq_take_min]

/-- The send loop with a closure that never declines: every fragment goes out
and the closure is told the cumulative count once per fragment. -/
theorem SfpSendRun.all_accepted {onProgress : σ → UInt32 → UInt32 → Bool × σ}
    (agree : ∀ s sent total, (onProgress s sent total).1 = true)
    {data : List UInt8} {beyond : RawPtr} {mtu : UInt32} (bound : data.length < 2 ^ 32)
    (positive : 0 < mtu.toNat) {offset : Nat} {s : σ} {out : SfpSendReturn (SendCtx σ)}
    (run : SfpSendRun (readCb onProgress) (UInt32.ofNat data.length) mtu offset
      ⟨asPtr data beyond, UInt32.ofNat data.length, s⟩ out) :
    out.ret = cspErrNone ∧
      out.sent = (sfpOffsets data.length mtu.toNat offset).map (fragmentAt data mtu.toNat) ∧
      out.ctx.progress = (sfpOffsets data.length mtu.toNat offset).foldl (fun s o =>
        (onProgress s (UInt32.ofNat (countAt data.length mtu.toNat o)) (UInt32.ofNat data.length)).2) s := by
  have total := asU32_toNat bound
  generalize start : (⟨asPtr data beyond, UInt32.ofNat data.length, s⟩ : SendCtx σ) = ctx at run
  induction run generalizing s with
  | done past =>
    subst start
    rw [sfpOffsets_done positive (by omega)]
    exact ⟨rfl, rfl, rfl⟩
  | @stop offset ctx call before made declined =>
    subst start
    rw [total] at before made
    rw [readCb_fragment bound before rfl, agree, if_pos rfl] at made
    exact absurd (by rw [made]) declined
  | @next offset ctx call bytes out before made accepted stored rest ih =>
    subst start
    rw [total] at before made
    rw [readCb_fragment bound before rfl, agree, if_pos rfl] at made
    obtain ⟨ret, sent, progress⟩ := ih (by rw [made])
    rw [sfpOffsets_next positive before, List.map_cons, List.foldl_cons]
    refine ⟨ret, ?_, progress⟩
    rw [sent, stored _ (by rw [made]), fragmentAt]

/-- The receive buffer once the first `received` bytes of the blob are in.
Nothing is allocated before the first fragment. -/
def BufferHolds (data : List UInt8) (received : Nat) (buf : List UInt8) : Prop :=
  (received = 0 ∧ buf = []) ∨ (buf.length = data.length ∧ buf.take received = data.take received)

theorem BufferHolds.sized {data buf : List UInt8} {received : Nat} (holds : BufferHolds data received buf)
    (bound : data.length < 2 ^ 32) (nonempty : 0 < data.length) :
    (Reassembly.sized buf (UInt32.ofNat data.length)).length = data.length ∧
      (Reassembly.sized buf (UInt32.ofNat data.length)).take received = data.take received := by
  rcases holds with ⟨rfl, rfl⟩ | ⟨length, same⟩
  · rw [Reassembly.sized, if_pos rfl, asU32_toNat bound]
    exact ⟨List.length_replicate, rfl⟩
  · rw [Reassembly.sized, if_neg (List.ne_nil_of_length_pos (by omega))]
    exact ⟨length, same⟩

theorem BufferHolds.length_lt {data buf : List UInt8} {received : Nat} (holds : BufferHolds data received buf)
    (bound : data.length < 2 ^ 32) : buf.length < 2 ^ 32 := by
  rcases holds with ⟨_, rfl⟩ | ⟨length, _⟩
  · exact Nat.two_pow_pos 32
  · omega

theorem fragment_length (data : List UInt8) (mtu offset : Nat) :
    ((data.drop offset).take mtu).length = countAt data.length mtu offset - offset := by
  rw [List.length_take, List.length_drop, countAt]
  omega

theorem fragmentAt_length (data : List UInt8) (mtu offset : Nat) :
    (fragmentAt data mtu offset).bytes.length = countAt data.length mtu offset - offset :=
  fragment_length data mtu offset

theorem writeCb_fragment {w : PointerWidth} {onProgress : σ → UInt32 → UInt32 → List UInt8 → Bool × σ}
    (agree : ∀ s received total seen, (onProgress s received total seen).1 = true)
    {data buf : List UInt8} {beyond : RawPtr} {mtu offset : Nat} {s : σ}
    (bound : data.length < 2 ^ 32) (before : offset < data.length) (holds : BufferHolds data offset buf) :
    ∃ after, writeCb w onProgress ⟨buf, s⟩ (asPtr ((data.drop offset).take mtu) beyond)
        (UInt32.ofNat ((data.drop offset).take mtu).length) (UInt32.ofNat offset) (UInt32.ofNat data.length) =
        (cspErrNone, ⟨after, (onProgress s (UInt32.ofNat (countAt data.length mtu offset))
          (UInt32.ofNat data.length) (data.take (countAt data.length mtu offset))).2⟩) ∧
      after.length = data.length ∧
      after.take (countAt data.length mtu offset) = data.take (countAt data.length mtu offset) := by
  obtain ⟨length, same⟩ := holds.sized bound (by omega)
  have payload := fragment_length data mtu offset
  have reach : offset ≤ countAt data.length mtu offset ∧ countAt data.length mtu offset ≤ data.length := by
    unfold countAt; omega
  have start := asU32_toNat (by omega : offset < 2 ^ 32)
  have size := asU32_toNat (by omega : ((data.drop offset).take mtu).length < 2 ^ 32)
  have copied : (asPtr ((data.drop offset).take mtu) beyond).read 0 ((data.drop offset).take mtu).length =
      (data.drop offset).take mtu := by
    rw [asPtr_read (by omega), List.drop_zero, List.take_length]
  have finish : offset + ((data.drop offset).take mtu).length = countAt data.length mtu offset := by omega
  have room : offset + ((data.drop offset).take mtu).length ≤
      (Reassembly.sized buf (UInt32.ofNat data.length)).length := by omega
  have newPrefix : (overwrite (Reassembly.sized buf (UInt32.ofNat data.length)) offset
      ((data.drop offset).take mtu)).take (countAt data.length mtu offset) =
        data.take (countAt data.length mtu offset) := by
    rw [← finish, overwrite_take room, same, List.take_add, List.length_take, ← List.take_eq_take_min]
  refine ⟨overwrite (Reassembly.sized buf (UInt32.ofNat data.length)) offset ((data.drop offset).take mtu), ?_, ?_,
    newPrefix⟩
  · rw [Reassembly.writeCb_eq (holds.length_lt bound), start, size, if_pos room]
    simp only [copied, finish, newPrefix, agree, if_true]
  · rw [overwrite_length room, length]

/-- The next fragment of a transfer and those after it. -/
theorem incoming_cons {data : List UInt8} {mtu offset : Nat} (positive : 0 < mtu) (before : offset < data.length)
    {fragment : Fragment} {rest : List Fragment}
    (queue : (sfpOffsets data.length mtu offset).map (fragmentAt data mtu) = fragment :: rest) :
    fragmentAt data mtu offset = fragment ∧ (sfpOffsets data.length mtu (offset + mtu)).map (fragmentAt data mtu) = rest := by
  rw [sfpOffsets_next positive before, List.map_cons] at queue
  exact List.cons.inj queue

theorem SfpRecvRun.all_accepted {w : PointerWidth}
    {onProgress : σ → UInt32 → UInt32 → List UInt8 → Bool × σ}
    (agree : ∀ s received total seen, (onProgress s received total seen).1 = true)
    {data buf : List UInt8} {mtu offset : Nat} {s : σ} {out : SfpRecvReturn (VecCtx σ)}
    (bound : data.length < 2 ^ 32) (positive : 0 < mtu) (before : offset < data.length)
    (holds : BufferHolds data offset buf)
    (run : SfpRecvRun (writeCb w onProgress) (UInt32.ofNat data.length) offset ⟨buf, s⟩
      ((sfpOffsets data.length mtu offset).map (fragmentAt data mtu)) out) :
    out.ret = cspErrNone ∧ out.ctx.buf = data ∧
      out.ctx.progress = (sfpOffsets data.length mtu offset).foldl (fun s o =>
        (onProgress s (UInt32.ofNat (countAt data.length mtu o)) (UInt32.ofNat data.length)
          (data.take (countAt data.length mtu o))).2) s := by
  have total := asU32_toNat bound
  generalize queue : (sfpOffsets data.length mtu offset).map (fragmentAt data mtu) = incoming at run
  generalize start : (⟨buf, s⟩ : VecCtx σ) = ctx at run
  induction run generalizing buf s with
  | timeout _ =>
    rw [sfpOffsets_next positive before] at queue
    simp at queue
  | disorder misplaced _ =>
    obtain ⟨rfl, -⟩ := incoming_cons positive before queue
    exact absurd (asU32_toNat (by omega)) misplaced
  | stop _ made declined =>
    subst start
    obtain ⟨rfl, -⟩ := incoming_cons positive before queue
    obtain ⟨after, accepted, -⟩ := writeCb_fragment agree bound before holds
    exact absurd (by rw [made]; exact congrArg Prod.fst accepted) declined
  | @next received ctx fragment rest beyond call out _ made _ more _ ih =>
    subst start
    obtain ⟨rfl, remaining⟩ := incoming_cons positive before queue
    obtain ⟨after, accepted, length, same⟩ := writeCb_fragment agree bound before holds
    have outcome := made.trans accepted
    rw [fragmentAt_length, total, countAt] at more
    have advance : received + (fragmentAt data mtu received).bytes.length = received + mtu := by
      rw [fragmentAt_length, countAt]; omega
    have count : countAt data.length mtu received = received + mtu := by rw [countAt]; omega
    rw [count] at same
    obtain ⟨ret, whole, progress⟩ := ih (by omega) (Or.inr ⟨length, by rw [advance]; exact same⟩)
      (by rw [advance]; exact remaining) (by rw [outcome])
    rw [sfpOffsets_next positive before, List.foldl_cons]
    rw [advance] at progress
    exact ⟨ret, whole, progress⟩
  | @done received ctx fragment rest beyond call _ made _ complete =>
    subst start
    obtain ⟨rfl, remaining⟩ := incoming_cons positive before queue
    obtain ⟨after, accepted, length, same⟩ := writeCb_fragment agree bound before holds
    have outcome := made.trans accepted
    rw [fragmentAt_length, total] at complete
    have count : countAt data.length mtu received = data.length := by
      unfold countAt at complete ⊢; omega
    rw [count, ← length, List.take_length, length, List.take_length] at same
    have last : data.length ≤ received + mtu := by unfold countAt at count; omega
    rw [sfpOffsets_next positive before, sfpOffsets_done positive last, List.foldl_cons, List.foldl_nil]
    rw [outcome]
    exact ⟨rfl, same, rfl⟩

/-- The counts a progress closure is told over a whole transfer: the `k`-th is
`min (k * mtu) len`, counting from one. -/
def progressCounts (len mtu : Nat) : List Nat :=
  (List.range ((len + mtu - 1) / mtu)).map fun k => min ((k + 1) * mtu) len

theorem sfpOffsets_counts (len mtu : Nat) :
    (sfpOffsets len mtu 0).map (countAt len mtu) = progressCounts len mtu := by
  apply List.ext_getElem
  · simp [sfpOffsets, progressCounts]
  · intro k _ _
    simp only [sfpOffsets, progressCounts, countAt, List.getElem_map, List.getElem_range',
      List.getElem_range, Nat.zero_add, Nat.succ_mul, Nat.mul_comm]

theorem progressCounts_last {len mtu : Nat} (nonempty : 0 < len) (positive : 0 < mtu) :
    (progressCounts len mtu).getLast? = some len := by
  obtain ⟨n, count⟩ : ∃ n, (len + mtu - 1) / mtu = n + 1 :=
    Nat.exists_eq_succ_of_ne_zero (Nat.ne_of_gt (Nat.div_pos (by omega) positive))
  have cover : len ≤ (n + 1) * mtu := by
    have least := Nat.lt_div_mul_add (a := len + mtu - 1) positive
    rw [count] at least
    omega
  simp only [progressCounts, count, List.range_succ, List.map_append, List.map_cons, List.map_nil,
    List.getLast?_append, List.getLast?_singleton, Option.some_or]
  congr 1
  omega

theorem sfpOffsets_fragment {data : List UInt8} {mtu : Nat} (positive : 0 < mtu)
    {fragment : Fragment} (member : fragment ∈ (sfpOffsets data.length mtu 0).map (fragmentAt data mtu)) :
    fragment.total = UInt32.ofNat data.length ∧ fragment.bytes ≠ [] := by
  obtain ⟨offset, inRange, rfl⟩ := List.mem_map.mp member
  obtain ⟨k, small, rfl⟩ := List.mem_range'.mp inRange
  refine ⟨rfl, List.ne_nil_of_length_pos ?_⟩
  rw [fragmentAt, fragment_length, countAt]
  have := Nat.le_div_iff_mul_le positive |>.mp (Nat.succ_le_of_lt small)
  rw [Nat.succ_mul, Nat.mul_comm] at this
  omega

/-- A blob sent through `read_cb` and received through `write_cb` arrives byte
for byte, and both progress closures are told the same counts. A closure is
described by the state it ends in, so this covers every stateful closure that
never declines. -/
theorem sfp_round_trip {maxMtu : UInt32} {cspSfpSend : CspSfpSend (SendCtx σ)}
    {cspSfpRecvFp : CspSfpRecvFp (VecCtx τ)} (sends : cspSfpSend.Follows maxMtu)
    (receives : cspSfpRecvFp.Follows) {onSent : σ → UInt32 → UInt32 → Bool × σ}
    {onReceived : τ → UInt32 → UInt32 → List UInt8 → Bool × τ}
    (sentAgree : ∀ s sent total, (onSent s sent total).1 = true)
    (receivedAgree : ∀ t received total seen, (onReceived t received total seen).1 = true)
    (w : PointerWidth) (s : σ) (t : τ) (data : List UInt8) (beyond : RawPtr)
    (mtu sendTimeout recvTimeout : UInt32) (nonempty : 1 ≤ data.length)
    (bound : data.length ≤ 2 ^ 32 - 1) (positive : 1 ≤ mtu) (fits : mtu ≤ maxMtu) :
    let sent := sfpSendWithProgress cspSfpSend onSent s data beyond mtu sendTimeout
    let received := sfpRecvWithProgress w cspSfpRecvFp onReceived t sent.sent recvTimeout
    let counts := progressCounts data.length mtu.toNat
    sent.result = .ok () ∧ received.result = .ok data ∧ counts.getLast? = some data.length ∧
      sent.progress = counts.foldl (fun s n => (onSent s (UInt32.ofNat n) (UInt32.ofNat data.length)).2) s ∧
      received.progress = counts.foldl (fun t n =>
        (onReceived t (UInt32.ofNat n) (UInt32.ofNat data.length) (data.take n)).2) t := by
  have small : data.length < 2 ^ 32 := by omega
  have step : 0 < mtu.toNat := UInt32.le_iff_toNat_le.mp positive
  obtain ⟨ret, out, progress⟩ := (sends (readCb onSent) ⟨asPtr data beyond, UInt32.ofNat data.length, s⟩
    (UInt32.ofNat data.length) mtu sendTimeout positive fits).all_accepted sentAgree small step
  have incoming := receives (writeCb w onReceived) ⟨[], t⟩
    ((sfpOffsets data.length mtu.toNat 0).map (fragmentAt data mtu.toNat)) recvTimeout
    (UInt32.ofNat data.length) (fun fragment member => sfpOffsets_fragment step member)
  obtain ⟨ret', whole, progress'⟩ := incoming.all_accepted receivedAgree small step nonempty (Or.inl ⟨rfl, rfl⟩)
  simp only [sfpSendWithProgress, sfpRecvWithProgress, out, ret, ret', whole, progress, progress', if_true]
  refine ⟨trivial, trivial, progressCounts_last nonempty step, ?_, ?_⟩
  · rw [← sfpOffsets_counts, List.foldl_map]
  · rw [← sfpOffsets_counts, List.foldl_map]

theorem sfp_round_trip_five_bytes :
    (sfpRecvWithProgress .w64 sfpRecvLoop (fun seen n total bytes => (true, seen ++ [(n, total, bytes)])) []
      (sfpSendWithProgress sfpSendLoop (fun seen n total => (true, seen ++ [(n, total)])) []
        [11, 22, 33, 44, 55] (fun _ => 0) 2 1000).sent 1000).result = .ok [11, 22, 33, 44, 55] :=
  (sfp_round_trip (sfpSendLoop_follows 200) sfpRecvLoop_follows (fun _ _ _ => rfl) (fun _ _ _ _ => rfl)
    .w64 [] [] [11, 22, 33, 44, 55] (fun _ => 0) 2 1000 1000 (by decide) (by decide) (by decide)
    (by decide)).2.1

end Libcsp
