import Libcsp.Sfp.Callbacks

namespace Libcsp
open Sys

inductive Priority
  | critical | high | norm | low
  deriving DecidableEq, Repr

def Priority.toU8 : Priority → UInt8
  | .critical => 0
  | .high => 1
  | .norm => 2
  | .low => 3

/-- What a `csp_transaction_*` call does to its caller: the return value and the
bytes it stores from the `in` pointer on. -/
structure CTransaction where
  ret : Int
  written : List UInt8
  deriving DecidableEq, Repr

/-- The C side of an exchange in which `reply` is what came back, if anything
did. A reply of a length the caller accepts is copied whole; otherwise nothing
is stored and, unless no reply was asked for, no count is returned. -/
structure RepliesWith (reply : Option (List UInt8)) (inLen : Int) (call : CTransaction) : Prop where
  copied : ∀ bytes, reply = some bytes → inLen ≠ 0 → (inLen = -1 ∨ inLen = bytes.length) →
    call = ⟨bytes.length, bytes⟩
  nothing : (∀ bytes, reply = some bytes → inLen ≠ 0 → ¬ (inLen = -1 ∨ inLen = bytes.length)) →
    call.written = [] ∧ (inLen ≠ 0 → call.ret ≤ 0)

/-- `csp_transaction_persistent`: timeout, out pointer and length, `inlen`. -/
abbrev CspTransactionPersistent := UInt32 → RawPtr → Int → Int → CTransaction

/-- `csp_transaction_w_opts`: priority, destination, port, timeout, out pointer
and length, `inlen`, options. -/
abbrev CspTransactionWOpts :=
  UInt8 → UInt16 → UInt8 → UInt32 → RawPtr → Int → Int → UInt32 → CTransaction

/-- The result, the caller's slice after the call, and the bytes that landed
beyond the end of that slice. -/
structure TransactionOutcome where
  result : Except CspError Nat
  inBuf : List UInt8
  past : List UInt8

def transactionResult (ret inLen : Int) : Except CspError Nat :=
  if (ret = 1 ∧ inLen = 0) ∨ (ret = 0 ∧ inLen = 0) then .ok 0
  else if 0 < ret then .ok ret.toNat
  else .error .transmitFailed

def transactionOutcome (call : CTransaction) (inBuf : List UInt8) (inLen : Int) : TransactionOutcome where
  result := transactionResult call.ret inLen
  inBuf := call.written.take inBuf.length ++ inBuf.drop call.written.length
  past := call.written.drop inBuf.length

/-- `Connection::transaction`. The slices travel as bare pointers and `in_len`
is passed on as the caller gave it. -/
def Connection.transaction (cspTransactionPersistent : CspTransactionPersistent) (timeout : UInt32)
    (outBuf : List UInt8) (beyond : RawPtr) (inBuf : List UInt8) (inLen : Int) : TransactionOutcome :=
  transactionOutcome
    (cspTransactionPersistent timeout (asPtr outBuf beyond) (asI32 outBuf.length) inLen) inBuf inLen

def CspNode.transaction (cspTransactionWOpts : CspTransactionWOpts) (prio : Priority) (dst : UInt16)
    (dstPort : UInt8) (timeout : UInt32) (outBuf : List UInt8) (beyond : RawPtr) (inBuf : List UInt8)
    (inLen : Int) (opts : UInt32) : TransactionOutcome :=
  transactionOutcome
    (cspTransactionWOpts prio.toU8 dst dstPort timeout (asPtr outBuf beyond) (asI32 outBuf.length) inLen opts)
    inBuf inLen

/-- Nothing lands beyond the slice, and a count that is returned for a reply is
the length of that reply, now at the front of an otherwise unchanged slice. -/
def TransactionOutcome.Contained (out : TransactionOutcome) (reply : Option (List UInt8))
    (inBuf : List UInt8) (inLen : Int) : Prop :=
  out.past = [] ∧ ∀ n, out.result = .ok n → inLen ≠ 0 →
    n ≤ inBuf.length ∧ reply = some (out.inBuf.take n) ∧ out.inBuf.drop n = inBuf.drop n

def ReplyFits (reply : Option (List UInt8)) (inBuf : List UInt8) (inLen : Int) : Prop :=
  ∀ bytes, reply = some bytes → inLen ≠ 0 → (inLen = -1 ∨ inLen = bytes.length) →
    bytes.length ≤ inBuf.length

theorem transactionResult_reply {ret inLen : Int} {n : Nat} (wanted : inLen ≠ 0)
    (ok : transactionResult ret inLen = .ok n) : 0 < ret ∧ ret.toNat = n := by
  simp only [transactionResult, wanted, and_false, or_self, if_false] at ok
  split at ok
  · rename_i positive
    exact ⟨positive, Except.ok.inj ok⟩
  · exact nomatch ok

theorem transactionOutcome_contained_iff {reply : Option (List UInt8)} {inLen : Int} {call : CTransaction}
    (replies : RepliesWith reply inLen call) (inBuf : List UInt8) :
    (transactionOutcome call inBuf inLen).Contained reply inBuf inLen ↔ ReplyFits reply inBuf inLen := by
  constructor
  · rintro ⟨past, -⟩ bytes arrived wanted accepted
    rw [replies.copied bytes arrived wanted accepted] at past
    exact List.drop_eq_nil_iff.mp past
  · intro fits
    by_cases copies : ∃ bytes, reply = some bytes ∧ inLen ≠ 0 ∧ (inLen = -1 ∨ inLen = bytes.length)
    · obtain ⟨bytes, rfl, wanted, accepted⟩ := copies
      have room := fits bytes rfl wanted accepted
      rw [replies.copied bytes rfl wanted accepted]
      refine ⟨List.drop_eq_nil_iff.mpr room, ?_⟩
      intro n ok _
      obtain ⟨-, rfl⟩ := transactionResult_reply wanted ok
      simp only [transactionOutcome, Int.toNat_natCast, List.take_of_length_le room]
      exact ⟨room, by rw [List.take_left], by rw [List.drop_left]⟩
    · obtain ⟨stored, noCount⟩ := replies.nothing fun bytes arrived wanted accepted =>
        copies ⟨bytes, arrived, wanted, accepted⟩
      refine ⟨by simp [transactionOutcome, stored], ?_⟩
      intro n ok wanted
      have positive := (transactionResult_reply wanted ok).1
      exact absurd (noCount wanted) (by omega)

structure CanRxCall where
  id : UInt32
  data : RawPtr
  dlc : UInt8
  timestamp : UInt32

/-- `csp_can_rx`, by the offsets from the data pointer at which it reads. -/
abbrev CspCanRx := CanRxCall → List Nat

def CspCanRx.ReadsDlc (cspCanRx : CspCanRx) : Prop :=
  ∀ call, cspCanRx call = List.range call.dlc.toNat

def CanInterfaceHandle.feedRxTs (cspCanRx : CspCanRx) (id : UInt32) (data : List UInt8) (beyond : RawPtr)
    (dlc : UInt8) (timestamp : UInt32) : List Nat :=
  cspCanRx { id, data := asPtr data beyond, dlc, timestamp }

def CanInterfaceHandle.feedRx (cspCanRx : CspCanRx) (id : UInt32) (data : List UInt8) (beyond : RawPtr)
    (dlc : UInt8) : List Nat :=
  feedRxTs cspCanRx id data beyond dlc 0

theorem CanInterfaceHandle.feedRxTs_inside_iff {cspCanRx : CspCanRx} (reads : cspCanRx.ReadsDlc)
    (id : UInt32) (data : List UInt8) (beyond : RawPtr) (dlc : UInt8) (timestamp : UInt32) :
    (∀ i ∈ feedRxTs cspCanRx id data beyond dlc timestamp, i < data.length) ↔ dlc.toNat ≤ data.length := by
  rw [feedRxTs, reads]
  simp only [List.mem_range]
  constructor
  · intro inside
    by_contra beyondEnd
    exact Nat.lt_irrefl _ (inside data.length (by omega))
  · intro short i below
    omega

/-- Exactly when the safe wrappers keep C inside the caller's slices: the reply
that `in_len` lets through fits `in_buf`, and `dlc` does not exceed `data`. -/
theorem caller_slices_respected_iff {reply : Option (List UInt8)}
    {cspTransactionPersistent : CspTransactionPersistent} {cspTransactionWOpts : CspTransactionWOpts}
    {cspCanRx : CspCanRx}
    (persistent : ∀ timeout outBuf outLen inLen,
      RepliesWith reply inLen (cspTransactionPersistent timeout outBuf outLen inLen))
    (oneShot : ∀ prio dst dstPort timeout outBuf outLen inLen opts,
      RepliesWith reply inLen (cspTransactionWOpts prio dst dstPort timeout outBuf outLen inLen opts))
    (reads : cspCanRx.ReadsDlc) (prio : Priority) (dst : UInt16) (dstPort : UInt8) (timeout opts : UInt32)
    (outBuf inBuf : List UInt8) (beyond : RawPtr) (inLen : Int)
    (id : UInt32) (data : List UInt8) (dlc : UInt8) (timestamp : UInt32) :
    ((Connection.transaction cspTransactionPersistent timeout outBuf beyond inBuf inLen).Contained
        reply inBuf inLen ↔ ReplyFits reply inBuf inLen) ∧
      ((CspNode.transaction cspTransactionWOpts prio dst dstPort timeout outBuf beyond inBuf inLen
        opts).Contained reply inBuf inLen ↔ ReplyFits reply inBuf inLen) ∧
      ((∀ i ∈ CanInterfaceHandle.feedRx cspCanRx id data beyond dlc, i < data.length) ↔
        dlc.toNat ≤ data.length) ∧
      ((∀ i ∈ CanInterfaceHandle.feedRxTs cspCanRx id data beyond dlc timestamp, i < data.length) ↔
        dlc.toNat ≤ data.length) :=
  ⟨transactionOutcome_contained_iff (persistent _ _ _ _) inBuf,
    transactionOutcome_contained_iff (oneShot _ _ _ _ _ _ _ _) inBuf,
    CanInterfaceHandle.feedRxTs_inside_iff reads id data beyond dlc 0,
    CanInterfaceHandle.feedRxTs_inside_iff reads id data beyond dlc timestamp⟩

def replyTransaction (reply : Option (List UInt8)) (inLen : Int) : CTransaction :=
  match reply with
  | none => ⟨if inLen = 0 then 1 else 0, []⟩
  | some bytes =>
    if inLen = 0 then ⟨1, []⟩
    else if inLen = -1 ∨ inLen = bytes.length then ⟨bytes.length, bytes⟩ else ⟨0, []⟩

theorem replyTransaction_replies (reply : Option (List UInt8)) (inLen : Int) :
    RepliesWith reply inLen (replyTransaction reply inLen) where
  copied := by
    rintro bytes rfl wanted accepted
    simp only [replyTransaction, wanted, accepted, if_false, if_true]
  nothing := by
    intro mismatch
    cases reply with
    | none => exact ⟨rfl, fun wanted => by simp [replyTransaction, wanted]⟩
    | some bytes =>
      by_cases wanted : inLen = 0
      · simp [replyTransaction, wanted]
      · simp [replyTransaction, wanted, mismatch bytes rfl wanted]

def canRxReads : CspCanRx := fun call => List.range call.dlc.toNat

theorem canRxReads_dlc : canRxReads.ReadsDlc := fun _ => rfl

theorem caller_slices_respected_iff_short_reply :
    (Connection.transaction (fun _ _ _ inLen => replyTransaction (some [7, 8]) inLen) 1000 [] (fun _ => 0)
      [0, 0, 0, 0] (-1)).Contained (some [7, 8]) [0, 0, 0, 0] (-1) :=
  (caller_slices_respected_iff (fun _ _ _ _ => replyTransaction_replies _ _)
    (fun _ _ _ _ _ _ inLen _ => replyTransaction_replies _ inLen)
    canRxReads_dlc .norm 2 12 1000 0 [] [0, 0, 0, 0]
    (fun _ => 0) (-1) 0 [] 0 0).1.mpr (by rintro bytes ⟨⟩ _ _; decide)

/-- A peer that answers with three bytes where two were offered, `in_len = -1`:
C stores the third byte past the slice and the call reports success. A frame
announced as eight bytes is read past a slice of two. -/
theorem caller_slice_overrun :
    RepliesWith (some [1, 2, 3]) (-1) (replyTransaction (some [1, 2, 3]) (-1)) ∧
      ¬ (Connection.transaction (fun _ _ _ inLen => replyTransaction (some [1, 2, 3]) inLen) 1000 [9]
        (fun _ => 0) [0, 0] (-1)).Contained (some [1, 2, 3]) [0, 0] (-1) ∧
      ¬ (CspNode.transaction (fun _ _ _ _ _ _ inLen _ => replyTransaction (some [1, 2, 3]) inLen) .norm 2 12
        1000 [9] (fun _ => 0) [0, 0] (-1) 0).Contained (some [1, 2, 3]) [0, 0] (-1) ∧
      ¬ ∀ i ∈ CanInterfaceHandle.feedRx canRxReads 5 [1, 2] (fun _ => 0) 8,
        i < [(1 : UInt8), 2].length := by
  refine ⟨replyTransaction_replies _ _, ?_, ?_, by decide⟩
  · rintro ⟨past, -⟩
    revert past
    decide
  · rintro ⟨past, -⟩
    revert past
    decide

end Libcsp
