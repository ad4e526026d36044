import Libcsp.CallerSlices
import Libcsp.Sfp.Transfer

namespace Libcsp
open Sys

/-- A wrapper around one C function, up to the call: it panics, it returns an error
without calling, or it calls and turns the return value into its result. -/
inductive Exchange (Q R α : Type)
  | panicked
  | refused (e : CspError)
  | called (request : Q) (finish : R → Except CspError α)

variable {Q R α σ : Type}

/-- What the caller sees if `c` is the C function; `none` is a panic. -/
def Exchange.run (c : Q → R) : Exchange Q R α → Option (Except CspError α)
  | .panicked => none
  | .refused e => some (.error e)
  | .called request finish => some (finish (c request))

/-- Each length that C is told is the length of the slice, if C is called at all. -/
structure Exchange.Honest (lengths : Q → List Int) (n : Nat) (exchange : Exchange Q R α) : Prop where
  noPanic : exchange ≠ .panicked
  told : ∀ request finish, exchange = .called request finish → ∀ length ∈ lengths request, length = n

structure SfpSendRequest (σ : Type) where
  ctx : SendCtx σ
  total : UInt32
  mtu : UInt32
  timeout : UInt32

def SfpSendRequest.lengths (request : SfpSendRequest σ) : List Int :=
  [(request.total.toNat : Int), (request.ctx.len.toNat : Int)]

def Connection.sfpSendExchange (progress : σ) (data : List UInt8) (beyond : RawPtr) (mtu timeout : UInt32) :
    Exchange (SfpSendRequest σ) (SfpSendReturn (SendCtx σ)) Unit :=
  .called
    { ctx := { ptr := asPtr data beyond, len := UInt32.ofNat data.length, progress }
      total := UInt32.ofNat data.length
      mtu
      timeout }
    fun out => if out.ret = cspErrNone then .ok () else .error (CspError.fromCode out.ret)

theorem Connection.sfpSendExchange_run (cspSfpSend : CspSfpSend (SendCtx σ))
    (onProgress : σ → UInt32 → UInt32 → Bool × σ) (progress : σ) (data : List UInt8) (beyond : RawPtr)
    (mtu timeout : UInt32) :
    (sfpSendExchange progress data beyond mtu timeout).run
        (fun request => cspSfpSend (readCb onProgress) request.ctx request.total request.mtu request.timeout) =
      some (sfpSendWithProgress cspSfpSend onProgress progress data beyond mtu timeout).result := rfl

structure PersistentRequest where
  timeout : UInt32
  outBuf : RawPtr
  outLen : Int
  inLen : Int

def Connection.transactionExchange (timeout : UInt32) (outBuf : List UInt8) (beyond : RawPtr) (inLen : Int) :
    Exchange PersistentRequest CTransaction Nat :=
  .called ⟨timeout, asPtr outBuf beyond, asI32 outBuf.length, inLen⟩ fun call => transactionResult call.ret inLen

theorem Connection.transactionExchange_run (cspTransactionPersistent : CspTransactionPersistent) (timeout : UInt32)
    (outBuf inBuf : List UInt8) (beyond : RawPtr) (inLen : Int) :
    (transactionExchange timeout outBuf beyond inLen).run
        (fun request => cspTransactionPersistent request.timeout request.outBuf request.outLen request.inLen) =
      some (transaction cspTransactionPersistent timeout outBuf beyond inBuf inLen).result := by
  simp only [Exchange.run, transactionExchange, transaction, transactionOutcome]

structure WOptsRequest extends PersistentRequest where
  prio : UInt8
  dst : UInt16
  dstPort : UInt8
  opts : UInt32

def CspNode.transactionExchange (prio : Priority) (dst : UInt16) (dstPort : UInt8) (timeout : UInt32)
    (outBuf : List UInt8) (beyond : RawPtr) (inLen : Int) (opts : UInt32) : Exchange WOptsRequest CTransaction Nat :=
  .called ⟨⟨timeout, asPtr outBuf beyond, asI32 outBuf.length, inLen⟩, prio.toU8, dst, dstPort, opts⟩
    fun call => transactionResult call.ret inLen

theorem CspNode.transactionExchange_run (cspTransactionWOpts : CspTransactionWOpts) (prio : Priority) (dst : UInt16)
    (dstPort : UInt8) (timeout : UInt32) (outBuf inBuf : List UInt8) (beyond : RawPtr) (inLen : Int) (opts : UInt32) :
    (transactionExchange prio dst dstPort timeout outBuf beyond inLen opts).run (fun request =>
        cspTransactionWOpts request.prio request.dst request.dstPort request.timeout request.outBuf request.outLen
          request.inLen request.opts) =
      some (transaction cspTransactionWOpts prio dst dstPort timeout outBuf beyond inBuf inLen opts).result := by
  simp only [Exchange.run, transactionExchange, transaction, transactionOutcome]

/-- `CSP_CMP_POKE_MAX_LEN`, which is also the size of the array `data` of a poke message.
Its `len` field is a `u8`. -/
structure PokeLayout where
  maxLen : UInt32
  byte : maxLen.toNat ≤ 255

structure PokeMessage where
  addr : UInt32
  len : UInt8
  data : List UInt8

structure CmpRequest where
  node : UInt16
  timeout : UInt32
  code : UInt8
  size : Int
  msg : PokeMessage

def cspCmpPoke : UInt8 := 5

/-- The loop of `poke` that fills the array, from index `i` on. Indexing past the end of
the array panics. -/
def fillArray : List UInt8 → Nat → List UInt8 → Option (List UInt8)
  | array, _, [] => some array
  | array, i, b :: rest => if i < array.length then fillArray (array.set i b) (i + 1) rest else none

def CspNode.poke (layout : PokeLayout) (node : UInt16) (address : UInt32) (data : List UInt8) (timeout : UInt32) :
    Exchange CmpRequest Int Unit :=
  if layout.maxLen < UInt32.ofNat data.length then .refused .invalidArgument
  else
    match fillArray (List.replicate layout.maxLen.toNat 0) 0 data with
    | none => .panicked
    | some array =>
      .called ⟨node, timeout, cspCmpPoke, asI32 (2 + 4 + 1 + data.length),
          { addr := address, len := UInt8.ofNat data.length, data := array }⟩
        fun ret => if ret = 0 then .ok () else .error (CspError.fromCode ret)

/-- The payload length, and the size of the message less its header. -/
def CmpRequest.lengths (request : CmpRequest) : List Int :=
  [(request.msg.len.toNat : Int), request.size - (2 + 4 + 1)]

theorem fillArray_isSome_iff {array data : List UInt8} {i : Nat} (inside : i ≤ array.length) :
    (fillArray array i data).isSome = true ↔ i + data.length ≤ array.length := by
  induction data generalizing array i with
  | nil => simpa [fillArray] using inside
  | cons b rest ih =>
    unfold fillArray
    split
    · rename_i below
      rw [ih (by rw [List.length_set]; omega), List.length_set, List.length_cons]
      omega
    · rename_i full
      rw [List.length_cons]
      exact iff_of_false (by simp) (by omega)

theorem Exchange.honest_called_iff {lengths : Q → List Int} {n : Nat} {request : Q} {finish : R → Except CspError α} :
    (Exchange.called request finish).Honest lengths n ↔ ∀ length ∈ lengths request, length = n := by
  constructor
  · intro honest
    exact honest.told request finish rfl
  · intro told
    refine ⟨by simp, ?_⟩
    intro other finish' same
    cases same
    exact told

theorem asU32_eq_iff {n : Nat} : (UInt32.ofNat n).toNat = n ↔ n < 2 ^ 32 := by
  constructor
  · intro same
    rw [← same]
    exact (UInt32.ofNat n).toNat_lt
  · exact asU32_toNat

theorem Connection.sfpSend_honest_iff (progress : σ) (data : List UInt8) (beyond : RawPtr) (mtu timeout : UInt32) :
    (sfpSendExchange progress data beyond mtu timeout).Honest SfpSendRequest.lengths data.length ↔
      data.length < 2 ^ 32 := by
  rw [sfpSendExchange, Exchange.honest_called_iff, ← asU32_eq_iff]
  simp only [SfpSendRequest.lengths, List.mem_cons, List.not_mem_nil, or_false, or_self, forall_eq, Int.natCast_inj]

theorem fillArray_eq_none {array data : List UInt8} (long : array.length < data.length) :
    fillArray array 0 data = none := by
  rw [← Option.not_isSome_iff_eq_none, fillArray_isSome_iff (Nat.zero_le _)]
  omega

/-- A slice too long for the array, of which the check sees a short remainder. -/
theorem CspNode.poke_panics {layout : PokeLayout} {data : List UInt8} (long : layout.maxLen.toNat < data.length)
    (wraps : data.length % 2 ^ 32 ≤ layout.maxLen.toNat) (node : UInt16) (address timeout : UInt32) :
    poke layout node address data timeout = .panicked := by
  have passes : ¬ layout.maxLen < UInt32.ofNat data.length := by
    rw [UInt32.lt_iff_toNat_lt, UInt32.toNat_ofNat']
    omega
  rw [poke, if_neg passes, fillArray_eq_none (by rwa [List.length_replicate])]

theorem CspNode.poke_told {layout : PokeLayout} {data : List UInt8} (fits : data.length ≤ layout.maxLen.toNat)
    (node : UInt16) (address timeout : UInt32) :
    (poke layout node address data timeout).Honest CmpRequest.lengths data.length := by
  have byte := layout.byte
  have passes : ¬ layout.maxLen < UInt32.ofNat data.length := by
    rw [UInt32.lt_iff_toNat_lt, UInt32.toNat_ofNat']
    omega
  have filled : (fillArray (List.replicate layout.maxLen.toNat 0) 0 data).isSome = true := by
    rw [fillArray_isSome_iff (Nat.zero_le _), List.length_replicate]
    omega
  obtain ⟨array, filled⟩ := Option.isSome_iff_exists.mp filled
  have len : (UInt8.ofNat data.length).toNat = data.length := UInt8.toNat_ofNat_of_lt' (by rw [UInt8.size]; omega)
  have size : asI32 (2 + 4 + 1 + data.length) = ((2 + 4 + 1 + data.length : Nat) : Int) :=
    asI32_of_le (by unfold i32Max; omega)
  rw [poke, if_neg passes, filled]
  rw [Exchange.honest_called_iff]
  simp only [CmpRequest.lengths, len, size, List.mem_cons, List.not_mem_nil, or_false, forall_eq_or_imp, forall_eq,
    true_and]
  omega

theorem CspNode.poke_honest_iff (layout : PokeLayout) (node : UInt16) (address : UInt32) (data : List UInt8)
    (timeout : UInt32) :
    (poke layout node address data timeout).Honest CmpRequest.lengths data.length ↔
      data.length ≤ layout.maxLen.toNat ∨ layout.maxLen.toNat < data.length % 2 ^ 32 := by
  by_cases fits : data.length ≤ layout.maxLen.toNat
  · exact iff_of_true (poke_told fits node address timeout) (.inl fits)
  by_cases seen : layout.maxLen.toNat < data.length % 2 ^ 32
  · have refuses : layout.maxLen < UInt32.ofNat data.length := by
      rw [UInt32.lt_iff_toNat_lt, UInt32.toNat_ofNat']
      exact seen
    rw [poke, if_pos refuses]
    exact iff_of_true ⟨by simp, by simp⟩ (.inr seen)
  · rw [poke_panics (by omega) (by omega)]
    exact iff_of_false (fun honest => honest.noPanic rfl) (by omega)

def PersistentRequest.lengths (request : PersistentRequest) : List Int := [request.outLen]

def WOptsRequest.lengths (request : WOptsRequest) : List Int := [request.outLen]

theorem Connection.transaction_honest_iff (timeout : UInt32) (outBuf : List UInt8) (beyond : RawPtr) (inLen : Int) :
    (transactionExchange timeout outBuf beyond inLen).Honest PersistentRequest.lengths outBuf.length ↔
      outBuf.length ≤ i32Max := by
  rw [transactionExchange, Exchange.honest_called_iff, ← asI32_eq_self_iff]
  simp only [PersistentRequest.lengths, List.mem_singleton, forall_eq]

theorem CspNode.transaction_honest_iff (prio : Priority) (dst : UInt16) (dstPort : UInt8) (timeout : UInt32)
    (outBuf : List UInt8) (beyond : RawPtr) (inLen : Int) (opts : UInt32) :
    (transactionExchange prio dst dstPort timeout outBuf beyond inLen opts).Honest WOptsRequest.lengths outBuf.length ↔
      outBuf.length ≤ i32Max := by
  rw [transactionExchange, Exchange.honest_called_iff, ← asI32_eq_self_iff]
  simp only [WOptsRequest.lengths, List.mem_singleton, forall_eq]

/-- Exactly when the length of a slice reaches C unchanged, or not at all: SFP narrows it
to a `u32`, a transaction to an `i32`, and a poke checks its limit after the narrowing. -/
theorem lengths_honest_iff (progress : σ) (data : List UInt8) (beyond : RawPtr) (mtu timeout opts : UInt32)
    (layout : PokeLayout) (node dst : UInt16) (address : UInt32) (prio : Priority) (dstPort : UInt8) (inLen : Int) :
    ((Connection.sfpSendExchange progress data beyond mtu timeout).Honest SfpSendRequest.lengths data.length ↔
        data.length < 2 ^ 32) ∧
      ((CspNode.poke layout node address data timeout).Honest CmpRequest.lengths data.length ↔
        data.length ≤ layout.maxLen.toNat ∨ layout.maxLen.toNat < data.length % 2 ^ 32) ∧
      ((Connection.transactionExchange timeout data beyond inLen).Honest PersistentRequest.lengths data.length ↔
        data.length ≤ i32Max) ∧
      ((CspNode.transactionExchange prio dst dstPort timeout data beyond inLen opts).Honest WOptsRequest.lengths
        data.length ↔ data.length ≤ i32Max) :=
  ⟨Connection.sfpSend_honest_iff progress data beyond mtu timeout,
    CspNode.poke_honest_iff layout node address data timeout,
    Connection.transaction_honest_iff timeout data beyond inLen,
    CspNode.transaction_honest_iff prio dst dstPort timeout data beyond inLen opts⟩

/-- A slice of 2^32 + 1 bytes, sent over SFP, is one byte to C and success to the caller;
poked, it passes the limit and panics. A transaction of 2^31 bytes passes a negative
length. -/
theorem long_slices_shortened :
    let data : List UInt8 := List.replicate (2 ^ 32 + 1) 0
    let request : List UInt8 := List.replicate (2 ^ 31) 0
    let sent := sfpSendWithProgress sfpSendLoop (fun _ _ _ => (true, ())) () data (fun _ => 0) 200 1000
    sent.result = .ok () ∧ (sent.sent.map fun fragment => fragment.bytes.length).sum = 1 ∧
      ¬ (Connection.sfpSendExchange () data (fun _ => 0) 200 1000).Honest SfpSendRequest.lengths data.length ∧
      CspNode.poke ⟨200, by decide⟩ 5 0 data 1000 = .panicked ∧
      (∃ finish, Connection.transactionExchange 1000 request (fun _ => 0) 0 =
        .called ⟨1000, asPtr request fun _ => 0, -2147483648, 0⟩ finish) ∧
      ¬ (Connection.transactionExchange 1000 request (fun _ => 0) 0).Honest PersistentRequest.lengths request.length ∧
      ¬ (CspNode.transactionExchange .norm 5 12 1000 request (fun _ => 0) 0 0).Honest WOptsRequest.lengths
        request.length := by
  intro data request sent
  have dataLength : data.length = 2 ^ 32 + 1 := List.length_replicate
  have requestLength : request.length = 2 ^ 31 := List.length_replicate
  have total : UInt32.ofNat data.length = 1 := by rw [dataLength]; rfl
  have wrapped : asI32 (2 ^ 31) = -2147483648 := by decide
  have oneByte (ptr : RawPtr) : sfpSendLoop (readCb fun _ _ _ => (true, ())) ⟨ptr, 1, ()⟩ 1 200 1000 =
      ⟨cspErrNone, ⟨ptr, 1, ()⟩, [⟨0, 1, [ptr 0]⟩]⟩ := rfl
  refine ⟨?_, ?_, ?_, ?_, ?_, ?_, ?_⟩
  · simp only [sent, sfpSendWithProgress, total, oneByte, if_true]
  · simp only [sent, sfpSendWithProgress, total, oneByte, List.map_cons, List.map_nil, List.length_singleton,
      List.sum_singleton]
  · rw [Connection.sfpSend_honest_iff, dataLength]
    decide
  · have short : (PokeLayout.mk 200 (by decide)).maxLen.toNat = 200 := rfl
    exact CspNode.poke_panics (by rw [short, dataLength]; decide) (by rw [short, dataLength]; decide) 5 0 1000
  · exact ⟨_, by rw [Connection.transactionExchange, requestLength, wrapped]⟩
  · rw [Connection.transaction_honest_iff, requestLength]
    decide
  · rw [CspNode.transaction_honest_iff, requestLength]
    decide

end Libcsp
