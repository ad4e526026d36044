import Libcsp.Base.MachineInt
import Libcsp.Base.Overwrite
import Libcsp.Error

namespace Libcsp
open Sys

/-- Memory behind a `*const u8`: the byte found at each offset. Nothing in the
type says how much of it belongs to the object pointed to. -/
abbrev RawPtr := Nat → UInt8

def RawPtr.read (p : RawPtr) (offset size : Nat) : List UInt8 :=
  (List.range size).map fun i => p (offset + i)

theorem RawPtr.read_length (p : RawPtr) (offset size : Nat) : (p.read offset size).length = size := by
  rw [RawPtr.read, List.length_map, List.length_range]

theorem RawPtr.read_getElem? (p : RawPtr) (offset size i : Nat) :
    (p.read offset size)[i]? = if i < size then some (p (offset + i)) else none := by
  rw [RawPtr.read, List.getElem?_map]
  split
  · rename_i inside
    rw [List.getElem?_range inside, Option.map_some]
  · rename_i outside
    rw [List.getElem?_eq_none (by rw [List.length_range]; omega), Option.map_none]

/-- `data.as_ptr()`. Past its end the slice is followed by memory `beyond`
that the slice does not own. -/
def asPtr (data : List UInt8) (beyond : RawPtr) : RawPtr :=
  fun i => (data[i]?).getD (beyond i)

theorem asPtr_read {data : List UInt8} {beyond : RawPtr} {offset size : Nat}
    (fits : offset + size ≤ data.length) :
    (asPtr data beyond).read offset size = (data.drop offset).take size := by
  apply List.ext_getElem
  · simp only [RawPtr.read, List.length_map, List.length_range, List.length_take, List.length_drop]
    omega
  · intro i left right
    simp only [RawPtr.read, List.length_map, List.length_range] at left
    have inside : offset + i < data.length := by omega
    simp only [RawPtr.read, asPtr, List.getElem_map, List.getElem_range, List.getElem_take,
      List.getElem_drop, List.getElem?_eq_getElem inside, Option.getD_some]

/-- The context of `read_cb`. An `FnMut` closure is its code, passed separately,
and the state it has captured. -/
structure SendCtx (σ : Type) where
  ptr : RawPtr
  len : UInt32
  progress : σ

/-- What an SFP read callback leaves behind. `buffer` is `none` when it returned
without storing anything in the caller's buffer. -/
structure ReadReturn (κ : Type) where
  ret : Int
  buffer : Option (List UInt8)
  ctx : κ

/-- `read_cb` of `Connection::sfp_send_with_progress`. The bytes are copied
before the progress closure is asked. -/
def readCb {σ : Type} (onProgress : σ → UInt32 → UInt32 → Bool × σ) (ctx : SendCtx σ)
    (size offset : UInt32) : ReadReturn (SendCtx σ) :=
  let stop := saturatingAdd offset size
  if ctx.len < stop then { ret := cspErrInval, buffer := none, ctx }
  else
    let copied := ctx.ptr.read offset.toNat size.toNat
    let answer := onProgress ctx.progress stop ctx.len
    if !answer.1 then
      { ret := cspErrAborted, buffer := some copied, ctx := { ctx with progress := answer.2 } }
    else { ret := cspErrNone, buffer := some copied, ctx := { ctx with progress := answer.2 } }

structure VecCtx (σ : Type) where
  buf : List UInt8
  progress : σ

/-- `write_cb` of `Connection::sfp_recv_with_progress`. The buffer is sized by
the first call that announces a total; growing the `Vec` is taken to succeed. -/
def writeCb {σ : Type} (w : PointerWidth) (onProgress : σ → UInt32 → UInt32 → List UInt8 → Bool × σ)
    (ctx : VecCtx σ) (buffer : RawPtr) (size offset totalsz : UInt32) : Int × VecCtx σ :=
  let ctx := if ctx.buf.isEmpty ∧ 0 < totalsz then
    { ctx with buf := List.replicate totalsz.toNat 0 } else ctx
  match checkedAdd w offset.toNat size.toNat with
  | none => (cspErrInval, ctx)
  | some stop =>
    if ctx.buf.length < stop then (cspErrInval, ctx)
    else
      let buf := overwrite ctx.buf offset.toNat (buffer.read 0 size.toNat)
      let answer := onProgress ctx.progress (UInt32.ofNat stop) totalsz (buf.take stop)
      (if !answer.1 then cspErrAborted else cspErrNone, { buf, progress := answer.2 })

end Libcsp
