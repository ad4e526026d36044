import Libcsp.Sfp.Callbacks

namespace Libcsp
open Sys

variable {σ : Type}

/-- The bytes that `ptr` and `len` stand for. -/
def SendCtx.blob (ctx : SendCtx σ) : List UInt8 := ctx.ptr.read 0 ctx.len.toNat

/-- One call of `read_cb` that keeps to the blob: a request inside it is copied and
reported, any other refused before anything is done. -/
def KeepsToBlob (onProgress : σ → UInt32 → UInt32 → Bool × σ) (ctx : SendCtx σ) (size offset : UInt32) : Prop :=
  let stop := offset.toNat + size.toNat
  let answer := onProgress ctx.progress (UInt32.ofNat stop) ctx.len
  (stop ≤ ctx.len.toNat → readCb onProgress ctx size offset =
    { ret := if answer.1 then cspErrNone else cspErrAborted
      buffer := some ((ctx.blob.drop offset.toNat).take size.toNat)
      ctx := { ctx with progress := answer.2 } }) ∧
  (ctx.len.toNat < stop → readCb onProgress ctx size offset = { ret := cspErrInval, buffer := none, ctx })

theorem RawPtr.read_drop_take (ptr : RawPtr) {len offset size : Nat} (inside : offset + size ≤ len) :
    ((ptr.read 0 len).drop offset).take size = ptr.read offset size := by
  apply List.ext_getElem?
  intro i
  rw [List.getElem?_take, List.getElem?_drop, RawPtr.read_getElem?, RawPtr.read_getElem?, Nat.zero_add]
  split
  · rw [if_pos (by omega)]
  · rfl

theorem readCb_inside {onProgress : σ → UInt32 → UInt32 → Bool × σ} {ctx : SendCtx σ} {size offset : UInt32}
    (inside : offset.toNat + size.toNat ≤ ctx.len.toNat) :
    readCb onProgress ctx size offset =
      { ret := if (onProgress ctx.progress (UInt32.ofNat (offset.toNat + size.toNat)) ctx.len).1 then cspErrNone
          else cspErrAborted
        buffer := some ((ctx.blob.drop offset.toNat).take size.toNat)
        ctx := { ctx with
          progress := (onProgress ctx.progress (UInt32.ofNat (offset.toNat + size.toNat)) ctx.len).2 } } := by
  have small : offset.toNat + size.toNat < 2 ^ 32 := Nat.lt_of_le_of_lt inside ctx.len.toNat_lt
  have stop : saturatingAdd offset size = UInt32.ofNat (offset.toNat + size.toNat) := by
    rw [← UInt32.toNat_inj, saturatingAdd_toNat, asU32_toNat small]
    omega
  have allowed : ¬ ctx.len < UInt32.ofNat (offset.toNat + size.toNat) := by
    rw [UInt32.lt_iff_toNat_lt, asU32_toNat small]
    omega
  rw [SendCtx.blob, RawPtr.read_drop_take _ inside]
  unfold readCb
  rw [stop, if_neg allowed]
  generalize onProgress ctx.progress (UInt32.ofNat (offset.toNat + size.toNat)) ctx.len = answer
  obtain ⟨agreed, progress⟩ := answer
  cases agreed <;> rfl

/-- A request beyond the blob is refused unless its end saturates to the blob's length. -/
theorem readCb_outside_iff {onProgress : σ → UInt32 → UInt32 → Bool × σ} {ctx : SendCtx σ} {size offset : UInt32}
    (outside : ctx.len.toNat < offset.toNat + size.toNat) :
    readCb onProgress ctx size offset = { ret := cspErrInval, buffer := none, ctx } ↔
      ¬ (ctx.len.toNat = 2 ^ 32 - 1 ∧ 2 ^ 32 ≤ offset.toNat + size.toNat) := by
  have guard : ctx.len < saturatingAdd offset size ↔
      ¬ (ctx.len.toNat = 2 ^ 32 - 1 ∧ 2 ^ 32 ≤ offset.toNat + size.toNat) := by
    have bound := ctx.len.toNat_lt
    rw [UInt32.lt_iff_toNat_lt, saturatingAdd_toNat]
    omega
  rw [← guard]
  constructor
  · intro refused
    by_contra passes
    have stored := congrArg ReadReturn.buffer refused
    unfold readCb at stored
    rw [if_neg passes] at stored
    dsimp only at stored
    split at stored <;> exact nomatch stored
  · intro caught
    unfold readCb
    rw [if_pos caught]

/-- `read_cb` keeps to the blob exactly when the saturated end cannot be taken for the
end of a blob of the largest length. -/
theorem read_cb_keeps_to_blob_iff (onProgress : σ → UInt32 → UInt32 → Bool × σ) (ctx : SendCtx σ)
    (size offset : UInt32) :
    KeepsToBlob onProgress ctx size offset ↔
      ¬ (ctx.len.toNat = 2 ^ 32 - 1 ∧ 2 ^ 32 ≤ offset.toNat + size.toNat) := by
  constructor
  · rintro ⟨-, refuses⟩ saturates
    exact (readCb_outside_iff (by omega)).mp (refuses (by omega)) saturates
  · intro condition
    exact ⟨readCb_inside, fun outside => (readCb_outside_iff outside).mpr condition⟩

/-- One byte asked for at the very end of a blob of `u32::MAX` bytes is copied. -/
theorem byte_behind_blob_copied :
    ¬ KeepsToBlob (fun seen sent total => (true, seen ++ [(sent, total)])) ⟨fun _ => 0, 0xFFFFFFFF, []⟩ 1 0xFFFFFFFF := by
  rintro ⟨-, refuses⟩
  have refused := congrArg ReadReturn.ret (refuses (by decide))
  exact nomatch refused

end Libcsp
