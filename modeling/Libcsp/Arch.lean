import Libcsp.Base.MachineInt
import Libcsp.Base.Overwrite

namespace Libcsp
open Sys

def waitForever : UInt32 := 0xFFFFFFFF

/-- The shims of `export_arch!` turn `true` into 0 and `false` into -1. -/
def shimCode (ok : Bool) : Int := if ok then 0 else -1

/-- Memory behind an item pointer: at least one item long, as the C contract asks. -/
structure Buffer (itemSize : Nat) where
  bytes : List UInt8
  enough : itemSize ≤ bytes.length

def Buffer.item {itemSize : Nat} (buf : Buffer itemSize) : List UInt8 := buf.bytes.take itemSize

@[simp] theorem Buffer.item_length {itemSize : Nat} (buf : Buffer itemSize) : buf.item.length = itemSize := by
  simp [Buffer.item, buf.enough]

def Buffer.store {itemSize : Nat} (buf : Buffer itemSize) (xs : List UInt8) (fits : xs.length ≤ itemSize) :
    Buffer itemSize where
  bytes := overwrite buf.bytes 0 xs
  enough := by
    have enough := buf.enough
    rw [overwrite_length (by omega)]
    exact enough

theorem Buffer.store_item {itemSize : Nat} {buf : Buffer itemSize} {xs : List UInt8} (whole : xs.length = itemSize) :
    (buf.store xs (Nat.le_of_eq whole)).item = xs := by
  have enough := buf.enough
  have copied := @overwrite_take _ buf.bytes xs 0 (by omega)
  simpa only [Buffer.item, Buffer.store, List.take_zero, List.nil_append, Nat.zero_add, whole] using copied

theorem Buffer.store_frame {itemSize : Nat} {buf : Buffer itemSize} {xs : List UInt8} (fits : xs.length ≤ itemSize) :
    (buf.store xs fits).bytes.drop itemSize = buf.bytes.drop itemSize := by
  simp only [Buffer.store, overwrite, List.take_zero, List.nil_append, Nat.zero_add, List.drop_append,
    List.drop_drop, List.drop_eq_nil_of_le fits, Nat.add_sub_cancel' fits]

/-- The queue methods of `CspArch` that only look, with the default of
`queue_free_slots`. -/
structure CspArchQueue (w : PointerWidth) (κ : Type) where
  queueSize : κ → Nat
  queueFreeSlots : κ → Nat := fun _ => w.usizeMax

/-- `csp_queue_create_static` over the backend's `queue_create` for one item size; the
buffer and the queue slot are ignored. -/
def cspQueueCreateStatic {κ : Nat → Type} (queueCreate : (length : Nat) → Option (κ length)) (length : Int) :
    Option (κ length.toNat) :=
  if length ≤ 0 then none else queueCreate length.toNat

def cspQueueSize {w : PointerWidth} {κ : Type} (arch : CspArchQueue w κ) (queue : κ) : Int :=
  asI32 (arch.queueSize queue)

/-- `csp_queue_free`, capped to the C return type. -/
def cspQueueFree {w : PointerWidth} {κ : Type} (arch : CspArchQueue w κ) (queue : κ) : Int :=
  if i32Max < arch.queueFreeSlots queue then i32Max else asI32 (arch.queueFreeSlots queue)

theorem cspQueueCreateStatic_some {κ : Nat → Type} {queueCreate : (length : Nat) → Option (κ length)}
    {length : Int} {queue : κ length.toNat} (created : cspQueueCreateStatic queueCreate length = some queue) :
    0 < length ∧ queueCreate length.toNat = some queue := by
  unfold cspQueueCreateStatic at created
  split at created
  · exact nomatch created
  · exact ⟨by omega, created⟩

end Libcsp
