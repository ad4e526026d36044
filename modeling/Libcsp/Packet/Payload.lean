import Libcsp.Base.Machine
import Libcsp.Base.Overwrite

namespace Libcsp
open Sys

/-- `csp_id_t`. -/
structure CspId where
  pri : UInt8
  flags : UInt8
  src : UInt16
  dst : UInt16
  dport : UInt8
  sport : UInt8
  deriving DecidableEq, Repr

/-- The part of a `csp_packet_t` that `Packet` reads and writes. The buffer has the
capacity of the build; nothing relates the `length` field to it. -/
structure CspPacket (bufferSize : UInt32) where
  id : CspId
  length : UInt16
  buf : List UInt8
  sized : buf.length = bufferSize.toNat

namespace CspPacket

variable {bufferSize : UInt32}

/-- What `Packet::get` makes of a buffer of the pool. -/
def zeroed (bufferSize : UInt32) : CspPacket bufferSize where
  id := ⟨0, 0, 0, 0, 0, 0⟩
  length := 0
  buf := List.replicate bufferSize.toNat 0
  sized := List.length_replicate

def setLength (p : CspPacket bufferSize) (len : UInt16) : CspPacket bufferSize :=
  { p with length := UInt16.ofNat (min len.toNat bufferSize.toNat) }

/-- `Packet::data`, and the bytes visible through `Packet::data_mut`. -/
def data (p : CspPacket bufferSize) : List UInt8 := p.buf.take (min p.length.toNat bufferSize.toNat)

/-- Storing through a mutable view that starts at the first byte. -/
def store (p : CspPacket bufferSize) (bytes : List UInt8) (fits : bytes.length ≤ bufferSize.toNat) :
    CspPacket bufferSize :=
  { p with
    buf := overwrite p.buf 0 bytes
    sized := by rw [overwrite_length (by rw [p.sized]; omega), p.sized] }

/-- `Packet::data_mut`, with what the caller makes of the bytes it is shown. -/
def dataMut (p : CspPacket bufferSize) (bytes : List UInt8) (whole : bytes.length = p.data.length) :
    CspPacket bufferSize :=
  p.store bytes (by rw [whole, data, List.length_take]; omega)

def dataBufMut (p : CspPacket bufferSize) (bytes : List UInt8) (whole : bytes.length = bufferSize.toNat) :
    CspPacket bufferSize :=
  p.store bytes (Nat.le_of_eq whole)

/-- `Packet::write` of a release build. -/
def write (p : CspPacket bufferSize) (bytes : List UInt8) : Except Nat Unit × CspPacket bufferSize :=
  if tooLong : bufferSize.toNat < bytes.length then (.error bytes.length, p)
  else (.ok (), (p.store bytes (Nat.le_of_not_lt tooLong)).setLength (UInt16.ofNat bytes.length))

theorem data_length (p : CspPacket bufferSize) : p.data.length = min p.length.toNat bufferSize.toNat := by
  rw [data, List.length_take, p.sized]
  omega

theorem setLength_toNat (p : CspPacket bufferSize) (len : UInt16) :
    (p.setLength len).length.toNat = min len.toNat bufferSize.toNat := by
  have small := len.toNat_lt
  exact UInt16.toNat_ofNat_of_lt' (by rw [UInt16.size]; omega)

/-- `data()` is the used part of the buffer, whatever `length` says. -/
structure InBuffer (p : CspPacket bufferSize) : Prop where
  length : p.data.length = min p.length.toNat bufferSize.toNat
  inside : p.data <+: p.buf

theorem inBuffer (p : CspPacket bufferSize) : p.InBuffer := ⟨p.data_length, List.take_prefix _ _⟩

theorem store_setLength_data {p : CspPacket bufferSize} {bytes : List UInt8} (fits : bytes.length ≤ bufferSize.toNat)
    (len : UInt16) (same : len.toNat = bytes.length) : ((p.store bytes fits).setLength len).data = bytes := by
  have room : 0 + bytes.length ≤ p.buf.length := by rw [p.sized]; omega
  have taken := overwrite_take room
  rw [List.take_zero, List.nil_append, Nat.zero_add] at taken
  rw [data, setLength_toNat, same, Nat.min_eq_left fits, Nat.min_eq_left fits]
  exact taken

/-- The bytes written are the bytes read as long as `as u16` keeps their number. -/
theorem write_data_iff {p : CspPacket bufferSize} {bytes : List UInt8} (fits : bytes.length ≤ bufferSize.toNat) :
    (p.write bytes).2.data = bytes ↔ bytes.length ≤ 65535 := by
  rw [write, dif_neg (Nat.not_lt.mpr fits)]
  constructor
  · intro same
    have length := congrArg List.length same
    have cast := (UInt16.ofNat bytes.length).toNat_lt
    rw [data_length, setLength_toNat] at length
    omega
  · intro small
    exact store_setLength_data fits _ (UInt16.toNat_ofNat_of_lt' (by rw [UInt16.size]; omega))

theorem write_ok_iff (p : CspPacket bufferSize) (bytes : List UInt8) :
    (p.write bytes).1 = .ok () ↔ bytes.length ≤ bufferSize.toNat := by
  unfold write
  split
  · rename_i tooLong
    exact iff_of_false (by simp) (Nat.not_le.mpr tooLong)
  · rename_i fits
    exact iff_of_true rfl (Nat.le_of_not_lt fits)

theorem write_refused {p : CspPacket bufferSize} {bytes : List UInt8} {len : Nat}
    (refused : (p.write bytes).1 = .error len) : (p.write bytes).2 = p := by
  have tooLong : ¬ bytes.length ≤ bufferSize.toNat := by
    rw [← p.write_ok_iff, refused]
    simp
  rw [write, dif_pos (Nat.lt_of_not_le tooLong)]

theorem write_id (p : CspPacket bufferSize) (bytes : List UInt8) : (p.write bytes).2.id = p.id := by
  unfold write
  split <;> rfl

/-- What happens to a packet: the methods of `Packet`, with what the caller stored through
a mutable view, and C storing a length. -/
inductive Update
  | write (bytes : List UInt8) (result : Except Nat Unit)
  | setLength (len : UInt16)
  | dataMut (bytes : List UInt8)
  | dataBufMut (bytes : List UInt8)
  | storedByC (len : UInt16)

inductive Step : CspPacket bufferSize → Update → CspPacket bufferSize → Prop
  | write (p bytes) : Step p (.write bytes (p.write bytes).1) (p.write bytes).2
  | setLength (p len) : Step p (.setLength len) (p.setLength len)
  | dataMut (p bytes whole) : Step p (.dataMut bytes) (p.dataMut bytes whole)
  | dataBufMut (p bytes whole) : Step p (.dataBufMut bytes) (p.dataBufMut bytes whole)
  | storedByC (p len) : Step p (.storedByC len) { p with length := len }

def machine (start : CspPacket bufferSize) : Machine (CspPacket bufferSize) Update := ⟨start, Step⟩

/-- The laws of a payload, for one update. -/
structure Law (before : CspPacket bufferSize) (update : Update) (after : CspPacket bufferSize) : Prop where
  accepts : ∀ bytes result, update = .write bytes result → (result = .ok () ↔ bytes.length ≤ bufferSize.toNat)
  stores : ∀ bytes, update = .write bytes (.ok ()) → after.data = bytes
  refuses : ∀ bytes len, update = .write bytes (.error len) → after = before
  view : after.InBuffer
  clamps : ∀ len, update = .setLength len → after.length.toNat ≤ bufferSize.toNat
  header : after.id = before.id

/-- What fits the buffer also has a length that fits the `length` field. -/
def Update.keepsCount (bufferSize : UInt32) : Update → Prop
  | .write bytes _ => bytes.length ≤ bufferSize.toNat → bytes.length ≤ 65535
  | _ => True

theorem Law.of_no_write {before after : CspPacket bufferSize} {update : Update}
    (other : ∀ bytes result, update ≠ .write bytes result)
    (clamps : ∀ len, update = .setLength len → after.length.toNat ≤ bufferSize.toNat)
    (header : after.id = before.id) : Law before update after where
  accepts bytes result same := absurd same (other bytes result)
  stores bytes same := absurd same (other bytes _)
  refuses bytes _ same := absurd same (other bytes _)
  view := after.inBuffer
  clamps := clamps
  header := header

theorem law_iff {before after : CspPacket bufferSize} {update : Update} (taken : Step before update after) :
    Law before update after ↔ update.keepsCount bufferSize := by
  cases taken with
  | write bytes =>
    constructor
    · intro law fits
      have accepted := (before.write_ok_iff bytes).mpr fits
      exact (write_data_iff fits).mp (law.stores bytes (by rw [accepted]))
    · intro small
      refine ⟨?_, ?_, ?_, inBuffer _, ?_, before.write_id bytes⟩
      · intro other result same
        cases same
        exact before.write_ok_iff bytes
      · intro other same
        obtain ⟨rfl, accepted⟩ := Update.write.inj same
        have fits := (before.write_ok_iff bytes).mp accepted
        exact (write_data_iff fits).mpr (small fits)
      · intro other len same
        obtain ⟨rfl, refused⟩ := Update.write.inj same
        exact write_refused refused
      · intro len same
        cases same
  | setLength len =>
    have clamped := before.setLength_toNat len
    exact iff_of_true (.of_no_write (by simp) (fun _ _ => by omega) rfl) trivial
  | dataMut bytes whole => exact iff_of_true (.of_no_write (by simp) (by simp) rfl) trivial
  | dataBufMut bytes whole => exact iff_of_true (.of_no_write (by simp) (by simp) rfl) trivial
  | storedByC len => exact iff_of_true (.of_no_write (by simp) (by simp) rfl) trivial

/-- From any packet, over any updates: the laws hold at every step exactly when each write
that fits the buffer has at most 65535 bytes. -/
theorem payload_laws_iff (start p : CspPacket bufferSize) (tr : List Update) :
    start.InBuffer ∧ (((machine start).obey Law).Run tr p ↔
      (machine start).Run tr p ∧ ∀ bytes result, Update.write bytes result ∈ tr →
        bytes.length ≤ bufferSize.toNat → bytes.length ≤ 65535) := by
  rw [Machine.obey_run_iff law_iff]
  refine ⟨start.inBuffer, and_congr_right fun _ => ⟨?_, ?_⟩⟩
  · intro keeps bytes result member
    exact keeps _ member
  · intro keeps update member
    cases update with
    | write bytes result => exact keeps bytes result member
    | _ => trivial

/-- With a capacity of 65536 a payload that fills the buffer is stored, reported as
written, and read back as empty. -/
theorem full_payload_reads_empty :
    let p := zeroed 65536
    let bytes : List UInt8 := List.replicate 65536 7
    (machine p).Run [.write bytes (.ok ())] (p.write bytes).2 ∧ (p.write bytes).2.data = [] ∧
      ¬ ((machine p).obey Law).Run [.write bytes (.ok ())] (p.write bytes).2 := by
  intro p bytes
  have length : bytes.length = 65536 := List.length_replicate
  have fits : bytes.length ≤ (65536 : UInt32).toNat := by rw [length]; decide
  have accepted := (p.write_ok_iff bytes).mpr fits
  have step : Step p (.write bytes (.ok ())) (p.write bytes).2 := accepted ▸ Step.write p bytes
  refine ⟨.next .start step, ?_, ?_⟩
  · rw [← List.length_eq_zero_iff, data_length, write, dif_neg (Nat.not_lt.mpr fits), setLength_toNat, length]
    decide
  · intro lawful
    have keeps := ((Machine.obey_run_iff law_iff).mp lawful).2 _ (List.mem_singleton_self _)
    have small : bytes.length ≤ 65535 := keeps fits
    omega

end CspPacket

end Libcsp
