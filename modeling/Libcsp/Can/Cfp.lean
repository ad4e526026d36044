import Libcsp.Base.BitField

/- The layout of CAN identifiers in libcsp's CAN fragmentation protocol. -/
namespace Libcsp.Cfp
open Sys

def hostBits : UInt32 := 5
def typeBits : UInt32 := 1
def remainBits : UInt32 := 8
def idBits : UInt32 := 10

def hostMask : UInt32 := (1 <<< hostBits) - 1
def dstShift : UInt32 := typeBits + remainBits + idBits
def srcShift : UInt32 := hostBits + typeBits + remainBits + idBits

def broadcastAddr : UInt8 := hostMask.toUInt8

def makeDst (dst : UInt8) : UInt32 := (dst.toUInt32 &&& hostMask) <<< dstShift

def makeSrc (src : UInt8) : UInt32 := (src.toUInt32 &&& hostMask) <<< srcShift

def dst (id : UInt32) : UInt8 := ((id >>> dstShift) &&& hostMask).toUInt8

def src (id : UInt32) : UInt8 := ((id >>> srcShift) &&& hostMask).toUInt8

/-- Source, destination, fragment flag, remaining fragments and connection. -/
def widths : List Nat := [hostBits.toNat, hostBits.toNat, typeBits.toNat, remainBits.toNat, idBits.toNat]

/-- The fields behind the two addresses. -/
def restWidths : List Nat := [typeBits.toNat, remainBits.toNat, idBits.toNat]

theorem hostMask_toNat : hostMask.toNat = 2 ^ 5 - 1 := rfl

theorem masked_toNat (a : UInt8) : (a.toUInt32 &&& hostMask).toNat = a.toNat % 32 := by
  rw [UInt32.toNat_and, hostMask_toNat, Nat.and_two_pow_sub_one_eq_mod, UInt8.toNat_toUInt32]

theorem makeDst_toNat (d : UInt8) : (makeDst d).toNat = d.toNat % 32 * 2 ^ 19 := by
  have shift : dstShift.toNat % 32 = 19 := rfl
  rw [makeDst, UInt32.toNat_shiftLeft, masked_toNat, shift, Nat.shiftLeft_eq]
  omega

theorem makeSrc_toNat (s : UInt8) : (makeSrc s).toNat = s.toNat % 32 * 2 ^ 24 := by
  have shift : srcShift.toNat % 32 = 24 := rfl
  rw [makeSrc, UInt32.toNat_shiftLeft, masked_toNat, shift, Nat.shiftLeft_eq]
  omega

theorem dst_toNat (id : UInt32) : (dst id).toNat = id.toNat / 2 ^ 19 % 32 := by
  have shift : dstShift.toNat % 32 = 19 := rfl
  rw [dst, UInt32.toNat_toUInt8, UInt32.toNat_and, hostMask_toNat, Nat.and_two_pow_sub_one_eq_mod,
    UInt32.toNat_shiftRight, shift, Nat.shiftRight_eq_div_pow]
  omega

theorem src_toNat (id : UInt32) : (src id).toNat = id.toNat / 2 ^ 24 % 32 := by
  have shift : srcShift.toNat % 32 = 24 := rfl
  rw [src, UInt32.toNat_toUInt8, UInt32.toNat_and, hostMask_toNat, Nat.and_two_pow_sub_one_eq_mod,
    UInt32.toNat_shiftRight, shift, Nat.shiftRight_eq_div_pow]
  omega

/-- The parts of an identifier share no bits. -/
theorem compose_toNat {s d : UInt8} {rest : UInt32} (small : rest.toNat < 2 ^ 19) :
    (makeSrc s ||| makeDst d ||| rest).toNat = s.toNat % 32 * 2 ^ 24 + d.toNat % 32 * 2 ^ 19 + rest.toNat := by
  have middle : d.toNat % 32 * 2 ^ 19 < 2 ^ 24 := by omega
  have high := Nat.shiftLeft_add_eq_or_of_lt middle (s.toNat % 32)
  have both : s.toNat % 32 * 2 ^ 24 + d.toNat % 32 * 2 ^ 19 = (s.toNat % 32 * 32 + d.toNat % 32) * 2 ^ 19 := by omega
  have low := Nat.shiftLeft_add_eq_or_of_lt small (s.toNat % 32 * 32 + d.toNat % 32)
  rw [Nat.shiftLeft_eq] at high low
  rw [UInt32.toNat_or, UInt32.toNat_or, makeSrc_toNat, makeDst_toNat, ← high, both, low]

/-- The values of the fields of an identifier. -/
def fields (s d : UInt8) (rest : UInt32) : List Nat :=
  s.toNat % 32 :: d.toNat % 32 :: BitField.unpack restWidths rest.toNat

theorem fields_fit (s d : UInt8) (rest : UInt32) : BitField.Fits widths (fields s d rest) :=
  .cons (Nat.mod_lt _ (by decide)) (.cons (Nat.mod_lt _ (by decide)) (BitField.unpack_fits restWidths rest.toNat))

theorem compose_pack {s d : UInt8} {rest : UInt32} (small : rest.toNat < 2 ^ 19) :
    (makeSrc s ||| makeDst d ||| rest).toNat = BitField.pack widths (fields s d rest) := by
  have lower : BitField.pack restWidths (BitField.unpack restWidths rest.toNat) = rest.toNat := by
    rw [BitField.pack_unpack]
    exact Nat.mod_eq_of_lt small
  rw [compose_toNat small, Nat.add_assoc, ← lower]
  rfl

theorem unpack_addresses (id : UInt32) :
    BitField.unpack widths id.toNat = (src id).toNat :: (dst id).toNat :: BitField.unpack restWidths id.toNat := by
  rw [src_toNat, dst_toNat]
  rfl

/-- What the layout of an identifier is good for. -/
structure Layout : Prop where
  /-- Every part is where the layout says, and can be read back. -/
  reads : ∀ s d rest, rest.toNat < 2 ^ 19 → (makeSrc s ||| makeDst d ||| rest).toNat < 2 ^ 29 ∧
    BitField.unpack widths (makeSrc s ||| makeDst d ||| rest).toNat = fields s d rest
  addresses : ∀ s d rest, rest.toNat < 2 ^ 19 →
    (src (makeSrc s ||| makeDst d ||| rest)).toNat = s.toNat % 32 ∧
      (dst (makeSrc s ||| makeDst d ||| rest)).toNat = d.toNat % 32
  /-- The bits of a word that are not part of the identifier are not looked at. -/
  extended : ∀ id flags : UInt32, flags.toNat % 2 ^ 29 = 0 → src (id ||| flags) = src id ∧ dst (id ||| flags) = dst id
  whole : ∀ id : UInt32, id.toNat < 2 ^ 29 →
    id = makeSrc (src id) ||| makeDst (dst id) ||| UInt32.ofNat (id.toNat % 2 ^ 19)
  /-- On the bus, where the lowest identifier goes first, it is the fields that count, the source
  before all others. -/
  arbitration : ∀ s d s' d' rest rest', rest.toNat < 2 ^ 19 → rest'.toNat < 2 ^ 19 →
    ((makeSrc s ||| makeDst d ||| rest) < (makeSrc s' ||| makeDst d' ||| rest') ↔ fields s d rest < fields s' d' rest')
  /-- Sources that differ in their five bits never send with the same identifier. -/
  apart : ∀ s d s' d' rest rest', rest.toNat < 2 ^ 19 → rest'.toNat < 2 ^ 19 → s.toNat % 32 ≠ s'.toNat % 32 →
    (makeSrc s ||| makeDst d ||| rest) ≠ (makeSrc s' ||| makeDst d' ||| rest')
  /-- Every address that ends in five ones is the broadcast address of the bus. -/
  broadcast : ∀ d, makeDst d = makeDst broadcastAddr ↔ d.toNat % 32 = 31

theorem reads {s d : UInt8} {rest : UInt32} (small : rest.toNat < 2 ^ 19) :
    (makeSrc s ||| makeDst d ||| rest).toNat < 2 ^ 29 ∧
      BitField.unpack widths (makeSrc s ||| makeDst d ||| rest).toNat = fields s d rest := by
  have fits := fields_fit s d rest
  rw [compose_pack small]
  exact ⟨BitField.pack_lt fits, BitField.unpack_pack fits⟩

theorem cfp_layout : Layout where
  reads _ _ _ small := reads small
  addresses s d rest small := by
    have parts := (reads (s := s) (d := d) small).2
    rw [unpack_addresses, fields, List.cons.injEq, List.cons.injEq] at parts
    exact ⟨parts.1, parts.2.1⟩
  extended id flags outside := by
    have low : (id ||| flags).toNat % 2 ^ 29 = id.toNat % 2 ^ 29 := by
      rw [UInt32.toNat_or, Nat.or_mod_two_pow, outside, Nat.or_zero]
    have same : BitField.unpack widths (id ||| flags).toNat = BitField.unpack widths id.toNat := by
      rw [← BitField.unpack_mod widths _ 29 (Nat.le_refl _), low, BitField.unpack_mod widths _ 29 (Nat.le_refl _)]
    rw [unpack_addresses, unpack_addresses, List.cons.injEq, List.cons.injEq] at same
    exact ⟨UInt8.toNat_inj.mp same.1, UInt8.toNat_inj.mp same.2.1⟩
  whole id small := by
    have rest : (UInt32.ofNat (id.toNat % 2 ^ 19)).toNat = id.toNat % 2 ^ 19 := by
      rw [UInt32.toNat_ofNat']
      omega
    apply UInt32.toNat_inj.mp
    rw [compose_toNat (by omega), rest, src_toNat, dst_toNat]
    omega
  arbitration s d s' d' rest rest' small small' := by
    rw [UInt32.lt_iff_toNat_lt, compose_pack small, compose_pack small']
    exact BitField.pack_lt_pack_iff (fields_fit s d rest) (fields_fit s' d' rest')
  apart s d s' d' rest rest' small small' differ := by
    intro same
    have parts := (reads small).2.symm.trans ((congrArg (fun id => BitField.unpack widths id.toNat) same).trans (reads small').2)
    exact differ (List.cons.inj parts).1
  broadcast d := by
    have ones : (makeDst broadcastAddr).toNat = 31 * 2 ^ 19 := makeDst_toNat broadcastAddr
    rw [← UInt32.toNat_inj, ones, makeDst_toNat]
    omega

end Libcsp.Cfp
