import Libcsp.Base.Text
import Libcsp.CallerSlices

namespace Libcsp
open Sys

inductive IdentField
  | hostname | model | revision | date | time
  deriving DecidableEq

/-- The layout of `csp_cmp_message` on which `ident` depends: the widths of the five
character arrays, and how far the union reaches beyond them. -/
structure CmpLayout where
  width : IdentField → Nat
  slack : Nat

namespace CmpLayout

/-- Where a field starts within the ident structure. -/
def start (layout : CmpLayout) : IdentField → Nat
  | .hostname => 0
  | .model => layout.width .hostname
  | .revision => layout.width .hostname + layout.width .model
  | .date => layout.width .hostname + layout.width .model + layout.width .revision
  | .time => layout.width .hostname + layout.width .model + layout.width .revision + layout.width .date

def identSize (layout : CmpLayout) : Nat := layout.start .time + layout.width .time

theorem field_inside (layout : CmpLayout) (field : IdentField) :
    layout.start field + layout.width field ≤ layout.identSize := by
  cases field <;> simp only [start, identSize] <;> omega

end CmpLayout

/-- A string of the source is its scalar values. -/
structure Ident where
  hostname : List Char
  model : List Char
  revision : List Char
  date : List Char
  time : List Char
  deriving DecidableEq

def Ident.ofFields (text : IdentField → List Char) : Ident where
  hostname := text .hostname
  model := text .model
  revision := text .revision
  date := text .date
  time := text .time

/-- `csp_cmp`: node, timeout, code and size; the return code and the bytes it stores from
the start of the message on. -/
abbrev CspCmp := UInt16 → UInt32 → UInt8 → Int → CTransaction

def cspCmpIdent : UInt8 := 1

/-- What can be read from the start of the ident structure on: the zeroed message with
the stored bytes in it, less its type and code, then whatever lies behind it. -/
def identMemory (layout : CmpLayout) (written beyond : List UInt8) : List UInt8 :=
  (overwrite (List.replicate (2 + layout.identSize + layout.slack) 0) 0 written ++ beyond).drop 2

/-- `CStr::from_ptr(ident.<field>.as_ptr()).to_string_lossy()`. The pointer carries no
length. -/
def CmpLayout.readField (layout : CmpLayout) (memory : List UInt8) (field : IdentField) : Option (List Char) :=
  (cString (memory.drop (layout.start field))).map fromUtf8Lossy

/-- `CspNode::ident`; `none` if a scan leaves the memory that can be read. -/
def CspNode.ident (layout : CmpLayout) (cspCmp : CspCmp) (beyond : List UInt8) (node : UInt16)
    (timeout : UInt32) : Option (Except CspError Ident) :=
  let size := 2 + layout.identSize
  let call := cspCmp node timeout cspCmpIdent (asI32 size)
  let memory := identMemory layout call.written beyond
  if call.ret = 0 then do
    let hostname ← layout.readField memory .hostname
    let model ← layout.readField memory .model
    let revision ← layout.readField memory .revision
    let date ← layout.readField memory .date
    let time ← layout.readField memory .time
    return .ok { hostname, model, revision, date, time }
  else some (.error (CspError.fromCode call.ret))

/-- The peer's reply, copied unmodified into the message. -/
def CopiesReply (layout : CmpLayout) (cspCmp : CspCmp) (node : UInt16) (timeout : UInt32)
    (ident : List UInt8) : Prop :=
  ident.length = layout.identSize ∧ ∃ type code,
    cspCmp node timeout cspCmpIdent (asI32 (2 + layout.identSize)) = ⟨0, type :: code :: ident⟩

def CmpLayout.fieldBytes (layout : CmpLayout) (ident : List UInt8) (field : IdentField) : List UInt8 :=
  (ident.drop (layout.start field)).take (layout.width field)

/-- The field's own bytes up to its first NUL, or all of them. -/
def CmpLayout.fieldText (layout : CmpLayout) (ident : List UInt8) (field : IdentField) : List Char :=
  fromUtf8Lossy ((layout.fieldBytes ident field).takeWhile (· ≠ 0))

theorem CspNode.ident_of_reads {layout : CmpLayout} {cspCmp : CspCmp} {beyond : List UInt8} {node : UInt16}
    {timeout : UInt32} {text : IdentField → List Char}
    (returned : (cspCmp node timeout cspCmpIdent (asI32 (2 + layout.identSize))).ret = 0)
    (reads : ∀ field, layout.readField (identMemory layout
      (cspCmp node timeout cspCmpIdent (asI32 (2 + layout.identSize))).written beyond) field = some (text field)) :
    CspNode.ident layout cspCmp beyond node timeout = some (.ok (Ident.ofFields text)) := by
  simp only [CspNode.ident, returned, if_true, reads]
  rfl

theorem identMemory_copied {layout : CmpLayout} {ident : List UInt8} (size : ident.length = layout.identSize)
    (type code : UInt8) (beyond : List UInt8) :
    identMemory layout (type :: code :: ident) beyond =
      ident ++ (List.replicate layout.slack 0 ++ beyond) := by
  have drop : 0 + (type :: code :: ident).length = 2 + layout.identSize := by
    simp only [List.length_cons, size]
    omega
  have left : 2 + layout.identSize + layout.slack - (2 + layout.identSize) = layout.slack := by omega
  rw [identMemory, overwrite, drop, List.drop_replicate, left]
  simp

/-- Every field holds a NUL, or a NUL follows it: in the next field or behind the structure. -/
def FieldsEnd (layout : CmpLayout) (ident beyond : List UInt8) : Prop :=
  ∀ field, 0 ∈ layout.fieldBytes ident field ∨
    (ident ++ (List.replicate layout.slack 0 ++ beyond))[layout.start field + layout.width field]? = some 0

/-- The strings are those of the fields, and no byte outside a field went into one. -/
structure DecodesOwnFields (layout : CmpLayout) (cspCmp : CspCmp) (beyond : List UInt8) (node : UInt16)
    (timeout : UInt32) (ident : List UInt8) : Prop where
  decoded : CspNode.ident layout cspCmp beyond node timeout = some (.ok (Ident.ofFields (layout.fieldText ident)))
  contained : ∀ field, ∃ bytes, cString ((identMemory layout
      (cspCmp node timeout cspCmpIdent (asI32 (2 + layout.identSize))).written beyond).drop (layout.start field)) =
        some bytes ∧ bytes.length ≤ layout.width field

section
variable {layout : CmpLayout} {ident beyond : List UInt8} {field : IdentField}

theorem take_field (size : ident.length = layout.identSize) (after : List UInt8) :
    ((ident ++ after).drop (layout.start field)).take (layout.width field) = layout.fieldBytes ident field := by
  have inside := layout.field_inside field
  rw [CmpLayout.fieldBytes, List.drop_append_of_le_length (by omega), List.take_append_of_le_length]
  rw [List.length_drop]
  omega

/-- The byte behind the field counts: it ends the string without being part of it. -/
theorem nul_within_iff (size : ident.length = layout.identSize) (after : List UInt8) :
    0 ∈ ((ident ++ after).drop (layout.start field)).take (layout.width field + 1) ↔
      0 ∈ layout.fieldBytes ident field ∨ (ident ++ after)[layout.start field + layout.width field]? = some 0 := by
  rw [List.take_add_one, List.mem_append, take_field size, List.getElem?_drop, Option.mem_toList]

end

section
variable {layout : CmpLayout} {cspCmp : CspCmp} {node : UInt16} {timeout : UInt32} {ident : List UInt8}

theorem CopiesReply.memory (copies : CopiesReply layout cspCmp node timeout ident) (beyond : List UInt8) :
    identMemory layout (cspCmp node timeout cspCmpIdent (asI32 (2 + layout.identSize))).written beyond =
      ident ++ (List.replicate layout.slack 0 ++ beyond) := by
  obtain ⟨size, type, code, returned⟩ := copies
  rw [returned]
  exact identMemory_copied size type code beyond

theorem FieldsEnd.decodes (copies : CopiesReply layout cspCmp node timeout ident) {beyond : List UInt8}
    (ends : FieldsEnd layout ident beyond) : DecodesOwnFields layout cspCmp beyond node timeout ident := by
  have size := copies.1
  have found : ∀ field, cString ((ident ++ (List.replicate layout.slack 0 ++ beyond)).drop (layout.start field)) =
      some ((layout.fieldBytes ident field).takeWhile (· ≠ 0)) := by
    intro field
    rw [cString_of_mem_take ((nul_within_iff size _).mpr (ends field)), take_field size]
  refine ⟨?_, ?_⟩
  · have returned : (cspCmp node timeout cspCmpIdent (asI32 (2 + layout.identSize))).ret = 0 := by
      obtain ⟨_, type, code, returned⟩ := copies
      rw [returned]
    refine CspNode.ident_of_reads returned ?_
    intro field
    rw [copies.memory, CmpLayout.readField, found]
    rfl
  · intro field
    rw [copies.memory]
    refine ⟨_, found field, ?_⟩
    calc ((layout.fieldBytes ident field).takeWhile (· ≠ 0)).length
        ≤ (layout.fieldBytes ident field).length := (List.takeWhile_sublist _).length_le
      _ ≤ layout.width field := List.length_take_le _ _

theorem ident_decodes_own_fields_iff (copies : CopiesReply layout cspCmp node timeout ident)
    (beyond : List UInt8) :
    DecodesOwnFields layout cspCmp beyond node timeout ident ↔ FieldsEnd layout ident beyond := by
  refine ⟨?_, fun ends => ends.decodes copies⟩
  intro decodes field
  obtain ⟨bytes, found, short⟩ := decodes.contained field
  rw [copies.memory] at found
  exact (nul_within_iff copies.1 _).mp (mem_take_of_cString found short)

end

/-- Of 20, 30, 20, 12 and 9 bytes; the union is as large as its `peek` member. -/
def libcspLayout : CmpLayout where
  width
    | .hostname => 20
    | .model => 30
    | .revision => 20
    | .date => 12
    | .time => 9
  slack := 114

/-- A text in a field: its UTF-8, then zeros up to the field's width. -/
def padded (width : Nat) (text : List Char) : List UInt8 :=
  let bytes := text.flatMap String.utf8EncodeChar
  bytes ++ List.replicate (width - bytes.length) 0

/-- The ident structure of a node that terminates its strings. -/
def CmpLayout.identOf (layout : CmpLayout) (text : IdentField → List Char) : List UInt8 :=
  let field := fun field => padded (layout.width field) (text field)
  field .hostname ++ (field .model ++ (field .revision ++ (field .date ++ field .time)))

section
variable {layout : CmpLayout} {text : IdentField → List Char}
  (fits : ∀ field, ((text field).flatMap String.utf8EncodeChar).length < layout.width field)
include fits

theorem padded_length (field : IdentField) : (padded (layout.width field) (text field)).length = layout.width field := by
  have shorter := fits field
  simp only [padded, List.length_append, List.length_replicate]
  omega

theorem fieldBytes_identOf (field : IdentField) :
    layout.fieldBytes (layout.identOf text) field = padded (layout.width field) (text field) := by
  have length := padded_length fits
  have skip : ∀ field (rest : List UInt8),
      (padded (layout.width field) (text field) ++ rest).drop (layout.width field) = rest :=
    fun field rest => List.drop_left' (length field)
  have front : ∀ field (rest : List UInt8),
      (padded (layout.width field) (text field) ++ rest).take (layout.width field) =
        padded (layout.width field) (text field) :=
    fun field rest => List.take_left' (length field)
  have whole : ∀ field, (padded (layout.width field) (text field)).take (layout.width field) =
      padded (layout.width field) (text field) :=
    fun field => List.take_of_length_le (Nat.le_of_eq (length field))
  cases field <;>
    simp only [CmpLayout.fieldBytes, CmpLayout.identOf, CmpLayout.start, List.drop_zero, ← List.drop_drop,
      skip, front, whole]

/-- A node that terminates its strings is read as it describes itself. -/
theorem ident_of_terminated_texts (noNul : ∀ field, ∀ x ∈ text field, x ≠ Char.ofNat 0) {cspCmp : CspCmp}
    {node : UInt16} {timeout : UInt32} (copies : CopiesReply layout cspCmp node timeout (layout.identOf text))
    (beyond : List UInt8) :
    CspNode.ident layout cspCmp beyond node timeout = some (.ok (Ident.ofFields text)) := by
  have ends : FieldsEnd layout (layout.identOf text) beyond := by
    intro field
    have shorter := fits field
    left
    rw [fieldBytes_identOf fits, padded]
    exact List.mem_append_right _ (List.mem_replicate.mpr ⟨by omega, rfl⟩)
  have own : layout.fieldText (layout.identOf text) = text := by
    funext field
    have plain := zero_not_mem_encode (noNul field)
    rw [CmpLayout.fieldText, fieldBytes_identOf fits, padded, takeWhile_append_zeros plain, fromUtf8Lossy_encode]
  have decoded := (ends.decodes copies).decoded
  rw [own] at decoded
  exact decoded

end

/-- A peer that answers the request with `ident`. -/
def answering (ident : List UInt8) : CspCmp := fun _ _ code _ => ⟨0, 0xFF :: code :: ident⟩

theorem answering_copies {layout : CmpLayout} {ident : List UInt8} (size : ident.length = layout.identSize)
    (node : UInt16) (timeout : UInt32) : CopiesReply layout (answering ident) node timeout ident :=
  ⟨size, 0xFF, cspCmpIdent, rfl⟩

def fullHostname : List UInt8 :=
  List.replicate 20 0x61 ++ (0x62 :: List.replicate 29 0) ++ List.replicate 41 0

/-- A hostname that fills its field: the model number is read as part of it. -/
theorem hostname_runs_into_model :
    (CspNode.ident libcspLayout (answering fullHostname) [] 1 1000).map (fun result => result.map (·.hostname)) =
        some (.ok (List.replicate 20 'a' ++ ['b'])) ∧
      libcspLayout.fieldText fullHostname .hostname = List.replicate 20 'a' := by
  decide

def fullTime : List UInt8 := List.replicate 82 0 ++ List.replicate 9 0x39

/-- The last field may fill its width: the union is zero behind it. -/
theorem ident_decodes_own_fields_full_time :
    DecodesOwnFields libcspLayout (answering fullTime) [] 1 1000 fullTime := by
  refine (ident_decodes_own_fields_iff (answering_copies (by decide) 1 1000) []).mpr ?_
  intro field
  cases field <;> decide

end Libcsp
