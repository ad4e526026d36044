import Libcsp.Base.Cursor
import Libcsp.Base.Text
import Libcsp.Ffi.Shims

namespace Libcsp.Registry
open Sys

/-- What the untyped pointers of an interface can point to: a box that a registration has
leaked, the CAN data within one, or something of C's own. -/
inductive Pointer
  | null
  | interfaceState (box : Nat)
  | canInterfaceInner (box : Nat)
  | canData (box : Nat)
  | foreign (n : Nat)

/-- The functions behind `nexthop`: the shim, the CAN layer of libcsp, any other. -/
inductive Nexthop
  | nexthopShim
  | cspCanTx
  | foreign (n : Nat)

/-- The fields of `csp_iface_t` that the wrappers read or write. A name is the memory that
can be read from where it points. -/
structure CspIface where
  name : Option (List UInt8)
  addr : UInt16
  nexthop : Option Nexthop
  interfaceData : Pointer
  driverData : Pointer

def CspIface.zeroed : CspIface := ⟨none, 0, none, .null, .null⟩

/-- Memory that stays for good: what `Box::leak` leaves, and the interfaces of C itself. -/
inductive Leaked (ι κ : Type)
  | interfaceState (userIface : ι) (cIface : CspIface)
  | canInterfaceInner (driver : κ) (cIface : CspIface) (txFunc : Bool)
  | foreign (cIface : CspIface)

variable {τ ι κ π ρ : Type}

def Leaked.cIface : Leaked ι κ → CspIface
  | .interfaceState _ iface => iface
  | .canInterfaceInner _ iface _ => iface
  | .foreign iface => iface

/-- The boxes in the order in which they were made, and libcsp's list of interfaces. -/
structure Store (ι κ : Type) where
  boxes : List (Leaked ι κ)
  list : List Nat

def Store.iface (s : Store ι κ) (i : Nat) : Option CspIface := (s.boxes[i]?).map Leaked.cIface

/-- The list functions of libcsp. Adding an interface puts it at the end, or leaves the list
alone, as with a name that is taken. -/
structure Lib where
  cspIflistAdd : (Nat → Option CspIface) → List Nat → Nat → List Nat
  cspCanAddInterface : (Nat → Option CspIface) → List Nat → Nat → Int × List Nat
  cspIflistGetByName : (Nat → Option CspIface) → List Nat → List UInt8 → Option Nat
  adds : ∀ ifaces list new, cspIflistAdd ifaces list new = list ∨ cspIflistAdd ifaces list new = list ++ [new]
  canAdds : ∀ ifaces list new, let call := cspCanAddInterface ifaces list new
    call.2 = list ∨ call.1 = 0 ∧ call.2 = list ++ [new]
  gets : ∀ ifaces list name i, cspIflistGetByName ifaces list name = some i → i ∈ list

/-- `CString::new`. -/
def cStringNew (text : List Char) : Option (List UInt8) :=
  let bytes := text.flatMap String.utf8EncodeChar
  if 0 ∈ bytes then none else some (bytes ++ [0])

def registeredIface (cName : List UInt8) (state : Nat) : CspIface :=
  { CspIface.zeroed with name := some cName, nexthop := some .nexthopShim, interfaceData := .interfaceState state }

/-- `interface::register`; `none` when `unwrap` panics. -/
def register (lib : Lib) (s : Store ι κ) (interface : ι) (name : List Char) : Option (Nat × Store ι κ) := do
  let cName ← cStringNew name
  let state := s.boxes.length
  let leaked : Store ι κ := { s with boxes := s.boxes ++ [.interfaceState interface (registeredIface cName state)] }
  return (state, { leaked with list := lib.cspIflistAdd leaked.iface s.list state })

def canIface (cName : List UInt8) (addr : UInt16) (inner : Nat) : CspIface :=
  { CspIface.zeroed with
    name := some cName, addr := addr, driverData := .canInterfaceInner inner, interfaceData := .canData inner }

/-- `can::add_interface`. Within `csp_can_add_interface`, libcsp sets `nexthop`. -/
def addInterface (lib : Lib) (s : Store ι κ) (name : List Char) (addr : UInt16) (driver : κ) :
    Except CspError Nat × Store ι κ :=
  match cStringNew name with
  | none => (.error .invalidArgument, s)
  | some cName =>
    let inner := s.boxes.length
    let leaked : Store ι κ := { s with boxes := s.boxes ++ [.canInterfaceInner driver (canIface cName addr inner) true] }
    let call := lib.cspCanAddInterface leaked.iface s.list inner
    if call.1 ≠ 0 then (.error .driverError, leaked)
    else
      let iface := { canIface cName addr inner with nexthop := some .cspCanTx }
      (.ok inner, ⟨s.boxes ++ [.canInterfaceInner driver iface true], call.2⟩)

/-- `CStr::from_ptr(name).to_str()`, `none` if the scan leaves the memory that can be read. -/
def CspIface.readName (iface : CspIface) : Option (Option (List Char)) :=
  match iface.name with
  | none => some none
  | some memory => (cString memory).map fromUtf8

/-- `IfaceRef::name`. -/
def Store.ifaceRefName (s : Store ι κ) (i : Nat) : Option (List Char) := do
  let iface ← s.iface i
  let name ← iface.readName
  return name.getD []

/-- `iflist::lookup`. -/
def lookup (lib : Lib) (s : Store ι κ) (name : List Char) : Option Nat := do
  let cName ← cStringNew name
  lib.cspIflistGetByName s.iface s.list cName

/-- The variables of `list_names`. -/
structure Walk where
  cur : Option Nat
  names : List (List Char)

/-- One turn of the loop of `list_names`: on to the next interface, or done. -/
def listNamesTurn (s : Store ι κ) (walk : Walk) : Option (Walk ⊕ List (List Char)) :=
  match successor s.list walk.cur with
  | none => some (.inr walk.names)
  | some cur => do
    let iface ← s.iface cur
    let name ← iface.readName
    return .inl ⟨some cur, walk.names ++ name.toList⟩

/-- The cast in `nexthop_shim`. A pointer to anything else has no meaning there. -/
def Store.asInterfaceState (s : Store ι κ) : Pointer → Option (Option ι)
  | .null => some none
  | .interfaceState i =>
    match s.boxes[i]? with
    | some (.interfaceState user _) => some (some user)
    | _ => none
  | _ => none

/-- The cast in `can_tx_trampoline`. -/
def Store.asCanInterfaceInner (s : Store ι κ) : Pointer → Option (Option κ)
  | .null => some none
  | .canInterfaceInner i =>
    match s.boxes[i]? with
    | some (.canInterfaceInner driver _ _) => some (some driver)
    | _ => none
  | _ => none

/-- libcsp sends a packet out of an interface of the wrappers' own kind. -/
def Store.callNexthop (s : Store ι κ) (i : Nat) (via : UInt16) (packet : Option π) (fromMe : Int) :
    Option (Ffi.Call ι κ π ρ) := do
  let iface ← s.iface i
  match iface.nexthop with
  | some .nexthopShim => do
    let data ← s.asInterfaceState iface.interfaceData
    return .nexthopShim data via packet fromMe
  | _ => none

/-- The CAN layer sends a frame: `tx_func` of the interface's data, with its driver data. -/
def Store.callTxFunc (s : Store ι κ) (i : Nat) (id : UInt32) (data : Option RawPtr) (dlc : UInt8) :
    Option (Ffi.Call ι κ π ρ) := do
  let iface ← s.iface i
  match iface.nexthop, iface.interfaceData with
  | some .cspCanTx, .canData j =>
    match s.boxes[j]? with
    | some (.canInterfaceInner _ _ true) => do
      let driver ← s.asCanInterfaceInner iface.driverData
      return .canTxTrampoline driver id data dlc
    | _ => none
  | _, _ => none

structure State (τ ι κ : Type) where
  store : Store ι κ
  walks : τ → Option Walk

inductive Act (τ ι κ : Type)
  | registered (interface : ι) (name : List Char) (handle : Nat)
  | registerPanicked (interface : ι) (name : List Char)
  | added (name : List Char) (addr : UInt16) (driver : κ) (result : Except CspError Nat)
  | foreign (iface : CspIface)
  | lookedUp (name : List Char) (result : Option Nat)
  | listNames (t : τ)
  | turned (t : τ)
  | listed (t : τ) (names : List (List Char))

/-- A name that C gave to an interface of its own ends somewhere. -/
def CspIface.Terminated (iface : CspIface) : Prop := ∀ memory ∈ iface.name, (cString memory).isSome

section
variable [DecidableEq τ]

/-- Registrations while any number of threads are inside `list_names`. -/
inductive Step (lib : Lib) : State τ ι κ → Act τ ι κ → State τ ι κ → Prop
  | registered {s interface name handle store} : register lib s.store interface name = some (handle, store) →
      Step lib s (.registered interface name handle) { s with store := store }
  | registerPanicked {s interface name} : register lib s.store interface name = none →
      Step lib s (.registerPanicked interface name) s
  | added {s name addr driver} :
      Step lib s (.added name addr driver (addInterface lib s.store name addr driver).1)
        { s with store := (addInterface lib s.store name addr driver).2 }
  | foreign {s} {iface : CspIface} : iface.Terminated →
      Step lib s (.foreign iface) { s with
        store := ⟨s.store.boxes ++ [.foreign iface], s.store.list ++ [s.store.boxes.length]⟩ }
  | lookedUp {s name} : Step lib s (.lookedUp name (lookup lib s.store name)) s
  | listNames {s t} : s.walks t = none →
      Step lib s (.listNames t) { s with walks := Function.update s.walks t (some ⟨none, []⟩) }
  | turned {s t walk walk'} : s.walks t = some walk → listNamesTurn s.store walk = some (.inl walk') →
      Step lib s (.turned t) { s with walks := Function.update s.walks t (some walk') }
  | listed {s t walk names} : s.walks t = some walk → listNamesTurn s.store walk = some (.inr names) →
      Step lib s (.listed t names) { s with walks := Function.update s.walks t none }

def machine (τ ι κ : Type) [DecidableEq τ] (lib : Lib) : Machine (State τ ι κ) (Act τ ι κ) where
  init := ⟨⟨[], []⟩, fun _ => none⟩
  step := Step lib

end

/-- The name an interface is listed by. -/
def Store.listedName (s : Store ι κ) (i : Nat) : Option (List Char) := do
  let iface ← s.iface i
  let name ← iface.readName
  name

/-- Nothing that was listed goes away. What `list_names` returns are the names of everything
that is listed as it returns, and a registration that fails lists nothing. -/
def Lawful (s : State τ ι κ) (a : Act τ ι κ) (t : State τ ι κ) : Prop :=
  s.store.list <+: t.store.list ∧ s.store.boxes <+: t.store.boxes ∧
    match a with
    | .listed _ names => names = t.store.list.filterMap t.store.listedName
    | .registered _ name _ => Char.ofNat 0 ∉ name
    | .registerPanicked _ name => Char.ofNat 0 ∈ name ∧ t = s
    | .added name _ _ (.error e) => t.store.list = s.store.list ∧ (e = .driverError ∨
      e = .invalidArgument ∧ Char.ofNat 0 ∈ name)
    | .added name _ _ (.ok _) => Char.ofNat 0 ∉ name
    | _ => True

/-- The interfaces a run has registered, wherever it has got to. -/
structure Sound (π ρ : Type) (tr : List (Act τ ι κ)) (s : State τ ι κ) : Prop where
  distinct : s.store.list.Nodup
  /-- Libcsp's call reaches the object that was registered, under the name it had. -/
  registered : ∀ interface name handle, .registered interface name handle ∈ tr →
    s.store.ifaceRefName handle = some name ∧
      ∀ (via : UInt16) (packet : π) (fromMe : Int) (w : PointerWidth),
        ∃ call : Ffi.Call ι κ π ρ, s.store.callNexthop handle via (some packet) fromMe = some call ∧
          call.start w = .asks (.nexthopShim interface via packet (fromMe ≠ 0))
  added : ∀ name addr driver handle, .added name addr driver (.ok handle) ∈ tr →
    s.store.ifaceRefName handle = some name ∧ (s.store.iface handle).map (·.addr) = some addr ∧
      ∀ (id : UInt32) (data : RawPtr) (dlc : UInt8) (w : PointerWidth),
        ∃ call : Ffi.Call ι κ π ρ, s.store.callTxFunc handle id (some data) dlc = some call ∧
          call.start w = .asks (.canTxTrampoline driver id (data.read 0 dlc.toNat) dlc)
  found : ∀ name i, .lookedUp name (some i) ∈ tr → i ∈ s.store.list ∧ (s.store.ifaceRefName i).isSome
  /-- No walk leaves the memory it may read. -/
  walks : ∀ t walk, s.walks t = some walk → (listNamesTurn s.store walk).isSome

theorem zero_mem_encode_iff {text : List Char} : 0 ∈ text.flatMap String.utf8EncodeChar ↔ Char.ofNat 0 ∈ text := by
  constructor
  · intro member
    by_contra absent
    exact zero_not_mem_encode (fun x inText nul => absent (nul ▸ inText)) member
  · intro nul
    exact List.mem_flatMap.mpr ⟨_, nul, by decide⟩

theorem cStringNew_none {text : List Char} (fails : cStringNew text = none) : Char.ofNat 0 ∈ text := by
  simp only [cStringNew, zero_mem_encode_iff] at fails
  split_ifs at fails with nul
  exact nul

/-- A C string that Rust made is read back as it was. -/
theorem cStringNew_some {text : List Char} {cName : List UInt8} (made : cStringNew text = some cName) :
    Char.ofNat 0 ∉ text ∧ (cString cName).map fromUtf8 = some (some text) := by
  simp only [cStringNew] at made
  split_ifs at made with nul
  obtain rfl := Option.some.inj made
  refine ⟨fun member => nul (zero_mem_encode_iff.mpr member), ?_⟩
  rw [cString_append_zero nul, Option.map_some, fromUtf8_encode]

theorem terminated_of_cStringNew {text : List Char} {cName : List UInt8} (made : cStringNew text = some cName)
    {iface : CspIface} (named : iface.name = some cName) : iface.Terminated := by
  intro memory at'
  obtain rfl := Option.some.inj (named.symm.trans at')
  have read := (cStringNew_some made).2
  cases found : cString cName with
  | none => simp [found] at read
  | some => rfl

/-- One more box, and perhaps one more entry at the end of the list, for it. -/
structure Extends (s : Store ι κ) (box : Leaked ι κ) (s' : Store ι κ) : Prop where
  boxes : s'.boxes = s.boxes ++ [box]
  list : s'.list = s.list ∨ s'.list = s.list ++ [s.boxes.length]
  ends : box.cIface.Terminated

section
variable {lib : Lib} {s s' : Store ι κ} {box : Leaked ι κ} {name : List Char} {handle : Nat}

theorem register_spec {interface : ι} (returns : register lib s interface name = some (handle, s')) :
    ∃ cName, cStringNew name = some cName ∧ handle = s.boxes.length ∧
      Extends s (.interfaceState interface (registeredIface cName handle)) s' := by
  unfold register at returns
  cases made : cStringNew name with
  | none => simp [made] at returns
  | some cName =>
    simp only [made, Option.bind_eq_bind, Option.bind_some, Option.pure_def, Option.some.injEq, Prod.mk.injEq] at returns
    obtain ⟨rfl, rfl⟩ := returns
    exact ⟨cName, rfl, rfl, rfl, lib.adds .., terminated_of_cStringNew made rfl⟩

theorem register_none {interface : ι} (panics : register lib s interface name = none) : Char.ofNat 0 ∈ name := by
  cases made : cStringNew name with
  | none => exact cStringNew_none made
  | some cName => simp [register, made] at panics

/-- What the callers of `add_interface` and libcsp find afterwards. -/
inductive Adds (s : Store ι κ) (name : List Char) (addr : UInt16) (driver : κ) :
    Except CspError Nat × Store ι κ → Prop
  | unnamed : Char.ofNat 0 ∈ name → Adds s name addr driver (.error .invalidArgument, s)
  | refused (box : Leaked ι κ) (s' : Store ι κ) : Extends s box s' → s'.list = s.list → Adds s name addr driver (.error .driverError, s')
  | added (cName : List UInt8) (s' : Store ι κ) : cStringNew name = some cName →
      Extends s (.canInterfaceInner driver { canIface cName addr s.boxes.length with nexthop := some .cspCanTx } true) s' →
      Adds s name addr driver (.ok s.boxes.length, s')

theorem addInterface_spec (lib : Lib) (s : Store ι κ) (name : List Char) (addr : UInt16) (driver : κ) :
    Adds s name addr driver (addInterface lib s name addr driver) := by
  unfold addInterface
  cases made : cStringNew name with
  | none => exact .unnamed (cStringNew_none made)
  | some cName =>
    simp only
    split_ifs with code
    · exact .refused _ _ ⟨rfl, .inl rfl, terminated_of_cStringNew made rfl⟩ rfl
    · refine .added _ _ made ⟨rfl, ?_, terminated_of_cStringNew made rfl⟩
      exact (lib.canAdds ..).imp_right And.right

namespace Extends

theorem at_new (extends' : Extends s box s') : s'.boxes[s.boxes.length]? = some box := by
  simp [extends'.boxes]

theorem at_old (extends' : Extends s box s') {i : Nat} {old : Leaked ι κ} (there : s.boxes[i]? = some old) :
    s'.boxes[i]? = some old := by
  obtain ⟨short, -⟩ := List.getElem?_eq_some_iff.mp there
  rw [extends'.boxes, List.getElem?_append_left short]
  exact there

theorem list_prefix (extends' : Extends s box s') : s.list <+: s'.list := by
  rcases extends'.list with same | longer
  · rw [same]
  · rw [longer]
    exact List.prefix_append ..

theorem boxes_prefix (extends' : Extends s box s') : s.boxes <+: s'.boxes := by
  rw [extends'.boxes]
  exact List.prefix_append ..

end Extends

end

/-- The list is duplicate free and leads to boxes whose names end. -/
structure WellFormed (s : Store ι κ) : Prop where
  distinct : s.list.Nodup
  inside : ∀ i ∈ s.list, i < s.boxes.length
  ends : ∀ box ∈ s.boxes, box.cIface.Terminated

namespace WellFormed

variable {s s' : Store ι κ} {box : Leaked ι κ}

theorem extend (wf : WellFormed s) (extends' : Extends s box s') : WellFormed s' where
  distinct := by
    rcases extends'.list with same | longer
    · rw [same]
      exact wf.distinct
    · rw [longer]
      refine List.nodup_append.mpr ⟨wf.distinct, List.nodup_singleton _, ?_⟩
      intro i member j last same
      have short := wf.inside i member
      rw [List.mem_singleton] at last
      omega
  inside i member := by
    rw [extends'.boxes, List.length_append, List.length_singleton]
    rcases extends'.list with same | longer
    · rw [same] at member
      have short := wf.inside i member
      omega
    · rw [longer] at member
      rcases List.mem_append.mp member with old | new
      · have short := wf.inside i old
        omega
      · rw [List.mem_singleton] at new
        omega
  ends other member := by
    rw [extends'.boxes] at member
    rcases List.mem_append.mp member with old | new
    · exact wf.ends other old
    · rw [List.mem_singleton.mp new]
      exact extends'.ends

theorem iface_of_mem (wf : WellFormed s) {i : Nat} (member : i ∈ s.list) :
    ∃ iface, s.iface i = some iface ∧ ∃ name, iface.readName = some name := by
  have there := List.getElem?_eq_getElem (wf.inside i member)
  refine ⟨_, by rw [Store.iface, there, Option.map_some], ?_⟩
  unfold CspIface.readName
  split
  · exact ⟨none, rfl⟩
  · next memory named =>
    obtain ⟨bytes, found⟩ := Option.isSome_iff_exists.mp
      (wf.ends _ (List.getElem_mem (wf.inside i member)) memory named)
    exact ⟨fromUtf8 bytes, by rw [found, Option.map_some]⟩

theorem listedName_extend (wf : WellFormed s) (extends' : Extends s box s') {i : Nat} (member : i ∈ s.list) :
    s'.listedName i = s.listedName i := by
  have there := List.getElem?_eq_getElem (wf.inside i member)
  simp only [Store.listedName, Store.iface, there, extends'.at_old there]

theorem turn_isSome (wf : WellFormed s) (walk : Walk) (cursor : ∀ i, successor s.list walk.cur = some i → i ∈ s.list) :
    (listNamesTurn s walk).isSome := by
  unfold listNamesTurn
  split
  · rfl
  · next i follows =>
    obtain ⟨iface, there, name, reads⟩ := wf.iface_of_mem (cursor i follows)
    simp [there, reads]

end WellFormed

structure Inv (tr : List (Act τ ι κ)) (s : State τ ι κ) : Prop where
  wf : WellFormed s.store
  registered : ∀ interface name handle, .registered interface name handle ∈ tr → ∃ cName,
    cStringNew name = some cName ∧
      s.store.boxes[handle]? = some (.interfaceState interface (registeredIface cName handle))
  added : ∀ name addr driver handle, .added name addr driver (.ok handle) ∈ tr → ∃ cName,
    cStringNew name = some cName ∧ s.store.boxes[handle]? =
      some (.canInterfaceInner driver { canIface cName addr handle with nexthop := some .cspCanTx } true)
  found : ∀ name i, .lookedUp name (some i) ∈ tr → i ∈ s.store.list
  walks : ∀ t walk, s.walks t = some walk → Passed s.store.list s.store.listedName walk.cur walk.names

/-- What a step says about itself, beyond what stays from before. -/
structure Fresh (a : Act τ ι κ) (s : State τ ι κ) : Prop where
  registered : ∀ interface name handle, a = .registered interface name handle → ∃ cName,
    cStringNew name = some cName ∧
      s.store.boxes[handle]? = some (.interfaceState interface (registeredIface cName handle))
  added : ∀ name addr driver handle, a = .added name addr driver (.ok handle) → ∃ cName,
    cStringNew name = some cName ∧ s.store.boxes[handle]? =
      some (.canInterfaceInner driver { canIface cName addr handle with nexthop := some .cspCanTx } true)
  found : ∀ name i, a = .lookedUp name (some i) → i ∈ s.store.list

variable {tr : List (Act τ ι κ)} {s t : State τ ι κ} {a : Act τ ι κ} {box : Leaked ι κ}

namespace Inv

theorem extend (inv : Inv tr s) (extends' : Extends s.store box t.store) (walks : t.walks = s.walks)
    (fresh : Fresh a t) : Inv (tr ++ [a]) t where
  wf := inv.wf.extend extends'
  registered interface name handle member := by
    rcases List.mem_append.mp member with earlier | last
    · obtain ⟨cName, made, there⟩ := inv.registered interface name handle earlier
      exact ⟨cName, made, extends'.at_old there⟩
    · exact fresh.registered _ _ _ (List.mem_singleton.mp last).symm
  added name addr driver handle member := by
    rcases List.mem_append.mp member with earlier | last
    · obtain ⟨cName, made, there⟩ := inv.added name addr driver handle earlier
      exact ⟨cName, made, extends'.at_old there⟩
    · exact fresh.added _ _ _ _ (List.mem_singleton.mp last).symm
  found name i member := by
    rcases List.mem_append.mp member with earlier | last
    · exact extends'.list_prefix.subset (inv.found name i earlier)
    · exact fresh.found _ _ (List.mem_singleton.mp last).symm
  walks u walk going := by
    rw [walks] at going
    refine (inv.walks u walk going).grow extends'.list_prefix ?_
    intro i member
    exact inv.wf.listedName_extend extends' member

/-- A step that leaves the registry alone. -/
theorem stay (inv : Inv tr s) (store : t.store = s.store) (fresh : Fresh a t)
    (walks : ∀ u walk, t.walks u = some walk →
      Passed s.store.list s.store.listedName walk.cur walk.names) : Inv (tr ++ [a]) t where
  wf := by rw [store]; exact inv.wf
  registered interface name handle member := by
    rcases List.mem_append.mp member with earlier | last
    · rw [store]
      exact inv.registered interface name handle earlier
    · exact fresh.registered _ _ _ (List.mem_singleton.mp last).symm
  added name addr driver handle member := by
    rcases List.mem_append.mp member with earlier | last
    · rw [store]
      exact inv.added name addr driver handle earlier
    · exact fresh.added _ _ _ _ (List.mem_singleton.mp last).symm
  found name i member := by
    rcases List.mem_append.mp member with earlier | last
    · rw [store]
      exact inv.found name i earlier
    · exact fresh.found _ _ (List.mem_singleton.mp last).symm
  walks := by rw [store]; exact walks

end Inv

theorem listNamesTurn_inl {s : Store ι κ} {walk walk' : Walk} (turn : listNamesTurn s walk = some (.inl walk')) :
    ∃ i, successor s.list walk.cur = some i ∧ walk' = ⟨some i, walk.names ++ (s.listedName i).toList⟩ := by
  unfold listNamesTurn at turn
  split at turn
  · simp at turn
  · next i follows =>
    refine ⟨i, follows, ?_⟩
    simp only [Option.bind_eq_bind, Option.bind_eq_some_iff, Option.pure_def, Option.some.injEq, Sum.inl.injEq] at turn
    obtain ⟨iface, there, name, reads, rfl⟩ := turn
    simp only [Store.listedName, there, Option.bind_eq_bind, Option.bind_some, reads]

theorem listNamesTurn_inr {s : Store ι κ} {walk : Walk} {names : List (List Char)}
    (turn : listNamesTurn s walk = some (.inr names)) : successor s.list walk.cur = none ∧ names = walk.names := by
  unfold listNamesTurn at turn
  split at turn
  · next ends =>
    simp only [Option.some.injEq, Sum.inr.injEq] at turn
    exact ⟨ends, turn.symm⟩
  · simp only [Option.bind_eq_bind, Option.bind_eq_some_iff, Option.pure_def, Option.some.injEq] at turn
    obtain ⟨_, _, _, _, mismatch⟩ := turn
    exact nomatch mismatch

section
variable [DecidableEq τ] {lib : Lib}

theorem walks_update {walks : τ → Option Walk} {P : Walk → Prop} {u : τ} {next : Option Walk}
    (others : ∀ v walk, walks v = some walk → P walk) (ours : ∀ walk ∈ next, P walk) (v : τ) (walk : Walk)
    (going : Function.update walks u next v = some walk) : P walk := by
  rw [Function.update_apply] at going
  split_ifs at going with own
  · exact ours walk going
  · exact others v walk going

theorem Inv.step (inv : Inv tr s) (step : Step lib s a t) : Inv (tr ++ [a]) t := by
  cases step with
  | registered returns =>
    obtain ⟨cName, made, rfl, extends'⟩ := register_spec returns
    refine inv.extend extends' rfl ⟨?_, nofun, nofun⟩
    rintro _ _ _ ⟨⟩
    exact ⟨cName, made, extends'.at_new⟩
  | registerPanicked => exact inv.stay rfl ⟨nofun, nofun, nofun⟩ inv.walks
  | @added name addr driver =>
    have spec := addInterface_spec lib s.store name addr driver
    generalize addInterface lib s.store name addr driver = outcome at spec
    cases spec with
    | unnamed => exact inv.stay rfl ⟨nofun, nofun, nofun⟩ inv.walks
    | refused box store extends' => exact inv.extend extends' rfl ⟨nofun, nofun, nofun⟩
    | added cName store made extends' =>
      refine inv.extend extends' rfl ⟨nofun, ?_, nofun⟩
      rintro _ _ _ _ ⟨⟩
      exact ⟨cName, made, extends'.at_new⟩
  | foreign ends => exact inv.extend ⟨rfl, .inr rfl, ends⟩ rfl ⟨nofun, nofun, nofun⟩
  | @lookedUp name =>
    refine inv.stay rfl ⟨nofun, nofun, ?_⟩ inv.walks
    intro looked i same
    obtain ⟨rfl, found⟩ := Act.lookedUp.inj same
    obtain ⟨cName, _, gets⟩ := Option.bind_eq_some_iff.mp found
    exact lib.gets _ _ _ _ gets
  | listNames =>
    refine inv.stay rfl ⟨nofun, nofun, nofun⟩ (walks_update inv.walks ?_)
    rintro _ ⟨⟩
    exact .start ..
  | turned going turn =>
    refine inv.stay rfl ⟨nofun, nofun, nofun⟩ (walks_update inv.walks ?_)
    rintro _ ⟨⟩
    obtain ⟨i, follows, rfl⟩ := listNamesTurn_inl turn
    exact ((inv.walks _ _ going).next inv.wf.distinct follows).2
  | listed =>
    refine inv.stay rfl ⟨nofun, nofun, nofun⟩ (walks_update inv.walks ?_)
    exact nofun

theorem Inv.lawful (inv : Inv tr s) (step : Step lib s a t) : Lawful s a t := by
  cases step with
  | registered returns =>
    obtain ⟨cName, made, rfl, extends'⟩ := register_spec returns
    exact ⟨extends'.list_prefix, extends'.boxes_prefix, (cStringNew_some made).1⟩
  | registerPanicked panics =>
    exact ⟨List.prefix_refl _, List.prefix_refl _, register_none panics, rfl⟩
  | @added name addr driver =>
    have spec := addInterface_spec lib s.store name addr driver
    generalize addInterface lib s.store name addr driver = outcome at spec
    cases spec with
    | unnamed nul => exact ⟨List.prefix_refl _, List.prefix_refl _, rfl, .inr ⟨rfl, nul⟩⟩
    | refused box store extends' same =>
      exact ⟨extends'.list_prefix, extends'.boxes_prefix, same, .inl rfl⟩
    | added cName store made extends' =>
      exact ⟨extends'.list_prefix, extends'.boxes_prefix, (cStringNew_some made).1⟩
  | foreign => exact ⟨List.prefix_append .., List.prefix_append .., trivial⟩
  | lookedUp => exact ⟨List.prefix_refl _, List.prefix_refl _, trivial⟩
  | listNames => exact ⟨List.prefix_refl _, List.prefix_refl _, trivial⟩
  | turned => exact ⟨List.prefix_refl _, List.prefix_refl _, trivial⟩
  | listed going turn =>
    obtain ⟨ends, rfl⟩ := listNamesTurn_inr turn
    exact ⟨List.prefix_refl _, List.prefix_refl _, (inv.walks _ _ going).finish inv.wf.distinct ends⟩

theorem Inv.init : Inv [] (machine τ ι κ lib).init where
  wf := ⟨List.nodup_nil, nofun, nofun⟩
  registered := nofun
  added := nofun
  found := nofun
  walks := nofun

end

theorem Inv.sound (inv : Inv tr s) : Sound π ρ tr s where
  distinct := inv.wf.distinct
  registered interface name handle member := by
    obtain ⟨cName, made, there⟩ := inv.registered interface name handle member
    have iface : s.store.iface handle = some (registeredIface cName handle) := by
      rw [Store.iface, there, Option.map_some, Leaked.cIface]
    have reads : (registeredIface cName handle).readName = some (some name) := (cStringNew_some made).2
    refine ⟨by simp [Store.ifaceRefName, iface, reads], ?_⟩
    intro via packet fromMe w
    refine ⟨.nexthopShim (some interface) via (some packet) fromMe, ?_, rfl⟩
    simp [Store.callNexthop, iface, registeredIface, Store.asInterfaceState, there]
  added name addr driver handle member := by
    obtain ⟨cName, made, there⟩ := inv.added name addr driver handle member
    have iface : s.store.iface handle = some { canIface cName addr handle with nexthop := some .cspCanTx } := by
      rw [Store.iface, there, Option.map_some, Leaked.cIface]
    have reads : CspIface.readName { canIface cName addr handle with nexthop := some .cspCanTx } = some (some name) :=
      (cStringNew_some made).2
    refine ⟨by simp [Store.ifaceRefName, iface, reads], by simp [iface, canIface], ?_⟩
    intro id data dlc w
    refine ⟨.canTxTrampoline (some driver) id (some data) dlc, ?_, rfl⟩
    simp [Store.callTxFunc, iface, canIface, there, Store.asCanInterfaceInner]
  found name i member := by
    have listed := inv.found name i member
    obtain ⟨iface, there, name, reads⟩ := inv.wf.iface_of_mem listed
    exact ⟨listed, by simp [Store.ifaceRefName, there, reads]⟩
  walks u walk going := by
    refine inv.wf.turn_isSome walk ?_
    intro i follows
    exact ((inv.walks u walk going).next inv.wf.distinct follows).1

/-- Registered interfaces keep their names and their objects, and walks through the list see
all of it, however registrations, lookups and walks interleave. -/
theorem registry_sound [DecidableEq τ] {lib : Lib} (run : (machine τ ι κ lib).Run tr s) :
    ((machine τ ι κ lib).obey Lawful).Run tr s ∧ Sound π ρ tr s := by
  suffices ((machine τ ι κ lib).obey Lawful).Run tr s ∧ Inv tr s from ⟨this.1, this.2.sound⟩
  induction run with
  | start => exact ⟨.start, .init⟩
  | next _ taken ih => exact ⟨ih.1.next ⟨taken, ih.2.lawful taken⟩, ih.2.step taken⟩

/-- The list keeps every interface it is given, and is searched from its head. -/
def appending : Lib where
  cspIflistAdd _ list new := list ++ [new]
  cspCanAddInterface _ list new := (0, list ++ [new])
  cspIflistGetByName ifaces list name :=
    list.find? fun i => decide (((ifaces i).bind CspIface.name).bind cString = cString name)
  adds _ _ _ := .inr rfl
  canAdds _ _ _ := .inr ⟨rfl, rfl⟩
  gets _ _ _ _ found := List.mem_of_find?_eq_some found

/-- Two interfaces are registered while a walk is on its way. Both are among the names. -/
def registeredDuringWalk : List (Act Unit Unit Unit) :=
  [.listNames (), .registered () ['A'] 0, .turned (), .registered () ['B'] 1, .lookedUp ['B'] (some 1), .turned (),
    .listed () [['A'], ['B']]]

theorem registry_sound_during_walk :
    ∃ s, (machine Unit Unit Unit appending).Run registeredDuringWalk s ∧ Sound Unit Unit registeredDuringWalk s := by
  have begun : (machine Unit Unit Unit appending).Run [.listNames ()] _ := .next .start (.listNames rfl)
  have one := begun.next (@Step.registered Unit Unit Unit _ _ _ () ['A'] 0 _ rfl)
  have atOne := one.next (Step.turned (t := ()) rfl rfl)
  have two := atOne.next (@Step.registered Unit Unit Unit _ _ _ () ['B'] 1 _ rfl)
  have found := two.next (@Step.lookedUp Unit Unit Unit _ _ _ ['B'])
  have atTwo := found.next (Step.turned (t := ()) rfl rfl)
  have listed := atTwo.next (@Step.listed Unit Unit Unit _ _ _ () _ [['A'], ['B']] rfl rfl)
  exact ⟨_, listed, (registry_sound listed).2⟩

end Libcsp.Registry
