import Libcsp.Base.Machine
import Libcsp.Error
import Mathlib.Logic.Function.Basic

namespace Libcsp.Node
open Sys

structure CString where
  bytes : List UInt8
  noNul : 0 ∉ bytes

structure CspConfig where
  version : UInt8
  address : UInt16
  hostname : CString
  model : CString
  revision : CString
  connDflSo : UInt32
  dedup : UInt8

def CspConfig.default : CspConfig where
  version := 1
  address := 1
  hostname := ⟨[104, 111, 115, 116, 110, 97, 109, 101], by decide⟩
  model := ⟨[109, 111, 100, 101, 108], by decide⟩
  revision := ⟨[49, 46, 48], by decide⟩
  connDflSo := 0
  dedup := 0

/-- Heap blocks by address; a freed block is gone. -/
structure Heap where
  blocks : Nat → Option (List UInt8)
  next : Nat

def Heap.alloc (heap : Heap) (bytes : List UInt8) : Nat × Heap :=
  (heap.next, ⟨Function.update heap.blocks heap.next (some bytes), heap.next + 1⟩)

def Heap.free (heap : Heap) (ptr : Nat) : Heap := { heap with blocks := Function.update heap.blocks ptr none }

def Heap.readStr (heap : Heap) (ptr : Nat) : Option (List UInt8) :=
  (heap.blocks ptr).map (List.takeWhile (· ≠ 0))

structure CspConf where
  version : UInt8
  hostname : Option Nat
  model : Option Nat
  revision : Option Nat
  connDflSo : UInt32
  dedup : UInt8

/-- The allocation behind an `Arc<CspNodeInner>`: the three strings it owns and the
number of `CspNode` handles, those of router threads included. -/
structure NodeInner where
  hostname : Nat
  model : Nat
  revision : Nat
  strong : Nat

structure State where
  initialized : Bool
  heap : Heap
  conf : CspConf
  nodeAddress : UInt16
  inner : Option NodeInner
  routers : Nat

def State.boot : State where
  initialized := false
  heap := ⟨fun _ => none, 0⟩
  conf := ⟨0, none, none, none, 0, 0⟩
  nodeAddress := 0
  inner := none
  routers := 0

/-- `CspConfig::init`. The strings of a refused configuration are dropped with it. -/
def CspConfig.init (config : CspConfig) (s : State) : Except CspError Unit × State :=
  if s.initialized then (.error .alreadyInitialized, s)
  else
    let hostname := s.heap.alloc (config.hostname.bytes ++ [0])
    let model := hostname.2.alloc (config.model.bytes ++ [0])
    let revision := model.2.alloc (config.revision.bytes ++ [0])
    (.ok (),
      { initialized := true
        heap := revision.2
        conf := ⟨config.version, some hostname.1, some model.1, some revision.1, config.connDflSo, config.dedup⟩
        nodeAddress := config.address
        inner := some ⟨hostname.1, model.1, revision.1, 1⟩
        routers := 0 })

def State.clone (s : State) : State :=
  { s with inner := s.inner.map fun inner => { inner with strong := inner.strong + 1 } }

/-- Dropping one `CspNode`: the last one frees the strings, and nothing else happens. -/
def State.drop (s : State) : State :=
  match s.inner with
  | none => s
  | some inner =>
    if inner.strong = 1 then
      { s with
        inner := none
        heap := ((s.heap.free inner.hostname).free inner.model).free inner.revision }
    else { s with inner := some { inner with strong := inner.strong - 1 } }

/-- What `csp_service_handler` finds behind `csp_conf` when it answers an IDENT. -/
structure Ident where
  hostname : Option (List UInt8)
  model : Option (List UInt8)
  revision : Option (List UInt8)

def State.readIdent (s : State) : Ident where
  hostname := s.conf.hostname.bind s.heap.readStr
  model := s.conf.model.bind s.heap.readStr
  revision := s.conf.revision.bind s.heap.readStr

def CspConfig.ident (config : CspConfig) : Ident :=
  ⟨some config.hostname.bytes, some config.model.bytes, some config.revision.bytes⟩

inductive Act
  | initAgain (config : CspConfig) (result : Except CspError Unit)
  | clone
  | drop
  | routeStartTask (spawned : Bool)
  | ident (read : Ident)

def State.Held (s : State) : Prop := ∃ inner, s.inner = some inner ∧ s.routers < inner.strong

/-- What can happen after a successful `init`. A router thread keeps its clone for
good; an IDENT needs a `Connection` only. -/
inductive Step : State → Act → State → Prop
  | initAgain {s} (config : CspConfig) : Step s (.initAgain config (config.init s).1) (config.init s).2
  | clone {s} : s.Held → Step s .clone s.clone
  | drop {s} : s.Held → Step s .drop s.drop
  | spawned {s} : s.Held → Step s (.routeStartTask true) { s.clone with routers := s.routers + 1 }
  | notSpawned {s} : s.Held → Step s (.routeStartTask false) s.clone.drop
  | ident {s} : Step s (.ident s.readIdent) s

/-- Runs that begin with the successful `init` of `config`. -/
def machine (config : CspConfig) : Machine State Act where
  init := (config.init State.boot).2
  step := Step

def State.Dangling (s : State) : Prop :=
  ∃ ptr, (s.conf.hostname = some ptr ∨ s.conf.model = some ptr ∨ s.conf.revision = some ptr) ∧
    s.heap.blocks ptr = none

/-- Every IDENT so far read the configured strings, and `csp_conf` still points at them. -/
def IdentityIntact (config : CspConfig) (tr : List Act) (s : State) : Prop :=
  (∀ read, .ident read ∈ tr → read = config.ident) ∧ ¬ s.Dangling

def KeepsOne (s : State) : Act → Prop
  | .drop => ∀ inner, s.inner = some inner → inner.strong ≠ 1
  | _ => True

structure Alive (config : CspConfig) (s : State) : Prop where
  initialized : s.initialized = true
  conf : s.conf = (config.init State.boot).2.conf
  heap : s.heap = (config.init State.boot).2.heap
  inner : ∃ strong, 0 < strong ∧ s.inner = some ⟨0, 1, 2, strong⟩

structure Gone (config : CspConfig) (s : State) : Prop where
  initialized : s.initialized = true
  conf : s.conf = (config.init State.boot).2.conf
  freed : s.heap.blocks 0 = none
  inner : s.inner = none

theorem readStr_terminated (string : CString) {heap : Heap} {ptr : Nat}
    (block : heap.blocks ptr = some (string.bytes ++ [0])) : heap.readStr ptr = some string.bytes := by
  rw [Heap.readStr, block, Option.map_some, List.takeWhile_append_of_pos]
  · simp
  · intro byte member
    exact decide_eq_true fun zero => string.noNul (zero ▸ member)

theorem Alive.readIdent {config : CspConfig} {s : State} (alive : Alive config s) :
    s.readIdent = config.ident := by
  unfold State.readIdent CspConfig.ident
  rw [alive.conf, alive.heap]
  congr 1
  · exact readStr_terminated config.hostname rfl
  · exact readStr_terminated config.model rfl
  · exact readStr_terminated config.revision rfl

theorem Alive.not_dangling {config : CspConfig} {s : State} (alive : Alive config s) : ¬ s.Dangling := by
  rintro ⟨ptr, points, gone⟩
  rw [alive.conf] at points
  rw [alive.heap] at gone
  rcases points with same | same | same <;> cases same <;> exact nomatch gone

theorem Gone.dangling {config : CspConfig} {s : State} (gone : Gone config s) : s.Dangling :=
  ⟨0, Or.inl (by rw [gone.conf]; rfl), gone.freed⟩

theorem Alive.clone {config : CspConfig} {s : State} (alive : Alive config s) : Alive config s.clone := by
  obtain ⟨strong, positive, inner⟩ := alive.inner
  exact ⟨alive.initialized, alive.conf, alive.heap, strong + 1, by omega, by simp [State.clone, inner]⟩

theorem Alive.drop {config : CspConfig} {s : State} (alive : Alive config s) :
    (∀ inner, s.inner = some inner → inner.strong ≠ 1) ∧ Alive config s.drop ∨
    (∃ inner, s.inner = some inner ∧ inner.strong = 1) ∧ Gone config s.drop := by
  obtain ⟨strong, positive, inner⟩ := alive.inner
  unfold State.drop
  rw [inner]
  by_cases last : strong = 1
  · subst last
    refine Or.inr ⟨⟨_, rfl, rfl⟩, alive.initialized, alive.conf, ?_, rfl⟩
    simp [Heap.free]
  · refine Or.inl ⟨?_, ?_⟩
    · rintro inner' same
      cases same
      exact last
    · simp only [if_neg last]
      exact ⟨alive.initialized, alive.conf, alive.heap, strong - 1, by omega, rfl⟩

theorem CspConfig.init_refused {config : CspConfig} {s : State} (already : s.initialized = true) :
    config.init s = (.error .alreadyInitialized, s) := if_pos already

theorem Alive.step {config : CspConfig} {s t : State} {a : Act} (alive : Alive config s) (taken : Step s a t) :
    KeepsOne s a ∧ Alive config t ∨ ¬ KeepsOne s a ∧ Gone config t := by
  cases taken with
  | initAgain other =>
    rw [CspConfig.init_refused alive.initialized]
    exact Or.inl ⟨trivial, alive⟩
  | clone _ => exact Or.inl ⟨trivial, alive.clone⟩
  | drop _ =>
    rcases alive.drop with ⟨keeps, after⟩ | ⟨⟨inner, same, last⟩, after⟩
    · exact Or.inl ⟨keeps, after⟩
    · exact Or.inr ⟨fun keeps => keeps inner same last, after⟩
  | spawned _ =>
    have cloned := alive.clone
    exact Or.inl ⟨trivial, cloned.initialized, cloned.conf, cloned.heap, cloned.inner⟩
  | notSpawned _ =>
    rcases alive.clone.drop with ⟨_, after⟩ | ⟨⟨inner, same, last⟩, _⟩
    · exact Or.inl ⟨trivial, after⟩
    · obtain ⟨strong, positive, before⟩ := alive.inner
      simp only [State.clone, before, Option.map_some, Option.some.injEq] at same
      subst same
      simp only at last
      omega
  | ident => exact Or.inl ⟨trivial, alive⟩

theorem Gone.step {config : CspConfig} {s t : State} {a : Act} (gone : Gone config s) (taken : Step s a t) :
    Gone config t := by
  have nobody : ¬ s.Held := by
    rintro ⟨inner, held, _⟩
    exact nomatch gone.inner.symm.trans held
  cases taken with
  | initAgain other =>
    rw [CspConfig.init_refused gone.initialized]
    exact gone
  | clone held | drop held | spawned held | notSpawned held => exact absurd held nobody
  | ident => exact gone

theorem alive_or_gone {config : CspConfig} {tr : List Act} {s : State} (run : (machine config).Run tr s) :
    Alive config s ∨ Gone config s := by
  refine run.invariant (P := fun s => Alive config s ∨ Gone config s) ?_ ?_
  · exact Or.inl ⟨rfl, rfl, rfl, 1, Nat.one_pos, rfl⟩
  · rintro s a t (alive | gone) taken
    · exact (alive.step taken).imp And.right And.right
    · exact Or.inr (gone.step taken)

theorem restrict_alive {config : CspConfig} {tr : List Act} {s : State}
    (run : ((machine config).restrict KeepsOne).Run tr s) : Alive config s := by
  refine run.invariant (P := Alive config) ⟨rfl, rfl, rfl, 1, Nat.one_pos, rfl⟩ ?_
  rintro s a t alive ⟨taken, keeps⟩
  rcases alive.step taken with ⟨_, after⟩ | ⟨loses, _⟩
  · exact after
  · exact absurd keeps loses

/-- The strings behind `csp_conf` are intact at the end of a run exactly when no step of
it dropped the last `CspNode`. -/
theorem identity_intact_iff {config : CspConfig} {tr : List Act} {s : State}
    (run : (machine config).Run tr s) :
    IdentityIntact config tr s ↔ ((machine config).restrict KeepsOne).Run tr s := by
  refine run.restrict_iff (P := IdentityIntact config) ?_ ?_
  · intro tr s restricted
    refine ⟨?_, (restrict_alive restricted).not_dangling⟩
    induction restricted with
    | start => exact nofun
    | @next tr s a t previous taken ih =>
      intro read member
      rcases List.mem_append.mp member with earlier | last
      · exact ih read earlier
      · cases List.mem_singleton.mp last
        cases taken.1 with
        | ident => exact (restrict_alive previous).readIdent
  · intro tr s a t previous taken intact
    rcases alive_or_gone previous with alive | gone
    · refine ⟨⟨fun read member => intact.1 read (List.mem_append_left _ member), alive.not_dangling⟩, ?_⟩
      rcases alive.step taken with ⟨keeps, _⟩ | ⟨_, gone⟩
      · exact keeps
      · exact absurd gone.dangling intact.2
    · exact absurd (gone.step taken).dangling intact.2

theorem identity_intact_iff_clone_kept :
    ∃ tr s, (machine CspConfig.default).Run tr s ∧ .drop ∈ tr ∧ (∃ read, .ident read ∈ tr) ∧
      IdentityIntact CspConfig.default tr s := by
  have cloned : ((machine CspConfig.default).restrict KeepsOne).Run [.clone] _ :=
    Machine.Run.start.next ⟨Step.clone ⟨_, rfl, Nat.one_pos⟩, trivial⟩
  have dropped := cloned.next ⟨Step.drop ⟨_, rfl, Nat.two_pos⟩, by rintro inner same; cases same; decide⟩
  have answered := dropped.next ⟨Step.ident, trivial⟩
  exact ⟨_, _, answered.of_restrict, by simp, ⟨_, List.mem_append_right _ (List.mem_singleton_self _)⟩,
    (identity_intact_iff answered.of_restrict).mpr answered⟩

/-- The only handle is dropped while a request is still to be handled: `csp_conf` points
at freed strings when it is. -/
theorem identity_dangles :
    ∃ tr s read, (machine CspConfig.default).Run tr s ∧ .ident read ∈ tr ∧ read.hostname = none ∧
      ¬ IdentityIntact CspConfig.default tr s := by
  have dropped : (machine CspConfig.default).Run [.drop] _ := Machine.Run.start.next (Step.drop ⟨_, rfl, Nat.one_pos⟩)
  have answered := dropped.next Step.ident
  refine ⟨_, _, _, answered, List.mem_append_right _ (List.mem_singleton_self _), rfl, ?_⟩
  intro intact
  have read := intact.1 _ (List.mem_append_right _ (List.mem_singleton_self _))
  exact nomatch congrArg Ident.hostname read

end Libcsp.Node
