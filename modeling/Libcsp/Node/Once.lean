import Libcsp.Node.Lifetime
import Mathlib.Tactic.IntervalCases

namespace Libcsp.Node.Once
open Sys

/-- What `csp_conf` holds. A string stands for the pointer to it. -/
structure Conf where
  version : UInt8
  hostname : Option (List UInt8)
  model : Option (List UInt8)
  revision : Option (List UInt8)
  connDflSo : UInt32
  dedup : UInt8
  deriving DecidableEq

/-- The fields of a `csp_iface_t` that `init` writes. -/
structure Iface where
  addr : UInt16
  netmask : UInt16
  name : List UInt8
  nexthop : Bool
  deriving DecidableEq

inductive IfaceRef
  | selfIface
  | loop
  deriving DecidableEq

structure Route where
  address : UInt16
  mask : Int
  iface : IfaceRef
  via : UInt16
  deriving DecidableEq

/-- The globals of libcsp and of the crate that `CspConfig::init` writes. `initCalls` lists
what each call of `csp_init` found in `csp_conf`. -/
structure Globals where
  conf : Conf
  initCalls : List Conf
  selfIface : Iface
  loop : Option Iface
  iflist : List IfaceRef
  rtable : List Route
  nodeAddress : UInt16
  deriving DecidableEq

def Globals.boot : Globals where
  conf := ⟨0, none, none, none, 0, 0⟩
  initCalls := []
  selfIface := ⟨0, 0, [], false⟩
  loop := none
  iflist := []
  rtable := []
  nodeAddress := 0

/-- The statements of `CspConfig::init` behind the swap of `INITIALIZED`, in order. -/
inductive Line
  | confVersion | confHostname | confModel | confRevision | confConnDflSo | confDedup
  | cspInit
  | selfAddr | selfNetmask | selfName | selfNexthop | iflistAdd
  | loopAddr | loopNetmask
  | rtableSet
  | storeAddress
  deriving DecidableEq, Repr

def program : List Line :=
  [.confVersion, .confHostname, .confModel, .confRevision, .confConnDflSo, .confDedup, .cspInit, .selfAddr,
    .selfNetmask, .selfName, .selfNexthop, .iflistAdd, .loopAddr, .loopNetmask, .rtableSet, .storeAddress]

/-- What the model takes from libcsp: `CSP_NO_VIA_ADDRESS`, and the interface that
`csp_init` registers under the name `LOOP`, if it does. -/
structure Env where
  noVia : UInt16
  loop : Option Iface

def loopbackSentinel : UInt16 := 0xFFFF

def Line.exec (lib : Env) (config : CspConfig) (g : Globals) : Line → Globals
  | .confVersion => { g with conf := { g.conf with version := config.version } }
  | .confHostname => { g with conf := { g.conf with hostname := some config.hostname.bytes } }
  | .confModel => { g with conf := { g.conf with model := some config.model.bytes } }
  | .confRevision => { g with conf := { g.conf with revision := some config.revision.bytes } }
  | .confConnDflSo => { g with conf := { g.conf with connDflSo := config.connDflSo } }
  | .confDedup => { g with conf := { g.conf with dedup := config.dedup } }
  | .cspInit =>
    { g with
      initCalls := g.initCalls ++ [g.conf]
      loop := lib.loop
      iflist := g.iflist ++ (lib.loop.map fun _ => IfaceRef.loop).toList }
  | .selfAddr => { g with selfIface := { g.selfIface with addr := config.address } }
  | .selfNetmask => { g with selfIface := { g.selfIface with netmask := 0 } }
  | .selfName => { g with selfIface := { g.selfIface with name := [0x53, 0x45, 0x4C, 0x46] } }
  | .selfNexthop => { g with selfIface := { g.selfIface with nexthop := true } }
  | .iflistAdd => { g with iflist := g.iflist ++ [.selfIface] }
  -- `csp_iflist_get_by_name` finds nothing in a build without the interface
  | .loopAddr => { g with loop := g.loop.map fun lo => { lo with addr := loopbackSentinel } }
  | .loopNetmask => { g with loop := g.loop.map fun lo => { lo with netmask := 0 } }
  | .rtableSet => { g with rtable := g.rtable ++ [⟨config.address, -1, .selfIface, lib.noVia⟩] }
  | .storeAddress => { g with nodeAddress := config.address }

def execAll (lib : Env) (config : CspConfig) (lines : List Line) (g : Globals) : Globals :=
  lines.foldl (Line.exec lib config) g

/-- A thread inside of `init`: before the swap, or with the statements it has left. -/
inductive At
  | outside
  | entered (config : CspConfig)
  | past (config : CspConfig) (rest : List Line)

structure State (τ : Type) where
  initialized : Bool
  globals : Globals
  pc : τ → At
  /-- Whether a `CspNode` has been handed out. -/
  node : Bool

inductive Act (τ : Type)
  | call (t : τ) (config : CspConfig)
  | refused (t : τ) (e : CspError)
  | won (t : τ) (config : CspConfig)
  | line (t : τ) (line : Line)
  | ok (t : τ)
  | address (read : UInt16)

variable {τ : Type} [DecidableEq τ]

def State.at (s : State τ) (t : τ) (pc : At) : State τ := { s with pc := Function.update s.pc t pc }

/-- Any number of threads call `init`, any number of times; whoever has a `CspNode` may ask
for its address. -/
inductive Step (lib : Env) : State τ → Act τ → State τ → Prop
  | call {s t config} : s.pc t = .outside → Step lib s (.call t config) (s.at t (.entered config))
  | refused {s t config} : s.pc t = .entered config → s.initialized = true →
      Step lib s (.refused t .alreadyInitialized) (s.at t .outside)
  | won {s t config} : s.pc t = .entered config → s.initialized = false →
      Step lib s (.won t config) { s.at t (.past config program) with initialized := true }
  | line {s t config line rest} : s.pc t = .past config (line :: rest) →
      Step lib s (.line t line) { s.at t (.past config rest) with globals := line.exec lib config s.globals }
  | ok {s t config} : s.pc t = .past config [] → Step lib s (.ok t) { s.at t .outside with node := true }
  | address {s} : s.node = true → Step lib s (.address s.globals.nodeAddress) s

def machine (τ : Type) [DecidableEq τ] (lib : Env) : Machine (State τ) (Act τ) where
  init := ⟨false, .boot, fun _ => .outside, false⟩
  step := Step lib

def confOf (config : CspConfig) : Conf where
  version := config.version
  hostname := some config.hostname.bytes
  model := some config.model.bytes
  revision := some config.revision.bytes
  connDflSo := config.connDflSo
  dedup := config.dedup

def selfIfaceOf (config : CspConfig) : Iface := ⟨config.address, 0, [0x53, 0x45, 0x4C, 0x46], true⟩

def selfRoute (lib : Env) (config : CspConfig) : Route := ⟨config.address, -1, .selfIface, lib.noVia⟩

/-- The globals that a finished `init` leaves: the built-in loopback is out of reach of any
address, and the node's own address leads to the interface of its own. -/
def settled (lib : Env) (config : CspConfig) : Globals where
  conf := confOf config
  initCalls := [confOf config]
  selfIface := selfIfaceOf config
  loop := lib.loop.map fun lo => { lo with addr := loopbackSentinel, netmask := 0 }
  iflist := (lib.loop.map fun _ => IfaceRef.loop).toList ++ [.selfIface]
  rtable := [selfRoute lib config]
  nodeAddress := config.address

def Act.won? : Act τ → Option CspConfig
  | .won _ config => some config
  | _ => none

def Act.ok? : Act τ → Option τ
  | .ok t => some t
  | _ => none

/-- What every run keeps, for the one configuration that gets past the swap. -/
structure OneInit (lib : Env) (config : CspConfig) (tr : List (Act τ)) (s : State τ) : Prop where
  winners : tr.filterMap Act.won? = [] ∨ tr.filterMap Act.won? = [config]
  oks : (tr.filterMap Act.ok?).length ≤ 1
  writer : ∀ t u c r c' r', s.pc t = .past c r → s.pc u = .past c' r' → t = u ∧ c = config
  /-- `csp_init` runs once at most, on the whole configuration. -/
  initCalls : s.globals.initCalls = [] ∨ s.globals.initCalls = [confOf config]
  /-- The interface is in the list only once all of it is written. -/
  listed : .selfIface ∈ s.globals.iflist → s.globals.selfIface = selfIfaceOf config
  routed : ∀ route ∈ s.globals.rtable, route = selfRoute lib config ∧ .selfIface ∈ s.globals.iflist
  complete : s.node = true → s.globals = settled lib config
  addresses : ∀ read, .address read ∈ tr → read = config.address

/-- What holds of the globals after any of the statements. -/
structure WellOrdered (lib : Env) (config : CspConfig) (g : Globals) : Prop where
  initCalls : g.initCalls = [] ∨ g.initCalls = [confOf config]
  listed : .selfIface ∈ g.iflist → g.selfIface = selfIfaceOf config
  routed : ∀ route ∈ g.rtable, route = selfRoute lib config ∧ .selfIface ∈ g.iflist

theorem execAll_program (lib : Env) (config : CspConfig) : execAll lib config program .boot = settled lib config := by
  cases lib with
  | mk noVia loop => cases loop <;> rfl

/-- Sixteen statements, so seventeen states in which others can find the globals. -/
theorem execAll_wellOrdered (lib : Env) (config : CspConfig) {done rest : List Line} (split : program = done ++ rest) :
    WellOrdered lib config (execAll lib config done .boot) := by
  have taken : done = program.take done.length := by rw [split, List.take_left]
  have short : done.length ≤ 16 := by
    have total := congrArg List.length split
    rw [List.length_append] at total
    simp only [program, List.length_cons, List.length_nil] at total
    omega
  rw [taken]
  generalize done.length = k at short
  interval_cases k <;>
    constructor <;>
    simp [program, execAll, Line.exec, Globals.boot, confOf, selfIfaceOf, selfRoute]

/-- Where a run stands: nobody is past the swap, or one thread is, or it has finished. -/
inductive Stage (lib : Env) (tr : List (Act τ)) (s : State τ) : Prop
  | idle : s.initialized = false → s.globals = .boot → (∀ t c r, s.pc t ≠ .past c r) → s.node = false →
      tr.filterMap Act.won? = [] → tr.filterMap Act.ok? = [] → (∀ read, .address read ∉ tr) → Stage lib tr s
  | busy {config t done rest} : s.initialized = true → program = done ++ rest →
      s.globals = execAll lib config done .boot → s.pc t = .past config rest →
      (∀ u c r, u ≠ t → s.pc u ≠ .past c r) → s.node = false → tr.filterMap Act.won? = [config] →
      tr.filterMap Act.ok? = [] → (∀ read, .address read ∉ tr) → Stage lib tr s
  | finished {config} : s.initialized = true → s.globals = settled lib config → (∀ t c r, s.pc t ≠ .past c r) →
      tr.filterMap Act.won? = [config] → (tr.filterMap Act.ok?).length = 1 →
      (∀ read, .address read ∈ tr → read = config.address) → Stage lib tr s

omit [DecidableEq τ] in
theorem Stage.oneInit {lib : Env} {tr : List (Act τ)} {s : State τ} (stage : Stage lib tr s) :
    ∃ config, OneInit lib config tr s := by
  cases stage with
  | idle fresh boot nobody none noWinner noOk noRead =>
    refine ⟨CspConfig.default, Or.inl noWinner, by simp [noOk], ?_, Or.inl ?_, ?_, ?_, by simp [none], ?_⟩
    · intro t u c r c' r' past
      exact absurd past (nobody t c r)
    · rw [boot]
      rfl
    · rw [boot]
      intro listed
      exact nomatch listed
    · rw [boot]
      intro route member
      exact nomatch member
    · intro read member
      exact absurd member (noRead read)
  | @busy config t done rest begun split globals past others none winner noOk noRead =>
    have ordered := execAll_wellOrdered lib config split
    rw [← globals] at ordered
    refine ⟨config, Or.inr winner, by simp [noOk], ?_, ordered.initCalls, ordered.listed, ordered.routed,
      by simp [none], ?_⟩
    · intro u v c r c' r' first second
      have atU : u = t := by_contra fun other => others u c r other first
      have atV : v = t := by_contra fun other => others v c' r' other second
      subst atU
      cases past.symm.trans first
      exact ⟨atV.symm, rfl⟩
    · intro read member
      exact absurd member (noRead read)
  | @finished config begun globals nobody winner ok reads =>
    have ordered := execAll_wellOrdered lib config (List.append_nil program).symm
    rw [execAll_program, ← globals] at ordered
    refine ⟨config, Or.inr winner, by omega, ?_, ordered.initCalls, ordered.listed, ordered.routed,
      fun _ => globals, reads⟩
    intro t u c r c' r' past
    exact absurd past (nobody t c r)

theorem at_other {s : State τ} {t u : τ} {pc : At} (other : u ≠ t) : (s.at t pc).pc u = s.pc u :=
  Function.update_of_ne other ..

theorem at_self {s : State τ} {t : τ} {pc : At} : (s.at t pc).pc t = pc := Function.update_self ..

/-- A thread that is not past the swap, and does not get past it, changes nothing. -/
theorem not_past {s : State τ} {t : τ} {pc : At} (outside : ∀ c r, pc ≠ .past c r) {u : τ} {c : CspConfig} {r : List Line}
    (past : (s.at t pc).pc u = .past c r) : u ≠ t ∧ s.pc u = .past c r := by
  by_cases same : u = t
  · subst same
    rw [at_self] at past
    exact absurd past (outside c r)
  · exact ⟨same, by rwa [at_other same] at past⟩

theorem Stage.step {lib : Env} {tr : List (Act τ)} {s t : State τ} {a : Act τ} (stage : Stage lib tr s)
    (step : Step lib s a t) : Stage lib (tr ++ [a]) t := by
  cases stage with
  | idle fresh boot nobody none noWinner noOk noRead =>
    cases step with
    | @call i config outside =>
      refine .idle fresh boot ?_ none (by simp [noWinner, Act.won?]) (by simp [noOk, Act.ok?]) (by simp [noRead])
      intro u c r past
      exact nobody u c r (not_past (by simp) past).2
    | refused entered already => exact nomatch fresh.symm.trans already
    | @won i config entered _ =>
      refine .busy rfl (List.nil_append program).symm boot at_self ?_ none (by simp [noWinner, Act.won?]) (by simp [noOk, Act.ok?])
        (by simp [noRead])
      intro u c r other past
      exact nobody u c r ((at_other other).symm.trans past)
    | line past => exact absurd past (nobody _ _ _)
    | ok past => exact absurd past (nobody _ _ _)
    | address holds => exact nomatch none.symm.trans holds
  | @busy config i done rest begun split globals past others none winner noOk noRead =>
    cases step with
    | @call j config' outside =>
      have differ : i ≠ j := by
        rintro rfl
        exact nomatch past.symm.trans outside
      refine .busy begun split globals ((at_other differ).trans past) ?_ none (by simp [winner, Act.won?])
        (by simp [noOk, Act.ok?]) (by simp [noRead])
      intro u c r other there
      exact others u c r other (not_past (by simp) there).2
    | @refused j config' entered already =>
      have differ : i ≠ j := by
        rintro rfl
        exact nomatch past.symm.trans entered
      refine .busy begun split globals ((at_other differ).trans past) ?_ none (by simp [winner, Act.won?])
        (by simp [noOk, Act.ok?]) (by simp [noRead])
      intro u c r other there
      exact others u c r other (not_past (by simp) there).2
    | won entered free => exact nomatch begun.symm.trans free
    | @line j config' line rest' there =>
      have same : j = i := by_contra fun other => others j _ _ other there
      subst same
      cases past.symm.trans there
      have split' : program = (done ++ [line]) ++ rest' := by rw [split, List.append_assoc, List.singleton_append]
      refine .busy begun split' ?_ at_self ?_ none (by simp [winner, Act.won?]) (by simp [noOk, Act.ok?]) (by simp [noRead])
      · simp only [globals, execAll, List.foldl_append, List.foldl_cons, List.foldl_nil]
      · intro u c r other past'
        exact others u c r other ((at_other other).symm.trans past')
    | @ok j config' there =>
      have same : j = i := by_contra fun other => others j _ _ other there
      subst same
      cases past.symm.trans there
      rw [List.append_nil] at split
      have settles : s.globals = settled lib config := by rw [globals, ← split, execAll_program]
      refine .finished begun settles ?_ (by simp [winner, Act.won?]) (by simp [noOk, Act.ok?]) ?_
      · intro u c r past'
        obtain ⟨other, before⟩ := not_past (by simp) past'
        exact others u c r other before
      · intro read member
        simp [noRead] at member
    | address holds => exact nomatch none.symm.trans holds
  | @finished config begun globals nobody winner ok reads =>
    cases step with
    | @call j config' outside =>
      refine .finished begun globals ?_ (by simp [winner, Act.won?]) (by simp [ok, Act.ok?]) (by simpa using reads)
      intro u c r past
      exact nobody u c r (not_past (by simp) past).2
    | @refused j config' entered already =>
      refine .finished begun globals ?_ (by simp [winner, Act.won?]) (by simp [ok, Act.ok?]) (by simpa using reads)
      intro u c r past
      exact nobody u c r (not_past (by simp) past).2
    | won entered free => exact nomatch begun.symm.trans free
    | line past => exact absurd past (nobody _ _ _)
    | ok past => exact absurd past (nobody _ _ _)
    | address holds =>
      refine .finished begun globals nobody (by simp [winner, Act.won?]) (by simp [ok, Act.ok?]) ?_
      intro read member
      rcases List.mem_append.mp member with earlier | last
      · exact reads read earlier
      · cases List.mem_singleton.mp last
        rw [globals]
        rfl

/-- However many threads call `init`, in whatever order their statements run: one gets
past the swap and the others are refused, `csp_init` runs once and finds the whole
configuration, nobody sees a half-written interface, and every `CspNode` knows its address. -/
theorem init_once {lib : Env} {tr : List (Act τ)} {s : State τ} (run : (machine τ lib).Run tr s) :
    ∃ config, OneInit lib config tr s := by
  refine Stage.oneInit (run.history (P := Stage lib) ?_ ?_)
  · exact .idle rfl rfl (by simp [machine]) rfl rfl rfl (by simp)
  · intro tr s a t stage step
    exact stage.step step

/-- Whoever is past the swap can run to the end without the others. -/
theorem finishes {lib : Env} {tr : List (Act τ)} {s : State τ} {t : τ} {config : CspConfig} {rest : List Line}
    (run : (machine τ lib).Run tr s) (past : s.pc t = .past config rest) :
    ∃ more s', (machine τ lib).Run (tr ++ more) s' ∧ s'.node = true := by
  induction rest generalizing tr s with
  | nil => exact ⟨[.ok t], _, run.next (.ok past), rfl⟩
  | cons line rest ih =>
    obtain ⟨more, s', run', node⟩ := ih (run.next (.line past)) at_self
    rw [List.append_assoc] at run'
    exact ⟨_, s', run', node⟩

/-- The second thread is refused while the first is still writing. -/
theorem init_once_two_threads :
    ∃ tr s, (machine Bool ⟨0xFFFF, none⟩).Run tr s ∧ .refused true .alreadyInitialized ∈ tr ∧ s.node = true ∧
      ∃ config, OneInit ⟨0xFFFF, none⟩ config tr s := by
  have first : (machine Bool ⟨0xFFFF, none⟩).Run _ _ := .next .start (@Step.call Bool _ _ _ false .default rfl)
  have second := first.next (@Step.call Bool _ _ _ true .default rfl)
  have won := second.next (Step.won (t := false) rfl rfl)
  have refused := won.next (Step.refused (t := true) rfl rfl)
  obtain ⟨more, s, run, node⟩ := finishes (t := false) refused rfl
  exact ⟨_, s, run, by simp, node, init_once run⟩

end Libcsp.Node.Once
