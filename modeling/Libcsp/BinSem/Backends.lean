import Libcsp.Arch
import Libcsp.Base.Lock
import Mathlib.Logic.Function.Basic

namespace Libcsp
open Sys

variable {τ : Type} [DecidableEq τ]

/-- `csp_bin_sem_init` of `export_arch!`: what it leaves in a non-null slot. The
fresh semaphore is posted once before it is stored; a failed creation leaves
the slot alone. -/
def cspBinSemInit {S : Type} (create : Option S) (post : S → S) : Option S :=
  match create with
  | none => none
  | some sem => some (post sem)

namespace SemT

/-- `bin_sem::create` on non-macOS: `sem_init(sem, 0, 1)` in fresh memory. -/
def create (allocated : Bool) : Option Nat := if allocated then some 1 else none

def post (value : Nat) : Nat := value + 1

inductive At
  | outside | inside
  deriving DecidableEq

structure State (τ : Type) where
  value : Nat
  pc : τ → At

inductive Act (τ : Type)
  | waitOk (t : τ)
  | waitFails (t : τ)
  | post (t : τ)

/-- Threads that post only after their own successful wait. `sem_wait` and
`sem_timedwait` take one from a positive value; both may also fail. -/
inductive Step : State τ → Act τ → State τ → Prop
  | waitOk {s t} : s.pc t = .outside → 0 < s.value →
      Step s (.waitOk t) ⟨s.value - 1, Function.update s.pc t .inside⟩
  | waitFails {s t} : s.pc t = .outside → Step s (.waitFails t) s
  | post {s t} : s.pc t = .inside →
      Step s (.post t) ⟨SemT.post s.value, Function.update s.pc t .outside⟩

def machine (τ : Type) [DecidableEq τ] (sem : Nat) : Machine (State τ) (Act τ) where
  init := ⟨sem, fun _ => .outside⟩
  step := Step

def Inside (s : State τ) (t : τ) : Prop := s.pc t = .inside

end SemT

namespace Pthread

def create (allocated : Bool) : Option Int := if allocated then some 1 else none

/-- `bin_sem::post` on macOS, run without interference. -/
def post (value : Int) : Int := if value = 0 then 1 else value

/-- Where a thread is in `wait` and `post`. Every location from `waitTest` to
`waitLeave` except the blocked ones, and from `postTest` on, holds the mutex. -/
inductive At
  | outside
  | waitEnter (timeout : UInt32)
  | waitTest (timeout : UInt32)
  | waitBlocked (timeout : UInt32)
  | waitWoken (timeout : UInt32) (rc : Int)
  | waitTake
  | waitLeave (ok : Bool)
  | inside
  | postEnter
  | postTest
  | postSignal
  | postLeave
  deriving DecidableEq

structure State (τ : Type) where
  mutex : Option τ
  value : Int
  pc : τ → At

inductive Act (τ : Type)
  | callWait (t : τ) (timeout : UInt32)
  | lockFails (t : τ)
  | lock (t : τ)
  | test (t : τ)
  | wake (t : τ) (rc : Int)
  | take (t : τ)
  | unlock (t : τ)
  | callPost (t : τ)
  | postWrite (t : τ)
  | postNoop (t : τ)
  | signal (t : τ)

/-- One step for each pthread call and each access to `value`. A condition wait
may end at any time, with zero (also spuriously) or with an error code. -/
inductive Step : State τ → Act τ → State τ → Prop
  | callWait {s t timeout} : s.pc t = .outside →
      Step s (.callWait t timeout) { s with pc := Function.update s.pc t (.waitEnter timeout) }
  | waitLockFails {s t timeout} : s.pc t = .waitEnter timeout →
      Step s (.lockFails t) { s with pc := Function.update s.pc t .outside }
  | waitLock {s t timeout} : s.pc t = .waitEnter timeout → s.mutex = none →
      Step s (.lock t) { s with mutex := some t, pc := Function.update s.pc t (.waitTest timeout) }
  | waitFree {s t timeout} : s.pc t = .waitTest timeout → s.value ≠ 0 →
      Step s (.test t) { s with pc := Function.update s.pc t .waitTake }
  | waitBlock {s t timeout} : s.pc t = .waitTest timeout → s.value = 0 →
      Step s (.test t) { s with mutex := none, pc := Function.update s.pc t (.waitBlocked timeout) }
  | wake {s t timeout rc} : s.pc t = .waitBlocked timeout →
      Step s (.wake t rc) { s with pc := Function.update s.pc t (.waitWoken timeout rc) }
  | relock {s t timeout} : s.pc t = .waitWoken timeout 0 → s.mutex = none →
      Step s (.lock t) { s with mutex := some t, pc := Function.update s.pc t (.waitTest timeout) }
  | relockFailed {s t timeout rc} : s.pc t = .waitWoken timeout rc → rc ≠ 0 → s.mutex = none →
      Step s (.lock t) { s with mutex := some t, pc := Function.update s.pc t (.waitLeave false) }
  | take {s t} : s.pc t = .waitTake →
      Step s (.take t) { s with value := 0, pc := Function.update s.pc t (.waitLeave true) }
  | waitUnlock {s t ok} : s.pc t = .waitLeave ok →
      Step s (.unlock t) { s with mutex := none,
                                  pc := Function.update s.pc t (if ok then .inside else .outside) }
  | callPost {s t} : s.pc t = .inside →
      Step s (.callPost t) { s with pc := Function.update s.pc t .postEnter }
  | postLockFails {s t} : s.pc t = .postEnter →
      Step s (.lockFails t) { s with pc := Function.update s.pc t .outside }
  | postLock {s t} : s.pc t = .postEnter → s.mutex = none →
      Step s (.lock t) { s with mutex := some t, pc := Function.update s.pc t .postTest }
  | postWrite {s t} : s.pc t = .postTest → s.value = 0 →
      Step s (.postWrite t) { s with value := 1, pc := Function.update s.pc t .postSignal }
  | postNoop {s t} : s.pc t = .postTest → s.value ≠ 0 →
      Step s (.postNoop t) { s with pc := Function.update s.pc t .postLeave }
  | signal {s t} : s.pc t = .postSignal →
      Step s (.signal t) { s with pc := Function.update s.pc t .postLeave }
  | postUnlock {s t} : s.pc t = .postLeave →
      Step s (.unlock t) { s with mutex := none, pc := Function.update s.pc t .outside }

def machine (τ : Type) [DecidableEq τ] (sem : Int) : Machine (State τ) (Act τ) where
  init := ⟨none, sem, fun _ => .outside⟩
  step := Step

/-- Between a successful return of `wait` and the effect of the thread's `post`. -/
def Inside (s : State τ) (t : τ) : Prop :=
  s.pc t = .inside ∨ s.pc t = .postEnter ∨ s.pc t = .postTest

end Pthread

namespace Embassy

/-- `EmbassyArch::bin_sem_create`: `AtomicBool::new(false)`. The allocation
cannot report a failure. -/
def create : Option Bool := some false

def post (_flag : Bool) : Bool := true

inductive At
  | outside
  | spinning (timeout : UInt32)
  | checking (timeout : UInt32)
  | inside
  deriving DecidableEq

structure State (τ : Type) where
  flag : Bool
  pc : τ → At

inductive Act (τ : Type)
  | callWait (t : τ) (timeout : UInt32)
  | swapTaken (t : τ)
  | swapEmpty (t : τ)
  | giveUp (t : τ)
  | retry (t : τ)
  | post (t : τ)

/-- The spin loop of `EmbassyArch::bin_sem_wait`, one step for each atomic
access and each look at the clock. -/
inductive Step : State τ → Act τ → State τ → Prop
  | callWait {s t timeout} : s.pc t = .outside →
      Step s (.callWait t timeout) { s with pc := Function.update s.pc t (.spinning timeout) }
  | swapTaken {s t timeout} : s.pc t = .spinning timeout → s.flag = true →
      Step s (.swapTaken t) ⟨false, Function.update s.pc t .inside⟩
  | swapEmpty {s t timeout} : s.pc t = .spinning timeout → s.flag = false →
      Step s (.swapEmpty t) ⟨false, Function.update s.pc t (.checking timeout)⟩
  | giveUp {s t timeout} : s.pc t = .checking timeout → timeout ≠ waitForever →
      Step s (.giveUp t) { s with pc := Function.update s.pc t .outside }
  | retry {s t timeout} : s.pc t = .checking timeout →
      Step s (.retry t) { s with pc := Function.update s.pc t (.spinning timeout) }
  | post {s t} : s.pc t = .inside →
      Step s (.post t) ⟨Embassy.post s.flag, Function.update s.pc t .outside⟩

def machine (τ : Type) [DecidableEq τ] (sem : Bool) : Machine (State τ) (Act τ) where
  init := ⟨sem, fun _ => .outside⟩
  step := Step

def Inside (s : State τ) (t : τ) : Prop := s.pc t = .inside

end Embassy

end Libcsp
