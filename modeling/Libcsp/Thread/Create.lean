import Libcsp.Base.Machine
import Mathlib.Logic.Function.Basic

namespace Libcsp.Thread
open Sys

/-- How far a call of `csp_thread_create` and the thread it creates have come. The first
three are the C calls of the creator still to be made; `created` is a thread that has
not run yet, `entering` one that has found the wrapper and holds the map's mutex. -/
inductive Stage
  | storing
  | inserting
  | spawning
  | failed (ret : Int)
  | created
  | entering
  | running
  | done

structure Job where
  f : Nat
  arg : Nat
  stage : Stage

/-- The statics `THREAD_ENTRY_POINT` of the shim and `THREAD_FN_MAP` of `TestArch`, with
the owner of the latter's mutex. Functions are addresses. -/
structure State (ι : Type) where
  entryPoint : Nat
  fnMap : Option (Nat → Option Nat)
  mapOwner : Option ι
  job : ι → Option Job

inductive Act (ι : Type)
  | called (i : ι) (f arg : Nat)
  | stored (i : ι)
  | inserted (i : ι)
  | returned (i : ι) (ret : Int)
  | found (i : ι)
  | entered (i : ι) (f arg : Nat)
  | finished (i : ι)

variable {ι : Type} [DecidableEq ι]

def State.at (s : State ι) (i : ι) (job : Job) : State ι := { s with job := Function.update s.job i (some job) }

@[simp] theorem State.at_job_self (s : State ι) (i : ι) (job : Job) : (s.at i job).job i = some job :=
  Function.update_self ..

theorem State.at_job_of_ne (s : State ι) {i j : ι} (job : Job) (other : j ≠ i) : (s.at i job).job j = s.job j :=
  Function.update_of_ne other ..

@[simp] theorem State.at_entryPoint (s : State ι) (i : ι) (job : Job) : (s.at i job).entryPoint = s.entryPoint := rfl

/-- `map_lock.as_mut().unwrap().insert(fn_id, f)`, on a map made when there is none. -/
def insertFn (fnMap : Option (Nat → Option Nat)) (key f : Nat) : Option (Nat → Option Nat) :=
  some (Function.update (fnMap.getD fun _ => none) key (some f))

def getFn (fnMap : Option (Nat → Option Nat)) (key : Nat) : Option Nat := fnMap.bind fun m => m key

/-- The steps of creators and threads; `wrapper` is the shim's inner function, which is
all that `TestArch::thread_create` gets to see. The thread calls it with a null argument
under the mutex, and it calls what it loads from `THREAD_ENTRY_POINT` with that. -/
inductive Step (wrapper : Nat) : State ι → Act ι → State ι → Prop
  | called {s i f arg} : s.job i = none → f ≠ 0 → Step wrapper s (.called i f arg) (s.at i ⟨f, arg, .storing⟩)
  | stored {s i f arg} : s.job i = some ⟨f, arg, .storing⟩ →
      Step wrapper s (.stored i) { s.at i ⟨f, arg, .inserting⟩ with entryPoint := f }
  | inserted {s i f arg} : s.job i = some ⟨f, arg, .inserting⟩ → s.mapOwner = none →
      Step wrapper s (.inserted i)
        { s.at i ⟨f, arg, .spawning⟩ with fnMap := insertFn s.fnMap wrapper wrapper }
  | spawned {s i f arg} : s.job i = some ⟨f, arg, .spawning⟩ →
      Step wrapper s (.returned i 0) (s.at i ⟨f, arg, .created⟩)
  | spawnFailed {s i f arg ret} : s.job i = some ⟨f, arg, .spawning⟩ → ret ≠ 0 →
      Step wrapper s (.returned i ret) (s.at i ⟨f, arg, .failed ret⟩)
  | found {s i f arg} : s.job i = some ⟨f, arg, .created⟩ → s.mapOwner = none →
      getFn s.fnMap wrapper = some wrapper →
      Step wrapper s (.found i) { s.at i ⟨f, arg, .entering⟩ with mapOwner := some i }
  | foundOther {s i f arg g} : s.job i = some ⟨f, arg, .created⟩ → s.mapOwner = none →
      getFn s.fnMap wrapper = some g → g ≠ wrapper →
      Step wrapper s (.entered i g 0) { s.at i ⟨f, arg, .running⟩ with mapOwner := some i }
  | notFound {s i f arg} : s.job i = some ⟨f, arg, .created⟩ → s.mapOwner = none →
      getFn s.fnMap wrapper = none → Step wrapper s (.finished i) (s.at i ⟨f, arg, .done⟩)
  | entered {s i f arg} : s.job i = some ⟨f, arg, .entering⟩ → s.entryPoint ≠ 0 →
      Step wrapper s (.entered i s.entryPoint 0) (s.at i ⟨f, arg, .running⟩)
  | unset {s i f arg} : s.job i = some ⟨f, arg, .entering⟩ → s.entryPoint = 0 →
      Step wrapper s (.finished i) { s.at i ⟨f, arg, .done⟩ with mapOwner := none }
  | finished {s i f arg} : s.job i = some ⟨f, arg, .running⟩ →
      Step wrapper s (.finished i) { s.at i ⟨f, arg, .done⟩ with mapOwner := none }

def machine (ι : Type) [DecidableEq ι] (wrapper : Nat) : Machine (State ι) (Act ι) where
  init := ⟨0, none, none, fun _ => none⟩
  step := Step wrapper

end Libcsp.Thread
