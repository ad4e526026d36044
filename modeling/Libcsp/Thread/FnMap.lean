import Libcsp.Thread.Create

namespace Libcsp.FnMap
open Sys
open Thread (insertFn getFn)

/-- How far one call of `TestArch::thread_create` and its thread have come. `running`
is inside the function the thread has looked up. -/
inductive Stage
  | inserting
  | spawning
  | failed (ret : Int)
  | created
  | running (g : Nat)
  | done

structure Job where
  f : Nat
  stage : Stage

/-- `THREAD_FN_MAP` with the owner of its mutex, and the calls. -/
structure State (ι : Type) where
  fnMap : Option (Nat → Option Nat)
  owner : Option ι
  job : ι → Option Job

inductive Act (ι : Type)
  | called (i : ι) (f : Nat)
  | inserted (i : ι)
  | returned (i : ι) (ret : Int)
  | entered (i : ι) (g : Nat)
  | finished (i : ι)

variable {ι : Type} [DecidableEq ι]

def State.at (s : State ι) (i : ι) (job : Job) : State ι := { s with job := Function.update s.job i (some job) }

/-- The steps of any number of callers and threads. The creator locks the map, inserts
and drops the guard in one step. `thread_wrapper` binds its guard for the whole body, so
the mutex is free again only when the function has returned. -/
inductive Step : State ι → Act ι → State ι → Prop
  | called {s i f} : s.job i = none → Step s (.called i f) (s.at i ⟨f, .inserting⟩)
  | inserted {s i f} : s.job i = some ⟨f, .inserting⟩ → s.owner = none →
      Step s (.inserted i) { s.at i ⟨f, .spawning⟩ with fnMap := insertFn s.fnMap f f }
  | spawned {s i f} : s.job i = some ⟨f, .spawning⟩ → Step s (.returned i 0) (s.at i ⟨f, .created⟩)
  | spawnFailed {s i f ret} : s.job i = some ⟨f, .spawning⟩ → ret ≠ 0 →
      Step s (.returned i ret) (s.at i ⟨f, .failed ret⟩)
  | entered {s i f g} : s.job i = some ⟨f, .created⟩ → s.owner = none → getFn s.fnMap f = some g →
      Step s (.entered i g) { s.at i ⟨f, .running g⟩ with owner := some i }
  | notFound {s i f} : s.job i = some ⟨f, .created⟩ → s.owner = none → getFn s.fnMap f = none →
      Step s (.finished i) (s.at i ⟨f, .done⟩)
  | finished {s i f g} : s.job i = some ⟨f, .running g⟩ →
      Step s (.finished i) { s.at i ⟨f, .done⟩ with owner := none }

def machine (ι : Type) [DecidableEq ι] : Machine (State ι) (Act ι) where
  init := ⟨none, none, fun _ => none⟩
  step := Step

/-- Nobody holds the mutex while executing a thread function, and every creation and
every start of a created thread can go on. -/
structure Unblocked (s : State ι) : Prop where
  released : ∀ i f g, s.job i = some ⟨f, .running g⟩ → s.owner ≠ some i
  create : ∀ i f, s.job i = none → ∃ t u, Step s (.called i f) t ∧ Step t (.inserted i) u
  resume : ∀ i f, s.job i = some ⟨f, .inserting⟩ → ∃ t, Step s (.inserted i) t
  start : ∀ i f, s.job i = some ⟨f, .created⟩ → ∃ t, Step s (.entered i f) t

/-- The step is not the call of a thread function by its thread. -/
def EntersNone (_ : State ι) : Act ι → Prop
  | .entered _ _ => False
  | _ => True

/-- Whoever executes a function owns the mutex, and the function of a call that is past
its insertion is in the map. -/
structure Inv (s : State ι) : Prop where
  owned : ∀ i, s.owner = some i ↔ ∃ f g, s.job i = some ⟨f, .running g⟩
  mapped : ∀ i f, s.job i = some ⟨f, .spawning⟩ ∨ s.job i = some ⟨f, .created⟩ → getFn s.fnMap f = some f

theorem getFn_insertFn_keeps {fnMap : Option (Nat → Option Nat)} {key f : Nat} (found : getFn fnMap key = some key) :
    getFn (insertFn fnMap f f) key = some key := by
  by_cases same : key = f
  · subst same
    simp [getFn, insertFn]
  · cases fnMap with
    | none => exact nomatch found
    | some m => simpa [getFn, insertFn, Function.update_of_ne same] using found

/-- A step moves one call. The invariant asks of the others that the map still holds
their functions and that the mutex changes hands only between the mover and nobody. -/
theorem Inv.move {s : State ι} {i : ι} {job' : Job} {owner' : Option ι} {fnMap' : Option (Nat → Option Nat)}
    (inv : Inv s) (maps : ∀ f, getFn s.fnMap f = some f → getFn fnMap' f = some f)
    (others : ∀ j, j ≠ i → (owner' = some j ↔ s.owner = some j))
    (mine : owner' = some i ↔ ∃ g, job'.stage = .running g)
    (mapped : job'.stage = .spawning ∨ job'.stage = .created → getFn fnMap' job'.f = some job'.f) :
    Inv ⟨fnMap', owner', Function.update s.job i (some job')⟩ where
  owned := by
    intro j
    by_cases own : j = i
    · subst own
      simp only [mine, Function.update_self, Option.some.injEq]
      constructor
      · rintro ⟨g, running⟩
        exact ⟨job'.f, g, by rw [← running]⟩
      · rintro ⟨f, g, rfl⟩
        exact ⟨g, rfl⟩
    · simp only [others j own, Function.update_of_ne own, inv.owned j]
  mapped := by
    intro j f placed
    by_cases own : j = i
    · subst own
      simp only [Function.update_self, Option.some.injEq] at placed
      rcases placed with rfl | rfl
      · exact mapped (Or.inl rfl)
      · exact mapped (Or.inr rfl)
    · simp only [Function.update_of_ne own] at placed
      exact maps f (inv.mapped j f placed)

omit [DecidableEq ι] in
theorem Inv.not_owner {s : State ι} (inv : Inv s) {i : ι} {job : Job} (atJob : s.job i = some job)
    (idle : ∀ g, job.stage ≠ .running g) : s.owner ≠ some i := by
  intro owner
  obtain ⟨f, g, running⟩ := (inv.owned i).mp owner
  cases atJob.symm.trans running
  exact idle g rfl

theorem Inv.step {s t : State ι} {a : Act ι} (inv : Inv s) (taken : Step s a t) : Inv t := by
  cases taken with
  | @called i f fresh =>
    have notMine : s.owner ≠ some i := by
      intro owner
      obtain ⟨f, g, running⟩ := (inv.owned i).mp owner
      exact nomatch fresh.symm.trans running
    exact inv.move (fun _ => id) (fun _ _ => Iff.rfl) (by simp [notMine]) (by simp)
  | @inserted i f atJob free =>
    refine inv.move (fun _ => getFn_insertFn_keeps) (fun _ _ => Iff.rfl) (by simp [State.at, free]) ?_
    intro _
    simp [getFn, insertFn]
  | @spawned i f atJob =>
    have notMine := inv.not_owner atJob (by simp)
    exact inv.move (fun _ => id) (fun _ _ => Iff.rfl) (by simp [notMine]) fun _ => inv.mapped i f (Or.inl atJob)
  | @spawnFailed i f ret atJob _ =>
    have notMine := inv.not_owner atJob (by simp)
    exact inv.move (fun _ => id) (fun _ _ => Iff.rfl) (by simp [notMine]) (by simp)
  | @entered i f g atJob free look =>
    refine inv.move (fun _ => id) ?_ (by simp) (by simp)
    intro j other
    simp [free, Ne.symm other]
  | @notFound i f atJob free _ =>
    exact inv.move (fun _ => id) (fun _ _ => Iff.rfl) (by simp [free]) (by simp)
  | @finished i f g atJob =>
    have owner := (inv.owned i).mpr ⟨f, g, atJob⟩
    refine inv.move (fun _ => id) ?_ (by simp) (by simp)
    intro j other
    simp [owner, Ne.symm other]

theorem inv_init : Inv (machine ι).init where
  owned i := by simp [machine]
  mapped i f := by simp [machine]

/-- In a reachable state the mutex is all that stands in the way. -/
theorem Inv.unblocked_iff {s : State ι} (inv : Inv s) : Unblocked s ↔ s.owner = none := by
  constructor
  · intro unblocked
    cases owner : s.owner with
    | none => rfl
    | some i =>
      obtain ⟨f, g, running⟩ := (inv.owned i).mp owner
      exact absurd owner (unblocked.released i f g running)
  · intro free
    refine ⟨?_, ?_, ?_, ?_⟩
    · intro i f g _ owner
      exact nomatch free.symm.trans owner
    · intro i f fresh
      exact ⟨_, _, .called fresh, .inserted (Function.update_self ..) free⟩
    · intro i f atJob
      exact ⟨_, .inserted atJob free⟩
    · intro i f atJob
      exact ⟨_, .entered atJob free (inv.mapped i f (Or.inr atJob))⟩

theorem Step.owner_none {s t : State ι} {a : Act ι} (taken : Step s a t) (free : s.owner = none) :
    t.owner = none ↔ EntersNone s a := by
  cases taken with
  | entered => simp [EntersNone]
  | called | spawned | spawnFailed | inserted | notFound => simpa [EntersNone, State.at] using free
  | finished => simp [EntersNone]

/-- The runs in which thread functions block neither creation nor start, in any state
they pass, are exactly those in which no thread calls its function. -/
theorem thread_start_unblocked_iff (ι : Type) [DecidableEq ι] :
    Unblocked (machine ι).init ∧
    ∀ tr s, ((machine ι).confine fun _ => Unblocked).Run tr s ↔ ((machine ι).restrict EntersNone).Run tr s := by
  refine ⟨inv_init.unblocked_iff.mpr rfl, ?_⟩
  intro tr s
  refine Machine.confine_run_iff (Q := fun s => Inv s ∧ s.owner = none) ⟨inv_init, rfl⟩ ?_ ?_
  · intro s a t before taken
    rw [(before.1.step taken).unblocked_iff]
    exact Step.owner_none taken before.2
  · intro s a t before taken allowed
    exact ⟨before.1.step taken, (Step.owner_none taken before.2).mpr allowed⟩

/-- A thread that has entered its function, as a router loop never returning from it,
keeps a second thread from being created. -/
theorem running_thread_blocks :
    ∃ tr s, (machine (Fin 2)).Run tr s ∧ s.job 0 = some ⟨5, .running 5⟩ ∧ s.owner = some 0 ∧
      s.job 1 = some ⟨6, .inserting⟩ ∧ (¬ ∃ t, Step s (.inserted 1) t) ∧ ¬ Unblocked s := by
  have called : (machine (Fin 2)).Run [.called 0 5] _ := Machine.Run.start.next (Step.called rfl)
  have inserted := called.next (@Step.inserted _ _ _ 0 5 rfl rfl)
  have spawned := inserted.next (@Step.spawned _ _ _ 0 5 rfl)
  have entered := spawned.next (@Step.entered _ _ _ 0 5 5 rfl rfl rfl)
  have second := entered.next (@Step.called _ _ _ 1 6 rfl)
  refine ⟨_, _, second, rfl, rfl, rfl, ?_, fun unblocked => unblocked.released 0 5 5 rfl rfl⟩
  rintro ⟨t, taken⟩
  cases taken with
  | inserted _ free => exact nomatch free

/-- A call of the shim as `TestArch::thread_create` sees it: from the store on, with the
shim's wrapper as its function. -/
def seenBy (wrapper : Nat) (job : Thread.Job) : Option Job :=
  match job.stage with
  | .storing => none
  | .inserting => some ⟨wrapper, .inserting⟩
  | .spawning => some ⟨wrapper, .spawning⟩
  | .failed ret => some ⟨wrapper, .failed ret⟩
  | .created => some ⟨wrapper, .created⟩
  | .entering | .running => some ⟨wrapper, .running wrapper⟩
  | .done => some ⟨wrapper, .done⟩

def seenAct (wrapper : Nat) : Thread.Act ι → Option (Act ι)
  | .called _ _ _ | .entered _ _ _ => none
  | .stored i => some (.called i wrapper)
  | .inserted i => some (.inserted i)
  | .returned i ret => some (.returned i ret)
  | .found i => some (.entered i wrapper)
  | .finished i => some (.finished i)

structure Sees (wrapper : Nat) (s : Thread.State ι) (x : State ι) : Prop where
  fnMap : x.fnMap = s.fnMap
  owner : x.owner = s.mapOwner
  job : x.job = fun i => (s.job i).bind (seenBy wrapper)
  wrapped : ∀ g, getFn s.fnMap wrapper = some g → g = wrapper

theorem Sees.update {wrapper : Nat} {s : Thread.State ι} {x : State ι} (sees : Sees wrapper s x) {i : ι}
    {job : Thread.Job} {job' : Job} (seen : seenBy wrapper job = some job') :
    Function.update x.job i (some job') =
      fun j => (Function.update s.job i (some job) j).bind (seenBy wrapper) := by
  funext j
  rw [sees.job]
  by_cases own : j = i
  · subst own
    simp [seen]
  · simp [Function.update_of_ne own]

theorem Sees.quiet {wrapper : Nat} {s : Thread.State ι} {x : State ι} (sees : Sees wrapper s x) {i : ι}
    {job : Thread.Job} (same : (s.job i).bind (seenBy wrapper) = seenBy wrapper job) :
    x.job = fun j => (Function.update s.job i (some job) j).bind (seenBy wrapper) := by
  funext j
  rw [sees.job]
  by_cases own : j = i
  · subst own
    simp [same]
  · simp [Function.update_of_ne own]

/-- The machine of the shim runs on top of this one. -/
theorem refines_thread (wrapper : Nat) :
    Refines (Thread.machine ι wrapper) (machine ι) (Sees wrapper) (seenAct wrapper) where
  init := ⟨rfl, rfl, rfl, nofun⟩
  visible := by
    intro s a t x b sees taken seen
    have atJob : ∀ i job, s.job i = some job → x.job i = seenBy wrapper job := by
      intro i job same
      simp only [sees.job, same, Option.bind_some]
    cases taken with
    | called => exact nomatch seen
    | entered => exact nomatch seen
    | foundOther => exact nomatch seen
    | @stored i f arg placed =>
      cases seen
      exact ⟨_, .called (atJob i _ placed), sees.fnMap, sees.owner, sees.update rfl, sees.wrapped⟩
    | @inserted i f arg placed free =>
      cases seen
      refine ⟨_, .inserted (atJob i _ placed) (sees.owner.trans free), ?_, sees.owner, sees.update rfl, ?_⟩
      · rw [sees.fnMap]
      · simp [getFn, insertFn]
    | @spawned i f arg placed =>
      cases seen
      exact ⟨_, .spawned (atJob i _ placed), sees.fnMap, sees.owner, sees.update rfl, sees.wrapped⟩
    | @spawnFailed i f arg ret placed nonzero =>
      cases seen
      exact ⟨_, .spawnFailed (atJob i _ placed) nonzero, sees.fnMap, sees.owner, sees.update rfl, sees.wrapped⟩
    | @found i f arg placed free look =>
      cases seen
      refine ⟨_, .entered (atJob i _ placed) (sees.owner.trans free) (by rw [sees.fnMap]; exact look),
        sees.fnMap, rfl, sees.update rfl, sees.wrapped⟩
    | @notFound i f arg placed free look =>
      cases seen
      exact ⟨_, .notFound (atJob i _ placed) (sees.owner.trans free) (by rw [sees.fnMap]; exact look),
        sees.fnMap, sees.owner, sees.update rfl, sees.wrapped⟩
    | @unset i f arg placed _ =>
      cases seen
      exact ⟨_, .finished (atJob i _ placed), sees.fnMap, rfl, sees.update rfl, sees.wrapped⟩
    | @finished i f arg placed =>
      cases seen
      exact ⟨_, .finished (atJob i _ placed), sees.fnMap, rfl, sees.update rfl, sees.wrapped⟩
  silent := by
    intro s a t x sees taken seen
    cases taken with
    | @called i f arg fresh _ =>
      exact ⟨sees.fnMap, sees.owner, sees.quiet (by rw [fresh]; rfl), sees.wrapped⟩
    | @entered i f arg placed _ =>
      exact ⟨sees.fnMap, sees.owner, sees.quiet (by rw [placed]; rfl), sees.wrapped⟩
    | @foundOther i f arg g placed _ look differs => exact absurd (sees.wrapped g look) differs
    | stored | inserted | spawned | spawnFailed | found | notFound | unset | finished => exact nomatch seen

end Libcsp.FnMap
