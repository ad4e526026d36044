import Libcsp.Thread.Create

namespace Libcsp.Thread
open Sys

variable {ι : Type} [DecidableEq ι] {wrapper : Nat}

def Stage.waiting : Stage → Bool
  | .inserting | .spawning | .created | .entering => true
  | _ => false

def Stage.started : Stage → Bool
  | .running | .done => true
  | _ => false

def Act.entryOf (i : ι) : Act ι → Option (Nat × Nat)
  | .entered j f arg => if j = i then some (f, arg) else none
  | _ => none

/-- The thread of every call has called the function it was created for, with the
argument it was created for, once if it has started and not at all if it has not. -/
def RunsOwnEntry (tr : List (Act ι)) (s : State ι) : Prop :=
  ∀ i f arg, .called i f arg ∈ tr → ∃ job, s.job i = some job ∧
    tr.filterMap (Act.entryOf i) = if job.stage.started then [(f, arg)] else []

/-- No argument is passed, and an entry point is stored only while everyone who is yet
to load one was created for the same. -/
def Disciplined (s : State ι) : Act ι → Prop
  | .called _ _ arg => arg = 0
  | .stored i => ∀ job other j, s.job i = some job → s.job j = some other → other.stage.waiting → other.f = job.f
  | _ => True

structure JobFact (entryPoint : Nat) (fnMap : Option (Nat → Option Nat)) (wrapper : Nat) (job : Job) : Prop where
  nonnull : job.f ≠ 0
  noArg : job.arg = 0
  slot : job.stage.waiting → entryPoint = job.f
  mapped : job.stage = .spawning ∨ job.stage = .created → getFn fnMap wrapper = some wrapper

/-- The labels of one call: its data, and that its thread has run it iff it has started. -/
def Logged (tr : List (Act ι)) (i : ι) : Option Job → Prop
  | none => (∀ f arg, .called i f arg ∉ tr) ∧ tr.filterMap (Act.entryOf i) = []
  | some job => (∀ f arg, .called i f arg ∈ tr → f = job.f ∧ arg = job.arg) ∧
      tr.filterMap (Act.entryOf i) = if job.stage.started then [(job.f, job.arg)] else []

structure Inv (wrapper : Nat) (tr : List (Act ι)) (s : State ι) : Prop where
  jobs : ∀ i job, s.job i = some job → JobFact s.entryPoint s.fnMap wrapper job
  logged : ∀ i, Logged tr i (s.job i)

theorem getFn_insertFn (fnMap : Option (Nat → Option Nat)) (key f : Nat) :
    getFn (insertFn fnMap key f) key = some f := by
  simp [getFn, insertFn]

theorem Logged.neutral {tr : List (Act ι)} {i : ι} {job : Option Job} {a : Act ι} (logged : Logged tr i job)
    (noCall : ∀ f arg, a ≠ .called i f arg) (noEntry : a.entryOf i = none) : Logged (tr ++ [a]) i job := by
  cases job with
  | none =>
    refine ⟨?_, by rw [filterMap_concat, noEntry, logged.2]; rfl⟩
    intro f arg member
    rcases List.mem_append.mp member with earlier | last
    · exact logged.1 f arg earlier
    · exact noCall f arg (List.mem_singleton.mp last).symm
  | some job =>
    refine ⟨?_, by rw [filterMap_concat, noEntry, logged.2, Option.toList_none, List.append_nil]⟩
    intro f arg member
    rcases List.mem_append.mp member with earlier | last
    · exact logged.1 f arg earlier
    · exact absurd (List.mem_singleton.mp last).symm (noCall f arg)

theorem Logged.stage {tr : List (Act ι)} {i : ι} {f arg : Nat} {stage stage' : Stage}
    (logged : Logged tr i (some ⟨f, arg, stage⟩)) (same : stage'.started = stage.started) :
    Logged tr i (some ⟨f, arg, stage'⟩) :=
  ⟨logged.1, by rw [logged.2, same]⟩

def Act.by : Act ι → ι
  | .called i _ _ | .stored i | .inserted i | .returned i _ | .found i | .entered i _ _ | .finished i => i

theorem Act.quiet {a : Act ι} {j : ι} (other : j ≠ a.by) :
    (∀ f arg, a ≠ .called j f arg) ∧ a.entryOf j = none := by
  cases a with
  | called i f arg =>
    refine ⟨?_, rfl⟩
    intro f' arg' same
    cases same
    exact other rfl
  | entered i f arg => exact ⟨fun _ _ => nofun, if_neg (Ne.symm other)⟩
  | stored | inserted | returned | found | finished => exact ⟨fun _ _ => nofun, rfl⟩

/-- A step moves one call. The others keep their facts as long as the statics still
fit them. -/
theorem Inv.move {tr : List (Act ι)} {s : State ι} {a : Act ι} {job' : Job} {entryPoint' : Nat}
    {fnMap' : Option (Nat → Option Nat)} {mapOwner' : Option ι} (inv : Inv wrapper tr s)
    (mine : JobFact entryPoint' fnMap' wrapper job') (log : Logged (tr ++ [a]) a.by (some job'))
    (others : ∀ j other, s.job j = some other → JobFact s.entryPoint s.fnMap wrapper other →
      JobFact entryPoint' fnMap' wrapper other) :
    Inv wrapper (tr ++ [a]) ⟨entryPoint', fnMap', mapOwner', Function.update s.job a.by (some job')⟩ where
  jobs := by
    intro j job atJob
    by_cases own : j = a.by
    · subst own
      simp only [Function.update_self, Option.some.injEq] at atJob
      exact atJob ▸ mine
    · simp only [Function.update_of_ne own] at atJob
      exact others j job atJob (inv.jobs j job atJob)
  logged := (Function.forall_update_iff _ _).mpr ⟨log, fun j other =>
    (inv.logged j).neutral (Act.quiet other).1 (Act.quiet other).2⟩

theorem Inv.advance {tr : List (Act ι)} {s : State ι} {a : Act ι} {f arg : Nat} {stage stage' : Stage}
    {mapOwner' : Option ι} (inv : Inv wrapper tr s) (atJob : s.job a.by = some ⟨f, arg, stage⟩)
    (noCall : ∀ i f arg, a ≠ .called i f arg) (noEntry : a.entryOf a.by = none)
    (started : stage'.started = stage.started) (waiting : stage'.waiting → stage.waiting)
    (mapped : stage' = .spawning ∨ stage' = .created → stage = .spawning ∨ stage = .created) :
    Inv wrapper (tr ++ [a])
      ⟨s.entryPoint, s.fnMap, mapOwner', Function.update s.job a.by (some ⟨f, arg, stage'⟩)⟩ := by
  have fact := inv.jobs _ _ atJob
  have logged := inv.logged a.by
  rw [atJob] at logged
  exact inv.move ⟨fact.nonnull, fact.noArg, fun waits => fact.slot (waiting waits), fun placed => fact.mapped (mapped placed)⟩
    ((logged.stage started).neutral (noCall _) noEntry) fun _ _ _ same => same

theorem Inv.step {tr : List (Act ι)} {s t : State ι} {a : Act ι} (inv : Inv wrapper tr s)
    (taken : Step wrapper s a t) (disciplined : Disciplined s a) : Inv wrapper (tr ++ [a]) t := by
  cases taken with
  | @called i f arg fresh nonnull =>
    have logged := inv.logged i
    rw [fresh] at logged
    refine inv.move (a := .called i f arg) ⟨nonnull, disciplined, nofun, by rintro (same | same) <;> cases same⟩
      ⟨?_, ?_⟩ fun _ _ _ same => same
    · intro f' arg' member
      rcases List.mem_append.mp member with earlier | last
      · exact absurd earlier (logged.1 f' arg')
      · cases List.mem_singleton.mp last
        exact ⟨rfl, rfl⟩
    · rw [filterMap_concat]
      simpa [Act.entryOf, Stage.started, Act.by] using logged.2
  | @stored i f arg atJob =>
    have fact := inv.jobs _ _ atJob
    have logged := inv.logged i
    rw [atJob] at logged
    refine inv.move (a := .stored i) ⟨fact.nonnull, fact.noArg, fun _ => rfl, by rintro (same | same) <;> cases same⟩
      ((logged.stage rfl).neutral (fun _ _ => nofun) rfl) ?_
    intro j other atOther before
    exact ⟨before.nonnull, before.noArg, fun waits => (disciplined _ _ _ atJob atOther waits).symm, before.mapped⟩
  | @inserted i f arg atJob _ =>
    have fact := inv.jobs _ _ atJob
    have logged := inv.logged i
    rw [atJob] at logged
    refine inv.move (a := .inserted i) ⟨fact.nonnull, fact.noArg, fun _ => fact.slot rfl, fun _ => getFn_insertFn ..⟩
      ((logged.stage rfl).neutral (fun _ _ => nofun) rfl) ?_
    intro j other _ before
    exact ⟨before.nonnull, before.noArg, before.slot, fun _ => getFn_insertFn ..⟩
  | @spawned i f arg atJob =>
    exact inv.advance (a := .returned i 0) atJob (fun _ _ _ => nofun) rfl rfl (fun _ => rfl) fun _ => Or.inl rfl
  | @spawnFailed i f arg ret atJob _ =>
    exact inv.advance (a := .returned i ret) atJob (fun _ _ _ => nofun) rfl rfl nofun
      (by rintro (same | same) <;> cases same)
  | @found i f arg atJob _ _ =>
    exact inv.advance (a := .found i) atJob (fun _ _ _ => nofun) rfl rfl (fun _ => rfl)
      (by rintro (same | same) <;> cases same)
  | @foundOther i f arg g atJob _ look differs =>
    have wrapped := (inv.jobs _ _ atJob).mapped (Or.inr rfl)
    exact absurd (Option.some.inj (look.symm.trans wrapped)) differs
  | @notFound i f arg atJob _ look =>
    have wrapped := (inv.jobs _ _ atJob).mapped (Or.inr rfl)
    exact nomatch look.symm.trans wrapped
  | @entered i f arg atJob _ =>
    have fact := inv.jobs _ _ atJob
    have logged := inv.logged i
    have slot : s.entryPoint = f := fact.slot rfl
    have null : arg = 0 := fact.noArg
    rw [atJob] at logged
    refine inv.move (a := .entered i s.entryPoint 0) ⟨fact.nonnull, fact.noArg, nofun, by rintro (same | same) <;> cases same⟩
      ⟨?_, ?_⟩ fun _ _ _ same => same
    · intro f' arg' member
      rcases List.mem_append.mp member with earlier | last
      · exact logged.1 f' arg' earlier
      · exact nomatch List.mem_singleton.mp last
    · rw [filterMap_concat]
      have before : tr.filterMap (Act.entryOf i) = [] := logged.2
      simp [Act.entryOf, Act.by, before, Stage.started, slot, null]
  | @unset i f arg atJob zero =>
    have fact := inv.jobs _ _ atJob
    exact absurd ((fact.slot rfl).symm.trans zero) fact.nonnull
  | @finished i f arg atJob =>
    exact inv.advance (a := .finished i) atJob (fun _ _ _ => nofun) rfl rfl nofun
      (by rintro (same | same) <;> cases same)

/-- In a disciplined run every thread calls its own entry point with its own argument. -/
theorem thread_runs_own_entry {tr : List (Act ι)} {s : State ι}
    (run : ((machine ι wrapper).restrict Disciplined).Run tr s) : RunsOwnEntry tr s := by
  have inv : Inv wrapper tr s := by
    refine run.history (P := Inv wrapper) ?_ ?_
    · exact ⟨fun _ _ => nofun, fun _ => ⟨fun _ _ => List.not_mem_nil, rfl⟩⟩
    · intro tr s a t before taken
      exact before.step taken.1 taken.2
  intro i f arg member
  have logged := inv.logged i
  cases atJob : s.job i with
  | none =>
    rw [atJob] at logged
    exact absurd member (logged.1 f arg)
  | some job =>
    rw [atJob] at logged
    obtain ⟨rfl, rfl⟩ := logged.1 f arg member
    exact ⟨job, rfl, logged.2⟩

theorem created_run (i : ι) : ∃ s, ((machine ι 1).restrict Disciplined).Run
      [.called i 5 0, .stored i, .inserted i, .returned i 0] s ∧
    s.job = Function.update (fun _ => none) i (some ⟨5, 0, .created⟩) ∧ s.entryPoint = 5 ∧
    s.mapOwner = none ∧ getFn s.fnMap 1 = some 1 := by
  have called : ((machine ι 1).restrict Disciplined).Run [.called i 5 0] _ :=
    Machine.Run.start.next ⟨Step.called rfl (by decide), rfl⟩
  have alone : Disciplined ((machine ι 1).init.at i ⟨5, 0, .storing⟩) (.stored i) := by
    intro job other j _ atOther waits
    by_cases own : j = i
    · rw [own, State.at_job_self] at atOther
      cases atOther
      exact nomatch waits
    · rw [State.at_job_of_ne _ _ own] at atOther
      exact nomatch atOther
  have stored := called.next ⟨@Step.stored _ _ _ _ i 5 0 (State.at_job_self ..), alone⟩
  have inserted := stored.next ⟨@Step.inserted _ _ _ _ i 5 0 (State.at_job_self ..) rfl, trivial⟩
  have returned := inserted.next ⟨@Step.spawned _ _ _ _ i 5 0 (State.at_job_self ..), trivial⟩
  refine ⟨_, returned, ?_, rfl, rfl, by simp [State.at, getFn_insertFn]⟩
  simp [State.at, machine, Machine.restrict]

/-- The second call begins before the first thread runs, and stores its entry point when
that thread has loaded its own. -/
def createdInTurn : List (Act Bool) :=
  [.called false 5 0, .stored false, .inserted false, .returned false 0, .called true 6 0, .found false,
    .entered false 5 0, .stored true, .finished false, .inserted true, .returned true 0, .found true, .entered true 6 0]

theorem thread_runs_own_entry_in_turn :
    ∃ s, ((machine Bool 1).restrict Disciplined).Run createdInTurn s ∧ RunsOwnEntry createdInTurn s := by
  obtain ⟨⟨_, _, _, _⟩, created, rfl, rfl, rfl, mapped⟩ := created_run false
  have called := created.next ⟨@Step.called _ _ _ _ true 6 0 rfl (by decide), rfl⟩
  have found := called.next ⟨@Step.found _ _ _ _ false 5 0 rfl rfl mapped, trivial⟩
  have entered := found.next ⟨@Step.entered _ _ _ _ false 5 0 rfl (by simp), trivial⟩
  have stored := entered.next ⟨@Step.stored _ _ _ _ true 6 0 rfl, fun job other j atJob atOther waits => by
    match j with
    | false => cases atOther; exact nomatch waits
    | true => cases atOther; exact nomatch waits⟩
  have finished := stored.next ⟨@Step.finished _ _ _ _ false 5 0 rfl, trivial⟩
  have inserted := finished.next ⟨@Step.inserted _ _ _ _ true 6 0 rfl rfl, trivial⟩
  have returned := inserted.next ⟨@Step.spawned _ _ _ _ true 6 0 rfl, trivial⟩
  have secondFound := returned.next ⟨@Step.found _ _ _ _ true 6 0 rfl rfl rfl, trivial⟩
  have secondEntered := secondFound.next ⟨@Step.entered _ _ _ _ true 6 0 rfl (by simp), trivial⟩
  exact ⟨_, secondEntered, thread_runs_own_entry secondEntered⟩

/-- A second creation stores its entry point before the first thread runs: the first
thread calls the second function. -/
theorem thread_runs_other_entry :
    ∃ tr s, (machine (Fin 2) 1).Run tr s ∧ .called 0 5 0 ∈ tr ∧ .returned 0 0 ∈ tr ∧ .entered 0 6 0 ∈ tr ∧
      ¬ RunsOwnEntry tr s := by
  obtain ⟨s, created, jobs, slot, free, mapped⟩ := @created_run (Fin 2) _ 0
  have called := created.of_restrict.next (@Step.called _ _ _ _ 1 6 0 (by rw [jobs]; rfl) (by decide))
  have stored := called.next (@Step.stored _ _ _ _ 1 6 0 (by simp))
  have found := stored.next (@Step.found _ _ _ _ 0 5 0 (by simp [State.at, jobs]) free mapped)
  have entered := found.next (@Step.entered _ _ _ _ 0 5 0 (by simp) (by simp))
  refine ⟨_, _, entered, by simp, by simp, by simp, ?_⟩
  intro own
  obtain ⟨job, atJob, entries⟩ := own 0 5 0 (by simp)
  cases atJob
  exact nomatch entries

end Libcsp.Thread
