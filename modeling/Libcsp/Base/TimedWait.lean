import Libcsp.Base.Machine

namespace Sys

/-- When a sleeper wants to be called: not at all, at a time, or a while after it lay down. -/
inductive Alarm
  | never
  | at (time : Nat)
  | after (time : Nat)
  deriving DecidableEq

def Alarm.ring (now : Nat) : Alarm → Option Nat
  | .never => none
  | .at time => some time
  | .after time => some (now + time)

/-- What a loop that waits for something does when it finds nothing. -/
inductive Blocked
  | giveUp
  | again
  | sleep (alarm : Alarm)
  deriving DecidableEq

namespace Waiter

/-- A loop decides by the time at which its wait began and the time that it reads, both on the
clock that it uses: the steady one, or the one of the day, which can be set. The sleep of an
interruptible one can be cut short, and the wait then fails. -/
structure Loop where
  blocked : Nat → Nat → Blocked
  ofDay : Bool
  interruptible : Bool

/-- A wait carries the time at which it began, as its clock had it. -/
inductive Phase
  | idle
  | testing (start : Nat)
  | decided (start : Nat) (verdict : Blocked)
  | sleeping (start : Nat) (wakeAt : Option Nat)
  deriving DecidableEq

def Phase.start? : Phase → Option Nat
  | .idle => none
  | .testing start | .decided start _ | .sleeping start _ => some start

/-- The steady clock and the one of the day, and when the wait under way began. -/
structure State where
  now : Nat
  day : Nat
  began : Nat
  available : Bool
  phase : Phase

/-- What the clock of a loop shows. -/
def Loop.reading (loop : Loop) (s : State) : Nat := if loop.ofDay then s.day else s.now

inductive Act
  | passes (time : Nat)
  | sets (day : Nat)
  | turns (available : Bool)
  | calls
  | takes
  | reads (start : Nat)
  | givesUp
  | spins
  | sleeps
  | wakes
  | expires
  | interrupted

/-- One wait after another, while time passes, the clock of the day is set, and others take and
give what is waited for. A sleeper can be woken at any time, and by its clock when its time has
come. -/
inductive Step (loop : Loop) : State → Act → State → Prop
  | passes {s time} : Step loop s (.passes time) { s with now := s.now + time, day := s.day + time }
  | sets {s day} : Step loop s (.sets day) { s with day }
  | turns {s available} : Step loop s (.turns available) { s with available }
  | calls {s} : s.phase = .idle → Step loop s .calls { s with began := s.now, phase := .testing (loop.reading s) }
  | takes {s start} : s.phase = .testing start → s.available = true →
      Step loop s .takes { s with available := false, phase := .idle }
  | reads {s start} : s.phase = .testing start → s.available = false →
      Step loop s (.reads start) { s with phase := .decided start (loop.blocked start (loop.reading s)) }
  | givesUp {s start} : s.phase = .decided start .giveUp → Step loop s .givesUp { s with phase := .idle }
  | spins {s start} : s.phase = .decided start .again → Step loop s .spins { s with phase := .testing start }
  | sleeps {s start alarm} : s.phase = .decided start (.sleep alarm) →
      Step loop s .sleeps { s with phase := .sleeping start (alarm.ring (loop.reading s)) }
  | wakes {s start wakeAt} : s.phase = .sleeping start wakeAt → Step loop s .wakes { s with phase := .testing start }
  | expires {s start wakeAt} : s.phase = .sleeping start (some wakeAt) → wakeAt ≤ loop.reading s →
      Step loop s .expires { s with phase := .idle }
  | interrupted {s start wakeAt} : s.phase = .sleeping start wakeAt → loop.interruptible = true →
      Step loop s .interrupted { s with phase := .idle }

def machine (loop : Loop) (day : Nat) : Machine State Act where
  init := ⟨0, day, 0, false, .idle⟩
  step := Step loop

/-- Nobody sets the clock that the loop goes by. -/
def Unset (loop : Loop) (_ : State) : Act → Prop
  | .sets _ => loop.ofDay = false
  | _ => True

/-- A wait that fails, and was not interrupted, has lasted. -/
def NotEarly (limit : Nat) (s : State) : Act → State → Prop
  | .givesUp, _ | .expires, _ => s.began + limit ≤ s.now
  | _, _ => True

/-- Who looks at the clock when the limit is over gives up. -/
def Firm (limit : Nat) (s : State) : Act → State → Prop
  | .reads start, t => s.began + limit ≤ s.now → t.phase = .decided start .giveUp
  | _, _ => True

/-- A sleeper is called just when the limit is over. -/
def Due (loop : Loop) (limit : Nat) (s : State) : Prop :=
  ∀ start wakeAt, s.phase = .sleeping start wakeAt →
    ∃ time, wakeAt = some time ∧ time + s.now = s.began + limit + loop.reading s

/-- The loop does not give up, or have itself called, before the limit. -/
structure Patient (loop : Loop) (limit : Nat) : Prop where
  giveUp : ∀ start now, start ≤ now → loop.blocked start now = .giveUp → start + limit ≤ now
  sleep : ∀ start read alarm now, start ≤ read → read ≤ now → loop.blocked start read = .sleep alarm →
    ∀ time ∈ alarm.ring now, start + limit ≤ time

/-- As much time has passed since the wait began as its clock says. -/
def Measured (loop : Loop) (s : State) : Prop :=
  ∀ start, s.phase.start? = some start → start + s.now = s.began + loop.reading s

structure Inv (loop : Loop) (limit : Nat) (s : State) : Prop where
  testing : ∀ start, s.phase = .testing start → start ≤ loop.reading s
  decided : ∀ start verdict, s.phase = .decided start verdict →
    ∃ read, start ≤ read ∧ read ≤ loop.reading s ∧ verdict = loop.blocked start read
  sleeping : ∀ start wakeAt, s.phase = .sleeping start wakeAt →
    start ≤ loop.reading s ∧ ∀ time ∈ wakeAt, start + limit ≤ time

variable {loop : Loop} {limit day : Nat} {s t : State} {a : Act} {tr : List Act}

theorem reading_passes (s : State) (time : Nat) :
    loop.reading { s with now := s.now + time, day := s.day + time } = loop.reading s + time := by
  unfold Loop.reading
  split_ifs <;> rfl

/-- A step that leaves the clock of the loop alone. -/
theorem reading_step (step : Step loop s a t) (unset : Unset loop s a) (running : ∀ time, a ≠ .passes time) :
    loop.reading t = loop.reading s := by
  cases step with
  | @passes time => exact absurd rfl (running time)
  | @sets day =>
    have steady : loop.ofDay = false := unset
    simp [Loop.reading, steady]
  | _ => rfl

theorem Measured.step (measured : Measured loop s) (step : Step loop s a t) (unset : Unset loop s a) :
    Measured loop t := by
  by_cases running : ∃ time, a = .passes time
  · obtain ⟨time, rfl⟩ := running
    cases step
    intro start phase
    rw [reading_passes]
    have before := measured start phase
    dsimp only
    omega
  · have same := reading_step step unset fun time passes => running ⟨time, passes⟩
    intro start phase
    rw [same]
    cases step with
    | passes => exact absurd ⟨_, rfl⟩ running
    | sets => exact measured start phase
    | turns => exact measured start phase
    | calls =>
      cases phase
      exact Nat.add_comm ..
    | reads testing =>
      cases phase
      exact measured _ (by rw [testing]; rfl)
    | spins decided | sleeps decided =>
      cases phase
      exact measured _ (by rw [decided]; rfl)
    | wakes sleeping =>
      cases phase
      exact measured _ (by rw [sleeping]; rfl)
    | takes | givesUp | expires | interrupted => exact nomatch phase

theorem measured_run (run : ((machine loop day).restrict (Unset loop)).Run tr s) : Measured loop s :=
  run.invariant nofun fun measured taken => measured.step taken.1 taken.2

theorem Inv.idle (now : s.phase = .idle) : Inv loop limit s := by
  refine ⟨?_, ?_, ?_⟩
  · intro start phase
    exact nomatch now.symm.trans phase
  · intro start verdict phase
    exact nomatch now.symm.trans phase
  · intro start wakeAt phase
    exact nomatch now.symm.trans phase

theorem Inv.began {start : Nat} (now : s.phase = .testing start) (before : start ≤ loop.reading s) : Inv loop limit s := by
  refine ⟨?_, ?_, ?_⟩
  · intro _ phase
    cases now.symm.trans phase
    exact before
  · intro _ _ phase
    exact nomatch now.symm.trans phase
  · intro _ _ phase
    exact nomatch now.symm.trans phase

/-- The clock goes on while the wait stays where it is. -/
theorem Inv.later (inv : Inv loop limit s) (phase : t.phase = s.phase) (later : loop.reading s ≤ loop.reading t) :
    Inv loop limit t := by
  refine ⟨?_, ?_, ?_⟩
  · intro start testing
    exact Nat.le_trans (inv.testing start (phase.symm.trans testing)) later
  · intro start verdict decided
    obtain ⟨read, after, before, same⟩ := inv.decided start verdict (phase.symm.trans decided)
    exact ⟨read, after, Nat.le_trans before later, same⟩
  · intro start wakeAt sleeping
    obtain ⟨before, called⟩ := inv.sleeping start wakeAt (phase.symm.trans sleeping)
    exact ⟨Nat.le_trans before later, called⟩

theorem Inv.step (patient : Patient loop limit) (inv : Inv loop limit s) (step : Step loop s a t)
    (unset : Unset loop s a) : Inv loop limit t := by
  cases step with
  | @passes time =>
    refine inv.later rfl ?_
    rw [reading_passes]
    exact Nat.le_add_right ..
  | sets => exact inv.later rfl (Nat.le_of_eq (reading_step .sets unset (fun _ => nofun)).symm)
  | turns => exact inv.later rfl (Nat.le_refl _)
  | calls => exact .began rfl (Nat.le_refl _)
  | takes => exact .idle rfl
  | @reads start phase empty =>
    refine ⟨nofun, ?_, nofun⟩
    intro _ _ same
    cases same
    exact ⟨loop.reading s, inv.testing start phase, Nat.le_refl _, rfl⟩
  | givesUp => exact .idle rfl
  | @spins start phase =>
    obtain ⟨read, after, before, -⟩ := inv.decided start _ phase
    exact .began rfl (Nat.le_trans after before)
  | @sleeps start alarm phase =>
    obtain ⟨read, after, before, verdict⟩ := inv.decided start _ phase
    refine ⟨nofun, nofun, ?_⟩
    intro _ _ same
    cases same
    exact ⟨Nat.le_trans after before, patient.sleep start read alarm _ after before verdict.symm⟩
  | @wakes start wakeAt phase => exact .began rfl (inv.sleeping start wakeAt phase).1
  | expires => exact .idle rfl
  | interrupted => exact .idle rfl

theorem Inv.notEarly (patient : Patient loop limit) (inv : Inv loop limit s) (measured : Measured loop s)
    (step : Step loop s a t) : NotEarly limit s a t := by
  cases step with
  | @givesUp start phase =>
    obtain ⟨read, after, before, verdict⟩ := inv.decided start _ phase
    have lasted := patient.giveUp start read after verdict.symm
    have elapsed := measured start (by rw [phase]; rfl)
    show s.began + limit ≤ s.now
    omega
  | @expires start wakeAt phase due =>
    have lasted := (inv.sleeping start _ phase).2 wakeAt rfl
    have elapsed := measured start (by rw [phase]; rfl)
    show s.began + limit ≤ s.now
    omega
  | _ => trivial

theorem patient_run (patient : Patient loop limit) (run : ((machine loop day).restrict (Unset loop)).Run tr s) :
    ((machine loop day).obey (NotEarly limit)).Run tr s := by
  suffices ((machine loop day).obey (NotEarly limit)).Run tr s ∧ Inv loop limit s from this.1
  induction run with
  | start => exact ⟨.start, .idle rfl⟩
  | next before taken ih =>
    obtain ⟨obeys, inv⟩ := ih
    have onTime := inv.notEarly patient (measured_run before) taken.1
    exact ⟨obeys.next ⟨taken.1, onTime⟩, inv.step patient taken.1 taken.2⟩

theorem firm_run (firm : ∀ start now, start + limit ≤ now → loop.blocked start now = .giveUp)
    (run : ((machine loop day).restrict (Unset loop)).Run tr s) : ((machine loop day).obey (Firm limit)).Run tr s := by
  induction run with
  | start => exact .start
  | @next tr s a t before taken ih =>
    have measured := measured_run before
    obtain ⟨step, -⟩ := taken
    refine ih.next ⟨step, ?_⟩
    cases step with
    | @reads start phase empty =>
      intro late
      have elapsed := measured start (by rw [phase]; rfl)
      simp only [firm start (loop.reading s) (by omega)]
    | _ => trivial

theorem due_run (punctual : ∀ start read alarm now, loop.blocked start read = .sleep alarm →
    alarm.ring now = some (start + limit)) (run : ((machine loop day).restrict (Unset loop)).Run tr s) :
    Due loop limit s := by
  suffices (∀ start wakeAt, s.phase = .sleeping start wakeAt → wakeAt = some (start + limit)) ∧
      ∀ start verdict, s.phase = .decided start verdict → ∃ read, loop.blocked start read = verdict by
    intro start wakeAt phase
    have elapsed := measured_run run start (by rw [phase]; rfl)
    exact ⟨start + limit, this.1 start wakeAt phase, by omega⟩
  induction run with
  | start => exact ⟨nofun, nofun⟩
  | @next tr s a t _ taken ih =>
    obtain ⟨due, decided⟩ := ih
    cases taken.1 with
    | passes => exact ⟨due, decided⟩
    | sets => exact ⟨due, decided⟩
    | turns => exact ⟨due, decided⟩
    | @reads start phase empty =>
      refine ⟨nofun, ?_⟩
      intro _ _ same
      cases same
      exact ⟨loop.reading s, rfl⟩
    | @sleeps start alarm phase =>
      obtain ⟨read, verdict⟩ := decided start _ phase
      refine ⟨?_, nofun⟩
      intro _ _ same
      cases same
      exact punctual start read alarm _ verdict
    | _ => exact ⟨nofun, nofun⟩

/-- Setting the clock of the day does not matter to a loop that uses the steady one. -/
theorem steady_run (steady : loop.ofDay = false) (run : (machine loop day).Run tr s) :
    ((machine loop day).restrict (Unset loop)).Run tr s := by
  induction run with
  | start => exact .start
  | @next tr s a t _ taken ih =>
    refine ih.next ⟨taken, ?_⟩
    cases a with
    | sets => exact steady
    | _ => trivial

/-- A run in which no wait ends for the time. -/
structure Endless (tr : List Act) (s : State) : Prop where
  kept : .givesUp ∉ tr ∧ .expires ∉ tr
  uncalled : ∀ start wakeAt, s.phase ≠ .sleeping start (some wakeAt)
  undecided : ∀ start verdict, s.phase = .decided start verdict → verdict = .again ∨ verdict = .sleep .never

/-- A loop that neither gives up nor has itself called waits for ever. -/
theorem endless_run (forever : ∀ start now, loop.blocked start now = .again ∨ loop.blocked start now = .sleep .never)
    (run : (machine loop day).Run tr s) : Endless tr s := by
  induction run with
  | start => exact ⟨⟨nofun, nofun⟩, nofun, nofun⟩
  | @next tr s a t _ taken ih =>
    obtain ⟨⟨noGiveUp, noExpiry⟩, uncalled, undecided⟩ := ih
    have grown : a ≠ .givesUp → a ≠ .expires → .givesUp ∉ tr ++ [a] ∧ .expires ∉ tr ++ [a] := by
      intro stays goesOn
      simp [noGiveUp, noExpiry, stays.symm, goesOn.symm]
    cases taken with
    | @givesUp start phase =>
      obtain verdict | verdict := undecided start _ phase
      · exact nomatch verdict
      · exact nomatch verdict
    | @expires start wakeAt phase due => exact absurd phase (uncalled start wakeAt)
    | passes => exact ⟨grown nofun nofun, uncalled, undecided⟩
    | sets => exact ⟨grown nofun nofun, uncalled, undecided⟩
    | turns => exact ⟨grown nofun nofun, uncalled, undecided⟩
    | @reads start phase empty =>
      refine ⟨grown nofun nofun, nofun, ?_⟩
      intro _ _ same
      cases same
      exact forever start _
    | @sleeps start alarm phase =>
      refine ⟨grown nofun nofun, ?_, nofun⟩
      intro _ _ same
      obtain verdict | verdict := undecided start _ phase
      · exact nomatch verdict
      · cases verdict
        exact nomatch same
    | _ => exact ⟨grown nofun nofun, nofun, nofun⟩

end Waiter

end Sys
