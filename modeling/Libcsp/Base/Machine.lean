import Mathlib.Data.List.Induction
import Mathlib.Tactic.Common

namespace Sys

universe u v
variable {σ ς : Type u} {α β : Type v}

/-- A labelled transition system with one initial state. A label is the whole
observable content of a step, so a run is described by its list of labels. -/
structure Machine (σ : Type u) (α : Type v) where
  init : σ
  step : σ → α → σ → Prop

namespace Machine

/-- Finite executions from the initial state, with the labels in the order
in which the steps were taken. -/
inductive Run (M : Machine σ α) : List α → σ → Prop
  | start : M.Run [] M.init
  | next {tr s a t} : M.Run tr s → M.step s a t → M.Run (tr ++ [a]) t

def startAt (M : Machine σ α) (s : σ) : Machine σ α where
  init := s
  step := M.step

/-- The runs in which every step is taken from a state that allows it. -/
def restrict (M : Machine σ α) (allowed : σ → α → Prop) : Machine σ α where
  init := M.init
  step s a t := M.step s a t ∧ allowed s a

/-- The runs in which every step ends as `P` asks, given its label. -/
def confine (M : Machine σ α) (P : α → σ → Prop) : Machine σ α where
  init := M.init
  step s a t := M.step s a t ∧ P a t

theorem Run.invariant {M : Machine σ α} {P : σ → Prop} (init : P M.init)
    (step : ∀ {s a t}, P s → M.step s a t → P t) {tr : List α} {s : σ} (run : M.Run tr s) : P s := by
  induction run with
  | start => exact init
  | next _ taken ih => exact step ih taken

theorem Run.history {M : Machine σ α} {P : List α → σ → Prop} (init : P [] M.init)
    (step : ∀ {tr s a t}, P tr s → M.step s a t → P (tr ++ [a]) t)
    {tr : List α} {s : σ} (run : M.Run tr s) : P tr s := by
  induction run with
  | start => exact init
  | next _ taken ih => exact step ih taken

theorem Run.of_restrict {M : Machine σ α} {allowed : σ → α → Prop} {tr : List α} {s : σ}
    (run : (M.restrict allowed).Run tr s) : M.Run tr s := by
  induction run with
  | start => exact .start
  | next _ taken ih => exact .next ih taken.1

/-- A property of runs that allowed runs have, and that a run can have only if the run
up to its last step had it and that step was allowed, is exactly that of allowed runs. -/
theorem Run.restrict_iff {M : Machine σ α} {allowed : σ → α → Prop} {P : List α → σ → Prop}
    (holds : ∀ {tr s}, (M.restrict allowed).Run tr s → P tr s)
    (before : ∀ {tr s a t}, M.Run tr s → M.step s a t → P (tr ++ [a]) t → P tr s ∧ allowed s a)
    {tr : List α} {s : σ} (run : M.Run tr s) : P tr s ↔ (M.restrict allowed).Run tr s := by
  refine ⟨?_, holds⟩
  intro property
  induction run with
  | start => exact .start
  | @next tr s a t previous taken ih =>
    obtain ⟨earlier, allows⟩ := before previous taken property
    exact .next (ih earlier) ⟨taken, allows⟩

/-- As long as only allowed steps were taken, the next one ends well exactly when it is
allowed: then the runs that go well throughout are the allowed ones. -/
theorem confine_run_iff {M : Machine σ α} {allowed : σ → α → Prop} {P : α → σ → Prop} {Q : σ → Prop}
    (init : Q M.init) (well : ∀ {s a t}, Q s → M.step s a t → (P a t ↔ allowed s a))
    (keeps : ∀ {s a t}, Q s → M.step s a t → allowed s a → Q t) {tr : List α} {s : σ} :
    (M.confine P).Run tr s ↔ (M.restrict allowed).Run tr s := by
  constructor
  · intro run
    suffices (M.restrict allowed).Run tr s ∧ Q s from this.1
    induction run with
    | start => exact ⟨.start, init⟩
    | next _ taken ih =>
      have allows := (well ih.2 taken.1).mp taken.2
      exact ⟨.next ih.1 ⟨taken.1, allows⟩, keeps ih.2 taken.1 allows⟩
  · intro run
    suffices (M.confine P).Run tr s ∧ Q s from this.1
    induction run with
    | start => exact ⟨.start, init⟩
    | next _ taken ih =>
      exact ⟨.next ih.1 ⟨taken.1, (well ih.2 taken.1).mpr taken.2⟩, keeps ih.2 taken.1 taken.2⟩

/-- The runs in which every step obeys a law on the states around it. -/
def obey (M : Machine σ α) (law : σ → α → σ → Prop) : Machine σ α where
  init := M.init
  step s a t := M.step s a t ∧ law s a t

theorem obey_run_iff {M : Machine σ α} {law : σ → α → σ → Prop} {meets : α → Prop}
    (lawful : ∀ {s a t}, M.step s a t → (law s a t ↔ meets a)) {tr : List α} {s : σ} :
    (M.obey law).Run tr s ↔ M.Run tr s ∧ ∀ a ∈ tr, meets a := by
  constructor
  · intro run
    induction run with
    | start => exact ⟨.start, by simp⟩
    | next _ taken ih =>
      refine ⟨.next ih.1 taken.1, ?_⟩
      intro b member
      rcases List.mem_append.mp member with earlier | last
      · exact ih.2 b earlier
      · rw [List.mem_singleton.mp last]
        exact (lawful taken.1).mp taken.2
  · intro meeting
    obtain ⟨run, meets⟩ := meeting
    induction run with
    | start => exact .start
    | next _ taken ih =>
      have last := (lawful taken).mpr (meets _ (List.mem_append_right _ (List.mem_singleton_self _)))
      exact .next (ih fun b member => meets b (List.mem_append_left _ member)) ⟨taken, last⟩

theorem Run.last {M : Machine σ α} {tr : List α} {a : α} {t : σ} (run : M.Run (tr ++ [a]) t) :
    ∃ s, M.Run tr s ∧ M.step s a t := by
  generalize whole : tr ++ [a] = labels at run
  cases run with
  | start => exact absurd whole (by simp)
  | next previous taken =>
    obtain ⟨rfl, same⟩ := List.append_inj' whole rfl
    cases same
    exact ⟨_, previous, taken⟩

/-- A run goes on from the state it was in after any part of its labels. -/
theorem Run.split {M : Machine σ α} {tr more : List α} {t : σ} (run : M.Run (tr ++ more) t) :
    ∃ s, M.Run tr s ∧ (M.startAt s).Run more t := by
  induction more using List.reverseRecOn generalizing t with
  | nil => exact ⟨t, by simpa using run, .start⟩
  | append_singleton more a ih =>
    rw [← List.append_assoc] at run
    obtain ⟨m, earlier, taken⟩ := run.last
    obtain ⟨s, first, rest⟩ := ih earlier
    exact ⟨s, first, rest.next taken⟩

theorem Run.around {M : Machine σ α} {before after : List α} {a : α} {t : σ} (run : M.Run (before ++ a :: after) t) :
    ∃ s s', M.Run before s ∧ M.step s a s' ∧ (M.startAt s').Run after t := by
  rw [List.append_cons] at run
  obtain ⟨s', upTo, rest⟩ := run.split
  obtain ⟨s, earlier, taken⟩ := upTo.last
  exact ⟨s, s', earlier, taken, rest⟩

theorem Run.taken {M : Machine σ α} {tr : List α} {s : σ} (run : M.Run tr s) {a : α} (member : a ∈ tr) :
    ∃ before after, M.step before a after := by
  induction run with
  | start => exact nomatch member
  | @next tr s b t _ taken ih =>
    rcases List.mem_append.mp member with earlier | last
    · exact ih earlier
    · rw [List.mem_singleton.mp last]
      exact ⟨s, t, taken⟩

end Machine

theorem filterMap_concat {ω : Type*} (f : α → Option ω) (tr : List α) (a : α) :
    (tr ++ [a]).filterMap f = tr.filterMap f ++ (f a).toList := by
  rw [List.filterMap_append]
  cases seen : f a <;> simp [seen]

/-- Something that `starts` has happened, and nothing that `ends` after it. -/
def Since (starts ends : α → Prop) (tr : List α) : Prop :=
  ∃ before a after, tr = before ++ a :: after ∧ starts a ∧ ∀ b ∈ after, ¬ ends b

theorem Since.now {starts ends : α → Prop} {a : α} (begins : starts a) (tr : List α) : Since starts ends (tr ++ [a]) :=
  ⟨tr, a, [], rfl, begins, nofun⟩

theorem Since.on {starts ends : α → Prop} {tr : List α} {a : α} (since : Since starts ends tr) (goes : ¬ ends a) :
    Since starts ends (tr ++ [a]) := by
  obtain ⟨before, b, after, rfl, begins, lasts⟩ := since
  refine ⟨before, b, after ++ [a], List.append_assoc .., begins, ?_⟩
  intro c member
  rcases List.mem_append.mp member with earlier | last
  · exact lasts c earlier
  · rw [List.mem_singleton.mp last]
    exact goes

/-- Forward simulation up to a relation. A label that is observed above is
matched by the abstract step it stands for; any other step stutters. -/
structure Refines (C : Machine σ α) (A : Machine ς β) (rel : σ → ς → Prop) (obs : α → Option β) :
    Prop where
  init : rel C.init A.init
  visible : ∀ {s a t x b}, rel s x → C.step s a t → obs a = some b → ∃ y, A.step x b y ∧ rel t y
  silent : ∀ {s a t x}, rel s x → C.step s a t → obs a = none → rel t x

/-- Every concrete run is explained by the abstract run over its observed
labels, ending in related states. -/
theorem Refines.run {C : Machine σ α} {A : Machine ς β} {rel : σ → ς → Prop} {obs : α → Option β}
    (sim : Refines C A rel obs) {tr : List α} {s : σ} (run : C.Run tr s) :
    ∃ x, A.Run (tr.filterMap obs) x ∧ rel s x := by
  induction run with
  | start => exact ⟨A.init, .start, sim.init⟩
  | @next tr s a t _ taken ih =>
    obtain ⟨x, above, related⟩ := ih
    rw [List.filterMap_append]
    cases seen : obs a with
    | none => exact ⟨x, by simpa [seen] using above, sim.silent related taken seen⟩
    | some b =>
      obtain ⟨y, abstract, after⟩ := sim.visible related taken seen
      exact ⟨y, by simpa [seen] using above.next abstract, after⟩

end Sys
