import Mathlib.Data.List.Basic
import Mathlib.Tactic.Common

namespace Sys

universe u v w
variable {σ ς : Type u} {ι : Type v} {ω : Type w}

/-- The answers to a list of requests, one after the other, and the state they leave. -/
def runAll (f : σ → ι → ω × σ) : σ → List ι → List ω × σ
  | s, [] => ([], s)
  | s, i :: rest =>
    let later := runAll f (f s i).2 rest
    ((f s i).1 :: later.1, later.2)

theorem runAll_append (f : σ → ι → ω × σ) (s : σ) (xs ys : List ι) :
    runAll f s (xs ++ ys) =
      ((runAll f s xs).1 ++ (runAll f (runAll f s xs).2 ys).1, (runAll f (runAll f s xs).2 ys).2) := by
  induction xs generalizing s with
  | nil => rfl
  | cons x xs ih => simp only [List.cons_append, runAll, ih]

/-- Two systems give the same answers to one request more if they did before and answer
the last request alike. -/
theorem runAll_concat_agree_iff {f : σ → ι → ω × σ} {g : ς → ι → ω × ς} {s : σ} {x : ς} {is : List ι} {i : ι} :
    (runAll f s (is ++ [i])).1 = (runAll g x (is ++ [i])).1 ↔
      (runAll f s is).1 = (runAll g x is).1 ∧ (f (runAll f s is).2 i).1 = (g (runAll g x is).2 i).1 := by
  simp only [runAll_append, runAll]
  rw [← List.concat_eq_append, ← List.concat_eq_append, List.concat_inj]

/-- The same for a system that may not come back from a request. -/
def runAll? (f : σ → ι → Option (ω × σ)) : σ → List ι → Option (List ω × σ)
  | s, [] => some ([], s)
  | s, i :: rest => (f s i).bind fun now => (runAll? f now.2 rest).map fun later => (now.1 :: later.1, later.2)

/-- Two systems in lockstep: in related states the first comes back from every request that is
allowed, with the answer of the second, and they are related again. -/
theorem runAll?_agree {f : σ → ι → Option (ω × σ)} {g : ς → ι → ω × ς} {rel : σ → ς → Prop} {allowed : ι → Prop}
    (step : ∀ {s x} i, allowed i → rel s x → ∃ s', f s i = some ((g x i).1, s') ∧ rel s' (g x i).2) {s : σ} {x : ς}
    (related : rel s x) {is : List ι} (all : ∀ i ∈ is, allowed i) :
    ∃ s', runAll? f s is = some ((runAll g x is).1, s') ∧ rel s' (runAll g x is).2 := by
  induction is generalizing s x with
  | nil => exact ⟨s, rfl, related⟩
  | cons i is ih =>
    obtain ⟨s₁, answers, after⟩ := step i (all i (List.mem_cons_self ..)) related
    obtain ⟨s₂, later, final⟩ := ih after fun j member => all j (List.mem_cons_of_mem i member)
    refine ⟨s₂, ?_, final⟩
    simp only [runAll?, answers, Option.bind_some, later, Option.map_some, runAll]

end Sys
