import Mathlib.Data.List.Infix
import Mathlib.Data.List.Nodup
import Mathlib.Tactic.Common

namespace Sys

universe u v
variable {α : Type u} {β : Type v}

/-- What follows `cur` in a linked list; from null, its first entry. -/
def successor [DecidableEq α] (list : List α) : Option α → Option α
  | none => list.head?
  | some a => (list.dropWhile (· ≠ a)).tail.head?

theorem successor_last [DecidableEq α] {visited rest : List α} (distinct : (visited ++ rest).Nodup) :
    successor (visited ++ rest) visited.getLast? = rest.head? := by
  induction visited using List.reverseRecOn with
  | nil => rfl
  | append_singleton before a _ =>
    have absent : a ∉ before := by
      intro member
      rw [List.append_assoc] at distinct
      exact (List.nodup_append.mp distinct).2.2 a member a (by simp) rfl
    have dropped : (before ++ [a] ++ rest).dropWhile (· ≠ a) = a :: rest := by
      rw [List.append_assoc, List.dropWhile_append_of_pos]
      · simp
      · intro b member
        simp only [ne_eq, decide_eq_true_eq]
        rintro rfl
        exact absent member
    rw [List.getLast?_concat, successor, dropped, List.tail_cons]

/-- A cursor on its way through a list: what it has seen is the list up to where it stands. -/
def Passed (list : List α) (see : α → Option β) (cur : Option α) (seen : List β) : Prop :=
  ∃ visited rest, list = visited ++ rest ∧ cur = visited.getLast? ∧ seen = visited.filterMap see

namespace Passed

variable {list : List α} {see see' : α → Option β} {cur : Option α} {seen : List β}

theorem start (list : List α) (see : α → Option β) : Passed list see none [] := ⟨[], list, rfl, rfl, rfl⟩

theorem next [DecidableEq α] (passed : Passed list see cur seen) (distinct : list.Nodup) {a : α}
    (follows : successor list cur = some a) : a ∈ list ∧ Passed list see (some a) (seen ++ (see a).toList) := by
  obtain ⟨visited, rest, rfl, rfl, rfl⟩ := passed
  rw [successor_last distinct] at follows
  obtain ⟨later, rfl⟩ := List.head?_eq_some_iff.mp follows
  refine ⟨by simp, visited ++ [a], later, by simp, by simp, ?_⟩
  rw [List.filterMap_append]
  cases sight : see a <;> simp [sight]

/-- At the end of the list everything in it has been seen. -/
theorem finish [DecidableEq α] (passed : Passed list see cur seen) (distinct : list.Nodup)
    (ends : successor list cur = none) : seen = list.filterMap see := by
  obtain ⟨visited, rest, rfl, rfl, rfl⟩ := passed
  rw [successor_last distinct, List.head?_eq_none_iff] at ends
  rw [ends, List.append_nil]

/-- Entries added behind the cursor's back come after it. -/
theorem grow (passed : Passed list see cur seen) {longer : List α} (grows : list <+: longer)
    (same : ∀ a ∈ list, see' a = see a) : Passed longer see' cur seen := by
  obtain ⟨visited, rest, rfl, rfl, rfl⟩ := passed
  obtain ⟨new, rfl⟩ := grows
  refine ⟨visited, rest ++ new, List.append_assoc .., rfl, ?_⟩
  refine List.filterMap_congr ?_
  intro a member
  exact (same a (List.mem_append_left _ member)).symm

end Passed

end Sys
