import Mathlib.Data.List.Basic
import Mathlib.Data.List.Nodup
import Mathlib.Logic.Function.Basic
import Mathlib.Tactic.Common

/- Objects of several parts, that are set up one after the other in a block of memory. -/
namespace Sys.Acquire

universe u
variable {P : Type u} [DecidableEq P]

/-- The blocks that are given out and the parts that are set up in them. -/
structure Store (P : Type u) where
  blocks : Nat → Bool
  ready : Nat → P → Bool

namespace Store

/-- What the heap answers is `block`. -/
def malloc (s : Store P) (block : Option Nat) : Option Nat × Store P :=
  match block with
  | none => (none, s)
  | some p => (some p, { s with blocks := Function.update s.blocks p true })

def mark (s : Store P) (p : Nat) (part : P) (b : Bool) : Store P :=
  { s with ready := Function.update s.ready p (Function.update (s.ready p) part b) }

/-- A part is set up once, and in a block. Anything else is undefined. -/
def init (s : Store P) (p : Nat) (part : P) (ok : Bool) : Option (Bool × Store P) :=
  if s.blocks p = true ∧ s.ready p part = false then some (ok, if ok then s.mark p part true else s) else none

def destroy (s : Store P) (p : Nat) (part : P) : Option (Store P) :=
  if s.blocks p = true ∧ s.ready p part = true then some (s.mark p part false) else none

def free (s : Store P) (p : Nat) : Option (Store P) :=
  if s.blocks p = true then some { s with blocks := Function.update s.blocks p false } else none

/-- Any use of an object needs all its parts. -/
def use (s : Store P) (p : Nat) (parts : List P) : Option Unit :=
  if s.blocks p = true ∧ ∀ part ∈ parts, s.ready p part = true then some () else none

/-- The object at `p`, with exactly these parts. -/
def put (s : Store P) (p : Nat) (parts : List P) : Store P :=
  ⟨Function.update s.blocks p true, Function.update s.ready p fun part => decide (part ∈ parts)⟩

def drop (s : Store P) (p : Nat) : Store P :=
  ⟨Function.update s.blocks p false, Function.update s.ready p fun _ => false⟩

def Has (s : Store P) (p : Nat) (parts : List P) : Prop :=
  s.blocks p = true ∧ s.ready p = fun part => decide (part ∈ parts)

def Fresh (s : Store P) (p : Nat) : Prop := s.blocks p = false ∧ s.ready p = fun _ => false

end Store

/-- Takes down the parts in this order, and gives the block back. -/
def tearDown (p : Nat) : List P → Store P → Option (Store P)
  | [], s => s.free p
  | part :: parts, s => do
    let s ← s.destroy p part
    tearDown p parts s

/-- Sets up the parts in this order. When one fails the ones before it are taken down again,
the last one first. -/
def setUp (p : Nat) (ok : P → Bool) : List P → List P → Store P → Option (Option Nat × Store P)
  | _, [], s => some (some p, s)
  | done, part :: parts, s => do
    let (inited, s) ← s.init p part (ok part)
    if inited then setUp p ok (part :: done) parts s
    else do
      let s ← tearDown p done s
      some (none, s)

def construct (parts : List P) (block : Option Nat) (ok : P → Bool) (s : Store P) : Option (Option Nat × Store P) :=
  match s.malloc block with
  | (none, s) => some (none, s)
  | (some p, s) => setUp p ok [] parts s

variable {s : Store P} {p q : Nat} {part : P} {parts done : List P} {ok : P → Bool}

theorem Store.Has.mark_true (has : s.Has p parts) : (s.mark p part true).Has p (part :: parts) := by
  refine ⟨has.1, ?_⟩
  funext other
  by_cases same : other = part
  · simp [mark, same]
  · simp [mark, same, has.2]

theorem Store.Has.mark_false (has : s.Has p (part :: parts)) (once : part ∉ parts) :
    (s.mark p part false).Has p parts := by
  refine ⟨has.1, ?_⟩
  funext other
  by_cases same : other = part
  · simp [mark, same, once]
  · simp [mark, same, has.2]

@[simp] theorem Store.mark_drop (s : Store P) (p : Nat) (part : P) (b : Bool) : (s.mark p part b).drop p = s.drop p := by
  simp [mark, drop]

@[simp] theorem Store.mark_put (s : Store P) (p : Nat) (part : P) (b : Bool) :
    (s.mark p part b).put p parts = s.put p parts := by
  simp [mark, put]

theorem Store.Has.put (has : s.Has p parts) : s.put p parts = s := by
  obtain ⟨blocks, ready⟩ := has
  simp only [Store.put, ← ready, ← blocks, Function.update_eq_self]

theorem Store.put_has (s : Store P) (p : Nat) (parts : List P) : (s.put p parts).Has p parts :=
  ⟨Function.update_self .., Function.update_self ..⟩

theorem Store.Has.use (has : s.Has p parts) : s.use p parts = some () := by
  obtain ⟨block, ready⟩ := has
  refine if_pos ⟨block, ?_⟩
  intro part member
  rw [ready]
  exact decide_eq_true member

theorem Store.Has.permute (has : s.Has p parts) (same : ∀ part, part ∈ parts ↔ part ∈ done) : s.Has p done := by
  refine ⟨has.1, ?_⟩
  simp only [has.2, same]

/-- An object goes away with all its parts. -/
theorem tearDown_eq (has : s.Has p parts) (once : parts.Nodup) : tearDown p parts s = some (s.drop p) := by
  induction parts generalizing s with
  | nil =>
    obtain ⟨blocks, ready⟩ := has
    have none : s.ready p = fun _ => false := by simpa using ready
    simp only [tearDown, Store.free, if_pos blocks, Store.drop, ← none, Function.update_eq_self]
  | cons part parts ih =>
    obtain ⟨new, once⟩ := List.nodup_cons.mp once
    have ready : s.ready p part = true := by simp [has.2]
    have rest := ih (has.mark_false new) once
    rw [Store.mark_drop] at rest
    simp only [tearDown, Store.destroy, if_pos (And.intro has.1 ready), Option.bind_eq_bind, Option.bind_some, rest]

theorem setUp_eq (has : s.Has p done) (once : (done.reverse ++ parts).Nodup) : setUp p ok done parts s =
    if ∀ part ∈ parts, ok part = true then some (some p, s.put p (done.reverse ++ parts)) else some (none, s.drop p) := by
  induction parts generalizing done s with
  | nil =>
    have reversed : s.Has p done.reverse := has.permute fun part => List.mem_reverse.symm
    simp [setUp, reversed.put]
  | cons part parts ih =>
    have split : done.reverse ++ part :: parts = (part :: done).reverse ++ parts := by simp
    have new : part ∉ done := by
      have apart := List.disjoint_of_nodup_append once
      intro member
      exact apart (List.mem_reverse.mpr member) List.mem_cons_self
    have unready : s.ready p part = false := by simp [has.2, new]
    simp only [setUp, Store.init, if_pos (And.intro has.1 unready), Option.bind_eq_bind, Option.bind_some]
    by_cases works : ok part = true
    · rw [split] at once ⊢
      rw [if_pos works, if_pos works, ih has.mark_true once]
      simp [works]
    · have downOnce : done.Nodup := List.nodup_reverse.mp (List.nodup_append.mp once).1
      rw [if_neg works, if_neg works, tearDown_eq has downOnce]
      simp [works]

/-- All or nothing. -/
theorem construct_eq {block : Option Nat} (fresh : ∀ p, block = some p → s.Fresh p) (once : parts.Nodup) :
    construct parts block ok s = some (match block with
      | some p => if ∀ part ∈ parts, ok part = true then (some p, s.put p parts) else (none, s)
      | none => (none, s)) := by
  cases block with
  | none => rfl
  | some p =>
    obtain ⟨dead, unready⟩ := fresh p rfl
    have has : Store.Has ({ s with blocks := Function.update s.blocks p true } : Store P) p [] := by
      refine ⟨Function.update_self .., ?_⟩
      simpa using unready
    have back : ({ s with blocks := Function.update s.blocks p true } : Store P).drop p = s := by
      have blocks : Function.update (Function.update s.blocks p true) p false = s.blocks := by
        rw [Function.update_idem, ← dead, Function.update_eq_self]
      have ready : (Function.update s.ready p fun _ => false) = s.ready := by
        rw [← unready, Function.update_eq_self]
      simp only [Store.drop, blocks, ready]
    have there : ({ s with blocks := Function.update s.blocks p true } : Store P).put p parts = s.put p parts := by
      simp only [Store.put, Function.update_idem]
    simp only [construct, Store.malloc]
    rw [setUp_eq has (by simpa using once), back, List.reverse_nil, List.nil_append, there]
    split_ifs <;> rfl

end Sys.Acquire
