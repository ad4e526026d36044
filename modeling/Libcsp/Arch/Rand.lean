import Libcsp.Base.Machine
import Libcsp.Base.MachineInt
import Libcsp.Xorshift

namespace Libcsp
open Sys

/-- `rand`: what it returns, and what it leaves in `STATE`. -/
def rand (state : UInt32) : Int × UInt32 :=
  let s := if state = 0 then 1 else state
  let s := xorshift s
  (asI32 (s &&& 0x7FFFFFFF).toNat, s)

/-- `rand_r`, on the seed behind the pointer or on a null pointer. -/
def randR : Option UInt32 → Int × Option UInt32
  | none => (0, none)
  | some seed =>
    let s := if seed = 0 then 1 else seed
    let s := xorshift s
    (asI32 (s &&& 0x7FFFFFFF).toNat, some s)

/-- `STATE` after `n` calls. -/
def randState (seed : UInt32) (n : Nat) : UInt32 := (fun s => (rand s).2)^[n] seed

def randValue (seed : UInt32) (n : Nat) : Int := (rand (randState seed n)).1

/-- What `n` calls of `rand_r` on one seed leave there. -/
def randRState (seed : UInt32) (n : Nat) : Option UInt32 := (fun s => (randR s).2)^[n] (some seed)

def randRValue (seed : UInt32) (n : Nat) : Int := (randR (randRState seed n)).1

/-- A sequence of values that goes through all of them as often as through any other, zero
apart, before it comes back. -/
structure EvenlySpread (value : Nat → Int) : Prop where
  bounds : ∀ i, 0 ≤ value i ∧ value i ≤ i32Max
  period : ∀ i, value (i + fullPeriod) = value i
  shortest : ∀ d, 0 < d → (∀ i, value (i + d) = value i) → fullPeriod ≤ d
  spread : ∀ start v : Nat, v ≤ i32Max →
    ((Finset.range fullPeriod).filter fun i => value (start + i) = v).card = if v = 0 then 1 else 2

/-- The word the generator goes on from. -/
def startWord (seed : UInt32) : UInt32 := if seed = 0 then 1 else seed

theorem startWord_ne_zero (seed : UInt32) : startWord seed ≠ 0 := by
  unfold startWord
  split_ifs with zero
  · decide
  · exact zero

theorem randState_next (seed : UInt32) (n : Nat) : randState seed (n + 1) = (rand (randState seed n)).2 :=
  Function.iterate_succ_apply' ..

theorem randState_succ (seed : UInt32) (n : Nat) : randState seed (n + 1) = xorshift^[n + 1] (startWord seed) := by
  induction n with
  | zero => rfl
  | succ n ih =>
    have nonzero := xorshift_iterate_ne_zero (startWord_ne_zero seed) (n + 1)
    rw [randState_next, ih, Function.iterate_succ_apply' xorshift (n + 1)]
    simp only [rand, if_neg nonzero]

theorem randValue_eq (seed : UInt32) (n : Nat) :
    randValue seed n = ((xorshift^[n + 1] (startWord seed)).toNat % 2 ^ 31 : Nat) := by
  have word : (rand (randState seed n)).2 = xorshift^[n + 1] (startWord seed) := by
    rw [← randState_succ, randState_next]
  have masked : ∀ s : UInt32, (s &&& 0x7FFFFFFF).toNat = s.toNat % 2 ^ 31 := by
    intro s
    rw [UInt32.toNat_and]
    exact Nat.and_two_pow_sub_one_eq_mod s.toNat 31
  rw [← word]
  simp only [randValue, rand, masked]
  refine asI32_of_le ?_
  unfold i32Max
  omega

theorem randRState_eq (seed : UInt32) (n : Nat) : randRState seed n = some (randState seed n) := by
  induction n with
  | zero => rfl
  | succ n ih =>
    rw [randRState, Function.iterate_succ_apply', ← randRState, ih, randState_next]
    rfl

theorem randRValue_eq (seed : UInt32) (n : Nat) : randRValue seed n = randValue seed n := by
  rw [randRValue, randRState_eq]
  rfl

/-- The words with the same lower 31 bits, zero apart. -/
theorem sameValue_card {v : Nat} (small : v < 2 ^ 31) :
    ((Finset.Ico 1 (2 ^ 32)).filter fun y => y % 2 ^ 31 = v).card = if v = 0 then 1 else 2 := by
  split_ifs with zero
  · have only : ((Finset.Ico 1 (2 ^ 32)).filter fun y => y % 2 ^ 31 = v) = {2 ^ 31} := by
      ext y
      simp only [Finset.mem_filter, Finset.mem_Ico, Finset.mem_singleton]
      omega
    rw [only, Finset.card_singleton]
  · have both : ((Finset.Ico 1 (2 ^ 32)).filter fun y => y % 2 ^ 31 = v) = {v, v + 2 ^ 31} := by
      ext y
      simp only [Finset.mem_filter, Finset.mem_Ico, Finset.mem_insert, Finset.mem_singleton]
      omega
    rw [both, Finset.card_pair (by omega)]

theorem randValue_card (seed : UInt32) (start : Nat) {v : Nat} (small : v < 2 ^ 31) :
    ((Finset.range fullPeriod).filter fun i => randValue seed (start + i) = v).card = if v = 0 then 1 else 2 := by
  have nonzero := xorshift_iterate_ne_zero (startWord_ne_zero seed) (start + 1)
  obtain ⟨maps, distinct, onto⟩ := xorshift_bijOn nonzero
  rw [← sameValue_card small]
  have value : ∀ i, randValue seed (start + i) = v ↔
      (xorshift^[i] (xorshift^[start + 1] (startWord seed))).toNat % 2 ^ 31 = v := by
    intro i
    rw [randValue_eq, ← Function.iterate_add_apply, show i + (start + 1) = start + i + 1 by omega, Nat.cast_inj]
  refine Finset.card_bij (fun i _ => (xorshift^[i] (xorshift^[start + 1] (startWord seed))).toNat) ?_ ?_ ?_
  · intro i member
    obtain ⟨below, hit⟩ := Finset.mem_filter.mp member
    exact Finset.mem_filter.mpr ⟨maps below, (value i).mp hit⟩
  · intro i first j second same
    exact distinct (Finset.mem_filter.mp first).1 (Finset.mem_filter.mp second).1 same
  · intro y member
    obtain ⟨inside, residue⟩ := Finset.mem_filter.mp member
    obtain ⟨i, below, rfl⟩ := onto inside
    exact ⟨i, Finset.mem_filter.mpr ⟨below, (value i).mpr residue⟩, rfl⟩

theorem randValue_period (seed : UInt32) (i : Nat) : randValue seed (i + fullPeriod) = randValue seed i := by
  have back : xorshift^[i + fullPeriod + 1] (startWord seed) = xorshift^[i + 1] (startWord seed) := by
    rw [show i + fullPeriod + 1 = i + 1 + fullPeriod by omega, Function.iterate_add_apply]
    refine congrArg _ ?_
    rw [← minimalPeriod_xorshift (startWord_ne_zero seed)]
    exact Function.iterate_minimalPeriod
  rw [randValue_eq, randValue_eq, back]

/-- Zero comes up once in a period, so no shorter shift maps the values to themselves. -/
theorem randValue_shortest (seed : UInt32) {d : Nat} (positive : 0 < d)
    (shift : ∀ i, randValue seed (i + d) = randValue seed i) : fullPeriod ≤ d := by
  by_contra short
  have one := fun start => randValue_card seed start (show 0 < 2 ^ 31 by decide)
  simp only [if_true] at one
  obtain ⟨i, zero⟩ := Finset.card_eq_one.mp (one 0)
  have hit : randValue seed i = 0 := by
    have member : i ∈ ({i} : Finset Nat) := Finset.mem_singleton_self i
    rw [← zero, Finset.mem_filter, Nat.zero_add] at member
    exact member.2
  obtain ⟨j, only⟩ := Finset.card_eq_one.mp (one i)
  have among : ∀ k < fullPeriod, randValue seed (i + k) = 0 → k = j := by
    intro k below again
    have member : k ∈ ({j} : Finset Nat) := by
      rw [← only, Finset.mem_filter, Finset.mem_range]
      exact ⟨below, again⟩
    exact Finset.mem_singleton.mp member
  have first := among 0 (by omega) (by simpa using hit)
  have second := among d (by omega) (by rw [shift, hit])
  omega

theorem randValue_evenlySpread (seed : UInt32) : EvenlySpread (randValue seed) where
  bounds i := by
    rw [randValue_eq, i32Max]
    omega
  period := randValue_period seed
  shortest _ positive shift := randValue_shortest seed positive shift
  spread start v small := randValue_card seed start (by unfold i32Max at small; omega)

/-- Whatever the seed, zero included. -/
theorem rand_evenly_spread (seed : UInt32) : EvenlySpread (randValue seed) ∧ EvenlySpread (randRValue seed) := by
  refine ⟨randValue_evenlySpread seed, ?_⟩
  rw [show randRValue seed = randValue seed from funext (randRValue_eq seed)]
  exact randValue_evenlySpread seed

namespace Rand

variable {τ : Type}

/-- Where a caller of `rand` is: before it, behind its load of `STATE`, or behind its store. -/
inductive Place
  | idle
  | loaded (old : UInt32)
  | stored (value : Int)

structure State (τ : Type) where
  cell : UInt32
  caller : τ → Place

inductive Act (τ : Type)
  | load (t : τ)
  | store (t : τ) (word : UInt32)
  | leave (t : τ) (value : Int)

section
variable [DecidableEq τ]

/-- `rand` loads `STATE`, stores it and returns, each atomic by itself: an interrupt or another
thread can come between. -/
inductive Step : State τ → Act τ → State τ → Prop
  | load {s t} : s.caller t = .idle → Step s (.load t) { s with caller := Function.update s.caller t (.loaded s.cell) }
  | store {s t old} : s.caller t = .loaded old →
      Step s (.store t (rand old).2) ⟨(rand old).2, Function.update s.caller t (.stored (rand old).1)⟩
  | leave {s t value} : s.caller t = .stored value →
      Step s (.leave t value) { s with caller := Function.update s.caller t .idle }

def machine (τ : Type) [DecidableEq τ] : Machine (State τ) (Act τ) where
  init := ⟨0xDEADBEEF, fun _ => .idle⟩
  step := Step

end

def Act.stored? : Act τ → Option (τ × UInt32)
  | .store t word => some (t, word)
  | _ => none

def Act.returned? : Act τ → Option Int
  | .leave _ value => some value
  | _ => none

section
variable [DecidableEq τ]

def Act.returnedTo? (t : τ) : Act τ → Option Int
  | .leave u value => if u = t then some value else none
  | _ => none

/-- The place of a store, if it is one of `t`'s. -/
def placeOf? (t : τ) (store : τ × Nat) : Option Nat := if store.1 = t then some store.2 else none

end

/-- What a call has stored and not returned yet. -/
def Place.pending : Place → List Int
  | .stored value => [value]
  | _ => []

/-- Nobody starts a call while another one has not returned. -/
def Alone (s : State τ) : Act τ → Prop
  | .load _ => ∀ u, s.caller u = .idle
  | _ => True

/-- A word of the sequence, all before which have been stored. -/
def LedTo (stores : List (τ × Nat)) (word : UInt32) : Prop :=
  ∃ n ≤ stores.length, word = randState 0xDEADBEEF n ∧ ∀ m < n, ∃ u, (u, m) ∈ stores

variable [DecidableEq τ] {stores : List (τ × Nat)} {tr : List (Act τ)} {s s' : State τ} {a : Act τ}

/-- Who has stored, in that order, and at which place of the sequence each store stands. -/
structure Behind (stores : List (τ × Nat)) (tr : List (Act τ)) (s : State τ) : Prop where
  words : tr.filterMap Act.stored? = stores.map fun store => (store.1, randState 0xDEADBEEF (store.2 + 1))
  back : ∀ (i : Nat) t p, stores[i]? = some (t, p) → p ≤ i
  /-- No place is skipped: whatever comes before a stored one was stored before it. -/
  whole : ∀ (i : Nat) t p, stores[i]? = some (t, p) → ∀ m < p, ∃ u, (u, m) ∈ stores.take i
  /-- A call returns the value at the place where it stored. -/
  values : ∀ t, tr.filterMap (Act.returnedTo? t) ++ (s.caller t).pending =
    (stores.filterMap (placeOf? t)).map (randValue 0xDEADBEEF)
  cell : LedTo stores s.cell
  loaded : ∀ t old, s.caller t = .loaded old → LedTo stores old

omit [DecidableEq τ] in
theorem LedTo.more {word : UInt32} (led : LedTo stores word) (store : τ × Nat) : LedTo (stores ++ [store]) word := by
  obtain ⟨n, below, same, before⟩ := led
  refine ⟨n, ?_, same, ?_⟩
  · rw [List.length_append]
    omega
  · intro m small
    obtain ⟨u, member⟩ := before m small
    exact ⟨u, List.mem_append_left _ member⟩

theorem Behind.init : Behind [] [] (machine τ).init where
  words := rfl
  back _ _ _ there := nomatch there
  whole _ _ _ there := nomatch there
  values _ := rfl
  cell := ⟨0, Nat.le_refl 0, rfl, fun _ small => absurd small (Nat.not_lt_zero _)⟩
  loaded _ _ there := nomatch there

theorem Behind.load {t : τ} (behind : Behind stores tr s) (idle : s.caller t = .idle) :
    Behind stores (tr ++ [.load t]) { s with caller := Function.update s.caller t (.loaded s.cell) } := by
  refine ⟨?_, behind.back, behind.whole, ?_, behind.cell, ?_⟩
  · rw [filterMap_concat]
    simpa [Act.stored?] using behind.words
  · intro u
    have values := behind.values u
    rw [filterMap_concat]
    by_cases own : u = t
    · subst own
      simpa [Act.returnedTo?, Place.pending, idle] using values
    · simpa [Act.returnedTo?, own] using values
  · intro u old there
    dsimp only at there
    by_cases own : u = t
    · subst own
      rw [Function.update_self] at there
      cases there
      exact behind.cell
    · rw [Function.update_of_ne own] at there
      exact behind.loaded u old there

theorem Behind.store {t : τ} {old : UInt32} (behind : Behind stores tr s) (loaded : s.caller t = .loaded old) :
    ∃ n, Behind (stores ++ [(t, n)]) (tr ++ [.store t (rand old).2])
      ⟨(rand old).2, Function.update s.caller t (.stored (rand old).1)⟩ := by
  obtain ⟨n, below, rfl, before⟩ := behind.loaded t old loaded
  refine ⟨n, ?_, ?_, ?_, ?_, ?_, ?_⟩
  · rw [filterMap_concat, behind.words, List.map_append, ← randState_next]
    rfl
  · intro i u p there
    by_cases earlier : i < stores.length
    · rw [List.getElem?_append_left earlier] at there
      exact behind.back i u p there
    · rw [List.getElem?_append_right (by omega), List.getElem?_singleton] at there
      split_ifs at there with last
      cases there
      omega
  · intro i u p there m small
    by_cases earlier : i < stores.length
    · rw [List.getElem?_append_left earlier] at there
      rw [List.take_append_of_le_length (by omega)]
      exact behind.whole i u p there m small
    · rw [List.getElem?_append_right (by omega), List.getElem?_singleton] at there
      split_ifs at there with last
      cases there
      obtain ⟨v, member⟩ := before m small
      refine ⟨v, ?_⟩
      rw [List.take_append, List.take_of_length_le (by omega)]
      exact List.mem_append_left _ member
  · intro u
    have values := behind.values u
    rw [filterMap_concat, filterMap_concat, List.map_append, ← values]
    by_cases own : u = t
    · subst own
      simp [Act.returnedTo?, placeOf?, Place.pending, loaded, randValue]
    · simp [Act.returnedTo?, placeOf?, own, Ne.symm own]
  · refine ⟨n + 1, ?_, (randState_next _ n).symm, ?_⟩
    · rw [List.length_append, List.length_singleton]
      omega
    · intro m small
      by_cases own : m = n
      · exact ⟨t, by rw [own]; simp⟩
      · obtain ⟨v, member⟩ := before m (by omega)
        exact ⟨v, List.mem_append_left _ member⟩
  · intro u other there
    dsimp only at there
    by_cases own : u = t
    · subst own
      rw [Function.update_self] at there
      exact nomatch there
    · rw [Function.update_of_ne own] at there
      exact (behind.loaded u other there).more _

theorem Behind.leave {t : τ} {value : Int} (behind : Behind stores tr s) (stored : s.caller t = .stored value) :
    Behind stores (tr ++ [.leave t value]) { s with caller := Function.update s.caller t .idle } := by
  refine ⟨?_, behind.back, behind.whole, ?_, behind.cell, ?_⟩
  · rw [filterMap_concat]
    simpa [Act.stored?] using behind.words
  · intro u
    have values := behind.values u
    rw [filterMap_concat]
    by_cases own : u = t
    · subst own
      simpa [Act.returnedTo?, Place.pending, stored] using values
    · simpa [Act.returnedTo?, own, Ne.symm own] using values
  · intro u old there
    dsimp only at there
    by_cases own : u = t
    · subst own
      rw [Function.update_self] at there
      exact nomatch there
    · rw [Function.update_of_ne own] at there
      exact behind.loaded u old there

theorem Behind.step (behind : Behind stores tr s) (step : Step s a s') : ∃ more, Behind more (tr ++ [a]) s' := by
  cases step with
  | load idle => exact ⟨_, behind.load idle⟩
  | store loaded =>
    obtain ⟨n, after⟩ := behind.store loaded
    exact ⟨_, after⟩
  | leave stored => exact ⟨_, behind.leave stored⟩

/-- One caller at a time: each call is the next of the sequence. -/
structure InOrder (n : Nat) (tr : List (Act τ)) (s : State τ) : Prop where
  values : tr.filterMap Act.returned? = (List.range n).map (randValue 0xDEADBEEF)
  caller : (∀ t, s.caller t = .idle) ∧ s.cell = randState 0xDEADBEEF n ∨
    ∃ t, (∀ u, u ≠ t → s.caller u = .idle) ∧
      (s.caller t = .loaded s.cell ∧ s.cell = randState 0xDEADBEEF n ∨
        s.caller t = .stored (randValue 0xDEADBEEF n) ∧ s.cell = randState 0xDEADBEEF (n + 1))

section
variable {n : Nat}

/-- Whoever is inside of a call is the only one. -/
theorem InOrder.inside (order : InOrder n tr s) {t : τ} (busy : s.caller t ≠ .idle) :
    (∀ u, u ≠ t → s.caller u = .idle) ∧
      (s.caller t = .loaded s.cell ∧ s.cell = randState 0xDEADBEEF n ∨
        s.caller t = .stored (randValue 0xDEADBEEF n) ∧ s.cell = randState 0xDEADBEEF (n + 1)) := by
  obtain ⟨idle, -⟩ | ⟨u, others, where'⟩ := order.caller
  · exact absurd (idle t) busy
  · by_cases own : t = u
    · subst own
      exact ⟨others, where'⟩
    · exact absurd (others t own) busy

theorem InOrder.load {t : τ} (order : InOrder n tr s) (alone : ∀ u, s.caller u = .idle) :
    InOrder n (tr ++ [.load t]) { s with caller := Function.update s.caller t (.loaded s.cell) } := by
  have cell : s.cell = randState 0xDEADBEEF n := by
    obtain ⟨-, cell⟩ | ⟨u, -, ⟨loaded, cell⟩ | ⟨stored, -⟩⟩ := order.caller
    · exact cell
    · exact cell
    · exact nomatch (alone u).symm.trans stored
  refine ⟨?_, .inr ⟨t, ?_, .inl ⟨Function.update_self .., cell⟩⟩⟩
  · rw [filterMap_concat]
    simpa [Act.returned?] using order.values
  · intro u other
    dsimp only
    rw [Function.update_of_ne other]
    exact alone u

theorem InOrder.store {t : τ} {old : UInt32} (order : InOrder n tr s) (loaded : s.caller t = .loaded old) :
    InOrder n (tr ++ [.store t (rand old).2]) ⟨(rand old).2, Function.update s.caller t (.stored (rand old).1)⟩ := by
  obtain ⟨others, ⟨same, cell⟩ | ⟨stored, -⟩⟩ := order.inside (t := t) (by simp [loaded])
  · cases loaded.symm.trans same
    refine ⟨?_, .inr ⟨t, ?_, .inr ⟨?_, ?_⟩⟩⟩
    · rw [filterMap_concat]
      simpa [Act.returned?] using order.values
    · intro u other
      dsimp only
      rw [Function.update_of_ne other]
      exact others u other
    · rw [cell]
      exact Function.update_self ..
    · rw [randState_next, ← cell]
  · exact nomatch loaded.symm.trans stored

theorem InOrder.leave {t : τ} {value : Int} (order : InOrder n tr s) (stored : s.caller t = .stored value) :
    InOrder (n + 1) (tr ++ [.leave t value]) { s with caller := Function.update s.caller t .idle } := by
  obtain ⟨others, ⟨loaded, -⟩ | ⟨same, cell⟩⟩ := order.inside (t := t) (by simp [stored])
  · exact nomatch stored.symm.trans loaded
  · have last := Place.stored.inj (stored.symm.trans same)
    refine ⟨?_, .inl ⟨?_, cell⟩⟩
    · rw [filterMap_concat, order.values, List.range_succ, List.map_append]
      simp only [Act.returned?, last, Option.toList_some, List.map_cons, List.map_nil]
    · intro u
      dsimp only
      by_cases own : u = t
      · rw [own, Function.update_self]
      · rw [Function.update_of_ne own]
        exact others u own

theorem InOrder.step (order : InOrder n tr s) (step : Step s a s') (alone : Alone s a) :
    ∃ more, InOrder more (tr ++ [a]) s' := by
  cases step with
  | load => exact ⟨_, order.load alone⟩
  | store loaded => exact ⟨_, order.store loaded⟩
  | leave stored => exact ⟨_, order.leave stored⟩

end

/-- Callers that race store values of the sequence that are not ahead of the stores made and
skip none, and callers that do not race get them all, in order. -/
theorem rand_races (run : (machine τ).Run tr s) :
    (∃ stores, Behind stores tr s) ∧ (((machine τ).restrict Alone).Run tr s →
      ∃ n, tr.filterMap Act.returned? = (List.range n).map (randValue 0xDEADBEEF)) := by
  constructor
  · induction run with
    | start => exact ⟨[], .init⟩
    | next _ taken ih =>
      obtain ⟨stores, behind⟩ := ih
      exact behind.step taken
  · intro apart
    have order : ∃ n, InOrder n tr s := by
      induction apart with
      | start => exact ⟨0, rfl, .inl ⟨fun _ => rfl, rfl⟩⟩
      | next before taken ih =>
        obtain ⟨n, order⟩ := ih before.of_restrict
        exact order.step taken.1 taken.2
    obtain ⟨n, order⟩ := order
    exact ⟨n, order.values⟩

/-- Between the store and the return of a first call an interrupt calls `rand` as well, and
between load and store of a third one a fourth: the interrupt returns first, with the second
value, and both of the others get the third. -/
def interrupts : List (Act Bool) :=
  [.load false, .store false (randState 0xDEADBEEF 1),
    .load true, .store true (randState 0xDEADBEEF 2), .leave true (randValue 0xDEADBEEF 1),
    .leave false (randValue 0xDEADBEEF 0),
    .load false, .load true, .store true (randState 0xDEADBEEF 3), .leave true (randValue 0xDEADBEEF 2),
    .store false (randState 0xDEADBEEF 3), .leave false (randValue 0xDEADBEEF 2)]

theorem rand_races_interrupts : ∃ s, (machine Bool).Run interrupts s ∧ ∃ stores, Behind stores interrupts s := by
  have first : (machine Bool).Run [.load false] _ := .next .start (.load rfl)
  have stored := first.next (Step.store (t := false) rfl)
  have inner := (stored.next (Step.load (t := true) rfl)).next (Step.store (t := true) rfl)
  obtain ⟨⟨_, caller⟩, both, rfl, idle⟩ : ∃ s, (machine Bool).Run (interrupts.take 6) s ∧
      randState 0xDEADBEEF 2 = s.cell ∧ ∀ t, s.caller t = .idle :=
    ⟨_, (inner.next (Step.leave (t := true) rfl)).next (Step.leave (t := false) rfl), rfl,
      fun | true => rfl | false => rfl⟩
  have loads := (both.next (Step.load (t := false) (idle false))).next (Step.load (t := true) (idle true))
  have between := (loads.next (Step.store (t := true) rfl)).next (Step.leave (t := true) rfl)
  have last := (between.next (Step.store (t := false) rfl)).next (Step.leave (t := false) rfl)
  exact ⟨_, last, (rand_races last).1⟩

end Rand

end Libcsp
