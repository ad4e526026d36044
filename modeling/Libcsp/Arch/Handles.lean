import Libcsp.Arch
import Libcsp.Base.Acquire
import Libcsp.Base.Machine
import Mathlib.Data.Fintype.Basic

namespace Libcsp.Handles
open Sys Acquire

inductive Part
  | sem | mutex | cond
  deriving DecidableEq

inductive Host
  | macos | other
  deriving DecidableEq

inductive Kind
  | binSem | mutex
  deriving DecidableEq

/- Creation in `TestArch`. `block` is what `malloc` answers and `ok` whether the call that
initialises a part returns zero. -/

/-- `bin_sem::create` with `sem_t`. -/
def semCreate (block : Option Nat) (ok : Part → Bool) (s : Store Part) : Option (Option Nat × Store Part) :=
  match s.malloc block with
  | (none, s) => some (none, s)
  | (some sem, s) => do
    let (inited, s) ← s.init sem .sem (ok .sem)
    if inited then some (some sem, s)
    else do
      let s ← s.free sem
      some (none, s)

def semRemove (sem : Nat) (s : Store Part) : Option (Store Part) := do
  let s ← s.destroy sem .sem
  s.free sem

/-- `bin_sem::create` on macOS. -/
def pthreadCreate (block : Option Nat) (ok : Part → Bool) (s : Store Part) : Option (Option Nat × Store Part) :=
  match s.malloc block with
  | (none, s) => some (none, s)
  | (some raw, s) => do
    let (inited, s) ← s.init raw .mutex (ok .mutex)
    if !inited then do
      let s ← s.free raw
      some (none, s)
    else do
      let (inited, s) ← s.init raw .cond (ok .cond)
      if !inited then do
        let s ← s.destroy raw .mutex
        let s ← s.free raw
        some (none, s)
      else some (some raw, s)

def pthreadRemove (sem : Nat) (s : Store Part) : Option (Store Part) := do
  let s ← s.destroy sem .cond
  let s ← s.destroy sem .mutex
  s.free sem

def mutexCreate (block : Option Nat) (ok : Part → Bool) (s : Store Part) : Option (Option Nat × Store Part) :=
  match s.malloc block with
  | (none, s) => some (none, s)
  | (some mutex, s) => do
    let (inited, s) ← s.init mutex .mutex (ok .mutex)
    if inited then some (some mutex, s)
    else do
      let s ← s.free mutex
      some (none, s)

def mutexRemove (mutex : Nat) (s : Store Part) : Option (Store Part) := do
  let s ← s.destroy mutex .mutex
  s.free mutex

def create (host : Host) (kind : Kind) : Option Nat → (Part → Bool) → Store Part → Option (Option Nat × Store Part) :=
  match kind, host with
  | .binSem, .other => semCreate
  | .binSem, .macos => pthreadCreate
  | .mutex, _ => mutexCreate

def remove (host : Host) (kind : Kind) : Nat → Store Part → Option (Store Part) :=
  match kind, host with
  | .binSem, .other => semRemove
  | .binSem, .macos => pthreadRemove
  | .mutex, _ => mutexRemove

/-- What an object is made of, in the order in which it is set up. -/
def parts (host : Host) (kind : Kind) : List Part :=
  match kind, host with
  | .binSem, .other => [.sem]
  | .binSem, .macos => [.mutex, .cond]
  | .mutex, _ => [.mutex]

/-- The objects, who has locked the mutex in a block, inside of a wait or a lock of what object
a thread is, the pointers in C's slots, whatever they are, and the slots that C takes to hold an
object. -/
structure State (τ : Type) where
  store : Store Part
  holder : Nat → Option τ
  inside : τ → Option (Kind × Nat)
  slots : Nat → Nat
  owns : Nat → Option Kind

section
variable {τ : Type}

/-- A new object at `p`, which nobody has locked. -/
def State.place (s : State τ) (store : Store Part) (slot p : Nat) : State τ :=
  { s with store, holder := Function.update s.holder p none, slots := Function.update s.slots slot p }

/-- `csp_bin_sem_create` and `csp_mutex_create`. -/
def cspCreate (host : Host) (kind : Kind) (slot : Option Nat) (block : Option Nat) (ok : Part → Bool) (s : State τ) :
    Option (Int × State τ) :=
  match slot with
  | none => some (-1, s)
  | some slot => do
    let (p, store) ← create host kind block ok s.store
    match p with
    | none => some (-1, { s with store })
    | some p => some (0, s.place store slot p)

def cspBinSemCreate (host : Host) : Option Nat → Option Nat → (Part → Bool) → State τ → Option (Int × State τ) :=
  cspCreate host .binSem
def cspMutexCreate (host : Host) : Option Nat → Option Nat → (Part → Bool) → State τ → Option (Int × State τ) :=
  cspCreate host .mutex

/-- The fresh semaphore is posted once. C is not told whether there is one. -/
def cspBinSemInit (host : Host) (slot : Option Nat) (block : Option Nat) (ok : Part → Bool) (s : State τ) :
    Option (State τ) :=
  match slot with
  | none => some s
  | some slot => do
    let (p, store) ← create host .binSem block ok s.store
    match p with
    | none => some { s with store }
    | some p => do
      store.use p (parts host .binSem)
      some (s.place store slot p)

/-- A post of a semaphore; `done` is what the backend returns. -/
def cspBinSemPost (host : Host) (slot : Option Nat) (done : Bool) (s : State τ) : Option Int :=
  match slot with
  | none => some (-1)
  | some slot => do
    s.store.use (s.slots slot) (parts host .binSem)
    some (shimCode done)

def cspBinSemPostIsr (host : Host) : Option Nat → Bool → State τ → Option Int := cspBinSemPost host

/-- What nobody has locked, waits for or is about to lock. -/
def State.Quiet (s : State τ) (p : Nat) : Prop := s.holder p = none ∧ ∀ t, (s.inside t).map Prod.snd ≠ some p

variable [DecidableEq τ]

/-- `csp_bin_sem_wait` and `csp_mutex_lock` on their way in, with the code if they return at once.
It is undefined to lock a mutex again. -/
def cspEnter (host : Host) (kind : Kind) (t : τ) (slot : Option Nat) (s : State τ) : Option (Option Int × State τ) :=
  match slot with
  | none => some (some (-1), s)
  | some slot => do
    s.store.use (s.slots slot) (parts host kind)
    if kind = .mutex ∧ s.holder (s.slots slot) = some t then none
    else some (none, { s with inside := Function.update s.inside t (some (kind, s.slots slot)) })

def cspBinSemWait (host : Host) : τ → Option Nat → State τ → Option (Option Int × State τ) := cspEnter host .binSem
def cspMutexLock (host : Host) : τ → Option Nat → State τ → Option (Option Int × State τ) := cspEnter host .mutex

/-- The end of a wait or a lock that returns `done`. -/
def cspLeave (t : τ) (kind : Kind) (p : Nat) (done : Bool) (s : State τ) : Int × State τ :=
  (shimCode done,
    { s with
      inside := Function.update s.inside t none
      holder := if kind = .mutex ∧ done = true then Function.update s.holder p (some t) else s.holder })

/-- It is undefined to unlock a mutex that somebody else has locked, or nobody. -/
def cspMutexUnlock (host : Host) (t : τ) (slot : Option Nat) (done : Bool) (s : State τ) : Option (Int × State τ) :=
  match slot with
  | none => some (-1, s)
  | some slot => do
    s.store.use (s.slots slot) (parts host .mutex)
    if s.holder (s.slots slot) = some t then
      some (shimCode done, if done then { s with holder := Function.update s.holder (s.slots slot) none } else s)
    else none

instance [Fintype τ] (s : State τ) (p : Nat) : Decidable (s.Quiet p) := inferInstanceAs (Decidable (_ ∧ _))

/-- `csp_bin_sem_remove` and `csp_mutex_remove`. It is undefined to destroy what is in use. -/
def cspRemove [Fintype τ] (host : Host) (kind : Kind) (slot : Option Nat) (s : State τ) : Option (Int × State τ) :=
  match slot with
  | none => some (-1, s)
  | some slot =>
    if s.Quiet (s.slots slot) then do
      let store ← remove host kind (s.slots slot) s.store
      some (0, { s with store })
    else none

def cspBinSemRemove [Fintype τ] (host : Host) : Option Nat → State τ → Option (Int × State τ) := cspRemove host .binSem
def cspMutexRemove [Fintype τ] (host : Host) : Option Nat → State τ → Option (Int × State τ) := cspRemove host .mutex

end

inductive Act (τ : Type)
  | create (kind : Kind) (slot : Option Nat) (code : Int)
  | init (slot : Option Nat) (worked : Bool)
  | remove (kind : Kind) (slot : Option Nat) (code : Int)
  | post (slot : Option Nat) (code : Int)
  | enter (t : τ) (kind : Kind) (slot : Option Nat)
  | leave (t : τ) (kind : Kind) (code : Int)
  | unlock (t : τ) (slot : Option Nat) (code : Int)

variable {τ : Type}

def State.believe (s : State τ) (slot : Option Nat) (kind : Option Kind) : State τ :=
  match slot with
  | none => s
  | some slot => { s with owns := Function.update s.owns slot kind }

/-- `malloc` gives out no block that is given out. -/
def State.Answers (s : State τ) (block : Option Nat) : Prop := ∀ p, block = some p → s.store.blocks p = false

variable [DecidableEq τ] [Fintype τ]

/-- A thread makes one call at a time, and gets no mutex that is locked. -/
inductive Step (host : Host) : State τ → Act τ → State τ → Prop
  | create {s kind slot block ok code t} : s.Answers block → cspCreate host kind slot block ok s = some (code, t) →
      Step host s (.create kind slot code) (if code = 0 then t.believe slot (some kind) else t)
  | init {s slot block ok t} : s.Answers block → cspBinSemInit host slot block ok s = some t →
      Step host s (.init slot (block.isSome && (parts host .binSem).all ok)) (t.believe slot (some .binSem))
  | remove {s kind slot code t} : cspRemove host kind slot s = some (code, t) →
      Step host s (.remove kind slot code) (t.believe slot none)
  | post {s slot done code} : cspBinSemPost host slot done s = some code → Step host s (.post slot code) s
  | enter {s u kind slot code t} : s.inside u = none → cspEnter host kind u slot s = some (code, t) →
      Step host s (.enter u kind slot) t
  | leave {s u kind p done} : s.inside u = some (kind, p) → (kind = .mutex → done = true → s.holder p = none) →
      Step host s (.leave u kind (shimCode done)) (cspLeave u kind p done s).2
  | unlock {s u slot done code t} : s.inside u = none → cspMutexUnlock host u slot done s = some (code, t) →
      Step host s (.unlock u slot code) t

/-- Whatever is in the slots. -/
def machine (host : Host) (τ : Type) [DecidableEq τ] [Fintype τ] (slots : Nat → Nat) : Machine (State τ) (Act τ) where
  init := ⟨⟨fun _ => false, fun _ _ => false⟩, fun _ => none, fun _ => none, slots, fun _ => none⟩
  step := Step host

/-- C creates into slots that hold nothing, uses and removes what it takes to be there, does not
remove what is in use, and unlocks what it has locked, once. -/
def Disciplined (s : State τ) : Act τ → Prop
  | .create _ (some slot) _ => s.owns slot = none
  | .init (some slot) _ => s.owns slot = none
  | .remove kind (some slot) _ => s.owns slot = some kind ∧ s.Quiet (s.slots slot)
  | .post (some slot) _ => s.owns slot = some .binSem
  | .enter t kind (some slot) => s.owns slot = some kind ∧ (kind = .mutex → s.holder (s.slots slot) ≠ some t)
  | .unlock t (some slot) _ => s.owns slot = some .mutex ∧ s.holder (s.slots slot) = some t
  | _ => True

/-- A slot was not left as it was behind C's back. -/
def Heard : Act τ → Prop
  | .init (some _) worked => worked = true
  | _ => True

structure Sound (host : Host) (s : State τ) : Prop where
  /-- A slot that C relies on has an object with all its parts, and of its own. -/
  has : ∀ slot kind, s.owns slot = some kind → s.store.Has (s.slots slot) (parts host kind)
  apart : ∀ slot slot' kind kind', s.owns slot = some kind → s.owns slot' = some kind' →
    s.slots slot = s.slots slot' → slot = slot'
  /-- No block is lost, and no part outlives its block. -/
  kept : ∀ p, s.store.blocks p = true → ∃ slot kind, s.owns slot = some kind ∧ s.slots slot = p
  clean : ∀ p, s.store.blocks p = false → s.store.Fresh p
  /-- What is locked, or what somebody is inside of a call on, is there. -/
  locked : ∀ p t, s.holder p = some t → ∃ slot, s.owns slot = some .mutex ∧ s.slots slot = p
  busy : ∀ t kind p, s.inside t = some (kind, p) → ∃ slot, s.owns slot = some kind ∧ s.slots slot = p

variable {host : Host} {kind : Kind} {block : Option Nat} {ok : Part → Bool} {s t : State τ} {a : Act τ}

theorem parts_nodup (host : Host) (kind : Kind) : (parts host kind).Nodup := by
  cases host <;> cases kind <;> decide

/-- Only a semaphore has the parts of one. -/
theorem binSem_of_parts (sub : ∀ part ∈ parts host .binSem, part ∈ parts host kind) : kind = .binSem := by
  cases kind with
  | binSem => rfl
  | mutex => cases host <;> simp [parts] at sub

theorem pthreadCreate_eq (block : Option Nat) (ok : Part → Bool) (s : Store Part) :
    pthreadCreate block ok s = construct [.mutex, .cond] block ok s := by
  cases block with
  | none => rfl
  | some raw =>
    simp only [pthreadCreate, construct, Store.malloc, setUp, tearDown, Option.bind_eq_bind]
    congr 1
    funext first
    cases first.1 with
    | false => rfl
    | true =>
      show Option.bind _ _ = Option.bind _ _
      congr 1
      funext second
      cases second.1 with
      | false => exact (Option.bind_assoc ..).symm
      | true => rfl

theorem create_eq_construct (host : Host) (kind : Kind) (block : Option Nat) (ok : Part → Bool) (s : Store Part) :
    create host kind block ok s = construct (parts host kind) block ok s := by
  cases kind with
  | mutex => cases block <;> rfl
  | binSem =>
    cases host with
    | other => cases block <;> rfl
    | macos => exact pthreadCreate_eq block ok s

theorem remove_eq_tearDown (host : Host) (kind : Kind) (p : Nat) (s : Store Part) :
    remove host kind p s = tearDown p (parts host kind).reverse s := by
  cases kind with
  | mutex => rfl
  | binSem => cases host <;> rfl

section
variable (sound : Sound host s)
include sound
omit [DecidableEq τ] [Fintype τ]

theorem create_cases (kind : Kind) (ok : Part → Bool) (answers : s.Answers block) :
    (∃ p, block = some p ∧ (parts host kind).all ok = true ∧ s.store.Fresh p ∧
      create host kind block ok s.store = some (some p, s.store.put p (parts host kind))) ∨
    (block.isSome && (parts host kind).all ok) = false ∧ create host kind block ok s.store = some (none, s.store) := by
  have fresh : ∀ p, block = some p → s.store.Fresh p := fun p given => sound.clean p (answers p given)
  rw [create_eq_construct, construct_eq fresh (parts_nodup host kind)]
  cases block with
  | none => exact .inr ⟨rfl, rfl⟩
  | some p =>
    by_cases works : ∀ part ∈ parts host kind, ok part = true
    · exact .inl ⟨p, rfl, List.all_eq_true.mpr works, fresh p rfl, by simp only [if_pos works]⟩
    · refine .inr ⟨?_, by simp only [if_neg works]⟩
      rw [Option.isSome_some, Bool.true_and, Bool.eq_false_iff]
      exact fun all => works (List.all_eq_true.mp all)

theorem remove_owned {slot : Nat} (owned : s.owns slot = some kind) :
    remove host kind (s.slots slot) s.store = some (s.store.drop (s.slots slot)) := by
  rw [remove_eq_tearDown]
  refine tearDown_eq ((sound.has slot kind owned).permute fun part => List.mem_reverse.symm) ?_
  exact List.nodup_reverse.mpr (parts_nodup host kind)

theorem use_owned {slot : Nat} (owned : s.owns slot = some kind) :
    s.store.use (s.slots slot) (parts host kind) = some () :=
  (sound.has slot kind owned).use

theorem Sound.gain {slot p : Nat} (kind : Kind) (free : s.owns slot = none) (fresh : s.store.Fresh p) :
    Sound host ((s.place (s.store.put p (parts host kind)) slot p).believe (some slot) (some kind)) := by
  have elsewhere : ∀ other kind', s.owns other = some kind' → other ≠ slot ∧ s.slots other ≠ p := by
    intro other kind' owned
    refine ⟨?_, ?_⟩
    · rintro rfl
      exact nomatch free.symm.trans owned
    · rintro rfl
      exact nomatch fresh.1.symm.trans (sound.has other kind' owned).1
  have stays : ∀ other kind' q, s.owns other = some kind' → s.slots other = q →
      ∃ slot', Function.update s.owns slot (some kind) slot' = some kind' ∧ Function.update s.slots slot p slot' = q := by
    intro other kind' q owned there
    have own := (elsewhere other kind' owned).1
    exact ⟨other, by rwa [Function.update_of_ne own], by rwa [Function.update_of_ne own]⟩
  refine ⟨?_, ?_, ?_, ?_, ?_, ?_⟩
  · intro other kind' owned
    dsimp only [State.place, State.believe] at owned ⊢
    by_cases own : other = slot
    · subst own
      rw [Function.update_self] at owned ⊢
      cases owned
      exact ⟨Function.update_self .., Function.update_self ..⟩
    · rw [Function.update_of_ne own] at owned ⊢
      have apart := (elsewhere other kind' owned).2
      obtain ⟨block, ready⟩ := sound.has other kind' owned
      exact ⟨by simpa [Store.put, apart] using block, by simpa [Store.put, apart] using ready⟩
  · intro first second kind₁ kind₂ owned₁ owned₂ same
    dsimp only [State.place, State.believe] at owned₁ owned₂ same
    by_cases own₁ : first = slot
    · by_cases own₂ : second = slot
      · rw [own₁, own₂]
      · rw [Function.update_of_ne own₂] at owned₂ same
        rw [own₁, Function.update_self] at same
        exact absurd same.symm (elsewhere second kind₂ owned₂).2
    · rw [Function.update_of_ne own₁] at owned₁ same
      by_cases own₂ : second = slot
      · rw [own₂, Function.update_self] at same
        exact absurd same (elsewhere first kind₁ owned₁).2
      · rw [Function.update_of_ne own₂] at owned₂ same
        exact sound.apart first second kind₁ kind₂ owned₁ owned₂ same
  · intro q given
    by_cases new : q = p
    · exact ⟨slot, kind, Function.update_self .., by rw [new]; exact Function.update_self ..⟩
    · obtain ⟨other, kind', owned, there⟩ := sound.kept q (by simpa [State.place, State.believe, Store.put, new] using given)
      obtain ⟨slot', before⟩ := stays other kind' q owned there
      exact ⟨slot', kind', before⟩
  · intro q dead
    have old : q ≠ p := by
      rintro rfl
      simp [State.place, State.believe, Store.put] at dead
    obtain ⟨-, unready⟩ := sound.clean q (by simpa [State.place, State.believe, Store.put, old] using dead)
    exact ⟨dead, by simpa [State.place, State.believe, Store.put, old] using unready⟩
  · intro q u held
    have old : q ≠ p := by
      rintro rfl
      simp [State.place, State.believe] at held
    obtain ⟨other, owned, there⟩ := sound.locked q u (by simpa [State.place, State.believe, old] using held)
    exact stays other .mutex q owned there
  · intro u kind' q calling
    obtain ⟨other, owned, there⟩ := sound.busy u kind' q calling
    exact stays other kind' q owned there

theorem Sound.lose {slot : Nat} (owned : s.owns slot = some kind) (quiet : s.Quiet (s.slots slot)) :
    Sound host (({ s with store := s.store.drop (s.slots slot) } : State τ).believe (some slot) none) := by
  have others : ∀ other kind', Function.update s.owns slot none other = some kind' →
      s.owns other = some kind' ∧ s.slots other ≠ s.slots slot := by
    intro other kind' left
    have own : other ≠ slot := by
      rintro rfl
      rw [Function.update_self] at left
      exact nomatch left
    rw [Function.update_of_ne own] at left
    exact ⟨left, fun same => own (sound.apart other slot kind' kind left owned same)⟩
  have stays : ∀ other kind', s.owns other = some kind' → s.slots other ≠ s.slots slot →
      Function.update s.owns slot none other = some kind' := by
    intro other kind' before elsewhere
    have own : other ≠ slot := by
      rintro rfl
      exact elsewhere rfl
    rwa [Function.update_of_ne own]
  refine ⟨?_, ?_, ?_, ?_, ?_, ?_⟩
  · intro other kind' left
    obtain ⟨before, apart⟩ := others other kind' left
    obtain ⟨block, ready⟩ := sound.has other kind' before
    exact ⟨by simpa [State.believe, Store.drop, apart] using block, by simpa [State.believe, Store.drop, apart] using ready⟩
  · intro first second kind₁ kind₂ left₁ left₂ same
    exact sound.apart first second kind₁ kind₂ (others first kind₁ left₁).1 (others second kind₂ left₂).1 same
  · intro q given
    have apart : q ≠ s.slots slot := by
      rintro rfl
      simp [State.believe, Store.drop] at given
    obtain ⟨other, kind', before, there⟩ := sound.kept q (by simpa [State.believe, Store.drop, apart] using given)
    exact ⟨other, kind', stays other kind' before (by rwa [there]), there⟩
  · intro q dead
    by_cases gone : q = s.slots slot
    · rw [gone]
      exact ⟨Function.update_self .., Function.update_self ..⟩
    · obtain ⟨-, unready⟩ := sound.clean q (by simpa [State.believe, Store.drop, gone] using dead)
      exact ⟨dead, by simpa [State.believe, Store.drop, gone] using unready⟩
  · intro q u held
    obtain ⟨other, before, there⟩ := sound.locked q u held
    refine ⟨other, stays other .mutex before ?_, there⟩
    intro same
    have free : s.holder q = none := by rw [← there, same, quiet.1]
    exact absurd (free.symm.trans held) (by simp)
  · intro u kind' q calling
    obtain ⟨other, before, there⟩ := sound.busy u kind' q calling
    refine ⟨other, stays other kind' before ?_, there⟩
    intro same
    have inside : s.inside u = some (kind', q) := calling
    refine quiet.2 u ?_
    rw [inside, ← same, there]
    rfl

theorem Sound.unlocked (p : Nat) : Sound host { s with holder := Function.update s.holder p none } := by
  refine ⟨sound.has, sound.apart, sound.kept, sound.clean, ?_, sound.busy⟩
  intro q v held
  by_cases own : q = p
  · rw [own] at held
    exact nomatch (Function.update_self ..).symm.trans held
  · exact sound.locked q v (by simpa [own] using held)

end

section
variable (sound : Sound host s)
include sound

omit [Fintype τ] in
theorem Sound.enter {slot : Nat} (owned : s.owns slot = some kind) (u : τ) :
    Sound host { s with inside := Function.update s.inside u (some (kind, s.slots slot)) } := by
  refine ⟨sound.has, sound.apart, sound.kept, sound.clean, sound.locked, ?_⟩
  intro v kind' q calling
  dsimp only at calling
  by_cases own : v = u
  · subst own
    rw [Function.update_self] at calling
    cases calling
    exact ⟨slot, owned, rfl⟩
  · exact sound.busy v kind' q (by simpa [own] using calling)

omit [Fintype τ] in
theorem Sound.leave {u : τ} {p : Nat} (calling : s.inside u = some (kind, p)) (done : Bool) :
    Sound host (cspLeave u kind p done s).2 := by
  refine ⟨sound.has, sound.apart, sound.kept, sound.clean, ?_, ?_⟩
  · intro q v held
    simp only [cspLeave] at held
    split_ifs at held with got
    · by_cases own : q = p
      · obtain ⟨slot, owned, there⟩ := sound.busy u kind p calling
        rw [got.1] at owned
        exact ⟨slot, owned, by rw [own]; exact there⟩
      · exact sound.locked q v (by simpa [own] using held)
    · exact sound.locked q v held
  · intro v kind' q inside
    simp only [cspLeave] at inside
    by_cases own : v = u
    · rw [own, Function.update_self] at inside
      exact nomatch inside
    · exact sound.busy v kind' q (by simpa [own] using inside)

theorem Sound.step (disciplined : Disciplined s a) (heard : Heard a) (step : Step host s a t) : Sound host t := by
  cases step with
  | @create kind slot block ok code t answers returned =>
    cases slot with
    | none =>
      cases returned
      exact sound
    | some slot =>
      obtain ⟨p, -, -, fresh, made⟩ | ⟨-, made⟩ := create_cases sound kind ok answers
      · simp only [cspCreate, made, Option.bind_eq_bind, Option.bind_some, Option.some.injEq, Prod.mk.injEq] at returned
        obtain ⟨rfl, rfl⟩ := returned
        exact sound.gain kind disciplined fresh
      · simp only [cspCreate, made, Option.bind_eq_bind, Option.bind_some, Option.some.injEq, Prod.mk.injEq] at returned
        obtain ⟨rfl, rfl⟩ := returned
        exact sound
  | @init slot block ok t answers returned =>
    cases slot with
    | none =>
      cases returned
      exact sound
    | some slot =>
      obtain ⟨p, -, -, fresh, made⟩ | ⟨failed, -⟩ := create_cases sound .binSem ok answers
      · have posts := (s.store.put_has p (parts host .binSem)).use
        simp only [cspBinSemInit, made, posts, Option.bind_eq_bind, Option.bind_some, Option.some.injEq] at returned
        cases returned
        exact sound.gain .binSem disciplined fresh
      · exact nomatch failed.symm.trans heard
  | @remove kind slot code t returned =>
    cases slot with
    | none =>
      cases returned
      exact sound
    | some slot =>
      obtain ⟨owned, quiet⟩ := disciplined
      simp only [cspRemove, if_pos quiet, remove_owned sound owned, Option.bind_eq_bind, Option.bind_some,
        Option.some.injEq, Prod.mk.injEq] at returned
      obtain ⟨-, rfl⟩ := returned
      exact sound.lose owned quiet
  | post => exact sound
  | @enter u kind slot code t idle returned =>
    cases slot with
    | none =>
      cases returned
      exact sound
    | some slot =>
      obtain ⟨owned, apart⟩ := disciplined
      simp only [cspEnter, use_owned sound owned, Option.bind_eq_bind, Option.bind_some] at returned
      split_ifs at returned
      cases returned
      exact sound.enter owned u
  | leave calling free => exact sound.leave calling _
  | @unlock u slot done code t idle returned =>
    cases slot with
    | none =>
      cases returned
      exact sound
    | some slot =>
      obtain ⟨owned, holds⟩ := disciplined
      simp only [cspMutexUnlock, use_owned sound owned, if_pos holds, Option.bind_eq_bind, Option.bind_some] at returned
      cases returned
      split_ifs
      · exact sound.unlocked _
      · exact sound

/-- No call that C may make is undefined, and a creation that fails changes nothing. -/
structure Defined (host : Host) (s : State τ) : Prop where
  enter : ∀ t kind slot, s.owns slot = some kind → (kind = .mutex → s.holder (s.slots slot) ≠ some t) →
    (cspEnter host kind t (some slot) s).isSome
  unlock : ∀ t slot done, s.owns slot = some .mutex → s.holder (s.slots slot) = some t →
    (cspMutexUnlock host t (some slot) done s).isSome
  post : ∀ slot done, s.owns slot = some .binSem → cspBinSemPost host (some slot) done s = some (shimCode done)
  remove : ∀ kind slot, s.owns slot = some kind → s.Quiet (s.slots slot) → (cspRemove host kind (some slot) s).isSome
  create : ∀ kind slot block ok, s.Answers block → if (block.isSome && (parts host kind).all ok) = true
    then ∃ t, cspCreate host kind (some slot) block ok s = some (0, t)
    else cspCreate host kind (some slot) block ok s = some (-1, s)
  init : ∀ slot block ok, s.Answers block → if (block.isSome && (parts host .binSem).all ok) = true
    then ∃ t, cspBinSemInit host (some slot) block ok s = some t
    else cspBinSemInit host (some slot) block ok s = some s

theorem Sound.defined : Defined host s := by
  refine ⟨?_, ?_, ?_, ?_, ?_, ?_⟩
  · intro u kind slot owned apart
    have free : ¬ (kind = .mutex ∧ s.holder (s.slots slot) = some u) := fun both => apart both.1 both.2
    simp only [cspEnter, use_owned sound owned, if_neg free, Option.bind_eq_bind, Option.bind_some, Option.isSome_some]
  · intro u slot done owned holds
    simp only [cspMutexUnlock, use_owned sound owned, if_pos holds, Option.bind_eq_bind, Option.bind_some,
      Option.isSome_some]
  · intro slot done owned
    simp only [cspBinSemPost, use_owned sound owned, Option.bind_eq_bind, Option.bind_some]
  · intro kind slot owned quiet
    simp only [cspRemove, if_pos quiet, remove_owned sound owned, Option.bind_eq_bind, Option.bind_some, Option.isSome_some]
  · intro kind slot block ok answers
    obtain ⟨p, rfl, works, -, made⟩ | ⟨failed, made⟩ := create_cases sound kind ok answers
    · rw [if_pos (by simp [works])]
      simp only [cspCreate, made, Option.bind_eq_bind, Option.bind_some]
      exact ⟨_, rfl⟩
    · rw [failed, if_neg Bool.false_ne_true]
      simp only [cspCreate, made, Option.bind_eq_bind, Option.bind_some]
  · intro slot block ok answers
    obtain ⟨p, rfl, works, -, made⟩ | ⟨failed, made⟩ := create_cases sound .binSem ok answers
    · rw [if_pos (by simp [works])]
      simp only [cspBinSemInit, made, (s.store.put_has p (parts host .binSem)).use, Option.bind_eq_bind, Option.bind_some]
      exact ⟨_, rfl⟩
    · rw [failed, if_neg Bool.false_ne_true]
      simp only [cspBinSemInit, made, Option.bind_eq_bind, Option.bind_some]

/-- A failing `csp_bin_sem_init` leaves the slot as it was, and C takes it for a semaphore. A wait
on it is undefined, unless another slot's semaphore is where the pointer in it leads. -/
structure Unheard (host : Host) (s : State τ) : Prop where
  fails : ∀ slot, Step host s (.init (some slot) false) (s.believe (some slot) (some .binSem))
  wait : ∀ slot t, s.owns slot = none → (cspBinSemWait host t (some slot) (s.believe (some slot) (some .binSem)) = none ↔
    ∀ other, s.owns other = some .binSem → s.slots other ≠ s.slots slot)

theorem Sound.unheard : Unheard host s := by
  refine ⟨?_, ?_⟩
  · intro slot
    exact @Step.init τ _ _ host s (some slot) none (fun _ => true) _ nofun
      (sound.defined.init slot none (fun _ => true) nofun)
  · intro slot u free
    constructor
    · intro undefined other owned same
      have there := use_owned sound owned
      rw [same] at there
      simp [cspBinSemWait, cspEnter, State.believe, there] at undefined
    · intro nobody
      have misses : s.store.use (s.slots slot) (parts host .binSem) = none := by
        refine if_neg ?_
        rintro ⟨block, ready⟩
        obtain ⟨other, kind, owned, there⟩ := sound.kept _ block
        have has := sound.has other kind owned
        rw [there] at has
        have semaphore : kind = .binSem := by
          refine @binSem_of_parts host kind ?_
          intro part member
          have here := ready part member
          rw [has.2] at here
          exact of_decide_eq_true here
        exact nobody other (by rw [owned, semaphore]) there
      simp only [cspBinSemWait, cspEnter, State.believe, misses, Option.bind_eq_bind, Option.bind_none]

end

theorem boot_sound (host : Host) (slots : Nat → Nat) : Sound host (machine host τ slots).init :=
  ⟨nofun, nofun, nofun, fun _ _ => ⟨rfl, rfl⟩, nofun, nofun⟩

/-- In every run in which no `csp_bin_sem_init` fails, C finds behind its slots what it put
there, whatever else fails, and nothing is lost. One that fails is not seen. -/
theorem handles_sound {host : Host} {slots : Nat → Nat} {tr : List (Act τ)}
    (run : ((machine host τ slots).restrict fun s a => Disciplined s a ∧ Heard a).Run tr s) :
    Sound host s ∧ Defined host s ∧ Unheard host s := by
  have sound : Sound host s := by
    refine Machine.Run.invariant (M := (machine host τ slots).restrict _) (boot_sound host slots) ?_ run
    intro s a t sound taken
    exact sound.step taken.2.1 taken.2.2 taken.1
  exact ⟨sound, sound.defined, sound.unheard⟩

/-- A mutex in slot 8 that the first thread has locked and the second is about to. -/
def mutexCalls : List (Act (Fin 2)) :=
  [.create .mutex (some 8) 0, .enter 0 .mutex (some 8), .leave 0 .mutex 0, .enter 1 .mutex (some 8)]

/-- The first thread can unlock the mutex; a semaphore whose condition variable cannot be had
changes nothing; and after a `csp_bin_sem_init` that failed a wait on slot 16 is undefined. -/
theorem handles_sound_macos : ∃ s, ((machine .macos (Fin 2) id).restrict fun s a => Disciplined s a ∧ Heard a).Run mutexCalls s ∧
    (cspMutexUnlock .macos 0 (some 8) true s).isSome ∧
    cspBinSemCreate .macos (some 16) (some 128) (fun part => part == .mutex) s = some (-1, s) ∧
    cspBinSemWait .macos 0 (some 16) (s.believe (some 16) (some .binSem)) = none := by
  have created : Step .macos (machine .macos (Fin 2) id).init (.create .mutex (some 8) 0) _ :=
    @Step.create _ _ _ .macos _ .mutex (some 8) (some 64) (fun _ => true) 0 _ (fun _ _ => rfl) rfl
  have first : ((machine .macos (Fin 2) id).restrict fun s a => Disciplined s a ∧ Heard a).Run (mutexCalls.take 1) _ :=
    .next .start ⟨created, rfl, trivial⟩
  have second := first.next ⟨@Step.enter _ _ _ .macos _ 0 .mutex (some 8) none _ rfl rfl, ⟨rfl, fun _ => nofun⟩, trivial⟩
  have third := second.next ⟨@Step.leave _ _ _ .macos _ 0 .mutex 64 true rfl (fun _ _ => rfl), trivial, trivial⟩
  have fourth := third.next ⟨@Step.enter _ _ _ .macos _ 1 .mutex (some 8) none _ rfl rfl, ⟨rfl, fun _ => nofun⟩, trivial⟩
  obtain ⟨-, defined, unheard⟩ := handles_sound fourth
  refine ⟨_, fourth, defined.unlock 0 8 true rfl rfl, ?_, (unheard.wait 16 0 rfl).mpr ?_⟩
  · exact defined.create .binSem 16 (some 128) (fun part => part == .mutex) (fun _ same => by cases same; rfl)
  · intro other owned
    change Function.update (fun _ => none) 8 (some Kind.mutex) other = some .binSem at owned
    rw [Function.update_apply] at owned
    split_ifs at owned
    exact nomatch owned

end Libcsp.Handles
