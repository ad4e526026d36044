import Libcsp.Base.Lock
import Libcsp.Error
import Mathlib.Logic.Function.Basic

namespace Libcsp.Sniffer
open Sys

/-- How far one call of `Sniffer::open` and the handle it returns have come. `live` is
from the return of `open` to the start of `drop`. -/
inductive At
  | fresh
  | enabling
  | releasing (e : CspError)
  | failed (e : CspError)
  | live
  | disabling
  | clearing
  | dropped

/-- `SNIFFER_ACTIVE`, the promiscuous mode of libcsp, and the calls. -/
structure State (ι : Type) where
  active : Bool
  promisc : Bool
  pc : ι → At

inductive Act (ι : Type)
  | swapped (i : ι) (old : Bool)
  | enabled (i : ι) (code : Int)
  | released (i : ι)
  | dropping (i : ι)
  | disabled (i : ι)
  | cleared (i : ι)

variable {ι : Type} [DecidableEq ι]

/-- One step for each atomic operation and each C call of `open` and `drop`, by any
number of threads. `csp_promisc_enable` enables the mode iff it returns 0. -/
inductive Step : State ι → Act ι → State ι → Prop
  | busy {s i} : s.pc i = .fresh → s.active = true →
      Step s (.swapped i true) { s with active := true, pc := Function.update s.pc i (.failed .resourceInUse) }
  | claimed {s i} : s.pc i = .fresh → s.active = false →
      Step s (.swapped i false) { s with active := true, pc := Function.update s.pc i .enabling }
  | enabled {s i code} : s.pc i = .enabling → cspResult code = .ok () →
      Step s (.enabled i code)
        { s with promisc := if code = 0 then true else s.promisc, pc := Function.update s.pc i .live }
  | enableFailed {s i code e} : s.pc i = .enabling → cspResult code = .error e →
      Step s (.enabled i code)
        { s with promisc := if code = 0 then true else s.promisc, pc := Function.update s.pc i (.releasing e) }
  | released {s i e} : s.pc i = .releasing e →
      Step s (.released i) { s with active := false, pc := Function.update s.pc i (.failed e) }
  | dropping {s i} : s.pc i = .live →
      Step s (.dropping i) { s with pc := Function.update s.pc i .disabling }
  | disabled {s i} : s.pc i = .disabling →
      Step s (.disabled i) { s with promisc := false, pc := Function.update s.pc i .clearing }
  | cleared {s i} : s.pc i = .clearing →
      Step s (.cleared i) { s with active := false, pc := Function.update s.pc i .dropped }

def machine (ι : Type) [DecidableEq ι] : Machine (State ι) (Act ι) where
  init := ⟨false, false, fun _ => .fresh⟩
  step := Step

/-- From the swap that found the flag clear to the store that clears it. -/
def At.holds : At → Bool
  | .enabling | .releasing _ | .live | .disabling | .clearing => true
  | _ => false

/-- The mode is on from the successful enable to the disable. -/
def At.on : At → Bool
  | .live | .disabling => true
  | _ => false

theorem At.holds_of_on {pc : At} (on : pc.on = true) : pc.holds = true := by
  cases pc with
  | live | disabling => rfl
  | fresh | enabling | releasing | failed | clearing | dropped => exact nomatch on

def lockOp : Act ι → Option (LockOp ι)
  | .swapped i false => some (.acquire i)
  | .released i | .cleared i => some (.release i)
  | _ => none

/-- The flag is a lock that the holding call owns, and the mode follows the place of
that call. -/
structure Holding (s : State ι) (held : Option ι) : Prop where
  flag : s.active = held.isSome
  holder : ∀ i, (s.pc i).holds = true ↔ held = some i
  mode : s.promisc = true ↔ ∃ i, (s.pc i).on = true

/-- The step of a call that holds the flag before or after it. Nobody else does, so the
mode follows the mover. -/
theorem Holding.mine {s : State ι} {held held' : Option ι} {i : ι} {pc' : At} {active' promisc' : Bool}
    (holding : Holding s held) (only : ∀ j, j ≠ i → held ≠ some j) (flag : active' = held'.isSome)
    (holder : held' = if pc'.holds then some i else none) (mode : promisc' = pc'.on) :
    Holding ⟨active', promisc', Function.update s.pc i pc'⟩ held' where
  flag := flag
  holder := by
    intro j
    by_cases own : j = i
    · subst own
      simp [holder]
    · have idle : (s.pc j).holds = false := by
        rw [← Bool.not_eq_true, holding.holder j]
        exact only j own
      simp only [Function.update_of_ne own, idle, holder]
      split <;> simp [Ne.symm own]
  mode := by
    rw [mode]
    constructor
    · intro on
      exact ⟨i, by simpa using on⟩
    · rintro ⟨j, on⟩
      by_cases own : j = i
      · subst own
        simpa using on
      · simp only [Function.update_of_ne own] at on
        exact absurd ((holding.holder j).mp (At.holds_of_on on)) (only j own)

omit [DecidableEq ι] in
theorem Holding.of_pc {s : State ι} {held : Option ι} {i : ι} {pc : At} (holding : Holding s held)
    (place : s.pc i = pc) (holds : pc.holds = true) : held = some i :=
  (holding.holder i).mp (by rw [place]; exact holds)

omit [DecidableEq ι] in
theorem Holding.promisc_of_some {s : State ι} {i : ι} {pc : At} {mode : Bool} (holding : Holding s (some i))
    (place : s.pc i = pc) (same : pc.on = mode) : s.promisc = mode := by
  rw [Bool.eq_iff_iff, holding.mode, ← same]
  constructor
  · rintro ⟨j, on⟩
    cases Option.some.inj ((holding.holder j).mp (At.holds_of_on on))
    rwa [place] at on
  · intro on
    exact ⟨i, by rwa [place]⟩

omit [DecidableEq ι] in
theorem Holding.promisc_of_none {s : State ι} (holding : Holding s none) : s.promisc = false := by
  rw [← Bool.not_eq_true, holding.mode]
  rintro ⟨j, on⟩
  exact nomatch (holding.holder j).mp (At.holds_of_on on)

omit [DecidableEq ι] in
theorem some_ne_of_ne {i : ι} : ∀ j, j ≠ i → some i ≠ some j := by
  intro j other same
  exact other (Option.some.inj same).symm

theorem refines_lock : Refines (machine ι) (exclusiveLock ι) Holding lockOp where
  init := ⟨rfl, by simp [machine, At.holds, exclusiveLock], by simp [machine, At.on]⟩
  visible := by
    intro s a t held op holding taken seen
    cases taken with
    | @claimed i place clear =>
      cases seen
      have free : held = none := by simpa [clear] using holding.flag.symm
      subst free
      exact ⟨some i, ⟨rfl, rfl⟩, holding.mine (fun _ _ => nofun) rfl rfl holding.promisc_of_none⟩
    | @released i e place =>
      cases seen
      have mine := holding.of_pc place rfl
      subst mine
      exact ⟨none, ⟨rfl, rfl⟩, holding.mine some_ne_of_ne rfl rfl (holding.promisc_of_some place rfl)⟩
    | @cleared i place =>
      cases seen
      have mine := holding.of_pc place rfl
      subst mine
      exact ⟨none, ⟨rfl, rfl⟩, holding.mine some_ne_of_ne rfl rfl (holding.promisc_of_some place rfl)⟩
    | busy | enabled | enableFailed | dropping | disabled => exact nomatch seen
  silent := by
    intro s a t held holding taken seen
    cases taken with
    | @busy i place set =>
      refine ⟨?_, ?_, ?_⟩
      · rw [← holding.flag, set]
      · intro j
        by_cases own : j = i
        · subst own
          have idle := holding.holder j
          rw [place] at idle
          simpa [At.holds] using idle
        · simpa [Function.update_of_ne own] using holding.holder j
      · rw [holding.mode]
        constructor
        · rintro ⟨j, on⟩
          have other : j ≠ i := by
            rintro rfl
            rw [place] at on
            exact nomatch on
          exact ⟨j, by simpa [Function.update_of_ne other] using on⟩
        · rintro ⟨j, on⟩
          by_cases own : j = i
          · subst own
            simp [At.on] at on
          · exact ⟨j, by simpa [Function.update_of_ne own] using on⟩
    | @enabled i code place ok =>
      have mine := holding.of_pc place rfl
      subst mine
      exact holding.mine some_ne_of_ne holding.flag rfl (by simp [cspResult_ok_iff.mp ok, At.on])
    | @enableFailed i code e place failed =>
      have mine := holding.of_pc place rfl
      subst mine
      have nonzero : code ≠ 0 := by
        rintro rfl
        exact nomatch failed
      refine holding.mine some_ne_of_ne holding.flag rfl ?_
      rw [if_neg nonzero]
      exact holding.promisc_of_some place rfl
    | @dropping i place =>
      have mine := holding.of_pc place rfl
      subst mine
      exact holding.mine some_ne_of_ne holding.flag rfl (holding.promisc_of_some place rfl)
    | @disabled i place =>
      have mine := holding.of_pc place rfl
      subst mine
      exact holding.mine some_ne_of_ne holding.flag rfl rfl
    | claimed | released | cleared => exact nomatch seen

/-- `open` called by `i` now can claim the flag and return a handle. -/
def CanOpen (s : State ι) (i : ι) : Prop :=
  ∃ t u, Step s (.swapped i false) t ∧ Step t (.enabled i 0) u ∧ u.pc i = .live

theorem canOpen_of_clear {s : State ι} {i : ι} (place : s.pc i = .fresh) (clear : s.active = false) : CanOpen s i :=
  ⟨_, _, .claimed place clear, .enabled (Function.update_self ..) rfl, Function.update_self ..⟩

/-- What holds in a reachable state `s`. -/
structure Laws (s : State ι) : Prop where
  one : ∀ i j, s.pc i = .live → s.pc j = .live → i = j
  enabled : ∀ i, s.pc i = .live → s.promisc = true
  disabled : s.active = false → s.promisc = false
  /-- The calls and handles that are over leave nothing behind. -/
  reopens : (∀ i, (s.pc i).holds = false) → ∀ j, s.pc j = .fresh → CanOpen s j
  /-- An `open` that fails after its claim clears the flag in its last step. -/
  releases : ∀ i t, Step s (.released i) t → ∀ j, t.pc j = .fresh → CanOpen t j

theorem sniffer_exclusive {tr : List (Act ι)} {s : State ι} (run : (machine ι).Run tr s) : Laws s := by
  obtain ⟨held, _, holding⟩ := refines_lock.run run
  have exclusive : Exclusive (machine ι) (fun s i => s.pc i = .live) :=
    refines_lock.exclusive (fun related live => related.of_pc live rfl)
  refine ⟨?_, ?_, ?_, ?_, ?_⟩
  · exact exclusive tr s run
  · intro i live
    exact holding.mode.mpr ⟨i, by rw [live]; rfl⟩
  · intro clear
    have free : held = none := by simpa [clear] using holding.flag.symm
    subst free
    exact holding.promisc_of_none
  · intro idle j fresh
    refine canOpen_of_clear fresh ?_
    cases held with
    | none => exact holding.flag
    | some i => exact absurd ((holding.holder i).mpr rfl) (by simp [idle i])
  · intro i t taken j fresh
    cases taken with
    | released => exact canOpen_of_clear fresh rfl

/-- The second of two calls fails while the first one's handle is live. -/
theorem sniffer_exclusive_two_calls :
    ∃ tr s, (machine (Fin 2)).Run tr s ∧ s.pc 0 = .live ∧ s.pc 1 = .failed .resourceInUse ∧ Laws s := by
  have claimed : (machine (Fin 2)).Run [.swapped 0 false] _ := Machine.Run.start.next (Step.claimed rfl rfl)
  have enabled := claimed.next (@Step.enabled _ _ _ 0 0 rfl rfl)
  have busy := enabled.next (@Step.busy _ _ _ 1 rfl rfl)
  exact ⟨_, _, busy, rfl, rfl, sniffer_exclusive busy⟩

end Libcsp.Sniffer
