import Libcsp.Base.Machine
import Libcsp.Sfp.Callbacks
import Mathlib.Logic.Function.Basic

namespace Libcsp.Ffi
open Sys

/-- How a user callback ends. The payload of a panic is dropped by whoever catches it, and
its destructor is user code that may panic as well. -/
inductive Outcome (ρ : Type)
  | returns (r : ρ)
  | panics (destructorPanics : Bool)

/-- What a shim does to the C frame that called it. -/
inductive Back (ρ : Type)
  | value (r : ρ)
  | unwinds
  deriving DecidableEq

def Back.map {ρ ω : Type} (f : ρ → ω) : Back ρ → Back ω
  | .value r => .value (f r)
  | .unwinds => .unwinds

theorem Back.value_of_map_const {ρ ω : Type} {back : Back ρ} {r r' : ω} (ends : back.map (fun _ => r) = .value r') :
    r = r' := by
  cases back with
  | value => exact Back.value.inj ends
  | unwinds => exact nomatch ends

/-- `ffi_util::guard` of a `std` build, for a closure that stores its result on its last
line. `eprintln!` panics when `stderr` cannot be written, and the caught payload is
dropped behind it, both outside of `catch_unwind`. -/
def guard {ρ : Type} (stderrFails : Bool) : Outcome ρ → Back (Option ρ)
  | .returns r => .value (some r)
  | .panics destructorPanics => if stderrFails || destructorPanics then .unwinds else .value none

/-- The registered interfaces and CAN drivers, each with the spin lock of its own. -/
inductive Lock (ι κ : Type)
  | userIface (i : ι)
  | driver (k : κ)
  deriving DecidableEq

/-- A shim whose user callback is running, with what the callback was handed. -/
inductive Frame (ι κ π ρ : Type)
  | readCb (done total : UInt32)
  | writeCb (done total : UInt32) (received : List UInt8)
  | nexthopShim (i : ι) (via : UInt16) (packet : π) (fromMe : Bool)
  | canTxTrampoline (k : κ) (id : UInt32) (data : List UInt8) (dlc : UInt8)
  | rtableIterate (route : ρ)

inductive Answer
  | code (c : Int)
  | keepGoing (b : Bool)
  deriving DecidableEq

/-- What a shim does before it asks the user. -/
inductive Start (ι κ π ρ : Type)
  | answers (a : Answer)
  | asks (frame : Frame ι κ π ρ)

/-- An invocation of a shim by C. Pointers that the shim compares with null are
optional. -/
inductive Call (ι κ π ρ : Type)
  | readCb (ctx : SendCtx Unit) (size offset : UInt32)
  | writeCb (ctx : VecCtx Unit) (buffer : RawPtr) (size offset totalsz : UInt32)
  | nexthopShim (interfaceData : Option ι) (via : UInt16) (packet : Option π) (fromMe : Int)
  | canTxTrampoline (driverData : Option κ) (id : UInt32) (data : Option RawPtr) (dlc : UInt8)
  | rtableIterate (route : ρ)

variable {τ ι κ π ρ : Type}

def Call.start (w : PointerWidth) : Call ι κ π ρ → Start ι κ π ρ
  | .readCb ctx size offset =>
    let stop := saturatingAdd offset size
    if ctx.len < stop then .answers (.code cspErrInval) else .asks (.readCb stop ctx.len)
  | .writeCb ctx buffer size offset totalsz =>
    let buf := if ctx.buf.isEmpty ∧ 0 < totalsz then List.replicate totalsz.toNat 0 else ctx.buf
    match checkedAdd w offset.toNat size.toNat with
    | none => .answers (.code cspErrInval)
    | some stop =>
      if buf.length < stop then .answers (.code cspErrInval)
      else .asks (.writeCb (UInt32.ofNat stop) totalsz
        ((overwrite buf offset.toNat (buffer.read 0 size.toNat)).take stop))
  | .nexthopShim interfaceData via packet fromMe =>
    match interfaceData, packet with
    | some i, some pkt => .asks (.nexthopShim i via pkt (fromMe ≠ 0))
    | _, _ => .answers (.code cspErrInval)
  | .canTxTrampoline driverData id data dlc =>
    match driverData, data with
    | some k, some data => .asks (.canTxTrampoline k id (data.read 0 dlc.toNat) dlc)
    | _, _ => .answers (.code (-1))
  | .rtableIterate route => .asks (.rtableIterate route)

namespace Frame

/-- The lock the shim holds around the callback. -/
def lock : Frame ι κ π ρ → Option (Lock ι κ)
  | .nexthopShim i _ _ _ => some (.userIface i)
  | .canTxTrampoline k _ _ _ => some (.driver k)
  | _ => none

/-- What the callback returns. -/
def Ret : Frame ι κ π ρ → Type
  | .nexthopShim _ _ _ _ => Unit
  | .canTxTrampoline _ _ _ _ => Except Unit Unit
  | _ => Bool

def progressCode : Outcome Bool → Back Answer
  | .returns go => .value (.code (if !go then cspErrAborted else cspErrNone))
  | .panics _ => .unwinds

/-- What a shim does with the end of its callback. The SFP callbacks call theirs
directly. -/
def after (stderrFails : Bool) : (frame : Frame ι κ π ρ) → Outcome frame.Ret → Back Answer
  | .readCb _ _, o => progressCode o
  | .writeCb _ _ _, o => progressCode o
  | .nexthopShim _ _ _ _, o => (guard stderrFails o).map fun _ => .code cspErrNone
  | .canTxTrampoline _ _ _ _, o => (guard stderrFails o).map fun rc =>
    .code (match rc with
      | some (.ok ()) => 0
      | some (.error ()) => -1
      | none => -1)
  | .rtableIterate _, o => (guard stderrFails o).map fun kg => .keepGoing (kg.getD false)

def guarded : Frame ι κ π ρ → Bool
  | .readCb _ _ => false
  | .writeCb _ _ _ => false
  | _ => true

/-- The result by which a callback says that it failed; `nexthop` has none. -/
def failure : (frame : Frame ι κ π ρ) → frame.Ret
  | .readCb _ _ => false
  | .writeCb _ _ _ => false
  | .nexthopShim _ _ _ _ => ()
  | .canTxTrampoline _ _ _ _ => .error ()
  | .rtableIterate _ => false

def calm (frame : Frame ι κ π ρ) : Outcome frame.Ret → Outcome frame.Ret
  | .returns r => .returns r
  | .panics _ => .returns frame.failure

/-- A panic inside one of the guarded shims that can be reported and whose payload can
be dropped. -/
def Tame (frame : Frame ι κ π ρ) (stderrFails : Bool) : Outcome frame.Ret → Prop
  | .returns _ => True
  | .panics destructorPanics => frame.guarded ∧ stderrFails = false ∧ destructorPanics = false

end Frame

/-- A guarded shim lets only the panics out that `guard` itself cannot finish with. -/
theorem guard_ordinary_iff {ω : Type} {stderrFails bomb : Bool} {f : Option ω → Answer} :
    (guard stderrFails (.panics bomb)).map f ≠ .unwinds ↔ stderrFails = false ∧ bomb = false := by
  cases stderrFails <;> cases bomb <;> simp [guard, Back.map]

theorem Frame.after_ordinary_iff (frame : Frame ι κ π ρ) {stderrFails : Bool} {o : Outcome frame.Ret} :
    frame.after stderrFails o ≠ .unwinds ↔ frame.Tame stderrFails o := by
  cases o with
  | returns r => cases frame <;> simp [after, progressCode, guard, Back.map, Tame]
  | panics bomb =>
    cases frame with
    | readCb => simp [after, progressCode, Tame, guarded]
    | writeCb => simp [after, progressCode, Tame, guarded]
    | nexthopShim =>
      refine guard_ordinary_iff.trans ?_
      simp [Tame, guarded]
    | canTxTrampoline =>
      refine guard_ordinary_iff.trans ?_
      simp [Tame, guarded]
    | rtableIterate =>
      refine guard_ordinary_iff.trans ?_
      simp [Tame, guarded]

/-- C cannot tell a tame panic from a failure. -/
theorem Frame.after_calm {frame : Frame ι κ π ρ} {stderrFails : Bool} {o : Outcome frame.Ret}
    (tame : frame.Tame stderrFails o) : frame.after stderrFails (frame.calm o) = frame.after stderrFails o := by
  cases o with
  | returns r => rfl
  | panics bomb =>
    obtain ⟨inGuard, rfl, rfl⟩ := tame
    cases frame with
    | readCb => exact nomatch inGuard
    | writeCb => exact nomatch inGuard
    | nexthopShim => rfl
    | canTxTrampoline => rfl
    | rtableIterate => rfl

/-- The locks, and the shims each thread is inside of, innermost first: a callback may
call into C again. -/
structure State (τ ι κ π ρ : Type) where
  holder : Lock ι κ → Option τ
  frames : τ → List (Frame ι κ π ρ)

inductive Act (τ ι κ π ρ : Type)
  | answered (t : τ) (call : Call ι κ π ρ) (a : Answer)
  | asked (t : τ) (call : Call ι κ π ρ)
  | ended (t : τ) (frame : Frame ι κ π ρ) (o : Outcome frame.Ret) (stderrFails : Bool) (back : Back Answer)

section
variable [DecidableEq τ] [DecidableEq ι] [DecidableEq κ]

def setHolder (holder : Lock ι κ → Option τ) (lock : Option (Lock ι κ)) (next : Option τ) : Lock ι κ → Option τ :=
  fun l => if lock = some l then next else holder l

/-- The invocations of any number of threads. A shim spins until its lock is free; the
lock guard is dropped when the callback returns and when it unwinds. -/
inductive Step (w : PointerWidth) : State τ ι κ π ρ → Act τ ι κ π ρ → State τ ι κ π ρ → Prop
  | answered {s t call a} : Call.start w call = .answers a → Step w s (.answered t call a) s
  | asked {s t call frame} : Call.start w call = .asks frame → (∀ l ∈ frame.lock, s.holder l = none) →
      Step w s (.asked t call)
        ⟨setHolder s.holder frame.lock (some t), Function.update s.frames t (frame :: s.frames t)⟩
  | ended {s t frame rest o stderrFails} : s.frames t = frame :: rest →
      Step w s (.ended t frame o stderrFails (frame.after stderrFails o))
        ⟨setHolder s.holder frame.lock none, Function.update s.frames t rest⟩

def machine (τ ι κ π ρ : Type) [DecidableEq τ] [DecidableEq ι] [DecidableEq κ] (w : PointerWidth) :
    Machine (State τ ι κ π ρ) (Act τ ι κ π ρ) where
  init := ⟨fun _ => none, fun _ => []⟩
  step := Step w

/-- C gets an ordinary value, and the lock the shim took is free again. -/
def Ordinary : Act τ ι κ π ρ → State τ ι κ π ρ → Prop
  | .ended _ frame _ _ back, s => back ≠ .unwinds ∧ ∀ l ∈ frame.lock, s.holder l = none
  | _, _ => True

/-- No progress closure of an SFP transfer panics, and no other callback in a way that
`guard` cannot swallow. -/
def PanicsTamely (_ : State τ ι κ π ρ) : Act τ ι κ π ρ → Prop
  | .ended _ frame o stderrFails _ => frame.Tame stderrFails o
  | _ => True

/-- The same invocation with a callback that fails where it panicked. -/
def Act.calm : Act τ ι κ π ρ → Act τ ι κ π ρ
  | .ended t frame o stderrFails back => .ended t frame (frame.calm o) stderrFails back
  | a => a

/-- A lock is held only while a callback runs inside it. -/
def HeldInside (s : State τ ι κ π ρ) : Prop :=
  ∀ l t, s.holder l = some t → ∃ frame ∈ s.frames t, frame.lock = some l

variable {w : PointerWidth} {s s' : State τ ι κ π ρ} {a : Act τ ι κ π ρ} {tr : List (Act τ ι κ π ρ)}

theorem Step.ordinary_iff (step : Step w s a s') : Ordinary a s' ↔ PanicsTamely s a := by
  cases step with
  | answered => exact Iff.rfl
  | asked => exact Iff.rfl
  | @ended t frame rest o stderrFails top =>
    have released : ∀ l ∈ frame.lock, setHolder s.holder frame.lock none l = none := by
      intro l taken
      exact if_pos taken
    simp only [Ordinary, PanicsTamely, frame.after_ordinary_iff]
    exact and_iff_left released

theorem Step.calm (step : Step w s a s') (tame : PanicsTamely s a) : Step w s a.calm s' := by
  cases step with
  | answered starts => exact .answered starts
  | asked starts free => exact .asked starts free
  | @ended t frame rest o stderrFails top =>
    rw [Act.calm, ← Frame.after_calm tame]
    exact .ended top

theorem HeldInside.step (inside : HeldInside s) (step : Step w s a s') : HeldInside s' := by
  cases step with
  | answered => exact inside
  | @asked t call frame starts free =>
    intro l u held
    simp only [setHolder] at held
    split_ifs at held with taken
    · obtain rfl := Option.some.inj held
      exact ⟨frame, by simp, taken⟩
    · obtain ⟨other, member, locks⟩ := inside l u held
      refine ⟨other, ?_, locks⟩
      simp only [Function.update_apply]
      split_ifs with own
      · subst own
        exact List.mem_cons_of_mem _ member
      · exact member
  | @ended t frame rest o stderrFails top =>
    intro l u held
    simp only [setHolder] at held
    split_ifs at held with taken
    obtain ⟨other, member, locks⟩ := inside l u held
    refine ⟨other, ?_, locks⟩
    simp only [Function.update_apply]
    split_ifs with own
    · subst own
      rw [top] at member
      rcases List.mem_cons.mp member with rfl | later
      · exact absurd locks taken
      · exact later
    · exact member

theorem calm_run (run : ((machine τ ι κ π ρ w).restrict PanicsTamely).Run tr s) :
    (machine τ ι κ π ρ w).Run (tr.map Act.calm) s := by
  induction run with
  | start => exact .start
  | next _ taken ih =>
    rw [List.map_append]
    exact .next ih (taken.1.calm taken.2)

/-- The invocations of a run all give C a value and their locks back, and could as well
have failed where they panicked, exactly as long as no progress closure of a transfer
panics and every other panic can be reported and dropped. -/
theorem shims_contain_panics_iff :
    (((machine τ ι κ π ρ w).confine Ordinary).Run tr s ∧ (machine τ ι κ π ρ w).Run (tr.map Act.calm) s ∧
        HeldInside s) ↔
      ((machine τ ι κ π ρ w).restrict PanicsTamely).Run tr s := by
  have same : ((machine τ ι κ π ρ w).confine Ordinary).Run tr s ↔
      ((machine τ ι κ π ρ w).restrict PanicsTamely).Run tr s := by
    refine Machine.confine_run_iff (Q := fun _ => True) trivial ?_ (fun _ _ _ => trivial)
    intro _ _ _ _ step
    exact Step.ordinary_iff step
  constructor
  · intro contained
    exact same.mp contained.1
  · intro tame
    refine ⟨same.mpr tame, calm_run tame, ?_⟩
    exact tame.of_restrict.invariant (fun _ _ held => nomatch held) (fun inside step => inside.step step)

end

/-- A progress closure that panics on the first fragment unwinds into `csp_sfp_send`. -/
theorem progress_panic_unwinds :
    ∃ s, (machine Unit Unit Unit Unit Unit .w64).Run
      [.asked () (.readCb ⟨fun _ => 42, 1, ()⟩ 1 0),
        .ended () (.readCb 1 1) (.panics false) false .unwinds] s := by
  have asked : ∃ s, (machine Unit Unit Unit Unit Unit .w64).Run [.asked () (.readCb ⟨fun _ => 42, 1, ()⟩ 1 0)] s ∧
      s.frames () = [.readCb 1 1] :=
    ⟨_, .next .start (Step.asked rfl (fun _ locked => nomatch locked)), rfl⟩
  obtain ⟨s, run, inside⟩ := asked
  exact ⟨_, run.next (Step.ended inside)⟩

section
variable {σ : Type}

/-- With a closure that does not panic, the shim is the callback of the transfer. -/
theorem readCb_start (w : PointerWidth) (onProgress : σ → UInt32 → UInt32 → Bool × σ) (ctx : SendCtx σ)
    (size offset : UInt32) :
    let call : Call ι κ π ρ := .readCb ⟨ctx.ptr, ctx.len, ()⟩ size offset
    let code := (Libcsp.readCb onProgress ctx size offset).ret
    call.start w = .answers (.code code) ∨ ∃ done total, call.start w = .asks (.readCb done total) ∧
      Frame.progressCode (.returns (onProgress ctx.progress done total).1) = .value (.code code) := by
  by_cases short : ctx.len < saturatingAdd offset size
  · left
    simp [Call.start, Libcsp.readCb, short]
  · right
    refine ⟨saturatingAdd offset size, ctx.len, by simp [Call.start, short], ?_⟩
    cases go : (onProgress ctx.progress (saturatingAdd offset size) ctx.len).1 <;>
      simp [Libcsp.readCb, short, Frame.progressCode, go]

theorem writeCb_start (w : PointerWidth) (onProgress : σ → UInt32 → UInt32 → List UInt8 → Bool × σ)
    (ctx : VecCtx σ) (buffer : RawPtr) (size offset totalsz : UInt32) :
    let call : Call ι κ π ρ := .writeCb ⟨ctx.buf, ()⟩ buffer size offset totalsz
    let code := (Libcsp.writeCb w onProgress ctx buffer size offset totalsz).1
    call.start w = .answers (.code code) ∨
      ∃ done total received, call.start w = .asks (.writeCb done total received) ∧
        Frame.progressCode (.returns (onProgress ctx.progress done total received).1) = .value (.code code) := by
  have resized : (if ctx.buf.isEmpty ∧ 0 < totalsz then { ctx with buf := List.replicate totalsz.toNat 0 } else ctx) =
      { ctx with buf := if ctx.buf.isEmpty ∧ 0 < totalsz then List.replicate totalsz.toNat 0 else ctx.buf } := by
    split_ifs <;> rfl
  simp only [Call.start, Libcsp.writeCb, resized]
  generalize (if ctx.buf.isEmpty ∧ 0 < totalsz then List.replicate totalsz.toNat 0 else ctx.buf) = buf
  cases checkedAdd w offset.toNat size.toNat with
  | none => exact Or.inl rfl
  | some stop =>
    by_cases short : buf.length < stop
    · left
      simp [short]
    · right
      simp only [short, if_false]
      exact ⟨_, _, _, rfl, rfl⟩

end

end Libcsp.Ffi
