import Libcsp.Base.Machine
import Libcsp.Sfp.Callbacks

namespace Libcsp.Reassembly
open Sys

variable {σ : Type} {w : PointerWidth} {onProgress : σ → UInt32 → UInt32 → List UInt8 → Bool × σ}

/-- An invocation of `write_cb` and the code it returned. Nothing relates one invocation
to the next. -/
structure Call where
  buffer : RawPtr
  size : UInt32
  offset : UInt32
  totalsz : UInt32
  code : Int

def Call.stop (call : Call) : Nat := call.offset.toNat + call.size.toNat

def Call.bytes (call : Call) : List UInt8 := call.buffer.read 0 call.size.toNat

def Call.accepted (call : Call) : Bool := decide (call.code ≠ cspErrInval)

def Call.covers (call : Call) (i : Nat) : Bool := decide (call.offset.toNat ≤ i ∧ i < call.stop)

theorem Call.accepted_iff {call : Call} : call.accepted = true ↔ call.code ≠ cspErrInval := decide_eq_true_iff

theorem Call.covers_iff {call : Call} {i : Nat} : call.covers i = true ↔ call.offset.toNat ≤ i ∧ i < call.stop :=
  decide_eq_true_iff

def machine (w : PointerWidth) (onProgress : σ → UInt32 → UInt32 → List UInt8 → Bool × σ) (s : σ) :
    Machine (VecCtx σ) Call where
  init := ⟨[], s⟩
  step ctx call ctx' := writeCb w onProgress ctx call.buffer call.size call.offset call.totalsz = (call.code, ctx')

/-- The first total that was announced, zero as long as none was. -/
def announced (tr : List Call) : Nat := ((tr.find? fun call => 0 < call.totalsz).map fun call => call.totalsz.toNat).getD 0

/-- The byte of the last accepted fragment that covers `i`, zero if there is none. -/
def lastStored (tr : List Call) (i : Nat) : UInt8 :=
  ((tr.reverse.find? fun call => call.accepted && call.covers i).map fun call =>
    call.buffer (i - call.offset.toNat)).getD 0

/-- The buffer after the sizing step. -/
def sized (buf : List UInt8) (totalsz : UInt32) : List UInt8 :=
  if buf = [] then List.replicate totalsz.toNat 0 else buf

theorem announced_concat (tr : List Call) (call : Call) :
    announced (tr ++ [call]) = if announced tr = 0 then call.totalsz.toNat else announced tr := by
  unfold announced
  rw [List.find?_append]
  cases first : tr.find? fun call => 0 < call.totalsz with
  | none =>
    by_cases positive : 0 < call.totalsz
    · simp [positive]
    · have zero : call.totalsz.toNat = 0 := by
        rw [UInt32.lt_iff_toNat_lt] at positive
        simpa using positive
      simp [positive, zero]
  | some earlier =>
    have positive : 0 < earlier.totalsz := by simpa using List.find?_some first
    rw [UInt32.lt_iff_toNat_lt] at positive
    simp only [Option.some_or, Option.map_some, Option.getD_some]
    rw [if_neg]
    exact Nat.ne_of_gt positive

theorem lastStored_concat (tr : List Call) (call : Call) (i : Nat) :
    lastStored (tr ++ [call]) i =
      if call.accepted && call.covers i then call.buffer (i - call.offset.toNat) else lastStored tr i := by
  unfold lastStored
  rw [List.reverse_append, List.reverse_singleton, List.singleton_append, List.find?_cons]
  cases call.accepted && call.covers i <;> rfl

theorem sized_length (buf : List UInt8) (totalsz : UInt32) :
    (sized buf totalsz).length = if buf.length = 0 then totalsz.toNat else buf.length := by
  unfold sized
  simp only [List.length_eq_zero_iff]
  split
  · exact List.length_replicate
  · rfl

theorem sized_lt {buf : List UInt8} (bound : buf.length < 2 ^ 32) (totalsz : UInt32) :
    (sized buf totalsz).length < 2 ^ 32 := by
  rw [sized_length]
  split
  · exact totalsz.toNat_lt
  · exact bound

theorem sized_getD (buf : List UInt8) (totalsz : UInt32) (i : Nat) :
    ((sized buf totalsz)[i]?).getD 0 = (buf[i]?).getD 0 := by
  unfold sized
  split
  · rename_i empty
    rw [empty, List.getElem?_replicate]
    split <;> rfl
  · rfl

theorem sizing_eq (ctx : VecCtx σ) (totalsz : UInt32) :
    (if ctx.buf.isEmpty ∧ 0 < totalsz then { ctx with buf := List.replicate totalsz.toNat 0 } else ctx) =
      ⟨sized ctx.buf totalsz, ctx.progress⟩ := by
  obtain ⟨buf, progress⟩ := ctx
  cases buf with
  | cons x xs => simp [sized]
  | nil =>
    by_cases positive : 0 < totalsz
    · simp [sized, positive]
    · have zero : totalsz.toNat = 0 := by
        rw [UInt32.lt_iff_toNat_lt] at positive
        simpa using positive
      simp [sized, positive, zero]

/-- `write_cb` on a buffer whose length is a `u32`: after the sizing step it depends on
the natural number `offset + size` alone. -/
theorem writeCb_eq {ctx : VecCtx σ} (bound : ctx.buf.length < 2 ^ 32) (buffer : RawPtr) (size offset totalsz : UInt32) :
    writeCb w onProgress ctx buffer size offset totalsz =
      if offset.toNat + size.toNat ≤ (sized ctx.buf totalsz).length then
        let buf := overwrite (sized ctx.buf totalsz) offset.toNat (buffer.read 0 size.toNat)
        let answer := onProgress ctx.progress (UInt32.ofNat (offset.toNat + size.toNat)) totalsz
          (buf.take (offset.toNat + size.toNat))
        (if answer.1 then cspErrNone else cspErrAborted, ⟨buf, answer.2⟩)
      else (cspErrInval, ⟨sized ctx.buf totalsz, ctx.progress⟩) := by
  have wide := w.ge_u32
  have small := sized_lt bound totalsz
  unfold writeCb
  rw [sizing_eq]
  by_cases fits : offset.toNat + size.toNat < 2 ^ w.bits
  · rw [checkedAdd, if_pos fits]
    by_cases inside : offset.toNat + size.toNat ≤ (sized ctx.buf totalsz).length
    · dsimp only
      rw [if_pos inside, if_neg (Nat.not_lt.mpr inside)]
      split <;> simp_all
    · dsimp only
      rw [if_neg inside, if_pos (Nat.lt_of_not_le inside)]
  · rw [checkedAdd, if_neg fits, if_neg (by omega)]

theorem announced_lt (tr : List Call) : announced tr < 2 ^ 32 := by
  unfold announced
  cases tr.find? fun call => 0 < call.totalsz with
  | none => decide
  | some call => exact call.totalsz.toNat_lt

/-- What one call does to the buffer and to the closure. -/
structure Outcome (onProgress : σ → UInt32 → UInt32 → List UInt8 → Bool × σ) (ctx ctx' : VecCtx σ) (call : Call) :
    Prop where
  stored : call.accepted = true → ∀ i : Nat, i < ctx'.buf.length →
    ctx'.buf[i]? = some (if call.covers i then call.buffer (i - call.offset.toNat) else (ctx.buf[i]?).getD 0)
  reported : call.accepted = true → ∃ told : UInt32, told.toNat = call.stop ∧
    ctx'.progress = (onProgress ctx.progress told call.totalsz (ctx'.buf.take call.stop)).2 ∧
    call.code = if (onProgress ctx.progress told call.totalsz (ctx'.buf.take call.stop)).1 then cspErrNone
      else cspErrAborted
  refused : call.accepted = false → call.code = cspErrInval ∧ ctx'.progress = ctx.progress ∧
    ∀ i : Nat, i < ctx.buf.length → ctx'.buf[i]? = ctx.buf[i]?

theorem sized_of_stored {buf : List UInt8} {i : Nat} (inside : i < buf.length) (totalsz : UInt32) :
    sized buf totalsz = buf := by
  rw [sized, if_neg (List.ne_nil_of_length_pos (Nat.zero_lt_of_lt inside))]

/-- The byte at `i` after an accepted fragment is that of the fragment, if it covers `i`. -/
theorem stored_getElem? {buf : List UInt8} {call : Call} {i : Nat} (inside : call.stop ≤ (sized buf call.totalsz).length)
    (below : i < (sized buf call.totalsz).length) :
    (overwrite (sized buf call.totalsz) call.offset.toNat call.bytes)[i]? =
      some (if call.covers i then call.buffer (i - call.offset.toNat) else (buf[i]?).getD 0) := by
  have size : call.bytes.length = call.size.toNat := RawPtr.read_length ..
  have room : call.offset.toNat + call.bytes.length ≤ (sized buf call.totalsz).length := by rwa [size]
  rw [overwrite_getElem? room, size]
  by_cases covered : call.covers i = true
  · have inRange : call.offset.toNat ≤ i ∧ i < call.offset.toNat + call.size.toNat := Call.covers_iff.mp covered
    rw [if_pos inRange, if_pos covered, Call.bytes, RawPtr.read_getElem?, if_pos (by omega), Nat.zero_add]
  · have outOfRange : ¬ (call.offset.toNat ≤ i ∧ i < call.offset.toNat + call.size.toNat) :=
      mt Call.covers_iff.mpr covered
    rw [if_neg outOfRange, if_neg covered, ← sized_getD buf call.totalsz, List.getElem?_eq_getElem below,
      Option.getD_some]

theorem outcome_of_step {s : σ} {ctx ctx' : VecCtx σ} {call : Call} (bound : ctx.buf.length < 2 ^ 32)
    (taken : (machine w onProgress s).step ctx call ctx') :
    ctx'.buf.length = (sized ctx.buf call.totalsz).length ∧
      (call.accepted = true ↔ call.stop ≤ (sized ctx.buf call.totalsz).length) ∧
      (call.accepted = false → ctx'.buf = sized ctx.buf call.totalsz) ∧ Outcome onProgress ctx ctx' call := by
  have made := (writeCb_eq bound call.buffer call.size call.offset call.totalsz).symm.trans taken
  rw [← Call.stop] at made
  split at made
  · rename_i inside
    have room : call.offset.toNat + call.bytes.length ≤ (sized ctx.buf call.totalsz).length := by
      rwa [Call.bytes, RawPtr.read_length]
    have length := overwrite_length room
    obtain ⟨code, rfl⟩ := Prod.mk.inj made
    have accepted : call.accepted = true := by
      rw [Call.accepted_iff, ← code]
      split <;> decide
    refine ⟨length, iff_of_true accepted inside, fun refused => ?_, ?_, ?_, ?_⟩
    · exact absurd (accepted.symm.trans refused) (by decide)
    · intro _ i below
      exact stored_getElem? inside (Nat.lt_of_lt_of_eq below length)
    · intro _
      have small := sized_lt bound call.totalsz
      exact ⟨UInt32.ofNat call.stop, asU32_toNat (Nat.lt_of_le_of_lt inside small), rfl, code.symm⟩
    · intro refused
      exact absurd (accepted.symm.trans refused) (by decide)
  · rename_i outside
    obtain ⟨code, rfl⟩ := Prod.mk.inj made
    have refused : ¬ call.accepted = true := by
      rw [Call.accepted_iff, not_not]
      exact code.symm
    refine ⟨rfl, iff_of_false refused outside, fun _ => rfl, fun accepted => absurd accepted refused,
      fun accepted => absurd accepted refused, fun _ => ⟨code.symm, rfl, ?_⟩⟩
    intro i below
    dsimp only
    rw [sized_of_stored below]

/-- The length is the first total announced, and every byte is the last one stored. -/
structure Inv (tr : List Call) (ctx : VecCtx σ) : Prop where
  length : ctx.buf.length = announced tr
  bytes : ∀ i : Nat, (ctx.buf[i]?).getD 0 = lastStored tr i

theorem Inv.sized_length {tr : List Call} {ctx : VecCtx σ} (inv : Inv tr ctx) (call : Call) :
    (sized ctx.buf call.totalsz).length = announced (tr ++ [call]) := by
  rw [Reassembly.sized_length, inv.length, announced_concat]

theorem Inv.step {s : σ} {tr : List Call} {ctx ctx' : VecCtx σ} {call : Call} (inv : Inv tr ctx)
    (taken : (machine w onProgress s).step ctx call ctx') : Inv (tr ++ [call]) ctx' := by
  obtain ⟨length, accepted, kept, outcome⟩ := outcome_of_step (inv.length ▸ announced_lt tr) taken
  refine ⟨length.trans (inv.sized_length call), ?_⟩
  intro i
  rw [lastStored_concat]
  cases verdict : call.accepted with
  | false =>
    rw [Bool.false_and, if_neg Bool.false_ne_true, ← inv.bytes, kept verdict, sized_getD]
  | true =>
    rw [Bool.true_and]
    by_cases below : i < ctx'.buf.length
    · rw [outcome.stored verdict i below, Option.getD_some, inv.bytes]
    · have within := accepted.mp verdict
      have outside : ¬ call.covers i = true := by
        rw [Call.covers_iff]
        omega
      rw [if_neg outside, ← inv.bytes, ← sized_getD ctx.buf call.totalsz, List.getElem?_eq_none (by omega),
        List.getElem?_eq_none (by omega)]

/-- Whatever the peer announces and sends: the buffer has the length first announced and
each byte is the last one stored there. The next call is accepted exactly when its
fragment ends inside the buffer. -/
theorem reassembly_exact {s : σ} {tr : List Call} {ctx : VecCtx σ} (run : (machine w onProgress s).Run tr ctx) :
    ctx.buf.length = announced tr ∧ (∀ i : Nat, i < ctx.buf.length → ctx.buf[i]? = some (lastStored tr i)) ∧
      ∀ (call : Call) (ctx' : VecCtx σ), (machine w onProgress s).step ctx call ctx' →
        ctx'.buf.length = announced (tr ++ [call]) ∧
          (call.accepted = true ↔ call.stop ≤ announced (tr ++ [call])) ∧ Outcome onProgress ctx ctx' call := by
  have inv : Inv tr ctx := Machine.Run.history (P := Inv) ⟨rfl, fun _ => rfl⟩ (fun inv taken => inv.step taken) run
  refine ⟨inv.length, ?_, ?_⟩
  · intro i inside
    rw [← inv.bytes, List.getElem?_eq_getElem inside, Option.getD_some]
  · intro call ctx' taken
    obtain ⟨length, accepted, _, outcome⟩ := outcome_of_step (inv.length ▸ announced_lt tr) taken
    rw [inv.sized_length] at length accepted
    exact ⟨length, accepted, outcome⟩

/-- A total of four, two overlapping fragments, and a third one that announces more and
does not fit. -/
theorem reassembly_exact_overlap :
    let bytes (first : UInt8) : RawPtr := fun i => first + UInt8.ofNat i
    let calls : List Call := [⟨bytes 10, 2, 0, 4, 0⟩, ⟨bytes 20, 2, 1, 9, 0⟩, ⟨bytes 30, 2, 3, 9, cspErrInval⟩]
    announced calls = 4 ∧ (List.range 4).map (lastStored calls) = [10, 20, 21, 0] ∧
      ∃ ctx : VecCtx Nat, ctx.progress = 2 ∧ ctx.buf.length = announced calls ∧
        ∀ i : Nat, i < ctx.buf.length → ctx.buf[i]? = some (lastStored calls i) := by
  intro bytes calls
  refine ⟨by decide, by decide, ⟨[10, 20, 21, 0], 2⟩, rfl, ?_⟩
  let M : Machine (VecCtx Nat) Call := machine .w32 (fun n _ _ _ => (true, n + 1)) 0
  have first : M.Run [⟨bytes 10, 2, 0, 4, 0⟩] ⟨[10, 11, 0, 0], 1⟩ := .next .start rfl
  have second : M.Run [⟨bytes 10, 2, 0, 4, 0⟩, ⟨bytes 20, 2, 1, 9, 0⟩] ⟨[10, 20, 21, 0], 2⟩ := .next first rfl
  have third : M.Run calls ⟨[10, 20, 21, 0], 2⟩ := .next second rfl
  obtain ⟨length, stored, _⟩ := reassembly_exact third
  exact ⟨length, stored⟩

end Libcsp.Reassembly
