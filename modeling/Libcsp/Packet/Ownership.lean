import Libcsp.Ffi.Shims
import Mathlib.Data.Multiset.MapFold

namespace Libcsp.Packet
open Sys

/-- Whoever may free a buffer or hand it on. A `Packet` is a value of safe code: of the
locals of one `nexthop` call, or of anything else. -/
inductive Holder (ι : Type)
  | pool
  | packet (place : Option ι)
  | raw
  | c
  deriving DecidableEq

/-- The claims on each buffer. Nothing in the type says that there is one. -/
abbrev Claims (β ι : Type) := β → Multiset (Holder ι)

variable {β ι φ : Type} [DecidableEq β] [DecidableEq ι]

def Claims.pass (claims : Claims β ι) (b : β) (giver taker : Holder ι) : Claims β ι :=
  Function.update claims b (taker ::ₘ (claims b).erase giver)

/-- `Packet::into_raw`: the value is forgotten, not dropped. -/
def intoRaw (claims : Claims β ι) (place : Option ι) (b : β) : Claims β ι := claims.pass b (.packet place) .raw

/-- `Packet::from_raw`, which cannot withdraw a claim that somebody else has. -/
def fromRaw (claims : Claims β ι) (place : Option ι) (b : β) : Claims β ι :=
  Function.update claims b (.packet place ::ₘ claims b)

/-- `Drop`: `csp_buffer_free`. -/
def drop (claims : Claims β ι) (place : Option ι) (b : β) : Claims β ι := claims.pass b (.packet place) .pool

/-- A pointer in a local variable goes out of scope. -/
def forget (claims : Claims β ι) (b : β) : Claims β ι := Function.update claims b ((claims b).erase .raw)

/-- The functions that consume a packet: `into_raw`, then a C function that takes
ownership whatever the outcome. -/
inductive Sending
  | send | sendPrio | handleService | sendto | rx | sendVia

/-- The functions that wrap what a C function hands over. -/
inductive Receiving
  | read | recvfrom | snifferRead

def give (claims : Claims β ι) (place : Option ι) (b : β) : Claims β ι :=
  (intoRaw claims place b).pass b .raw .c

/-- A pointer obtained from C is wrapped and then goes out of scope. -/
def wrap (claims : Claims β ι) (giver : Holder ι) (place : Option ι) (b : β) : Claims β ι :=
  forget (fromRaw (claims.pass b giver .raw) place b) b

/-- `Packet::get`. -/
def get (claims : Claims β ι) (place : Option ι) (b : β) : Claims β ι := wrap claims .pool place b

def receive (claims : Claims β ι) (place : Option ι) (b : β) : Claims β ι := wrap claims .c place b

/-- The locals of a `nexthop` call are dropped, when it returns and when it unwinds. -/
def dropLocals (claims : Claims β ι) (i : ι) : Claims β ι :=
  fun b => (claims b).map fun h => if h = .packet (some i) then .pool else h

/-- A call of `nexthop_shim` by C. The pointer it was given stays with C until the result
says who owns the packet. -/
inductive Call (φ β : Type)
  | idle
  | entered (interfaceData : Option φ) (via : UInt16) (packet : Option β) (fromMe : Int)
  | inside (packet : β)
  | returned (packet : Option β) (code : Int)

/-- The packet of which C is the owner while it waits: the shim has not wrapped it. -/
def Call.withC : Call φ β → Option β
  | .idle => none
  | .entered _ _ packet _ => packet
  | .inside _ => none
  | .returned packet code => if code = 0 then none else packet

structure State (β ι φ : Type) where
  claims : Claims β ι
  call : ι → Call φ β

inductive Act (β ι φ : Type)
  | get (place : Option ι) (b : β)
  | getNone (place : Option ι)
  | drop (place : Option ι) (b : β)
  | move (b : β) (source target : Option ι)
  | intoRaw (place : Option ι) (b : β)
  | sent (fn : Sending) (place : Option ι) (b : β)
  | received (fn : Receiving) (place : Option ι) (b : β)
  | receivedNone (fn : Receiving) (place : Option ι)
  | cAllocates (b : β)
  | cFrees (b : β)
  | nexthop (i : ι) (interfaceData : Option φ) (via : UInt16) (packet : Option β) (fromMe : Int)
  | rejected (i : ι) (code : Int)
  | wrapped (i : ι) (b : β)
  | ended (i : ι) (o : Ffi.Outcome Unit)
  | settled (i : ι) (code : Int)

/-- Safe code that runs in no `nexthop` call, or in one that is running. -/
def Running (s : State β ι φ) (place : Option ι) : Prop := ∀ i ∈ place, ∃ b, s.call i = .inside b

def State.at (s : State β ι φ) (i : ι) (call : Call φ β) : State β ι φ :=
  { s with call := Function.update s.call i call }

/-- The steps of safe code anywhere and of libcsp. Safe code uses only packets it has;
libcsp frees, hands over and passes to `nexthop` only what it owns. -/
inductive Step (w : PointerWidth) : State β ι φ → Act β ι φ → State β ι φ → Prop
  | get {s place b} : Running s place → .pool ∈ s.claims b →
      Step w s (.get place b) { s with claims := get s.claims place b }
  | getNone {s place} : Running s place → Step w s (.getNone place) s
  | drop {s place b} : Running s place → .packet place ∈ s.claims b →
      Step w s (.drop place b) { s with claims := drop s.claims place b }
  | move {s b source target} : Running s source → Running s target → .packet source ∈ s.claims b →
      Step w s (.move b source target) { s with claims := s.claims.pass b (.packet source) (.packet target) }
  | intoRaw {s place b} : Running s place → .packet place ∈ s.claims b →
      Step w s (.intoRaw place b) { s with claims := intoRaw s.claims place b }
  | sent {s fn place b} : Running s place → .packet place ∈ s.claims b →
      Step w s (.sent fn place b) { s with claims := give s.claims place b }
  | received {s fn place b} : Running s place → .c ∈ s.claims b →
      Step w s (.received fn place b) { s with claims := receive s.claims place b }
  | receivedNone {s fn place} : Running s place → Step w s (.receivedNone fn place) s
  | cAllocates {s b} : .pool ∈ s.claims b →
      Step w s (.cAllocates b) { s with claims := s.claims.pass b .pool .c }
  | cFrees {s b} : .c ∈ s.claims b → Step w s (.cFrees b) { s with claims := s.claims.pass b .c .pool }
  | nexthop {s i interfaceData via b fromMe} : s.call i = .idle → .c ∈ s.claims b →
      Step w s (.nexthop i interfaceData via (some b) fromMe)
        ⟨Function.update s.claims b ((s.claims b).erase .c),
          Function.update s.call i (.entered interfaceData via (some b) fromMe)⟩
  | nexthopNull {s i interfaceData via fromMe} : s.call i = .idle →
      Step w s (.nexthop i interfaceData via none fromMe) (s.at i (.entered interfaceData via none fromMe))
  | rejected {s i interfaceData via packet fromMe code} : s.call i = .entered interfaceData via packet fromMe →
      (Ffi.Call.nexthopShim interfaceData via packet fromMe : Ffi.Call φ Empty β Empty).start w =
        .answers (.code code) →
      Step w s (.rejected i code) (s.at i (.returned packet code))
  | wrapped {s i interfaceData via packet fromMe iface b own} :
      s.call i = .entered interfaceData via packet fromMe →
      (Ffi.Call.nexthopShim interfaceData via packet fromMe : Ffi.Call φ Empty β Empty).start w =
        .asks (.nexthopShim iface via b own) →
      Step w s (.wrapped i b) { s.at i (.inside b) with claims := fromRaw s.claims (some i) b }
  | ended {s i b o stderrFails iface via own code} : s.call i = .inside b →
      (Ffi.Frame.nexthopShim iface via b own : Ffi.Frame φ Empty β Empty).after stderrFails o =
        .value (.code code) →
      Step w s (.ended i o) { s.at i (.returned (some b) code) with claims := dropLocals s.claims i }
  | settled {s i packet code} : s.call i = .returned packet code →
      Step w s (.settled i code)
        { s.at i .idle with claims := fun b =>
            if code ≠ 0 ∧ packet = some b then .c ::ₘ s.claims b else s.claims b }

def machine (β ι φ : Type) [DecidableEq β] [DecidableEq ι] (w : PointerWidth) :
    Machine (State β ι φ) (Act β ι φ) where
  init := ⟨fun _ => {.pool}, fun _ => .idle⟩
  step := Step w

/-- Exactly one claim is on the buffer, or C owns it while it waits for one call of
`nexthop_shim`. -/
def OwnedOnce (s : State β ι φ) (b : β) : Prop :=
  (∃ h, s.claims b = {h}) ∧ (∀ i, (s.call i).withC ≠ some b) ∨
    s.claims b = 0 ∧ ∃ i, (s.call i).withC = some b ∧ ∀ j, (s.call j).withC = some b → j = i

/-- The step returns the buffer to the pool. -/
def Frees (s : State β ι φ) (b : β) : Act β ι φ → Prop
  | .drop _ freed => freed = b
  | .cFrees freed => freed = b
  | .ended i _ => .packet (some i) ∈ s.claims b
  | _ => False

/-- Each buffer has one owner; a `Packet` in the locals of a `nexthop` call is one of a
call that runs; a bare pointer came from `into_raw`; and what is freed is not free yet. -/
structure SingleOwner (w : PointerWidth) (tr : List (Act β ι φ)) (s : State β ι φ) : Prop where
  once : ∀ b, OwnedOnce s b
  live : ∀ b place, .packet place ∈ s.claims b → Running s place
  explicit : ∀ b, .raw ∈ s.claims b → ∃ place, .intoRaw place b ∈ tr
  freed : ∀ a t b, Step w s a t → Frees s b a → .pool ∉ s.claims b

section
variable {s t : State β ι φ} {b : β}

omit [DecidableEq β] [DecidableEq ι] in
theorem OwnedOnce.eq_singleton (once : OwnedOnce s b) {h : Holder ι} (member : h ∈ s.claims b) :
    s.claims b = {h} ∧ ∀ i, (s.call i).withC ≠ some b := by
  rcases once with ⟨⟨holder, sole⟩, notWithC⟩ | ⟨none, _⟩
  · rw [sole, Multiset.mem_singleton] at member
    rw [member]
    exact ⟨sole, notWithC⟩
  · rw [none] at member
    exact absurd member (Multiset.notMem_zero h)

omit [DecidableEq β] [DecidableEq ι] in
theorem OwnedOnce.with_c (once : OwnedOnce s b) {i : ι} (waits : (s.call i).withC = some b) :
    s.claims b = 0 ∧ ∀ j, (s.call j).withC = some b → j = i := by
  rcases once with ⟨_, notWithC⟩ | ⟨none, k, _, only⟩
  · exact absurd waits (notWithC i)
  · refine ⟨none, ?_⟩
    intro j waits'
    rw [only j waits', only i waits]

omit [DecidableEq β] [DecidableEq ι] in
/-- Only the claims on a buffer and the calls that wait with it matter to it. -/
theorem OwnedOnce.of_same (once : OwnedOnce s b) (claims : t.claims b = s.claims b)
    (waiting : ∀ i, (t.call i).withC = some b ↔ (s.call i).withC = some b) : OwnedOnce t b := by
  unfold OwnedOnce at once ⊢
  simpa only [claims, ne_eq, waiting] using once

theorem pass_of_singleton {claims : Claims β ι} {giver : Holder ι} (sole : claims b = {giver}) (taker : Holder ι) :
    claims.pass b giver taker = Function.update claims b {taker} := by
  rw [Claims.pass, sole, Multiset.erase_singleton, Multiset.cons_zero]

theorem give_of_singleton {claims : Claims β ι} {place : Option ι} (sole : claims b = {.packet place}) :
    give claims place b = Function.update claims b {.c} := by
  rw [give, intoRaw, pass_of_singleton sole, pass_of_singleton (Function.update_self b _ claims),
    Function.update_idem]

theorem wrap_of_singleton {claims : Claims β ι} {giver : Holder ι} (sole : claims b = {giver}) (place : Option ι) :
    wrap claims giver place b = Function.update claims b {.packet place} := by
  rw [wrap, pass_of_singleton sole, fromRaw, forget, Function.update_idem, Function.update_idem,
    Function.update_self, Function.update_self]
  congr 1

/-- The part of `SingleOwner` that a run carries along. -/
structure Inv (tr : List (Act β ι φ)) (s : State β ι φ) : Prop where
  once : ∀ b, OwnedOnce s b
  live : ∀ b place, .packet place ∈ s.claims b → Running s place
  explicit : ∀ b, .raw ∈ s.claims b → ∃ place, .intoRaw place b ∈ tr

variable {tr : List (Act β ι φ)} {a : Act β ι φ}

omit [DecidableEq β] [DecidableEq ι] in
theorem Inv.explicit_next (inv : Inv tr s) (held : .raw ∈ s.claims b) : ∃ place, .intoRaw place b ∈ tr ++ [a] := by
  obtain ⟨place, earlier⟩ := inv.explicit b held
  exact ⟨place, List.mem_append_left _ earlier⟩

omit [DecidableEq ι] in
/-- The one holder of a buffer is replaced by another. -/
theorem Inv.reassign (inv : Inv tr s) {giver taker : Holder ι} (member : giver ∈ s.claims b)
    (live : ∀ place, taker = .packet place → Running s place)
    (explicit : taker = .raw → ∃ place, .intoRaw place b ∈ tr ++ [a]) :
    Inv (tr ++ [a]) { s with claims := Function.update s.claims b {taker} } where
  once := by
    intro b'
    by_cases same : b' = b
    · subst same
      left
      exact ⟨⟨taker, Function.update_self ..⟩, ((inv.once b').eq_singleton member).2⟩
    · exact (inv.once b').of_same (Function.update_of_ne same ..) (fun _ => Iff.rfl)
  live := by
    intro b' place held
    simp only [Function.update_apply] at held
    split_ifs at held
    · exact live place (Multiset.mem_singleton.mp held).symm
    · exact inv.live b' place held
  explicit := by
    intro b' held
    simp only [Function.update_apply] at held
    split_ifs at held with same
    · subst same
      exact explicit (Multiset.mem_singleton.mp held).symm
    · exact inv.explicit_next held

theorem Inv.pass (inv : Inv tr s) {giver taker : Holder ι} (member : giver ∈ s.claims b)
    (live : ∀ place, taker = .packet place → Running s place)
    (explicit : taker = .raw → ∃ place, .intoRaw place b ∈ tr ++ [a]) :
    Inv (tr ++ [a]) { s with claims := s.claims.pass b giver taker } := by
  rw [pass_of_singleton ((inv.once b).eq_singleton member).1]
  exact inv.reassign member live explicit

omit [DecidableEq β] in
theorem Running.other {place : Option ι} (running : Running s place) {i : ι} (other : place ≠ some i)
    (claims : Claims β ι) (call : Call φ β) : Running ⟨claims, Function.update s.call i call⟩ place := by
  intro j isPlace
  have apart : j ≠ i := by
    rintro rfl
    exact other isPlace
  simpa only [Function.update_of_ne apart] using running j isPlace

omit [DecidableEq β] [DecidableEq ι] in
/-- A call that is not running has no locals. -/
theorem Inv.no_locals (inv : Inv tr s) {i : ι} (outside : ∀ b, s.call i ≠ .inside b) {place : Option ι}
    (held : .packet place ∈ s.claims b) : place ≠ some i := by
  rintro rfl
  obtain ⟨b', inside⟩ := inv.live b _ held i rfl
  exact outside b' inside

omit [DecidableEq β] in
theorem withC_update_of_same {i : ι} {call : Call φ β} (same : call.withC = (s.call i).withC) (j : ι) :
    (Function.update s.call i call j).withC = (s.call j).withC := by
  by_cases own : j = i
  · rw [own, Function.update_self, same]
  · rw [Function.update_of_ne own]

omit [DecidableEq β] in
/-- Buffers other than the one a call has to do with see no difference. -/
theorem withC_update_iff {i : ι} {call : Call φ β} (before : (s.call i).withC ≠ some b) (after : call.withC ≠ some b)
    (j : ι) : (Function.update s.call i call j).withC = some b ↔ (s.call j).withC = some b := by
  by_cases own : j = i
  · rw [own, Function.update_self]
    exact iff_of_false after before
  · rw [Function.update_of_ne own]

omit [DecidableEq β] in
/-- A call goes on without changing what C owns in the meantime, or any claims. -/
theorem Inv.advance (inv : Inv tr s) {i : ι} {call : Call φ β} (outside : ∀ b, s.call i ≠ .inside b)
    (same : call.withC = (s.call i).withC) : Inv (tr ++ [a]) (s.at i call) where
  once := fun b => (inv.once b).of_same rfl (fun j => by rw [State.at, withC_update_of_same same])
  live := fun b place held => (inv.live b place held).other (inv.no_locals outside held) _ call
  explicit := fun _ held => inv.explicit_next held

/-- C, waiting for a call, owns the buffer alone; now it is claimed by somebody. -/
theorem Inv.resolve (inv : Inv tr s) {i : ι} {call : Call φ β} {taker : Holder ι}
    (outside : ∀ b, s.call i ≠ .inside b) (waits : (s.call i).withC = some b) (done : call.withC = none)
    (bare : taker ≠ .raw) (live : ∀ place, taker = .packet place → place = some i ∧ ∃ b', call = .inside b') :
    Inv (tr ++ [a]) ⟨Function.update s.claims b (taker ::ₘ s.claims b), Function.update s.call i call⟩ where
  once := by
    obtain ⟨none, only⟩ := (inv.once b).with_c waits
    intro b'
    by_cases same : b' = b
    · subst same
      left
      refine ⟨⟨taker, by simp [none]⟩, ?_⟩
      intro j
      by_cases own : j = i
      · simp only [own, Function.update_self, done]
        exact nofun
      · simp only [Function.update_of_ne own]
        exact fun waits' => own (only j waits')
    · refine (inv.once b').of_same (Function.update_of_ne same ..) ?_
      refine withC_update_iff ?_ (by rw [done]; exact nofun)
      rw [waits]
      exact fun h => same (Option.some.inj h).symm
  live := by
    obtain ⟨none, _⟩ := (inv.once b).with_c waits
    intro b' place held
    simp only [Function.update_apply] at held
    split_ifs at held
    · rw [none, Multiset.cons_zero, Multiset.mem_singleton] at held
      obtain ⟨rfl, b'', inside⟩ := live place held.symm
      intro j isPlace
      obtain rfl := Option.some.inj isPlace
      exact ⟨b'', by simp [inside]⟩
    · exact (inv.live b' place held).other (inv.no_locals outside held) _ call
  explicit := by
    obtain ⟨none, _⟩ := (inv.once b).with_c waits
    intro b' held
    simp only [Function.update_apply] at held
    split_ifs at held
    · rw [none, Multiset.cons_zero, Multiset.mem_singleton] at held
      exact absurd held.symm bare
    · exact inv.explicit_next held

/-- C calls `nexthop_shim` with a packet of its own. -/
theorem Inv.lend (inv : Inv tr s) {i : ι} {call : Call φ β} (idle : s.call i = .idle) (owned : .c ∈ s.claims b)
    (waits : call.withC = some b) :
    Inv (tr ++ [a]) ⟨Function.update s.claims b ((s.claims b).erase .c), Function.update s.call i call⟩ where
  once := by
    obtain ⟨sole, notWithC⟩ := (inv.once b).eq_singleton owned
    intro b'
    by_cases same : b' = b
    · subst same
      right
      refine ⟨by simp [sole], i, by simp [waits], ?_⟩
      intro j waits'
      by_contra other
      simp only [Function.update_of_ne other] at waits'
      exact notWithC j waits'
    · refine (inv.once b').of_same (Function.update_of_ne same ..) ?_
      refine withC_update_iff (by simp [idle, Call.withC]) ?_
      rw [waits]
      exact fun h => same (Option.some.inj h).symm
  live := by
    intro b' place held
    have held' : .packet place ∈ s.claims b' := by
      simp only [Function.update_apply] at held
      split_ifs at held with same
      · rw [same]
        exact Multiset.mem_of_mem_erase held
      · exact held
    exact (inv.live b' place held').other (inv.no_locals (by simp [idle]) held') _ call
  explicit := by
    intro b' held
    have held' : .raw ∈ s.claims b' := by
      simp only [Function.update_apply] at held
      split_ifs at held with same
      · rw [same]
        exact Multiset.mem_of_mem_erase held
      · exact held
    exact inv.explicit_next held'

omit [DecidableEq β] in
theorem mem_dropLocals {claims : Claims β ι} {i : ι} {h : Holder ι} (held : h ∈ dropLocals claims i b)
    (used : h ≠ .pool) : h ∈ claims b ∧ h ≠ .packet (some i) := by
  obtain ⟨h', member, dropped⟩ := Multiset.mem_map.mp held
  split_ifs at dropped with own
  · exact absurd dropped.symm used
  · rw [← dropped]
    exact ⟨member, own⟩

omit [DecidableEq β] in
/-- A `nexthop` call ends. Its locals go back to the pool, and C no longer owns the packet
it was called with. -/
theorem Inv.leave (inv : Inv tr s) {i : ι} {call : Call φ β} {b : β} (inside : s.call i = .inside b)
    (done : call.withC = none) :
    Inv (tr ++ [a]) ⟨dropLocals s.claims i, Function.update s.call i call⟩ where
  once := by
    have waiting : ∀ j, (Function.update s.call i call j).withC = (s.call j).withC :=
      withC_update_of_same (by rw [done, inside]; rfl)
    intro b'
    rcases inv.once b' with ⟨⟨h, sole⟩, notWithC⟩ | ⟨none, only⟩
    · left
      refine ⟨⟨if h = .packet (some i) then .pool else h, by simp only [dropLocals, sole, Multiset.map_singleton]⟩, ?_⟩
      simpa only [waiting] using notWithC
    · right
      refine ⟨by simp [dropLocals, none], ?_⟩
      simpa only [waiting] using only
  live := by
    intro b' place held
    obtain ⟨member, notOwn⟩ := mem_dropLocals held (by simp)
    refine (inv.live b' place member).other ?_ _ call
    rintro rfl
    exact notOwn rfl
  explicit := by
    intro b' held
    obtain ⟨member, _⟩ := mem_dropLocals held (by simp)
    exact inv.explicit_next member

omit [DecidableEq β] [DecidableEq ι] in
theorem start_answers {w : PointerWidth} {interfaceData : Option φ} {via : UInt16} {packet : Option β} {fromMe code : Int}
    (starts : (Ffi.Call.nexthopShim interfaceData via packet fromMe : Ffi.Call φ Empty β Empty).start w =
      .answers (.code code)) : code = cspErrInval := by
  cases interfaceData <;> cases packet <;> simp_all [Ffi.Call.start]

omit [DecidableEq β] [DecidableEq ι] in
theorem start_asks {w : PointerWidth} {interfaceData : Option φ} {via via' : UInt16} {packet : Option β} {fromMe : Int}
    {iface : φ} {own : Bool}
    (starts : (Ffi.Call.nexthopShim interfaceData via packet fromMe : Ffi.Call φ Empty β Empty).start w =
      .asks (.nexthopShim iface via' b own)) : packet = some b := by
  cases interfaceData <;> cases packet <;> simp_all [Ffi.Call.start]

omit [DecidableEq β] [DecidableEq ι] in
/-- The shim reports success however the user's `nexthop` ended. -/
theorem after_code {iface : φ} {via : UInt16} {own stderrFails : Bool} {o : Ffi.Outcome Unit} {code : Int}
    (ends : (Ffi.Frame.nexthopShim iface via b own : Ffi.Frame φ Empty β Empty).after stderrFails o =
      .value (.code code)) : code = 0 := by
  exact (Ffi.Answer.code.inj (Ffi.Back.value_of_map_const ends)).symm

theorem Inv.step {w : PointerWidth} (inv : Inv tr s) (step : Step w s a t) : Inv (tr ++ [a]) t := by
  have same : Inv (tr ++ [a]) s :=
    ⟨inv.once, inv.live, fun _ held => inv.explicit_next held⟩
  cases step with
  | @get place b running free =>
    rw [get, wrap_of_singleton ((inv.once b).eq_singleton free).1]
    exact inv.reassign free (by rintro _ ⟨⟩; exact running) nofun
  | getNone => exact same
  | drop _ held => exact inv.pass held nofun nofun
  | move _ running held => exact inv.pass held (by rintro _ ⟨⟩; exact running) nofun
  | @intoRaw place b _ held => exact inv.pass held nofun (fun _ => ⟨place, by simp⟩)
  | @sent fn place b running held =>
    rw [give_of_singleton ((inv.once b).eq_singleton held).1]
    exact inv.reassign held nofun nofun
  | @received fn place b running owned =>
    rw [receive, wrap_of_singleton ((inv.once b).eq_singleton owned).1]
    exact inv.reassign owned (by rintro _ ⟨⟩; exact running) nofun
  | receivedNone => exact same
  | cAllocates free => exact inv.pass free nofun nofun
  | cFrees owned => exact inv.pass owned nofun nofun
  | nexthop idle owned => exact inv.lend idle owned rfl
  | nexthopNull idle => exact inv.advance (by simp [idle]) (by rw [idle]; rfl)
  | rejected entered starts =>
    obtain rfl := start_answers starts
    exact inv.advance (by simp [entered]) (by rw [entered]; rfl)
  | wrapped entered starts =>
    obtain rfl := start_asks starts
    exact inv.resolve (by simp [entered]) (by rw [entered]; rfl) rfl nofun (by rintro _ ⟨⟩; exact ⟨rfl, _, rfl⟩)
  | ended inside ends =>
    obtain rfl := after_code ends
    exact inv.leave inside rfl
  | @settled i packet code returned =>
    have outside : ∀ b, s.call i ≠ .inside b := by simp [returned]
    by_cases back : code ≠ 0 ∧ packet.isSome
    · obtain ⟨failed, b, rfl⟩ := by simpa [Option.isSome_iff_exists] using back
      have takes : (fun b' => if code ≠ 0 ∧ some b = some b' then .c ::ₘ s.claims b' else s.claims b') =
          Function.update s.claims b (.c ::ₘ s.claims b) := by
        funext b'
        by_cases same : b' = b
        · simp [same, failed]
        · simp [same, Ne.symm same]
      simp only [takes]
      exact inv.resolve outside (by simp [returned, Call.withC, failed]) rfl nofun nofun
    · have keeps : (fun b => if code ≠ 0 ∧ packet = some b then .c ::ₘ s.claims b else s.claims b) = s.claims := by
        funext b
        refine if_neg ?_
        rintro ⟨failed, rfl⟩
        exact back ⟨failed, rfl⟩
      simp only [keeps]
      refine inv.advance outside ?_
      rw [returned, Call.withC, Call.withC]
      split_ifs with ok
      · rfl
      · exact (by simpa [ok] using back : packet = none).symm

theorem Inv.freed {w : PointerWidth} (inv : Inv tr s) (step : Step w s a t) (frees : Frees s b a) :
    .pool ∉ s.claims b := by
  have other : ∀ h, h ∈ s.claims b → h ≠ .pool → .pool ∉ s.claims b := by
    intro h member notPool
    rw [((inv.once b).eq_singleton member).1, Multiset.mem_singleton]
    exact notPool.symm
  cases step with
  | drop _ held =>
    obtain rfl : _ = b := frees
    exact other _ held nofun
  | cFrees owned =>
    obtain rfl : _ = b := frees
    exact other _ owned nofun
  | ended => exact other _ frees nofun
  | _ => exact frees.elim

/-- In every state of every run. -/
theorem packet_single_owner {w : PointerWidth} (run : (machine β ι φ w).Run tr s) : SingleOwner w tr s := by
  have inv : Inv tr s := by
    refine Machine.Run.history (P := Inv) ?_ (fun inv step => inv.step step) run
    refine ⟨fun b => Or.inl ⟨⟨.pool, rfl⟩, nofun⟩, ?_, ?_⟩
    · intro b place held
      simp [machine] at held
    · intro b held
      simp [machine] at held
  exact ⟨inv.once, inv.live, inv.explicit, fun _ _ _ step frees => inv.freed step frees⟩

end

/-- A `nexthop` that panics with the packet it was handed. -/
def panickingNexthop : List (Act Nat Nat Unit) :=
  [.cAllocates 0, .nexthop 0 (some ()) 5 (some 0) 1, .wrapped 0 0, .ended 0 (.panics false), .settled 0 0]

theorem packet_single_owner_panicking_nexthop :
    ∃ s, (machine Nat Nat Unit .w64).Run panickingNexthop s ∧ SingleOwner .w64 panickingNexthop s := by
  have allocated : (machine Nat Nat Unit .w64).Run [.cAllocates 0]
      ⟨Claims.pass (fun _ => {.pool}) 0 .pool .c, fun _ => .idle⟩ :=
    .next .start (Step.cAllocates (Multiset.mem_singleton_self _))
  have called := allocated.next (Step.nexthop rfl (by simp [Claims.pass]) :
    Step _ _ (.nexthop 0 (some ()) 5 (some 0) 1) _)
  have wrapped := called.next (Step.wrapped (Function.update_self ..)
    (rfl : Ffi.Call.start .w64 (.nexthopShim (some ()) 5 (some 0) 1) = .asks (.nexthopShim () 5 0 true)))
  have ended := wrapped.next (Step.ended (Function.update_self ..)
    (rfl : (Ffi.Frame.nexthopShim () 5 0 true).after false (.panics false) = .value (.code 0)))
  have settled := ended.next (Step.settled (Function.update_self ..))
  exact ⟨_, settled, packet_single_owner settled⟩

end Libcsp.Packet
