import Libcsp.Base.LittleEndian
import Libcsp.Base.Machine
import Libcsp.Xorshift

namespace Libcsp.Stress
open Sys

def prngSeed : UInt32 := 0x12345678

namespace Prng

/-- `Prng::new`: the state. -/
def new (seed : UInt32) : UInt32 := if seed = 0 then 1 else seed

/-- `Prng::next`: the value, and the state behind it. -/
def next (state : UInt32) : UInt32 × UInt32 :=
  let x := xorshift state
  (x, x)

/-- The loop over `chunks_exact_mut(4)`. -/
def fillChunks : Nat → UInt32 → List UInt8 × UInt32
  | 0, state => ([], state)
  | chunks + 1, state =>
    let val := next state
    let rest := fillChunks chunks val.2
    (leBytes 4 val.1.toNat ++ rest.1, rest.2)

/-- `Prng::fill` on a buffer of this length. -/
def fill (length : Nat) (state : UInt32) : List UInt8 × UInt32 :=
  let chunks := fillChunks (length / 4) state
  let remaining := length % 4
  if 0 < remaining then
    let val := next chunks.2
    (chunks.1 ++ (leBytes 4 val.1.toNat).take remaining, val.2)
  else chunks

theorem fillChunks_length (chunks : Nat) (state : UInt32) : (fillChunks chunks state).1.length = 4 * chunks := by
  induction chunks generalizing state with
  | zero => rfl
  | succ chunks ih =>
    rw [fillChunks, List.length_append, leBytes_length, ih]
    omega

theorem fillChunks_succ (chunks : Nat) (state : UInt32) :
    (fillChunks (chunks + 1) state).1 =
      (fillChunks chunks state).1 ++ leBytes 4 (next (fillChunks chunks state).2).1.toNat := by
  induction chunks generalizing state with
  | zero => simp [fillChunks]
  | succ chunks ih =>
    rw [fillChunks, ih, ← List.append_assoc]
    rfl

/-- A shorter buffer is filled with the start of what fills a longer one. -/
theorem fill_eq_take (length : Nat) (state : UInt32) :
    (fill length state).1 = (fillChunks (length / 4 + 1) state).1.take length := by
  have whole := fillChunks_length (length / 4) state
  rw [fillChunks_succ, List.take_append, List.take_of_length_le (by omega), whole]
  have rest : length - 4 * (length / 4) = length % 4 := by omega
  simp only [fill, rest]
  split_ifs with remaining
  · rfl
  · rw [show length % 4 = 0 by omega, List.take_zero, List.append_nil]

theorem fillChunks_take {m n : Nat} (shorter : m ≤ n) (state : UInt32) :
    (fillChunks n state).1.take (4 * m) = (fillChunks m state).1 := by
  induction n with
  | zero =>
    have zero : m = 0 := by omega
    rw [zero]
    rfl
  | succ n ih =>
    rcases Nat.eq_or_lt_of_le shorter with rfl | below
    · rw [List.take_of_length_le (by rw [fillChunks_length])]
    · have kept := ih (by omega)
      rw [fillChunks_succ, List.take_append_of_le_length (by rw [fillChunks_length]; omega), kept]

theorem fill_take {m n : Nat} (shorter : m ≤ n) (state : UInt32) :
    (fill n state).1.take m = (fill m state).1 := by
  have within : m / 4 + 1 ≤ n / 4 + 1 := by
    have := Nat.div_le_div_right (c := 4) shorter
    omega
  rw [fill_eq_take, fill_eq_take, List.take_take, Nat.min_eq_left shorter, ← fillChunks_take within, List.take_take,
    Nat.min_eq_left (by omega)]

@[simp] theorem fill_length (length : Nat) (state : UInt32) : (fill length state).1.length = length := by
  rw [fill_eq_take, List.length_take, fillChunks_length]
  omega

/-- One whole word tells which state the bytes come from. -/
theorem fill_injective {length : Nat} (word : 4 ≤ length) {a b : UInt32} (same : (fill length a).1 = (fill length b).1) :
    a = b := by
  have first : ∀ state, (fill length state).1.take 4 = leBytes 4 (xorshift state).toNat := by
    intro state
    rw [fill_take word]
    simp [fill, fillChunks, next]
  have head := congrArg (List.take 4) same
  rw [first, first] at head
  have value := congrArg ofLeBytes head
  rw [ofLeBytes_leBytes_of_lt (UInt32.toNat_lt _), ofLeBytes_leBytes_of_lt (UInt32.toNat_lt _)] at value
  exact xorshift_injective (UInt32.toNat_inj.mp value)

end Prng

/-- The state of the generator behind the packet with this number. -/
def seedOf (count : UInt64) : UInt32 := Prng.new (prngSeed ^^^ count.toUInt32)

/-- What the sender puts into a packet, or into a blob for SFP, of `size` bytes. -/
def payload (size : Nat) (count : UInt64) : List UInt8 :=
  leBytes 8 count.toNat ++ (Prng.fill (size - 8) (seedOf count)).1

/-- The number in front of the data. -/
def countOf (data : List UInt8) : UInt64 := UInt64.ofNat (ofLeBytes (data.take 8))

/-- What the receiver builds to compare with. -/
def expected (data : List UInt8) : List UInt8 :=
  data.take 8 ++ (Prng.fill (data.length - 8) (seedOf (countOf data))).1

/-- The counters of the receiver. -/
structure Rx where
  count : UInt64
  bytesRecv : UInt64
  errors : UInt64
  deriving DecidableEq

/-- A packet or blob comes out of `read` or `sfp_recv`. -/
def Rx.receive (rx : Rx) (data : List UInt8) : Rx :=
  if data.length < 8 then { rx with errors := rx.errors + 1 }
  else
    { count := rx.count + 1
      bytesRecv := rx.bytesRecv + UInt64.ofNat data.length
      errors := if data ≠ expected data then rx.errors + 1 else rx.errors }

/-- The receiver finds nothing wrong. -/
def accepts (data : List UInt8) : Bool := decide (8 ≤ data.length) && decide (data = expected data)

theorem Rx.receive_errors (rx : Rx) (data : List UInt8) :
    (rx.receive data).errors = rx.errors + if accepts data then 0 else 1 := by
  unfold Rx.receive accepts
  by_cases short : data.length < 8
  · simp [short, Nat.not_le.mpr short]
  · by_cases same : data = expected data
    · simp [short, Nat.le_of_not_lt short, ← same]
    · simp [short, same]

theorem header_take (size : Nat) (count : UInt64) : (payload size count).take 8 = leBytes 8 count.toNat := by
  rw [payload, List.take_left' (leBytes_length ..)]

theorem body_drop (size : Nat) (count : UInt64) :
    (payload size count).drop 8 = (Prng.fill (size - 8) (seedOf count)).1 := by
  rw [payload, List.drop_left' (leBytes_length ..)]

theorem countOf_header {data : List UInt8} {count : UInt64} (header : data.take 8 = leBytes 8 count.toNat) :
    countOf data = count := by
  rw [countOf, header, ofLeBytes_leBytes_of_lt (UInt64.toNat_lt count), UInt64.ofNat_toNat]

theorem header_countOf {data : List UInt8} (long : 8 ≤ data.length) :
    leBytes 8 (countOf data).toNat = data.take 8 := by
  have width : (data.take 8).length = 8 := by rw [List.length_take]; omega
  have small := ofLeBytes_lt (data.take 8)
  rw [width] at small
  have value : (countOf data).toNat = ofLeBytes (data.take 8) := UInt64.toNat_ofNat_of_lt' small
  rw [value]
  nth_rewrite 1 [← width]
  exact leBytes_ofLeBytes _

theorem payload_length {size : Nat} (long : 8 ≤ size) (count : UInt64) : (payload size count).length = size := by
  rw [payload, List.length_append, leBytes_length, Prng.fill_length]
  omega

/-- What the receiver lets through is what the sender makes of some number, and nothing else. -/
theorem accepts_iff {data : List UInt8} :
    accepts data = true ↔ 8 ≤ data.length ∧ data = payload data.length (countOf data) := by
  simp only [accepts, Bool.and_eq_true, decide_eq_true_eq]
  refine and_congr_right fun long => ?_
  rw [payload, header_countOf long]
  rfl

theorem accepts_payload {size : Nat} (long : 8 ≤ size) (count : UInt64) : accepts (payload size count) = true := by
  rw [accepts_iff, payload_length long, countOf_header (header_take size count)]
  exact ⟨long, rfl⟩

/-- What the sender makes of some number. -/
def IsPayload (data : List UInt8) : Prop := ∃ size count, 8 ≤ size ∧ data = payload size count

theorem accepts_iff_isPayload {data : List UInt8} : accepts data = true ↔ IsPayload data := by
  constructor
  · intro accepted
    obtain ⟨long, same⟩ := accepts_iff.mp accepted
    exact ⟨data.length, countOf data, long, same⟩
  · intro made
    obtain ⟨size, count, long, rfl⟩ := made
    exact accepts_payload long count

instance : DecidablePred IsPayload := fun _ => decidable_of_iff _ accepts_iff_isPayload

theorem payload_take {m size : Nat} (long : 8 ≤ m) (shorter : m ≤ size) (count : UInt64) :
    (payload size count).take m = payload m count := by
  rw [payload, List.take_append, leBytes_length, List.take_of_length_le (by simpa using long),
    Prng.fill_take (by omega)]
  rfl

theorem seedOf_eq_iff {a b : UInt64} :
    seedOf a = seedOf b ↔ a.toUInt32 = b.toUInt32 ∨
      (prngSeed ^^^ a.toUInt32 ∈ [0, 1] ∧ prngSeed ^^^ b.toUInt32 ∈ [0, 1]) := by
  have same : prngSeed ^^^ a.toUInt32 = prngSeed ^^^ b.toUInt32 ↔ a.toUInt32 = b.toUInt32 := UInt32.xor_right_inj _
  rw [← same]
  unfold seedOf Prng.new
  generalize prngSeed ^^^ a.toUInt32 = x
  generalize prngSeed ^^^ b.toUInt32 = y
  simp only [List.mem_cons, List.not_mem_nil, or_false]
  split_ifs with first second second
  · simp [first, second]
  · subst first
    simp only [true_or, true_and]
    grind
  · subst second
    grind
  · grind

/-- What a corrupted header gets past the receiver with, the bytes behind it being as sent. -/
theorem accepts_of_body {size : Nat} (word : 12 ≤ size) {count : UInt64} {data : List UInt8}
    (length : data.length = size) (body : data.drop 8 = (payload size count).drop 8) :
    accepts data = true ↔ seedOf (countOf data) = seedOf count := by
  rw [accepts_iff, length]
  constructor
  · rintro ⟨_, same⟩
    rw [same, body_drop, body_drop] at body
    exact Prng.fill_injective (by omega) body
  · intro seeds
    refine ⟨by omega, ?_⟩
    rw [payload, header_countOf (by omega), seeds, ← body_drop, ← body, List.take_append_drop]

/-- With the header as sent, nothing but the sender's own bytes gets past the receiver, as far
as they go. -/
theorem accepted_of_header {data : List UInt8} {size : Nat} {count : UInt64} (long : 8 ≤ size)
    (accepted : accepts data = true) (header : data.take 8 = (payload size count).take 8) :
    data <+: payload size count ∨ payload size count <+: data := by
  obtain ⟨atLeast, same⟩ := accepts_iff.mp accepted
  rw [header_take] at header
  rw [countOf_header header] at same
  rcases Nat.le_total data.length size with shorter | longer
  · left
    rw [same, ← payload_take atLeast shorter]
    exact List.take_prefix ..
  · right
    rw [same, ← payload_take long longer]
    exact List.take_prefix ..

/-- The number of the next packet of the sender, what it has sent, and the receiver. -/
structure State where
  count : UInt64
  sent : List (List UInt8)
  rx : Rx

inductive Act
  | sent (size : Nat)
  | failed
  | delivered (data : List UInt8)

/-- The sender counts what it could send. The network may lose, repeat, reorder and change
what it likes. -/
inductive Step : State → Act → State → Prop
  | sent {s size} : 8 ≤ size → Step s (.sent size)
      { s with count := s.count + 1, sent := s.sent ++ [payload size s.count] }
  | failed {s} : Step s .failed s
  | delivered {s data} : Step s (.delivered data) { s with rx := s.rx.receive data }

def machine : Machine State Act where
  init := ⟨0, [], ⟨0, 0, 0⟩⟩
  step := Step

def delivered (tr : List Act) : List (List UInt8) :=
  tr.filterMap fun
    | .delivered data => some data
    | _ => none

/-- What the receiver's count of errors says about the data that was delivered. -/
structure Detects (tr : List Act) (s : State) : Prop where
  errors : s.rx.errors = UInt64.ofNat ((delivered tr).countP fun data => ¬ IsPayload data)
  /-- No false alarms, not even about what was cut off behind the header. -/
  genuine : ∀ blob ∈ s.sent, ∀ m, 8 ≤ m → accepts (blob.take m) = true
  /-- Nothing but the header can be wrong unnoticed, apart from the length. -/
  body : ∀ blob ∈ s.sent, ∀ data, accepts data = true → data.take 8 = blob.take 8 → data <+: blob ∨ blob <+: data
  /-- A wrong header goes unnoticed just when it gives the same seed. -/
  header : ∀ blob ∈ s.sent, 12 ≤ blob.length → ∀ data, data.length = blob.length → data.drop 8 = blob.drop 8 →
    (accepts data = true ↔ (countOf data).toUInt32 = (countOf blob).toUInt32 ∨
      (prngSeed ^^^ (countOf data).toUInt32 ∈ [0, 1] ∧ prngSeed ^^^ (countOf blob).toUInt32 ∈ [0, 1]))

theorem delivered_concat (tr : List Act) (a : Act) : delivered (tr ++ [a]) = delivered tr ++ delivered [a] :=
  List.filterMap_append

structure Inv (tr : List Act) (s : State) : Prop where
  sent : ∀ blob ∈ s.sent, IsPayload blob
  errors : s.rx.errors = UInt64.ofNat ((delivered tr).countP fun data => ¬ IsPayload data)

theorem Inv.step {tr : List Act} {s s' : State} {a : Act} (inv : Inv tr s) (step : Step s a s') : Inv (tr ++ [a]) s' := by
  cases step with
  | @sent size long =>
    refine ⟨?_, by simpa [delivered_concat, delivered] using inv.errors⟩
    intro blob member
    rcases List.mem_append.mp member with earlier | last
    · exact inv.sent blob earlier
    · exact ⟨size, s.count, long, List.mem_singleton.mp last⟩
  | failed => exact ⟨inv.sent, by simpa [delivered_concat, delivered] using inv.errors⟩
  | @delivered data =>
    refine ⟨inv.sent, ?_⟩
    rw [Rx.receive_errors, inv.errors, delivered_concat, List.countP_append, UInt64.ofNat_add]
    by_cases made : IsPayload data
    · simp [delivered, made, accepts_iff_isPayload.mpr made]
    · simp [delivered, made, mt accepts_iff_isPayload.mp made]

theorem stress_detects {tr : List Act} {s : State} (run : machine.Run tr s) : Detects tr s := by
  have inv : Inv tr s := by
    refine run.history ⟨fun _ member => (nomatch member), rfl⟩ ?_
    intro _ _ _ _ inv step
    exact inv.step step
  refine ⟨inv.errors, ?_, ?_, ?_⟩
  · intro blob member m long
    obtain ⟨size, count, atLeast, rfl⟩ := inv.sent blob member
    rcases Nat.le_total m size with shorter | longer
    · rw [payload_take long shorter]
      exact accepts_payload long count
    · rw [List.take_of_length_le (by rw [payload_length atLeast]; exact longer)]
      exact accepts_payload atLeast count
  · intro blob member data accepted header
    obtain ⟨size, count, atLeast, rfl⟩ := inv.sent blob member
    exact accepted_of_header atLeast accepted header
  · intro blob member word data length body
    obtain ⟨size, count, atLeast, rfl⟩ := inv.sent blob member
    rw [payload_length atLeast] at word length
    rw [countOf_header (header_take size count), ← seedOf_eq_iff]
    exact accepts_of_body word length body

/-- The packet with the number 0 arrives as one with the number 2 to the 56, and nobody notices. -/
theorem stress_detects_high_count_byte :
    ∃ s, machine.Run [.sent 200, .delivered (payload 200 (UInt64.ofNat (2 ^ 56)))] s ∧
      Detects [.sent 200, .delivered (payload 200 (UInt64.ofNat (2 ^ 56)))] s ∧
      payload 200 0 ∈ s.sent ∧ s.rx.errors = 0 := by
  have sent : machine.Run [.sent 200] _ := .next .start (.sent (by decide))
  have delivered := sent.next (@Step.delivered _ (payload 200 (UInt64.ofNat (2 ^ 56))))
  have detects := stress_detects delivered
  refine ⟨_, delivered, detects, by simp [machine], ?_⟩
  rw [detects.errors]
  have made : IsPayload (payload 200 (UInt64.ofNat (2 ^ 56))) := ⟨200, _, by decide, rfl⟩
  rw [List.countP_eq_zero.mpr (by simpa [Stress.delivered] using made)]
  rfl

end Libcsp.Stress
