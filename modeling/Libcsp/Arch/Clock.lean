import Libcsp.Arch.Isr

namespace Libcsp
open Sys

/-- A `CLOCK_MONOTONIC` reading. -/
structure Timespec where
  sec : Nat
  nsec : Nat
  fraction : nsec < 10 ^ 9

def Timespec.nanos (t : Timespec) : Nat := t.sec * 10 ^ 9 + t.nsec

def Timespec.floorMs (t : Timespec) : Nat := t.nanos / 10 ^ 6

/-- The time methods of `TestArch`, over the reading that `clock_gettime` stores. -/
def TestArch.getMs (ts : Timespec) : UInt32 :=
  UInt32.ofNat ts.sec * 1000 + UInt32.ofNat (ts.nsec / 1000000)

def TestArch.getS (ts : Timespec) : UInt32 := TestArch.getMs ts / 1000

def TestArch.time : CspArchTime Timespec where
  getMs ts := (TestArch.getMs ts, ts)
  getS ts := (TestArch.getS ts, ts)
  getMsIsr ts := (TestArch.getMs ts, ts)

def cspGetUptimeS {σ : Type} (A : CspArchTime σ) (s : σ) : UInt32 × σ := A.getUptimeS s

theorem Timespec.floorMs_eq (t : Timespec) : t.floorMs = t.sec * 1000 + t.nsec / 1000000 := by
  unfold floorMs nanos
  omega

theorem TestArch.getMs_toNat (t : Timespec) : (TestArch.getMs t).toNat = t.floorMs % 2 ^ 32 := by
  have fraction := t.fraction
  simp only [TestArch.getMs, UInt32.toNat_add, UInt32.toNat_mul, UInt32.toNat_ofNat', t.floorMs_eq]
  have thousand : (1000 : UInt32).toNat = 1000 := rfl
  rw [thousand]
  omega

theorem TestArch.getS_toNat (t : Timespec) : (TestArch.getS t).toNat = t.floorMs % 2 ^ 32 / 1000 := by
  simp only [TestArch.getS, UInt32.toNat_div, TestArch.getMs_toNat]
  rfl

/-- What two readings of the host clock are to satisfy. -/
structure ClockLaws (t₁ t₂ : Timespec) : Prop where
  elapsed : (TestArch.getMs t₂ - TestArch.getMs t₁).toNat = (t₂.floorMs - t₁.floorMs) % 2 ^ 32
  uptime : (cspGetUptimeS TestArch.time t₁).1 ≤ (cspGetUptimeS TestArch.time t₂).1

theorem floorMs_mono {t₁ t₂ : Timespec} (ordered : t₁.nanos ≤ t₂.nanos) : t₁.floorMs ≤ t₂.floorMs :=
  Nat.div_le_div_right ordered

theorem getMs_elapsed {t₁ t₂ : Timespec} (ordered : t₁.nanos ≤ t₂.nanos) :
    (TestArch.getMs t₂ - TestArch.getMs t₁).toNat = (t₂.floorMs - t₁.floorMs) % 2 ^ 32 := by
  have later := floorMs_mono ordered
  rw [UInt32.toNat_sub, TestArch.getMs_toNat, TestArch.getMs_toNat]
  omega

theorem uptime_le_iff {t₁ t₂ : Timespec} : (cspGetUptimeS TestArch.time t₁).1 ≤ (cspGetUptimeS TestArch.time t₂).1 ↔
    t₁.floorMs % 2 ^ 32 / 1000 ≤ t₂.floorMs % 2 ^ 32 / 1000 := by
  simp only [cspGetUptimeS, TestArch.time, UInt32.le_iff_toNat_le, TestArch.getS_toNat]

theorem clockLaws_of_same_period {t₁ t₂ : Timespec} (ordered : t₁.nanos ≤ t₂.nanos)
    (same : t₁.floorMs / 2 ^ 32 = t₂.floorMs / 2 ^ 32) : ClockLaws t₁ t₂ := by
  have later := floorMs_mono ordered
  exact ⟨getMs_elapsed ordered, uptime_le_iff.mpr (by omega)⟩

/-- A second apart, after 49.7 days: the uptime goes back to zero. -/
theorem uptime_goes_back :
    Timespec.nanos ⟨4294967, 0, by decide⟩ ≤ Timespec.nanos ⟨4294968, 0, by decide⟩ ∧
    (cspGetUptimeS TestArch.time ⟨4294967, 0, by decide⟩).1 = 4294967 ∧
    (cspGetUptimeS TestArch.time ⟨4294968, 0, by decide⟩).1 = 0 ∧
    ¬ ClockLaws ⟨4294967, 0, by decide⟩ ⟨4294968, 0, by decide⟩ := by
  refine ⟨by decide, by decide, by decide, ?_⟩
  intro laws
  exact absurd laws.uptime (by decide)

def Timespec.ofNanos (n : Nat) : Timespec where
  sec := n / 10 ^ 9
  nsec := n % 10 ^ 9
  fraction := Nat.mod_lt n (by decide)

@[simp] theorem Timespec.ofNanos_nanos (n : Nat) : (Timespec.ofNanos n).nanos = n := by
  simp only [Timespec.nanos, Timespec.ofNanos]
  omega

/-- Over a stretch of time the laws hold of all readings exactly when the counter does
not wrap in it: from the last millisecond before the wrap the uptime drops to zero. -/
theorem clock_laws_throughout_iff {a b : Timespec} (ordered : a.nanos ≤ b.nanos) :
    (∀ t₁ t₂ : Timespec, a.nanos ≤ t₁.nanos → t₁.nanos ≤ t₂.nanos → t₂.nanos ≤ b.nanos → ClockLaws t₁ t₂) ↔
      a.floorMs / 2 ^ 32 = b.floorMs / 2 ^ 32 := by
  have later := floorMs_mono ordered
  constructor
  · intro laws
    by_contra wraps
    obtain ⟨wrap, atWrap⟩ : ∃ wrap, wrap = (a.floorMs / 2 ^ 32 + 1) * 2 ^ 32 := ⟨_, rfl⟩
    obtain ⟨before, atBefore⟩ : ∃ before, before = max a.nanos ((wrap - 1) * 10 ^ 6) := ⟨_, rfl⟩
    have floorA : a.floorMs = a.nanos / 10 ^ 6 := rfl
    have floorB : b.floorMs = b.nanos / 10 ^ 6 := rfl
    have law := laws (.ofNanos before) (.ofNanos (wrap * 10 ^ 6)) (by rw [Timespec.ofNanos_nanos]; omega)
      (by rw [Timespec.ofNanos_nanos, Timespec.ofNanos_nanos]; omega) (by rw [Timespec.ofNanos_nanos]; omega)
    have uptime := uptime_le_iff.mp law.uptime
    simp only [Timespec.floorMs, Timespec.ofNanos_nanos] at uptime
    omega
  · intro same t₁ t₂ low middle high
    have first := floorMs_mono low
    have second := floorMs_mono middle
    have third := floorMs_mono high
    exact clockLaws_of_same_period middle (by omega)

/-- A second apart, within one period of the counter. -/
theorem clock_laws_second : ClockLaws ⟨10, 5, by decide⟩ ⟨11, 5, by decide⟩ :=
  (@clock_laws_throughout_iff ⟨10, 0, by decide⟩ ⟨12, 0, by decide⟩ (by decide)).mpr (by decide) _ _ (by decide) (by decide)
    (by decide)

end Libcsp
