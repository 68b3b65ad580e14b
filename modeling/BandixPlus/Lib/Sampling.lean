import Mathlib.Data.Int.Basic

/-! # Sampled counters

A counter that others raise is read now and then. Each sample counts what came since the last one, and now
and then the counter and the base of the next sample are both reset.

* `Meter.Balanced`: what was counted and what is not yet counted is what was added.
* `balanced_raise`, `balanced_sample`: raising and sampling keep this.
* `balanced_reset_iff`: a reset keeps it if and only if the counter has nothing that is not counted. -/

namespace BandixPlus.Lib.Sampling

/-- A counter, the base of its next sample, and all that was added and counted. -/
@[ext] structure Meter where
  value : ℕ
  base : ℕ
  added : ℕ
  counted : ℕ

namespace Meter

def zero : Meter := ⟨0, 0, 0, 0⟩

def raise (m : Meter) (n : ℕ) : Meter := { m with value := m.value + n, added := m.added + n }

/-- A sample that found the value `v`. -/
def sample (m : Meter) (v : ℕ) : Meter := { m with base := v, counted := m.counted + (v - m.base) }

def reset (m : Meter) : Meter := { m with value := 0, base := 0 }

/-- **Nothing is lost and nothing is counted twice.** -/
structure Balanced (m : Meter) : Prop where
  le : m.base ≤ m.value
  total : m.counted + m.value = m.added + m.base

end Meter

theorem balanced_zero : Meter.zero.Balanced := ⟨Nat.le_refl 0, rfl⟩

variable {m : Meter}

theorem balanced_raise (h : m.Balanced) (n : ℕ) : (m.raise n).Balanced := by
  obtain ⟨hle, htotal⟩ := h
  unfold Meter.raise
  exact ⟨by dsimp only; omega, by dsimp only; omega⟩

theorem balanced_sample (h : m.Balanced) {v : ℕ} (hbase : m.base ≤ v) (hvalue : v ≤ m.value) :
    (m.sample v).Balanced := by
  obtain ⟨hle, htotal⟩ := h
  unfold Meter.sample
  exact ⟨hvalue, by dsimp only; omega⟩

/-- **A reset loses what is not counted.** -/
theorem balanced_reset_iff (h : m.Balanced) : m.reset.Balanced ↔ m.value = m.base := by
  obtain ⟨hle, htotal⟩ := h
  unfold Meter.reset
  constructor
  · rintro ⟨-, hreset⟩
    dsimp only at hreset
    omega
  · exact fun hsame => ⟨Nat.le_refl 0, by dsimp only; omega⟩

/-- The sum as a difference of integers. -/
theorem balanced_int (h : m.Balanced) : (m.counted : ℤ) + (m.value - m.base) = m.added := by
  have htotal := h.total
  omega

end BandixPlus.Lib.Sampling
