import Mathlib.Data.UInt
import Mathlib.Order.Lattice

/-! # Saturating counters

Addition of 64-bit counters that stops at the largest value. -/

namespace BandixPlus.Lib.Saturating

/-- `a.saturating_add(b)`. -/
def satAdd (a b : UInt64) : UInt64 := UInt64.ofNat (min (a.toNat + b.toNat) (2 ^ 64 - 1))

theorem toNat_satAdd (a b : UInt64) : (satAdd a b).toNat = min (a.toNat + b.toNat) (2 ^ 64 - 1) := by
  unfold satAdd
  rw [UInt64.toNat_ofNat']
  omega

theorem satAdd_comm (a b : UInt64) : satAdd a b = satAdd b a := by
  unfold satAdd
  rw [Nat.add_comm]

theorem satAdd_assoc (a b c : UInt64) : satAdd (satAdd a b) c = satAdd a (satAdd b c) := by
  refine UInt64.toNat_inj.mp ?_
  rw [toNat_satAdd, toNat_satAdd, toNat_satAdd, toNat_satAdd]
  omega

@[simp] theorem satAdd_zero (a : UInt64) : satAdd a 0 = a := by
  refine UInt64.toNat_inj.mp ?_
  have := a.toNat_lt
  rw [toNat_satAdd, UInt64.toNat_zero]
  omega

@[simp] theorem zero_satAdd (a : UInt64) : satAdd 0 a = a := by
  rw [satAdd_comm, satAdd_zero]

/-- What a counter shows that was raised by `n` in all. -/
def saturate (n : ℕ) : UInt64 := UInt64.ofNat (min n (2 ^ 64 - 1))

@[simp] theorem toNat_saturate (n : ℕ) : (saturate n).toNat = min n (2 ^ 64 - 1) := by
  unfold saturate
  rw [UInt64.toNat_ofNat']
  omega

theorem saturate_toNat (a : UInt64) : saturate a.toNat = a := by
  refine UInt64.toNat_inj.mp ?_
  have := a.toNat_lt
  rw [toNat_saturate]
  omega

/-- The order of raising and saturating does not matter. -/
theorem satAdd_saturate (n : ℕ) (a : UInt64) : satAdd (saturate n) a = saturate (n + a.toNat) := by
  refine UInt64.toNat_inj.mp ?_
  rw [toNat_satAdd, toNat_saturate, toNat_saturate]
  omega

theorem satAdd_saturate_saturate (m n : ℕ) : satAdd (saturate m) (saturate n) = saturate (m + n) := by
  refine UInt64.toNat_inj.mp ?_
  simp only [toNat_satAdd, toNat_saturate]
  omega

/-- Saturating sums add what was added, each part saturated or not. -/
theorem foldl_satAdd_saturate (ns : List ℕ) (n : ℕ) :
    (ns.map saturate).foldl satAdd (saturate n) = saturate (n + ns.sum) := by
  induction ns generalizing n with
  | nil => rfl
  | cons m rest ih =>
    rw [List.map_cons, List.foldl_cons, satAdd_saturate_saturate, ih, List.sum_cons, Nat.add_assoc]

end BandixPlus.Lib.Saturating
