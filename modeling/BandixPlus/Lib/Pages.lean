import Mathlib.Data.List.Basic

/-! # Pages of a list

* `flatMap_page`: the pages one after the other are the list.
* `length_page`: a page before the last is full.
* `page_eq_nil`: after the last there is nothing. -/

namespace BandixPlus.Lib.Pages

/-- `usize::div_ceil`. -/
def divCeil (n s : ℕ) : ℕ := if n % s = 0 then n / s else n / s + 1

section Count

variable {n s k : ℕ}

theorem le_divCeil_mul (hs : 0 < s) : n ≤ divCeil n s * s := by
  have hdiv := Nat.div_add_mod' n s
  have hlt := Nat.mod_lt n hs
  unfold divCeil
  split_ifs with h
  · omega
  · rw [Nat.add_mul]
    omega

theorem mul_le_of_lt_divCeil (h : k < divCeil n s) : k * s ≤ n := by
  have hle : k ≤ n / s := by
    unfold divCeil at h
    split_ifs at h <;> omega
  exact Nat.le_trans (Nat.mul_le_mul_right s hle) (Nat.div_mul_le_self n s)

end Count

section Page

variable {α : Type}

/-- Page `k`, counted from 0, with `s` entries a page. -/
def page (s k : ℕ) (l : List α) : List α := (l.drop (k * s)).take s

theorem flatMap_range_page (s n : ℕ) (l : List α) :
    (List.range n).flatMap (fun k => page s k l) = l.take (n * s) := by
  induction n with
  | zero => simp
  | succ n ih =>
    rw [List.range_succ, List.flatMap_append, ih, List.flatMap_singleton, Nat.add_mul, Nat.one_mul,
      List.take_add]
    rfl

/-- **The pages are the list**, in its order. -/
theorem flatMap_page {s : ℕ} (hs : 0 < s) (l : List α) :
    (List.range (divCeil l.length s)).flatMap (fun k => page s k l) = l := by
  rw [flatMap_range_page, List.take_of_length_le (le_divCeil_mul hs)]

theorem length_page {s k : ℕ} {l : List α} (h : k + 1 < divCeil l.length s) :
    (page s k l).length = s := by
  have hle := mul_le_of_lt_divCeil h
  rw [Nat.add_mul] at hle
  unfold page
  rw [List.length_take, List.length_drop]
  omega

theorem page_eq_nil {s k : ℕ} (hs : 0 < s) {l : List α} (h : divCeil l.length s ≤ k) :
    page s k l = [] := by
  have hle := le_divCeil_mul hs (n := l.length)
  have hmul : divCeil l.length s * s ≤ k * s := Nat.mul_le_mul_right s h
  unfold page
  rw [List.drop_eq_nil_of_le (by omega), List.take_nil]

end Page

end BandixPlus.Lib.Pages
