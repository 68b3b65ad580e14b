import Mathlib.Data.List.Sort

/-! # Rankings

The elements of a list that have a value, sorted by their values, of which the first are kept.

* `map_fst_ranking`: it is a sort of the values.
* `mem_ranking`: every element with a value is in it.
* `mem_take_or`: what is cut off is behind what is kept.
* `mapM_eq_some`, `mapM_eq_none`: all values of a list, or a failure where one of them fails. -/

namespace BandixPlus.Lib.Ranking

variable {α β : Type}

/-! ### Values that may fail -/

section
variable {f : α → Option β} {l : List α}

theorem mapM_eq_some {bs : List β} : l.mapM f = some bs ↔ l.map f = bs.map some := by
  induction l generalizing bs with
  | nil =>
    cases bs with
    | nil => simp
    | cons b bs => simp
  | cons a rest ih =>
    rw [List.mapM_cons, List.map_cons]
    cases bs with
    | nil =>
      cases f a with
      | none => simp
      | some b' => cases rest.mapM f <;> simp
    | cons b bs =>
      rw [List.map_cons, List.cons.injEq, ← ih]
      cases f a with
      | none => simp
      | some b' => cases rest.mapM f <;> simp

theorem mapM_eq_none : l.mapM f = none ↔ ∃ a ∈ l, f a = none := by
  induction l with
  | nil => simp
  | cons a rest ih =>
    rw [List.mapM_cons, List.exists_mem_cons_iff, ← ih]
    cases f a with
    | none => simp
    | some b => cases rest.mapM f <;> simp

end

/-! ### The ranking -/

section
variable (value : α → Option β) (le : β → β → Bool)

/-- The elements that have a value, each with it, sorted by the values. -/
def ranking (l : List α) : List (β × α) :=
  (l.filterMap fun a => (value a).map fun b => (b, a)).mergeSort fun p q => le p.1 q.1

variable {value le} {l : List α}

theorem map_fst_ranking : (ranking value le l).map Prod.fst = (l.filterMap value).mergeSort le := by
  unfold ranking
  rw [List.map_mergeSort (s := le) fun p _ q _ => rfl, List.map_filterMap]
  simp only [Option.map_map, Function.comp_def, Option.map_id']

theorem mem_ranking {p : β × α} : p ∈ ranking value le l ↔ p.2 ∈ l ∧ value p.2 = some p.1 := by
  obtain ⟨b, a⟩ := p
  unfold ranking
  rw [List.mem_mergeSort, List.mem_filterMap]
  constructor
  · rintro ⟨a', ha', hvalue⟩
    obtain ⟨b', hb', hpair⟩ := Option.map_eq_some_iff.mp hvalue
    cases hpair
    exact ⟨ha', hb'⟩
  · rintro ⟨ha, hvalue⟩
    exact ⟨a, ha, Option.map_eq_some_iff.mpr ⟨b, hvalue, rfl⟩⟩

/-- Elements that are told apart by a key are in the ranking once. -/
theorem nodup_ranking {γ : Type} {key : α → γ} (h : (l.map key).Nodup) :
    ((ranking value le l).map fun p => key p.2).Nodup := by
  refine ((List.mergeSort_perm _ _).map _).nodup_iff.mpr (List.pairwise_map.mpr ?_)
  refine List.pairwise_filterMap.mpr ((List.pairwise_map.mp h).imp fun {a a'} hne p hp p' hp' => ?_)
  obtain ⟨b, -, rfl⟩ := Option.map_eq_some_iff.mp hp
  obtain ⟨b', -, rfl⟩ := Option.map_eq_some_iff.mp hp'
  exact hne

variable (trans : ∀ a b c, le a b = true → le b c = true → le a c = true)
  (total : ∀ a b, (le a b || le b a) = true)

include trans total

theorem pairwise_ranking : (ranking value le l).Pairwise fun p q => le p.1 q.1 = true :=
  List.pairwise_mergeSort (fun p q r => trans p.1 q.1 r.1) (fun p q => total p.1 q.1) _

/-- **What the first `n` do not have is behind them.** -/
theorem mem_take_or (n : ℕ) {p : β × α} (h : p ∈ ranking value le l) :
    p ∈ (ranking value le l).take n ∨
      n < (ranking value le l).length ∧ ∀ q ∈ (ranking value le l).take n, le q.1 p.1 = true := by
  have hpairwise := @pairwise_ranking _ _ value le l trans total
  rw [← List.take_append_drop n (ranking value le l)] at h hpairwise
  rcases List.mem_append.mp h with htake | hdrop
  · exact Or.inl htake
  · refine Or.inr ⟨?_, fun q hq => (List.pairwise_append.mp hpairwise).2.2 q hq p hdrop⟩
    have hpos := List.length_pos_of_mem hdrop
    rw [List.length_drop] at hpos
    omega

end

end BandixPlus.Lib.Ranking
