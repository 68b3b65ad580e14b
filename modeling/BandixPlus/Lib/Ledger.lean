import Mathlib.Algebra.BigOperators.Group.List.Basic
import Mathlib.Data.List.Nodup
import Mathlib.Logic.Function.Basic

/-! # Ledgers

Totals by key, and entries that each add an amount to the total of their key and show the balance.
`Accounts before after entries` says that the entries are all that happened to the totals.

* `Accounts.post`, `Accounts.raise`: one more entry, and a larger amount in an entry.
* `Accounts.idle`: entries that add nothing.
* `Accounts.after_eq`: the new total of a key is the old one and what was posted. -/

namespace BandixPlus.Lib.Ledger

variable {K A : Type*}

@[ext] structure Entry (K A : Type*) where
  key : K
  amount : A
  balance : A

/-- One key at most once, every balance the old total and the amount, and the new totals are the
balances. -/
structure Accounts [Add A] (before after : K → A) (entries : List (Entry K A)) : Prop where
  distinct : (entries.map Entry.key).Nodup
  balance : ∀ e ∈ entries, e.balance = before e.key + e.amount
  current : ∀ e ∈ entries, after e.key = e.balance
  others : ∀ k ∉ entries.map Entry.key, after k = before k

/-- What the entries add to the total of a key. -/
def posted [DecidableEq K] [AddMonoid A] (k : K) (entries : List (Entry K A)) : A :=
  ((entries.filter fun e => e.key = k).map Entry.amount).sum

/-- A larger amount. -/
def Entry.raise [Add A] (e : Entry K A) (x : A) : Entry K A :=
  { e with amount := e.amount + x, balance := e.balance + x }

theorem accounts_nil [Add A] (totals : K → A) : Accounts totals totals [] where
  distinct := List.nodup_nil
  balance := fun _ he => absurd he List.not_mem_nil
  current := fun _ he => absurd he List.not_mem_nil
  others := fun _ _ => rfl

/-- An entry's key occurs nowhere else. -/
theorem Accounts.key_notMem [Add A] {before after : K → A} {done rest : List (Entry K A)}
    {e : Entry K A} (h : Accounts before after (done ++ e :: rest)) {d : Entry K A}
    (hd : d ∈ done ∨ d ∈ rest) : d.key ≠ e.key := by
  have hdistinct := h.distinct
  rw [List.map_append, List.map_cons, List.nodup_middle, List.nodup_cons, ← List.map_append]
    at hdistinct
  intro heq
  exact hdistinct.1 (heq ▸ List.mem_map_of_mem (List.mem_append.mpr hd))

theorem Accounts.perm [Add A] {before after : K → A} {entries entries' : List (Entry K A)}
    (h : Accounts before after entries) (hperm : entries'.Perm entries) :
    Accounts before after entries' where
  distinct := (hperm.map _).nodup_iff.mpr h.distinct
  balance := fun e he => h.balance e (hperm.mem_iff.mp he)
  current := fun e he => h.current e (hperm.mem_iff.mp he)
  others := fun k hk => h.others k fun hmem => hk ((hperm.map _).mem_iff.mpr hmem)

section Keys
variable [DecidableEq K]

/-- **One more entry.** -/
theorem Accounts.post [Add A] {before after : K → A} {entries : List (Entry K A)}
    (h : Accounts before after entries) {k : K} (hk : k ∉ entries.map Entry.key) (x : A) :
    Accounts before (Function.update after k (after k + x))
      (entries ++ [⟨k, x, after k + x⟩]) where
  distinct := by
    rw [List.map_append]
    refine List.nodup_append.mpr ⟨h.distinct, List.nodup_singleton _, ?_⟩
    rintro a ha b hb rfl
    have hb : a = k := List.mem_singleton.mp hb
    exact hk (hb ▸ ha)
  balance := by
    intro e he
    rcases List.mem_append.mp he with he | he
    · exact h.balance e he
    · rw [List.mem_singleton.mp he, h.others k hk]
  current := by
    intro e he
    rcases List.mem_append.mp he with he | he
    · have hne : e.key ≠ k := fun heq => hk (heq ▸ List.mem_map_of_mem he)
      rw [Function.update_of_ne hne]
      exact h.current e he
    · rw [List.mem_singleton.mp he, Function.update_self]
  others := by
    intro k' hk'
    rw [List.map_append, List.mem_append, not_or, List.map_singleton, List.mem_singleton] at hk'
    rw [Function.update_of_ne hk'.2]
    exact h.others k' hk'.1

/-- **A larger amount.** -/
theorem Accounts.raise [AddSemigroup A] {before after : K → A} {done rest : List (Entry K A)}
    {e : Entry K A} (h : Accounts before after (done ++ e :: rest)) (x : A) :
    Accounts before (Function.update after e.key (e.balance + x)) (done ++ e.raise x :: rest) := by
  have hkeys : (done ++ e.raise x :: rest).map Entry.key = (done ++ e :: rest).map Entry.key := by
    rw [List.map_append, List.map_append]
    rfl
  have hbalance := h.balance e (List.mem_append_right _ List.mem_cons_self)
  have hmem : ∀ d ∈ done ++ e.raise x :: rest, d = e.raise x ∨
      (d ∈ done ++ e :: rest ∧ d.key ≠ e.key) := by
    intro d hd
    rcases List.mem_append.mp hd with hd | hd
    · exact Or.inr ⟨List.mem_append_left _ hd, h.key_notMem (Or.inl hd)⟩
    · rcases List.mem_cons.mp hd with rfl | hd
      · exact Or.inl rfl
      · exact Or.inr ⟨List.mem_append_right _ (List.mem_cons_of_mem _ hd), h.key_notMem (Or.inr hd)⟩
  refine ⟨hkeys ▸ h.distinct, fun d hd => ?_, fun d hd => ?_, fun k hk => ?_⟩
  · rcases hmem d hd with rfl | ⟨hd, -⟩
    · show e.balance + x = before e.key + (e.amount + x)
      rw [hbalance, add_assoc]
    · exact h.balance d hd
  · rcases hmem d hd with rfl | ⟨hd, hne⟩
    · exact Function.update_self _ _ _
    · rw [Function.update_of_ne hne]
      exact h.current d hd
  · rw [hkeys] at hk
    have hne : k ≠ e.key := by
      rintro rfl
      exact hk (List.mem_map_of_mem (List.mem_append_right _ List.mem_cons_self))
    rw [Function.update_of_ne hne]
    exact h.others k hk

end Keys

/-- **Entries that add nothing.** -/
theorem Accounts.idle [AddMonoid A] {before after : K → A} {entries idle : List (Entry K A)}
    (h : Accounts before after entries) (hdistinct : (idle.map Entry.key).Nodup)
    (hfresh : ∀ e ∈ idle, e.key ∉ entries.map Entry.key) (hamount : ∀ e ∈ idle, e.amount = 0)
    (hbalance : ∀ e ∈ idle, e.balance = after e.key) :
    Accounts before after (entries ++ idle) where
  distinct := by
    rw [List.map_append]
    refine List.nodup_append.mpr ⟨h.distinct, hdistinct, ?_⟩
    rintro k hk k' hk' rfl
    obtain ⟨e, he, rfl⟩ := List.mem_map.mp hk'
    exact hfresh e he hk
  balance := by
    intro e he
    rcases List.mem_append.mp he with he | he
    · exact h.balance e he
    · rw [hbalance e he, hamount e he, add_zero]
      exact h.others e.key (hfresh e he)
  current := by
    intro e he
    rcases List.mem_append.mp he with he | he
    · exact h.current e he
    · exact (hbalance e he).symm
  others := by
    intro k hk
    rw [List.map_append, List.mem_append, not_or] at hk
    exact h.others k hk.1

/-- **The new total of a key is the old one and what was posted.** -/
theorem Accounts.after_eq [DecidableEq K] [AddMonoid A] {before after : K → A}
    {entries : List (Entry K A)} (h : Accounts before after entries) (k : K) :
    after k = before k + posted k entries := by
  unfold posted
  by_cases hk : k ∈ entries.map Entry.key
  · obtain ⟨e, he, rfl⟩ := List.mem_map.mp hk
    have honly : entries.filter (fun d => d.key = e.key) = [e] := by
      obtain ⟨done, rest, rfl⟩ := List.append_of_mem he
      have hnone : ∀ l : List (Entry K A), (∀ d ∈ l, d ∈ done ∨ d ∈ rest) →
          l.filter (fun d => d.key = e.key) = [] := by
        intro l hl
        exact List.filter_eq_nil_iff.mpr fun d hd heq =>
          h.key_notMem (hl d hd) (of_decide_eq_true heq)
      rw [List.filter_append, List.filter_cons, if_pos (decide_eq_true rfl),
        hnone done fun d hd => Or.inl hd, hnone rest fun d hd => Or.inr hd, List.nil_append]
    rw [honly, List.map_singleton, List.sum_singleton, h.current e he, h.balance e he]
  · have hnone : entries.filter (fun e => e.key = k) = [] := by
      refine List.filter_eq_nil_iff.mpr fun e he heq => hk ?_
      rw [← of_decide_eq_true heq]
      exact List.mem_map_of_mem he
    rw [hnone, h.others k hk, List.map_nil, List.sum_nil, add_zero]

end BandixPlus.Lib.Ledger
