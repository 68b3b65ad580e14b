import BandixPlus.Lib.Maps
import Mathlib.Data.List.Sort

/-! # Sorting without ties

A list whose elements differ in the order is sorted to one list, however it is permuted before.

* `mergeSort_eq_of_perm`: the order before the sort does not matter.
* `pairwise_lt_mergeSort`: the sorted list is strictly sorted.
* `pairwise_mergeSort_iff`: elements with the same key keep their order.
* `eq_of_pairwise_lt`: in a list that is strictly sorted by a key the key tells the element.
* `valuesInOrder_eq_iff`: the values of a map, iterated in the order of its keys. -/

namespace BandixPlus.Lib.Sorting

open BandixPlus.Lib.Maps

variable {α : Type} {le : α → α → Bool} {l l' : List α}

section
variable (trans : ∀ a b c, le a b = true → le b c = true → le a c = true)
  (total : ∀ a b, (le a b || le b a) = true)

include trans total

/-- **The order before the sort does not matter.** -/
theorem mergeSort_eq_of_perm (h : l.Perm l')
    (anti : ∀ a ∈ l, ∀ b ∈ l, le a b = true → le b a = true → a = b) :
    l.mergeSort le = l'.mergeSort le := by
  have hsorted : ∀ l : List α, (l.mergeSort le).Pairwise fun a b => le a b = true :=
    fun l => List.pairwise_mergeSort trans total l
  refine List.Perm.eq_of_pairwise (fun a b ha hb hab hba => ?_) (hsorted l) (hsorted l')
    (((List.mergeSort_perm l le).trans h).trans (List.mergeSort_perm l' le).symm)
  exact anti a (List.mem_mergeSort.mp ha) b (h.mem_iff.mpr (List.mem_mergeSort.mp hb)) hab hba

/-- **The sorted list is strictly sorted.** -/
theorem pairwise_lt_mergeSort (hnodup : l.Nodup)
    (anti : ∀ a ∈ l, ∀ b ∈ l, le a b = true → le b a = true → a = b) :
    (l.mergeSort le).Pairwise fun a b => le b a = false := by
  have hboth := (List.pairwise_mergeSort trans total l).and
    ((List.mergeSort_perm l le).nodup_iff.mpr hnodup)
  refine hboth.imp_of_mem fun {a b} ha hb hab => ?_
  by_contra hba
  exact hab.2 (anti a (List.mem_mergeSort.mp ha) b (List.mem_mergeSort.mp hb) hab.1
    (Bool.eq_true_of_not_eq_false hba))

/-- **Sorting is stable**: elements that are equal in the order stay as they are. -/
theorem filter_mergeSort {p : α → Bool} (hp : ∀ a b, p a = true → p b = true → le a b = true) :
    (l.mergeSort le).filter p = l.filter p := by
  have hpairwise : (l.filter p).Pairwise fun a b => le a b = true :=
    List.pairwise_filter.mpr (List.pairwise_of_forall fun a b ha hb => hp a b ha hb)
  have hsub : ((l.filter p).filter p).Sublist ((l.mergeSort le).filter p) :=
    (List.sublist_mergeSort trans total hpairwise List.filter_sublist).filter p
  rw [List.filter_filter] at hsub
  simp only [Bool.and_self] at hsub
  exact (hsub.eq_of_length ((List.mergeSort_perm l le).filter p).length_eq.symm).symm

/-- A relation between elements with the same key holds after a sort by the key if it holds before. -/
theorem pairwise_mergeSort_iff {β : Type} [DecidableEq β] {f : α → β} {R : α → α → Prop}
    (hf : ∀ a b, f a = f b → le a b = true) :
    ((l.mergeSort le).Pairwise fun a b => f a = f b → R a b) ↔
      l.Pairwise fun a b => f a = f b → R a b := by
  have hsub : ∀ a b, f a = f b → (List.Sublist [a, b] (l.mergeSort le) ↔ List.Sublist [a, b] l) := by
    intro a b heq
    have hfilter := @filter_mergeSort α le l trans total (fun c => f c = f a) fun c d hc hd =>
       hf c d ((of_decide_eq_true hc).trans (of_decide_eq_true hd).symm)
    have hpair : [a, b].filter (fun c => f c = f a) = [a, b] := by simp [heq]
    constructor
    · intro h
      have h' := h.filter fun c => decide (f c = f a)
      rw [hpair, hfilter] at h'
      exact h'.trans List.filter_sublist
    · intro h
      have h' := h.filter fun c => decide (f c = f a)
      rw [hpair, ← hfilter] at h'
      exact h'.trans List.filter_sublist
  rw [List.pairwise_iff_forall_sublist, List.pairwise_iff_forall_sublist]
  exact ⟨fun h a b hab heq => h ((hsub a b heq).mpr hab) heq,
    fun h a b hab heq => h ((hsub a b heq).mp hab) heq⟩

end

theorem eq_of_pairwise_lt {β : Type} [LT β] (hirr : ∀ x : β, ¬ x < x) {f : α → β}
    (h : l.Pairwise fun a b => f a < f b) {a b : α} (ha : a ∈ l) (hb : b ∈ l) (heq : f a = f b) :
    a = b := by
  induction l with
  | nil => cases ha
  | cons c rest ih =>
    obtain ⟨hc, hrest⟩ := List.pairwise_cons.mp h
    rcases List.mem_cons.mp ha with ha | ha
    · rcases List.mem_cons.mp hb with hb | hb
      · exact ha.trans hb.symm
      · have hlt := hc b hb
        rw [← ha, heq] at hlt
        exact absurd hlt (hirr _)
    · rcases List.mem_cons.mp hb with hb | hb
      · have hlt := hc a ha
        rw [← hb, heq] at hlt
        exact absurd hlt (hirr _)
      · exact ih hrest ha hb

/-! ### Maps that are iterated in the order of their keys -/

section
variable {K V : Type}

/-- The values of a map in the order of their keys. -/
def valuesInOrder (le : K → K → Bool) (m : HashMap K V) : List V :=
  (m.entries.mergeSort fun e e' => le e.1 e'.1).map fun e => e.2

theorem valuesInOrder_perm (le : K → K → Bool) (m : HashMap K V) :
    (valuesInOrder le m).Perm (m.entries.map fun e => e.2) :=
  (List.mergeSort_perm _ _).map _

variable [DecidableEq K] {le : K → K → Bool} {m : HashMap K V} {f : V → K}
  (trans : ∀ a b c, le a b = true → le b c = true → le a c = true)
  (total : ∀ a b, (le a b || le b a) = true)
  (hkeyed : ∀ k v, m.lookup k = some v → f v = k)

include trans total hkeyed

theorem pairwise_valuesInOrder : (valuesInOrder le m).Pairwise fun a b => le (f a) (f b) = true := by
  have hsorted : (m.entries.mergeSort fun e e' => le e.1 e'.1).Pairwise fun e e' =>
      le e.1 e'.1 = true :=
    List.pairwise_mergeSort (fun a b c => trans a.1 b.1 c.1) (fun a b => total a.1 b.1) m.entries
  refine List.pairwise_map.mpr (hsorted.imp_of_mem fun {e e'} he he' hle => ?_)
  rw [hkeyed e.1 e.2 (mem_entries_iff.mp (List.mem_mergeSort.mp he)),
    hkeyed e'.1 e'.2 (mem_entries_iff.mp (List.mem_mergeSort.mp he'))]
  exact hle

/-- **The values come out in a given order if and only if this order is that of the keys.** -/
theorem valuesInOrder_eq_iff (anti : ∀ a b, le a b = true → le b a = true → a = b) {l : List V}
    (hperm : (m.entries.map fun e => e.2).Perm l) :
    valuesInOrder le m = l ↔ l.Pairwise fun a b => le (f a) (f b) = true := by
  have hpairwise := pairwise_valuesInOrder trans total hkeyed
  constructor
  · intro heq
    exact heq ▸ hpairwise
  · intro hsorted
    have hlookup : ∀ v ∈ m.entries.map fun e => e.2, m.lookup (f v) = some v := by
      intro v hv
      obtain ⟨⟨k, v'⟩, he, rfl⟩ := List.mem_map.mp hv
      rw [hkeyed k v' (mem_entries_iff.mp he)]
      exact mem_entries_iff.mp he
    refine List.Perm.eq_of_pairwise (fun a b ha hb hab hba => ?_) hpairwise hsorted
      ((valuesInOrder_perm le m).trans hperm)
    have ha' := hlookup a ((valuesInOrder_perm le m).mem_iff.mp ha)
    rw [anti _ _ hab hba, hlookup b (hperm.mem_iff.mpr hb)] at ha'
    exact (Option.some.inj ha').symm

end

end BandixPlus.Lib.Sorting
