import BandixPlus.Lib.Maps
import Mathlib.Data.List.Rotate

/-! # The last one wins

Entries that are inserted into a map one by one, after a stable sort.

* `lookup_insertKeyed`: under a key is the last entry inserted there.
* `lookup_insertKeyed_filterMap`: a map that is saved as a list of items comes back.
* `foldl_set_once`: what a loop writes once is there at its end.
* `le_of_getLast`: in a sorted list the last element of a kind is a greatest one.
* `getLast_mergeSort_concat`: among equals it is the one that was last before the sort.
* `exists_order_concat`: an order of iteration can end in any element. -/

namespace BandixPlus.Lib.LastWins

open BandixPlus.Lib.Maps

variable {α K V : Type} [DecidableEq K]

omit [DecidableEq K] in
/-- Among some elements of a kind there is a last one. -/
theorem exists_getLast_filter {p : α → Bool} {l : List α} {a : α} (ha : a ∈ l) (hp : p a = true) :
    ∃ w, (l.filter p).getLast? = some w := by
  have hne : l.filter p ≠ [] := List.ne_nil_of_mem (List.mem_filter.mpr ⟨ha, hp⟩)
  exact ⟨_, List.getLast?_eq_some_getLast hne⟩

/-- Insert every element that has a key. -/
def insertKeyed (key : α → Option K) (value : K → α → V) (l : List α) : HashMap K V :=
  l.foldl (fun m a =>
    match key a with
    | some k => m.insert k (value k a)
    | none => m) ∅

/-- **The last one wins.** -/
theorem lookup_insertKeyed (key : α → Option K) (value : K → α → V) (l : List α) (k : K) :
    (insertKeyed key value l).lookup k =
      ((l.filter fun a => key a = some k).getLast?).map (value k) := by
  unfold insertKeyed
  induction l using List.reverseRecOn with
  | nil => rfl
  | append_singleton l a ih =>
    rw [List.foldl_append, List.foldl_cons, List.foldl_nil, List.filter_append]
    cases hkey : key a with
    | none =>
      have hnone : [a].filter (fun a => key a = some k) = [] := by simp [hkey]
      rw [hnone, List.append_nil]
      exact ih
    | some k' =>
      rw [lookup_insert_eq]
      by_cases hk : k = k'
      · subst hk
        have hone : [a].filter (fun a => key a = some k) = [a] := by simp [hkey]
        rw [if_pos rfl, hone, List.getLast?_concat]
        rfl
      · have hnone : [a].filter (fun a => key a = some k) = [] := by
          simp [hkey, Ne.symm hk]
        rw [if_neg hk, hnone, List.append_nil]
        exact ih

theorem mem_insertKeyed {key : α → Option K} {value : K → α → V} {l : List α} {k : K} :
    k ∈ insertKeyed key value l ↔ ∃ a ∈ l, key a = some k := by
  rw [mem_iff_lookup, lookup_insertKeyed]
  simp only [Option.map_eq_some_iff, exists_comm (α := V), exists_and_left, exists_eq', and_true]
  constructor
  · rintro ⟨a, hlast⟩
    obtain ⟨ha, hkey⟩ := List.mem_filter.mp (List.mem_of_getLast? hlast)
    exact ⟨a, ha, of_decide_eq_true hkey⟩
  · rintro ⟨a, ha, hkey⟩
    exact exists_getLast_filter ha (decide_eq_true hkey)

/-! ### Loops that write a field -/

section
variable {σ τ : Type} {f : σ → α → σ} {field : σ → τ} {writes : α → Bool}

omit [DecidableEq K] in
theorem foldl_set_never {l : List α} (hkeep : ∀ a ∈ l, writes a = false → ∀ s, field (f s a) = field s)
    (hnone : l.filter writes = []) (s : σ) : field (l.foldl f s) = field s := by
  induction l generalizing s with
  | nil => rfl
  | cons a rest ih =>
    obtain ⟨hkeepa, hkeeprest⟩ := List.forall_mem_cons.mp hkeep
    cases ha : writes a with
    | true => simp [ha] at hnone
    | false =>
      rw [List.filter_cons_of_neg (by simp [ha])] at hnone
      rw [List.foldl_cons, ih hkeeprest hnone, hkeepa ha]

omit [DecidableEq K] in
/-- **What is written once** is there at the end. -/
theorem foldl_set_once {l : List α} (hkeep : ∀ a ∈ l, writes a = false → ∀ s, field (f s a) = field s)
    {a : α} (honce : l.filter writes = [a]) {v : τ} (hset : ∀ s, field (f s a) = v) (s : σ) :
    field (l.foldl f s) = v := by
  induction l generalizing s with
  | nil => simp at honce
  | cons b rest ih =>
    obtain ⟨-, hkeeprest⟩ := List.forall_mem_cons.mp hkeep
    cases hb : writes b with
    | true =>
      rw [List.filter_cons_of_pos hb] at honce
      obtain ⟨rfl, hnone⟩ := List.cons.inj honce
      rw [List.foldl_cons, foldl_set_never hkeeprest hnone, hset]
    | false =>
      rw [List.filter_cons_of_neg (by simp [hb])] at honce
      exact ih hkeeprest honce _

end

/-- A key under which all elements have the same value. -/
theorem lookup_insertKeyed_eq_some {key : α → Option K} {value : K → α → V} {l : List α} {k : K}
    (huniq : ∀ a ∈ l, ∀ a' ∈ l, key a = some k → key a' = some k → value k a = value k a') (v : V) :
    (insertKeyed key value l).lookup k = some v ↔ ∃ a ∈ l, key a = some k ∧ value k a = v := by
  rw [lookup_insertKeyed]
  constructor
  · intro h
    obtain ⟨a, hlast, hvalue⟩ := Option.map_eq_some_iff.mp h
    obtain ⟨ha, hkey⟩ := List.mem_filter.mp (List.mem_of_getLast? hlast)
    exact ⟨a, ha, of_decide_eq_true hkey, hvalue⟩
  · rintro ⟨a, ha, hkey, rfl⟩
    obtain ⟨w, hlast⟩ := exists_getLast_filter (p := fun a => key a = some k) ha (decide_eq_true hkey)
    obtain ⟨hw, hkeyw⟩ := List.mem_filter.mp (List.mem_of_getLast? hlast)
    rw [hlast]
    exact congrArg some (huniq w hw a ha (of_decide_eq_true hkeyw) hkey)

/-- **A map that is saved comes back**: each entry as one item, found again under its key if it is
kept. -/
theorem lookup_insertKeyed_filterMap {m : HashMap K V} {l : List α} {key : α → Option K}
    {value : α → V} {keep : V → Bool} (save : K → V → Option α)
    (hmem : ∀ a, a ∈ l ↔ ∃ k v, m.lookup k = some v ∧ save k v = some a)
    (hsave : ∀ k v, m.lookup k = some v →
      ∃ a, save k v = some a ∧ value a = v ∧ key a = if keep v then some k else none) (k : K) :
    (insertKeyed key (fun _ => value) l).lookup k = (m.lookup k).filter keep := by
  have hfound : ∀ a ∈ l, key a = some k → ∃ v, m.lookup k = some v ∧ keep v = true ∧ value a = v := by
    intro a ha hkey
    obtain ⟨k', v, hlookup, hitem⟩ := (hmem a).mp ha
    obtain ⟨a', hitem', hvalue, hkey'⟩ := hsave k' v hlookup
    obtain rfl := Option.some.inj (hitem.symm.trans hitem')
    rw [hkey'] at hkey
    split_ifs at hkey with hkeep
    obtain rfl := Option.some.inj hkey
    exact ⟨v, hlookup, hkeep, hvalue⟩
  refine Option.ext fun v => ?_
  rw [Option.filter_eq_some_iff, lookup_insertKeyed_eq_some]
  · constructor
    · rintro ⟨a, ha, hkey, rfl⟩
      obtain ⟨v, hlookup, hkeep, rfl⟩ := hfound a ha hkey
      exact ⟨hlookup, hkeep⟩
    · rintro ⟨hlookup, hkeep⟩
      obtain ⟨a, hitem, hvalue, hkey⟩ := hsave k v hlookup
      rw [if_pos hkeep] at hkey
      exact ⟨a, (hmem a).mpr ⟨k, v, hlookup, hitem⟩, hkey, hvalue⟩
  · intro a ha a' ha' hkey hkey'
    obtain ⟨v, hlookup, -, rfl⟩ := hfound a ha hkey
    obtain ⟨v', hlookup', -, rfl⟩ := hfound a' ha' hkey'
    exact Option.some.inj (hlookup.symm.trans hlookup')

section Sorted
variable {le : α → α → Bool} (trans : ∀ a b c, le a b = true → le b c = true → le a c = true)
  (total : ∀ a b, (le a b || le b a) = true) {p : α → Bool} {l : List α}

include trans total

/-- **The last element of a kind is a greatest one.** -/
theorem le_of_getLast {w : α} (hw : ((l.mergeSort le).filter p).getLast? = some w) :
    w ∈ l ∧ p w = true ∧ ∀ a ∈ l, p a = true → le a w = true := by
  obtain ⟨init, hinit⟩ := List.getLast?_eq_some_iff.mp hw
  have hmem : w ∈ (l.mergeSort le).filter p := by
    rw [hinit]
    exact List.mem_append_right _ List.mem_cons_self
  obtain ⟨hw, hpw⟩ := List.mem_filter.mp hmem
  have hsorted : (init ++ [w]).Pairwise fun a b => le a b = true := by
    rw [← hinit]
    exact (List.pairwise_mergeSort trans total l).filter p
  refine ⟨List.mem_mergeSort.mp hw, hpw, fun a ha hpa => ?_⟩
  have hin : a ∈ init ++ [w] := by
    rw [← hinit]
    exact List.mem_filter.mpr ⟨List.mem_mergeSort.mpr ha, hpa⟩
  rcases List.mem_append.mp hin with hin | hin
  · exact (List.pairwise_append.mp hsorted).2.2 a hin w List.mem_cons_self
  · rw [List.mem_singleton.mp hin]
    exact (Bool.or_self _).symm.trans (total w w)

/-- The sort keeps elements that are equal in its order as they were. -/
theorem filter_mergeSort_of_ties
    (hties : ∀ a ∈ l, p a = true → ∀ b ∈ l, p b = true → le a b = true) :
    (l.mergeSort le).filter p = l.filter p := by
  have hpairwise : (l.filter p).Pairwise fun a b => le a b = true := by
    refine List.Pairwise.imp_of_mem ?_ (List.pairwise_of_forall (R := fun _ _ => True)
      fun _ _ => trivial)
    intro a b ha hb _
    obtain ⟨ha, hpa⟩ := List.mem_filter.mp ha
    obtain ⟨hb, hpb⟩ := List.mem_filter.mp hb
    exact hties a ha hpa b hb hpb
  have hsub : (l.filter p).Sublist (l.mergeSort le) :=
    List.sublist_mergeSort trans total hpairwise List.filter_sublist
  have hfilter : (l.filter p).Sublist ((l.mergeSort le).filter p) := by
    have h := hsub.filter p
    rw [List.filter_filter] at h
    simpa using h
  refine (hfilter.eq_of_length ?_).symm
  exact ((List.mergeSort_perm l le).filter p).length_eq.symm

/-- **Among equals the last one before the sort wins.** -/
theorem getLast_mergeSort_concat {init : List α} {x : α} (hl : l = init ++ [x]) (hx : p x = true)
    (hmax : ∀ a ∈ l, p a = true → le a x = true) :
    ((l.mergeSort le).filter p).getLast? = some x := by
  have hmem : x ∈ l := hl ▸ List.mem_append_right _ List.mem_cons_self
  have hsorted : x ∈ l.mergeSort le := List.mem_mergeSort.mpr hmem
  obtain ⟨w, hw⟩ := exists_getLast_filter hsorted hx
  obtain ⟨-, -, hgreatest⟩ := le_of_getLast trans total hw
  -- the elements that are equal to `x` in the order
  let q : α → Bool := fun a => p a && le x a
  have hties : (l.mergeSort le).filter q = l.filter q := by
    refine filter_mergeSort_of_ties trans total fun a ha hqa b hb hqb => ?_
    exact trans a x b (hmax a ha (Bool.and_eq_true_iff.mp hqa).1) (Bool.and_eq_true_iff.mp hqb).2
  have hlast : ∀ (m : List α), m.getLast? = some w → (m.filter fun a => le x a).getLast? = some w := by
    intro m hm
    obtain ⟨m, rfl⟩ := List.getLast?_eq_some_iff.mp hm
    rw [List.filter_append, List.filter_cons_of_pos (hgreatest x hmem hx), List.filter_nil,
      List.getLast?_concat]
  have hq : ((l.mergeSort le).filter q).getLast? = some w := by
    have h := hlast _ hw
    rw [List.filter_filter] at h
    simpa only [q, Bool.and_comm] using h
  have hqx : q x = true :=
    Bool.and_eq_true_iff.mpr ⟨hx, (Bool.or_self _).symm.trans (total x x)⟩
  rw [hw, ← hq, hties, hl, List.filter_append, List.filter_cons_of_pos hqx, List.filter_nil,
    List.getLast?_concat]

end Sorted

/-- **An order of iteration can end in any element.** -/
theorem exists_order_concat {l : List α} {x : α} (hx : x ∈ l) :
    ∃ (o : IterOrder) (init : List α), o.order l = init ++ [x] := by
  obtain ⟨pre, post, rfl⟩ := List.append_of_mem hx
  refine ⟨⟨fun m => m.rotate (pre ++ [x]).length, fun m => List.rotate_perm m _⟩, post ++ pre, ?_⟩
  show (pre ++ x :: post).rotate (pre ++ [x]).length = _
  rw [List.append_cons, List.rotate_append_length_eq, List.append_assoc]

end BandixPlus.Lib.LastWins
