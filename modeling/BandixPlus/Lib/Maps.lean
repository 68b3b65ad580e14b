import Mathlib.Algebra.BigOperators.Group.List.Basic
import Mathlib.Algebra.GroupWithZero.Nat
import Mathlib.Data.List.AList

/-! # Hash maps

A hash map from `K` to `V` is a list of entries with distinct keys (`AList`); the order of the
entries is the order in which the map is iterated. Lookup, insertion and removal are those of
`AList`; this file adds `len`, `retain`, `modify` (a write through `get_mut`), `upsert` (a write
through `entry(..).or_insert(..)`) and `keepFirst` (what a counting `retain` leaves), each with its
lookup lemma. -/

namespace BandixPlus.Lib.Maps

/-- A finite map with a list of entries, keys distinct. -/
abbrev HashMap (K V : Type) := AList fun _ : K => V

/-- An order of iteration: some permutation of the entries. -/
structure IterOrder where
  order : ∀ {α : Type}, List α → List α
  perm : ∀ {α : Type} (l : List α), (order l).Perm l

/-- The order in which the entries are listed. -/
def IterOrder.listed : IterOrder := ⟨fun l => l, fun l => List.Perm.refl l⟩

variable {K V : Type}

/-- The number of entries. -/
def len (m : HashMap K V) : ℕ := m.entries.length

/-- Keep the entries that satisfy `p`. -/
def retain (p : K → V → Bool) (m : HashMap K V) : HashMap K V :=
  ⟨m.entries.filter fun e => p e.1 e.2, by
    have h : ((m.entries.filter fun e => p e.1 e.2).map Sigma.fst).Nodup :=
      m.keys_nodup.sublist (List.filter_sublist.map _)
    exact h⟩

/-- Keep the first `n` entries in the order `o`. -/
def keepFirst (o : IterOrder) (n : ℕ) (m : HashMap K V) : HashMap K V :=
  ⟨(o.order m.entries).take n, by
    have h : ((o.order m.entries).map Sigma.fst).Nodup :=
      ((o.perm m.entries).map Sigma.fst).nodup_iff.mpr m.keys_nodup
    have h' : (((o.order m.entries).take n).map Sigma.fst).Nodup :=
      h.sublist ((List.take_sublist _ _).map _)
    exact h'⟩

variable [DecidableEq K]

/-- Update the value under `k`, if there is one. -/
def modify (k : K) (f : V → V) (m : HashMap K V) : HashMap K V :=
  match m.lookup k with
  | some v => m.insert k (f v)
  | none => m

/-- Update the value under `k`, starting from `d` if there is none. -/
def upsert (k : K) (d : V) (f : V → V) (m : HashMap K V) : HashMap K V :=
  m.insert k (f ((m.lookup k).getD d))

/-! ### Lookup -/

theorem lookup_insert_eq (m : HashMap K V) (k k' : K) (v : V) :
    (m.insert k v).lookup k' = if k' = k then some v else m.lookup k' := by
  by_cases h : k' = k
  · subst h; rw [if_pos rfl, AList.lookup_insert]
  · rw [if_neg h, AList.lookup_insert_ne h]

theorem lookup_erase_eq (m : HashMap K V) (k k' : K) :
    (m.erase k).lookup k' = if k' = k then none else m.lookup k' := by
  by_cases h : k' = k
  · subst h; rw [if_pos rfl, AList.lookup_erase]
  · rw [if_neg h, AList.lookup_erase_ne h]

theorem lookup_erase_of_notMem {m : HashMap K V} {k : K} (h : k ∉ m) (k' : K) :
    (m.erase k).lookup k' = m.lookup k' := by
  rw [lookup_erase_eq]
  split_ifs with hk
  · rw [hk, AList.lookup_eq_none.mpr h]
  · rfl

theorem lookup_upsert_eq (m : HashMap K V) (k k' : K) (d : V) (f : V → V) :
    (upsert k d f m).lookup k' =
      if k' = k then some (f ((m.lookup k).getD d)) else m.lookup k' :=
  lookup_insert_eq _ _ _ _

theorem lookup_modify_eq (m : HashMap K V) (k k' : K) (f : V → V) :
    (modify k f m).lookup k' = if k' = k then (m.lookup k).map f else m.lookup k' := by
  unfold modify
  split
  · next v hv => rw [lookup_insert_eq, hv]; rfl
  · next hv =>
    split_ifs with h
    · subst h; rw [hv]; rfl
    · rfl

theorem mem_entries_iff {m : HashMap K V} {k : K} {v : V} :
    (⟨k, v⟩ : Σ _ : K, V) ∈ m.entries ↔ m.lookup k = some v := by
  rw [← Option.mem_def, AList.mem_lookup_iff]

theorem lookup_retain (p : K → V → Bool) (m : HashMap K V) (k : K) :
    (retain p m).lookup k = (m.lookup k).filter (p k) := by
  refine Option.ext fun v => ?_
  rw [← mem_entries_iff, retain, List.mem_filter, mem_entries_iff, Option.filter_eq_some_iff]

/-- Nothing is dropped if every value is to be kept. -/
theorem lookup_retain_of_forall {q : V → Prop} [DecidablePred q] {m : HashMap K V}
    (hall : ∀ k v, m.lookup k = some v → q v) (k : K) :
    (retain (fun _ v => q v) m).lookup k = m.lookup k := by
  rw [lookup_retain]
  cases hlookup : m.lookup k with
  | none => rfl
  | some v => exact Option.filter_some_pos (decide_eq_true (hall k v hlookup))

theorem mem_iff_lookup {m : HashMap K V} {k : K} : k ∈ m ↔ ∃ v, m.lookup k = some v := by
  rw [← AList.lookup_isSome, Option.isSome_iff_exists]

omit [DecidableEq K] in
/-- A key stays, and comes with an element that enters it, in a loop that removes none. -/
theorem mem_foldl {α : Type} {f : HashMap K V → α → HashMap K V}
    (hkeep : ∀ m a k, k ∈ m → k ∈ f m a) {k : K} (l : List α) {m : HashMap K V}
    (h : k ∈ m ∨ ∃ a ∈ l, ∀ m, k ∈ f m a) : k ∈ l.foldl f m := by
  induction l generalizing m with
  | nil =>
    rcases h with h | ⟨a, ha, -⟩
    · exact h
    · exact absurd ha List.not_mem_nil
  | cons b rest ih =>
    refine ih ?_
    rcases h with h | ⟨a, ha, henter⟩
    · exact Or.inl (hkeep m b k h)
    · rcases List.mem_cons.mp ha with rfl | ha
      · exact Or.inl (henter m)
      · exact Or.inr ⟨a, ha, henter⟩

theorem mem_upsert {m : HashMap K V} {k k' : K} {d : V} {f : V → V} :
    k' ∈ upsert k d f m ↔ k' = k ∨ k' ∈ m := AList.mem_insert _

theorem mem_modify {m : HashMap K V} {k k' : K} {f : V → V} : k' ∈ modify k f m ↔ k' ∈ m := by
  unfold modify
  split
  · next v hv =>
    rw [AList.mem_insert, or_iff_right_iff_imp]
    rintro rfl
    exact mem_iff_lookup.mpr ⟨v, hv⟩
  · rfl

/-- The entries in any order of iteration are those of the map. -/
theorem mem_order_iff {o : IterOrder} {m : HashMap K V} {e : Σ _ : K, V} :
    e ∈ o.order m.entries ↔ m.lookup e.1 = some e.2 :=
  (o.perm m.entries).mem_iff.trans mem_entries_iff

/-- Two maps with the same values have the same entries. -/
theorem entries_perm {m m' : HashMap K V} (h : ∀ k, m.lookup k = m'.lookup k) :
    m.entries.Perm m'.entries :=
  List.lookup_ext m.nodupKeys m'.nodupKeys fun k v => by
    have hk : m.entries.dlookup k = m'.entries.dlookup k := h k
    rw [hk]

/-- The entry of a key and the others. -/
theorem entries_perm_kerase {m : HashMap K V} {k : K} {v : V} (h : m.lookup k = some v) :
    m.entries.Perm (⟨k, v⟩ :: List.kerase k m.entries) := by
  have hk : k ∈ m.entries.keys := AList.mem_keys.mp (mem_iff_lookup.mpr ⟨v, h⟩)
  obtain ⟨v', l₁, l₂, -, hsplit, herase⟩ := List.exists_of_kerase hk
  have hlookup : m.lookup k = some v' := mem_entries_iff.mp (by rw [hsplit]; simp)
  rw [h, Option.some.injEq] at hlookup
  rw [herase, hsplit, hlookup]
  exact List.perm_middle

omit [DecidableEq K] in
theorem nodup_order_keys (o : IterOrder) (m : HashMap K V) :
    ((o.order m.entries).map Sigma.fst).Nodup :=
  ((o.perm m.entries).map Sigma.fst).nodup_iff.mpr m.keys_nodup

/-- Entries that are inserted one by one, each under its own key, replace those of the map. -/
theorem lookup_foldl_insert {W : Type} (f : K → W → V) (k : K) {l : List (Σ _ : K, W)}
    (hnodup : l.NodupKeys) (m : HashMap K V) :
    (l.foldl (fun m e => m.insert e.1 (f e.1 e.2)) m).lookup k =
      ((l.dlookup k).map (f k)).or (m.lookup k) := by
  induction l generalizing m with
  | nil => rfl
  | cons e rest ih =>
    obtain ⟨hnotMem, hrest⟩ := List.nodupKeys_cons.mp hnodup
    rw [List.foldl_cons, ih hrest, lookup_insert_eq]
    by_cases hk : k = e.1
    · subst hk
      rw [if_pos rfl, List.dlookup_eq_none.mpr hnotMem, List.dlookup_cons_eq]
      rfl
    · rw [if_neg hk, List.dlookup_cons_ne _ _ hk]

/-- The order of iteration does not matter to a lookup. -/
theorem dlookup_order (o : IterOrder) (m : HashMap K V) (k : K) :
    (o.order m.entries).dlookup k = m.lookup k :=
  (List.perm_dlookup k m.nodupKeys (o.perm m.entries).symm).symm

/-! ### Size -/

omit [DecidableEq K] in
theorem len_eq_keys (m : HashMap K V) : len m = m.keys.length := by
  simp [len, AList.keys, List.keys]

theorem len_erase (m : HashMap K V) (k : K) :
    len (m.erase k) = if k ∈ m then len m - 1 else len m := by
  rw [len_eq_keys, len_eq_keys, AList.keys_erase]
  split_ifs with h
  · exact List.length_erase_of_mem (AList.mem_keys.mp h)
  · rw [List.erase_of_not_mem fun hk => h (AList.mem_keys.mpr hk)]

theorem len_insert (m : HashMap K V) (k : K) (v : V) :
    len (m.insert k v) = if k ∈ m then len m else len m + 1 := by
  have he := len_erase m k
  have hpos : k ∈ m → 0 < len m := fun h => by
    rw [len_eq_keys]; exact List.length_pos_of_mem (AList.mem_keys.mp h)
  have hi : len (m.insert k v) = len (m.erase k) + 1 := by
    rw [len_eq_keys, len_eq_keys, AList.keys_insert, AList.keys_erase]; rfl
  rw [hi, he]
  split_ifs with h
  · have := hpos h; omega
  · rfl

omit [DecidableEq K] in
theorem len_keepFirst_le (o : IterOrder) (n : ℕ) (m : HashMap K V) : len (keepFirst o n m) ≤ n :=
  List.length_take_le _ _

/-! ### Sums -/

/-- The sum of a weight over the entries. -/
def sumOver (w : K → V → ℕ) (m : HashMap K V) : ℕ := (m.entries.map fun e => w e.1 e.2).sum

/-- **An insertion replaces the weight of the key.** -/
theorem sumOver_insert (w : K → V → ℕ) (m : HashMap K V) (k : K) (v : V) :
    sumOver w (m.insert k v) + ((m.lookup k).map (w k)).getD 0 = sumOver w m + w k v := by
  have hnew : sumOver w (m.insert k v) =
      w k v + ((List.kerase k m.entries).map fun e => w e.1 e.2).sum := by
    unfold sumOver
    rw [AList.entries_insert, List.map_cons, List.sum_cons]
  have hold : sumOver w m = ((m.lookup k).map (w k)).getD 0 +
      ((List.kerase k m.entries).map fun e => w e.1 e.2).sum := by
    unfold sumOver
    cases hlookup : m.lookup k with
    | some v' => rw [((entries_perm_kerase hlookup).map _).sum_eq, List.map_cons, List.sum_cons]; rfl
    | none =>
      have hnone : k ∉ m.entries.keys := AList.lookup_eq_none.mp hlookup
      rw [List.kerase_of_notMem_keys hnone, Option.map_none, Option.getD_none, Nat.zero_add]
  rw [hnew, hold]
  omega

theorem lookup_le_sumOver (w : K → V → ℕ) (m : HashMap K V) (k : K) :
    ((m.lookup k).map (w k)).getD 0 ≤ sumOver w m := by
  cases hlookup : m.lookup k with
  | none => exact Nat.zero_le _
  | some v =>
    unfold sumOver
    rw [((entries_perm_kerase hlookup).map _).sum_eq, List.map_cons, List.sum_cons]
    exact Nat.le_add_right _ _

omit [DecidableEq K] in
/-- The order of iteration does not matter to a sum. -/
theorem sum_order (o : IterOrder) (w : (Σ _ : K, V) → ℕ) (m : HashMap K V) :
    ((o.order m.entries).map w).sum = (m.entries.map w).sum :=
  ((o.perm m.entries).map w).sum_eq

end BandixPlus.Lib.Maps
