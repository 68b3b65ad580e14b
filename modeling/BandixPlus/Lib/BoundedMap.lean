import BandixPlus.Lib.Maps

/-! # Maps with room for so many entries

A map of the kernel holds at most `cap` entries; one more is refused. `raise` changes the value of a key,
or enters a first one if there is room.

* `lookup_raise`, `len_raise_le`: what `raise` does to one key, and that the bound is kept.
* `total_raise`: a sum over the entries grows by what is added, unless the key is refused.
* `Shows.raise`: two maps of which one shows the values of the other, through any function.
* `Tallied.raise`: a map that loses no entries shows the totals of all that came for its keys. -/

namespace BandixPlus.Lib.BoundedMap

open BandixPlus.Lib.Maps

variable {K V W : Type} [DecidableEq K]

/-- Change the value under `k`, or enter `first` if there is room. -/
def raise (cap : ℕ) (k : K) (first : V) (f : V → V) (m : HashMap K V) : HashMap K V :=
  match m.lookup k with
  | some v => m.insert k (f v)
  | none => if len m < cap then m.insert k first else m

/-- There is no room for the key. -/
def Refused (cap : ℕ) (m : HashMap K V) (k : K) : Prop := k ∉ m ∧ cap ≤ len m

instance (cap : ℕ) (m : HashMap K V) (k : K) : Decidable (Refused cap m k) :=
  inferInstanceAs (Decidable (k ∉ m ∧ cap ≤ len m))

section
variable {cap : ℕ} {k : K} {first : V} {f : V → V} {m : HashMap K V}

theorem raise_of_refused (h : Refused cap m k) : raise cap k first f m = m := by
  unfold raise
  rw [AList.lookup_eq_none.mpr h.1]
  exact if_neg (Nat.not_lt.mpr h.2)

theorem raise_of_not_refused (h : ¬ Refused cap m k) :
    raise cap k first f m = m.insert k (((m.lookup k).map f).getD first) := by
  unfold raise
  cases hlookup : m.lookup k with
  | some v => rfl
  | none =>
    have hroom : len m < cap :=
      Nat.lt_of_not_le fun hfull => h ⟨AList.lookup_eq_none.mp hlookup, hfull⟩
    exact if_pos hroom

theorem lookup_raise (k' : K) : (raise cap k first f m).lookup k' =
    if k' = k ∧ ¬ Refused cap m k then some (((m.lookup k).map f).getD first) else m.lookup k' := by
  by_cases h : Refused cap m k
  · rw [raise_of_refused h, if_neg fun hk => hk.2 h]
  · rw [raise_of_not_refused h, lookup_insert_eq]
    simp [h]

theorem len_raise : len (raise cap k first f m) =
    if k ∈ m ∨ Refused cap m k then len m else len m + 1 := by
  by_cases h : Refused cap m k
  · rw [raise_of_refused h, if_pos (Or.inr h)]
  · rw [raise_of_not_refused h, len_insert]
    simp [h]

/-- **The bound is kept.** -/
theorem len_raise_le (h : len m ≤ cap) : len (raise cap k first f m) ≤ cap := by
  rw [len_raise]
  split_ifs with hk
  · exact h
  · have hroom : len m < cap := Nat.lt_of_not_le fun hfull => hk (Or.inr ⟨fun hm => hk (Or.inl hm), hfull⟩)
    omega

theorem len_le_raise : len m ≤ len (raise cap k first f m) := by
  rw [len_raise]
  split_ifs <;> omega

end

/-! ### Sums -/

section
variable {A : Type} [AddCommMonoid A]

/-- The sum of a weight over the entries. -/
def total (w : K → V → A) (m : HashMap K V) : A := (m.entries.map fun e => w e.1 e.2).sum

/-- The weight of a key and the rest. -/
theorem total_of_lookup (w : K → V → A) {m : HashMap K V} {k : K} {v : V} (h : m.lookup k = some v) :
    total w m = w k v + total w (m.erase k) := by
  unfold total
  rw [((entries_perm_kerase h).map _).sum_eq, List.map_cons, List.sum_cons]
  rfl

theorem total_of_notMem (w : K → V → A) {m : HashMap K V} {k : K} (h : k ∉ m) :
    total w (m.erase k) = total w m := by
  have hsame : (m.erase k).entries = m.entries := List.kerase_of_notMem_keys h
  unfold total
  rw [hsame]

theorem total_insert (w : K → V → A) (m : HashMap K V) (k : K) (v : V) :
    total w (m.insert k v) = w k v + total w (m.erase k) := by
  unfold total
  rw [AList.entries_insert, List.map_cons, List.sum_cons]
  rfl

/-- **A sum grows by what is added**, if the weight of the key does, and not at all if it is refused. -/
theorem total_raise (w : K → V → A) {cap : ℕ} {k : K} {first : V} {f : V → V} {m : HashMap K V} {a : A}
    (hf : ∀ v, w k (f v) = w k v + a) (hfirst : w k first = a) :
    total w (raise cap k first f m) = total w m + if Refused cap m k then 0 else a := by
  by_cases h : Refused cap m k
  · rw [raise_of_refused h, if_pos h, add_zero]
  · rw [raise_of_not_refused h, if_neg h, total_insert]
    cases hlookup : m.lookup k with
    | none =>
      rw [total_of_notMem w (AList.lookup_eq_none.mp hlookup), Option.map_none, Option.getD_none, hfirst,
        add_comm]
    | some v =>
      rw [total_of_lookup w hlookup, Option.map_some, Option.getD_some, hf]
      exact add_right_comm _ _ _

/-- An entry that is removed takes its weight with it. -/
theorem total_erase (w : K → V → A) (m : HashMap K V) (k : K) :
    total w (m.erase k) + ((m.lookup k).map (w k)).getD 0 = total w m := by
  cases hlookup : m.lookup k with
  | none =>
    rw [total_of_notMem w (AList.lookup_eq_none.mp hlookup)]
    exact add_zero _
  | some v =>
    rw [total_of_lookup w hlookup]
    exact add_comm _ _

end

/-! ### Maps that show the values of others -/

/-- **Every value of `m'` is that of `m`**, seen through `c`. -/
def Shows (c : V → W) (m : HashMap K V) (m' : HashMap K W) : Prop :=
  ∀ k, m'.lookup k = (m.lookup k).map c

section
variable {c : V → W} {m : HashMap K V} {m' : HashMap K W}

theorem Shows.mem_iff (h : Shows c m m') {k : K} : k ∈ m' ↔ k ∈ m := by
  rw [← AList.lookup_isSome, h k, Option.isSome_map, AList.lookup_isSome]

theorem Shows.len_eq (h : Shows c m m') : len m' = len m := by
  rw [len_eq_keys, len_eq_keys]
  refine List.Perm.length_eq ((List.perm_ext_iff_of_nodup m'.keys_nodup m.keys_nodup).mpr fun k => ?_)
  rw [← AList.mem_keys, ← AList.mem_keys, h.mem_iff]

theorem Shows.refused_iff (h : Shows c m m') {cap : ℕ} {k : K} : Refused cap m' k ↔ Refused cap m k := by
  unfold Refused
  rw [h.mem_iff, h.len_eq]

/-- **Raising keeps the view**, if `c` turns the one change into the other. -/
theorem Shows.raise (h : Shows c m m') {cap : ℕ} {k : K} {first : V} {first' : W} {f : V → V} {f' : W → W}
    (hfirst : first' = c first) (hf : ∀ v, f' (c v) = c (f v)) :
    Shows c (raise cap k first f m) (raise cap k first' f' m') := by
  intro k'
  simp only [lookup_raise, h.refused_iff]
  split_ifs
  · rw [h k, hfirst]
    cases m.lookup k with
    | none => rfl
    | some v => exact congrArg some (hf v)
  · exact h k'

theorem Shows.erase (h : Shows c m m') (k : K) : Shows c (m.erase k) (m'.erase k) := by
  intro k'
  rw [lookup_erase_eq, lookup_erase_eq]
  split_ifs
  · rfl
  · exact h k'

end

/-! ### Maps that show totals -/

/-- **Every value is the total of its key**, seen through `c`; a key without one got nothing, or there is no
room. -/
structure Tallied {A : Type} [AddCommMonoid A] (cap : ℕ) (c : A → V) (m : HashMap K V) (amounts : K → A) :
    Prop where
  shown : ∀ k v, m.lookup k = some v → v = c (amounts k)
  missing : ∀ k, m.lookup k = none → amounts k = 0 ∨ len m = cap
  room : len m ≤ cap

section
variable {A : Type} [AddCommMonoid A] {cap : ℕ} {c : A → V} {m : HashMap K V} {amounts : K → A}

theorem tallied_empty (h : ∀ k, amounts k = 0) : Tallied cap c (∅ : HashMap K V) amounts where
  shown := fun k v hv => by cases hv
  missing := fun k _ => Or.inl (h k)
  room := Nat.zero_le cap

/-- **One more amount for a key**: a key that is refused was refused from the start. -/
theorem Tallied.raise (h : Tallied cap c m amounts) {k : K} {a : A} {first : V} {f : V → V}
    (hfirst : first = c a) (hf : ∀ t, f (c t) = c (t + a)) {amounts' : K → A}
    (hself : amounts' k = amounts k + a) (hother : ∀ k' ≠ k, amounts' k' = amounts k') :
    Tallied cap c (raise cap k first f m) amounts' := by
  refine ⟨fun k' v hv => ?_, fun k' hnone => ?_, len_raise_le h.room⟩
  · rw [lookup_raise] at hv
    split_ifs at hv with hk
    · obtain ⟨rfl, hroom⟩ := hk
      obtain rfl := Option.some.inj hv
      rw [hself]
      cases hlookup : m.lookup k' with
      | some v => rw [Option.map_some, Option.getD_some, h.shown k' v hlookup, hf]
      | none =>
        have hmem : k' ∉ m := AList.lookup_eq_none.mp hlookup
        have hzero : amounts k' = 0 :=
          (h.missing k' hlookup).resolve_right fun hfull => hroom ⟨hmem, hfull.ge⟩
        rw [Option.map_none, Option.getD_none, hfirst, hzero, zero_add]
    · by_cases hself' : k' = k
      · subst hself'
        have hrefused : Refused cap m k' := by simpa using hk
        rw [AList.lookup_eq_none.mpr hrefused.1] at hv
        cases hv
      · rw [hother k' hself', h.shown k' v hv]
  · rw [lookup_raise] at hnone
    split_ifs at hnone with hk
    by_cases hself' : k' = k
    · subst hself'
      have hrefused : Refused cap m k' := by simpa using hk
      rw [raise_of_refused hrefused]
      exact Or.inr (Nat.le_antisymm h.room hrefused.2)
    · rw [hother k' hself']
      rcases h.missing k' hnone with hzero | hfull
      · exact Or.inl hzero
      · exact Or.inr (Nat.le_antisymm (len_raise_le h.room) (hfull.ge.trans len_le_raise))

end

end BandixPlus.Lib.BoundedMap
