import BandixPlus.Lib.RingBuffer
import BandixPlus.Lib.Tally

/-! # The newest of every log

A map that keeps of one log for each key the last `w` elements. `Shows w log m` says that these are in the
map `m`; a log that is empty may have no entry.

* `Shows.recordAll`: elements that are recorded in turn enter the logs of their keys.
* `Shows.retain`: keys that are dropped have empty logs from then on.
* `flatMap_order`: the lists of the keys that are asked for, where all but one of them are empty. -/

namespace BandixPlus.Lib.Windowed

open BandixPlus.Lib.Maps BandixPlus.Lib.RingBuffer BandixPlus.Lib.Tally

variable {K α β : Type} [DecidableEq K]

/-- One more element under a key, and of its log the last `w`. -/
def record (w : ℕ) (k : K) (a : α) (m : HashMap K (List α)) : HashMap K (List α) :=
  upsert k [] (fun queue => (queue ++ [a]).rtake w) m

/-- The elements of a list, each under its key if it has one. -/
def recordAll (w : ℕ) (key : β → Option K) (f : β → α) (l : List β) (m : HashMap K (List α)) :
    HashMap K (List α) :=
  l.foldl (fun m b =>
    match key b with
    | some k => record w k (f b) m
    | none => m) m

/-- The map has the last `w` elements of every log. -/
def Shows (w : ℕ) (log : K → List α) (m : HashMap K (List α)) : Prop :=
  ∀ k, (m.lookup k).getD [] = (log k).rtake w

variable {w : ℕ} {log : K → List α} {m : HashMap K (List α)}

theorem shows_empty (w : ℕ) : Shows w (fun _ => []) (∅ : HashMap K (List α)) := fun k => by
  rw [AList.lookup_empty]
  exact (rtake_of_le [] (Nat.zero_le w)).symm

theorem Shows.record (h : Shows w log m) (k : K) (a : α) :
    Shows w (fun k' => if k' = k then log k' ++ [a] else log k') (record w k a m) := by
  intro k'
  unfold Windowed.record
  dsimp only
  rw [lookup_upsert_eq]
  split_ifs with hk
  · rw [hk, Option.getD_some, h k, rtake_append_rtake]
  · exact h k'

/-- **Elements that are recorded in turn** enter the logs of their keys, in their order. -/
theorem Shows.recordAll (h : Shows w log m) (key : β → Option K) (f : β → α) (l : List β) :
    Shows w (fun k => log k ++ (ofKey key k l).map f) (Windowed.recordAll w key f l m) := by
  unfold Windowed.recordAll
  induction l generalizing log m with
  | nil =>
    intro k
    dsimp only [List.foldl_nil]
    rw [h k, show ofKey key k ([] : List β) = [] from rfl, List.map_nil, List.append_nil]
  | cons b rest ih =>
    rw [List.foldl_cons]
    cases hkey : key b with
    | none =>
      have hskip : ∀ k, ofKey key k (b :: rest) = ofKey key k rest := fun k =>
        ofKey_cons_of_ne (by rw [hkey]; exact Option.some_ne_none k ∘ Eq.symm) rest
      simp only [hskip]
      exact ih h
    | some k₀ =>
      have hnext := ih (h.record k₀ (f b))
      intro k
      refine (hnext k).trans (congrArg (fun l : List α => l.rtake w) ?_)
      dsimp only
      split_ifs with hk
      · subst hk
        rw [ofKey_cons_self hkey, List.map_cons, List.append_assoc, List.singleton_append]
      · rw [ofKey_cons_of_ne (by rw [hkey]; exact fun heq => hk (Option.some.inj heq).symm)]

/-- **What is dropped begins a new log.** -/
theorem Shows.retain (h : Shows w log m) (p : K → Bool) :
    Shows w (fun k => if p k then log k else []) (retain (fun k _ => p k) m) := by
  intro k
  dsimp only
  rw [lookup_retain]
  cases hp : p k with
  | true =>
    have hkept : (m.lookup k).filter (fun _ => true) = m.lookup k := by
      cases m.lookup k <;> rfl
    rw [if_pos rfl, hkept]
    exact h k
  | false =>
    have hgone : (m.lookup k).filter (fun _ => false) = none := by
      cases m.lookup k <;> rfl
    rw [if_neg Bool.false_ne_true, hgone]
    exact (rtake_of_le [] (Nat.zero_le w)).symm

omit [DecidableEq K] in
theorem flatMap_of_forall {p : K → Bool} {l : List (Σ _ : K, List α)}
    (h : ∀ e ∈ l, p e.1 = true → e.2 = []) : ((l.filter fun e => p e.1).flatMap fun e => e.2) = [] := by
  refine List.flatMap_eq_nil_iff.mpr fun e he => ?_
  obtain ⟨hmem, hp⟩ := List.mem_filter.mp he
  exact h e hmem hp

theorem flatMap_of_nodupKeys {p : K → Bool} {k : K} (hk : p k = true) {l : List (Σ _ : K, List α)}
    (hnodup : l.NodupKeys) (h : ∀ e ∈ l, p e.1 = true → e.1 ≠ k → e.2 = []) :
    ((l.filter fun e => p e.1).flatMap fun e => e.2) = (l.dlookup k).getD [] := by
  induction l with
  | nil => rfl
  | cons e rest ih =>
    obtain ⟨k', v⟩ := e
    obtain ⟨hnotMem, hrest⟩ := List.nodupKeys_cons.mp hnodup
    obtain ⟨he, hothers⟩ := List.forall_mem_cons.mp h
    by_cases heq : k' = k
    · subst heq
      have hnil := flatMap_of_forall (p := p) (l := rest) fun e he hp =>
        hothers e he hp fun heq => hnotMem (List.mem_map.mpr ⟨e, he, heq⟩)
      rw [List.filter_cons, if_pos hk, List.flatMap_cons, hnil, List.append_nil, List.dlookup_cons_eq,
        Option.getD_some]
    · rw [List.dlookup_cons_ne _ _ (Ne.symm heq), ← ih hrest hothers]
      cases hp : p k' with
      | false => rw [List.filter_cons, if_neg (by rw [hp]; exact Bool.false_ne_true)]
      | true =>
        have hnil : v = [] := he hp heq
        rw [List.filter_cons, if_pos hp, List.flatMap_cons, hnil, List.nil_append]

/-- **The lists that are asked for**, in any order of iteration, where only one has elements. -/
theorem flatMap_order (o : IterOrder) (m : HashMap K (List α)) {p : K → Bool} {k : K} (hk : p k = true)
    (h : ∀ k' l, m.lookup k' = some l → p k' = true → k' ≠ k → l = []) :
    (((o.order m.entries).filter fun e => p e.1).flatMap fun e => e.2) = (m.lookup k).getD [] := by
  have hnodup : (o.order m.entries).NodupKeys := nodup_order_keys o m
  rw [flatMap_of_nodupKeys hk hnodup fun e he => h e.1 e.2 (mem_order_iff.mp he), dlookup_order]

end BandixPlus.Lib.Windowed
