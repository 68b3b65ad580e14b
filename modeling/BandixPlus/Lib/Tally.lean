import BandixPlus.Lib.Maps

/-! # Tallies

Elements that are added up in a map, each under its key; the first one of a key makes its entry.

* `lookup_gather`: what is under a key.
* `sum_gather`, `min_sum_gather`: all entries together weigh what the elements weigh, at least up to a
  limit at which the additions stop.
* `lookup_tally`: the same where every entry starts from one value.
* `lookup_tally_perm`: the order of the elements does not matter, if the order of two additions does
  not. -/

namespace BandixPlus.Lib.Tally

open BandixPlus.Lib.Maps

variable {α K V : Type} [DecidableEq K]

/-- Add every element that has a key to what is under it, starting from `zero`. -/
def tally (key : α → Option K) (zero : V) (add : V → α → V) (l : List α) (m : HashMap K V) :
    HashMap K V :=
  l.foldl (fun m a =>
    match key a with
    | some k => upsert k zero (fun v => add v a) m
    | none => m) m

/-- The same, where the first element of a key says what is started from. -/
def gather (key : α → Option K) (start : α → V) (add : V → α → V) (l : List α) (m : HashMap K V) :
    HashMap K V :=
  l.foldl (fun m a =>
    match key a with
    | some k => upsert k (start a) (fun v => add v a) m
    | none => m) m

variable {key : α → Option K} {zero : V} {start : α → V} {add : V → α → V}

/-- The elements of a key. -/
def ofKey (key : α → Option K) (k : K) (l : List α) : List α := l.filter fun a => key a = some k

theorem mem_ofKey {k : K} {l : List α} {a : α} : a ∈ ofKey key k l ↔ a ∈ l ∧ key a = some k := by
  unfold ofKey
  rw [List.mem_filter, decide_eq_true_iff]

theorem ofKey_cons_self {k : K} {a : α} (h : key a = some k) (l : List α) :
    ofKey key k (a :: l) = a :: ofKey key k l :=
  List.filter_cons_of_pos (decide_eq_true h)

theorem ofKey_cons_of_ne {k : K} {a : α} (h : key a ≠ some k) (l : List α) :
    ofKey key k (a :: l) = ofKey key k l :=
  List.filter_cons_of_neg (by rw [decide_eq_true_iff]; exact h)

/-- Elements with different keys make an entry each. -/
theorem perm_gather {f : α → K} {l : List α} (hnodup : (l.map f).Nodup) {m : HashMap K V}
    (hnew : ∀ a ∈ l, f a ∉ m) :
    ((gather (fun a => some (f a)) start add l m).entries.map fun e => e.2).Perm
      ((l.map fun a => add (start a) a) ++ m.entries.map fun e => e.2) := by
  induction l generalizing m with
  | nil => exact List.Perm.refl _
  | cons a rest ih =>
    obtain ⟨ha, hrest⟩ := List.nodup_cons.mp hnodup
    obtain ⟨hnewa, hnewrest⟩ := List.forall_mem_cons.mp hnew
    have hlookup : m.lookup (f a) = none := AList.lookup_eq_none.mpr hnewa
    have hentries : (upsert (f a) (start a) (fun v => add v a) m).entries =
        ⟨f a, add (start a) a⟩ :: m.entries := by
      unfold upsert
      rw [hlookup, Option.getD_none]
      exact AList.entries_insert_of_notMem hnewa
    have hstep := ih hrest (m := upsert (f a) (start a) (fun v => add v a) m) fun b hb hmem => by
      rcases mem_upsert.mp hmem with heq | hmem
      · exact ha (heq ▸ List.mem_map_of_mem hb)
      · exact hnewrest b hb hmem
    rw [hentries] at hstep
    exact hstep.trans List.perm_middle

/-- Every element is counted under one key at most. -/
theorem sum_countP_ofKey_le {ks : List K} (h : ks.Nodup) (p : α → Bool) (l : List α) :
    (ks.map fun k => (ofKey key k l).countP p).sum ≤ l.countP p := by
  induction ks generalizing l with
  | nil => exact Nat.zero_le _
  | cons k rest ih =>
    obtain ⟨hk, hrest⟩ := List.nodup_cons.mp h
    -- the elements of the other keys are among those that are not of this one
    have hother : ∀ k' ∈ rest,
        ofKey key k' l = ofKey key k' (l.filter fun a => !decide (key a = some k)) := by
      intro k' hk'
      have hne : k' ≠ k := fun heq => hk (heq ▸ hk')
      unfold ofKey
      rw [List.filter_filter]
      refine List.filter_congr fun a _ => ?_
      by_cases ha : key a = some k' <;> simp [ha, hne]
    have hmap := List.map_congr_left fun k' hk' => congrArg (List.countP p) (hother k' hk')
    have hle := ih hrest (l.filter fun a => !decide (key a = some k))
    have hsplit := List.countP_eq_countP_filter_add l p fun a => decide (key a = some k)
    rw [List.map_cons, List.sum_cons, hmap, hsplit]
    exact Nat.add_le_add_left hle _

theorem ofKey_perm {l l' : List α} (h : l.Perm l') (k : K) : (ofKey key k l).Perm (ofKey key k l') :=
  h.filter _

/-- **Under a key are the elements of this key**, added to what was there or to what the first of them
starts from. -/
theorem lookup_gather (l : List α) (m : HashMap K V) (k : K) :
    (gather key start add l m).lookup k =
      ((m.lookup k).or ((ofKey key k l).head?.map start)).map fun v => (ofKey key k l).foldl add v := by
  induction l generalizing m with
  | nil =>
    show m.lookup k = ((m.lookup k).or none).map _
    rw [Option.or_none]
    exact Option.map_id'.symm
  | cons a rest ih =>
    show (gather key start add rest _).lookup k = _
    rw [ih]
    dsimp only
    cases hkey : key a with
    | none => rw [ofKey_cons_of_ne (by rw [hkey]; exact Option.some_ne_none k ∘ Eq.symm)]
    | some k' =>
      dsimp only
      rw [lookup_upsert_eq]
      by_cases hk : k = k'
      · subst hk
        rw [if_pos rfl, ofKey_cons_self hkey, List.head?_cons]
        cases m.lookup k <;> rfl
      · rw [if_neg hk, ofKey_cons_of_ne (by rw [hkey]; exact fun h => hk (Option.some.inj h).symm)]

theorem lookup_gather_empty (l : List α) (k : K) :
    (gather key start add l ∅).lookup k =
      (ofKey key k l).head?.map fun a => (ofKey key k l).foldl add (start a) := by
  rw [lookup_gather, AList.lookup_empty, Option.none_or, Option.map_map]
  rfl

theorem mem_gather_empty {l : List α} {k : K} :
    k ∈ gather key start add l ∅ ↔ ∃ a ∈ l, key a = some k := by
  rw [mem_iff_lookup, lookup_gather_empty]
  constructor
  · rintro ⟨v, hv⟩
    obtain ⟨a, ha, -⟩ := Option.map_eq_some_iff.mp hv
    exact ⟨a, mem_ofKey.mp (List.mem_of_head? ha)⟩
  · rintro ⟨a, ha⟩
    have hmem : a ∈ ofKey key k l := mem_ofKey.mpr ha
    cases hl : ofKey key k l with
    | nil => rw [hl] at hmem; cases hmem
    | cons b rest => exact ⟨_, rfl⟩

/-- **Nothing is lost and nothing is counted twice**: where additions are exact below a limit, and all
of the elements stay below it, the entries weigh together what the elements weigh. -/
theorem sum_gather {weight : V → ℕ} {amount : α → ℕ} {limit : ℕ} (hstart : ∀ a, weight (start a) = 0)
    (hadd : ∀ v a, (key a).isSome → weight v + amount a < limit →
      weight (add v a) = weight v + amount a) {l : List α}
    (hnone : ∀ a ∈ l, key a = none → amount a = 0) (m : HashMap K V)
    (hfits : sumOver (fun _ => weight) m + (l.map amount).sum < limit) :
    sumOver (fun _ => weight) (gather key start add l m) =
      sumOver (fun _ => weight) m + (l.map amount).sum := by
  induction l generalizing m with
  | nil => rfl
  | cons a rest ih =>
    obtain ⟨ha, hrest⟩ := List.forall_mem_cons.mp hnone
    rw [List.map_cons, List.sum_cons] at hfits ⊢
    cases hk : key a with
    | none =>
      have hgather : gather key start add (a :: rest) m = gather key start add rest m := by
        unfold gather
        rw [List.foldl_cons, hk]
      have hzero := ha hk
      rw [hgather, ih hrest m (by omega)]
      omega
    | some k =>
      have hreplaced := sumOver_insert (fun _ => weight) m k (add ((m.lookup k).getD (start a)) a)
      have hold : ((m.lookup k).map weight).getD 0 = weight ((m.lookup k).getD (start a)) := by
        cases m.lookup k with
        | none => exact (hstart a).symm
        | some v => rfl
      have hle := lookup_le_sumOver (fun _ => weight) m k
      rw [hadd _ _ (by rw [hk]; rfl) (by omega)] at hreplaced
      have hstep : sumOver (fun _ => weight) (upsert k (start a) (fun v => add v a) m) =
          sumOver (fun _ => weight) m + amount a := by
        show sumOver (fun _ => weight) (m.insert k (add ((m.lookup k).getD (start a)) a)) = _
        omega
      have hgather : gather key start add (a :: rest) m =
          gather key start add rest (upsert k (start a) (fun v => add v a) m) := by
        unfold gather
        rw [List.foldl_cons, hk]
      rw [hgather, ih hrest _ (by omega), hstep, Nat.add_assoc]

/-- Where an addition stops at a limit, all entries together weigh what the elements weigh up to it. -/
theorem min_sum_gather {weight : V → ℕ} {amount : α → ℕ} {limit : ℕ} (hstart : ∀ a, weight (start a) = 0)
    (hadd : ∀ v a, weight (add v a) = min (weight v + amount a) limit) {l : List α}
    (hnone : ∀ a ∈ l, key a = none → amount a = 0) (m : HashMap K V) :
    min (sumOver (fun _ => weight) (gather key start add l m)) limit =
      min (sumOver (fun _ => weight) m + (l.map amount).sum) limit := by
  induction l generalizing m with
  | nil => rfl
  | cons a rest ih =>
    obtain ⟨ha, hrest⟩ := List.forall_mem_cons.mp hnone
    rw [List.map_cons, List.sum_cons]
    cases hk : key a with
    | none =>
      have hgather : gather key start add (a :: rest) m = gather key start add rest m := by
        unfold gather
        rw [List.foldl_cons, hk]
      rw [hgather, ih hrest m, ha hk, Nat.zero_add]
    | some k =>
      have hreplaced := sumOver_insert (fun _ => weight) m k (add ((m.lookup k).getD (start a)) a)
      have hold : ((m.lookup k).map weight).getD 0 = weight ((m.lookup k).getD (start a)) := by
        cases m.lookup k with
        | none => exact (hstart a).symm
        | some v => rfl
      have hle := lookup_le_sumOver (fun _ => weight) m k
      -- the addition is exact, or both sums have reached the limit
      have hstep : min (sumOver (fun _ => weight) (upsert k (start a) (fun v => add v a) m)) limit =
          min (sumOver (fun _ => weight) m + amount a) limit := by
        show min (sumOver (fun _ => weight) (m.insert k (add ((m.lookup k).getD (start a)) a))) limit = _
        rw [hadd] at hreplaced
        omega
      have hgather : gather key start add (a :: rest) m =
          gather key start add rest (upsert k (start a) (fun v => add v a) m) := by
        unfold gather
        rw [List.foldl_cons, hk]
      rw [hgather, ih hrest]
      omega

/-- **Under a key are the elements of this key**, added to what was there. -/
theorem lookup_tally (l : List α) (m : HashMap K V) (k : K) :
    (tally key zero add l m).lookup k =
      if (l.filter fun a => key a = some k) = [] then m.lookup k
      else some ((l.filter fun a => key a = some k).foldl add ((m.lookup k).getD zero)) := by
  have hgather : (tally key zero add l m).lookup k = ((m.lookup k).or
      ((ofKey key k l).head?.map fun _ => zero)).map fun v => (ofKey key k l).foldl add v :=
    lookup_gather l m k
  rw [hgather]
  show _ = if ofKey key k l = [] then _ else some ((ofKey key k l).foldl add _)
  cases ofKey key k l with
  | nil => cases m.lookup k <;> rfl
  | cons a rest => cases m.lookup k <;> rfl

theorem mem_tally {l : List α} {m : HashMap K V} {k : K} :
    k ∈ tally key zero add l m ↔ k ∈ m ∨ ∃ a ∈ l, key a = some k := by
  have hnil : (l.filter fun a => key a = some k) = [] ↔ ¬ ∃ a ∈ l, key a = some k := by
    simp [List.filter_eq_nil_iff]
  rw [mem_iff_lookup, lookup_tally, mem_iff_lookup]
  split_ifs with h
  · exact ⟨Or.inl, fun hor => hor.resolve_right (hnil.mp h)⟩
  · exact ⟨fun _ => Or.inr (not_not.mp fun hno => h (hnil.mpr hno)), fun _ => ⟨_, rfl⟩⟩

/-- **The order does not matter.** -/
theorem lookup_tally_perm [RightCommutative add] {l l' : List α} (h : l.Perm l') {m m' : HashMap K V}
    {k : K} (hm : m.lookup k = m'.lookup k) :
    (tally key zero add l m).lookup k = (tally key zero add l' m').lookup k := by
  have hperm : (l.filter fun a => key a = some k).Perm (l'.filter fun a => key a = some k) :=
    ofKey_perm h k
  have hnil : ((l.filter fun a => key a = some k) = []) =
      ((l'.filter fun a => key a = some k) = []) :=
    propext ⟨fun hl => (hl ▸ hperm).nil_eq.symm, fun hl' => (hl' ▸ hperm).eq_nil⟩
  rw [lookup_tally, lookup_tally, hm, hperm.foldl_eq]
  simp only [hnil]

/-! ### Counts -/

/-- How many elements each key has. -/
def countKeys (key : α → Option K) (l : List α) : HashMap K ℕ := tally key 0 (fun n _ => n + 1) l ∅

theorem countKeys_concat {l : List α} (a : α) :
    countKeys key (l ++ [a]) =
      match key a with
      | some k => upsert k 0 (· + 1) (countKeys key l)
      | none => countKeys key l := by
  unfold countKeys tally
  rw [List.foldl_append, List.foldl_cons, List.foldl_nil]

theorem lookup_countKeys {l : List α} {k : K} {n : ℕ} :
    (countKeys key l).lookup k = some n ↔ 0 < n ∧ n = (ofKey key k l).length := by
  have hlen : ∀ (l : List α) (n : ℕ), l.foldl (fun n _ => n + 1) n = n + l.length := by
    intro l
    induction l with
    | nil => exact fun _ => rfl
    | cons a rest ih =>
      intro n
      rw [List.foldl_cons, ih, List.length_cons]
      omega
  have hlookup : (countKeys key l).lookup k = if ofKey key k l = [] then none
      else some ((ofKey key k l).foldl (fun n _ => n + 1) 0) := lookup_tally l ∅ k
  rw [hlookup, hlen, Nat.zero_add]
  split_ifs with hnil
  · rw [hnil, List.length_nil]
    simp
    omega
  · have hpos := List.length_pos_iff.mpr hnil
    rw [Option.some.injEq]
    omega

theorem sum_countKeys (l : List α) :
    sumOver (fun _ n => n) (countKeys key l) = l.countP fun a => (key a).isSome := by
  have hsum : sumOver (fun _ n => n) (countKeys key l) =
      0 + (l.map fun a => if (key a).isSome then 1 else 0).sum := by
    refine @sum_gather α K ℕ _ key (fun _ => 0) (fun n _ => n + 1) (fun n => n)
      (fun a => if (key a).isSome then 1 else 0) _ (fun _ => rfl) (fun n a hsome _ => ?_) l
      (fun a _ hnone => ?_) ∅ (Nat.lt_succ_self _)
    · rw [if_pos hsome]
    · simp [hnone]
  rw [hsum, Nat.zero_add]
  clear hsum
  induction l with
  | nil => rfl
  | cons a rest ih =>
    rw [List.map_cons, List.sum_cons, List.countP_cons, ih, Nat.add_comm]

end BandixPlus.Lib.Tally
