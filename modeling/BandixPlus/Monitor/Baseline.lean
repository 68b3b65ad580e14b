import BandixPlus.Lib.Sampling
import BandixPlus.Monitor.Runtime

/-! # Baselines

The counters of a kernel map are read as a whole, and a loop takes from each the bytes since the last
reading. The loops over the software and over the hardware counters share this part.

* `lookup_rebase`: after the loop the baseline of a counter that was read is the value that was read.
* `deltaSum_deltas`: the bytes that the loop counted for a key. -/

namespace BandixPlus.Monitor.Baseline

open BandixPlus.Common BandixPlus.Lib.Maps BandixPlus.Lib.Sampling BandixPlus.Monitor.Runtime

variable {K : Type} [DecidableEq K]

/-- The baselines after the loop. -/
def rebase (prev : HashMap K UInt64) (es : List (Σ _ : K, TrafficValue)) : HashMap K UInt64 :=
  es.foldl (fun m e => m.insert e.1 e.2.bytes) prev

/-- **The deltas of the loop**, each against the baseline at its turn. -/
def deltas (prev : HashMap K UInt64) : List (Σ _ : K, TrafficValue) → List (K × UInt64)
  | [] => []
  | e :: rest =>
    (e.1, deltaBytes e.2.bytes ((prev.lookup e.1).getD 0)) ::
      deltas (prev.insert e.1 e.2.bytes) rest

/-- The bytes of a key among some deltas. -/
def deltaSum (k : K) (ds : List (K × UInt64)) : ℕ :=
  (ds.map fun d => if d.1 = k then d.2.toNat else 0).sum

/-- The bytes of a key, 0 if it is not there. -/
def bytesOf (m : HashMap K TrafficValue) (k : K) : ℕ :=
  ((m.lookup k).map fun v => v.bytes.toNat).getD 0

/-- The baseline of a key, 0 if it is not there. -/
def baseOf (prev : HashMap K UInt64) (k : K) : ℕ := ((prev.lookup k).map UInt64.toNat).getD 0

theorem toNat_deltaBytes {current prev : UInt64} (h : prev.toNat ≤ current.toNat) :
    (deltaBytes current prev).toNat = current.toNat - prev.toNat := by
  unfold deltaBytes
  have hle : prev ≤ current := UInt64.le_iff_toNat_le.mpr h
  rw [if_pos hle, UInt64.toNat_sub_of_le _ _ hle]

theorem lookup_rebase_of_notMem {es : List (Σ _ : K, TrafficValue)} {prev : HashMap K UInt64} {k : K}
    (h : k ∉ es.map Sigma.fst) : (rebase prev es).lookup k = prev.lookup k := by
  induction es generalizing prev with
  | nil => rfl
  | cons e rest ih =>
    rw [List.map_cons, List.mem_cons, not_or] at h
    exact (ih h.2).trans (AList.lookup_insert_ne h.1)

theorem lookup_rebase_of_mem {es : List (Σ _ : K, TrafficValue)} (hdistinct : (es.map Sigma.fst).Nodup)
    {prev : HashMap K UInt64} {k : K} {v : TrafficValue} (h : ⟨k, v⟩ ∈ es) :
    (rebase prev es).lookup k = some v.bytes := by
  induction es generalizing prev with
  | nil => exact absurd h List.not_mem_nil
  | cons e rest ih =>
    rw [List.map_cons, List.nodup_cons] at hdistinct
    rcases List.mem_cons.mp h with rfl | h
    · exact (lookup_rebase_of_notMem hdistinct.1).trans (AList.lookup_insert _)
    · exact ih hdistinct.2 h

theorem deltaSum_of_notMem {es : List (Σ _ : K, TrafficValue)} {prev : HashMap K UInt64} {k : K}
    (h : k ∉ es.map Sigma.fst) : deltaSum k (deltas prev es) = 0 := by
  induction es generalizing prev with
  | nil => rfl
  | cons e rest ih =>
    rw [List.map_cons, List.mem_cons, not_or] at h
    have hrest := @ih (prev.insert e.1 e.2.bytes) h.2
    unfold deltaSum at hrest ⊢
    rw [deltas, List.map_cons, List.sum_cons, hrest, if_neg (Ne.symm h.1)]

theorem deltaSum_of_mem {es : List (Σ _ : K, TrafficValue)} (hdistinct : (es.map Sigma.fst).Nodup)
    {prev : HashMap K UInt64} {k : K} {v : TrafficValue} (h : ⟨k, v⟩ ∈ es) :
    deltaSum k (deltas prev es) = (deltaBytes v.bytes ((prev.lookup k).getD 0)).toNat := by
  induction es generalizing prev with
  | nil => exact absurd h List.not_mem_nil
  | cons e rest ih =>
    rw [List.map_cons, List.nodup_cons] at hdistinct
    have hcons : deltaSum k (deltas prev (e :: rest)) =
        (if e.1 = k then (deltaBytes e.2.bytes ((prev.lookup e.1).getD 0)).toNat else 0) +
          deltaSum k (deltas (prev.insert e.1 e.2.bytes) rest) := by
      unfold deltaSum
      rw [deltas, List.map_cons, List.sum_cons]
    rw [hcons]
    rcases List.mem_cons.mp h with rfl | h
    · rw [if_pos rfl, deltaSum_of_notMem hdistinct.1, Nat.add_zero]
    · have hne : k ≠ e.1 := fun heq => hdistinct.1 (heq ▸ List.mem_map_of_mem h)
      rw [if_neg (Ne.symm hne), ih hdistinct.2 h, AList.lookup_insert_ne hne, Nat.zero_add]

section Loop
variable (o : IterOrder) (stats : HashMap K TrafficValue) (prev : HashMap K UInt64) (k : K)

theorem lookup_rebase : (rebase prev (o.order stats.entries)).lookup k =
    ((stats.lookup k).map TrafficValue.bytes).or (prev.lookup k) := by
  cases hk : stats.lookup k with
  | none =>
    refine lookup_rebase_of_notMem fun hmem => ?_
    obtain ⟨e, he, rfl⟩ := List.mem_map.mp hmem
    rw [mem_order_iff.mp he] at hk
    cases hk
  | some v => exact lookup_rebase_of_mem (nodup_order_keys o stats) (mem_order_iff.mpr hk)

/-- **What the loop counts for a key**, if its counter did not go back. -/
theorem deltaSum_deltas (hle : k ∈ stats → baseOf prev k ≤ bytesOf stats k) :
    deltaSum k (deltas prev (o.order stats.entries)) =
      if k ∈ stats then bytesOf stats k - baseOf prev k else 0 := by
  by_cases hmem : k ∈ stats
  · obtain ⟨v, hv⟩ := mem_iff_lookup.mp hmem
    have hbytes : bytesOf stats k = v.bytes.toNat := by
      unfold bytesOf
      rw [hv]
      rfl
    have hbase : baseOf prev k = ((prev.lookup k).getD 0).toNat := by
      unfold baseOf
      cases prev.lookup k <;> rfl
    have hle := hle hmem
    rw [hbytes, hbase] at hle
    rw [if_pos hmem, deltaSum_of_mem (nodup_order_keys o stats) (mem_order_iff.mpr hv), hbytes, hbase]
    exact toNat_deltaBytes hle
  · rw [if_neg hmem]
    refine deltaSum_of_notMem fun hk => hmem ?_
    obtain ⟨e, he, rfl⟩ := List.mem_map.mp hk
    exact mem_iff_lookup.mpr ⟨e.2, mem_order_iff.mp he⟩

theorem baseOf_rebase : baseOf (rebase prev (o.order stats.entries)) k =
    if k ∈ stats then bytesOf stats k else baseOf prev k := by
  unfold baseOf bytesOf
  rw [lookup_rebase]
  by_cases hmem : k ∈ stats
  · obtain ⟨v, hv⟩ := mem_iff_lookup.mp hmem
    rw [if_pos hmem, hv]
    rfl
  · rw [if_neg hmem, AList.lookup_eq_none.mpr hmem]
    rfl

end Loop

end BandixPlus.Monitor.Baseline
