import BandixPlus.Lib.LastWins
import BandixPlus.Lib.Tally
import BandixPlus.Monitor.Histogram
import BandixPlus.Monitor.Runtime

/-! # The totals of a histogram

`monitor.rs`, `cumulative_from_completed` and `cumulative_from_all`: the bytes of every interface and
every device, over the completed buckets and the current one. The source has the same code once for
interfaces and once for devices; `key` tells the two apart. A device whose MAC address is not readable
has no total.

* `lookup_fromAll_congr`: the totals depend on the bytes of the completed buckets and on the current
  buckets alone, not on the order in which the maps are iterated. -/

namespace BandixPlus.Monitor.Totals

open BandixPlus.Common BandixPlus.Lib.LastWins BandixPlus.Lib.Maps BandixPlus.Lib.Tally
open BandixPlus.Monitor.Counters BandixPlus.Monitor.Histogram BandixPlus.Monitor.Runtime
open BandixPlus.Net.Text

def addBucketBytes (dst : CounterQuad) (bucket : AggregatedBucket) : CounterQuad :=
  { dst with bytes := addSat dst.bytes bucket.bytes }

/-- The bytes of some buckets. -/
def totalOf (buckets : List AggregatedBucket) : CounterQuad := buckets.foldl addBucketBytes .zero

section Series
variable {K T : Type} [DecidableEq K] [DecidableEq T]

def fromCompleted (o : IterOrder) (key : K → Option T) (m : SeriesMap K) : HashMap T CounterQuad :=
  insertKeyed (fun e => key e.1) (fun _ e => totalOf e.2) (o.order m.completed.entries)

/-- The current buckets on top of these totals. -/
def addCurrent (o : IterOrder) (key : K → Option T) (m : SeriesMap K) (totals : HashMap T CounterQuad) :
    HashMap T CounterQuad :=
  tally (fun e => key e.1) .zero (fun acc e => addBucketBytes acc e.2) (o.order m.current.entries) totals

def fromAll (o : IterOrder) (key : K → Option T) (m : SeriesMap K) : HashMap T CounterQuad :=
  addCurrent o key m (fromCompleted o key m)

end Series

/-- The key of the totals of a device. -/
def deviceTotalKey (key : DeviceSeriesKey) : Option DeviceKey :=
  match macFromStr key.mac with
  | .ok mac => some (key.ifindex, mac)
  | .error _ => none

def cumulativeFromCompleted (o : IterOrder) (h : HistogramHistory) :
    HashMap UInt32 CounterQuad × HashMap DeviceKey CounterQuad :=
  (fromCompleted o some h.iface, fromCompleted o deviceTotalKey h.device)

def cumulativeFromAll (o : IterOrder) (h : HistogramHistory) :
    HashMap UInt32 CounterQuad × HashMap DeviceKey CounterQuad :=
  let (iface, device) := cumulativeFromCompleted o h
  (addCurrent o some h.iface iface, addCurrent o deviceTotalKey h.device device)

/-! ### Sums -/

theorem addBucketBytes_right_comm (acc : CounterQuad) (b b' : AggregatedBucket) :
    addBucketBytes (addBucketBytes acc b) b' = addBucketBytes (addBucketBytes acc b') b := by
  unfold addBucketBytes
  dsimp only
  exact congrArg (CounterQuad.mk acc.bps) (add_right_comm acc.bytes b.bytes b'.bytes)

instance {K : Type} : RightCommutative fun (acc : CounterQuad) (e : Σ _ : K, AggregatedBucket) =>
    addBucketBytes acc e.2 :=
  ⟨fun acc e e' => addBucketBytes_right_comm acc e.2 e'.2⟩

/-- Finalizing keeps the bytes. -/
theorem totalOf_finalize (buckets : List AggregatedBucket) :
    totalOf (buckets.map AggregatedBucket.finalize) = totalOf buckets := by
  unfold totalOf
  rw [List.foldl_map]
  rfl

/-! ### What the totals depend on -/

section Series
variable {K T : Type} [DecidableEq K] [DecidableEq T] {key : K → Option T} {m m' : SeriesMap K}

omit [DecidableEq T] in
theorem completedOf_of_lookup {k : K} {buckets : List AggregatedBucket}
    (h : m.completed.lookup k = some buckets) : completedOf m k = buckets := by
  unfold completedOf
  rw [h]
  rfl

/-- **The total of the series of a key**, if no two series share it. -/
theorem lookup_fromCompleted (o : IterOrder)
    (hinj : ∀ k ∈ m.completed, ∀ k' ∈ m.completed, ∀ t, key k = some t → key k' = some t → k = k')
    (t : T) (q : CounterQuad) : (fromCompleted o key m).lookup t = some q ↔
      ∃ k ∈ m.completed, key k = some t ∧ totalOf (completedOf m k) = q := by
  unfold fromCompleted
  rw [lookup_insertKeyed_eq_some]
  · constructor
    · rintro ⟨e, he, hkey, hq⟩
      have hlookup := mem_order_iff.mp he
      exact ⟨e.1, mem_iff_lookup.mpr ⟨e.2, hlookup⟩, hkey, by rw [completedOf_of_lookup hlookup, hq]⟩
    · rintro ⟨k, hk, hkey, hq⟩
      obtain ⟨buckets, hlookup⟩ := mem_iff_lookup.mp hk
      rw [completedOf_of_lookup hlookup] at hq
      exact ⟨⟨k, buckets⟩, mem_order_iff.mpr hlookup, hkey, hq⟩
  · intro e he e' he' hkey hkey'
    have hlookup := mem_order_iff.mp he
    have hlookup' := mem_order_iff.mp he'
    have hsame := hinj e.1 (mem_iff_lookup.mpr ⟨e.2, hlookup⟩) e'.1
      (mem_iff_lookup.mpr ⟨e'.2, hlookup'⟩) t hkey hkey'
    rw [← completedOf_of_lookup hlookup, ← completedOf_of_lookup hlookup', hsame]

/-- **A key has a total** if one of its series has a completed or a current bucket. -/
theorem mem_fromAll {o : IterOrder} {t : T} :
    t ∈ fromAll o key m ↔ (∃ k ∈ m.completed, key k = some t) ∨ ∃ k ∈ m.current, key k = some t := by
  have hentries : ∀ {V : Type} (m : HashMap K V),
      (∃ e ∈ o.order m.entries, key e.1 = some t) ↔ ∃ k ∈ m, key k = some t := by
    intro V m
    constructor
    · rintro ⟨e, he, hkey⟩
      exact ⟨e.1, mem_iff_lookup.mpr ⟨e.2, mem_order_iff.mp he⟩, hkey⟩
    · rintro ⟨k, hk, hkey⟩
      obtain ⟨v, hv⟩ := mem_iff_lookup.mp hk
      exact ⟨⟨k, v⟩, mem_order_iff.mpr hv, hkey⟩
  unfold fromAll addCurrent fromCompleted
  rw [mem_tally, mem_insertKeyed, hentries, hentries]

/-- **The totals depend on the bytes of the completed buckets and on the current buckets alone.** -/
theorem lookup_fromAll_congr (o o' : IterOrder)
    (hinj : ∀ k ∈ m.completed, ∀ k' ∈ m.completed, ∀ t, key k = some t → key k' = some t → k = k')
    (hkeys : ∀ k, k ∈ m'.completed ↔ k ∈ m.completed)
    (hbytes : ∀ k, totalOf (completedOf m' k) = totalOf (completedOf m k))
    (hcurrent : ∀ k, m'.current.lookup k = m.current.lookup k) (t : T) :
    (fromAll o' key m').lookup t = (fromAll o key m).lookup t := by
  have hperm : (o'.order m'.current.entries).Perm (o.order m.current.entries) :=
    ((o'.perm _).trans (entries_perm hcurrent)).trans (o.perm _).symm
  refine lookup_tally_perm hperm (Option.ext fun q => ?_)
  have hinj' : ∀ k ∈ m'.completed, ∀ k' ∈ m'.completed, ∀ t,
      key k = some t → key k' = some t → k = k' := fun k hk k' hk' =>
    hinj k ((hkeys k).mp hk) k' ((hkeys k').mp hk')
  rw [lookup_fromCompleted o' hinj', lookup_fromCompleted o hinj]
  simp only [hkeys, hbytes]

end Series

end BandixPlus.Monitor.Totals
