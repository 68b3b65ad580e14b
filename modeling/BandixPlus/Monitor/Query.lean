import BandixPlus.Lib.Sorting
import BandixPlus.Monitor.Histogram
import BandixPlus.Net.Text
import Mathlib.Data.List.Sort

/-! # Queries of the histogram

`monitor.rs`, `query_aggregate` and `merge_hourly_to_daily`. `none` is a panic of `daily_bucket_local`.

* `queryAggregate_congr`: the answers about completed buckets depend on what the buckets are when
  finalized, on nothing else: not on the order in which a map is iterated. -/

namespace BandixPlus.Monitor.Query

open BandixPlus.Common BandixPlus.Lib.LocalTime BandixPlus.Lib.Maps BandixPlus.Lib.Saturating
open BandixPlus.Lib.Sorting BandixPlus.Monitor.Counters BandixPlus.Monitor.Histogram
open BandixPlus.Monitor.Windows BandixPlus.Net.Text

inductive AggregateBucket where
  | hourly | daily

/-- The order of `sort_by_key(|b| b.start_ts_ms)`. -/
def byStart (a b : AggregatedBucket) : Bool := a.startTsMs ≤ b.startTsMs

def overlaps (startMs endMs : UInt64) (b : AggregatedBucket) : Bool :=
  b.startTsMs ≤ endMs && startMs ≤ b.endTsMs

/-- `query_iface_hourly` and `query_device_hourly`. -/
def queryHourly {K : Type} [DecidableEq K] (m : SeriesMap K) (key : K) (startMs endMs : UInt64) :
    List AggregatedBucket :=
  (((completedOf m key) ++ (m.current.lookup key).toList).filter (overlaps startMs endMs)).mergeSort
    byStart

/-- The lower of two minima, if it is not 0; 0 stands for none yet. -/
def lowerMin (acc b : UInt64) : UInt64 := if acc = 0 ∨ (0 < b ∧ b < acc) then b else acc

/-- Count an hour in the bucket of its day. -/
def mergeBucket (acc b : AggregatedBucket) : AggregatedBucket :=
  let bpsMax := Quad.zip max acc.bpsMax b.bpsMax
  let sampleCount := satAdd acc.sampleCount b.sampleCount
  let bpsSum := addSat acc.bpsSum b.bpsSum
  { acc with
    bytes := addSat acc.bytes b.bytes
    bpsMax
    bpsMin := Quad.zip lowerMin acc.bpsMin b.bpsMin
    bpsP95 := bpsMax
    sampleCount
    bpsSum
    bpsAvg := if 0 < sampleCount then bpsSum.map (· / sampleCount) else acc.bpsAvg }

def mergeDays (daily : UInt64 → Option (UInt64 × UInt64)) :
    HashMap UInt64 AggregatedBucket → List AggregatedBucket →
      Option (HashMap UInt64 AggregatedBucket)
  | byDay, [] => some byDay
  | byDay, b :: rest =>
    (daily b.startTsMs).bind fun (dayStart, dayEnd) =>
      mergeDays daily (upsert dayStart (.empty dayStart dayEnd) (mergeBucket · b) byDay) rest

/-- The values of a map in the order `o`, sorted. -/
def sortedValues (o : IterOrder) (byDay : HashMap UInt64 AggregatedBucket) : List AggregatedBucket :=
  (o.order (byDay.entries.map fun e => e.2)).mergeSort byStart

def mergeHourlyToDaily (o : IterOrder) (z : Zone) (hourly : List AggregatedBucket) :
    Option (List AggregatedBucket) :=
  (mergeDays (dailyBucketLocal z) ∅ hourly).map (sortedValues o)

/-- The first series of a device, completed or else current, in the order `o`. -/
def findKey (o : IterOrder) (m : SeriesMap DeviceSeriesKey) (ifindex : UInt32) (mac : String) :
    Option DeviceSeriesKey :=
  let p := fun k : DeviceSeriesKey => k.ifindex = ifindex && eqIgnoreAsciiCase k.mac mac
  ((o.order m.completed.keys).find? p).or ((o.order m.current.keys).find? p)

/-- The hours of a device, or of the interface if no MAC address is given. -/
def hourlyBuckets (o : IterOrder) (h : HistogramHistory) (ifindex : UInt32) (mac : Option String)
    (startMs endMs : UInt64) : List AggregatedBucket :=
  match mac.filter fun s => trim s ≠ "" with
  | some m =>
    match findKey o h.device ifindex m with
    | some k => queryHourly h.device k startMs endMs
    | none => []
  | none => queryHourly h.iface ifindex startMs endMs

def queryAggregate (o : IterOrder) (z : Zone) (h : HistogramHistory) (ifindex : UInt32)
    (mac : Option String) (startMs endMs : UInt64) (bucket : AggregateBucket) :
    Option (List AggregatedBucket) :=
  let hourly := hourlyBuckets o h ifindex mac startMs endMs
  match bucket with
  | .hourly => some (hourly.map AggregatedBucket.finalize)
  | .daily => (mergeHourlyToDaily o z hourly).map (List.map AggregatedBucket.finalize)

/-! ### Days -/

/-- A day does not depend on the averages and percentiles of its hours. -/
theorem mergeDays_map_finalize (daily : UInt64 → Option (UInt64 × UInt64))
    (byDay : HashMap UInt64 AggregatedBucket) (bs : List AggregatedBucket) :
    mergeDays daily byDay (bs.map AggregatedBucket.finalize) = mergeDays daily byDay bs := by
  induction bs generalizing byDay with
  | nil => rfl
  | cons b rest ih =>
    show (daily b.startTsMs).bind _ = (daily b.startTsMs).bind _
    refine congrArg _ (funext fun day => ?_)
    exact ih _

/-- Each day is entered under its start. -/
def Keyed (byDay : HashMap UInt64 AggregatedBucket) : Prop :=
  ∀ k b, byDay.lookup k = some b → b.startTsMs = k

theorem keyed_mergeDays {daily : UInt64 → Option (UInt64 × UInt64)} {bs : List AggregatedBucket}
    {byDay byDay' : HashMap UInt64 AggregatedBucket} (h : Keyed byDay)
    (heq : mergeDays daily byDay bs = some byDay') : Keyed byDay' := by
  induction bs generalizing byDay with
  | nil =>
    rw [← Option.some.inj heq]
    exact h
  | cons b rest ih =>
    obtain ⟨⟨dayStart, dayEnd⟩, -, heq⟩ := Option.bind_eq_some_iff.mp heq
    refine ih (fun k b' hb' => ?_) heq
    rw [lookup_upsert_eq] at hb'
    split_ifs at hb' with hk
    · rw [← Option.some.inj hb', hk]
      cases hday : byDay.lookup dayStart with
      | none => rfl
      | some b₀ => exact h dayStart b₀ hday
    · exact h k b' hb'

theorem byStart_trans (a b c : AggregatedBucket) (hab : byStart a b = true)
    (hbc : byStart b c = true) : byStart a c = true :=
  decide_eq_true (UInt64.le_trans (of_decide_eq_true hab) (of_decide_eq_true hbc))

theorem byStart_total (a b : AggregatedBucket) : (byStart a b || byStart b a) = true := by
  unfold byStart
  rw [Bool.or_eq_true, decide_eq_true_iff, decide_eq_true_iff]
  exact UInt64.le_total _ _

/-- The days of the answer are those of the map. -/
theorem mem_sortedValues {byDay : HashMap UInt64 AggregatedBucket} (h : Keyed byDay) {o : IterOrder}
    {b : AggregatedBucket} : b ∈ sortedValues o byDay ↔ byDay.lookup b.startTsMs = some b := by
  unfold sortedValues
  rw [List.mem_mergeSort, (o.perm _).mem_iff]
  constructor
  · intro hb
    obtain ⟨⟨k, b'⟩, he, rfl⟩ := List.mem_map.mp hb
    have hlookup : byDay.lookup k = some b' := mem_entries_iff.mp he
    rw [h k b' hlookup]
    exact hlookup
  · intro hlookup
    exact List.mem_map.mpr ⟨⟨b.startTsMs, b⟩, mem_entries_iff.mpr hlookup, rfl⟩

/-- Two days with the same start are one entry. -/
theorem eq_of_byStart {byDay : HashMap UInt64 AggregatedBucket} (h : Keyed byDay) {o : IterOrder}
    {a b : AggregatedBucket} (ha : a ∈ o.order (byDay.entries.map fun e => e.2))
    (hb : b ∈ o.order (byDay.entries.map fun e => e.2)) (hab : byStart a b = true)
    (hba : byStart b a = true) : a = b := by
  have hmem : ∀ c, c ∈ o.order (byDay.entries.map fun e => e.2) →
      byDay.lookup c.startTsMs = some c :=
    fun c hc => (mem_sortedValues h (o := o)).mp (List.mem_mergeSort.mpr hc)
  have hstart := UInt64.le_antisymm (of_decide_eq_true hab) (of_decide_eq_true hba)
  have ha' := hmem a ha
  rw [hstart, hmem b hb] at ha'
  exact (Option.some.inj ha').symm

/-- **The days are sorted the same way in every order of iteration.** -/
theorem sortedValues_order {byDay : HashMap UInt64 AggregatedBucket} (h : Keyed byDay)
    (o o' : IterOrder) : sortedValues o byDay = sortedValues o' byDay :=
  mergeSort_eq_of_perm byStart_trans byStart_total ((o.perm _).trans (o'.perm _).symm)
    fun _ ha _ hb => eq_of_byStart h ha hb

theorem nodup_values {byDay : HashMap UInt64 AggregatedBucket} (h : Keyed byDay) :
    (byDay.entries.map fun e => e.2).Nodup := by
  have hstarts : (byDay.entries.map fun e => e.2).map (fun b => b.startTsMs) = byDay.keys := by
    rw [List.map_map]
    exact List.map_congr_left fun e he => h e.1 e.2 (mem_entries_iff.mp he)
  exact List.Nodup.of_map _ (hstarts ▸ byDay.keys_nodup)

/-- **The days are sorted strictly by their start.** -/
theorem pairwise_sortedValues {byDay : HashMap UInt64 AggregatedBucket} (h : Keyed byDay)
    (o : IterOrder) : (sortedValues o byDay).Pairwise fun a b => a.startTsMs < b.startTsMs := by
  have hnodup := (o.perm (byDay.entries.map fun e => e.2)).nodup_iff.mpr (nodup_values h)
  refine (pairwise_lt_mergeSort byStart_trans byStart_total hnodup
    fun a ha b hb => eq_of_byStart h ha hb).imp fun hle => ?_
  exact UInt64.not_le.mp (of_decide_eq_false hle)

theorem mergeHourlyToDaily_congr (o o' : IterOrder) (z : Zone) {bs bs' : List AggregatedBucket}
    (h : bs.map AggregatedBucket.finalize = bs'.map AggregatedBucket.finalize) :
    mergeHourlyToDaily o z bs = mergeHourlyToDaily o' z bs' := by
  have hdays : mergeDays (dailyBucketLocal z) ∅ bs = mergeDays (dailyBucketLocal z) ∅ bs' := by
    rw [← mergeDays_map_finalize, h, mergeDays_map_finalize]
  unfold mergeHourlyToDaily
  rw [hdays]
  cases hmerge : mergeDays (dailyBucketLocal z) ∅ bs' with
  | none => rfl
  | some byDay =>
    have hkeyed : Keyed byDay := keyed_mergeDays (fun k b hb => by cases hb) hmerge
    exact congrArg some (sortedValues_order hkeyed o o')

/-! ### Hours -/

theorem queryHourly_congr {K : Type} [DecidableEq K] {m m' : SeriesMap K} {key : K}
    (hcur : m.current = ∅) (hcur' : m'.current = ∅)
    (h : (completedOf m key).map AggregatedBucket.finalize =
      (completedOf m' key).map AggregatedBucket.finalize) (startMs endMs : UInt64) :
    (queryHourly m key startMs endMs).map AggregatedBucket.finalize =
      (queryHourly m' key startMs endMs).map AggregatedBucket.finalize := by
  -- filtering and sorting look at the bounds, which finalizing keeps
  have hmap : ∀ m : SeriesMap K, m.current = ∅ →
      (queryHourly m key startMs endMs).map AggregatedBucket.finalize =
        (((completedOf m key).map AggregatedBucket.finalize).filter (overlaps startMs endMs)).mergeSort
          byStart := by
    intro m hcur
    unfold queryHourly
    rw [hcur, AList.lookup_empty, Option.toList_none, List.append_nil, List.filter_map]
    exact List.map_mergeSort fun a _ b _ => rfl
  rw [hmap m hcur, hmap m' hcur', h]

/-- What a search finds, if only one element can be found. -/
theorem find?_unique {α : Type} {p : α → Bool} {l l' : List α} (hmem : ∀ a, a ∈ l ↔ a ∈ l')
    (huniq : ∀ a ∈ l, ∀ b ∈ l, p a = true → p b = true → a = b) : l.find? p = l'.find? p := by
  cases hl : l.find? p with
  | none =>
    refine (List.find?_eq_none.mpr fun a ha => ?_).symm
    exact List.find?_eq_none.mp hl a ((hmem a).mpr ha)
  | some a =>
    have hal := List.mem_of_find?_eq_some hl
    have hap := List.find?_some hl
    cases hl' : l'.find? p with
    | none => exact absurd hap (List.find?_eq_none.mp hl' a ((hmem a).mp hal))
    | some b =>
      have hbl := (hmem b).mpr (List.mem_of_find?_eq_some hl')
      rw [huniq a hal b hbl hap (List.find?_some hl')]

/-- The key of a device is found whatever the order: MAC addresses are kept in one spelling. -/
theorem findKey_congr {m m' : SeriesMap DeviceSeriesKey} (hcur : m.current = ∅)
    (hcur' : m'.current = ∅) (hkeys : ∀ k, k ∈ m.completed ↔ k ∈ m'.completed)
    (hmac : ∀ k ∈ m.completed, ∃ mac, k.mac = macToString mac) (o o' : IterOrder)
    (ifindex : UInt32) (mac : String) : findKey o m ifindex mac = findKey o' m' ifindex mac := by
  have hnone : ∀ (o : IterOrder) (m : SeriesMap DeviceSeriesKey) (p : DeviceSeriesKey → Bool),
      m.current = ∅ → (o.order m.current.keys).find? p = none := by
    intro o m p hcur
    rw [hcur, List.find?_eq_none]
    intro k hk
    cases (o.perm _).mem_iff.mp hk
  unfold findKey
  dsimp only
  rw [hnone o m _ hcur, hnone o' m' _ hcur', Option.or_none, Option.or_none]
  refine find?_unique (fun k => ?_) fun a ha b hb hpa hpb => ?_
  · rw [(o.perm _).mem_iff, (o'.perm _).mem_iff, ← AList.mem_keys, ← AList.mem_keys]
    exact hkeys k
  · obtain ⟨ma, hma⟩ := hmac a (AList.mem_keys.mpr ((o.perm _).mem_iff.mp ha))
    obtain ⟨mb, hmb⟩ := hmac b (AList.mem_keys.mpr ((o.perm _).mem_iff.mp hb))
    obtain ⟨hia, hea⟩ := (Bool.and_eq_true _ _).mp hpa
    obtain ⟨hib, heb⟩ := (Bool.and_eq_true _ _).mp hpb
    unfold eqIgnoreAsciiCase at hea heb
    rw [hma, toAsciiLowercase_macToString, decide_eq_true_iff, ← hma] at hea
    rw [hmb, toAsciiLowercase_macToString, decide_eq_true_iff, ← hmb] at heb
    have hifindex := (of_decide_eq_true hia).trans (of_decide_eq_true hib).symm
    have hmacs := hea.trans heb.symm
    cases a
    cases b
    cases hifindex
    cases hmacs
    rfl

/-- **Answers about completed buckets**: they are the same for two histograms whose completed buckets
are the same when finalized. -/
theorem queryAggregate_congr {h h' : HistogramHistory} (o o' : IterOrder) (z : Zone)
    (hcur : h.iface.current = ∅ ∧ h.device.current = ∅)
    (hcur' : h'.iface.current = ∅ ∧ h'.device.current = ∅)
    (hiface : ∀ i, (completedOf h.iface i).map AggregatedBucket.finalize =
      (completedOf h'.iface i).map AggregatedBucket.finalize)
    (hdevice : ∀ k, (completedOf h.device k).map AggregatedBucket.finalize =
      (completedOf h'.device k).map AggregatedBucket.finalize)
    (hkeys : ∀ k, k ∈ h.device.completed ↔ k ∈ h'.device.completed)
    (hmac : ∀ k ∈ h.device.completed, ∃ mac, k.mac = macToString mac) (ifindex : UInt32)
    (mac : Option String) (startMs endMs : UInt64) (bucket : AggregateBucket) :
    queryAggregate o z h ifindex mac startMs endMs bucket =
      queryAggregate o' z h' ifindex mac startMs endMs bucket := by
  have hhourly : (hourlyBuckets o h ifindex mac startMs endMs).map AggregatedBucket.finalize =
      (hourlyBuckets o' h' ifindex mac startMs endMs).map AggregatedBucket.finalize := by
    unfold hourlyBuckets
    cases mac.filter fun s => trim s ≠ "" with
    | none => exact queryHourly_congr hcur.1 hcur'.1 (hiface ifindex) startMs endMs
    | some m =>
      dsimp only
      rw [findKey_congr hcur.2 hcur'.2 hkeys hmac o o']
      cases findKey o' h'.device ifindex m with
      | none => rfl
      | some k => exact queryHourly_congr hcur.2 hcur'.2 (hdevice k) startMs endMs
  cases bucket with
  | hourly => exact congrArg some hhourly
  | daily =>
    have hdaily := mergeHourlyToDaily_congr o o' z hhourly
    exact congrArg (Option.map (List.map AggregatedBucket.finalize)) hdaily

end BandixPlus.Monitor.Query
