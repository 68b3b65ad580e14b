import BandixPlus.Api.Aggregate
import BandixPlus.Monitor.Registry

/-! # Bytes of a range

`query_aggregate` over a range that is cut in two, and over days instead of hours; `api.rs`, the
handler of `/api/usage_ranking`, which adds up days, and the period view of `/api/devices`, which adds
up hours.

* `ranges_agree_iff`: every byte of a range is counted in exactly one of its parts, and in hours as in
  days, if and only if every hour of the range has a day. Where one has none, the query panics. -/

namespace BandixPlus.Api.Usage

open BandixPlus.Api.Aggregate BandixPlus.Common BandixPlus.Lib.LocalTime BandixPlus.Lib.Maps
open BandixPlus.Lib.Saturating BandixPlus.Lib.Sorting BandixPlus.Lib.Tally
open BandixPlus.Monitor.Counters BandixPlus.Monitor.Daily BandixPlus.Monitor.Histogram
open BandixPlus.Monitor.Query BandixPlus.Monitor.Runtime BandixPlus.Monitor.Snapshot
open BandixPlus.Monitor.Totals BandixPlus.Monitor.Windows BandixPlus.Net.Text

/-! ### The handlers -/

def upBytes (q : Quad UInt64) : UInt64 := satAdd q.upV4 q.upV6

def downBytes (q : Quad UInt64) : UInt64 := satAdd q.downV4 q.downV6

/-- The loop of `usage_ranking` over the buckets of a device: bytes up and down. -/
def usageBytes (tt : HistoryTrafficType) (buckets : List AggregatedBucket) : UInt64 × UInt64 :=
  (buckets.map (withTrafficType tt)).foldl
    (fun sum b => (satAdd sum.1 (upBytes b.bytes), satAdd sum.2 (downBytes b.bytes))) (0, 0)

structure UsageRankingItem where
  iface : String
  mac : String
  hostname : String
  ipv4 : List String
  ipv6 : List String
  upBytes : UInt64
  downBytes : UInt64
  totalBytes : UInt64

/-- The item of a device with these bytes, if there are any. -/
def rankingItem (mac : String) (dev : KnownDevice) (bytes : UInt64 × UInt64) :
    Option UsageRankingItem :=
  let total := satAdd bytes.1 bytes.2
  if total = 0 then none
  else some
    { iface := dev.logicalIface
      mac
      hostname := dev.hostname
      ipv4 := dev.ipv4
      ipv6 := dev.ipv6
      upBytes := bytes.1
      downBytes := bytes.2
      totalBytes := total }

def rankingLe (a b : UsageRankingItem) : Bool :=
  b.totalBytes < a.totalBytes || (a.totalBytes = b.totalBytes && a.mac ≤ b.mac)

/-- `cumulative_from_buckets`. -/
def cumulativeFromBuckets (buckets : List AggregatedBucket) : CounterQuad :=
  buckets.foldl addBucketBytes .zero

section
variable (o : IterOrder) (z : Zone) (histogram : HistogramHistory) (startMs endMs : UInt64)

/-- What the ranking has of an entry of the registry; `none` is a panic. -/
def usageItem (tt : HistoryTrafficType) (e : Σ _ : DeviceKey, KnownDevice) :
    Option (Option UsageRankingItem) :=
  (queryAggregate o z histogram e.1.1 (some (macToString e.1.2)) startMs endMs .daily).map fun buckets =>
    rankingItem (macToString e.1.2) e.2 (usageBytes tt buckets)

/-- The ranking of the devices of an interface, or of all devices where none is given. -/
def usageRanking (registry : HashMap DeviceKey KnownDevice) (ifindex : Option UInt32)
    (tt : HistoryTrafficType) (limit : Option ℕ) : Option (List UsageRankingItem) :=
  let entries := (o.order registry.entries).filter fun e => ifindex.all (· = e.1.1)
  (entries.mapM (usageItem o z histogram startMs endMs tt)).map fun items =>
    let ranked := (items.filterMap id).mergeSort rankingLe
    match limit.filter (0 < ·) with
    | some n => ranked.take n
    | none => ranked

/-- A row of `devices` with a period. -/
def periodRow (item : DeviceListItem) : Option DeviceListItem :=
  (queryAggregate o z histogram item.ifindex (some item.mac) startMs endMs .hourly).map fun buckets =>
    { item with cumulative := cumulativeFromBuckets buckets }

end

/-! ### What is said of a range -/

/-- The bytes of one of the four kinds in a bucket. -/
def amount (l : Lane) (b : AggregatedBucket) : ℕ := (b.bytes.get l).toNat

def total (l : Lane) (buckets : List AggregatedBucket) : ℕ := (buckets.map (amount l)).sum

/-- The bytes up and down that a row with these counters stands for. -/
def shownBytes (tt : HistoryTrafficType) (c : CounterQuad) : UInt64 × UInt64 :=
  (upBytes (keepFamily tt c.bytes), downBytes (keepFamily tt c.bytes))

section
variable (o : IterOrder) (z : Zone) (histogram : HistogramHistory) (ifindex : UInt32)
  (mac : Option String)

/-- The stored buckets of the series that a query is about. -/
def seriesOf : List AggregatedBucket :=
  match mac.filter fun s => trim s ≠ "" with
  | some m => storedBuckets o histogram ifindex m
  | none => completedOf histogram.iface ifindex ++ (histogram.iface.current.lookup ifindex).toList

/-- Those of a range. -/
def rangeOf (startMs endMs : UInt64) : List AggregatedBucket :=
  (seriesOf o histogram ifindex mac).filter (overlaps startMs endMs)

/-- The bytes of one kind in the answer to a query. -/
def answered (l : Lane) (startMs endMs : UInt64) (size : AggregateBucket) : Option ℕ :=
  (queryAggregate o z histogram ifindex mac startMs endMs size).map (total l)

/-- **No byte of a range is lost and none is counted twice.** -/
structure RangesAgree (a m b : UInt64) : Prop where
  /-- The two parts of a range have the bytes of the range together, in hours and in days alike. -/
  totals : ∀ l, ∃ t t' : ℕ, ∀ size,
    answered o z histogram ifindex mac l a (m - 1) size = some t ∧
      answered o z histogram ifindex mac l m b size = some t' ∧
      answered o z histogram ifindex mac l a b size = some (t + t')
  /-- The ranking counts what the period view shows. -/
  views : ∀ tt, ∃ daily hourly,
    queryAggregate o z histogram ifindex mac a b .daily = some daily ∧
      queryAggregate o z histogram ifindex mac a b .hourly = some hourly ∧
      usageBytes tt daily = shownBytes tt (cumulativeFromBuckets hourly)
  /-- The item of a device in the ranking has the bytes of its row in the period view. -/
  ranking : ∀ (tt : HistoryTrafficType) (key : DeviceKey) (dev : KnownDevice) (row : DeviceListItem),
    mac = some (macToString key.2) → key.1 = ifindex → row.ifindex = ifindex →
      row.mac = macToString key.2 → ∃ shown, periodRow o z histogram a b row = some shown ∧
        usageItem o z histogram a b tt ⟨key, dev⟩ =
          some (rankingItem (macToString key.2) dev (shownBytes tt shown.cumulative))

end

/-! ### Sums -/

section
variable {l : Lane} {buckets : List AggregatedBucket}

theorem total_finalize (l : Lane) (buckets : List AggregatedBucket) :
    total l (buckets.map AggregatedBucket.finalize) = total l buckets := by
  unfold total
  rw [List.map_map]
  rfl

theorem total_perm {buckets buckets' : List AggregatedBucket} (h : buckets.Perm buckets') (l : Lane) :
    total l buckets = total l buckets' :=
  (h.map _).sum_eq

theorem total_filter_add (p : AggregatedBucket → Bool) :
    total l (buckets.filter p) + total l (buckets.filter fun b => !p b) = total l buckets := by
  induction buckets with
  | nil => rfl
  | cons b rest ih =>
    unfold total at ih ⊢
    cases hp : p b <;> simp [hp] <;> omega

/-- A sum that stops at the largest value. -/
theorem toNat_foldl_satAdd {α : Type} {step : UInt64 → α → UInt64} {w : α → ℕ}
    (hstep : ∀ s x, (step s x).toNat = min (s.toNat + w x) (2 ^ 64 - 1)) (xs : List α) (s : UInt64) :
    (xs.foldl step s).toNat = min (s.toNat + (xs.map w).sum) (2 ^ 64 - 1) := by
  induction xs generalizing s with
  | nil =>
    have hlt := s.toNat_lt
    simp only [List.foldl_nil, List.map_nil, List.sum_nil]
    omega
  | cons x rest ih =>
    rw [List.foldl_cons, ih, hstep, List.map_cons, List.sum_cons]
    omega

end

/-! ### Hours and days -/

section
variable {o : IterOrder} {z : Zone} {histogram : HistogramHistory} {ifindex : UInt32}
  {mac : Option String} {startMs endMs : UInt64}

theorem hourlyBuckets_eq_range :
    hourlyBuckets o histogram ifindex mac startMs endMs =
      (rangeOf o histogram ifindex mac startMs endMs).mergeSort byStart := by
  unfold hourlyBuckets rangeOf seriesOf storedBuckets
  cases mac.filter fun s => trim s ≠ "" with
  | none => rfl
  | some m =>
    dsimp only
    cases findKey o histogram.device ifindex m with
    | none => exact List.mergeSort_nil.symm
    | some k => rfl

theorem total_hourlyBuckets (l : Lane) :
    total l (hourlyBuckets o histogram ifindex mac startMs endMs) =
      total l (rangeOf o histogram ifindex mac startMs endMs) := by
  rw [hourlyBuckets_eq_range]
  exact total_perm (List.mergeSort_perm _ _) l

theorem answered_hourly (l : Lane) :
    answered o z histogram ifindex mac l startMs endMs .hourly =
      some (total l (rangeOf o histogram ifindex mac startMs endMs)) := by
  rw [← total_hourlyBuckets, ← total_finalize]
  rfl

theorem total_sortedValues (l : Lane) (byDay : HashMap UInt64 AggregatedBucket) :
    total l (sortedValues o byDay) = sumOver (fun _ => amount l) byDay := by
  unfold sortedValues sumOver
  rw [total_perm ((List.mergeSort_perm _ _).trans (o.perm _))]
  unfold total
  rw [List.map_map]
  rfl

theorem amount_mergeBucket (l : Lane) (acc b : AggregatedBucket) :
    amount l (mergeBucket acc b) = min (amount l acc + amount l b) (2 ^ 64 - 1) := by
  have hget : (mergeBucket acc b).bytes.get l = satAdd (acc.bytes.get l) (b.bytes.get l) :=
    Quad.get_zip ..
  unfold amount
  rw [hget, toNat_satAdd]

theorem amount_newDay (l : Lane) (b : AggregatedBucket) :
    amount l (newDay (dailyBucketLocal z) b) = 0 := by
  simp [amount, newDay, AggregatedBucket.empty]

/-- No hour is without a day. -/
theorem amount_of_no_day {hourly : List AggregatedBucket}
    (h : ∀ b ∈ hourly, ∃ window, dailyBucketLocal z b.startTsMs = some window) (l : Lane) :
    ∀ b ∈ hourly, dayKey (dailyBucketLocal z) b = none → amount l b = 0 := by
  intro b hb hday
  obtain ⟨window, hwindow⟩ := h b hb
  simp [dayKey, hwindow] at hday

section
variable {hourly days : List AggregatedBucket} {l : Lane} (h : mergeHourlyToDaily o z hourly = some days)

include h

/-- The days have the bytes of the hours. -/
theorem total_days (hfits : total l hourly < 2 ^ 64) : total l days = total l hourly := by
  obtain ⟨hwindows, -, rfl⟩ := mergeHourlyToDaily_eq_some h
  have hexact : ∀ acc b : AggregatedBucket, (dayKey (dailyBucketLocal z) b).isSome →
      amount l acc + amount l b < 2 ^ 64 →
        amount l (mergeBucket acc b) = amount l acc + amount l b := by
    intro acc b _ hlt
    rw [amount_mergeBucket]
    omega
  have hempty : sumOver (fun _ => amount l) (∅ : HashMap UInt64 AggregatedBucket) = 0 := rfl
  have hsum : sumOver (fun _ => amount l)
      (gather (dayKey (dailyBucketLocal z)) (newDay (dailyBucketLocal z)) mergeBucket hourly ∅) =
        sumOver (fun _ => amount l) (∅ : HashMap UInt64 AggregatedBucket) + total l hourly :=
    sum_gather (amount_newDay l) hexact (amount_of_no_day hwindows l) ∅
      (by rw [hempty, Nat.zero_add]; exact hfits)
  rw [total_sortedValues, hsum, hempty, Nat.zero_add]

/-- The days have the bytes of the hours, up to the largest number. -/
theorem min_total_days (l : Lane) : min (total l days) (2 ^ 64 - 1) = min (total l hourly) (2 ^ 64 - 1) := by
  obtain ⟨hwindows, -, rfl⟩ := mergeHourlyToDaily_eq_some h
  have hempty : sumOver (fun _ => amount l) (∅ : HashMap UInt64 AggregatedBucket) = 0 := rfl
  have hsum : min (sumOver (fun _ => amount l)
      (gather (dayKey (dailyBucketLocal z)) (newDay (dailyBucketLocal z)) mergeBucket hourly ∅))
        (2 ^ 64 - 1) =
        min (sumOver (fun _ => amount l) (∅ : HashMap UInt64 AggregatedBucket) + total l hourly)
          (2 ^ 64 - 1) :=
    min_sum_gather (amount_newDay l) (amount_mergeBucket l) (amount_of_no_day hwindows l) ∅
  rw [total_sortedValues, hsum, hempty, Nat.zero_add]

end

/-- The zone gives the ends of the day of every bucket a single offset. -/
def DaysExist (z : Zone) (buckets : List AggregatedBucket) : Prop :=
  ∀ b ∈ buckets, HasDay z b.startTsMs

theorem queryDaily_isSome (h : DaysExist z (rangeOf o histogram ifindex mac startMs endMs)) :
    ∃ days, mergeHourlyToDaily o z (hourlyBuckets o histogram ifindex mac startMs endMs) = some days := by
  refine mergeHourlyToDaily_isSome (fun b hb => ?_) o
  rw [hourlyBuckets_eq_range, List.mem_mergeSort] at hb
  exact dailyBucketLocal_isSome_iff.mpr (h b hb)

theorem answered_daily (l : Lane) (h : DaysExist z (rangeOf o histogram ifindex mac startMs endMs))
    (hfits : total l (rangeOf o histogram ifindex mac startMs endMs) < 2 ^ 64) :
    answered o z histogram ifindex mac l startMs endMs .daily =
      some (total l (rangeOf o histogram ifindex mac startMs endMs)) := by
  obtain ⟨days, hdays⟩ := queryDaily_isSome h
  rw [← total_hourlyBuckets] at hfits ⊢
  unfold answered queryAggregate
  simp only [hdays, Option.map_some, total_finalize, total_days hdays hfits]

theorem daysExist_of_daily {days : List AggregatedBucket}
    (h : queryAggregate o z histogram ifindex mac startMs endMs .daily = some days) :
    DaysExist z (rangeOf o histogram ifindex mac startMs endMs) := by
  obtain ⟨merged, hmerged, -⟩ := Option.map_eq_some_iff.mp h
  intro b hb
  refine dailyBucketLocal_isSome_iff.mp ((mergeHourlyToDaily_eq_some hmerged).1 b ?_)
  rw [hourlyBuckets_eq_range, List.mem_mergeSort]
  exact hb

end

/-! ### A range that is cut in two -/

section
variable {o : IterOrder} {histogram : HistogramHistory} {ifindex : UInt32} {mac : Option String}
  {a m b : UInt64}

/-- The instant is in the window of the bucket. -/
def Covers (bucket : AggregatedBucket) (t : UInt64) : Prop :=
  bucket.startTsMs ≤ t ∧ t ≤ bucket.endTsMs

instance (bucket : AggregatedBucket) (t : UInt64) : Decidable (Covers bucket t) := by
  unfold Covers; infer_instance

theorem overlaps_iff {startMs endMs : UInt64} {bucket : AggregatedBucket} :
    overlaps startMs endMs bucket = true ↔
      bucket.startTsMs.toNat ≤ endMs.toNat ∧ startMs.toNat ≤ bucket.endTsMs.toNat := by
  unfold overlaps
  rw [Bool.and_eq_true, decide_eq_true_iff, decide_eq_true_iff, UInt64.le_iff_toNat_le,
    UInt64.le_iff_toNat_le]

variable (hclosed : ∀ bucket ∈ seriesOf o histogram ifindex mac, bucket.startTsMs ≤ bucket.endTsMs)
  (hcut : ∀ bucket ∈ seriesOf o histogram ifindex mac, ¬ (Covers bucket (m - 1) ∧ Covers bucket m))
  (ha : a < m) (hb : m ≤ b)
include hclosed hcut ha hb

/-- A bucket of the range is in the first part or in the second, not in both. -/
theorem overlaps_parts {bucket : AggregatedBucket} (h : bucket ∈ seriesOf o histogram ifindex mac) :
    (overlaps a (m - 1) bucket = true ↔ overlaps a b bucket = true ∧ overlaps a (m - 1) bucket = true) ∧
      (overlaps m b bucket = true ↔
        overlaps a b bucket = true ∧ ¬ overlaps a (m - 1) bucket = true) := by
  have hclosed := hclosed bucket h
  have hcut := hcut bucket h
  have hone : (1 : UInt64) ≤ m := by
    rw [UInt64.lt_iff_toNat_lt] at ha
    rw [UInt64.le_iff_toNat_le, UInt64.toNat_one]
    omega
  have hpred : (m - 1).toNat = m.toNat - 1 := UInt64.toNat_sub_of_le _ _ hone
  simp only [overlaps_iff, Covers, UInt64.le_iff_toNat_le, UInt64.lt_iff_toNat_lt,
    UInt64.toNat_one, hpred] at *
  omega

theorem total_parts (l : Lane) :
    total l (rangeOf o histogram ifindex mac a (m - 1)) + total l (rangeOf o histogram ifindex mac m b) =
      total l (rangeOf o histogram ifindex mac a b) := by
  have hparts := fun bucket => @overlaps_parts o histogram ifindex mac a m b hclosed hcut ha hb bucket
  have hfirst : rangeOf o histogram ifindex mac a (m - 1) =
      (rangeOf o histogram ifindex mac a b).filter (overlaps a (m - 1)) := by
    unfold rangeOf
    rw [List.filter_filter]
    refine List.filter_congr fun bucket h => ?_
    rw [Bool.eq_iff_iff, Bool.and_eq_true, and_comm]
    exact (hparts bucket h).1
  have hsecond : rangeOf o histogram ifindex mac m b =
      (rangeOf o histogram ifindex mac a b).filter fun bucket => !overlaps a (m - 1) bucket := by
    unfold rangeOf
    rw [List.filter_filter]
    refine List.filter_congr fun bucket h => ?_
    rw [Bool.eq_iff_iff, Bool.and_eq_true, and_comm, Bool.not_eq_true', ← Bool.not_eq_true]
    exact (hparts bucket h).2
  rw [hfirst, hsecond, total_filter_add]

end

/-! ### What is shown -/

section
variable {tt : HistoryTrafficType}

/-- The kinds that are selected. -/
def keeps : HistoryTrafficType → Lane → Bool
  | .all, _ => true
  | .ipv4, l => l = .upV4 || l = .downV4
  | .ipv6, l => l = .upV6 || l = .downV6

theorem get_keepFamily (l : Lane) (q : Quad UInt64) :
    (keepFamily tt q).get l = if keeps tt l then q.get l else 0 := by
  cases tt <;> cases l <;> rfl

theorem total_withTrafficType (l : Lane) (buckets : List AggregatedBucket) :
    total l (buckets.map (withTrafficType tt)) = if keeps tt l then total l buckets else 0 := by
  have hget : amount l ∘ withTrafficType tt = fun b => if keeps tt l then amount l b else 0 := by
    funext b
    show ((keepFamily tt b.bytes).get l).toNat = _
    rw [get_keepFamily]
    split_ifs <;> rfl
  unfold total
  rw [List.map_map, hget]
  split_ifs <;> simp

/-- The two sums of the ranking. -/
theorem toNat_usageBytes (tt : HistoryTrafficType) (buckets : List AggregatedBucket) :
    (usageBytes tt buckets).1.toNat = min (total .upV4 (buckets.map (withTrafficType tt)) +
        total .upV6 (buckets.map (withTrafficType tt))) (2 ^ 64 - 1) ∧
      (usageBytes tt buckets).2.toNat = min (total .downV4 (buckets.map (withTrafficType tt)) +
        total .downV6 (buckets.map (withTrafficType tt))) (2 ^ 64 - 1) := by
  have hsplit : ∀ (bs : List AggregatedBucket) (up down : UInt64),
      bs.foldl (fun sum b => (satAdd sum.1 (upBytes b.bytes), satAdd sum.2 (downBytes b.bytes)))
          (up, down) =
        (bs.foldl (fun s b => satAdd s (upBytes b.bytes)) up,
          bs.foldl (fun s b => satAdd s (downBytes b.bytes)) down) := by
    intro bs
    induction bs with
    | nil => exact fun _ _ => rfl
    | cons b rest ih => exact fun up down => ih _ _
  have hup : ∀ (s : UInt64) (b : AggregatedBucket), (satAdd s (upBytes b.bytes)).toNat =
      min (s.toNat + (amount .upV4 b + amount .upV6 b)) (2 ^ 64 - 1) := by
    intro s b
    simp only [upBytes, toNat_satAdd, amount, Quad.get]
    omega
  have hdown : ∀ (s : UInt64) (b : AggregatedBucket), (satAdd s (downBytes b.bytes)).toNat =
      min (s.toNat + (amount .downV4 b + amount .downV6 b)) (2 ^ 64 - 1) := by
    intro s b
    simp only [downBytes, toNat_satAdd, amount, Quad.get]
    omega
  unfold usageBytes total
  rw [hsplit, toNat_foldl_satAdd hup, toNat_foldl_satAdd hdown, List.sum_map_add, List.sum_map_add,
    UInt64.toNat_zero, Nat.zero_add, Nat.zero_add]
  exact ⟨rfl, rfl⟩

theorem toNat_cumulativeFromBuckets (l : Lane) (buckets : List AggregatedBucket) :
    ((cumulativeFromBuckets buckets).bytes.get l).toNat = min (total l buckets) (2 ^ 64 - 1) := by
  have hget : ∀ (bs : List AggregatedBucket) (c : CounterQuad),
      (bs.foldl addBucketBytes c).bytes.get l =
        bs.foldl (fun s b => satAdd s (b.bytes.get l)) (c.bytes.get l) := by
    intro bs
    induction bs with
    | nil => exact fun _ => rfl
    | cons b rest ih =>
      intro c
      rw [List.foldl_cons, ih, List.foldl_cons]
      exact congrArg (rest.foldl _) (Quad.get_zip ..)
  have hstep : ∀ (s : UInt64) (b : AggregatedBucket), (satAdd s (b.bytes.get l)).toNat =
      min (s.toNat + amount l b) (2 ^ 64 - 1) := fun s b => toNat_satAdd s _
  have hzero : CounterQuad.zero.bytes.get l = 0 := Quad.get_const l 0
  unfold cumulativeFromBuckets total
  rw [hget, toNat_foldl_satAdd hstep, hzero, UInt64.toNat_zero, Nat.zero_add]

/-- **Days that have the bytes of the hours are shown alike.** -/
theorem usageBytes_eq {daily hourly : List AggregatedBucket} (h : ∀ l, total l daily = total l hourly)
    (tt : HistoryTrafficType) :
    usageBytes tt daily = shownBytes tt (cumulativeFromBuckets hourly) := by
  have hkept : ∀ l, ((keepFamily tt (cumulativeFromBuckets hourly).bytes).get l).toNat =
      min (if keeps tt l then total l hourly else 0) (2 ^ 64 - 1) := by
    intro l
    rw [get_keepFamily]
    split_ifs
    · exact toNat_cumulativeFromBuckets l hourly
    · rfl
  have husage := toNat_usageBytes tt daily
  simp only [total_withTrafficType, h] at husage
  have hupV4 := hkept .upV4
  have hupV6 := hkept .upV6
  have hdownV4 := hkept .downV4
  have hdownV6 := hkept .downV6
  simp only [Quad.get] at hupV4 hupV6 hdownV4 hdownV6
  refine Prod.ext (UInt64.toNat_inj.mp ?_) (UInt64.toNat_inj.mp ?_)
  · simp only [husage.1, shownBytes, upBytes, toNat_satAdd]
    omega
  · simp only [husage.2, shownBytes, downBytes, toNat_satAdd]
    omega

end

/-- The ranking shows what the period view shows, if the two queries of a device do. -/
theorem usageItem_of_views {o : IterOrder} {z : Zone} {histogram : HistogramHistory} {key : DeviceKey}
    {dev : KnownDevice} {row : DeviceListItem} {a b : UInt64} {tt : HistoryTrafficType}
    {daily hourly : List AggregatedBucket}
    (hifindex : row.ifindex = key.1) (hmac : row.mac = macToString key.2)
    (hdaily : queryAggregate o z histogram key.1 (some (macToString key.2)) a b .daily = some daily)
    (hhourly : queryAggregate o z histogram key.1 (some (macToString key.2)) a b .hourly = some hourly)
    (heq : usageBytes tt daily = shownBytes tt (cumulativeFromBuckets hourly)) :
    ∃ shown, periodRow o z histogram a b row = some shown ∧
      usageItem o z histogram a b tt ⟨key, dev⟩ =
        some (rankingItem (macToString key.2) dev (shownBytes tt shown.cumulative)) := by
  refine ⟨{ row with cumulative := cumulativeFromBuckets hourly }, ?_, ?_⟩
  · unfold periodRow
    rw [hifindex, hmac, hhourly]
    rfl
  · unfold usageItem
    rw [hdaily, Option.map_some, heq]

/-- **When no byte of a range is lost and none is counted twice.** -/
theorem ranges_agree_iff (o : IterOrder) (z : Zone) (histogram : HistogramHistory) (ifindex : UInt32)
    (mac : Option String) (a m b : UInt64)
    (hclosed : ∀ bucket ∈ seriesOf o histogram ifindex mac, bucket.startTsMs ≤ bucket.endTsMs)
    (ha : a < m) (hb : m ≤ b)
    (hcut : ∀ bucket ∈ seriesOf o histogram ifindex mac, ¬ (Covers bucket (m - 1) ∧ Covers bucket m))
    (hfits : ∀ l, total l (rangeOf o histogram ifindex mac a b) < 2 ^ 64) :
    RangesAgree o z histogram ifindex mac a m b ↔
      DaysExist z (rangeOf o histogram ifindex mac a b) := by
  have hparts := fun l => @total_parts o histogram ifindex mac a m b hclosed hcut ha hb l
  constructor
  · intro h
    obtain ⟨daily, hourly, hdaily, -⟩ := h.views .all
    exact daysExist_of_daily hdaily
  · intro h
    have hoverlaps := fun bucket => @overlaps_parts o histogram ifindex mac a m b hclosed hcut ha hb bucket
    have hfirst : DaysExist z (rangeOf o histogram ifindex mac a (m - 1)) := by
      intro bucket hbucket
      obtain ⟨hmem, hover⟩ := List.mem_filter.mp hbucket
      exact h bucket (List.mem_filter.mpr ⟨hmem, ((hoverlaps bucket hmem).1.mp hover).1⟩)
    have hsecond : DaysExist z (rangeOf o histogram ifindex mac m b) := by
      intro bucket hbucket
      obtain ⟨hmem, hover⟩ := List.mem_filter.mp hbucket
      exact h bucket (List.mem_filter.mpr ⟨hmem, ((hoverlaps bucket hmem).2.mp hover).1⟩)
    have hanswer : ∀ l startMs endMs, DaysExist z (rangeOf o histogram ifindex mac startMs endMs) →
        total l (rangeOf o histogram ifindex mac startMs endMs) < 2 ^ 64 → ∀ size,
          answered o z histogram ifindex mac l startMs endMs size =
            some (total l (rangeOf o histogram ifindex mac startMs endMs)) := by
      intro l startMs endMs hdays hlt size
      cases size with
      | hourly => exact answered_hourly l
      | daily => exact answered_daily l hdays hlt
    have hviews : ∀ tt, ∃ daily hourly,
        queryAggregate o z histogram ifindex mac a b .daily = some daily ∧
          queryAggregate o z histogram ifindex mac a b .hourly = some hourly ∧
          usageBytes tt daily = shownBytes tt (cumulativeFromBuckets hourly) := by
      intro tt
      obtain ⟨days, hdays⟩ := queryDaily_isSome h
      refine ⟨days.map AggregatedBucket.finalize, _, Option.map_eq_some_iff.mpr ⟨days, hdays, rfl⟩,
        rfl, usageBytes_eq (fun l => ?_) tt⟩
      rw [total_finalize, total_finalize]
      exact total_days hdays (by rw [total_hourlyBuckets]; exact hfits l)
    refine ⟨fun l => ?_, hviews, ?_⟩
    · have hl := hparts l
      have hlt := hfits l
      refine ⟨_, _, fun size => ⟨hanswer l a (m - 1) hfirst (by omega) size,
        hanswer l m b hsecond (by omega) size, ?_⟩⟩
      rw [hl]
      exact hanswer l a b h hlt size
    · rintro tt key dev row rfl rfl hifindex hmac
      obtain ⟨daily, hourly, hdaily, hhourly, heq⟩ := hviews tt
      exact usageItem_of_views hifindex hmac hdaily hhourly heq

section Sample

theorem ranges_agree_iff_camera :
    RangesAgree .listed utc (cameraHistory 1) 7 (some "02:02:02:02:02:02") 0 3600000 7200000 ↔
      DaysExist utc (rangeOf .listed (cameraHistory 1) 7 (some "02:02:02:02:02:02") 0 7200000) :=
  ranges_agree_iff .listed utc (cameraHistory 1) 7 (some "02:02:02:02:02:02") 0 3600000 7200000
    (by decide) (by decide) (by decide) (by decide) (fun l => by cases l <;> decide)

/-- The zone of the Azores in autumn 2024: at 2024-10-27T01:00Z the clock goes back from one o'clock to
midnight. -/
def azoresAutumn : Zone := .change 1729990800 ⟨0, utc_bound⟩ ⟨-3600, hour_bound.2⟩

/-- The hour from noon of that day. -/
def noonBucket : AggregatedBucket := .empty 1730034000000 1730037599999

def noonHistory : HistogramHistory where
  maxHours := 1
  maxHours_pos := Nat.one_pos
  iface := ⟨AList.insert 7 noonBucket ∅, ∅⟩
  device := ⟨∅, ∅⟩

theorem noon_has_no_day : dailyBucketLocal azoresAutumn noonBucket.startTsMs = none := by decide

/-- **A day whose midnight occurs twice cannot be queried**, though its hours can. -/
theorem ranges_disagree :
    (seriesOf .listed noonHistory 7 none).Pairwise (fun b b' => b.endTsMs < b'.startTsMs) ∧
      (∀ b ∈ seriesOf .listed noonHistory 7 none, b.startTsMs ≤ b.endTsMs) ∧
      (∀ b ∈ seriesOf .listed noonHistory 7 none,
        ¬ (Covers b (1730037600000 - 1) ∧ Covers b 1730037600000)) ∧
      (∀ l, total l (rangeOf .listed noonHistory 7 none 1730034000000 1730041200000) < 2 ^ 64) ∧
      ¬ RangesAgree .listed azoresAutumn noonHistory 7 none 1730034000000 1730037600000
        1730041200000 := by
  refine ⟨by decide, by decide, by decide, fun l => by cases l <;> decide, fun h => ?_⟩
  obtain ⟨daily, hourly, hdaily, -⟩ := h.views .all
  obtain ⟨window, hwindow⟩ :=
    dailyBucketLocal_isSome_iff.mpr (daysExist_of_daily hdaily noonBucket (by decide))
  rw [noon_has_no_day] at hwindow
  cases hwindow

end Sample

end BandixPlus.Api.Usage
