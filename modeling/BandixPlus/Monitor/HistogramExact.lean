import BandixPlus.Lib.Sorting
import BandixPlus.Monitor.HistogramRun
import Mathlib.Algebra.Order.BigOperators.Group.List

/-! # The histogram counts every sample once

* `histogram_exact`: after any snapshots in the order of time, each bucket of each series is the fold
  over the samples of its hour, each completed bucket was returned once, and the last `maxHours` are in
  memory.
* `hourGrid_fixed`: a zone of fixed offset has the hours that this needs. -/

namespace BandixPlus.Monitor.HistogramExact

open BandixPlus.Lib.LocalTime BandixPlus.Lib.RingBuffer BandixPlus.Lib.Sorting
open BandixPlus.Monitor.Counters BandixPlus.Monitor.Snapshot BandixPlus.Monitor.Windows
open BandixPlus.Monitor.Histogram BandixPlus.Monitor.Series BandixPlus.Monitor.HistogramRun

/-! ### The hours of a zone -/

/-- **The hours of these timestamps are a grid**: each is returned and is one hour around its
timestamp, and two of them are equal or disjoint. -/
structure HourGrid (z : Zone) (times : List UInt64) : Prop where
  window : ∀ t ∈ times, ∃ s, hourlyBucketLocal z t = some (s, s + 3599999) ∧ s ≤ t ∧ t ≤ s + 3599999
  apart : ∀ t ∈ times, ∀ t' ∈ times, hourOf z t = hourOf z t' ∨
    (hourOf z t).2 < (hourOf z t').1 ∨ (hourOf z t').2 < (hourOf z t).1

section Grid
variable {z : Zone} {times : List UInt64} {t : UInt64}

theorem HourGrid.hourly (hgrid : HourGrid z times) (ht : t ∈ times) :
    hourlyBucketLocal z t = some (hourOf z t) := by
  obtain ⟨s, hs, -⟩ := hgrid.window t ht
  unfold hourOf
  rw [hs, Option.getD_some]

theorem HourGrid.hourWindows (hgrid : HourGrid z times) : HourWindows (hourOf z) times := by
  refine ⟨fun t ht => ?_, hgrid.apart⟩
  obtain ⟨s, hs, hle⟩ := hgrid.window t ht
  have hhour : hourOf z t = (s, s + 3599999) := Option.some.inj ((hgrid.hourly ht).symm.trans hs)
  rw [hhour]
  exact hle

/-- The hour of a timestamp in a zone of fixed offset. -/
theorem hourly_fixed (o : ℤ) (ho : -86400 < o ∧ o < 86400) (hmin : 86400000 ≤ t.toNat)
    (hmax : (t.toNat : ℤ) + 259200000 ≤ maxMs) :
    ∃ s : UInt64, hourlyBucketLocal (.fixed o ho) t = some (s, s + 3599999) ∧
      (s.toNat : ℤ) = hourStart (t.toNat + o * 1000) - o * 1000 ∧ s.toNat + 3599999 < 2 ^ 64 := by
  have hmaxMs : maxMs = 8210266876799999 := rfl
  have hb := hour_bounds (t.toNat + o * 1000)
  rw [hourEnd_eq] at hb
  have hwindow := @bucketLocal_fixed hourStart hourEnd t o ho hmin hmax (fun w => (hour_spans w).1)
    fun w => (hour_spans w).2
  have hs : ((asU64 (hourStart (t.toNat + o * 1000) - o * 1000)).toNat : ℤ) = _ :=
    toNat_asU64 (by omega) (by omega)
  have he : ((asU64 (hourEnd (t.toNat + o * 1000) - o * 1000)).toNat : ℤ) = _ :=
    toNat_asU64 (by rw [hourEnd_eq]; omega) (by rw [hourEnd_eq]; omega)
  refine ⟨_, ?_, hs, by omega⟩
  have hlast : asU64 (hourEnd (t.toNat + o * 1000) - o * 1000) =
      asU64 (hourStart (t.toNat + o * 1000) - o * 1000) + 3599999 := by
    have hlit : (3599999 : UInt64).toNat = 3599999 := rfl
    rw [← UInt64.toNat_inj, UInt64.toNat_add, hlit]
    rw [hourEnd_eq] at he ⊢
    omega
  rw [← hlast]
  exact hwindow

/-- **A zone of fixed offset has a grid of hours**, from the second day of 1970 to the end of the
library's range. -/
theorem hourGrid_fixed (o : ℤ) (ho : -86400 < o ∧ o < 86400) (times : List UInt64)
    (hmin : ∀ t ∈ times, 86400000 ≤ t.toNat)
    (hmax : ∀ t ∈ times, (t.toNat : ℤ) + 259200000 ≤ maxMs) : HourGrid (.fixed o ho) times := by
  have hlit : (3599999 : UInt64).toNat = 3599999 := rfl
  constructor
  · intro t ht
    obtain ⟨s, hs, hstart, hlt⟩ := hourly_fixed o ho (hmin t ht) (hmax t ht)
    have hb := hour_bounds (t.toNat + o * 1000)
    rw [hourEnd_eq] at hb
    refine ⟨s, hs, ?_, ?_⟩
    · rw [UInt64.le_iff_toNat_le]
      omega
    · rw [UInt64.le_iff_toNat_le, UInt64.toNat_add, hlit]
      omega
  · intro t ht t' ht'
    obtain ⟨s, hs, hstart, hlt⟩ := hourly_fixed o ho (hmin t ht) (hmax t ht)
    obtain ⟨s', hs', hstart', hlt'⟩ := hourly_fixed o ho (hmin t' ht') (hmax t' ht')
    unfold hourOf
    rw [hs, hs', Option.getD_some, Option.getD_some]
    rw [hourStart_eq] at hstart hstart'
    simp only [UInt64.lt_iff_toNat_lt, UInt64.toNat_add, hlit]
    rw [Nat.mod_eq_of_lt hlt, Nat.mod_eq_of_lt hlt']
    -- both begin at a whole number of hours of the wall clock
    by_cases heq : s.toNat = s'.toNat
    · rw [UInt64.toNat_inj.mp heq]
      exact Or.inl rfl
    · right
      omega

end Grid

/-! ### The histogram -/

def currentFor (h : HistogramHistory) : SeriesKey → Option AggregatedBucket
  | .iface ifindex => h.iface.current.lookup ifindex
  | .device key => h.device.current.lookup key

def completedFor (h : HistogramHistory) : SeriesKey → List AggregatedBucket
  | .iface ifindex => completedOf h.iface ifindex
  | .device key => completedOf h.device key

/-- The timestamp is between the bounds of the bucket. -/
def Within (b : AggregatedBucket) (t : UInt64) : Prop := b.startTsMs ≤ t ∧ t ≤ b.endTsMs

instance (b : AggregatedBucket) (t : UInt64) : Decidable (Within b t) := by
  unfold Within; infer_instance

/-- The samples between the bounds of a bucket. -/
def samplesWithin (b : AggregatedBucket) (xs : List Sample) : List CounterQuad :=
  (xs.filter fun x => Within b x.tsMs).map Sample.metrics

theorem tracksSeries_empty (maxHours : ℕ) (hpos : 0 < maxHours)
    (hourly : UInt64 → UInt64 × UInt64) (times : List UInt64) (k : SeriesKey) :
    TracksSeries hourly times (.withCapacityHours maxHours hpos) k [] [] 0 := by
  cases k with
  | iface ifindex => exact ⟨[], rfl, (List.rtake_nil _).symm, seriesOk_empty hourly times 0⟩
  | device key => exact ⟨[], rfl, (List.rtake_nil _).symm, seriesOk_empty hourly times 0⟩

/-- The parts of the invariant, for either kind of series. -/
theorem tracksSeries_elim {hourly : UInt64 → UInt64 × UInt64} {times : List UInt64}
    {h : HistogramHistory} {k : SeriesKey} {returned : List AggregatedBucket} {xs : List Sample}
    {now : UInt64} (htr : TracksSeries hourly times h k returned xs now) :
    ∃ done, returned = done.map AggregatedBucket.finalize ∧
      completedFor h k = done.rtake h.maxHours ∧
      SeriesOk hourly times done (currentFor h k) xs now := by
  cases k with
  | iface ifindex => exact htr
  | device key => exact htr

theorem maxHours_ingestRow (hourly : UInt64 → UInt64 × UInt64) (h : HistogramHistory) (ts : UInt64)
    (row : Row) : (ingestRow hourly h ts row).2.maxHours = h.maxHours := by
  cases row <;> rfl

theorem maxHours_ingestAll (hourly : UInt64 → UInt64 × UInt64) (h : HistogramHistory)
    (snapshots : List SnapshotData) : (ingestAll hourly h snapshots).2.maxHours = h.maxHours := by
  have hrows : ∀ (rs : List Row) (ts : UInt64) (h : HistogramHistory),
      (ingestRows hourly ts h rs).2.maxHours = h.maxHours := by
    intro rs ts
    induction rs with
    | nil => exact fun _ => rfl
    | cons row rest ih => exact fun h => (ih _).trans (maxHours_ingestRow hourly h ts row)
  induction snapshots generalizing h with
  | nil => rfl
  | cons s rest ih => exact (ih _).trans (hrows (rows s) s.timestampMs h)

section Buckets
variable {hourly : UInt64 → UInt64 × UInt64} {times : List UInt64} {done : List AggregatedBucket}
  {current : Option AggregatedBucket} {xs : List Sample} {now : UInt64} {b : AggregatedBucket}

/-- A sample is between the bounds of a bucket exactly if its hour is the bucket's. -/
theorem within_iff (h : SeriesOk hourly times done current xs now) (hw : HourWindows hourly times)
    (hb : b ∈ done ++ current.toList) {x : Sample} (hx : x ∈ xs) :
    Within b x.tsMs ↔ hourly x.tsMs = span b := by
  obtain ⟨y, hy, hspan⟩ := h.hour b hb
  have hx' := (h.times x hx).1
  have hy' := (h.times y hy).1
  have hc := hw.contains _ hx'
  constructor
  · rintro ⟨hs, he⟩
    have hspan₁ : (hourly y.tsMs).1 = b.startTsMs := congrArg Prod.fst hspan
    have hspan₂ : (hourly y.tsMs).2 = b.endTsMs := congrArg Prod.snd hspan
    rw [← hspan]
    rcases hw.apart _ hx' _ hy' with heq | hlt | hlt
    · exact heq
    · rw [hspan₁] at hlt
      exact absurd (UInt64.lt_of_le_of_lt (UInt64.le_trans hs hc.2) hlt) (UInt64.lt_irrefl _)
    · rw [hspan₂] at hlt
      exact absurd (UInt64.lt_of_lt_of_le hlt (UInt64.le_trans hc.1 he)) (UInt64.lt_irrefl _)
  · intro heq
    rw [heq] at hc
    exact hc

theorem samplesWithin_eq (h : SeriesOk hourly times done current xs now)
    (hw : HourWindows hourly times) (hb : b ∈ done ++ current.toList) :
    samplesWithin b xs = samplesIn hourly (span b) xs := by
  unfold samplesWithin samplesIn
  congr 1
  refine List.filter_congr fun x hx => ?_
  rw [decide_eq_decide]
  exact within_iff h hw hb hx

theorem pairwise_start (h : SeriesOk hourly times done current xs now)
    (hw : HourWindows hourly times) :
    (done ++ current.toList).Pairwise fun b c => b.startTsMs < c.startTsMs := by
  refine h.ordered.imp_of_mem fun hb _ hlt => ?_
  exact UInt64.lt_of_le_of_lt (h.bounds hw hb) hlt

/-- Finalizing the completed buckets keeps the invariant. -/
theorem seriesOk_map_finalize (h : SeriesOk hourly times done current xs now) :
    SeriesOk hourly times (done.map AggregatedBucket.finalize) current xs now := by
  -- a bucket is the current one, or a completed one finalized
  have hcases : ∀ b ∈ done.map AggregatedBucket.finalize ++ current.toList,
      ∃ b₀ ∈ done ++ current.toList, span b = span b₀ ∧ ∀ ms, IsFold b₀ ms → IsFold b ms := by
    intro b hb
    rcases List.mem_append.mp hb with hb | hb
    · obtain ⟨b₀, hb₀, rfl⟩ := List.mem_map.mp hb
      exact ⟨b₀, List.mem_append_left _ hb₀, rfl, fun ms hms => hms.finalize⟩
    · exact ⟨b, List.mem_append_right _ hb, rfl, fun ms hms => hms⟩
  refine ⟨h.times, ?_, fun b hb => ?_, fun b hb => ?_, fun x hx => ?_, fun b hb => ?_⟩
  · obtain ⟨hdone, hcur, hapart⟩ := List.pairwise_append.mp h.ordered
    refine List.pairwise_append.mpr ⟨List.pairwise_map.mpr hdone, hcur, fun b hb c hc => ?_⟩
    obtain ⟨b₀, hb₀, rfl⟩ := List.mem_map.mp hb
    exact hapart b₀ hb₀ c hc
  · obtain ⟨b₀, hb₀, hspan, -⟩ := hcases b hb
    rw [hspan]
    exact h.hour b₀ hb₀
  · obtain ⟨b₀, hb₀, hspan, hfold⟩ := hcases b hb
    rw [hspan]
    exact hfold _ (h.fold b₀ hb₀)
  · obtain ⟨b, hb, hspan⟩ := h.covered x hx
    rcases List.mem_append.mp hb with hb | hb
    · exact ⟨b.finalize, List.mem_append_left _ (List.mem_map_of_mem hb), hspan⟩
    · exact ⟨b, List.mem_append_right _ hb, hspan⟩
  · obtain ⟨b₀, hb₀, rfl⟩ := List.mem_map.mp hb
    exact h.closed b₀ hb₀

end Buckets

/-- If all the samples fit in 64 bits, then so do those of each hour. -/
theorem allFit_of_fits {hourly : UInt64 → UInt64 × UInt64} {xs : List Sample}
    (hfits : FitsU64 (xs.map Sample.metrics)) : AllFit hourly xs := by
  intro hour
  have hsub : (samplesIn hourly hour xs).Sublist (xs.map Sample.metrics) :=
    List.filter_sublist.map Sample.metrics
  have hsum : ∀ f : CounterQuad → ℕ,
      ((samplesIn hourly hour xs).map f).sum ≤ ((xs.map Sample.metrics).map f).sum :=
    fun f => (hsub.map f).sum_le_sum fun n _ => Nat.zero_le n
  exact ⟨hsub.length_le.trans_lt hfits.sampleCount, fun l => (hsum _).trans_lt (hfits.bytes l),
    fun l => (hsum _).trans_lt (hfits.bps l)⟩

/-- The bucket as it is reported: finalizing changes the averages alone. -/
structure Exact (z : Zone) (b : AggregatedBucket) (xs : List Sample) : Prop where
  hour : ∃ x ∈ xs, hourlyBucketLocal z x.tsMs = some (b.startTsMs, b.endTsMs)
  fold : IsFold b (samplesWithin b xs)
  bpsAvg : ∀ l, (b.finalize.bpsAvg.get l).toNat =
    ((samplesWithin b xs).map fun m => (m.bps.get l).toNat).sum / (samplesWithin b xs).length

/-- **The histogram of any run is exact.** For every series: the buckets returned as completed and the
current one begin one after the other; each is the fold over the samples between its bounds, which are
those of an hour; each sample is in exactly one of them; the returned ones are finalized; and the last
`maxHours` of them are those in memory. All of them are what the calls return, with the names of their
rows. -/
theorem histogram_exact {maxHours : ℕ} (hpos : 0 < maxHours) (z : Zone)
    (snapshots : List SnapshotData)
    (hmono : (snapshots.map SnapshotData.timestampMs).Pairwise (· ≤ ·))
    (hgrid : HourGrid z (snapshots.map SnapshotData.timestampMs)) (k : SeriesKey)
    (hfits : AllFit (hourOf z) (samplesFor k snapshots)) :
    let run := ingestAll (hourOf z) (.withCapacityHours maxHours hpos) snapshots
    let xs := samplesFor k snapshots
    let returned := returnedFor k run.1
    let buckets := returned ++ (currentFor run.2 k).toList
    buckets.Pairwise (fun b c => b.startTsMs < c.startTsMs) ∧
      (∀ b ∈ buckets, Exact z b xs) ∧
      (∀ x ∈ xs, ∃ b ∈ buckets, Within b x.tsMs ∧ ∀ c ∈ buckets, Within c x.tsMs → c = b) ∧
      (∀ b ∈ returned, b.finalize = b) ∧
      (completedFor run.2 k).map AggregatedBucket.finalize = returned.rtake maxHours ∧
      (run.1.map Prod.snd, run.2) =
        snapshots.foldl (collectCompleted (hourOf z)) ([], .withCapacityHours maxHours hpos) ∧
      (∀ c ∈ run.1, c.2 = aggregateOf c.2.bucket c.1) := by
  intro run xs returned buckets
  have hw := hgrid.hourWindows
  obtain ⟨last, htr⟩ := tracksSeries_ingestAll snapshots
    (tracksSeries_empty maxHours hpos (hourOf z) _ k) hw
    (fun s hs => List.mem_map_of_mem hs)
    (List.pairwise_cons.mpr ⟨fun t _ => UInt64.le_iff_toNat_le.mpr (Nat.zero_le _), hmono⟩) hfits
  have htr : TracksSeries (hourOf z) (snapshots.map SnapshotData.timestampMs) run.2 k returned xs
    last := htr
  obtain ⟨done, hret, hcomp, hok⟩ := tracksSeries_elim htr
  have hok := seriesOk_map_finalize hok
  rw [← hret] at hok
  refine ⟨pairwise_start hok hw, fun b hb => ?_, fun x hx => ?_, fun b hb => ?_, ?_,
    ingestAll_eq_foldl _ _ snapshots [], ingestAll_named snapshots _⟩
  · have hfold := hok.fold b hb
    rw [← samplesWithin_eq hok hw hb] at hfold
    obtain ⟨x, hx, hspan⟩ := hok.hour b hb
    have hhour := hgrid.hourly (hok.times x hx).1
    rw [hspan] at hhour
    exact ⟨⟨x, hx, hhour⟩, hfold, hfold.bpsAvg⟩
  · obtain ⟨b, hb, hspan⟩ := hok.covered x hx
    refine ⟨b, hb, (within_iff hok hw hb hx).mpr hspan, fun c hc hwithin => ?_⟩
    have hspan' := (within_iff hok hw hc hx).mp hwithin
    -- two buckets of one hour begin at the same time
    exact eq_of_pairwise_lt (fun _ => UInt64.lt_irrefl _) (pairwise_start hok hw) hc hb
      (congrArg Prod.fst (hspan'.symm.trans hspan))
  · rw [hret] at hb
    obtain ⟨b₀, -, rfl⟩ := List.mem_map.mp hb
    exact b₀.finalize_finalize
  · rw [hcomp, maxHours_ingestAll, ← rtake_map, ← hret]
    rfl

/-- A device that is on for two snapshots and off, idle, when its hour is over. -/
def sampleRow (online : Bool) (bytes : UInt64) : DeviceListItem where
  ifindex := 3
  logicalIface := "br-lan"
  subnet := ""
  ipv4 := []
  ipv6 := []
  mac := "02:00:00:00:00:01"
  hostname := ""
  metrics := ⟨.const 0, .const bytes⟩
  cumulative := .zero
  online
  lastSeenMs := 0
  neighborState := none

def sampleRun : List SnapshotData :=
  [⟨172800000, [], [sampleRow true 5]⟩, ⟨172801000, [], [sampleRow true 7]⟩,
    ⟨176400000, [], [sampleRow false 0]⟩]

def sampleKey : SeriesKey := .device ⟨3, "02:00:00:00:00:01"⟩

theorem histogram_exact_sample :
    let run := ingestAll (hourOf (.fixed 0 (by decide))) (.withCapacityHours 2 (by decide)) sampleRun
    ∀ x ∈ samplesFor sampleKey sampleRun,
      ∃ b ∈ returnedFor sampleKey run.1 ++ (currentFor run.2 sampleKey).toList, Within b x.tsMs ∧
        ∀ c ∈ returnedFor sampleKey run.1 ++ (currentFor run.2 sampleKey).toList,
          Within c x.tsMs → c = b := by
  have hgrid : HourGrid (.fixed 0 (by decide)) (sampleRun.map SnapshotData.timestampMs) :=
    hourGrid_fixed 0 (by decide) _ (by simp [sampleRun]) (by simp [sampleRun, maxMs])
  have hfits : FitsU64 ((samplesFor sampleKey sampleRun).map Sample.metrics) :=
    ⟨by decide, fun l => by cases l <;> decide, fun l => by cases l <;> decide⟩
  exact (histogram_exact (by decide) _ sampleRun (by decide) hgrid sampleKey
    (allFit_of_fits hfits)).2.2.1

end BandixPlus.Monitor.HistogramExact
