import BandixPlus.Lib.RingBuffer
import BandixPlus.Monitor.Series

/-! # Runs of the histogram

* `Tracks`: a series in memory against its samples and the buckets it returned.
* `tracks_ingestSeries`, `tracks_flushSeries`: one sample and one flush keep it.
* `tracksSeries_ingestAll`: so does any run of snapshots in the order of time. -/

namespace BandixPlus.Monitor.HistogramRun

open BandixPlus.Lib.LocalTime BandixPlus.Lib.Maps BandixPlus.Lib.RingBuffer
open BandixPlus.Monitor.Counters BandixPlus.Monitor.Snapshot BandixPlus.Monitor.Windows
open BandixPlus.Monitor.Histogram BandixPlus.Monitor.Series

inductive SeriesKey where
  | iface (ifindex : UInt32)
  | device (key : DeviceSeriesKey)
  deriving DecidableEq

def rowKey : Row → SeriesKey
  | .iface item => .iface item.ifindex
  | .device item => .device (deviceSeriesKey item)

/-- The sample of a row; a device that is offline and idle has none. -/
def rowSample (tsMs : UInt64) : Row → Option Sample
  | .iface item => some ⟨tsMs, item.metrics⟩
  | .device item =>
    if !item.online && item.metrics.isEmpty then none else some ⟨tsMs, item.metrics⟩

/-- The samples that some rows of one timestamp have for a series. -/
def samplesOfRows (k : SeriesKey) (tsMs : UInt64) (rs : List Row) : List Sample :=
  (rs.filter fun row => rowKey row = k).filterMap (rowSample tsMs)

/-- The samples of a series in a run. -/
def samplesFor (k : SeriesKey) (snapshots : List SnapshotData) : List Sample :=
  snapshots.flatMap fun s => samplesOfRows k s.timestampMs (rows s)

/-- The buckets returned for a series. -/
def returnedFor (k : SeriesKey) (completed : List (Row × CompletedAggregate)) :
    List AggregatedBucket :=
  (completed.filter fun c => rowKey c.1 = k).map fun c => c.2.bucket

/-- The snapshots of a run, with all that they return. -/
def ingestAll (hourly : UInt64 → UInt64 × UInt64) :
    HistogramHistory → List SnapshotData → List (Row × CompletedAggregate) × HistogramHistory
  | h, [] => ([], h)
  | h, s :: rest =>
    let (completed, h) := ingestRows hourly s.timestampMs h (rows s)
    let (later, h) := ingestAll hourly h rest
    (completed ++ later, h)

/-- One call of `ingest_snapshot_collect_completed`, after the ones that returned `acc.1`. -/
def collectCompleted (hourly : UInt64 → UInt64 × UInt64) (acc : List CompletedAggregate × HistogramHistory)
    (s : SnapshotData) : List CompletedAggregate × HistogramHistory :=
  let (completed, h) := ingestSnapshotCollectCompleted hourly acc.2 s
  (acc.1 ++ completed, h)

/-- **A run is that of `ingest_snapshot_collect_completed`.** -/
theorem ingestAll_eq_foldl (hourly : UInt64 → UInt64 × UInt64) (h : HistogramHistory)
    (snapshots : List SnapshotData) (acc : List CompletedAggregate) :
    (acc ++ (ingestAll hourly h snapshots).1.map Prod.snd, (ingestAll hourly h snapshots).2) =
      snapshots.foldl (collectCompleted hourly) (acc, h) := by
  induction snapshots generalizing h acc with
  | nil =>
    show (acc ++ [], h) = (acc, h)
    rw [List.append_nil]
  | cons s rest ih =>
    rw [List.foldl_cons]
    unfold ingestAll
    dsimp only
    rw [List.map_append, ← List.append_assoc]
    exact ih _ _

/-- A bucket with the names of its row. -/
def aggregateOf (b : AggregatedBucket) : Row → CompletedAggregate
  | .iface item => .iface item.ifname b
  | .device item => .device item.logicalIface item.mac b

theorem ingestRow_named {hourly : UInt64 → UInt64 × UInt64} {h : HistogramHistory} {tsMs : UInt64} {row : Row}
    {a : CompletedAggregate} (ha : (ingestRow hourly h tsMs row).1 = some a) :
    a = aggregateOf a.bucket row := by
  cases row with
  | iface item =>
    obtain ⟨b, -, rfl⟩ := Option.map_eq_some_iff.mp ha
    rfl
  | device item =>
    obtain ⟨b, -, rfl⟩ := Option.map_eq_some_iff.mp ha
    rfl

theorem ingestRows_named {hourly : UInt64 → UInt64 × UInt64} {tsMs : UInt64} (rs : List Row)
    (h : HistogramHistory) :
    ∀ c ∈ (ingestRows hourly tsMs h rs).1, c.2 = aggregateOf c.2.bucket c.1 := by
  induction rs generalizing h with
  | nil => exact fun c hc => absurd hc List.not_mem_nil
  | cons row rest ih =>
    intro c hc
    rcases List.mem_append.mp hc with hc | hc
    · obtain ⟨a, ha, rfl⟩ := Option.map_eq_some_iff.mp (Option.mem_toList.mp hc)
      exact ingestRow_named ha
    · exact ih _ c hc

/-- **What is returned carries the names of its row.** -/
theorem ingestAll_named {hourly : UInt64 → UInt64 × UInt64} (snapshots : List SnapshotData)
    (h : HistogramHistory) : ∀ c ∈ (ingestAll hourly h snapshots).1, c.2 = aggregateOf c.2.bucket c.1 := by
  induction snapshots generalizing h with
  | nil => exact fun c hc => absurd hc List.not_mem_nil
  | cons s rest ih =>
    intro c hc
    rcases List.mem_append.mp hc with hc | hc
    · exact ingestRows_named _ _ c hc
    · exact ih _ c hc

/-! ### One series -/

section Series
variable {K : Type} [DecidableEq K] {maxHours : ℕ} {hourly : UInt64 → UInt64 × UInt64}
  {times : List UInt64} {m : SeriesMap K} {key : K} {returned : List AggregatedBucket}
  {xs : List Sample} {now ts : UInt64}

/-- **The series in memory tracks its samples**: of all the buckets completed so far, each returned
once and finalized, the last `maxHours` are in memory. -/
def Tracks (maxHours : ℕ) (hourly : UInt64 → UInt64 × UInt64) (times : List UInt64)
    (m : SeriesMap K) (key : K) (returned : List AggregatedBucket) (xs : List Sample)
    (now : UInt64) : Prop :=
  ∃ done, returned = done.map AggregatedBucket.finalize ∧
    completedOf m key = done.rtake maxHours ∧
    SeriesOk hourly times done (m.current.lookup key) xs now

theorem completedOf_restoreBucket (maxHours : ℕ) (m : SeriesMap K) (key key' : K)
    (bucket : AggregatedBucket) :
    completedOf (restoreBucket maxHours m key bucket) key' =
      if key' = key then (completedOf m key ++ [bucket]).rtake maxHours else completedOf m key' := by
  unfold completedOf restoreBucket
  dsimp only
  rw [lookup_upsert_eq]
  split_ifs
  · rfl
  · rfl

theorem tracks_later (h : Tracks maxHours hourly times m key returned xs now) (hle : now ≤ ts) :
    Tracks maxHours hourly times m key returned xs ts := by
  obtain ⟨done, hret, hcomp, hok⟩ := h
  exact ⟨done, hret, hcomp, hok.later hle⟩

/-- The empty bucket of an hour. -/
def freshBucket (hourly : UInt64 → UInt64 × UInt64) (ts : UInt64) : AggregatedBucket :=
  .empty (hourly ts).1 (hourly ts).2

/-- What a sample does to its series. -/
theorem ingestSeries_cases (maxHours : ℕ) (hourly : UInt64 → UInt64 × UInt64) (m : SeriesMap K)
    (key : K) (ts : UInt64) (metrics : CounterQuad) :
    (∃ b, m.current.lookup key = some b ∧ b.startTsMs = (hourly ts).1 ∧
      ingestSeries maxHours hourly m key ts metrics =
        (none, { m with current := m.current.insert key (addSample b metrics) })) ∨
    (m.current.lookup key = none ∧
      ingestSeries maxHours hourly m key ts metrics =
        (none, { m with
          current := m.current.insert key (addSample (freshBucket hourly ts) metrics) })) ∨
    ∃ b, m.current.lookup key = some b ∧ b.startTsMs ≠ (hourly ts).1 ∧
      ingestSeries maxHours hourly m key ts metrics =
        (some b.finalize, { restoreBucket maxHours m key b with
          current := m.current.insert key (addSample (freshBucket hourly ts) metrics) }) := by
  unfold ingestSeries
  dsimp only
  cases hcur : m.current.lookup key with
  | none =>
    refine Or.inr (Or.inl ⟨rfl, ?_⟩)
    rw [Option.getD_none, if_neg fun hne => hne rfl]
    rfl
  | some b =>
    rw [Option.getD_some]
    by_cases hstart : b.startTsMs = (hourly ts).1
    · refine Or.inl ⟨b, rfl, hstart, ?_⟩
      rw [if_neg (not_not.mpr hstart)]
    · refine Or.inr (Or.inr ⟨b, rfl, hstart, ?_⟩)
      rw [if_pos hstart]
      rfl

/-- **A sample keeps the invariant of its series.** -/
theorem tracks_ingestSeries (h : Tracks maxHours hourly times m key returned xs now)
    (hw : HourWindows hourly times) (hts : ts ∈ times) (hle : now ≤ ts) (metrics : CounterQuad)
    (hfits : FitsU64 (samplesIn hourly (hourly ts) (xs ++ [⟨ts, metrics⟩]))) :
    Tracks maxHours hourly times (ingestSeries maxHours hourly m key ts metrics).2 key
      (returned ++ (ingestSeries maxHours hourly m key ts metrics).1.toList)
      (xs ++ [⟨ts, metrics⟩]) ts := by
  obtain ⟨done, hret, hcomp, hok⟩ := h
  rcases ingestSeries_cases maxHours hourly m key ts metrics with
    ⟨b, hcur, hstart, heq⟩ | ⟨hcur, heq⟩ | ⟨b, hcur, hstart, heq⟩
  · rw [heq]
    rw [hcur] at hok
    refine ⟨done, ?_, hcomp, ?_⟩
    · rw [Option.toList_none, List.append_nil, hret]
    · rw [AList.lookup_insert]
      exact hok.sameBucket hw hts hle hstart metrics hfits
  · rw [heq]
    rw [hcur] at hok
    refine ⟨done, ?_, hcomp, ?_⟩
    · rw [Option.toList_none, List.append_nil, hret]
    · have hne : ∀ b', (none : Option AggregatedBucket) = some b' → b'.startTsMs ≠ (hourly ts).1 :=
        fun b' hb' => absurd hb'.symm (Option.some_ne_none b')
      have hnew := hok.newBucket hw hts hle hne metrics
      rw [Option.toList_none, List.append_nil] at hnew
      rw [AList.lookup_insert]
      exact hnew
  · rw [heq]
    rw [hcur] at hok
    refine ⟨done ++ [b], ?_, ?_, ?_⟩
    · rw [hret, List.map_append]
      rfl
    · have hrest := completedOf_restoreBucket maxHours m key key b
      rw [if_pos rfl, hcomp, rtake_append_rtake] at hrest
      exact hrest
    · have hne : ∀ b', some b = some b' → b'.startTsMs ≠ (hourly ts).1 := by
        rintro b' hb'
        rw [← Option.some.inj hb']
        exact hstart
      have hnew := hok.newBucket hw hts hle hne metrics
      rw [AList.lookup_insert]
      exact hnew

/-- **A flush keeps it.** -/
theorem tracks_flushSeries (h : Tracks maxHours hourly times m key returned xs now)
    (hle : now ≤ ts) :
    Tracks maxHours hourly times (flushSeries maxHours m key ts).2 key
      (returned ++ (flushSeries maxHours m key ts).1.toList) xs ts := by
  have hlater := tracks_later h hle
  unfold flushSeries
  cases hcur : m.current.lookup key with
  | none =>
    dsimp only
    rw [Option.toList_none, List.append_nil]
    exact hlater
  | some b =>
    dsimp only
    by_cases hend : b.endTsMs < ts
    · rw [if_pos hend]
      obtain ⟨done, hret, hcomp, hok⟩ := h
      rw [hcur] at hok
      refine ⟨done ++ [b.finalize], ?_, ?_, ?_⟩
      · rw [hret, List.map_append, List.map_singleton, AggregatedBucket.finalize_finalize]
        rfl
      · have hrest := completedOf_restoreBucket maxHours
          { m with current := m.current.erase key } key key b.finalize
        have hsame : completedOf { m with current := m.current.erase key } key =
          completedOf m key := rfl
        rw [if_pos rfl, hsame, hcomp, rtake_append_rtake] at hrest
        exact hrest
      · show SeriesOk _ _ _ ((m.current.erase key).lookup key) _ _
        rw [AList.lookup_erase]
        exact hok.flush hle hend
    · rw [if_neg hend, Option.toList_none, List.append_nil]
      exact hlater

/-- A series that a step leaves as it is. -/
theorem tracks_congr {m' : SeriesMap K} (h : Tracks maxHours hourly times m key returned xs now)
    (hcur : m'.current.lookup key = m.current.lookup key)
    (hcomp : completedOf m' key = completedOf m key) :
    Tracks maxHours hourly times m' key returned xs now := by
  obtain ⟨done, hret, hdone, hok⟩ := h
  exact ⟨done, hret, hcomp.trans hdone, by rw [hcur]; exact hok⟩

theorem ingestSeries_other (maxHours : ℕ) (hourly : UInt64 → UInt64 × UInt64) (m : SeriesMap K)
    (ts : UInt64) (metrics : CounterQuad) {key' : K} (hne : key' ≠ key) :
    (ingestSeries maxHours hourly m key ts metrics).2.current.lookup key' = m.current.lookup key' ∧
      completedOf (ingestSeries maxHours hourly m key ts metrics).2 key' = completedOf m key' := by
  rcases ingestSeries_cases maxHours hourly m key ts metrics with
    ⟨b, -, -, heq⟩ | ⟨-, heq⟩ | ⟨b, -, -, heq⟩
  · rw [heq]
    exact ⟨AList.lookup_insert_ne hne, rfl⟩
  · rw [heq]
    exact ⟨AList.lookup_insert_ne hne, rfl⟩
  · rw [heq]
    refine ⟨AList.lookup_insert_ne hne, ?_⟩
    have hrest := completedOf_restoreBucket maxHours m key key' b
    rw [if_neg hne] at hrest
    exact hrest

theorem flushSeries_other (maxHours : ℕ) (m : SeriesMap K) (ts : UInt64) {key' : K}
    (hne : key' ≠ key) :
    (flushSeries maxHours m key ts).2.current.lookup key' = m.current.lookup key' ∧
      completedOf (flushSeries maxHours m key ts).2 key' = completedOf m key' := by
  unfold flushSeries
  split
  · exact ⟨rfl, rfl⟩
  · next b hb =>
    dsimp only
    split_ifs
    · refine ⟨AList.lookup_erase_ne hne, ?_⟩
      have hrest := completedOf_restoreBucket maxHours
        { m with current := m.current.erase key } key key' b.finalize
      rw [if_neg hne] at hrest
      exact hrest
    · exact ⟨rfl, rfl⟩

end Series

/-! ### Rows -/

section Rows
variable {hourly : UInt64 → UInt64 × UInt64} {times : List UInt64} {h : HistogramHistory}
  {k : SeriesKey} {returned : List AggregatedBucket} {xs : List Sample} {now ts : UInt64}

/-- The histogram tracks the samples of a series. -/
def TracksSeries (hourly : UInt64 → UInt64 × UInt64) (times : List UInt64) (h : HistogramHistory) :
    SeriesKey → List AggregatedBucket → List Sample → UInt64 → Prop
  | .iface ifindex => Tracks h.maxHours hourly times h.iface ifindex
  | .device key => Tracks h.maxHours hourly times h.device key

theorem tracksSeries_later (htr : TracksSeries hourly times h k returned xs now) (hle : now ≤ ts) :
    TracksSeries hourly times h k returned xs ts := by
  cases k with
  | iface ifindex => exact tracks_later htr hle
  | device key => exact tracks_later htr hle

/-- A row and its own series. -/
theorem tracksSeries_ingestRow_self (row : Row)
    (htr : TracksSeries hourly times h (rowKey row) returned xs now)
    (hw : HourWindows hourly times) (hts : ts ∈ times) (hle : now ≤ ts)
    (hfits : FitsU64 (samplesIn hourly (hourly ts) (xs ++ (rowSample ts row).toList))) :
    TracksSeries hourly times (ingestRow hourly h ts row).2 (rowKey row)
      (returned ++ ((ingestRow hourly h ts row).1.map CompletedAggregate.bucket).toList)
      (xs ++ (rowSample ts row).toList) ts := by
  have hbucket : ∀ (f : AggregatedBucket → CompletedAggregate) (b : Option AggregatedBucket),
      (∀ b, (f b).bucket = b) → (b.map f).map CompletedAggregate.bucket = b := by
    intro f b hf
    rw [Option.map_map]
    cases b with
    | none => rfl
    | some b => exact congrArg some (hf b)
  cases row with
  | iface item =>
    have hnew := tracks_ingestSeries htr hw hts hle item.metrics hfits
    unfold ingestRow
    dsimp only
    rw [hbucket _ _ fun _ => rfl]
    exact hnew
  | device item =>
    have hsample : rowSample ts (.device item) =
        if !item.online && item.metrics.isEmpty then none else some ⟨ts, item.metrics⟩ := rfl
    rw [hsample] at hfits ⊢
    unfold ingestRow
    dsimp only
    rw [hbucket _ _ fun _ => rfl]
    by_cases hidle : (!item.online && item.metrics.isEmpty) = true
    · rw [if_pos hidle, if_pos hidle, Option.toList_none, List.append_nil]
      exact tracks_flushSeries htr hle
    · rw [if_neg hidle] at hfits
      rw [if_neg hidle, if_neg hidle]
      exact tracks_ingestSeries htr hw hts hle item.metrics hfits

/-- A row and another series. -/
theorem tracksSeries_ingestRow_other (row : Row) (hne : rowKey row ≠ k)
    (htr : TracksSeries hourly times h k returned xs now) :
    TracksSeries hourly times (ingestRow hourly h ts row).2 k returned xs now := by
  cases row with
  | iface item =>
    cases k with
    | device key => exact htr
    | iface ifindex =>
      have hkey : ifindex ≠ item.ifindex := fun heq => hne (by rw [heq]; rfl)
      obtain ⟨hcur, hcomp⟩ := ingestSeries_other h.maxHours hourly h.iface ts item.metrics hkey
      exact tracks_congr htr hcur hcomp
  | device item =>
    cases k with
    | iface ifindex => exact htr
    | device key =>
      have hkey : key ≠ deviceSeriesKey item := fun heq => hne (by rw [heq]; rfl)
      unfold ingestRow
      dsimp only
      by_cases hidle : (!item.online && item.metrics.isEmpty) = true
      · rw [if_pos hidle]
        obtain ⟨hcur, hcomp⟩ := flushSeries_other h.maxHours h.device ts hkey
        exact tracks_congr htr hcur hcomp
      · rw [if_neg hidle]
        obtain ⟨hcur, hcomp⟩ := ingestSeries_other h.maxHours hourly h.device ts item.metrics hkey
        exact tracks_congr htr hcur hcomp

/-! ### Runs -/

theorem fitsU64_of_append {as bs : List CounterQuad} (hfits : FitsU64 (as ++ bs)) : FitsU64 as := by
  refine ⟨?_, fun l => ?_, fun l => ?_⟩
  · have := hfits.sampleCount
    rw [List.length_append] at this
    omega
  · have := hfits.bytes l
    rw [List.map_append, List.sum_append] at this
    omega
  · have := hfits.bps l
    rw [List.map_append, List.sum_append] at this
    omega

/-- The samples of every hour fit in 64 bits. -/
def AllFit (hourly : UInt64 → UInt64 × UInt64) (xs : List Sample) : Prop :=
  ∀ hour, FitsU64 (samplesIn hourly hour xs)

theorem allFit_of_append {xs ys : List Sample} (hfit : AllFit hourly (xs ++ ys)) :
    AllFit hourly xs := by
  intro hour
  have := hfit hour
  unfold samplesIn at this
  rw [List.filter_append, List.map_append] at this
  exact fitsU64_of_append this

theorem returnedFor_append (k : SeriesKey) (as bs : List (Row × CompletedAggregate)) :
    returnedFor k (as ++ bs) = returnedFor k as ++ returnedFor k bs := by
  unfold returnedFor
  rw [List.filter_append, List.map_append]

theorem ingestRows_cons (h : HistogramHistory) (row : Row) (rest : List Row) :
    ingestRows hourly ts h (row :: rest) =
      (((ingestRow hourly h ts row).1.map fun a => (row, a)).toList ++
        (ingestRows hourly ts (ingestRow hourly h ts row).2 rest).1,
        (ingestRows hourly ts (ingestRow hourly h ts row).2 rest).2) := rfl

/-- **The rows of a snapshot keep the invariant of every series.** -/
theorem tracksSeries_ingestRows (rs : List Row)
    (htr : TracksSeries hourly times h k returned xs now) (hw : HourWindows hourly times)
    (hts : ts ∈ times) (hle : now ≤ ts) (hfits : AllFit hourly (xs ++ samplesOfRows k ts rs)) :
    TracksSeries hourly times (ingestRows hourly ts h rs).2 k
      (returned ++ returnedFor k (ingestRows hourly ts h rs).1)
      (xs ++ samplesOfRows k ts rs) ts := by
  induction rs generalizing h returned xs now with
  | nil =>
    have hret : returnedFor k (ingestRows hourly ts h []).1 = [] := rfl
    have hsamples : samplesOfRows k ts [] = [] := rfl
    rw [hret, hsamples, List.append_nil, List.append_nil]
    exact tracksSeries_later htr hle
  | cons row rest ih =>
    by_cases hkey : rowKey row = k
    · subst hkey
      have hsamples : samplesOfRows (rowKey row) ts (row :: rest) =
          (rowSample ts row).toList ++ samplesOfRows (rowKey row) ts rest := by
        unfold samplesOfRows
        rw [List.filter_cons_of_pos (by simp), List.filterMap_cons]
        cases rowSample ts row <;> rfl
      have hret : returnedFor (rowKey row) (ingestRows hourly ts h (row :: rest)).1 =
          ((ingestRow hourly h ts row).1.map CompletedAggregate.bucket).toList ++
            returnedFor (rowKey row) (ingestRows hourly ts (ingestRow hourly h ts row).2 rest).1 := by
        rw [ingestRows_cons, returnedFor_append]
        congr 1
        unfold returnedFor
        cases (ingestRow hourly h ts row).1 with
        | none => rfl
        | some a => simp
      rw [hsamples, ← List.append_assoc] at hfits
      have hstep := tracksSeries_ingestRow_self row htr hw hts hle (allFit_of_append hfits _)
      have hrest := ih hstep (UInt64.le_refl ts) hfits
      rw [hsamples, hret, ← List.append_assoc, ← List.append_assoc]
      exact hrest
    · have hsamples : samplesOfRows k ts (row :: rest) = samplesOfRows k ts rest := by
        unfold samplesOfRows
        rw [List.filter_cons_of_neg (by simpa using hkey)]
      have hret : returnedFor k (ingestRows hourly ts h (row :: rest)).1 =
          returnedFor k (ingestRows hourly ts (ingestRow hourly h ts row).2 rest).1 := by
        rw [ingestRows_cons, returnedFor_append, List.append_left_eq_self]
        unfold returnedFor
        cases (ingestRow hourly h ts row).1 with
        | none => rfl
        | some a => simp [hkey]
      rw [hsamples] at hfits
      rw [hsamples, hret]
      exact ih (tracksSeries_ingestRow_other row hkey htr) hle hfits

theorem tracksSeries_ingestAll (snapshots : List SnapshotData)
    (htr : TracksSeries hourly times h k returned xs now) (hw : HourWindows hourly times)
    (htimes : ∀ s ∈ snapshots, s.timestampMs ∈ times)
    (hmono : (now :: snapshots.map SnapshotData.timestampMs).Pairwise (· ≤ ·))
    (hfits : AllFit hourly (xs ++ samplesFor k snapshots)) :
    ∃ last, TracksSeries hourly times (ingestAll hourly h snapshots).2 k
      (returned ++ returnedFor k (ingestAll hourly h snapshots).1)
      (xs ++ samplesFor k snapshots) last := by
  induction snapshots generalizing h returned xs now with
  | nil =>
    have hret : returnedFor k (ingestAll hourly h []).1 = [] := rfl
    have hsamples : samplesFor k [] = [] := rfl
    rw [hret, hsamples, List.append_nil, List.append_nil]
    exact ⟨now, htr⟩
  | cons s rest ih =>
    have hsamples : samplesFor k (s :: rest) =
        samplesOfRows k s.timestampMs (rows s) ++ samplesFor k rest := rfl
    have hret : returnedFor k (ingestAll hourly h (s :: rest)).1 =
        returnedFor k (ingestRows hourly s.timestampMs h (rows s)).1 ++
          returnedFor k (ingestAll hourly (ingestRows hourly s.timestampMs h (rows s)).2 rest).1 :=
      returnedFor_append k _ _
    rw [hsamples, ← List.append_assoc] at hfits
    have hle : now ≤ s.timestampMs := List.rel_of_pairwise_cons hmono List.mem_cons_self
    have hstep := tracksSeries_ingestRows (rows s) htr hw (htimes s List.mem_cons_self) hle
      (allFit_of_append hfits)
    have hrest := ih hstep (fun s' hs' => htimes s' (List.mem_cons_of_mem _ hs')) hmono.of_cons hfits
    rw [hsamples, hret, ← List.append_assoc, ← List.append_assoc]
    exact hrest

end Rows

end BandixPlus.Monitor.HistogramRun
