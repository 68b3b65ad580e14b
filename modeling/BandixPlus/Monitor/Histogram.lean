import BandixPlus.Lib.Maps
import BandixPlus.Monitor.Snapshot
import BandixPlus.Monitor.Windows
import Mathlib.Data.List.DropRight

/-! # The histogram of completed hours

`monitor.rs`, `HistogramHistory`: for every interface and every device the bucket of the current hour
and the completed buckets, at most `maxHours` of them. The source has the same code once for
interfaces and once for devices; here both are a `SeriesMap`.

`hourly` stands for `hourly_bucket_local`; `hourOf` is that function where it does not panic. -/

namespace BandixPlus.Monitor.Histogram

open BandixPlus.Lib.LocalTime BandixPlus.Lib.Maps
open BandixPlus.Monitor.Counters BandixPlus.Monitor.Snapshot BandixPlus.Monitor.Windows

structure DeviceSeriesKey where
  ifindex : UInt32
  mac : String
  deriving DecidableEq

inductive CompletedAggregate where
  | iface (iface : String) (bucket : AggregatedBucket)
  | device (iface mac : String) (bucket : AggregatedBucket)

def CompletedAggregate.bucket : CompletedAggregate → AggregatedBucket
  | .iface _ bucket => bucket
  | .device _ _ bucket => bucket

/-- The current buckets and the queues of completed ones, by series. -/
structure SeriesMap (K : Type) where
  current : HashMap K AggregatedBucket
  completed : HashMap K (List AggregatedBucket)

structure HistogramHistory where
  maxHours : ℕ
  maxHours_pos : 0 < maxHours
  iface : SeriesMap UInt32
  device : SeriesMap DeviceSeriesKey

def HistogramHistory.withCapacityHours (maxHours : ℕ) (h : 0 < maxHours) : HistogramHistory where
  maxHours
  maxHours_pos := h
  iface := ⟨∅, ∅⟩
  device := ⟨∅, ∅⟩

/-- Drop from the front while there are more than `maxHours`. -/
def trimHistogramCompleted (queue : List AggregatedBucket) (maxHours : ℕ) : List AggregatedBucket :=
  queue.rtake maxHours

/-- Count one sample in a bucket. -/
def addSample (entry : AggregatedBucket) (metrics : CounterQuad) : AggregatedBucket :=
  { entry with
    bytes := addSat entry.bytes metrics.bytes
    bpsMin :=
      if entry.sampleCount = 0 then metrics.bps else Quad.zip min entry.bpsMin metrics.bps
    bpsMax := Quad.zip max entry.bpsMax metrics.bps
    bpsSum := addSat entry.bpsSum metrics.bps
    sampleCount := entry.sampleCount + 1 }

section Series
variable {K : Type} [DecidableEq K] (maxHours : ℕ) (hourly : UInt64 → UInt64 × UInt64)

/-- The queue of a series. -/
def completedOf (m : SeriesMap K) (key : K) : List AggregatedBucket :=
  (m.completed.lookup key).getD []

/-- `restore_iface_bucket` and `restore_device_bucket`: one more completed bucket. -/
def restoreBucket (m : SeriesMap K) (key : K) (bucket : AggregatedBucket) : SeriesMap K :=
  { m with completed :=
      upsert key [] (fun q => trimHistogramCompleted (q ++ [bucket]) maxHours) m.completed }

/-- `ingest_iface` and `ingest_device`: the bucket that the sample closes is completed as it is, and
returned finalized. -/
def ingestSeries (m : SeriesMap K) (key : K) (tsMs : UInt64) (metrics : CounterQuad) :
    Option AggregatedBucket × SeriesMap K :=
  let (newStart, newEnd) := hourly tsMs
  let entry := (m.current.lookup key).getD (.empty newStart newEnd)
  if entry.startTsMs ≠ newStart then
    let m := restoreBucket maxHours m key entry
    (some entry.finalize,
      { m with current := m.current.insert key (addSample (.empty newStart newEnd) metrics) })
  else (none, { m with current := m.current.insert key (addSample entry metrics) })

/-- The flush of an idle device: a bucket whose hour is over is finalized, then completed. -/
def flushSeries (m : SeriesMap K) (key : K) (tsMs : UInt64) :
    Option AggregatedBucket × SeriesMap K :=
  match m.current.lookup key with
  | none => (none, m)
  | some bucket =>
    if bucket.endTsMs < tsMs then
      let m := { m with current := m.current.erase key }
      (some bucket.finalize, restoreBucket maxHours m key bucket.finalize)
    else (none, m)

end Series

/-- `hourly_bucket_local` of a zone, on the timestamps for which it returns. -/
def hourOf (z : Zone) (tsMs : UInt64) : UInt64 × UInt64 := (hourlyBucketLocal z tsMs).getD (0, 0)

/-- A row of a snapshot. -/
inductive Row where
  | iface (item : InterfaceOverviewItem)
  | device (item : DeviceListItem)

def deviceSeriesKey (item : DeviceListItem) : DeviceSeriesKey := ⟨item.ifindex, item.mac⟩

/-- The rows of a snapshot in the order in which they are ingested. -/
def rows (snapshot : SnapshotData) : List Row :=
  snapshot.interfaces.map .iface ++ snapshot.devices.map .device

def ingestRow (hourly : UInt64 → UInt64 × UInt64) (h : HistogramHistory) (tsMs : UInt64) :
    Row → Option CompletedAggregate × HistogramHistory
  | .iface item =>
    let (bucket, series) := ingestSeries h.maxHours hourly h.iface item.ifindex tsMs item.metrics
    (bucket.map (.iface item.ifname), { h with iface := series })
  | .device item =>
    let (bucket, series) :=
      if !item.online && item.metrics.isEmpty then
        flushSeries h.maxHours h.device (deviceSeriesKey item) tsMs
      else ingestSeries h.maxHours hourly h.device (deviceSeriesKey item) tsMs item.metrics
    (bucket.map (.device item.logicalIface item.mac), { h with device := series })

/-- Ingest rows of one timestamp; each completed aggregate comes with the row that completed it. -/
def ingestRows (hourly : UInt64 → UInt64 × UInt64) (tsMs : UInt64) :
    HistogramHistory → List Row → List (Row × CompletedAggregate) × HistogramHistory
  | h, [] => ([], h)
  | h, row :: rest =>
    let (completed, h) := ingestRow hourly h tsMs row
    let (later, h) := ingestRows hourly tsMs h rest
    ((completed.map fun a => (row, a)).toList ++ later, h)

/-- `ingest_snapshot_collect_completed`. -/
def ingestSnapshotCollectCompleted (hourly : UInt64 → UInt64 × UInt64) (h : HistogramHistory)
    (snapshot : SnapshotData) : List CompletedAggregate × HistogramHistory :=
  let (completed, h) := ingestRows hourly snapshot.timestampMs h (rows snapshot)
  (completed.map Prod.snd, h)

end BandixPlus.Monitor.Histogram
