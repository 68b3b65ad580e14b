import BandixPlus.Api.Aggregate
import BandixPlus.Lib.Windowed
import BandixPlus.Service.Cleanup

/-! # The trend

`monitor.rs`, `query_iface` and `query_device`, and the handler of `/api/trend`: the recent samples of an
interface or of a device.

* `trend_of_service`: after every run of the service the trend of an interface has its last rows, and that of
  a device its last active rows since its deletion, in the order of time, added up where the clock stood
  still. -/

namespace BandixPlus.Api.Trend

open BandixPlus.Api.Aggregate BandixPlus.Common BandixPlus.Lib.Maps BandixPlus.Lib.RingBuffer
open BandixPlus.Lib.Run BandixPlus.Lib.Sorting BandixPlus.Lib.Tally BandixPlus.Lib.Windowed
open BandixPlus.Monitor.Counters BandixPlus.Monitor.Collect BandixPlus.Monitor.Cumulative
open BandixPlus.Monitor.Devices BandixPlus.Monitor.Histogram BandixPlus.Monitor.Interfaces
open BandixPlus.Monitor.Neighbors BandixPlus.Monitor.Registry BandixPlus.Monitor.Runtime
open BandixPlus.Monitor.Session BandixPlus.Monitor.Snapshot BandixPlus.Monitor.Topology
open BandixPlus.Net.Text BandixPlus.Service.Cleanup BandixPlus.Service.State

/-! ### The handler -/

inductive HistoryDirection where
  | both | up | down
  deriving DecidableEq

def parseDirection (input : Option String) : HistoryDirection :=
  let direction := toAsciiLowercase (input.getD "both")
  if direction = "up" then .up else if direction = "down" then .down else .both

@[ext] structure HistorySample where
  tsMs : UInt64
  bps : Quad UInt64
  bytes : Quad UInt64
  bytesCumulative : Quad UInt64
  deriving DecidableEq

def historySample (tsMs : UInt64) (metrics cumulative : CounterQuad) : HistorySample :=
  ⟨tsMs, metrics.bps, metrics.bytes, cumulative.bytes⟩

def seriesToSamples (series : List HistoryPoint) : List HistorySample :=
  series.map fun point => historySample point.tsMs point.metrics point.cumulative

/-- The type of traffic and the direction are not looked at. -/
def queryIface (h : TrafficHistory) (ifindex : UInt32) (_trafficType : HistoryTrafficType)
    (_direction : HistoryDirection) : List HistorySample :=
  match h.ifaceSeries.lookup ifindex with
  | none => []
  | some series => seriesToSamples series

/-- Metrics and totals under each time. -/
abbrev Merged := HashMap UInt64 (CounterQuad × CounterQuad)

/-- The points of a series are added to what has their times. -/
def mergeSeries (merged : Merged) (series : List HistoryPoint) : Merged :=
  tally (fun point : HistoryPoint => some point.tsMs) (.zero, .zero)
    (fun entry point => (addQuad entry.1 point.metrics, addQuad entry.2 point.cumulative)) series merged

/-- The entries come out in the order of their times. -/
def mergedSamples (merged : Merged) : List HistorySample :=
  (merged.entries.mergeSort fun e e' => e.1 ≤ e'.1).map fun e => historySample e.1 e.2.1 e.2.2

/-- A series that is asked for, on one interface or on all of them. -/
def asked (ifindex : Option UInt32) (mac : String) (key : DeviceSeriesKey) : Bool :=
  ifindex.all (· = key.ifindex) && eqIgnoreAsciiCase key.mac mac

def queryDevice (o : IterOrder) (h : TrafficHistory) (ifindex : Option UInt32) (mac : String)
    (_trafficType : HistoryTrafficType) (_direction : HistoryDirection) : List HistorySample :=
  mergedSamples ((o.order h.deviceSeries.entries).foldl (fun merged e =>
    if asked ifindex mac e.1 then mergeSeries merged e.2 else merged) ∅)

structure HistoryQuery where
  iface : Option String
  mac : Option String
  trafficType : Option String
  direction : Option String

/-- The MAC address that a query names. -/
def HistoryQuery.device (q : HistoryQuery) : Option String := q.mac.filter fun s => trim s ≠ ""

def history (o : IterOrder) (topology : TopologySnapshot) (snapshot : SnapshotData) (h : TrafficHistory)
    (q : HistoryQuery) : ApiEnvelope (List HistorySample) :=
  match resolveQueryIfaceToIfindex o topology snapshot q.iface with
  | .error e => ⟨false, [], some e⟩
  | .ok ifindex =>
    let trafficType := parseTrafficType q.trafficType
    let direction := parseDirection q.direction
    let result :=
      match q.device with
      | some mac => queryDevice o h (some ifindex) mac trafficType direction
      | none => queryIface h ifindex trafficType direction
    ⟨true, result, none⟩

/-! ### What is recorded -/

/-- What a step of the service records in the history. -/
inductive Event where
  | snapshot (data : SnapshotData)
  | removed (key : DeviceKey)

/-- A tick records its snapshot; a deletion, and the cleanup when it is due, remove devices. -/
def eventsOf (opts : Options) (st : ServiceState) (x : Input) : List Event :=
  match x.2 with
  | .tick tick => ((collectSnapshot opts.config x.1 tick st.runtime).1.map Event.snapshot).toList
  | .cleanup _ _ =>
    match st.cleanup with
    | some ⟨_, staleDevices, _, .history⟩ => staleDevices.map .removed
    | _ => []
  | .hostname _ _ _ _ _ => []
  | .delete o iface mac =>
    match x.1.ifindexByName o (trim iface), macFromStr (trim mac) with
    | some ifindex, .ok mac => [.removed (ifindex, mac)]
    | _, _ => []

/-- What a run records, oldest first. -/
def recorded (opts : Options) : ServiceState → List Input → List Event
  | _, [] => []
  | st, x :: xs => eventsOf opts st x ++ recorded opts (stepIn opts st x) xs

theorem recorded_cons (opts : Options) (st : ServiceState) (x : Input) (xs : List Input) :
    recorded opts st (x :: xs) = eventsOf opts st x ++ recorded opts (stepIn opts st x) xs := rfl

/-- The rows of an interface, one for each snapshot that has it. -/
def ifacePoints (ifindex : UInt32) (events : List Event) : List HistoryPoint :=
  events.flatMap fun
    | .snapshot data => (data.interfaces.filter fun iface => iface.ifindex = ifindex).map fun iface =>
      ⟨data.timestampMs, iface.metrics, iface.cumulative⟩
    | .removed _ => []

/-- A row that is recorded: the device is online, or has counted. -/
def active (dev : DeviceListItem) : Bool := dev.online || !dev.metrics.isEmpty

/-- The active rows of a device in a snapshot. -/
def rowPoints (ifindex : UInt32) (mac : String) (data : SnapshotData) : List HistoryPoint :=
  (data.devices.filter fun dev => active dev && ofDevice ifindex mac dev.ifindex dev.mac).map fun dev =>
    ⟨data.timestampMs, dev.metrics, dev.cumulative⟩

def devicePointsStep (ifindex : UInt32) (mac : String) (points : List HistoryPoint) :
    Event → List HistoryPoint
  | .snapshot data => points ++ rowPoints ifindex mac data
  | .removed key => if ofDevice ifindex mac key.1 (macToString key.2) then [] else points

/-- **The active rows of a device** since it was last removed. -/
def devicePoints (ifindex : UInt32) (mac : String) (events : List Event) : List HistoryPoint :=
  events.foldl (devicePointsStep ifindex mac) []

/-- **A trend of points**: one sample for each time, in the order of the times, with the sums of the points
of that time. -/
structure IsTrend (points : List HistoryPoint) (samples : List HistorySample) : Prop where
  increasing : samples.Pairwise fun s s' => s.tsMs < s'.tsMs
  times : ∀ ts, (∃ s ∈ samples, s.tsMs = ts) ↔ ∃ point ∈ points, point.tsMs = ts
  sums : ∀ s ∈ samples,
    let same := points.filter fun point => point.tsMs = s.tsMs
    s.bps = (same.map fun point => point.metrics.bps).sum ∧
      s.bytes = (same.map fun point => point.metrics.bytes).sum ∧
      s.bytesCumulative = (same.map fun point => point.cumulative.bytes).sum
  /-- Where the clock went on nothing is added up. -/
  plain : (points.Pairwise fun p p' => p.tsMs < p'.tsMs) → samples = seriesToSamples points

/-! ### The samples of a query -/

section
variable {points : List HistoryPoint}

theorem merged_fields (l : List HistoryPoint) (entry : CounterQuad × CounterQuad) :
    let merged := l.foldl (fun entry point =>
      (addQuad entry.1 point.metrics, addQuad entry.2 point.cumulative)) entry
    merged.1.bps = entry.1.bps + (l.map fun point => point.metrics.bps).sum ∧
      merged.1.bytes = entry.1.bytes + (l.map fun point => point.metrics.bytes).sum ∧
      merged.2.bytes = entry.2.bytes + (l.map fun point => point.cumulative.bytes).sum := by
  induction l generalizing entry with
  | nil => exact ⟨(add_zero _).symm, (add_zero _).symm, (add_zero _).symm⟩
  | cons point rest ih =>
    obtain ⟨hbps, hbytes, htotal⟩ := ih (addQuad entry.1 point.metrics, addQuad entry.2 point.cumulative)
    refine ⟨hbps.trans ?_, hbytes.trans ?_, htotal.trans ?_⟩
    all_goals
      rw [List.map_cons, List.sum_cons, ← add_assoc]
      rfl

/-- What the merged series have under a time. -/
theorem lookup_mergeSeries (points : List HistoryPoint) (ts : UInt64) :
    (mergeSeries ∅ points).lookup ts =
      if (points.filter fun point => point.tsMs = ts) = [] then none
      else some ((points.filter fun point => point.tsMs = ts).foldl (fun entry point =>
        (addQuad entry.1 point.metrics, addQuad entry.2 point.cumulative)) (.zero, .zero)) := by
  unfold mergeSeries
  rw [lookup_tally]
  simp only [Option.some.injEq, AList.lookup_empty, Option.getD_none]

theorem increasing_mergedSamples (merged : Merged) :
    (mergedSamples merged).Pairwise fun s s' => s.tsMs < s'.tsMs := by
  have hkeys : (merged.entries.map Sigma.fst).Nodup := merged.keys_nodup
  have hnodup : (merged.entries.mergeSort fun e e' => e.1 ≤ e'.1).Pairwise fun e e' => e.1 ≠ e'.1 :=
    List.pairwise_map.mp (((List.mergeSort_perm merged.entries _).map Sigma.fst).nodup_iff.mpr hkeys)
  have htrans : ∀ a b c : Σ _ : UInt64, CounterQuad × CounterQuad,
      decide (a.1 ≤ b.1) = true → decide (b.1 ≤ c.1) = true → decide (a.1 ≤ c.1) = true :=
    fun a b c hab hbc =>
      decide_eq_true (UInt64.le_trans (of_decide_eq_true hab) (of_decide_eq_true hbc))
  have htotal : ∀ a b : Σ _ : UInt64, CounterQuad × CounterQuad,
      (decide (a.1 ≤ b.1) || decide (b.1 ≤ a.1)) = true := fun a b => by
    rw [Bool.or_eq_true, decide_eq_true_iff, decide_eq_true_iff]
    exact UInt64.le_total a.1 b.1
  have hsorted := List.pairwise_mergeSort htrans htotal merged.entries
  refine List.pairwise_map.mpr ((hsorted.and hnodup).imp fun {e e'} h => ?_)
  exact UInt64.lt_of_le_of_ne (of_decide_eq_true h.1) h.2

theorem mem_mergedSamples {merged : Merged} {s : HistorySample} :
    s ∈ mergedSamples merged ↔ ∃ ts entry, merged.lookup ts = some entry ∧
      s = historySample ts entry.1 entry.2 := by
  unfold mergedSamples
  rw [List.mem_map]
  constructor
  · rintro ⟨⟨ts, entry⟩, he, rfl⟩
    exact ⟨ts, entry, mem_entries_iff.mp (List.mem_mergeSort.mp he), rfl⟩
  · rintro ⟨ts, entry, hlookup, rfl⟩
    exact ⟨⟨ts, entry⟩, List.mem_mergeSort.mpr (mem_entries_iff.mpr hlookup), rfl⟩

/-- Under a time that nothing shares with it a point is alone. -/
theorem filter_of_increasing {point : HistoryPoint}
    (h : points.Pairwise fun p p' => p.tsMs < p'.tsMs) (hmem : point ∈ points) :
    (points.filter fun p => p.tsMs = point.tsMs) = [point] := by
  induction points with
  | nil => cases hmem
  | cons first rest ih =>
    obtain ⟨hfirst, hrest⟩ := List.pairwise_cons.mp h
    rcases List.mem_cons.mp hmem with rfl | hmem
    · rw [List.filter_cons, if_pos (decide_eq_true rfl), List.filter_eq_nil_iff.mpr]
      intro p hp heq
      exact UInt64.ne_of_lt (hfirst p hp) (of_decide_eq_true heq).symm
    · rw [List.filter_cons_of_neg, ih hrest hmem]
      intro heq
      exact UInt64.ne_of_lt (hfirst point hmem) (of_decide_eq_true heq)

theorem mem_samples_iff {s : HistorySample} : s ∈ mergedSamples (mergeSeries ∅ points) ↔
    let same := points.filter fun point => point.tsMs = s.tsMs
    same ≠ [] ∧ s.bps = (same.map fun point => point.metrics.bps).sum ∧
      s.bytes = (same.map fun point => point.metrics.bytes).sum ∧
      s.bytesCumulative = (same.map fun point => point.cumulative.bytes).sum := by
  rw [mem_mergedSamples]
  dsimp only
  obtain ⟨hbps, hbytes, htotal⟩ :=
    merged_fields (points.filter fun point => point.tsMs = s.tsMs) (.zero, .zero)
  have hzero : ∀ q : Quad UInt64, CounterQuad.zero.bps + q = q := zero_add
  have hzero' : ∀ q : Quad UInt64, CounterQuad.zero.bytes + q = q := zero_add
  rw [hzero] at hbps
  rw [hzero'] at hbytes htotal
  constructor
  · rintro ⟨ts, entry, hlookup, rfl⟩
    rw [lookup_mergeSeries] at hlookup
    split_ifs at hlookup with hnil
    obtain rfl := Option.some.inj hlookup
    exact ⟨hnil, hbps, hbytes, htotal⟩
  · rintro ⟨hne, hs⟩
    exact ⟨s.tsMs, _, (lookup_mergeSeries points s.tsMs).trans (if_neg hne),
      HistorySample.ext rfl (hs.1.trans hbps.symm) (hs.2.1.trans hbytes.symm) (hs.2.2.trans htotal.symm)⟩

/-- **The merged series are a trend** of their points. -/
theorem isTrend_mergeSeries (points : List HistoryPoint) :
    IsTrend points (mergedSamples (mergeSeries ∅ points)) := by
  have hincreasing := increasing_mergedSamples (mergeSeries ∅ points)
  refine ⟨hincreasing, fun ts => ?_, fun s hs => (mem_samples_iff.mp hs).2, fun hplain => ?_⟩
  · constructor
    · rintro ⟨s, hs, rfl⟩
      obtain ⟨point, hpoint⟩ := List.exists_mem_of_ne_nil _ (mem_samples_iff.mp hs).1
      obtain ⟨hmem, hts⟩ := List.mem_filter.mp hpoint
      exact ⟨point, hmem, of_decide_eq_true hts⟩
    · rintro ⟨point, hmem, rfl⟩
      let same := points.filter fun p => p.tsMs = point.tsMs
      have hne : same ≠ [] :=
        List.ne_nil_of_mem (List.mem_filter.mpr ⟨hmem, decide_eq_true rfl⟩)
      exact ⟨⟨point.tsMs, (same.map fun p => p.metrics.bps).sum, (same.map fun p => p.metrics.bytes).sum,
        (same.map fun p => p.cumulative.bytes).sum⟩, mem_samples_iff.mpr ⟨hne, rfl, rfl, rfl⟩, rfl⟩
  · -- two lists in the order of time with the same samples
    have hplain' : (seriesToSamples points).Pairwise fun s s' => s.tsMs < s'.tsMs :=
      List.pairwise_map.mpr hplain
    have hnodup : ∀ {l : List HistorySample}, (l.Pairwise fun s s' => s.tsMs < s'.tsMs) → l.Nodup :=
      fun h => h.imp fun hlt heq => UInt64.ne_of_lt hlt (congrArg HistorySample.tsMs heq)
    refine List.Perm.eq_of_pairwise (fun s s' _ _ hlt hlt' => ?_) hincreasing hplain'
      ((List.perm_ext_iff_of_nodup (hnodup hincreasing) (hnodup hplain')).mpr fun s => ?_)
    · exact absurd hlt (UInt64.lt_asymm hlt')
    · rw [mem_samples_iff]
      unfold seriesToSamples
      rw [List.mem_map]
      constructor
      · rintro ⟨hne, hs⟩
        obtain ⟨point, hpoint⟩ := List.exists_mem_of_ne_nil _ hne
        obtain ⟨hmem, hts⟩ := List.mem_filter.mp hpoint
        have hts : point.tsMs = s.tsMs := of_decide_eq_true hts
        rw [← hts, filter_of_increasing hplain hmem] at hs
        simp only [List.map_cons, List.map_nil, List.sum_singleton] at hs
        obtain ⟨hbps, hbytes, htotal⟩ := hs
        exact ⟨point, hmem, HistorySample.ext hts hbps.symm hbytes.symm htotal.symm⟩
      · rintro ⟨point, hmem, rfl⟩
        have hsame : (points.filter fun p => p.tsMs =
            (historySample point.tsMs point.metrics point.cumulative).tsMs) = [point] :=
          filter_of_increasing hplain hmem
        dsimp only
        rw [hsame]
        simp only [List.map_cons, List.map_nil, List.sum_singleton]
        exact ⟨List.cons_ne_nil _ _, rfl, rfl, rfl⟩

end

/-! ### The history after a run -/

/-- What an event does to the history. -/
def applyEvent (h : TrafficHistory) : Event → TrafficHistory
  | .snapshot data => h.ingestSnapshot data
  | .removed key => (h.removeDevice key.1 (macToString key.2)).2

section
variable {opts : Options} {st : ServiceState}

/-- **A step of the service** does to the history what it records. -/
theorem history_stepIn (opts : Options) (st : ServiceState) (x : Input) :
    (stepIn opts st x).history = (eventsOf opts st x).foldl applyEvent st.history := by
  obtain ⟨topology, op⟩ := x
  unfold stepIn
  cases op with
  | tick tick =>
    show (collectorTick opts topology st tick).history =
      ((collectSnapshot opts.config topology tick st.runtime).1.map Event.snapshot).toList.foldl _ _
    unfold collectorTick
    split
    · next heq => rw [heq]; rfl
    · next heq =>
      rw [heq]
      dsimp only
      split_ifs <;> rfl
  | cleanup o nowMs =>
    show (cleanupStep opts o topology nowMs st).history = List.foldl _ _ (eventsOf _ _ _)
    unfold cleanupStep eventsOf
    dsimp only
    cases st.cleanup with
    | none =>
      dsimp only
      unfold selectStale
      dsimp only
      split_ifs <;> rfl
    | some c =>
      obtain ⟨threshold, stale, names, phase⟩ := c
      cases phase with
      | history =>
        dsimp only [continueCleanup]
        rw [List.foldl_map]
        rfl
      | files rest =>
        rcases rest with _ | ⟨⟨key, name⟩, rest⟩
        · dsimp only [continueCleanup, List.foldl_nil]
        · dsimp only [continueCleanup, List.foldl_nil]
      | _ => dsimp only [continueCleanup, List.foldl_nil]
  | hostname o iface mac name nowMs =>
    dsimp only [Service.State.step, eventsOf, List.foldl_nil]
    rcases setDeviceHostname_cases o topology st iface mac name nowMs with heq | ⟨key, -, heq | heq⟩
    all_goals rw [heq]
  | delete o iface mac =>
    dsimp only [Service.State.step, eventsOf]
    cases hifindex : topology.ifindexByName o (trim iface) with
    | none =>
      rcases deleteDevice_cases o topology st iface mac with ⟨message, heq⟩ | ⟨key, result, hkey, -⟩
      · rw [heq]
        rfl
      · rw [hkey.1] at hifindex
        cases hifindex
    | some ifindex =>
      cases hmac : macFromStr (trim mac) with
      | error e =>
        rcases deleteDevice_cases o topology st iface mac with ⟨message, heq⟩ | ⟨key, result, hkey, -⟩
        · rw [heq]
          rfl
        · rw [hkey.2] at hmac
          cases hmac
      | ok mac' =>
        have hkey : Requests o topology iface mac (ifindex, mac') := ⟨hifindex, hmac⟩
        obtain ⟨result, heq⟩ := deleteDevice_of_requests o topology st iface mac hkey
        rw [heq]
        rfl

theorem history_run (opts : Options) (st : ServiceState) (xs : List Input) :
    (xs.foldl (stepIn opts) st).history = (recorded opts st xs).foldl applyEvent st.history := by
  induction xs generalizing st with
  | nil => rfl
  | cons x xs ih =>
    show (xs.foldl (stepIn opts) (stepIn opts st x)).history = (eventsOf opts st x ++ _).foldl _ _
    rw [ih, history_stepIn, List.foldl_append]

/-! ### The windows -/

/-- The active rows of a snapshot under a key. -/
def seriesRows (k : DeviceSeriesKey) (data : SnapshotData) : List HistoryPoint :=
  (data.devices.filter fun dev => active dev && deviceSeriesKey dev = k).map fun dev =>
    ⟨data.timestampMs, dev.metrics, dev.cumulative⟩

def seriesPointsStep (k : DeviceSeriesKey) (points : List HistoryPoint) : Event → List HistoryPoint
  | .snapshot data => points ++ seriesRows k data
  | .removed key => if ofDevice key.1 (macToString key.2) k.ifindex k.mac then [] else points

/-- The points that are recorded under a key since it was dropped. -/
def seriesPoints (k : DeviceSeriesKey) (events : List Event) : List HistoryPoint :=
  events.foldl (seriesPointsStep k) []

theorem seriesPoints_concat (k : DeviceSeriesKey) (events : List Event) (event : Event) :
    seriesPoints k (events ++ [event]) = seriesPointsStep k (seriesPoints k events) event := by
  unfold seriesPoints
  rw [List.foldl_append, List.foldl_cons, List.foldl_nil]

theorem ifacePoints_concat (ifindex : UInt32) (events : List Event) (event : Event) :
    ifacePoints ifindex (events ++ [event]) =
      ifacePoints ifindex events ++ ifacePoints ifindex [event] := List.flatMap_append ..

/-- **The series have the last points of their keys.** -/
structure Windows (w : ℕ) (events : List Event) (h : TrafficHistory) : Prop where
  points : h.windowPoints = w
  ifaces : Shows w (fun ifindex => ifacePoints ifindex events) h.ifaceSeries
  devices : Shows w (fun k => seriesPoints k events) h.deviceSeries

theorem windows_new (windowPoints : ℕ) :
    Windows (max windowPoints 1) [] (TrafficHistory.new windowPoints) :=
  ⟨rfl, shows_empty _, shows_empty _⟩

/-- The series that a row is recorded in. -/
def recordedKey (dev : DeviceListItem) : Option DeviceSeriesKey :=
  if active dev then some (deviceSeriesKey dev) else none

theorem active_eq_false {dev : DeviceListItem} :
    active dev = false ↔ (!dev.online && dev.metrics.isEmpty) = true := by
  unfold active
  cases dev.online <;> cases dev.metrics.isEmpty <;> decide

theorem ofKey_recordedKey (k : DeviceSeriesKey) (rows : List DeviceListItem) :
    ofKey recordedKey k rows = rows.filter fun dev => active dev && deviceSeriesKey dev = k := by
  unfold ofKey recordedKey
  refine List.filter_congr fun dev _ => ?_
  cases active dev <;> simp

theorem deviceSeries_ingestSnapshot (h : TrafficHistory) (data : SnapshotData) :
    (h.ingestSnapshot data).deviceSeries = recordAll h.windowPoints recordedKey
      (fun dev => HistoryPoint.mk data.timestampMs dev.metrics dev.cumulative) data.devices
      h.deviceSeries := by
  unfold TrafficHistory.ingestSnapshot recordAll
  refine congrArg (fun f => data.devices.foldl f h.deviceSeries) (funext fun m => funext fun dev => ?_)
  unfold recordedKey
  cases hactive : active dev with
  | false => rw [if_pos (active_eq_false.mp hactive), if_neg Bool.false_ne_true]
  | true =>
    have hbusy : ¬ (!dev.online && dev.metrics.isEmpty) = true := fun hidle =>
      Bool.false_ne_true ((active_eq_false.mpr hidle).symm.trans hactive)
    rw [if_neg hbusy, if_pos rfl]
    rfl

/-- **An event keeps the windows.** -/
theorem Windows.apply {w : ℕ} {events : List Event} {h : TrafficHistory} (hw : Windows w events h)
    (event : Event) : Windows w (events ++ [event]) (applyEvent h event) := by
  cases event with
  | snapshot data =>
    refine ⟨hw.points, fun ifindex => ?_, fun k => ?_⟩
    · have hrecorded := hw.ifaces.recordAll (fun iface : InterfaceOverviewItem => some iface.ifindex)
        (fun iface => HistoryPoint.mk data.timestampMs iface.metrics iface.cumulative) data.interfaces
        ifindex
      unfold ofKey at hrecorded
      simp only [Option.some.injEq] at hrecorded
      dsimp only
      rw [ifacePoints_concat]
      unfold ifacePoints at hrecorded ⊢
      rw [List.flatMap_singleton, ← hrecorded]
      show ((TrafficHistory.ingestSnapshot h data).ifaceSeries.lookup ifindex).getD [] = _
      unfold TrafficHistory.ingestSnapshot
      rw [← hw.points]
      rfl
    · have hrecorded := hw.devices.recordAll recordedKey
        (fun dev => HistoryPoint.mk data.timestampMs dev.metrics dev.cumulative) data.devices k
      dsimp only at hrecorded ⊢
      rw [ofKey_recordedKey, ← hw.points, ← deviceSeries_ingestSnapshot, hw.points] at hrecorded
      rw [seriesPoints_concat]
      exact hrecorded
  | removed key =>
    refine ⟨hw.points, fun ifindex => ?_, fun k => ?_⟩
    · dsimp only
      rw [ifacePoints_concat]
      exact (hw.ifaces ifindex).trans (congrArg (fun l : List HistoryPoint => l.rtake w)
        (List.append_nil _).symm)
    · have hkept := hw.devices.retain (fun k => !ofDevice key.1 (macToString key.2) k.ifindex k.mac) k
      dsimp only at hkept ⊢
      rw [seriesPoints_concat]
      refine hkept.trans (congrArg (fun l : List HistoryPoint => l.rtake w) ?_)
      cases hdevice : ofDevice key.1 (macToString key.2) k.ifindex k.mac <;>
        simp [seriesPointsStep, hdevice]

theorem Windows.run {w : ℕ} {before : List Event} {h : TrafficHistory} (hw : Windows w before h)
    (events : List Event) : Windows w (before ++ events) (events.foldl applyEvent h) := by
  induction events generalizing before h with
  | nil => rwa [List.append_nil]
  | cons event rest ih =>
    have hnext := ih (hw.apply event)
    rwa [List.append_assoc, List.singleton_append] at hnext

end

/-! ### One spelling -/

theorem lower_lower (s : String) : toAsciiLowercase (toAsciiLowercase s) = toAsciiLowercase s := by
  unfold toAsciiLowercase
  rw [String.toList_ofList, List.map_map]
  exact congrArg String.ofList (List.map_congr_left fun c _ => toLower_toLower c)

/-- The rows of a snapshot have their MAC addresses in lower case. -/
def LowerRows : Event → Prop
  | .snapshot data => ∀ dev ∈ data.devices, toAsciiLowercase dev.mac = dev.mac
  | .removed _ => True

section
variable {events : List Event}

/-- With one spelling a device has one series. -/
theorem devicePoints_eq (h : ∀ event ∈ events, LowerRows event) (ifindex : UInt32) (mac : String) :
    devicePoints ifindex mac events = seriesPoints ⟨ifindex, toAsciiLowercase mac⟩ events := by
  refine List.foldl_ext _ _ _ fun points event hevent => ?_
  cases event with
  | snapshot data =>
    refine congrArg (fun rows => points ++ List.map _ rows) (List.filter_congr fun dev hdev => ?_)
    have hlower := h _ hevent dev hdev
    unfold ofDevice eqIgnoreAsciiCase deviceSeriesKey
    rw [hlower]
    simp only [DeviceSeriesKey.mk.injEq, Bool.decide_and]
  | removed key =>
    unfold devicePointsStep seriesPointsStep ofDevice eqIgnoreAsciiCase
    dsimp only
    rw [lower_lower]
    simp only [eq_comm]

/-- Other spellings have none. -/
theorem seriesPoints_of_not_lower (h : ∀ event ∈ events, LowerRows event) {k : DeviceSeriesKey}
    (hk : toAsciiLowercase k.mac ≠ k.mac) : seriesPoints k events = [] := by
  unfold seriesPoints
  refine List.foldlRecOn (motive := fun points => points = []) events _ rfl
    fun points hpoints event hevent => ?_
  cases event with
  | snapshot data =>
    have hnone : seriesRows k data = [] := by
      refine List.map_eq_nil_iff.mpr (List.filter_eq_nil_iff.mpr fun dev hdev hsame => ?_)
      obtain rfl := of_decide_eq_true (Bool.and_eq_true_iff.mp hsame).2
      exact hk (h _ hevent dev hdev)
    show points ++ seriesRows k data = []
    rw [hpoints, hnone]
    rfl
  | removed key =>
    show (if _ then [] else points) = []
    rw [hpoints, ite_self]

theorem foldl_mergeSeries (p : DeviceSeriesKey → Bool) (l : List (Σ _ : DeviceSeriesKey, List HistoryPoint))
    (merged : Merged) :
    l.foldl (fun merged e => if p e.1 then mergeSeries merged e.2 else merged) merged =
      mergeSeries merged ((l.filter fun e => p e.1).flatMap fun e => e.2) := by
  induction l generalizing merged with
  | nil => rfl
  | cons e rest ih =>
    rw [List.foldl_cons, ih]
    cases hp : p e.1 with
    | false =>
      rw [List.filter_cons, hp, if_neg Bool.false_ne_true, if_neg Bool.false_ne_true]
    | true =>
      rw [List.filter_cons, hp, if_pos rfl, if_pos rfl, List.flatMap_cons]
      exact (List.foldl_append ..).symm

/-- **The answer for a device** merges its series. -/
theorem queryDevice_eq {w : ℕ} {h : TrafficHistory} (hw : Windows w events h)
    (hlower : ∀ event ∈ events, LowerRows event) (o : IterOrder) (ifindex : UInt32) (mac : String)
    (trafficType : HistoryTrafficType) (direction : HistoryDirection) :
    queryDevice o h (some ifindex) mac trafficType direction =
      mergedSamples (mergeSeries ∅ ((devicePoints ifindex mac events).rtake w)) := by
  unfold queryDevice
  rw [foldl_mergeSeries, devicePoints_eq hlower, ← hw.devices ⟨ifindex, toAsciiLowercase mac⟩]
  refine congrArg (fun points => mergedSamples (mergeSeries ∅ points))
    (flatMap_order o h.deviceSeries ?_ fun k points hlookup hasked hne => ?_)
  · unfold asked eqIgnoreAsciiCase
    rw [lower_lower]
    simp
  · -- a series of another spelling
    have hnone : seriesPoints k events = [] := by
      refine seriesPoints_of_not_lower hlower fun hk => hne ?_
      unfold asked eqIgnoreAsciiCase at hasked
      simp only [Option.all_some, Bool.and_eq_true, decide_eq_true_eq] at hasked
      obtain ⟨rfl, hmac⟩ := hasked
      rw [← hmac, hk]
    have hshown := hw.devices k
    dsimp only at hshown
    rwa [hlookup, hnone, rtake_of_le [] (Nat.zero_le w)] at hshown

end

/-! ### The rows of the service -/

section
variable {opts : Options} {st : ServiceState}

theorem runtimeInv_removeDevices {rt : MonitorRuntime} (h : RuntimeInv rt) (keys : List DeviceKey) :
    RuntimeInv (removeDevices keys rt) :=
  List.foldlRecOn (motive := RuntimeInv) keys _ h fun _ hrt key _ => runtimeInv_removeDevice hrt key

theorem runtimeInv_stepIn (h : RuntimeInv st.runtime) (x : Input) :
    RuntimeInv (stepIn opts st x).runtime := by
  obtain ⟨topology, op⟩ := x
  unfold stepIn
  cases op with
  | tick tick =>
    dsimp only [Service.State.step]
    rw [runtime_collectorTick]
    exact runtimeInv_collectSnapshot opts.config topology tick h
  | cleanup o nowMs =>
    obtain ⟨runtime, _, _, _, _, heq, hruntime, -⟩ := cleanupStep_cases opts o topology nowMs st
    dsimp only [Service.State.step]
    rw [heq]
    rcases hruntime with rfl | ⟨c, -, -, rfl⟩
    · exact h
    · exact runtimeInv_removeDevices h c.staleDevices
  | hostname o iface mac name nowMs =>
    dsimp only [Service.State.step]
    rcases setDeviceHostname_cases o topology st iface mac name nowMs with heq | ⟨key, -, heq | heq⟩
    · rw [heq]
      exact h
    · rw [heq]
      exact h
    · rw [heq]
      exact runtimeInv_updateHostname h key _ _ _
  | delete o iface mac =>
    dsimp only [Service.State.step]
    rcases deleteDevice_cases o topology st iface mac with ⟨message, heq⟩ | ⟨key, result, -, heq⟩
    · rw [heq]
      exact h
    · rw [heq]
      exact runtimeInv_removeDevice h key

/-- The collector writes MAC addresses in lower case. -/
theorem lowerRows_eventsOf (h : RuntimeInv st.runtime) (x : Input) :
    ∀ event ∈ eventsOf opts st x, LowerRows event := by
  intro event hevent
  cases event with
  | removed key => trivial
  | snapshot data =>
    intro dev hdev
    obtain ⟨topology, op⟩ := x
    cases op with
    | tick tick =>
      obtain ⟨data', hdata, heq⟩ := Option.map_eq_some_iff.mp (Option.mem_toList.mp hevent)
      obtain rfl := Event.snapshot.inj heq
      obtain ⟨-, -, hkeyed⟩ := accounts_collectSnapshot h (Prod.ext hdata rfl)
      rw [hkeyed dev hdev, toAsciiLowercase_macToString]
    | cleanup o nowMs =>
      unfold eventsOf at hevent
      dsimp only at hevent
      split at hevent
      · obtain ⟨key, -, heq⟩ := List.mem_map.mp hevent
        cases heq
      · cases hevent
    | hostname o iface mac name nowMs => cases hevent
    | delete o iface mac =>
      unfold eventsOf at hevent
      dsimp only at hevent
      split at hevent
      · cases List.mem_singleton.mp hevent
      · cases hevent

theorem lowerRows_recorded (h : RuntimeInv st.runtime) (xs : List Input) :
    ∀ event ∈ recorded opts st xs, LowerRows event := by
  induction xs generalizing st with
  | nil => exact fun event hevent => absurd hevent List.not_mem_nil
  | cons x xs ih =>
    intro event hevent
    rcases List.mem_append.mp hevent with hevent | hevent
    · exact lowerRows_eventsOf h x event hevent
    · exact ih (runtimeInv_stepIn h x) event hevent

/-- The number of points that the history keeps: one for each second of the window. -/
def keptPoints (opts : Options) : ℕ := max (opts.historyWindowMinutes.toNat * 60) 1

theorem started {o : IterOrder} {topology : TopologySnapshot} {files : Files} {nowMs : UInt64}
    (hstart : runService opts o topology files nowMs = some st) :
    RuntimeInv st.runtime ∧ Windows (keptPoints opts) [] st.history := by
  obtain ⟨⟨disk, histogram⟩, -, rfl⟩ := Option.map_eq_some_iff.mp hstart
  exact ⟨runtimeInv_start _ _ _ _ _, windows_new _⟩

/-- **The trend after a run of the service**: the last rows of the interface, or of the device its last
active rows since it was removed, whatever the spelling of its MAC address, the family and the direction
that are asked for. -/
theorem trend_of_service (opts : Options) {o : IterOrder} {topology : TopologySnapshot} {files : Files}
    {nowMs : UInt64} {st : ServiceState} (hstart : runService opts o topology files nowMs = some st)
    (xs : List Input) (o' : IterOrder) (topology' : TopologySnapshot) (snapshot : SnapshotData)
    (q : HistoryQuery) (ifindex : UInt32)
    (hiface : resolveQueryIfaceToIfindex o' topology' snapshot q.iface = .ok ifindex) :
    ∃ samples, history o' topology' snapshot (xs.foldl (stepIn opts) st).history q =
        ⟨true, samples, none⟩ ∧
      (q.device = none → samples =
        seriesToSamples ((ifacePoints ifindex (recorded opts st xs)).rtake (keptPoints opts))) ∧
      ∀ mac, q.device = some mac →
        IsTrend ((devicePoints ifindex mac (recorded opts st xs)).rtake (keptPoints opts)) samples := by
  obtain ⟨hinv, hnew⟩ := started hstart
  have hw : Windows (keptPoints opts) (recorded opts st xs) (xs.foldl (stepIn opts) st).history := by
    rw [history_run]
    exact hnew.run (recorded opts st xs)
  have hlower := @lowerRows_recorded opts st hinv xs
  unfold history
  rw [hiface]
  refine ⟨_, rfl, fun hdevice => ?_, fun mac hdevice => ?_⟩
  · rw [hdevice]
    dsimp only
    rw [← hw.ifaces ifindex]
    unfold queryIface
    cases (xs.foldl (stepIn opts) st).history.ifaceSeries.lookup ifindex <;> rfl
  · rw [hdevice]
    dsimp only
    rw [queryDevice_eq hw hlower]
    exact isTrend_mergeSeries _

end

/-! ### A run in which a device comes back -/

section
variable {opts : Options} {st : ServiceState}

/-- A tick that finds the device online records a point of it. -/
theorem rowPoints_of_online (hinv : RuntimeInv st.runtime) {topology : TopologySnapshot} {tick : Tick}
    {key : DeviceKey} (h : key ∈ onlineDevices opts.config topology tick st.runtime) :
    ∃ data, eventsOf opts st (topology, .tick tick) = [.snapshot data] ∧ data.timestampMs = tick.nowMs ∧
      rowPoints key.1 (macToString key.2) data ≠ [] := by
  obtain ⟨data, hdata, htime, row, hrow, hifindex, hmac, honline⟩ :=
    row_of_online opts.config topology tick hinv h
  refine ⟨data, ?_, htime, ?_⟩
  · unfold eventsOf
    dsimp only
    rw [hdata]
    rfl
  · refine List.ne_nil_of_mem (List.mem_map.mpr ⟨row, List.mem_filter.mpr ⟨hrow, ?_⟩, rfl⟩)
    have hsame : ofDevice key.1 (macToString key.2) row.ifindex row.mac = true := by
      rw [hifindex, hmac]
      simp [ofDevice, eqIgnoreAsciiCase]
    rw [hsame, active, honline]
    rfl

end

/-- The phone is a neighbour. -/
def neighborTick : Tick :=
  { countersTick 172801000 (some []) with
    arp := some "IP address\n192.168.1.30 0x1 0x2 04:04:04:04:04:04 * br-lan" }

/-- The files of a service that knew the phone. -/
def phoneFiles : Files :=
  { Files.empty with
    devices := some ⟨devicesSchemaVersion,
      ⟨[⟨"br-lan", macToString phoneMac, ["192.168.1.30"], [], "phone", "192.168.1.0/24", 1000⟩],
        [], [], []⟩⟩ }

/-- The phone sends a packet, is deleted, and is seen again. -/
def phoneRun : List Input :=
  [(lanTopology, .tick returnTick), (lanTopology, .delete .listed "br-lan" (macToString phoneMac)),
    (lanTopology, .tick neighborTick)]

def phoneQuery : HistoryQuery := ⟨some "br-lan", some (macToString phoneMac), none, none⟩

theorem interfaces_lanTopology :
    lanTopology.interfaces = [⟨7, "br-lan", "lan", ["192.168.1.1/24"], []⟩] := List.mergeSort_singleton _

theorem arp_neighborTick : ((((neighborTick.arp).map lines).getD []).drop 1).filterMap
    (arpEntry ttlOptions.config.monitorIfaces (subnetMap lanTopology)) =
      [⟨"br-lan", phoneMac, "192.168.1.30", "REACHABLE"⟩] := by
  unfold subnetMap
  rw [interfaces_lanTopology]
  rfl

/-- The neighbour is online, whatever was known before. -/
theorem online_neighborTick (rt : MonitorRuntime) :
    (7, phoneMac) ∈ onlineDevices ttlOptions.config lanTopology neighborTick rt := by
  have hifindex : (ifindexByName lanTopology).lookup "br-lan" = some 7 := by
    unfold ifindexByName
    rw [interfaces_lanTopology]
    rfl
  have hiface : lanTopology.byIfindex 7 = some ⟨7, "br-lan", "lan", ["192.168.1.1/24"], []⟩ := rfl
  refine mem_onlineDevices_of_neighbor ttlOptions.config lanTopology neighborTick
    (n := ⟨"br-lan", phoneMac, "192.168.1.30", "REACHABLE"⟩) rfl rfl rfl ?_ (by decide) (by decide) hifindex
    hiface (by decide +kernel) rt
  rw [arp_neighborTick]
  exact List.mem_singleton.mpr rfl

/-- A trend of points of one time has one sample. -/
theorem IsTrend.times_eq {points : List HistoryPoint} {samples : List HistorySample}
    (h : IsTrend points samples)
    {ts : UInt64} (hne : points ≠ []) (hall : ∀ point ∈ points, point.tsMs = ts) :
    samples.map HistorySample.tsMs = [ts] := by
  obtain ⟨point, hpoint⟩ := List.exists_mem_of_ne_nil _ hne
  obtain ⟨s, hs, hts⟩ := (h.times ts).mpr ⟨point, hpoint, hall point hpoint⟩
  have hsame : ∀ s' ∈ samples, s'.tsMs = ts := by
    intro s' hs'
    obtain ⟨point', hpoint', heq⟩ := (h.times s'.tsMs).mp ⟨s', hs', rfl⟩
    rw [← heq, hall point' hpoint']
  cases samples with
  | nil => cases hs
  | cons first rest =>
    have hrest : rest = [] := by
      refine List.eq_nil_iff_forall_not_mem.mpr fun s' hs' => ?_
      have hlt := (List.pairwise_cons.mp h.increasing).1 s' hs'
      rw [hsame first List.mem_cons_self, hsame s' (List.mem_cons_of_mem _ hs')] at hlt
      exact UInt64.lt_irrefl ts hlt
    rw [hrest, List.map_singleton, hsame first List.mem_cons_self]

/-- The phone sends a packet, is deleted, and is seen again: the trend begins with its return. -/
theorem trend_of_service_phone : ∃ st, runService ttlOptions .listed lanTopology phoneFiles 0 = some st ∧
    ∃ samples, history .listed lanTopology ⟨0, [], []⟩ (phoneRun.foldl (stepIn ttlOptions) st).history
        phoneQuery = ⟨true, samples, none⟩ ∧ samples.map HistorySample.tsMs = [172801000] ∧
      IsTrend ((devicePoints 7 (macToString phoneMac) (recorded ttlOptions st phoneRun)).rtake 60)
        samples := by
  obtain ⟨st, hstart⟩ : ∃ st, runService ttlOptions .listed lanTopology phoneFiles 0 = some st := ⟨_, rfl⟩
  obtain ⟨samples, hanswer, -, htrend⟩ := trend_of_service ttlOptions hstart phoneRun .listed lanTopology
    ⟨0, [], []⟩ phoneQuery 7 (by decide)
  have htrend : IsTrend ((devicePoints 7 (macToString phoneMac) (recorded ttlOptions st phoneRun)).rtake 60)
      samples := htrend _ (by decide)
  refine ⟨st, hstart, samples, hanswer, ?_, htrend⟩
  let st₁ := stepIn ttlOptions st (lanTopology, .tick returnTick)
  let st₂ := stepIn ttlOptions st₁ (lanTopology, .delete .listed "br-lan" (macToString phoneMac))
  have hinv : RuntimeInv st₂.runtime :=
    runtimeInv_stepIn (runtimeInv_stepIn (started hstart).1 (lanTopology, .tick returnTick)) _
  obtain ⟨data, hevents, htime, hpoints⟩ :=
    @rowPoints_of_online ttlOptions _ hinv _ _ _ (online_neighborTick st₂.runtime)
  have hdelete : eventsOf ttlOptions st₁ (lanTopology, .delete .listed "br-lan" (macToString phoneMac)) =
      [.removed (7, phoneMac)] := rfl
  have hrecorded : devicePoints 7 (macToString phoneMac) (recorded ttlOptions st phoneRun) =
      rowPoints 7 (macToString phoneMac) data := by
    unfold devicePoints phoneRun
    rw [recorded_cons, recorded_cons, recorded_cons, hdelete, hevents, List.foldl_append]
    rfl
  rw [hrecorded] at htrend
  refine htrend.times_eq ?_ fun point hpoint => ?_
  · rw [← List.dropLast_append_getLast hpoints, List.rtake_concat_succ]
    exact List.append_ne_nil_of_right_ne_nil _ (List.cons_ne_nil _ _)
  · obtain ⟨row, -, rfl⟩ := List.mem_map.mp (List.mem_of_mem_drop hpoint)
    exact htime

end BandixPlus.Api.Trend
