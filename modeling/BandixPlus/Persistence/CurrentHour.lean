import BandixPlus.Monitor.HistogramExact
import BandixPlus.Monitor.Totals
import BandixPlus.Persistence.History

/-! # The current hour across a restart

`persistence.rs`, `save_current_hour_histogram` and `load_current_hour_histogram`: the current buckets
have a file of their own, where they are saved under the names of their interfaces. What is read of it
is what was written; a bucket of another hour than that of the restart is discarded.

* `recover_current`: the current buckets after a restart.
* `totals_after_restart`: the totals are those from before, without the discarded buckets.
* `later_hour_discarded`: a restart in the next hour loses the bytes of the unfinished one. -/

namespace BandixPlus.Persistence.CurrentHour

open BandixPlus.Common BandixPlus.Lib.LastWins BandixPlus.Lib.LocalTime BandixPlus.Lib.Maps
open BandixPlus.Monitor.Counters BandixPlus.Monitor.Snapshot BandixPlus.Monitor.Windows
open BandixPlus.Monitor.Histogram BandixPlus.Monitor.HistogramExact BandixPlus.Monitor.Runtime
open BandixPlus.Monitor.Topology BandixPlus.Monitor.Totals BandixPlus.Net.Text
open BandixPlus.Persistence.Manager BandixPlus.Persistence.Agreement BandixPlus.Persistence.History

/-! ### Saving -/

structure CurrentHourIfaceState where
  ifindex : UInt32
  bucket : AggregatedBucket

structure CurrentHourDeviceState where
  ifindex : UInt32
  mac : String
  bucket : AggregatedBucket

structure CurrentHourState where
  iface : List CurrentHourIfaceState
  device : List CurrentHourDeviceState

/-- The order of the exported devices. -/
def deviceStateLe (a b : CurrentHourDeviceState) : Bool :=
  ((compare a.ifindex b.ifindex).then (compare a.mac b.mac)).isLE

def exportCurrentHourState (o : IterOrder) (h : HistogramHistory) : CurrentHourState where
  iface := ((o.order h.iface.current.entries).map fun e =>
    { ifindex := e.1, bucket := e.2 : CurrentHourIfaceState }).mergeSort
      fun a b => a.ifindex ≤ b.ifindex
  device := ((o.order h.device.current.entries).map fun e =>
    { ifindex := e.1.ifindex, mac := e.1.mac, bucket := e.2 : CurrentHourDeviceState }).mergeSort
      deviceStateLe

structure PersistedCurrentHourIface where
  logicalIface : String
  bucket : AggregatedBucket

structure PersistedCurrentHourDevice where
  logicalIface : String
  mac : String
  bucket : AggregatedBucket

structure PersistedCurrentHourState where
  iface : List PersistedCurrentHourIface
  device : List PersistedCurrentHourDevice

structure PersistedCurrentHourFile where
  schemaVersion : UInt32
  state : PersistedCurrentHourState

def currentHourSchemaVersion : UInt32 := 2

/-- What is saved of a current bucket, if its interface is in the topology. -/
def persistedIface (topology : TopologySnapshot) (item : CurrentHourIfaceState) :
    Option PersistedCurrentHourIface :=
  (topology.byIfindex item.ifindex).map fun info => ⟨info.name, item.bucket⟩

def persistedDevice (topology : TopologySnapshot) (item : CurrentHourDeviceState) :
    Option PersistedCurrentHourDevice :=
  (topology.byIfindex item.ifindex).map fun info => ⟨info.name, item.mac, item.bucket⟩

def saveCurrentHourHistogram (o : IterOrder) (topology : TopologySnapshot) (h : HistogramHistory) :
    PersistedCurrentHourFile :=
  let exported := exportCurrentHourState o h
  { schemaVersion := currentHourSchemaVersion
    state := {
      iface := exported.iface.filterMap (persistedIface topology)
      device := exported.device.filterMap (persistedDevice topology) } }

/-! ### Loading -/

/-- A bucket of another hour, or of an interface that is gone, is passed over. -/
def loadIface (o : IterOrder) (topology : TopologySnapshot) (currentStart : UInt64)
    (current : HashMap UInt32 AggregatedBucket) (item : PersistedCurrentHourIface) :
    HashMap UInt32 AggregatedBucket :=
  if item.bucket.startTsMs ≠ currentStart then current
  else
    match topology.ifindexByName o item.logicalIface with
    | none => current
    | some ifindex => current.insert ifindex item.bucket

def loadDevice (o : IterOrder) (topology : TopologySnapshot) (currentStart : UInt64)
    (current : HashMap DeviceSeriesKey AggregatedBucket) (item : PersistedCurrentHourDevice) :
    HashMap DeviceSeriesKey AggregatedBucket :=
  if item.bucket.startTsMs ≠ currentStart then current
  else
    match topology.ifindexByName o item.logicalIface with
    | none => current
    | some ifindex => current.insert ⟨ifindex, item.mac⟩ item.bucket

/-- The two loops of `load_current_hour_histogram`. -/
def loadState (o : IterOrder) (topology : TopologySnapshot) (currentStart : UInt64)
    (state : PersistedCurrentHourState) (h : HistogramHistory) : HistogramHistory :=
  { h with
    iface := { h.iface with
      current := state.iface.foldl (loadIface o topology currentStart) h.iface.current }
    device := { h.device with
      current := state.device.foldl (loadDevice o topology currentStart) h.device.current } }

/-- Load the file, if there is one; `none` is a panic of `hourly_bucket_local`. -/
def loadCurrentHourHistogram (o : IterOrder) (z : Zone) (topology : TopologySnapshot) (nowMs : UInt64)
    (file : Option PersistedCurrentHourFile) (h : HistogramHistory) : Option HistogramHistory :=
  match file with
  | none => some h
  | some data =>
    if data.schemaVersion ≠ currentHourSchemaVersion then some h
    else
      (hourlyBucketLocal z nowMs).map fun (currentStart, _) =>
        loadState o topology currentStart data.state h

/-- The histogram that `run_service` starts with; an error in the rings is logged. -/
def recover (o : IterOrder) (z : Zone) (p : PersistenceManager) (topology : TopologySnapshot)
    (disk : Disk) (file : Option PersistedCurrentHourFile) (nowMs : UInt64) :
    Option HistogramHistory :=
  match reload o p topology disk with
  | (.error .panic, _, _) => none
  | (_, _, h) => loadCurrentHourHistogram o z topology nowMs file h

/-! ### The current buckets come back -/

/-- Where a saved bucket is loaded. -/
def ifaceKey (o : IterOrder) (topology : TopologySnapshot) (currentStart : UInt64)
    (item : PersistedCurrentHourIface) : Option UInt32 :=
  if item.bucket.startTsMs = currentStart then topology.ifindexByName o item.logicalIface else none

def deviceKey (o : IterOrder) (topology : TopologySnapshot) (currentStart : UInt64)
    (item : PersistedCurrentHourDevice) : Option DeviceSeriesKey :=
  if item.bucket.startTsMs = currentStart then
    (topology.ifindexByName o item.logicalIface).map fun ifindex => ⟨ifindex, item.mac⟩
  else none

theorem foldl_loadIface (o : IterOrder) (topology : TopologySnapshot) (currentStart : UInt64)
    (items : List PersistedCurrentHourIface) :
    items.foldl (loadIface o topology currentStart) ∅ = insertKeyed (ifaceKey o topology currentStart)
      (fun _ => PersistedCurrentHourIface.bucket) items := by
  unfold insertKeyed
  refine congrArg (fun f => items.foldl f ∅) (funext fun m => funext fun item => ?_)
  unfold loadIface ifaceKey
  by_cases hhour : item.bucket.startTsMs = currentStart
  · rw [if_neg (not_not_intro hhour), if_pos hhour]
    cases topology.ifindexByName o item.logicalIface <;> rfl
  · rw [if_pos hhour, if_neg hhour]

theorem foldl_loadDevice (o : IterOrder) (topology : TopologySnapshot) (currentStart : UInt64)
    (items : List PersistedCurrentHourDevice) :
    items.foldl (loadDevice o topology currentStart) ∅ =
      insertKeyed (deviceKey o topology currentStart)
        (fun _ => PersistedCurrentHourDevice.bucket) items := by
  unfold insertKeyed
  refine congrArg (fun f => items.foldl f ∅) (funext fun m => funext fun item => ?_)
  unfold loadDevice deviceKey
  by_cases hhour : item.bucket.startTsMs = currentStart
  · rw [if_neg (not_not_intro hhour), if_pos hhour]
    cases topology.ifindexByName o item.logicalIface <;> rfl
  · rw [if_pos hhour, if_neg hhour]

section Back
variable {topology : TopologySnapshot} {h : HistogramHistory}

/-- The saved devices are those with a current bucket on an interface of the topology. -/
theorem mem_savedDevices {o : IterOrder} {item : PersistedCurrentHourDevice} :
    item ∈ (saveCurrentHourHistogram o topology h).state.device ↔
      ∃ k b, h.device.current.lookup k = some b ∧
        persistedDevice topology ⟨k.ifindex, k.mac, b⟩ = some item := by
  show item ∈ (exportCurrentHourState o h).device.filterMap (persistedDevice topology) ↔ _
  unfold exportCurrentHourState
  simp only [List.mem_filterMap, List.mem_mergeSort, List.mem_map, mem_order_iff]
  constructor
  · rintro ⟨_, ⟨e, he, rfl⟩, hitem⟩
    exact ⟨e.1, e.2, he, hitem⟩
  · rintro ⟨k, b, he, hitem⟩
    exact ⟨_, ⟨⟨k, b⟩, he, rfl⟩, hitem⟩

/-- **The current bucket of an interface comes back**, if it is of this hour. -/
theorem current_iface (hnames : NamesOk topology)
    (hknown : ∀ i ∈ h.iface.current, (topology.byIfindex i).isSome) (o o' : IterOrder)
    (currentStart : UInt64) (i : UInt32) :
    ((saveCurrentHourHistogram o topology h).state.iface.foldl
      (loadIface o' topology currentStart) ∅).lookup i =
      (h.iface.current.lookup i).filter fun b => b.startTsMs = currentStart := by
  rw [foldl_loadIface]
  refine lookup_insertKeyed_filterMap (fun i b => persistedIface topology ⟨i, b⟩) (fun item => ?_)
    (fun i b hlookup => ?_) i
  · show item ∈ (exportCurrentHourState o h).iface.filterMap (persistedIface topology) ↔ _
    unfold exportCurrentHourState
    simp only [List.mem_filterMap, List.mem_mergeSort, List.mem_map, mem_order_iff]
    constructor
    · rintro ⟨_, ⟨e, he, rfl⟩, hitem⟩
      exact ⟨e.1, e.2, he, hitem⟩
    · rintro ⟨i, b, he, hitem⟩
      exact ⟨_, ⟨⟨i, b⟩, he, rfl⟩, hitem⟩
  · obtain ⟨info, hi⟩ := Option.isSome_iff_exists.mp (hknown i (mem_iff_lookup.mpr ⟨b, hlookup⟩))
    refine ⟨⟨info.name, b⟩, ?_, rfl, ?_⟩
    · unfold persistedIface
      rw [hi]
      rfl
    · unfold ifaceKey
      rw [ifindexByName_name hnames o' hi]
      simp only [decide_eq_true_eq]

/-- **The current bucket of a device comes back**, if it is of this hour. -/
theorem current_device (hnames : NamesOk topology)
    (hknown : ∀ k ∈ h.device.current, (topology.byIfindex k.ifindex).isSome) (o o' : IterOrder)
    (currentStart : UInt64) (k : DeviceSeriesKey) :
    ((saveCurrentHourHistogram o topology h).state.device.foldl
      (loadDevice o' topology currentStart) ∅).lookup k =
      (h.device.current.lookup k).filter fun b => b.startTsMs = currentStart := by
  rw [foldl_loadDevice]
  refine lookup_insertKeyed_filterMap
    (fun k b => persistedDevice topology ⟨k.ifindex, k.mac, b⟩) (fun item => ?_)
    (fun k b hlookup => ?_) k
  · exact mem_savedDevices
  · obtain ⟨info, hi⟩ := Option.isSome_iff_exists.mp (hknown k (mem_iff_lookup.mpr ⟨b, hlookup⟩))
    refine ⟨⟨info.name, k.mac, b⟩, ?_, rfl, ?_⟩
    · unfold persistedDevice
      rw [hi]
      rfl
    · unfold deviceKey
      rw [ifindexByName_name hnames o' hi]
      simp only [decide_eq_true_eq]
      rfl

/-- The histogram with the current buckets of one hour alone. -/
def ofHour (currentStart : UInt64) (h : HistogramHistory) : HistogramHistory :=
  { h with
    iface := { h.iface with current := retain (fun _ b => b.startTsMs = currentStart) h.iface.current }
    device := { h.device with
      current := retain (fun _ b => b.startTsMs = currentStart) h.device.current } }

/-- The same series with the same current buckets, and the same completed ones but for `finalize`. -/
structure SameSeries {K : Type} [DecidableEq K] (m m' : SeriesMap K) : Prop where
  current : ∀ k, m'.current.lookup k = m.current.lookup k
  completed : ∀ k, completedOf m' k = (completedOf m k).map AggregatedBucket.finalize
  keys : ∀ k, k ∈ m'.completed ↔ k ∈ m.completed

/-- **A restart finds the completed buckets and the current ones of its hour.** -/
theorem recover_current {hnames : NamesOk topology} {p : PersistenceManager} {disk : Disk}
    (hagree : AgreeAll hnames p h disk)
    (hiface : ∀ i ∈ h.iface.current, (topology.byIfindex i).isSome)
    (hdevice : ∀ k ∈ h.device.current, (topology.byIfindex k.ifindex).isSome)
    (o o' : IterOrder) {z : Zone} {nowMs startTs endTs : UInt64}
    (hhour : hourlyBucketLocal z nowMs = some (startTs, endTs)) :
    ∃ h', recover o' z p topology disk (some (saveCurrentHourHistogram o topology h)) nowMs =
        some h' ∧
      SameSeries (ofHour startTs h).iface h'.iface ∧ SameSeries (ofHour startTs h).device h'.device := by
  obtain ⟨disk', h₁, hload, hagree', ⟨hcurI, hcurD⟩, hcompI, hcompD, hkeysD⟩ :=
    agreeAll_reload hagree o'
  have hkeysI : ∀ i, i ∈ h₁.iface.completed ↔ i ∈ h.iface.completed := by
    intro i
    rw [mem_completed_iff hagree'.iface.queues, mem_completed_iff hagree.iface.queues, hcompI, ne_eq,
      List.map_eq_nil_iff]
  refine ⟨loadState o' topology startTs (saveCurrentHourHistogram o topology h).state h₁, ?_,
    ⟨fun i => ?_, hcompI, hkeysI⟩, ⟨fun k => ?_, hcompD, hkeysD⟩⟩
  · have hversion : (saveCurrentHourHistogram o topology h).schemaVersion =
        currentHourSchemaVersion := rfl
    unfold recover loadCurrentHourHistogram
    rw [hload]
    dsimp only
    rw [if_neg (not_not_intro hversion), hhour]
    rfl
  · show (List.foldl _ h₁.iface.current _).lookup i = (retain _ h.iface.current).lookup i
    rw [hcurI, current_iface hnames hiface, lookup_retain]
  · show (List.foldl _ h₁.device.current _).lookup k = (retain _ h.device.current).lookup k
    rw [hcurD, current_device hnames hdevice, lookup_retain]

end Back

/-! ### The totals -/

/-- The same totals for every interface and every device. -/
def SameTotals (totals totals' : HashMap UInt32 CounterQuad × HashMap DeviceKey CounterQuad) : Prop :=
  (∀ i, totals'.1.lookup i = totals.1.lookup i) ∧ ∀ k, totals'.2.lookup k = totals.2.lookup k

theorem SameSeries.fromAll {K T : Type} [DecidableEq K] [DecidableEq T] {m m' : SeriesMap K}
    (h : SameSeries m m') {key : K → Option T}
    (hinj : ∀ k ∈ m.completed, ∀ k' ∈ m.completed, ∀ t, key k = some t → key k' = some t → k = k')
    (o o' : IterOrder) (t : T) : (fromAll o' key m').lookup t = (fromAll o key m).lookup t :=
  lookup_fromAll_congr o o' hinj h.keys (fun k => by rw [h.completed, totalOf_finalize]) h.current t

/-- The totals of two devices with readable MAC addresses are kept apart. -/
theorem deviceTotalKey_inj {topology : TopologySnapshot} {k k' : DeviceSeriesKey}
    (hk : DeviceKnown topology k) (hk' : DeviceKnown topology k') {t : DeviceKey}
    (ht : deviceTotalKey k = some t) (ht' : deviceTotalKey k' = some t) : k = k' := by
  obtain ⟨i, s⟩ := k
  obtain ⟨i', s'⟩ := k'
  obtain ⟨-, mac, hmac : s = macToString mac⟩ := hk
  obtain ⟨-, mac', hmac' : s' = macToString mac'⟩ := hk'
  subst hmac hmac'
  unfold deviceTotalKey at ht ht'
  dsimp only at ht ht'
  rw [macFromStr_macToString] at ht ht'
  obtain ⟨rfl, rfl⟩ := Prod.mk.inj (Option.some.inj (ht.trans ht'.symm))
  rfl

/-- All current buckets are of one hour. -/
def AllOfHour (currentStart : UInt64) (h : HistogramHistory) : Prop :=
  (∀ i b, h.iface.current.lookup i = some b → b.startTsMs = currentStart) ∧
    ∀ k b, h.device.current.lookup k = some b → b.startTsMs = currentStart

/-- **The totals after a restart.** With every completed bucket in its ring and all current buckets
on interfaces of the topology, a restart at any time, of whatever hour, that has a window has the
totals from before the save, less the current buckets that are not of its hour: each completed bucket
and each current bucket of this hour counts once. If all current buckets are of this hour, the totals
are the same. -/
theorem totals_after_restart (topology : TopologySnapshot) (hnames : NamesOk topology)
    (p : PersistenceManager) (h : HistogramHistory) (disk : Disk) (hagree : AgreeAll hnames p h disk)
    (hiface : ∀ i ∈ h.iface.current, (topology.byIfindex i).isSome)
    (hdevice : ∀ k ∈ h.device.current, (topology.byIfindex k.ifindex).isSome)
    (o o' : IterOrder) (z : Zone) (nowMs startTs endTs : UInt64)
    (hhour : hourlyBucketLocal z nowMs = some (startTs, endTs)) :
    ∃ h', recover o' z p topology disk (some (saveCurrentHourHistogram o topology h)) nowMs =
        some h' ∧
      ∀ o₁ o₂, SameTotals (cumulativeFromAll o₁ (ofHour startTs h)) (cumulativeFromAll o₂ h') ∧
        (AllOfHour startTs h → SameTotals (cumulativeFromAll o₁ h) (cumulativeFromAll o₂ h')) := by
  obtain ⟨h', hrecover, hseriesI, hseriesD⟩ :=
    recover_current hagree hiface hdevice o o' hhour
  have hinj : ∀ k ∈ h.device.completed, ∀ k' ∈ h.device.completed, ∀ t,
      deviceTotalKey k = some t → deviceTotalKey k' = some t → k = k' := fun k hk k' hk' _ =>
    deviceTotalKey_inj (hagree.device.queues.known k hk).1 (hagree.device.queues.known k' hk').1
  have hone : ∀ i ∈ h.iface.completed, ∀ i' ∈ h.iface.completed, ∀ t,
      some i = some t → some i' = some t → i = i' := fun i _ i' _ t hi hi' =>
    Option.some.inj (hi.trans hi'.symm)
  refine ⟨h', hrecover, fun o₁ o₂ => ⟨⟨hseriesI.fromAll hone o₁ o₂, hseriesD.fromAll hinj o₁ o₂⟩,
    fun hall => ?_⟩⟩
  -- nothing is discarded
  have hallI : SameSeries h.iface h'.iface :=
    ⟨fun i => (hseriesI.current i).trans (lookup_retain_of_forall hall.1 i), hseriesI.completed,
      hseriesI.keys⟩
  have hallD : SameSeries h.device h'.device :=
    ⟨fun k => (hseriesD.current k).trans (lookup_retain_of_forall hall.2 k), hseriesD.completed,
      hseriesD.keys⟩
  exact ⟨hallI.fromAll hone o₁ o₂, hallD.fromAll hinj o₁ o₂⟩

/-! ### A restart in the next hour -/

def utc : Zone := .fixed 0 utc_bound

theorem hourly_utc {t s : UInt64} (hmin : 86400000 ≤ t.toNat)
    (hmax : (t.toNat : ℤ) + 259200000 ≤ maxMs) (hs : (s.toNat : ℤ) = hourStart t.toNat) :
    hourlyBucketLocal utc t = some (s, s + 3599999) := by
  obtain ⟨s', hs', hstart, -⟩ := hourly_fixed 0 (by decide) hmin hmax
  rw [zero_mul, add_zero, sub_zero, ← hs] at hstart
  rw [← UInt64.toNat_inj.mp (Int.ofNat_inj.mp hstart)]
  exact hs'

def sampleManager : PersistenceManager := ⟨1, by decide⟩

/-- A hundred bytes of one interface, in the first hour of 1970-01-03. -/
def sampleBucket : AggregatedBucket :=
  { AggregatedBucket.empty 172800000 176399999 with
    sampleCount := 1
    bytes := ⟨100, 0, 0, 0⟩ }

def sampleHistogram : HistogramHistory :=
  { freshHistogram sampleManager with iface := ⟨AList.singleton 3 sampleBucket, ∅⟩ }

theorem sampleHistogram_agree :
    AgreeAll sampleTopology_names sampleManager sampleHistogram ⟨.empty, .empty⟩ := by
  have hstart := agreeAll_start sampleTopology_names sampleManager
  exact ⟨rfl, agree_congr hstart.iface rfl, hstart.device⟩

theorem sampleHistogram_known : (∀ i ∈ sampleHistogram.iface.current,
    (sampleTopology.byIfindex i).isSome) ∧
    ∀ k ∈ sampleHistogram.device.current, (sampleTopology.byIfindex k.ifindex).isSome := by
  refine ⟨fun i hi => ?_, fun k hk => absurd hk (AList.notMem_empty k)⟩
  rw [List.mem_singleton.mp (AList.mem_keys.mp hi)]
  rfl

/-- **The bytes of the unfinished hour are lost** if the process starts again in the next one: saved
five minutes before the hour is over, read half an hour later. -/
theorem later_hour_discarded :
    ¬ ∀ (topology : TopologySnapshot) (hnames : NamesOk topology) (p : PersistenceManager)
      (h : HistogramHistory) (disk : Disk) (z : Zone) (savedMs nowMs : UInt64),
      AgreeAll hnames p h disk → (∀ i ∈ h.iface.current, (topology.byIfindex i).isSome) →
      (∀ k ∈ h.device.current, (topology.byIfindex k.ifindex).isSome) →
      (∃ startTs endTs, hourlyBucketLocal z savedMs = some (startTs, endTs) ∧ AllOfHour startTs h) →
      (hourlyBucketLocal z nowMs).isSome → savedMs ≤ nowMs →
      ∃ h', recover .listed z p topology disk (some (saveCurrentHourHistogram .listed topology h))
          nowMs = some h' ∧
        SameTotals (cumulativeFromAll .listed h) (cumulativeFromAll .listed h') := by
  intro hclaim
  have hsaved : hourlyBucketLocal utc 176100000 = some (172800000, 172800000 + 3599999) :=
    hourly_utc (by decide) (by decide) (by decide)
  have hnow : hourlyBucketLocal utc 177900000 = some (176400000, 176400000 + 3599999) :=
    hourly_utc (by decide) (by decide) (by decide)
  have hall : AllOfHour 172800000 sampleHistogram := by
    refine ⟨fun i b hi => ?_, fun k b hk => ?_⟩
    · have hmem := mem_entries_iff.mpr hi
      cases List.mem_singleton.mp hmem
      rfl
    · cases hk
  obtain ⟨h', hrecover, hsame, -⟩ := hclaim sampleTopology sampleTopology_names sampleManager
    sampleHistogram ⟨.empty, .empty⟩ utc 176100000 177900000 sampleHistogram_agree
    sampleHistogram_known.1 sampleHistogram_known.2 ⟨_, _, hsaved, hall⟩ (by rw [hnow]; rfl)
    (by decide)
  obtain ⟨h'', hrecover', hseries, -⟩ := recover_current sampleHistogram_agree
    sampleHistogram_known.1 sampleHistogram_known.2 .listed .listed hnow
  obtain rfl := Option.some.inj (hrecover.symm.trans hrecover')
  have hafter := hseries.fromAll (fun i _ i' _ t hi hi' => Option.some.inj (hi.trans hi'.symm))
    .listed .listed 3
  have hbefore : (fromAll .listed some sampleHistogram.iface).lookup 3 =
      some ⟨.const 0, ⟨100, 0, 0, 0⟩⟩ := by decide
  have hnone : (fromAll .listed some (ofHour 176400000 sampleHistogram).iface).lookup 3 = none := by
    decide
  have hlost := (hsame 3).symm.trans (hafter.trans hnone)
  cases hbefore.symm.trans hlost

theorem totals_after_restart_sample :
    ∃ h', recover .listed utc sampleManager sampleTopology ⟨.empty, .empty⟩
        (some (saveCurrentHourHistogram .listed sampleTopology sampleHistogram)) 176100000 = some h' ∧
      (cumulativeFromAll .listed h').1.lookup 3 = some ⟨.const 0, ⟨100, 0, 0, 0⟩⟩ := by
  have hnow : hourlyBucketLocal utc 176100000 = some (172800000, 172800000 + 3599999) :=
    hourly_utc (by decide) (by decide) (by decide)
  obtain ⟨h', hrecover, hsame⟩ := totals_after_restart sampleTopology sampleTopology_names
    sampleManager sampleHistogram ⟨.empty, .empty⟩ sampleHistogram_agree sampleHistogram_known.1
    sampleHistogram_known.2 .listed .listed utc 176100000 _ _ hnow
  refine ⟨h', hrecover, ((hsame .listed .listed).1.1 3).trans ?_⟩
  show (fromAll .listed some (ofHour 172800000 sampleHistogram).iface).lookup 3 = _
  decide

end BandixPlus.Persistence.CurrentHour
