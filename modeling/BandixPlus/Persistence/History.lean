import BandixPlus.Monitor.Query
import BandixPlus.Persistence.Agreement

/-! # Memory and disk hold the same completed history

The collector ingests each snapshot and appends what it returns; the process may stop and start again
from its rings.

* `agreeAll_run`: at every point of every run, from an empty data directory, memory and disk agree.
* `memory_and_disk_agree`: hence a restart gives the same answers about completed buckets. -/

namespace BandixPlus.Persistence.History

open BandixPlus.Common BandixPlus.Lib.LocalTime BandixPlus.Lib.Maps
open BandixPlus.Monitor.Counters BandixPlus.Monitor.Snapshot BandixPlus.Monitor.Histogram
open BandixPlus.Monitor.HistogramRun BandixPlus.Monitor.Topology BandixPlus.Monitor.Query
open BandixPlus.Net.Text BandixPlus.Persistence.Paths BandixPlus.Persistence.RingFile
open BandixPlus.Persistence.Ring BandixPlus.Persistence.Manager BandixPlus.Persistence.Agreement

/-! ### The run -/

theorem ringSlots_pos (p : PersistenceManager) : 0 < p.ringSlots := by
  have := p.valid.1
  unfold PersistenceManager.ringSlots
  omega

theorem ringSlots_le (p : PersistenceManager) : p.ringSlots ≤ 2160 := by
  have := p.valid.2
  unfold PersistenceManager.ringSlots
  omega

/-- The slots of a ring, as a capacity. -/
def capacity (p : PersistenceManager) : Capacity :=
  ⟨p.ringSlots, ringSlots_pos p, by have := ringSlots_le p; omega⟩

theorem capacity_lt (p : PersistenceManager) : (capacity p).val < 2 ^ 32 - 1 := by
  have := ringSlots_le p
  show p.ringSlots < _
  omega

structure State where
  histogram : HistogramHistory
  disk : Disk

/-- The histogram of a process that starts. -/
def freshHistogram (p : PersistenceManager) : HistogramHistory :=
  .withCapacityHours p.ringSlots (ringSlots_pos p)

/-- The start on an empty data directory. -/
def start (p : PersistenceManager) : State := ⟨freshHistogram p, ⟨.empty, .empty⟩⟩

/-- The collector ingests a snapshot, or the process is started again and continues with these current
buckets. -/
inductive Op where
  | collect (snapshot : SnapshotData)
  | restart (o : IterOrder) (currentIface : HashMap UInt32 AggregatedBucket)
      (currentDevice : HashMap DeviceSeriesKey AggregatedBucket)

/-- One step of the collector loop: ingest, then append each completed aggregate. -/
def collect (hourly : UInt64 → UInt64 × UInt64) (p : PersistenceManager) (st : State)
    (snapshot : SnapshotData) : State :=
  let (completed, histogram) := ingestSnapshotCollectCompleted hourly st.histogram snapshot
  { histogram, disk := completed.foldl (persist p) st.disk }

/-- Load the rings into a fresh histogram; an error is logged. -/
def reload (o : IterOrder) (p : PersistenceManager) (topology : TopologySnapshot) (disk : Disk) :
    Except LoadError Unit × Disk × HistogramHistory :=
  loadHistogram o p topology disk (freshHistogram p)

def step (hourly : UInt64 → UInt64 × UInt64) (p : PersistenceManager) (topology : TopologySnapshot)
    (st : State) : Op → State
  | .collect snapshot => collect hourly p st snapshot
  | .restart o currentIface currentDevice =>
    let (_, disk, h) := reload o p topology st.disk
    { disk
      histogram := { h with
        iface := { h.iface with current := currentIface }
        device := { h.device with current := currentDevice } } }

/-- **The interface of a row is one of the topology, with its name**, and a MAC address is written by
`mac_utils`. -/
def RowOk (topology : TopologySnapshot) : Row → Prop
  | .iface item => ∃ info, topology.byIfindex item.ifindex = some info ∧ item.ifname = info.name
  | .device item => (∃ info, topology.byIfindex item.ifindex = some info ∧
      item.logicalIface = info.name) ∧ ∃ mac, item.mac = macToString mac

def OpOk (topology : TopologySnapshot) : Op → Prop
  | .collect snapshot => ∀ row ∈ rows snapshot, RowOk topology row
  | .restart _ _ _ => True

/-! ### The files of the series -/

section Names
variable {topology : TopologySnapshot}

def nameOf (topology : TopologySnapshot) (ifindex : UInt32) : String :=
  ((topology.byIfindex ifindex).map Interface.name).getD ""

theorem nameOf_eq {i : UInt32} {info : Interface} (h : topology.byIfindex i = some info) :
    nameOf topology i = info.name := by
  unfold nameOf
  rw [h]
  rfl

theorem ifaceEntry_file (h : NamesOk topology) (o : IterOrder) {i : UInt32}
    (hi : ∃ info, topology.byIfindex i = some info) :
    ifaceEntry o topology (ifaceRingFile (nameOf topology i)) = .ring i := by
  obtain ⟨info, hi⟩ := hi
  have hne := (h.trimmed i info hi).2
  obtain ⟨hstem, hext⟩ := fileStem_append (encodeComponent_ne_empty hne)
  have hring : isRingFile (ifaceRingFile info.name) = true := decide_eq_true hext
  rw [nameOf_eq hi]
  unfold ifaceEntry
  rw [hring]
  unfold ifaceRingFile
  rw [hstem, decodeComponent_encodeComponent hne]
  dsimp only
  rw [ifindexByName_name h o hi]
  rfl

/-- The interfaces of the topology and their ring files. -/
def ifaceNaming (h : NamesOk topology) (o : IterOrder) : Naming UInt32 where
  known := fun i => ∃ info, topology.byIfindex i = some info
  file := fun i => ifaceRingFile (nameOf topology i)
  entry := ifaceEntry o topology
  entry_file := fun _ hi => ifaceEntry_file h o hi

/-- A device of an interface of the topology. -/
def DeviceKnown (topology : TopologySnapshot) (key : DeviceSeriesKey) : Prop :=
  (∃ info, topology.byIfindex key.ifindex = some info) ∧ ∃ mac, key.mac = macToString mac

def deviceFile (topology : TopologySnapshot) (key : DeviceSeriesKey) : String :=
  deviceRingFile (nameOf topology key.ifindex) ((normalizeMacHex key.mac).getD "")

theorem deviceEntry_file (h : NamesOk topology) (o : IterOrder) {key : DeviceSeriesKey}
    (hkey : DeviceKnown topology key) :
    deviceEntry o topology (deviceFile topology key) = .ring key := by
  obtain ⟨⟨info, hi⟩, mac, hmac⟩ := hkey
  have hne := (h.trimmed _ info hi).2
  have hstemNe : encodeComponent info.name ++ "-" ++ macHex mac ≠ "" :=
    append_ne_empty (append_ne_empty (encodeComponent_ne_empty hne) _) _
  obtain ⟨hstem, hext⟩ := fileStem_append hstemNe
  have hfile : deviceFile topology key = encodeComponent info.name ++ "-" ++ macHex mac ++ ".ring" := by
    unfold deviceFile deviceRingFile
    rw [nameOf_eq hi, hmac, normalizeMacHex_macToString]
    rfl
  have hring : isRingFile (deviceFile topology key) = true := by
    rw [hfile]
    exact decide_eq_true hext
  unfold deviceEntry
  rw [hring, hfile, hstem, rsplitOnce_deviceStem]
  dsimp only
  rw [decodeComponent_encodeComponent hne]
  dsimp only
  rw [ifindexByName_name h o hi]
  dsimp only
  rw [macHexToColon_macHex, ← hmac]
  rfl

def deviceNaming (h : NamesOk topology) (o : IterOrder) : Naming DeviceSeriesKey where
  known := DeviceKnown topology
  file := deviceFile topology
  entry := deviceEntry o topology
  entry_file := fun _ hkey => deviceEntry_file h o hkey

end Names

/-! ### Steps -/

section Steps
variable {topology : TopologySnapshot} {hourly : UInt64 → UInt64 × UInt64} {p : PersistenceManager}
  {st : State} {h : HistogramHistory} {disk : Disk}

/-- **Memory and disk agree** about every interface and every device. -/
structure AgreeAll (hnames : NamesOk topology) (p : PersistenceManager) (h : HistogramHistory)
    (disk : Disk) : Prop where
  maxHours : h.maxHours = p.ringSlots
  iface : Agree (ifaceNaming hnames .listed) (capacity p) disk.iface h.iface
  device : Agree (deviceNaming hnames .listed) (capacity p) disk.device h.device

variable {hnames : NamesOk topology}

/-- The order in which maps are iterated does not matter. -/
theorem agree_order {c : Capacity} {d : Dir} (o o' : IterOrder) :
    (∀ {m : SeriesMap UInt32}, Agree (ifaceNaming hnames o) c d m →
      Agree (ifaceNaming hnames o') c d m) ∧
    ∀ {m : SeriesMap DeviceSeriesKey}, Agree (deviceNaming hnames o) c d m →
      Agree (deviceNaming hnames o') c d m :=
  ⟨fun h => ⟨⟨h.rings.ring, h.rings.named⟩, ⟨h.queues.known, h.queues.bounded⟩⟩,
    fun h => ⟨⟨h.rings.ring, h.rings.named⟩, ⟨h.queues.known, h.queues.bounded⟩⟩⟩

theorem persist_iface (hnames : NamesOk topology) {i : UInt32} {info : Interface}
    (hi : topology.byIfindex i = some info) (bucket : Option AggregatedBucket) :
    (bucket.map (CompletedAggregate.iface info.name)).toList.foldl (persist p) disk =
      { disk with
        iface := persistSeries (ifaceNaming hnames .listed) (capacity p) disk.iface i bucket } := by
  have hfile : (ifaceNaming hnames .listed).file i = ifaceRingFile info.name :=
    congrArg ifaceRingFile (nameOf_eq hi)
  cases bucket with
  | none => rfl
  | some b =>
    show (appendIfaceBucket p disk info.name b).2 = _
    unfold persistSeries
    dsimp only
    rw [hfile]
    rfl

theorem persist_device (hnames : NamesOk topology) (p : PersistenceManager) (disk : Disk)
    (key : DeviceSeriesKey) {info : Interface} (hi : topology.byIfindex key.ifindex = some info)
    (hmac : ∃ mac, key.mac = macToString mac)
    (bucket : Option AggregatedBucket) :
    (bucket.map (CompletedAggregate.device info.name key.mac)).toList.foldl (persist p) disk =
      { disk with
        device :=
          persistSeries (deviceNaming hnames .listed) (capacity p) disk.device key bucket } := by
  obtain ⟨mac, hmac⟩ := hmac
  have hhex : normalizeMacHex key.mac = some (macHex mac) := by
    rw [hmac, normalizeMacHex_macToString]
  have hfile : (deviceNaming hnames .listed).file key = deviceRingFile info.name (macHex mac) := by
    show deviceRingFile _ ((normalizeMacHex key.mac).getD "") = _
    rw [nameOf_eq hi, hhex]
    rfl
  cases bucket with
  | none => rfl
  | some b =>
    show (appendDeviceBucket p disk info.name key.mac b).2 = _
    unfold appendDeviceBucket persistSeries
    rw [hhex]
    dsimp only
    rw [hfile]
    rfl

/-- **One row**: what it completes is appended. -/
theorem agreeAll_ingestRow (hagree : AgreeAll hnames p h disk)
    (hourly : UInt64 → UInt64 × UInt64) (ts : UInt64) {row : Row} (hrow : RowOk topology row) :
    AgreeAll hnames p (ingestRow hourly h ts row).2
      ((ingestRow hourly h ts row).1.toList.foldl (persist p) disk) := by
  have hcap : (capacity p).val = h.maxHours := hagree.maxHours.symm
  cases row with
  | iface item =>
    obtain ⟨info, hi, hname⟩ := hrow
    have hstep := agree_ingestSeries (capacity_lt p) hagree.iface ⟨info, hi⟩ hourly ts item.metrics
    rw [hcap] at hstep
    unfold ingestRow
    dsimp only
    rw [hname, persist_iface hnames hi]
    exact ⟨hagree.maxHours, hstep, hagree.device⟩
  | device item =>
    obtain ⟨⟨info, hi, hname⟩, hmac⟩ := hrow
    have hknown : (deviceNaming hnames .listed).known (deviceSeriesKey item) := ⟨⟨info, hi⟩, hmac⟩
    unfold ingestRow
    dsimp only
    have hpersist : ∀ bucket : Option AggregatedBucket,
        (bucket.map (CompletedAggregate.device info.name item.mac)).toList.foldl (persist p) disk = _ :=
      persist_device hnames p disk (deviceSeriesKey item) hi hmac
    rw [hname, hpersist]
    refine ⟨hagree.maxHours, hagree.iface, ?_⟩
    by_cases hidle : (!item.online && item.metrics.isEmpty) = true
    · rw [if_pos hidle]
      have hstep := agree_flushSeries (capacity_lt p) hagree.device hknown ts
      rw [hcap] at hstep
      exact hstep
    · rw [if_neg hidle]
      have hstep := agree_ingestSeries (capacity_lt p) hagree.device hknown hourly ts item.metrics
      rw [hcap] at hstep
      exact hstep

theorem agreeAll_ingestRows (ts : UInt64) {rs : List Row} (hrows : ∀ row ∈ rs, RowOk topology row)
    (hagree : AgreeAll hnames p h disk) :
    AgreeAll hnames p (ingestRows hourly ts h rs).2
      (((ingestRows hourly ts h rs).1.map Prod.snd).foldl (persist p) disk) := by
  induction rs generalizing h disk with
  | nil => exact hagree
  | cons row rest ih =>
    have hrest := ih (fun row hr => hrows row (List.mem_cons_of_mem _ hr))
      (agreeAll_ingestRow hagree hourly ts (hrows row List.mem_cons_self))
    have hmap : ∀ c : Option CompletedAggregate,
        (c.map fun a => (row, a)).toList.map Prod.snd = c.toList := by
      rintro (_ | c) <;> rfl
    rw [ingestRows_cons, List.map_append, List.foldl_append, hmap]
    exact hrest

/-- Two directories that can be loaded. -/
theorem reload_eq {o : IterOrder} {iface device : Dir} {mi : SeriesMap UInt32}
    {md : SeriesMap DeviceSeriesKey}
    (hiface : loadDir p.ringSlots p.ringSlots (ifaceEntry o topology) (o.order disk.iface.files.keys)
      disk.iface ⟨∅, ∅⟩ = (.ok (), iface, mi))
    (hdevice : loadDir p.ringSlots p.ringSlots (deviceEntry o topology)
      (o.order disk.device.files.keys) disk.device ⟨∅, ∅⟩ = (.ok (), device, md)) :
    reload o p topology disk =
      (.ok (), ⟨iface, device⟩, { freshHistogram p with iface := mi, device := md }) := by
  have hloadI : loadIfaceHistogram o p topology disk (freshHistogram p) =
      (.ok (), ⟨iface, disk.device⟩, { freshHistogram p with iface := mi }) := by
    have hload : loadDir (freshHistogram p).maxHours p.ringSlots (ifaceEntry o topology)
        (o.order disk.iface.files.keys) disk.iface (freshHistogram p).iface = _ := hiface
    unfold loadIfaceHistogram
    rw [hload]
  have hloadD : loadDeviceHistogram o p topology ⟨iface, disk.device⟩
      { freshHistogram p with iface := mi } =
      (.ok (), ⟨iface, device⟩, { freshHistogram p with iface := mi, device := md }) := by
    have hload : loadDir (freshHistogram p).maxHours p.ringSlots (deviceEntry o topology)
        (o.order disk.device.files.keys) disk.device (freshHistogram p).device = _ := hdevice
    unfold loadDeviceHistogram
    dsimp only
    rw [hload]
  unfold reload loadHistogram
  rw [hloadI]
  exact hloadD

/-- **Starting again** loads what was in memory, finalized. -/
theorem agreeAll_reload (hagree : AgreeAll hnames p h disk) (o : IterOrder) :
    ∃ disk' h', reload o p topology disk = (.ok (), disk', h') ∧ AgreeAll hnames p h' disk' ∧
      (h'.iface.current = ∅ ∧ h'.device.current = ∅) ∧
      (∀ i, completedOf h'.iface i = (completedOf h.iface i).map AggregatedBucket.finalize) ∧
      (∀ k, completedOf h'.device k = (completedOf h.device k).map AggregatedBucket.finalize) ∧
      ∀ k, k ∈ h'.device.completed ↔ k ∈ h.device.completed := by
  obtain ⟨iface, mi, hloadI, hcurI, hagreeI, hcompI, -⟩ :=
    loadDir_agree ((agree_order .listed o).1 hagree.iface) o
  obtain ⟨device, md, hloadD, hcurD, hagreeD, hcompD, hkeysD⟩ :=
    loadDir_agree ((agree_order .listed o).2 hagree.device) o
  exact ⟨⟨iface, device⟩, { freshHistogram p with iface := mi, device := md },
    reload_eq hloadI hloadD,
    ⟨rfl, (agree_order o .listed).1 hagreeI, (agree_order o .listed).2 hagreeD⟩, ⟨hcurI, hcurD⟩, hcompI,
    hcompD, hkeysD⟩

theorem agreeAll_step (op : Op) (hop : OpOk topology op)
    (hagree : AgreeAll hnames p st.histogram st.disk) :
    AgreeAll hnames p (step hourly p topology st op).histogram
      (step hourly p topology st op).disk := by
  cases op with
  | collect snapshot => exact agreeAll_ingestRows snapshot.timestampMs hop hagree
  | restart o currentIface currentDevice =>
    obtain ⟨disk', h', hload, hagree', -⟩ := agreeAll_reload hagree o
    unfold step
    dsimp only
    rw [hload]
    exact ⟨hagree'.maxHours, agree_congr hagree'.iface rfl, agree_congr hagree'.device rfl⟩

theorem agreeAll_start (hnames : NamesOk topology) (p : PersistenceManager) :
    AgreeAll hnames p (start p).histogram (start p).disk := by
  have hempty : ∀ {K : Type} [DecidableEq K] (n : Naming K),
      Agree n (capacity p) .empty (⟨∅, ∅⟩ : SeriesMap K) := fun n =>
    ⟨⟨fun k _ => Or.inl ⟨rfl, rfl⟩, fun fileName hf => absurd hf (AList.notMem_empty _)⟩,
      ⟨fun k hk => absurd hk (AList.notMem_empty k), fun k => Nat.zero_le _⟩⟩
  exact ⟨rfl, hempty _, hempty _⟩

/-- **Memory and disk agree at every point of every run.** -/
theorem agreeAll_run (hnames : NamesOk topology) (hourly : UInt64 → UInt64 × UInt64)
    (p : PersistenceManager) {ops : List Op} (hops : ∀ op ∈ ops, OpOk topology op)
    (hagree : AgreeAll hnames p st.histogram st.disk) :
    AgreeAll hnames p (ops.foldl (step hourly p topology) st).histogram
      (ops.foldl (step hourly p topology) st).disk := by
  induction ops generalizing st with
  | nil => exact hagree
  | cons op rest ih =>
    exact ih (fun op' hop' => hops op' (List.mem_cons_of_mem _ hop'))
      (agreeAll_step op (hops op List.mem_cons_self) hagree)

end Steps

/-! ### The result -/

/-- Reading the ring of a series returns these buckets, finalized; a series that never completed one
has no ring. -/
def ReadsBack (d : Dir) (fileName : String) (buckets : List AggregatedBucket) : Prop :=
  (d.files.lookup fileName = none ∧ buckets = []) ∨
    readRingRecords (d.store fileName) =
      (.ok (buckets.map fun b => ⟨b.finalize⟩), d.store fileName)

theorem readsBack_of_represents {d : Dir} {fileName : String} {buckets : List AggregatedBucket}
    (h : Represents (d.store fileName) (recordsOf buckets)) : ReadsBack d fileName buckets := by
  rcases h with ⟨hnone, hnil⟩ | ⟨bytes, header, hfile, hring⟩
  · exact Or.inl ⟨hnone, List.map_eq_nil_iff.mp hnil⟩
  · exact Or.inr (readRingRecords_of_isRing hring hfile)

/-- The histogram without its current buckets. -/
def completedOnly (h : HistogramHistory) : HistogramHistory :=
  { h with
    iface := { h.iface with current := ∅ }
    device := { h.device with current := ∅ } }

/-- **Memory and disk hold the same completed history.** After any run from an empty data directory,
with as many slots as hours and fixed interface names, the ring of each interface and each device
reads back what is completed in memory, finalized; and loading the rings into a fresh histogram
succeeds and gives the same answers about completed buckets. -/
theorem memory_and_disk_agree (topology : TopologySnapshot) (hnames : NamesOk topology)
    (hourly : UInt64 → UInt64 × UInt64) (p : PersistenceManager) (ops : List Op)
    (hops : ∀ op ∈ ops, OpOk topology op) :
    let st := ops.foldl (step hourly p topology) (start p)
    (∀ i info, topology.byIfindex i = some info →
      ReadsBack st.disk.iface (ifaceRingFile info.name) (completedOf st.histogram.iface i)) ∧
    (∀ i info mac, topology.byIfindex i = some info →
      ReadsBack st.disk.device (deviceRingFile info.name (macHex mac))
        (completedOf st.histogram.device ⟨i, macToString mac⟩)) ∧
    ∀ o, (reload o p topology st.disk).1 = .ok () ∧
      ∀ (o₁ o₂ : IterOrder) (z : Zone) (ifindex : UInt32) (mac : Option String)
        (startMs endMs : UInt64) (bucket : AggregateBucket),
        queryAggregate o₁ z (completedOnly st.histogram) ifindex mac startMs endMs bucket =
          queryAggregate o₂ z (reload o p topology st.disk).2.2 ifindex mac startMs endMs bucket := by
  intro st
  have hagree : AgreeAll hnames p st.histogram st.disk :=
    agreeAll_run hnames hourly p hops (agreeAll_start hnames p)
  refine ⟨fun i info hi => ?_, fun i info mac hi => ?_, fun o => ?_⟩
  · have hring := hagree.iface.rings.ring i ⟨info, hi⟩
    have hfile : (ifaceNaming hnames .listed).file i = ifaceRingFile info.name :=
      congrArg ifaceRingFile (nameOf_eq hi)
    rw [hfile] at hring
    exact readsBack_of_represents hring
  · have hring := hagree.device.rings.ring ⟨i, macToString mac⟩ ⟨⟨info, hi⟩, mac, rfl⟩
    have hfile : (deviceNaming hnames .listed).file ⟨i, macToString mac⟩ =
        deviceRingFile info.name (macHex mac) := by
      show deviceRingFile _ ((normalizeMacHex (macToString mac)).getD "") = _
      rw [nameOf_eq hi, normalizeMacHex_macToString]
      rfl
    rw [hfile] at hring
    exact readsBack_of_represents hring
  · obtain ⟨disk', h', hload, -, hcur, hiface, hdevice, hkeys⟩ := agreeAll_reload hagree o
    rw [hload]
    refine ⟨rfl, fun o₁ o₂ z ifindex mac startMs endMs bucket => ?_⟩
    have hfinal : ∀ bs : List AggregatedBucket, (bs.map AggregatedBucket.finalize).map
        AggregatedBucket.finalize = bs.map AggregatedBucket.finalize := by
      intro bs
      rw [List.map_map]
      exact List.map_congr_left fun b _ => b.finalize_finalize
    have hnone : (completedOnly st.histogram).iface.current = ∅ ∧
        (completedOnly st.histogram).device.current = ∅ := ⟨rfl, rfl⟩
    refine queryAggregate_congr o₁ o₂ z hnone hcur (fun i => ?_) (fun k => ?_)
      (fun k => (hkeys k).symm) (fun k hk => ?_) ifindex mac startMs endMs bucket
    · rw [hiface, hfinal]
      rfl
    · rw [hdevice, hfinal]
      rfl
    · exact (hagree.device.queues.known k hk).1.2

/-- One interface. -/
def sampleTopology : TopologySnapshot where
  entries := AList.singleton 3 ⟨3, "br-lan", "lan", [], []⟩
  keyed := by
    intro i info h
    rw [← mem_entries_iff] at h
    cases List.mem_singleton.mp h
    rfl

theorem sampleTopology_eq {i : UInt32} {info : Interface}
    (h : sampleTopology.byIfindex i = some info) : i = 3 ∧ info = ⟨3, "br-lan", "lan", [], []⟩ := by
  have hmem := mem_entries_iff.mpr h
  cases List.mem_singleton.mp hmem
  exact ⟨rfl, rfl⟩

theorem sampleTopology_names : NamesOk sampleTopology := by
  constructor
  · intro i j a b hi hj _
    exact (sampleTopology_eq hi).1.trans (sampleTopology_eq hj).1.symm
  · intro i a hi
    rw [(sampleTopology_eq hi).2]
    decide

/-- An interface that is seen in two hours. -/
def sampleOps : List Op :=
  let item : InterfaceOverviewItem := ⟨3, "br-lan", "lan", .zero, .zero, .zero, .zero, .zero⟩
  [.collect ⟨172800000, [item], []⟩, .collect ⟨176400000, [item], []⟩, .restart .listed ∅ ∅]

theorem memory_and_disk_agree_sample :
    let st := sampleOps.foldl
      (step (fun ts => (ts / 3600000 * 3600000, ts / 3600000 * 3600000 + 3599999))
        ⟨1, by decide⟩ sampleTopology) (start ⟨1, by decide⟩)
    ReadsBack st.disk.iface (ifaceRingFile "br-lan") (completedOf st.histogram.iface 3) := by
  have hops : ∀ op ∈ sampleOps, OpOk sampleTopology op := by
    have hrow : ∀ item : InterfaceOverviewItem, item.ifindex = 3 → item.ifname = "br-lan" →
        RowOk sampleTopology (.iface item) := by
      intro item hindex hname
      refine ⟨⟨3, "br-lan", "lan", [], []⟩, ?_, hname⟩
      rw [hindex]
      rfl
    intro op hop
    unfold sampleOps at hop
    simp only [List.mem_cons, List.not_mem_nil, or_false] at hop
    rcases hop with rfl | rfl | rfl
    · intro row hr
      rw [List.mem_singleton.mp hr]
      exact hrow _ rfl rfl
    · intro row hr
      rw [List.mem_singleton.mp hr]
      exact hrow _ rfl rfl
    · trivial
  exact (memory_and_disk_agree sampleTopology sampleTopology_names _ _ sampleOps hops).1 3
    ⟨3, "br-lan", "lan", [], []⟩ rfl

end BandixPlus.Persistence.History
