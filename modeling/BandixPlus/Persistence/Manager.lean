import BandixPlus.Monitor.Histogram
import BandixPlus.Monitor.Topology
import BandixPlus.Persistence.Paths
import BandixPlus.Persistence.RingFile

/-! # The rings of a data directory

`persistence.rs`, `PersistenceManager`: one ring file for each interface and each device. The two
directories of ring files are the state; no read or write fails. Files whose names are not UTF-8 are
left out: the source passes over them and never writes one. -/

namespace BandixPlus.Persistence.Manager

open BandixPlus.Lib.Maps
open BandixPlus.Monitor.Counters BandixPlus.Monitor.Histogram BandixPlus.Monitor.Topology
open BandixPlus.Net.Text BandixPlus.Persistence.Paths BandixPlus.Persistence.RingFile

/-- The files of a directory, and the corrupt ones with the names that they were renamed away from. -/
structure Dir where
  files : HashMap String (List UInt8)
  quarantined : List (String × List UInt8)

def Dir.empty : Dir := ⟨∅, []⟩

/-- The file of this name. -/
def Dir.store (d : Dir) (fileName : String) : Store := ⟨d.files.lookup fileName, []⟩

/-- Work on the file of this name. -/
def Dir.on {α : Type} (d : Dir) (fileName : String) (f : Store → α × Store) : α × Dir :=
  let (a, s) := f (d.store fileName)
  let files :=
    match s.file with
    | some bytes => d.files.insert fileName bytes
    | none => d.files.erase fileName
  (a, { files, quarantined := d.quarantined ++ s.quarantined.map fun bytes => (fileName, bytes) })

/-- The rings hold 1 to 90 days. -/
structure PersistenceManager where
  ringDays : ℕ
  valid : 1 ≤ ringDays ∧ ringDays ≤ 90

def PersistenceManager.ringSlots (p : PersistenceManager) : ℕ := p.ringDays * 24

/-- `iface_traffic_dir` and `device_traffic_dir`. -/
structure Disk where
  iface : Dir
  device : Dir

def appendIfaceBucket (p : PersistenceManager) (disk : Disk) (ifaceName : String)
    (bucket : AggregatedBucket) : Except String Unit × Disk :=
  let (result, iface) := disk.iface.on (ifaceRingFile ifaceName) fun s =>
    appendRingRecordWithCapacity s ⟨bucket⟩ p.ringSlots
  (result, { disk with iface })

def appendDeviceBucket (p : PersistenceManager) (disk : Disk) (ifaceName mac : String)
    (bucket : AggregatedBucket) : Except String Unit × Disk :=
  match normalizeMacHex mac with
  | none => (.error s!"invalid mac for ring path: {mac}", disk)
  | some macHex =>
    let (result, device) := disk.device.on (deviceRingFile ifaceName macHex) fun s =>
      appendRingRecordWithCapacity s ⟨bucket⟩ p.ringSlots
    (result, { disk with device })

/-- What the collector does with a completed aggregate; it logs an error and goes on. -/
def persist (p : PersistenceManager) (disk : Disk) : CompletedAggregate → Disk
  | .iface iface bucket => (appendIfaceBucket p disk iface bucket).2
  | .device iface mac bucket => (appendDeviceBucket p disk iface mac bucket).2

/-! ### Loading -/

/-- What the loading of a directory does with a file: pass over it, rename it away, panic, or restore
the series of a key. -/
inductive Entry (K : Type) where
  | skip
  | bad
  | panic
  | ring (key : K)

def ifaceEntry (o : IterOrder) (topology : TopologySnapshot) (fileName : String) : Entry UInt32 :=
  if !isRingFile fileName then .skip
  else
    match decodeComponent (fileStem fileName) with
    | .error _ => .panic
    | .ok none => .bad
    | .ok (some ifaceName) =>
      match topology.ifindexByName o ifaceName with
      | none => .skip
      | some ifindex => .ring ifindex

def deviceEntry (o : IterOrder) (topology : TopologySnapshot) (fileName : String) :
    Entry DeviceSeriesKey :=
  if !isRingFile fileName then .skip
  else
    match rsplitOnce (fileStem fileName) '-' with
    | none => .bad
    | some (ifaceHex, macHex) =>
      match decodeComponent ifaceHex with
      | .error _ => .panic
      | .ok none => .bad
      | .ok (some ifaceName) =>
        match topology.ifindexByName o ifaceName with
        | none => .skip
        | some ifindex =>
          match macHexToColon macHex with
          | none => .bad
          | some mac => .ring ⟨ifindex, mac⟩

inductive LoadError where
  | panic
  | error (message : String)

section Series
variable {K : Type} [DecidableEq K] (maxHours slots : ℕ)

/-- Restore the buckets of a series, oldest first. -/
def restoreAll (m : SeriesMap K) (key : K) (records : List RingRecord) : SeriesMap K :=
  records.foldl (fun m r => restoreBucket maxHours m key r.bucket) m

def loadRing (d : Dir) (m : SeriesMap K) (fileName : String) (key : K) :
    Except LoadError Unit × Dir × SeriesMap K :=
  match d.on fileName fun s => openOrCreateRing s slots with
  | (.error e, d) => (.error (.error e), d, m)
  | (.ok _, d) =>
    match d.on fileName readRingRecords with
    | (.error e, d) => (.error (.error e), d, m)
    | (.ok records, d) => (.ok (), d, restoreAll maxHours m key records)

/-- The loop of `load_iface_histogram` and `load_device_histogram`. -/
def loadDir (entry : String → Entry K) :
    List String → Dir → SeriesMap K → Except LoadError Unit × Dir × SeriesMap K
  | [], d, m => (.ok (), d, m)
  | fileName :: rest, d, m =>
    match entry fileName with
    | .skip => loadDir entry rest d m
    | .bad => loadDir entry rest (d.on fileName fun s => ((), quarantineBadFile s)).2 m
    | .panic => (.error .panic, d, m)
    | .ring key =>
      match loadRing maxHours slots d m fileName key with
      | (.ok (), d, m) => loadDir entry rest d m
      | (.error e, d, m) => (.error e, d, m)

end Series

def loadIfaceHistogram (o : IterOrder) (p : PersistenceManager) (topology : TopologySnapshot)
    (disk : Disk) (h : HistogramHistory) : Except LoadError Unit × Disk × HistogramHistory :=
  let (result, iface, series) := loadDir h.maxHours p.ringSlots (ifaceEntry o topology)
    (o.order disk.iface.files.keys) disk.iface h.iface
  (result, { disk with iface }, { h with iface := series })

def loadDeviceHistogram (o : IterOrder) (p : PersistenceManager) (topology : TopologySnapshot)
    (disk : Disk) (h : HistogramHistory) : Except LoadError Unit × Disk × HistogramHistory :=
  let (result, device, series) := loadDir h.maxHours p.ringSlots (deviceEntry o topology)
    (o.order disk.device.files.keys) disk.device h.device
  (result, { disk with device }, { h with device := series })

def loadHistogram (o : IterOrder) (p : PersistenceManager) (topology : TopologySnapshot)
    (disk : Disk) (h : HistogramHistory) : Except LoadError Unit × Disk × HistogramHistory :=
  match loadIfaceHistogram o p topology disk h with
  | (.error e, disk, h) => (.error e, disk, h)
  | (.ok (), disk, h) => loadDeviceHistogram o p topology disk h

end BandixPlus.Persistence.Manager
