import BandixPlus.Monitor.RuntimeState
import BandixPlus.Persistence.CurrentHour

/-! # The service

`command.rs`, `run_service`: the recovery at the start, the collector loop and the cleanup task, with the
operations of `api.rs` that change a device. Reads and writes of files do not fail; what is read of a JSON
file is what was written.

A turn of the collector loop and an API call are one step each here; `Service.Regions` splits them at their
locks. The cleanup task gives up its locks between the selection of the devices, the lookup of their
interfaces, each of the three removals and each deletion of a file; these are steps of their own. -/

namespace BandixPlus.Service.State

open BandixPlus.Common BandixPlus.Lib.LocalTime BandixPlus.Lib.Maps BandixPlus.Lib.RingBuffer
open BandixPlus.Monitor.Counters BandixPlus.Monitor.Snapshot BandixPlus.Monitor.Histogram
open BandixPlus.Monitor.Topology BandixPlus.Monitor.Runtime BandixPlus.Monitor.Interfaces
open BandixPlus.Monitor.Collect BandixPlus.Monitor.Session BandixPlus.Monitor.RuntimeState
open BandixPlus.Monitor.Totals BandixPlus.Net.Text BandixPlus.Persistence.Paths
open BandixPlus.Persistence.Manager BandixPlus.Persistence.History BandixPlus.Persistence.CurrentHour

/-! ### The stores of a device -/

/-- A series or a row of the device, whatever the case of its MAC address. -/
def ofDevice (ifindex : UInt32) (mac : String) (ifindex' : UInt32) (mac' : String) : Bool :=
  ifindex' = ifindex && eqIgnoreAsciiCase mac' mac

structure HistoryPoint where
  tsMs : UInt64
  metrics : CounterQuad
  cumulative : CounterQuad

structure TrafficHistory where
  windowPoints : ℕ
  ifaceSeries : HashMap UInt32 (List HistoryPoint)
  deviceSeries : HashMap DeviceSeriesKey (List HistoryPoint)

namespace TrafficHistory

/-- `TrafficHistory::new`. -/
def new (windowPoints : ℕ) : TrafficHistory := ⟨max windowPoints 1, ∅, ∅⟩

def removeDevice (h : TrafficHistory) (ifindex : UInt32) (mac : String) : Bool × TrafficHistory :=
  let deviceSeries := retain (fun key _ => !ofDevice ifindex mac key.ifindex key.mac) h.deviceSeries
  (len deviceSeries ≠ len h.deviceSeries, { h with deviceSeries })

/-- The newest points of a queue, with one more. -/
def pushPoint (windowPoints : ℕ) (point : HistoryPoint) (queue : List HistoryPoint) :
    List HistoryPoint :=
  (queue ++ [point]).rtake windowPoints

def ingestSnapshot (h : TrafficHistory) (snapshot : SnapshotData) : TrafficHistory :=
  { h with
    ifaceSeries := snapshot.interfaces.foldl (fun m iface =>
      upsert iface.ifindex []
        (pushPoint h.windowPoints ⟨snapshot.timestampMs, iface.metrics, iface.cumulative⟩) m)
      h.ifaceSeries
    deviceSeries := snapshot.devices.foldl (fun m dev =>
      if !dev.online && dev.metrics.isEmpty then m
      else
        upsert (deviceSeriesKey dev) []
          (pushPoint h.windowPoints ⟨snapshot.timestampMs, dev.metrics, dev.cumulative⟩) m)
      h.deviceSeries }

end TrafficHistory

/-- `HistogramHistory::remove_device`. -/
def removeHistogramDevice (h : HistogramHistory) (ifindex : UInt32) (mac : String) :
    Bool × HistogramHistory :=
  let isDevice := fun key : DeviceSeriesKey => ofDevice ifindex mac key.ifindex key.mac
  (h.device.current.keys.any isDevice || h.device.completed.keys.any isDevice,
    { h with device := {
      current := retain (fun key _ => !isDevice key) h.device.current
      completed := retain (fun key _ => !isDevice key) h.device.completed } })

/-- The rows of the snapshot without the device. -/
def removeSnapshotDevice (snapshot : SnapshotData) (ifindex : UInt32) (mac : String) :
    Bool × SnapshotData :=
  let devices := snapshot.devices.filter fun dev => !ofDevice ifindex mac dev.ifindex dev.mac
  (devices.length ≠ snapshot.devices.length, { snapshot with devices })

/-- `delete_device_traffic`. -/
def deleteDeviceTraffic (disk : Disk) (ifaceName mac : String) : Except String Bool × Disk :=
  match normalizeMacHex mac with
  | none => (.error s!"invalid mac for ring path: {mac}", disk)
  | some macHex =>
    let fileName := deviceRingFile ifaceName macHex
    if fileName ∈ disk.device.files then
      (.ok true, { disk with
        device := { disk.device with files := disk.device.files.erase fileName } })
    else (.ok false, disk)

/-! ### The data directory -/

structure PersistedDevicesFile where
  schemaVersion : UInt32
  state : MonitorRuntimeState

def devicesSchemaVersion : UInt32 := 1

def saveMonitorRuntime (o : IterOrder) (topology : TopologySnapshot) (rt : MonitorRuntime) :
    PersistedDevicesFile where
  schemaVersion := devicesSchemaVersion
  state := exportRuntimeState o topology rt

/-- What `load_monitor_runtime` imports; a file of another version is an error, which is logged. -/
def loadMonitorRuntime (file : Option PersistedDevicesFile) : Option MonitorRuntimeState :=
  (file.filter fun data => data.schemaVersion = devicesSchemaVersion).map PersistedDevicesFile.state

/-- The data directory: `traffic/`, `devices_state.json` and `current_hour_state.json`. -/
structure Files where
  disk : Disk
  devices : Option PersistedDevicesFile
  currentHour : Option PersistedCurrentHourFile

/-- A new data directory. -/
def Files.empty : Files := ⟨⟨.empty, .empty⟩, none, none⟩

/-! ### The state -/

/-- What the cleanup task does next with the devices that it selected. -/
inductive CleanupPhase where
  | names
  | runtime
  | history
  | histogram
  | files (rest : List (DeviceKey × Option String))

structure Cleanup where
  staleThreshold : UInt64
  staleDevices : List DeviceKey
  ifaceNames : List (Option String)
  phase : CleanupPhase

structure ServiceState where
  files : Files
  snapshot : SnapshotData
  runtime : MonitorRuntime
  history : TrafficHistory
  histogram : HistogramHistory
  lastPeriodicPersistMs : UInt64
  /-- The cleanup that is under way. -/
  cleanup : Option Cleanup

structure Options where
  config : Config
  persistence : PersistenceManager
  trafficEnableStorage : Bool
  historyWindowMinutes : UInt32
  deviceTtlDays : UInt32
  /-- The time zone of the host. -/
  zone : Zone

/-! ### The start -/

/-- The order of the recovered device rows. -/
def recoveredLe (a b : DeviceListItem) : Bool :=
  ((compare a.logicalIface b.logicalIface).then
    ((compare a.ipv4 b.ipv4).then ((compare a.ipv6 b.ipv6).then (compare a.mac b.mac)))).isLE

/-- The row of an interface that has a total. -/
def recoveredIface (topology : TopologySnapshot) (rt : MonitorRuntime) (ifindex : UInt32)
    (cumulative : CounterQuad) : Option InterfaceOverviewItem :=
  let shown := fun m : HashMap UInt32 CounterQuad => ((m.lookup ifindex).map bytesOnly).getD .zero
  (topology.byIfindex ifindex).map fun iface =>
    { ifindex
      ifname := iface.name
      zone := iface.zone
      metrics := .zero
      cumulative
      mcastMetrics := shown rt.cumulativeMcast
      bcastMetrics := shown rt.cumulativeBcast
      unresolvedMetrics := shown rt.cumulativeUnresolved }

def recoveredDevice (rt : MonitorRuntime) (key : DeviceKey) (known : KnownDevice) :
    DeviceListItem where
  ifindex := key.1
  logicalIface := known.logicalIface
  subnet := known.subnet
  ipv4 := known.ipv4
  ipv6 := known.ipv6
  mac := macToString key.2
  hostname := known.hostname
  metrics := .zero
  cumulative := (rt.cumulativeDevice.lookup key).getD .zero
  online := false
  lastSeenMs := known.lastSeenMs
  neighborState := none

def buildRecoveredSnapshot (o : IterOrder) (topology : TopologySnapshot) (rt : MonitorRuntime)
    (nowMs : UInt64) : SnapshotData where
  timestampMs := nowMs
  interfaces := ((o.order rt.cumulativeIface.entries).filterMap fun e =>
    recoveredIface topology rt e.1 e.2).mergeSort fun a b => a.ifindex ≤ b.ifindex
  devices := ((o.order rt.deviceRegistry.entries).map fun e =>
    recoveredDevice rt e.1 e.2).mergeSort recoveredLe

/-- The histogram of the rings and of the current hour; `none` is a panic. -/
def recoverHistogram (opts : Options) (o : IterOrder) (topology : TopologySnapshot) (files : Files)
    (nowMs : UInt64) : Option (Disk × HistogramHistory) :=
  if opts.trafficEnableStorage then
    match reload o opts.persistence topology files.disk with
    | (.error .panic, _, _) => none
    | (_, disk, h) =>
      (loadCurrentHourHistogram o opts.zone topology nowMs files.currentHour h).map fun h => (disk, h)
  else some (files.disk, freshHistogram opts.persistence)

/-- **The recovery sequence** of `run_service`, from the data directory. -/
def runService (opts : Options) (o : IterOrder) (topology : TopologySnapshot) (files : Files)
    (nowMs : UInt64) : Option ServiceState :=
  (recoverHistogram opts o topology files nowMs).map fun (disk, histogram) =>
    let (cumulativeIface, cumulativeDevice) := cumulativeFromAll o histogram
    let runtime := startRuntime o topology (loadMonitorRuntime files.devices) cumulativeIface
      cumulativeDevice
    { files := { files with disk }
      snapshot := buildRecoveredSnapshot o topology runtime nowMs
      runtime
      history := .new (opts.historyWindowMinutes.toNat * 60)
      histogram
      lastPeriodicPersistMs := 0
      cleanup := none }

/-! ### The collector loop -/

def periodicPersistIntervalMs : UInt64 := 10 * 60 * 1000

def persistPeriodically (opts : Options) (o : IterOrder) (topology : TopologySnapshot)
    (st : ServiceState) : ServiceState :=
  { st with
    files := { st.files with
      devices := some (saveMonitorRuntime o topology st.runtime)
      currentHour :=
        if opts.trafficEnableStorage then some (saveCurrentHourHistogram o topology st.histogram)
        else st.files.currentHour }
    lastPeriodicPersistMs := st.snapshot.timestampMs }

/-- The stores after a snapshot; what completed is appended to the rings. -/
def ingest (opts : Options) (st : ServiceState) (runtime : MonitorRuntime) (data : SnapshotData) :
    ServiceState :=
  let (completed, histogram) := ingestSnapshotCollectCompleted (hourOf opts.zone) st.histogram data
  { st with
    files := { st.files with
      disk :=
        if opts.trafficEnableStorage then completed.foldl (persist opts.persistence) st.files.disk
        else st.files.disk }
    snapshot := data
    runtime
    history := st.history.ingestSnapshot data
    histogram }

/-- One turn of the collector loop. -/
def collectorTick (opts : Options) (topology : TopologySnapshot) (st : ServiceState) (tick : Tick) :
    ServiceState :=
  match collectSnapshot opts.config topology tick st.runtime with
  | (none, runtime) => { st with runtime }
  | (some data, runtime) =>
    let st := ingest opts st runtime data
    if periodicPersistIntervalMs ≤ satSub data.timestampMs st.lastPeriodicPersistMs then
      persistPeriodically opts tick.o topology st
    else st

/-! ### The cleanup task -/

def removeDevices (keys : List DeviceKey) (rt : MonitorRuntime) : MonitorRuntime :=
  keys.foldl (fun rt key => (rt.removeDevice key.1 key.2).2) rt

/-- The devices that were last seen before a time. -/
def staleDevices (o : IterOrder) (threshold : UInt64) (registry : HashMap DeviceKey KnownDevice) :
    List DeviceKey :=
  ((o.order registry.entries).filter fun e => e.2.lastSeenMs < threshold).map fun e => e.1

def msPerDay : UInt64 := 24 * 3600 * 1000

/-- The time before which a device must have been last seen to be removed. -/
def staleThreshold (opts : Options) (nowMs : UInt64) : UInt64 :=
  satSub nowMs (opts.deviceTtlDays.toUInt64 * msPerDay)

/-- The selection; without a time to live there is no cleanup task. -/
def selectStale (opts : Options) (o : IterOrder) (nowMs : UInt64) (st : ServiceState) : ServiceState :=
  if opts.deviceTtlDays = 0 then st
  else
    let threshold := staleThreshold opts nowMs
    let stale := staleDevices o threshold st.runtime.deviceRegistry
    if stale = [] then st
    else { st with cleanup := some ⟨threshold, stale, [], .names⟩ }

/-- The next step of a cleanup that is under way. -/
def continueCleanup (topology : TopologySnapshot) (st : ServiceState) (c : Cleanup) : ServiceState :=
  match c.phase with
  | .names =>
    let ifaceNames := c.staleDevices.map fun key => (topology.byIfindex key.1).map Interface.name
    { st with cleanup := some { c with ifaceNames, phase := .runtime } }
  | .runtime =>
    { st with
      runtime := removeDevices c.staleDevices st.runtime
      cleanup := some { c with phase := .history } }
  | .history =>
    { st with
      history := c.staleDevices.foldl (fun h key => (h.removeDevice key.1 (macToString key.2)).2)
        st.history
      cleanup := some { c with phase := .histogram } }
  | .histogram =>
    { st with
      histogram := c.staleDevices.foldl
        (fun h key => (removeHistogramDevice h key.1 (macToString key.2)).2) st.histogram
      cleanup := some { c with phase := .files (c.staleDevices.zip c.ifaceNames) } }
  | .files [] => { st with cleanup := none }
  | .files ((key, name) :: rest) =>
    let disk :=
      match name with
      | some name => (deleteDeviceTraffic st.files.disk name (macToString key.2)).2
      | none => st.files.disk
    { st with
      files := { st.files with disk }
      cleanup := some { c with phase := .files rest } }

def cleanupStep (opts : Options) (o : IterOrder) (topology : TopologySnapshot) (nowMs : UInt64)
    (st : ServiceState) : ServiceState :=
  match st.cleanup with
  | none => selectStale opts o nowMs st
  | some c => continueCleanup topology st c

/-! ### The API -/

/-- The row of the device with its new host name, and the snapshot with it. -/
def renameInSnapshot (snapshot : SnapshotData) (ifindex : UInt32) (mac hostname : String) :
    Option DeviceListItem × SnapshotData :=
  let devices := snapshot.devices.map fun dev =>
    if ofDevice ifindex mac dev.ifindex dev.mac then { dev with hostname } else dev
  ((devices.filter fun dev => ofDevice ifindex mac dev.ifindex dev.mac).getLast?,
    { snapshot with devices })

/-- `set_device_hostname_handler`. -/
def setDeviceHostname (o : IterOrder) (topology : TopologySnapshot) (st : ServiceState)
    (iface mac hostname : String) (nowMs : UInt64) : Except String Unit × ServiceState :=
  let iface := trim iface
  let macRaw := trim mac
  let hostname := trim hostname
  if iface = "" then (.error "iface is required", st)
  else if macRaw = "" then (.error "mac is required", st)
  else if hostname = "" then (.error "hostname is required", st)
  else
    match topology.ifindexByName o iface with
    | none => (.error s!"unknown iface: {iface}", st)
    | some ifindex =>
      match macFromStr macRaw with
      | .error _ => (.error "invalid mac format", st)
      | .ok mac =>
        let (snapshotDevice, snapshot) :=
          renameInSnapshot st.snapshot ifindex (macToString mac) hostname
        if (ifindex, mac) ∉ st.runtime.deviceRegistry ∧ snapshotDevice.isNone then
          (.error "device not found", { st with snapshot })
        else
          let runtime := updateHostname st.runtime (ifindex, mac) hostname snapshotDevice nowMs
          (.ok (), { st with
            snapshot
            runtime
            files := { st.files with devices := some (saveMonitorRuntime o topology runtime) } })

structure DeleteDeviceResult where
  deviceStateDeleted : Bool
  trafficDataDeleted : Bool

/-- `delete_device_handler`. -/
def deleteDevice (o : IterOrder) (topology : TopologySnapshot) (st : ServiceState) (iface mac : String) :
    Except String DeleteDeviceResult × ServiceState :=
  let iface := trim iface
  if iface = "" then (.error "iface is required", st)
  else
    match macFromStr (trim mac) with
    | .error _ => (.error "invalid mac format", st)
    | .ok mac =>
      let macNorm := macToString mac
      match topology.ifindexByName o iface with
      | none => (.error s!"unknown iface: {iface}", st)
      | some ifindex =>
        let (snapshotDeleted, snapshot) := removeSnapshotDevice st.snapshot ifindex macNorm
        let (runtimeDeleted, runtime) := st.runtime.removeDevice ifindex mac
        let (recentTrafficDeleted, history) := st.history.removeDevice ifindex macNorm
        let (histogramDeleted, histogram) := removeHistogramDevice st.histogram ifindex macNorm
        let st : ServiceState := { st with snapshot, runtime, history, histogram }
        match deleteDeviceTraffic st.files.disk iface macNorm with
        | (.error error, disk) =>
          (.error s!"delete device traffic failed: {error}",
            { st with files := { st.files with disk } })
        | (.ok diskTrafficDeleted, disk) =>
          -- `persist_device_deletion_state` saves the registry alone
          (.ok {
            deviceStateDeleted := snapshotDeleted || runtimeDeleted
            trafficDataDeleted := recentTrafficDeleted || histogramDeleted || diskTrafficDeleted },
          { st with
            files := { st.files with
              disk
              devices := some (saveMonitorRuntime o topology runtime) } })

/-! ### Steps -/

inductive Op where
  | tick (tick : Tick)
  | cleanup (o : IterOrder) (nowMs : UInt64)
  | hostname (o : IterOrder) (iface mac hostname : String) (nowMs : UInt64)
  | delete (o : IterOrder) (iface mac : String)

def step (opts : Options) (topology : TopologySnapshot) (st : ServiceState) : Op → ServiceState
  | .tick tick => collectorTick opts topology st tick
  | .cleanup o nowMs => cleanupStep opts o topology nowMs st
  | .hostname o iface mac hostname nowMs =>
    (setDeviceHostname o topology st iface mac hostname nowMs).2
  | .delete o iface mac => (deleteDevice o topology st iface mac).2

/-! ### What a step of the cleanup task does -/

/-- **A step of the cleanup task** removes the selected devices from the runtime when that is due, or deletes
a ring file; whatever it removes, it changes neither the snapshot nor the other files. -/
theorem cleanupStep_cases (opts : Options) (o : IterOrder) (topology : TopologySnapshot) (nowMs : UInt64)
    (st : ServiceState) : ∃ runtime history histogram disk cleanup,
      cleanupStep opts o topology nowMs st = { st with
        files := { st.files with disk }
        runtime
        history
        histogram
        cleanup } ∧
      (runtime = st.runtime ∨ ∃ c, st.cleanup = some c ∧ c.phase = .runtime ∧
        runtime = removeDevices c.staleDevices st.runtime) ∧
      (disk = st.files.disk ∨ ∃ name mac, disk = (deleteDeviceTraffic st.files.disk name mac).2) := by
  unfold cleanupStep
  cases st.cleanup with
  | none =>
    dsimp only
    unfold selectStale
    dsimp only
    split_ifs <;> exact ⟨_, _, _, _, _, rfl, Or.inl rfl, Or.inl rfl⟩
  | some c =>
    dsimp only
    unfold continueCleanup
    cases hphase : c.phase with
    | names => exact ⟨_, _, _, _, _, rfl, Or.inl rfl, Or.inl rfl⟩
    | runtime => exact ⟨_, _, _, _, _, rfl, Or.inr ⟨c, rfl, hphase, rfl⟩, Or.inl rfl⟩
    | history => exact ⟨_, _, _, _, _, rfl, Or.inl rfl, Or.inl rfl⟩
    | histogram => exact ⟨_, _, _, _, _, rfl, Or.inl rfl, Or.inl rfl⟩
    | files rest =>
      rcases rest with _ | ⟨⟨key, _ | name⟩, rest⟩
      · exact ⟨_, _, _, _, _, rfl, Or.inl rfl, Or.inl rfl⟩
      · exact ⟨_, _, _, _, _, rfl, Or.inl rfl, Or.inl rfl⟩
      · exact ⟨_, _, _, _, _, rfl, Or.inl rfl, Or.inr ⟨name, macToString key.2, rfl⟩⟩

/-! ### What an API call does -/

/-- The request is about this device. -/
def Requests (o : IterOrder) (topology : TopologySnapshot) (iface mac : String) (key : DeviceKey) :
    Prop :=
  topology.ifindexByName o (trim iface) = some key.1 ∧ macFromStr (trim mac) = .ok key.2

section
variable (o : IterOrder) (topology : TopologySnapshot) (st : ServiceState) (iface mac : String)

/-- A new host name: the request is refused, or the device is unknown, or the registry has the name and is
saved. -/
theorem setDeviceHostname_cases (hostname : String) (nowMs : UInt64) :
    (setDeviceHostname o topology st iface mac hostname nowMs).2 = st ∨
    ∃ key, Requests o topology iface mac key ∧
      let renamed := renameInSnapshot st.snapshot key.1 (macToString key.2) (trim hostname)
      let runtime := updateHostname st.runtime key (trim hostname) renamed.1 nowMs
      (setDeviceHostname o topology st iface mac hostname nowMs).2 = { st with snapshot := renamed.2 } ∨
      (setDeviceHostname o topology st iface mac hostname nowMs).2 = { st with
        snapshot := renamed.2
        runtime
        files := { st.files with devices := some (saveMonitorRuntime o topology runtime) } } := by
  unfold setDeviceHostname
  dsimp only
  split_ifs
  · exact Or.inl rfl
  · exact Or.inl rfl
  · exact Or.inl rfl
  · split
    · exact Or.inl rfl
    · next ifindex hifindex =>
      split
      · exact Or.inl rfl
      · next mac' hmac =>
        refine Or.inr ⟨(ifindex, mac'), ⟨hifindex, hmac⟩, ?_⟩
        split_ifs
        · exact Or.inl rfl
        · exact Or.inr rfl

/-- The state after the deletion of a device. -/
def deleted (key : DeviceKey) : ServiceState :=
  let runtime := (st.runtime.removeDevice key.1 key.2).2
  { st with
    snapshot := (removeSnapshotDevice st.snapshot key.1 (macToString key.2)).2
    runtime
    history := (st.history.removeDevice key.1 (macToString key.2)).2
    histogram := (removeHistogramDevice st.histogram key.1 (macToString key.2)).2
    files := { st.files with
      disk := (deleteDeviceTraffic st.files.disk (trim iface) (macToString key.2)).2
      devices := some (saveMonitorRuntime o topology runtime) } }

/-- **A deletion of a device on an interface of the topology returns ok.** -/
theorem deleteDevice_of_requests {key : DeviceKey} (h : Requests o topology iface mac key) :
    ∃ result, deleteDevice o topology st iface mac = (.ok result, deleted o topology st iface key) := by
  obtain ⟨hifindex, hmac⟩ := h
  have hne : trim iface ≠ "" := by
    intro hblank
    rw [hblank] at hifindex
    cases hifindex
  obtain ⟨removed, hremoved⟩ : ∃ removed,
      deleteDeviceTraffic st.files.disk (trim iface) (macToString key.2) =
        (.ok removed, (deleteDeviceTraffic st.files.disk (trim iface) (macToString key.2)).2) := by
    unfold deleteDeviceTraffic
    rw [normalizeMacHex_macToString]
    dsimp only
    split_ifs <;> exact ⟨_, rfl⟩
  unfold deleteDevice
  dsimp only
  rw [if_neg hne, hmac]
  dsimp only
  rw [hifindex]
  dsimp only
  rw [hremoved]
  exact ⟨_, rfl⟩

/-- A deletion is refused, and nothing changes, or it returns ok. -/
theorem deleteDevice_cases :
    (∃ message, deleteDevice o topology st iface mac = (.error message, st)) ∨
    ∃ key result, Requests o topology iface mac key ∧
      deleteDevice o topology st iface mac = (.ok result, deleted o topology st iface key) := by
  cases hmac : macFromStr (trim mac) with
  | error _ =>
    unfold deleteDevice
    dsimp only
    rw [hmac]
    split_ifs <;> exact Or.inl ⟨_, rfl⟩
  | ok mac' =>
    cases hifindex : topology.ifindexByName o (trim iface) with
    | none =>
      unfold deleteDevice
      dsimp only
      rw [hmac, hifindex]
      split_ifs <;> exact Or.inl ⟨_, rfl⟩
    | some ifindex =>
      have hkey : Requests o topology iface mac (ifindex, mac') := ⟨hifindex, hmac⟩
      obtain ⟨result, heq⟩ := deleteDevice_of_requests o topology st iface mac hkey
      exact Or.inr ⟨(ifindex, mac'), result, hkey, heq⟩

end

end BandixPlus.Service.State
