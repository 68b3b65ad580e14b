import BandixPlus.Persistence.RingDirs
import BandixPlus.Service.Naming
import BandixPlus.Service.Regions

/-! # The data directory of a run

With a fixed topology every file that the service writes can be loaded again, under the names of its
interfaces.

* `ServiceOk`, `SystemOk`: what holds of the files, of the registry and of the rows, those that a turn or a
  request carries from one region to the next included.
* `serviceOk_runService`, `systemOk_step`: a start and every region keep it.
* `runService_eq_some`: what a start recovers, file by file. -/

namespace BandixPlus.Service.Recovery

open BandixPlus.Common BandixPlus.Lib.LastWins BandixPlus.Lib.LocalTime BandixPlus.Lib.Maps
open BandixPlus.Monitor.Counters BandixPlus.Monitor.Snapshot BandixPlus.Monitor.Windows
open BandixPlus.Monitor.Histogram BandixPlus.Monitor.Topology
open BandixPlus.Monitor.Runtime BandixPlus.Monitor.Interfaces BandixPlus.Monitor.Collect
open BandixPlus.Monitor.RuntimeState BandixPlus.Monitor.Totals BandixPlus.Net.Text
open BandixPlus.Persistence.Paths BandixPlus.Persistence.Manager
open BandixPlus.Persistence.History hiding Op step
open BandixPlus.Persistence.CurrentHour BandixPlus.Persistence.RingDirs
open BandixPlus.Service.Naming BandixPlus.Service.Regions
open BandixPlus.Service.State hiding Op step
open BandixPlus.Monitor.Session (PersistedKnownDevice MonitorRuntimeState importStep
  importRuntimeState startRuntime updateHostname keyed_importRuntimeState)

variable {topology : TopologySnapshot}

/-! ### The invariant -/

/-- **The files are those of the service**: rings of the topology, and saved devices under the names of
its interfaces. -/
structure FilesOk (hnames : NamesOk topology) (p : PersistenceManager) (files : Files) : Prop where
  disk : DiskOk hnames p files.disk
  devices : ∀ data, files.devices = some data → ∀ item ∈ data.state.knownDevices,
    ∃ i, NamedIface topology i item.logicalIface

/-- **The invariant of the service.** -/
structure ServiceOk (hnames : NamesOk topology) (opts : Options) (st : ServiceState) : Prop where
  files : FilesOk hnames opts.persistence st.files
  registry : RegistryOk topology st.runtime.deviceRegistry
  rows : ∀ item ∈ st.snapshot.devices, RowOk topology (.device item)

variable {hnames : NamesOk topology} {opts : Options}

/-! ### Saved devices -/

/-- What is saved of a registry is under the names of the interfaces. -/
theorem mem_saveMonitorRuntime {o : IterOrder} {rt : MonitorRuntime}
    (h : RegistryOk topology rt.deviceRegistry) {item : PersistedKnownDevice}
    (hitem : item ∈ (saveMonitorRuntime o topology rt).state.knownDevices) :
    ∃ key known info, rt.deviceRegistry.lookup key = some known ∧
      topology.byIfindex key.1 = some info ∧ item = exportDevice topology key known ∧
      item.logicalIface = info.name := by
  have hitem := List.mem_mergeSort.mp hitem
  obtain ⟨e, he, rfl⟩ := List.mem_map.mp hitem
  have hlookup := mem_order_iff.mp he
  obtain ⟨info, hinfo, -⟩ := h.named e.1 e.2 hlookup
  refine ⟨e.1, e.2, info, hlookup, hinfo, rfl, ?_⟩
  show exportName topology e.1 e.2 = info.name
  unfold exportName
  rw [hinfo]
  rfl

theorem filesOk_saveDevices {files : Files} (h : FilesOk hnames opts.persistence files) {o : IterOrder}
    {rt : MonitorRuntime} (hrt : RegistryOk topology rt.deviceRegistry) :
    FilesOk hnames opts.persistence { files with devices := some (saveMonitorRuntime o topology rt) } := by
  refine ⟨h.disk, fun data hdata item hitem => ?_⟩
  obtain rfl := Option.some.inj hdata
  obtain ⟨key, known, info, -, hinfo, -, hname⟩ := mem_saveMonitorRuntime hrt hitem
  exact ⟨key.1, info, hinfo, hname⟩

/-- The devices that are imported are on the interfaces whose names they have. -/
theorem registryOk_import (hnames : NamesOk topology) {o : IterOrder} {items : List PersistedKnownDevice}
    (h : ∀ item ∈ items, ∃ i, NamedIface topology i item.logicalIface) :
    RegistryOk topology (items.foldl (importStep o topology) ∅) := by
  refine List.foldlRecOn (motive := RegistryOk topology) _ _ registryOk_empty fun m hm item hitem => ?_
  obtain ⟨i, info, hinfo, hname⟩ := h item hitem
  have hfound : topology.ifindexByName o item.logicalIface = some i := by
    rw [hname]
    exact ifindexByName_name hnames o hinfo
  unfold importStep
  rw [hfound]
  cases macFromStr item.mac with
  | error _ => exact hm
  | ok mac => exact registryOk_insert hm ⟨rfl, rfl⟩ ⟨info, hinfo, hname⟩

/-- The devices that `load_monitor_runtime` imports. -/
def importedDevices (file : Option PersistedDevicesFile) : List PersistedKnownDevice :=
  ((loadMonitorRuntime file).map MonitorRuntimeState.knownDevices).getD []

theorem mem_importedDevices {file : Option PersistedDevicesFile} {item : PersistedKnownDevice}
    (h : item ∈ importedDevices file) : ∃ data, file = some data ∧ item ∈ data.state.knownDevices := by
  unfold importedDevices loadMonitorRuntime at h
  cases file with
  | none => simp at h
  | some data =>
    refine ⟨data, rfl, ?_⟩
    by_cases hversion : data.schemaVersion = devicesSchemaVersion
    · simpa [Option.filter, hversion] using h
    · simp [Option.filter, hversion] at h

theorem deviceRegistry_startRuntime (o : IterOrder) (topology : TopologySnapshot)
    (file : Option PersistedDevicesFile) (ci : HashMap UInt32 CounterQuad)
    (cd : HashMap DeviceKey CounterQuad) :
    (startRuntime o topology (loadMonitorRuntime file) ci cd).deviceRegistry =
      (importedDevices file).foldl (importStep o topology) ∅ := by
  unfold startRuntime importedDevices
  cases loadMonitorRuntime file <;> rfl

/-! ### The start -/

theorem rowOk_recoveredSnapshot (o : IterOrder) {rt : MonitorRuntime}
    (h : RegistryOk topology rt.deviceRegistry) (nowMs : UInt64) :
    ∀ item ∈ (buildRecoveredSnapshot o topology rt nowMs).devices, RowOk topology (.device item) := by
  intro item hitem
  have hitem := List.mem_mergeSort.mp hitem
  obtain ⟨e, he, rfl⟩ := List.mem_map.mp hitem
  exact ⟨h.named e.1 e.2 (mem_order_iff.mp he), e.1.2, rfl⟩

/-- **A bucket that comes back**: the file of the current hour has it, and it is of the hour of the
start. -/
def SavedNow (z : Zone) (o : IterOrder) (topology : TopologySnapshot)
    (file : Option PersistedCurrentHourFile) (nowMs : UInt64) (k : DeviceSeriesKey) : Prop :=
  ∃ data startTs endTs item, file = some data ∧ data.schemaVersion = currentHourSchemaVersion ∧
    hourlyBucketLocal z nowMs = some (startTs, endTs) ∧ item ∈ data.state.device ∧
    deviceKey o topology startTs item = some k

theorem loadCurrentHour_eq_some {o : IterOrder} {z : Zone} {nowMs : UInt64}
    {file : Option PersistedCurrentHourFile} {h h' : HistogramHistory} (hempty : h.device.current = ∅)
    (hload : loadCurrentHourHistogram o z topology nowMs file h = some h') :
    h'.device.completed = h.device.completed ∧
      ∀ k, k ∈ h'.device.current ↔ SavedNow z o topology file nowMs k := by
  have hnone : ∀ k, k ∉ h.device.current := fun k hk => AList.notMem_empty k (hempty ▸ hk)
  unfold loadCurrentHourHistogram at hload
  cases file with
  | none =>
    obtain rfl := Option.some.inj hload
    refine ⟨rfl, fun k => iff_of_false (hnone k) ?_⟩
    rintro ⟨data, -, -, -, hfile, -⟩
    cases hfile
  | some data =>
    dsimp only at hload
    split_ifs at hload with hversion
    · obtain rfl := Option.some.inj hload
      refine ⟨rfl, fun k => iff_of_false (hnone k) ?_⟩
      rintro ⟨data', -, -, -, hfile, hversion', -⟩
      obtain rfl := Option.some.inj hfile
      exact hversion hversion'
    · obtain ⟨⟨startTs, endTs⟩, hhour, rfl⟩ := Option.map_eq_some_iff.mp hload
      refine ⟨rfl, fun k => ?_⟩
      have hloaded : (loadState o topology startTs data.state h).device.current =
          insertKeyed (deviceKey o topology startTs) (fun _ => PersistedCurrentHourDevice.bucket)
            data.state.device := by
        rw [← foldl_loadDevice, ← hempty]
        rfl
      rw [hloaded, mem_insertKeyed]
      constructor
      · rintro ⟨item, hitem, hkey⟩
        exact ⟨data, startTs, endTs, item, rfl, not_not.mp hversion, hhour, hitem, hkey⟩
      · rintro ⟨data', startTs', endTs', item, hfile, -, hhour', hitem, hkey⟩
        obtain rfl := Option.some.inj hfile
        obtain ⟨rfl, -⟩ := Prod.mk.inj (Option.some.inj (hhour.symm.trans hhour'))
        exact ⟨item, hitem, hkey⟩

/-- The histogram of a start with storage: completed buckets from the rings, current ones from their
file. -/
theorem recoverHistogram_eq_some {files : Files} (h : FilesOk hnames opts.persistence files)
    (hstorage : opts.trafficEnableStorage = true) {o : IterOrder} {nowMs : UInt64} {disk : Disk}
    {hist : HistogramHistory} (hrecover : recoverHistogram opts o topology files nowMs = some (disk, hist)) :
    DiskOk hnames opts.persistence disk ∧
      (∀ k ∈ hist.device.completed,
        DeviceKnown topology k ∧ deviceFile topology k ∈ files.disk.device.files) ∧
      ∀ k, k ∈ hist.device.current ↔ SavedNow opts.zone o topology files.currentHour nowMs k := by
  obtain ⟨disk', loaded, hreload, hdisk, ⟨-, hempty⟩, hcompleted⟩ := diskOk_reload h.disk o
  unfold recoverHistogram at hrecover
  rw [if_pos hstorage, hreload] at hrecover
  obtain ⟨hist', hload, heq⟩ := Option.map_eq_some_iff.mp hrecover
  obtain ⟨rfl, rfl⟩ := Prod.mk.inj heq
  obtain ⟨hsame, hcurrent⟩ := loadCurrentHour_eq_some hempty hload
  refine ⟨hdisk, fun k hk => ?_, hcurrent⟩
  rw [hsame] at hk
  exact hcompleted k hk

theorem diskOk_recoverHistogram {files : Files} (h : FilesOk hnames opts.persistence files)
    {o : IterOrder} {nowMs : UInt64} {disk : Disk} {hist : HistogramHistory}
    (hrecover : recoverHistogram opts o topology files nowMs = some (disk, hist)) :
    DiskOk hnames opts.persistence disk := by
  cases hstorage : opts.trafficEnableStorage with
  | true => exact (recoverHistogram_eq_some h hstorage hrecover).1
  | false =>
    unfold recoverHistogram at hrecover
    rw [hstorage] at hrecover
    obtain ⟨rfl, -⟩ := Prod.mk.inj (Option.some.inj hrecover)
    exact h.disk

/-- **What a start recovers.** -/
theorem runService_eq_some {files : Files} {o : IterOrder} {nowMs : UInt64} {st : ServiceState}
    (hrun : runService opts o topology files nowMs = some st) :
    ∃ disk, recoverHistogram opts o topology files nowMs = some (disk, st.histogram) ∧
      st.files = { files with disk } ∧
      st.runtime.deviceRegistry = (importedDevices files.devices).foldl (importStep o topology) ∅ ∧
      st.runtime.cumulativeDevice = fromAll o deviceTotalKey st.histogram.device ∧
      st.snapshot = buildRecoveredSnapshot o topology st.runtime nowMs := by
  obtain ⟨⟨disk, hist⟩, hrecover, rfl⟩ := Option.map_eq_some_iff.mp hrun
  exact ⟨disk, hrecover, rfl, deviceRegistry_startRuntime o topology files.devices _ _, rfl, rfl⟩

/-- **A start keeps the invariant.** -/
theorem serviceOk_runService {files : Files} (h : FilesOk hnames opts.persistence files) {o : IterOrder}
    {nowMs : UInt64} {st : ServiceState} (hrun : runService opts o topology files nowMs = some st) :
    ServiceOk hnames opts st := by
  obtain ⟨disk, hrecover, hfiles, hregistry, -, hsnapshot⟩ := runService_eq_some hrun
  have hok : RegistryOk topology st.runtime.deviceRegistry := by
    rw [hregistry]
    refine registryOk_import hnames fun item hitem => ?_
    obtain ⟨data, hdata, hmem⟩ := mem_importedDevices hitem
    exact h.devices data hdata item hmem
  refine ⟨?_, hok, ?_⟩
  · rw [hfiles]
    exact ⟨diskOk_recoverHistogram h hrecover, h.devices⟩
  · rw [hsnapshot]
    exact rowOk_recoveredSnapshot o hok nowMs

/-- **A start succeeds** at any time that has an hour. -/
theorem runService_isSome {files : Files} (h : FilesOk hnames opts.persistence files) (o : IterOrder)
    {nowMs : UInt64} (hhour : (hourlyBucketLocal opts.zone nowMs).isSome) :
    (runService opts o topology files nowMs).isSome := by
  have hload : ∀ hist,
      (loadCurrentHourHistogram o opts.zone topology nowMs files.currentHour hist).isSome := by
    intro hist
    unfold loadCurrentHourHistogram
    cases files.currentHour with
    | none => rfl
    | some data =>
      dsimp only
      split_ifs
      · rfl
      · rw [Option.isSome_map]
        exact hhour
  obtain ⟨disk, hist, hreload, -⟩ := diskOk_reload h.disk o
  unfold runService recoverHistogram
  rw [Option.isSome_map, hreload]
  split_ifs
  · rw [Option.isSome_map]
    exact hload hist
  · rfl

/-! ### The collector loop -/

variable {st : ServiceState}

/-- The rows and the buckets that a turn carries to its next region. -/
def CarriedOk (topology : TopologySnapshot) : CollectorPhase → Prop
  | .history data | .histogram data => ∀ row ∈ rows data, RowOk topology row
  | .rings data completed =>
    (∀ row ∈ rows data, RowOk topology row) ∧ ∀ a ∈ completed, AggregateOk topology a
  | .collect | .saveRuntime _ | .saveHistogram _ => True

theorem serviceOk_collectorRegion (h : ServiceOk hnames opts st) {phase : CollectorPhase}
    (hphase : CarriedOk topology phase) (tick : Tick) :
    CarriedOk topology (collectorRegion opts topology tick st phase).1 ∧
      ServiceOk hnames opts (collectorRegion opts topology tick st phase).2 := by
  cases phase with
  | collect =>
    have hregistry := registryOk_collectSnapshot h.registry opts.config tick
    unfold collectorRegion
    dsimp only
    cases hcollect : collectSnapshot opts.config topology tick st.runtime with
    | mk snapshot rt =>
      rw [hcollect] at hregistry
      cases snapshot with
      | none => exact ⟨trivial, h.files, hregistry, h.rows⟩
      | some data =>
        have hrows := rowOk_collectSnapshot h.registry opts.config tick (congrArg Prod.fst hcollect)
        exact ⟨hrows, h.files, hregistry, h.rows⟩
  | history data => exact ⟨hphase, h.files, h.registry, h.rows⟩
  | histogram data =>
    refine ⟨⟨hphase, fun a ha => ?_⟩, h.files, h.registry, h.rows⟩
    split_ifs at ha with hstorage
    · obtain ⟨e, he, rfl⟩ := List.mem_map.mp ha
      exact aggregateOk_ingestRows hphase st.histogram e he
    · exact absurd ha List.not_mem_nil
  | rings data completed =>
    cases completed with
    | nil =>
      refine ⟨?_, h.files, h.registry, fun item hitem => hphase.1 _ ?_⟩
      · unfold collectorRegion
        dsimp only
        split_ifs <;> trivial
      · exact List.mem_append_right _ (List.mem_map_of_mem hitem)
    | cons item rest =>
      obtain ⟨hrows, hcompleted⟩ := hphase
      obtain ⟨hitem, hrest⟩ := List.forall_mem_cons.mp hcompleted
      exact ⟨⟨hrows, hrest⟩, ⟨diskOk_persist h.files.disk hitem, h.files.devices⟩, h.registry, h.rows⟩
  | saveRuntime snapshotTs => exact ⟨trivial, filesOk_saveDevices h.files h.registry, h.registry, h.rows⟩
  | saveHistogram snapshotTs => exact ⟨trivial, ⟨h.files.disk, h.files.devices⟩, h.registry, h.rows⟩

/-! ### The cleanup task -/

theorem registryOk_removeDevices {rt : MonitorRuntime} (h : RegistryOk topology rt.deviceRegistry)
    (keys : List DeviceKey) : RegistryOk topology (removeDevices keys rt).deviceRegistry :=
  List.foldlRecOn (motive := fun rt : MonitorRuntime => RegistryOk topology rt.deviceRegistry) _ _ h
    fun _ hrt key _ => registryOk_erase hrt key

/-- The deletion of a ring file, or of none. -/
theorem deleteDeviceTraffic_cases (disk : Disk) (name mac : String) :
    (deleteDeviceTraffic disk name mac).2 = disk ∨ ∃ fileName,
      (deleteDeviceTraffic disk name mac).2 =
        { disk with device := { disk.device with files := disk.device.files.erase fileName } } := by
  unfold deleteDeviceTraffic
  split
  · exact Or.inl rfl
  · dsimp only
    split_ifs
    · exact Or.inr ⟨_, rfl⟩
    · exact Or.inl rfl

theorem diskOk_deleteDeviceTraffic {p : PersistenceManager} {disk : Disk} (h : DiskOk hnames p disk)
    (name mac : String) : DiskOk hnames p (deleteDeviceTraffic disk name mac).2 := by
  rcases deleteDeviceTraffic_cases disk name mac with heq | ⟨fileName, heq⟩
  · rw [heq]
    exact h
  · rw [heq]
    exact diskOk_eraseDevice h fileName

theorem serviceOk_cleanupStep (h : ServiceOk hnames opts st) (o : IterOrder) (nowMs : UInt64) :
    ServiceOk hnames opts (cleanupStep opts o topology nowMs st) := by
  obtain ⟨runtime, history, histogram, disk, cleanup, heq, hruntime, hdisk⟩ :=
    cleanupStep_cases opts o topology nowMs st
  have hregistry : RegistryOk topology runtime.deviceRegistry := by
    rcases hruntime with rfl | ⟨c, -, -, rfl⟩
    · exact h.registry
    · exact registryOk_removeDevices h.registry _
  have hfiles : DiskOk hnames opts.persistence disk := by
    rcases hdisk with hsame | ⟨name, mac, hdeleted⟩
    · rw [hsame]
      exact h.files.disk
    · rw [hdeleted]
      exact diskOk_deleteDeviceTraffic h.files.disk name mac
  rw [heq]
  exact ⟨⟨hfiles, h.files.devices⟩, hregistry, h.rows⟩

/-! ### The requests -/

/-- The names of a runtime are kept by a new host name. -/
theorem registryOk_updateHostname {rt : MonitorRuntime} (h : RegistryOk topology rt.deviceRegistry)
    (key : DeviceKey) (name : String) {snapshotDevice : Option DeviceListItem}
    (hdev : ∀ dev ∈ snapshotDevice, NamedIface topology key.1 dev.logicalIface) (nowMs : UInt64) :
    RegistryOk topology (updateHostname rt key name snapshotDevice nowMs).deviceRegistry := by
  unfold updateHostname
  split
  · next known hlookup =>
    exact registryOk_insert h (h.keyed key known hlookup) (h.named key known hlookup)
  · next dev _ => exact registryOk_insert h ⟨rfl, rfl⟩ (hdev dev rfl)
  · exact h

/-- The row that is renamed is one of the snapshot, and the rows stay of the same devices. -/
theorem mem_renameInSnapshot {snapshot : SnapshotData} {i : UInt32} {mac name : String}
    {item' : DeviceListItem} (h : item' ∈ (renameInSnapshot snapshot i mac name).2.devices) :
    ∃ item ∈ snapshot.devices, item'.ifindex = item.ifindex ∧ item'.mac = item.mac ∧
      item'.logicalIface = item.logicalIface := by
  obtain ⟨item, hitem, rfl⟩ := List.mem_map.mp h
  refine ⟨item, hitem, ?_⟩
  split_ifs <;> exact ⟨rfl, rfl, rfl⟩

theorem renamedRow {snapshot : SnapshotData} {i : UInt32} {mac name : String} {dev : DeviceListItem}
    (h : dev ∈ (renameInSnapshot snapshot i mac name).1) :
    dev ∈ (renameInSnapshot snapshot i mac name).2.devices ∧
      ofDevice i mac dev.ifindex dev.mac = true :=
  List.mem_filter.mp (List.mem_of_getLast? h)

theorem rowOk_renameInSnapshot {snapshot : SnapshotData}
    (h : ∀ item ∈ snapshot.devices, RowOk topology (.device item)) (i : UInt32) (mac name : String) :
    ∀ item ∈ (renameInSnapshot snapshot i mac name).2.devices, RowOk topology (.device item) := by
  intro item' hitem'
  obtain ⟨item, hitem, hifindex, hmac, hname⟩ := mem_renameInSnapshot hitem'
  have hrow := h item hitem
  unfold RowOk at hrow ⊢
  dsimp only at hrow ⊢
  rw [hifindex, hmac, hname]
  exact hrow

theorem namedIface_renamedRow (hrows : ∀ item ∈ st.snapshot.devices, RowOk topology (.device item))
    {key : DeviceKey} (name : String) : ∀ dev ∈ (renameInSnapshot st.snapshot key.1
      (macToString key.2) name).1, NamedIface topology key.1 dev.logicalIface := by
  intro dev hdev
  obtain ⟨hmem, hof⟩ := renamedRow hdev
  obtain ⟨⟨info, hinfo, hname⟩, -⟩ := rowOk_renameInSnapshot hrows key.1 _ name dev hmem
  unfold ofDevice at hof
  have hifindex : dev.ifindex = key.1 := of_decide_eq_true (Bool.and_eq_true_iff.mp hof).1
  exact ⟨info, hifindex ▸ hinfo, hname⟩

/-- A request for a host name has the name of the row's interface; a deletion that of its own. -/
def RequestOk (topology : TopologySnapshot) : Request → Prop
  | .hostname req =>
    ∀ dev, req.phase = .runtime (some dev) → NamedIface topology req.key.1 dev.logicalIface
  | .delete req => NamedIface topology req.key.1 req.iface

theorem serviceOk_hostnameRegion (h : ServiceOk hnames opts st) {req : HostnameRequest}
    (hreq : RequestOk topology (.hostname req)) (o : IterOrder) (nowMs : UInt64) :
    RequestOk topology (.hostname (hostnameRegion o topology nowMs st req).1) ∧
      ServiceOk hnames opts (hostnameRegion o topology nowMs st req).2 := by
  obtain ⟨key, name, phase⟩ := req
  cases phase with
  | snapshot =>
    refine ⟨fun dev hdev => ?_, h.files, h.registry, rowOk_renameInSnapshot h.rows _ _ _⟩
    exact namedIface_renamedRow h.rows name dev (HostnamePhase.runtime.inj hdev)
  | runtime snapshotDevice =>
    have hregistry := registryOk_updateHostname h.registry key name
      (fun dev hdev => hreq dev (congrArg HostnamePhase.runtime hdev)) nowMs
    unfold hostnameRegion
    dsimp only
    split_ifs
    · exact ⟨fun dev hdev => (by cases hdev), h⟩
    · exact ⟨fun dev hdev => (by cases hdev), h.files, hregistry, h.rows⟩
  | save =>
    exact ⟨fun dev hdev => (by cases hdev), filesOk_saveDevices h.files h.registry, h.registry, h.rows⟩
  | returned result => exact ⟨hreq, h⟩

/-- A deletion stays about its device, and on its interface. -/
theorem deleteRegion_eq (o : IterOrder) (req : DeleteRequest) :
    (deleteRegion o topology st req).1.key = req.key ∧
      (deleteRegion o topology st req).1.iface = req.iface := by
  obtain ⟨iface, key, _, _, phase⟩ := req
  cases phase with
  | traffic =>
    unfold deleteRegion
    dsimp only
    split <;> exact ⟨rfl, rfl⟩
  | _ => exact ⟨rfl, rfl⟩

theorem serviceOk_deleteRegion (h : ServiceOk hnames opts st) {req : DeleteRequest}
    (hreq : RequestOk topology (.delete req)) (o : IterOrder) :
    RequestOk topology (.delete (deleteRegion o topology st req).1) ∧
      ServiceOk hnames opts (deleteRegion o topology st req).2 := by
  obtain ⟨hkey, hiface⟩ := @deleteRegion_eq topology st o req
  refine ⟨?_, ?_⟩
  · unfold RequestOk at hreq ⊢
    dsimp only at hreq ⊢
    rw [hkey, hiface]
    exact hreq
  · have hdisk := diskOk_deleteDeviceTraffic h.files.disk req.iface (macToString req.key.2)
    unfold deleteRegion
    dsimp only
    split
    · exact ⟨h.files, h.registry, fun item hitem => h.rows item (List.mem_of_mem_filter hitem)⟩
    · exact ⟨h.files, registryOk_erase h.registry req.key, h.rows⟩
    · exact ⟨h.files, h.registry, h.rows⟩
    · exact ⟨h.files, h.registry, h.rows⟩
    · split
      · next heq =>
        rw [heq] at hdisk
        exact ⟨⟨hdisk, h.files.devices⟩, h.registry, h.rows⟩
      · next heq =>
        rw [heq] at hdisk
        exact ⟨⟨hdisk, h.files.devices⟩, h.registry, h.rows⟩
    · exact ⟨filesOk_saveDevices h.files h.registry, h.registry, h.rows⟩
    · exact h

/-! ### The system -/

/-- **The invariant of the system.** -/
structure SystemOk (hnames : NamesOk topology) (opts : Options) (sys : System) : Prop where
  service : ServiceOk hnames opts sys.service
  collector : CarriedOk topology sys.collector
  requests : ∀ req ∈ sys.requests, RequestOk topology req

variable {sys : System}

theorem namedIface_of_requests {o : IterOrder} {iface mac : String} {key : DeviceKey}
    (h : Requests o topology iface mac key) : NamedIface topology key.1 (trim iface) := by
  obtain ⟨info, hinfo, hname⟩ := byIfindex_of_ifindexByName h.1
  rw [trim_trim] at hname
  exact ⟨info, hinfo, hname⟩

theorem requestOk_append (h : ∀ req ∈ sys.requests, RequestOk topology req) {req : Request}
    (hreq : RequestOk topology req) : ∀ r ∈ sys.requests ++ [req], RequestOk topology r := by
  intro r hr
  rcases List.mem_append.mp hr with hr | hr
  · exact h r hr
  · rw [List.mem_singleton.mp hr]
    exact hreq

/-- **Every region keeps the invariant.** -/
theorem systemOk_step (h : SystemOk hnames opts sys) (op : Op) :
    SystemOk hnames opts (step opts topology sys op) := by
  unfold step
  cases op with
  | collector tick =>
    obtain ⟨hcarried, hservice⟩ := serviceOk_collectorRegion h.service h.collector tick
    exact ⟨hservice, hcarried, h.requests⟩
  | cleanup o nowMs => exact ⟨serviceOk_cleanupStep h.service o nowMs, h.collector, h.requests⟩
  | hostname o iface mac name =>
    dsimp only
    split
    · exact h
    · next req hreq =>
      refine ⟨h.service, h.collector, requestOk_append h.requests fun dev hdev => ?_⟩
      obtain ⟨-, -, -, -, heq⟩ := hostnameRequest_eq_ok topology o iface mac hreq
      rw [heq] at hdev
      cases hdev
  | delete o iface mac =>
    dsimp only
    split
    · exact h
    · next req hreq =>
      obtain ⟨hrequests, -, heq⟩ := deleteRequest_eq_ok topology o iface mac hreq
      refine ⟨h.service, h.collector, requestOk_append h.requests ?_⟩
      rw [heq]
      exact namedIface_of_requests hrequests
  | request i o nowMs =>
    dsimp only
    split
    · exact h
    · next req hreq =>
      have hok := h.requests req (List.mem_of_getElem? hreq)
      obtain ⟨hnext, hservice⟩ : RequestOk topology (requestRegion o topology nowMs sys.service req).1 ∧
          ServiceOk hnames opts (requestRegion o topology nowMs sys.service req).2 := by
        cases req with
        | hostname req => exact serviceOk_hostnameRegion h.service hok o nowMs
        | delete req => exact serviceOk_deleteRegion h.service hok o
      refine ⟨hservice, h.collector, fun r hr => ?_⟩
      rcases List.mem_or_eq_of_mem_set hr with hr | rfl
      · exact h.requests r hr
      · exact hnext

/-- **The states of the system**, from any data directory of its own. A restart is a start: what a run
leaves behind is a data directory of the service again (`Reachable.restart`). -/
inductive Reachable (hnames : NamesOk topology) (opts : Options) : System → Prop where
  | start {files : Files} (o : IterOrder) {nowMs : UInt64} {st : ServiceState}
      (hfiles : FilesOk hnames opts.persistence files)
      (hrun : runService opts o topology files nowMs = some st) : Reachable hnames opts (.start st)
  | step {sys : System} (op : Op) :
      Reachable hnames opts sys → Reachable hnames opts (step opts topology sys op)

/-- **The invariant holds in every reachable state.** -/
theorem systemOk_reachable (h : Reachable hnames opts sys) : SystemOk hnames opts sys := by
  induction h with
  | start o hfiles hrun =>
    exact ⟨serviceOk_runService hfiles hrun, trivial, fun _ hreq => absurd hreq List.not_mem_nil⟩
  | step op _ ih => exact systemOk_step ih op

/-- A restart of a run. -/
theorem Reachable.restart (h : Reachable hnames opts sys) (o : IterOrder) {nowMs : UInt64}
    {st : ServiceState} (hrun : runService opts o topology sys.service.files nowMs = some st) :
    Reachable hnames opts (.start st) := .start o (systemOk_reachable h).service.files hrun

end BandixPlus.Service.Recovery
