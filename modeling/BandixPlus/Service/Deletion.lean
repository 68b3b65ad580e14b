import BandixPlus.Lib.Run
import BandixPlus.Service.Recovery

/-! # A deleted device and the next start

`api.rs`, `delete_device_handler`: the device is removed from the stores in memory, its ring is deleted and
the registry is saved. The file of the current hour is not written again, and the collector loop goes on
between the regions of the handler.

* `deleted_device_stays_gone`: a start finds nothing of the device, if it is not seen and no bucket of it is
  appended while it is deleted, unless the file of the current hour has a bucket of it for the hour of the
  start.
* `deleted_device_returns`: a device that was saved comes back with its bucket and its total. -/

namespace BandixPlus.Service.Deletion

open BandixPlus.Common BandixPlus.Lib.LastWins BandixPlus.Lib.LocalTime BandixPlus.Lib.Maps
open BandixPlus.Lib.Run
open BandixPlus.Monitor.Counters BandixPlus.Monitor.Snapshot BandixPlus.Monitor.Windows
open BandixPlus.Monitor.Histogram BandixPlus.Monitor.Topology BandixPlus.Monitor.Runtime
open BandixPlus.Monitor.Interfaces BandixPlus.Monitor.Collect BandixPlus.Monitor.RuntimeState
open BandixPlus.Monitor.Registry BandixPlus.Monitor.Totals BandixPlus.Net.Text
open BandixPlus.Persistence.Paths BandixPlus.Persistence.Manager BandixPlus.Persistence.Agreement
open BandixPlus.Persistence.History hiding Op step
open BandixPlus.Persistence.CurrentHour BandixPlus.Persistence.RingDirs
open BandixPlus.Service.Naming BandixPlus.Service.Recovery BandixPlus.Service.Regions
open BandixPlus.Service.State hiding Op step
open BandixPlus.Monitor.Session (PersistedKnownDevice updateHostname)

/-- **Nothing is left of the device** in the state: no entry of the registry, no bucket under any spelling
of its MAC address, and no total. -/
structure Gone (st : ServiceState) (key : DeviceKey) : Prop where
  registry : key ∉ st.runtime.deviceRegistry
  completed : ∀ k ∈ st.histogram.device.completed, deviceTotalKey k ≠ some key
  current : ∀ k ∈ st.histogram.device.current, deviceTotalKey k ≠ some key
  cumulative : key ∉ st.runtime.cumulativeDevice

/-- **The file of the current hour has a bucket of the device**, of the hour of this time. -/
def SavedThisHour (z : Zone) (o : IterOrder) (topology : TopologySnapshot)
    (file : Option PersistedCurrentHourFile) (nowMs : UInt64) (key : DeviceKey) : Prop :=
  ∃ data startTs endTs item, file = some data ∧ data.schemaVersion = currentHourSchemaVersion ∧
    hourlyBucketLocal z nowMs = some (startTs, endTs) ∧ item ∈ data.state.device ∧
    item.bucket.startTsMs = startTs ∧ topology.ifindexByName o item.logicalIface = some key.1 ∧
    macFromStr item.mac = .ok key.2

/-! ### The condition -/

/-- The handler has removed the device from the runtime. -/
def OutOfRuntime : DeletePhase → Prop
  | .snapshot | .runtime => False
  | _ => True

/-- The handler has deleted the ring of the device. -/
def RingDeleted : DeletePhase → Prop
  | .save | .returned (.ok _) => True
  | _ => False

/-- **The step enters the device into the registry**: a tick finds it online, or a host name is given to a
row of it that the request found in the snapshot. -/
def Registers (opts : Options) (topology : TopologySnapshot) (sys : System) (key : DeviceKey) : Op → Prop
  | .collector tick =>
    sys.collector = .collect ∧ key ∈ onlineDevices opts.config topology tick sys.service.runtime
  | .request i _ _ => ∃ req dev, sys.requests[i]? = some (.hostname req) ∧ req.key = key ∧
      req.phase = .runtime (some dev)
  | _ => False

/-- The bucket is of the device. -/
def BucketOf (topology : TopologySnapshot) (key : DeviceKey) : CompletedAggregate → Prop
  | .iface _ _ => False
  | .device iface mac _ => NamedIface topology key.1 iface ∧ mac = macToString key.2

/-- **The step appends a completed bucket to the ring of the device.** -/
def Appends (topology : TopologySnapshot) (sys : System) (key : DeviceKey) : Op → Prop
  | .collector _ => ∃ data item rest, sys.collector = .rings data (item :: rest) ∧
      BucketOf topology key item
  | _ => False

/-- **The step leaves the deletion alone**: it does not enter the device again after the handler removed it
from the runtime, and appends no bucket of it after its ring was deleted. -/
def Spares (opts : Options) (topology : TopologySnapshot) (i : ℕ) (sys : System) (op : Op) : Prop :=
  ∀ req, sys.requests[i]? = some (.delete req) →
    (OutOfRuntime req.phase → ¬ Registers opts topology sys req.key op) ∧
      (RingDeleted req.phase → ¬ Appends topology sys req.key op)

/-- The handler has returned ok. -/
def Returned (sys : System) (i : ℕ) (result : DeleteDeviceResult) : Prop :=
  ∃ req, sys.requests[i]? = some (.delete req) ∧ req.phase = .returned (.ok result)

variable {topology : TopologySnapshot} {hnames : NamesOk topology} {opts : Options} {st : ServiceState}
  {sys : System} {key : DeviceKey}

/-! ### The registry after a region -/

theorem notMem_removeDevices {rt : MonitorRuntime} (h : key ∉ rt.deviceRegistry) (keys : List DeviceKey) :
    key ∉ (removeDevices keys rt).deviceRegistry :=
  List.foldlRecOn (motive := fun rt : MonitorRuntime => key ∉ rt.deviceRegistry) _ _ h
    fun _ hrt _ _ hmem => hrt (AList.mem_erase.mp hmem).2

/-- A new host name enters a device of the registry or of the snapshot alone. -/
theorem notMem_updateHostname {rt : MonitorRuntime} (name : String) (h : key ∉ rt.deviceRegistry)
    {key' : DeviceKey} {snapshotDevice : Option DeviceListItem}
    (hdev : key' = key → snapshotDevice = none) (nowMs : UInt64) :
    key ∉ (updateHostname rt key' name snapshotDevice nowMs).deviceRegistry := by
  unfold updateHostname
  split
  · next known hlookup =>
    intro hmem
    rcases (AList.mem_insert _).mp hmem with rfl | hmem
    · exact h (mem_iff_lookup.mpr ⟨known, hlookup⟩)
    · exact h hmem
  · next dev _ =>
    intro hmem
    rcases (AList.mem_insert _).mp hmem with rfl | hmem
    · cases hdev rfl
    · exact h hmem
  · exact h

theorem notMem_collectSnapshot {rt : MonitorRuntime} (h : key ∉ rt.deviceRegistry) {tick : Tick}
    (hoffline : key ∉ onlineDevices opts.config topology tick rt) :
    key ∉ (collectSnapshot opts.config topology tick rt).2.deviceRegistry := by
  rw [deviceRegistry_collectSnapshot, ← AList.lookup_eq_none, lookup_registerDevices,
    AList.lookup_eq_none.mpr hoffline, AList.lookup_eq_none.mpr h]
  rfl

theorem notMem_hostnameRegion (h : key ∉ st.runtime.deviceRegistry) {req : HostnameRequest}
    (hreq : ∀ dev, req.key = key → req.phase ≠ .runtime (some dev)) {o : IterOrder} {nowMs : UInt64} :
    key ∉ (hostnameRegion o topology nowMs st req).2.runtime.deviceRegistry := by
  obtain ⟨key', name, phase⟩ := req
  cases phase with
  | runtime snapshotDevice =>
    have hrow : key' = key → snapshotDevice = none := fun hkey =>
      Option.eq_none_iff_forall_ne_some.mpr fun dev hdev =>
        hreq dev hkey (congrArg HostnamePhase.runtime hdev)
    unfold hostnameRegion
    dsimp only
    split_ifs
    · exact h
    · exact notMem_updateHostname name h hrow nowMs
  | _ => exact h

theorem notMem_deleteRegion (h : key ∉ st.runtime.deviceRegistry) {req : DeleteRequest} {o : IterOrder} :
    key ∉ (deleteRegion o topology st req).2.runtime.deviceRegistry := by
  obtain ⟨iface, key', _, _, phase⟩ := req
  cases phase with
  | runtime => exact fun hmem => h (AList.mem_erase.mp hmem).2
  | traffic =>
    unfold deleteRegion
    dsimp only
    split <;> exact h
  | _ => exact h

/-- **Only a step that registers the device** brings it into the registry. -/
theorem notMem_registry_step (h : key ∉ sys.service.runtime.deviceRegistry) {op : Op}
    (hop : ¬ Registers opts topology sys key op) :
    key ∉ (step opts topology sys op).service.runtime.deviceRegistry := by
  obtain ⟨st, collector, requests⟩ := sys
  cases op with
  | collector tick =>
    cases collector with
    | collect =>
      have hoffline := notMem_collectSnapshot h fun honline => hop ⟨rfl, honline⟩
      unfold step collectorRegion
      dsimp only
      cases hcollect : collectSnapshot opts.config topology tick st.runtime with
      | mk snapshot runtime =>
        rw [hcollect] at hoffline
        cases snapshot <;> exact hoffline
    | rings data completed => cases completed <;> exact h
    | _ => exact h
  | cleanup o nowMs =>
    obtain ⟨runtime, _, _, _, _, heq, hruntime, -⟩ := cleanupStep_cases opts o topology nowMs st
    unfold step
    dsimp only
    rw [heq]
    rcases hruntime with rfl | ⟨c, -, -, rfl⟩
    · exact h
    · exact notMem_removeDevices h _
  | hostname o iface mac name =>
    unfold step
    dsimp only
    split <;> exact h
  | delete o iface mac =>
    unfold step
    dsimp only
    split <;> exact h
  | request i o nowMs =>
    unfold step
    dsimp only
    split
    · exact h
    · next req hreq =>
      cases req with
      | hostname req =>
        exact notMem_hostnameRegion h fun dev hkey hphase => hop ⟨req, dev, hreq, hkey, hphase⟩
      | delete req => exact notMem_deleteRegion h

/-! ### The ring after a region -/

/-- A bucket is appended to the ring of its own device. -/
theorem mem_persist {disk : Disk} {p : PersistenceManager} {item : CompletedAggregate}
    (hnames : NamesOk topology) (hitem : AggregateOk topology item)
    (h : deviceFile topology ⟨key.1, macToString key.2⟩ ∈ (persist p disk item).device.files)
    (hkey : DeviceKnown topology ⟨key.1, macToString key.2⟩) :
    deviceFile topology ⟨key.1, macToString key.2⟩ ∈ disk.device.files ∨ BucketOf topology key item := by
  cases item with
  | iface name b => exact Or.inl h
  | device name mac b =>
    obtain ⟨⟨i, info, hinfo, rfl⟩, mac', rfl⟩ := hitem
    have hpersist : persist p disk (.device info.name (macToString mac') b) = _ :=
      persist_device hnames p disk ⟨i, macToString mac'⟩ hinfo ⟨mac', rfl⟩ (some b)
    rw [hpersist] at h
    unfold persistSeries at h
    dsimp only at h
    rcases mem_files_on h with hfile | hfile
    · have hsame : (⟨key.1, macToString key.2⟩ : DeviceSeriesKey) = ⟨i, macToString mac'⟩ :=
        (deviceNaming hnames .listed).file_inj hkey ⟨⟨info, hinfo⟩, mac', rfl⟩ hfile
      obtain ⟨rfl, hmac⟩ := DeviceSeriesKey.mk.inj hsame
      exact Or.inr ⟨⟨info, hinfo, rfl⟩, hmac.symm⟩
    · exact Or.inl hfile

/-- No deletion brings a ring back. -/
theorem mem_of_mem_deleteDeviceTraffic {disk : Disk} {name mac fileName : String}
    (h : fileName ∈ (deleteDeviceTraffic disk name mac).2.device.files) : fileName ∈ disk.device.files := by
  rcases deleteDeviceTraffic_cases disk name mac with heq | ⟨erased, heq⟩
  · rw [heq] at h
    exact h
  · rw [heq] at h
    exact (AList.mem_erase.mp h).2

/-- **Only a step that appends a bucket of the device** brings its ring back. -/
theorem notMem_ring_step (hok : SystemOk hnames opts sys)
    (hkey : DeviceKnown topology ⟨key.1, macToString key.2⟩)
    (h : deviceFile topology ⟨key.1, macToString key.2⟩ ∉ sys.service.files.disk.device.files) {op : Op}
    (hop : ¬ Appends topology sys key op) :
    deviceFile topology ⟨key.1, macToString key.2⟩ ∉
      (step opts topology sys op).service.files.disk.device.files := by
  obtain ⟨st, collector, requests⟩ := sys
  dsimp only at h
  cases op with
  | collector tick =>
    cases collector with
    | collect =>
      unfold step collectorRegion
      dsimp only
      split <;> exact h
    | rings data completed =>
      cases completed with
      | nil => exact h
      | cons item rest =>
        obtain ⟨hitem, -⟩ := List.forall_mem_cons.mp hok.collector.2
        intro hmem
        rcases mem_persist hnames hitem hmem hkey with hfile | hbucket
        · exact h hfile
        · exact hop ⟨data, item, rest, rfl, hbucket⟩
    | _ => exact h
  | cleanup o nowMs =>
    obtain ⟨_, _, _, disk, _, heq, -, hdisk⟩ := cleanupStep_cases opts o topology nowMs st
    have hring : deviceFile topology ⟨key.1, macToString key.2⟩ ∉ disk.device.files := by
      rcases hdisk with hsame | ⟨name, mac, hdeleted⟩
      · rw [hsame]
        exact h
      · rw [hdeleted]
        exact fun hmem => h (mem_of_mem_deleteDeviceTraffic hmem)
    unfold step
    dsimp only
    rw [heq]
    exact hring
  | hostname o iface mac name =>
    unfold step
    dsimp only
    split <;> exact h
  | delete o iface mac =>
    unfold step
    dsimp only
    split <;> exact h
  | request i o nowMs =>
    unfold step
    dsimp only
    split
    · exact h
    · next req hreq =>
      cases req with
      | hostname req =>
        obtain ⟨key', name, phase⟩ := req
        cases phase with
        | runtime snapshotDevice =>
          unfold requestRegion hostnameRegion
          dsimp only
          split_ifs <;> exact h
        | _ => exact h
      | delete req =>
        obtain ⟨iface, key', _, _, phase⟩ := req
        cases phase with
        | traffic =>
          have hkept : _ ∉ (deleteDeviceTraffic st.files.disk iface (macToString key'.2)).2.device.files :=
            fun hmem => h (mem_of_mem_deleteDeviceTraffic hmem)
          unfold requestRegion deleteRegion
          dsimp only
          cases htraffic : deleteDeviceTraffic st.files.disk iface (macToString key'.2) with
          | mk result disk =>
            rw [htraffic] at hkept
            cases result <;> exact hkept
        | _ => exact h

/-! ### The saved registry after a region -/

/-- **What a step saves of the registry** is what it finds. -/
theorem devices_step (op : Op) :
    (step opts topology sys op).service.files.devices = sys.service.files.devices ∨
      ∃ o, (step opts topology sys op).service.files.devices =
        some (saveMonitorRuntime o topology sys.service.runtime) := by
  obtain ⟨st, collector, requests⟩ := sys
  cases op with
  | collector tick =>
    cases collector with
    | collect =>
      left
      unfold step collectorRegion
      dsimp only
      split <;> rfl
    | rings data completed => cases completed <;> exact Or.inl rfl
    | saveRuntime snapshotTs => exact Or.inr ⟨tick.o, rfl⟩
    | _ => exact Or.inl rfl
  | cleanup o nowMs =>
    obtain ⟨_, _, _, _, _, heq, -, -⟩ := cleanupStep_cases opts o topology nowMs st
    left
    unfold step
    dsimp only
    rw [heq]
  | hostname o iface mac name =>
    left
    unfold step
    dsimp only
    split <;> rfl
  | delete o iface mac =>
    left
    unfold step
    dsimp only
    split <;> rfl
  | request i o nowMs =>
    unfold step
    dsimp only
    split
    · exact Or.inl rfl
    · next req hreq =>
      cases req with
      | hostname req =>
        obtain ⟨key', name, phase⟩ := req
        cases phase with
        | runtime snapshotDevice =>
          left
          unfold requestRegion hostnameRegion
          dsimp only
          split_ifs <;> rfl
        | save => exact Or.inr ⟨o, rfl⟩
        | _ => exact Or.inl rfl
      | delete req =>
        obtain ⟨iface, key', _, _, phase⟩ := req
        cases phase with
        | traffic =>
          left
          unfold requestRegion deleteRegion
          dsimp only
          split <;> rfl
        | save => exact Or.inr ⟨o, rfl⟩
        | _ => exact Or.inl rfl

/-! ### The deletion -/

/-- What is saved of a registry without the device is not read back as the device. -/
theorem itemKey_saveMonitorRuntime (hnames : NamesOk topology) {rt : MonitorRuntime}
    (h : RegistryOk topology rt.deviceRegistry) (hkey : key ∉ rt.deviceRegistry) (o : IterOrder) :
    ∀ item ∈ (saveMonitorRuntime o topology rt).state.knownDevices,
      ∀ o', itemKey o' topology item ≠ some key := by
  intro item hitem o' hsame
  obtain ⟨key', known, info, hlookup, hinfo, rfl, hname⟩ := mem_saveMonitorRuntime h hitem
  have hfound : topology.ifindexByName o' (exportDevice topology key' known).logicalIface =
      some key'.1 := by
    rw [hname]
    exact ifindexByName_name hnames o' hinfo
  have hmac : macFromStr (exportDevice topology key' known).mac = .ok key'.2 :=
    macFromStr_macToString key'.2
  unfold itemKey at hsame
  rw [hfound, hmac] at hsame
  have heq : key' = key := Option.some.inj hsame
  exact hkey (mem_iff_lookup.mpr ⟨known, heq ▸ hlookup⟩)

/-- The ring that a deletion is about is deleted. -/
theorem notMem_deleteDeviceTraffic (disk : Disk) (name : String) {mac hex : String}
    (hhex : normalizeMacHex mac = some hex) :
    deviceRingFile name hex ∉ (deleteDeviceTraffic disk name mac).2.device.files := by
  unfold deleteDeviceTraffic
  rw [hhex]
  dsimp only
  split_ifs with hfile
  · exact fun hmem => (AList.mem_erase.mp hmem).1 rfl
  · exact hfile

/-! ### What a deletion has done so far -/

/-- **What the handler has done stays done**: the device is out of the registry, has no ring, and is not
among the saved devices. -/
structure Progress (topology : TopologySnapshot) (st : ServiceState) (req : DeleteRequest) : Prop where
  registry : OutOfRuntime req.phase → req.key ∉ st.runtime.deviceRegistry
  ring : RingDeleted req.phase →
    deviceFile topology ⟨req.key.1, macToString req.key.2⟩ ∉ st.files.disk.device.files
  saved : ∀ result, req.phase = .returned (.ok result) → ∀ data, st.files.devices = some data →
    ∀ item ∈ data.state.knownDevices, ∀ o, itemKey o topology item ≠ some req.key

theorem deviceKnown_of_request {req : DeleteRequest} (h : RequestOk topology (.delete req)) :
    DeviceKnown topology ⟨req.key.1, macToString req.key.2⟩ := by
  obtain ⟨info, hinfo, -⟩ := h
  exact ⟨⟨info, hinfo⟩, req.key.2, rfl⟩

/-- The ring that a deletion is about is that of the device. -/
theorem deviceFile_of_request {req : DeleteRequest} (h : RequestOk topology (.delete req)) :
    deviceFile topology ⟨req.key.1, macToString req.key.2⟩ =
      deviceRingFile req.iface (macHex req.key.2) := by
  obtain ⟨info, hinfo, hname⟩ := h
  unfold deviceFile
  dsimp only
  rw [nameOf_eq hinfo, ← hname, normalizeMacHex_macToString]
  rfl

/-- Saved devices without the device stay so, whatever a step saves. -/
theorem saved_step (hok : SystemOk hnames opts sys) (hkey : key ∉ sys.service.runtime.deviceRegistry)
    (h : ∀ data, sys.service.files.devices = some data → ∀ item ∈ data.state.knownDevices,
      ∀ o, itemKey o topology item ≠ some key) (op : Op) :
    ∀ data, (step opts topology sys op).service.files.devices = some data →
      ∀ item ∈ data.state.knownDevices, ∀ o, itemKey o topology item ≠ some key := by
  intro data hdata
  rcases @devices_step topology opts sys op with hsame | ⟨o, hsaved⟩
  · exact h data (hsame ▸ hdata)
  · obtain rfl := Option.some.inj (hsaved.symm.trans hdata)
    exact itemKey_saveMonitorRuntime hnames hok.service.registry hkey o

/-- A region of another thread of control keeps what was done. -/
theorem progress_other (hok : SystemOk hnames opts sys) {req : DeleteRequest}
    (hreq : RequestOk topology (.delete req)) (h : Progress topology sys.service req) {op : Op}
    (hregisters : OutOfRuntime req.phase → ¬ Registers opts topology sys req.key op)
    (happends : RingDeleted req.phase → ¬ Appends topology sys req.key op) :
    Progress topology (step opts topology sys op).service req := by
  refine ⟨fun hout => notMem_registry_step (h.registry hout) (hregisters hout), fun hring =>
    notMem_ring_step hok (deviceKnown_of_request hreq) (h.ring hring) (happends hring), ?_⟩
  intro result hphase
  have hout : OutOfRuntime req.phase := by
    rw [hphase]
    trivial
  exact saved_step hok (h.registry hout) (h.saved result hphase) op

/-- **The next region of the handler** does its part. -/
theorem progress_deleteRegion (hok : ServiceOk hnames opts st) {req : DeleteRequest}
    (hreq : RequestOk topology (.delete req)) (h : Progress topology st req) (o : IterOrder) :
    Progress topology (deleteRegion o topology st req).2 (deleteRegion o topology st req).1 := by
  have hfile := deviceFile_of_request hreq
  obtain ⟨iface, key, stateDeleted, dataDeleted, phase⟩ := req
  cases phase with
  | snapshot => exact ⟨False.elim, False.elim, fun result hphase => by cases hphase⟩
  | runtime =>
    exact ⟨fun _ hmem => (AList.mem_erase.mp hmem).1 rfl, False.elim, fun result hphase => by cases hphase⟩
  | history => exact ⟨h.registry, False.elim, fun result hphase => by cases hphase⟩
  | histogram => exact ⟨h.registry, False.elim, fun result hphase => by cases hphase⟩
  | traffic =>
    have hring := notMem_deleteDeviceTraffic st.files.disk iface (normalizeMacHex_macToString key.2)
    unfold deleteRegion
    dsimp only at hfile ⊢
    rw [← hfile] at hring
    cases htraffic : deleteDeviceTraffic st.files.disk iface (macToString key.2) with
    | mk result disk =>
      rw [htraffic] at hring
      cases result with
      | error error => exact ⟨h.registry, False.elim, fun result hphase => by cases hphase⟩
      | ok removed => exact ⟨h.registry, fun _ => hring, fun result hphase => by cases hphase⟩
  | save =>
    refine ⟨h.registry, h.ring, fun result _ data hdata => ?_⟩
    obtain rfl := Option.some.inj hdata
    exact itemKey_saveMonitorRuntime hnames hok.registry (h.registry trivial) o
  | returned result => exact h

/-- What a step does to a deletion: its next region, or nothing. -/
theorem request_step {i : ℕ} {req : DeleteRequest} (h : sys.requests[i]? = some (.delete req)) (op : Op) :
    (step opts topology sys op).requests[i]? = some (.delete req) ∨
      ∃ o nowMs, op = .request i o nowMs ∧
        (step opts topology sys op).requests[i]? =
          some (.delete (deleteRegion o topology sys.service req).1) ∧
        (step opts topology sys op).service = (deleteRegion o topology sys.service req).2 := by
  have hi : i < sys.requests.length := (List.getElem?_eq_some_iff.mp h).1
  cases op with
  | collector tick => exact Or.inl h
  | cleanup o nowMs => exact Or.inl h
  | hostname o iface mac name =>
    left
    unfold step
    dsimp only
    split
    · exact h
    · rw [List.getElem?_append_left hi]
      exact h
  | delete o iface mac =>
    left
    unfold step
    dsimp only
    split
    · exact h
    · rw [List.getElem?_append_left hi]
      exact h
  | request j o nowMs =>
    by_cases hj : j = i
    · subst hj
      right
      refine ⟨o, nowMs, rfl, ?_⟩
      unfold step
      dsimp only
      rw [h]
      exact ⟨List.getElem?_set_self hi, rfl⟩
    · left
      unfold step
      dsimp only
      split
      · exact h
      · dsimp only
        rw [List.getElem?_set_ne hj]
        exact h

/-- **The deletion of the device is under way**, or it has returned. -/
def Deleting (topology : TopologySnapshot) (i : ℕ) (key : DeviceKey) (sys : System) : Prop :=
  ∃ req, sys.requests[i]? = some (.delete req) ∧ req.key = key ∧ Progress topology sys.service req

/-- **A step that spares the deletion** keeps what it has done. -/
theorem deleting_step {i : ℕ} (hok : SystemOk hnames opts sys) (h : Deleting topology i key sys) {op : Op}
    (hop : Spares opts topology i sys op) : Deleting topology i key (step opts topology sys op) := by
  obtain ⟨req, hreq, hkey, hprogress⟩ := h
  have hrequest : RequestOk topology (.delete req) := hok.requests _ (List.mem_of_getElem? hreq)
  obtain ⟨hregisters, happends⟩ := hop req hreq
  rcases @request_step topology opts sys i req hreq op with hsame | ⟨o, nowMs, -, hnext, hservice⟩
  · exact ⟨req, hsame, hkey, progress_other hok hrequest hprogress hregisters happends⟩
  · refine ⟨_, hnext, (deleteRegion_eq o req).1.trans hkey, ?_⟩
    rw [hservice]
    exact progress_deleteRegion hok.service hrequest hprogress o

/-- The request of a device on an interface of the topology passes its checks. -/
theorem deleteRequest_of_requests {o : IterOrder} {iface mac : String}
    (h : Requests o topology iface mac key) :
    deleteRequest o topology iface mac = .ok ⟨trim iface, key, false, false, .snapshot⟩ := by
  obtain ⟨hifindex, hmac⟩ := h
  have hne : trim iface ≠ "" := by
    intro hblank
    rw [hblank] at hifindex
    cases hifindex
  unfold deleteRequest
  dsimp only
  rw [if_neg hne, hmac]
  dsimp only
  rw [hifindex]

theorem step_delete {o : IterOrder} {iface mac : String} (h : Requests o topology iface mac key) :
    step opts topology sys (.delete o iface mac) = { sys with
      requests := sys.requests ++ [.delete ⟨trim iface, key, false, false, .snapshot⟩] } := by
  unfold step
  dsimp only
  rw [deleteRequest_of_requests h]

theorem deleting_delete {o : IterOrder} {iface mac : String} (h : Requests o topology iface mac key) :
    Deleting topology sys.requests.length key (step opts topology sys (.delete o iface mac)) := by
  rw [step_delete h]
  exact ⟨_, List.getElem?_concat_length, rfl, False.elim, False.elim, fun result hphase => by cases hphase⟩

/-! ### The start -/

theorem deviceTotalKey_eq_some {k : DeviceSeriesKey} :
    deviceTotalKey k = some key ↔ k.ifindex = key.1 ∧ macFromStr k.mac = .ok key.2 := by
  unfold deviceTotalKey
  cases macFromStr k.mac with
  | error _ => simp
  | ok mac => simp [Prod.ext_iff]

theorem savedThisHour_iff {z : Zone} {o : IterOrder} {file : Option PersistedCurrentHourFile}
    {nowMs : UInt64} : SavedThisHour z o topology file nowMs key ↔
      ∃ k, SavedNow z o topology file nowMs k ∧ deviceTotalKey k = some key := by
  constructor
  · rintro ⟨data, startTs, endTs, item, hfile, hversion, hhour, hitem, hstart, hifindex, hmac⟩
    refine ⟨⟨key.1, item.mac⟩, ⟨data, startTs, endTs, item, hfile, hversion, hhour, hitem, ?_⟩,
      deviceTotalKey_eq_some.mpr ⟨rfl, hmac⟩⟩
    unfold deviceKey
    rw [if_pos hstart, hifindex]
    rfl
  · rintro ⟨k, ⟨data, startTs, endTs, item, hfile, hversion, hhour, hitem, hkey⟩, htotal⟩
    obtain ⟨hifindex, hmac⟩ := deviceTotalKey_eq_some.mp htotal
    unfold deviceKey at hkey
    split_ifs at hkey with hstart
    obtain ⟨i, hi, rfl⟩ := Option.map_eq_some_iff.mp hkey
    exact ⟨data, startTs, endTs, item, hfile, hversion, hhour, hitem, hstart,
      hi.trans (congrArg some hifindex), hmac⟩

/-- A series of the device that a ring was loaded into has the ring of the device. -/
theorem eq_of_deviceKnown {k : DeviceSeriesKey} (hknown : DeviceKnown topology k)
    (h : deviceTotalKey k = some key) : k = ⟨key.1, macToString key.2⟩ := by
  obtain ⟨i, s⟩ := k
  obtain ⟨-, mac, hmac : s = macToString mac⟩ := hknown
  obtain ⟨hifindex, hread⟩ := deviceTotalKey_eq_some.mp h
  dsimp only at hifindex hread
  rw [hmac, macFromStr_macToString] at hread
  rw [hifindex, hmac, Except.ok.inj hread]

/-- **What a start finds of a device that has no ring and is not saved**: its bucket in the file of the
current hour, if that is of its hour. -/
theorem gone_runService_iff (hok : ServiceOk hnames opts st)
    (hring : deviceFile topology ⟨key.1, macToString key.2⟩ ∉ st.files.disk.device.files)
    (hnotSaved : ∀ data, st.files.devices = some data → ∀ item ∈ data.state.knownDevices,
      ∀ o, itemKey o topology item ≠ some key)
    (hstorage : opts.trafficEnableStorage = true) {o : IterOrder} {nowMs : UInt64} {st' : ServiceState}
    (hrun : runService opts o topology st.files nowMs = some st') :
    Gone st' key ↔ ¬ SavedThisHour opts.zone o topology st.files.currentHour nowMs key := by
  obtain ⟨disk, hrecover, -, hregistry, hcumulative, -⟩ := runService_eq_some hrun
  obtain ⟨-, hcompleted, hcurrent⟩ := recoverHistogram_eq_some hok.files hstorage hrecover
  have hnoEntry : key ∉ st'.runtime.deviceRegistry := by
    rw [hregistry, foldl_importStep, mem_insertKeyed]
    rintro ⟨item, hitem, hkey⟩
    obtain ⟨data, hdata, hmem⟩ := mem_importedDevices hitem
    exact hnotSaved data hdata item hmem o hkey
  have hnoRing : ∀ k ∈ st'.histogram.device.completed, deviceTotalKey k ≠ some key := by
    intro k hk htotal
    obtain ⟨hknown, hfile⟩ := hcompleted k hk
    rw [eq_of_deviceKnown hknown htotal] at hfile
    exact hring hfile
  rw [savedThisHour_iff]
  constructor
  · rintro hgone ⟨k, hsaved, htotal⟩
    exact hgone.current k ((hcurrent k).mpr hsaved) htotal
  · intro hnone
    have hnoBucket : ∀ k ∈ st'.histogram.device.current, deviceTotalKey k ≠ some key :=
      fun k hk htotal => hnone ⟨k, (hcurrent k).mp hk, htotal⟩
    refine ⟨hnoEntry, hnoRing, hnoBucket, ?_⟩
    rw [hcumulative, mem_fromAll]
    rintro (⟨k, hk, htotal⟩ | ⟨k, hk, htotal⟩)
    · exact hnoRing k hk htotal
    · exact hnoBucket k hk htotal

/-- After a run that spares the deletion, a start finds its bucket in the file of the current hour, or
nothing. -/
theorem gone_of_spares (hsys : Reachable hnames opts sys) (hstorage : opts.trafficEnableStorage = true)
    {o : IterOrder} {iface mac : String} (hkey : Requests o topology iface mac key) {ops : List Regions.Op}
    (hspares : Along (step opts topology) (Spares opts topology sys.requests.length)
      (step opts topology sys (.delete o iface mac)) ops) {result : DeleteDeviceResult}
    (hreturned : Returned (ops.foldl (step opts topology) (step opts topology sys (.delete o iface mac)))
      sys.requests.length result) :
    let st := (ops.foldl (step opts topology) (step opts topology sys (.delete o iface mac))).service
    ServiceOk hnames opts st ∧ ∀ (o' : IterOrder) {nowMs : UInt64} {st' : ServiceState},
      runService opts o' topology st.files nowMs = some st' →
        (Gone st' key ↔ ¬ SavedThisHour opts.zone o' topology st.files.currentHour nowMs key) := by
  intro st
  have hstart := systemOk_step (systemOk_reachable hsys) (.delete o iface mac)
  obtain ⟨hok, req, hreq, hsame, -, hring, hsaved⟩ := hspares.invariant
    (I := fun sys' => SystemOk hnames opts sys' ∧ Deleting topology sys.requests.length key sys')
    (fun _ op h hop => ⟨systemOk_step h.1 op, deleting_step h.1 h.2 hop⟩) ⟨hstart, deleting_delete hkey⟩
  obtain ⟨req', hreq', hphase⟩ := hreturned
  obtain rfl : req' = req := Request.delete.inj (Option.some.inj (hreq'.symm.trans hreq))
  have hdeleted : RingDeleted req'.phase := by
    rw [hphase]
    trivial
  rw [hsame] at hring hsaved
  exact ⟨hok.service, fun o' _ _ hrun =>
    gone_runService_iff hok.service (hring hdeleted) (hsaved result hphase) hstorage hrun⟩

/-- **A deleted device stays gone if it is left alone, unless the file of the current hour has it.** With
traffic storage and a fixed topology, in every run of regions in which no step enters the device again after
the handler removed it from the runtime, and none appends a bucket of it after its ring was deleted: once
the handler has returned ok, a start at any time finds no entry, no bucket and no total of the device, if
and only if the file of the current hour has no bucket of it for the hour of the start. At a time that has
an hour the start succeeds. -/
theorem deleted_device_stays_gone (topology : TopologySnapshot) (hnames : NamesOk topology) (opts : Options)
    (hstorage : opts.trafficEnableStorage = true) (sys : System) (hsys : Reachable hnames opts sys)
    (o : IterOrder) (iface mac : String) (key : DeviceKey) (hkey : Requests o topology iface mac key)
    (ops : List Regions.Op) (hspares : Along (step opts topology) (Spares opts topology sys.requests.length)
      (step opts topology sys (.delete o iface mac)) ops)
    (result : DeleteDeviceResult) (hreturned : Returned
      (ops.foldl (step opts topology) (step opts topology sys (.delete o iface mac)))
      sys.requests.length result) (o' : IterOrder) (nowMs : UInt64) :
    let files :=
      (ops.foldl (step opts topology) (step opts topology sys (.delete o iface mac))).service.files
    ((∀ st, runService opts o' topology files nowMs = some st → Gone st key) ↔
      ¬ SavedThisHour opts.zone o' topology files.currentHour nowMs key) ∧
    ((hourlyBucketLocal opts.zone nowMs).isSome → (runService opts o' topology files nowMs).isSome) := by
  intro files
  obtain ⟨hok, hiff⟩ := gone_of_spares hsys hstorage hkey hspares hreturned
  refine ⟨⟨fun hall hthis => ?_, fun hnone st hrun => (hiff o' hrun).mpr hnone⟩,
    runService_isSome hok.files o'⟩
  -- the hour of the saved bucket is that of the start, which therefore succeeds
  have hhour : (hourlyBucketLocal opts.zone nowMs).isSome := by
    obtain ⟨-, startTs, endTs, -, -, -, hhour, -⟩ := hthis
    rw [hhour]
    rfl
  obtain ⟨st, hrun⟩ := Option.isSome_iff_exists.mp (runService_isSome hok.files o' hhour)
  exact (hiff o' hrun).mp (hall st hrun) hthis

/-! ### A device that comes back -/

def storageOptions : Options where
  config := ⟨["br-lan"], false, 1.0⟩
  persistence := sampleManager
  trafficEnableStorage := true
  historyWindowMinutes := 1
  deviceTtlDays := 0
  zone := utc

def tabletMac : Mac := .replicate 6 0x04

def tablet : KnownDevice :=
  ⟨3, tabletMac, ["192.168.1.40"], [], "tablet", "br-lan", "192.168.1.0/24", 176000000⟩

/-- A process that has counted a hundred bytes of one device in the first hour of 1970-01-03. -/
def counting : ServiceState where
  files := .empty
  snapshot := ⟨176000000, [], []⟩
  runtime := { MonitorRuntime.default with
    deviceRegistry := (∅ : HashMap DeviceKey KnownDevice).insert (3, tabletMac) tablet }
  history := .new 60
  histogram := { freshHistogram sampleManager with
    device := ⟨AList.singleton ⟨3, macToString tabletMac⟩ sampleBucket, ∅⟩ }
  lastPeriodicPersistMs := 0
  cleanup := none

/-- What it has saved. -/
def savedFiles : Files := (persistPeriodically storageOptions .listed sampleTopology counting).files

theorem filesOk_savedFiles : FilesOk sampleTopology_names storageOptions.persistence savedFiles := by
  have hbridge : NamedIface sampleTopology 3 "br-lan" := ⟨⟨3, "br-lan", "lan", [], []⟩, rfl, rfl⟩
  have hregistry : RegistryOk sampleTopology counting.runtime.deviceRegistry :=
    registryOk_insert registryOk_empty ⟨rfl, rfl⟩ hbridge
  refine ⟨diskOk_empty _ _, fun data hdata item hitem => ?_⟩
  obtain rfl := Option.some.inj hdata
  obtain ⟨key, known, info, -, hinfo, -, hname⟩ := mem_saveMonitorRuntime hregistry hitem
  exact ⟨key.1, info, hinfo, hname⟩

theorem hour_of_start : hourlyBucketLocal storageOptions.zone 176100000 =
    some (172800000, 172800000 + 3599999) :=
  hourly_utc (by decide) (by decide) (by decide)

/-- The item that is saved for the tablet. -/
def savedTablet : PersistedCurrentHourDevice := ⟨"br-lan", macToString tabletMac, sampleBucket⟩

theorem mem_savedTablet :
    savedTablet ∈ (saveCurrentHourHistogram .listed sampleTopology counting.histogram).state.device :=
  mem_savedDevices.mpr ⟨⟨3, macToString tabletMac⟩, sampleBucket, mem_entries_iff.mp List.mem_cons_self,
    rfl⟩

theorem bridge_sampleTopology : sampleTopology.byIfindex 3 = some ⟨3, "br-lan", "lan", [], []⟩ := rfl

theorem savedThisHour_savedFiles (o : IterOrder) :
    SavedThisHour storageOptions.zone o sampleTopology savedFiles.currentHour 176100000
      (3, tabletMac) := by
  have hfile : savedFiles.currentHour =
      some (saveCurrentHourHistogram .listed sampleTopology counting.histogram) := rfl
  have hifindex := ifindexByName_name sampleTopology_names o bridge_sampleTopology
  exact ⟨_, _, _, savedTablet, hfile, rfl, hour_of_start, mem_savedTablet, rfl, hifindex,
    macFromStr_macToString tabletMac⟩

theorem requests_tablet :
    Requests .listed sampleTopology "br-lan" "04:04:04:04:04:04" (3, tabletMac) := by
  have hmac : macFromStr (trim "04:04:04:04:04:04") = .ok tabletMac := by rfl
  have htrim : trim "br-lan" = "br-lan" := (sampleTopology_names.trimmed 3 _ bridge_sampleTopology).1
  have hifindex := ifindexByName_name sampleTopology_names .listed bridge_sampleTopology
  dsimp only at hifindex
  rw [← htrim] at hifindex
  exact ⟨hifindex, hmac⟩

/-- The service starts from what was saved. -/
theorem start_savedFiles :
    ∃ st, runService storageOptions .listed sampleTopology savedFiles 176100000 = some st ∧
    Reachable sampleTopology_names storageOptions (.start st) ∧
    st.files.currentHour = savedFiles.currentHour := by
  have hhour : (hourlyBucketLocal storageOptions.zone 176100000).isSome := by
    rw [hour_of_start]
    rfl
  obtain ⟨st, hrun⟩ := Option.isSome_iff_exists.mp (runService_isSome filesOk_savedFiles .listed hhour)
  obtain ⟨disk, -, hfiles, -⟩ := runService_eq_some hrun
  refine ⟨st, hrun, .start .listed filesOk_savedFiles hrun, ?_⟩
  rw [hfiles]

/-- A turn in which the counters cannot be read. -/
def failingTick : Tick where
  nowMs := 176200000
  ifaceEntries := none
  deviceEntries := none
  insertFailuresRead := false
  ecmEntries := none
  arp := none
  ipNeigh := none
  hostnames := ∅
  deviceRemoved := fun _ => false
  ecmRecheck := fun _ => none
  ecmRemoved := fun _ => false
  o := .listed

/-- The regions of the deletion, and a turn of the collector loop between them. -/
def tabletOps : List Regions.Op :=
  List.replicate 3 (.request 0 .listed 0) ++ .collector failingTick ::
    List.replicate 3 (.request 0 .listed 0)

/-- The deletion of the tablet, from a start. -/
def tabletRun (st : ServiceState) : System :=
  tabletOps.foldl (step storageOptions sampleTopology)
    (step storageOptions sampleTopology (.start st) (.delete .listed "br-lan" "04:04:04:04:04:04"))

theorem foldl_tabletOps (st : ServiceState) : tabletOps.foldl (step storageOptions sampleTopology)
    (step storageOptions sampleTopology (.start st) (.delete .listed "br-lan" "04:04:04:04:04:04")) =
      tabletRun st := rfl

theorem requestRegions_add (o : IterOrder) (topology : TopologySnapshot) (nowMs : UInt64) (m n : ℕ)
    (req : Request) (st : ServiceState) : requestRegions o topology nowMs (m + n) req st =
      requestRegions o topology nowMs n (requestRegions o topology nowMs m req st).1
        (requestRegions o topology nowMs m req st).2 := by
  induction m generalizing req st with
  | zero => rw [Nat.zero_add]; rfl
  | succ m ih =>
    rw [Nat.succ_add]
    exact ih _ _

/-- The request of the tablet, before its first region. -/
def tabletRequest : DeleteRequest := ⟨trim "br-lan", (3, tabletMac), false, false, .snapshot⟩

theorem step_failingTick (st : ServiceState) (requests : List Request) :
    step storageOptions sampleTopology ⟨st, .collect, requests⟩ (.collector failingTick) =
      ⟨st, .collect, requests⟩ := rfl

theorem tabletRun_eq (st : ServiceState) : ∃ (done : DeleteRequest) (result : DeleteDeviceResult),
    done.phase = .returned (.ok result) ∧ tabletRun st =
      ⟨deleted .listed sampleTopology st "br-lan" (3, tabletMac), .collect, [.delete done]⟩ := by
  obtain ⟨result, hdelete⟩ := deleteDevice_of_requests .listed sampleTopology st _ _ requests_tablet
  obtain ⟨done, hphase, hdone⟩ := exists_delete sampleTopology .listed st _ _
    (deleteRequest_of_requests requests_tablet) 0
  rw [hdelete] at hphase hdone
  refine ⟨done, result, hphase, ?_⟩
  obtain ⟨half, hhalf⟩ : ∃ half,
      requestRegions .listed sampleTopology 0 3 (.delete tabletRequest) st = half := ⟨_, rfl⟩
  have hrest : requestRegions .listed sampleTopology 0 3 half.1 half.2 =
      (.delete done, deleted .listed sampleTopology st "br-lan" (3, tabletMac)) := by
    rw [← hhalf, ← requestRegions_add]
    exact hdone
  have hbegin : step storageOptions sampleTopology (.start st)
      (.delete .listed "br-lan" "04:04:04:04:04:04") = ⟨st, .collect, [.delete tabletRequest]⟩ :=
    step_delete requests_tablet
  have hfirst := foldl_request storageOptions sampleTopology .listed 0 .collect [] 3 st
    (.delete tabletRequest)
  have hlast := foldl_request storageOptions sampleTopology .listed 0 .collect [] 3 half.2 half.1
  rw [hhalf] at hfirst
  rw [hrest] at hlast
  unfold tabletRun tabletOps
  rw [hbegin, List.foldl_append, List.foldl_cons]
  dsimp only [List.nil_append, List.length_nil] at hfirst hlast
  rw [hfirst, step_failingTick]
  exact hlast

/-- The collector loop is between two turns, and one deletion is under way. -/
def Quiet (sys : System) : Prop := sys.collector = .collect ∧ ∃ req, sys.requests = [.delete req]

/-- Neither the handler nor a turn that fails brings the tablet back. -/
theorem spares_quiet {ops : List Regions.Op}
    (hops : ∀ op ∈ ops, op = .request 0 .listed 0 ∨ op = .collector failingTick) {sys : System}
    (h : Quiet sys) : Along (step storageOptions sampleTopology) (Spares storageOptions sampleTopology 0)
      sys ops := by
  induction ops generalizing sys with
  | nil => trivial
  | cons op rest ih =>
    obtain ⟨hop, hrest⟩ := List.forall_mem_cons.mp hops
    obtain ⟨st, collector, requests⟩ := sys
    obtain ⟨hcollector, req, hrequests⟩ := h
    obtain rfl : collector = .collect := hcollector
    obtain rfl : requests = [.delete req] := hrequests
    rcases hop with rfl | rfl
    · refine ⟨fun req' _ => ⟨fun _ => ?_, fun _ => id⟩, ih hrest ⟨rfl, _, rfl⟩⟩
      rintro ⟨other, dev, hother, -⟩
      cases hother
    · refine ⟨fun req' _ => ⟨fun _ => ?_, fun _ => ?_⟩, ih hrest ⟨rfl, _, rfl⟩⟩
      · rintro ⟨-, honline⟩
        exact absurd honline (AList.notMem_empty _)
      · rintro ⟨data, item, rest, hrings, -⟩
        cases hrings

theorem spares_tabletOps (st : ServiceState) :
    Along (step storageOptions sampleTopology) (Spares storageOptions sampleTopology 0)
      (step storageOptions sampleTopology (.start st) (.delete .listed "br-lan" "04:04:04:04:04:04"))
      tabletOps := by
  refine spares_quiet (fun op hop => ?_) ⟨?_, tabletRequest, ?_⟩
  · rcases List.mem_append.mp hop with hop | hop
    · exact Or.inl (List.eq_of_mem_replicate hop)
    · rcases List.mem_cons.mp hop with rfl | hop
      · exact Or.inr rfl
      · exact Or.inl (List.eq_of_mem_replicate hop)
  · rw [step_delete requests_tablet]
    rfl
  · rw [step_delete requests_tablet]
    rfl

/-- **A deleted device returns**: its bucket was saved, and the service starts again in the same hour. -/
theorem deleted_device_returns : ¬ ∀ (topology : TopologySnapshot) (hnames : NamesOk topology)
    (opts : Options), opts.trafficEnableStorage = true → ∀ sys : System, Reachable hnames opts sys →
      ∀ (o : IterOrder) (iface mac : String) (key : DeviceKey), Requests o topology iface mac key →
        ∀ (ops : List Regions.Op) (result : DeleteDeviceResult), Returned
          (ops.foldl (step opts topology) (step opts topology sys (.delete o iface mac)))
          sys.requests.length result →
        ∀ later : List Regions.Op, (∀ op ∈ later, ∀ tick, op ≠ .collector tick) →
          ∀ (o' : IterOrder) (nowMs : UInt64) (st : ServiceState),
            runService opts o' topology ((ops ++ later).foldl (step opts topology)
              (step opts topology sys (.delete o iface mac))).service.files nowMs = some st →
            Gone st key := by
  intro hclaim
  obtain ⟨st, -, hst, hfile⟩ := start_savedFiles
  obtain ⟨done, result, hphase, hrun⟩ := tabletRun_eq st
  have hreturned : Returned (tabletRun st) 0 result := by
    rw [hrun]
    exact ⟨done, rfl, hphase⟩
  have hspares := gone_of_spares hst rfl requests_tablet (spares_tabletOps st) hreturned
  dsimp only at hspares
  rw [foldl_tabletOps] at hspares
  obtain ⟨hok, hiff⟩ := hspares
  have hhour : (hourlyBucketLocal storageOptions.zone 176100000).isSome := by
    rw [hour_of_start]
    rfl
  obtain ⟨st', hrestart⟩ := Option.isSome_iff_exists.mp (runService_isSome hok.files .listed hhour)
  have hgone := hclaim sampleTopology sampleTopology_names storageOptions rfl (.start st) hst .listed _ _ _
    requests_tablet tabletOps result hreturned [] (fun _ hop => absurd hop List.not_mem_nil) .listed 176100000
    st'
  rw [List.append_nil, foldl_tabletOps] at hgone
  have hkept : (tabletRun st).service.files.currentHour = savedFiles.currentHour := by
    rw [hrun]
    exact hfile
  have hsaved := savedThisHour_savedFiles .listed
  rw [← hkept] at hsaved
  exact (hiff .listed hrestart).mp (hgone hrestart) hsaved

/-- The bucket of the tablet is of another hour. -/
theorem not_savedThisHour_savedFiles :
    ¬ SavedThisHour storageOptions.zone .listed sampleTopology savedFiles.currentHour 177900000
      (3, tabletMac) := by
  rintro ⟨data, startTs, endTs, item, hfile, -, hhour, hitem, hstart, -⟩
  have hlater : hourlyBucketLocal storageOptions.zone 177900000 = some (176400000, 176400000 + 3599999) :=
    hourly_utc (by decide) (by decide) (by decide)
  obtain ⟨rfl, -⟩ := Prod.mk.inj (Option.some.inj (hhour.symm.trans hlater))
  obtain rfl := Option.some.inj hfile
  obtain ⟨k, b, hlookup, hsaved⟩ := mem_savedDevices.mp hitem
  obtain ⟨info, -, rfl⟩ := Option.map_eq_some_iff.mp hsaved
  have hmem := mem_entries_iff.mpr hlookup
  cases List.mem_singleton.mp hmem
  cases hstart

/-- In the next hour nothing of the tablet is found. -/
theorem deleted_device_stays_gone_next_hour : ∃ st st',
    runService storageOptions .listed sampleTopology savedFiles 176100000 = some st ∧
    runService storageOptions .listed sampleTopology (tabletRun st).service.files 177900000 = some st' ∧
    Gone st' (3, tabletMac) := by
  obtain ⟨st, hstart, hst, hfile⟩ := start_savedFiles
  obtain ⟨done, result, hphase, hrun⟩ := tabletRun_eq st
  have hreturned : Returned (tabletRun st) 0 result := by
    rw [hrun]
    exact ⟨done, rfl, hphase⟩
  have hgone := deleted_device_stays_gone sampleTopology sampleTopology_names storageOptions rfl
    (.start st) hst .listed _ _ _ requests_tablet tabletOps (spares_tabletOps st) result hreturned .listed
    177900000
  dsimp only at hgone
  rw [foldl_tabletOps] at hgone
  obtain ⟨hiff, hstarts⟩ := hgone
  have hkept : (tabletRun st).service.files.currentHour = savedFiles.currentHour := by
    rw [hrun]
    exact hfile
  have hhour : (hourlyBucketLocal storageOptions.zone 177900000).isSome := by
    have hlater : hourlyBucketLocal storageOptions.zone 177900000 =
        some (176400000, 176400000 + 3599999) := hourly_utc (by decide) (by decide) (by decide)
    rw [hlater]
    rfl
  have hnone := not_savedThisHour_savedFiles
  rw [← hkept] at hnone
  obtain ⟨st', hrestart⟩ := Option.isSome_iff_exists.mp (hstarts hhour)
  exact ⟨st, st', hstart, hrestart, hiff.mpr hnone st' hrestart⟩

end BandixPlus.Service.Deletion
