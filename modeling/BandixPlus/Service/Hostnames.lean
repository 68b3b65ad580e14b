import BandixPlus.Monitor.Conservation
import BandixPlus.Monitor.WanRows
import BandixPlus.Service.State

/-! # Host names that a user sets

`set_device_hostname_handler` puts a name in the registry. A tick makes the rows of its devices from the
neighbours, from known devices with traffic, from the WAN pseudo-device and from the registry, and then
the registry from the rows; so a name survives only if each of the four looks it up.

* `named_step`: three of them do, and a step that is not of the WAN pseudo-device keeps the name.
* `hostname_persists`: so does a run.
* `hostname_replaced`: the row of the WAN pseudo-device gets its own name, and with it the registry. -/

namespace BandixPlus.Service.Hostnames

open BandixPlus.Common BandixPlus.Lib.Maps
open BandixPlus.Monitor.Counters BandixPlus.Monitor.Snapshot BandixPlus.Monitor.Topology
open BandixPlus.Monitor.Runtime BandixPlus.Monitor.Interfaces BandixPlus.Monitor.Devices
open BandixPlus.Monitor.Ecm BandixPlus.Monitor.Collect BandixPlus.Monitor.Session
open BandixPlus.Monitor.Group BandixPlus.Monitor.Registry BandixPlus.Monitor.Cumulative
open BandixPlus.Monitor.Conservation BandixPlus.Monitor.Neighbors BandixPlus.Monitor.WanRows
open BandixPlus.Net.Text
open BandixPlus.Persistence.History (freshHistogram)
open BandixPlus.Persistence.CurrentHour (sampleManager)
open BandixPlus.Service.State hiding Op step

/-! ### Names -/

/-- The registry has this name for the device. -/
def Named (key : DeviceKey) (name : String) (registry : HashMap DeviceKey KnownDevice) : Prop :=
  ∃ known, registry.lookup key = some known ∧ known.hostname = name

/-- The rows of the device show it. -/
def RowsNamed (key : DeviceKey) (name : String) (s : SnapshotData) : Prop :=
  ∀ row ∈ s.devices, row.ifindex = key.1 → row.mac = macToString key.2 → row.hostname = name

/-- A name that stands for a name. -/
def Proper (name : String) : Prop := trim name ≠ "" ∧ trim name ≠ "-"

/-- The name of the WAN pseudo-device. -/
def wanHostname : String := "WAN (External)"

/-- The operation neither removes the device nor names it. -/
def Spares (key : DeviceKey) : Op → Prop
  | .collect _ _ _ => True
  | .remove key' => key' ≠ key
  | .hostname key' _ _ _ => key' ≠ key

/-- A tick in which the interface of the device is still there. -/
def KeepsInterface (key : DeviceKey) : Op → Prop
  | .collect _ topology _ => (topology.byIfindex key.1).isSome
  | _ => False

/-- A tick that reads its counters. -/
def ReadsCounters (tick : Tick) : Prop :=
  tick.ifaceEntries.isSome ∧ tick.deviceEntries.isSome ∧ tick.insertFailuresRead = true

/-- The device is the WAN pseudo-device of a tick that reads its counters. -/
def OfWan (key : DeviceKey) : Op → Prop
  | .collect _ topology tick =>
    ReadsCounters tick ∧ wanIfindex topology = some key.1 ∧ key.2 = macWan
  | _ => False

/-! ### One tick -/

/-- A row is of the device of its key, and of one device it shows the name. -/
def NamedRow (key : DeviceKey) (name : String) (k : DeviceKey) (item : DeviceListItem) : Prop :=
  KeyedRow k item ∧ (k = key → item.hostname = name)

section
variable {key : DeviceKey} {name : String}

theorem aboutDevice_namedRow : AboutDevice (NamedRow key name) := fun k item item' hsame h =>
  ⟨aboutDevice_keyedRow k item item' hsame h.1, fun hk => hsame.hostname.trans (h.2 hk)⟩

/-- A device that has traffic shows the name that is known. -/
theorem knownAll_namedRow {registry : HashMap DeviceKey KnownDevice} (hkeyed : Keyed registry)
    (hname : Proper name) (h : Named key name registry) : KnownAll (NamedRow key name) registry := by
  obtain ⟨mine, hmine, hhostname⟩ := h
  refine fun k known hknown nowMs => ⟨knownAll_keyedRow hkeyed k known hknown nowMs, ?_⟩
  rintro rfl
  obtain rfl := Option.some.inj (hmine.symm.trans hknown)
  unfold activatedItem
  dsimp only
  rw [hhostname, if_neg hname.1]

/-- So does a neighbour. -/
theorem namedRow_neighborDevice {cfg : Config} {topology : TopologySnapshot} {rt : MonitorRuntime}
    (hname : Proper name) (h : Named key name rt.deviceRegistry) {nowMs : UInt64} {dev : String}
    {mac : Mac} {ips : NeighborIps} {k : DeviceKey} {item : DeviceListItem}
    (hitem : neighborDevice cfg topology rt nowMs dev mac ips = some (k, item)) :
    NamedRow key name k item := by
  obtain ⟨-, -, hifindex, hmac, -⟩ := neighborDevice_eq_some hitem
  refine ⟨⟨hifindex, hmac⟩, ?_⟩
  rintro rfl
  obtain ⟨known, hknown, hhostname⟩ := h
  have hset : knownHostname known = some name := by
    unfold knownHostname
    dsimp only
    rw [hhostname, if_neg (not_or.mpr hname)]
  unfold neighborDevice at hitem
  split at hitem
  · cases hitem
  · split at hitem
    · cases hitem
    · split_ifs at hitem
      obtain ⟨rfl, rfl⟩ := Prod.mk.inj (Option.some.inj hitem)
      dsimp only
      rw [hknown, Option.bind_some, hset]
      rfl

theorem namedRow_onlineDevices {cfg : Config} {topology : TopologySnapshot} {tick : Tick}
    {rt : MonitorRuntime} (hkeyed : Keyed rt.deviceRegistry) (hname : Proper name)
    (h : Named key name rt.deviceRegistry)
    (hwan : wanIfindex topology = some key.1 → key.2 = macWan → name = wanHostname) :
    GroupAll (NamedRow key name) (onlineDevices cfg topology tick rt) := by
  refine groupAll_onlineDevices cfg topology tick aboutDevice_namedRow
    (knownAll_namedRow hkeyed hname h) (fun i hi nowMs => ?_) fun rt' hregistry _ _ _ _ _ _ => ?_
  · refine ⟨wanAll_keyedRow topology i hi nowMs, ?_⟩
    rintro rfl
    exact (hwan hi rfl).symm
  · rw [← hregistry] at h
    exact namedRow_neighborDevice hname h

theorem named_registerDevices {devices : DevicesGroup} {registry : HashMap DeviceKey KnownDevice}
    (hall : GroupAll (NamedRow key name) devices) (h : Named key name registry) (o : IterOrder)
    (nowMs : UInt64) : Named key name (registerDevices o nowMs devices registry) := by
  unfold Named
  rw [lookup_registerDevices]
  cases hitem : devices.lookup key with
  | none => exact h
  | some item => exact ⟨_, rfl, (hall key item hitem).2 rfl⟩

/-- The rows of a tick are those of its devices and those of the registry. -/
theorem rowsNamed_deviceRows {cfg : Config} {topology : TopologySnapshot} {rt : MonitorRuntime}
    {devices : DevicesGroup} (hall : GroupAll (NamedRow key name) devices)
    (hkeyed : Keyed rt.deviceRegistry) (h : Named key name rt.deviceRegistry) (o : IterOrder) :
    ∀ row ∈ deviceRows cfg o topology rt devices, row.ifindex = key.1 → row.mac = macToString key.2 →
      row.hostname = name := by
  intro row hrow hifindex hmac
  have hkey : deviceKeyOf row = key := deviceKeyOf_eq ⟨hifindex, hmac⟩
  have hrow := List.mem_mergeSort.mp hrow
  rcases List.mem_append.mp hrow with hrow | hrow
  · obtain ⟨e, he, rfl⟩ := List.mem_map.mp hrow
    obtain ⟨hkeyedRow, hhostname⟩ := hall e.1 e.2 (mem_order_iff.mp he)
    exact hhostname ((deviceKeyOf_eq hkeyedRow).symm.trans hkey)
  · obtain ⟨e, he, rfl⟩ := List.mem_map.mp hrow
    have hlookup := mem_order_iff.mp (List.mem_of_mem_filter he)
    obtain ⟨hifindex', hmac'⟩ := hkeyed e.1 e.2 hlookup
    have hself : deviceKeyOf (offlineItem rt e.1 e.2) = e.1 :=
      deviceKeyOf_eq ⟨hifindex', congrArg macToString hmac'⟩
    obtain ⟨known, hknown, hhostname⟩ := h
    rw [← hkey, hself, hlookup] at hknown
    obtain rfl := Option.some.inj hknown
    exact hhostname

/-- **A tick keeps the name**, unless the device is the WAN pseudo-device. -/
theorem named_collectSnapshot {cfg : Config} {topology : TopologySnapshot} {tick : Tick}
    {rt : MonitorRuntime} (hinv : RuntimeInv rt) (hname : Proper name)
    (h : Named key name rt.deviceRegistry)
    (hwan : name = wanHostname ∨ ¬ OfWan key (.collect cfg topology tick)) :
    Named key name (collectSnapshot cfg topology tick rt).2.deviceRegistry ∧
      ∀ s ∈ (collectSnapshot cfg topology tick rt).1, RowsNamed key name s := by
  by_cases hread : ReadsCounters tick
  · have hwan' : wanIfindex topology = some key.1 → key.2 = macWan → name = wanHostname :=
      fun hifindex hmac => hwan.resolve_right (not_not.mpr ⟨hread, hifindex, hmac⟩)
    have hall := @namedRow_onlineDevices key name cfg topology tick rt hinv.keyed hname h hwan'
    have hkeyed := keyed_registerDevices (fun k item hitem => (hall k item hitem).1) hinv.keyed
      tick.o tick.nowMs
    have hregistry := named_registerDevices hall h tick.o tick.nowMs
    refine ⟨?_, fun s hs => ?_⟩
    · rw [deviceRegistry_collectSnapshot]
      exact hregistry
    · rcases onlineDevices_cases cfg topology tick rt with ⟨heq, -⟩ | ⟨ie, de, honline, heq⟩
      · rw [heq] at hs
        cases hs
      · let b := beforeEcm cfg topology tick rt (readStats ie) (readStats de)
        have hsettled : (settle topology tick b (hardware topology tick b)).2.deviceRegistry =
            registerDevices tick.o tick.nowMs (onlineDevices cfg topology tick rt)
              rt.deviceRegistry := by
          rw [deviceRegistry_settle,
            deviceRegistry_beforeEcm cfg topology tick (readStats ie) (readStats de), ← honline]
        rw [← hsettled] at hkeyed hregistry
        rw [honline] at hall
        rw [heq] at hs
        obtain rfl := Option.some.inj hs
        exact rowsNamed_deviceRows hall hkeyed hregistry tick.o
  · have hfails : collectSnapshot cfg topology tick rt = (none, rt) := by
      unfold collectSnapshot
      split
      · next hie hde hfailures =>
        exact absurd ⟨by rw [hie]; rfl, by rw [hde]; rfl, hfailures⟩ hread
      · rfl
    rw [hfails]
    exact ⟨h, fun s hs => by cases hs⟩

/-! ### Runs -/

theorem named_updateHostname {rt : MonitorRuntime} {key' : DeviceKey} (hne : key' ≠ key)
    (h : Named key name rt.deviceRegistry) (hostname : String) (snapshotDevice : Option DeviceListItem)
    (nowMs : UInt64) :
    Named key name (updateHostname rt key' hostname snapshotDevice nowMs).deviceRegistry := by
  obtain ⟨known, hknown, hhostname⟩ := h
  have hother : ∀ entry, (rt.deviceRegistry.insert key' entry).lookup key = some known := by
    intro entry
    rw [lookup_insert_eq, if_neg hne.symm]
    exact hknown
  unfold updateHostname
  split
  · exact ⟨known, hother _, hhostname⟩
  · exact ⟨known, hother _, hhostname⟩
  · exact ⟨known, hknown, hhostname⟩

/-- **A step keeps the name** if it spares the device and is not of the WAN pseudo-device. -/
theorem named_step {rt : MonitorRuntime} (hinv : RuntimeInv rt) (hname : Proper name)
    (h : Named key name rt.deviceRegistry) {op : Op} (hspares : Spares key op)
    (hwan : name = wanHostname ∨ ¬ OfWan key op) :
    Named key name (step rt op).2.deviceRegistry ∧ ∀ s ∈ (step rt op).1, RowsNamed key name s := by
  cases op with
  | collect cfg topology tick => exact named_collectSnapshot hinv hname h hwan
  | remove key' =>
    refine ⟨?_, fun s hs => by cases hs⟩
    obtain ⟨known, hknown, hhostname⟩ := h
    refine ⟨known, ?_, hhostname⟩
    show (rt.deviceRegistry.erase key').lookup key = some known
    rw [lookup_erase_eq, if_neg (Ne.symm hspares)]
    exact hknown
  | hostname key' hostname snapshotDevice nowMs =>
    exact ⟨named_updateHostname hspares h hostname snapshotDevice nowMs, fun s hs => by cases hs⟩

theorem named_run {rt : MonitorRuntime} (hreach : Reachable rt) (hname : Proper name)
    (h : Named key name rt.deviceRegistry) (ops : List Op) (hspares : ∀ op ∈ ops, Spares key op)
    (hwan : name = wanHostname ∨ ∀ op ∈ ops, ¬ OfWan key op) :
    Named key name (run rt ops).2.deviceRegistry ∧ ∀ s ∈ (run rt ops).1, RowsNamed key name s := by
  induction ops generalizing rt with
  | nil => exact ⟨h, fun s hs => absurd hs List.not_mem_nil⟩
  | cons op rest ih =>
    obtain ⟨hnamed, hrows⟩ := named_step (runtimeInv_reachable hreach) hname h
      (hspares op List.mem_cons_self) (hwan.imp_right fun hnone => hnone op List.mem_cons_self)
    obtain ⟨hnamed', hrows'⟩ := ih (.step op hreach) hnamed
      (fun op' hop' => hspares op' (List.mem_cons_of_mem _ hop'))
      (hwan.imp_right fun hnone op' hop' => hnone op' (List.mem_cons_of_mem _ hop'))
    refine ⟨hnamed', fun s hs => ?_⟩
    have hs : s ∈ (step rt op).1.toList ++ (run (step rt op).2 rest).1 := hs
    rcases List.mem_append.mp hs with hs | hs
    · exact hrows s (Option.mem_toList.mp hs)
    · exact hrows' s hs

end

/-! ### The request -/

theorem named_updateHostname_self {rt : MonitorRuntime} {key : DeviceKey}
    {snapshotDevice : Option DeviceListItem} (h : key ∈ rt.deviceRegistry ∨ snapshotDevice.isSome)
    (hostname : String) (nowMs : UInt64) :
    Named key hostname (updateHostname rt key hostname snapshotDevice nowMs).deviceRegistry := by
  unfold updateHostname Named
  cases hlookup : rt.deviceRegistry.lookup key with
  | some known => exact ⟨_, AList.lookup_insert _, rfl⟩
  | none =>
    have hnew := h.resolve_left (AList.lookup_eq_none.mp hlookup)
    obtain ⟨dev, rfl⟩ := Option.isSome_iff_exists.mp hnew
    exact ⟨_, AList.lookup_insert _, rfl⟩

/-- **A request that is answered with ok** names the device. -/
theorem named_setDeviceHostname {o : IterOrder} {topology : TopologySnapshot} {st st' : ServiceState}
    {iface mac hostname : String} {nowMs : UInt64} {key : DeviceKey}
    (hkey : Requests o topology iface mac key)
    (h : setDeviceHostname o topology st iface mac hostname nowMs = (.ok (), st')) :
    trim hostname ≠ "" ∧ Named key (trim hostname) st'.runtime.deviceRegistry ∧
      ∃ snapshotDevice,
        st'.runtime = updateHostname st.runtime key (trim hostname) snapshotDevice nowMs := by
  obtain ⟨hifindex, hmac⟩ := hkey
  unfold setDeviceHostname at h
  dsimp only at h
  rw [hifindex, hmac] at h
  dsimp only at h
  split_ifs at h with hiface hmacRaw hempty hunknown
  · cases (Prod.mk.inj h).1
  · cases (Prod.mk.inj h).1
  · cases (Prod.mk.inj h).1
  · cases (Prod.mk.inj h).1
  · obtain ⟨-, rfl⟩ := Prod.mk.inj h
    refine ⟨hempty, named_updateHostname_self ?_ _ nowMs, _, rfl⟩
    rcases not_and_or.mp hunknown with hknown | hsome
    · exact Or.inl (not_not.mp hknown)
    · exact Or.inr (by simpa [Option.isSome_iff_ne_none] using hsome)

/-- **A host name that a user sets persists.** It is that of the device in the registry, and in the rows of
every snapshot, after every run that spares the device, unless a tick makes the device the WAN
pseudo-device. -/
theorem hostname_persists (o : IterOrder) (topology : TopologySnapshot) (st st' : ServiceState)
    (hreach : Reachable st.runtime) (iface mac hostname : String) (nowMs : UInt64) (key : DeviceKey)
    (hkey : Requests o topology iface mac key) (hproper : trim hostname ≠ "-")
    (hset : setDeviceHostname o topology st iface mac hostname nowMs = (.ok (), st')) (ops : List Op)
    (hspares : ∀ op ∈ ops, Spares key op)
    (hwan : trim hostname = wanHostname ∨ ∀ op ∈ ops, ¬ OfWan key op) :
    Named key (trim hostname) (run st'.runtime ops).2.deviceRegistry ∧
      ∀ s ∈ (run st'.runtime ops).1, RowsNamed key (trim hostname) s := by
  obtain ⟨hempty, hnamed, snapshotDevice, hruntime⟩ := named_setDeviceHostname hkey hset
  have hreach' : Reachable st'.runtime := by
    rw [hruntime]
    exact .step (.hostname key (trim hostname) snapshotDevice nowMs) hreach
  have hname : Proper (trim hostname) := by
    unfold Proper
    rw [trim_trim]
    exact ⟨hempty, hproper⟩
  exact named_run hreach' hname hnamed ops hspares hwan

/-! ### The WAN pseudo-device -/

/-- No address is owned by the device. -/
def Unowned (key : DeviceKey) (ownership : HashMap EcmAddress NeighborOwnership) : Prop :=
  ∀ address entry, ownership.lookup address = some entry → entry.device ≠ some key

theorem notMem_activateKnownDevice {devices : DevicesGroup} {key device : DeviceKey}
    (h : key ∉ devices) (hne : key ≠ device) (registry : HashMap DeviceKey KnownDevice)
    (nowMs : UInt64) : key ∉ activateKnownDevice devices registry device nowMs := by
  unfold activateKnownDevice
  split_ifs
  · exact h
  · split
    · rw [AList.mem_insert, not_or]
      exact ⟨hne, h⟩
    · exact h

theorem unowned_observeNeighbor {key device : DeviceKey}
    {cache : HashMap EcmAddress NeighborOwnership} (h : Unowned key cache) (hne : device ≠ key)
    (address : EcmAddress) (observedMs tick : UInt64) :
    Unowned key (observeNeighbor cache address device observedMs tick) := by
  intro a entry hentry
  unfold observeNeighbor at hentry
  dsimp only at hentry
  rw [lookup_insert_eq] at hentry
  split_ifs at hentry
  -- the observed address has this device or none
  · rw [← Option.some.inj hentry]
    exact fun heq => hne (Option.some.inj heq)
  · rw [← Option.some.inj hentry]
    exact fun heq => by cases heq
  · rw [← Option.some.inj hentry]
    exact fun heq => hne (Option.some.inj heq)
  · exact h a entry hentry

section Wan
variable {topology : TopologySnapshot} {key : DeviceKey} (hwan : wanIfindex topology = some key.1)

include hwan

theorem wanZone_of_wanIfindex {iface : Interface} (h : topology.byIfindex key.1 = some iface) :
    wanZone iface = true := by
  obtain ⟨wan, hfind, hifindex⟩ := Option.map_eq_some_iff.mp hwan
  have hfound := mem_interfaces.mp (List.mem_of_find?_eq_some hfind)
  have hzone := List.find?_some hfind
  have hzone : wan.zone = "wan" := of_decide_eq_true hzone
  rw [hifindex, h] at hfound
  obtain rfl := Option.some.inj hfound
  unfold wanZone
  rw [hzone]
  rfl

/-- Neighbours are on the LAN side. -/
theorem notMem_neighborDevices (cfg : Config) (o : IterOrder) (rt : MonitorRuntime) (nowMs : UInt64)
    (groups : HashMap (String × Mac) NeighborIps) :
    key ∉ neighborDevices cfg o topology rt nowMs groups := by
  have hall : GroupAll (fun k _ => k ≠ key) (neighborDevices cfg o topology rt nowMs groups) := by
    refine groupAll_neighborDevices (fun dev mac ips k item hitem => ?_) o groups
    rintro rfl
    unfold neighborDevice at hitem
    split at hitem
    · cases hitem
    · split at hitem
      · cases hitem
      · next iface hiface =>
        split_ifs at hitem with hlan
        obtain ⟨rfl, -⟩ := Prod.mk.inj (Option.some.inj hitem)
        exact hlan (wanZone_of_wanIfindex hwan hiface)
  intro hmem
  obtain ⟨item, hitem⟩ := mem_iff_lookup.mp hmem
  exact hall key item hitem rfl

/-- Software counters of the WAN interface are of no known device. -/
theorem notMem_counterLoop {devices : DevicesGroup} (h : key ∉ devices) (tick : Tick)
    (rt : MonitorRuntime) (sec : Float) (prune : Bool)
    (stats : HashMap DeviceTrafficKey TrafficValue) :
    key ∉ (counterLoop tick topology rt sec prune stats devices).devices := by
  unfold counterLoop
  refine List.foldlRecOn (motive := fun st : CounterLoop => key ∉ st.devices) _ _ h fun st hst e _ => ?_
  have hattribute : ∀ {devices : DevicesGroup} (delta : UInt64) (b : Breakdown), key ∉ devices →
      key ∉ (attributeCounter (wanIfindex topology) e.1 delta sec devices b).1 := by
    intro devices delta b hdevices
    unfold attributeCounter
    dsimp only
    split_ifs
    · exact hdevices
    · exact hdevices
    · rw [mem_modify]
      exact hdevices
    · exact hdevices
    · exact hdevices
  unfold counterStep
  dsimp only
  by_cases hdelta : deltaBytes e.2.bytes ((st.prevDeviceBytes.lookup e.1).getD 0) = 0
  · rw [if_pos hdelta]
    exact hst
  · rw [if_neg hdelta]
    by_cases hlan : some e.1.ifindex ≠ wanIfindex topology ∧ !isMulticastMac e.1.mac
    · rw [if_pos hlan]
      refine hattribute _ _ (notMem_activateKnownDevice hst ?_ _ _)
      rintro rfl
      exact hlan.1 hwan.symm
    · rw [if_neg hlan]
      exact hattribute _ _ hst

/-- Owners are found among the neighbours. -/
theorem unowned_observeNeighbors {ownership : HashMap EcmAddress NeighborOwnership}
    (h : Unowned key ownership) (nowMs ipv6FetchMs : UInt64)
    (neighbors : List FilteredNeighborEntry) :
    Unowned key (observeNeighbors topology nowMs ipv6FetchMs ownership neighbors) := by
  refine observeNeighbors_keeps (fun m hm n _ ifindex iface _ hiface hlan _ _ => ?_) h _
  have hother : (ifindex, n.mac) ≠ key := by
    rintro rfl
    have hwanSide := wanZone_of_wanIfindex hwan hiface
    rw [hwanSide] at hlan
    cases hlan
  exact unowned_observeNeighbor hm hother _ _ _

end Wan

/-- The hardware counters add owners alone. -/
theorem notMem_hardware {topology : TopologySnapshot} {tick : Tick} {key : DeviceKey} {b : BeforeEcm}
    (h : key ∉ b.devices) (hunowned : Unowned key b.rt.neighborOwnership) :
    key ∉ (hardware topology tick b).devices := by
  unfold hardware ecmLoop
  refine List.foldlRecOn (motive := fun st : EcmLoop => key ∉ st.devices) _ _ h fun st hst e _ => ?_
  unfold ecmStep
  dsimp only
  split_ifs
  · exact hst
  · exact hst
  · rcases attributionOf_cases (subnetsOf topology) b.rt.neighborOwnership tick.nowMs e.1 with
      ⟨device, entry, hwhose, hentry, hdevice⟩ | hwithin
    · have hne : key ≠ device := by
        rintro rfl
        exact hunowned _ entry hentry hdevice
      have hactivate := notMem_activateKnownDevice hst hne b.rt.deviceRegistry tick.nowMs
      rw [hwhose]
      unfold attributeEcm
      dsimp only
      split_ifs
      · rw [mem_modify]
        exact hactivate
      · exact hactivate
    · cases hwhose : attributionOf (subnetsOf topology) b.rt.neighborOwnership tick.nowMs e.1 with
      | owner device =>
        rw [hwhose] at hwithin
        exact hwithin.elim
      | ownWan => exact hst
      | subnet ifindex => exact hst
      | global => exact hst
      | external => exact hst

/-- Before its own row is added, the WAN pseudo-device is not in the group of a tick. -/
theorem notMem_beforeWan (cfg : Config) {topology : TopologySnapshot} (tick : Tick)
    {rt : MonitorRuntime} {key : DeviceKey} (hwan : wanIfindex topology = some key.1)
    (hunowned : Unowned key rt.neighborOwnership)
    (ifaceStats : HashMap InterfaceTrafficKey TrafficValue)
    (deviceStats : HashMap DeviceTrafficKey TrafficValue) :
    key ∉ (hardware topology tick (beforeEcm cfg topology tick rt ifaceStats deviceStats)).devices := by
  let start := startTick cfg topology tick rt
  let st := interfaceLoop cfg tick.o topology ifaceStats start.sec start.rt
  let seen := observe cfg topology tick start.reading.refreshIpv6Neighbors st.rt
  have hframe : Frame rt st.rt := (frame_startTick cfg topology tick rt).trans
    (frame_interfaceLoop cfg tick.o topology ifaceStats start.sec start.rt)
  obtain ⟨-, -, -, howners⟩ :=
    readNeighbors_snd cfg topology tick start.reading.refreshIpv6Neighbors st.rt
  have hretained : Unowned key
      (readNeighbors cfg topology tick start.reading.refreshIpv6Neighbors st.rt).2.neighborOwnership := by
    intro address entry hentry
    rw [howners] at hentry
    unfold retainOwnership at hentry
    rw [lookup_retain, Option.filter_eq_some_iff] at hentry
    exact hunowned address entry (hframe.owners address entry hentry.1)
  have hseen : key ∉ seen.1 ∧ Unowned key seen.2.neighborOwnership := by
    show key ∉ (observe cfg topology tick start.reading.refreshIpv6Neighbors st.rt).1 ∧ Unowned key
      (observe cfg topology tick start.reading.refreshIpv6Neighbors st.rt).2.neighborOwnership
    unfold observe
    dsimp only
    refine ⟨notMem_neighborDevices hwan cfg tick.o _ _ _, ?_⟩
    split_ifs
    · exact unowned_observeNeighbors hwan hretained _ _ _
    · exact hretained
  refine notMem_hardware ?_ hseen.2
  show key ∉ (pruneCounters _ (counterLoop tick topology seen.2 _ _ deviceStats seen.1)).devices
  rw [devices_pruneCounters]
  exact notMem_counterLoop hwan hseen.1 tick _ _ _ _

/-- **The name of the WAN pseudo-device is replaced** by every tick that reads its counters, as long as no
address is owned by the device. -/
theorem hostname_replaced (cfg : Config) {topology : TopologySnapshot} (tick : Tick)
    {rt : MonitorRuntime} {key : DeviceKey} (hinv : RuntimeInv rt)
    (hunowned : Unowned key rt.neighborOwnership) (hwan : OfWan key (.collect cfg topology tick)) :
    Named key wanHostname (collectSnapshot cfg topology tick rt).2.deviceRegistry := by
  obtain ⟨⟨hie, hde, hfailures⟩, hifindex, hmac⟩ := hwan
  obtain ⟨ie, hie⟩ := Option.isSome_iff_exists.mp hie
  obtain ⟨de, hde⟩ := Option.isSome_iff_exists.mp hde
  let b := beforeEcm cfg topology tick rt (readStats ie) (readStats de)
  have honline : onlineDevices cfg topology tick rt =
      (settle topology tick b (hardware topology tick b)).1 := by
    unfold onlineDevices
    rw [hie, hde, hfailures]
  obtain ⟨hregistry, -, hgroup, -⟩ := beforeEcm_spec cfg topology tick (readStats ie) (readStats de) hinv
  have hkeyed : GroupKeyed (hardware topology tick b).devices :=
    (grows_hardware (hregistry ▸ hinv.keyed) topology tick).keyed hgroup
  -- the row that is added is a new one
  have habout : AboutDevice fun k item => k = key → item.hostname = wanHostname :=
    fun k item item' hsame h hk => hsame.hostname.trans (h hk)
  have hall : GroupAll (fun k item => k = key → item.hostname = wanHostname)
      (settle topology tick b (hardware topology tick b)).1 := by
    have hnew : GroupAll (fun k item => k = key → item.hostname = wanHostname)
        (hardware topology tick b).devices := by
      rintro k item hitem rfl
      exact absurd (mem_iff_lookup.mpr ⟨item, hitem⟩)
        (notMem_beforeWan cfg tick hifindex hunowned (readStats ie) (readStats de))
    exact (growsWith_settle habout (fun i _ nowMs _ => rfl) hnew tick).all hnew
  have hmem : key ∈ (settle topology tick b (hardware topology tick b)).1 := by
    have hrow := mem_settle hifindex tick b (hardware topology tick b) hkeyed
    rw [← hmac] at hrow
    exact hrow
  obtain ⟨item, hitem⟩ := mem_iff_lookup.mp hmem
  unfold Named
  rw [deviceRegistry_collectSnapshot, lookup_registerDevices, honline, hitem]
  exact ⟨_, rfl, hall key item hitem rfl⟩

/-! ### Two requests -/

/-- A request for a known device is answered with ok. -/
theorem setDeviceHostname_of_requests {o : IterOrder} {topology : TopologySnapshot}
    {st : ServiceState} {iface mac : String} {key : DeviceKey}
    (hkey : Requests o topology iface mac key) (hknown : key ∈ st.runtime.deviceRegistry)
    {hostname : String} (hname : trim hostname ≠ "") (nowMs : UInt64) :
    ∃ st', setDeviceHostname o topology st iface mac hostname nowMs = (.ok (), st') := by
  obtain ⟨hifindex, hmac⟩ := hkey
  have hiface : trim iface ≠ "" := by
    intro hblank
    rw [hblank] at hifindex
    cases hifindex
  have hmacRaw : trim mac ≠ "" := by
    intro hblank
    rw [hblank] at hmac
    cases hmac
  unfold setDeviceHostname
  dsimp only
  rw [if_neg hiface, if_neg hmacRaw, if_neg hname, hifindex]
  dsimp only
  rw [hmac]
  dsimp only
  rw [if_neg fun hunknown => hunknown.1 hknown]
  exact ⟨_, rfl⟩

def savedDevice (iface mac : String) : MonitorRuntimeState :=
  ⟨[⟨iface, mac, [], [], "-", "", 0⟩], [], [], []⟩

/-- A service that starts with one saved device. -/
def serviceOf (topology : TopologySnapshot) (iface mac : String) : ServiceState where
  files := .empty
  snapshot := ⟨0, [], []⟩
  runtime := startRuntime .listed topology (some (savedDevice iface mac)) ∅ ∅
  history := .new 60
  histogram := freshHistogram sampleManager
  lastPeriodicPersistMs := 0
  cleanup := none

def uplinkTopology : TopologySnapshot := .ofInterfaces [⟨2, "wan", "wan", [], []⟩]

def bridgeTopology : TopologySnapshot :=
  .ofInterfaces [⟨3, "br-lan", "lan", ["192.168.1.1/24"], []⟩]

def printerMac : Mac := #v[0x04, 0, 0, 0, 0, 0x01]

/-- A tick that finds no traffic, and a printer among the neighbours. -/
def printerTick : Tick where
  nowMs := 2000000
  ifaceEntries := some []
  deviceEntries := some []
  insertFailuresRead := true
  ecmEntries := none
  arp := some "IP address HW type Flags HW address Mask Device\n192.168.1.9 0x1 0x2 04:00:00:00:00:01 * br-lan"
  ipNeigh := none
  hostnames := (∅ : HashMap Mac String).insert printerMac "dhcp-name"
  deviceRemoved := fun _ => false
  ecmRecheck := fun _ => none
  ecmRemoved := fun _ => false
  o := .listed

/-- **The name of the WAN pseudo-device does not persist**: the next tick replaces it. -/
theorem hostname_lost : ¬ ∀ (o : IterOrder) (topology : TopologySnapshot) (st st' : ServiceState),
    Reachable st.runtime → ∀ (iface mac hostname : String) (nowMs : UInt64) (key : DeviceKey),
      Requests o topology iface mac key → trim hostname ≠ "-" →
        setDeviceHostname o topology st iface mac hostname nowMs = (.ok (), st') →
          ∀ ops : List Op, (∀ op ∈ ops, KeepsInterface key op) →
            Named key (trim hostname) (run st'.runtime ops).2.deviceRegistry ∧
              ∀ s ∈ (run st'.runtime ops).1, RowsNamed key (trim hostname) s := by
  intro hclaim
  let st := serviceOf uplinkTopology "wan" "02:00:00:00:00:00"
  have hreach : Reachable st.runtime :=
    .start .listed uplinkTopology (some (savedDevice "wan" "02:00:00:00:00:00")) ∅ ∅
  have hkey : Requests .listed uplinkTopology "wan" "02:00:00:00:00:00" (2, macWan) := ⟨rfl, rfl⟩
  obtain ⟨st', hset⟩ := @setDeviceHostname_of_requests .listed uplinkTopology st "wan"
    "02:00:00:00:00:00" (2, macWan) hkey (by decide +kernel) "uplink" (by decide) 1000000
  let op : Op := .collect ⟨["wan"], false, 1.0⟩ uplinkTopology printerTick
  obtain ⟨⟨known, hknown, hname⟩, -⟩ := hclaim .listed uplinkTopology st st' hreach _ _ "uplink" 1000000
    (2, macWan) hkey (by decide) hset [op] fun op' hop => by
      rw [List.mem_singleton.mp hop]
      rfl
  obtain ⟨-, -, snapshotDevice, hruntime⟩ := named_setDeviceHostname hkey hset
  have hinv : RuntimeInv st'.runtime := by
    rw [hruntime]
    exact runtimeInv_updateHostname (runtimeInv_reachable hreach) _ _ _ _
  have hunowned : Unowned (2, macWan) st'.runtime.neighborOwnership := by
    have hnone : st'.runtime.neighborOwnership = ∅ := by
      rw [hruntime]
      unfold updateHostname
      split <;> rfl
    intro address entry hentry
    rw [hnone, AList.lookup_empty] at hentry
    cases hentry
  have hwan : wanIfindex uplinkTopology = some 2 := by decide +kernel
  obtain ⟨known', hknown', hname'⟩ := hostname_replaced ⟨["wan"], false, 1.0⟩ printerTick hinv hunowned
    ⟨⟨rfl, rfl, rfl⟩, hwan, rfl⟩
  have hsame : (run st'.runtime [op]).2.deviceRegistry.lookup (2, macWan) = some known' := hknown'
  rw [hknown] at hsame
  obtain rfl := Option.some.inj hsame
  rw [hname] at hname'
  exact absurd hname' (by decide)

/-- The name of a printer persists, although DHCP has another one for it. -/
theorem hostname_persists_printer : ∃ st', setDeviceHostname .listed bridgeTopology
      (serviceOf bridgeTopology "br-lan" "04:00:00:00:00:01") "br-lan" "04:00:00:00:00:01" " printer "
      1000000 = (.ok (), st') ∧
    let op : Op := .collect ⟨["br-lan"], false, 1.0⟩ bridgeTopology printerTick
    Named (3, printerMac) "printer" (run st'.runtime [op]).2.deviceRegistry ∧
      ∀ s ∈ (run st'.runtime [op]).1, RowsNamed (3, printerMac) "printer" s := by
  have hkey : Requests .listed bridgeTopology "br-lan" "04:00:00:00:00:01" (3, printerMac) := ⟨rfl, rfl⟩
  obtain ⟨st', hset⟩ := @setDeviceHostname_of_requests .listed bridgeTopology
    (serviceOf bridgeTopology "br-lan" "04:00:00:00:00:01") "br-lan" "04:00:00:00:00:01"
    (3, printerMac) hkey (by decide +kernel) " printer " (by decide) 1000000
  refine ⟨st', hset, ?_⟩
  have hreach : Reachable (serviceOf bridgeTopology "br-lan" "04:00:00:00:00:01").runtime :=
    .start .listed bridgeTopology (some (savedDevice "br-lan" "04:00:00:00:00:01")) ∅ ∅
  have htrim : trim " printer " = "printer" := by decide
  rw [← htrim]
  refine hostname_persists .listed bridgeTopology _ st' hreach _ _ _ 1000000 (3, printerMac) hkey
    (by decide) hset _ (fun op hop => ?_) (Or.inr fun op hop => ?_)
  · rw [List.mem_singleton.mp hop]
    trivial
  · rw [List.mem_singleton.mp hop]
    rintro ⟨-, -, hmac⟩
    exact absurd hmac (by decide)

end BandixPlus.Service.Hostnames
