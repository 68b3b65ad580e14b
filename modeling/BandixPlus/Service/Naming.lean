import BandixPlus.Monitor.WanRows
import BandixPlus.Persistence.History

/-! # The names in a snapshot

Ring files and saved devices are under the names of their interfaces. With a fixed topology every name that
the collector writes down is the one that the topology has for the interface.

* `RegistryOk`: each known device is under its own key, and has the name of its interface.
* `registryOk_collectSnapshot`, `rowOk_collectSnapshot`: a tick keeps that, and the rows of its snapshot
  have the names of their interfaces. -/

namespace BandixPlus.Service.Naming

open BandixPlus.Common BandixPlus.Lib.Maps
open BandixPlus.Monitor.Counters BandixPlus.Monitor.Snapshot BandixPlus.Monitor.Histogram
open BandixPlus.Monitor.Topology BandixPlus.Monitor.Runtime BandixPlus.Monitor.Interfaces
open BandixPlus.Monitor.Devices BandixPlus.Monitor.Ecm BandixPlus.Monitor.Collect
open BandixPlus.Monitor.Session BandixPlus.Monitor.Group BandixPlus.Monitor.Registry
open BandixPlus.Monitor.Cumulative BandixPlus.Net.Text BandixPlus.Persistence.History

/-- An interface of the topology, and its name. -/
def NamedIface (topology : TopologySnapshot) (ifindex : UInt32) (name : String) : Prop :=
  ∃ info, topology.byIfindex ifindex = some info ∧ name = info.name

/-- **Each known device is under its own key**, and has the name of its interface. -/
structure RegistryOk (topology : TopologySnapshot) (registry : HashMap DeviceKey KnownDevice) : Prop where
  keyed : Keyed registry
  named : ∀ key known, registry.lookup key = some known →
    NamedIface topology key.1 known.logicalIface

/-- A row is of the device of its key, and has the name of its interface. -/
def NamedRow (topology : TopologySnapshot) (key : DeviceKey) (item : DeviceListItem) : Prop :=
  KeyedRow key item ∧ NamedIface topology key.1 item.logicalIface

section
variable {topology : TopologySnapshot} {registry : HashMap DeviceKey KnownDevice}

theorem registryOk_empty : RegistryOk topology ∅ :=
  ⟨keyed_empty, fun key known h => by rw [AList.lookup_empty] at h; cases h⟩

theorem registryOk_insert (h : RegistryOk topology registry) {key : DeviceKey} {known : KnownDevice}
    (hkeyed : known.ifindex = key.1 ∧ known.mac = key.2)
    (hnamed : NamedIface topology key.1 known.logicalIface) :
    RegistryOk topology (registry.insert key known) := by
  refine ⟨keyed_insert h.keyed hkeyed, fun k d hd => ?_⟩
  rw [lookup_insert_eq] at hd
  split_ifs at hd with hk
  · rw [hk, ← Option.some.inj hd]
    exact hnamed
  · exact h.named k d hd

theorem registryOk_erase (h : RegistryOk topology registry) (key : DeviceKey) :
    RegistryOk topology (registry.erase key) := by
  constructor
  all_goals
    intro k d hd
    rw [lookup_erase_eq] at hd
    split_ifs at hd
  · exact h.keyed k d hd
  · exact h.named k d hd

/-! ### The devices of a tick -/

theorem aboutDevice_namedRow : AboutDevice (NamedRow topology) := fun key item item' hsame h => by
  refine ⟨aboutDevice_keyedRow key item item' hsame h.1, ?_⟩
  rw [hsame.logicalIface]
  exact h.2

theorem knownAll_namedRow (h : RegistryOk topology registry) :
    KnownAll (NamedRow topology) registry := fun key known hknown nowMs =>
  ⟨knownAll_keyedRow h.keyed key known hknown nowMs, h.named key known hknown⟩

theorem byIfindex_wanIfindex {i : UInt32} (h : wanIfindex topology = some i) :
    ∃ info, topology.byIfindex i = some info := by
  obtain ⟨info, hfind, rfl⟩ := Option.map_eq_some_iff.mp h
  exact ⟨info, mem_interfaces.mp (List.mem_of_find?_eq_some hfind)⟩

theorem wanAll_namedRow : WanAll (NamedRow topology) topology := by
  intro i hi nowMs
  obtain ⟨info, hinfo⟩ := byIfindex_wanIfindex hi
  refine ⟨wanAll_keyedRow topology i hi nowMs, info, hinfo, ?_⟩
  unfold wanItem
  rw [hinfo]
  rfl

theorem namedRow_neighborDevice {cfg : Config} {rt : MonitorRuntime} {nowMs : UInt64} {dev : String}
    {mac : Mac} {ips : NeighborIps} {key : DeviceKey} {item : DeviceListItem}
    (h : neighborDevice cfg topology rt nowMs dev mac ips = some (key, item)) :
    NamedRow topology key item := by
  obtain ⟨info, hinfo, hifindex, hmac, hname⟩ := neighborDevice_eq_some h
  exact ⟨⟨hifindex, hmac⟩, info, hinfo, hname⟩

theorem registryOk_registerDevices (h : RegistryOk topology registry) {devices : DevicesGroup}
    (hall : GroupAll (NamedRow topology) devices) (o : IterOrder) (nowMs : UInt64) :
    RegistryOk topology (registerDevices o nowMs devices registry) := by
  unfold registerDevices
  refine List.foldlRecOn (motive := RegistryOk topology) _ _ h fun m hm e he => ?_
  obtain ⟨⟨hifindex, -⟩, hnamed⟩ := hall e.1 e.2 (mem_order_iff.mp he)
  exact registryOk_insert hm ⟨hifindex, rfl⟩ hnamed

/-! ### The rows -/

theorem rowOk_of_namedRow {key : DeviceKey} {item : DeviceListItem} (h : NamedRow topology key item) :
    RowOk topology (.device item) := by
  obtain ⟨⟨hifindex, hmac⟩, hnamed⟩ := h
  unfold RowOk
  dsimp only
  rw [hifindex]
  exact ⟨hnamed, key.2, hmac⟩

theorem rowOk_deviceRows {rt : MonitorRuntime} (h : RegistryOk topology rt.deviceRegistry)
    {devices : DevicesGroup} (hall : GroupAll (NamedRow topology) devices) (cfg : Config)
    (o : IterOrder) : ∀ item ∈ deviceRows cfg o topology rt devices, RowOk topology (.device item) := by
  intro item hitem
  have hitem := List.mem_mergeSort.mp hitem
  rcases List.mem_append.mp hitem with hitem | hitem
  · obtain ⟨e, he, rfl⟩ := List.mem_map.mp hitem
    exact rowOk_of_namedRow (hall e.1 e.2 (mem_order_iff.mp he))
  · obtain ⟨e, he, rfl⟩ := List.mem_map.mp hitem
    have hlookup := mem_order_iff.mp (List.mem_of_mem_filter he)
    obtain ⟨hifindex, hmac⟩ := h.keyed e.1 e.2 hlookup
    exact @rowOk_of_namedRow topology e.1 _
      ⟨⟨hifindex, congrArg macToString hmac⟩, h.named e.1 e.2 hlookup⟩

theorem rowOk_interfaceLoop (cfg : Config) (o : IterOrder)
    (stats : HashMap InterfaceTrafficKey TrafficValue) (sec : Float) (rt : MonitorRuntime) :
    ∀ item ∈ (interfaceLoop cfg o topology stats sec rt).interfaces, RowOk topology (.iface item) := by
  unfold interfaceLoop
  refine List.foldlRecOn (motive := fun st : IfaceLoop =>
    ∀ item ∈ st.interfaces, RowOk topology (.iface item)) _ _
    (fun _ hitem => absurd hitem List.not_mem_nil) fun st hst iface hiface item hitem => ?_
  rcases List.mem_append.mp hitem with hitem | hitem
  · exact hst item hitem
  · obtain ⟨info, hinfo, hname⟩ := lookup_ifindexByName (mem_monitoredInterfaces _ hiface).1
    rw [List.mem_singleton.mp hitem]
    exact ⟨info, hinfo, hname.symm⟩

theorem rowOk_addWanRow {rt : MonitorRuntime} {rows : List InterfaceOverviewItem}
    (h : ∀ item ∈ rows, RowOk topology (.iface item)) :
    ∀ item ∈ addWanRow topology rt rows, RowOk topology (.iface item) := by
  intro item hitem
  unfold addWanRow at hitem
  split_ifs at hitem
  · exact h item hitem
  · split at hitem
    · exact h item hitem
    · next wan hwan =>
      rcases List.mem_append.mp hitem with hitem | hitem
      · exact h item hitem
      · rw [List.mem_singleton.mp hitem]
        exact ⟨wan, mem_interfaces.mp (List.mem_of_find?_eq_some hwan), rfl⟩

theorem rowOk_sameIface (row row' : InterfaceOverviewItem) (hsame : SameIface row row')
    (h : RowOk topology (.iface row)) : RowOk topology (.iface row') := by
  unfold RowOk at h ⊢
  dsimp only at h ⊢
  rw [hsame.ifindex, hsame.ifname]
  exact h

/-! ### The tick -/

theorem rows_of_snapshot {snapshot : SnapshotData}
    (hiface : ∀ item ∈ snapshot.interfaces, RowOk topology (.iface item))
    (hdevice : ∀ item ∈ snapshot.devices, RowOk topology (.device item)) :
    ∀ row ∈ rows snapshot, RowOk topology row := by
  intro row hrow
  unfold rows at hrow
  rcases List.mem_append.mp hrow with hrow | hrow
  · obtain ⟨item, hitem, rfl⟩ := List.mem_map.mp hrow
    exact hiface item hitem
  · obtain ⟨item, hitem, rfl⟩ := List.mem_map.mp hrow
    exact hdevice item hitem

section Tick
variable {rt : MonitorRuntime} (h : RegistryOk topology rt.deviceRegistry) (cfg : Config) (tick : Tick)

include h

theorem namedRow_onlineDevices :
    GroupAll (NamedRow topology) (onlineDevices cfg topology tick rt) :=
  groupAll_onlineDevices cfg topology tick aboutDevice_namedRow (knownAll_namedRow h) wanAll_namedRow
    fun _ _ _ _ _ _ _ _ => namedRow_neighborDevice

/-- **A tick keeps the names of the registry.** -/
theorem registryOk_collectSnapshot :
    RegistryOk topology (collectSnapshot cfg topology tick rt).2.deviceRegistry := by
  rw [deviceRegistry_collectSnapshot]
  exact registryOk_registerDevices h (namedRow_onlineDevices h cfg tick) tick.o tick.nowMs

/-- **The rows of a snapshot have the names of their interfaces.** -/
theorem rowOk_collectSnapshot {snapshot : SnapshotData}
    (hsnapshot : (collectSnapshot cfg topology tick rt).1 = some snapshot) :
    ∀ row ∈ rows snapshot, RowOk topology row := by
  have hall := namedRow_onlineDevices h cfg tick
  have hregistry := registryOk_registerDevices h hall tick.o tick.nowMs
  rcases onlineDevices_cases cfg topology tick rt with ⟨heq, -⟩ | ⟨ie, de, honline, heq⟩
  · rw [heq] at hsnapshot
    cases hsnapshot
  · let b := beforeEcm cfg topology tick rt (readStats ie) (readStats de)
    have hsettled : RegistryOk topology
        (settle topology tick b (hardware topology tick b)).2.deviceRegistry := by
      rw [deviceRegistry_settle, deviceRegistry_beforeEcm cfg topology tick (readStats ie) (readStats de),
        ← honline]
      exact hregistry
    rw [honline] at hall
    rw [heq] at hsnapshot
    obtain rfl := Option.some.inj hsnapshot
    refine rows_of_snapshot ?_ (rowOk_deviceRows hsettled hall cfg tick.o)
    exact all_interfaceRows rowOk_sameIface
      (rowOk_addWanRow (rowOk_interfaceLoop cfg tick.o _ _ _)) tick _

end Tick

end

end BandixPlus.Service.Naming
