import BandixPlus.Monitor.Session

/-! # What the loops of a tick keep of its devices

Between the neighbours and the registry several loops work on the group of a tick. They add known devices
and the WAN pseudo-device, and of a device that is there they change the traffic alone. Hence whatever
holds of the devices in the group, and does not depend on their traffic, stays true.

* `GrowsWith`: no device is lost, and each still satisfies the predicate.
* `growsWith_counterLoop`, `growsWith_hardware`, `growsWith_settle`: the loops of a tick.
* `all_interfaceRows`: likewise for the rows of the interfaces. -/

namespace BandixPlus.Monitor.Group

open BandixPlus.Common BandixPlus.Lib.Maps
open BandixPlus.Monitor.Counters BandixPlus.Monitor.Snapshot BandixPlus.Monitor.Topology
open BandixPlus.Monitor.Runtime BandixPlus.Monitor.Interfaces BandixPlus.Monitor.Devices
open BandixPlus.Monitor.Ecm BandixPlus.Monitor.Collect BandixPlus.Net.Text

/-! ### Predicates on devices -/

/-- Every device of the group satisfies `P`. -/
def GroupAll (P : DeviceKey → DeviceListItem → Prop) (devices : DevicesGroup) : Prop :=
  ∀ key item, devices.lookup key = some item → P key item

/-- Two rows of one device: the traffic, the addresses and the times may differ. -/
structure SameRow (item item' : DeviceListItem) : Prop where
  ifindex : item'.ifindex = item.ifindex
  mac : item'.mac = item.mac
  logicalIface : item'.logicalIface = item.logicalIface
  hostname : item'.hostname = item.hostname
  online : item.online = true → item'.online = true

/-- `P` is about which device a row is of. -/
def AboutDevice (P : DeviceKey → DeviceListItem → Prop) : Prop :=
  ∀ key item item', SameRow item item' → P key item → P key item'

/-- A known device satisfies `P` when it enters the group. -/
def KnownAll (P : DeviceKey → DeviceListItem → Prop) (registry : HashMap DeviceKey KnownDevice) : Prop :=
  ∀ key known, registry.lookup key = some known → ∀ nowMs, P key (activatedItem known nowMs)

/-- The WAN pseudo-device satisfies `P`. -/
def WanAll (P : DeviceKey → DeviceListItem → Prop) (topology : TopologySnapshot) : Prop :=
  ∀ ifindex, wanIfindex topology = some ifindex →
    ∀ nowMs, P (ifindex, macWan) (wanItem topology ifindex nowMs)

/-- **The group grows**: no device is lost, and each still satisfies `P`. -/
structure GrowsWith (P : DeviceKey → DeviceListItem → Prop) (devices devices' : DevicesGroup) : Prop where
  mem : ∀ key ∈ devices, key ∈ devices'
  all : GroupAll P devices → GroupAll P devices'

section
variable {P : DeviceKey → DeviceListItem → Prop}

theorem groupAll_empty : GroupAll P ∅ := fun key item h => by
  rw [AList.lookup_empty] at h
  cases h

theorem groupAll_insert {devices : DevicesGroup} (h : GroupAll P devices) {key : DeviceKey}
    {item : DeviceListItem} (hitem : P key item) : GroupAll P (devices.insert key item) := by
  intro k d hd
  rw [lookup_insert_eq] at hd
  split_ifs at hd with hk
  · rw [hk, ← Option.some.inj hd]
    exact hitem
  · exact h k d hd

theorem GrowsWith.refl (devices : DevicesGroup) : GrowsWith P devices devices :=
  ⟨fun _ h => h, fun h => h⟩

theorem GrowsWith.trans {devices devices' devices'' : DevicesGroup} (h : GrowsWith P devices devices')
    (h' : GrowsWith P devices' devices'') : GrowsWith P devices devices'' :=
  ⟨fun key hkey => h'.mem key (h.mem key hkey), fun hall => h'.all (h.all hall)⟩

theorem growsWith_insert (devices : DevicesGroup) {key : DeviceKey} {item : DeviceListItem}
    (hitem : GroupAll P devices → P key item) : GrowsWith P devices (devices.insert key item) :=
  ⟨fun _ hkey => (AList.mem_insert _).mpr (Or.inr hkey), fun h => groupAll_insert h (hitem h)⟩

theorem growsWith_modify (hP : AboutDevice P) (devices : DevicesGroup) (key : DeviceKey)
    {f : DeviceListItem → DeviceListItem} (hf : ∀ item, SameRow item (f item)) :
    GrowsWith P devices (modify key f devices) := by
  unfold Lib.Maps.modify
  split
  · next item hitem => exact growsWith_insert devices fun h => hP key item _ (hf item) (h key item hitem)
  · exact GrowsWith.refl _

theorem growsWith_activateKnownDevice {registry : HashMap DeviceKey KnownDevice}
    (h : KnownAll P registry) (devices : DevicesGroup) (key : DeviceKey) (nowMs : UInt64) :
    GrowsWith P devices (activateKnownDevice devices registry key nowMs) := by
  unfold activateKnownDevice
  split_ifs
  · exact GrowsWith.refl _
  · split
    · next known hknown => exact growsWith_insert devices fun _ => h key known hknown nowMs
    · exact GrowsWith.refl _

/-! ### The neighbours -/

/-- A neighbour is on an interface of the topology, and its row has the name of it. -/
theorem neighborDevice_eq_some {cfg : Config} {topology : TopologySnapshot} {rt : MonitorRuntime}
    {nowMs : UInt64} {dev : String} {mac : Mac} {ips : NeighborIps} {key : DeviceKey}
    {item : DeviceListItem} (h : neighborDevice cfg topology rt nowMs dev mac ips = some (key, item)) :
    ∃ iface, topology.byIfindex key.1 = some iface ∧ item.ifindex = key.1 ∧
      item.mac = macToString key.2 ∧ item.logicalIface = iface.name := by
  unfold neighborDevice at h
  split at h
  · cases h
  · split at h
    · cases h
    · next iface hiface =>
      split_ifs at h
      obtain ⟨rfl, rfl⟩ := Prod.mk.inj (Option.some.inj h)
      exact ⟨iface, hiface, rfl, rfl, rfl⟩

theorem online_neighborDevice {cfg : Config} {topology : TopologySnapshot} {rt : MonitorRuntime}
    {nowMs : UInt64} {dev : String} {mac : Mac} {ips : NeighborIps} {key : DeviceKey}
    {item : DeviceListItem} (h : neighborDevice cfg topology rt nowMs dev mac ips = some (key, item)) :
    item.online = true := by
  unfold neighborDevice at h
  split at h
  · cases h
  · split at h
    · cases h
    · split_ifs at h
      obtain ⟨rfl, rfl⟩ := Prod.mk.inj (Option.some.inj h)
      rfl

theorem groupAll_neighborDevices {cfg : Config} {topology : TopologySnapshot} {rt : MonitorRuntime}
    {nowMs : UInt64} (h : ∀ dev mac ips key item,
      neighborDevice cfg topology rt nowMs dev mac ips = some (key, item) → P key item) (o : IterOrder)
    (groups : HashMap (String × Mac) NeighborIps) :
    GroupAll P (neighborDevices cfg o topology rt nowMs groups) := by
  unfold neighborDevices
  refine List.foldlRecOn (motive := GroupAll P) _ _ groupAll_empty fun m hm e _ => ?_
  split
  · next key item hitem => exact groupAll_insert hm (h _ _ _ key item hitem)
  · exact hm

/-! ### The loops over the counters -/

theorem sameRow_fillDevice (ipVersion direction : UInt8) (delta : UInt64) (sec : Float)
    (item : DeviceListItem) : SameRow item (fillDevice ipVersion direction delta sec item) :=
  ⟨rfl, rfl, rfl, rfl, fun h => h⟩

theorem growsWith_attributeCounter (hP : AboutDevice P) (wan : Option UInt32) (k : DeviceTrafficKey)
    (delta : UInt64) (sec : Float) (devices : DevicesGroup) (b : Breakdown) :
    GrowsWith P devices (attributeCounter wan k delta sec devices b).1 := by
  unfold attributeCounter
  dsimp only
  split_ifs
  · exact GrowsWith.refl _
  · exact GrowsWith.refl _
  · exact growsWith_modify hP devices _ (sameRow_fillDevice _ _ _ _)
  · exact GrowsWith.refl _
  · exact GrowsWith.refl _

theorem growsWith_counterStep (hP : AboutDevice P) {registry : HashMap DeviceKey KnownDevice}
    (h : KnownAll P registry) (wan : Option UInt32) (nowMs : UInt64) (sec : Float) (prune : Bool)
    (st : CounterLoop) (k : DeviceTrafficKey) (v : TrafficValue) :
    GrowsWith P st.devices (counterStep registry wan nowMs sec prune st k v).devices := by
  unfold counterStep
  dsimp only
  by_cases hdelta : deltaBytes v.bytes ((st.prevDeviceBytes.lookup k).getD 0) = 0
  · rw [if_pos hdelta]
    exact GrowsWith.refl _
  · rw [if_neg hdelta]
    by_cases hlan : some k.ifindex ≠ wan ∧ !isMulticastMac k.mac
    · rw [if_pos hlan]
      exact (growsWith_activateKnownDevice h st.devices _ nowMs).trans
        (growsWith_attributeCounter hP wan k _ sec _ _)
    · rw [if_neg hlan]
      exact growsWith_attributeCounter hP wan k _ sec _ _

theorem growsWith_counterLoop (hP : AboutDevice P) {rt : MonitorRuntime}
    (h : KnownAll P rt.deviceRegistry) (tick : Tick) (topology : TopologySnapshot) (sec : Float)
    (prune : Bool) (stats : HashMap DeviceTrafficKey TrafficValue) (devices : DevicesGroup) :
    GrowsWith P devices (counterLoop tick topology rt sec prune stats devices).devices := by
  unfold counterLoop
  exact List.foldlRecOn (motive := fun s : CounterLoop => GrowsWith P devices s.devices) _ _
    (GrowsWith.refl _) fun s hs e _ => hs.trans (growsWith_counterStep hP h _ _ _ _ s e.1 e.2)

theorem growsWith_attributeEcm (hP : AboutDevice P) {registry : HashMap DeviceKey KnownDevice}
    (h : KnownAll P registry) (nowMs : UInt64) (sec : Float) (key : EcmTrafficKey) (delta : UInt64)
    (st : EcmLoop) (whose : Attribution) :
    GrowsWith P st.devices (attributeEcm registry nowMs sec key delta st whose).devices := by
  cases whose with
  | owner device =>
    have hactivate := growsWith_activateKnownDevice h st.devices device nowMs
    unfold attributeEcm
    dsimp only
    split_ifs
    · exact hactivate.trans (growsWith_modify hP _ _ (sameRow_fillDevice _ _ _ _))
    · exact hactivate
  | ownWan => exact GrowsWith.refl _
  | subnet ifindex => exact GrowsWith.refl _
  | global => exact GrowsWith.refl _
  | external => exact GrowsWith.refl _

theorem growsWith_ecmStep (hP : AboutDevice P) {registry : HashMap DeviceKey KnownDevice}
    (h : KnownAll P registry) (whose : EcmTrafficKey → Attribution) (nowMs : UInt64) (sec : Float)
    (st : EcmLoop) (key : EcmTrafficKey) (value : TrafficValue) :
    GrowsWith P st.devices (ecmStep registry whose nowMs sec st key value).devices := by
  have hattribute := growsWith_attributeEcm hP h nowMs sec key
    (ecmDelta st.base key value.bytes nowMs).1
    { st with base := (ecmDelta st.base key value.bytes nowMs).2 } (whose key)
  unfold ecmStep
  dsimp only
  split_ifs
  · exact GrowsWith.refl _
  · exact GrowsWith.refl _
  · exact hattribute

theorem growsWith_hardware (hP : AboutDevice P) {b : BeforeEcm} (h : KnownAll P b.rt.deviceRegistry)
    (topology : TopologySnapshot) (tick : Tick) :
    GrowsWith P b.devices (hardware topology tick b).devices := by
  unfold hardware ecmLoop
  exact List.foldlRecOn (motive := fun s : EcmLoop => GrowsWith P b.devices s.devices) _ _
    (GrowsWith.refl _) fun s hs e _ => hs.trans (growsWith_ecmStep hP h _ _ _ s e.1 e.2)

/-! ### The totals -/

theorem growsWith_addWanDevice (hP : AboutDevice P) {topology : TopologySnapshot}
    (hwan : WanAll P topology) (nowMs : UInt64) (wanTc wanEcm : CounterQuad) (devices : DevicesGroup)
    (ecmDevices : List DeviceKey) :
    GrowsWith P devices (addWanDevice topology nowMs wanTc wanEcm devices ecmDevices).1 := by
  unfold addWanDevice
  split
  · exact GrowsWith.refl _
  · next ifindex hifindex =>
    refine growsWith_insert devices fun hall => hP _
      ((devices.lookup (ifindex, macWan)).getD (wanItem topology ifindex nowMs)) _
      ⟨rfl, rfl, rfl, rfl, fun _ => rfl⟩ ?_
    cases hitem : devices.lookup (ifindex, macWan) with
    | none => exact hwan ifindex hifindex nowMs
    | some item => exact hall _ item hitem

theorem growsWith_settleStep (hP : AboutDevice P) (ecmDevices : List DeviceKey) (st : SettleLoop)
    {key : DeviceKey} {dev : DeviceListItem} (hdev : P key dev) :
    GrowsWith P st.devices (settleStep ecmDevices st key dev).devices := by
  unfold settleStep
  dsimp only
  split
  · exact growsWith_insert _ fun _ => hP key dev _ ⟨rfl, rfl, rfl, rfl, fun h => h⟩ hdev
  · exact growsWith_insert _ fun _ => hP key dev _ ⟨rfl, rfl, rfl, rfl, fun h => h⟩ hdev

theorem growsWith_settleDevices (hP : AboutDevice P) {devices : DevicesGroup}
    (hall : GroupAll P devices) (o : IterOrder) (rt : MonitorRuntime) (ecmDevices : List DeviceKey) :
    GrowsWith P devices (settleDevices o rt devices ecmDevices).1 := by
  unfold settleDevices
  dsimp only
  refine List.foldlRecOn (motive := fun s : SettleLoop => GrowsWith P devices s.devices) _ _
    (GrowsWith.refl _) fun s hs e he => hs.trans ?_
  exact growsWith_settleStep hP ecmDevices s (hall e.1 e.2 (mem_order_iff.mp he))

theorem growsWith_settle (hP : AboutDevice P) {topology : TopologySnapshot} (hwan : WanAll P topology)
    {b : BeforeEcm} {e : EcmLoop} (hall : GroupAll P e.devices) (tick : Tick) :
    GrowsWith P e.devices (settle topology tick b e).1 := by
  have hdevice := growsWith_addWanDevice hP hwan tick.nowMs b.wanTcMetrics e.wanEcmMetrics e.devices
    e.ecmDevices
  exact hdevice.trans (growsWith_settleDevices hP (hdevice.all hall) tick.o _ _)

end

/-! ### The rows of the interfaces -/

/-- Two rows of one interface: the traffic may differ. -/
structure SameIface (row row' : InterfaceOverviewItem) : Prop where
  ifindex : row'.ifindex = row.ifindex
  ifname : row'.ifname = row.ifname
  zone : row'.zone = row.zone

theorem SameIface.trans {row row' row'' : InterfaceOverviewItem} (h : SameIface row row')
    (h' : SameIface row' row'') : SameIface row row'' :=
  ⟨h'.ifindex.trans h.ifindex, h'.ifname.trans h.ifname, h'.zone.trans h.zone⟩

theorem sameIface_injectRow (x : Injection) (rt : MonitorRuntime) (row : InterfaceOverviewItem) :
    SameIface row (injectRow x rt row).1 := by
  have hlan : SameIface row (injectLan x.lanShown x.lanMetrics rt row).1 := by
    unfold injectLan
    split <;> exact ⟨rfl, rfl, rfl⟩
  have hunresolved : ∀ rt row, SameIface row
      (injectUnresolved x.unresolvedShown x.unresolvedMetrics rt row).1 := fun _ _ => ⟨rfl, rfl, rfl⟩
  have hwan : ∀ rt row, SameIface row (injectWan x.wan x.wanShown x.wanMetrics rt row).1 := by
    intro rt row
    unfold injectWan
    split_ifs <;> exact ⟨rfl, rfl, rfl⟩
  exact (hlan.trans (hunresolved _ _)).trans (hwan _ _)

section
variable {P : InterfaceOverviewItem → Prop}

theorem all_eachRow
    {f : MonitorRuntime → InterfaceOverviewItem → InterfaceOverviewItem × MonitorRuntime}
    (hf : ∀ rt row, P row → P (f rt row).1) {rows : List InterfaceOverviewItem} (rt : MonitorRuntime)
    (h : ∀ row ∈ rows, P row) : ∀ row ∈ (eachRow f rt rows).1, P row := by
  induction rows generalizing rt with
  | nil => exact fun row hrow => absurd hrow List.not_mem_nil
  | cons first rest ih =>
    obtain ⟨hfirst, hrest⟩ := List.forall_mem_cons.mp h
    exact List.forall_mem_cons.mpr ⟨hf rt first hfirst, ih _ hrest⟩

/-- After the row of the WAN interface is there, the rows change in their traffic alone. -/
theorem all_interfaceRows (hP : ∀ row row', SameIface row row' → P row → P row')
    {topology : TopologySnapshot} {b : BeforeEcm} {rt : MonitorRuntime}
    (h : ∀ row ∈ addWanRow topology rt b.interfaces, P row) (tick : Tick) (e : EcmLoop) :
    ∀ row ∈ (interfaceRows topology tick b e rt).1, P row := by
  have hbreakdown := all_eachRow (f := breakdownStep b.breakdown)
    (fun _ row => hP row _ ⟨rfl, rfl, rfl⟩) rt h
  unfold interfaceRows
  dsimp only
  split_ifs
  · exact all_eachRow (fun rt row => hP row _ (sameIface_injectRow _ rt row)) _ hbreakdown
  · exact hbreakdown

end

end BandixPlus.Monitor.Group
