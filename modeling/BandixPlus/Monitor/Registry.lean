import BandixPlus.Monitor.Group

/-! # A tick and the known devices

* `Grows`: the loops of a tick add devices to its group and keep those that are there.
* `mem_neighborDevices`: the device of every neighbour of the LAN side is in the group.
* `observe_spec`: who owns an address, after the neighbours are observed, is on an interface of the
  topology and is known or in the group.
* `runtimeInv_reachable`: the invariant holds in every reachable state. -/

namespace BandixPlus.Monitor.Registry

open BandixPlus.Common BandixPlus.Lib.Maps
open BandixPlus.Monitor.Counters BandixPlus.Monitor.Snapshot BandixPlus.Monitor.Topology
open BandixPlus.Monitor.Runtime BandixPlus.Monitor.Neighbors BandixPlus.Monitor.Interfaces
open BandixPlus.Monitor.Devices BandixPlus.Monitor.Ecm BandixPlus.Monitor.Collect
open BandixPlus.Monitor.Session BandixPlus.Monitor.Group BandixPlus.Net.Text

/-! ### The group of a tick -/

/-- A device is under its own key. -/
def GroupKeyed (devices : DevicesGroup) : Prop :=
  ∀ key item, devices.lookup key = some item → item.ifindex = key.1 ∧ item.mac = macToString key.2

/-- **The group grows**: no device is lost, and each is still under its key. -/
structure Grows (devices devices' : DevicesGroup) : Prop where
  mem : ∀ key ∈ devices, key ∈ devices'
  keyed : GroupKeyed devices → GroupKeyed devices'

theorem Grows.trans {devices devices' devices'' : DevicesGroup} (h : Grows devices devices')
    (h' : Grows devices' devices'') : Grows devices devices'' :=
  ⟨fun key hkey => h'.mem key (h.mem key hkey), fun hkeyed => h'.keyed (h.keyed hkeyed)⟩

/-- A row is of the device of its key. -/
def KeyedRow (key : DeviceKey) (item : DeviceListItem) : Prop :=
  item.ifindex = key.1 ∧ item.mac = macToString key.2

theorem aboutDevice_keyedRow : AboutDevice KeyedRow := fun _ _ _ hsame h =>
  ⟨hsame.ifindex.trans h.1, hsame.mac.trans h.2⟩

theorem knownAll_keyedRow {registry : HashMap DeviceKey KnownDevice} (h : Keyed registry) :
    KnownAll KeyedRow registry := fun key known hknown _ =>
  ⟨(h key known hknown).1, congrArg macToString (h key known hknown).2⟩

theorem wanAll_keyedRow (topology : TopologySnapshot) : WanAll KeyedRow topology :=
  fun _ _ _ => ⟨rfl, rfl⟩

theorem grows_of_growsWith {devices devices' : DevicesGroup} (h : GrowsWith KeyedRow devices devices') :
    Grows devices devices' := ⟨h.mem, h.all⟩

theorem mem_activateKnownDevice {registry : HashMap DeviceKey KnownDevice} {devices : DevicesGroup}
    {key : DeviceKey} (h : key ∈ registry ∨ key ∈ devices) (nowMs : UInt64) :
    key ∈ activateKnownDevice devices registry key nowMs := by
  unfold activateKnownDevice
  split_ifs with hmem
  · exact hmem
  · obtain ⟨known, hknown⟩ := mem_iff_lookup.mp (h.resolve_right hmem)
    rw [hknown]
    exact (AList.mem_insert _).mpr (Or.inl rfl)

/-! ### The loops over the counters -/

theorem grows_counterLoop {rt : MonitorRuntime} (h : Keyed rt.deviceRegistry) (tick : Tick)
    (topology : TopologySnapshot) (sec : Float) (prune : Bool)
    (stats : HashMap DeviceTrafficKey TrafficValue) (devices : DevicesGroup) :
    Grows devices (counterLoop tick topology rt sec prune stats devices).devices :=
  grows_of_growsWith
    (growsWith_counterLoop aboutDevice_keyedRow (knownAll_keyedRow h) tick topology sec prune stats devices)

theorem devices_pruneCounters (removed : DeviceTrafficKey → Bool) (st : CounterLoop) :
    (pruneCounters removed st).devices = st.devices := by
  unfold pruneCounters
  exact List.foldlRecOn (motive := fun s : CounterLoop => s.devices = st.devices) _ _ rfl
    fun _ h _ _ => h

theorem grows_hardware {b : BeforeEcm} (h : Keyed b.rt.deviceRegistry) (topology : TopologySnapshot)
    (tick : Tick) : Grows b.devices (hardware topology tick b).devices :=
  grows_of_growsWith
    (growsWith_hardware aboutDevice_keyedRow (knownAll_keyedRow h) topology tick)

theorem grows_addWanDevice (topology : TopologySnapshot) (nowMs : UInt64)
    (wanTc wanEcm : CounterQuad) (devices : DevicesGroup) (ecmDevices : List DeviceKey) :
    Grows devices (addWanDevice topology nowMs wanTc wanEcm devices ecmDevices).1 :=
  grows_of_growsWith (growsWith_addWanDevice aboutDevice_keyedRow (wanAll_keyedRow topology) nowMs wanTc
    wanEcm devices ecmDevices)

theorem grows_settleDevices {devices : DevicesGroup} (hkeyed : GroupKeyed devices) (o : IterOrder)
    (rt : MonitorRuntime) (ecmDevices : List DeviceKey) :
    Grows devices (settleDevices o rt devices ecmDevices).1 :=
  grows_of_growsWith (growsWith_settleDevices aboutDevice_keyedRow hkeyed o rt ecmDevices)

theorem grows_settle {b : BeforeEcm} {e : EcmLoop} (hkeyed : GroupKeyed e.devices)
    (topology : TopologySnapshot) (tick : Tick) :
    Grows e.devices (settle topology tick b e).1 :=
  grows_of_growsWith
    (growsWith_settle aboutDevice_keyedRow (wanAll_keyedRow topology) hkeyed tick)

/-! ### The registry after a tick -/

theorem mem_registerDevices {o : IterOrder} {nowMs : UInt64} {devices : DevicesGroup}
    {registry : HashMap DeviceKey KnownDevice} {key : DeviceKey} (h : key ∈ registry ∨ key ∈ devices) :
    key ∈ registerDevices o nowMs devices registry := by
  refine mem_foldl (fun m e k hk => (AList.mem_insert _).mpr (Or.inr hk)) _ (h.imp_right fun hmem => ?_)
  obtain ⟨item, hitem⟩ := mem_iff_lookup.mp hmem
  exact ⟨⟨key, item⟩, mem_order_iff.mpr hitem, fun m => (AList.mem_insert _).mpr (Or.inl rfl)⟩

/-- A device that is online has a new entry, any other keeps its own. -/
theorem lookup_registerDevices (o : IterOrder) (nowMs : UInt64) (devices : DevicesGroup)
    (registry : HashMap DeviceKey KnownDevice) (key : DeviceKey) :
    (registerDevices o nowMs devices registry).lookup key =
      ((devices.lookup key).map fun item => knownDevice key item nowMs).or (registry.lookup key) := by
  have hnodup : (o.order devices.entries).NodupKeys := nodup_order_keys o devices
  unfold registerDevices
  rw [lookup_foldl_insert (fun key item => knownDevice key item nowMs) key hnodup, dlookup_order]

theorem keyed_registerDevices {devices : DevicesGroup} (hkeyed : GroupKeyed devices)
    {registry : HashMap DeviceKey KnownDevice} (h : Keyed registry) (o : IterOrder) (nowMs : UInt64) :
    Keyed (registerDevices o nowMs devices registry) :=
  List.foldlRecOn _ _ h fun _ hm e he =>
    keyed_insert hm ⟨(hkeyed e.1 e.2 (mem_order_iff.mp he)).1, rfl⟩

theorem deviceRegistry_settle (topology : TopologySnapshot) (tick : Tick) (b : BeforeEcm)
    (e : EcmLoop) : (settle topology tick b e).2.deviceRegistry =
      registerDevices tick.o tick.nowMs (settle topology tick b e).1 b.rt.deviceRegistry := rfl

/-! ### The neighbours -/

theorem mem_ips_addIp (n : FilteredNeighborEntry) (ips : NeighborIps) :
    (addIp n ips).ipv4 ≠ [] ∨ (addIp n ips).ipv6 ≠ [] := by
  have hpush : ∀ l : List String, (if n.ip ∈ l then l else l ++ [n.ip]) ≠ [] := by
    intro l hl
    split_ifs at hl with hmem
    · rw [hl] at hmem
      exact absurd hmem List.not_mem_nil
    · simp at hl
  unfold addIp
  dsimp only
  by_cases hcolon : ':' ∈ n.ip.toList
  · rw [if_pos hcolon]
    exact Or.inr (hpush _)
  · rw [if_neg hcolon]
    exact Or.inl (hpush _)

/-- A neighbour is in its group, and no group is without an address. -/
theorem lookup_groupNeighbors {neighbors : List FilteredNeighborEntry} {n : FilteredNeighborEntry}
    (h : n ∈ hostNeighbors neighbors) :
    ∃ ips, (groupNeighbors neighbors).lookup (n.dev, n.mac) = some ips ∧
      (ips.ipv4 ≠ [] ∨ ips.ipv6 ≠ []) := by
  have hmem : (n.dev, n.mac) ∈ groupNeighbors neighbors :=
    mem_foldl (fun m a k hk => mem_upsert.mpr (Or.inr hk)) _
      (Or.inr ⟨n, h, fun m => mem_upsert.mpr (Or.inl rfl)⟩)
  have hsome : ∀ k ips, (groupNeighbors neighbors).lookup k = some ips →
      ips.ipv4 ≠ [] ∨ ips.ipv6 ≠ [] := by
    unfold groupNeighbors
    refine List.foldlRecOn (motive := fun m : HashMap (String × Mac) NeighborIps =>
      ∀ k ips, m.lookup k = some ips → ips.ipv4 ≠ [] ∨ ips.ipv6 ≠ []) _ _ ?_ fun m hm a _ k ips hips => ?_
    · intro k ips hips
      rw [AList.lookup_empty] at hips
      cases hips
    · rw [lookup_upsert_eq] at hips
      split_ifs at hips
      · rw [← Option.some.inj hips]
        exact mem_ips_addIp a _
      · exact hm k ips hips
  obtain ⟨ips, hips⟩ := mem_iff_lookup.mp hmem
  exact ⟨ips, hips, hsome _ ips hips⟩

/-- An interface that is found by a name has it. -/
theorem lookup_ifindexByName {topology : TopologySnapshot} {name : String} {ifindex : UInt32}
    (h : (ifindexByName topology).lookup name = some ifindex) :
    ∃ iface, topology.byIfindex ifindex = some iface ∧ iface.name = name := by
  have hfold : ∀ name ifindex, (ifindexByName topology).lookup name = some ifindex →
      ∃ iface ∈ topology.interfaces, iface.name = name ∧ iface.ifindex = ifindex := by
    unfold ifindexByName
    refine List.foldlRecOn (motive := fun m : HashMap String UInt32 =>
      ∀ name ifindex, m.lookup name = some ifindex →
        ∃ iface ∈ topology.interfaces, iface.name = name ∧ iface.ifindex = ifindex) _ _ ?_
      fun m hm iface hiface name ifindex hlookup => ?_
    · intro name ifindex hlookup
      rw [AList.lookup_empty] at hlookup
      cases hlookup
    · rw [lookup_insert_eq] at hlookup
      split_ifs at hlookup with hname
      · exact ⟨iface, hiface, hname.symm, Option.some.inj hlookup⟩
      · exact hm name ifindex hlookup
  obtain ⟨iface, hmem, hname, rfl⟩ := hfold name ifindex h
  exact ⟨iface, mem_interfaces.mp hmem, hname⟩

/-- **The device of a neighbour of the LAN side is in the group.** -/
theorem mem_neighborDevices {cfg : Config} {topology : TopologySnapshot}
    {neighbors : List FilteredNeighborEntry} {n : FilteredNeighborEntry}
    (hn : n ∈ hostNeighbors neighbors) (hmonitored : n.dev ∈ cfg.monitorIfaces) {ifindex : UInt32}
    (hifindex : (ifindexByName topology).lookup n.dev = some ifindex) {iface : Interface}
    (hiface : topology.byIfindex ifindex = some iface) (hlan : wanZone iface = false) (o : IterOrder)
    (rt : MonitorRuntime) (nowMs : UInt64) :
    (ifindex, n.mac) ∈ neighborDevices cfg o topology rt nowMs (groupNeighbors neighbors) := by
  obtain ⟨ips, hips, hany⟩ := lookup_groupNeighbors hn
  obtain ⟨iface', hiface', hname⟩ := lookup_ifindexByName hifindex
  have hsame : iface' = iface := Option.some.inj (hiface'.symm.trans hiface)
  have hitem : ∃ item, neighborDevice cfg topology rt nowMs n.dev n.mac ips =
      some ((ifindex, n.mac), item) := by
    unfold neighborDevice
    rw [hifindex]
    dsimp only
    rw [hiface]
    dsimp only
    rw [if_neg (ne_true_of_eq_false hlan), if_neg, if_neg]
    · exact ⟨_, rfl⟩
    · rintro ⟨h4, h6⟩
      exact hany.elim (fun h => h h4) fun h => h h6
    · rintro ⟨-, hnot⟩
      rw [← hsame, hname] at hnot
      exact hnot hmonitored
  obtain ⟨item, hitem⟩ := hitem
  refine mem_foldl (fun m e k hk => ?_) _
    (Or.inr ⟨⟨(n.dev, n.mac), ips⟩, mem_order_iff.mpr hips, fun m => ?_⟩)
  · split
    · exact (AList.mem_insert _).mpr (Or.inr hk)
    · exact hk
  · dsimp only
    rw [hitem]
    exact (AList.mem_insert _).mpr (Or.inl rfl)

theorem groupKeyed_neighborDevices (cfg : Config) (o : IterOrder) (topology : TopologySnapshot)
    (rt : MonitorRuntime) (nowMs : UInt64) (groups : HashMap (String × Mac) NeighborIps) :
    GroupKeyed (neighborDevices cfg o topology rt nowMs groups) :=
  groupAll_neighborDevices (P := KeyedRow) (fun _ _ _ _ _ h => by
    obtain ⟨-, -, hifindex, hmac, -⟩ := neighborDevice_eq_some h
    exact ⟨hifindex, hmac⟩) o groups

/-! ### The owners -/

/-- **Who owns an address** is on an interface of the topology, and is known or in the group. -/
def OwnersIn (topology : TopologySnapshot) (registry : HashMap DeviceKey KnownDevice)
    (devices : DevicesGroup) (ownership : HashMap EcmAddress NeighborOwnership) : Prop :=
  ∀ address entry key, ownership.lookup address = some entry → entry.device = some key →
    (topology.byIfindex key.1).isSome ∧ (key ∈ registry ∨ key ∈ devices)

theorem ownersIn_retainOwnership {registry : HashMap DeviceKey KnownDevice}
    {ownership : HashMap EcmAddress NeighborOwnership}
    (h : ∀ address entry key, ownership.lookup address = some entry → entry.device = some key →
      key ∈ registry) (topology : TopologySnapshot) (devices : DevicesGroup) (nowMs : UInt64) :
    OwnersIn topology registry devices (retainOwnership topology nowMs ownership) := by
  intro address entry key hentry hkey
  unfold retainOwnership at hentry
  rw [lookup_retain, Option.filter_eq_some_iff] at hentry
  obtain ⟨hentry, hkeep⟩ := hentry
  obtain ⟨-, hiface⟩ := Bool.and_eq_true_iff.mp hkeep
  rw [hkey] at hiface
  exact ⟨hiface, Or.inl (h address entry key hentry hkey)⟩

theorem ownersIn_observeNeighbor {topology : TopologySnapshot}
    {registry : HashMap DeviceKey KnownDevice} {devices : DevicesGroup}
    {cache : HashMap EcmAddress NeighborOwnership} (h : OwnersIn topology registry devices cache)
    {device : DeviceKey} (hiface : (topology.byIfindex device.1).isSome)
    (hdevice : device ∈ registry ∨ device ∈ devices) (address : EcmAddress)
    (observedMs tick : UInt64) :
    OwnersIn topology registry devices (observeNeighbor cache address device observedMs tick) := by
  intro a entry key hentry hkey
  unfold observeNeighbor at hentry
  dsimp only at hentry
  rw [lookup_insert_eq] at hentry
  split_ifs at hentry
  -- the observed address has this device or none
  · rw [← Option.some.inj hentry] at hkey
    exact Option.some.inj hkey ▸ ⟨hiface, hdevice⟩
  · rw [← Option.some.inj hentry] at hkey
    cases hkey
  · rw [← Option.some.inj hentry] at hkey
    exact Option.some.inj hkey ▸ ⟨hiface, hdevice⟩
  · exact h a entry key hentry hkey

/-- **What every observed neighbour keeps.** A neighbour is only observed on an interface of the
topology that is not of the WAN side. -/
theorem observeNeighbors_keeps {P : HashMap EcmAddress NeighborOwnership → Prop}
    {topology : TopologySnapshot} {neighbors : List FilteredNeighborEntry} {nowMs : UInt64}
    (hobserve : ∀ ownership, P ownership → ∀ n ∈ hostNeighbors neighbors, ∀ ifindex iface,
      (ifindexByName topology).lookup n.dev = some ifindex → topology.byIfindex ifindex = some iface →
      wanZone iface = false → ∀ address observedMs,
        P (observeNeighbor ownership address (ifindex, n.mac) observedMs nowMs))
    {ownership : HashMap EcmAddress NeighborOwnership} (h : P ownership) (ipv6FetchMs : UInt64) :
    P (observeNeighbors topology nowMs ipv6FetchMs ownership neighbors) := by
  unfold observeNeighbors
  refine List.foldlRecOn (motive := P) _ _ h fun m hm n hn => ?_
  unfold observeStep
  split
  · exact hm
  · next iface hiface =>
    obtain ⟨hiface, hlan⟩ := Option.filter_eq_some_iff.mp hiface
    split
    · next address ifindex _ hifindex =>
      unfold ifaceOf at hiface
      rw [hifindex] at hiface
      exact hobserve m hm n hn ifindex iface hifindex hiface (by simpa using hlan) address _
    · exact hm

theorem ownersIn_observeNeighbors {topology : TopologySnapshot}
    {registry : HashMap DeviceKey KnownDevice} {devices : DevicesGroup}
    {ownership : HashMap EcmAddress NeighborOwnership}
    (h : OwnersIn topology registry devices ownership) {neighbors : List FilteredNeighborEntry}
    (hdevices : ∀ n ∈ hostNeighbors neighbors, ∀ ifindex iface,
      (ifindexByName topology).lookup n.dev = some ifindex → topology.byIfindex ifindex = some iface →
      wanZone iface = false → (ifindex, n.mac) ∈ devices) (nowMs ipv6FetchMs : UInt64) :
    OwnersIn topology registry devices
      (observeNeighbors topology nowMs ipv6FetchMs ownership neighbors) := by
  refine observeNeighbors_keeps (fun m hm n hn ifindex iface hifindex hiface hlan _ _ => ?_) h _
  refine ownersIn_observeNeighbor hm (Option.isSome_of_eq_some hiface) (Or.inr ?_) _ _ _
  exact hdevices n hn ifindex iface hifindex hiface hlan

/-! ### The steps of a tick that leave the devices alone -/

/-- The known devices, their totals and the host names are the same, and no address has a new owner. -/
structure Frame (rt rt' : MonitorRuntime) : Prop where
  registry : rt'.deviceRegistry = rt.deviceRegistry
  device : rt'.cumulativeDevice = rt.cumulativeDevice
  hostnames : rt'.cachedHostnames = rt.cachedHostnames
  owners : ∀ address entry, rt'.neighborOwnership.lookup address = some entry →
    rt.neighborOwnership.lookup address = some entry

theorem Frame.refl (rt : MonitorRuntime) : Frame rt rt := ⟨rfl, rfl, rfl, fun _ _ h => h⟩

theorem Frame.trans {rt rt' rt'' : MonitorRuntime} (h : Frame rt rt') (h' : Frame rt' rt'') :
    Frame rt rt'' :=
  ⟨h'.registry.trans h.registry, h'.device.trans h.device, h'.hostnames.trans h.hostnames,
    fun address entry hentry => h.owners address entry (h'.owners address entry hentry)⟩

theorem frame_readEcm (cfg : Config) (topology : TopologySnapshot) (tick : Tick)
    (rt : MonitorRuntime) : Frame rt (readEcm cfg topology tick rt).2 := by
  unfold readEcm
  split_ifs
  · split
    · exact Frame.refl rt
    · exact Frame.refl rt
  · refine ⟨rfl, rfl, rfl, fun address entry hentry => ?_⟩
    have hnone : (clearEcm rt).neighborOwnership = ∅ := rfl
    rw [hnone, AList.lookup_empty] at hentry
    cases hentry

theorem frame_tickSeconds (cfg : Config) (tick : Tick) (ecmReadOk : Bool) (rt : MonitorRuntime) :
    Frame rt (tickSeconds cfg tick ecmReadOk rt).2.2 := by
  unfold tickSeconds
  dsimp only
  split_ifs
  · exact ⟨rfl, rfl, rfl, fun _ _ h => h⟩
  · exact ⟨rfl, rfl, rfl, fun _ _ h => h⟩

theorem frame_startTick (cfg : Config) (topology : TopologySnapshot) (tick : Tick)
    (rt : MonitorRuntime) : Frame rt (startTick cfg topology tick rt).rt := by
  unfold startTick
  dsimp only
  refine Frame.trans ?_ ((frame_readEcm cfg topology tick _).trans (frame_tickSeconds cfg tick _ _))
  split_ifs
  · exact ⟨rfl, rfl, rfl, fun _ _ h => h⟩
  · exact Frame.refl rt

theorem frame_interfaceLoop (cfg : Config) (o : IterOrder) (topology : TopologySnapshot)
    (stats : HashMap InterfaceTrafficKey TrafficValue) (sec : Float) (rt : MonitorRuntime) :
    Frame rt (interfaceLoop cfg o topology stats sec rt).rt := by
  unfold interfaceLoop
  exact List.foldlRecOn (motive := fun st : IfaceLoop => Frame rt st.rt) _ _ (Frame.refl rt)
    fun st hst iface _ => hst.trans ⟨rfl, rfl, rfl, fun _ _ h => h⟩

theorem readNeighbors_fst (cfg : Config) (topology : TopologySnapshot) (tick : Tick) (refresh : Bool)
    (rt : MonitorRuntime) {n : FilteredNeighborEntry}
    (h : n ∈ (readNeighbors cfg topology tick refresh rt).1) : n.dev ∈ cfg.monitorIfaces :=
  mem_listNeighborsFiltered h

theorem readNeighbors_snd (cfg : Config) (topology : TopologySnapshot) (tick : Tick) (refresh : Bool)
    (rt : MonitorRuntime) :
    (readNeighbors cfg topology tick refresh rt).2.deviceRegistry = rt.deviceRegistry ∧
      (readNeighbors cfg topology tick refresh rt).2.cumulativeDevice = rt.cumulativeDevice ∧
      (readNeighbors cfg topology tick refresh rt).2.cumulativeIface = rt.cumulativeIface ∧
      (readNeighbors cfg topology tick refresh rt).2.neighborOwnership =
        retainOwnership topology tick.nowMs rt.neighborOwnership := by
  unfold readNeighbors listNeighborsFiltered
  dsimp only
  split_ifs <;> exact ⟨rfl, rfl, rfl, rfl⟩

theorem deviceRegistry_observe (cfg : Config) (topology : TopologySnapshot) (tick : Tick)
    (refresh : Bool) (rt : MonitorRuntime) :
    (observe cfg topology tick refresh rt).2.deviceRegistry = rt.deviceRegistry := by
  have hread := (readNeighbors_snd cfg topology tick refresh rt).1
  unfold observe
  dsimp only
  split_ifs <;> exact hread

/-- **The neighbours leave every owner known or in the group.** -/
theorem observe_spec (cfg : Config) (topology : TopologySnapshot) (tick : Tick) (refresh : Bool)
    {rt : MonitorRuntime} (h : RuntimeInv rt) :
    (observe cfg topology tick refresh rt).2.deviceRegistry = rt.deviceRegistry ∧
      (observe cfg topology tick refresh rt).2.cumulativeDevice = rt.cumulativeDevice ∧
      (observe cfg topology tick refresh rt).2.cumulativeIface = rt.cumulativeIface ∧
      GroupKeyed (observe cfg topology tick refresh rt).1 ∧
      OwnersIn topology rt.deviceRegistry (observe cfg topology tick refresh rt).1
        (observe cfg topology tick refresh rt).2.neighborOwnership := by
  obtain ⟨hregistry, hdevice, hiface, howners⟩ := readNeighbors_snd cfg topology tick refresh rt
  have hretain := fun devices : DevicesGroup =>
    ownersIn_retainOwnership h.known topology devices tick.nowMs
  rw [← howners] at hretain
  unfold observe
  dsimp only
  by_cases hecm : cfg.enableEcm = true
  · rw [if_pos hecm]
    refine ⟨hregistry, hdevice, hiface, groupKeyed_neighborDevices _ _ _ _ _ _,
      ownersIn_observeNeighbors (hretain _) (fun n hn ifindex iface hi hiface hlan => ?_) _ _⟩
    exact mem_neighborDevices hn
      (readNeighbors_fst cfg topology tick refresh rt (List.mem_of_mem_filter hn)) hi hiface hlan _ _ _
  · rw [if_neg hecm]
    exact ⟨hregistry, hdevice, hiface, groupKeyed_neighborDevices _ _ _ _ _ _, hretain _⟩

theorem neighborOwnership_startTick {cfg : Config} (henable : cfg.enableEcm = true)
    (topology : TopologySnapshot) (tick : Tick) (rt : MonitorRuntime) :
    (startTick cfg topology tick rt).rt.neighborOwnership = rt.neighborOwnership := by
  unfold startTick readEcm tickSeconds
  dsimp only
  rw [if_pos henable, if_pos henable]
  split_ifs <;> (split <;> rfl)

theorem neighborOwnership_interfaceLoop (cfg : Config) (o : IterOrder) (topology : TopologySnapshot)
    (stats : HashMap InterfaceTrafficKey TrafficValue) (sec : Float) (rt : MonitorRuntime) :
    (interfaceLoop cfg o topology stats sec rt).rt.neighborOwnership = rt.neighborOwnership := by
  unfold interfaceLoop
  exact List.foldlRecOn (motive := fun st : IfaceLoop => st.rt.neighborOwnership =
    rt.neighborOwnership) _ _ rfl fun st hst iface _ => hst

theorem neighborOwnership_beforeEcm (cfg : Config) (topology : TopologySnapshot) (tick : Tick)
    (rt : MonitorRuntime) (ifaceStats : HashMap InterfaceTrafficKey TrafficValue)
    (deviceStats : HashMap DeviceTrafficKey TrafficValue) :
    let start := startTick cfg topology tick rt
    let st := interfaceLoop cfg tick.o topology ifaceStats start.sec start.rt
    (beforeEcm cfg topology tick rt ifaceStats deviceStats).rt.neighborOwnership =
      (observe cfg topology tick start.reading.refreshIpv6Neighbors st.rt).2.neighborOwnership := rfl

/-- The host names are those of before, or those that the tick finds. -/
def Caches (tick : Tick) (rt rt' : MonitorRuntime) : Prop :=
  rt'.cachedHostnames = rt.cachedHostnames ∨ rt'.cachedHostnames = tick.hostnames

theorem caches_observe (cfg : Config) (topology : TopologySnapshot) (tick : Tick) (refresh : Bool)
    (rt : MonitorRuntime) : Caches tick rt (observe cfg topology tick refresh rt).2 := by
  have hread : Caches tick rt (readNeighbors cfg topology tick refresh rt).2 := by
    unfold readNeighbors listNeighborsFiltered
    dsimp only
    by_cases hdue : hostnameFetchIntervalMs ≤ satSub tick.nowMs rt.lastHostnameFetchMs
    · right
      split_ifs <;> rfl
    · left
      split_ifs <;> rfl
  unfold observe
  dsimp only
  split_ifs
  · exact hread
  · exact hread

/-! ### The invariant -/

theorem runtimeInv_frame {rt rt' : MonitorRuntime} (h : RuntimeInv rt) (hframe : Frame rt rt') :
    RuntimeInv rt' := by
  refine ⟨hframe.registry ▸ h.keyed, fun address entry key hentry hkey => ?_⟩
  rw [hframe.registry]
  exact h.known address entry key (hframe.owners address entry hentry) hkey

section Tick
variable {rt : MonitorRuntime} (cfg : Config) (topology : TopologySnapshot) (tick : Tick)
  (ifaceStats : HashMap InterfaceTrafficKey TrafficValue)
  (deviceStats : HashMap DeviceTrafficKey TrafficValue)

/-- The registry is as it was until the devices have their totals. -/
theorem deviceRegistry_beforeEcm :
    (beforeEcm cfg topology tick rt ifaceStats deviceStats).rt.deviceRegistry = rt.deviceRegistry := by
  let start := startTick cfg topology tick rt
  have hframe : Frame rt (interfaceLoop cfg tick.o topology ifaceStats start.sec start.rt).rt :=
    (frame_startTick cfg topology tick rt).trans
      (frame_interfaceLoop cfg tick.o topology ifaceStats start.sec start.rt)
  exact (deviceRegistry_observe cfg topology tick start.reading.refreshIpv6Neighbors _).trans
    hframe.registry

theorem caches_beforeEcm :
    Caches tick rt (beforeEcm cfg topology tick rt ifaceStats deviceStats).rt := by
  let start := startTick cfg topology tick rt
  have hframe : Frame rt (interfaceLoop cfg tick.o topology ifaceStats start.sec start.rt).rt :=
    (frame_startTick cfg topology tick rt).trans
      (frame_interfaceLoop cfg tick.o topology ifaceStats start.sec start.rt)
  have hobserve := caches_observe cfg topology tick start.reading.refreshIpv6Neighbors
    (interfaceLoop cfg tick.o topology ifaceStats start.sec start.rt).rt
  exact hobserve.imp_left fun hsame => hsame.trans hframe.hostnames

/-- What holds of the neighbours and of the known devices holds of all devices of the software
counters. -/
theorem groupAll_beforeEcm {P : DeviceKey → DeviceListItem → Prop} (hP : AboutDevice P)
    (hknown : KnownAll P rt.deviceRegistry)
    (hneighbor : ∀ rt', rt'.deviceRegistry = rt.deviceRegistry → Caches tick rt rt' →
      ∀ dev mac ips key item,
        neighborDevice cfg topology rt' tick.nowMs dev mac ips = some (key, item) → P key item) :
    GroupAll P (beforeEcm cfg topology tick rt ifaceStats deviceStats).devices := by
  let start := startTick cfg topology tick rt
  let st := interfaceLoop cfg tick.o topology ifaceStats start.sec start.rt
  let seen := observe cfg topology tick start.reading.refreshIpv6Neighbors st.rt
  have hregistry : seen.2.deviceRegistry = rt.deviceRegistry :=
    deviceRegistry_beforeEcm cfg topology tick ifaceStats deviceStats
  have hcaches : Caches tick rt seen.2 := caches_beforeEcm cfg topology tick ifaceStats deviceStats
  have hseen : GroupAll P seen.1 := groupAll_neighborDevices (hneighbor _ hregistry hcaches) tick.o _
  show GroupAll P (pruneCounters _ (counterLoop tick topology seen.2 _ _ deviceStats _)).devices
  rw [devices_pruneCounters]
  exact (growsWith_counterLoop hP (hregistry ▸ hknown) tick topology _ _ deviceStats seen.1).all hseen

/-- **When the hardware counters are attributed**, every owner is on an interface of the topology, and
is known or in the group. -/
theorem beforeEcm_spec (h : RuntimeInv rt) :
    let b := beforeEcm cfg topology tick rt ifaceStats deviceStats
    b.rt.deviceRegistry = rt.deviceRegistry ∧ b.rt.cumulativeDevice = rt.cumulativeDevice ∧
      GroupKeyed b.devices ∧
      OwnersIn topology b.rt.deviceRegistry b.devices b.rt.neighborOwnership := by
  intro b
  let start := startTick cfg topology tick rt
  let st := interfaceLoop cfg tick.o topology ifaceStats start.sec start.rt
  let seen := observe cfg topology tick start.reading.refreshIpv6Neighbors st.rt
  have hframe : Frame rt st.rt := (frame_startTick cfg topology tick rt).trans
    (frame_interfaceLoop cfg tick.o topology ifaceStats start.sec start.rt)
  have hinv : RuntimeInv st.rt := runtimeInv_frame h hframe
  obtain ⟨hregistry, hdevice, -, hkeyed, howners⟩ := observe_spec cfg topology tick
    start.reading.refreshIpv6Neighbors hinv
  have hregistry : b.rt.deviceRegistry = st.rt.deviceRegistry := hregistry
  have hdevices : Grows seen.1 b.devices := by
    show Grows seen.1 (pruneCounters _ (counterLoop tick topology seen.2 _ _ deviceStats _)).devices
    rw [devices_pruneCounters]
    refine grows_counterLoop ?_ tick topology _ _ deviceStats seen.1
    exact hregistry ▸ hinv.keyed
  refine ⟨hregistry.trans hframe.registry, hdevice.trans hframe.device, hdevices.keyed hkeyed,
    fun address entry key hentry hkey => ?_⟩
  obtain ⟨hiface, hknown⟩ := howners address entry key hentry hkey
  exact ⟨hiface, hknown.imp (fun hmem => hregistry ▸ hmem) (hdevices.mem key)⟩

/-- The devices of a tick, once they have their totals, are known. -/
theorem settle_spec {b : BeforeEcm} (hkeyed : Keyed b.rt.deviceRegistry)
    (hgroup : GroupKeyed b.devices) :
    Grows b.devices (settle topology tick b (hardware topology tick b)).1 ∧
      Keyed (settle topology tick b (hardware topology tick b)).2.deviceRegistry ∧
      ∀ key, key ∈ b.rt.deviceRegistry ∨ key ∈ b.devices →
        key ∈ (settle topology tick b (hardware topology tick b)).2.deviceRegistry := by
  have hhardware := grows_hardware hkeyed topology tick
  have hgrows : Grows b.devices (settle topology tick b (hardware topology tick b)).1 :=
    hhardware.trans (grows_settle (hhardware.keyed hgroup) topology tick)
  rw [deviceRegistry_settle]
  exact ⟨hgrows, keyed_registerDevices (hgrows.keyed hgroup) hkeyed _ _, fun key hkey =>
    mem_registerDevices (hkey.imp_right (hgrows.mem key))⟩

theorem frame_eachRow
    {f : MonitorRuntime → InterfaceOverviewItem → InterfaceOverviewItem × MonitorRuntime}
    (hf : ∀ rt row, Frame rt (f rt row).2) (rows : List InterfaceOverviewItem) (rt : MonitorRuntime) :
    Frame rt (eachRow f rt rows).2 := by
  induction rows generalizing rt with
  | nil => exact Frame.refl rt
  | cons row rest ih => exact (hf rt row).trans (ih _)

theorem frame_injectLan (shown metrics : HashMap UInt32 CounterQuad) (rt : MonitorRuntime)
    (row : InterfaceOverviewItem) : Frame rt (injectLan shown metrics rt row).2 := by
  unfold injectLan
  split
  · exact Frame.refl rt
  · exact ⟨rfl, rfl, rfl, fun _ _ h => h⟩

theorem frame_injectWan (wan : Option UInt32) (smoothed metrics : CounterQuad) (rt : MonitorRuntime)
    (row : InterfaceOverviewItem) : Frame rt (injectWan wan smoothed metrics rt row).2 := by
  unfold injectWan
  split_ifs
  · exact Frame.refl rt
  · exact ⟨rfl, rfl, rfl, fun _ _ h => h⟩

theorem frame_injectRow (x : Injection) (rt : MonitorRuntime) (row : InterfaceOverviewItem) :
    Frame rt (injectRow x rt row).2 := by
  unfold injectRow
  refine (frame_injectLan x.lanShown x.lanMetrics rt row).trans
    (Frame.trans ?_ (frame_injectWan x.wan x.wanShown x.wanMetrics _ _))
  exact ⟨rfl, rfl, rfl, fun _ _ h => h⟩

theorem frame_injectEcm (o : IterOrder) (e : EcmLoop) (rt : MonitorRuntime)
    (interfaces : List InterfaceOverviewItem) :
    Frame rt (injectEcm o topology e rt interfaces).2 := by
  unfold injectEcm
  dsimp only
  refine Frame.trans ?_ (frame_eachRow (frame_injectRow _) interfaces _)
  exact ⟨rfl, rfl, rfl, fun _ _ h => h⟩

theorem frame_interfaceRows (b : BeforeEcm) (e : EcmLoop) (rt : MonitorRuntime) :
    Frame rt (interfaceRows topology tick b e rt).2 := by
  have hbreakdown : Frame rt (applyTcBreakdowns b.breakdown rt _).2 :=
    frame_eachRow (fun _ _ => ⟨rfl, rfl, rfl, fun _ _ h => h⟩) (addWanRow topology rt b.interfaces) rt
  unfold interfaceRows
  dsimp only
  split_ifs
  · exact hbreakdown.trans (frame_injectEcm topology tick.o e _ _)
  · exact hbreakdown

/-- A tick that fails changes nothing; else its snapshot is put together in this way. -/
theorem collectSnapshot_cases (rt : MonitorRuntime) :
    collectSnapshot cfg topology tick rt = (none, rt) ∨
    ∃ ifaceEntries deviceEntries,
      tick.ifaceEntries = some ifaceEntries ∧ tick.deviceEntries = some deviceEntries ∧
      let b := beforeEcm cfg topology tick rt (readStats ifaceEntries) (readStats deviceEntries)
      let e := hardware topology tick b
      let settled := settle topology tick b e
      let rows := interfaceRows topology tick b e settled.2
      collectSnapshot cfg topology tick rt = (some {
        timestampMs := tick.nowMs
        interfaces := rows.1
        devices := deviceRows cfg tick.o topology settled.2 settled.1 }, rows.2) := by
  unfold collectSnapshot
  split
  · next ifaceEntries deviceEntries hiface hdevice _ =>
    exact Or.inr ⟨ifaceEntries, deviceEntries, hiface, hdevice, rfl⟩
  · exact Or.inl rfl

theorem collectSnapshot_eq_none {rt : MonitorRuntime}
    (hs : (collectSnapshot cfg topology tick rt).1 = none) :
    (collectSnapshot cfg topology tick rt).2 = rt := by
  rcases collectSnapshot_cases cfg topology tick rt with heq | ⟨ie, de, -, -, heq⟩
  · rw [heq]
  · rw [heq] at hs
    cases hs

/-- A tick that does not fail. -/
theorem collectSnapshot_eq_some {rt rt' : MonitorRuntime} {s : SnapshotData}
    (hs : collectSnapshot cfg topology tick rt = (some s, rt')) :
    ∃ ifaceEntries deviceEntries,
      tick.ifaceEntries = some ifaceEntries ∧ tick.deviceEntries = some deviceEntries ∧
      let b := beforeEcm cfg topology tick rt (readStats ifaceEntries) (readStats deviceEntries)
      let e := hardware topology tick b
      let settled := settle topology tick b e
      let rows := interfaceRows topology tick b e settled.2
      s = {
        timestampMs := tick.nowMs
        interfaces := rows.1
        devices := deviceRows cfg tick.o topology settled.2 settled.1 } ∧ rt' = rows.2 := by
  rcases collectSnapshot_cases cfg topology tick rt with heq | ⟨ie, de, hie, hde, heq⟩
  · rw [heq] at hs
    cases hs
  · rw [heq] at hs
    obtain ⟨hsnapshot, hrt⟩ := Prod.mk.inj hs
    exact ⟨ie, de, hie, hde, (Option.some.inj hsnapshot).symm, hrt.symm⟩

/-- The devices that a tick finds online; none if it fails. -/
def onlineDevices (rt : MonitorRuntime) : DevicesGroup :=
  match tick.ifaceEntries, tick.deviceEntries, tick.insertFailuresRead with
  | some ifaceEntries, some deviceEntries, true =>
    let b := beforeEcm cfg topology tick rt (readStats ifaceEntries) (readStats deviceEntries)
    (settle topology tick b (hardware topology tick b)).1
  | _, _, _ => ∅

/-- A tick that fails finds no device; else its snapshot is put together from those that it finds. -/
theorem onlineDevices_cases (rt : MonitorRuntime) :
    (collectSnapshot cfg topology tick rt = (none, rt) ∧ onlineDevices cfg topology tick rt = ∅) ∨
    ∃ ie de,
      let b := beforeEcm cfg topology tick rt (readStats ie) (readStats de)
      let settled := settle topology tick b (hardware topology tick b)
      let rows := interfaceRows topology tick b (hardware topology tick b) settled.2
      onlineDevices cfg topology tick rt = settled.1 ∧
      collectSnapshot cfg topology tick rt = (some {
        timestampMs := tick.nowMs
        interfaces := rows.1
        devices := deviceRows cfg tick.o topology settled.2 settled.1 }, rows.2) := by
  unfold collectSnapshot onlineDevices
  cases tick.ifaceEntries with
  | none => exact Or.inl ⟨rfl, rfl⟩
  | some ie =>
    cases tick.deviceEntries with
    | none => exact Or.inl ⟨rfl, rfl⟩
    | some de =>
      cases tick.insertFailuresRead with
      | false => exact Or.inl ⟨rfl, rfl⟩
      | true => exact Or.inr ⟨ie, de, rfl, rfl⟩

/-- **The registry after a tick**: the devices that are online are entered. -/
theorem deviceRegistry_collectSnapshot (rt : MonitorRuntime) :
    (collectSnapshot cfg topology tick rt).2.deviceRegistry =
      registerDevices tick.o tick.nowMs (onlineDevices cfg topology tick rt) rt.deviceRegistry := by
  rcases onlineDevices_cases cfg topology tick rt with ⟨heq, honline⟩ | ⟨ie, de, honline, heq⟩
  · have hempty : tick.o.order (∅ : DevicesGroup).entries = [] := List.perm_nil.mp (tick.o.perm _)
    unfold registerDevices
    rw [heq, honline, hempty]
    rfl
  · let b := beforeEcm cfg topology tick rt (readStats ie) (readStats de)
    have hregistry : b.rt.deviceRegistry = rt.deviceRegistry :=
      deviceRegistry_beforeEcm cfg topology tick (readStats ie) (readStats de)
    have hrows := (frame_interfaceRows topology tick b (hardware topology tick b)
      (settle topology tick b (hardware topology tick b)).2).registry
    rw [deviceRegistry_settle, hregistry] at hrows
    rw [heq, honline]
    exact hrows

/-- What holds of the neighbours, of the known devices and of the WAN pseudo-device holds of all devices
that are online. -/
theorem groupAll_onlineDevices {P : DeviceKey → DeviceListItem → Prop} (hP : AboutDevice P)
    (hknown : KnownAll P rt.deviceRegistry) (hwan : WanAll P topology)
    (hneighbor : ∀ rt', rt'.deviceRegistry = rt.deviceRegistry → Caches tick rt rt' →
      ∀ dev mac ips key item,
        neighborDevice cfg topology rt' tick.nowMs dev mac ips = some (key, item) → P key item) :
    GroupAll P (onlineDevices cfg topology tick rt) := by
  rcases onlineDevices_cases cfg topology tick rt with ⟨-, honline⟩ | ⟨ie, de, honline, -⟩
  · rw [honline]
    exact groupAll_empty
  · have hregistry := @deviceRegistry_beforeEcm rt cfg topology tick (readStats ie) (readStats de)
    have hgroup := groupAll_beforeEcm cfg topology tick (readStats ie) (readStats de) hP hknown hneighbor
    have hhardware := growsWith_hardware hP (hregistry ▸ hknown) topology tick
    rw [honline]
    exact (growsWith_settle hP hwan (hhardware.all hgroup) tick).all (hhardware.all hgroup)

/-- A device that has come up before the hardware counters stays. -/
theorem mem_onlineDevices_of_beforeEcm {ie : List (InterfaceTrafficKey × TrafficValue)}
    {de : List (DeviceTrafficKey × TrafficValue)} (hie : tick.ifaceEntries = some ie)
    (hde : tick.deviceEntries = some de) (hread : tick.insertFailuresRead = true) {key : DeviceKey}
    (h : key ∈ (beforeEcm cfg topology tick rt (readStats ie) (readStats de)).devices) :
    key ∈ onlineDevices cfg topology tick rt := by
  let b := beforeEcm cfg topology tick rt (readStats ie) (readStats de)
  have hany : AboutDevice fun _ _ => True := fun _ _ _ _ htrue => htrue
  have hhardware := growsWith_hardware hany (b := b) (fun _ _ _ _ => trivial) topology tick
  have hsettled : GrowsWith (fun _ _ => True) (hardware topology tick b).devices
      (settle topology tick b (hardware topology tick b)).1 :=
    growsWith_settle hany (fun _ _ _ => trivial) (fun _ _ _ => trivial) tick
  unfold onlineDevices
  rw [hie, hde, hread]
  exact hsettled.mem _ (hhardware.mem _ h)

/-- **A neighbour of the LAN side is online.** -/
theorem mem_onlineDevices_of_neighbor {ie : List (InterfaceTrafficKey × TrafficValue)}
    {de : List (DeviceTrafficKey × TrafficValue)} (hie : tick.ifaceEntries = some ie)
    (hde : tick.deviceEntries = some de) (hread : tick.insertFailuresRead = true)
    {n : FilteredNeighborEntry} (hn : n ∈ ((((tick.arp).map lines).getD []).drop 1).filterMap
      (Neighbors.arpEntry cfg.monitorIfaces (subnetMap topology)))
    (hhost : isMulticastMac n.mac = false ∧ isBroadcastMac n.mac = false)
    (hmonitored : n.dev ∈ cfg.monitorIfaces) {ifindex : UInt32}
    (hifindex : (ifindexByName topology).lookup n.dev = some ifindex) {iface : Interface}
    (hiface : topology.byIfindex ifindex = some iface) (hlan : wanZone iface = false) (rt : MonitorRuntime) :
    (ifindex, n.mac) ∈ onlineDevices cfg topology tick rt := by
  let start := startTick cfg topology tick rt
  let st := interfaceLoop cfg tick.o topology (readStats ie) start.sec start.rt
  let seen := observe cfg topology tick start.reading.refreshIpv6Neighbors st.rt
  have hany : AboutDevice fun _ _ => True := fun _ _ _ _ htrue => htrue
  have hread' : n ∈ (readNeighbors cfg topology tick start.reading.refreshIpv6Neighbors st.rt).1 :=
    List.mem_append_left _ hn
  have hseen : (ifindex, n.mac) ∈ seen.1 := by
    refine mem_neighborDevices (List.mem_filter.mpr ⟨hread', ?_⟩) hmonitored hifindex hiface hlan _ _ _
    rw [hhost.1, hhost.2]
    rfl
  refine mem_onlineDevices_of_beforeEcm cfg topology tick hie hde hread ?_
  show _ ∈ (pruneCounters _ (counterLoop tick topology seen.2 _ _ (readStats de) _)).devices
  rw [devices_pruneCounters]
  exact (growsWith_counterLoop hany (fun _ _ _ _ => trivial) tick topology _ _ _ seen.1).mem _ hseen

theorem online_onlineDevices (rt : MonitorRuntime) :
    GroupAll (fun _ item => item.online = true) (onlineDevices cfg topology tick rt) :=
  groupAll_onlineDevices cfg topology tick (fun _ _ _ hsame h => hsame.online h) (fun _ _ _ _ => rfl)
    (fun _ _ _ => rfl) fun _ _ _ _ _ _ _ _ hitem => online_neighborDevice hitem

/-- **A device that is online has a row**, which says so. -/
theorem row_of_online (h : RuntimeInv rt) {key : DeviceKey}
    (hkey : key ∈ onlineDevices cfg topology tick rt) :
    ∃ s, (collectSnapshot cfg topology tick rt).1 = some s ∧ s.timestampMs = tick.nowMs ∧
      ∃ row ∈ s.devices, row.ifindex = key.1 ∧ row.mac = macToString key.2 ∧ row.online = true := by
  obtain ⟨item, hitem⟩ := mem_iff_lookup.mp hkey
  have honline := online_onlineDevices cfg topology tick rt key item hitem
  rcases onlineDevices_cases cfg topology tick rt with ⟨-, hnone⟩ | ⟨ie, de, hsettled, heq⟩
  · rw [hnone] at hkey
    exact absurd hkey (AList.notMem_empty key)
  · obtain ⟨hregistry, -, hgroup, -⟩ := beforeEcm_spec cfg topology tick (readStats ie) (readStats de) h
    have hkeyed := (settle_spec topology tick (hregistry ▸ h.keyed) hgroup).1.keyed hgroup
    rw [hsettled] at hitem
    obtain ⟨hifindex, hmac⟩ := hkeyed key item hitem
    refine ⟨_, congrArg Prod.fst heq, rfl, item, ?_, hifindex, hmac, honline⟩
    refine List.mem_mergeSort.mpr (List.mem_append_left _ (List.mem_map.mpr ⟨⟨key, item⟩, ?_, rfl⟩))
    exact mem_order_iff.mpr hitem

/-- **The host names after a tick.** -/
theorem caches_collectSnapshot (rt : MonitorRuntime) :
    Caches tick rt (collectSnapshot cfg topology tick rt).2 := by
  rcases collectSnapshot_cases cfg topology tick rt with heq | ⟨ie, de, -, -, heq⟩
  · rw [heq]
    exact Or.inl rfl
  · let b := beforeEcm cfg topology tick rt (readStats ie) (readStats de)
    have hrows := (frame_interfaceRows topology tick b (hardware topology tick b)
      (settle topology tick b (hardware topology tick b)).2).hostnames
    have hbefore : Caches tick rt b.rt := caches_beforeEcm cfg topology tick (readStats ie) (readStats de)
    rw [heq]
    exact hbefore.imp (fun h => hrows.trans h) fun h => hrows.trans h

/-- **A tick keeps the invariant.** -/
theorem runtimeInv_collectSnapshot (h : RuntimeInv rt) :
    RuntimeInv (collectSnapshot cfg topology tick rt).2 := by
  rcases collectSnapshot_cases cfg topology tick rt with heq | ⟨ie, de, -, -, heq⟩
  · rw [heq]
    exact h
  · obtain ⟨hregistry, -, hgroup, howners⟩ :=
      beforeEcm_spec cfg topology tick (readStats ie) (readStats de) h
    obtain ⟨-, hkeyed, hmem⟩ := settle_spec topology tick (hregistry ▸ h.keyed) hgroup
    rw [heq]
    refine runtimeInv_frame ⟨hkeyed, fun address entry key hentry hkey => ?_⟩
      (frame_interfaceRows topology tick _ _ _)
    exact hmem key (howners address entry key hentry hkey).2

end Tick

/-- **The invariant holds in every reachable state.** -/
theorem runtimeInv_reachable {rt : MonitorRuntime} (h : Reachable rt) : RuntimeInv rt := by
  induction h with
  | start o topology state cumulativeIface cumulativeDevice =>
    exact runtimeInv_start o topology state cumulativeIface cumulativeDevice
  | step op _ ih =>
    cases op with
    | collect cfg topology tick => exact runtimeInv_collectSnapshot cfg topology tick ih
    | remove key => exact runtimeInv_removeDevice ih key
    | hostname key name snapshotDevice nowMs =>
      exact runtimeInv_updateHostname ih key name snapshotDevice nowMs

end BandixPlus.Monitor.Registry
