import BandixPlus.Monitor.Conservation

/-! # The hardware traffic of the WAN side

What a tick collects for the WAN side is to enter one row of the zone `wan` and the row of the WAN
pseudo-device. `snapshotWith` is the snapshot that a tick gives for any traffic collected there, so that
"added exactly once" says how its rows depend on this traffic.

* `balance_device`: the pseudo-device gets it once.
* `wan_added_once_iff`: a row of the zone does so for every tick if and only if the first WAN interface
  is monitored or none of the zone is.
* `wan_bytes_lost`: a PPPoE interface is monitored and the Ethernet interface under it is not. -/

namespace BandixPlus.Monitor.WanRows

open BandixPlus.Common BandixPlus.Lib.Ledger BandixPlus.Lib.Maps
open BandixPlus.Monitor.Counters BandixPlus.Monitor.Snapshot BandixPlus.Monitor.Topology
open BandixPlus.Monitor.Runtime BandixPlus.Monitor.Interfaces BandixPlus.Monitor.Devices
open BandixPlus.Monitor.Ecm BandixPlus.Monitor.Collect BandixPlus.Monitor.Session
open BandixPlus.Monitor.Group BandixPlus.Monitor.Registry BandixPlus.Monitor.Cumulative
open BandixPlus.Monitor.Conservation BandixPlus.Net.Text

/-! ### The snapshot as a function of the traffic -/

/-- What the kernel maps of a tick yield. -/
structure Reads (tick : Tick) (ifaceEntries : List (InterfaceTrafficKey × TrafficValue))
    (deviceEntries : List (DeviceTrafficKey × TrafficValue))
    (ecmEntries : List (EcmTrafficKey × List TrafficValue)) : Prop where
  iface : tick.ifaceEntries = some ifaceEntries
  device : tick.deviceEntries = some deviceEntries
  failures : tick.insertFailuresRead = true
  ecm : tick.ecmEntries = some ecmEntries

/-- The snapshot of a tick, had it collected this traffic of the WAN side. -/
def snapshotWith (cfg : Config) (topology : TopologySnapshot) (tick : Tick) (b : BeforeEcm)
    (e : EcmLoop) (collected : CounterQuad) : SnapshotData :=
  let e := { e with wanEcmMetrics := collected }
  let (devices, rt) := settle topology tick b e
  { timestampMs := tick.nowMs
    interfaces := (interfaceRows topology tick b e rt).1
    devices := deviceRows cfg tick.o topology rt devices }

theorem collectSnapshot_eq {tick : Tick} {ie : List (InterfaceTrafficKey × TrafficValue)}
    {de : List (DeviceTrafficKey × TrafficValue)} {ee : List (EcmTrafficKey × List TrafficValue)}
    (h : Reads tick ie de ee) (cfg : Config) (topology : TopologySnapshot) (rt : MonitorRuntime) :
    let b := beforeEcm cfg topology tick rt (readStats ie) (readStats de)
    let e := hardware topology tick b
    (collectSnapshot cfg topology tick rt).1 =
      some (snapshotWith cfg topology tick b e e.wanEcmMetrics) := by
  intro b e
  unfold collectSnapshot
  rw [h.iface, h.device, h.failures]
  rfl

/-- **Added exactly once**: whatever was collected is added to the balance of one entry, and to no
other. -/
def AddedOnce {K : Type} [DecidableEq K] (entries : CounterQuad → List (Entry K (Quad UInt64)))
    (k : K) : Prop :=
  ∃ base : K → Quad UInt64, ∀ collected,
    ((entries collected).map Entry.key).Nodup ∧ k ∈ (entries collected).map Entry.key ∧
      ∀ d ∈ entries collected, d.balance = base d.key + if d.key = k then collected.bytes else 0

/-- **The traffic of the WAN side is added once** to a row of the zone `wan`, and once to the row of the
pseudo-device. -/
structure WanAddedOnce (cfg : Config) (topology : TopologySnapshot) (tick : Tick) (b : BeforeEcm)
    (e : EcmLoop) : Prop where
  iface : ∃ i, (∀ collected, ∀ row ∈ (snapshotWith cfg topology tick b e collected).interfaces,
      row.ifindex = i → row.zone = "wan") ∧
    AddedOnce (fun collected =>
      (snapshotWith cfg topology tick b e collected).interfaces.map ifaceEntry) i
  device : ∃ i, wanIfindex topology = some i ∧ AddedOnce (fun collected =>
      (snapshotWith cfg topology tick b e collected).devices.map deviceEntry) (i, macWan)

/-! ### The rows of the interfaces -/

section Rows
variable {before : UInt32 → Quad UInt64} {topology : TopologySnapshot} {b : BeforeEcm}
  {rt : MonitorRuntime}

/-- The hardware traffic that enters the rows. -/
def injectionOf (topology : TopologySnapshot) (tick : Tick) (e : EcmLoop) (rt : MonitorRuntime) :
    Injection :=
  let lan := smoothRates tick.o e.lanEcmMetrics rt.smoothedLanEcmRates
  let unresolved := smoothRates tick.o e.unresolvedEcmMetrics rt.smoothedUnresolvedEcmRates
  { lanShown := lan.shown
    lanMetrics := e.lanEcmMetrics
    unresolvedShown := unresolved.shown
    unresolvedMetrics := e.unresolvedEcmMetrics
    wan := wanIfindex topology
    wanShown := smoothWan e.wanEcmMetrics rt.smoothedWanEcmRates
    wanMetrics := e.wanEcmMetrics }

/-- **The rows of the interfaces**: those before the hardware traffic, each with its share of it. -/
theorem map_ifaceEntry_interfaceRows (hread : b.ecmStats.isSome)
    (h : Accounts before (bytesUnder rt.cumulativeIface) (b.interfaces.map ifaceEntry))
    (hzone : ∀ row ∈ b.interfaces,
      row.zone = ((topology.byIfindex row.ifindex).map Interface.zone).getD "unknown")
    (tick : Tick) (e : EcmLoop) :
    (interfaceRows topology tick b e rt).1.map ifaceEntry =
      ((addWanRow topology rt b.interfaces).map ifaceEntry).map fun d => d.raise
        (bytesUnder e.lanEcmMetrics d.key + wanBytes (wanIfindex topology) e.wanEcmMetrics d.key) := by
  have hrows := accounts_addWanRow h hzone
  have hkeep : RaisesBy (fun _ => 0) (breakdownStep b.breakdown) :=
    raisesBy_of_eq (fun _ _ => rfl) fun _ _ => rfl
  let rows := applyTcBreakdowns b.breakdown rt (addWanRow topology rt b.interfaces)
  have hbreakdown : Accounts before (bytesUnder rows.2.cumulativeIface) (rows.1.map ifaceEntry) :=
    accounts_eachRow hkeep.raises _ [] hrows
  have hsame : rows.1.map ifaceEntry = (addWanRow topology rt b.interfaces).map ifaceEntry := by
    have heach := map_ifaceEntry_eachRow hkeep (addWanRow topology rt b.interfaces)
      (map_key_ifaceEntry _ ▸ hrows.distinct) fun row hrow =>
        hrows.current (ifaceEntry row) (List.mem_map_of_mem hrow)
    simp only [raise_zero, List.map_id'] at heach
    exact heach
  unfold interfaceRows
  dsimp only
  rw [if_pos hread, ← hsame]
  exact map_ifaceEntry_eachRow (raisesBy_injectRow (x := injectionOf topology tick e rows.2)
    (showsBytes_smoothRates tick.o _ _) (fun _ => mem_shown_smoothRates) (bytes_smoothWan _ _)) rows.1
    (map_key_ifaceEntry _ ▸ hbreakdown.distinct) fun row hrow =>
      hbreakdown.current (ifaceEntry row) (List.mem_map_of_mem hrow)

end Rows

/-- The zone of an interface, as the rows show it. -/
def zoneOf (topology : TopologySnapshot) (ifindex : UInt32) : String :=
  ((topology.byIfindex ifindex).map Interface.zone).getD "unknown"

theorem zoneOf_wanIfindex {topology : TopologySnapshot} {i : UInt32}
    (h : wanIfindex topology = some i) : zoneOf topology i = "wan" := by
  obtain ⟨iface, hfind, rfl⟩ := Option.map_eq_some_iff.mp h
  have hmem := mem_interfaces.mp (List.mem_of_find?_eq_some hfind)
  have hzone := List.find?_some hfind
  unfold zoneOf
  rw [hmem]
  exact of_decide_eq_true hzone

theorem zone_addWanRow {topology : TopologySnapshot} {rt : MonitorRuntime}
    {rows : List InterfaceOverviewItem} (h : ∀ row ∈ rows, row.zone = zoneOf topology row.ifindex) :
    ∀ row ∈ addWanRow topology rt rows, row.zone = zoneOf topology row.ifindex := by
  intro row hrow
  unfold addWanRow at hrow
  split_ifs at hrow
  · exact h row hrow
  · split at hrow
    · exact h row hrow
    · next wan hwan =>
      rcases List.mem_append.mp hrow with hrow | hrow
      · exact h row hrow
      · rw [List.mem_singleton.mp hrow]
        exact (zoneOf_wanIfindex (congrArg (Option.map Interface.ifindex) hwan)).symm

theorem zone_interfaceRows {topology : TopologySnapshot} {b : BeforeEcm} {rt : MonitorRuntime}
    (h : ∀ row ∈ b.interfaces, row.zone = zoneOf topology row.ifindex) (tick : Tick) (e : EcmLoop) :
    ∀ row ∈ (interfaceRows topology tick b e rt).1, row.zone = zoneOf topology row.ifindex :=
  all_interfaceRows (P := fun row => row.zone = zoneOf topology row.ifindex)
    (fun _ _ hsame hrow => by rw [hsame.zone, hsame.ifindex, hrow]) (zone_addWanRow h) tick e

/-! ### Which row -/

/-- One of the monitored names is that of the interface. -/
def Monitored (cfg : Config) (topology : TopologySnapshot) (ifindex : UInt32) : Prop :=
  ∃ name ∈ cfg.monitorIfaces, (ifindexByName topology).lookup name = some ifindex

/-- **The two choices agree**: the first WAN interface is monitored, or none of the zone is. -/
def WanRowAgrees (cfg : Config) (topology : TopologySnapshot) : Prop :=
  ∀ i, wanIfindex topology = some i →
    Monitored cfg topology i ∨ ∀ j, Monitored cfg topology j → zoneOf topology j ≠ "wan"

theorem mem_ifindex_monitoredInterfaces {byName : HashMap String UInt32} {i : UInt32}
    (monitorIfaces : List String) (seen : List String) :
    i ∈ (monitoredInterfaces byName seen monitorIfaces).map Prod.snd ↔
      ∃ name ∈ monitorIfaces, name ∉ seen ∧ byName.lookup name = some i := by
  constructor
  · intro h
    obtain ⟨iface, hiface, rfl⟩ := List.mem_map.mp h
    obtain ⟨hlookup, hseen⟩ := mem_monitoredInterfaces monitorIfaces hiface
    refine ⟨iface.1, ?_, hseen, hlookup⟩
    clear h hlookup hseen
    induction monitorIfaces generalizing seen with
    | nil => cases hiface
    | cons name rest ih =>
      unfold monitoredInterfaces at hiface
      split_ifs at hiface
      · exact List.mem_cons_of_mem _ (ih _ hiface)
      · split at hiface
        · exact List.mem_cons_of_mem _ (ih _ hiface)
        · rcases List.mem_cons.mp hiface with rfl | hiface
          · exact List.mem_cons_self
          · exact List.mem_cons_of_mem _ (ih _ hiface)
  · rintro ⟨name, hname, hseen, hlookup⟩
    induction monitorIfaces generalizing seen with
    | nil => cases hname
    | cons first rest ih =>
      unfold monitoredInterfaces
      by_cases hfirst : name = first
      · subst hfirst
        rw [if_neg hseen, hlookup]
        exact List.mem_cons_self
      · have hrest := (List.mem_cons.mp hname).resolve_left hfirst
        have hseen' : name ∉ first :: seen := fun h => hseen ((List.mem_cons.mp h).resolve_left hfirst)
        split_ifs
        · exact ih seen hrest hseen
        · split
          · exact ih _ hrest hseen'
          · exact List.mem_cons_of_mem _ (ih _ hrest hseen')

theorem map_ifindex_interfaceLoop (cfg : Config) (o : IterOrder) (topology : TopologySnapshot)
    (stats : HashMap InterfaceTrafficKey TrafficValue) (sec : Float) (rt : MonitorRuntime) :
    (interfaceLoop cfg o topology stats sec rt).interfaces.map InterfaceOverviewItem.ifindex =
      (monitoredInterfaces (ifindexByName topology) [] cfg.monitorIfaces).map Prod.snd := by
  have hloop : ∀ (l : List (String × UInt32)) (st : IfaceLoop),
      (l.foldl (interfaceStep o topology stats sec) st).interfaces.map InterfaceOverviewItem.ifindex =
        st.interfaces.map InterfaceOverviewItem.ifindex ++ l.map Prod.snd := by
    intro l
    induction l with
    | nil => exact fun st => (List.append_nil _).symm
    | cons iface rest ih =>
      intro st
      have hrows : (interfaceStep o topology stats sec st iface).interfaces.map
          InterfaceOverviewItem.ifindex =
          st.interfaces.map InterfaceOverviewItem.ifindex ++ [iface.2] := List.map_append
      rw [List.foldl_cons, ih, hrows, List.map_cons, List.append_assoc, List.singleton_append]
  exact hloop _ _

/-- **The row of the first WAN interface** is there exactly if the choices agree. -/
theorem mem_addWanRow_iff {cfg : Config} {topology : TopologySnapshot} {i : UInt32}
    (hwan : wanIfindex topology = some i) {rows : List InterfaceOverviewItem}
    (hrows : ∀ j, j ∈ rows.map InterfaceOverviewItem.ifindex ↔ Monitored cfg topology j)
    (hzone : ∀ row ∈ rows, row.zone = zoneOf topology row.ifindex) (rt : MonitorRuntime) :
    i ∈ (addWanRow topology rt rows).map InterfaceOverviewItem.ifindex ↔
      WanRowAgrees cfg topology := by
  have hagrees : WanRowAgrees cfg topology ↔
      Monitored cfg topology i ∨ ∀ j, Monitored cfg topology j → zoneOf topology j ≠ "wan" := by
    unfold WanRowAgrees
    rw [hwan]
    simp only [Option.some.injEq, forall_eq']
  rw [hagrees]
  unfold addWanRow
  by_cases hany : (rows.any fun row => row.zone = "wan") = true
  · rw [if_pos hany, hrows]
    obtain ⟨row, hrow, hz⟩ := List.any_eq_true.mp hany
    have hmonitored := (hrows row.ifindex).mp (List.mem_map_of_mem hrow)
    refine ⟨Or.inl, fun h => h.resolve_right fun hnone => hnone _ hmonitored ?_⟩
    rw [← hzone row hrow]
    exact of_decide_eq_true hz
  · obtain ⟨iface, hfind, hi⟩ := Option.map_eq_some_iff.mp hwan
    rw [if_neg hany, hfind]
    refine iff_of_true ?_ (Or.inr fun j hj hz => hany ?_)
    · rw [List.map_append, List.mem_append]
      exact Or.inr (List.mem_singleton.mpr hi.symm)
    · obtain ⟨row, hrow, rfl⟩ := List.mem_map.mp ((hrows j).mpr hj)
      exact List.any_eq_true.mpr ⟨row, hrow, decide_eq_true ((hzone row hrow).trans hz)⟩

/-! ### The rows of the devices -/

theorem bytes_addIfAny (metrics src : CounterQuad) :
    (addIfAny metrics src).bytes = metrics.bytes + src.bytes := by
  unfold addIfAny
  split_ifs with hempty
  · have hzero : src.bytes = 0 := (of_decide_eq_true hempty).1
    rw [hzero, add_zero]
  · rfl

/-- The bytes of a device in a group; a device that is not there has none. -/
def bytesIn (devices : DevicesGroup) (key : DeviceKey) : Quad UInt64 :=
  ((devices.lookup key).map fun item => item.metrics.bytes).getD 0

/-- **The pseudo-device** gets the software and the hardware traffic of the WAN side. -/
theorem bytesIn_addWanDevice {topology : TopologySnapshot} {i : UInt32}
    (hwan : wanIfindex topology = some i) (nowMs : UInt64) (wanTc wanEcm : CounterQuad)
    (devices : DevicesGroup) (ecmDevices : List DeviceKey) (key : DeviceKey) :
    bytesIn (addWanDevice topology nowMs wanTc wanEcm devices ecmDevices).1 key =
      bytesIn devices key + if key = (i, macWan) then wanTc.bytes + wanEcm.bytes else 0 := by
  unfold addWanDevice
  rw [hwan]
  unfold bytesIn
  dsimp only
  rw [lookup_upsert_eq]
  by_cases hkey : key = (i, macWan)
  · rw [if_pos hkey, if_pos hkey, hkey, Option.map_some, Option.getD_some, bytes_addIfAny,
      bytes_addIfAny, add_assoc]
    cases devices.lookup (i, macWan) <;> rfl
  · rw [if_neg hkey, if_neg hkey, add_zero]

/-- The totals leave the bytes of the tick. -/
theorem bytesIn_settleDevices (o : IterOrder) (rt : MonitorRuntime) (devices : DevicesGroup)
    (ecmDevices : List DeviceKey) (key : DeviceKey) :
    bytesIn (settleDevices o rt devices ecmDevices).1 key = bytesIn devices key := by
  unfold settleDevices
  dsimp only
  refine List.foldlRecOn (motive := fun st : SettleLoop => bytesIn st.devices key =
    bytesIn devices key) _ _ rfl fun st hst e he => ?_
  obtain ⟨item, hdevices, hmetrics, -, -⟩ := settleStep_spec ecmDevices st e.1 e.2
  rw [hdevices]
  unfold bytesIn at hst ⊢
  rw [lookup_insert_eq]
  by_cases hkey : key = e.1
  · rw [if_pos hkey, hkey, mem_order_iff.mp he, Option.map_some, Option.map_some, hmetrics]
  · rw [if_neg hkey]
    exact hst

/-- A row is that of a device of the group, or of a known one that had no traffic. -/
theorem amount_deviceRows {cfg : Config} {o : IterOrder} {topology : TopologySnapshot}
    {rt : MonitorRuntime} {devices : DevicesGroup} (hgroup : GroupKeyed devices)
    (hkeyed : Keyed rt.deviceRegistry) {d : Entry DeviceKey (Quad UInt64)}
    (hd : d ∈ (deviceRows cfg o topology rt devices).map deviceEntry) :
    d.amount = bytesIn devices d.key := by
  obtain ⟨row, hrow, rfl⟩ := List.mem_map.mp hd
  have hrow := List.mem_mergeSort.mp hrow
  rcases List.mem_append.mp hrow with hrow | hrow
  · obtain ⟨e, he, rfl⟩ := List.mem_map.mp hrow
    have hlookup := mem_order_iff.mp he
    have hkey : (deviceEntry e.2).key = e.1 := deviceKeyOf_eq (hgroup e.1 e.2 hlookup)
    unfold bytesIn
    rw [hkey, hlookup]
    rfl
  · obtain ⟨e, he, rfl⟩ := List.mem_map.mp hrow
    obtain ⟨he, hshown⟩ := List.mem_filter.mp he
    obtain ⟨hifindex, hmac⟩ := hkeyed e.1 e.2 (mem_order_iff.mp he)
    obtain ⟨hnot, -⟩ := Bool.and_eq_true_iff.mp hshown
    have hkey : (deviceEntry (offlineItem rt e.1 e.2)).key = e.1 :=
      deviceKeyOf_eq ⟨hifindex, congrArg macToString hmac⟩
    unfold bytesIn
    rw [hkey, AList.lookup_eq_none.mpr (of_decide_eq_true hnot)]
    rfl

/-- A device of the group has a row. -/
theorem mem_key_deviceRows {cfg : Config} {o : IterOrder} {topology : TopologySnapshot}
    {rt : MonitorRuntime} {devices : DevicesGroup} (hgroup : GroupKeyed devices) {key : DeviceKey}
    (h : key ∈ devices) :
    key ∈ ((deviceRows cfg o topology rt devices).map deviceEntry).map Entry.key := by
  obtain ⟨item, hitem⟩ := mem_iff_lookup.mp h
  rw [List.map_map]
  refine List.mem_map.mpr ⟨item, List.mem_mergeSort.mpr (List.mem_append_left _ ?_),
    deviceKeyOf_eq (hgroup key item hitem)⟩
  exact List.mem_map.mpr ⟨⟨key, item⟩, mem_order_iff.mpr hitem, rfl⟩

theorem bytesIn_settle {topology : TopologySnapshot} {i : UInt32}
    (hwan : wanIfindex topology = some i) (tick : Tick) (b : BeforeEcm) (e : EcmLoop)
    (key : DeviceKey) : bytesIn (settle topology tick b e).1 key = bytesIn e.devices key +
      if key = (i, macWan) then b.wanTcMetrics.bytes + e.wanEcmMetrics.bytes else 0 := by
  rw [← bytesIn_addWanDevice hwan tick.nowMs]
  exact bytesIn_settleDevices _ _ _ _ _

theorem mem_settle {topology : TopologySnapshot} {i : UInt32} (hwan : wanIfindex topology = some i)
    (tick : Tick) (b : BeforeEcm) (e : EcmLoop) (hkeyed : GroupKeyed e.devices) :
    (i, macWan) ∈ (settle topology tick b e).1 := by
  have hmem : (i, macWan) ∈ (addWanDevice topology tick.nowMs b.wanTcMetrics e.wanEcmMetrics
      e.devices e.ecmDevices).1 := by
    unfold addWanDevice
    rw [hwan]
    exact mem_upsert.mpr (Or.inl rfl)
  have hgrows := grows_addWanDevice topology tick.nowMs b.wanTcMetrics e.wanEcmMetrics e.devices
    e.ecmDevices
  exact (grows_settleDevices (hgrows.keyed hkeyed) tick.o _ _).mem _ hmem

/-- **The row of the pseudo-device gets the traffic of the WAN side once.** -/
theorem balance_device {topology : TopologySnapshot} {i : UInt32}
    (hwan : wanIfindex topology = some i) (cfg : Config) (tick : Tick) {b : BeforeEcm} {e : EcmLoop}
    (hkeyed : Keyed b.rt.deviceRegistry) (hgroup : GroupKeyed e.devices) :
    AddedOnce (fun collected =>
      (snapshotWith cfg topology tick b e collected).devices.map deviceEntry) (i, macWan) := by
  refine ⟨fun key => bytesUnder b.rt.cumulativeDevice key + (bytesIn e.devices key +
    if key = (i, macWan) then b.wanTcMetrics.bytes else 0), fun collected => ?_⟩
  let e' : EcmLoop := { e with wanEcmMetrics := collected }
  let settled := settle topology tick b e'
  have hgroup' : GroupKeyed settled.1 := (grows_settle (e := e') hgroup topology tick).keyed hgroup
  have hkeyed' : Keyed settled.2.deviceRegistry := by
    show Keyed (settle topology tick b e').2.deviceRegistry
    rw [deviceRegistry_settle]
    exact keyed_registerDevices hgroup' hkeyed _ _
  have hsettle : Accounts (bytesUnder b.rt.cumulativeDevice) (bytesUnder settled.2.cumulativeDevice)
      ((tick.o.order settled.1.entries).map fun e =>
        ⟨e.1, e.2.metrics.bytes, e.2.cumulative.bytes⟩) :=
    accounts_settleDevices tick.o _ _ _
  have hrows : Accounts (bytesUnder b.rt.cumulativeDevice) (bytesUnder settled.2.cumulativeDevice)
      ((deviceRows cfg tick.o topology settled.2 settled.1).map deviceEntry) :=
    accounts_deviceRows hsettle hgroup' hkeyed' cfg topology
  refine ⟨hrows.distinct, mem_key_deviceRows hgroup' (mem_settle hwan tick b e' hgroup), ?_⟩
  intro d hd
  have hbytes : bytesIn settled.1 d.key = bytesIn e.devices d.key +
      if d.key = (i, macWan) then b.wanTcMetrics.bytes + collected.bytes else 0 :=
    bytesIn_settle hwan tick b e' d.key
  rw [hrows.balance d hd, amount_deviceRows hgroup' hkeyed' hd, hbytes]
  dsimp only
  by_cases hkey : d.key = (i, macWan)
  · rw [if_pos hkey, if_pos hkey, if_pos hkey, add_assoc, add_assoc]
  · rw [if_neg hkey, if_neg hkey, if_neg hkey, add_zero, add_zero]

/-! ### One tick -/

theorem mem_row_iff {topology : TopologySnapshot} {i : UInt32} (hwan : wanIfindex topology = some i)
    (cfg : Config) (tick : Tick) (rt : MonitorRuntime)
    (ie : List (InterfaceTrafficKey × TrafficValue)) (de : List (DeviceTrafficKey × TrafficValue)) :
    let b := beforeEcm cfg topology tick rt (readStats ie) (readStats de)
    i ∈ (addWanRow topology b.rt b.interfaces).map InterfaceOverviewItem.ifindex ↔
      WanRowAgrees cfg topology := by
  intro b
  refine mem_addWanRow_iff hwan (fun j => ?_) (zone_interfaceLoop cfg tick.o topology _ _ _) _
  rw [map_ifindex_interfaceLoop, mem_ifindex_monitoredInterfaces]
  unfold Monitored
  simp only [List.not_mem_nil, not_false_eq_true, true_and]

section Tick
variable {rt : MonitorRuntime} (h : Reachable rt) {cfg : Config} (henable : cfg.enableEcm = true)
  (topology : TopologySnapshot) {tick : Tick} {ie : List (InterfaceTrafficKey × TrafficValue)}
  {de : List (DeviceTrafficKey × TrafficValue)} {ee : List (EcmTrafficKey × List TrafficValue)}
  (hreads : Reads tick ie de ee)

include h henable hreads

/-- **The rows of the interfaces, as they depend on the traffic of the WAN side.** -/
theorem balance_iface :
    let b := beforeEcm cfg topology tick rt (readStats ie) (readStats de)
    let e := hardware topology tick b
    ∀ collected, let entries :=
        (snapshotWith cfg topology tick b e collected).interfaces.map ifaceEntry
      (entries.map Entry.key).Nodup ∧ entries.map Entry.key =
        (addWanRow topology b.rt b.interfaces).map InterfaceOverviewItem.ifindex ∧
      ∀ d ∈ entries, d.balance = bytesUnder b.rt.cumulativeIface d.key +
        bytesUnder e.lanEcmMetrics d.key + wanBytes (wanIfindex topology) collected d.key := by
  intro b e collected entries
  let e' : EcmLoop := { e with wanEcmMetrics := collected }
  have hread : b.ecmStats.isSome := Option.isSome_of_eq_some
    (ecmStats_beforeEcm henable topology hreads.ecm rt (readStats ie) (readStats de))
  have hbefore : Accounts (bytesUnder rt.cumulativeIface)
      (bytesUnder (settle topology tick b e').2.cumulativeIface) (b.interfaces.map ifaceEntry) :=
    accounts_beforeEcm (runtimeInv_reachable h) cfg topology tick (readStats ie) (readStats de)
  have hzone := zone_interfaceLoop cfg tick.o topology (readStats ie)
    (startTick cfg topology tick rt).sec (startTick cfg topology tick rt).rt
  have hrows := accounts_addWanRow hbefore hzone
  have hentries : entries = ((addWanRow topology b.rt b.interfaces).map ifaceEntry).map fun d =>
      d.raise (bytesUnder e.lanEcmMetrics d.key + wanBytes (wanIfindex topology) collected d.key) :=
    map_ifaceEntry_interfaceRows hread hbefore hzone tick e'
  have hkeys : entries.map Entry.key =
      (addWanRow topology b.rt b.interfaces).map InterfaceOverviewItem.ifindex := by
    rw [hentries, List.map_map, ← map_key_ifaceEntry]
    rfl
  refine ⟨?_, hkeys, fun d hd => ?_⟩
  · rw [hkeys, ← map_key_ifaceEntry]
    exact hrows.distinct
  · rw [hentries] at hd
    obtain ⟨d, hrow, rfl⟩ := List.mem_map.mp hd
    have hcurrent : bytesUnder b.rt.cumulativeIface d.key = d.balance := hrows.current d hrow
    show d.balance + _ = _
    rw [← hcurrent, add_assoc]
    rfl

/-- If the choices agree, the traffic is added once. -/
theorem wanAddedOnce_of_agrees {i : UInt32} (hwan : wanIfindex topology = some i)
    (hagrees : WanRowAgrees cfg topology) :
    let b := beforeEcm cfg topology tick rt (readStats ie) (readStats de)
    WanAddedOnce cfg topology tick b (hardware topology tick b) := by
  intro b
  let e := hardware topology tick b
  have hinv := runtimeInv_reachable h
  obtain ⟨hregistry, -, hgroup, -⟩ := beforeEcm_spec cfg topology tick (readStats ie)
    (readStats de) hinv
  have hkeyed : Keyed b.rt.deviceRegistry := hregistry ▸ hinv.keyed
  refine ⟨⟨i, fun collected row hrow hi => ?_,
    ⟨fun k => bytesUnder b.rt.cumulativeIface k + bytesUnder e.lanEcmMetrics k,
      fun collected => ?_⟩⟩, ⟨i, hwan, balance_device hwan cfg tick hkeyed
        ((grows_hardware hkeyed topology tick).keyed hgroup)⟩⟩
  · rw [zone_interfaceRows (zone_interfaceLoop cfg tick.o topology _ _ _) tick _ row hrow, hi]
    exact zoneOf_wanIfindex hwan
  · obtain ⟨hdistinct, hkeys, hbalance⟩ := balance_iface h henable topology hreads collected
    refine ⟨hdistinct, ?_, fun d hd => ?_⟩
    · rw [hkeys]
      exact (mem_row_iff hwan cfg tick rt ie de).mpr hagrees
    · rw [hbalance d hd]
      unfold wanBytes
      rw [hwan]
      simp only [Option.some.injEq]
      rfl

/-- If they do not, no row of an interface depends on the traffic of the WAN side. -/
theorem lost_of_not_agrees {i : UInt32} (hwan : wanIfindex topology = some i)
    (hagrees : ¬ WanRowAgrees cfg topology) :
    let b := beforeEcm cfg topology tick rt (readStats ie) (readStats de)
    let e := hardware topology tick b
    ∀ collected, ∀ d ∈ (snapshotWith cfg topology tick b e collected).interfaces.map ifaceEntry,
      d.balance = bytesUnder b.rt.cumulativeIface d.key + bytesUnder e.lanEcmMetrics d.key := by
  intro b e collected d hd
  obtain ⟨-, hkeys, hbalance⟩ := balance_iface h henable topology hreads collected
  have hne : some d.key ≠ wanIfindex topology := by
    rw [hwan]
    intro heq
    have hkey : d.key ∈ (addWanRow topology b.rt b.interfaces).map InterfaceOverviewItem.ifindex := by
      rw [← hkeys]
      exact List.mem_map_of_mem hd
    rw [Option.some.inj heq] at hkey
    exact hagrees ((mem_row_iff hwan cfg tick rt ie de).mp hkey)
  rw [hbalance d hd]
  unfold wanBytes
  rw [if_neg hne, add_zero]

end Tick

/-! ### Every tick -/

/-- A tick without traffic. -/
def idleTick : Tick where
  nowMs := 1000000
  ifaceEntries := some []
  deviceEntries := some []
  insertFailuresRead := true
  ecmEntries := some []
  arp := none
  ipNeigh := none
  hostnames := ∅
  deviceRemoved := fun _ => false
  ecmRecheck := fun _ => none
  ecmRemoved := fun _ => false
  o := .listed

/-- From the start the totals are zero until interfaces have traffic. -/
theorem totals_start (cfg : Config) (topology : TopologySnapshot) (tick : Tick) (i : UInt32) :
    bytesUnder (beforeEcm cfg topology tick (startRuntime .listed topology none ∅ ∅) ∅ ∅).rt.cumulativeIface
      i = 0 := by
  have hloop : ∀ sec rt, bytesUnder rt.cumulativeIface i = 0 →
      bytesUnder (interfaceLoop cfg tick.o topology ∅ sec rt).rt.cumulativeIface i = 0 := by
    intro sec rt hrt
    unfold interfaceLoop
    refine List.foldlRecOn (motive := fun st : IfaceLoop => bytesUnder st.rt.cumulativeIface i = 0)
      _ _ hrt fun st hst iface _ => ?_
    have hmetrics : ∀ isWan prev, (ifaceMetrics tick.o ∅ sec isWan iface.2 prev).1.bytes = 0 := by
      intro isWan prev
      have hnone : tick.o.order (∅ : HashMap InterfaceTrafficKey TrafficValue).entries = [] :=
        (tick.o.perm _).eq_nil
      unfold ifaceMetrics
      rw [hnone]
      rfl
    unfold interfaceStep
    dsimp only
    rw [bytesUnder_insert]
    by_cases hi : i = iface.2
    · subst hi
      rw [Function.update_self]
      show bytesUnder st.rt.cumulativeIface iface.2 + _ = 0
      rw [hst, hmetrics, add_zero]
    · rw [Function.update_of_ne hi, hst]
  let start := startTick cfg topology tick (startRuntime .listed topology none ∅ ∅)
  have hinv := runtimeInv_frame (runtimeInv_start .listed topology none ∅ ∅)
    ((frame_startTick cfg topology tick _).trans
      (frame_interfaceLoop cfg tick.o topology ∅ start.sec start.rt))
  obtain ⟨-, -, hsame, -⟩ := observe_spec cfg topology tick start.reading.refreshIpv6Neighbors hinv
  show bytesUnder (observe cfg topology tick start.reading.refreshIpv6Neighbors
    (interfaceLoop cfg tick.o topology ∅ start.sec start.rt).rt).2.cumulativeIface i = 0
  rw [hsame]
  refine hloop _ _ ?_
  rw [cumulativeIface_startTick]
  rfl

theorem lan_idleTick {cfg : Config} (henable : cfg.enableEcm = true) (topology : TopologySnapshot)
    (rt : MonitorRuntime) :
    (hardware topology idleTick (beforeEcm cfg topology idleTick rt ∅ ∅)).lanEcmMetrics = ∅ := by
  have hecm : idleTick.ecmEntries = some [] := rfl
  unfold hardware
  rw [ecmStats_beforeEcm henable topology hecm]
  rfl

/-- **For a topology with a WAN interface and a list of monitored interfaces, every tick adds the traffic
of the WAN side exactly once, if and only if the choices agree.** If they do not, no tick adds it to any
row of an interface. -/
theorem wan_added_once_iff {cfg : Config} (henable : cfg.enableEcm = true)
    {topology : TopologySnapshot} (hwan : ∃ iface ∈ topology.interfaces, iface.zone = "wan") :
    ((∀ rt tick ie de ee, Reachable rt → Reads tick ie de ee →
      let b := beforeEcm cfg topology tick rt (readStats ie) (readStats de)
      let e := hardware topology tick b
      (collectSnapshot cfg topology tick rt).1 =
          some (snapshotWith cfg topology tick b e e.wanEcmMetrics) ∧
        WanAddedOnce cfg topology tick b e) ↔ WanRowAgrees cfg topology) ∧
    (¬ WanRowAgrees cfg topology → ∀ rt tick ie de ee, Reachable rt → Reads tick ie de ee →
      let b := beforeEcm cfg topology tick rt (readStats ie) (readStats de)
      let e := hardware topology tick b
      (collectSnapshot cfg topology tick rt).1 =
          some (snapshotWith cfg topology tick b e e.wanEcmMetrics) ∧
        ∀ collected, ∀ d ∈ (snapshotWith cfg topology tick b e collected).interfaces.map ifaceEntry,
          d.balance = bytesUnder b.rt.cumulativeIface d.key + bytesUnder e.lanEcmMetrics d.key) := by
  obtain ⟨i, hi⟩ : ∃ i, wanIfindex topology = some i := by
    obtain ⟨iface, hiface, hzone⟩ := hwan
    refine Option.isSome_iff_exists.mp ?_
    unfold wanIfindex
    rw [Option.isSome_map, List.find?_isSome]
    exact ⟨iface, hiface, decide_eq_true hzone⟩
  have hlost : ¬ WanRowAgrees cfg topology → _ := fun hagrees rt tick ie de ee hrt hreads =>
    @lost_of_not_agrees rt hrt cfg henable topology tick ie de ee hreads i hi hagrees
  refine ⟨⟨fun hall => ?_, fun hagrees rt tick ie de ee hrt hreads =>
    ⟨collectSnapshot_eq hreads cfg topology rt,
      wanAddedOnce_of_agrees hrt henable topology hreads hi hagrees⟩⟩,
    fun hagrees rt tick ie de ee hrt hreads => ⟨collectSnapshot_eq hreads cfg topology rt,
      hlost hagrees rt tick ie de ee hrt hreads⟩⟩
  by_contra hagrees
  have hreads : Reads idleTick [] [] [] := ⟨rfl, rfl, rfl, rfl⟩
  have hstart := Reachable.start .listed topology none ∅ ∅
  obtain ⟨k, -, base, hbase⟩ := (hall _ _ _ _ _ hstart hreads).2.iface
  -- the balance of the entry is zero whatever is collected
  have hzero : ∀ collected : CounterQuad, base k + collected.bytes = 0 := by
    intro collected
    obtain ⟨-, hk, hbalance⟩ := hbase collected
    obtain ⟨d, hd, hkey⟩ := List.mem_map.mp hk
    have hsum := hbalance d hd
    rw [if_pos hkey, hlost hagrees _ _ _ _ _ hstart hreads collected d hd, hkey] at hsum
    have hlan : bytesUnder (hardware topology idleTick (beforeEcm cfg topology idleTick
        (startRuntime .listed topology none ∅ ∅) ∅ ∅)).lanEcmMetrics k = 0 := by
      rw [lan_idleTick henable]
      rfl
    have htotal := totals_start cfg topology idleTick k
    rw [← hsum]
    exact (congrArg₂ (· + ·) htotal hlan).trans (add_zero 0)
  have hnone := hzero .zero
  have hone := hzero ⟨.const 0, .const 1⟩
  have hbase : base k = 0 := by
    rw [← hnone]
    exact (add_zero _).symm
  rw [hbase, zero_add] at hone
  exact absurd (congrArg Quad.upV4 hone) (by decide)

/-- A PPPoE interface and the Ethernet interface under it, both in the zone `wan`. -/
def pppoeTopology : TopologySnapshot :=
  .ofInterfaces [⟨5, "pppoe-wan", "wan", [], []⟩, ⟨2, "eth0", "wan", [], []⟩]

def pppoeConfig (names : List String) : Config := ⟨names, true, 1.0⟩

theorem interfaces_pppoeTopology : pppoeTopology.interfaces =
    [⟨2, "eth0", "wan", [], []⟩, ⟨5, "pppoe-wan", "wan", [], []⟩] :=
  List.mergeSort_of_pairwise (by simp [pppoeTopology, TopologySnapshot.ofInterfaces])

theorem wanIfindex_pppoeTopology : wanIfindex pppoeTopology = some 2 := by
  unfold wanIfindex
  rw [interfaces_pppoeTopology]
  rfl

theorem wan_pppoeTopology : ∃ iface ∈ pppoeTopology.interfaces, iface.zone = "wan" := by
  rw [interfaces_pppoeTopology]
  exact ⟨_, List.mem_cons_self, rfl⟩

theorem wan_added_once_iff_pppoe :
    let cfg := pppoeConfig ["eth0", "pppoe-wan"]
    let rt := startRuntime .listed pppoeTopology none ∅ ∅
    let b := beforeEcm cfg pppoeTopology idleTick rt (readStats []) (readStats [])
    let e := hardware pppoeTopology idleTick b
    (collectSnapshot cfg pppoeTopology idleTick rt).1 =
        some (snapshotWith cfg pppoeTopology idleTick b e e.wanEcmMetrics) ∧
      WanAddedOnce cfg pppoeTopology idleTick b e := by
  have henable : (pppoeConfig ["eth0", "pppoe-wan"]).enableEcm = true := rfl
  refine (wan_added_once_iff henable wan_pppoeTopology).1.mpr ?_ _ idleTick [] [] []
    (.start .listed pppoeTopology none ∅ ∅) ⟨rfl, rfl, rfl, rfl⟩
  intro i hi
  obtain rfl := Option.some.inj (wanIfindex_pppoeTopology.symm.trans hi)
  refine Or.inl ⟨"eth0", List.mem_cons_self, ?_⟩
  unfold ifindexByName
  rw [interfaces_pppoeTopology]
  rfl

/-! ### The PPPoE interface alone is monitored -/

theorem not_agrees_pppoe : ¬ WanRowAgrees (pppoeConfig ["pppoe-wan"]) pppoeTopology := by
  have hlookup : (ifindexByName pppoeTopology).lookup "pppoe-wan" = some 5 := by
    unfold ifindexByName
    rw [interfaces_pppoeTopology]
    rfl
  intro h
  rcases h 2 wanIfindex_pppoeTopology with ⟨name, hname, hfirst⟩ | hnone
  · rw [List.mem_singleton.mp hname, hlookup] at hfirst
    cases hfirst
  · exact hnone 5 ⟨"pppoe-wan", List.mem_cons_self, hlookup⟩ rfl

/-- Where every interface is of the WAN side no neighbour is an owner. -/
theorem observeNeighbors_wan {topology : TopologySnapshot}
    (h : ∀ iface ∈ topology.interfaces, wanZone iface = true) (nowMs ipv6FetchMs : UInt64)
    (ownership : HashMap EcmAddress NeighborOwnership)
    (neighbors : List Neighbors.FilteredNeighborEntry) :
    observeNeighbors topology nowMs ipv6FetchMs ownership neighbors = ownership := by
  refine observeNeighbors_keeps (P := fun m => m = ownership) ?_ rfl _
  intro m _ n _ ifindex iface _ hiface hlan
  have hkey := topology.keyed ifindex iface hiface
  have hmem := mem_interfaces.mpr (show topology.byIfindex iface.ifindex = some iface from
    hkey ▸ hiface)
  rw [h iface hmem] at hlan
  cases hlan

def pppoeBefore : BeforeEcm :=
  beforeEcm (pppoeConfig ["pppoe-wan"]) pppoeTopology (addressTick #v[0x08080808, 0, 0, 0])
    (startRuntime .listed pppoeTopology none ∅ ∅) ∅ ∅

theorem neighborOwnership_pppoeBefore : pppoeBefore.rt.neighborOwnership = ∅ := by
  have henable : (pppoeConfig ["pppoe-wan"]).enableEcm = true := rfl
  have hwan : ∀ iface ∈ pppoeTopology.interfaces, wanZone iface = true := by
    rw [interfaces_pppoeTopology]
    decide
  have hobserve : ∀ tick refresh rt, rt.neighborOwnership = ∅ →
      (observe (pppoeConfig ["pppoe-wan"]) pppoeTopology tick refresh rt).2.neighborOwnership = ∅ := by
    intro tick refresh rt hnone
    obtain ⟨-, -, -, howners⟩ := readNeighbors_snd (pppoeConfig ["pppoe-wan"]) pppoeTopology tick
      refresh rt
    unfold observe
    dsimp only
    rw [if_pos henable]
    show observeNeighbors _ _ _ _ _ = _
    rw [observeNeighbors_wan hwan, howners, hnone]
    rfl
  refine hobserve _ _ _ ?_
  rw [neighborOwnership_interfaceLoop, neighborOwnership_startTick henable]
  rfl

theorem hardware_pppoeBefore :
    let e := hardware pppoeTopology (addressTick #v[0x08080808, 0, 0, 0]) pppoeBefore
    e.wanEcmMetrics.bytes = ⟨0, 100, 0, 0⟩ ∧ e.lanEcmMetrics = ∅ := by
  have henable : (pppoeConfig ["pppoe-wan"]).enableEcm = true := rfl
  have hecm : (addressTick #v[0x08080808, 0, 0, 0]).ecmEntries =
      some [(⟨#v[0x08080808, 0, 0, 0], 4, 1⟩, [⟨1, 100⟩])] := rfl
  have hsubnets : subnetsOf pppoeTopology = ⟨[], [], [], [], []⟩ := by
    unfold subnetsOf localV6Subnets
    rw [interfaces_pppoeTopology]
    rfl
  have hprev : pppoeBefore.rt.prevEcmBytes = ∅ :=
    prevEcmBytes_beforeEcm henable pppoeTopology _ _ _ _
  have hstats := ecmStats_beforeEcm henable pppoeTopology hecm
    (startRuntime .listed pppoeTopology none ∅ ∅) ∅ ∅
  have hstats : pppoeBefore.ecmStats = _ := hstats
  intro e
  have he : e = ecmStep pppoeBefore.rt.deviceRegistry
      (attributionOf ⟨[], [], [], [], []⟩ ∅ 1000000) 1000000 pppoeBefore.ecmSec
      ⟨⟨∅, pppoeBefore.rt.ecmLastActiveMs⟩, pppoeBefore.devices, [], .zero, ∅, ∅, []⟩
      ⟨#v[0x08080808, 0, 0, 0], 4, 1⟩ ⟨1, 100⟩ := by
    show hardware pppoeTopology (addressTick #v[0x08080808, 0, 0, 0]) pppoeBefore = _
    unfold hardware ecmLoop
    rw [hstats, hprev, hsubnets, neighborOwnership_pppoeBefore]
    rfl
  rw [he]
  exact ⟨rfl, rfl⟩

/-- **The traffic is lost**: 100 bytes are collected for the WAN side, and every row is at zero. -/
theorem wan_bytes_lost :
    let cfg := pppoeConfig ["pppoe-wan"]
    let tick := addressTick #v[0x08080808, 0, 0, 0]
    let rt := startRuntime .listed pppoeTopology none ∅ ∅
    let e := hardware pppoeTopology tick (beforeEcm cfg pppoeTopology tick rt ∅ ∅)
    e.wanEcmMetrics.bytes = ⟨0, 100, 0, 0⟩ ∧
      ∃ s, (collectSnapshot cfg pppoeTopology tick rt).1 = some s ∧
        ∀ row ∈ s.interfaces, row.cumulative.bytes = 0 := by
  intro cfg tick rt e
  have henable : cfg.enableEcm = true := rfl
  have hreads : Reads tick [] [] [(⟨#v[0x08080808, 0, 0, 0], 4, 1⟩, [⟨1, 100⟩])] :=
    ⟨rfl, rfl, rfl, rfl⟩
  obtain ⟨hwan, hlan⟩ := hardware_pppoeBefore
  have he : e = hardware pppoeTopology tick pppoeBefore := rfl
  refine ⟨by rw [he]; exact hwan, _, collectSnapshot_eq hreads cfg pppoeTopology rt,
    fun row hrow => ?_⟩
  have hbalance := lost_of_not_agrees (.start .listed pppoeTopology none ∅ ∅) henable pppoeTopology
    hreads wanIfindex_pppoeTopology not_agrees_pppoe _ (ifaceEntry row) (List.mem_map_of_mem hrow)
  have htotal := totals_start cfg pppoeTopology tick row.ifindex
  have hzero : bytesUnder e.lanEcmMetrics row.ifindex = 0 := by
    rw [show e.lanEcmMetrics = ∅ from hlan]
    rfl
  exact hbalance.trans ((congrArg₂ (· + ·) htotal hzero).trans (add_zero 0))

end BandixPlus.Monitor.WanRows
