import BandixPlus.Lib.Run
import BandixPlus.Monitor.Partition
import BandixPlus.Service.State

/-! # The cleanup task

The task selects the devices that were not seen for the time to live, gives up the lock on the registry, and
removes them later. In between a tick can see a device again.

* `cleanup_removes_stale`: if no selected device is seen again before it is removed, every device that is
  removed was last seen before the threshold.
* `cleanup_removes_returned`: a device that comes back in between is removed with its history. -/

namespace BandixPlus.Service.Cleanup

open BandixPlus.Common BandixPlus.Lib.Maps BandixPlus.Lib.Run BandixPlus.Lib.Tally
open BandixPlus.Monitor.Counters BandixPlus.Monitor.Snapshot BandixPlus.Monitor.Topology
open BandixPlus.Monitor.Runtime BandixPlus.Monitor.Interfaces BandixPlus.Monitor.Devices
open BandixPlus.Monitor.Neighbors BandixPlus.Monitor.Ecm BandixPlus.Monitor.Collect
open BandixPlus.Monitor.Group
open BandixPlus.Monitor.Registry BandixPlus.Monitor.Partition BandixPlus.Net.Text
open BandixPlus.Service.State
open BandixPlus.Monitor.Session (updateHostname lookup_removeDevice)
open BandixPlus.Persistence.History (freshHistogram)
open BandixPlus.Persistence.CurrentHour (sampleManager utc)

/-! ### Runs -/

/-- A step, and the topology of its time. -/
abbrev Input := TopologySnapshot × Op

def stepIn (opts : Options) (st : ServiceState) (x : Input) : ServiceState := step opts x.1 st x.2

/-- The device is selected by a cleanup with this threshold, and not yet removed from the runtime. -/
def Pending (st : ServiceState) (threshold : UInt64) (key : DeviceKey) : Prop :=
  ∃ c, st.cleanup = some c ∧ (c.phase = .names ∨ c.phase = .runtime) ∧ c.staleThreshold = threshold ∧
    key ∈ c.staleDevices

/-- The step enters a device into the registry as seen at this time: a tick that finds it online, or a new
host name for a device that the last snapshot shows and the registry does not have. -/
def SeenAt (opts : Options) (st : ServiceState) (x : Input) (key : DeviceKey) (ms : UInt64) : Prop :=
  match x.2 with
  | .tick tick => key ∈ onlineDevices opts.config x.1 tick st.runtime ∧ ms = tick.nowMs
  | .hostname o iface mac hostname nowMs =>
    Requests o x.1 iface mac key ∧ key ∉ st.runtime.deviceRegistry ∧
      (renameInSnapshot st.snapshot key.1 (macToString key.2) (trim hostname)).1.isSome ∧ ms = nowMs
  | .cleanup _ _ => False
  | .delete _ _ _ => False

/-- **No selected device comes back**: if one is seen again, then at a time before the threshold. -/
def NoneReturns (opts : Options) (st : ServiceState) (x : Input) : Prop :=
  ∀ threshold key ms, Pending st threshold key → SeenAt opts st x key ms → ms < threshold

/-- **What a step of the cleanup task removes from the runtime** was last seen before its threshold. -/
def RemovesStale (opts : Options) (st : ServiceState) (x : Input) : Prop :=
  ∀ o nowMs, x.2 = .cleanup o nowMs → ∀ key known,
    st.runtime.deviceRegistry.lookup key = some known → key ∉ (stepIn opts st x).runtime.deviceRegistry →
      ∃ c, st.cleanup = some c ∧ known.lastSeenMs < c.staleThreshold

/-! ### The registry after a step -/

section
variable {opts : Options} {st : ServiceState} {key : DeviceKey}

theorem runtime_collectorTick (opts : Options) (topology : TopologySnapshot) (st : ServiceState)
    (tick : Tick) : (collectorTick opts topology st tick).runtime =
      (collectSnapshot opts.config topology tick st.runtime).2 := by
  unfold collectorTick
  split
  · next heq => rw [heq]
  · next heq =>
    rw [heq]
    dsimp only
    split_ifs <;> rfl

theorem cleanup_collectorTick (opts : Options) (topology : TopologySnapshot) (st : ServiceState)
    (tick : Tick) : (collectorTick opts topology st tick).cleanup = st.cleanup := by
  unfold collectorTick
  split
  · rfl
  · dsimp only
    split_ifs <;> rfl

theorem lookup_removeDevices (keys : List DeviceKey) (rt : MonitorRuntime) (key : DeviceKey) :
    (removeDevices keys rt).deviceRegistry.lookup key =
      if key ∈ keys then none else rt.deviceRegistry.lookup key := by
  unfold removeDevices
  induction keys generalizing rt with
  | nil => simp
  | cons first rest ih =>
    rw [List.foldl_cons, ih, lookup_removeDevice]
    by_cases hrest : key ∈ rest
    · simp [hrest]
    · by_cases hfirst : key = first
      · simp [hfirst]
      · simp [hrest, hfirst]

/-- A host name is given to a known device, or to a new one that is seen now. -/
theorem lookup_updateHostname {rt : MonitorRuntime} {key' : DeviceKey} {name : String}
    {snapshotDevice : Option DeviceListItem} {nowMs : UInt64} {known' : KnownDevice}
    (h : (updateHostname rt key' name snapshotDevice nowMs).deviceRegistry.lookup key = some known') :
    (∃ known, rt.deviceRegistry.lookup key = some known ∧ known'.lastSeenMs = known.lastSeenMs) ∨
      (key = key' ∧ key ∉ rt.deviceRegistry ∧ snapshotDevice.isSome ∧ known'.lastSeenMs = nowMs) := by
  unfold updateHostname at h
  split at h
  · next known hlookup =>
    dsimp only at h
    rw [lookup_insert_eq] at h
    split_ifs at h with hkey
    · subst hkey
      exact Or.inl ⟨known, hlookup, by rw [← Option.some.inj h]⟩
    · exact Or.inl ⟨known', h, rfl⟩
  · next hlookup =>
    dsimp only at h
    rw [lookup_insert_eq] at h
    split_ifs at h with hkey
    · subst hkey
      exact Or.inr ⟨rfl, AList.lookup_eq_none.mp hlookup, rfl, by rw [← Option.some.inj h]⟩
    · exact Or.inl ⟨known', h, rfl⟩
  · exact Or.inl ⟨known', h, rfl⟩

/-- A cleanup step removes devices alone, and only the one that is due to. -/
theorem lookup_cleanupStep (o : IterOrder) (topology : TopologySnapshot) (nowMs : UInt64) :
    (cleanupStep opts o topology nowMs st).runtime.deviceRegistry.lookup key =
        st.runtime.deviceRegistry.lookup key ∨
      ∃ c, st.cleanup = some c ∧ c.phase = .runtime ∧ key ∈ c.staleDevices ∧
        (cleanupStep opts o topology nowMs st).runtime.deviceRegistry.lookup key = none := by
  obtain ⟨runtime, _, _, _, _, heq, hruntime, -⟩ := cleanupStep_cases opts o topology nowMs st
  rw [heq]
  dsimp only
  rcases hruntime with rfl | ⟨c, hcleanup, hphase, rfl⟩
  · exact Or.inl rfl
  · rw [lookup_removeDevices]
    split_ifs with hkey
    · exact Or.inr ⟨c, hcleanup, hphase, hkey, rfl⟩
    · exact Or.inl rfl

/-- The selected devices are removed when it is the turn of the registry. -/
theorem removed_cleanupStep {c : Cleanup} (hcleanup : st.cleanup = some c) (hphase : c.phase = .runtime)
    (hkey : key ∈ c.staleDevices) (opts : Options) (o : IterOrder) (topology : TopologySnapshot)
    (nowMs : UInt64) :
    (cleanupStep opts o topology nowMs st).runtime.deviceRegistry.lookup key = none := by
  unfold cleanupStep
  rw [hcleanup]
  dsimp only
  unfold continueCleanup
  rw [hphase]
  dsimp only
  rw [lookup_removeDevices, if_pos hkey]

/-- **A known device was last seen when it was before, or it is seen by this step.** -/
theorem lastSeen_stepIn {x : Input} {known' : KnownDevice}
    (h : (stepIn opts st x).runtime.deviceRegistry.lookup key = some known') :
    (∃ known, st.runtime.deviceRegistry.lookup key = some known ∧
        known'.lastSeenMs = known.lastSeenMs) ∨ SeenAt opts st x key known'.lastSeenMs := by
  obtain ⟨topology, op⟩ := x
  cases op with
  | tick tick =>
    have hlookup : (((onlineDevices opts.config topology tick st.runtime).lookup key).map fun item =>
        knownDevice key item tick.nowMs).or (st.runtime.deviceRegistry.lookup key) = some known' := by
      rw [← lookup_registerDevices tick.o, ← deviceRegistry_collectSnapshot, ← runtime_collectorTick]
      exact h
    cases honline : (onlineDevices opts.config topology tick st.runtime).lookup key with
    | none =>
      rw [honline] at hlookup
      exact Or.inl ⟨known', hlookup, rfl⟩
    | some item =>
      rw [honline] at hlookup
      refine Or.inr ⟨mem_iff_lookup.mpr ⟨item, honline⟩, ?_⟩
      rw [← Option.some.inj hlookup]
      rfl
  | cleanup o nowMs =>
    have hlookup : (cleanupStep opts o topology nowMs st).runtime.deviceRegistry.lookup key =
        some known' := h
    rcases @lookup_cleanupStep opts st key o topology nowMs with
      hsame | ⟨c, -, -, -, hnone⟩
    · exact Or.inl ⟨known', hsame ▸ hlookup, rfl⟩
    · rw [hnone] at hlookup
      cases hlookup
  | hostname o iface mac name nowMs =>
    unfold stepIn step at h
    dsimp only at h
    rcases setDeviceHostname_cases o topology st iface mac name nowMs with heq | ⟨key', hkey', heq | heq⟩
    · rw [heq] at h
      exact Or.inl ⟨known', h, rfl⟩
    · rw [heq] at h
      exact Or.inl ⟨known', h, rfl⟩
    · rw [heq] at h
      rcases lookup_updateHostname h with hknown | ⟨rfl, hnew, hrow, hms⟩
      · exact Or.inl hknown
      · exact Or.inr ⟨hkey', hnew, hrow, hms⟩
  | delete o iface mac =>
    unfold stepIn step at h
    dsimp only at h
    rcases deleteDevice_cases o topology st iface mac with ⟨message, heq⟩ | ⟨key', result, -, heq⟩
    · rw [heq] at h
      exact Or.inl ⟨known', h, rfl⟩
    · rw [heq] at h
      have hlookup : (st.runtime.removeDevice key'.1 key'.2).2.deviceRegistry.lookup key = some known' := h
      rw [lookup_removeDevice] at hlookup
      split_ifs at hlookup
      exact Or.inl ⟨known', hlookup, rfl⟩

/-! ### The invariant -/

theorem mem_staleDevices {o : IterOrder} {threshold : UInt64}
    {registry : HashMap DeviceKey KnownDevice} : key ∈ staleDevices o threshold registry ↔
      ∃ known, registry.lookup key = some known ∧ known.lastSeenMs < threshold := by
  unfold staleDevices
  simp only [List.mem_map, List.mem_filter, mem_order_iff, decide_eq_true_eq]
  constructor
  · rintro ⟨e, ⟨hlookup, hstale⟩, rfl⟩
    exact ⟨e.2, hlookup, hstale⟩
  · rintro ⟨known, hlookup, hstale⟩
    exact ⟨⟨key, known⟩, ⟨hlookup, hstale⟩, rfl⟩

theorem cleanup_setDeviceHostname (o : IterOrder) (topology : TopologySnapshot) (st : ServiceState)
    (iface mac name : String) (nowMs : UInt64) :
    (setDeviceHostname o topology st iface mac name nowMs).2.cleanup = st.cleanup := by
  rcases setDeviceHostname_cases o topology st iface mac name nowMs with heq | ⟨_, _, heq | heq⟩
  · rw [heq]
  · rw [heq]
  · rw [heq]

theorem cleanup_deleteDevice (o : IterOrder) (topology : TopologySnapshot) (st : ServiceState)
    (iface mac : String) : (deleteDevice o topology st iface mac).2.cleanup = st.cleanup := by
  rcases deleteDevice_cases o topology st iface mac with ⟨_, heq⟩ | ⟨key, result, _, heq⟩
  · rw [heq]
  · rw [heq]
    unfold deleted
    dsimp only

/-- A device is selected by the first step of a cleanup alone, when it is stale. -/
theorem pending_cleanupStep {o : IterOrder} {topology : TopologySnapshot} {nowMs threshold : UInt64}
    (h : Pending (cleanupStep opts o topology nowMs st) threshold key) :
    Pending st threshold key ∨
      ∀ known, (cleanupStep opts o topology nowMs st).runtime.deviceRegistry.lookup key = some known →
        known.lastSeenMs < threshold := by
  obtain ⟨c', hcleanup', hphase', hthreshold, hkey⟩ := h
  unfold cleanupStep at hcleanup' ⊢
  cases hcleanup : st.cleanup with
  | none =>
    rw [hcleanup] at hcleanup'
    dsimp only at hcleanup' ⊢
    unfold selectStale at hcleanup' ⊢
    dsimp only at hcleanup' ⊢
    split_ifs at hcleanup' ⊢
    · rw [hcleanup] at hcleanup'
      cases hcleanup'
    · rw [hcleanup] at hcleanup'
      cases hcleanup'
    · -- the selection
      obtain rfl := Option.some.inj hcleanup'
      obtain ⟨known, hknown, hstale⟩ := mem_staleDevices.mp hkey
      refine Or.inr fun known' hknown' => ?_
      have hsame : known' = known := Option.some.inj (hknown'.symm.trans hknown)
      rw [hsame, ← hthreshold]
      exact hstale
  | some c =>
    rw [hcleanup] at hcleanup'
    dsimp only at hcleanup'
    unfold continueCleanup at hcleanup'
    left
    cases hphase : c.phase with
    | names =>
      rw [hphase] at hcleanup'
      obtain rfl := Option.some.inj hcleanup'
      exact ⟨c, hcleanup, Or.inl hphase, hthreshold, hkey⟩
    | files rest =>
      rw [hphase] at hcleanup'
      cases rest with
      | nil => cases hcleanup'
      | cons first rest =>
        obtain rfl := Option.some.inj hcleanup'
        simp at hphase'
    | _ =>
      -- the selection is not looked at again
      rw [hphase] at hcleanup'
      obtain rfl := Option.some.inj hcleanup'
      simp at hphase'

theorem pending_stepIn {x : Input} {threshold : UInt64} (h : Pending (stepIn opts st x) threshold key) :
    Pending st threshold key ∨
      ∀ known, (stepIn opts st x).runtime.deviceRegistry.lookup key = some known →
        known.lastSeenMs < threshold := by
  obtain ⟨topology, op⟩ := x
  cases op with
  | cleanup o nowMs => exact pending_cleanupStep h
  | tick tick =>
    obtain ⟨c, hcleanup, hc⟩ := h
    unfold stepIn step at hcleanup
    dsimp only at hcleanup
    rw [cleanup_collectorTick] at hcleanup
    exact Or.inl ⟨c, hcleanup, hc⟩
  | hostname o iface mac name nowMs =>
    obtain ⟨c, hcleanup, hc⟩ := h
    unfold stepIn step at hcleanup
    dsimp only at hcleanup
    rw [cleanup_setDeviceHostname] at hcleanup
    exact Or.inl ⟨c, hcleanup, hc⟩
  | delete o iface mac =>
    obtain ⟨c, hcleanup, hc⟩ := h
    unfold stepIn step at hcleanup
    dsimp only at hcleanup
    rw [cleanup_deleteDevice] at hcleanup
    exact Or.inl ⟨c, hcleanup, hc⟩

/-- **Every selected device is stale**, as long as it is known. -/
def PendingStale (st : ServiceState) : Prop :=
  ∀ threshold key known, Pending st threshold key → st.runtime.deviceRegistry.lookup key = some known →
    known.lastSeenMs < threshold

theorem pendingStale_stepIn {x : Input} (h : PendingStale st) (hnone : NoneReturns opts st x) :
    PendingStale (stepIn opts st x) := by
  intro threshold key known' hpending hknown'
  rcases pending_stepIn hpending with hpending | hselected
  · rcases lastSeen_stepIn hknown' with ⟨known, hknown, hsame⟩ | hseen
    · rw [hsame]
      exact h threshold key known hpending hknown
    · exact hnone threshold key _ hpending hseen
  · exact hselected known' hknown'

theorem removesStale_of_pendingStale {x : Input} (h : PendingStale st) : RemovesStale opts st x := by
  obtain ⟨topology, op⟩ := x
  rintro o nowMs rfl key known hknown hremoved
  have hremoved : key ∉ (cleanupStep opts o topology nowMs st).runtime.deviceRegistry := hremoved
  rcases @lookup_cleanupStep opts st key o topology nowMs with
    hsame | ⟨c, hcleanup, hphase, hkey, -⟩
  · rw [← AList.lookup_eq_none, hsame, hknown] at hremoved
    cases hremoved
  · exact ⟨c, hcleanup, h c.staleThreshold key known ⟨c, hcleanup, Or.inr hphase, rfl, hkey⟩ hknown⟩

end

/-- **The cleanup removes stale devices only**, in every run in which no selected device is seen again, at
or after the threshold, before it is removed from the runtime. -/
theorem cleanup_removes_stale (opts : Options) (st : ServiceState) (hidle : st.cleanup = none)
    (xs : List Input) (hnone : Along (stepIn opts) (NoneReturns opts) st xs) :
    Along (stepIn opts) (RemovesStale opts) st xs := by
  have hstart : PendingStale st := by
    rintro threshold key known ⟨c, hcleanup, -⟩ -
    rw [hidle] at hcleanup
    cases hcleanup
  exact hnone.imp (fun st x h hx => pendingStale_stepIn h hx)
    (fun st x h _ => removesStale_of_pendingStale h) hstart

/-! ### A device that comes back -/

/-- A known device of the LAN side with traffic gets a row. -/
theorem mem_counterLoop {rt : MonitorRuntime} {topology : TopologySnapshot}
    {stats : HashMap DeviceTrafficKey TrafficValue} {k : DeviceTrafficKey} {v : TrafficValue}
    (hstats : stats.lookup k = some v) (hmoved : deltaOf rt.prevDeviceBytes ⟨k, v⟩ ≠ 0)
    (hknown : (k.ifindex, k.mac) ∈ rt.deviceRegistry) (hlan : some k.ifindex ≠ wanIfindex topology)
    (hunicast : isMulticastMac k.mac = false) (tick : Tick) (sec : Float) (prune : Bool)
    (devices : DevicesGroup) :
    (k.ifindex, k.mac) ∈ (counterLoop tick topology rt sec prune stats devices).devices := by
  have hbroadcast : isBroadcastMac k.mac = false := by
    by_contra hbroadcast
    rw [isMulticastMac_of_broadcast (by simpa using hbroadcast)] at hunicast
    cases hunicast
  have hplace : placeOf rt.deviceRegistry (wanIfindex topology) devices k = .device := by
    unfold placeOf
    simp [hbroadcast, hunicast, hlan, hknown]
  have hmine : (⟨k, v⟩ : TcCounter) ∈ ofKey (deviceKey rt.deviceRegistry
      (wanIfindex topology) devices rt.prevDeviceBytes) (k.ifindex, k.mac)
      (tick.o.order stats.entries) :=
    mem_ofKey.mpr ⟨mem_order_iff.mpr hstats, deviceKey_eq_some.mpr ⟨hmoved, hplace, rfl⟩⟩
  obtain ⟨known, hlookup⟩ := mem_iff_lookup.mp hknown
  rw [mem_iff_lookup, (placed_counterLoop tick topology rt sec prune stats devices).row]
  unfold rowOf
  dsimp only
  rw [if_neg (List.ne_nil_of_mem hmine), hlookup]
  cases devices.lookup (k.ifindex, k.mac) with
  | none => exact ⟨_, rfl⟩
  | some item => exact ⟨_, rfl⟩

/-- The base of the software counters is as it was when they are attributed. -/
theorem prevDeviceBytes_observe (cfg : Config) (topology : TopologySnapshot) (tick : Tick)
    (stats : HashMap InterfaceTrafficKey TrafficValue) (rt : MonitorRuntime) :
    let start := startTick cfg topology tick rt
    let st := interfaceLoop cfg tick.o topology stats start.sec start.rt
    (observe cfg topology tick start.reading.refreshIpv6Neighbors st.rt).2.prevDeviceBytes =
      rt.prevDeviceBytes := by
  intro start st
  have hstart : start.rt.prevDeviceBytes = rt.prevDeviceBytes := by
    show (startTick cfg topology tick rt).rt.prevDeviceBytes = _
    unfold startTick readEcm tickSeconds
    dsimp only
    split_ifs <;> first | rfl | (split <;> rfl)
  have hloop : st.rt.prevDeviceBytes = start.rt.prevDeviceBytes := by
    show (interfaceLoop cfg tick.o topology stats start.sec start.rt).rt.prevDeviceBytes = _
    unfold interfaceLoop
    exact List.foldlRecOn (motive := fun st : IfaceLoop =>
      st.rt.prevDeviceBytes = start.rt.prevDeviceBytes) _ _ rfl fun st hst iface _ => hst
  have hobserve : (observe cfg topology tick start.reading.refreshIpv6Neighbors
      st.rt).2.prevDeviceBytes = st.rt.prevDeviceBytes := by
    unfold observe readNeighbors listNeighborsFiltered
    dsimp only
    split_ifs <;> rfl
  exact hobserve.trans (hloop.trans hstart)

/-- **A known device of the LAN side that has traffic is online.** -/
theorem mem_onlineDevices {cfg : Config} {topology : TopologySnapshot} {tick : Tick}
    {rt : MonitorRuntime} {ie : List (InterfaceTrafficKey × TrafficValue)}
    {de : List (DeviceTrafficKey × TrafficValue)} (hie : tick.ifaceEntries = some ie)
    (hde : tick.deviceEntries = some de) (hread : tick.insertFailuresRead = true)
    {k : DeviceTrafficKey} {v : TrafficValue} (hstats : (readStats de).lookup k = some v)
    (hmoved : deltaOf rt.prevDeviceBytes ⟨k, v⟩ ≠ 0)
    (hknown : (k.ifindex, k.mac) ∈ rt.deviceRegistry) (hlan : some k.ifindex ≠ wanIfindex topology)
    (hunicast : isMulticastMac k.mac = false) :
    (k.ifindex, k.mac) ∈ onlineDevices cfg topology tick rt := by
  let start := startTick cfg topology tick rt
  let st := interfaceLoop cfg tick.o topology (readStats ie) start.sec start.rt
  let seen := observe cfg topology tick start.reading.refreshIpv6Neighbors st.rt
  let b := beforeEcm cfg topology tick rt (readStats ie) (readStats de)
  have hbase : seen.2.prevDeviceBytes = rt.prevDeviceBytes :=
    prevDeviceBytes_observe cfg topology tick (readStats ie) rt
  have hregistry : seen.2.deviceRegistry = rt.deviceRegistry :=
    deviceRegistry_beforeEcm cfg topology tick (readStats ie) (readStats de)
  have hgroup : (k.ifindex, k.mac) ∈ b.devices := by
    show _ ∈ (pruneCounters _ (counterLoop tick topology seen.2 _ _ (readStats de) _)).devices
    rw [devices_pruneCounters]
    exact mem_counterLoop hstats (hbase ▸ hmoved) (hregistry ▸ hknown) hlan hunicast tick _ _ seen.1
  exact mem_onlineDevices_of_beforeEcm cfg topology tick hie hde hread hgroup

/-! ### A run in which a device comes back -/

def ttlOptions : Options where
  config := ⟨["br-lan"], false, 1.0⟩
  persistence := sampleManager
  trafficEnableStorage := false
  historyWindowMinutes := 1
  deviceTtlDays := 1
  zone := utc

def phoneMac : Mac := .replicate 6 0x04

def lanTopology : TopologySnapshot := .ofInterfaces [⟨7, "br-lan", "lan", ["192.168.1.1/24"], []⟩]

theorem wanIfindex_lanTopology : wanIfindex lanTopology = none := by
  unfold wanIfindex TopologySnapshot.interfaces
  show (List.find? _ (List.mergeSort [(⟨7, "br-lan", "lan", ["192.168.1.1/24"], []⟩ : Interface)] _)).map _ =
    none
  rw [List.mergeSort_singleton]
  rfl

def phone : KnownDevice :=
  ⟨7, phoneMac, ["192.168.1.30"], [], "phone", "br-lan", "192.168.1.0/24", 1000⟩

/-- A service that knows one device, last seen on the first of January 1970. -/
def phoneService : ServiceState where
  files := .empty
  snapshot := ⟨0, [], []⟩
  runtime := { MonitorRuntime.default with
    deviceRegistry := (∅ : HashMap DeviceKey KnownDevice).insert (7, phoneMac) phone }
  history := .new 60
  histogram := freshHistogram sampleManager
  lastPeriodicPersistMs := 0
  cleanup := none

/-- A tick with these counters; without any the reading fails. -/
def countersTick (nowMs : UInt64) (entries : Option (List (DeviceTrafficKey × TrafficValue))) : Tick where
  nowMs
  ifaceEntries := some []
  deviceEntries := entries
  insertFailuresRead := true
  ecmEntries := none
  arp := none
  ipNeigh := none
  hostnames := ∅
  deviceRemoved := fun _ => false
  ecmRecheck := fun _ => none
  ecmRemoved := fun _ => false
  o := .listed

def phoneCounter : DeviceTrafficKey := ⟨7, phoneMac, 4, 0⟩

/-- The phone sends a packet. -/
def returnTick : Tick := countersTick 172800500 (some [(phoneCounter, ⟨1, 100⟩)])

/-- The phone is selected on the third of January, and sends a packet before it is removed. -/
def returnInputs : List Input :=
  [(lanTopology, .cleanup .listed 172800000), (lanTopology, .cleanup .listed 172800001),
    (lanTopology, .tick returnTick), (lanTopology, .cleanup .listed 172801000)]

/-- The cleanup after the lookup of the interfaces. -/
def phoneCleanup : Cleanup := ⟨86400000, [(7, phoneMac)], [some "br-lan"], .runtime⟩

/-- The phone is selected. -/
def phoneSelected : ServiceState := { phoneService with cleanup := some phoneCleanup }

theorem stepIn_phoneService :
    stepIn ttlOptions (stepIn ttlOptions phoneService (lanTopology, .cleanup .listed 172800000))
      (lanTopology, .cleanup .listed 172800001) = phoneSelected := by
  rfl

/-- The phone is online again. -/
theorem seen_phone : ∃ known,
    (collectorTick ttlOptions lanTopology phoneSelected returnTick).runtime.deviceRegistry.lookup
      (7, phoneMac) = some known ∧ known.lastSeenMs = 172800500 := by
  have hknown : (7, phoneMac) ∈ phoneSelected.runtime.deviceRegistry :=
    (AList.mem_insert _).mpr (Or.inl rfl)
  have hmoved : deltaOf phoneSelected.runtime.prevDeviceBytes ⟨phoneCounter, ⟨1, 100⟩⟩ ≠ 0 := by
    decide
  have hlan : some (7 : UInt32) ≠ wanIfindex lanTopology := by
    rw [wanIfindex_lanTopology]
    exact Option.some_ne_none 7
  have honline : (7, phoneMac) ∈
      onlineDevices ttlOptions.config lanTopology returnTick phoneSelected.runtime :=
    mem_onlineDevices (k := phoneCounter) rfl rfl rfl (lookup_insert_eq _ _ _ _) hmoved hknown hlan
      (by decide)
  obtain ⟨item, hitem⟩ := mem_iff_lookup.mp honline
  refine ⟨knownDevice (7, phoneMac) item 172800500, ?_, rfl⟩
  rw [runtime_collectorTick, deviceRegistry_collectSnapshot, lookup_registerDevices, hitem]
  rfl

/-- **A device that came back is removed**, although it was seen half a second before. -/
theorem cleanup_removes_returned : ¬ ∀ (opts : Options) (st : ServiceState) (xs : List Input),
    st.cleanup = none → Along (stepIn opts) (RemovesStale opts) st xs := by
  intro hclaim
  have hremoves := along_iff_split.mp (hclaim ttlOptions phoneService returnInputs rfl)
    [(lanTopology, .cleanup .listed 172800000), (lanTopology, .cleanup .listed 172800001),
      (lanTopology, .tick returnTick)] (lanTopology, .cleanup .listed 172801000) [] rfl
  rw [List.foldl_cons, List.foldl_cons, List.foldl_cons, List.foldl_nil, stepIn_phoneService] at hremoves
  have hcleanup : (collectorTick ttlOptions lanTopology phoneSelected returnTick).cleanup =
      some phoneCleanup := cleanup_collectorTick ttlOptions lanTopology phoneSelected returnTick
  have hremoved := removed_cleanupStep hcleanup rfl List.mem_cons_self ttlOptions .listed lanTopology
    172801000
  obtain ⟨known, hknown, hseen⟩ := seen_phone
  obtain ⟨c, hc, hstale⟩ := hremoves .listed 172801000 rfl (7, phoneMac) known hknown
    (AList.lookup_eq_none.mp hremoved)
  obtain rfl := Option.some.inj (hc.symm.trans hcleanup)
  rw [hseen] at hstale
  exact absurd hstale (by decide)

/-- No device is seen again. -/
def quietInputs : List Input :=
  [(lanTopology, .cleanup .listed 172800000), (lanTopology, .cleanup .listed 172800001),
    (lanTopology, .tick (countersTick 172800500 none)), (lanTopology, .cleanup .listed 172801000)]

theorem cleanup_removes_stale_quiet :
    Along (stepIn ttlOptions) (RemovesStale ttlOptions) phoneService quietInputs := by
  refine cleanup_removes_stale ttlOptions phoneService rfl quietInputs ⟨?_, ?_, ?_, ?_, trivial⟩
  · rintro threshold key ms - ⟨⟩
  · rintro threshold key ms - ⟨⟩
  · rintro threshold key ms - ⟨honline, -⟩
    exact absurd honline (AList.notMem_empty key)
  · rintro threshold key ms - ⟨⟩

end BandixPlus.Service.Cleanup
