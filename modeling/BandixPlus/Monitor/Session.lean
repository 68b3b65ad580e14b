import BandixPlus.Monitor.Collect

/-! # Runs of the collector

The operations on the state of the collector: the start from the persisted state (`command.rs` and
`import_runtime_state`), ticks, the removal of a device, and a new host name (`api.rs`).

* `RuntimeInv`: the registry is keyed, and every owner of an address is a known device. It holds at the
  start (`runtimeInv_start`) and is kept by every operation but, so far, the tick. -/

namespace BandixPlus.Monitor.Session

open BandixPlus.Common BandixPlus.Lib.Maps
open BandixPlus.Monitor.Counters BandixPlus.Monitor.Snapshot BandixPlus.Monitor.Topology
open BandixPlus.Monitor.Runtime BandixPlus.Monitor.Interfaces BandixPlus.Monitor.Collect
open BandixPlus.Net.Text

/-! ### The start -/

structure PersistedKnownDevice where
  logicalIface : String
  mac : String
  ipv4 : List String
  ipv6 : List String
  hostname : String
  subnet : String
  lastSeenMs : UInt64

structure PersistedIfaceBreakdown where
  logicalIface : String
  cumulative : CounterQuad

structure MonitorRuntimeState where
  knownDevices : List PersistedKnownDevice
  ifaceMcast : List PersistedIfaceBreakdown
  ifaceBcast : List PersistedIfaceBreakdown
  ifaceUnresolved : List PersistedIfaceBreakdown

/-- A persisted device is known again if its interface still exists. -/
def importStep (o : IterOrder) (topology : TopologySnapshot)
    (registry : HashMap DeviceKey KnownDevice) (item : PersistedKnownDevice) :
    HashMap DeviceKey KnownDevice :=
  match topology.ifindexByName o item.logicalIface, macFromStr item.mac with
  | some ifindex, .ok mac =>
    registry.insert (ifindex, mac) {
      ifindex
      mac
      ipv4 := item.ipv4
      ipv6 := item.ipv6
      hostname := item.hostname
      logicalIface := item.logicalIface
      subnet := item.subnet
      lastSeenMs := item.lastSeenMs }
  | _, _ => registry

def importBreakdown (o : IterOrder) (topology : TopologySnapshot)
    (items : List PersistedIfaceBreakdown) : HashMap UInt32 CounterQuad :=
  items.foldl (fun m item =>
    match topology.ifindexByName o item.logicalIface with
    | some ifindex => m.insert ifindex (bytesOnly item.cumulative)
    | none => m) ∅

def importRuntimeState (o : IterOrder) (topology : TopologySnapshot) (rt : MonitorRuntime)
    (state : MonitorRuntimeState) : MonitorRuntime :=
  { rt with
    deviceRegistry := state.knownDevices.foldl (importStep o topology) ∅
    cumulativeMcast := importBreakdown o topology state.ifaceMcast
    cumulativeBcast := importBreakdown o topology state.ifaceBcast
    cumulativeUnresolved := importBreakdown o topology state.ifaceUnresolved }

/-- The state at the start, with the totals of the histogram; no state is persisted at first. -/
def startRuntime (o : IterOrder) (topology : TopologySnapshot) (state : Option MonitorRuntimeState)
    (cumulativeIface : HashMap UInt32 CounterQuad) (cumulativeDevice : HashMap DeviceKey CounterQuad) :
    MonitorRuntime :=
  let rt :=
    match state with
    | some state => importRuntimeState o topology .default state
    | none => .default
  { rt with cumulativeIface, cumulativeDevice }

/-! ### Operations -/

/-- The new host name of a device; `snapshotDevice` is its row in the last snapshot. -/
def updateHostname (rt : MonitorRuntime) (key : DeviceKey) (hostname : String)
    (snapshotDevice : Option DeviceListItem) (nowMs : UInt64) : MonitorRuntime :=
  match rt.deviceRegistry.lookup key, snapshotDevice with
  | some known, _ =>
    { rt with deviceRegistry := rt.deviceRegistry.insert key { known with hostname } }
  | none, some dev =>
    { rt with deviceRegistry := rt.deviceRegistry.insert key {
        ifindex := key.1
        mac := key.2
        ipv4 := dev.ipv4
        ipv6 := dev.ipv6
        hostname
        logicalIface := dev.logicalIface
        subnet := dev.subnet
        lastSeenMs := nowMs } }
  | none, none => rt

inductive Op where
  | collect (cfg : Config) (topology : TopologySnapshot) (tick : Tick)
  | remove (key : DeviceKey)
  | hostname (key : DeviceKey) (name : String) (snapshotDevice : Option DeviceListItem) (nowMs : UInt64)

/-- The operation removes no device. -/
def Op.keeps : Op → Bool
  | .remove _ => false
  | _ => true

/-- What an operation does, and the snapshot of a tick. -/
def step (rt : MonitorRuntime) : Op → Option SnapshotData × MonitorRuntime
  | .collect cfg topology tick => collectSnapshot cfg topology tick rt
  | .remove key => (none, (rt.removeDevice key.1 key.2).2)
  | .hostname key name snapshotDevice nowMs => (none, updateHostname rt key name snapshotDevice nowMs)

/-- The snapshots of a run, and the state at its end. -/
def run : MonitorRuntime → List Op → List SnapshotData × MonitorRuntime
  | rt, [] => ([], rt)
  | rt, op :: ops =>
    let (snapshot, rt) := step rt op
    let (snapshots, rt) := run rt ops
    (snapshot.toList ++ snapshots, rt)

/-- The states that the program can be in. -/
inductive Reachable : MonitorRuntime → Prop where
  | start (o : IterOrder) (topology : TopologySnapshot) (state : Option MonitorRuntimeState)
      (cumulativeIface : HashMap UInt32 CounterQuad)
      (cumulativeDevice : HashMap DeviceKey CounterQuad) :
      Reachable (startRuntime o topology state cumulativeIface cumulativeDevice)
  | step {rt : MonitorRuntime} (op : Op) : Reachable rt → Reachable (step rt op).2

/-! ### The invariant -/

/-- A known device is under its own key. -/
def Keyed (registry : HashMap DeviceKey KnownDevice) : Prop :=
  ∀ key known, registry.lookup key = some known → known.ifindex = key.1 ∧ known.mac = key.2

/-- **The invariant of the state**: the registry is keyed, and who owns an address is known. -/
structure RuntimeInv (rt : MonitorRuntime) : Prop where
  keyed : Keyed rt.deviceRegistry
  known : ∀ address entry key, rt.neighborOwnership.lookup address = some entry →
    entry.device = some key → key ∈ rt.deviceRegistry

theorem keyed_insert {registry : HashMap DeviceKey KnownDevice} (h : Keyed registry) {key : DeviceKey}
    {known : KnownDevice} (hknown : known.ifindex = key.1 ∧ known.mac = key.2) :
    Keyed (registry.insert key known) := by
  intro k d hd
  rw [lookup_insert_eq] at hd
  split_ifs at hd with hk
  · rw [hk, ← Option.some.inj hd]
    exact hknown
  · exact h k d hd

theorem keyed_empty : Keyed ∅ := fun key known h => by
  rw [AList.lookup_empty] at h
  cases h

theorem keyed_importRuntimeState (o : IterOrder) (topology : TopologySnapshot) (rt : MonitorRuntime)
    (state : MonitorRuntimeState) : Keyed (importRuntimeState o topology rt state).deviceRegistry := by
  unfold importRuntimeState
  refine List.foldlRecOn _ _ keyed_empty fun registry h item _ => ?_
  unfold importStep
  split
  · exact keyed_insert h ⟨rfl, rfl⟩
  · exact h

theorem runtimeInv_start (o : IterOrder) (topology : TopologySnapshot)
    (state : Option MonitorRuntimeState) (cumulativeIface : HashMap UInt32 CounterQuad)
    (cumulativeDevice : HashMap DeviceKey CounterQuad) :
    RuntimeInv (startRuntime o topology state cumulativeIface cumulativeDevice) := by
  have hnone : (startRuntime o topology state cumulativeIface cumulativeDevice).neighborOwnership = ∅ := by
    unfold startRuntime
    cases state <;> rfl
  constructor
  · unfold startRuntime
    cases state with
    | none => exact keyed_empty
    | some state => exact keyed_importRuntimeState o topology .default state
  · intro address entry key hentry _
    rw [hnone, AList.lookup_empty] at hentry
    cases hentry

theorem lookup_removeDevice (rt : MonitorRuntime) (key key' : DeviceKey) :
    (rt.removeDevice key.1 key.2).2.deviceRegistry.lookup key' =
      if key' = key then none else rt.deviceRegistry.lookup key' := lookup_erase_eq _ _ _

theorem runtimeInv_removeDevice {rt : MonitorRuntime} (h : RuntimeInv rt) (key : DeviceKey) :
    RuntimeInv (rt.removeDevice key.1 key.2).2 := by
  unfold MonitorRuntime.removeDevice
  constructor
  · intro k d hd
    dsimp only at hd
    rw [lookup_erase_eq] at hd
    split_ifs at hd
    exact h.keyed k d hd
  · intro address entry k hentry hk
    dsimp only at hentry ⊢
    rw [lookup_retain, Option.filter_eq_some_iff] at hentry
    obtain ⟨hentry, hne⟩ := hentry
    refine AList.mem_erase.mpr ⟨?_, h.known address entry k hentry hk⟩
    rintro rfl
    exact of_decide_eq_true hne hk

theorem runtimeInv_updateHostname {rt : MonitorRuntime} (h : RuntimeInv rt) (key : DeviceKey)
    (name : String) (snapshotDevice : Option DeviceListItem) (nowMs : UInt64) :
    RuntimeInv (updateHostname rt key name snapshotDevice nowMs) := by
  unfold updateHostname
  split
  · next known hlookup =>
    exact ⟨keyed_insert h.keyed (h.keyed key known hlookup), fun address entry k hentry hk =>
      (AList.mem_insert _).mpr (Or.inr (h.known address entry k hentry hk))⟩
  · exact ⟨keyed_insert h.keyed ⟨rfl, rfl⟩, fun address entry k hentry hk =>
      (AList.mem_insert _).mpr (Or.inr (h.known address entry k hentry hk))⟩
  · exact h

end BandixPlus.Monitor.Session
