import BandixPlus.Net.HostFiles
import BandixPlus.Service.Hostnames

/-! # Where the names of the devices come from

The names that the rows show are in the registry, in the host names that were read at some tick, or in the
code. The registry has them from the persisted state, from requests, and from the rows.

* `named_step`: a step that brings only names of some source for each device leaves no others.
* `shown_names_have_sources`: in every run a device is shown under a name that was given to it: by the
  persisted state, by a request, or by the router's files at a tick; or under none. -/

namespace BandixPlus.Service.NameSources

open BandixPlus.Common BandixPlus.Lib.Maps
open BandixPlus.Monitor.Counters BandixPlus.Monitor.Snapshot BandixPlus.Monitor.Topology
open BandixPlus.Monitor.Runtime BandixPlus.Monitor.Interfaces BandixPlus.Monitor.Devices
open BandixPlus.Monitor.Collect BandixPlus.Monitor.Session BandixPlus.Monitor.Group
open BandixPlus.Monitor.Registry BandixPlus.Monitor.Cumulative BandixPlus.Monitor.Conservation
open BandixPlus.Net.HostFiles BandixPlus.Net.Text BandixPlus.Service.Hostnames

/-! ### Sources -/

/-- `/etc/config/dhcp` and `/tmp/dhcp.leases`, if they can be read. -/
structure NameFiles where
  dhcp : Option String
  leases : Option String

/-- The name that the files have for an address, the configuration first. -/
def NameFiles.nameOf (files : NameFiles) (mac : Mac) : Option String :=
  (files.dhcp.bind fun content => configuredName content mac).or
    (files.leases.bind fun content => leasedName content mac)

/-- An operation; a tick finds these files. -/
def withFiles (files : NameFiles) : Op → Op
  | .collect cfg topology tick =>
    .collect cfg topology { tick with hostnames := listHostnameByMac tick.o files.dhcp files.leases }
  | op => op

/-- The run starts from the persisted state, with this topology. -/
structure Start where
  o : IterOrder
  topology : TopologySnapshot
  state : Option MonitorRuntimeState
  cumulativeIface : HashMap UInt32 CounterQuad
  cumulativeDevice : HashMap DeviceKey CounterQuad

def Start.runtime (start : Start) : MonitorRuntime :=
  startRuntime start.o start.topology start.state start.cumulativeIface start.cumulativeDevice

/-- **Who gave the device its name.** -/
inductive Source (start : Start) (ops : List (Op × NameFiles)) (key : DeviceKey) : String → Prop where
  | unknown : Source start ops key "-"
  /-- The device stands for what is behind the WAN. -/
  | wan {cfg : Config} {topology : TopologySnapshot} {tick : Tick} {files : NameFiles}
      (hop : (.collect cfg topology tick, files) ∈ ops) (hifindex : wanIfindex topology = some key.1)
      (hmac : key.2 = macWan) : Source start ops key wanHostname
  | saved {state : MonitorRuntimeState} {item : PersistedKnownDevice} (hstate : start.state = some state)
      (hitem : item ∈ state.knownDevices)
      (hifindex : start.topology.ifindexByName start.o item.logicalIface = some key.1)
      (hmac : macFromStr item.mac = .ok key.2) : Source start ops key item.hostname
  | request {name : String} {snapshotDevice : Option DeviceListItem} {nowMs : UInt64} {files : NameFiles}
      (hop : (.hostname key name snapshotDevice nowMs, files) ∈ ops) : Source start ops key name
  | files {cfg : Config} {topology : TopologySnapshot} {tick : Tick} {files : NameFiles} {name : String}
      (hop : (.collect cfg topology tick, files) ∈ ops) (hname : files.nameOf key.2 = some name) :
      Source start ops key name

/-! ### The invariant -/

section
variable (S : DeviceKey → String → Prop)

/-- The names that are kept are of the devices that have them. -/
structure NamesFrom (rt : MonitorRuntime) : Prop where
  registry : ∀ key known, rt.deviceRegistry.lookup key = some known → S key known.hostname
  hostnames : ∀ mac name, rt.cachedHostnames.lookup mac = some name → ∀ ifindex, S (ifindex, mac) name

/-- The rows are of devices that have the names. -/
def RowsFrom (s : SnapshotData) : Prop :=
  ∀ row ∈ s.devices, ∃ key : DeviceKey, row.ifindex = key.1 ∧ row.mac = macToString key.2 ∧ S key row.hostname

/-- What an operation brings is of the devices that get it. -/
def Brings : Op → Prop
  | .collect _ topology tick =>
    (∀ mac name, tick.hostnames.lookup mac = some name → ∀ ifindex, S (ifindex, mac) name) ∧
      ∀ ifindex, wanIfindex topology = some ifindex → S (ifindex, macWan) wanHostname
  | .remove _ => True
  | .hostname key name _ _ => S key name

/-- A row of a device that has its name. -/
def SourcedRow (key : DeviceKey) (item : DeviceListItem) : Prop := KeyedRow key item ∧ S key item.hostname

variable {S}

theorem aboutDevice_sourcedRow : AboutDevice (SourcedRow S) := fun k item item' hsame h =>
  ⟨aboutDevice_keyedRow k item item' hsame h.1, by rw [hsame.hostname]; exact h.2⟩

section
variable (hunknown : ∀ key, S key "-")
include hunknown

theorem sourcedRow_neighborDevice {cfg : Config} {topology : TopologySnapshot} {rt : MonitorRuntime}
    (hnames : NamesFrom S rt) {nowMs : UInt64} {dev : String} {mac : Mac} {ips : NeighborIps}
    {key : DeviceKey} {item : DeviceListItem}
    (hitem : neighborDevice cfg topology rt nowMs dev mac ips = some (key, item)) :
    SourcedRow S key item := by
  obtain ⟨-, -, hifindex, hmac, -⟩ := neighborDevice_eq_some hitem
  refine ⟨⟨hifindex, hmac⟩, ?_⟩
  unfold neighborDevice at hitem
  split at hitem
  · cases hitem
  · split at hitem
    · cases hitem
    · next ifindex _ _ _ _ =>
      split_ifs at hitem
      obtain ⟨rfl, rfl⟩ := Prod.mk.inj (Option.some.inj hitem)
      dsimp only
      -- a name that was set, else one that was read
      cases hset : (rt.deviceRegistry.lookup (ifindex, mac)).bind knownHostname with
      | some name =>
        obtain ⟨known, hknown, hname⟩ := Option.bind_eq_some_iff.mp hset
        unfold knownHostname at hname
        dsimp only at hname
        split_ifs at hname
        rw [Option.some_or, Option.getD_some, ← Option.some.inj hname]
        exact hnames.registry _ known hknown
      | none =>
        rw [Option.none_or]
        cases hread : rt.cachedHostnames.lookup mac with
        | some name => exact hnames.hostnames mac name hread ifindex
        | none => exact hunknown _

theorem knownAll_sourcedRow {registry : HashMap DeviceKey KnownDevice} (hkeyed : Keyed registry)
    (h : ∀ key known, registry.lookup key = some known → S key known.hostname) :
    KnownAll (SourcedRow S) registry := by
  refine fun key known hknown nowMs => ⟨knownAll_keyedRow hkeyed key known hknown nowMs, ?_⟩
  unfold activatedItem
  dsimp only
  split_ifs
  · exact hunknown key
  · exact h key known hknown

variable {rt : MonitorRuntime} (hinv : RuntimeInv rt) (hnames : NamesFrom S rt) {cfg : Config}
  {topology : TopologySnapshot} {tick : Tick} (hbrings : Brings S (.collect cfg topology tick))
include hinv hnames hbrings

theorem sourcedRow_onlineDevices : GroupAll (SourcedRow S) (onlineDevices cfg topology tick rt) := by
  refine groupAll_onlineDevices cfg topology tick aboutDevice_sourcedRow
    (knownAll_sourcedRow hunknown hinv.keyed hnames.registry) (fun i hi nowMs => ?_)
    fun rt' hregistry hcaches dev mac ips key item hitem => ?_
  · exact ⟨wanAll_keyedRow topology i hi nowMs, hbrings.2 i hi⟩
  · refine sourcedRow_neighborDevice hunknown ⟨hregistry ▸ hnames.registry, ?_⟩ hitem
    rcases hcaches with hsame | hread
    · rw [hsame]
      exact hnames.hostnames
    · rw [hread]
      exact hbrings.1

/-- The registry after a tick has its names from the rows. -/
theorem registry_collectSnapshot (key : DeviceKey) (known : KnownDevice)
    (hknown : (collectSnapshot cfg topology tick rt).2.deviceRegistry.lookup key = some known) :
    S key known.hostname := by
  rw [deviceRegistry_collectSnapshot, lookup_registerDevices] at hknown
  cases hitem : (onlineDevices cfg topology tick rt).lookup key with
  | none =>
    rw [hitem] at hknown
    exact hnames.registry key known hknown
  | some item =>
    rw [hitem] at hknown
    obtain rfl := Option.some.inj hknown
    exact (sourcedRow_onlineDevices hunknown hinv hnames hbrings key item hitem).2

theorem rowsFrom_collectSnapshot {s : SnapshotData} (hs : (collectSnapshot cfg topology tick rt).1 = some s) :
    RowsFrom S s := by
  have hall := sourcedRow_onlineDevices hunknown hinv hnames hbrings
  have hregistry := registry_collectSnapshot hunknown hinv hnames hbrings
  have hkeyed := (runtimeInv_collectSnapshot cfg topology tick hinv).keyed
  rcases onlineDevices_cases cfg topology tick rt with ⟨heq, -⟩ | ⟨ie, de, honline, heq⟩
  · rw [heq] at hs
    cases hs
  · let b := beforeEcm cfg topology tick rt (readStats ie) (readStats de)
    have hframe := frame_interfaceRows topology tick b (hardware topology tick b)
      (settle topology tick b (hardware topology tick b)).2
    rw [heq] at hs hregistry hkeyed
    rw [honline] at hall
    obtain rfl := Option.some.inj hs
    intro row hrow
    rcases List.mem_append.mp (List.mem_mergeSort.mp hrow) with hrow | hrow
    · obtain ⟨e, he, rfl⟩ := List.mem_map.mp hrow
      obtain ⟨⟨hifindex, hmac⟩, hname⟩ := hall e.1 e.2 (mem_order_iff.mp he)
      exact ⟨e.1, hifindex, hmac, hname⟩
    · obtain ⟨e, he, rfl⟩ := List.mem_map.mp hrow
      have hlookup := mem_order_iff.mp (List.mem_of_mem_filter he)
      rw [← hframe.registry] at hlookup
      obtain ⟨hifindex, hmac⟩ := hkeyed e.1 e.2 hlookup
      exact ⟨e.1, hifindex, congrArg macToString hmac, hregistry e.1 e.2 hlookup⟩

end

theorem registry_updateHostname {rt : MonitorRuntime} {key : DeviceKey} {name : String} (hname : S key name)
    (h : ∀ key known, rt.deviceRegistry.lookup key = some known → S key known.hostname)
    (snapshotDevice : Option DeviceListItem) (nowMs : UInt64) (k : DeviceKey) (known : KnownDevice)
    (hknown : (updateHostname rt key name snapshotDevice nowMs).deviceRegistry.lookup k = some known) :
    S k known.hostname := by
  have hinsert : ∀ entry : KnownDevice, entry.hostname = name →
      (rt.deviceRegistry.insert key entry).lookup k = some known → S k known.hostname := by
    intro entry hentry hlookup
    rw [lookup_insert_eq] at hlookup
    split_ifs at hlookup with hk
    · rw [hk, ← Option.some.inj hlookup, hentry]
      exact hname
    · exact h k known hlookup
  unfold updateHostname at hknown
  split at hknown
  · exact hinsert _ rfl hknown
  · exact hinsert _ rfl hknown
  · exact h k known hknown

/-- **One step** that brings names of their devices alone keeps it so, and shows nothing else. -/
theorem named_step (hunknown : ∀ key, S key "-") {rt : MonitorRuntime} (hinv : RuntimeInv rt)
    (hnames : NamesFrom S rt) {op : Op} (hbrings : Brings S op) :
    NamesFrom S (step rt op).2 ∧ ∀ s ∈ (step rt op).1, RowsFrom S s := by
  cases op with
  | collect cfg topology tick =>
    refine ⟨⟨registry_collectSnapshot hunknown hinv hnames hbrings, ?_⟩, fun s hs => ?_⟩
    · rcases caches_collectSnapshot cfg topology tick rt with hsame | hread
      · show ∀ mac name, (collectSnapshot cfg topology tick rt).2.cachedHostnames.lookup mac = some name → _
        rw [hsame]
        exact hnames.hostnames
      · show ∀ mac name, (collectSnapshot cfg topology tick rt).2.cachedHostnames.lookup mac = some name → _
        rw [hread]
        exact hbrings.1
    · exact rowsFrom_collectSnapshot hunknown hinv hnames hbrings hs
  | remove key =>
    refine ⟨⟨fun k known hknown => ?_, hnames.hostnames⟩, fun s hs => by cases hs⟩
    have hknown : (rt.removeDevice key.1 key.2).2.deviceRegistry.lookup k = some known := hknown
    rw [lookup_removeDevice] at hknown
    split_ifs at hknown
    exact hnames.registry k known hknown
  | hostname key name snapshotDevice nowMs =>
    refine ⟨⟨registry_updateHostname hbrings hnames.registry snapshotDevice nowMs, ?_⟩,
      fun s hs => by cases hs⟩
    have hsame : (updateHostname rt key name snapshotDevice nowMs).cachedHostnames = rt.cachedHostnames := by
      unfold updateHostname
      split <;> rfl
    show ∀ mac name',
      (updateHostname rt key name snapshotDevice nowMs).cachedHostnames.lookup mac = some name' → _
    rw [hsame]
    exact hnames.hostnames

theorem named_run (hunknown : ∀ key, S key "-") {rt : MonitorRuntime} (hreach : Reachable rt)
    (hnames : NamesFrom S rt) {ops : List Op} (hbrings : ∀ op ∈ ops, Brings S op) :
    NamesFrom S (run rt ops).2 ∧ ∀ s ∈ (run rt ops).1, RowsFrom S s := by
  induction ops generalizing rt with
  | nil => exact ⟨hnames, fun s hs => absurd hs List.not_mem_nil⟩
  | cons op ops ih =>
    obtain ⟨hop, hops⟩ := List.forall_mem_cons.mp hbrings
    obtain ⟨hnames', hrows⟩ := named_step hunknown (runtimeInv_reachable hreach) hnames hop
    obtain ⟨hend, hlater⟩ := ih (hreach.step op) hnames' hops
    refine ⟨hend, fun s hs => ?_⟩
    rcases List.mem_append.mp hs with hs | hs
    · exact hrows s (Option.mem_toList.mp hs)
    · exact hlater s hs

end

/-! ### Runs -/

section
variable {start : Start} {ops : List (Op × NameFiles)}

theorem namesFrom_start : NamesFrom (Source start ops) start.runtime := by
  refine ⟨fun key known hknown => ?_, fun mac name hname => ?_⟩
  · unfold Start.runtime startRuntime at hknown
    cases hstate : start.state with
    | none =>
      rw [hstate] at hknown
      cases hknown
    | some state =>
      rw [hstate] at hknown
      have himport : ∀ key known,
          (importRuntimeState start.o start.topology .default state).deviceRegistry.lookup
          key = some known → Source start ops key known.hostname := by
        unfold importRuntimeState
        refine List.foldlRecOn (motive := fun registry : HashMap DeviceKey KnownDevice =>
          ∀ key known, registry.lookup key = some known → Source start ops key known.hostname) _ _ ?_
          fun registry h item hitem key known hlookup => ?_
        · intro key known hlookup
          cases hlookup
        · unfold importStep at hlookup
          split at hlookup
          · next ifindex mac hifindex hmac =>
            rw [lookup_insert_eq] at hlookup
            split_ifs at hlookup with hkey
            · obtain rfl := hkey
              rw [← Option.some.inj hlookup]
              exact .saved hstate hitem hifindex hmac
            · exact h key known hlookup
          · exact h key known hlookup
      exact himport key known hknown
  · have hnone : start.runtime.cachedHostnames = ∅ := by
      unfold Start.runtime startRuntime
      cases start.state <;> rfl
    rw [hnone] at hname
    cases hname

theorem brings_withFiles {op : Op} {files : NameFiles} (hop : (op, files) ∈ ops) :
    Brings (Source start ops) (withFiles files op) := by
  cases op with
  | collect cfg topology tick =>
    refine ⟨fun mac name hname ifindex => ?_, fun ifindex hifindex => .wan hop hifindex rfl⟩
    have hfound : files.nameOf mac = some name :=
      (lookup_listHostnameByMac tick.o files.dhcp files.leases mac).symm.trans hname
    have hsource : Source start ops (ifindex, mac) name := .files hop hfound
    exact hsource
  | remove key => trivial
  | hostname key name snapshotDevice nowMs => exact .request hop

/-- **No device is shown under a name that was not given to it**: in every run of ticks, removals and
requests every row is of a device, and its name is that of the device in the persisted state or in a request,
that of its MAC address in the router's files at some tick, that of the WAN pseudo-device, or none. So it is
with the names in the registry at the end. -/
theorem shown_names_have_sources (start : Start) (ops : List (Op × NameFiles)) :
    let ran := run start.runtime (ops.map fun x => withFiles x.2 x.1)
    (∀ s ∈ ran.1, ∀ row ∈ s.devices, ∃ key : DeviceKey,
      row.ifindex = key.1 ∧ row.mac = macToString key.2 ∧ Source start ops key row.hostname) ∧
    ∀ key known, ran.2.deviceRegistry.lookup key = some known → Source start ops key known.hostname := by
  intro ran
  have hreach : Reachable start.runtime := .start _ _ _ _ _
  have hbrings : ∀ op ∈ ops.map fun x => withFiles x.2 x.1, Brings (Source start ops) op := by
    intro op hop
    obtain ⟨x, hx, rfl⟩ := List.mem_map.mp hop
    exact brings_withFiles hx
  obtain ⟨hend, hrows⟩ := named_run (fun _ => .unknown) hreach namesFrom_start hbrings
  exact ⟨hrows, hend.registry⟩

end

end BandixPlus.Service.NameSources
