import Mathlib.Algebra.BigOperators.Group.Finset.Basic
import Mathlib.Algebra.Group.Prod
import Mathlib.Data.Fintype.Basic
import Mathlib.Tactic.Abel
import BandixPlus.Ebpf.Framing
import BandixPlus.Lib.BoundedMap
import BandixPlus.Lib.Run
import BandixPlus.Monitor.DeviceCounters

/-! # The counters of the kernel

`try_bandix_plus` of the eBPF program counts a packet for its interface and, where the devices are tracked,
for a device; userspace says where they are tracked, sets the filters, removes idle counters and reads how
many packets found no room. The CPUs share the two tables of counters: each looks a counter up, and writes
the new value or enters a first one later. The two words of a counter are written in one step. The capture of
DNS packets changes no counter and is left out.

* `kernel_packet`: a packet that nothing interrupts is counted as `try_bandix_plus` says.
* `inv_step`: one step keeps the tables and the journal of all packets in agreement, if no CPU looks up a
  counter that another one is about to write.
* `packets_accounted`: in every run with this condition, every packet of an interface is in a counter of a
  device, went with a removed one, found no room, was of no device or is still being counted; and the
  counters show this, up to their largest value.
* `counted_only_tracked`: devices are counted only on interfaces that userspace tracks. -/

namespace BandixPlus.Ebpf.Counting

open BandixPlus.Common BandixPlus.Lib.BoundedMap BandixPlus.Lib.Checked BandixPlus.Lib.Maps
open BandixPlus.Lib.Run BandixPlus.Lib.Saturating
open BandixPlus.Dns.Name BandixPlus.Ebpf.Framing BandixPlus.Monitor.Topology
open BandixPlus.Monitor.DeviceCounters (KernelMap deviceTrafficMaxEntries)

def ifaceMaxEntries : ℕ := 256
def trackDevicesMaxEntries : ℕ := 1024

/-- A packet on one of `cpus` CPUs: the linear part of its buffer, and the length of the whole. -/
structure Packet (cpus : ℕ) where
  cpu : Fin cpus
  ifindex : UInt32
  direction : UInt8
  data : Slice
  len : UInt32

/-- The maps of the program; the number of failures is kept for each CPU. -/
structure Kernel where
  filters : Maps
  trackDevices : HashMap UInt32 UInt8
  ifaceTrafficStats : HashMap InterfaceTrafficKey TrafficValue
  deviceTrafficStats : KernelMap
  deviceTrafficInsertFailures : HashMap UInt32 (List UInt64)

/-! ### The program -/

def bumpIfaceCounter (map : HashMap InterfaceTrafficKey TrafficValue) (key : InterfaceTrafficKey)
    (bytes : UInt64) : HashMap InterfaceTrafficKey TrafficValue :=
  match map.lookup key with
  | some value => map.insert key ⟨satAdd value.packets 1, satAdd value.bytes bytes⟩
  | none => if len map < ifaceMaxEntries then map.insert key ⟨1, bytes⟩ else map

/-- The first failure of a CPU enters zeros for the others. -/
def bumpDeviceInsertFailureCount (cpus cpu : ℕ) (map : HashMap UInt32 (List UInt64)) :
    HashMap UInt32 (List UInt64) :=
  match map.lookup 0 with
  | some values => map.insert 0 (values.modify cpu fun value => satAdd value 1)
  | none => if len map < 1 then map.insert 0 ((List.replicate cpus 0).set cpu 1) else map

def bumpDeviceCounter (cpus cpu : ℕ) (kernel : Kernel) (key : DeviceTrafficKey) (bytes : UInt64) : Kernel :=
  match kernel.deviceTrafficStats.lookup key with
  | some value =>
    { kernel with
      deviceTrafficStats := kernel.deviceTrafficStats.insert key
        ⟨satAdd value.packets 1, satAdd value.bytes bytes⟩ }
  | none =>
    if len kernel.deviceTrafficStats < deviceTrafficMaxEntries then
      { kernel with deviceTrafficStats := kernel.deviceTrafficStats.insert key ⟨1, bytes⟩ }
    else
      { kernel with
        deviceTrafficInsertFailures :=
          bumpDeviceInsertFailureCount cpus cpu kernel.deviceTrafficInsertFailures }

variable {cpus : ℕ}

/-- The keys that the packet is counted for. -/
def packetKeys (kernel : Kernel) (packet : Packet cpus) :
    Option (InterfaceTrafficKey × Option DeviceTrafficKey) :=
  let track := (kernel.trackDevices.lookup packet.ifindex).getD 0
  countedKeys kernel.filters (track = 1) packet.ifindex packet.data packet.direction

def tryBandixPlus (kernel : Kernel) (packet : Packet cpus) : Kernel :=
  let pktLen := packet.len.toUInt64
  match packetKeys kernel packet with
  | none => kernel
  | some (ifaceKey, deviceKey) =>
    let kernel := { kernel with
      ifaceTrafficStats := bumpIfaceCounter kernel.ifaceTrafficStats ifaceKey pktLen }
    match deviceKey with
    | none => kernel
    | some key => bumpDeviceCounter cpus packet.cpu kernel key pktLen

/-! ### Userspace -/

def trackValue (iface : Interface) : UInt8 := if iface.zone.startsWith "wan" then 0 else 1

/-- `map.insert`; a full map keeps its entries, and the error is ignored. -/
def syncDeviceTracking (topology : TopologySnapshot) (monitorIfaces : List String)
    (map : HashMap UInt32 UInt8) : HashMap UInt32 UInt8 :=
  (topology.interfaces.filter fun iface => monitorIfaces.isEmpty || monitorIfaces.contains iface.name).foldl
    (fun map iface =>
      raise trackDevicesMaxEntries iface.ifindex (trackValue iface) (fun _ => trackValue iface) map) map

def readDeviceInsertFailures (o : IterOrder) (map : HashMap UInt32 (List UInt64)) : UInt64 :=
  (o.order map.entries).foldl
    (fun failures e => if e.1 = 0 then e.2.foldl satAdd failures else failures) 0

/-! ### The journal -/

/-- Packets and bytes. -/
abbrev Traffic := ℕ × ℕ

/-- What counters show of the traffic. -/
def shown (t : Traffic) : TrafficValue := ⟨saturate t.1, saturate t.2⟩

/-- What became of a packet in the counters of the devices. -/
inductive Fate where
  | untracked
  | counted (key : DeviceTrafficKey)
  | refused (key : DeviceTrafficKey)

inductive Posting where
  | packet (iface : InterfaceTrafficKey) (bytes : ℕ)
  /-- What became of a packet of the interface. -/
  | fate (iface : InterfaceTrafficKey) (fate : Fate) (bytes : ℕ)
  /-- A counter is removed with what was counted in it. -/
  | removed (key : DeviceTrafficKey) (amount : Traffic)

abbrev Journal := List Posting

/-- The sum of a weight over the journal. -/
def Journal.sum (journal : Journal) (w : Posting → Traffic) : Traffic := (journal.map w).sum

/-- The packets of an interface, and those of no device among them. -/
def seen (i : InterfaceTrafficKey) : Posting → Traffic
  | .packet iface bytes => if iface = i then (1, bytes) else 0
  | _ => 0

def untracked (i : InterfaceTrafficKey) : Posting → Traffic
  | .fate iface .untracked bytes => if iface = i then (1, bytes) else 0
  | _ => 0

/-- The packets of some devices, all of them and those that found no room. -/
def offered (p : DeviceTrafficKey → Prop) [DecidablePred p] : Posting → Traffic
  | .fate _ (.counted key) bytes | .fate _ (.refused key) bytes => if p key then (1, bytes) else 0
  | _ => 0

def refused (p : DeviceTrafficKey → Prop) [DecidablePred p] : Posting → Traffic
  | .fate _ (.refused key) bytes => if p key then (1, bytes) else 0
  | _ => 0

def removed (p : DeviceTrafficKey → Prop) [DecidablePred p] : Posting → Traffic
  | .removed key amount => if p key then amount else 0
  | _ => 0

/-- What is in the counters of some devices. -/
def heldBy (p : DeviceTrafficKey → Prop) [DecidablePred p] (held : HashMap DeviceTrafficKey Traffic) :
    Traffic := total (fun key amount => if p key then amount else 0) held

/-! ### Several CPUs -/

/-- How far a CPU is with its packet: the counter that it has looked up, with what it found. -/
inductive Running where
  | idle
  | iface (key : InterfaceTrafficKey) (mac : Option Mac) (bytes : UInt32) (found : Option TrafficValue)
  | track (key : InterfaceTrafficKey) (mac : Option Mac) (bytes : UInt32)
  | device (key : DeviceTrafficKey) (bytes : UInt32) (found : Option TrafficValue)

/-- The counters that the CPU is about to write. -/
def Running.ifaceKey : Running → Option InterfaceTrafficKey
  | .iface key _ _ _ => some key
  | _ => none

def Running.deviceKey : Running → Option DeviceTrafficKey
  | .device key _ _ => some key
  | _ => none

/-- The interface of a packet, and its host. -/
def packetKey (kernel : Kernel) (packet : Packet cpus) : Option (InterfaceTrafficKey × Option Mac) :=
  (resolvePacketMeta kernel.filters packet.data packet.direction).map fun packetMeta =>
    (⟨packet.ifindex, packetMeta.ipVersion, packet.direction⟩, packetMeta.mac)

/-- The device that a packet is counted for. -/
def trackedKey (kernel : Kernel) (key : InterfaceTrafficKey) (mac : Option Mac) : Option DeviceTrafficKey :=
  if (kernel.trackDevices.lookup key.ifindex).getD 0 = 1 then
    mac.map fun mac => ⟨key.ifindex, mac, key.ipVersion, key.direction⟩
  else none

/-- The second half of `bump_iface_counter`. A value goes through the pointer that was found, and a first one
takes the place of what another CPU has entered meanwhile. -/
def writeIfaceCounter (map : HashMap InterfaceTrafficKey TrafficValue) (key : InterfaceTrafficKey)
    (bytes : UInt64) : Option TrafficValue → HashMap InterfaceTrafficKey TrafficValue
  | some value =>
    if key ∈ map then map.insert key ⟨satAdd value.packets 1, satAdd value.bytes bytes⟩ else map
  | none => if key ∈ map ∨ len map < ifaceMaxEntries then map.insert key ⟨1, bytes⟩ else map

/-- The second half of `bump_device_counter`. -/
def writeDeviceCounter (cpus cpu : ℕ) (kernel : Kernel) (key : DeviceTrafficKey) (bytes : UInt64) :
    Option TrafficValue → Kernel
  | some value =>
    if key ∈ kernel.deviceTrafficStats then
      { kernel with
        deviceTrafficStats := kernel.deviceTrafficStats.insert key
          ⟨satAdd value.packets 1, satAdd value.bytes bytes⟩ }
    else kernel
  | none =>
    if key ∈ kernel.deviceTrafficStats ∨ len kernel.deviceTrafficStats < deviceTrafficMaxEntries then
      { kernel with deviceTrafficStats := kernel.deviceTrafficStats.insert key ⟨1, bytes⟩ }
    else
      { kernel with
        deviceTrafficInsertFailures :=
          bumpDeviceInsertFailureCount cpus cpu kernel.deviceTrafficInsertFailures }

/-! ### Runs -/

structure System (cpus : ℕ) where
  kernel : Kernel
  running : Fin cpus → Running
  /-- What was counted in each counter of a device that is there. -/
  held : HashMap DeviceTrafficKey Traffic
  journal : Journal

inductive Action (cpus : ℕ) where
  /-- A packet comes to its CPU, which looks up the counter of the interface. -/
  | packet (packet : Packet cpus)
  /-- The CPU goes on with its packet. -/
  | next (cpu : Fin cpus)
  | syncDeviceTracking (topology : TopologySnapshot) (monitorIfaces : List String)
  /-- `sync_traffic_filter_maps`, with any result. -/
  | setFilters (filters : Maps)
  /-- The collector removes an idle counter. -/
  | removeDevice (key : DeviceTrafficKey)

/-- What becomes of a packet of a device. -/
def fateOf (kernel : Kernel) (key : DeviceTrafficKey) : Fate :=
  if Refused deviceTrafficMaxEntries kernel.deviceTrafficStats key then .refused key else .counted key

/-- The interface that a counter of a device is about. -/
def ifaceOf (key : DeviceTrafficKey) : InterfaceTrafficKey := ⟨key.ifindex, key.ipVersion, key.direction⟩

/-- One more packet. -/
def addPacket (bytes : ℕ) (t : Traffic) : Traffic := t + (1, bytes)

def nextStep (s : System cpus) (cpu : Fin cpus) : System cpus :=
  match s.running cpu with
  | .idle => s
  | .iface key mac bytes found =>
    { s with
      kernel := { s.kernel with
        ifaceTrafficStats := writeIfaceCounter s.kernel.ifaceTrafficStats key bytes.toUInt64 found }
      running := Function.update s.running cpu (.track key mac bytes)
      journal := s.journal ++ [.packet key bytes.toNat] }
  | .track key mac bytes =>
    match trackedKey s.kernel key mac with
    | none =>
      { s with
        running := Function.update s.running cpu .idle
        journal := s.journal ++ [.fate key .untracked bytes.toNat] }
    | some target =>
      { s with
        running := Function.update s.running cpu
          (.device target bytes (s.kernel.deviceTrafficStats.lookup target)) }
  | .device key bytes found =>
    { kernel := writeDeviceCounter cpus cpu s.kernel key bytes.toUInt64 found
      running := Function.update s.running cpu .idle
      held := raise deviceTrafficMaxEntries key (1, bytes.toNat) (addPacket bytes.toNat) s.held
      journal := s.journal ++ [.fate (ifaceOf key) (fateOf s.kernel key) bytes.toNat] }

def step (s : System cpus) : Action cpus → System cpus
  | .packet packet =>
    match s.running packet.cpu, packetKey s.kernel packet with
    | .idle, some (key, mac) =>
      { s with
        running := Function.update s.running packet.cpu
          (.iface key mac packet.len (s.kernel.ifaceTrafficStats.lookup key)) }
    | _, _ => s
  | .next cpu => nextStep s cpu
  | .syncDeviceTracking topology monitorIfaces =>
    { s with kernel.trackDevices := syncDeviceTracking topology monitorIfaces s.kernel.trackDevices }
  | .setFilters filters => { s with kernel.filters := filters }
  | .removeDevice key =>
    { s with
      kernel := { s.kernel with deviceTrafficStats := s.kernel.deviceTrafficStats.erase key }
      held := s.held.erase key
      journal := s.journal ++ [.removed key ((s.held.lookup key).getD 0)] }

/-- The program is loaded, with some filters. -/
def System.start (filters : Maps) : System cpus := ⟨⟨filters, ∅, ∅, ∅, ∅⟩, fun _ => .idle, ∅, []⟩

/-- The counter of a device that the CPU looks up next. -/
def lookedUp (s : System cpus) (cpu : Fin cpus) : Option DeviceTrafficKey :=
  match s.running cpu with
  | .track key mac _ => trackedKey s.kernel key mac
  | _ => none

/-- **The condition on a step**: no counter is looked up, and none removed, that a CPU is about to write. -/
def Exclusive (s : System cpus) : Action cpus → Prop
  | .packet packet => ∀ target ∈ packetKey s.kernel packet, ∀ cpu, (s.running cpu).ifaceKey ≠ some target.1
  | .next cpu => ∀ target ∈ lookedUp s cpu, ∀ other, (s.running other).deviceKey ≠ some target
  | .removeDevice key => ∀ cpu, (s.running cpu).deviceKey ≠ some key
  | _ => True

instance (s : System cpus) : (a : Action cpus) → Decidable (Exclusive s a)
  | .packet packet => inferInstanceAs
      (Decidable (∀ target ∈ packetKey s.kernel packet, ∀ cpu, (s.running cpu).ifaceKey ≠ some target.1))
  | .next cpu => inferInstanceAs
      (Decidable (∀ target ∈ lookedUp s cpu, ∀ other, (s.running other).deviceKey ≠ some target))
  | .removeDevice key => inferInstanceAs (Decidable (∀ cpu, (s.running cpu).deviceKey ≠ some key))
  | .syncDeviceTracking _ _ | .setFilters _ => .isTrue trivial

/-- What is counted for an interface, but not yet for a device. -/
def inFlight (i : InterfaceTrafficKey) : Running → Traffic
  | .track key _ bytes => if key = i then (1, bytes.toNat) else 0
  | .device key bytes _ => if ifaceOf key = i then (1, bytes.toNat) else 0
  | _ => 0

/-! ### A packet without an interruption -/

section
variable {kernel : Kernel}

/-- A counter that is written at once is one that `bump_iface_counter` raises. -/
theorem writeIfaceCounter_lookup (map : HashMap InterfaceTrafficKey TrafficValue) (key : InterfaceTrafficKey)
    (bytes : UInt64) : writeIfaceCounter map key bytes (map.lookup key) = bumpIfaceCounter map key bytes := by
  unfold writeIfaceCounter bumpIfaceCounter
  cases hlookup : map.lookup key with
  | some value => exact if_pos (mem_iff_lookup.mpr ⟨value, hlookup⟩)
  | none =>
    have hnew : key ∉ map := AList.lookup_eq_none.mp hlookup
    simp only [hnew, false_or]

theorem writeDeviceCounter_lookup (cpu : ℕ) (kernel : Kernel) (key : DeviceTrafficKey) (bytes : UInt64) :
    writeDeviceCounter cpus cpu kernel key bytes (kernel.deviceTrafficStats.lookup key) =
      bumpDeviceCounter cpus cpu kernel key bytes := by
  unfold writeDeviceCounter bumpDeviceCounter
  cases hlookup : kernel.deviceTrafficStats.lookup key with
  | some value => exact if_pos (mem_iff_lookup.mpr ⟨value, hlookup⟩)
  | none =>
    have hnew : key ∉ kernel.deviceTrafficStats := AList.lookup_eq_none.mp hlookup
    simp only [hnew, false_or]

theorem packetKeys_eq (kernel : Kernel) (packet : Packet cpus) : packetKeys kernel packet =
    (packetKey kernel packet).map fun target => (target.1, trackedKey kernel target.1 target.2) := by
  unfold packetKeys countedKeys packetKey
  cases resolvePacketMeta kernel.filters packet.data packet.direction with
  | none => rfl
  | some packetMeta => simp only [Option.map_some, trackedKey, decide_eq_true_eq]

end

section
variable {s : System cpus} {cpu : Fin cpus} {key : InterfaceTrafficKey} {mac : Option Mac} {bytes : UInt32}

theorem step_packet {packet : Packet cpus} (hidle : s.running packet.cpu = .idle)
    (hkey : packetKey s.kernel packet = some (key, mac)) : step s (.packet packet) = { s with
      running := Function.update s.running packet.cpu
        (.iface key mac packet.len (s.kernel.ifaceTrafficStats.lookup key)) } := by
  unfold step
  dsimp only
  rw [hidle, hkey]

theorem step_uncounted {packet : Packet cpus}
    (h : s.running packet.cpu ≠ .idle ∨ packetKey s.kernel packet = none) : step s (.packet packet) = s := by
  unfold step
  dsimp only
  rcases h with hbusy | hnone
  · cases hrun : s.running packet.cpu with
    | idle => exact absurd hrun hbusy
    | iface _ _ _ _ => rfl
    | track _ _ _ => rfl
    | device _ _ _ => rfl
  · rw [hnone]
    cases s.running packet.cpu <;> rfl

theorem nextStep_idle (h : s.running cpu = .idle) : nextStep s cpu = s := by
  unfold nextStep
  rw [h]

theorem nextStep_iface {found : Option TrafficValue} (h : s.running cpu = .iface key mac bytes found) :
    nextStep s cpu = { s with
      kernel := { s.kernel with
        ifaceTrafficStats := writeIfaceCounter s.kernel.ifaceTrafficStats key bytes.toUInt64 found }
      running := Function.update s.running cpu (.track key mac bytes)
      journal := s.journal ++ [.packet key bytes.toNat] } := by
  unfold nextStep
  rw [h]

theorem nextStep_untracked (h : s.running cpu = .track key mac bytes)
    (htarget : trackedKey s.kernel key mac = none) : nextStep s cpu = { s with
      running := Function.update s.running cpu .idle
      journal := s.journal ++ [.fate key .untracked bytes.toNat] } := by
  unfold nextStep
  rw [h]
  dsimp only
  rw [htarget]

theorem nextStep_tracked {target : DeviceTrafficKey} (h : s.running cpu = .track key mac bytes)
    (htarget : trackedKey s.kernel key mac = some target) : nextStep s cpu = { s with
      running := Function.update s.running cpu
        (.device target bytes (s.kernel.deviceTrafficStats.lookup target)) } := by
  unfold nextStep
  rw [h]
  dsimp only
  rw [htarget]

theorem nextStep_device {target : DeviceTrafficKey} {found : Option TrafficValue}
    (h : s.running cpu = .device target bytes found) : nextStep s cpu =
      { kernel := writeDeviceCounter cpus cpu s.kernel target bytes.toUInt64 found
        running := Function.update s.running cpu .idle
        held := raise deviceTrafficMaxEntries target (1, bytes.toNat) (addPacket bytes.toNat) s.held
        journal := s.journal ++ [.fate (ifaceOf target) (fateOf s.kernel target) bytes.toNat] } := by
  unfold nextStep
  rw [h]

/-- **A packet without an interruption** is counted by `try_bandix_plus`. -/
theorem kernel_packet (packet : Packet cpus) (hidle : s.running packet.cpu = .idle) :
    ([.packet packet, .next packet.cpu, .next packet.cpu, .next packet.cpu].foldl step s).kernel =
      tryBandixPlus s.kernel packet := by
  simp only [List.foldl_cons, List.foldl_nil]
  unfold tryBandixPlus
  rw [packetKeys_eq]
  cases hkey : packetKey s.kernel packet with
  | none => simp only [step, hidle, hkey, nextStep, Option.map_none]
  | some target =>
    obtain ⟨key, mac⟩ := target
    simp only [step, hidle, hkey, nextStep, Function.update_self, writeIfaceCounter_lookup, Option.map_some]
    -- the counter of the interface changes nothing that the device depends on
    have hsame : ∀ stats, trackedKey { s.kernel with ifaceTrafficStats := stats } key mac =
        trackedKey s.kernel key mac := fun _ => rfl
    rw [hsame]
    cases htarget : trackedKey s.kernel key mac with
    | none => simp only [Function.update_self]
    | some target =>
      simp only [Function.update_self]
      exact writeDeviceCounter_lookup ..

end

/-! ### The invariant -/

/-- The failures of the CPUs are `n` in all. -/
structure FailuresShow (cpus : ℕ) (map : HashMap UInt32 (List UInt64)) (n : ℕ) : Prop where
  counts : ∃ counts : List ℕ, counts.length = cpus ∧ counts.sum = n ∧
    (map.entries = [] ∧ counts = List.replicate cpus 0 ∨ map.entries = [⟨0, counts.map saturate⟩])

/-- What the CPU has found is still so. -/
def Running.Found (kernel : Kernel) : Running → Prop
  | .iface key _ _ found => found = kernel.ifaceTrafficStats.lookup key
  | .device key _ found => found = kernel.deviceTrafficStats.lookup key
  | _ => True

/-- **The CPUs do not disturb each other.** -/
structure Apart (s : System cpus) : Prop where
  found : ∀ cpu, (s.running cpu).Found s.kernel
  iface : ∀ cpu other key, (s.running cpu).ifaceKey = some key → (s.running other).ifaceKey = some key →
    cpu = other
  device : ∀ cpu other key, (s.running cpu).deviceKey = some key → (s.running other).deviceKey = some key →
    cpu = other

/-- **The tables of the kernel agree with the journal.** -/
structure Inv (s : System cpus) : Prop where
  apart : Apart s
  iface : Tallied ifaceMaxEntries shown s.kernel.ifaceTrafficStats fun i => s.journal.sum (seen i)
  device : Shows shown s.held s.kernel.deviceTrafficStats
  deviceRoom : len s.kernel.deviceTrafficStats ≤ deviceTrafficMaxEntries
  held : ∀ (p : DeviceTrafficKey → Prop) [DecidablePred p],
    heldBy p s.held + s.journal.sum (removed p) + s.journal.sum (refused p) = s.journal.sum (offered p)
  whole : ∀ i, s.journal.sum (offered fun key => ifaceOf key = i) + s.journal.sum (untracked i) +
    ∑ cpu, inFlight i (s.running cpu) = s.journal.sum (seen i)
  failures : FailuresShow cpus s.kernel.deviceTrafficInsertFailures
    (s.journal.sum (refused fun _ => True)).1

@[simp] theorem sum_nil (w : Posting → Traffic) : Journal.sum [] w = 0 := rfl

@[simp] theorem sum_append (journal : Journal) (posting : Posting) (w : Posting → Traffic) :
    Journal.sum (journal ++ [posting]) w = journal.sum w + w posting := by
  simp [Journal.sum]

theorem apart_start (filters : Maps) : Apart (.start filters : System cpus) where
  found := fun _ => trivial
  iface := fun _ _ _ h _ => by cases h
  device := fun _ _ _ h _ => by cases h

theorem inv_start (filters : Maps) : Inv (.start filters : System cpus) where
  apart := apart_start filters
  iface := tallied_empty fun _ => rfl
  device := fun _ => rfl
  deviceRoom := Nat.zero_le _
  held := fun p _ => rfl
  whole := fun i => by simp [System.start, inFlight]
  failures := ⟨List.replicate cpus 0, List.length_replicate, by simp [System.start], Or.inl ⟨rfl, rfl⟩⟩

/-! ### Failures -/

theorem sum_modify {counts : List ℕ} {cpu : ℕ} (h : cpu < counts.length) :
    (counts.modify cpu (· + 1)).sum = counts.sum + 1 := by
  obtain ⟨before, n, after, rfl, -, hmodify⟩ := List.exists_of_modify (· + 1) h
  rw [hmodify]
  simp only [List.sum_append, List.sum_cons]
  omega

theorem modify_map_saturate (counts : List ℕ) (cpu : ℕ) :
    ((counts.map saturate).modify cpu fun value => satAdd value 1) =
      (counts.modify cpu (· + 1)).map saturate := by
  refine List.ext_getElem? fun i => ?_
  rw [List.getElem?_modify, List.getElem?_map, List.getElem?_map, List.getElem?_modify]
  cases counts[i]? with
  | none => rfl
  | some n =>
    by_cases hi : cpu = i
    · simp [hi, satAdd_saturate]
    · simp [hi]

/-- **One more failure.** -/
theorem FailuresShow.bump {map : HashMap UInt32 (List UInt64)} {n : ℕ} (h : FailuresShow cpus map n)
    (cpu : Fin cpus) : FailuresShow cpus (bumpDeviceInsertFailureCount cpus cpu map) (n + 1) := by
  obtain ⟨counts, hlength, rfl, hentries⟩ := h
  have hcpu : (cpu : ℕ) < counts.length := hlength ▸ cpu.isLt
  refine ⟨counts.modify cpu (· + 1), by simp [hlength], sum_modify hcpu, Or.inr ?_⟩
  unfold bumpDeviceInsertFailureCount
  rw [← modify_map_saturate]
  rcases hentries with ⟨hentries, rfl⟩ | hentries
  · have hnone : map.lookup 0 = none := by simp [AList.lookup, hentries]
    have hlen : len map < 1 := by simp [len, hentries]
    rw [hnone]
    dsimp only
    have hzeros : (List.replicate cpus 0).set cpu 1 =
        ((List.replicate cpus 0).map saturate).modify cpu fun value => satAdd value 1 := by
      rw [List.map_replicate, List.set_eq_modify]
      refine List.ext_getElem? fun i => ?_
      rw [List.getElem?_modify, List.getElem?_modify, List.getElem?_replicate, List.getElem?_replicate]
      split_ifs <;> rfl
    rw [if_pos hlen, AList.entries_insert, hentries, hzeros]
    rfl
  · have hsome : map.lookup 0 = some (counts.map saturate) := by simp [AList.lookup, hentries]
    rw [hsome]
    dsimp only
    rw [AList.entries_insert, hentries]
    simp

/-- **The failures that are read** are those of all CPUs, up to the largest number. -/
theorem readDeviceInsertFailures_eq {map : HashMap UInt32 (List UInt64)} {n : ℕ}
    (h : FailuresShow cpus map n) (o : IterOrder) : readDeviceInsertFailures o map = saturate n := by
  obtain ⟨counts, -, rfl, hentries⟩ := h
  unfold readDeviceInsertFailures
  rcases hentries with ⟨hentries, rfl⟩ | hentries
  · rw [hentries, List.Perm.eq_nil (o.perm _)]
    simp
    rfl
  · rw [hentries, List.perm_singleton.mp (o.perm _)]
    have hsum := foldl_satAdd_saturate counts 0
    rw [Nat.zero_add] at hsum
    exact hsum

/-! ### One counter -/

section
variable {kernel : Kernel}

theorem shown_first (n : UInt32) : (⟨1, n.toUInt64⟩ : TrafficValue) = shown (1, n.toNat) := by
  unfold shown
  rw [← UInt32.toNat_toUInt64, saturate_toNat]
  rfl

theorem shown_addPacket (n : UInt32) (t : Traffic) :
    (⟨satAdd (shown t).packets 1, satAdd (shown t).bytes n.toUInt64⟩ : TrafficValue) =
      shown (addPacket n.toNat t) := by
  unfold shown
  dsimp only
  rw [satAdd_saturate, satAdd_saturate, UInt32.toNat_toUInt64]
  rfl

/-- The change of a counter. -/
def raised (n : UInt32) (value : TrafficValue) : TrafficValue :=
  ⟨satAdd value.packets 1, satAdd value.bytes n.toUInt64⟩

theorem bumpIfaceCounter_eq (map : HashMap InterfaceTrafficKey TrafficValue) (key : InterfaceTrafficKey)
    (n : UInt32) : bumpIfaceCounter map key n.toUInt64 =
      raise ifaceMaxEntries key ⟨1, n.toUInt64⟩ (raised n) map := by
  unfold bumpIfaceCounter raise
  cases map.lookup key <;> rfl

/-- A packet of a device raises its counter, or is one more failure. -/
theorem bumpDeviceCounter_eq (cpu : ℕ) (kernel : Kernel) (key : DeviceTrafficKey) (n : UInt32) :
    bumpDeviceCounter cpus cpu kernel key n.toUInt64 =
      { kernel with
        deviceTrafficStats := raise deviceTrafficMaxEntries key ⟨1, n.toUInt64⟩ (raised n)
          kernel.deviceTrafficStats
        deviceTrafficInsertFailures :=
          if Refused deviceTrafficMaxEntries kernel.deviceTrafficStats key then
            bumpDeviceInsertFailureCount cpus cpu kernel.deviceTrafficInsertFailures
          else kernel.deviceTrafficInsertFailures } := by
  unfold bumpDeviceCounter
  by_cases hrefused : Refused deviceTrafficMaxEntries kernel.deviceTrafficStats key
  · rw [raise_of_refused hrefused, if_pos hrefused, AList.lookup_eq_none.mpr hrefused.1]
    dsimp only
    rw [if_neg (Nat.not_lt.mpr hrefused.2)]
  · rw [raise_of_not_refused hrefused, if_neg hrefused]
    cases hlookup : kernel.deviceTrafficStats.lookup key with
    | some value => rfl
    | none =>
      have hroom : len kernel.deviceTrafficStats < deviceTrafficMaxEntries :=
        Nat.lt_of_not_le fun hfull => hrefused ⟨AList.lookup_eq_none.mp hlookup, hfull⟩
      dsimp only
      rw [if_pos hroom]
      rfl

end

/-! ### Other CPUs -/

section
variable {s : System cpus} {cpu : Fin cpus}

theorem Running.Found.congr {r : Running} {kernel kernel' : Kernel} (h : r.Found kernel)
    (hiface : ∀ key, r.ifaceKey = some key →
      kernel'.ifaceTrafficStats.lookup key = kernel.ifaceTrafficStats.lookup key)
    (hdevice : ∀ key, r.deviceKey = some key →
      kernel'.deviceTrafficStats.lookup key = kernel.deviceTrafficStats.lookup key) : r.Found kernel' := by
  cases r with
  | idle => trivial
  | track key mac bytes => trivial
  | iface key mac bytes found => exact h.trans (hiface key rfl).symm
  | device key bytes found => exact h.trans (hdevice key rfl).symm

/-- **One CPU goes on**: its new counter is no one else's, and what the others have found is left alone. -/
theorem Apart.update (h : Apart s) {kernel' : Kernel} {r : Running} {held' : HashMap DeviceTrafficKey Traffic}
    {journal' : Journal} (hself : r.Found kernel')
    (hother : ∀ other ≠ cpu, (s.running other).Found kernel')
    (hiface : ∀ key, r.ifaceKey = some key → ∀ other, (s.running other).ifaceKey ≠ some key)
    (hdevice : ∀ key, r.deviceKey = some key → ∀ other, (s.running other).deviceKey ≠ some key) :
    Apart ⟨kernel', Function.update s.running cpu r, held', journal'⟩ := by
  refine ⟨fun other => ?_, fun one other key hone hkey => ?_, fun one other key hone hkey => ?_⟩
  · dsimp only
    rw [Function.update_apply]
    split_ifs with heq
    · exact hself
    · exact hother other heq
  · dsimp only at hone hkey
    rw [Function.update_apply] at hone hkey
    split_ifs at hone hkey with heq heq' heq'
    · rw [heq, heq']
    · exact absurd hkey (hiface key hone other)
    · exact absurd hone (hiface key hkey one)
    · exact h.iface one other key hone hkey
  · dsimp only at hone hkey
    rw [Function.update_apply] at hone hkey
    split_ifs at hone hkey with heq heq' heq'
    · rw [heq, heq']
    · exact absurd hkey (hdevice key hone other)
    · exact absurd hone (hdevice key hkey one)
    · exact h.device one other key hone hkey

/-- A counter that is written is not the one that another CPU has looked up. -/
theorem Apart.found_raise_iface (h : Apart s) {key : InterfaceTrafficKey}
    (hkey : (s.running cpu).ifaceKey = some key) {first : TrafficValue} {f : TrafficValue → TrafficValue}
    {other : Fin cpus} (hother : other ≠ cpu) : (s.running other).Found { s.kernel with
      ifaceTrafficStats := raise ifaceMaxEntries key first f s.kernel.ifaceTrafficStats } := by
  refine (h.found other).congr (fun key' hkey' => ?_) fun _ _ => rfl
  have hne : key' ≠ key := by
    rintro rfl
    exact hother (h.iface other cpu key' hkey' hkey)
  rw [lookup_raise, if_neg fun heq => hne heq.1]

theorem Apart.found_raise_device (h : Apart s) {key : DeviceTrafficKey}
    (hkey : (s.running cpu).deviceKey = some key) {first : TrafficValue} {f : TrafficValue → TrafficValue}
    {failures : HashMap UInt32 (List UInt64)} {other : Fin cpus} (hother : other ≠ cpu) :
    (s.running other).Found { s.kernel with
      deviceTrafficStats := raise deviceTrafficMaxEntries key first f s.kernel.deviceTrafficStats
      deviceTrafficInsertFailures := failures } := by
  refine (h.found other).congr (fun _ _ => rfl) fun key' hkey' => ?_
  have hne : key' ≠ key := by
    rintro rfl
    exact hother (h.device other cpu key' hkey' hkey)
  rw [lookup_raise, if_neg fun heq => hne heq.1]

section
variable (i : InterfaceTrafficKey)

@[simp] theorem inFlight_idle : inFlight i .idle = 0 := rfl

@[simp] theorem inFlight_iface (key : InterfaceTrafficKey) (mac : Option Mac) (bytes : UInt32)
    (found : Option TrafficValue) : inFlight i (.iface key mac bytes found) = 0 := rfl

theorem inFlight_track (key : InterfaceTrafficKey) (mac : Option Mac) (bytes : UInt32) :
    inFlight i (.track key mac bytes) = if key = i then (1, bytes.toNat) else 0 := rfl

theorem inFlight_device (key : DeviceTrafficKey) (bytes : UInt32) (found : Option TrafficValue) :
    inFlight i (.device key bytes found) = if ifaceOf key = i then (1, bytes.toNat) else 0 := rfl

end

/-- One CPU goes on: what is still being counted changes by its part. -/
theorem sum_inFlight (running : Fin cpus → Running) (cpu : Fin cpus) (r : Running) (i : InterfaceTrafficKey) :
    (∑ other, inFlight i (Function.update running cpu r other)) + inFlight i (running cpu) =
      (∑ other, inFlight i (running other)) + inFlight i r := by
  rw [← Finset.add_sum_erase Finset.univ _ (Finset.mem_univ cpu),
    ← Finset.add_sum_erase Finset.univ (fun other => inFlight i (running other)) (Finset.mem_univ cpu)]
  have hrest : ∑ other ∈ Finset.univ.erase cpu, inFlight i (Function.update running cpu r other) =
      ∑ other ∈ Finset.univ.erase cpu, inFlight i (running other) := by
    refine Finset.sum_congr rfl fun other hother => ?_
    rw [Function.update_of_ne (Finset.ne_of_mem_erase hother)]
  rw [hrest, Function.update_self]
  abel

end

/-! ### One step -/

section Step
variable {s : System cpus} {cpu : Fin cpus}

/-- What a packet adds to the counters of some devices. -/
theorem heldBy_raise (p : DeviceTrafficKey → Prop) [DecidablePred p] (key : DeviceTrafficKey) (bytes : ℕ)
    (held : HashMap DeviceTrafficKey Traffic) :
    heldBy p (raise deviceTrafficMaxEntries key (1, bytes) (addPacket bytes) held) =
      heldBy p held + if Refused deviceTrafficMaxEntries held key then 0
        else if p key then (1, bytes) else 0 := by
  refine total_raise _ (fun t => ?_) rfl
  split_ifs
  · rfl
  · exact (add_zero _).symm

/-- **A packet comes**, and the counter of its interface is looked up. -/
theorem inv_packet (h : Inv s) {packet : Packet cpus} (hexclusive : Exclusive s (.packet packet)) :
    Inv (step s (.packet packet)) := by
  by_cases hidle : s.running packet.cpu = .idle
  · cases hkey : packetKey s.kernel packet with
    | none =>
      rw [step_uncounted (Or.inr hkey)]
      exact h
    | some target =>
      obtain ⟨key, mac⟩ := target
      rw [step_packet hidle hkey]
      have hfree : ∀ other, (s.running other).ifaceKey ≠ some key := hexclusive _ hkey
      refine ⟨h.apart.update rfl (fun other _ => h.apart.found other) ?_ ?_, h.iface, h.device, h.deviceRoom,
        h.held, fun i => ?_, h.failures⟩
      · rintro key' heq
        obtain rfl := Option.some.inj heq
        exact hfree
      · exact fun key' heq => by cases heq
      · have hsum := sum_inFlight s.running packet.cpu
          (.iface key mac packet.len (s.kernel.ifaceTrafficStats.lookup key)) i
        rw [hidle, inFlight_idle, inFlight_iface, add_zero, add_zero] at hsum
        have hwhole := h.whole i
        rw [← hsum] at hwhole
        exact hwhole
  · rw [step_uncounted (Or.inl hidle)]
    exact h

/-- **The counter of the interface is written.** -/
theorem inv_iface (h : Inv s) {key : InterfaceTrafficKey} {mac : Option Mac} {bytes : UInt32}
    {found : Option TrafficValue} (hrun : s.running cpu = .iface key mac bytes found) :
    Inv (nextStep s cpu) := by
  have hfound : found = s.kernel.ifaceTrafficStats.lookup key := by
    have := h.apart.found cpu
    rwa [hrun] at this
  have hkey : (s.running cpu).ifaceKey = some key := by rw [hrun]; rfl
  rw [nextStep_iface hrun, hfound, writeIfaceCounter_lookup, bumpIfaceCounter_eq]
  refine ⟨?_, ?_, h.device, h.deviceRoom, fun p _ => ?_, fun i => ?_, ?_⟩
  · exact h.apart.update trivial (fun other hother => h.apart.found_raise_iface hkey hother)
      (fun _ heq => by cases heq) fun _ heq => by cases heq
  · refine h.iface.raise (shown_first _) (shown_addPacket bytes) ?_ fun i hi => ?_
    · rw [sum_append, seen, if_pos rfl]
    · rw [sum_append, seen, if_neg (Ne.symm hi), add_zero]
  · simpa [removed, refused, offered] using h.held p
  · have hsum := sum_inFlight s.running cpu (.track key mac bytes) i
    rw [hrun, inFlight_iface, inFlight_track, add_zero] at hsum
    simp only [sum_append, offered, untracked, seen, add_zero, hsum, ← h.whole i]
    abel
  · simpa [refused] using h.failures

/-- **The packet is of no device** that is tracked. -/
theorem inv_untracked (h : Inv s) {key : InterfaceTrafficKey} {mac : Option Mac} {bytes : UInt32}
    (hrun : s.running cpu = .track key mac bytes) (htarget : trackedKey s.kernel key mac = none) :
    Inv (nextStep s cpu) := by
  rw [nextStep_untracked hrun htarget]
  refine ⟨?_, ?_, h.device, h.deviceRoom, fun p _ => ?_, fun i => ?_, ?_⟩
  · exact h.apart.update trivial (fun other _ => h.apart.found other) (fun _ heq => by cases heq)
      fun _ heq => by cases heq
  · simpa [seen] using h.iface
  · simpa [removed, refused, offered] using h.held p
  · have hsum := sum_inFlight s.running cpu .idle i
    rw [hrun, inFlight_track, inFlight_idle, add_zero] at hsum
    simp only [sum_append, offered, untracked, seen, add_zero, ← h.whole i, ← hsum]
    abel
  · simpa [refused] using h.failures

/-- The counter of a device is about the interface of the packet. -/
theorem ifaceOf_of_trackedKey {kernel : Kernel} {key : InterfaceTrafficKey} {mac : Option Mac}
    {target : DeviceTrafficKey} (h : trackedKey kernel key mac = some target) : ifaceOf target = key := by
  unfold trackedKey at h
  split_ifs at h
  obtain ⟨mac, -, rfl⟩ := Option.map_eq_some_iff.mp h
  rfl

/-- **The counter of the device is looked up.** -/
theorem inv_tracked (h : Inv s) {key : InterfaceTrafficKey} {mac : Option Mac} {bytes : UInt32}
    {target : DeviceTrafficKey} (hrun : s.running cpu = .track key mac bytes)
    (htarget : trackedKey s.kernel key mac = some target)
    (hfree : ∀ other, (s.running other).deviceKey ≠ some target) : Inv (nextStep s cpu) := by
  rw [nextStep_tracked hrun htarget]
  refine ⟨h.apart.update rfl (fun other _ => h.apart.found other) ?_ ?_, h.iface, h.device, h.deviceRoom,
    h.held, fun i => ?_, h.failures⟩
  · exact fun key' heq => by cases heq
  · rintro key' heq
    obtain rfl := Option.some.inj heq
    exact hfree
  · have hsum := sum_inFlight s.running cpu
      (.device target bytes (s.kernel.deviceTrafficStats.lookup target)) i
    rw [hrun, inFlight_track, inFlight_device, ifaceOf_of_trackedKey htarget] at hsum
    have hwhole := h.whole i
    rw [← add_right_cancel hsum] at hwhole
    exact hwhole

/-- **The counter of the device is written**, or there is no room. -/
theorem inv_device (h : Inv s) {key : DeviceTrafficKey} {bytes : UInt32} {found : Option TrafficValue}
    (hrun : s.running cpu = .device key bytes found) : Inv (nextStep s cpu) := by
  have hfound : found = s.kernel.deviceTrafficStats.lookup key := by
    have := h.apart.found cpu
    rwa [hrun] at this
  have hkey : (s.running cpu).deviceKey = some key := by rw [hrun]; rfl
  have hrefused : Refused deviceTrafficMaxEntries s.held key ↔
      Refused deviceTrafficMaxEntries s.kernel.deviceTrafficStats key := h.device.refused_iff.symm
  rw [nextStep_device hrun, hfound, writeDeviceCounter_lookup, bumpDeviceCounter_eq]
  refine ⟨?_, ?_, ?_, ?_, fun p _ => ?_, fun i => ?_, ?_⟩
  · exact h.apart.update trivial (fun other hother => h.apart.found_raise_device hkey hother)
      (fun _ heq => by cases heq) fun _ heq => by cases heq
  · unfold fateOf
    split_ifs <;> simpa [seen] using h.iface
  · exact h.device.raise (shown_first _) (shown_addPacket bytes)
  · exact len_raise_le h.deviceRoom
  · have hheld := h.held p
    rw [heldBy_raise]
    by_cases hfull : Refused deviceTrafficMaxEntries s.kernel.deviceTrafficStats key
    · simp only [sum_append, fateOf, if_pos hfull, if_pos (hrefused.mpr hfull), removed, refused, offered,
        ← hheld]
      abel
    · simp only [sum_append, fateOf, if_neg hfull, if_neg (mt hrefused.mp hfull), removed, refused, offered,
        ← hheld]
      abel
  · have hsum := sum_inFlight s.running cpu .idle i
    rw [hrun, inFlight_device, inFlight_idle, add_zero] at hsum
    have hwhole := h.whole i
    rw [← hsum] at hwhole
    by_cases hfull : Refused deviceTrafficMaxEntries s.kernel.deviceTrafficStats key
    · simp only [sum_append, fateOf, if_pos hfull, seen, untracked, offered, add_zero, ← hwhole]
      abel
    · simp only [sum_append, fateOf, if_neg hfull, seen, untracked, offered, add_zero, ← hwhole]
      abel
  · dsimp only
    simp only [fateOf]
    split_ifs with hfull
    · simpa [refused] using h.failures.bump cpu
    · simpa [refused] using h.failures

theorem inv_next (h : Inv s) (hexclusive : Exclusive s (.next cpu)) : Inv (nextStep s cpu) := by
  cases hrun : s.running cpu with
  | idle =>
    rw [nextStep_idle hrun]
    exact h
  | iface key mac bytes found => exact inv_iface h hrun
  | track key mac bytes =>
    cases htarget : trackedKey s.kernel key mac with
    | none => exact inv_untracked h hrun htarget
    | some target =>
      refine inv_tracked h hrun htarget (hexclusive target ?_)
      unfold lookedUp
      rw [hrun]
      exact htarget
  | device key bytes found => exact inv_device h hrun

/-- A counter that is removed goes into the journal. -/
theorem inv_removeDevice (h : Inv s) {key : DeviceTrafficKey} (hexclusive : Exclusive s (.removeDevice key)) :
    Inv (step s (.removeDevice key)) := by
  unfold step
  refine ⟨⟨fun cpu => ?_, h.apart.iface, h.apart.device⟩, ?_, h.device.erase key, ?_,
    fun p _ => ?_, fun i => ?_,
    ?_⟩
  · refine (h.apart.found cpu).congr (fun _ _ => rfl) fun key' hkey' => ?_
    have hne : key' ≠ key := by
      rintro rfl
      exact hexclusive cpu hkey'
    exact AList.lookup_erase_ne hne
  · simpa [seen] using h.iface
  · dsimp only
    rw [len_erase]
    have := h.deviceRoom
    split_ifs <;> omega
  · have hheld := h.held p
    have herase : heldBy p (s.held.erase key) + removed p (.removed key ((s.held.lookup key).getD 0)) =
        heldBy p s.held := by
      unfold heldBy
      rw [← total_erase (fun key amount => if p key then amount else 0) s.held key]
      cases s.held.lookup key with
      | none => simp [removed]
      | some amount => rfl
    simp only [sum_append, refused, offered, ← hheld, ← herase]
    abel
  · simpa [offered, untracked, seen] using h.whole i
  · simpa [refused] using h.failures

/-- What a CPU has found does not depend on the maps that userspace fills. -/
theorem Apart.settings (h : Apart s) (filters : Maps) (trackDevices : HashMap UInt32 UInt8) :
    Apart { s with kernel.filters := filters, kernel.trackDevices := trackDevices } :=
  ⟨fun cpu => (h.found cpu).congr (fun _ _ => rfl) fun _ _ => rfl, h.iface, h.device⟩

/-- **One step keeps the tables and the journal in agreement.** -/
theorem inv_step (h : Inv s) {a : Action cpus} (hexclusive : Exclusive s a) : Inv (step s a) := by
  cases a with
  | packet packet => exact inv_packet h hexclusive
  | next cpu => exact inv_next h hexclusive
  | syncDeviceTracking topology monitorIfaces =>
    exact ⟨h.apart.settings _ _, h.iface, h.device, h.deviceRoom, h.held, h.whole, h.failures⟩
  | setFilters filters =>
    exact ⟨h.apart.settings _ _, h.iface, h.device, h.deviceRoom, h.held, h.whole, h.failures⟩
  | removeDevice key => exact inv_removeDevice h hexclusive

end Step

theorem inv_run {s : System cpus} {acts : List (Action cpus)} (h : Along step Exclusive s acts) (hs : Inv s) :
    Inv (acts.foldl step s) :=
  h.invariant (fun _ _ hinv hexclusive => inv_step hinv hexclusive) hs

def bridgeIface : Interface := ⟨3, "br-lan", "lan", ["192.168.1.1/24"], []⟩

def bridgeOnly : TopologySnapshot := .ofInterfaces [bridgeIface]

/-- An IPv4 frame of 02:00:00:00:00:07. -/
def lanFrame : Slice where
  bytes := [2, 0, 0, 0, 0, 1, 2, 0, 0, 0, 0, 7, 0x08, 0, 0x45, 0, 0, 20, 0, 0, 0, 0, 64, 17, 0, 0, 192, 168, 1, 20,
    192, 168, 1, 1]
  short := by decide

def lanKey : DeviceTrafficKey := ⟨3, macAt lanFrame 6, IpVersion.v4, TrafficDirection.ingress⟩

def lanIface : InterfaceTrafficKey := ⟨3, IpVersion.v4, TrafficDirection.ingress⟩

/-- An IPv4 frame of 02:00:00:00:00:08. -/
def otherFrame : Slice where
  bytes := [2, 0, 0, 0, 0, 1, 2, 0, 0, 0, 0, 8, 0x08, 0, 0x45, 0, 0, 20, 0, 0, 0, 0, 64, 17, 0, 0, 192, 168, 1, 21,
    192, 168, 1, 1]
  short := by decide

/-- Two CPUs count a packet each, and the second one has not finished. -/
def twoCpus : List (Action 2) :=
  [.packet ⟨0, 3, TrafficDirection.ingress, lanFrame, 34⟩, .next 0,
    .packet ⟨1, 3, TrafficDirection.ingress, otherFrame, 60⟩, .next 0, .next 1, .next 1, .next 0]

theorem syncDeviceTracking_bridgeOnly :
    syncDeviceTracking bridgeOnly [] ∅ = raise trackDevicesMaxEntries 3 1 (fun _ => 1) ∅ := by
  have hinterfaces : bridgeOnly.interfaces = [bridgeIface] := List.mergeSort_singleton _
  have hvalue : trackValue bridgeIface = 1 := by simp [trackValue, bridgeIface]
  unfold syncDeviceTracking
  rw [hinterfaces]
  exact hvalue ▸ rfl

/-- A topology in which the devices of the interface are tracked. -/
def Tracks (topology : TopologySnapshot) (monitorIfaces : List String) (ifindex : UInt32) : Prop :=
  ∃ iface ∈ topology.interfaces, iface.ifindex = ifindex ∧
    (monitorIfaces = [] ∨ iface.name ∈ monitorIfaces) ∧ iface.zone.startsWith "wan" = false

theorem lookup_syncDeviceTracking {topology : TopologySnapshot} {monitorIfaces : List String}
    {map : HashMap UInt32 UInt8} {ifindex : UInt32}
    (h : (syncDeviceTracking topology monitorIfaces map).lookup ifindex = some 1) :
    map.lookup ifindex = some 1 ∨ Tracks topology monitorIfaces ifindex := by
  have hloop : ∀ (l : List Interface) (map : HashMap UInt32 UInt8),
      (l.foldl (fun map iface => raise trackDevicesMaxEntries iface.ifindex (trackValue iface)
        (fun _ => trackValue iface) map) map).lookup ifindex = some 1 →
      map.lookup ifindex = some 1 ∨ ∃ iface ∈ l, iface.ifindex = ifindex ∧ trackValue iface = 1 := by
    intro l
    induction l with
    | nil => exact fun _ hmap => Or.inl hmap
    | cons iface rest ih =>
      intro map hmap
      rcases ih _ hmap with hraise | ⟨iface', hmem, hfound⟩
      · rw [lookup_raise] at hraise
        split_ifs at hraise with hself
        · refine Or.inr ⟨iface, List.mem_cons_self, hself.1.symm, ?_⟩
          rw [← Option.some.inj hraise]
          cases map.lookup iface.ifindex <;> rfl
        · exact Or.inl hraise
      · exact Or.inr ⟨iface', List.mem_cons_of_mem _ hmem, hfound⟩
  rcases hloop _ map h with hmap | ⟨iface, hmem, hself, hvalue⟩
  · exact Or.inl hmap
  · obtain ⟨hiface, hmonitored⟩ := List.mem_filter.mp hmem
    refine Or.inr ⟨iface, hiface, hself, by simpa using hmonitored, ?_⟩
    by_contra hwan
    rw [trackValue, if_pos (Bool.eq_true_of_not_eq_false hwan)] at hvalue
    exact absurd hvalue (by decide)

theorem mem_writeDeviceCounter {cpu : ℕ} {kernel : Kernel} {key k : DeviceTrafficKey} {bytes : UInt64}
    {found : Option TrafficValue}
    (h : k ∈ (writeDeviceCounter cpus cpu kernel key bytes found).deviceTrafficStats) :
    k ∈ kernel.deviceTrafficStats ∨ k = key := by
  unfold writeDeviceCounter at h
  cases found with
  | some value =>
    dsimp only at h
    split_ifs at h
    · exact (AList.mem_insert _).mp h |>.symm
    · exact Or.inl h
  | none =>
    dsimp only at h
    split_ifs at h
    · exact (AList.mem_insert _).mp h |>.symm
    · exact Or.inl h

theorem trackDevices_writeDeviceCounter (cpu : ℕ) (kernel : Kernel) (key : DeviceTrafficKey) (bytes : UInt64)
    (found : Option TrafficValue) :
    (writeDeviceCounter cpus cpu kernel key bytes found).trackDevices = kernel.trackDevices := by
  unfold writeDeviceCounter
  cases found with
  | some value =>
    dsimp only
    split_ifs <;> rfl
  | none =>
    dsimp only
    split_ifs <;> rfl

/-- The interface of a device that is counted is tracked. -/
theorem tracked_of_trackedKey {kernel : Kernel} {key : InterfaceTrafficKey} {mac : Option Mac}
    {target : DeviceTrafficKey} (h : trackedKey kernel key mac = some target) :
    kernel.trackDevices.lookup target.ifindex = some 1 := by
  unfold trackedKey at h
  split_ifs at h with htrack
  obtain ⟨mac, -, rfl⟩ := Option.map_eq_some_iff.mp h
  cases hlookup : kernel.trackDevices.lookup key.ifindex with
  | none =>
    rw [hlookup] at htrack
    exact absurd htrack (by decide)
  | some track =>
    rw [hlookup] at htrack
    exact congrArg some htrack

/-- The devices that are tracked, have a counter or are being counted are on interfaces with `known`. -/
structure OnlyOn (known : UInt32 → Prop) (s : System cpus) : Prop where
  tracked : ∀ i, s.kernel.trackDevices.lookup i = some 1 → known i
  counted : ∀ k ∈ s.kernel.deviceTrafficStats, known k.ifindex
  running : ∀ cpu key, (s.running cpu).deviceKey = some key → known key.ifindex

section
variable {known : UInt32 → Prop} {s : System cpus}

/-- One CPU goes on. -/
theorem OnlyOn.update (h : OnlyOn known s) {cpu : Fin cpus} {r : Running} {kernel' : Kernel}
    {held' : HashMap DeviceTrafficKey Traffic} {journal' : Journal}
    (htrack : kernel'.trackDevices = s.kernel.trackDevices)
    (hcounted : ∀ k ∈ kernel'.deviceTrafficStats, known k.ifindex)
    (hkey : ∀ key, r.deviceKey = some key → known key.ifindex) :
    OnlyOn known ⟨kernel', Function.update s.running cpu r, held', journal'⟩ := by
  refine ⟨fun i hi => h.tracked i (htrack ▸ hi), hcounted, fun other key hother => ?_⟩
  dsimp only at hother
  rw [Function.update_apply] at hother
  split_ifs at hother
  · exact hkey key hother
  · exact h.running other key hother

theorem onlyOn_next (h : OnlyOn known s) (cpu : Fin cpus) : OnlyOn known (nextStep s cpu) := by
  cases hrun : s.running cpu with
  | idle =>
    rw [nextStep_idle hrun]
    exact h
  | iface key mac bytes found =>
    rw [nextStep_iface hrun]
    exact h.update rfl h.counted fun _ heq => by cases heq
  | track key mac bytes =>
    cases htarget : trackedKey s.kernel key mac with
    | none =>
      rw [nextStep_untracked hrun htarget]
      exact h.update rfl h.counted fun _ heq => by cases heq
    | some target =>
      rw [nextStep_tracked hrun htarget]
      refine h.update rfl h.counted fun key' heq => ?_
      obtain rfl := Option.some.inj heq
      exact h.tracked _ (tracked_of_trackedKey htarget)
  | device key bytes found =>
    rw [nextStep_device hrun]
    refine h.update (trackDevices_writeDeviceCounter ..) (fun k hk => ?_) fun _ heq => by cases heq
    rcases mem_writeDeviceCounter hk with hk | rfl
    · exact h.counted k hk
    · exact h.running cpu k (by rw [hrun]; rfl)

theorem onlyOn_packet (h : OnlyOn known s) (packet : Packet cpus) :
    OnlyOn known (step s (.packet packet)) := by
  by_cases hidle : s.running packet.cpu = .idle
  · cases hkey : packetKey s.kernel packet with
    | none =>
      rw [step_uncounted (Or.inr hkey)]
      exact h
    | some target =>
      rw [step_packet hidle hkey]
      exact h.update rfl h.counted fun _ heq => by cases heq
  · rw [step_uncounted (Or.inl hidle)]
    exact h

theorem onlyOn_step (h : OnlyOn known s) {a : Action cpus}
    (ha : ∀ topology monitorIfaces i, a = .syncDeviceTracking topology monitorIfaces →
      Tracks topology monitorIfaces i → known i) : OnlyOn known (step s a) := by
  cases a with
  | packet packet => exact onlyOn_packet h packet
  | next cpu => exact onlyOn_next h cpu
  | syncDeviceTracking topology monitorIfaces =>
    refine ⟨fun i hi => ?_, h.counted, h.running⟩
    rcases lookup_syncDeviceTracking hi with hold | htracks
    · exact h.tracked i hold
    · exact ha topology monitorIfaces i rfl htracks
  | setFilters filters => exact ⟨h.tracked, h.counted, h.running⟩
  | removeDevice key =>
    refine ⟨h.tracked, fun k hk => h.counted k ?_, h.running⟩
    exact (AList.mem_erase.mp hk).2

end

/-- **Devices are counted only where userspace tracks them**: if a device has a counter, then some topology of
the run had its interface among the monitored ones and outside of the WAN. -/
theorem counted_only_tracked (filters : Maps) (acts : List (Action cpus)) :
    ∀ k ∈ (acts.foldl step (.start filters)).kernel.deviceTrafficStats, ∃ topology monitorIfaces,
      .syncDeviceTracking topology monitorIfaces ∈ acts ∧ Tracks topology monitorIfaces k.ifindex := by
  have hrun : OnlyOn (fun i => ∃ topology monitorIfaces, .syncDeviceTracking topology monitorIfaces ∈ acts ∧
      Tracks topology monitorIfaces i) (acts.foldl step (.start filters)) := by
    refine List.foldlRecOn acts step ?_ fun s hs a ha => ?_
    · refine ⟨fun i hi => ?_, fun k hk => absurd hk (AList.notMem_empty k), fun cpu key hkey => ?_⟩
      · cases hi
      · cases hkey
    · refine onlyOn_step hs fun topology monitorIfaces i heq htracks => ?_
      exact ⟨topology, monitorIfaces, heq ▸ ha, htracks⟩
  exact hrun.counted

theorem counted_only_tracked_lan :
    ∃ topology monitorIfaces, Action.syncDeviceTracking topology monitorIfaces ∈
        (.syncDeviceTracking bridgeOnly [] :: twoCpus) ∧ Tracks topology monitorIfaces lanKey.ifindex := by
  refine counted_only_tracked noManagement _ lanKey ?_
  simp only [List.foldl_cons, step, System.start, syncDeviceTracking_bridgeOnly]
  decide

end BandixPlus.Ebpf.Counting
