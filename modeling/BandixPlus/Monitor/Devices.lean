import BandixPlus.Monitor.Interfaces
import BandixPlus.Monitor.Neighbors

/-! # The devices of a tick

`monitor.rs`, `collect_snapshot`: the devices that the neighbour tables show, the software counters of
the devices, and what the device registry keeps. -/

namespace BandixPlus.Monitor.Devices

open BandixPlus.Common BandixPlus.Lib.Maps
open BandixPlus.Monitor.Counters BandixPlus.Monitor.Snapshot BandixPlus.Monitor.Topology
open BandixPlus.Monitor.Runtime BandixPlus.Monitor.Neighbors BandixPlus.Monitor.Interfaces
open BandixPlus.Net.Text

def pickBestNeighborState (a b : String) : String :=
  let rank := fun s : String =>
    if s = "REACHABLE" then 4 else if s = "STALE" then 3 else if s = "DELAY" then 2
    else if s = "PROBE" then 1 else 0
  if a = "" ∨ rank a < rank b then b else a

/-! ### Neighbours -/

/-- Owners that were not observed for too long, or whose interface is gone, are forgotten. -/
def retainOwnership (topology : TopologySnapshot) (nowMs : UInt64)
    (ownership : HashMap EcmAddress NeighborOwnership) : HashMap EcmAddress NeighborOwnership :=
  retain (fun _ owner =>
    satSub nowMs owner.observedMs < ecmHistoryFallbackMs &&
      owner.device.all fun device => (topology.byIfindex device.1).isSome) ownership

/-- The interface that a neighbour is on. -/
def ifaceOf (topology : TopologySnapshot) (dev : String) : Option Interface :=
  ((ifindexByName topology).lookup dev).bind topology.byIfindex

/-- What an observed neighbour does to the owners. -/
def observeStep (topology : TopologySnapshot) (nowMs ipv6FetchMs : UInt64)
    (ownership : HashMap EcmAddress NeighborOwnership) (n : FilteredNeighborEntry) :
    HashMap EcmAddress NeighborOwnership :=
  match (ifaceOf topology n.dev).filter fun iface => !wanZone iface with
  | none => ownership
  | some _ =>
    match ecmAddress n.ip, (ifindexByName topology).lookup n.dev with
    | some address, some ifindex =>
      let observedMs := if address.2 = 6 then ipv6FetchMs else nowMs
      observeNeighbor ownership address (ifindex, n.mac) observedMs nowMs
    | _, _ => ownership

/-- The addresses of a neighbour and its best state. -/
structure NeighborIps where
  ipv4 : List String
  ipv6 : List String
  state : String

def addIp (n : FilteredNeighborEntry) (entry : NeighborIps) : NeighborIps :=
  let push := fun ips : List String => if n.ip ∈ ips then ips else ips ++ [n.ip]
  let state := pickBestNeighborState entry.state n.state
  if ':' ∈ n.ip.toList then { entry with ipv6 := push entry.ipv6, state }
  else { entry with ipv4 := push entry.ipv4, state }

/-- The neighbours that are hosts. -/
def hostNeighbors (neighbors : List FilteredNeighborEntry) : List FilteredNeighborEntry :=
  neighbors.filter fun n => !(isMulticastMac n.mac || isBroadcastMac n.mac)

/-- The owners after this tick's neighbours. -/
def observeNeighbors (topology : TopologySnapshot) (nowMs ipv6FetchMs : UInt64)
    (ownership : HashMap EcmAddress NeighborOwnership) (neighbors : List FilteredNeighborEntry) :
    HashMap EcmAddress NeighborOwnership :=
  (hostNeighbors neighbors).foldl (observeStep topology nowMs ipv6FetchMs) ownership

/-- The neighbours grouped by interface and MAC address. -/
def groupNeighbors (neighbors : List FilteredNeighborEntry) : HashMap (String × Mac) NeighborIps :=
  (hostNeighbors neighbors).foldl
    (fun m n => upsert (n.dev, n.mac) ⟨[], [], ""⟩ (addIp n) m) ∅

/-- Link-local addresses last, both parts sorted. -/
def sortIpv6 (ips : List String) : List String :=
  let linkLocal := fun ip : String => ['f', 'e', '8', '0'].isPrefixOf ip.toList
  let sort := fun ips : List String => ips.mergeSort fun a b => a ≤ b
  sort (ips.filter fun ip => !linkLocal ip) ++ sort (ips.filter linkLocal)

/-- The network shown for a neighbour. -/
def neighborSubnet (iface : Interface) (ipv4 : List String) : String :=
  ((ipv4.head?.bind fun ip => iface.ipv4Cidrs.find? fun cidr => ipv4InCidr ip cidr)
    |>.or iface.ipv4Cidrs.head? |>.or iface.ipv6Cidrs.head?).getD "-"

/-- The host name that was set for a known device. -/
def knownHostname (known : KnownDevice) : Option String :=
  let h := trim known.hostname
  if h = "" ∨ h = "-" then none else some known.hostname

/-- The device of a group of neighbours. -/
def neighborDevice (cfg : Config) (topology : TopologySnapshot) (rt : MonitorRuntime) (nowMs : UInt64)
    (dev : String) (mac : Mac) (ips : NeighborIps) : Option (DeviceKey × DeviceListItem) :=
  match (ifindexByName topology).lookup dev with
  | none => none
  | some ifindex =>
    match topology.byIfindex ifindex with
    | none => none
    | some iface =>
      if wanZone iface then none
      else if cfg.monitorIfaces ≠ [] ∧ iface.name ∉ cfg.monitorIfaces then none
      else if ips.ipv4 = [] ∧ ips.ipv6 = [] then none
      else some ((ifindex, mac), {
        ifindex
        logicalIface := iface.name
        subnet := neighborSubnet iface ips.ipv4
        ipv4 := ips.ipv4
        ipv6 := sortIpv6 ips.ipv6
        mac := macToString mac
        hostname := (((rt.deviceRegistry.lookup (ifindex, mac)).bind knownHostname).or
          (rt.cachedHostnames.lookup mac)).getD "-"
        metrics := .zero
        cumulative := .zero
        online := true
        lastSeenMs := nowMs
        neighborState := some ips.state })

abbrev DevicesGroup := HashMap DeviceKey DeviceListItem

def neighborDevices (cfg : Config) (o : IterOrder) (topology : TopologySnapshot) (rt : MonitorRuntime)
    (nowMs : UInt64) (groups : HashMap (String × Mac) NeighborIps) : DevicesGroup :=
  (o.order groups.entries).foldl (fun m e =>
    match neighborDevice cfg topology rt nowMs e.1.1 e.1.2 e.2 with
    | some (key, item) => m.insert key item
    | none => m) ∅

/-! ### Known devices -/

/-- The row of a known device that has traffic but no neighbour entry. -/
def activatedItem (known : KnownDevice) (nowMs : UInt64) : DeviceListItem where
  ifindex := known.ifindex
  logicalIface := known.logicalIface
  subnet := known.subnet
  ipv4 := known.ipv4
  ipv6 := known.ipv6
  mac := macToString known.mac
  hostname := if trim known.hostname = "" then "-" else known.hostname
  metrics := .zero
  cumulative := .zero
  online := true
  lastSeenMs := nowMs
  neighborState := none

def activateKnownDevice (devices : DevicesGroup) (registry : HashMap DeviceKey KnownDevice)
    (key : DeviceKey) (nowMs : UInt64) : DevicesGroup :=
  if key ∈ devices then devices
  else
    match registry.lookup key with
    | some known => devices.insert key (activatedItem known nowMs)
    | none => devices

/-- The traffic of a device raised. -/
def fillDevice (ipVersion direction : UInt8) (delta : UInt64) (sec : Float) (item : DeviceListItem) :
    DeviceListItem :=
  { item with metrics := fillQuad ipVersion direction item.metrics delta sec }

/-! ### Software counters -/

structure CounterLoop where
  prevDeviceBytes : HashMap DeviceTrafficKey UInt64
  deviceLastActiveMs : HashMap DeviceTrafficKey UInt64
  devices : DevicesGroup
  breakdown : Breakdown
  /-- The keys that may be removed, in the order in which they were found. -/
  inactive : List DeviceTrafficKey

def deviceCounterIdleMs : UInt64 := 24 * 60 * 60 * 1000
def deviceCounterPruneIntervalMs : UInt64 := 60 * 1000

/-- Raise the entry of an interface. -/
def fillEntry (isWan : Bool) (k : DeviceTrafficKey) (delta : UInt64) (sec : Float)
    (m : HashMap UInt32 CounterQuad) : HashMap UInt32 CounterQuad :=
  upsert k.ifindex .zero
    (fun metrics => fillQuadFor isWan k.ipVersion k.direction metrics delta sec) m

/-- The bytes of a counter go to the broadcast or multicast traffic of the interface, to the device, or
to the unresolved traffic; those of the WAN interface are in its interface counters. -/
def attributeCounter (wan : Option UInt32) (k : DeviceTrafficKey) (delta : UInt64) (sec : Float)
    (devices : DevicesGroup) (b : Breakdown) : DevicesGroup × Breakdown :=
  let isWan := some k.ifindex = wan
  if isBroadcastMac k.mac then (devices, { b with bcast := fillEntry isWan k delta sec b.bcast })
  else if isMulticastMac k.mac then (devices, { b with mcast := fillEntry isWan k delta sec b.mcast })
  else if (k.ifindex, k.mac) ∈ devices then
    (modify (k.ifindex, k.mac) (fillDevice k.ipVersion k.direction delta sec) devices, b)
  else if isWan then (devices, b)
  else (devices, { b with unresolved := fillEntry false k delta sec b.unresolved })

def counterStep (registry : HashMap DeviceKey KnownDevice) (wan : Option UInt32) (nowMs : UInt64)
    (sec : Float) (prune : Bool) (st : CounterLoop) (k : DeviceTrafficKey) (v : TrafficValue) :
    CounterLoop :=
  let delta := deltaBytes v.bytes ((st.prevDeviceBytes.lookup k).getD 0)
  let st := { st with prevDeviceBytes := st.prevDeviceBytes.insert k v.bytes }
  if delta = 0 then
    let lastActive := (st.deviceLastActiveMs.lookup k).getD nowMs
    { st with
      deviceLastActiveMs := st.deviceLastActiveMs.insert k lastActive
      inactive :=
        if prune && deviceCounterIdleMs ≤ satSub nowMs lastActive then st.inactive ++ [k]
        else st.inactive }
  else
    let devices :=
      if some k.ifindex ≠ wan ∧ !isMulticastMac k.mac then
        activateKnownDevice st.devices registry (k.ifindex, k.mac) nowMs
      else st.devices
    let (devices, breakdown) := attributeCounter wan k delta sec devices st.breakdown
    { st with
      deviceLastActiveMs := st.deviceLastActiveMs.insert k nowMs
      devices
      breakdown }

def counterLoop (tick : Tick) (topology : TopologySnapshot) (rt : MonitorRuntime) (sec : Float)
    (prune : Bool) (stats : HashMap DeviceTrafficKey TrafficValue) (devices : DevicesGroup) :
    CounterLoop :=
  (tick.o.order stats.entries).foldl (fun st e =>
    counterStep rt.deviceRegistry (wanIfindex topology) tick.nowMs sec prune st e.1 e.2)
    ⟨rt.prevDeviceBytes, rt.deviceLastActiveMs, devices, ⟨∅, ∅, ∅⟩, []⟩

/-- The counters that the kernel removed start again from nothing. -/
def pruneCounters (removed : DeviceTrafficKey → Bool) (st : CounterLoop) : CounterLoop :=
  (st.inactive.filter removed).foldl (fun st k =>
    { st with
      prevDeviceBytes := st.prevDeviceBytes.erase k
      deviceLastActiveMs := st.deviceLastActiveMs.erase k }) st

/-! ### Totals, registry and rows -/

/-- The pseudo-device of the WAN side. -/
def macWan : Mac := #v[0x02, 0x00, 0x00, 0x00, 0x00, 0x00]

def wanItem (topology : TopologySnapshot) (ifindex : UInt32) (nowMs : UInt64) : DeviceListItem where
  ifindex
  -- the interface is in the topology
  logicalIface := ((topology.byIfindex ifindex).map Interface.name).getD ""
  subnet := ""
  ipv4 := []
  ipv6 := []
  mac := macToString macWan
  hostname := "WAN (External)"
  metrics := .zero
  cumulative := .zero
  online := true
  lastSeenMs := nowMs
  neighborState := none

/-- Add what is not empty. -/
def addIfAny (metrics src : CounterQuad) : CounterQuad :=
  if src.isEmpty then metrics else addQuad metrics src

/-- The WAN pseudo-device with the software and the hardware traffic of the WAN interface, and the
devices with hardware traffic. -/
def addWanDevice (topology : TopologySnapshot) (nowMs : UInt64) (wanTc wanEcm : CounterQuad)
    (devices : DevicesGroup) (ecmDevices : List DeviceKey) : DevicesGroup × List DeviceKey :=
  match wanIfindex topology with
  | none => (devices, ecmDevices)
  | some ifindex =>
    let key := (ifindex, macWan)
    (upsert key (wanItem topology ifindex nowMs) (fun item =>
      { item with
        online := true
        lastSeenMs := nowMs
        metrics := addIfAny (addIfAny item.metrics wanTc) wanEcm }) devices,
      if wanEcm.isEmpty then ecmDevices else ecmDevices.insert key)

structure SettleLoop where
  devices : DevicesGroup
  cumulativeDevice : HashMap DeviceKey CounterQuad
  ecmDeviceGraceTicks : HashMap DeviceKey UInt8
  smoothedRates : HashMap DeviceKey CounterQuad

/-- The total of a device, and its rates: smoothed while hardware traffic was seen lately. -/
def settleStep (ecmDevices : List DeviceKey) (st : SettleLoop) (key : DeviceKey)
    (dev : DeviceListItem) : SettleLoop :=
  let cum := addQuad ((st.cumulativeDevice.lookup key).getD .zero) dev.metrics
  let dev := { dev with cumulative := cum }
  let cumulativeDevice := st.cumulativeDevice.insert key cum
  match st.ecmDeviceGraceTicks.lookup key with
  | some grace =>
    let smoothed := (st.smoothedRates.lookup key).getD .zero
    let bps := smoothBps dev.metrics.bps smoothed.bps
    { devices := st.devices.insert key { dev with metrics := { dev.metrics with bps } }
      cumulativeDevice
      ecmDeviceGraceTicks :=
        if key ∈ ecmDevices then st.ecmDeviceGraceTicks
        else st.ecmDeviceGraceTicks.insert key (if grace = 0 then 0 else grace - 1)
      smoothedRates := st.smoothedRates.insert key { smoothed with bps } }
  | none =>
    { st with
      devices := st.devices.insert key dev
      cumulativeDevice
      smoothedRates := st.smoothedRates.insert key dev.metrics }

/-- The devices with their totals and rates. -/
def settleDevices (o : IterOrder) (rt : MonitorRuntime) (devices : DevicesGroup)
    (ecmDevices : List DeviceKey) : DevicesGroup × MonitorRuntime :=
  let grace := ecmDevices.foldl (fun m key => m.insert key 2) rt.ecmDeviceGraceTicks
  let st := (o.order devices.entries).foldl (fun st e => settleStep ecmDevices st e.1 e.2)
    ⟨devices, rt.cumulativeDevice, grace, rt.smoothedRates⟩
  (st.devices,
    { rt with
      cumulativeDevice := st.cumulativeDevice
      ecmDeviceGraceTicks := retain (fun key grace =>
        key ∈ st.devices && (0 < grace || key ∈ ecmDevices)) st.ecmDeviceGraceTicks
      smoothedRates := retain (fun key _ => key ∈ st.devices) st.smoothedRates })

def knownDevice (key : DeviceKey) (dev : DeviceListItem) (nowMs : UInt64) : KnownDevice where
  ifindex := dev.ifindex
  mac := key.2
  ipv4 := dev.ipv4
  ipv6 := dev.ipv6
  hostname := dev.hostname
  logicalIface := dev.logicalIface
  subnet := dev.subnet
  lastSeenMs := nowMs

def registerDevices (o : IterOrder) (nowMs : UInt64) (devices : DevicesGroup)
    (registry : HashMap DeviceKey KnownDevice) : HashMap DeviceKey KnownDevice :=
  (o.order devices.entries).foldl (fun m e => m.insert e.1 (knownDevice e.1 e.2 nowMs)) registry

/-- The row of a known device that is not online. -/
def offlineItem (rt : MonitorRuntime) (key : DeviceKey) (known : KnownDevice) : DeviceListItem where
  ifindex := known.ifindex
  logicalIface := known.logicalIface
  subnet := known.subnet
  ipv4 := known.ipv4
  ipv6 := known.ipv6
  mac := macToString known.mac
  hostname := known.hostname
  metrics := .zero
  cumulative := (rt.cumulativeDevice.lookup key).getD .zero
  online := false
  lastSeenMs := known.lastSeenMs
  neighborState := none

/-- A known device has a row if its interface is monitored. -/
def shownOffline (cfg : Config) (topology : TopologySnapshot) (devices : DevicesGroup)
    (key : DeviceKey) (known : KnownDevice) : Bool :=
  key ∉ devices && (cfg.monitorIfaces = [] ||
    (topology.byIfindex known.ifindex).any fun iface => iface.name ∈ cfg.monitorIfaces)

/-- The order of the device rows. -/
def deviceLe (a b : DeviceListItem) : Bool :=
  ((compare a.logicalIface b.logicalIface).then
    ((compare a.ipv4 b.ipv4).then (compare a.ipv6 b.ipv6))).isLE

def deviceRows (cfg : Config) (o : IterOrder) (topology : TopologySnapshot) (rt : MonitorRuntime)
    (devices : DevicesGroup) : List DeviceListItem :=
  let onlineRows := (o.order devices.entries).map fun e => e.2
  let known := (o.order rt.deviceRegistry.entries).filter fun e =>
    shownOffline cfg topology devices e.1 e.2
  (onlineRows ++ known.map fun e => offlineItem rt e.1 e.2).mergeSort deviceLe

end BandixPlus.Monitor.Devices
