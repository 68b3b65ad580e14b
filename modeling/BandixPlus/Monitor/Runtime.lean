import BandixPlus.Common
import BandixPlus.Monitor.Snapshot
import BandixPlus.Monitor.Topology
import BandixPlus.Net.Addresses

/-! # The state of the collector

`monitor.rs`, `MonitorRuntime` and the functions on it that are not a part of `collect_snapshot`. The
buffers that are refilled on every tick, the times of the last warnings and the diagnostics of IPv6
neighbours are left out: they are written to the log alone. -/

namespace BandixPlus.Monitor.Runtime

open BandixPlus.Common BandixPlus.Lib.Maps BandixPlus.Lib.Saturating
open BandixPlus.Monitor.Counters BandixPlus.Monitor.Snapshot BandixPlus.Monitor.Topology
open BandixPlus.Net.Addresses BandixPlus.Net.Text

abbrev EcmAddress := IpWords × UInt8
abbrev DeviceKey := UInt32 × Mac

structure KnownDevice where
  ifindex : UInt32
  mac : Mac
  ipv4 : List String
  ipv6 : List String
  hostname : String
  logicalIface : String
  subnet : String
  lastSeenMs : UInt64

def ecmIdleTimeoutMs : UInt64 := 60000
def ecmHistoryFallbackMs : UInt64 := 5 * 60000
def ipv6NeighborPollIntervalMs : UInt64 := 10000
def ipv6NeighborFastPollIntervalMs : UInt64 := 2000

structure NeighborOwnership where
  device : Option DeviceKey
  observedMs : UInt64
  observationTick : UInt64

structure MonitorRuntime where
  neighborOwnership : HashMap EcmAddress NeighborOwnership
  prevIfaceBytes : HashMap InterfaceTrafficKey UInt64
  prevDeviceBytes : HashMap DeviceTrafficKey UInt64
  deviceLastActiveMs : HashMap DeviceTrafficKey UInt64
  prevEcmBytes : HashMap EcmTrafficKey UInt64
  ecmLastActiveMs : HashMap EcmTrafficKey UInt64
  ecmDeviceGraceTicks : HashMap DeviceKey UInt8
  cumulativeIface : HashMap UInt32 CounterQuad
  cumulativeDevice : HashMap DeviceKey CounterQuad
  cumulativeMcast : HashMap UInt32 CounterQuad
  cumulativeBcast : HashMap UInt32 CounterQuad
  cumulativeUnresolved : HashMap UInt32 CounterQuad
  smoothedRates : HashMap DeviceKey CounterQuad
  smoothedIfaceRates : HashMap UInt32 CounterQuad
  smoothedWanEcmRates : Option CounterQuad
  smoothedLanEcmRates : HashMap UInt32 CounterQuad
  smoothedUnresolvedEcmRates : HashMap UInt32 CounterQuad
  lastSnapshotMs : Option UInt64
  lastEcmSnapshotMs : Option UInt64
  deviceRegistry : HashMap DeviceKey KnownDevice
  lastHostnameFetchMs : UInt64
  cachedHostnames : HashMap Mac String
  lastIpv6NeighFetchMs : UInt64
  cachedIpv6NeighborsRaw : String
  ipv6NeighborRefreshPending : Bool
  lastDevicePruneMs : UInt64

/-- `MonitorRuntime::default()`. -/
def MonitorRuntime.default : MonitorRuntime where
  neighborOwnership := ∅
  prevIfaceBytes := ∅
  prevDeviceBytes := ∅
  deviceLastActiveMs := ∅
  prevEcmBytes := ∅
  ecmLastActiveMs := ∅
  ecmDeviceGraceTicks := ∅
  cumulativeIface := ∅
  cumulativeDevice := ∅
  cumulativeMcast := ∅
  cumulativeBcast := ∅
  cumulativeUnresolved := ∅
  smoothedRates := ∅
  smoothedIfaceRates := ∅
  smoothedWanEcmRates := none
  smoothedLanEcmRates := ∅
  smoothedUnresolvedEcmRates := ∅
  lastSnapshotMs := none
  lastEcmSnapshotMs := none
  deviceRegistry := ∅
  lastHostnameFetchMs := 0
  cachedHostnames := ∅
  lastIpv6NeighFetchMs := 0
  cachedIpv6NeighborsRaw := ""
  ipv6NeighborRefreshPending := false
  lastDevicePruneMs := 0

/-! ### Numbers -/

/-- `saturating_sub`. -/
def satSub (a b : UInt64) : UInt64 := if b ≤ a then a - b else 0

/-- The bytes counted since the last reading; a counter that went back has started again. -/
def deltaBytes (current prev : UInt64) : UInt64 := if prev ≤ current then current - prev else current

/-- Bits per second. -/
def deltaBps (deltaBytes : UInt64) (sec : Float) : UInt64 :=
  (deltaBytes.toFloat * 8.0 / sec).round.toUInt64

/-- `add_quad`. -/
def addQuad (dst src : CounterQuad) : CounterQuad :=
  { bps := addSat dst.bps src.bps, bytes := addSat dst.bytes src.bytes }

/-- `add_bytes_quad`. -/
def addBytesQuad (dst src : CounterQuad) : CounterQuad :=
  { dst with bytes := addSat dst.bytes src.bytes }

/-- `bytes_only`. -/
def bytesOnly (src : CounterQuad) : CounterQuad := { bps := .const 0, bytes := src.bytes }

/-- The field for an IP version and a direction: what enters the router from a device is its upload. -/
def laneOf (ipVersion direction : UInt8) : Option Lane :=
  if ipVersion = IpVersion.v4 ∧ direction = TrafficDirection.ingress then some .upV4
  else if ipVersion = IpVersion.v4 ∧ direction = TrafficDirection.egress then some .downV4
  else if ipVersion = IpVersion.v6 ∧ direction = TrafficDirection.ingress then some .upV6
  else if ipVersion = IpVersion.v6 ∧ direction = TrafficDirection.egress then some .downV6
  else none

/-- One field of a `Quad` raised by an amount. -/
def raise (q : Quad UInt64) (l : Lane) (amount : UInt64) : Quad UInt64 := q.modify l (satAdd · amount)

def fillQuad (ipVersion direction : UInt8) (quad : CounterQuad) (deltaBytes : UInt64) (sec : Float) :
    CounterQuad :=
  match laneOf ipVersion direction with
  | some l =>
    { bps := raise quad.bps l (deltaBps deltaBytes sec), bytes := raise quad.bytes l deltaBytes }
  | none => quad

def invertedDir (direction : UInt8) : UInt8 :=
  if direction = TrafficDirection.ingress then TrafficDirection.egress
  else if direction = TrafficDirection.egress then TrafficDirection.ingress
  else direction

/-- On the WAN side what enters the router is a download. -/
def fillQuadWan (ipVersion direction : UInt8) (quad : CounterQuad) (deltaBytes : UInt64)
    (sec : Float) : CounterQuad :=
  fillQuad ipVersion (invertedDir direction) quad deltaBytes sec

/-- `fill_quad_wan` on the WAN side, `fill_quad` elsewhere. -/
def fillQuadFor (isWan : Bool) (ipVersion direction : UInt8) (quad : CounterQuad)
    (deltaBytes : UInt64) (sec : Float) : CounterQuad :=
  if isWan then fillQuadWan ipVersion direction quad deltaBytes sec
  else fillQuad ipVersion direction quad deltaBytes sec

/-- The moving average of rates. -/
def smoothBps (metrics smoothed : Quad UInt64) : Quad UInt64 :=
  Quad.zip (fun m s => ((0.4 * m.toFloat) + (0.6 * s.toFloat)).toUInt64) metrics smoothed

/-- The moving average without a new sample. -/
def decayBps (smoothed : Quad UInt64) : Quad UInt64 :=
  smoothed.map fun s => (0.6 * s.toFloat).toUInt64

/-! ### Addresses -/

def isBroadcastMac (mac : Mac) : Bool := mac = Vector.replicate 6 0xff

def isMulticastMac (mac : Mac) : Bool := mac[0] &&& 0x01 ≠ 0

/-- The four words of an IPv6 address. -/
def v6Words (ip : BitVec 128) : IpWords :=
  #v[UInt32.ofNat (ip.toNat / 2 ^ 96), UInt32.ofNat (ip.toNat / 2 ^ 64),
    UInt32.ofNat (ip.toNat / 2 ^ 32), UInt32.ofNat ip.toNat]

/-- The IPv6 address of four words. -/
def wordsV6 (ip : IpWords) : BitVec 128 :=
  ip.toList.foldl (fun acc word => acc <<< 32 ||| BitVec.ofNat 128 word.toNat) 0

def ecmAddress (ip : String) : Option EcmAddress :=
  (parse (beforeChar ip '%')).map fun
    | .v4 ip => (#v[ip, 0, 0, 0], 4)
    | .v6 ip => (v6Words ip, 6)

/-- The network and the mask of an IPv4 network. -/
def parseCidrToU32 (cidr : String) : Option (UInt32 × UInt32) := do
  let (ipStr, prefixStr) ← splitOnce (trim cidr) '/'
  let ip ← parseIpv4 (trim ipStr)
  let bits ← parseUnsigned 10 (2 ^ 32) (trim prefixStr)
  if 32 < bits then none
  else
    let mask := (BitVec.allOnes 32 <<< (32 - bits)).toNat.toUInt32
    some (ip &&& mask, mask)

def parseCidrToU128 (cidr : String) : Option (BitVec 128 × BitVec 128) := do
  let (ip, prefixStr) ← splitOnce cidr '/'
  let ip ← parseIpv6 (beforeChar ip '%')
  let bits ← parseUnsigned 10 (2 ^ 32) prefixStr
  if 128 < bits then none
  else
    let mask := BitVec.allOnes 128 <<< (128 - bits)
    some (ip &&& mask, mask)

def isPrivateOrLocalIpv4 (ip : UInt32) : Bool :=
  ip &&& 0xFF000000 = 0x0A000000 || ip &&& 0xFFF00000 = 0xAC100000 || ip &&& 0xFFFF0000 = 0xC0A80000
    || ip &&& 0xFFFF0000 = 0xA9FE0000 || ip &&& 0xFF000000 = 0x7F000000
    || ip &&& 0xF0000000 = 0xE0000000 || ip = 0xFFFFFFFF

inductive SubnetMatch where
  | none
  | unique (ifindex : UInt32)
  | ambiguous
  deriving DecidableEq

def uniqueSubnetIface (ifindices : List UInt32) : SubnetMatch :=
  ifindices.foldl (fun result ifindex =>
    match result with
    | .none => .unique ifindex
    | .unique previous => if previous ≠ ifindex then .ambiguous else .unique previous
    | .ambiguous => .ambiguous) .none

/-! ### Neighbour ownership -/

def NeighborOwnership.validOwner (entry : NeighborOwnership) (nowMs : UInt64) : Option DeviceKey :=
  if satSub nowMs entry.observedMs < ecmHistoryFallbackMs then entry.device else none

/-- Two devices observed at one address in one tick leave it without an owner. -/
def observeNeighbor (cache : HashMap EcmAddress NeighborOwnership) (address : EcmAddress)
    (device : DeviceKey) (observedMs tick : UInt64) : HashMap EcmAddress NeighborOwnership :=
  let entry := (cache.lookup address).getD ⟨some device, observedMs, tick⟩
  let owner :=
    if entry.observationTick = tick then
      if entry.device = some device then some device else none
    else some device
  cache.insert address { device := owner, observedMs, observationTick := tick }

def ipv6NeighborPollDue (nowMs lastPollMs : UInt64) (forceRefresh : Bool) : Bool :=
  let elapsed := satSub nowMs lastPollMs
  ipv6NeighborPollIntervalMs ≤ elapsed || (forceRefresh && ipv6NeighborFastPollIntervalMs ≤ elapsed)

/-! ### Operations -/

namespace MonitorRuntime

/-- The seconds since the last ECM reading. -/
def ecmIntervalSeconds (rt : MonitorRuntime) (nowMs : UInt64) (fallbackSecs : Float) (readOk : Bool) :
    Float × MonitorRuntime :=
  let previous := rt.lastEcmSnapshotMs.getD (satSub nowMs (fallbackSecs * 1000.0).toUInt64)
  let seconds := max ((satSub nowMs previous).toFloat / 1000.0) 0.001
  (seconds, { rt with lastEcmSnapshotMs := some (if readOk then nowMs else previous) })

def removeDevice (rt : MonitorRuntime) (ifindex : UInt32) (mac : Mac) : Bool × MonitorRuntime :=
  let key := (ifindex, mac)
  (key ∈ rt.deviceRegistry || key ∈ rt.cumulativeDevice || key ∈ rt.smoothedRates,
    { rt with
      deviceRegistry := rt.deviceRegistry.erase key
      cumulativeDevice := rt.cumulativeDevice.erase key
      smoothedRates := rt.smoothedRates.erase key
      ecmDeviceGraceTicks := rt.ecmDeviceGraceTicks.erase key
      neighborOwnership := retain (fun _ owner => owner.device ≠ some key) rt.neighborOwnership })

end MonitorRuntime

end BandixPlus.Monitor.Runtime
