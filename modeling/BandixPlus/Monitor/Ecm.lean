import BandixPlus.Monitor.Devices

/-! # Hardware traffic

`monitor.rs`, `collect_snapshot`: the counters of the flows that the hardware forwards (ECM) are keyed by
IP address. The bytes of an address go to the device that owns it, or else to the interface whose
network it is in, or else outside. -/

namespace BandixPlus.Monitor.Ecm

open BandixPlus.Common BandixPlus.Lib.Maps BandixPlus.Lib.Saturating
open BandixPlus.Monitor.Counters BandixPlus.Monitor.Snapshot BandixPlus.Monitor.Topology
open BandixPlus.Monitor.Runtime BandixPlus.Monitor.Interfaces BandixPlus.Monitor.Devices
open BandixPlus.Net.Addresses BandixPlus.Net.Text

/-! ### Reading -/

/-- The sum over the CPUs. -/
def sumCpus (percpuVals : List TrafficValue) : TrafficValue :=
  percpuVals.foldl (fun sum v =>
    { packets := satAdd sum.packets v.packets, bytes := satAdd sum.bytes v.bytes }) ⟨0, 0⟩

/-- The IPv6 networks of the LAN side. -/
def localV6Subnets (topology : TopologySnapshot) : List (UInt32 × BitVec 128 × BitVec 128) :=
  topology.interfaces.flatMap fun iface =>
    if wanZone iface then []
    else (iface.ipv6Cidrs.filterMap parseCidrToU128).map fun subnet => (iface.ifindex, subnet)

def isNewUnmappedLanIpv6Ecm (key : EcmTrafficKey) (previousBytes : HashMap EcmTrafficKey UInt64)
    (owners : HashMap EcmAddress NeighborOwnership)
    (lanSubnets : List (UInt32 × BitVec 128 × BitVec 128)) (nowMs : UInt64) : Bool :=
  if key.ipVersion ≠ 6 ∨ key ∈ previousBytes ∨
      ((owners.lookup (key.ip, key.ipVersion)).any fun owner => (owner.validOwner nowMs).isSome) then
    false
  else lanSubnets.any fun subnet => wordsV6 key.ip &&& subnet.2.2 = subnet.2.1

/-- `read_ecm_stats`: the counters, and whether IPv6 neighbours should be read early. -/
def readEcmStats (topology : TopologySnapshot) (rt : MonitorRuntime) (nowMs : UInt64)
    (entries : List (EcmTrafficKey × List TrafficValue)) :
    HashMap EcmTrafficKey TrafficValue × Bool :=
  (entries.foldl (fun result e => result.insert e.1 (sumCpus e.2)) ∅,
    entries.any fun e =>
      isNewUnmappedLanIpv6Ecm e.1 rt.prevEcmBytes rt.neighborOwnership (localV6Subnets topology) nowMs)

/-- The base of the hardware counters. -/
structure EcmBase where
  prevEcmBytes : HashMap EcmTrafficKey UInt64
  ecmLastActiveMs : HashMap EcmTrafficKey UInt64

/-- `ecm_delta`. -/
def ecmDelta (base : EcmBase) (key : EcmTrafficKey) (bytes nowMs : UInt64) : UInt64 × EcmBase :=
  let delta := deltaBytes bytes ((base.prevEcmBytes.lookup key).getD 0)
  let lastActive := (base.ecmLastActiveMs.lookup key).getD nowMs
  (delta,
    { prevEcmBytes := base.prevEcmBytes.insert key bytes
      ecmLastActiveMs := base.ecmLastActiveMs.insert key (if 0 < delta then nowMs else lastActive) })

/-! ### Whose traffic it is -/

/-- The networks of a tick. Zone `wan` is the WAN side of IPv4, a zone that begins so that of IPv6. -/
structure Subnets where
  localV4 : List (UInt32 × UInt32 × UInt32)
  wanV4 : List (UInt32 × UInt32)
  wanV4Ips : List UInt32
  wanV6Ips : List IpWords
  localV6 : List (UInt32 × BitVec 128 × BitVec 128)

def subnetsOf (topology : TopologySnapshot) : Subnets :=
  let wan := topology.interfaces.filter fun iface => iface.zone = "wan"
  { localV4 := (topology.interfaces.filter fun iface => iface.zone ≠ "wan").flatMap fun iface =>
      (iface.ipv4Cidrs.filterMap parseCidrToU32).map fun subnet => (iface.ifindex, subnet)
    wanV4 := (wan.flatMap Interface.ipv4Cidrs).filterMap parseCidrToU32
    wanV4Ips := (wan.flatMap Interface.ipv4Cidrs).filterMap fun cidr => parseIpv4 (beforeChar cidr '/')
    wanV6Ips := (wan.flatMap Interface.ipv6Cidrs).filterMap fun cidr =>
      (parseIpv6 (beforeChar (beforeChar cidr '%') '/')).map v6Words
    localV6 := localV6Subnets topology }

/-- Where the bytes of an address go. -/
inductive Attribution where
  /-- The device that owns the address. -/
  | owner (device : DeviceKey)
  /-- Nowhere: the address is the router's own on its WAN side, and the other end is counted. -/
  | ownWan
  /-- The interface whose network it is in, as unresolved traffic. -/
  | subnet (ifindex : UInt32)
  /-- Unresolved traffic of no interface. -/
  | global
  /-- The WAN side. -/
  | external
  deriving DecidableEq

def attributeV4 (s : Subnets) (ip : UInt32) : Attribution :=
  if ip ∈ s.wanV4Ips then .ownWan
  else
    let isWanSubnet := s.wanV4.any fun subnet => ip &&& subnet.2 = subnet.1 &&& subnet.2
    match uniqueSubnetIface ((s.localV4.filter fun subnet =>
        ip &&& subnet.2.2 = subnet.2.1 &&& subnet.2.2).map Prod.fst) with
    | .unique ifindex => .subnet ifindex
    | .ambiguous => .global
    | .none => if !isWanSubnet && isPrivateOrLocalIpv4 ip then .global else .external

def attributeV6 (s : Subnets) (words : IpWords) : Attribution :=
  if words ∈ s.wanV6Ips then .ownWan
  else
    let ip := wordsV6 words
    match uniqueSubnetIface ((s.localV6.filter fun subnet =>
        ip &&& subnet.2.2 = subnet.2.1 &&& subnet.2.2).map Prod.fst) with
    | .unique ifindex => .subnet ifindex
    | .ambiguous => .global
    | .none =>
      -- ULA is fc00::/7, link-local is fe80::/10
      if words[0] &&& 0xFE000000 = 0xFC000000 ∨ words[0] &&& 0xFFC00000 = 0xFE800000 then .global
      else .external

def attributionOf (s : Subnets) (ownership : HashMap EcmAddress NeighborOwnership) (nowMs : UInt64)
    (key : EcmTrafficKey) : Attribution :=
  match (ownership.lookup (key.ip, key.ipVersion)).bind fun entry => entry.validOwner nowMs with
  | some device => .owner device
  | none =>
    if key.ipVersion = 4 then attributeV4 s key.ip[0]
    else if key.ipVersion = 6 then attributeV6 s key.ip
    else .external

/-! ### The loop over the counters -/

/-- The key of the unresolved traffic of no interface. -/
def ecmUnresolvedGlobalKey : UInt32 := 0xFFFFFFFF

structure EcmLoop where
  base : EcmBase
  devices : DevicesGroup
  /-- The devices with hardware traffic. -/
  ecmDevices : List DeviceKey
  wanEcmMetrics : CounterQuad
  unresolvedEcmMetrics : HashMap UInt32 CounterQuad
  lanEcmMetrics : HashMap UInt32 CounterQuad
  keysToPrune : List EcmTrafficKey

/-- Raise the entry of an interface. -/
def fillEcm (ifindex : UInt32) (key : EcmTrafficKey) (delta : UInt64) (sec : Float)
    (m : HashMap UInt32 CounterQuad) : HashMap UInt32 CounterQuad :=
  upsert ifindex .zero (fun metrics => fillQuad key.ipVersion key.direction metrics delta sec) m

/-- The bytes of one counter go where they belong. -/
def attributeEcm (registry : HashMap DeviceKey KnownDevice) (nowMs : UInt64) (sec : Float)
    (key : EcmTrafficKey) (delta : UInt64) (st : EcmLoop) : Attribution → EcmLoop
  | .owner device =>
    let devices := activateKnownDevice st.devices registry device nowMs
    if device ∈ devices then
      { st with
        devices := modify device (fillDevice key.ipVersion key.direction delta sec) devices
        ecmDevices := st.ecmDevices.insert device
        lanEcmMetrics := fillEcm device.1 key delta sec st.lanEcmMetrics }
    else { st with devices }
  | .ownWan => st
  | .subnet ifindex =>
    { st with
      lanEcmMetrics := fillEcm ifindex key delta sec st.lanEcmMetrics
      unresolvedEcmMetrics := fillEcm ifindex key delta sec st.unresolvedEcmMetrics }
  | .global =>
    { st with
      unresolvedEcmMetrics := fillEcm ecmUnresolvedGlobalKey key delta sec st.unresolvedEcmMetrics }
  | .external =>
    { st with
      wanEcmMetrics := fillQuadWan key.ipVersion key.direction st.wanEcmMetrics delta sec }

def ecmStep (registry : HashMap DeviceKey KnownDevice) (whose : EcmTrafficKey → Attribution)
    (nowMs : UInt64) (sec : Float) (st : EcmLoop) (key : EcmTrafficKey) (value : TrafficValue) :
    EcmLoop :=
  let (delta, base) := ecmDelta st.base key value.bytes nowMs
  let st := { st with base }
  if delta = 0 then
    let lastActive := (base.ecmLastActiveMs.lookup key).getD nowMs
    if ecmIdleTimeoutMs ≤ satSub nowMs lastActive then
      { st with keysToPrune := st.keysToPrune ++ [key] }
    else st
  else attributeEcm registry nowMs sec key delta st (whose key)

def ecmLoop (o : IterOrder) (registry : HashMap DeviceKey KnownDevice)
    (whose : EcmTrafficKey → Attribution) (nowMs : UInt64) (sec : Float) (base : EcmBase)
    (devices : DevicesGroup) (stats : HashMap EcmTrafficKey TrafficValue) : EcmLoop :=
  (o.order stats.entries).foldl (fun st e => ecmStep registry whose nowMs sec st e.1 e.2)
    ⟨base, devices, [], .zero, ∅, ∅, []⟩

/-- An idle counter is removed if it still has the bytes that were read. -/
def pruneStep (tick : Tick) (st : EcmBase × HashMap EcmTrafficKey TrafficValue)
    (key : EcmTrafficKey) : EcmBase × HashMap EcmTrafficKey TrafficValue :=
  let (base, stats) := st
  match tick.ecmRecheck key with
  | none => st
  | some values =>
    if base.prevEcmBytes.lookup key ≠ some (sumCpus values).bytes then st
    else if tick.ecmRemoved key then
      ({ prevEcmBytes := base.prevEcmBytes.erase key
         ecmLastActiveMs := base.ecmLastActiveMs.erase key }, stats.erase key)
    else st

/-- The base after the idle counters are removed; it has a value for what was read and not removed. -/
def pruneEcm (tick : Tick) (stats : HashMap EcmTrafficKey TrafficValue) (st : EcmLoop) : EcmBase :=
  let (base, stats) := st.keysToPrune.foldl (pruneStep tick) (st.base, stats)
  { prevEcmBytes := retain (fun key _ => key ∈ stats) base.prevEcmBytes
    ecmLastActiveMs := retain (fun key _ => key ∈ stats) base.ecmLastActiveMs }

theorem base_attributeEcm (registry : HashMap DeviceKey KnownDevice) (nowMs : UInt64) (sec : Float)
    (key : EcmTrafficKey) (delta : UInt64) (st : EcmLoop) (a : Attribution) :
    (attributeEcm registry nowMs sec key delta st a).base = st.base := by
  cases a with
  | owner device =>
    unfold attributeEcm
    dsimp only
    split_ifs <;> rfl
  | ownWan => rfl
  | subnet ifindex => rfl
  | global => rfl
  | external => rfl

/-- The base changes by the deltas alone. -/
theorem base_ecmStep (registry : HashMap DeviceKey KnownDevice) (whose : EcmTrafficKey → Attribution)
    (nowMs : UInt64) (sec : Float) (st : EcmLoop) (key : EcmTrafficKey) (value : TrafficValue) :
    (ecmStep registry whose nowMs sec st key value).base =
      (ecmDelta st.base key value.bytes nowMs).2 := by
  unfold ecmStep
  dsimp only
  split_ifs
  · rfl
  · rfl
  · rw [base_attributeEcm]

end BandixPlus.Monitor.Ecm
