import BandixPlus.Monitor.Ecm

/-! # One tick

`monitor.rs`, `collect_snapshot`: `beforeEcm` reads everything and attributes the software counters,
`hardware` attributes those of the hardware, `settle` updates totals and registry, and `injectEcm` adds the
hardware traffic to the rows of the interfaces. -/

namespace BandixPlus.Monitor.Collect

open BandixPlus.Common BandixPlus.Lib.Maps BandixPlus.Lib.Saturating
open BandixPlus.Monitor.Counters BandixPlus.Monitor.Snapshot BandixPlus.Monitor.Topology
open BandixPlus.Monitor.Runtime BandixPlus.Monitor.Neighbors BandixPlus.Monitor.Interfaces
open BandixPlus.Monitor.Devices BandixPlus.Monitor.Ecm

/-! ### Up to the hardware counters -/

/-- Disabled, ECM leaves nothing of an earlier run. -/
def clearEcm (rt : MonitorRuntime) : MonitorRuntime :=
  { rt with
    neighborOwnership := ∅
    ipv6NeighborRefreshPending := false
    lastEcmSnapshotMs := none
    prevEcmBytes := ∅
    ecmLastActiveMs := ∅
    ecmDeviceGraceTicks := ∅
    smoothedLanEcmRates := ∅
    smoothedUnresolvedEcmRates := ∅
    smoothedWanEcmRates := none }

/-- The hardware counters, `none` if they are disabled or not read. -/
structure EcmReading where
  stats : Option (HashMap EcmTrafficKey TrafficValue)
  refreshIpv6Neighbors : Bool

def readEcm (cfg : Config) (topology : TopologySnapshot) (tick : Tick) (rt : MonitorRuntime) :
    EcmReading × MonitorRuntime :=
  if cfg.enableEcm then
    match tick.ecmEntries with
    | some entries =>
      let (stats, refreshIpv6Neighbors) := readEcmStats topology rt tick.nowMs entries
      (⟨some stats, refreshIpv6Neighbors⟩, rt)
    | none => (⟨none, false⟩, rt)
  else (⟨none, false⟩, clearEcm rt)

/-- The seconds that the software and the hardware counters span. -/
def tickSeconds (cfg : Config) (tick : Tick) (ecmReadOk : Bool) (rt : MonitorRuntime) :
    Float × Float × MonitorRuntime :=
  let sec :=
    match rt.lastSnapshotMs with
    | some prevMs => max ((satSub tick.nowMs prevMs).toFloat / 1000.0) 0.001
    | none => max cfg.intervalSecs 1.0
  let rt := { rt with lastSnapshotMs := some tick.nowMs }
  if cfg.enableEcm then
    let (ecmSec, rt) := rt.ecmIntervalSeconds tick.nowMs sec ecmReadOk
    (sec, ecmSec, rt)
  else (sec, sec, rt)

/-- What a tick begins with. -/
structure TickStart where
  rt : MonitorRuntime
  prune : Bool
  reading : EcmReading
  sec : Float
  ecmSec : Float

def startTick (cfg : Config) (topology : TopologySnapshot) (tick : Tick) (rt : MonitorRuntime) :
    TickStart :=
  let prune := deviceCounterPruneIntervalMs ≤ satSub tick.nowMs rt.lastDevicePruneMs
  let rt := if prune then { rt with lastDevicePruneMs := tick.nowMs } else rt
  let (reading, rt) := readEcm cfg topology tick rt
  let (sec, ecmSec, rt) := tickSeconds cfg tick reading.stats.isSome rt
  { rt, prune, reading, sec, ecmSec }

def hostnameFetchIntervalMs : UInt64 := 60000

/-- The neighbours, with the host names and the owners that are kept. -/
def readNeighbors (cfg : Config) (topology : TopologySnapshot) (tick : Tick)
    (refreshIpv6Neighbors : Bool) (rt : MonitorRuntime) :
    List FilteredNeighborEntry × MonitorRuntime :=
  let forceIpv6Refresh := rt.ipv6NeighborRefreshPending || refreshIpv6Neighbors
  let rt := { rt with ipv6NeighborRefreshPending := forceIpv6Refresh }
  let forcedNeighborPollDue :=
    forceIpv6Refresh && ipv6NeighborPollDue tick.nowMs rt.lastIpv6NeighFetchMs true
  let (neighbors, rt) := listNeighborsFiltered cfg.monitorIfaces (subnetMap topology) rt tick.nowMs
    forceIpv6Refresh tick.arp tick.ipNeigh
  let rt := if forcedNeighborPollDue then { rt with ipv6NeighborRefreshPending := false } else rt
  let rt :=
    if hostnameFetchIntervalMs ≤ satSub tick.nowMs rt.lastHostnameFetchMs then
      { rt with cachedHostnames := tick.hostnames, lastHostnameFetchMs := tick.nowMs }
    else rt
  (neighbors,
    { rt with neighborOwnership := retainOwnership topology tick.nowMs rt.neighborOwnership })

/-- The devices that the neighbours show, once their addresses have owners. -/
def observe (cfg : Config) (topology : TopologySnapshot) (tick : Tick) (refreshIpv6Neighbors : Bool)
    (rt : MonitorRuntime) : DevicesGroup × MonitorRuntime :=
  let (neighbors, rt) := readNeighbors cfg topology tick refreshIpv6Neighbors rt
  let rt :=
    if cfg.enableEcm then
      { rt with neighborOwnership :=
          observeNeighbors topology tick.nowMs rt.lastIpv6NeighFetchMs rt.neighborOwnership neighbors }
    else rt
  (neighborDevices cfg tick.o topology rt tick.nowMs (groupNeighbors neighbors), rt)

/-- A tick when its hardware counters are attributed. -/
structure BeforeEcm where
  rt : MonitorRuntime
  ecmStats : Option (HashMap EcmTrafficKey TrafficValue)
  ecmSec : Float
  interfaces : List InterfaceOverviewItem
  wanTcMetrics : CounterQuad
  devices : DevicesGroup
  breakdown : Breakdown

def beforeEcm (cfg : Config) (topology : TopologySnapshot) (tick : Tick) (rt : MonitorRuntime)
    (ifaceStats : HashMap InterfaceTrafficKey TrafficValue)
    (deviceStats : HashMap DeviceTrafficKey TrafficValue) : BeforeEcm :=
  let start := startTick cfg topology tick rt
  let st := interfaceLoop cfg tick.o topology ifaceStats start.sec start.rt
  let (devices, rt) := observe cfg topology tick start.reading.refreshIpv6Neighbors st.rt
  let counters := pruneCounters tick.deviceRemoved
    (counterLoop tick topology rt start.sec start.prune deviceStats devices)
  { rt := { rt with
      prevDeviceBytes := counters.prevDeviceBytes
      deviceLastActiveMs := counters.deviceLastActiveMs }
    ecmStats := start.reading.stats
    ecmSec := start.ecmSec
    interfaces := st.interfaces
    wanTcMetrics := st.wanTcMetrics
    devices := counters.devices
    breakdown := counters.breakdown }

/-! ### The hardware counters and the devices -/

/-- The attribution of the hardware counters; without a reading there are none. -/
def hardware (topology : TopologySnapshot) (tick : Tick) (b : BeforeEcm) : EcmLoop :=
  ecmLoop tick.o b.rt.deviceRegistry
    (attributionOf (subnetsOf topology) b.rt.neighborOwnership tick.nowMs) tick.nowMs b.ecmSec
    ⟨b.rt.prevEcmBytes, b.rt.ecmLastActiveMs⟩ b.devices (b.ecmStats.getD ∅)

/-- The devices of the tick with their totals; they are known from now on. -/
def settle (topology : TopologySnapshot) (tick : Tick) (b : BeforeEcm) (e : EcmLoop) :
    DevicesGroup × MonitorRuntime :=
  let base :=
    match b.ecmStats with
    | some stats => pruneEcm tick stats e
    | none => e.base
  let rt := { b.rt with
    prevEcmBytes := base.prevEcmBytes
    ecmLastActiveMs := base.ecmLastActiveMs }
  let (devices, ecmDevices) :=
    addWanDevice topology tick.nowMs b.wanTcMetrics e.wanEcmMetrics e.devices e.ecmDevices
  let (devices, rt) := settleDevices tick.o rt devices ecmDevices
  (devices, { rt with
    deviceRegistry := registerDevices tick.o tick.nowMs devices rt.deviceRegistry })

/-! ### The hardware traffic of the interfaces -/

/-- Rates smoothed over the ticks, with the bytes of this one. -/
def smoothEntry (metrics smoothed : CounterQuad) : CounterQuad :=
  { bps := smoothBps metrics.bps smoothed.bps, bytes := metrics.bytes }

def decayEntry (smoothed : CounterQuad) : CounterQuad :=
  { bps := decayBps smoothed.bps, bytes := .const 0 }

/-- What the rows show, and the rates kept for the next tick. -/
structure SmoothLoop where
  shown : HashMap UInt32 CounterQuad
  rates : HashMap UInt32 CounterQuad

/-- Without traffic the rate of an interface fades out. -/
def decayStep (metrics : HashMap UInt32 CounterQuad) (st : SmoothLoop) (ifindex : UInt32)
    (smoothed : CounterQuad) : SmoothLoop :=
  if ifindex ∈ metrics then st
  else
    let smoothed := decayEntry smoothed
    if smoothed.bps = .const 0 then { st with rates := st.rates.erase ifindex }
    else
      { shown := st.shown.insert ifindex smoothed
        rates := st.rates.insert ifindex smoothed }

def smoothStep (st : SmoothLoop) (ifindex : UInt32) (metrics : CounterQuad) : SmoothLoop :=
  let smoothed := smoothEntry metrics ((st.rates.lookup ifindex).getD .zero)
  { shown := st.shown.insert ifindex smoothed
    rates := st.rates.insert ifindex smoothed }

def smoothRates (o : IterOrder) (metrics rates : HashMap UInt32 CounterQuad) : SmoothLoop :=
  let st := (o.order rates.entries).foldl (fun st e => decayStep metrics st e.1 e.2) ⟨∅, rates⟩
  (o.order metrics.entries).foldl (fun st e => smoothStep st e.1 e.2) st

/-- The rates of the WAN side; they are kept also when they are zero. -/
def smoothWan (metrics : CounterQuad) (rates : Option CounterQuad) : CounterQuad :=
  let smoothed := rates.getD .zero
  if metrics.isEmpty then decayEntry smoothed else smoothEntry metrics smoothed

/-- LAN traffic enters the row and the total of its interface. -/
def injectLan (shown metrics : HashMap UInt32 CounterQuad) (rt : MonitorRuntime)
    (row : InterfaceOverviewItem) : InterfaceOverviewItem × MonitorRuntime :=
  match shown.lookup row.ifindex with
  | none => (row, rt)
  | some smoothed =>
    let cum := (rt.cumulativeIface.lookup row.ifindex).getD .zero
    let cum :=
      match metrics.lookup row.ifindex with
      | some raw => addQuad cum raw
      | none => cum
    ({ row with cumulative := cum, metrics := addQuad row.metrics smoothed },
      { rt with cumulativeIface := rt.cumulativeIface.insert row.ifindex cum })

/-- Unresolved traffic is a part of the LAN traffic. -/
def injectUnresolved (shown metrics : HashMap UInt32 CounterQuad) (rt : MonitorRuntime)
    (row : InterfaceOverviewItem) : InterfaceOverviewItem × MonitorRuntime :=
  let cumUnres := (rt.cumulativeUnresolved.lookup row.ifindex).getD .zero
  let cumUnres :=
    match shown.lookup row.ifindex, metrics.lookup row.ifindex with
    | some _, some raw => addBytesQuad cumUnres raw
    | _, _ => cumUnres
  let bps :=
    match shown.lookup row.ifindex with
    | some smoothed => Quad.zip (· + ·) row.unresolvedMetrics.bps smoothed.bps
    | none => row.unresolvedMetrics.bps
  ({ row with unresolvedMetrics := { bps, bytes := cumUnres.bytes } },
    { rt with cumulativeUnresolved := rt.cumulativeUnresolved.insert row.ifindex cumUnres })

/-- External traffic enters the row of the WAN interface. -/
def injectWan (wan : Option UInt32) (smoothed metrics : CounterQuad) (rt : MonitorRuntime)
    (row : InterfaceOverviewItem) : InterfaceOverviewItem × MonitorRuntime :=
  if some row.ifindex ≠ wan then (row, rt)
  else
    let cum := addQuad ((rt.cumulativeIface.lookup row.ifindex).getD .zero) metrics
    ({ row with cumulative := cum, metrics := addQuad row.metrics smoothed },
      { rt with cumulativeIface := rt.cumulativeIface.insert row.ifindex cum })

/-- The hardware traffic of a tick: its bytes, and the smoothed rates to show. -/
structure Injection where
  lanShown : HashMap UInt32 CounterQuad
  lanMetrics : HashMap UInt32 CounterQuad
  unresolvedShown : HashMap UInt32 CounterQuad
  unresolvedMetrics : HashMap UInt32 CounterQuad
  wan : Option UInt32
  wanShown : CounterQuad
  wanMetrics : CounterQuad

def injectRow (x : Injection) (rt : MonitorRuntime) (row : InterfaceOverviewItem) :
    InterfaceOverviewItem × MonitorRuntime :=
  let (row, rt) := injectLan x.lanShown x.lanMetrics rt row
  let (row, rt) := injectUnresolved x.unresolvedShown x.unresolvedMetrics rt row
  injectWan x.wan x.wanShown x.wanMetrics rt row

/-- The hardware traffic enters the rows. What belongs to no interface enters none. -/
def injectEcm (o : IterOrder) (topology : TopologySnapshot) (e : EcmLoop) (rt : MonitorRuntime)
    (interfaces : List InterfaceOverviewItem) : List InterfaceOverviewItem × MonitorRuntime :=
  let lan := smoothRates o e.lanEcmMetrics rt.smoothedLanEcmRates
  let unresolved := smoothRates o e.unresolvedEcmMetrics rt.smoothedUnresolvedEcmRates
  let wanShown := smoothWan e.wanEcmMetrics rt.smoothedWanEcmRates
  let rt := { rt with
    smoothedLanEcmRates := lan.rates
    smoothedUnresolvedEcmRates := unresolved.rates
    smoothedWanEcmRates := some wanShown }
  eachRow (injectRow {
    lanShown := lan.shown
    lanMetrics := e.lanEcmMetrics
    unresolvedShown := unresolved.shown
    unresolvedMetrics := e.unresolvedEcmMetrics
    wan := wanIfindex topology
    wanShown
    wanMetrics := e.wanEcmMetrics }) rt interfaces

/-! ### The tick -/

/-- The rows of the interfaces, with their hardware traffic if it was read. -/
def interfaceRows (topology : TopologySnapshot) (tick : Tick) (b : BeforeEcm) (e : EcmLoop)
    (rt : MonitorRuntime) : List InterfaceOverviewItem × MonitorRuntime :=
  let (interfaces, rt) := applyTcBreakdowns b.breakdown rt (addWanRow topology rt b.interfaces)
  if b.ecmStats.isSome then injectEcm tick.o topology e rt interfaces else (interfaces, rt)

/-- `collect_snapshot`: no snapshot if the counters cannot be read. -/
def collectSnapshot (cfg : Config) (topology : TopologySnapshot) (tick : Tick) (rt : MonitorRuntime) :
    Option SnapshotData × MonitorRuntime :=
  match tick.ifaceEntries, tick.deviceEntries, tick.insertFailuresRead with
  | some ifaceEntries, some deviceEntries, true =>
    let b := beforeEcm cfg topology tick rt (readStats ifaceEntries) (readStats deviceEntries)
    let e := hardware topology tick b
    let (devices, rt) := settle topology tick b e
    let devices := deviceRows cfg tick.o topology rt devices
    let (interfaces, rt) := interfaceRows topology tick b e rt
    (some { timestampMs := tick.nowMs, interfaces, devices }, rt)
  | _, _, _ => (none, rt)

end BandixPlus.Monitor.Collect
