import BandixPlus.Monitor.Runtime

/-! # Reading the counters, and the interfaces

`monitor.rs`, `collect_snapshot`: what a tick finds outside the process, and its loop over the monitored
interfaces. -/

namespace BandixPlus.Monitor.Interfaces

open BandixPlus.Common BandixPlus.Lib.Maps BandixPlus.Lib.Saturating
open BandixPlus.Monitor.Counters BandixPlus.Monitor.Snapshot BandixPlus.Monitor.Topology
open BandixPlus.Monitor.Runtime

/-- The arguments of `collect_snapshot` that do not change. -/
structure Config where
  monitorIfaces : List String
  enableEcm : Bool
  /-- `interval.as_secs_f64()`. -/
  intervalSecs : Float

/-- **What a tick finds outside the process**: the clock, the entries of the kernel maps (`none` if the
read fails), the neighbour tables, the host names, and how the removals from the kernel maps end. -/
structure Tick where
  nowMs : UInt64
  ifaceEntries : Option (List (InterfaceTrafficKey × TrafficValue))
  deviceEntries : Option (List (DeviceTrafficKey × TrafficValue))
  insertFailuresRead : Bool
  /-- For every ECM key a value of each CPU. -/
  ecmEntries : Option (List (EcmTrafficKey × List TrafficValue))
  arp : Option String
  ipNeigh : Option String
  hostnames : HashMap Mac String
  deviceRemoved : DeviceTrafficKey → Bool
  /-- An ECM key read once more, and whether it is removed. -/
  ecmRecheck : EcmTrafficKey → Option (List TrafficValue)
  ecmRemoved : EcmTrafficKey → Bool
  /-- The order in which maps are iterated. -/
  o : IterOrder

/-- `read_iface_stats` and `read_device_stats`. -/
def readStats {K V : Type} [DecidableEq K] (entries : List (K × V)) : HashMap K V :=
  entries.foldl (fun result e => result.insert e.1 e.2) ∅

/-! ### The topology of a tick -/

def ifindexByName (topology : TopologySnapshot) : HashMap String UInt32 :=
  topology.interfaces.foldl (fun m i => m.insert i.name i.ifindex) ∅

def subnetMap (topology : TopologySnapshot) : HashMap String (List String) :=
  topology.interfaces.foldl (fun m i => m.insert i.name (i.ipv4Cidrs ++ i.ipv6Cidrs)) ∅

def wanIfindex (topology : TopologySnapshot) : Option UInt32 :=
  (topology.interfaces.find? fun i => i.zone = "wan").map Interface.ifindex

/-- `zone.starts_with("wan")`. -/
def wanZone (iface : Interface) : Bool := ['w', 'a', 'n'].isPrefixOf iface.zone.toList

/-! ### The interfaces -/

/-- The monitored interfaces of the topology, each name once. -/
def monitoredInterfaces (byName : HashMap String UInt32) :
    List String → List String → List (String × UInt32)
  | _, [] => []
  | seen, name :: rest =>
    if name ∈ seen then monitoredInterfaces byName seen rest
    else
      match byName.lookup name with
      | none => monitoredInterfaces byName (name :: seen) rest
      | some ifindex => (name, ifindex) :: monitoredInterfaces byName (name :: seen) rest

/-- The traffic of an interface since the last tick, and the new base of its counters. -/
def ifaceMetrics (o : IterOrder) (stats : HashMap InterfaceTrafficKey TrafficValue) (sec : Float)
    (isWan : Bool) (ifindex : UInt32) (prev : HashMap InterfaceTrafficKey UInt64) :
    CounterQuad × HashMap InterfaceTrafficKey UInt64 :=
  (o.order stats.entries).foldl (fun (metrics, prev) e =>
    if e.1.ifindex ≠ ifindex then (metrics, prev)
    else
      let delta := deltaBytes e.2.bytes ((prev.lookup e.1).getD 0)
      (fillQuadFor isWan e.1.ipVersion e.1.direction metrics delta sec, prev.insert e.1 e.2.bytes))
    (.zero, prev)

/-- The rows so far, the software traffic of the WAN interface, and the state. -/
structure IfaceLoop where
  interfaces : List InterfaceOverviewItem
  wanTcMetrics : CounterQuad
  rt : MonitorRuntime

/-- One monitored interface. -/
def interfaceStep (o : IterOrder) (topology : TopologySnapshot)
    (stats : HashMap InterfaceTrafficKey TrafficValue) (sec : Float) (st : IfaceLoop)
    (iface : String × UInt32) : IfaceLoop :=
  let (ifname, ifindex) := iface
  let rt := st.rt
  let isWan := (topology.byIfindex ifindex).any fun i => i.zone = "wan"
  let (metrics, prevIfaceBytes) := ifaceMetrics o stats sec isWan ifindex rt.prevIfaceBytes
  let cum := addQuad ((rt.cumulativeIface.lookup ifindex).getD .zero) metrics
  let smoothed := (rt.smoothedIfaceRates.lookup ifindex).getD .zero
  let bps := smoothBps metrics.bps smoothed.bps
  let row : InterfaceOverviewItem :=
    { ifindex
      ifname
      zone := ((topology.byIfindex ifindex).map Interface.zone).getD "unknown"
      metrics := { metrics with bps }
      cumulative := cum
      mcastMetrics := .zero
      bcastMetrics := .zero
      unresolvedMetrics := .zero }
  { interfaces := st.interfaces ++ [row]
    -- before the rates are smoothed
    wanTcMetrics := if some ifindex = wanIfindex topology then metrics else st.wanTcMetrics
    rt := { rt with
      prevIfaceBytes
      cumulativeIface := rt.cumulativeIface.insert ifindex cum
      smoothedIfaceRates := rt.smoothedIfaceRates.insert ifindex { smoothed with bps } } }

def interfaceLoop (cfg : Config) (o : IterOrder) (topology : TopologySnapshot)
    (stats : HashMap InterfaceTrafficKey TrafficValue) (sec : Float) (rt : MonitorRuntime) : IfaceLoop :=
  (monitoredInterfaces (ifindexByName topology) [] cfg.monitorIfaces).foldl
    (interfaceStep o topology stats sec) ⟨[], .zero, rt⟩

/-- The row of the WAN interface, if no row is in its zone. -/
def addWanRow (topology : TopologySnapshot) (rt : MonitorRuntime)
    (interfaces : List InterfaceOverviewItem) : List InterfaceOverviewItem :=
  if interfaces.any fun i => i.zone = "wan" then interfaces
  else
    match topology.interfaces.find? fun i => i.zone = "wan" with
    | none => interfaces
    | some wan =>
      interfaces ++ [{
        ifindex := wan.ifindex
        ifname := wan.name
        zone := "wan"
        metrics := .zero
        cumulative := (rt.cumulativeIface.lookup wan.ifindex).getD .zero
        mcastMetrics := .zero
        bcastMetrics := .zero
        unresolvedMetrics := .zero }]

/-! ### Breakdowns -/

/-- The multicast, broadcast and unresolved software traffic of a tick, by interface. -/
structure Breakdown where
  mcast : HashMap UInt32 CounterQuad
  bcast : HashMap UInt32 CounterQuad
  unresolved : HashMap UInt32 CounterQuad

/-- One of the three: the new total, and what the row shows, this tick's rates over the total bytes. -/
def breakdownEntry (cumulative metrics : HashMap UInt32 CounterQuad) (ifindex : UInt32)
    (shown : CounterQuad) : CounterQuad × CounterQuad :=
  let cum := (cumulative.lookup ifindex).getD .zero
  match metrics.lookup ifindex with
  | some m =>
    let cum := addBytesQuad cum m
    (cum, { m with bytes := cum.bytes })
  | none => (cum, { shown with bytes := cum.bytes })

/-- One row of `apply_tc_breakdowns`. -/
def breakdownStep (b : Breakdown) (rt : MonitorRuntime) (row : InterfaceOverviewItem) :
    InterfaceOverviewItem × MonitorRuntime :=
  let (mcast, mcastMetrics) := breakdownEntry rt.cumulativeMcast b.mcast row.ifindex row.mcastMetrics
  let (bcast, bcastMetrics) := breakdownEntry rt.cumulativeBcast b.bcast row.ifindex row.bcastMetrics
  let (unresolved, unresolvedMetrics) :=
    breakdownEntry rt.cumulativeUnresolved b.unresolved row.ifindex row.unresolvedMetrics
  ({ row with mcastMetrics, bcastMetrics, unresolvedMetrics },
    { rt with
      cumulativeMcast := rt.cumulativeMcast.insert row.ifindex mcast
      cumulativeBcast := rt.cumulativeBcast.insert row.ifindex bcast
      cumulativeUnresolved := rt.cumulativeUnresolved.insert row.ifindex unresolved })

/-- A loop over rows that changes each of them and the state. -/
def eachRow (f : MonitorRuntime → InterfaceOverviewItem → InterfaceOverviewItem × MonitorRuntime) :
    MonitorRuntime → List InterfaceOverviewItem → List InterfaceOverviewItem × MonitorRuntime
  | rt, [] => ([], rt)
  | rt, row :: rest =>
    let (row, rt) := f rt row
    let (rest, rt) := eachRow f rt rest
    (row :: rest, rt)

def applyTcBreakdowns (b : Breakdown) (rt : MonitorRuntime) (interfaces : List InterfaceOverviewItem) :
    List InterfaceOverviewItem × MonitorRuntime :=
  eachRow (breakdownStep b) rt interfaces

end BandixPlus.Monitor.Interfaces
