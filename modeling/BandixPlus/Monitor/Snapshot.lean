import BandixPlus.Monitor.Counters

/-! # Snapshots

`monitor.rs`: what one tick of the collector reports, one row for each interface and each device. -/

namespace BandixPlus.Monitor.Snapshot

open BandixPlus.Monitor.Counters

structure InterfaceOverviewItem where
  ifindex : UInt32
  ifname : String
  zone : String
  metrics : CounterQuad
  cumulative : CounterQuad
  mcastMetrics : CounterQuad
  bcastMetrics : CounterQuad
  unresolvedMetrics : CounterQuad

structure DeviceListItem where
  ifindex : UInt32
  logicalIface : String
  subnet : String
  ipv4 : List String
  ipv6 : List String
  mac : String
  hostname : String
  metrics : CounterQuad
  cumulative : CounterQuad
  online : Bool
  lastSeenMs : UInt64
  neighborState : Option String

structure SnapshotData where
  timestampMs : UInt64
  interfaces : List InterfaceOverviewItem
  devices : List DeviceListItem

end BandixPlus.Monitor.Snapshot
