import BandixPlus.Lib.Run
import BandixPlus.Lib.Maps
import BandixPlus.Lib.LocalTime
import BandixPlus.Lib.Bytes
import BandixPlus.Lib.Ranking
import BandixPlus.Lib.RingBuffer
import BandixPlus.Lib.Saturating
import BandixPlus.Net.Text
import BandixPlus.Net.Addresses
import BandixPlus.Conntrack.Index
import BandixPlus.Dns.Suppression
import BandixPlus.Monitor.Windows
import BandixPlus.Monitor.HistogramExact
import BandixPlus.Persistence.Ring
import BandixPlus.Monitor.Topology
import BandixPlus.Persistence.Paths
import BandixPlus.Monitor.Query
import BandixPlus.Persistence.Manager
import BandixPlus.Persistence.Agreement
import BandixPlus.Persistence.History
import BandixPlus.Monitor.Runtime
import BandixPlus.Monitor.Devices
import BandixPlus.Monitor.Ecm
import BandixPlus.Monitor.Collect
import BandixPlus.Lib.Ledger
import BandixPlus.Monitor.Group
import BandixPlus.Monitor.Registry
import BandixPlus.Monitor.Cumulative
import BandixPlus.Monitor.Conservation
import BandixPlus.Conntrack.Convergence
import BandixPlus.Lib.Sampling
import BandixPlus.Monitor.Baseline
import BandixPlus.Monitor.DeviceCounters
import BandixPlus.Monitor.EcmCounters
import BandixPlus.Dns.Packet
import BandixPlus.Dns.PacketSafety
import BandixPlus.Ebpf.DnsFilter
import BandixPlus.Persistence.RingDamage
import BandixPlus.Monitor.Ownership
import BandixPlus.Monitor.WanRows
import BandixPlus.Lib.LastWins
import BandixPlus.Monitor.RuntimeState
import BandixPlus.Lib.Tally
import BandixPlus.Monitor.Totals
import BandixPlus.Persistence.CurrentHour
import BandixPlus.Ebpf.Framing
import BandixPlus.Conntrack.Stats
import BandixPlus.Persistence.RingTorn
import BandixPlus.Monitor.Daily
import BandixPlus.Api.Aggregate
import BandixPlus.Monitor.Partition
import BandixPlus.Conntrack.Netlink
import BandixPlus.Conntrack.FlowMessage
import BandixPlus.Persistence.RingDirs
import BandixPlus.Service.Naming
import BandixPlus.Service.State
import BandixPlus.Service.Regions
import BandixPlus.Service.Cleanup
import BandixPlus.Service.Recovery
import BandixPlus.Service.Deletion
import BandixPlus.Persistence.RingChecksum
import BandixPlus.Lib.Iteration
import BandixPlus.Lib.Layout
import BandixPlus.Conntrack.Messages
import BandixPlus.Conntrack.Events
import BandixPlus.Api.Ranking
import BandixPlus.Api.Usage
import BandixPlus.Dns.Device
import BandixPlus.Dns.Wrapping
import BandixPlus.Dns.Stats
import BandixPlus.Monitor.Breakdowns
import BandixPlus.Service.Hostnames
import BandixPlus.Dns.Wire
import BandixPlus.Dns.Decoding
import BandixPlus.Monitor.WanSubnets
import BandixPlus.Lib.Pages
import BandixPlus.Dns.Queries
import BandixPlus.Dns.NameGrammar
import BandixPlus.Persistence.SeriesNames
import BandixPlus.Persistence.Components
import BandixPlus.Conntrack.Dump
import BandixPlus.Api.Flows
import BandixPlus.Lib.BoundedMap
import BandixPlus.Ebpf.Counting
import BandixPlus.Ebpf.Capture
import BandixPlus.Ebpf.Management
import BandixPlus.Dns.Reader
import BandixPlus.Lib.CrashDisk
import BandixPlus.Persistence.StateFiles
import BandixPlus.Dns.Storage
import BandixPlus.Lib.Windowed
import BandixPlus.Api.Trend
import BandixPlus.Conntrack.EventLoop
import BandixPlus.Net.HostFiles
import BandixPlus.Service.NameSources
