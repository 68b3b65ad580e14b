import BandixPlus.Lib.Maps
import BandixPlus.Net.Addresses

/-! # Connection tracking: the flow table

`conntrack.rs`: the flows by their tuple (`flows`) and the index from conntrack ids to tuples
(`flowIds`), with the three operations that change them: `insertFlow` for a NEW or UPDATE event,
`removeFlow` for a DELETE event, and `replaceFlows` for a completed dump. -/

namespace BandixPlus.Conntrack.State

open BandixPlus.Lib.Maps BandixPlus.Net.Addresses

def maxTrackedFlows : ℕ := 100000

structure EndpointKey where
  src : IpAddr
  dst : IpAddr
  sport : UInt16
  dport : UInt16
  deriving DecidableEq

structure FlowKey where
  protocol : UInt8
  orig : EndpointKey
  reply : EndpointKey
  deriving DecidableEq

structure ConnectionEndpoint where
  src : String
  dst : String
  sport : UInt16
  dport : UInt16

structure ConnectionFlow where
  id : Option UInt32
  protocol : String
  state : Option String
  orig : ConnectionEndpoint
  reply : ConnectionEndpoint
  origPackets : UInt64
  origBytes : UInt64
  replyPackets : UInt64
  replyBytes : UInt64
  flags : List String

structure ParsedFlow where
  key : FlowKey
  flow : ConnectionFlow

structure ConntrackState where
  flows : HashMap FlowKey ConnectionFlow
  flowIds : HashMap UInt32 FlowKey
  lastError : Option String

def ConntrackState.default : ConntrackState := ⟨∅, ∅, none⟩

/-- The first half of `insert_flow`: index the id, and drop the flow the id named before. -/
def indexFlow (state : ConntrackState) (parsed : ParsedFlow) : ConntrackState :=
  match parsed.flow.id with
  | some id =>
    let state' := { state with flowIds := state.flowIds.insert id parsed.key }
    match state.flowIds.lookup id with
    | some oldKey => { state' with flows := state.flows.erase oldKey }
    | none => state'
  | none => state

def insertFlow (state : ConntrackState) (parsed : ParsedFlow) : ConntrackState :=
  let state := indexFlow state parsed
  if maxTrackedFlows ≤ len state.flows ∧ parsed.key ∉ state.flows then state
  else { state with flows := state.flows.insert parsed.key parsed.flow }

def removeFlow (state : ConntrackState) (parsed : ParsedFlow) : ConntrackState :=
  let byTuple := { state with flows := state.flows.erase parsed.key }
  match parsed.flow.id with
  | none => byTuple
  | some id =>
    match state.flowIds.lookup id with
    | none => byTuple
    | some key =>
      { state with flowIds := state.flowIds.erase id, flows := state.flows.erase key }

def replaceFlows (state : ConntrackState) (flows : List ParsedFlow) : ConntrackState :=
  let state := { state with flows := ∅, flowIds := ∅ }
  { (flows.take maxTrackedFlows).foldl insertFlow state with lastError := none }

end BandixPlus.Conntrack.State
