import BandixPlus.Monitor.Runtime

/-! # Neighbours

`utils.rs`, `list_neighbors_filtered`: the devices that the kernel's neighbour tables confirm on the
monitored interfaces. IPv4 is read from `/proc/net/arp`, IPv6 from `ip -6 neigh show`, whose output is
kept for a while.

* `mem_listNeighborsFiltered`: each of them is on a monitored interface. -/

namespace BandixPlus.Monitor.Neighbors

open BandixPlus.Common BandixPlus.Lib.Maps BandixPlus.Monitor.Runtime
open BandixPlus.Net.Addresses BandixPlus.Net.Text

structure FilteredNeighborEntry where
  dev : String
  mac : Mac
  ip : String
  state : String

def isSpecialMacAddress (mac : Mac) : Bool :=
  mac = Vector.replicate 6 0xff || mac.get 0 &&& 0x01 = 0x01 || mac = Vector.replicate 6 0

def ipv4InCidr (ip cidr : String) : Bool :=
  match splitOnce cidr '/' with
  | none => false
  | some (netStr, prefixStr) =>
    match parseIpv4 ip, parseIpv4 netStr, parseUnsigned 10 256 prefixStr with
    | some ipAddr, some netAddr, some bits =>
      let mask := (BitVec.allOnes 32 <<< (32 - bits)).toNat.toUInt32
      bits ≤ 32 && ipAddr &&& mask = netAddr &&& mask
    | _, _, _ => false

/-- The last word that names a state. -/
def extractNeighborState (parts : List String) : Option String :=
  (parts.reverse.map trimToLetters).find? fun s =>
    s ∈ ["REACHABLE", "STALE", "DELAY", "PROBE", "FAILED", "NOARP", "INCOMPLETE", "INVALID"]

/-- The entry is complete and not a proxy's. -/
def arpConfirmsOwnership (flags : String) : Bool :=
  let digits := trimStartMatches ['0', 'x'] flags.toList.length flags.toList
  match parseUnsigned 16 (2 ^ 32) (.ofList digits) with
  | some n => n.toUInt32 &&& 0xA = 0x2
  | none => false

def neighborConfirmsOwnership (state : String) : Bool :=
  state ∈ ["REACHABLE", "STALE", "DELAY", "PROBE", "PERMANENT"]

/-- The entry of a line, if its device is monitored and its address is one of a host. -/
def neighborEntry (monitorDevs : List String) (dev macStr ip state : String) :
    Option FilteredNeighborEntry :=
  if dev ∉ monitorDevs then none
  else
    match macFromStr macStr with
    | .error _ => none
    | .ok mac => if isSpecialMacAddress mac then none else some { dev, mac, ip, state }

def arpEntry (monitorDevs : List String) (subnetMap : HashMap String (List String)) (line : String) :
    Option FilteredNeighborEntry :=
  match splitWhitespace line with
  | ip :: _ :: flags :: macStr :: _ :: dev :: _ =>
    if !arpConfirmsOwnership flags || macStr = "00:00:00:00:00:00" then none
    else
      (neighborEntry monitorDevs dev macStr ip "REACHABLE").filter fun _ =>
        match subnetMap.lookup dev with
        | some cidrs => (cidrs.filter fun c => ':' ∉ c.toList).any fun cidr => ipv4InCidr ip cidr
        | none => true
  | _ => none

/-- The word after the first occurrence of `name`. -/
def fieldAfter (name : String) (parts : List String) : Option String :=
  (parts.dropWhile (· ≠ name))[1]?

def neighEntry (monitorDevs : List String) (line : String) : Option FilteredNeighborEntry :=
  let parts := splitWhitespace line
  if parts.length < 5 then none
  else
    match extractNeighborState parts with
    | none => none
    | some state =>
      if !neighborConfirmsOwnership state then none
      else
        match parts.head?, fieldAfter "dev" parts, fieldAfter "lladdr" parts with
        | some ip, some dev, some macStr => neighborEntry monitorDevs dev macStr ip state
        | _, _, _ => none

/-- `arp` is the content of the file, `ipNeigh` the output of the command if it succeeds. -/
def listNeighborsFiltered (monitorDevs : List String) (subnetMap : HashMap String (List String))
    (rt : MonitorRuntime) (nowMs : UInt64) (forceIpv6Refresh : Bool) (arp ipNeigh : Option String) :
    List FilteredNeighborEntry × MonitorRuntime :=
  let v4 := ((arp.map lines).getD []).drop 1 |>.filterMap (arpEntry monitorDevs subnetMap)
  let rt :=
    if ipv6NeighborPollDue nowMs rt.lastIpv6NeighFetchMs forceIpv6Refresh then
      { rt with cachedIpv6NeighborsRaw := ipNeigh.getD "", lastIpv6NeighFetchMs := nowMs }
    else rt
  let v6 := (lines rt.cachedIpv6NeighborsRaw).filterMap (neighEntry monitorDevs)
  (v4 ++ v6, rt)

theorem dev_mem_of_neighborEntry {monitorDevs : List String} {dev macStr ip state : String}
    {e : FilteredNeighborEntry} (h : neighborEntry monitorDevs dev macStr ip state = some e) :
    e.dev ∈ monitorDevs := by
  unfold neighborEntry at h
  by_cases hdev : dev ∈ monitorDevs
  · rw [if_neg (not_not.mpr hdev)] at h
    cases hmac : macFromStr macStr with
    | error msg =>
      rw [hmac] at h
      cases h
    | ok mac =>
      rw [hmac] at h
      dsimp only at h
      split_ifs at h
      rw [← Option.some.inj h]
      exact hdev
  · rw [if_pos hdev] at h
    cases h

/-- **A neighbour is on a monitored interface.** -/
theorem mem_listNeighborsFiltered {monitorDevs : List String}
    {subnetMap : HashMap String (List String)} {rt : MonitorRuntime} {nowMs : UInt64} {force : Bool}
    {arp ipNeigh : Option String} {e : FilteredNeighborEntry}
    (h : e ∈ (listNeighborsFiltered monitorDevs subnetMap rt nowMs force arp ipNeigh).1) :
    e.dev ∈ monitorDevs := by
  unfold listNeighborsFiltered at h
  rcases List.mem_append.mp h with h | h
  · obtain ⟨line, -, hentry⟩ := List.mem_filterMap.mp h
    unfold arpEntry at hentry
    split at hentry
    · split_ifs at hentry
      obtain ⟨hentry, -⟩ := Option.filter_eq_some_iff.mp hentry
      exact dev_mem_of_neighborEntry hentry
    · cases hentry
  · obtain ⟨line, -, hentry⟩ := List.mem_filterMap.mp h
    unfold neighEntry at hentry
    dsimp only at hentry
    split_ifs at hentry
    split at hentry
    · cases hentry
    · split_ifs at hentry
      split at hentry
      · exact dev_mem_of_neighborEntry hentry
      · cases hentry

end BandixPlus.Monitor.Neighbors
