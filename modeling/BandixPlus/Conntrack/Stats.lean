import BandixPlus.Conntrack.State
import BandixPlus.Lib.Sorting
import BandixPlus.Lib.Tally
import BandixPlus.Monitor.Runtime

/-! # Connection tracking: statistics

`conntrack.rs`, `refresh_stats` and `calculate_stats`: the flows are counted, all of them and for each
device that alone lists the address they come from. The devices are entered by MAC address, the
identities are those of the registry, one for each interface and MAC address.

* `calculateStats_exact`: the counts are exact, and the rows are sorted.
* `calculateStats_perm_iff`: the statistics are the same in every order of the flows and of the
  identities if and only if the identities of one MAC address that own a flow are shown alike; a row
  shows the identity that its first flow belongs to. -/

namespace BandixPlus.Conntrack.Stats

open BandixPlus.Common BandixPlus.Conntrack.State BandixPlus.Lib.Maps BandixPlus.Lib.Sorting
open BandixPlus.Lib.Tally BandixPlus.Monitor.Runtime BandixPlus.Net.Addresses BandixPlus.Net.Text

/-! ### The statistics -/

/-- The counts, of all flows or of a device. -/
structure ConnectionCounts where
  totalConnections : UInt32
  tcpConnections : UInt32
  udpConnections : UInt32
  establishedTcp : UInt32
  timeWaitTcp : UInt32
  closeWaitTcp : UInt32
  deriving DecidableEq

def ConnectionCounts.zero : ConnectionCounts := ⟨0, 0, 0, 0, 0, 0⟩

structure ConnectionGlobalStats where
  counts : ConnectionCounts
  lastUpdated : UInt64
  deriving DecidableEq

structure ConnectionDeviceStats where
  mac : String
  hostname : String
  logicalIface : String
  ipv4 : List String
  ipv6 : List String
  counts : ConnectionCounts
  lastUpdated : UInt64
  deriving DecidableEq

structure DeviceIdentity where
  mac : String
  hostname : String
  logicalIface : String
  ipv4 : List IpAddr
  ipv6 : List IpAddr
  deriving DecidableEq

/-- `device_identities`, the registry iterated in the order `o`. -/
def deviceIdentities (o : IterOrder) (rt : MonitorRuntime) : List DeviceIdentity :=
  (o.order (rt.deviceRegistry.entries.map fun e => e.2)).map fun device =>
    { mac := macToString device.mac
      hostname := device.hostname
      logicalIface := device.logicalIface
      ipv4 := device.ipv4.filterMap parse
      ipv6 := device.ipv6.filterMap parse }

def lists (ip : IpAddr) (device : DeviceIdentity) : Bool :=
  device.ipv4.contains ip || device.ipv6.contains ip

/-- `unique_identity_for_ip`: the first device that lists the address, unless there is a second. -/
def uniqueIdentityForIp (identities : List DeviceIdentity) (ip : IpAddr) : Option DeviceIdentity :=
  let owners := identities.filter (lists ip)
  if owners.tail.head?.isSome then none else owners.head?

/-- `saturating_add(1)`. -/
def satInc (n : UInt32) : UInt32 := if n = 0xffffffff then n else n + 1

def timeWaitStates : List String := ["TIME_WAIT", "FIN_WAIT", "FIN_WAIT2", "CLOSING", "LAST_ACK"]

/-- What `classify_tcp_state` and `classify_tcp_state_device` do to their counts. -/
def classify (counts : ConnectionCounts) (state : Option String) : ConnectionCounts :=
  let state := state.getD ""
  if state = "ESTABLISHED" then { counts with establishedTcp := satInc counts.establishedTcp }
  else if state ∈ timeWaitStates then { counts with timeWaitTcp := satInc counts.timeWaitTcp }
  else if state = "CLOSE_WAIT" then { counts with closeWaitTcp := satInc counts.closeWaitTcp }
  else counts

def classifyTcpState (global : ConnectionGlobalStats) (state : Option String) :
    ConnectionGlobalStats :=
  { global with counts := classify global.counts state }

def classifyTcpStateDevice (device : ConnectionDeviceStats) (state : Option String) :
    ConnectionDeviceStats :=
  { device with counts := classify device.counts state }

/-- The part of the loop that counts a flow among all flows. -/
def countGlobal (global : ConnectionGlobalStats) (flow : ConnectionFlow) : ConnectionGlobalStats :=
  let protocol := toAsciiLowercase flow.protocol
  let r :=
    if protocol = "tcp" then
      let tcp := satInc global.counts.tcpConnections
      (classifyTcpState { global with counts := { global.counts with tcpConnections := tcp } }
        flow.state, true)
    else if protocol = "udp" then
      let udp := satInc global.counts.udpConnections
      ({ global with counts := { global.counts with udpConnections := udp } }, true)
    else (global, false)
  if r.2 then
    let total := satInc r.1.counts.totalConnections
    { r.1 with counts := { r.1.counts with totalConnections := total } }
  else r.1

/-- The part of the loop that counts a flow in the row of its device. -/
def countDevice (entry : ConnectionDeviceStats) (flow : ConnectionFlow) : ConnectionDeviceStats :=
  let protocol := toAsciiLowercase flow.protocol
  if protocol = "tcp" then
    let tcp := satInc entry.counts.tcpConnections
    let entry := classifyTcpStateDevice
      { entry with counts := { entry.counts with tcpConnections := tcp } } flow.state
    let total := satInc entry.counts.totalConnections
    { entry with counts := { entry.counts with totalConnections := total } }
  else if protocol = "udp" then
    let udp := satInc entry.counts.udpConnections
    let total := satInc entry.counts.totalConnections
    { entry with counts := { entry.counts with udpConnections := udp, totalConnections := total } }
  else entry

/-- The row of a device before its first flow is counted. -/
def newRow (identity : DeviceIdentity) (now : UInt64) : ConnectionDeviceStats where
  mac := identity.mac
  hostname := identity.hostname
  logicalIface := identity.logicalIface
  ipv4 := identity.ipv4.map IpAddr.toString
  ipv6 := identity.ipv6.map IpAddr.toString
  counts := .zero
  lastUpdated := now

/-- The device that a flow is counted for. -/
def ownerOf (identities : List DeviceIdentity) (flow : ConnectionFlow) : Option DeviceIdentity :=
  (parse flow.orig.src).bind (uniqueIdentityForIp identities)

abbrev DeviceRows := HashMap String ConnectionDeviceStats

def statsStep (identities : List DeviceIdentity) (now : UInt64)
    (st : ConnectionGlobalStats × DeviceRows) (flow : ConnectionFlow) :
    ConnectionGlobalStats × DeviceRows :=
  let global := countGlobal st.1 flow
  match ownerOf identities flow with
  | none => (global, st.2)
  | some identity =>
    (global, upsert identity.mac (newRow identity now) (countDevice · flow) st.2)

/-- The order of the rows: the total downwards, then the MAC address. -/
def rowOrder : ConnectionDeviceStats → ConnectionDeviceStats → Ordering :=
  compareLex (fun a b => compare b.counts.totalConnections a.counts.totalConnections)
    (compareOn fun row => row.mac)

def rowLe (a b : ConnectionDeviceStats) : Bool := (rowOrder a b).isLE

/-- `calculate_stats`, the rows taken from their map in the order `o`. -/
def calculateStats (o : IterOrder) (flows : List ConnectionFlow) (identities : List DeviceIdentity)
    (now : UInt64) : ConnectionGlobalStats × List ConnectionDeviceStats :=
  let st := flows.foldl (statsStep identities now) (⟨.zero, now⟩, ∅)
  (st.1, (o.order (st.2.entries.map fun e => e.2)).mergeSort rowLe)

/-! ### Counting -/

def isTcp (flow : ConnectionFlow) : Bool := toAsciiLowercase flow.protocol = "tcp"

def isUdp (flow : ConnectionFlow) : Bool := toAsciiLowercase flow.protocol = "udp"

def isEstablished (flow : ConnectionFlow) : Bool := isTcp flow && flow.state = some "ESTABLISHED"

def isTimeWait (flow : ConnectionFlow) : Bool := isTcp flow && flow.state.any (· ∈ timeWaitStates)

def isCloseWait (flow : ConnectionFlow) : Bool := isTcp flow && flow.state = some "CLOSE_WAIT"

/-- **The counts are those of the flows.** -/
structure CountsOf (flows : List ConnectionFlow) (counts : ConnectionCounts) : Prop where
  total : counts.totalConnections.toNat = flows.countP isTcp + flows.countP isUdp
  tcp : counts.tcpConnections.toNat = flows.countP isTcp
  udp : counts.udpConnections.toNat = flows.countP isUdp
  established : counts.establishedTcp.toNat = flows.countP isEstablished
  timeWait : counts.timeWaitTcp.toNat = flows.countP isTimeWait
  closeWait : counts.closeWaitTcp.toNat = flows.countP isCloseWait

/-- What counting a flow does to the counts, of all flows as of a device. -/
def countFlow (counts : ConnectionCounts) (flow : ConnectionFlow) : ConnectionCounts where
  totalConnections :=
    if isTcp flow || isUdp flow then satInc counts.totalConnections else counts.totalConnections
  tcpConnections := if isTcp flow then satInc counts.tcpConnections else counts.tcpConnections
  udpConnections := if isUdp flow then satInc counts.udpConnections else counts.udpConnections
  establishedTcp :=
    if isEstablished flow then satInc counts.establishedTcp else counts.establishedTcp
  timeWaitTcp := if isTimeWait flow then satInc counts.timeWaitTcp else counts.timeWaitTcp
  closeWaitTcp := if isCloseWait flow then satInc counts.closeWaitTcp else counts.closeWaitTcp

theorem not_isUdp {flow : ConnectionFlow} (h : isTcp flow = true) : isUdp flow = false := by
  have htcp : toAsciiLowercase flow.protocol = "tcp" := of_decide_eq_true h
  simp [isUdp, htcp]

/-- The three classes of states exclude each other. -/
theorem classify_eq (counts : ConnectionCounts) (state : Option String) :
    classify counts state =
      { counts with
        establishedTcp :=
          if state = some "ESTABLISHED" then satInc counts.establishedTcp
          else counts.establishedTcp
        timeWaitTcp :=
          if state.any (· ∈ timeWaitStates) then satInc counts.timeWaitTcp else counts.timeWaitTcp
        closeWaitTcp :=
          if state = some "CLOSE_WAIT" then satInc counts.closeWaitTcp else counts.closeWaitTcp } := by
  cases state with
  | none => simp [classify, timeWaitStates]
  | some s =>
    have hestablished : "ESTABLISHED" ∉ timeWaitStates := by decide
    have hcloseWait : "CLOSE_WAIT" ∉ timeWaitStates := by decide
    simp only [classify, Option.getD_some, Option.any_some, decide_eq_true_eq, Option.some.injEq]
    split_ifs with h1 h2 h3 h4 h5 <;> simp_all

/-- A flow is of TCP, of UDP or of neither. -/
theorem protocol_cases (flow : ConnectionFlow) :
    (toAsciiLowercase flow.protocol = "tcp" ∧ isTcp flow = true ∧ isUdp flow = false) ∨
    (toAsciiLowercase flow.protocol = "udp" ∧ isTcp flow = false ∧ isUdp flow = true) ∨
    (toAsciiLowercase flow.protocol ≠ "tcp" ∧ toAsciiLowercase flow.protocol ≠ "udp" ∧
      isTcp flow = false ∧ isUdp flow = false) := by
  by_cases htcp : toAsciiLowercase flow.protocol = "tcp"
  · have hisTcp : isTcp flow = true := decide_eq_true htcp
    exact Or.inl ⟨htcp, hisTcp, not_isUdp hisTcp⟩
  · have hisTcp : isTcp flow = false := decide_eq_false htcp
    by_cases hudp : toAsciiLowercase flow.protocol = "udp"
    · exact Or.inr (Or.inl ⟨hudp, hisTcp, decide_eq_true hudp⟩)
    · exact Or.inr (Or.inr ⟨htcp, hudp, hisTcp, decide_eq_false hudp⟩)

theorem countGlobal_eq (global : ConnectionGlobalStats) (flow : ConnectionFlow) :
    countGlobal global flow = { global with counts := countFlow global.counts flow } := by
  unfold countGlobal countFlow classifyTcpState isEstablished isTimeWait isCloseWait
  rcases protocol_cases flow with
    ⟨htcp, hisTcp, hisUdp⟩ | ⟨hudp, hisTcp, hisUdp⟩ | ⟨htcp, hudp, hisTcp, hisUdp⟩
  · simp [htcp, hisTcp, hisUdp, classify_eq]
  · simp [hudp, hisTcp, hisUdp]
  · simp [htcp, hudp, hisTcp, hisUdp]

/-- **The row of a device counts a flow as the global statistics do.** -/
theorem countDevice_eq (entry : ConnectionDeviceStats) (flow : ConnectionFlow) :
    countDevice entry flow = { entry with counts := countFlow entry.counts flow } := by
  unfold countDevice countFlow classifyTcpStateDevice isEstablished isTimeWait isCloseWait
  rcases protocol_cases flow with
    ⟨htcp, hisTcp, hisUdp⟩ | ⟨hudp, hisTcp, hisUdp⟩ | ⟨htcp, hudp, hisTcp, hisUdp⟩
  · simp [htcp, hisTcp, hisUdp, classify_eq]
  · simp [hudp, hisTcp, hisUdp]
  · simp [htcp, hudp, hisTcp, hisUdp]

theorem foldl_countGlobal (flows : List ConnectionFlow) (global : ConnectionGlobalStats) :
    flows.foldl countGlobal global =
      { global with counts := flows.foldl countFlow global.counts } := by
  induction flows generalizing global with
  | nil => rfl
  | cons flow rest ih =>
    show rest.foldl countGlobal (countGlobal global flow) = _
    rw [ih, countGlobal_eq]
    rfl

theorem toNat_satInc (n : UInt32) : (satInc n).toNat = min (n.toNat + 1) (2 ^ 32 - 1) := by
  have hlt := n.toNat_lt
  unfold satInc
  split_ifs with h
  · rw [h]
    rfl
  · have hne : n.toNat ≠ 2 ^ 32 - 1 := fun hn => h (UInt32.toNat_inj.mp hn)
    have hone : (n + 1).toNat = (n.toNat + 1) % 2 ^ 32 := UInt32.toNat_add n 1
    omega

/-- The figure goes up by one with every flow of the kind. -/
def GoesUpWith (figure : ConnectionCounts → UInt32) (p : ConnectionFlow → Bool) : Prop :=
  ∀ counts flow, figure (countFlow counts flow) =
    if p flow then satInc (figure counts) else figure counts

theorem goesUp_total : GoesUpWith (·.totalConnections) fun f => isTcp f || isUdp f := by
  simp [GoesUpWith, countFlow]

theorem goesUp_tcp : GoesUpWith (·.tcpConnections) isTcp := by simp [GoesUpWith, countFlow]

theorem goesUp_udp : GoesUpWith (·.udpConnections) isUdp := by simp [GoesUpWith, countFlow]

theorem goesUp_established : GoesUpWith (·.establishedTcp) isEstablished := by
  simp [GoesUpWith, countFlow]

theorem goesUp_timeWait : GoesUpWith (·.timeWaitTcp) isTimeWait := by
  simp [GoesUpWith, countFlow]

theorem goesUp_closeWait : GoesUpWith (·.closeWaitTcp) isCloseWait := by
  simp [GoesUpWith, countFlow]

/-- **A figure that goes up by one with every flow of a kind** counts the flows of this kind. -/
theorem toNat_foldl_countFlow {figure : ConnectionCounts → UInt32} {p : ConnectionFlow → Bool}
    (h : GoesUpWith figure p) (flows : List ConnectionFlow) (counts : ConnectionCounts) :
    (figure (flows.foldl countFlow counts)).toNat =
      min ((figure counts).toNat + flows.countP p) (2 ^ 32 - 1) := by
  induction flows generalizing counts with
  | nil =>
    have hlt := (figure counts).toNat_lt
    simp only [List.foldl_nil, List.countP_nil]
    omega
  | cons flow rest ih =>
    rw [List.foldl_cons, ih, h, List.countP_cons]
    by_cases hp : p flow = true
    · rw [if_pos hp, if_pos hp, toNat_satInc]
      omega
    · rw [if_neg hp, if_neg hp, Nat.add_zero]

/-- The order of the flows does not matter to the counts. -/
theorem foldl_countFlow_perm {flows flows' : List ConnectionFlow} (h : flows.Perm flows')
    (counts : ConnectionCounts) : flows.foldl countFlow counts = flows'.foldl countFlow counts := by
  have hfigure : ∀ {figure : ConnectionCounts → UInt32} {p : ConnectionFlow → Bool},
      GoesUpWith figure p →
      figure (flows.foldl countFlow counts) = figure (flows'.foldl countFlow counts) := by
    intro figure p hp
    rw [← UInt32.toNat_inj, toNat_foldl_countFlow hp, toNat_foldl_countFlow hp, h.countP_eq]
  have htotal := hfigure goesUp_total
  have htcp := hfigure goesUp_tcp
  have hudp := hfigure goesUp_udp
  have hestablished := hfigure goesUp_established
  have htimeWait := hfigure goesUp_timeWait
  have hcloseWait := hfigure goesUp_closeWait
  generalize flows.foldl countFlow counts = c at *
  generalize flows'.foldl countFlow counts = c' at *
  cases c
  cases c'
  simp_all

theorem countP_tcp_or_udp (flows : List ConnectionFlow) :
    (flows.countP fun f => isTcp f || isUdp f) = flows.countP isTcp + flows.countP isUdp := by
  induction flows with
  | nil => rfl
  | cons flow rest ih =>
    simp only [List.countP_cons, ih]
    cases htcp : isTcp flow with
    | true => simp [not_isUdp htcp]; omega
    | false => simp; omega

/-- **The counts of fewer than 2^32 flows are exact.** -/
theorem countsOf_foldl {flows : List ConnectionFlow} (h : flows.length < 2 ^ 32) :
    CountsOf flows (flows.foldl countFlow .zero) := by
  have hfigure : ∀ {figure : ConnectionCounts → UInt32} {p : ConnectionFlow → Bool},
      GoesUpWith figure p → figure .zero = 0 →
        (figure (flows.foldl countFlow .zero)).toNat = flows.countP p := by
    intro figure p hp hzero
    have hle : flows.countP p ≤ flows.length := List.countP_le_length
    have h0 : (0 : UInt32).toNat = 0 := rfl
    rw [toNat_foldl_countFlow hp, hzero, h0]
    omega
  refine ⟨?_, ?_, ?_, ?_, ?_, ?_⟩
  · rw [← countP_tcp_or_udp]
    exact hfigure goesUp_total rfl
  · exact hfigure goesUp_tcp rfl
  · exact hfigure goesUp_udp rfl
  · exact hfigure goesUp_established rfl
  · exact hfigure goesUp_timeWait rfl
  · exact hfigure goesUp_closeWait rfl

/-! ### Attribution -/

/-- The flow comes from an address that one identity lists, and no other, and this identity has the
MAC address. -/
def ownedBy (identities : List DeviceIdentity) (mac : String) (flow : ConnectionFlow) : Bool :=
  match parse flow.orig.src with
  | none => false
  | some ip =>
    match identities.filter (lists ip) with
    | [identity] => identity.mac = mac
    | _ => false

/-- The flows of a MAC address. -/
def ownedFlows (identities : List DeviceIdentity) (mac : String) (flows : List ConnectionFlow) :
    List ConnectionFlow :=
  flows.filter (ownedBy identities mac)

theorem uniqueIdentityForIp_eq_some {identities : List DeviceIdentity} {ip : IpAddr}
    {identity : DeviceIdentity} :
    uniqueIdentityForIp identities ip = some identity ↔ identities.filter (lists ip) = [identity] := by
  unfold uniqueIdentityForIp
  cases identities.filter (lists ip) with
  | nil => simp
  | cons first rest => cases rest <;> simp

theorem ownedBy_iff {identities : List DeviceIdentity} {mac : String} {flow : ConnectionFlow} :
    ownedBy identities mac flow = true ↔
      ∃ identity, ownerOf identities flow = some identity ∧ identity.mac = mac := by
  unfold ownedBy ownerOf
  cases parse flow.orig.src with
  | none => simp
  | some ip =>
    simp only [Option.bind_some, uniqueIdentityForIp_eq_some]
    split
    · next identity hidentity => simp [hidentity]
    · next hnot =>
      simp only [Bool.false_eq_true, false_iff]
      rintro ⟨identity, hidentity, -⟩
      exact hnot identity hidentity

/-- The order of the identities does not matter to the owner of a flow. -/
theorem ownerOf_perm {identities identities' : List DeviceIdentity}
    (h : identities.Perm identities') (flow : ConnectionFlow) :
    ownerOf identities flow = ownerOf identities' flow := by
  have howners : ∀ ip, uniqueIdentityForIp identities ip = uniqueIdentityForIp identities' ip := by
    refine fun ip => Option.ext fun identity => ?_
    have hperm := h.filter (lists ip)
    rw [uniqueIdentityForIp_eq_some, uniqueIdentityForIp_eq_some]
    exact ⟨fun heq => List.perm_singleton.mp (heq ▸ hperm).symm,
      fun heq => List.perm_singleton.mp (heq ▸ hperm)⟩
  unfold ownerOf
  rw [funext howners]

/-- The flows that are counted for a device, each with the device. -/
def attributed (identities : List DeviceIdentity) (flows : List ConnectionFlow) :
    List (DeviceIdentity × ConnectionFlow) :=
  flows.filterMap fun flow => (ownerOf identities flow).map fun identity => (identity, flow)

section
variable {identities : List DeviceIdentity} {flows : List ConnectionFlow} {mac : String}
  {now : UInt64}

theorem mem_attributed {p : DeviceIdentity × ConnectionFlow} :
    p ∈ attributed identities flows ↔ p.2 ∈ flows ∧ ownerOf identities p.2 = some p.1 := by
  simp only [attributed, List.mem_filterMap, Option.map_eq_some_iff]
  constructor
  · rintro ⟨flow, hflow, identity, howner, rfl⟩
    exact ⟨hflow, howner⟩
  · rintro ⟨hflow, howner⟩
    exact ⟨p.2, hflow, p.1, howner, rfl⟩

theorem attributed_cons_none {flow : ConnectionFlow} (h : ownerOf identities flow = none) :
    attributed identities (flow :: flows) = attributed identities flows :=
  List.filterMap_cons_none (by rw [h]; rfl)

theorem attributed_cons_some {flow : ConnectionFlow} {identity : DeviceIdentity}
    (h : ownerOf identities flow = some identity) :
    attributed identities (flow :: flows) = (identity, flow) :: attributed identities flows :=
  List.filterMap_cons_some (by rw [h]; rfl)

theorem map_attributed_sublist (identities : List DeviceIdentity) (flows : List ConnectionFlow) :
    List.Sublist ((attributed identities flows).map Prod.snd) flows := by
  induction flows with
  | nil => exact List.Sublist.slnil
  | cons flow rest ih =>
    cases howner : ownerOf identities flow with
    | none =>
      rw [attributed_cons_none howner]
      exact ih.cons flow
    | some identity =>
      rw [attributed_cons_some howner]
      exact ih.cons_cons flow

/-- The MAC address that a flow is counted under. -/
def macOf (p : DeviceIdentity × ConnectionFlow) : Option String := some p.1.mac

theorem map_ofKey_attributed (identities : List DeviceIdentity) (flows : List ConnectionFlow)
    (mac : String) :
    (ofKey macOf mac (attributed identities flows)).map Prod.snd = ownedFlows identities mac flows := by
  induction flows with
  | nil => rfl
  | cons flow rest ih =>
    unfold ownedFlows
    cases howner : ownerOf identities flow with
    | none =>
      have hnot : ownedBy identities mac flow ≠ true := by simp [ownedBy_iff, howner]
      rw [List.filter_cons_of_neg hnot, attributed_cons_none howner]
      exact ih
    | some identity =>
      have hkey : macOf (identity, flow) = some identity.mac := rfl
      rw [attributed_cons_some howner]
      by_cases hmac : identity.mac = mac
      · have hown : ownedBy identities mac flow = true := by simp [ownedBy_iff, howner, hmac]
        rw [List.filter_cons_of_pos hown, ofKey_cons_self (by rw [hkey, hmac]), List.map_cons]
        exact congrArg _ ih
      · have hnot : ownedBy identities mac flow ≠ true := by simp [ownedBy_iff, howner, hmac]
        rw [List.filter_cons_of_neg hnot, ofKey_cons_of_ne (by simp [hkey, hmac])]
        exact ih

/-- The loop counts the flows and gathers those that have a device. -/
theorem foldl_statsStep (flows : List ConnectionFlow)
    (st : ConnectionGlobalStats × DeviceRows) :
    flows.foldl (statsStep identities now) st =
      (flows.foldl countGlobal st.1,
        gather macOf (fun p => newRow p.1 now) (fun row p => countDevice row p.2)
          (attributed identities flows) st.2) := by
  induction flows generalizing st with
  | nil => rfl
  | cons flow rest ih =>
    rw [List.foldl_cons, ih]
    unfold statsStep
    cases howner : ownerOf identities flow with
    | none => rw [attributed_cons_none howner]; rfl
    | some identity => rw [attributed_cons_some howner]; rfl

/-- The row of a device that its flows make. -/
def rowOf (identity : DeviceIdentity) (now : UInt64) (flows : List ConnectionFlow) :
    ConnectionDeviceStats :=
  { newRow identity now with counts := flows.foldl countFlow .zero }

theorem foldl_countDevice (l : List (DeviceIdentity × ConnectionFlow))
    (row : ConnectionDeviceStats) :
    l.foldl (fun row p => countDevice row p.2) row =
      { row with counts := (l.map Prod.snd).foldl countFlow row.counts } := by
  induction l generalizing row with
  | nil => rfl
  | cons p rest ih =>
    show rest.foldl _ (countDevice row p.2) = _
    rw [ih, countDevice_eq]
    rfl

/-- The map of the rows. -/
def deviceRows (identities : List DeviceIdentity) (now : UInt64) (flows : List ConnectionFlow) :
    DeviceRows :=
  (flows.foldl (statsStep identities now) (⟨.zero, now⟩, ∅)).2

/-- **A row is that of the first flow of its MAC address, and counts the flows of the address.** -/
theorem lookup_deviceRows :
    (deviceRows identities now flows).lookup mac =
      (ofKey macOf mac (attributed identities flows)).head?.map fun p =>
        rowOf p.1 now (ownedFlows identities mac flows) := by
  unfold deviceRows
  rw [foldl_statsStep, lookup_gather_empty]
  refine congrArg (fun f => Option.map f _) (funext fun p => ?_)
  rw [foldl_countDevice, map_ofKey_attributed]
  rfl

theorem lookup_deviceRows_eq_some {row : ConnectionDeviceStats}
    (h : (deviceRows identities now flows).lookup mac = some row) :
    row.mac = mac ∧ row.counts = (ownedFlows identities mac flows).foldl countFlow .zero := by
  rw [lookup_deviceRows, Option.map_eq_some_iff] at h
  obtain ⟨p, hp, rfl⟩ := h
  have hmac := (mem_ofKey.mp (List.mem_of_head? hp)).2
  exact ⟨Option.some.inj hmac, rfl⟩

theorem mem_deviceRows :
    mac ∈ deviceRows identities now flows ↔ ownedFlows identities mac flows ≠ [] := by
  rw [mem_iff_lookup, lookup_deviceRows, ← map_ofKey_attributed]
  cases ofKey macOf mac (attributed identities flows) <;> simp

/-! ### Rows -/

variable {o : IterOrder}

theorem mem_rows {row : ConnectionDeviceStats} :
    row ∈ (calculateStats o flows identities now).2 ↔
      (deviceRows identities now flows).lookup row.mac = some row := by
  unfold calculateStats
  rw [List.mem_mergeSort, (o.perm _).mem_iff]
  constructor
  · intro h
    obtain ⟨⟨mac, row'⟩, he, rfl⟩ := List.mem_map.mp h
    have hlookup : (deviceRows identities now flows).lookup mac = some row' := mem_entries_iff.mp he
    rw [(lookup_deviceRows_eq_some hlookup).1]
    exact hlookup
  · intro h
    exact List.mem_map.mpr ⟨⟨row.mac, row⟩, mem_entries_iff.mpr h, rfl⟩

/-- The rows have the keys of the map as their MAC addresses. -/
theorem map_mac_rows :
    ((calculateStats o flows identities now).2.map (·.mac)).Perm
      (deviceRows identities now flows).keys := by
  have hrows : ((calculateStats o flows identities now).2).Perm
      ((deviceRows identities now flows).entries.map fun e => e.2) :=
    (List.mergeSort_perm _ _).trans (o.perm _)
  refine (hrows.map _).trans (List.Perm.of_eq ?_)
  rw [List.map_map]
  refine List.map_congr_left fun e he => ?_
  exact (lookup_deviceRows_eq_some (mem_entries_iff.mp he)).1

theorem nodup_mac_rows : ((calculateStats o flows identities now).2.map (·.mac)).Nodup :=
  map_mac_rows.nodup_iff.mpr (deviceRows identities now flows).keys_nodup

instance : Std.TransCmp rowOrder := by
  unfold rowOrder
  have : Std.TransCmp fun a b : ConnectionDeviceStats =>
      compare b.counts.totalConnections a.counts.totalConnections :=
    inferInstanceAs (Std.TransCmp fun a b : ConnectionDeviceStats =>
      compareOn (fun row : ConnectionDeviceStats => row.counts.totalConnections) b a)
  infer_instance

theorem rowLe_trans (a b c : ConnectionDeviceStats) (hab : rowLe a b = true)
    (hbc : rowLe b c = true) : rowLe a c = true :=
  Std.TransCmp.isLE_trans hab hbc

theorem rowLe_total (a b : ConnectionDeviceStats) : (rowLe a b || rowLe b a) = true := by
  have hswap : rowOrder b a = (rowOrder a b).swap := Std.OrientedCmp.eq_swap
  unfold rowLe
  rw [hswap]
  cases rowOrder a b <;> rfl

/-- A row comes before another: it has the greater total, or the same total and the lower MAC
address. -/
def Before (a b : ConnectionDeviceStats) : Prop :=
  b.counts.totalConnections < a.counts.totalConnections ∨
    a.counts.totalConnections = b.counts.totalConnections ∧ a.mac < b.mac

theorem before_of_rowLe {a b : ConnectionDeviceStats} (h : rowLe b a = false) : Before a b := by
  have hswap : rowOrder b a = (rowOrder a b).swap := Std.OrientedCmp.eq_swap
  have hlt : rowOrder a b = .lt := by
    unfold rowLe at h
    rw [hswap] at h
    cases horder : rowOrder a b <;> simp [horder] at h ⊢
  rcases Ordering.then_eq_lt.mp hlt with htotal | ⟨htotal, hmac⟩
  · exact Or.inl (Std.compare_eq_lt.mp htotal)
  · exact Or.inr ⟨(Std.compare_eq_iff_eq.mp htotal).symm, compareOfLessAndEq_eq_lt.mp hmac⟩

theorem mac_eq_of_rowLe {a b : ConnectionDeviceStats} (hab : rowLe a b = true)
    (hba : rowLe b a = true) : a.mac = b.mac := by
  have heq : rowOrder a b = .eq := Std.OrientedCmp.isLE_antisymm hab hba
  exact Std.compare_eq_iff_eq.mp (Ordering.then_eq_eq.mp heq).2

/-- Two rows of the map that are not told apart by the order are one. -/
theorem eq_of_rowLe {a b : ConnectionDeviceStats}
    (ha : a ∈ (deviceRows identities now flows).entries.map fun e => e.2)
    (hb : b ∈ (deviceRows identities now flows).entries.map fun e => e.2)
    (hab : rowLe a b = true) (hba : rowLe b a = true) : a = b := by
  have hlookup : ∀ row ∈ (deviceRows identities now flows).entries.map fun e => e.2,
      (deviceRows identities now flows).lookup row.mac = some row := by
    intro row hrow
    obtain ⟨⟨mac, row'⟩, he, rfl⟩ := List.mem_map.mp hrow
    have hrow' : (deviceRows identities now flows).lookup mac = some row' := mem_entries_iff.mp he
    rw [(lookup_deviceRows_eq_some hrow').1]
    exact hrow'
  have ha' := hlookup a ha
  rw [mac_eq_of_rowLe hab hba, hlookup b hb] at ha'
  exact (Option.some.inj ha').symm

/-- The rows are sorted strictly. -/
theorem pairwise_before : (calculateStats o flows identities now).2.Pairwise Before := by
  have hvalues : ((deviceRows identities now flows).entries.map fun e => e.2).Nodup := by
    have hmacs : (((deviceRows identities now flows).entries.map fun e => e.2).map
        fun row => row.mac).Nodup := by
      have hperm : ((calculateStats o flows identities now).2).Perm
          ((deviceRows identities now flows).entries.map fun e => e.2) :=
        (List.mergeSort_perm _ _).trans (o.perm _)
      exact (hperm.map _).nodup_iff.mp nodup_mac_rows
    exact List.Nodup.of_map _ hmacs
  have hmem : ∀ row, row ∈ o.order ((deviceRows identities now flows).entries.map fun e => e.2) →
      row ∈ (deviceRows identities now flows).entries.map fun e => e.2 :=
    fun row => (o.perm _).mem_iff.mp
  refine (pairwise_lt_mergeSort rowLe_trans rowLe_total ((o.perm _).nodup_iff.mpr hvalues)
    fun a ha b hb => eq_of_rowLe (hmem a ha) (hmem b hb)).imp fun h => before_of_rowLe h

/-! ### Exactness -/

/-- No flow is in two classes of states. -/
theorem classes_le (flows : List ConnectionFlow) :
    flows.countP isEstablished + flows.countP isTimeWait + flows.countP isCloseWait ≤
      flows.countP isTcp := by
  induction flows with
  | nil => exact Nat.le_refl 0
  | cons flow rest ih =>
    have hone : (if isEstablished flow then 1 else 0) + (if isTimeWait flow then 1 else 0) +
        (if isCloseWait flow then 1 else 0) ≤ if isTcp flow then 1 else 0 := by
      unfold isEstablished isTimeWait isCloseWait
      cases isTcp flow with
      | false => simp
      | true =>
        by_cases hestablished : flow.state = some "ESTABLISHED"
        · simp [hestablished, timeWaitStates]
        · by_cases hcloseWait : flow.state = some "CLOSE_WAIT"
          · simp [hcloseWait, timeWaitStates]
          · simp only [hestablished, hcloseWait, decide_false, Bool.and_false, Bool.false_eq_true,
              if_false, if_true]
            split_ifs <;> omega
    simp only [List.countP_cons]
    omega

theorem CountsOf.classes_le {counts : ConnectionCounts} (h : CountsOf flows counts) :
    counts.establishedTcp.toNat + counts.timeWaitTcp.toNat + counts.closeWaitTcp.toNat ≤
      counts.tcpConnections.toNat := by
  rw [h.established, h.timeWait, h.closeWait, h.tcp]
  exact Stats.classes_le flows

/-- **What the statistics of a list of flows are.** -/
structure Exact (identities : List DeviceIdentity) (flows : List ConnectionFlow)
    (stats : ConnectionGlobalStats × List ConnectionDeviceStats) : Prop where
  global : CountsOf flows stats.1.counts
  rows : ∀ row ∈ stats.2, CountsOf (ownedFlows identities row.mac flows) row.counts
  owners : ∀ mac, (∃ row ∈ stats.2, row.mac = mac) ↔ ownedFlows identities mac flows ≠ []
  classes : ∀ counts ∈ stats.1.counts :: stats.2.map (·.counts),
    counts.establishedTcp.toNat + counts.timeWaitTcp.toNat + counts.closeWaitTcp.toNat ≤
      counts.tcpConnections.toNat
  total : (stats.2.map (·.counts.totalConnections.toNat)).sum ≤
    stats.1.counts.totalConnections.toNat
  sorted : stats.2.Pairwise Before
  distinct : (stats.2.map (·.mac)).Nodup

theorem length_ownedFlows_le (identities : List DeviceIdentity) (mac : String)
    (flows : List ConnectionFlow) : (ownedFlows identities mac flows).length ≤ flows.length :=
  List.length_filter_le _ _

theorem exists_row {mac : String} : (∃ row ∈ (calculateStats o flows identities now).2,
    row.mac = mac) ↔ ownedFlows identities mac flows ≠ [] := by
  have hkey : mac ∈ deviceRows identities now flows ↔ mac ∈ (deviceRows identities now flows).keys :=
    AList.mem_keys
  rw [← List.mem_map, map_mac_rows.mem_iff, ← hkey, mem_deviceRows]

theorem calculateStats_counts :
    (calculateStats o flows identities now).1.counts = flows.foldl countFlow .zero := by
  unfold calculateStats
  rw [foldl_statsStep, foldl_countGlobal]

/-- The rows count no flow twice. -/
theorem sum_total_le (h : flows.length < 2 ^ 32) :
    ((calculateStats o flows identities now).2.map (·.counts.totalConnections.toNat)).sum ≤
      (calculateStats o flows identities now).1.counts.totalConnections.toNat := by
  have hrow : ∀ row ∈ (calculateStats o flows identities now).2,
      row.counts.totalConnections.toNat = (ofKey macOf row.mac (attributed identities flows)).countP
        fun p => isTcp p.2 || isUdp p.2 := by
    intro row hrow
    have hcounts := (lookup_deviceRows_eq_some (mem_rows.mp hrow)).2
    have hlen : (ownedFlows identities row.mac flows).length < 2 ^ 32 :=
      (length_ownedFlows_le identities row.mac flows).trans_lt h
    rw [hcounts, (countsOf_foldl hlen).total, ← countP_tcp_or_udp, ← map_ofKey_attributed,
      List.countP_map]
    rfl
  have hkeys : (((calculateStats o flows identities now).2.map (·.mac)).map fun mac =>
      (ofKey macOf mac (attributed identities flows)).countP fun p => isTcp p.2 || isUdp p.2).sum ≤
        (attributed identities flows).countP fun p => isTcp p.2 || isUdp p.2 :=
    sum_countP_ofKey_le nodup_mac_rows _ _
  have hsub : (attributed identities flows).countP (fun p => isTcp p.2 || isUdp p.2) ≤
      flows.countP fun flow => isTcp flow || isUdp flow := by
    have hmap : ((attributed identities flows).map Prod.snd).countP (fun f => isTcp f || isUdp f) ≤
        flows.countP fun f => isTcp f || isUdp f :=
      (map_attributed_sublist identities flows).countP_le
    rwa [List.countP_map] at hmap
  rw [List.map_congr_left hrow, calculateStats_counts, (countsOf_foldl h).total,
    ← countP_tcp_or_udp]
  rw [List.map_map] at hkeys
  exact hkeys.trans hsub

theorem exact_calculateStats (h : flows.length < 2 ^ 32) :
    Exact identities flows (calculateStats o flows identities now) := by
  have hglobal : CountsOf flows (calculateStats o flows identities now).1.counts := by
    rw [calculateStats_counts]
    exact countsOf_foldl h
  have hrows : ∀ row ∈ (calculateStats o flows identities now).2,
      CountsOf (ownedFlows identities row.mac flows) row.counts := by
    intro row hrow
    rw [(lookup_deviceRows_eq_some (mem_rows.mp hrow)).2]
    exact countsOf_foldl ((length_ownedFlows_le identities row.mac flows).trans_lt h)
  refine ⟨hglobal, hrows, fun mac => exists_row, ?_, sum_total_le h, pairwise_before, nodup_mac_rows⟩
  intro counts hcounts
  rcases List.mem_cons.mp hcounts with rfl | hcounts
  · exact hglobal.classes_le
  · obtain ⟨row, hrow, rfl⟩ := List.mem_map.mp hcounts
    exact (hrows row hrow).classes_le

end

/-- **The counts are exact**: all flows are counted, and for each MAC address those that come from an
address which one identity of it lists, and no other identity. -/
theorem calculateStats_exact (o : IterOrder) (flows : List ConnectionFlow)
    (identities : List DeviceIdentity) (now : UInt64) (h : flows.length ≤ maxTrackedFlows) :
    Exact identities flows (calculateStats o flows identities now) :=
  exact_calculateStats (h.trans_lt (by decide))

section Sample

/-- A flow from an address. -/
def sampleFlow (src protocol : String) (state : Option String) : ConnectionFlow where
  id := none
  protocol
  state
  orig := ⟨src, "203.0.113.1", 1234, 443⟩
  reply := ⟨"203.0.113.1", src, 443, 1234⟩
  origPackets := 1
  origBytes := 2
  replyPackets := 3
  replyBytes := 4
  flags := []

/-- A client that lists one address. -/
def sampleIdentity (mac logicalIface : String) (ip : UInt32) : DeviceIdentity where
  mac
  hostname := "client"
  logicalIface
  ipv4 := [.v4 ip]
  ipv6 := []

theorem calculateStats_exact_client :
    [sampleFlow "192.168.1.10" "tcp" (some "ESTABLISHED")].length ≤ maxTrackedFlows ∧
      Exact [sampleIdentity "00:11:22:33:44:55" "br-lan" 0xC0A8010A]
        [sampleFlow "192.168.1.10" "tcp" (some "ESTABLISHED")]
        (calculateStats .listed [sampleFlow "192.168.1.10" "tcp" (some "ESTABLISHED")]
          [sampleIdentity "00:11:22:33:44:55" "br-lan" 0xC0A8010A] 10) :=
  ⟨by decide, calculateStats_exact _ _ _ _ (by decide)⟩

end Sample

/-! ### The order of iteration -/

/-- What a row shows of an identity. -/
def shown (identity : DeviceIdentity) : String × String × List String × List String :=
  (identity.hostname, identity.logicalIface, identity.ipv4.map IpAddr.toString,
    identity.ipv6.map IpAddr.toString)

/-- **The identities of one MAC address that own a flow of the list are shown alike.** -/
def ShownAlike (identities : List DeviceIdentity) (flows : List ConnectionFlow) : Prop :=
  ∀ flow ∈ flows, ∀ flow' ∈ flows, ∀ identity identity' : DeviceIdentity,
    ownerOf identities flow = some identity → ownerOf identities flow' = some identity' →
      identity.mac = identity'.mac → shown identity = shown identity'

/-- The statistics are the same in every order of the flows, of the identities and of the rows. -/
def OrderFree (identities : List DeviceIdentity) (flows : List ConnectionFlow) (now : UInt64) :
    Prop :=
  ∀ (o o' : IterOrder) (flows' : List ConnectionFlow) (identities' : List DeviceIdentity),
    flows.Perm flows' → identities.Perm identities' →
      calculateStats o flows identities now = calculateStats o' flows' identities' now

section
variable {identities identities' : List DeviceIdentity} {flows flows' : List ConnectionFlow}
  {now : UInt64}

theorem rowOf_perm (identity : DeviceIdentity) (now : UInt64) (h : flows.Perm flows') :
    rowOf identity now flows = rowOf identity now flows' := by
  have hcounts : flows.foldl countFlow .zero = flows'.foldl countFlow .zero :=
    foldl_countFlow_perm h _
  simp only [rowOf, hcounts]

theorem rowOf_eq_iff {identity identity' : DeviceIdentity} {l : List ConnectionFlow} :
    rowOf identity now l = rowOf identity' now l ↔
      identity.mac = identity'.mac ∧ shown identity = shown identity' := by
  simp [rowOf, newRow, shown]

/-- If the identities of a MAC address are shown alike its row does not depend on the order. -/
theorem lookup_deviceRows_perm (halike : ShownAlike identities flows) (hflows : flows.Perm flows')
    (hidentities : identities.Perm identities') (mac : String) :
    (deviceRows identities now flows).lookup mac = (deviceRows identities' now flows').lookup mac := by
  have howner : ownerOf identities = ownerOf identities' := funext (ownerOf_perm hidentities)
  have hattributed : (attributed identities flows).Perm (attributed identities' flows') := by
    unfold attributed
    rw [howner]
    exact hflows.filterMap _
  have hkey : (ofKey macOf mac (attributed identities flows)).Perm
      (ofKey macOf mac (attributed identities' flows')) := ofKey_perm hattributed mac
  have howned : (ownedFlows identities mac flows).Perm (ownedFlows identities' mac flows') := by
    rw [← map_ofKey_attributed, ← map_ofKey_attributed]
    exact hkey.map _
  have hrow : ∀ p ∈ ofKey macOf mac (attributed identities flows),
      ∀ p' ∈ ofKey macOf mac (attributed identities' flows'),
        rowOf p.1 now (ownedFlows identities mac flows) =
          rowOf p'.1 now (ownedFlows identities' mac flows') := by
    intro p hp p' hp'
    obtain ⟨hmem, hmac⟩ := mem_ofKey.mp hp
    obtain ⟨hmem', hmac'⟩ := mem_ofKey.mp hp'
    obtain ⟨hflow, hp⟩ := mem_attributed.mp hmem
    obtain ⟨hflow', hp'⟩ := mem_attributed.mp (hattributed.mem_iff.mpr hmem')
    have hmacs : p.1.mac = p'.1.mac := Option.some.inj (hmac.trans hmac'.symm)
    have hshown := halike p.2 hflow p'.2 hflow' p.1 p'.1 hp hp' hmacs
    exact (rowOf_eq_iff.mpr ⟨hmacs, hshown⟩).trans (rowOf_perm p'.1 now howned)
  rw [lookup_deviceRows, lookup_deviceRows]
  cases hl : ofKey macOf mac (attributed identities flows) with
  | nil =>
    have hnil : ofKey macOf mac (attributed identities' flows') = [] := (hl ▸ hkey).nil_eq.symm
    rw [hnil]
    rfl
  | cons p rest =>
    cases hl' : ofKey macOf mac (attributed identities' flows') with
    | nil => exact absurd (hl.symm.trans (hl' ▸ hkey).eq_nil) (List.cons_ne_nil p rest)
    | cons p' rest' =>
      refine congrArg some (hrow p ?_ p' ?_)
      · rw [hl]; exact List.mem_cons_self
      · rw [hl']; exact List.mem_cons_self

theorem orderFree_of_shownAlike (halike : ShownAlike identities flows) :
    OrderFree identities flows now := by
  intro o o' flows' identities' hflows hidentities
  have hcounts : flows.foldl countFlow .zero = flows'.foldl countFlow .zero :=
    foldl_countFlow_perm hflows _
  have hvalues : ((deviceRows identities now flows).entries.map fun e => e.2).Perm
      ((deviceRows identities' now flows').entries.map fun e => e.2) :=
    (entries_perm (lookup_deviceRows_perm halike hflows hidentities)).map _
  have hmem : ∀ row, row ∈ o.order ((deviceRows identities now flows).entries.map fun e => e.2) →
      row ∈ (deviceRows identities now flows).entries.map fun e => e.2 :=
    fun row => (o.perm _).mem_iff.mp
  refine Prod.ext ?_ ?_
  · unfold calculateStats
    rw [foldl_statsStep, foldl_statsStep, foldl_countGlobal, foldl_countGlobal, hcounts]
  · exact mergeSort_eq_of_perm rowLe_trans rowLe_total
      (((o.perm _).trans hvalues).trans (o'.perm _).symm)
      fun a ha b hb => eq_of_rowLe (hmem a ha) (hmem b hb)

/-- The row of a MAC address shows the identity that its first flow belongs to. -/
theorem row_of_first {flow : ConnectionFlow} {identity : DeviceIdentity}
    (h : ownerOf identities flow = some identity) (o : IterOrder) :
    rowOf identity now (ownedFlows identities identity.mac (flow :: flows)) ∈
      (calculateStats o (flow :: flows) identities now).2 := by
  have hfirst : (ofKey macOf identity.mac (attributed identities (flow :: flows))).head? =
      some (identity, flow) := by
    have hkey : macOf (identity, flow) = some identity.mac := rfl
    rw [attributed_cons_some h, ofKey_cons_self hkey]
    rfl
  refine mem_rows.mpr ?_
  show (deviceRows identities now (flow :: flows)).lookup identity.mac = _
  rw [lookup_deviceRows, hfirst]
  rfl

theorem shownAlike_of_orderFree (hfree : OrderFree identities flows now) :
    ShownAlike identities flows := by
  intro flow hflow flow' hflow' identity identity' howner howner' hmac
  -- each of the two flows can come first, and its identity is then the one that is shown
  have hfirst : ∀ flow ∈ flows, ∀ identity, ownerOf identities flow = some identity →
      rowOf identity now (ownedFlows identities identity.mac flows) ∈
        (calculateStats .listed flows identities now).2 := by
    intro flow hflow identity howner
    obtain ⟨before, after, hsplit⟩ := List.append_of_mem hflow
    have hperm : flows.Perm (flow :: (before ++ after)) := hsplit ▸ List.perm_middle
    have howned : (ownedFlows identities identity.mac flows).Perm
        (ownedFlows identities identity.mac (flow :: (before ++ after))) := hperm.filter _
    rw [rowOf_perm identity now howned, hfree .listed .listed _ identities hperm (List.Perm.refl _)]
    exact row_of_first howner .listed
  have hrow := mem_rows.mp (hfirst flow hflow identity howner)
  have hrow' := mem_rows.mp (hfirst flow' hflow' identity' howner')
  have hmac' : (rowOf identity now (ownedFlows identities identity.mac flows)).mac =
      (rowOf identity' now (ownedFlows identities identity'.mac flows)).mac := hmac
  rw [hmac', hrow', hmac] at hrow
  exact (rowOf_eq_iff.mp (Option.some.inj hrow).symm).2

end

/-- **The statistics do not depend on the order of the flows and of the identities if and only if the
identities of one MAC address that own a flow are shown alike.** -/
theorem calculateStats_perm_iff (flows : List ConnectionFlow) (identities : List DeviceIdentity)
    (now : UInt64) : OrderFree identities flows now ↔ ShownAlike identities flows :=
  ⟨shownAlike_of_orderFree, orderFree_of_shownAlike⟩

section Sample

/-- A client as one interface knows it. -/
def sampleDevice (ifindex : UInt32) (ip logicalIface : String) : KnownDevice where
  ifindex
  mac := #v[0x00, 0x11, 0x22, 0x33, 0x44, 0x55]
  ipv4 := [ip]
  ipv6 := []
  hostname := "client"
  logicalIface
  subnet := "192.168.1.0/24"
  lastSeenMs := 0

/-- A client that is registered on two interfaces, with an address on each. -/
def sampleRuntime : MonitorRuntime :=
  let lan := sampleDevice 2 "192.168.1.10" "lan"
  let guest := sampleDevice 3 "192.168.2.10" "guest"
  { MonitorRuntime.default with
    deviceRegistry := AList.insert (2, lan.mac) lan (AList.insert (3, guest.mac) guest ∅) }

/-- Two flows of the client: its row is shown on the interface of the flow that is met first. -/
theorem calculateStats_two_interfaces :
    let identities := deviceIdentities .listed sampleRuntime
    let flow := sampleFlow "192.168.1.10" "tcp" none
    let flow' := sampleFlow "192.168.2.10" "tcp" none
    [flow, flow'].Perm [flow', flow] ∧
      calculateStats .listed [flow, flow'] identities 10 ≠
        calculateStats .listed [flow', flow] identities 10 := by
  intro identities flow flow'
  refine ⟨List.Perm.swap _ _ _, fun heq => ?_⟩
  let row := rowOf (identities.headD (sampleIdentity "" "" 0)) 10 [flow, flow']
  have hmem : row ∈ (calculateStats .listed [flow, flow'] identities 10).2 :=
    mem_rows.mpr (by decide)
  have hnot : row ∉ (calculateStats .listed [flow', flow] identities 10).2 :=
    mt mem_rows.mp (by decide)
  exact hnot (heq ▸ hmem)

end Sample

end BandixPlus.Conntrack.Stats
