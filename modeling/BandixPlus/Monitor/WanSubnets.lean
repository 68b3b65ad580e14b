import BandixPlus.Monitor.Conservation
import BandixPlus.Monitor.Ownership

/-! # The WAN side of hardware traffic

The networks of the LAN side leave out the zone `wan` for IPv4, and every zone that begins so for IPv6.

* `wan_not_lan_iff`: traffic in a network of the WAN side is not LAN traffic exactly if it is IPv6, or it is
  at an address of zone `wan`, or not exactly one interface of another zone has its network.
* `wan_counted_as_lan`: on an interface of the zone `wanb` IPv4 traffic is LAN traffic. -/

namespace BandixPlus.Monitor.WanSubnets

open BandixPlus.Common BandixPlus.Lib.Maps BandixPlus.Lib.Saturating
open BandixPlus.Monitor.Counters BandixPlus.Monitor.Snapshot BandixPlus.Monitor.Topology
open BandixPlus.Monitor.Runtime BandixPlus.Monitor.Interfaces BandixPlus.Monitor.Ecm
open BandixPlus.Monitor.Conservation BandixPlus.Monitor.Ownership
open BandixPlus.Net.Addresses BandixPlus.Net.Text

/-! ### Networks of an interface -/

/-- A configured IPv4 network of the interface has the address. -/
def InV4 (iface : Interface) (ip : UInt32) : Prop :=
  ∃ subnet ∈ iface.ipv4Cidrs.filterMap parseCidrToU32, ip &&& subnet.2 = subnet.1 &&& subnet.2

/-- A configured IPv6 network of the interface has the address. -/
def InV6 (iface : Interface) (words : IpWords) : Prop :=
  ∃ subnet ∈ iface.ipv6Cidrs.filterMap parseCidrToU128,
    wordsV6 words &&& subnet.2 = subnet.1 &&& subnet.2

/-- A configured network of the interface has the address of the key. -/
def InSubnet (iface : Interface) (key : EcmTrafficKey) : Prop :=
  if key.ipVersion = 4 then InV4 iface (addressV4 key) else InV6 iface key.ip

/-- The interfaces that IPv4 attribution finds. -/
theorem mem_localV4 {topology : TopologySnapshot} {ip ifindex : UInt32} :
    ifindex ∈ ((subnetsOf topology).localV4.filter fun subnet =>
        ip &&& subnet.2.2 = subnet.2.1 &&& subnet.2.2).map Prod.fst ↔
      ∃ iface ∈ topology.interfaces, iface.zone ≠ "wan" ∧ InV4 iface ip ∧ iface.ifindex = ifindex := by
  unfold subnetsOf InV4
  simp only [List.mem_map, List.mem_filter, List.mem_flatMap, decide_eq_true_eq]
  constructor
  · rintro ⟨_, ⟨⟨iface, ⟨hmem, hzone⟩, subnet, hsubnet, rfl⟩, hip⟩, rfl⟩
    exact ⟨iface, hmem, hzone, ⟨subnet, hsubnet, hip⟩, rfl⟩
  · rintro ⟨iface, hmem, hzone, ⟨subnet, hsubnet, hip⟩, rfl⟩
    exact ⟨_, ⟨⟨iface, ⟨hmem, hzone⟩, subnet, hsubnet, rfl⟩, hip⟩, rfl⟩

/-- The interfaces that IPv6 attribution finds. -/
theorem mem_localV6 {topology : TopologySnapshot} {words : IpWords} {ifindex : UInt32}
    (h : ifindex ∈ ((subnetsOf topology).localV6.filter fun subnet =>
      wordsV6 words &&& subnet.2.2 = subnet.2.1 &&& subnet.2.2).map Prod.fst) :
    ∃ iface ∈ topology.interfaces, wanZone iface = false ∧ InV6 iface words := by
  obtain ⟨p, hp, rfl⟩ := List.mem_map.mp h
  obtain ⟨hp, hip⟩ := List.mem_filter.mp hp
  obtain ⟨iface, hmem, hp⟩ := List.mem_flatMap.mp hp
  split_ifs at hp with hwan
  · cases hp
  · obtain ⟨subnet, hsubnet, rfl⟩ := List.mem_map.mp hp
    exact ⟨iface, hmem, Bool.eq_false_iff.mpr hwan, subnet, hsubnet, of_decide_eq_true hip⟩

/-! ### What is LAN traffic -/

theorem attributeV4_eq_subnet {s : Subnets} {ip ifindex : UInt32} :
    attributeV4 s ip = .subnet ifindex ↔ ip ∉ s.wanV4Ips ∧
      uniqueSubnetIface ((s.localV4.filter fun subnet =>
        ip &&& subnet.2.2 = subnet.2.1 &&& subnet.2.2).map Prod.fst) = .unique ifindex := by
  unfold attributeV4
  by_cases hown : ip ∈ s.wanV4Ips
  · simp [hown]
  · rw [if_neg hown]
    dsimp only
    split
    · next i hunique => simp [hown, hunique]
    · next hambiguous => simp [hambiguous]
    · next hnone =>
      rw [hnone]
      split_ifs <;> simp

theorem isLan_attributeV4 {s : Subnets} {ip : UInt32} :
    isLan (attributeV4 s ip) = true ↔ ∃ ifindex, attributeV4 s ip = .subnet ifindex := by
  have hwithin := within_attributeV4 s ip
  cases hattribute : attributeV4 s ip with
  | owner device =>
    rw [hattribute] at hwithin
    exact False.elim hwithin
  | subnet ifindex => exact ⟨fun _ => ⟨ifindex, rfl⟩, fun _ => rfl⟩
  | ownWan => simp [isLan]
  | global => simp [isLan]
  | external => simp [isLan]

/-- **IPv4**: LAN traffic is what exactly one interface of another zone than `wan` has, except the own
addresses of that zone. -/
theorem isLan_attributeV4_iff {topology : TopologySnapshot} {ip : UInt32} :
    isLan (attributeV4 (subnetsOf topology) ip) = true ↔
      ¬ OwnAddressV4 topology ip ∧
        ∃! iface, iface ∈ topology.interfaces ∧ iface.zone ≠ "wan" ∧ InV4 iface ip := by
  simp only [isLan_attributeV4, attributeV4_eq_subnet, mem_wanV4Ips, uniqueSubnetIface_eq_unique,
    mem_localV4]
  constructor
  · rintro ⟨ifindex, hown, ⟨iface, hmem, hzone, hin, hifindex⟩, hunique⟩
    refine ⟨hown, iface, ⟨hmem, hzone, hin⟩, ?_⟩
    rintro other ⟨hother, hzone', hin'⟩
    have hsame : other.ifindex = iface.ifindex :=
      (hunique _ ⟨other, hother, hzone', hin', rfl⟩).trans hifindex.symm
    have hlookup := mem_interfaces.mp hother
    rw [hsame, mem_interfaces.mp hmem] at hlookup
    exact (Option.some.inj hlookup).symm
  · rintro ⟨hown, iface, ⟨hmem, hzone, hin⟩, hunique⟩
    refine ⟨iface.ifindex, hown, ⟨iface, hmem, hzone, hin, rfl⟩, ?_⟩
    rintro _ ⟨other, hother, hzone', hin', rfl⟩
    rw [hunique other ⟨hother, hzone', hin'⟩]

/-- **IPv6**: what only interfaces of the WAN side have is not LAN traffic. -/
theorem not_isLan_attributeV6 {topology : TopologySnapshot} {words : IpWords}
    (hwan : ∀ iface ∈ topology.interfaces, InV6 iface words → wanZone iface = true) :
    isLan (attributeV6 (subnetsOf topology) words) = false := by
  unfold attributeV6
  by_cases hown : words ∈ (subnetsOf topology).wanV6Ips
  · rw [if_pos hown]
    rfl
  · rw [if_neg hown]
    dsimp only
    split
    · next ifindex hunique =>
      obtain ⟨iface, hmem, hlan, hin⟩ := mem_localV6 (uniqueSubnetIface_eq_unique.mp hunique).1
      rw [hwan iface hmem hin] at hlan
      cases hlan
    · rfl
    · split_ifs <;> rfl

/-! ### What is counted -/

section Counted

variable (registry : HashMap DeviceKey KnownDevice) (topology : TopologySnapshot)
  (ownership : HashMap EcmAddress NeighborOwnership) (nowMs : UInt64)

/-- The traffic of a key is LAN traffic of no interface, whatever was counted before. -/
def NotLan (key : EcmTrafficKey) : Prop :=
  ∀ (sec : Float) (st : EcmLoop) (value : TrafficValue),
    0 < (ecmDelta st.base key value.bytes nowMs).1 →
      (ecmStep registry (attributionOf (subnetsOf topology) ownership nowMs) nowMs sec st key
        value).lanEcmMetrics = st.lanEcmMetrics

variable {topology ownership nowMs}

/-- A counter with a delta is attributed. -/
theorem ecmStep_of_pos {whose : EcmTrafficKey → Attribution} {sec : Float} {st : EcmLoop}
    {key : EcmTrafficKey} {value : TrafficValue}
    (h : 0 < (ecmDelta st.base key value.bytes nowMs).1) :
    ecmStep registry whose nowMs sec st key value =
      attributeEcm registry nowMs sec key (ecmDelta st.base key value.bytes nowMs).1
        { st with base := (ecmDelta st.base key value.bytes nowMs).2 } (whose key) := by
  unfold ecmStep
  dsimp only
  rw [if_neg (UInt64.pos_iff_ne_zero.mp h)]

theorem lanEcmMetrics_of_not_isLan {a : Attribution} (h : isLan a = false) (sec : Float)
    (key : EcmTrafficKey) (delta : UInt64) (st : EcmLoop) :
    (attributeEcm registry nowMs sec key delta st a).lanEcmMetrics = st.lanEcmMetrics := by
  cases a with
  | owner device => cases h
  | subnet ifindex => cases h
  | ownWan => rfl
  | global => rfl
  | external => rfl

/-- The network of an interface makes LAN traffic of it. -/
theorem lanEcmMetrics_of_subnet {key : EcmTrafficKey} {ifindex : UInt32}
    (h : attributionOf (subnetsOf topology) ownership nowMs key = .subnet ifindex) {sec : Float}
    {st : EcmLoop} {value : TrafficValue} (hpos : 0 < (ecmDelta st.base key value.bytes nowMs).1) :
    (ecmStep registry (attributionOf (subnetsOf topology) ownership nowMs) nowMs sec st key
      value).lanEcmMetrics =
      fillEcm ifindex key (ecmDelta st.base key value.bytes nowMs).1 sec st.lanEcmMetrics := by
  rw [ecmStep_of_pos registry hpos, h]
  rfl

/-- The first bytes of a key on an interface without LAN traffic are seen. -/
theorem not_notLan_of_subnet {key : EcmTrafficKey} {ifindex : UInt32}
    (h : attributionOf (subnetsOf topology) ownership nowMs key = .subnet ifindex) :
    ¬ NotLan registry topology ownership nowMs key := by
  intro hnotLan
  let st : EcmLoop := ⟨⟨∅, ∅⟩, ∅, [], .zero, ∅, ∅, []⟩
  have hdelta : (ecmDelta st.base key (TrafficValue.mk 1 1).bytes nowMs).1 = 1 := by
    unfold ecmDelta
    dsimp only [st]
    rw [AList.lookup_empty]
    rfl
  have hpos : 0 < (ecmDelta st.base key (TrafficValue.mk 1 1).bytes nowMs).1 := by
    rw [hdelta]
    decide
  have hlan := hnotLan 1 st ⟨1, 1⟩ hpos
  rw [lanEcmMetrics_of_subnet registry h hpos] at hlan
  have hmem : ifindex ∈ fillEcm ifindex key (ecmDelta st.base key 1 nowMs).1 1 st.lanEcmMetrics :=
    mem_upsert.mpr (Or.inl rfl)
  rw [hlan] at hmem
  exact AList.notMem_empty ifindex hmem

/-- **When the WAN side is not counted as LAN**: IPv6 traffic, own addresses of the zone `wan`, and traffic
that not exactly one interface outside this zone has. -/
theorem wan_not_lan_iff {key : EcmTrafficKey} (hversion : key.ipVersion = 4 ∨ key.ipVersion = 6)
    (hunowned : ownerAt ownership (key.ip, key.ipVersion) nowMs = none)
    (hwan : ∀ iface ∈ topology.interfaces, InSubnet iface key → wanZone iface = true) :
    NotLan registry topology ownership nowMs key ↔
      key.ipVersion = 6 ∨ OwnAddressV4 topology (addressV4 key) ∨
        ¬ ∃! iface, iface ∈ topology.interfaces ∧ iface.zone ≠ "wan" ∧ InV4 iface (addressV4 key) := by
  have hnotLan : isLan (attributionOf (subnetsOf topology) ownership nowMs key) = false →
      NotLan registry topology ownership nowMs key := by
    intro h sec st value hpos
    rw [ecmStep_of_pos registry hpos]
    exact lanEcmMetrics_of_not_isLan registry h sec key _ _
  unfold InSubnet at hwan
  rcases hversion with h4 | h6
  · have hattribution : attributionOf (subnetsOf topology) ownership nowMs key =
        attributeV4 (subnetsOf topology) (addressV4 key) := by
      rw [attributionOf_unowned hunowned, if_pos h4]
    rw [hattribution] at hnotLan
    have hexact : NotLan registry topology ownership nowMs key ↔
        ¬ isLan (attributeV4 (subnetsOf topology) (addressV4 key)) = true := by
      constructor
      · intro h hlan
        obtain ⟨ifindex, hsubnet⟩ := isLan_attributeV4.mp hlan
        exact not_notLan_of_subnet registry (hattribution.trans hsubnet) h
      · exact fun h => hnotLan (Bool.eq_false_iff.mpr h)
    have hne : ¬ key.ipVersion = 6 := by
      rw [h4]
      decide
    rw [hexact, isLan_attributeV4_iff, not_and_or, not_not, or_iff_right hne]
  · have hattribution : attributionOf (subnetsOf topology) ownership nowMs key =
        attributeV6 (subnetsOf topology) key.ip := by
      rw [attributionOf_unowned hunowned, h6]
      rfl
    have hne : ¬ key.ipVersion = 4 := by
      rw [h6]
      decide
    refine ⟨fun _ => Or.inl h6, fun _ => hnotLan ?_⟩
    rw [hattribution]
    exact not_isLan_attributeV6 fun iface hmem hin => hwan iface hmem (by rw [if_neg hne]; exact hin)

end Counted

/-! ### An interface of the zone wanb -/

/-- A second uplink, in a zone of its own. -/
def wanbTopology : TopologySnapshot := .ofInterfaces [⟨7, "eth1", "wanb", ["203.0.113.2/24"], []⟩]

theorem interfaces_wanbTopology :
    wanbTopology.interfaces = [⟨7, "eth1", "wanb", ["203.0.113.2/24"], []⟩] :=
  List.mergeSort_singleton _

/-- Bytes of 203.0.113.9, which is on its network. -/
def wanbKey : EcmTrafficKey := ⟨#v[0xCB007109, 0, 0, 0], 4, 1⟩

theorem wanZone_wanbTopology : ∀ iface ∈ wanbTopology.interfaces, wanZone iface = true := by
  rw [interfaces_wanbTopology]
  decide

theorem subnetsOf_wanbTopology :
    subnetsOf wanbTopology = ⟨[(7, 0xCB007100, 0xFFFFFF00)], [], [], [], []⟩ := by
  unfold subnetsOf localV6Subnets
  rw [interfaces_wanbTopology]
  rfl

theorem wan_not_lan_iff_wanb : NotLan ∅ wanbTopology ∅ 1000 wanbKey ↔
    wanbKey.ipVersion = 6 ∨ OwnAddressV4 wanbTopology (addressV4 wanbKey) ∨
      ¬ ∃! iface, iface ∈ wanbTopology.interfaces ∧ iface.zone ≠ "wan" ∧
        InV4 iface (addressV4 wanbKey) :=
  wan_not_lan_iff ∅ (Or.inl rfl) rfl fun iface hmem _ => wanZone_wanbTopology iface hmem

/-- **The two lists disagree**: the zone of the only interface begins with `wan`, and 100 bytes of its
network are LAN traffic of this interface. -/
theorem wan_counted_as_lan :
    wanbKey.ipVersion = 4 ∧ ownerAt ∅ (wanbKey.ip, wanbKey.ipVersion) 1000 = none ∧
      (∀ iface ∈ wanbTopology.interfaces, InSubnet iface wanbKey → wanZone iface = true) ∧
      let st : EcmLoop := ⟨⟨∅, ∅⟩, ∅, [], .zero, ∅, ∅, []⟩
      let after := ecmStep ∅ (attributionOf (subnetsOf wanbTopology) ∅ 1000) 1000 1 st wanbKey ⟨1, 100⟩
      (ecmDelta st.base wanbKey 100 1000).1 = 100 ∧ st.lanEcmMetrics.lookup 7 = none ∧
        (after.lanEcmMetrics.lookup 7).map (fun metrics => metrics.bytes) = some ⟨100, 0, 0, 0⟩ := by
  refine ⟨rfl, rfl, fun iface hmem _ => wanZone_wanbTopology iface hmem, rfl, rfl, ?_⟩
  rw [subnetsOf_wanbTopology]
  rfl

end BandixPlus.Monitor.WanSubnets
