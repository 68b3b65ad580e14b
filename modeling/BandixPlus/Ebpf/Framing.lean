import BandixPlus.Ebpf.DnsFilter
import BandixPlus.Lib.Maps

/-! # The framing of a packet

`resolve_packet_meta` of the eBPF program finds the IP header of a packet without knowing the link type:
it reads the packet as an Ethernet frame, then as an IP packet, then as a PPP frame. A packet is the
linear part of the socket buffer.

* `IsIp`: what an Ethernet frame carries by its EtherType, behind at most two tags.
* `classified_iff`: a frame is classified by its EtherType exactly if it carries IP, or its first three
  bytes do not pass for those of an IP packet or of a PPP frame.
* `arp_counted`: an ARP frame that is counted as IPv4. -/

namespace BandixPlus.Ebpf.Framing

open BandixPlus.Common BandixPlus.Lib.Checked BandixPlus.Lib.Maps
open BandixPlus.Dns.Name BandixPlus.Ebpf.DnsFilter

def ethPIp : UInt16 := 0x0800
def ethPIpv6 : UInt16 := 0x86DD
def ethPPppSes : UInt16 := 0x8864
def ethP8021q : UInt16 := 0x8100
def ethP8021ad : UInt16 := 0x88A8
def pppProtoIp : UInt16 := 0x0021
def pppProtoIpv6 : UInt16 := 0x0057

structure PacketMeta where
  ipVersion : UInt8
  mac : Option Mac
  ipOffset : UInt16
  deriving DecidableEq

/-- `MANAGEMENT_PORTS` and `ROUTER_LOCAL_IPS`. -/
structure Maps where
  managementPorts : HashMap UInt16 UInt8
  routerLocalIps : HashMap RouterIpKey UInt8

/-- The MAC address at `i`. -/
def macAt (s : Slice) (i : ℕ) : Mac := Vector.ofFn fun j => s.byte (i + j)

/-! ### Control-plane packets -/

def managementPortMatches (maps : Maps) (source destination : UInt16) (direction : UInt8) : Bool :=
  let localPort := if direction = TrafficDirection.ingress then destination else source
  localPort ∈ maps.managementPorts

/-- The TCP header of a control-plane packet starts at `offset`. -/
def managementTcp (maps : Maps) (packet : Slice) (direction : UInt8) (offset : ℕ) : Bool :=
  match (ptrAt packet offset 20).ok with
  | none => false
  | some tcp => managementPortMatches maps (u16At tcp 0) (u16At tcp 2) direction

def managementIpv4 (maps : Maps) (packet : Slice) (direction : UInt8) (offset : ℕ) : Bool :=
  match (ptrAt packet offset 20).ok with
  | none => false
  | some ip =>
    let ihl := (ip.byte 0 &&& 0x0f).toNat * 4
    if ip.byte 9 ≠ 6 ∨ ihl < 20 then false
    else if u16At ip 6 &&& 0x1fff ≠ 0 then false
    else if !managementTcp maps packet direction (offset + ihl) then false
    else
      let localIp := if direction = TrafficDirection.ingress then u32At ip 16 else u32At ip 12
      (⟨#v[localIp, 0, 0, 0], IpVersion.v4⟩ : RouterIpKey) ∈ maps.routerLocalIps

def managementIpv6 (maps : Maps) (packet : Slice) (direction : UInt8) (offset : ℕ) : Bool :=
  match (ptrAt packet offset 40).ok with
  | none => false
  | some ip =>
    if ip.byte 6 ≠ 6 then false
    else if !managementTcp maps packet direction (offset + 40) then false
    else
      let words := if direction = TrafficDirection.ingress then 24 else 8
      (⟨Vector.ofFn fun j => u32At ip (words + 4 * j), IpVersion.v6⟩ : RouterIpKey) ∈
        maps.routerLocalIps

/-- The protocol behind a PPPoE session header and the offset behind it. -/
def unwrapPppoe (packet : Slice) (ethProto : UInt16) (offset : ℕ) : Option (UInt16 × ℕ) :=
  if ethProto = ethPPppSes then do
    let pppoe ← (ptrAt packet offset 8).ok
    if u16At pppoe 6 = pppProtoIp then some (ethPIp, offset + 8)
    else if u16At pppoe 6 = pppProtoIpv6 then some (ethPIpv6, offset + 8)
    else none
  else some (ethProto, offset)

def isManagementPacket (maps : Maps) (packet : Slice) (direction : UInt8) (ethProto : UInt16)
    (offset : ℕ) : Bool :=
  match unwrapPppoe packet ethProto offset with
  | none => false
  | some (ethProto, offset) =>
    if ethProto = ethPIp then managementIpv4 maps packet direction offset
    else if ethProto = ethPIpv6 then managementIpv6 maps packet direction offset
    else false

/-! ### The three guesses -/

/-- The loop over the tags, with the turns that are left. -/
def skipTags (packet : Slice) : ℕ → UInt16 → ℕ → UInt16 × ℕ
  | 0, ethProto, offset => (ethProto, offset)
  | n + 1, ethProto, offset =>
    if ethProto = ethP8021q ∨ ethProto = ethP8021ad then
      match (ptrAt packet offset 4).ok with
      | some vlan => skipTags packet n (u16At vlan 2) (offset + 4)
      | none => (ethProto, offset)
    else (ethProto, offset)

def pppVersion (pppProto : UInt16) : Option UInt8 :=
  if pppProto = pppProtoIp then some IpVersion.v4
  else if pppProto = pppProtoIpv6 then some IpVersion.v6
  else none

def resolveIpVersionFromEth (packet : Slice) (ethProto : UInt16) (payloadOffset : ℕ) : Option UInt8 :=
  if ethProto = ethPIp then some IpVersion.v4
  else if ethProto = ethPIpv6 then some IpVersion.v6
  else if ethProto = ethPPppSes then
    (ptrAt packet payloadOffset 8).ok.bind fun pppoe => pppVersion (u16At pppoe 6)
  else none

def resolveIpVersionFromL3 (packet : Slice) (offset : ℕ) : Option UInt8 :=
  (ptrAt packet offset 2).ok.bind fun first2 =>
    let version := (u16At first2 0 >>> 12).toUInt8
    if version = 4 then some IpVersion.v4 else if version = 6 then some IpVersion.v6 else none

def resolveIpVersionFromPpp (packet : Slice) : Option UInt8 :=
  (ptrAt packet 0 2).ok.bind fun proto =>
    (pppVersion (u16At proto 0)).or (resolveIpVersionFromL3 packet 2)

/-- The EtherType of an Ethernet frame behind its tags, the offset behind them, and the IP version. -/
def ethernetVersion (packet : Slice) : Option (UInt16 × ℕ × UInt8) :=
  (ptrAt packet 0 14).ok.bind fun eth =>
    let (ethProto, offset) := skipTags packet 2 (u16At eth 12) 14
    (resolveIpVersionFromEth packet ethProto offset).map fun ipVersion =>
      (ethProto, offset, ipVersion)

/-- The host that a frame is counted for: groups are told by the destination. -/
def frameMac (packet : Slice) (direction : UInt8) : Mac :=
  if direction = TrafficDirection.ingress then
    if packet.byte 0 &&& 0x01 ≠ 0 then macAt packet 0 else macAt packet 6
  else macAt packet 0

/-- The EtherType of an IP version. -/
def protocolOf (ipVersion : UInt8) : UInt16 := if ipVersion = IpVersion.v4 then ethPIp else ethPIpv6

def resolvePacketMeta (maps : Maps) (packet : Slice) (direction : UInt8) : Option PacketMeta :=
  match ethernetVersion packet with
  | some (ethProto, offset, ipVersion) =>
    if isManagementPacket maps packet direction ethProto offset then none
    else
      let ipOffset := if ethProto = ethPPppSes then offset + 8 else offset
      some ⟨ipVersion, some (frameMac packet direction), UInt16.ofNat ipOffset⟩
  | none =>
    match resolveIpVersionFromL3 packet 0 with
    | some ipVersion =>
      if isManagementPacket maps packet direction (protocolOf ipVersion) 0 then none
      else some ⟨ipVersion, none, 0⟩
    | none =>
      match resolveIpVersionFromPpp packet with
      | some ipVersion =>
        if isManagementPacket maps packet direction (protocolOf ipVersion) 2 then none
        else some ⟨ipVersion, none, 2⟩
      | none => none

/-- The counters that a packet raises: that of the interface, and that of a device if the devices of the
interface are tracked. -/
def countedKeys (maps : Maps) (tracked : Bool) (ifindex : UInt32) (packet : Slice) (direction : UInt8) :
    Option (InterfaceTrafficKey × Option DeviceTrafficKey) :=
  (resolvePacketMeta maps packet direction).map fun packetMeta =>
    (⟨ifindex, packetMeta.ipVersion, direction⟩,
      if tracked then
        packetMeta.mac.map fun mac => ⟨ifindex, mac, packetMeta.ipVersion, direction⟩
      else none)

/-! ### What a frame carries -/

def IsTag (ethProto : UInt16) : Prop := ethProto = ethP8021q ∨ ethProto = ethP8021ad

/-- **Tags**: `n` complete tags lead from one EtherType and the offset behind it to another. -/
inductive Tags (frame : Slice) : UInt16 → ℕ → ℕ → UInt16 → ℕ → Prop where
  | nil (ethProto : UInt16) (offset : ℕ) : Tags frame ethProto offset 0 ethProto offset
  | cons {ethProto ethProto' : UInt16} {offset offset' n : ℕ} (tag : IsTag ethProto)
      (complete : offset + 4 ≤ frame.len)
      (rest : Tags frame (u16At frame (offset + 2)) (offset + 4) n ethProto' offset') :
      Tags frame ethProto offset (n + 1) ethProto' offset'

/-- The IP version behind an EtherType, and the offset of the IP header. -/
inductive Carries (frame : Slice) (ethProto : UInt16) (offset : ℕ) : UInt8 → ℕ → Prop where
  | ipv4 (h : ethProto = ethPIp) : Carries frame ethProto offset IpVersion.v4 offset
  | ipv6 (h : ethProto = ethPIpv6) : Carries frame ethProto offset IpVersion.v6 offset
  | pppIpv4 (h : ethProto = ethPPppSes) (complete : offset + 8 ≤ frame.len)
      (ppp : u16At frame (offset + 6) = pppProtoIp) :
      Carries frame ethProto offset IpVersion.v4 (offset + 8)
  | pppIpv6 (h : ethProto = ethPPppSes) (complete : offset + 8 ≤ frame.len)
      (ppp : u16At frame (offset + 6) = pppProtoIpv6) :
      Carries frame ethProto offset IpVersion.v6 (offset + 8)

/-- **The frame carries IP**, behind at most two tags. -/
def IsIp (frame : Slice) (ipVersion : UInt8) (ipOffset : ℕ) : Prop :=
  ∃ n ≤ 2, ∃ ethProto offset, Tags frame (u16At frame 12) 14 n ethProto offset ∧
    Carries frame ethProto offset ipVersion ipOffset

/-! ### Headers -/

variable {frame : Slice} {ethProto ethProto' : UInt16} {offset offset' size m n i : ℕ}

theorem ok_ptrAt : (ptrAt frame offset size).ok =
    if offset + size ≤ frame.len then some (frame.cut offset (offset + size)) else none := by
  unfold ptrAt
  by_cases h : offset + size ≤ frame.len
  · rw [reject_eq (by omega), if_pos h]
    rfl
  · rw [reject, if_pos (by omega), if_neg h]
    rfl

/-- A field of a header is that of the frame. -/
theorem u16At_header (h : i + 2 ≤ size) :
    u16At (frame.cut offset (offset + size)) i = u16At frame (offset + i) :=
  u16At_cut (by omega)

/-! ### Tags -/

/-- The loop passes over all tags, if there are no more than its turns. -/
theorem skipTags_eq (h : Tags frame ethProto offset m ethProto' offset') (hle : m ≤ n)
    (hstop : ¬ IsTag ethProto') : skipTags frame n ethProto offset = (ethProto', offset') := by
  induction h generalizing n with
  | nil ethProto offset =>
    cases n with
    | zero => rfl
    | succ n => exact if_neg hstop
  | @cons ethProto _ offset _ _ tag complete rest ih =>
    cases n with
    | zero => omega
    | succ n =>
      have htag : ethProto = ethP8021q ∨ ethProto = ethP8021ad := tag
      unfold skipTags
      rw [if_pos htag, ok_ptrAt, if_pos complete]
      dsimp only
      rw [u16At_header (by omega)]
      exact ih (by omega) hstop

theorem tags_skipTags (frame : Slice) (n : ℕ) (ethProto : UInt16) (offset : ℕ) :
    ∃ m ≤ n, Tags frame ethProto offset m (skipTags frame n ethProto offset).1
      (skipTags frame n ethProto offset).2 := by
  induction n generalizing ethProto offset with
  | zero => exact ⟨0, le_refl 0, .nil ethProto offset⟩
  | succ n ih =>
    unfold skipTags
    by_cases htag : ethProto = ethP8021q ∨ ethProto = ethP8021ad
    · by_cases hcomplete : offset + 4 ≤ frame.len
      · rw [if_pos htag, ok_ptrAt, if_pos hcomplete]
        dsimp only
        rw [u16At_header (by omega)]
        obtain ⟨m, hm, htags⟩ := ih (u16At frame (offset + 2)) (offset + 4)
        exact ⟨m + 1, by omega, .cons htag hcomplete htags⟩
      · rw [if_pos htag, ok_ptrAt, if_neg hcomplete]
        exact ⟨0, Nat.zero_le _, .nil ethProto offset⟩
    · rw [if_neg htag]
      exact ⟨0, Nat.zero_le _, .nil ethProto offset⟩

/-- Every tag is four bytes long. -/
theorem Tags.offset_eq (h : Tags frame ethProto offset m ethProto' offset') :
    offset' = offset + 4 * m := by
  induction h with
  | nil => rfl
  | cons _ _ _ ih => omega

/-! ### EtherTypes -/

variable {ipVersion : UInt8} {ipOffset : ℕ}

theorem Carries.not_tag (h : Carries frame ethProto offset ipVersion ipOffset) : ¬ IsTag ethProto := by
  unfold IsTag
  cases h with
  | ipv4 h => rw [h]; decide
  | ipv6 h => rw [h]; decide
  | pppIpv4 h => rw [h]; decide
  | pppIpv6 h => rw [h]; decide

theorem Carries.ipOffset_eq (h : Carries frame ethProto offset ipVersion ipOffset) :
    ipOffset = if ethProto = ethPPppSes then offset + 8 else offset := by
  cases h with
  | ipv4 h => rw [h]; rfl
  | ipv6 h => rw [h]; rfl
  | pppIpv4 h => rw [if_pos h]
  | pppIpv6 h => rw [if_pos h]

/-- **The IP version is that of the protocol behind the EtherType.** -/
theorem resolveIpVersionFromEth_eq : resolveIpVersionFromEth frame ethProto offset = some ipVersion ↔
    ∃ ipOffset, Carries frame ethProto offset ipVersion ipOffset := by
  unfold resolveIpVersionFromEth
  constructor
  · intro h
    split_ifs at h with h4 h6 hppp
    · cases h
      exact ⟨_, .ipv4 h4⟩
    · cases h
      exact ⟨_, .ipv6 h6⟩
    · rw [ok_ptrAt] at h
      split_ifs at h with hlen
      · rw [Option.bind_some, u16At_header (by omega)] at h
        unfold pppVersion at h
        split_ifs at h with hip hipv6
        · cases h
          exact ⟨_, .pppIpv4 hppp hlen hip⟩
        · cases h
          exact ⟨_, .pppIpv6 hppp hlen hipv6⟩
      · cases h
  · rintro ⟨ipOffset, h⟩
    have hsession : ∀ pppProto, offset + 8 ≤ frame.len → u16At frame (offset + 6) = pppProto →
        ((ptrAt frame offset 8).ok.bind fun pppoe => pppVersion (u16At pppoe 6)) =
          pppVersion pppProto := by
      intro pppProto hlen hproto
      rw [ok_ptrAt, if_pos hlen, Option.bind_some, u16At_header (by omega), hproto]
    cases h with
    | ipv4 h => rw [h]; rfl
    | ipv6 h => rw [h]; rfl
    | pppIpv4 h hlen hproto =>
      rw [if_neg (by rw [h]; decide), if_neg (by rw [h]; decide), if_pos h]
      exact hsession _ hlen hproto
    | pppIpv6 h hlen hproto =>
      rw [if_neg (by rw [h]; decide), if_neg (by rw [h]; decide), if_pos h]
      exact hsession _ hlen hproto

/-- **The first guess is right about frames**: it finds a version exactly if the frame carries IP. -/
theorem ethernetVersion_eq_some (hlen : 14 ≤ frame.len) :
    ethernetVersion frame = some (ethProto, offset, ipVersion) ↔
      ∃ n ≤ 2, ∃ ipOffset, Tags frame (u16At frame 12) 14 n ethProto offset ∧
        Carries frame ethProto offset ipVersion ipOffset := by
  unfold ethernetVersion
  rw [ok_ptrAt, if_pos (by omega), Option.bind_some, u16At_header (by omega), Nat.zero_add]
  dsimp only
  rw [Option.map_eq_some_iff]
  constructor
  · rintro ⟨v, hv, heq⟩
    obtain ⟨n, hn, htags⟩ := tags_skipTags frame 2 (u16At frame 12) 14
    obtain ⟨ipOffset, hcarries⟩ := resolveIpVersionFromEth_eq.mp hv
    rw [Prod.mk.injEq, Prod.mk.injEq] at heq
    obtain ⟨rfl, rfl, rfl⟩ := heq
    exact ⟨n, hn, ipOffset, htags, hcarries⟩
  · rintro ⟨n, hn, ipOffset, htags, hcarries⟩
    rw [skipTags_eq htags hn hcarries.not_tag]
    exact ⟨ipVersion, resolveIpVersionFromEth_eq.mpr ⟨ipOffset, hcarries⟩, rfl⟩

theorem ethernetVersion_eq_none (hlen : 14 ≤ frame.len) :
    ethernetVersion frame = none ↔ ¬ ∃ ipVersion ipOffset, IsIp frame ipVersion ipOffset := by
  constructor
  · rintro hnone ⟨ipVersion, ipOffset, n, hn, ethProto, offset, htags, hcarries⟩
    have hsome := (ethernetVersion_eq_some hlen).mpr ⟨n, hn, ipOffset, htags, hcarries⟩
    rw [hnone] at hsome
    cases hsome
  · intro hno
    cases h : ethernetVersion frame with
    | none => rfl
    | some found =>
      obtain ⟨ethProto, offset, ipVersion⟩ := found
      obtain ⟨n, hn, ipOffset, htags, hcarries⟩ := (ethernetVersion_eq_some hlen).mp h
      exact absurd ⟨ipVersion, ipOffset, n, hn, ethProto, offset, htags, hcarries⟩ hno

/-! ### The other guesses -/

/-- The byte passes for the first one of an IP header. -/
def StartsIp (b : UInt8) : Prop := b >>> 4 = 4 ∨ b >>> 4 = 6

/-- **The first three bytes pass for those of an IP packet or of a PPP frame.** In a frame they belong
to the MAC address of the destination. -/
def PassesForRaw (frame : Slice) : Prop :=
  StartsIp (frame.byte 0) ∨ u16At frame 0 = pppProtoIp ∨ u16At frame 0 = pppProtoIpv6 ∨
    StartsIp (frame.byte 2)

theorem resolveIpVersionFromL3_isSome (h : offset + 2 ≤ frame.len) :
    (resolveIpVersionFromL3 frame offset).isSome ↔ StartsIp (frame.byte offset) := by
  have hversion : (u16At frame offset >>> 12).toUInt8 = frame.byte offset >>> 4 := by
    refine UInt8.toNat_inj.mp ?_
    rw [UInt16.toNat_toUInt8, u16At_shiftRight]
    exact Nat.mod_eq_of_lt (UInt8.toNat_lt _)
  unfold resolveIpVersionFromL3 StartsIp
  rw [ok_ptrAt, if_pos h, Option.bind_some, u16At_header (by omega), Nat.add_zero, hversion]
  dsimp only
  split_ifs with h4 h6
  · exact ⟨fun _ => Or.inl h4, fun _ => rfl⟩
  · exact ⟨fun _ => Or.inr h6, fun _ => rfl⟩
  · exact ⟨fun hnone => absurd hnone Bool.false_ne_true, fun hor => (hor.elim h4 h6).elim⟩

theorem resolveIpVersionFromPpp_isSome (hlen : 14 ≤ frame.len) :
    (resolveIpVersionFromPpp frame).isSome ↔
      u16At frame 0 = pppProtoIp ∨ u16At frame 0 = pppProtoIpv6 ∨ StartsIp (frame.byte 2) := by
  unfold resolveIpVersionFromPpp
  rw [ok_ptrAt, if_pos (by omega), Option.bind_some, u16At_header (by omega), Nat.add_zero,
    Option.isSome_or, Bool.or_eq_true, resolveIpVersionFromL3_isSome (by omega), ← or_assoc]
  refine or_congr ?_ Iff.rfl
  unfold pppVersion
  split_ifs with hip hipv6
  · exact ⟨fun _ => Or.inl hip, fun _ => rfl⟩
  · exact ⟨fun _ => Or.inr hipv6, fun _ => rfl⟩
  · exact ⟨fun hnone => absurd hnone Bool.false_ne_true, fun hor => (hor.elim hip hipv6).elim⟩

/-! ### Classification -/

/-- The host that a frame belongs to: its destination when it is sent or goes to a group, its source
else. -/
def hostMac (frame : Slice) (direction : UInt8) : Mac :=
  if direction ≠ TrafficDirection.ingress ∨ frame.byte 0 &&& 0x01 ≠ 0 then macAt frame 0
  else macAt frame 6

/-- **The frame is classified by its EtherType**: as IP exactly if it carries IP, then with its version,
offset and host; and only IP is counted. -/
structure Classified (maps : Maps) (frame : Slice) (direction : UInt8) : Prop where
  some_iff : (resolvePacketMeta maps frame direction).isSome ↔
    ∃ ipVersion ipOffset, IsIp frame ipVersion ipOffset
  exact : ∀ packetMeta, resolvePacketMeta maps frame direction = some packetMeta →
    IsIp frame packetMeta.ipVersion packetMeta.ipOffset.toNat ∧
      packetMeta.mac = some (hostMac frame direction)
  uncounted : (¬ ∃ ipVersion ipOffset, IsIp frame ipVersion ipOffset) →
    ∀ tracked ifindex, countedKeys maps tracked ifindex frame direction = none

theorem frameMac_eq (frame : Slice) (direction : UInt8) :
    frameMac frame direction = hostMac frame direction := by
  unfold frameMac hostMac
  by_cases h : direction = TrafficDirection.ingress
  · rw [if_pos h]
    simp only [h, ne_eq, not_true_eq_false, false_or]
  · rw [if_neg h, if_pos (Or.inl h)]

section Free
variable {maps : Maps} {direction : UInt8} (hlen : 14 ≤ frame.len)
  (hfree : ∀ ethProto offset, isManagementPacket maps frame direction ethProto offset = false)

include hlen hfree

/-- A frame that carries IP. -/
theorem resolvePacketMeta_of_isIp (h : IsIp frame ipVersion ipOffset) :
    resolvePacketMeta maps frame direction =
      some ⟨ipVersion, some (hostMac frame direction), UInt16.ofNat ipOffset⟩ := by
  obtain ⟨n, hn, ethProto, offset, htags, hcarries⟩ := h
  unfold resolvePacketMeta
  rw [(ethernetVersion_eq_some hlen).mpr ⟨n, hn, ipOffset, htags, hcarries⟩]
  dsimp only
  rw [hfree, if_neg Bool.false_ne_true, frameMac_eq, ← hcarries.ipOffset_eq]

/-- A frame that does not is taken for something else if its first bytes pass for it. -/
theorem resolvePacketMeta_isSome (h : ¬ ∃ ipVersion ipOffset, IsIp frame ipVersion ipOffset) :
    (resolvePacketMeta maps frame direction).isSome ↔ PassesForRaw frame := by
  have hl3 : (resolveIpVersionFromL3 frame 0).isSome ↔ StartsIp (frame.byte 0) :=
    resolveIpVersionFromL3_isSome (by omega)
  have hppp := resolveIpVersionFromPpp_isSome hlen
  unfold PassesForRaw
  rw [← hl3, ← hppp]
  unfold resolvePacketMeta
  rw [(ethernetVersion_eq_none hlen).mpr h]
  cases resolveIpVersionFromL3 frame 0 with
  | some ipVersion => simp [hfree]
  | none => cases resolveIpVersionFromPpp frame with
    | some ipVersion => simp [hfree]
    | none => simp

/-- **Frames are classified by their EtherType exactly if they carry IP, or their first three bytes do
not pass for those of a packet without an Ethernet header.** -/
theorem classified_iff : Classified maps frame direction ↔
    (∃ ipVersion ipOffset, IsIp frame ipVersion ipOffset) ∨ ¬ PassesForRaw frame := by
  by_cases hip : ∃ ipVersion ipOffset, IsIp frame ipVersion ipOffset
  · refine ⟨fun _ => Or.inl hip, fun _ => ?_⟩
    obtain ⟨ipVersion, ipOffset, h⟩ := hip
    have hmeta := resolvePacketMeta_of_isIp hlen hfree h
    refine ⟨⟨fun _ => ⟨ipVersion, ipOffset, h⟩, fun _ => by rw [hmeta]; rfl⟩, fun packetMeta heq => ?_,
      fun hno => absurd ⟨ipVersion, ipOffset, h⟩ hno⟩
    obtain rfl := Option.some.inj (hmeta.symm.trans heq)
    -- the offset fits into 16 bits
    have hsmall : (UInt16.ofNat ipOffset).toNat = ipOffset := by
      obtain ⟨n, hn, ethProto, offset, htags, hcarries⟩ := h
      have hoffset := htags.offset_eq
      have hbound : ipOffset ≤ offset + 8 := by
        rw [hcarries.ipOffset_eq]
        split_ifs <;> omega
      rw [UInt16.toNat_ofNat']
      omega
    dsimp only
    rw [hsmall]
    exact ⟨h, rfl⟩
  · have hsome := resolvePacketMeta_isSome hlen hfree hip
    constructor
    · intro h
      exact Or.inr fun hraw => hip (h.some_iff.mp (hsome.mpr hraw))
    · intro h
      have hnone : resolvePacketMeta maps frame direction = none := by
        rw [← Option.not_isSome_iff_eq_none, hsome]
        exact h.resolve_left hip
      refine ⟨?_, fun packetMeta heq => ?_, fun _ tracked ifindex => ?_⟩
      · rw [hnone]
        exact ⟨fun h => absurd h Bool.false_ne_true, fun h => absurd h hip⟩
      · rw [hnone] at heq
        cases heq
      · unfold countedKeys
        rw [hnone]
        rfl

end Free

/-! ### An ARP frame -/

/-- No port is a management port. -/
def noManagement : Maps := ⟨∅, ∅⟩

theorem isManagementPacket_noManagement (packet : Slice) (direction : UInt8) (ethProto : UInt16)
    (offset : ℕ) : isManagementPacket noManagement packet direction ethProto offset = false := by
  have hport : ∀ source destination, managementPortMatches noManagement source destination direction =
      false := by
    intro source destination
    unfold managementPortMatches
    exact decide_eq_false (AList.notMem_empty _)
  have htcp : ∀ offset, managementTcp noManagement packet direction offset = false := by
    intro offset
    unfold managementTcp
    split
    · rfl
    · exact hport _ _
  have hip : ∀ offset, managementIpv4 noManagement packet direction offset = false ∧
      managementIpv6 noManagement packet direction offset = false := by
    intro offset
    unfold managementIpv4 managementIpv6
    simp only [htcp, Bool.not_false, if_true]
    constructor
    · split
      · rfl
      · split_ifs <;> rfl
    · split
      · rfl
      · split_ifs <;> rfl
  unfold isManagementPacket
  split
  · rfl
  · rw [(hip _).1, (hip _).2]
    split_ifs <;> rfl

/-- An ARP reply to 44:85:00:00:00:01, without its padding. -/
def arpReply : Slice where
  bytes := [0x44, 0x85, 0, 0, 0, 1, 2, 0, 0, 0, 0, 9, 0x08, 0x06,
    0, 1, 0x08, 0, 6, 4, 0, 2, 2, 0, 0, 0, 0, 9, 192, 168, 1, 1, 0x44, 0x85, 0, 0, 0, 1, 192, 168, 1, 20]
  short := by decide

/-- **An ARP frame is counted as IPv4**, since the MAC address of its destination starts like an IPv4
header. -/
theorem arp_counted :
    countedKeys noManagement true 3 arpReply TrafficDirection.ingress =
      some (⟨3, IpVersion.v4, TrafficDirection.ingress⟩, none) ∧
    u16At arpReply 12 = 0x0806 ∧
    ¬ Classified noManagement arpReply TrafficDirection.ingress := by
  have hcounted : countedKeys noManagement true 3 arpReply TrafficDirection.ingress =
      some (⟨3, IpVersion.v4, TrafficDirection.ingress⟩, none) := by decide
  refine ⟨hcounted, by decide, fun h => ?_⟩
  have hnone := h.uncounted ((ethernetVersion_eq_none (by decide)).mp (by decide)) true 3
  rw [hcounted] at hnone
  cases hnone

/-- An IPv4 frame behind a tag. -/
def taggedFrame : Slice where
  bytes := [0x44, 0x85, 0, 0, 0, 1, 2, 0, 0, 0, 0, 9, 0x81, 0, 0, 5, 0x08, 0, 0x45, 0]
  short := by decide

theorem classified_iff_taggedFrame :
    Classified noManagement taggedFrame TrafficDirection.ingress := by
  refine (classified_iff (by decide) fun ethProto offset =>
    isManagementPacket_noManagement taggedFrame _ ethProto offset).mpr (Or.inl ?_)
  exact ⟨IpVersion.v4, 18, 1, by decide, ethPIp, 18,
    .cons (Or.inl rfl) (by decide) (.nil _ _), .ipv4 rfl⟩

end BandixPlus.Ebpf.Framing
