import BandixPlus.Common
import BandixPlus.Dns.Packet

/-! # The DNS filter of the kernel

`is_dns_packet` of the eBPF program decides which packets are sent to userspace. The packet lies
linearly in the socket buffer, so that a pointer and `ctx.load` reach all of it; the IP header starts
at an offset of 16 bits, so no addition overflows. `return false` is `absent`.

* `followExtensions_of_kernel`: userspace follows every chain of extension headers that the kernel
  follows, to the same end.
* `accepted_reaches_message`: what the kernel accepts, userspace reads as the same message. -/

namespace BandixPlus.Ebpf.DnsFilter

open BandixPlus.Common BandixPlus.Lib.Checked BandixPlus.Lib.Checked.Outcome
open BandixPlus.Dns.Name BandixPlus.Dns.Packet

def ipprotoTcp : UInt8 := 6
def ipprotoUdp : UInt8 := 17
def dnsPort : UInt16 := 53

/-- `u16::from_be` of the field at `i`, and `u32::from_be`. -/
def u16At (s : Slice) (i : ℕ) : UInt16 := u16FromBe (s.byte i) (s.byte (i + 1))

def u32At (s : Slice) (i : ℕ) : UInt32 :=
  UInt32.ofNat ((((s.byte i).toNat * 256 + (s.byte (i + 1)).toNat) * 256 + (s.byte (i + 2)).toNat) * 256
    + (s.byte (i + 3)).toNat)

/-- `ptr_at` of a header of `size` bytes. -/
def ptrAt (packet : Slice) (offset size : ℕ) : Outcome Slice := do
  reject (packet.len < offset + size)
  .value (packet.cut offset (offset + size))

/-- `packet_u16`. -/
def packetU16 (packet : Slice) (offset : ℕ) : Outcome UInt16 := do
  reject (packet.len < offset + 2)
  .value (u16At packet offset)

/-- Protocol, offset of the transport header and end of an IPv4 packet. -/
def ipv4Payload (packet : Slice) (ipOffset : ℕ) : Outcome (UInt8 × ℕ × ℕ) := do
  let ip ← ptrAt packet ipOffset 20
  let ihlVer := ip.byte 0
  let ihl := (ihlVer &&& 0x0f).toNat * 4
  reject (ihlVer >>> 4 ≠ 4 ∨ ihl < 20 ∨ packet.len < ipOffset + ihl)
  let totalLen := (u16At ip 2).toNat
  reject (totalLen < ihl ∨ packet.len < ipOffset + totalLen)
  reject (u16At ip 6 &&& 0x3fff ≠ 0)
  .value (ip.byte 9, ipOffset + ihl, ipOffset + totalLen)

/-- What follows the extension header at `transportOffset`. -/
def nextExtension (packet : Slice) (ipEnd : ℕ) (extensionLen : UInt8 → ℕ) (transportOffset : ℕ) :
    Outcome (UInt8 × ℕ) := do
  let next ← packet.get transportOffset
  let length ← packet.get (transportOffset + 1)
  reject (extensionLen length < 8 ∨ ipEnd < transportOffset + extensionLen length)
  .value (next, transportOffset + extensionLen length)

/-- The loop `for _ in 0..6`, with the turns that are left. -/
def extensionChain (packet : Slice) (ipEnd : ℕ) : ℕ → UInt8 → ℕ → Outcome (UInt8 × ℕ)
  | 0, protocol, transportOffset => .value (protocol, transportOffset)
  | n + 1, protocol, transportOffset =>
    if protocol = ipprotoUdp ∨ protocol = ipprotoTcp then .value (protocol, transportOffset)
    else if protocol ∈ [44, 50] then .absent
    else if protocol ∈ [0, 43, 60, 135, 139, 140] then do
      let (next, offset) ← nextExtension packet ipEnd (fun l => (l.toNat + 1) * 8) transportOffset
      extensionChain packet ipEnd n next offset
    else if protocol = 51 then do
      let (next, offset) ← nextExtension packet ipEnd (fun l => (l.toNat + 2) * 4) transportOffset
      extensionChain packet ipEnd n next offset
    else .absent

def ipv6Payload (packet : Slice) (ipOffset : ℕ) : Outcome (UInt8 × ℕ × ℕ) := do
  let ip ← ptrAt packet ipOffset 40
  reject (u32At ip 0 >>> 28 ≠ 6 ∨ packet.len < ipOffset + 40)
  let payloadLen := (u16At ip 4).toNat
  let ipEnd := ipOffset + 40 + payloadLen
  reject (packet.len < ipEnd)
  let (protocol, transportOffset) ← extensionChain packet ipEnd 6 (ip.byte 6) (ipOffset + 40)
  reject (protocol ≠ ipprotoUdp ∧ protocol ≠ ipprotoTcp)
  .value (protocol, transportOffset, ipEnd)

/-- The bytes of the DNS message behind a UDP header: their offset and their end. -/
def udpRange (packet : Slice) (transportOffset ipEnd : ℕ) : Outcome (ℕ × ℕ) := do
  let udp ← ptrAt packet transportOffset 8
  reject (u16At udp 0 ≠ dnsPort ∧ u16At udp 2 ≠ dnsPort)
  let udpLen := (u16At udp 4).toNat
  reject (udpLen < 8 + 12 ∨ ipEnd < transportOffset + udpLen)
  .value (transportOffset + 8, transportOffset + udpLen)

def tcpRange (packet : Slice) (transportOffset ipEnd : ℕ) : Outcome (ℕ × ℕ) := do
  let tcp ← ptrAt packet transportOffset 20
  reject (u16At tcp 0 ≠ dnsPort ∧ u16At tcp 2 ≠ dnsPort)
  let tcpHeaderLen := (u16At tcp 12 >>> 12).toNat * 4
  let lengthOffset := transportOffset + tcpHeaderLen
  reject (tcpHeaderLen < 20 ∨ ipEnd < lengthOffset + 2)
  let dnsLen := (← packetU16 packet lengthOffset).toNat
  reject (dnsLen < 12 ∨ ipEnd < lengthOffset + 2 + dnsLen)
  .value (lengthOffset + 2, lengthOffset + 2 + dnsLen)

def ipPayload (packet : Slice) (ipOffset : ℕ) (ipVersion : UInt8) : Outcome (UInt8 × ℕ × ℕ) :=
  if ipVersion = IpVersion.v4 then ipv4Payload packet ipOffset
  else if ipVersion = IpVersion.v6 then ipv6Payload packet ipOffset
  else .absent

/-- `dns_offset` and `dns_end` of `is_dns_packet`. -/
def dnsRange (packet : Slice) (ipOffset : ℕ) (ipVersion : UInt8) : Outcome (ℕ × ℕ) := do
  let (protocol, transportOffset, ipEnd) ← ipPayload packet ipOffset ipVersion
  reject (protocol ≠ ipprotoUdp ∧ protocol ≠ ipprotoTcp)
  if protocol = ipprotoUdp then udpRange packet transportOffset ipEnd
  else tcpRange packet transportOffset ipEnd

/-- The checks of the DNS header. -/
def headerAccepted (packet : Slice) (range : ℕ × ℕ) : Outcome Unit := do
  reject (range.2 < range.1 + 12)
  let flags ← packetU16 packet (range.1 + 2)
  let questionCount ← packetU16 packet (range.1 + 4)
  reject (¬ (0 < questionCount ∧ questionCount ≤ 16 ∧ (flags >>> 11) &&& 0x0f ≤ 5))

def isDnsPacket (packet : Slice) (ipOffset : ℕ) (ipVersion : UInt8) : Bool :=
  match dnsRange packet ipOffset ipVersion >>= headerAccepted packet with
  | .value _ => true
  | _ => false

/-! ### Fields -/

variable {packet : Slice} {offset size i : ℕ}

theorem toNat_u16FromBe (hi lo : UInt8) : (u16FromBe hi lo).toNat = hi.toNat * 256 + lo.toNat := by
  have hhi := hi.toNat_lt
  have hlo := lo.toNat_lt
  unfold u16FromBe
  rw [UInt16.toNat_ofNat']
  omega

/-- The data offset of a TCP header, read as part of a 16-bit field or from its own byte. -/
theorem u16At_shiftRight (s : Slice) (i : ℕ) : (u16At s i >>> 12).toNat = (s.byte i >>> 4).toNat := by
  have hlo := (s.byte (i + 1)).toNat_lt
  have hlong : (u16At s i >>> 12).toNat = (u16At s i).toNat >>> 12 := UInt16.toNat_shiftRight _ _
  have hshort : (s.byte i >>> 4).toNat = (s.byte i).toNat >>> 4 := UInt8.toNat_shiftRight _ _
  rw [hlong, hshort, u16At, toNat_u16FromBe, Nat.shiftRight_eq_div_pow, Nat.shiftRight_eq_div_pow]
  omega

/-- The version of an IPv6 header, read as part of a 32-bit field or from its own byte. -/
theorem u32At_shiftRight (s : Slice) (i : ℕ) : (u32At s i >>> 28).toNat = (s.byte i >>> 4).toNat := by
  have h0 := (s.byte i).toNat_lt
  have h1 := (s.byte (i + 1)).toNat_lt
  have h2 := (s.byte (i + 2)).toNat_lt
  have h3 := (s.byte (i + 3)).toNat_lt
  have hlong : (u32At s i >>> 28).toNat = (u32At s i).toNat >>> 28 := UInt32.toNat_shiftRight _ _
  have hshort : (s.byte i >>> 4).toNat = (s.byte i).toNat >>> 4 := UInt8.toNat_shiftRight _ _
  rw [hlong, hshort, u32At, UInt32.toNat_ofNat', Nat.shiftRight_eq_div_pow,
    Nat.shiftRight_eq_div_pow]
  omega

theorem u16At_cut {e : ℕ} (h : i + 1 < e - offset) :
    u16At (packet.cut offset e) i = u16At packet (offset + i) := by
  unfold u16At
  rw [Slice.byte_cut (by omega), Slice.byte_cut h, Nat.add_assoc]

/-- What userspace reads with a bounds check. -/
theorem readU16_eq (h : offset + 2 ≤ packet.len) : readU16 packet offset = .value (u16At packet offset) :=
  readU16_byte h

theorem ptrAt_eq_value {s : Slice} (h : ptrAt packet offset size = .value s) :
    offset + size ≤ packet.len ∧ s = packet.cut offset (offset + size) := by
  obtain ⟨_, hfit, hs⟩ := bind_eq_value h
  cases hs
  exact ⟨Nat.le_of_not_lt (reject_eq_value hfit), rfl⟩

theorem packetU16_eq_value {v : UInt16} (h : packetU16 packet offset = .value v) :
    offset + 2 ≤ packet.len ∧ v = u16At packet offset := by
  obtain ⟨_, hfit, hv⟩ := bind_eq_value h
  cases hv
  exact ⟨Nat.le_of_not_lt (reject_eq_value hfit), rfl⟩

/-! ### The IP header -/

theorem parseIpv4_of_kernel {protocol : UInt8} {transportOffset ipEnd : ℕ}
    (h : ipv4Payload packet offset = .value (protocol, transportOffset, ipEnd)) :
    ipEnd ≤ packet.len ∧ ∃ source destination, parseIpv4 packet offset =
      .value { source, destination, protocol, transportOffset, packetEnd := ipEnd } := by
  have hlen := packet.len_lt
  obtain ⟨header, hptr, h⟩ := bind_eq_value h
  obtain ⟨hfit, rfl⟩ := ptrAt_eq_value hptr
  obtain ⟨_, hihl, h⟩ := bind_eq_value h
  have hihl := reject_eq_value hihl
  obtain ⟨_, htotal, h⟩ := bind_eq_value h
  have htotal := reject_eq_value htotal
  obtain ⟨_, hfragment, h⟩ := bind_eq_value h
  have hfragment := reject_eq_value hfragment
  cases h
  have hheader : (packet.cut offset (offset + 20)).len = 20 := by
    rw [Slice.len_cut hfit]
    omega
  rw [u16At_cut (by omega)] at htotal hfragment ⊢
  obtain ⟨source, hsource⟩ : ∃ ip, ipv4At (packet.cut offset (offset + 20)) 12 = .value ip :=
    ⟨_, ipv4At_eq (by omega)⟩
  obtain ⟨destination, hdestination⟩ :
      ∃ ip, ipv4At (packet.cut offset (offset + 20)) 16 = .value ip := ⟨_, ipv4At_eq (by omega)⟩
  refine ⟨by omega, source, destination, ?_⟩
  refine bind_value (checkedAdd_eq (by omega)) (bind_value (Slice.getRange_eq (by omega) hfit) ?_)
  refine bind_value (Slice.index_eq (by omega)) (bind_value (reject_eq (by tauto)) ?_)
  refine bind_value (reject_eq (by tauto)) (bind_value (add_eq (by omega)) ?_)
  refine bind_value (readU16_eq (by omega)) (bind_value (reject_eq (by tauto)) ?_)
  refine bind_value (checkedAdd_eq (by omega)) (bind_value (reject_eq (by tauto)) ?_)
  refine bind_value (add_eq (by omega)) (bind_value (readU16_eq (by omega)) ?_)
  refine bind_value (reject_eq hfragment) (bind_value hsource (bind_value hdestination ?_))
  refine bind_value (Slice.index_eq (by omega)) (bind_value (add_eq (by omega)) ?_)
  exact bind_value (add_eq (by omega)) rfl

theorem skipExtension_of_kernel {ipEnd transportOffset : ℕ} {extensionLen : UInt8 → ℕ}
    {r : UInt8 × ℕ} (hend : ipEnd ≤ packet.len)
    (h : nextExtension packet ipEnd extensionLen transportOffset = .value r) :
    skipExtension packet ipEnd extensionLen transportOffset = .value r := by
  have hlen := packet.len_lt
  obtain ⟨next, hnext, h⟩ := bind_eq_value h
  obtain ⟨-, rfl⟩ := Slice.get_eq_value hnext
  obtain ⟨length, hlength, h⟩ := bind_eq_value h
  obtain ⟨hin, rfl⟩ := Slice.get_eq_value hlength
  obtain ⟨_, hfits, h⟩ := bind_eq_value h
  have hfits := reject_eq_value hfits
  cases h
  refine bind_value (within_eq (by omega) (by omega)) (bind_value (Slice.index_eq (by omega)) ?_)
  refine bind_value (add_eq (by omega)) (bind_value (Slice.index_eq (by omega)) ?_)
  refine bind_value (within_eq (by omega) (by omega)) ?_
  exact bind_value (add_eq (by omega)) rfl

/-- **Chains of extension headers.** Userspace goes on for more turns than the kernel, and stops where
the kernel stops. -/
theorem followExtensions_of_kernel {ipEnd n m transportOffset : ℕ} {protocol : UInt8} {r : UInt8 × ℕ}
    (hend : ipEnd ≤ packet.len) (hn : n ≤ m)
    (h : extensionChain packet ipEnd n protocol transportOffset = .value r)
    (hr : r.1 = ipprotoUdp ∨ r.1 = ipprotoTcp) :
    followExtensions packet ipEnd m protocol transportOffset = .value r := by
  have hstop : ∀ m protocol transportOffset, protocol = ipprotoUdp ∨ protocol = ipprotoTcp →
      followExtensions packet ipEnd m protocol transportOffset = .value (protocol, transportOffset) := by
    rintro (_ | m) protocol transportOffset (rfl | rfl) <;> rfl
  induction n generalizing m protocol transportOffset with
  | zero =>
    cases h
    exact hstop m protocol transportOffset hr
  | succ n ih =>
    obtain ⟨m, rfl⟩ : ∃ k, m = k + 1 := ⟨m - 1, by omega⟩
    unfold extensionChain at h
    split at h
    next hp =>
      cases h
      exact hstop (m + 1) protocol transportOffset hp
    next =>
      split at h
      next => cases h
      next hdropped =>
        split at h
        next hp =>
          obtain ⟨r', hnext, h⟩ := bind_eq_value h
          unfold followExtensions
          rw [if_pos hp]
          exact bind_value (skipExtension_of_kernel hend hnext) (ih (by omega) h)
        next hp =>
          split at h
          next hauth =>
            obtain ⟨r', hnext, h⟩ := bind_eq_value h
            unfold followExtensions
            rw [if_neg hp, if_pos hauth]
            exact bind_value (skipExtension_of_kernel hend hnext) (ih (by omega) h)
          next => cases h

theorem parseIpv6_of_kernel {protocol : UInt8} {transportOffset ipEnd : ℕ}
    (h : ipv6Payload packet offset = .value (protocol, transportOffset, ipEnd)) :
    ipEnd ≤ packet.len ∧ ∃ source destination, parseIpv6 packet offset =
      .value { source, destination, protocol, transportOffset, packetEnd := ipEnd } := by
  have hlen := packet.len_lt
  obtain ⟨header, hptr, h⟩ := bind_eq_value h
  obtain ⟨hfit, rfl⟩ := ptrAt_eq_value hptr
  obtain ⟨_, hversion, h⟩ := bind_eq_value h
  have hversion := reject_eq_value hversion
  obtain ⟨_, hend, h⟩ := bind_eq_value h
  have hend := reject_eq_value hend
  obtain ⟨r, hchain, h⟩ := bind_eq_value h
  obtain ⟨_, hprotocol, h⟩ := bind_eq_value h
  have hprotocol := reject_eq_value hprotocol
  cases h
  have hheader : (packet.cut offset (offset + 40)).len = 40 := by
    rw [Slice.len_cut hfit]
    omega
  rw [u16At_cut (by omega)] at hend hchain ⊢
  have hsix : ¬ (packet.cut offset (offset + 40)).byte 0 >>> 4 ≠ 6 := by
    have hshift := u32At_shiftRight (packet.cut offset (offset + 40)) 0
    intro hne
    refine hversion (.inl fun heq => hne (UInt8.toNat_inj.mp ?_))
    rw [← hshift, heq]
    rfl
  have hmin : min (offset + 40 + (u16At packet (offset + 4)).toNat) packet.len =
      offset + 40 + (u16At packet (offset + 4)).toNat := by omega
  obtain ⟨source, hsource⟩ : ∃ ip, ipv6Of ((packet.cut offset (offset + 40)).cut 8 24) = .value ip :=
    ⟨_, ipv6Of_eq (by rw [Slice.len_cut (by omega)])⟩
  obtain ⟨destination, hdestination⟩ :
      ∃ ip, ipv6Of ((packet.cut offset (offset + 40)).cut 24 40) = .value ip :=
    ⟨_, ipv6Of_eq (by rw [Slice.len_cut (by omega)])⟩
  refine ⟨by omega, source, destination, ?_⟩
  refine bind_value (checkedAdd_eq (by omega)) (bind_value (Slice.getRange_eq (by omega) hfit) ?_)
  refine bind_value (Slice.index_eq (by omega)) (bind_value (reject_eq hsix) ?_)
  refine bind_value (add_eq (by omega)) (bind_value (readU16_eq (by omega)) ?_)
  refine bind_value (checkedAdd_eq (by omega)) (bind_value (checkedAdd_eq (by omega)) ?_)
  refine bind_value (Slice.indexRange_eq (by omega) (by omega)) (bind_value hsource ?_)
  refine bind_value (Slice.indexRange_eq (by omega) (by omega)) (bind_value hdestination ?_)
  refine bind_value (Slice.index_eq (by omega)) (bind_value (add_eq (by omega)) ?_)
  rw [hmin]
  exact bind_value (followExtensions_of_kernel (by omega) (by omega) hchain (by tauto)) rfl

/-! ### The transport header -/

/-- The transport header is read by userspace, with one port the DNS port, and its message is the
range of the kernel. -/
def SameRange (packet : Slice) (r : Outcome (UInt16 × UInt16 × ℕ × ℕ)) (range : ℕ × ℕ) : Prop :=
  ∃ sourcePort destinationPort dnsLen, r = .value (sourcePort, destinationPort, range.1, dnsLen) ∧
    ¬ (sourcePort ≠ 53 ∧ destinationPort ≠ 53) ∧ range.2 = range.1 + dnsLen ∧ range.2 ≤ packet.len

variable {ipEnd transportOffset : ℕ} {range : ℕ × ℕ}

theorem parseUdp_of_kernel (hend : ipEnd ≤ packet.len)
    (h : udpRange packet transportOffset ipEnd = .value range) :
    SameRange packet (parseUdp packet transportOffset ipEnd) range := by
  have hlen := packet.len_lt
  obtain ⟨header, hptr, h⟩ := bind_eq_value h
  obtain ⟨hfit, rfl⟩ := ptrAt_eq_value hptr
  obtain ⟨_, hport, h⟩ := bind_eq_value h
  have hport := reject_eq_value hport
  obtain ⟨_, hudp, h⟩ := bind_eq_value h
  have hudp := reject_eq_value hudp
  cases h
  rw [u16At_cut (by omega)] at hudp ⊢
  rw [u16At_cut (by omega), u16At_cut (by omega), Nat.add_zero] at hport
  refine ⟨_, _, (u16At packet (transportOffset + 4)).toNat - 8, ?_, hport, ?_, by omega⟩
  · refine bind_value (within_eq (by omega) (by omega)) (bind_value (readU16_eq (by omega)) ?_)
    refine bind_value (add_eq (by omega)) (bind_value (readU16_eq (by omega)) ?_)
    refine bind_value (add_eq (by omega)) (bind_value (readU16_eq (by omega)) ?_)
    refine bind_value (reject_eq (by omega)) (bind_value (within_eq (by omega) (by omega)) ?_)
    exact bind_value (add_eq (by omega)) (bind_value (sub_eq (by omega)) rfl)
  · dsimp only
    omega

theorem parseTcp_of_kernel (hend : ipEnd ≤ packet.len)
    (h : tcpRange packet transportOffset ipEnd = .value range) :
    SameRange packet (parseTcp packet transportOffset ipEnd) range := by
  have hlen := packet.len_lt
  obtain ⟨header, hptr, h⟩ := bind_eq_value h
  obtain ⟨hfit, rfl⟩ := ptrAt_eq_value hptr
  obtain ⟨_, hport, h⟩ := bind_eq_value h
  have hport := reject_eq_value hport
  obtain ⟨_, hheader, h⟩ := bind_eq_value h
  have hheader := reject_eq_value hheader
  obtain ⟨dnsLen, hdns, h⟩ := bind_eq_value h
  obtain ⟨hcount, rfl⟩ := packetU16_eq_value hdns
  obtain ⟨_, hmessage, h⟩ := bind_eq_value h
  have hmessage := reject_eq_value hmessage
  cases h
  rw [u16At_shiftRight, Slice.byte_cut (by omega)] at hheader hcount hmessage ⊢
  rw [u16At_cut (by omega), u16At_cut (by omega), Nat.add_zero] at hport
  refine ⟨_, _, (u16At packet (transportOffset + (packet.byte (transportOffset + 12) >>> 4).toNat * 4)).toNat,
    ?_, hport, rfl, by omega⟩
  refine bind_value (within_eq (by omega) (by omega)) (bind_value (readU16_eq (by omega)) ?_)
  refine bind_value (add_eq (by omega)) (bind_value (readU16_eq (by omega)) ?_)
  refine bind_value (add_eq (by omega)) (bind_value (Slice.index_eq (by omega)) ?_)
  refine bind_value (reject_eq (by omega)) (bind_value (add_eq (by omega)) ?_)
  refine bind_value (within_eq (by omega) (by omega)) (bind_value (add_eq (by omega)) ?_)
  refine bind_value (readU16_eq (by omega)) (bind_value (reject_eq (by omega)) ?_)
  refine bind_value (add_eq (by omega)) (bind_value (within_eq (by omega) (by omega)) ?_)
  exact bind_value (add_eq (by omega)) rfl

/-! ### The whole packet -/

theorem parseIp_of_kernel {ipVersion protocol : UInt8}
    (h : ipPayload packet offset ipVersion = .value (protocol, transportOffset, ipEnd)) :
    ipEnd ≤ packet.len ∧ ∃ source destination, parseIp packet offset ipVersion =
      .value { source, destination, protocol, transportOffset, packetEnd := ipEnd } := by
  unfold ipPayload at h
  unfold parseIp
  split at h
  next h4 =>
    rw [if_pos (show ipVersion = 4 from h4)]
    exact parseIpv4_of_kernel h
  next h4 =>
    split at h
    next h6 =>
      rw [if_neg (show ¬ ipVersion = 4 from h4), if_pos (show ipVersion = 6 from h6)]
      exact parseIpv6_of_kernel h
    next => cases h

theorem locateDns_of_kernel {ipVersion : UInt8} (h : dnsRange packet offset ipVersion = .value range) :
    ∃ p, locateDns packet offset ipVersion = .value p ∧ p.dnsOffset = range.1 ∧
      range.2 = range.1 + p.dnsLen ∧ range.2 ≤ packet.len := by
  obtain ⟨⟨protocol, transportOffset, ipEnd⟩, hip, h⟩ := bind_eq_value h
  obtain ⟨_, hprotocol, h⟩ := bind_eq_value h
  have hprotocol := reject_eq_value hprotocol
  obtain ⟨hend, source, destination, hip⟩ := parseIp_of_kernel hip
  have hrange : SameRange packet (parseTransport packet
      { source, destination, protocol, transportOffset, packetEnd := ipEnd }) range := by
    unfold parseTransport
    dsimp only at h ⊢
    split at h
    next hudp =>
      rw [if_pos (show protocol = 17 from hudp)]
      exact parseUdp_of_kernel hend h
    next hudp =>
      have htcp : protocol = 6 := by
        by_contra hne
        exact hprotocol ⟨hudp, hne⟩
      rw [if_neg (show ¬ protocol = 17 from hudp), if_pos htcp]
      exact parseTcp_of_kernel hend h
  obtain ⟨sourcePort, destinationPort, dnsLen, htransport, hports, hlen, hin⟩ := hrange
  refine ⟨{ sourceIp := source, destinationIp := destination, sourcePort, destinationPort
            dnsOffset := range.1, dnsLen, protocol := if protocol = 17 then "UDP" else "TCP" },
    bind_value hip (bind_value htransport ?_), rfl, hlen, hin⟩
  exact bind_value (reject_eq hports) rfl

theorem headerAccepted_eq_value {u : Unit} (h : headerAccepted packet range = .value u) :
    range.1 + 12 ≤ range.2 ∧ 1 ≤ (u16At packet (range.1 + 4)).toNat ∧
      (u16At packet (range.1 + 4)).toNat ≤ 16 := by
  obtain ⟨_, hlen, h⟩ := bind_eq_value h
  obtain ⟨flags, -, h⟩ := bind_eq_value h
  obtain ⟨questionCount, hcount, h⟩ := bind_eq_value h
  obtain ⟨-, rfl⟩ := packetU16_eq_value hcount
  obtain ⟨hpos, hle, -⟩ := not_not.mp (reject_eq_value h)
  exact ⟨Nat.le_of_not_lt (reject_eq_value hlen), UInt16.lt_iff_toNat_lt.mp hpos,
    UInt16.le_iff_toNat_le.mp hle⟩

theorem parseDnsHeader_eq {dns : Slice} (hlen : 12 ≤ dns.len) (hpos : 1 ≤ (u16At dns 4).toNat)
    (hle : (u16At dns 4).toNat ≤ 16) :
    parseDnsHeader dns = .value
      { transactionId := u16At dns 0
        flags := u16At dns 2
        questionCount := (u16At dns 4).toNat
        answerCount := (u16At dns 6).toNat } := by
  refine bind_value (reject_eq (by omega)) (bind_value (readU16_eq (by omega)) ?_)
  refine bind_value (readU16_eq (by omega)) (bind_value (readU16_eq (by omega)) ?_)
  exact bind_value (reject_eq (by omega)) (bind_value (readU16_eq (by omega)) rfl)

/-- **What the kernel accepts reaches the DNS message.** Userspace passes all its checks of the IP,
extension, transport and DNS headers, and cuts out the bytes that the kernel took for the message; what
is left to refuse are the names, questions and answers in them. -/
theorem accepted_reaches_message (packet : Slice) (ipOffset : ℕ) (ipVersion : UInt8)
    (h : isDnsPacket packet ipOffset ipVersion = true) :
    ∃ dnsOffset dnsEnd p header,
      dnsRange packet ipOffset ipVersion = .value (dnsOffset, dnsEnd) ∧
      locateDns packet ipOffset ipVersion = .value p ∧
      (p.dnsOffset = dnsOffset ∧ p.dnsOffset + p.dnsLen = dnsEnd) ∧
      parseDnsPacket packet ipOffset ipVersion =
        parseDnsMessage (packet.cut dnsOffset dnsEnd) p.sourceIp p.destinationIp p.sourcePort
          p.destinationPort p.protocol ∧
      parseDnsHeader (packet.cut dnsOffset dnsEnd) = .value header ∧
      (1 ≤ header.questionCount ∧ header.questionCount ≤ 16) ∧
      parseDnsPacket packet ipOffset ipVersion =
        parseDnsSections (packet.cut dnsOffset dnsEnd) header p.sourceIp p.destinationIp p.sourcePort
          p.destinationPort p.protocol := by
  have hshort := packet.len_lt
  unfold isDnsPacket at h
  split at h
  next u hu =>
    obtain ⟨⟨dnsOffset, dnsEnd⟩, hrange, haccepted⟩ := bind_eq_value hu
    obtain ⟨hmin, hpos, hle⟩ := headerAccepted_eq_value haccepted
    obtain ⟨p, hp, hoffset, hend, hin⟩ := locateDns_of_kernel hrange
    dsimp only at hmin hpos hle hoffset hend hin
    have hlen : (packet.cut dnsOffset dnsEnd).len = dnsEnd - dnsOffset := Slice.len_cut hin
    rw [← u16At_cut (e := dnsEnd) (by omega)] at hpos hle
    have hheader := parseDnsHeader_eq (by omega) hpos hle
    have hmessage : parseDnsPacket packet ipOffset ipVersion =
        parseDnsMessage (packet.cut dnsOffset dnsEnd) p.sourceIp p.destinationIp p.sourcePort
          p.destinationPort p.protocol := by
      refine bind_value hp (bind_value (checkedAdd_eq (by omega)) ?_)
      rw [hoffset, ← hend]
      exact bind_value (Slice.getRange_eq (by omega) hin) rfl
    refine ⟨dnsOffset, dnsEnd, p, _, hrange, hp, ⟨hoffset, by omega⟩, hmessage, hheader,
      ⟨hpos, hle⟩, ?_⟩
    rw [hmessage]
    exact bind_value hheader rfl
  next => cases h

/-- A query for the root name over UDP. -/
def rootQuery : Slice where
  bytes := [0x45, 0, 0, 45, 0, 1, 0, 0, 64, 17, 0, 0, 192, 168, 9, 10, 116, 212, 73, 23,
    0xcf, 0xdd, 0, 53, 0, 25, 0, 0,
    0x12, 0x34, 1, 0, 0, 1, 0, 0, 0, 0, 0, 0, 0, 0, 2, 0, 1]
  short := by decide

theorem accepted_reaches_message_rootQuery :
    ∃ dnsOffset dnsEnd p header,
      dnsRange rootQuery 0 4 = .value (dnsOffset, dnsEnd) ∧
      locateDns rootQuery 0 4 = .value p ∧
      (p.dnsOffset = dnsOffset ∧ p.dnsOffset + p.dnsLen = dnsEnd) ∧
      parseDnsPacket rootQuery 0 4 =
        parseDnsMessage (rootQuery.cut dnsOffset dnsEnd) p.sourceIp p.destinationIp p.sourcePort
          p.destinationPort p.protocol ∧
      parseDnsHeader (rootQuery.cut dnsOffset dnsEnd) = .value header ∧
      (1 ≤ header.questionCount ∧ header.questionCount ≤ 16) ∧
      parseDnsPacket rootQuery 0 4 =
        parseDnsSections (rootQuery.cut dnsOffset dnsEnd) header p.sourceIp p.destinationIp
          p.sourcePort p.destinationPort p.protocol :=
  accepted_reaches_message rootQuery 0 4 (by decide)

end BandixPlus.Ebpf.DnsFilter
