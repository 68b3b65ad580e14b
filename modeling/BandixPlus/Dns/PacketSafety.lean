import BandixPlus.Dns.Packet

/-! # Hostile packets

No captured packet makes the userspace code panic. Every function is shown to stay in range, given
what the ones before it have checked.

* `meets_parseIpv4`, `meets_parseIpv6`: the transport header and the end of the packet lie in it.
* `meets_parseDnsMessage`: names, questions, answers and the strings of a TXT record.
* `packet_never_panics`: the whole of it. -/

namespace BandixPlus.Dns.PacketSafety

open BandixPlus.Lib.Checked BandixPlus.Lib.Checked.Outcome BandixPlus.Dns.Name BandixPlus.Dns.Packet
open BandixPlus.Net.Addresses (IpAddr)
open BandixPlus.Net.Text (fromUtf8Lossy)

variable {packet dns : Slice} {offset : ℕ}

/-! ### The IP header -/

theorem meets_ipv4At {s : Slice} {i : ℕ} (h : i + 4 ≤ s.len) : (ipv4At s i).Meets fun _ => True := by
  unfold ipv4At
  refine (Slice.meets_index (by omega)).bind fun a _ => (Slice.meets_index (by omega)).bind fun b _ => ?_
  refine (Slice.meets_index (by omega)).bind fun c _ => (Slice.meets_index (by omega)).bind fun d _ => ?_
  trivial

theorem meets_ipv6Of (s : Slice) : (ipv6Of s).Meets fun _ => True := by
  unfold ipv6Of
  split <;> trivial

/-- The transport header starts, and the packet ends, within the captured bytes. -/
structure InPacket (packet : Slice) (ip : IpPayload) : Prop where
  transport : ip.transportOffset ≤ packet.len
  packetEnd : ip.packetEnd ≤ packet.len

theorem meets_parseIpv4 (packet : Slice) (offset : ℕ) :
    (parseIpv4 packet offset).Meets (InPacket packet) := by
  have hlen := packet.len_lt
  unfold parseIpv4
  refine meets_checkedAdd.bind fun stop hstop => Slice.meets_getRange.bind fun header hheader => ?_
  have hheaderLen : header.len = 20 := by omega
  refine (Slice.meets_index (by omega)).bind fun versionIhl _ => meets_reject.bind fun _ _ => ?_
  refine meets_reject.bind fun _ hihl => (meets_add (by omega)).bind fun _ _ => ?_
  refine meets_readU16.bind fun totalLen _ => meets_reject.bind fun _ htotal => ?_
  refine meets_checkedAdd.bind fun stop hstop' => meets_reject.bind fun _ hfits => ?_
  refine (meets_add (by omega)).bind fun _ _ => meets_readU16.bind fun fragment _ => ?_
  refine meets_reject.bind fun _ _ => (meets_ipv4At (by omega)).bind fun source _ => ?_
  refine (meets_ipv4At (by omega)).bind fun destination _ => ?_
  refine (Slice.meets_index (by omega)).bind fun protocol _ => ?_
  refine (meets_add (by omega)).bind fun transportOffset htransport => ?_
  refine (meets_add (by omega)).bind fun packetEnd hend => ?_
  constructor
  · show transportOffset ≤ packet.len
    omega
  · show packetEnd ≤ packet.len
    omega

theorem meets_skipExtension {packetEnd cursor : ℕ} {extensionLen : UInt8 → ℕ}
    (hext : ∀ l, extensionLen l < 2 ^ 12) (hend : packetEnd ≤ packet.len) (h : cursor ≤ packet.len) :
    (skipExtension packet packetEnd extensionLen cursor).Meets fun r => r.2 ≤ packet.len := by
  have hlen := packet.len_lt
  unfold skipExtension
  refine (meets_within (by omega)).bind fun _ hin => (Slice.meets_index (by omega)).bind fun next _ => ?_
  refine (meets_add (by omega)).bind fun _ hnext => ?_
  refine (Slice.meets_index (by omega)).bind fun length _ => ?_
  have hlength := hext length
  refine (meets_within (by omega)).bind fun _ hin' => (meets_add (by omega)).bind fun cursor' hcursor => ?_
  show cursor' ≤ packet.len
  omega

theorem meets_followExtensions {packetEnd : ℕ} (hend : packetEnd ≤ packet.len) (n : ℕ)
    (nextHeader : UInt8) {cursor : ℕ} (h : cursor ≤ packet.len) :
    (followExtensions packet packetEnd n nextHeader cursor).Meets fun r => r.2 ≤ packet.len := by
  induction n generalizing nextHeader cursor with
  | zero => exact h
  | succ n ih =>
    unfold followExtensions
    split
    · have hext : ∀ l : UInt8, (l.toNat + 1) * 8 < 2 ^ 12 := fun l => by
        have := l.toNat_lt
        omega
      exact (meets_skipExtension hext hend h).bind fun r hr => ih r.1 hr
    · split
      · have hext : ∀ l : UInt8, (l.toNat + 2) * 4 < 2 ^ 12 := fun l => by
          have := l.toNat_lt
          omega
        exact (meets_skipExtension hext hend h).bind fun r hr => ih r.1 hr
      · split
        · trivial
        · exact h

theorem meets_parseIpv6 (packet : Slice) (offset : ℕ) :
    (parseIpv6 packet offset).Meets (InPacket packet) := by
  have hlen := packet.len_lt
  unfold parseIpv6
  refine meets_checkedAdd.bind fun stop hstop => Slice.meets_getRange.bind fun header hheader => ?_
  have hheaderLen : header.len = 40 := by omega
  refine (Slice.meets_index (by omega)).bind fun version _ => meets_reject.bind fun _ _ => ?_
  refine (meets_add (by omega)).bind fun _ _ => meets_readU16.bind fun payloadLen _ => ?_
  refine meets_checkedAdd.bind fun _ _ => meets_checkedAdd.bind fun stop' _ => ?_
  rw [Slice.indexRange_eq (by omega) (by omega), Slice.indexRange_eq (by omega) (by omega)]
  refine (meets_ipv6Of _).bind fun source _ => (meets_ipv6Of _).bind fun destination _ => ?_
  refine (Slice.meets_index (by omega)).bind fun nextHeader _ => ?_
  refine (meets_add (by omega)).bind fun cursor hcursor => ?_
  have hend : min stop' packet.len ≤ packet.len := Nat.min_le_right _ _
  exact (meets_followExtensions hend 8 nextHeader (by omega)).bind fun r hr => ⟨hr, hend⟩

/-! ### The transport header -/

variable {transportOffset packetEnd : ℕ}

theorem meets_parseUdp (ht : transportOffset ≤ packet.len) :
    (parseUdp packet transportOffset packetEnd).Meets fun _ => True := by
  have hlen := packet.len_lt
  unfold parseUdp
  refine (meets_within (by omega)).bind fun _ _ => meets_readU16.bind fun sourcePort _ => ?_
  refine (meets_add (by omega)).bind fun _ _ => meets_readU16.bind fun destinationPort _ => ?_
  refine (meets_add (by omega)).bind fun _ _ => meets_readU16.bind fun udpLen _ => ?_
  have hudpLen := udpLen.toNat_lt
  refine meets_reject.bind fun _ hmin => (meets_within (by omega)).bind fun _ _ => ?_
  refine (meets_add (by omega)).bind fun _ _ => ?_
  rw [sub_eq (by omega)]
  trivial

theorem meets_parseTcp (ht : transportOffset ≤ packet.len) (hend : packetEnd ≤ packet.len) :
    (parseTcp packet transportOffset packetEnd).Meets fun _ => True := by
  have hlen := packet.len_lt
  unfold parseTcp
  refine (meets_within (by omega)).bind fun _ hin => meets_readU16.bind fun sourcePort _ => ?_
  refine (meets_add (by omega)).bind fun _ _ => meets_readU16.bind fun destinationPort _ => ?_
  refine (meets_add (by omega)).bind fun _ hdata => (Slice.meets_index (by omega)).bind fun dataOffset _ => ?_
  have hheader := (dataOffset >>> 4).toNat_lt
  refine meets_reject.bind fun _ _ => (meets_add (by omega)).bind fun _ hpre => ?_
  refine (meets_within (by omega)).bind fun _ _ => (meets_add (by omega)).bind fun prefixOffset _ => ?_
  refine meets_readU16.bind fun dnsLen _ => ?_
  have hdnsLen := dnsLen.toNat_lt
  refine meets_reject.bind fun _ _ => (meets_add (by omega)).bind fun _ _ => ?_
  refine (meets_within (by omega)).bind fun _ _ => (meets_add (by omega)).bind fun _ _ => ?_
  trivial

theorem meets_parseIp (packet : Slice) (ipOffset : ℕ) (ipVersion : UInt8) :
    (parseIp packet ipOffset ipVersion).Meets (InPacket packet) := by
  unfold parseIp
  split
  · exact meets_parseIpv4 packet ipOffset
  · split
    · exact meets_parseIpv6 packet ipOffset
    · trivial

theorem meets_parseTransport {ip : IpPayload} (h : InPacket packet ip) :
    (parseTransport packet ip).Meets fun _ => True := by
  unfold parseTransport
  split
  · exact meets_parseUdp h.transport
  · split
    · exact meets_parseTcp h.transport h.packetEnd
    · trivial

theorem meets_locateDns (packet : Slice) (ipOffset : ℕ) (ipVersion : UInt8) :
    (locateDns packet ipOffset ipVersion).Meets fun _ => True :=
  (meets_parseIp packet ipOffset ipVersion).bind fun _ hip =>
    (meets_parseTransport hip).bind fun _ _ => meets_reject.bind fun _ _ => trivial

/-! ### The message -/

theorem meets_parseDnsHeader (dns : Slice) : (parseDnsHeader dns).Meets fun _ => True := by
  unfold parseDnsHeader
  refine meets_reject.bind fun _ _ => meets_readU16.bind fun _ _ => meets_readU16.bind fun _ _ => ?_
  exact meets_readU16.bind fun _ _ => meets_reject.bind fun _ _ => meets_readU16.bind fun _ _ => trivial

theorem meets_skipQuestion (dns : Slice) (cursor : ℕ) :
    (skipQuestion dns cursor).Meets fun _ => True := by
  unfold skipQuestion
  exact (meets_readDnsName dns cursor).bind fun _ _ =>
    meets_checkedAdd.bind fun _ _ => meets_reject.bind fun _ _ => trivial

theorem meets_readTxt (data : Slice) : (readTxt data).Meets fun _ => True := by
  refine Meets.loop (I := fun _ => True) (fun s _ => (meets_txtStep data s).mono fun r _ => ?_) trivial
  cases r <;> trivial

theorem meets_recordTexts {data : Slice} {dataStart : ℕ} (rrType : UInt16)
    (h : dataStart ≤ dns.len) : (recordTexts dns rrType data dataStart).Meets fun _ => True := by
  have hlen := dns.len_lt
  unfold recordTexts
  split
  · exact (meets_ipv4At (by omega)).bind fun _ _ => trivial
  · split
    · exact (meets_ipv6Of data).bind fun _ _ => trivial
    · split
      · refine (meets_readDnsName dns dataStart).attempt.bind fun o _ => ?_
        cases o <;> trivial
      · split
        · refine (meets_add (by omega)).bind fun start _ => ?_
          refine (meets_readDnsName dns start).attempt.bind fun o _ => ?_
          cases o with
          | none => trivial
          | some r =>
            exact (Slice.meets_index (by omega)).bind fun _ _ =>
              (Slice.meets_index (by omega)).bind fun _ _ => trivial
        · split
          · exact (meets_readTxt data).bind fun _ _ => trivial
          · trivial

theorem meets_readAnswer (dns : Slice) (s : Answers) : (readAnswer dns s).Meets fun _ => True := by
  have hlen := dns.len_lt
  unfold readAnswer
  refine (meets_readDnsName dns s.cursor).bind fun r hr => ?_
  obtain ⟨-, hr⟩ := hr
  refine (meets_within (by omega)).bind fun _ hin => meets_readU16.bind fun rrType _ => ?_
  refine (meets_add (by omega)).bind fun _ _ => meets_readU16.bind fun dataLen _ => ?_
  refine (meets_add (by omega)).bind fun dataStart hstart => ?_
  refine meets_checkedAdd.bind fun dataEnd _ => Slice.meets_getRange.bind fun data _ => ?_
  exact (meets_recordTexts rrType (by omega)).bind fun _ _ => trivial

theorem meets_parseDnsSections (dns : Slice) (header : DnsHeader) (sourceIp destinationIp : IpAddr)
    (sourcePort destinationPort : UInt16) (protocol : String) :
    (parseDnsSections dns header sourceIp destinationIp sourcePort destinationPort protocol).Meets
      fun _ => True := by
  have hlen := dns.len_lt
  unfold parseDnsSections
  refine (meets_readDnsName dns 12).bind fun r hr => ?_
  obtain ⟨-, hr⟩ := hr
  refine (meets_within (by omega)).bind fun _ _ => meets_readU16.bind fun queryType _ => ?_
  refine (meets_add (by omega)).bind fun cursor _ => ?_
  refine (Meets.times (I := fun _ => True) (fun c _ => meets_skipQuestion dns c) _ trivial).bind
    fun cursor _ => ?_
  exact (Meets.times (I := fun _ => True) (fun s _ => meets_readAnswer dns s) _ trivial).bind
    fun _ _ => trivial

theorem meets_parseDnsMessage (dns : Slice) (sourceIp destinationIp : IpAddr)
    (sourcePort destinationPort : UInt16) (protocol : String) :
    (parseDnsMessage dns sourceIp destinationIp sourcePort destinationPort protocol).Meets
      fun _ => True :=
  (meets_parseDnsHeader dns).bind fun header _ =>
    meets_parseDnsSections dns header sourceIp destinationIp sourcePort destinationPort protocol

theorem meets_parseDnsPacket (packet : Slice) (ipOffset : ℕ) (ipVersion : UInt8) :
    (parseDnsPacket packet ipOffset ipVersion).Meets fun _ => True :=
  (meets_locateDns packet ipOffset ipVersion).bind fun _ _ => meets_checkedAdd.bind fun _ _ =>
    Slice.meets_getRange.bind fun dns _ => meets_parseDnsMessage dns _ _ _ _ _

/-- **Hostile packets.** Every captured packet is parsed or refused, without a panic. A name takes a
jump or a label off a finite supply with every turn of its loop, wherever its pointers lead; one that
is read ends behind its start, within the message, and its labels with one separator each are at most
255 bytes. -/
theorem packet_never_panics (packet : Slice) (ipOffset : UInt16) (ipVersion : UInt8) :
    ((∃ message, parseDnsPacket packet ipOffset.toNat ipVersion = .value message) ∨
        parseDnsPacket packet ipOffset.toNat ipVersion = .absent) ∧
      (∀ (dns : Slice) (s s' : NameState),
        nameStep dns s = .value (.inl s') → s'.fuel < s.fuel) ∧
      ∀ (dns : Slice) (offset next : ℕ) (name : String),
        readDnsName dns offset = .value (name, next) →
          offset < next ∧ next ≤ dns.len ∧ ∃ labels, readDnsLabels dns offset = .value (labels, next) ∧
            name = ".".intercalate (labels.map fromUtf8Lossy) ∧ nameLen labels ≤ 255 := by
  refine ⟨?_, fun dns s s' => nameStep_fuel, fun dns offset next name h => ?_⟩
  · have hmeets := meets_parseDnsPacket packet ipOffset.toNat ipVersion
    cases hp : parseDnsPacket packet ipOffset.toNat ipVersion with
    | value message => exact .inl ⟨message, rfl⟩
    | absent => exact .inr rfl
    | panicked => exact absurd hp hmeets.ne_panicked
  · obtain ⟨⟨labels, next'⟩, hlabels, hname⟩ := bind_eq_value h
    cases hname
    obtain ⟨hnext, hin, hlen⟩ := (meets_readDnsLabels dns offset).of_eq hlabels
    exact ⟨hnext, hin, labels, hlabels, rfl, hlen⟩

end BandixPlus.Dns.PacketSafety
