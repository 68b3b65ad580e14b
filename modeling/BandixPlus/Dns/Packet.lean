import BandixPlus.Dns.Monitor
import BandixPlus.Dns.Name
import BandixPlus.Lib.Bytes

/-! # Captured DNS packets

`dns.rs`, `parse_dns_packet` and what it calls: the IP header, the IPv6 extension headers, the UDP or
TCP header and the DNS message, with every index, slice and addition that could panic. -/

namespace BandixPlus.Dns.Packet

open BandixPlus.Common BandixPlus.Lib.Bytes BandixPlus.Lib.Checked BandixPlus.Lib.Checked.Outcome
open BandixPlus.Net.Addresses BandixPlus.Dns.Monitor BandixPlus.Dns.Name
open BandixPlus.Net.Text (fromUtf8Lossy)

def maxDnsAnswers : ℕ := 64

/-- `Ipv4Addr::new` and `Ipv6Addr::from`, of the octets in network order. -/
def ipv4OfOctets (octets : List UInt8) : IpAddr :=
  .v4 (UInt32.ofNat (ofDigits 256 (octets.map UInt8.toNat)))

def ipv6OfOctets (octets : List UInt8) : IpAddr :=
  .v6 (BitVec.ofNat 128 (ofDigits 256 (octets.map UInt8.toNat)))

theorem leNat_eq_ofDigits (bs : List UInt8) :
    leNat bs = ofDigits 256 (bs.reverse.map UInt8.toNat) := by
  unfold ofDigits
  induction bs with
  | nil => rfl
  | cons b bs ih =>
    rw [leNat, ih]
    simp
    omega

theorem ofDigits_beBytes {w n : ℕ} (h : n < 256 ^ w) :
    ofDigits 256 ((beBytes w n).map UInt8.toNat) = n := by
  have hle := leNat_eq_ofDigits (leBytes w n)
  rw [leNat_leBytes h] at hle
  exact hle.symm

theorem ipv4OfOctets_beBytes (ip : UInt32) : ipv4OfOctets (beBytes 4 ip.toNat) = .v4 ip := by
  unfold ipv4OfOctets
  rw [ofDigits_beBytes ip.toNat_lt, UInt32.ofNat_toNat]

theorem ipv6OfOctets_beBytes (ip : BitVec 128) : ipv6OfOctets (beBytes 16 ip.toNat) = .v6 ip := by
  unfold ipv6OfOctets
  rw [ofDigits_beBytes ip.isLt, BitVec.ofNat_toNat, BitVec.setWidth_eq]

/-! ### The IP header -/

/-- The tuple that `parse_ipv4` and `parse_ipv6` return. -/
structure IpPayload where
  source : IpAddr
  destination : IpAddr
  protocol : UInt8
  transportOffset : ℕ
  packetEnd : ℕ

/-- `Ipv4Addr::new(s[i], s[i + 1], s[i + 2], s[i + 3])`. -/
def ipv4At (s : Slice) (i : ℕ) : Outcome IpAddr := do
  let a ← s.index i
  let b ← s.index (i + 1)
  let c ← s.index (i + 2)
  let d ← s.index (i + 3)
  .value (ipv4OfOctets [a, b, c, d])

/-- `<[u8; 16]>::try_from(s).ok()?`, as an address. -/
def ipv6Of (s : Slice) : Outcome IpAddr :=
  if s.len = 16 then .value (ipv6OfOctets s.bytes) else .absent

theorem ipv4At_eq {s : Slice} {i : ℕ} (h : i + 4 ≤ s.len) : ipv4At s i =
    .value (ipv4OfOctets [s.byte i, s.byte (i + 1), s.byte (i + 2), s.byte (i + 3)]) := by
  refine bind_value (Slice.index_eq (by omega)) (bind_value (Slice.index_eq (by omega)) ?_)
  exact bind_value (Slice.index_eq (by omega)) (bind_value (Slice.index_eq (by omega)) rfl)

theorem ipv6Of_eq {s : Slice} (h : s.len = 16) : ipv6Of s = .value (ipv6OfOctets s.bytes) := if_pos h

def parseIpv4 (packet : Slice) (offset : ℕ) : Outcome IpPayload := do
  let header ← packet.getRange offset (← checkedAdd offset 20)
  let versionIhl ← header.index 0
  reject (versionIhl >>> 4 ≠ 4)
  let ihl := (versionIhl &&& 0x0f).toNat * 4
  reject (ihl < 20)
  let totalLen := (← readU16 packet (← add offset 2)).toNat
  reject (totalLen < ihl)
  let stop ← checkedAdd offset totalLen
  reject (packet.len < stop)
  let fragment ← readU16 packet (← add offset 6)
  reject (fragment &&& 0x3fff ≠ 0)
  let source ← ipv4At header 12
  let destination ← ipv4At header 16
  let protocol ← header.index 9
  let transportOffset ← add offset ihl
  let packetEnd ← add offset totalLen
  .value { source, destination, protocol, transportOffset, packetEnd }

/-- Step over one extension header, whose second byte tells its length. -/
def skipExtension (packet : Slice) (packetEnd : ℕ) (extensionLen : UInt8 → ℕ) (cursor : ℕ) :
    Outcome (UInt8 × ℕ) := do
  within cursor 2 packetEnd
  let next ← packet.index cursor
  let length ← packet.index (← add cursor 1)
  within cursor (extensionLen length) packetEnd
  let cursor ← add cursor (extensionLen length)
  .value (next, cursor)

/-- The loop `for _ in 0..8` of `parse_ipv6`, with the turns that are left. -/
def followExtensions (packet : Slice) (packetEnd : ℕ) : ℕ → UInt8 → ℕ → Outcome (UInt8 × ℕ)
  | 0, nextHeader, cursor => .value (nextHeader, cursor)
  | n + 1, nextHeader, cursor =>
    if nextHeader ∈ [0, 43, 60, 135, 139, 140] then do
      let (next, cursor) ← skipExtension packet packetEnd (fun l => (l.toNat + 1) * 8) cursor
      followExtensions packet packetEnd n next cursor
    else if nextHeader = 51 then do
      let (next, cursor) ← skipExtension packet packetEnd (fun l => (l.toNat + 2) * 4) cursor
      followExtensions packet packetEnd n next cursor
    else if nextHeader ∈ [44, 50] then .absent
    else .value (nextHeader, cursor)

def parseIpv6 (packet : Slice) (offset : ℕ) : Outcome IpPayload := do
  let header ← packet.getRange offset (← checkedAdd offset 40)
  let version ← header.index 0
  reject (version >>> 4 ≠ 6)
  let payloadLen := (← readU16 packet (← add offset 4)).toNat
  let stop ← checkedAdd (← checkedAdd offset 40) payloadLen
  let packetEnd := min stop packet.len
  let source ← ipv6Of (← header.indexRange 8 24)
  let destination ← ipv6Of (← header.indexRange 24 40)
  let nextHeader ← header.index 6
  let cursor ← add offset 40
  let (protocol, transportOffset) ← followExtensions packet packetEnd 8 nextHeader cursor
  .value { source, destination, protocol, transportOffset, packetEnd }

/-! ### The transport header -/

/-- What the checks of `parse_dns_packet` come to: the arguments of `parse_dns_message`, the bytes by
their place. -/
structure DnsPayload where
  sourceIp : IpAddr
  destinationIp : IpAddr
  sourcePort : UInt16
  destinationPort : UInt16
  dnsOffset : ℕ
  dnsLen : ℕ
  protocol : String
  deriving DecidableEq

/-- Source port, destination port, offset and length of the message. -/
def parseUdp (packet : Slice) (transportOffset packetEnd : ℕ) : Outcome (UInt16 × UInt16 × ℕ × ℕ) := do
  within transportOffset 8 packetEnd
  let sourcePort ← readU16 packet transportOffset
  let destinationPort ← readU16 packet (← add transportOffset 2)
  let udpLen := (← readU16 packet (← add transportOffset 4)).toNat
  reject (udpLen < 8 + 12)
  within transportOffset udpLen packetEnd
  let dnsOffset ← add transportOffset 8
  let dnsLen ← sub udpLen 8
  .value (sourcePort, destinationPort, dnsOffset, dnsLen)

def parseTcp (packet : Slice) (transportOffset packetEnd : ℕ) : Outcome (UInt16 × UInt16 × ℕ × ℕ) := do
  within transportOffset 20 packetEnd
  let sourcePort ← readU16 packet transportOffset
  let destinationPort ← readU16 packet (← add transportOffset 2)
  let dataOffset ← packet.index (← add transportOffset 12)
  let tcpHeaderLen := (dataOffset >>> 4).toNat * 4
  reject (tcpHeaderLen < 20)
  within (← add transportOffset tcpHeaderLen) 2 packetEnd
  let prefixOffset ← add transportOffset tcpHeaderLen
  let dnsLen := (← readU16 packet prefixOffset).toNat
  reject (dnsLen < 12)
  within (← add prefixOffset 2) dnsLen packetEnd
  let dnsOffset ← add prefixOffset 2
  .value (sourcePort, destinationPort, dnsOffset, dnsLen)

/-- The branches of `parse_dns_packet` on the IP version and on the protocol. -/
def parseIp (packet : Slice) (ipOffset : ℕ) (ipVersion : UInt8) : Outcome IpPayload :=
  if ipVersion = 4 then parseIpv4 packet ipOffset
  else if ipVersion = 6 then parseIpv6 packet ipOffset
  else .absent

def parseTransport (packet : Slice) (ip : IpPayload) : Outcome (UInt16 × UInt16 × ℕ × ℕ) :=
  if ip.protocol = 17 then parseUdp packet ip.transportOffset ip.packetEnd
  else if ip.protocol = 6 then parseTcp packet ip.transportOffset ip.packetEnd
  else .absent

/-- The checks of `parse_dns_packet`. -/
def locateDns (packet : Slice) (ipOffset : ℕ) (ipVersion : UInt8) : Outcome DnsPayload := do
  let ip ← parseIp packet ipOffset ipVersion
  let (sourcePort, destinationPort, dnsOffset, dnsLen) ← parseTransport packet ip
  reject (sourcePort ≠ 53 ∧ destinationPort ≠ 53)
  .value { sourceIp := ip.source
           destinationIp := ip.destination
           sourcePort, destinationPort, dnsOffset, dnsLen
           protocol := if ip.protocol = 17 then "UDP" else "TCP" }

/-! ### The message -/

def dnsTypeName (value : UInt16) : String :=
  if value = 1 then "A"
  else if value = 2 then "NS"
  else if value = 5 then "CNAME"
  else if value = 6 then "SOA"
  else if value = 12 then "PTR"
  else if value = 15 then "MX"
  else if value = 16 then "TXT"
  else if value = 28 then "AAAA"
  else if value = 33 then "SRV"
  else if value = 64 then "SVCB"
  else if value = 65 then "HTTPS"
  else "TYPE" ++ toString value.toNat

def dnsResponseCode (value : UInt8) : String :=
  if value = 0 then "NOERROR"
  else if value = 1 then "FORMERR"
  else if value = 2 then "SERVFAIL"
  else if value = 3 then "NXDOMAIN"
  else if value = 4 then "NOTIMP"
  else if value = 5 then "REFUSED"
  else "RCODE" ++ toString value.toNat

/-- The fields of the DNS header that are read. -/
structure DnsHeader where
  transactionId : UInt16
  flags : UInt16
  questionCount : ℕ
  answerCount : ℕ

def DnsHeader.isQuery (h : DnsHeader) : Bool := h.flags &&& 0x8000 = 0

/-- `parse_dns_message`, up to the first name. -/
def parseDnsHeader (dns : Slice) : Outcome DnsHeader := do
  reject (dns.len < 12)
  let transactionId ← readU16 dns 0
  let flags ← readU16 dns 2
  let questionCount := (← readU16 dns 4).toNat
  reject (questionCount = 0 ∨ 16 < questionCount)
  let answerCount := (← readU16 dns 6).toNat
  .value { transactionId, flags, questionCount, answerCount }

/-- Skip one more question. -/
def skipQuestion (dns : Slice) (cursor : ℕ) : Outcome ℕ := do
  let (_, next) ← readDnsName dns cursor
  let cursor ← checkedAdd next 4
  reject (dns.len < cursor)
  .value cursor

/-- One turn of the loop over the strings of a TXT record. -/
def txtStep (data : Slice) (s : ℕ × List String) : Outcome (ℕ × List String ⊕ List String) :=
  if s.1 < data.len then do
    let length := (← data.index s.1).toNat
    let pos ← add s.1 1
    let stop ← add pos length
    if data.len < stop then .value (.inr s.2)
    else
      let text ← data.indexRange pos stop
      .value (.inl (stop, s.2 ++ [fromUtf8Lossy text.bytes]))
  else .value (.inr s.2)

theorem meets_txtStep (data : Slice) (s : ℕ × List String) :
    (txtStep data s).Meets (Sum.elim (fun s' => data.len - s'.1 < data.len - s.1) fun _ => True) := by
  have hlen := data.len_lt
  unfold txtStep
  split
  next hpos =>
    refine (Slice.meets_index hpos).bind fun length _ => (meets_add (by omega)).bind fun pos hpos' => ?_
    have hlength := length.toNat_lt
    refine (meets_add (by omega)).bind fun stop hstop => ?_
    split
    · trivial
    · rw [Slice.indexRange_eq (by omega) (by omega)]
      show data.len - stop < data.len - s.1
      omega
  next => trivial

def readTxt (data : Slice) : Outcome (List String) :=
  loop (txtStep data) (fun s => data.len - s.1) (fun s _ h => (meets_txtStep data s).of_eq h) (0, [])

/-- The `response_ips` and `response_records` of one answer, whose data starts at `dataStart`. -/
def recordTexts (dns : Slice) (rrType : UInt16) (data : Slice) (dataStart : ℕ) :
    Outcome (List String × List String) :=
  if rrType = 1 ∧ data.len = 4 then do
    let ip := (← ipv4At data 0).toString
    .value ([ip], ["A:" ++ ip])
  else if rrType = 28 ∧ data.len = 16 then do
    let ip := (← ipv6Of data).toString
    .value ([ip], ["AAAA:" ++ ip])
  else if rrType ∈ [5, 2, 12] then do
    match ← (readDnsName dns dataStart).attempt with
    | some (name, _) => .value ([], [dnsTypeName rrType ++ ":" ++ name])
    | none => .value ([], [])
  else if rrType = 15 ∧ 3 ≤ data.len then do
    match ← (readDnsName dns (← add dataStart 2)).attempt with
    | some (exchange, _) => do
      let hi ← data.index 0
      let lo ← data.index 1
      .value ([], ["MX:" ++ exchange ++ " priority=" ++ toString (u16FromBe hi lo).toNat])
    | none => .value ([], [])
  else if rrType = 16 then do
    let parts ← readTxt data
    .value ([], ["TXT:" ++ " ".intercalate parts])
  else .value ([], [dnsTypeName rrType ++ ": " ++ toString data.len ++ " bytes"])

/-- The variables of the loop over the answers. -/
structure Answers where
  cursor : ℕ
  responseIps : List String
  responseRecords : List String

def readAnswer (dns : Slice) (s : Answers) : Outcome Answers := do
  let (_, cursor) ← readDnsName dns s.cursor
  within cursor 10 dns.len
  let rrType ← readU16 dns cursor
  let dataLen := (← readU16 dns (← add cursor 8)).toNat
  let dataStart ← add cursor 10
  let dataEnd ← checkedAdd dataStart dataLen
  let data ← dns.getRange dataStart dataEnd
  let (ips, records) ← recordTexts dns rrType data dataStart
  .value { cursor := dataEnd
           responseIps := s.responseIps ++ ips
           responseRecords := s.responseRecords ++ records }

/-- `parse_dns_message`, from the first name on. -/
def parseDnsSections (dns : Slice) (header : DnsHeader) (sourceIp destinationIp : IpAddr)
    (sourcePort destinationPort : UInt16) (protocol : String) : Outcome ParsedDnsMessage := do
  let (domain, cursor) ← readDnsName dns 12
  within cursor 4 dns.len
  let queryType := dnsTypeName (← readU16 dns cursor)
  let cursor ← add cursor 4
  let cursor ← times (skipQuestion dns) (header.questionCount - 1) cursor
  let answerLimit := if header.isQuery then 0 else min header.answerCount maxDnsAnswers
  let answers ← times (readAnswer dns) answerLimit
    { cursor, responseIps := [], responseRecords := [] }
  .value { isQuery := header.isQuery
           sourceIp, destinationIp, sourcePort, destinationPort
           transactionId := header.transactionId
           domain := Monitor.toAsciiLowercase domain
           queryType, protocol
           responseCode :=
             if header.isQuery then none
             else some (dnsResponseCode (header.flags &&& 0x0f).toUInt8)
           responseIps := answers.responseIps
           responseRecords := answers.responseRecords }

def parseDnsMessage (dns : Slice) (sourceIp destinationIp : IpAddr)
    (sourcePort destinationPort : UInt16) (protocol : String) : Outcome ParsedDnsMessage := do
  let header ← parseDnsHeader dns
  parseDnsSections dns header sourceIp destinationIp sourcePort destinationPort protocol

def parseDnsPacket (packet : Slice) (ipOffset : ℕ) (ipVersion : UInt8) : Outcome ParsedDnsMessage := do
  let p ← locateDns packet ipOffset ipVersion
  let dns ← packet.getRange p.dnsOffset (← checkedAdd p.dnsOffset p.dnsLen)
  parseDnsMessage dns p.sourceIp p.destinationIp p.sourcePort p.destinationPort p.protocol

end BandixPlus.Dns.Packet
