import BandixPlus.Conntrack.Netlink
import BandixPlus.Conntrack.State
import BandixPlus.Dns.Packet

/-! # Flow messages

`conntrack.rs`: how a flow is read from a ctnetlink message.

* `EncodesFlow`: a message that describes a flow.
* `parseFlowMessage_encoded`: the flow is what the parser returns. -/

namespace BandixPlus.Conntrack.FlowMessage

open BandixPlus.Lib.Bytes BandixPlus.Lib.LastWins BandixPlus.Net.Addresses
open BandixPlus.Conntrack.Netlink BandixPlus.Conntrack.State
open BandixPlus.Dns.Packet (ipv4OfOctets ipv6OfOctets ipv4OfOctets_beBytes ipv6OfOctets_beBytes)

def nfgenmsgLen : ℕ := 4

def ctaTupleOrig : UInt16 := 1
def ctaTupleReply : UInt16 := 2
def ctaStatus : UInt16 := 3
def ctaProtoinfo : UInt16 := 4
def ctaCountersOrig : UInt16 := 10
def ctaCountersReply : UInt16 := 11
def ctaId : UInt16 := 13

def ctaTupleIp : UInt16 := 1
def ctaTupleProto : UInt16 := 2
def ctaIpV4Src : UInt16 := 1
def ctaIpV4Dst : UInt16 := 2
def ctaIpV6Src : UInt16 := 3
def ctaIpV6Dst : UInt16 := 4
def ctaProtoNum : UInt16 := 1
def ctaProtoSrcPort : UInt16 := 2
def ctaProtoDstPort : UInt16 := 3

def ctaProtoinfoTcp : UInt16 := 1
def ctaProtoinfoTcpState : UInt16 := 1

def ctaCountersPackets : UInt16 := 1
def ctaCountersBytes : UInt16 := 2

/-- The bits of the `IPS_*` masks, with the names shown for them. -/
def ipsFlags : List (ℕ × String) :=
  [(1, "SEEN_REPLY"), (2, "ASSURED"), (3, "CONFIRMED"), (4, "SRC_NAT"), (5, "DST_NAT"), (9, "DYING"),
    (14, "OFFLOAD"), (15, "HW_OFFLOAD")]

def statusFlags (status : UInt32) : List String :=
  (ipsFlags.filter fun flag => status &&& UInt32.ofNat (1 <<< flag.1) ≠ 0).map Prod.snd

def tcpStateName (state : UInt8) : String :=
  match state with
  | 1 => "SYN_SENT"
  | 2 => "SYN_RECV"
  | 3 => "ESTABLISHED"
  | 4 => "FIN_WAIT"
  | 5 => "CLOSE_WAIT"
  | 6 => "LAST_ACK"
  | 7 => "CLOSING"
  | 8 => "TIME_WAIT"
  | 9 => "CLOSE"
  | 10 => "LISTEN"
  | 11 => "SYN_SENT2"
  | _ => "NONE"

def readU32Be (value : List UInt8) : Option UInt32 :=
  if 4 ≤ value.length then some (UInt32.ofNat (beNat (value.take 4))) else none

/-! ### Tuples -/

/-- The variables of `parse_tuple`. -/
@[ext] structure TupleParts where
  src : Option IpAddr
  dst : Option IpAddr
  protocol : Option UInt8
  sport : Option UInt16
  dport : Option UInt16

/-- The body of the loop over the addresses. -/
def ipStep (s : TupleParts) (ipKind : UInt16) (bytes : List UInt8) : Except String TupleParts :=
  .ok <|
    if ipKind = ctaIpV4Src ∧ 4 ≤ bytes.length then { s with src := some (ipv4OfOctets (bytes.take 4)) }
    else if ipKind = ctaIpV4Dst ∧ 4 ≤ bytes.length then
      { s with dst := some (ipv4OfOctets (bytes.take 4)) }
    else if ipKind = ctaIpV6Src ∧ 16 ≤ bytes.length then
      { s with src := some (ipv6OfOctets (bytes.take 16)) }
    else if ipKind = ctaIpV6Dst ∧ 16 ≤ bytes.length then
      { s with dst := some (ipv6OfOctets (bytes.take 16)) }
    else s

/-- The body of the loop over the protocol and the ports. -/
def protoStep (s : TupleParts) (protoKind : UInt16) (bytes : List UInt8) : Except String TupleParts :=
  .ok <|
    if protoKind = ctaProtoNum then { s with protocol := bytes.head? }
    else if protoKind = ctaProtoSrcPort ∧ 2 ≤ bytes.length then
      { s with sport := some (UInt16.ofNat (beNat (bytes.take 2))) }
    else if protoKind = ctaProtoDstPort ∧ 2 ≤ bytes.length then
      { s with dport := some (UInt16.ofNat (beNat (bytes.take 2))) }
    else s

section
variable (e : Endian)

def tupleStep (s : TupleParts) (kind : UInt16) (nested : List UInt8) : Except String TupleParts :=
  if kind = ctaTupleIp then forAttributes e nested ipStep s
  else if kind = ctaTupleProto then forAttributes e nested protoStep s
  else .ok s

def parseTuple (value : List UInt8) : Except String (Option (UInt8 × EndpointKey)) := do
  let s ← forAttributes e value (tupleStep e) ⟨none, none, none, none, none⟩
  match s with
  | ⟨some src, some dst, some protocol, some sport, some dport⟩ =>
    .ok (some (protocol, ⟨src, dst, sport, dport⟩))
  | _ => .ok none

/-- The first state in the TCP attributes; an empty one ends the search. -/
def parseTcpState (value : List UInt8) : Option String :=
  let tcpAttributes := ((flatten e value).filter fun a => a.1 = ctaProtoinfoTcp).flatMap fun a =>
    flatten e a.2
  (tcpAttributes.find? fun a => a.1 = ctaProtoinfoTcpState).bind fun a => a.2.head?.map tcpStateName

/-- The body of the loop over a pair of counters: packets and bytes. -/
def counterStep (s : UInt64 × UInt64) (kind : UInt16) (data : List UInt8) :
    Except String (UInt64 × UInt64) :=
  .ok <|
    if kind = ctaCountersPackets ∧ 8 ≤ data.length then
      (UInt64.ofNat (beNat (data.take 8)), s.2)
    else if kind = ctaCountersBytes ∧ 8 ≤ data.length then
      (s.1, UInt64.ofNat (beNat (data.take 8)))
    else s

def parseCounters (value : List UInt8) : Except String (UInt64 × UInt64) :=
  forAttributes e value counterStep (0, 0)

/-! ### Messages -/

def endpointFromKey (key : EndpointKey) : ConnectionEndpoint where
  src := key.src.toString
  dst := key.dst.toString
  sport := key.sport
  dport := key.dport

/-- The variables of `parse_flow_message`. -/
@[ext] structure MessageParts where
  orig : Option (UInt8 × EndpointKey)
  reply : Option (UInt8 × EndpointKey)
  status : Option UInt32
  protoinfo : Option String
  origCounters : UInt64 × UInt64
  replyCounters : UInt64 × UInt64
  id : Option UInt32

def messageStep (s : MessageParts) (kind : UInt16) (value : List UInt8) :
    Except String MessageParts :=
  if kind = ctaTupleOrig then do
    let orig ← parseTuple e value
    .ok { s with orig }
  else if kind = ctaTupleReply then do
    let reply ← parseTuple e value
    .ok { s with reply }
  else if kind = ctaStatus then .ok { s with status := readU32Be value }
  else if kind = ctaProtoinfo then .ok { s with protoinfo := parseTcpState e value }
  else if kind = ctaCountersOrig then do
    let origCounters ← parseCounters e value
    .ok { s with origCounters }
  else if kind = ctaCountersReply then do
    let replyCounters ← parseCounters e value
    .ok { s with replyCounters }
  else if kind = ctaId then .ok { s with id := readU32Be value }
  else .ok s

/-- What the attributes of a message make. -/
def flowOf (s : MessageParts) : Option ParsedFlow :=
  match s.orig, s.reply with
  | some (protocolNumber, origKey), some (replyProtocol, replyKey) =>
    if protocolNumber ≠ replyProtocol ∨ (protocolNumber ≠ 6 ∧ protocolNumber ≠ 17) then none
    else
      some {
        key := ⟨protocolNumber, origKey, replyKey⟩
        flow := {
          id := s.id
          protocol := if protocolNumber = 6 then "tcp" else "udp"
          state := if protocolNumber = 6 then s.protoinfo else none
          orig := endpointFromKey origKey
          reply := endpointFromKey replyKey
          origPackets := s.origCounters.1
          origBytes := s.origCounters.2
          replyPackets := s.replyCounters.1
          replyBytes := s.replyCounters.2
          flags := (s.status.map statusFlags).getD [] } }
  | _, _ => none

def parseFlowMessage (payload : List UInt8) : Except String (Option ParsedFlow) :=
  if payload.length < nfgenmsgLen then .error "ctnetlink message is shorter than nfgenmsg"
  else do
    let s ← forAttributes e (payload.drop nfgenmsgLen) (messageStep e)
      ⟨none, none, none, none, (0, 0), (0, 0), none⟩
    .ok (flowOf s)

end

/-! ### Encoding -/

/-- There is one attribute of the kinds, it is of this kind, and its payload is as described. -/
def Only (as : List Attribute) (kinds : List UInt16) (kind : UInt16) (p : List UInt8 → Prop) : Prop :=
  ∃ a, (as.filter fun a => a.kind ∈ kinds) = [a] ∧ a.kind = kind ∧ p a.payload

def Never (as : List Attribute) (kind : UInt16) : Prop := (as.filter fun a => a.kind ∈ [kind]) = []

def Optional {α : Type} (as : List Attribute) (kind : UInt16) (p : α → List UInt8 → Prop) :
    Option α → Prop
  | some v => Only as [kind] kind (p v)
  | none => Never as kind

def octets : IpAddr → List UInt8
  | .v4 ip => beBytes 4 ip.toNat
  | .v6 ip => beBytes 16 ip.toNat

def srcKind : IpAddr → UInt16
  | .v4 _ => ctaIpV4Src
  | .v6 _ => ctaIpV6Src

def dstKind : IpAddr → UInt16
  | .v4 _ => ctaIpV4Dst
  | .v6 _ => ctaIpV6Dst

section
variable (e : Endian)

def EncodesIp (src dst : IpAddr) (bytes : List UInt8) : Prop :=
  ∃ as, Encoded e as bytes ∧ Only as [ctaIpV4Src, ctaIpV6Src] (srcKind src) (· = octets src) ∧
    Only as [ctaIpV4Dst, ctaIpV6Dst] (dstKind dst) (· = octets dst)

def EncodesProto (protocol : UInt8) (sport dport : UInt16) (bytes : List UInt8) : Prop :=
  ∃ as, Encoded e as bytes ∧ Only as [ctaProtoNum] ctaProtoNum (· = [protocol]) ∧
    Only as [ctaProtoSrcPort] ctaProtoSrcPort (· = beBytes 2 sport.toNat) ∧
    Only as [ctaProtoDstPort] ctaProtoDstPort (· = beBytes 2 dport.toNat)

def EncodesTuple (protocol : UInt8) (key : EndpointKey) (bytes : List UInt8) : Prop :=
  ∃ as, Encoded e as bytes ∧ Only as [ctaTupleIp] ctaTupleIp (EncodesIp e key.src key.dst) ∧
    Only as [ctaTupleProto] ctaTupleProto (EncodesProto e protocol key.sport key.dport)

/-- Packets and bytes. -/
def EncodesCounters (counters : UInt64 × UInt64) (bytes : List UInt8) : Prop :=
  ∃ as, Encoded e as bytes ∧
    Only as [ctaCountersPackets] ctaCountersPackets (· = beBytes 8 counters.1.toNat) ∧
    Only as [ctaCountersBytes] ctaCountersBytes (· = beBytes 8 counters.2.toNat)

def EncodesTcp (state : Option UInt8) (bytes : List UInt8) : Prop :=
  ∃ as, Encoded e as bytes ∧
    Optional as ctaProtoinfoTcpState (fun state payload => payload = [state]) state

def EncodesProtoinfo (state : Option UInt8) (bytes : List UInt8) : Prop :=
  ∃ as, Encoded e as bytes ∧ Only as [ctaProtoinfoTcp] ctaProtoinfoTcp (EncodesTcp e state)

end

/-- A flow of TCP or UDP. -/
structure FlowInfo where
  tcp : Bool
  orig : EndpointKey
  reply : EndpointKey
  /-- Packets and bytes. -/
  origCounters : UInt64 × UInt64
  replyCounters : UInt64 × UInt64
  id : Option UInt32
  status : Option UInt32
  tcpState : Option UInt8

def FlowInfo.protocolNumber (f : FlowInfo) : UInt8 := if f.tcp then 6 else 17

/-- The names of the flags that are set. -/
def flagNames (status : UInt32) : List String :=
  (ipsFlags.filter fun flag => status.toNat.testBit flag.1).map Prod.snd

/-- What is shown of a flow. -/
def FlowInfo.parsed (f : FlowInfo) : ParsedFlow where
  key := ⟨f.protocolNumber, f.orig, f.reply⟩
  flow := {
    id := f.id
    protocol := if f.tcp then "tcp" else "udp"
    state := if f.tcp then f.tcpState.map tcpStateName else none
    orig := endpointFromKey f.orig
    reply := endpointFromKey f.reply
    origPackets := f.origCounters.1
    origBytes := f.origCounters.2
    replyPackets := f.replyCounters.1
    replyBytes := f.replyCounters.2
    flags := (f.status.map flagNames).getD [] }

/-- **The attributes of a flow**, in any order, among others of other kinds. What a UDP message has as
protocol information does not matter. -/
structure EncodesFlow (e : Endian) (f : FlowInfo) (as : List Attribute) : Prop where
  orig : Only as [ctaTupleOrig] ctaTupleOrig (EncodesTuple e f.protocolNumber f.orig)
  reply : Only as [ctaTupleReply] ctaTupleReply (EncodesTuple e f.protocolNumber f.reply)
  origCounters : Only as [ctaCountersOrig] ctaCountersOrig (EncodesCounters e f.origCounters)
  replyCounters : Only as [ctaCountersReply] ctaCountersReply (EncodesCounters e f.replyCounters)
  id : Optional as ctaId (fun (id : UInt32) payload => payload = beBytes 4 id.toNat) f.id
  status : Optional as ctaStatus (fun (status : UInt32) payload => payload = beBytes 4 status.toNat)
    f.status
  protoinfo : f.tcp = true → (f.tcpState = none ∧ Never as ctaProtoinfo) ∨
    Only as [ctaProtoinfo] ctaProtoinfo (EncodesProtoinfo e f.tcpState)

/-! ### Loops -/

/-- What the body of a loop does if it does not fail. -/
def effectOf {σ : Type} (step : σ → UInt16 → List UInt8 → Except String σ) (s : σ) (a : Attribute) : σ :=
  ((step s a.kind a.payload).toOption).getD s

section
variable {e : Endian} {as : List Attribute} {value : List UInt8}

theorem forAttributes_eq {σ : Type} {step : σ → UInt16 → List UInt8 → Except String σ}
    (h : Encoded e as value) (hstep : ∀ a ∈ as, ∀ s, ∃ s', step s a.kind a.payload = .ok s') (init : σ) :
    forAttributes e value step init = .ok (as.foldl (effectOf step) init) := by
  refine forAttributes_encoded h (fun a ha s => ?_) init
  obtain ⟨s', hs'⟩ := hstep a ha s
  unfold effectOf
  rw [hs']
  rfl

/-- An attribute of the kind is the one. -/
theorem Only.payload {kind : UInt16} {p : List UInt8 → Prop} (h : Only as [kind] kind p)
    {a : Attribute} (ha : a ∈ as) (hkind : a.kind = kind) : p a.payload := by
  obtain ⟨a', hfilter, -, hp⟩ := h
  have hmem : a ∈ as.filter fun a => a.kind ∈ [kind] := by simp [ha, hkind]
  rw [hfilter, List.mem_singleton] at hmem
  rw [hmem]
  exact hp

/-- What only attributes of the kind write is there after the loop. -/
theorem Only.set {σ τ : Type} {kind : UInt16} {p : List UInt8 → Prop} (h : Only as [kind] kind p)
    {effect : σ → Attribute → σ} (field : σ → τ) {v : τ}
    (hset : ∀ a ∈ as, a.kind = kind → p a.payload → ∀ s, field (effect s a) = v)
    (hkeep : ∀ a ∈ as, a.kind ≠ kind → ∀ s, field (effect s a) = field s) (s : σ) :
    field (as.foldl effect s) = v := by
  obtain ⟨a, hfilter, hkind, hp⟩ := h
  have ha : a ∈ as := List.mem_of_mem_filter (hfilter ▸ List.mem_singleton_self a)
  exact foldl_set_once (fun b hb hother s => hkeep b hb (by simpa using hother) s) hfilter
    (fun s => hset a ha hkind hp s) s

theorem Never.keep {σ τ : Type} {kind : UInt16} (h : Never as kind) {effect : σ → Attribute → σ}
    (field : σ → τ) (hkeep : ∀ a ∈ as, a.kind ≠ kind → ∀ s, field (effect s a) = field s) (s : σ) :
    field (as.foldl effect s) = field s :=
  foldl_set_never (fun b hb hother s => hkeep b hb (by simpa using hother) s) h s

/-- What no attribute writes stays. -/
theorem foldl_keep {σ τ : Type} {effect : σ → Attribute → σ} (field : σ → τ)
    (hkeep : ∀ a s, field (effect s a) = field s) (as : List Attribute) (s : σ) :
    field (as.foldl effect s) = field s :=
  foldl_set_never (fun a _ _ s => hkeep a s) (List.filter_false as) s

/-! ### Numbers -/

theorem readU32Be_beBytes (n : UInt32) : readU32Be (beBytes 4 n.toNat) = some n := by
  have htake : (beBytes 4 n.toNat).take 4 = beBytes 4 n.toNat := List.take_of_length_le (by simp)
  unfold readU32Be
  rw [if_pos (by simp), htake, beNat_beBytes n.toNat_lt, UInt32.ofNat_toNat]

theorem statusFlags_eq (status : UInt32) : statusFlags status = flagNames status := by
  unfold statusFlags flagNames
  refine congrArg (List.map Prod.snd) (List.filter_congr fun flag hflag => ?_)
  have hlt : flag.1 < 32 := by
    have hall : ∀ flag ∈ ipsFlags, flag.1 < 32 := by decide
    exact hall flag hflag
  have hmask : (UInt32.ofNat (1 <<< flag.1)).toNat = 2 ^ flag.1 := by
    rw [Nat.one_shiftLeft]
    exact UInt32.toNat_ofNat_of_lt (Nat.pow_lt_pow_right (by decide) hlt)
  have hand : (status &&& UInt32.ofNat (1 <<< flag.1)).toNat =
      (status.toNat.testBit flag.1).toNat * 2 ^ flag.1 := by
    rw [UInt32.toNat_and, hmask, Nat.and_two_pow]
  have hzero : status &&& UInt32.ofNat (1 <<< flag.1) = 0 ↔ status.toNat.testBit flag.1 = false := by
    rw [← UInt32.toNat_inj, hand]
    cases status.toNat.testBit flag.1 <;> simp
  simp [hzero]

/-! ### Tuples -/

theorem ofNat_beNat_port (port : UInt16) : UInt16.ofNat (beNat (beBytes 2 port.toNat)) = port := by
  rw [beNat_beBytes port.toNat_lt, UInt16.ofNat_toNat]

theorem ofNat_beNat_counter (n : UInt64) : UInt64.ofNat (beNat (beBytes 8 n.toNat)) = n := by
  rw [beNat_beBytes n.toNat_lt, UInt64.ofNat_toNat]

/-- The loop over the addresses writes both. -/
theorem forAttributes_ip {src dst : IpAddr} (h : EncodesIp e src dst value) (s : TupleParts) :
    forAttributes e value ipStep s = .ok { s with src := some src, dst := some dst } := by
  obtain ⟨as, has, ⟨a, ha, hakind, hasrc⟩, b, hb, hbkind, hbdst⟩ := h
  have hsrc : (as.foldl (effectOf ipStep) s).src = some src := by
    refine foldl_set_once (fun a _ hother s => ?_) ha (fun s => ?_) s
    · simp only [effectOf, ipStep, Except.toOption, Option.getD_some]
      split_ifs <;> simp_all
    · unfold effectOf ipStep
      rw [hakind, hasrc]
      cases src <;> simp [Except.toOption, srcKind, octets, List.take_of_length_le, ipv4OfOctets_beBytes,
        ipv6OfOctets_beBytes, ctaIpV4Src, ctaIpV4Dst, ctaIpV6Src]
  have hdst : (as.foldl (effectOf ipStep) s).dst = some dst := by
    refine foldl_set_once (fun a _ hother s => ?_) hb (fun s => ?_) s
    · simp only [effectOf, ipStep, Except.toOption, Option.getD_some]
      split_ifs <;> simp_all
    · unfold effectOf ipStep
      rw [hbkind, hbdst]
      cases dst <;> simp [Except.toOption, dstKind, octets, List.take_of_length_le, ipv4OfOctets_beBytes,
        ipv6OfOctets_beBytes, ctaIpV4Src, ctaIpV4Dst, ctaIpV6Src, ctaIpV6Dst]
  rw [forAttributes_eq has fun _ _ _ => ⟨_, rfl⟩]
  refine congrArg Except.ok (TupleParts.ext hsrc hdst (foldl_keep TupleParts.protocol ?_ as s)
    (foldl_keep TupleParts.sport ?_ as s) (foldl_keep TupleParts.dport ?_ as s))
  all_goals
    intro a s
    simp only [effectOf, ipStep, Except.toOption, Option.getD_some]
    split_ifs <;> rfl

/-- The loop over the protocol and the ports writes all three. -/
theorem forAttributes_proto {protocol : UInt8} {sport dport : UInt16}
    (h : EncodesProto e protocol sport dport value) (s : TupleParts) :
    forAttributes e value protoStep s =
      .ok { s with protocol := some protocol, sport := some sport, dport := some dport } := by
  obtain ⟨as, has, hprotocol, hsport, hdport⟩ := h
  have hnum : (as.foldl (effectOf protoStep) s).protocol = some protocol := by
    refine hprotocol.set TupleParts.protocol (fun a _ hkind hpayload s => ?_) (fun a _ hkind s => ?_) s
    · simp [effectOf, protoStep, hkind, hpayload, Except.toOption]
    · simp only [effectOf, protoStep, Except.toOption, Option.getD_some]
      split_ifs <;> simp_all
  have hsrc : (as.foldl (effectOf protoStep) s).sport = some sport := by
    refine hsport.set TupleParts.sport (fun a _ hkind hpayload s => ?_) (fun a _ hkind s => ?_) s
    · simp [effectOf, protoStep, hkind, hpayload, Except.toOption, List.take_of_length_le,
        ofNat_beNat_port, ctaProtoNum, ctaProtoSrcPort]
    · simp only [effectOf, protoStep, Except.toOption, Option.getD_some]
      split_ifs <;> simp_all
  have hdst : (as.foldl (effectOf protoStep) s).dport = some dport := by
    refine hdport.set TupleParts.dport (fun a _ hkind hpayload s => ?_) (fun a _ hkind s => ?_) s
    · simp [effectOf, protoStep, hkind, hpayload, Except.toOption, List.take_of_length_le,
        ofNat_beNat_port, ctaProtoNum, ctaProtoSrcPort, ctaProtoDstPort]
    · simp only [effectOf, protoStep, Except.toOption, Option.getD_some]
      split_ifs <;> simp_all
  rw [forAttributes_eq has fun _ _ _ => ⟨_, rfl⟩]
  refine congrArg Except.ok (TupleParts.ext (foldl_keep TupleParts.src ?_ as s)
    (foldl_keep TupleParts.dst ?_ as s) hnum hsrc hdst)
  all_goals
    intro a s
    simp only [effectOf, protoStep, Except.toOption, Option.getD_some]
    split_ifs <;> rfl

/-- What an attribute of a tuple does. -/
def tupleEffect (protocol : UInt8) (key : EndpointKey) (s : TupleParts) (a : Attribute) : TupleParts :=
  if a.kind = ctaTupleIp then { s with src := some key.src, dst := some key.dst }
  else if a.kind = ctaTupleProto then
    { s with protocol := some protocol, sport := some key.sport, dport := some key.dport }
  else s

/-- **A tuple** is read back. -/
theorem parseTuple_encoded {protocol : UInt8} {key : EndpointKey}
    (h : EncodesTuple e protocol key value) : parseTuple e value = .ok (some (protocol, key)) := by
  obtain ⟨as, has, hip, hproto⟩ := h
  have hstep : ∀ a ∈ as, ∀ s, tupleStep e s a.kind a.payload = .ok (tupleEffect protocol key s a) := by
    intro a ha s
    unfold tupleStep tupleEffect
    split_ifs with hkip hkproto
    · exact forAttributes_ip (hip.payload ha hkip) s
    · exact forAttributes_proto (hproto.payload ha hkproto) s
    · rfl
  let parts := as.foldl (tupleEffect protocol key) ⟨none, none, none, none, none⟩
  have haddresses : (parts.src, parts.dst) = (some key.src, some key.dst) := by
    refine hip.set (fun s : TupleParts => (s.src, s.dst)) (fun a _ hkind _ s => ?_) (fun a _ hkind s => ?_) _
    · simp [tupleEffect, hkind]
    · simp only [tupleEffect, hkind, if_false]
      split_ifs <;> rfl
  have hports : (parts.protocol, parts.sport, parts.dport) =
      (some protocol, some key.sport, some key.dport) := by
    refine hproto.set (fun s : TupleParts => (s.protocol, s.sport, s.dport)) (fun a _ hkind _ s => ?_)
      (fun a _ hkind s => ?_) _
    · simp [tupleEffect, hkind, ctaTupleIp, ctaTupleProto]
    · simp only [tupleEffect, hkind, if_false]
      split_ifs <;> rfl
  obtain ⟨hsrc, hdst⟩ := Prod.mk.inj haddresses
  obtain ⟨hnum, hrest⟩ := Prod.mk.inj hports
  obtain ⟨hsport, hdport⟩ := Prod.mk.inj hrest
  have hparts : as.foldl (tupleEffect protocol key) ⟨none, none, none, none, none⟩ =
      ⟨some key.src, some key.dst, some protocol, some key.sport, some key.dport⟩ :=
    TupleParts.ext hsrc hdst hnum hsport hdport
  unfold parseTuple
  rw [forAttributes_encoded has hstep, hparts]
  rfl

/-! ### Counters and states -/

theorem parseCounters_encoded {counters : UInt64 × UInt64} (h : EncodesCounters e counters value) :
    parseCounters e value = .ok counters := by
  obtain ⟨as, has, hpackets, hbytes⟩ := h
  have hfst : (as.foldl (effectOf counterStep) (0, 0)).1 = counters.1 := by
    refine hpackets.set Prod.fst (fun a _ hkind hpayload s => ?_) (fun a _ hkind s => ?_) _
    · simp [effectOf, counterStep, hkind, hpayload, Except.toOption, List.take_of_length_le,
        ofNat_beNat_counter]
    · simp only [effectOf, counterStep, Except.toOption, Option.getD_some]
      split_ifs <;> simp_all
  have hsnd : (as.foldl (effectOf counterStep) (0, 0)).2 = counters.2 := by
    refine hbytes.set Prod.snd (fun a _ hkind hpayload s => ?_) (fun a _ hkind s => ?_) _
    · simp [effectOf, counterStep, hkind, hpayload, Except.toOption, List.take_of_length_le,
        ofNat_beNat_counter, ctaCountersPackets, ctaCountersBytes]
    · simp only [effectOf, counterStep, Except.toOption, Option.getD_some]
      split_ifs <;> simp_all
  unfold parseCounters
  rw [forAttributes_eq has fun _ _ _ => ⟨_, rfl⟩]
  exact congrArg Except.ok (Prod.ext hfst hsnd)

theorem filter_kind {kind : UInt16} {l : List Attribute}
    (h : (as.filter fun a => a.kind ∈ [kind]) = l) :
    ((as.map fun a => (a.kind, a.payload)).filter fun a => a.1 = kind) =
      l.map fun a => (a.kind, a.payload) := by
  rw [← h, List.filter_map]
  refine congrArg (List.map _) (List.filter_congr fun a _ => ?_)
  simp

theorem parseTcpState_encoded {state : Option UInt8} (h : EncodesProtoinfo e state value) :
    parseTcpState e value = state.map tcpStateName := by
  obtain ⟨as, has, a, ha, -, as', has', hstate⟩ := h
  unfold parseTcpState
  dsimp only
  rw [flatten_encoded has, filter_kind ha, List.map_singleton, List.flatMap_singleton,
    flatten_encoded has', ← List.head?_filter]
  cases state with
  | none =>
    have hnever : (as'.filter fun a => a.kind ∈ [ctaProtoinfoTcpState]) = [] := hstate
    rw [filter_kind hnever]
    rfl
  | some state =>
    obtain ⟨b, hb, -, hbpayload⟩ := hstate
    rw [filter_kind hb, List.map_singleton, List.head?_cons, Option.bind_some, hbpayload]
    rfl

/-! ### Messages -/

/-- What an attribute of a message does. -/
def messageEffect (e : Endian) (f : FlowInfo) (s : MessageParts) (a : Attribute) : MessageParts :=
  if a.kind = ctaTupleOrig then { s with orig := some (f.protocolNumber, f.orig) }
  else if a.kind = ctaTupleReply then { s with reply := some (f.protocolNumber, f.reply) }
  else if a.kind = ctaStatus then { s with status := readU32Be a.payload }
  else if a.kind = ctaProtoinfo then { s with protoinfo := parseTcpState e a.payload }
  else if a.kind = ctaCountersOrig then { s with origCounters := f.origCounters }
  else if a.kind = ctaCountersReply then { s with replyCounters := f.replyCounters }
  else if a.kind = ctaId then { s with id := readU32Be a.payload }
  else s

theorem messageStep_encoded {f : FlowInfo} (h : EncodesFlow e f as) {a : Attribute} (ha : a ∈ as)
    (s : MessageParts) : messageStep e s a.kind a.payload = .ok (messageEffect e f s a) := by
  unfold messageStep messageEffect
  split_ifs with h1 h2 h3 h4 h5 h6 h7
  · rw [parseTuple_encoded (h.orig.payload ha h1)]
    rfl
  · rw [parseTuple_encoded (h.reply.payload ha h2)]
    rfl
  · rfl
  · rfl
  · rw [parseCounters_encoded (h.origCounters.payload ha h5)]
    rfl
  · rw [parseCounters_encoded (h.replyCounters.payload ha h6)]
    rfl
  · rfl
  · rfl

/-- A number that may be missing. -/
theorem Optional.number {σ : Type} {kind : UInt16} {n : Option UInt32}
    (h : Optional as kind (fun (n : UInt32) payload => payload = beBytes 4 n.toNat) n)
    {effect : σ → Attribute → σ} (field : σ → Option UInt32) {s : σ} (hstart : field s = none)
    (hset : ∀ a, a.kind = kind → ∀ s, field (effect s a) = readU32Be a.payload)
    (hkeep : ∀ a ∈ as, a.kind ≠ kind → ∀ s, field (effect s a) = field s) :
    field (as.foldl effect s) = n := by
  cases n with
  | none => exact (Never.keep h field hkeep s).trans hstart
  | some n =>
    have honly : Only as [kind] kind (· = beBytes 4 n.toNat) := h
    refine honly.set field (fun a _ hkind hpayload s => ?_) hkeep s
    rw [hset a hkind, hpayload, readU32Be_beBytes]

section
variable {f : FlowInfo} (h : EncodesFlow e f as)

include h

/-- The variables after the loop. -/
structure Parsed (f : FlowInfo) (s : MessageParts) : Prop where
  orig : s.orig = some (f.protocolNumber, f.orig)
  reply : s.reply = some (f.protocolNumber, f.reply)
  status : s.status = f.status
  protoinfo : f.tcp = true → s.protoinfo = f.tcpState.map tcpStateName
  origCounters : s.origCounters = f.origCounters
  replyCounters : s.replyCounters = f.replyCounters
  id : s.id = f.id

theorem parsed_foldl :
    Parsed f (as.foldl (messageEffect e f) ⟨none, none, none, none, (0, 0), (0, 0), none⟩) where
  orig := by
    refine h.orig.set MessageParts.orig (fun a _ hkind _ s => ?_) (fun a _ hkind s => ?_) _
    · simp [messageEffect, hkind]
    · simp only [messageEffect, hkind, if_false]
      split_ifs <;> rfl
  reply := by
    refine h.reply.set MessageParts.reply (fun a _ hkind _ s => ?_) (fun a _ hkind s => ?_) _
    · simp [messageEffect, hkind, ctaTupleOrig, ctaTupleReply]
    · simp only [messageEffect, hkind, if_false]
      split_ifs <;> rfl
  status := by
    refine h.status.number MessageParts.status rfl (fun a hkind s => ?_) (fun a _ hkind s => ?_)
    · simp [messageEffect, hkind, ctaTupleOrig, ctaTupleReply, ctaStatus]
    · simp only [messageEffect, hkind, if_false]
      split_ifs <;> rfl
  protoinfo htcp := by
    have hkeep : ∀ a ∈ as, a.kind ≠ ctaProtoinfo → ∀ s,
        (messageEffect e f s a).protoinfo = s.protoinfo := by
      intro a _ hkind s
      simp only [messageEffect, hkind, if_false]
      split_ifs <;> rfl
    rcases h.protoinfo htcp with ⟨hnone, hnever⟩ | honly
    · rw [hnever.keep MessageParts.protoinfo hkeep, hnone]
      rfl
    · refine honly.set MessageParts.protoinfo (fun a _ hkind hpayload s => ?_) hkeep _
      rw [← parseTcpState_encoded hpayload]
      simp [messageEffect, hkind, ctaTupleOrig, ctaTupleReply, ctaStatus, ctaProtoinfo]
  origCounters := by
    refine h.origCounters.set MessageParts.origCounters (fun a _ hkind _ s => ?_)
      (fun a _ hkind s => ?_) _
    · simp [messageEffect, hkind, ctaTupleOrig, ctaTupleReply, ctaStatus, ctaProtoinfo, ctaCountersOrig]
    · simp only [messageEffect, hkind, if_false]
      split_ifs <;> rfl
  replyCounters := by
    refine h.replyCounters.set MessageParts.replyCounters (fun a _ hkind _ s => ?_)
      (fun a _ hkind s => ?_) _
    · simp [messageEffect, hkind, ctaTupleOrig, ctaTupleReply, ctaStatus, ctaProtoinfo, ctaCountersOrig,
        ctaCountersReply]
    · simp only [messageEffect, hkind, if_false]
      split_ifs <;> rfl
  id := by
    refine h.id.number MessageParts.id rfl (fun a hkind s => ?_) (fun a _ hkind s => ?_)
    · simp [messageEffect, hkind, ctaTupleOrig, ctaTupleReply, ctaStatus, ctaProtoinfo, ctaCountersOrig,
        ctaCountersReply, ctaId]
    · simp only [messageEffect, hkind, if_false]
      split_ifs <;> rfl

end

theorem flowOf_parsed {f : FlowInfo} {s : MessageParts} (h : Parsed f s) : flowOf s = some f.parsed := by
  unfold flowOf
  rw [h.orig, h.reply]
  dsimp only
  unfold FlowInfo.parsed FlowInfo.protocolNumber
  have hflags : (s.status.map statusFlags).getD [] = (f.status.map flagNames).getD [] := by
    rw [h.status, funext statusFlags_eq]
  cases htcp : f.tcp with
  | true => simp [h.id, h.protoinfo htcp, h.origCounters, h.replyCounters, hflags]
  | false => simp [h.id, h.origCounters, h.replyCounters, hflags]

end

section Sample

/-- A query to a name server. -/
def queryFlow : FlowInfo where
  tcp := false
  orig := ⟨.v4 0xC0A8010A, .v4 0x08080808, 40000, 53⟩
  reply := ⟨.v4 0x08080808, .v4 0xC0A8010A, 53, 40000⟩
  origCounters := (1, 60)
  replyCounters := (1, 200)
  id := none
  status := none
  tcpState := none

/-- An attribute whose payload is a number of 2, 4 or 8 bytes. -/
def attribute16 (kind n : UInt16) : Attribute := ⟨kind, beBytes 2 n.toNat, by simp⟩
def attribute32 (kind : UInt16) (n : UInt32) : Attribute := ⟨kind, beBytes 4 n.toNat, by simp⟩
def attribute64 (kind : UInt16) (n : UInt64) : Attribute := ⟨kind, beBytes 8 n.toNat, by simp⟩

def udpAttribute : Attribute := ⟨ctaProtoNum, [17], by decide⟩

def ipAttributes (src dst : UInt32) : List Attribute :=
  [attribute32 ctaIpV4Src src, attribute32 ctaIpV4Dst dst]

def udpAttributes (sport dport : UInt16) : List Attribute :=
  [udpAttribute, attribute16 ctaProtoSrcPort sport, attribute16 ctaProtoDstPort dport]

def counterAttributes (counters : UInt64 × UInt64) : List Attribute :=
  [attribute64 ctaCountersPackets counters.1, attribute64 ctaCountersBytes counters.2]

theorem length_encode_ip (src dst : UInt32) : (encode .little (ipAttributes src dst)).length = 16 := by
  simp [ipAttributes, attribute32, encode, Attribute.length_header, Attribute.padding, Attribute.length]

theorem length_encode_udp (sport dport : UInt16) :
    (encode .little (udpAttributes sport dport)).length = 24 := by
  simp [udpAttributes, udpAttribute, attribute16, encode, Attribute.length_header, Attribute.padding,
    Attribute.length]

/-- The addresses and the ports, flagged as nested. -/
def addressesAttribute (src dst : UInt32) : Attribute :=
  ⟨ctaTupleIp ||| 0x8000, encode .little (ipAttributes src dst), by simp [length_encode_ip]⟩

def portsAttribute (sport dport : UInt16) : Attribute :=
  ⟨ctaTupleProto ||| 0x8000, encode .little (udpAttributes sport dport), by simp [length_encode_udp]⟩

def tupleAttributes (src dst : UInt32) (sport dport : UInt16) : List Attribute :=
  [addressesAttribute src dst, portsAttribute sport dport]

theorem masked : (1 : UInt16) &&& 0x3fff = 1 ∧ (2 : UInt16) &&& 0x3fff = 2 ∧
    (3 : UInt16) &&& 0x3fff = 3 ∧ (1 ||| 0x8000 : UInt16) &&& 0x3fff = 1 ∧
    (2 ||| 0x8000 : UInt16) &&& 0x3fff = 2 := by
  decide

theorem encodesIp_sample (src dst : UInt32) :
    EncodesIp .little (.v4 src) (.v4 dst) (encode .little (ipAttributes src dst)) := by
  refine ⟨ipAttributes src dst, encoded_encode _, ⟨attribute32 ctaIpV4Src src, ?_, ?_, rfl⟩,
    attribute32 ctaIpV4Dst dst, ?_, ?_, rfl⟩ <;>
  simp [ipAttributes, attribute32, Attribute.kind, srcKind, dstKind, ctaIpV4Src, ctaIpV4Dst, ctaIpV6Src,
    ctaIpV6Dst, masked]

theorem encodesProto_sample (sport dport : UInt16) :
    EncodesProto .little 17 sport dport (encode .little (udpAttributes sport dport)) := by
  refine ⟨udpAttributes sport dport, encoded_encode _, ⟨udpAttribute, ?_, ?_, rfl⟩,
    ⟨attribute16 ctaProtoSrcPort sport, ?_, ?_, rfl⟩,
    attribute16 ctaProtoDstPort dport, ?_, ?_, rfl⟩ <;>
  simp [udpAttributes, udpAttribute, attribute16, Attribute.kind, ctaProtoNum, ctaProtoSrcPort,
    ctaProtoDstPort, masked]

theorem encodesTuple_sample (src dst : UInt32) (sport dport : UInt16) :
    EncodesTuple .little 17 ⟨.v4 src, .v4 dst, sport, dport⟩
      (encode .little (tupleAttributes src dst sport dport)) := by
  refine ⟨tupleAttributes src dst sport dport, encoded_encode _,
    ⟨addressesAttribute src dst, ?_, ?_, encodesIp_sample src dst⟩,
    portsAttribute sport dport, ?_, ?_, encodesProto_sample sport dport⟩ <;>
  simp [tupleAttributes, addressesAttribute, portsAttribute, Attribute.kind, ctaTupleIp, ctaTupleProto,
    masked]

theorem encodesCounters_sample (counters : UInt64 × UInt64) :
    EncodesCounters .little counters (encode .little (counterAttributes counters)) := by
  refine ⟨counterAttributes counters, encoded_encode _,
    ⟨attribute64 ctaCountersPackets counters.1, ?_, ?_, rfl⟩,
    attribute64 ctaCountersBytes counters.2, ?_, ?_, rfl⟩ <;>
  simp [counterAttributes, attribute64, Attribute.kind, ctaCountersPackets, ctaCountersBytes, masked]

def queryAttributes : List Attribute :=
  [⟨ctaTupleOrig ||| 0x8000, encode .little (tupleAttributes 0xC0A8010A 0x08080808 40000 53), by decide⟩,
    ⟨ctaTupleReply ||| 0x8000, encode .little (tupleAttributes 0x08080808 0xC0A8010A 53 40000),
      by decide⟩,
    ⟨ctaCountersOrig, encode .little (counterAttributes (1, 60)), by decide⟩,
    ⟨ctaCountersReply, encode .little (counterAttributes (1, 200)), by decide⟩]

end Sample

end BandixPlus.Conntrack.FlowMessage
