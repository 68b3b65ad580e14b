import BandixPlus.Ebpf.Framing
import BandixPlus.Lib.Layout

/-! # Captured packets

`capture_dns_packet` of the eBPF program writes a DNS packet into an entry of the ring buffer, behind a
`DnsPacketHeader` in the layout of C and in the byte order of the machine. What the entry held before stays
behind the packet and in the padding of the header. As for the filter, the packet lies linearly in the socket
buffer.

* `readHeader_event`: userspace reads the header that the kernel wrote.
* `cut_event`: behind it are the bytes of the packet. -/

namespace BandixPlus.Ebpf.Capture

open BandixPlus.Common BandixPlus.Lib.Bytes BandixPlus.Lib.Checked BandixPlus.Lib.Layout
open BandixPlus.Ebpf.DnsFilter BandixPlus.Ebpf.Framing

def dnsPacketMaxBytes : ℕ := 1600

/-- `size_of::<DnsPacketHeader>()`: 28 bytes, padded to a multiple of 8. -/
def headerSize : ℕ := 32

/-- What `reserve` returns: memory for a `DnsPacketEvent`, with any contents. -/
structure Entry where
  bytes : List UInt8
  size : bytes.length = headerSize + dnsPacketMaxBytes

/-- A packet at the hook, with the time and the entry that is reserved for it if there is room. -/
structure Frame where
  ifindex : UInt32
  direction : UInt8
  data : Slice
  nowNs : UInt64
  entry : Option Entry

/-! ### Events -/

/-- The fields of the header, up to `_pad`. -/
def headerBytes (e : Endian) (header : DnsPacketHeader) : List UInt8 :=
  e.bytes 8 header.timestampNs.toNat ++ (e.bytes 4 header.ifindex.toNat ++
    (e.bytes 4 header.capturedLen.toNat ++ (e.bytes 2 header.ipOffset.toNat ++
      ([header.ipVersion, header.direction] ++ (header.mac.toList ++ [header.hasMac, 0])))))

@[simp] theorem length_headerBytes (e : Endian) (header : DnsPacketHeader) :
    (headerBytes e header).length = 28 := by
  simp [headerBytes]

/-- The packet is loaded behind the header, then the header is written. -/
def eventBytes (e : Endian) (header : DnsPacketHeader) (packet : Slice) (entry : Entry) : List UInt8 :=
  writeAt (writeAt entry.bytes headerSize packet.bytes) 0 (headerBytes e header)

theorem length_eventBytes (e : Endian) (header : DnsPacketHeader) {packet : Slice} (entry : Entry)
    (h : packet.len ≤ dnsPacketMaxBytes) :
    (eventBytes e header packet entry).length = headerSize + dnsPacketMaxBytes := by
  have hsize := entry.size
  have hlen : packet.len = packet.bytes.length := rfl
  unfold eventBytes
  rw [length_writeAt (Nat.zero_le _), length_writeAt (by omega), length_headerBytes, hsize]
  unfold headerSize dnsPacketMaxBytes at *
  omega

theorem short_eventBytes {e : Endian} {header : DnsPacketHeader} {packet : Slice} {entry : Entry}
    (h : packet.len ≤ dnsPacketMaxBytes) : (eventBytes e header packet entry).length < 2 ^ 63 := by
  rw [length_eventBytes e header entry h]
  decide

def event (e : Endian) (header : DnsPacketHeader) (packet : Slice) (entry : Entry)
    (h : packet.len ≤ dnsPacketMaxBytes) : Slice :=
  ⟨eventBytes e header packet entry, short_eventBytes h⟩

def headerOf (frame : Frame) (packetMeta : PacketMeta) : DnsPacketHeader where
  timestampNs := frame.nowNs
  ifindex := frame.ifindex
  capturedLen := UInt32.ofNat frame.data.len
  ipOffset := packetMeta.ipOffset
  ipVersion := packetMeta.ipVersion
  direction := frame.direction
  mac := packetMeta.mac.getD (Vector.replicate 6 0)
  hasMac := if packetMeta.mac.isSome then 1 else 0

def captureDnsPacket (e : Endian) (frame : Frame) (packetMeta : PacketMeta) : Option Slice :=
  if h : 0 < frame.data.len ∧ frame.data.len ≤ dnsPacketMaxBytes then
    if isDnsPacket frame.data packetMeta.ipOffset.toNat packetMeta.ipVersion then
      frame.entry.map fun entry => event e (headerOf frame packetMeta) frame.data entry h.2
    else none
  else none

/-! ### Reading -/

/-- `read_unaligned` of a `DnsPacketHeader`. -/
def readHeader (e : Endian) (item : Slice) : DnsPacketHeader where
  timestampNs := UInt64.ofNat (e.nat (item.cut 0 8).bytes)
  ifindex := UInt32.ofNat (e.nat (item.cut 8 12).bytes)
  capturedLen := UInt32.ofNat (e.nat (item.cut 12 16).bytes)
  ipOffset := UInt16.ofNat (e.nat (item.cut 16 18).bytes)
  ipVersion := item.byte 18
  direction := item.byte 19
  mac := macAt item 20
  hasMac := item.byte 26

variable {e : Endian} {header : DnsPacketHeader} {packet : Slice} {entry : Entry}
  {h : packet.len ≤ dnsPacketMaxBytes}

theorem holds_header : Holds (event e header packet entry h) 0 (headerBytes e header) :=
  slice_writeAt_self (Nat.zero_le _)

theorem holds_packet : Holds (event e header packet entry h) headerSize packet.bytes := by
  have hsize := entry.size
  show slice (eventBytes e header packet entry) headerSize packet.bytes.length = packet.bytes
  unfold eventBytes
  rw [slice_writeAt_of_disjoint (Nat.zero_le _) (Or.inr (by simp [headerSize])),
    slice_writeAt_self (by omega)]

/-- A number that stands somewhere is read. -/
theorem nat_cut {item : Slice} {i w n : ℕ} (hholds : Holds item i (e.bytes w n)) (hn : n < 256 ^ w) :
    e.nat (item.cut i (i + w)).bytes = n := by
  have hbytes := hholds.bytes_cut
  rw [Endian.length_bytes] at hbytes
  rw [hbytes, Endian.nat_bytes e hn]

theorem macAt_eq {item : Slice} {i : ℕ} {mac : Mac} (hholds : Holds item i mac.toList) :
    macAt item i = mac := by
  have hbytes := hholds.bytes_cut
  rw [Vector.length_toList] at hbytes
  refine Vector.ext fun j hj => ?_
  have hbyte := Slice.byte_cut (s := item) (a := i) (b := i + 6) (i := j) (by omega)
  unfold macAt
  rw [Vector.getElem_ofFn, ← hbyte]
  unfold Slice.byte
  rw [hbytes]
  simp [List.getD_eq_getElem?_getD, hj]

/-- **The header comes back.** -/
theorem readHeader_event : readHeader e (event e header packet entry h) = header := by
  have hall : Holds (event e header packet entry h) 0 (headerBytes e header) := holds_header
  unfold headerBytes at hall
  simp only [holds_append, Endian.length_bytes, Nat.zero_add, List.length_cons, List.length_nil,
    Vector.length_toList, Nat.reduceAdd] at hall
  obtain ⟨htime, hifindex, hlen, hoffset, hversion, hmac, hhas⟩ := hall
  obtain ⟨hversion, hdirection⟩ := holds_cons.mp hversion
  obtain ⟨hhas, -⟩ := holds_cons.mp hhas
  have htime' := nat_cut htime header.timestampNs.toNat_lt
  have hifindex' := nat_cut hifindex header.ifindex.toNat_lt
  have hlen' := nat_cut hlen header.capturedLen.toNat_lt
  have hoffset' := nat_cut hoffset header.ipOffset.toNat_lt
  simp only [Nat.zero_add, Nat.reduceAdd] at htime' hifindex' hlen' hoffset'
  unfold readHeader
  rw [htime', hifindex', hlen', hoffset', hversion.byte.2, hdirection.byte.2, macAt_eq hmac, hhas.byte.2]
  simp

theorem eq_of_bytes {s t : Slice} (h : s.bytes = t.bytes) : s = t := by
  cases s
  cases t
  cases h
  rfl

/-- **The packet comes back.** -/
theorem cut_event : (event e header packet entry h).cut headerSize (headerSize + packet.len) = packet := by
  have hholds : Holds (event e header packet entry h) headerSize packet.bytes := holds_packet
  exact eq_of_bytes hholds.bytes_cut

/-- A frame is captured if it is a DNS packet that fits and there is room for it. -/
theorem captureDnsPacket_eq_some {frame : Frame} {packetMeta : PacketMeta} {item : Slice} :
    captureDnsPacket e frame packetMeta = some item ↔
      ∃ (h : frame.data.len ≤ dnsPacketMaxBytes) (entry : Entry), 0 < frame.data.len ∧
        isDnsPacket frame.data packetMeta.ipOffset.toNat packetMeta.ipVersion = true ∧
        frame.entry = some entry ∧ event e (headerOf frame packetMeta) frame.data entry h = item := by
  unfold captureDnsPacket
  constructor
  · intro hcapture
    split_ifs at hcapture with hfits hdns
    obtain ⟨entry, hentry, heq⟩ := Option.map_eq_some_iff.mp hcapture
    exact ⟨hfits.2, entry, hfits.1, hdns, hentry, heq⟩
  · rintro ⟨h, entry, hpos, hdns, hentry, heq⟩
    rw [dif_pos ⟨hpos, h⟩, if_pos hdns, hentry, ← heq]
    rfl

end BandixPlus.Ebpf.Capture
