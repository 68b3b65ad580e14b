import BandixPlus.Persistence.RingDamage

/-! # Appends that are cut short

An append writes its record into the next slot and then the header. Here it stops after some bytes of
the record: the header is still the old one, and for a full ring the next slot is that of the oldest
record, which the old header counts.

* `read_tornAppend_iff`: what is read stays the same if and only if the ring was not full, or the bytes
  that were written are those that the slot held. -/

namespace BandixPlus.Persistence.RingTorn

open BandixPlus.Lib.Bytes BandixPlus.Lib.RingBuffer BandixPlus.Persistence.Ring
open BandixPlus.Persistence.RingCodec BandixPlus.Persistence.RingDamage
open BandixPlus.Persistence.RingFile

/-- `append_ring_record_with_capacity`, stopped after the first `k` bytes of the record. -/
def tornAppend (s : Store) (record : RingRecord) (slotCount k : ℕ) : Store :=
  match openOrCreateRing s slotCount with
  | (.error _, s) => s
  | (.ok bytes, s) =>
    match readRingHeader bytes with
    | .error _ => s
    | .ok header =>
      let slot := header.writePos % header.slotCount
      let written := (encodeRingRecord record).take k
      { s with file := some (writeAt bytes (ringDataOffset header slot) written) }

variable {bytes data : List UInt8} {header : RingHeader} {records : List RingRecord} {s : Store}
  {record : RingRecord} {slotCount : Capacity} {k : ℕ}

theorem tornAppend_eq (h : Layout bytes header) (hs : s.file = some bytes)
    (hcurrent : Current header slotCount) :
    tornAppend s record slotCount k =
      { s with file := some (writeAt bytes (ringDataOffset header header.writePos)
          ((encodeRingRecord record).take k)) } := by
  unfold tornAppend
  rw [open_current h hs hcurrent]
  dsimp only
  rw [h.header_eq]
  dsimp only
  rw [Nat.mod_eq_of_lt h.headerOk.writePos]

section
variable (h : IsRing bytes header records) (hdata : data.length ≤ header.recordSize)
include h

theorem readRingHeader_writeSlot (data : List UInt8) :
    readRingHeader (writeAt bytes (ringDataOffset header header.writePos) data) = .ok header := by
  have hoff := ringDataOffset_writePos_le h.layout h.positioned
  have hle : ringHeaderSize ≤ ringDataOffset header header.writePos := Nat.le_add_right _ _
  rw [← h.header_eq]
  refine readRingHeader_congr ?_
  rw [writeAt_eq hoff, List.append_assoc, List.take_append_of_le_length (by simp; omega),
    List.take_take, Nat.min_eq_left hle]

include hdata

theorem length_writeSlot : bytes.length ≤
      (writeAt bytes (ringDataOffset header header.writePos) data).length ∧
    (writeAt bytes (ringDataOffset header header.writePos) data).length ≤ ringTotalSize header := by
  have hoff := ringDataOffset_writePos_le h.layout h.positioned
  have hmax := h.size_max
  have hslot := Nat.mul_le_mul_right header.recordSize (Nat.succ_le_of_lt h.headerOk.writePos)
  rw [Nat.succ_mul] at hslot
  rw [length_writeAt hoff]
  unfold ringDataOffset
  unfold ringTotalSize at hmax ⊢
  omega

theorem layout_writeSlot :
    Layout (writeAt bytes (ringDataOffset header header.writePos) data) header := by
  obtain ⟨hgrows, hmax⟩ := length_writeSlot h hdata
  exact ⟨readRingHeader_writeSlot h data, fun _ => h.filled, h.size_min.trans hgrows, hmax⟩

/-- The other slots are left alone. -/
theorem ringSlot_writeSlot {i : ℕ} (hi : i ≠ header.writePos) :
    ringSlot (writeAt bytes (ringDataOffset header header.writePos) data) header i =
      ringSlot bytes header i := by
  have hoff := ringDataOffset_writePos_le h.layout h.positioned
  have hdisjoint := ringDataOffset_disjoint header hi
  unfold ringSlot
  rw [slice_writeAt_of_disjoint hoff (by omega)]

/-! ### A ring that is not full -/

/-- The slot is behind the records. -/
theorem isRing_writeSlot (hroom : header.validCount < header.slotCount) :
    IsRing (writeAt bytes (ringDataOffset header header.writePos) data) header records := by
  obtain ⟨hgrows, hmax⟩ := length_writeSlot h hdata
  refine ⟨readRingHeader_writeSlot h data, h.filled, h.size_min.trans hgrows, hmax, ?_⟩
  rw [← h.slots]
  refine contents_congr fun i hi => ringSlot_writeSlot h hdata ?_
  have hlt := h.positioned.slot_lt (Nat.le_refl _) hi
  have hfilled := h.filled hroom
  omega

end

/-! ### A full ring -/

section
variable (h : IsRing bytes header records) (hfull : header.validCount = header.slotCount)
include h hfull

/-- The slot is that of the oldest record. -/
theorem contents_full (slots : ℕ → Except String RingRecord) :
    (contents slots header.slotCount header.writePos header.validCount).head? =
      some (slots header.writePos) := by
  have hpos := h.headerOk.slotCount_pos
  have hwrite := h.headerOk.writePos
  obtain ⟨n, hn⟩ : ∃ n, header.validCount = n + 1 := ⟨header.validCount - 1, by omega⟩
  have hslot : (header.writePos + header.slotCount - header.validCount + 0) % header.slotCount =
      header.writePos := by
    rw [hfull, Nat.add_sub_cancel, Nat.add_zero, Nat.mod_eq_of_lt hwrite]
  have hhead : (List.range header.validCount).head? = some 0 := by
    rw [hn, List.range_succ_eq_map]
    rfl
  unfold contents
  rw [List.head?_map, hhead, Option.map_some, hslot]

theorem slot_in_bytes :
    ringDataOffset header header.writePos + header.recordSize ≤ bytes.length :=
  h.layout.slot_in_file (by have := h.headerOk.writePos; omega)

/-- **The records are still there only if the write has changed nothing.** -/
theorem slice_eq_of_read (hversion : header.version = ringVersion)
    (hdata : data.length ≤ header.recordSize)
    (hs : s.file = some (writeAt bytes (ringDataOffset header header.writePos) data))
    (hread : (readRingRecords s).1 = .ok records) :
    data = slice bytes (ringDataOffset header header.writePos) data.length := by
  have hin := slot_in_bytes h hfull
  have hlayout := layout_writeSlot h hdata
  -- the slot decodes to the record that it held
  have hslot : ringSlot (writeAt bytes (ringDataOffset header header.writePos) data) header
      header.writePos = ringSlot bytes header header.writePos := by
    have hall := readRingRecordsLimited_of_layout hlayout hs (2 ^ 32 - 1)
    rw [newest_all h.headerOk] at hall
    unfold newest at hall
    rw [Nat.min_self] at hall
    rcases hall with ⟨records', hnewest, hread'⟩ | ⟨-, hread'⟩
    · have heq : records' = records := by
        have hfst := congrArg Prod.fst hread'
        exact Except.ok.inj (hfst.symm.trans hread)
      rw [heq, ← h.slots] at hnewest
      have hhead := congrArg List.head? hnewest
      rw [contents_full h hfull, contents_full h hfull] at hhead
      exact Option.some.inj hhead
    · have hfst := congrArg Prod.fst hread'
      have hnil : records = [] := Except.ok.inj (hread.symm.trans hfst)
      have hlen := h.length_records
      have hpos := h.headerOk.slotCount_pos
      rw [hnil, List.length_nil] at hlen
      omega
  obtain ⟨record, hrecord⟩ : ∃ record, ringSlot bytes header header.writePos = .ok record := by
    have hhead := contents_full h hfull (ringSlot bytes header)
    rw [h.slots, List.head?_map] at hhead
    obtain ⟨record, -, hrecord⟩ := Option.map_eq_some_iff.mp hhead
    exact ⟨record, hrecord.symm⟩
  rw [hrecord] at hslot
  unfold ringSlot at hslot hrecord
  rw [hversion] at hslot hrecord
  -- so its bytes are those that it held
  have hbytes := (encode_of_decode hslot).symm.trans (encode_of_decode hrecord)
  have hsplit : header.recordSize = data.length + (header.recordSize - data.length) := by omega
  rw [slice_writeAt_part hin hdata] at hbytes
  conv_rhs at hbytes => rw [hsplit, slice_add]
  exact (List.append_inj hbytes (length_slice (by omega)).symm).1

end

/-- **When an append that is cut short leaves the history as it was**: if and only if the ring was not
full, or the bytes that were written are those that the slot of the oldest record held. -/
theorem read_tornAppend_iff (s : Store) (bytes : List UInt8) (header : RingHeader)
    (records : List RingRecord) (slotCount : Capacity) (hs : s.file = some bytes)
    (h : IsRing bytes header records) (hcurrent : Current header slotCount) (record : RingRecord)
    (k : ℕ) (hk : k ≤ ringRecordSize) :
    (readRingRecords (tornAppend s record slotCount k)).1 = (readRingRecords s).1 ↔
      header.validCount < header.slotCount ∨
        (encodeRingRecord record).take k = slice bytes (ringDataOffset header header.writePos) k := by
  have hsize : header.recordSize = ringRecordSize := by
    rw [h.headerOk.recordSize, hcurrent.1]
    rfl
  have hlen : ((encodeRingRecord record).take k).length = k := by
    rw [List.length_take, length_encodeRingRecord]
    omega
  have hdata : ((encodeRingRecord record).take k).length ≤ header.recordSize := by omega
  have hle := h.headerOk.validCount
  rw [tornAppend_eq h.layout hs hcurrent, readRingRecords_of_isRing h hs]
  constructor
  · intro hread
    rcases Nat.lt_or_ge header.validCount header.slotCount with hroom | hfull
    · exact Or.inl hroom
    · have hslice := slice_eq_of_read h (by omega) hcurrent.1 hdata rfl hread
      rw [hlen] at hslice
      exact Or.inr hslice
  · rintro (hroom | hsame)
    · rw [readRingRecords_of_isRing (isRing_writeSlot h hdata hroom) rfl]
    · rcases Nat.lt_or_ge header.validCount header.slotCount with hroom | hfull
      · rw [readRingRecords_of_isRing (isRing_writeSlot h hdata hroom) rfl]
      · have hin := slot_in_bytes h (by omega)
        rw [hsame, writeAt_slice (by omega), readRingRecords_of_isRing h rfl]

/-- The ring of the sample: one slot, with one record. -/
def fullRing : List UInt8 := convertedRing 1 [sampleRecord]

theorem isRing_fullRing : IsRing fullRing (convertedHeader 1 1) [sampleRecord] :=
  isRing_convertedRing (by decide) (by decide) (by decide)

/-- One byte has been written. -/
theorem read_tornAppend_iff_byte :
    (readRingRecords (tornAppend ⟨some fullRing, []⟩ ⟨.empty 3600000 7199999⟩ 1 1)).1 =
        (readRingRecords ⟨some fullRing, []⟩).1 ↔
      (convertedHeader 1 1).validCount < (convertedHeader 1 1).slotCount ∨
        (encodeRingRecord ⟨.empty 3600000 7199999⟩).take 1 =
          slice fullRing (ringDataOffset (convertedHeader 1 1) (convertedHeader 1 1).writePos) 1 :=
  read_tornAppend_iff ⟨some fullRing, []⟩ fullRing (convertedHeader 1 1) [sampleRecord]
    ⟨1, by decide⟩ rfl isRing_fullRing ⟨rfl, rfl⟩ ⟨.empty 3600000 7199999⟩ 1 (by decide)

/-- **A torn write to a full ring loses its history**: the first byte of the next hour is written over
that of the hour before. -/
theorem tornAppend_loses :
    IsRing fullRing (convertedHeader 1 1) [sampleRecord] ∧
      (readRingRecords ⟨some fullRing, []⟩).1 = .ok [sampleRecord] ∧
      (readRingRecords (tornAppend ⟨some fullRing, []⟩ ⟨.empty 3600000 7199999⟩ 1 1)).1 ≠
        .ok [sampleRecord] := by
  have hring := isRing_fullRing
  refine ⟨hring, congrArg Prod.fst (readRingRecords_of_isRing hring rfl), fun hread => ?_⟩
  have hcurrent : Current (convertedHeader 1 1) (⟨1, by decide⟩ : Capacity) := ⟨rfl, rfl⟩
  have htorn : tornAppend ⟨some fullRing, []⟩ ⟨.empty 3600000 7199999⟩ (⟨1, by decide⟩ : Capacity) 1 =
      _ := tornAppend_eq hring.layout rfl hcurrent
  have hslice := slice_eq_of_read hring rfl rfl (by decide) (congrArg Store.file htorn) hread
  exact absurd hslice (by decide)

end BandixPlus.Persistence.RingTorn
