import BandixPlus.Lib.RingBuffer
import BandixPlus.Lib.Run
import BandixPlus.Persistence.RingCodec

/-! # Ring files hold the last records

A well-formed ring file stands for a list of records, oldest first (`IsRing`). A file may also be
opened and read by its header while records in it are damaged (`Layout`).

* `readRingRecordsLimited_of_layout`: reading decodes the newest slots, or gives the file up.
* `readRingRecordsLimited_of_isRing`: reading returns the newest records of the list.
* `openOrCreateRing_of_isRing`: opening with a capacity keeps the newest records, whatever the version
  and the capacity before.
* `isRing_pushRecord`: an append adds its record.
* `ring_refines_list`: any sequence of operations does to the file what it does to the list. -/

namespace BandixPlus.Persistence.Ring

open BandixPlus.Lib.Bytes BandixPlus.Lib.RingBuffer BandixPlus.Lib.Run
open BandixPlus.Persistence.RingFile BandixPlus.Persistence.RingCodec

/-- The record in a slot. -/
def ringSlot (bytes : List UInt8) (header : RingHeader) (i : ℕ) : Except String RingRecord :=
  decodeRingRecord (slice bytes (ringDataOffset header i) header.recordSize) header.version

/-! ### Files whose records may be damaged -/

/-- **A file that is opened and read by this header.** -/
structure Layout (bytes : List UInt8) (header : RingHeader) : Prop where
  header_eq : readRingHeader bytes = .ok header
  filled : 0 < header.validCount → header.validCount < header.slotCount →
    header.writePos = header.validCount
  size_min : ringHeaderSize + header.validCount * header.recordSize ≤ bytes.length
  size_max : bytes.length ≤ ringTotalSize header

/-- The newest slots, at most `n`, oldest first. -/
def newest (bytes : List UInt8) (header : RingHeader) (n : ℕ) : List (Except String RingRecord) :=
  contents (ringSlot bytes header) header.slotCount header.writePos (min header.validCount n)

variable {bytes : List UInt8} {header : RingHeader}

theorem Layout.headerOk (h : Layout bytes header) : HeaderOk header := (readRingHeader_ok h.header_eq).1

/-- The bounds of the size are those of the records, unless the positions disagree. -/
theorem ringSizeBounds_eq (hok : HeaderOk header) (hfilled : 0 < header.validCount →
    header.validCount < header.slotCount → header.writePos = header.validCount) :
    ringSizeBounds header =
      .ok (ringHeaderSize + header.validCount * header.recordSize, ringTotalSize header) := by
  have hle := hok.validCount
  unfold RingFile.ringSizeBounds ringMinSize
  split_ifs with hzero hlt hpos
  · rw [hzero, Nat.zero_mul, Nat.add_zero]
  · exact absurd (hfilled (by omega) hlt) hpos
  · rfl
  · rw [show header.slotCount = header.validCount by omega]

theorem ringSizeBounds_ne_ok (hpos : 0 < header.validCount) (hlt : header.validCount < header.slotCount)
    (hne : header.writePos ≠ header.validCount) : ∃ e, ringSizeBounds header = .error e := by
  unfold RingFile.ringSizeBounds ringMinSize
  rw [if_neg hpos.ne', if_pos hlt, if_pos hne]
  exact ⟨_, rfl⟩

theorem Layout.ringSizeBounds (h : Layout bytes header) : ringSizeBounds header =
    .ok (ringHeaderSize + header.validCount * header.recordSize, ringTotalSize header) :=
  ringSizeBounds_eq h.headerOk h.filled

theorem Layout.in_bounds (h : Layout bytes header) :
    ¬ (bytes.length < ringHeaderSize + header.validCount * header.recordSize ∨
      ringTotalSize header < bytes.length) := by
  have h₁ := h.size_min
  have h₂ := h.size_max
  omega

/-- The positions and the count of a ring that starts at slot 0 while it holds no record. -/
theorem Layout.positioned (h : Layout bytes header)
    (hstart : header.validCount = 0 → header.writePos = 0) :
    Positioned header.slotCount header.writePos header.validCount := by
  refine ⟨h.headerOk.writePos, h.headerOk.validCount, fun hlt => ?_⟩
  rcases Nat.eq_zero_or_pos header.validCount with hzero | hpos
  · rw [hstart hzero, hzero]
  · exact h.filled hpos hlt

/-- A slot that holds a record lies in the file. -/
theorem Layout.slot_in_file (h : Layout bytes header) {i : ℕ} (hi : i < header.validCount) :
    ringDataOffset header i + header.recordSize ≤ bytes.length := by
  have hmul := Nat.mul_le_mul_right header.recordSize (Nat.succ_le_of_lt hi)
  have hmin := h.size_min
  rw [Nat.succ_mul] at hmul
  unfold ringDataOffset
  omega

/-- Two slots do not overlap. -/
theorem ringDataOffset_disjoint (header : RingHeader) {i j : ℕ} (h : i ≠ j) :
    ringDataOffset header i + header.recordSize ≤ ringDataOffset header j ∨
      ringDataOffset header j + header.recordSize ≤ ringDataOffset header i := by
  unfold ringDataOffset
  rcases Nat.lt_or_gt_of_ne h with hlt | hgt
  · have hmul := Nat.mul_le_mul_right header.recordSize (Nat.succ_le_of_lt hlt)
    rw [Nat.succ_mul] at hmul
    omega
  · have hmul := Nat.mul_le_mul_right header.recordSize (Nat.succ_le_of_lt hgt)
    rw [Nat.succ_mul] at hmul
    omega

/-- What a reader makes of a row of slots. -/
def readAll : List (Except String RingRecord) → Except ReadError (List RingRecord)
  | [] => .ok []
  | .error _ :: _ => .error .corrupt
  | .ok record :: rest =>
    match readAll rest with
    | .error e => .error e
    | .ok records => .ok (record :: records)

theorem readAll_map_ok (records : List RingRecord) : readAll (records.map .ok) = .ok records := by
  induction records with
  | nil => rfl
  | cons record records ih =>
    rw [List.map_cons, readAll, ih]

theorem readAll_cases (l : List (Except String RingRecord)) :
    (∃ records : List RingRecord, l = records.map .ok) ∨
      ((∃ e, .error e ∈ l) ∧ readAll l = .error .corrupt) := by
  induction l with
  | nil => exact .inl ⟨[], rfl⟩
  | cons x l ih =>
    cases x with
    | error e => exact .inr ⟨⟨e, List.mem_cons_self⟩, rfl⟩
    | ok record =>
      rcases ih with ⟨records, rfl⟩ | ⟨⟨e, he⟩, hcorrupt⟩
      · exact .inl ⟨record :: records, rfl⟩
      · refine .inr ⟨⟨e, List.mem_cons_of_mem _ he⟩, ?_⟩
        rw [readAll, hcorrupt]

/-- The reader stands at the next slot, or jumps to it. -/
theorem readSlots_eq {startIdx : ℕ} (hslots : 0 < header.slotCount) {n i pos : ℕ}
    (hfile : ∀ j < n, ringDataOffset header ((startIdx + (i + j)) % header.slotCount)
      + header.recordSize ≤ bytes.length)
    (hpos : pos = ringDataOffset header ((startIdx + i) % header.slotCount) ∨
      (0 < i ∧ (startIdx + i) % header.slotCount = 0)) :
    readSlots bytes header startIdx n i pos = readAll ((List.range n).map fun j =>
      ringSlot bytes header ((startIdx + (i + j)) % header.slotCount)) := by
  induction n generalizing i pos with
  | zero => rfl
  | succ n ih =>
    have hfile₀ := hfile 0 (Nat.succ_pos n)
    rw [Nat.add_zero] at hfile₀
    -- where the record is read
    have hat : (if 0 < i ∧ (startIdx + i) % header.slotCount = 0 then
        ringDataOffset header ((startIdx + i) % header.slotCount) else pos) =
        ringDataOffset header ((startIdx + i) % header.slotCount) := by
      split_ifs with hjump
      · rfl
      · exact hpos.resolve_right hjump
    -- and where the next one is
    have hnext : ringDataOffset header ((startIdx + i) % header.slotCount) + header.recordSize =
        ringDataOffset header ((startIdx + (i + 1)) % header.slotCount) ∨
        (0 < i + 1 ∧ (startIdx + (i + 1)) % header.slotCount = 0) := by
      rw [← Nat.add_assoc, succ_mod hslots]
      split_ifs
      · left
        unfold ringDataOffset
        rw [Nat.succ_mul]
        omega
      · right
        omega
    have hrest : readSlots bytes header startIdx n (i + 1)
        (ringDataOffset header ((startIdx + i) % header.slotCount) + header.recordSize) =
        readAll ((List.range n).map fun j =>
          ringSlot bytes header ((startIdx + (i + (j + 1))) % header.slotCount)) := by
      rw [ih (fun j hj => ?_) hnext]
      · refine congrArg readAll (List.map_congr_left fun j _ => ?_)
        rw [show i + 1 + j = i + (j + 1) by omega]
      · have := hfile (j + 1) (by omega)
        rwa [show i + (j + 1) = i + 1 + j by omega] at this
    unfold readSlots
    dsimp only
    rw [if_neg (Nat.not_lt.mpr hfile₀), hat, if_neg (Nat.not_lt.mpr hfile₀), hrest,
      List.range_succ_eq_map, List.map_cons, List.map_map, Nat.add_zero]
    show _ = readAll (ringSlot bytes header ((startIdx + i) % header.slotCount) :: _)
    unfold ringSlot
    cases decodeRingRecord (slice bytes (ringDataOffset header ((startIdx + i) % header.slotCount))
      header.recordSize) header.version with
    | error e => rfl
    | ok record => rfl

/-- **Reading a file of this layout.** -/
theorem readRingRecordsLimited_of_layout (h : Layout bytes header) {s : Store}
    (hs : s.file = some bytes) (limit : ℕ) :
    (∃ records : List RingRecord, newest bytes header limit = records.map .ok ∧
      readRingRecordsLimited s limit = (.ok records, s)) ∨
    ((∃ e, .error e ∈ newest bytes header limit) ∧
      readRingRecordsLimited s limit = (.ok [], quarantineBadFile s)) := by
  have hslotCount := h.headerOk.slotCount_pos
  have hread : readSlots bytes header ((header.writePos + header.slotCount
      - min header.validCount limit) % header.slotCount) (min header.validCount limit) 0
      (ringDataOffset header ((header.writePos + header.slotCount
        - min header.validCount limit) % header.slotCount)) = readAll (newest bytes header limit) := by
    rw [readSlots_eq hslotCount (fun j hj => ?_) (Or.inl ?_)]
    · unfold newest contents
      refine congrArg readAll (List.map_congr_left fun j _ => ?_)
      rw [Nat.zero_add, Nat.mod_add_mod]
    · rw [Nat.add_zero, Nat.mod_mod]
    · rw [Nat.zero_add, Nat.mod_add_mod]
      have hcount : header.validCount = 0 → header.writePos = 0 := fun hzero => by omega
      exact h.slot_in_file ((h.positioned hcount).slot_lt (min_le_left _ _) hj)
  unfold readRingRecordsLimited
  rw [hs]
  dsimp only
  rw [h.header_eq]
  dsimp only
  rw [h.ringSizeBounds]
  dsimp only
  rw [if_neg h.in_bounds, hread]
  rcases readAll_cases (newest bytes header limit) with ⟨records, hrecords⟩ | ⟨herror, hcorrupt⟩
  · refine .inl ⟨records, hrecords, ?_⟩
    rw [hrecords, readAll_map_ok]
  · refine .inr ⟨herror, ?_⟩
    rw [hcorrupt]

/-! ### Rings -/

/-- **A well-formed ring file** with this header, of either version, preallocated or not. -/
structure IsRing (bytes : List UInt8) (header : RingHeader) (records : List RingRecord) : Prop where
  header_eq : readRingHeader bytes = .ok header
  filled : header.validCount < header.slotCount → header.writePos = header.validCount
  size_min : ringHeaderSize + header.validCount * header.recordSize ≤ bytes.length
  size_max : bytes.length ≤ ringTotalSize header
  slots : contents (ringSlot bytes header) header.slotCount header.writePos header.validCount =
    records.map .ok

variable {records : List RingRecord}

theorem IsRing.layout (h : IsRing bytes header records) : Layout bytes header :=
  ⟨h.header_eq, fun _ => h.filled, h.size_min, h.size_max⟩

theorem IsRing.headerOk (h : IsRing bytes header records) : HeaderOk header := h.layout.headerOk

theorem IsRing.positioned (h : IsRing bytes header records) :
    Positioned header.slotCount header.writePos header.validCount :=
  ⟨h.headerOk.writePos, h.headerOk.validCount, h.filled⟩

theorem IsRing.length_records (h : IsRing bytes header records) :
    records.length = header.validCount := by
  have := congrArg List.length h.slots
  rw [length_contents, List.length_map] at this
  exact this.symm

theorem IsRing.newest_eq (h : IsRing bytes header records) (n : ℕ) :
    newest bytes header n = (records.rtake n).map .ok := by
  unfold newest
  rw [contents_rtake _ h.headerOk.validCount (min_le_left _ _), h.slots, ← h.length_records,
    rtake_map, rtake_min]

/-- **Reading returns the newest records.** -/
theorem readRingRecordsLimited_of_isRing (h : IsRing bytes header records) {s : Store}
    (hs : s.file = some bytes) (limit : ℕ) :
    readRingRecordsLimited s limit = (.ok (records.rtake limit), s) := by
  rcases readRingRecordsLimited_of_layout h.layout hs limit with ⟨records', hnewest, hread⟩ | ⟨herror, -⟩
  · rw [h.newest_eq] at hnewest
    have hinj : Function.Injective (Except.ok (ε := String) (α := RingRecord)) :=
      fun _ _ => Except.ok.inj
    rw [hread, List.map_injective_iff.mpr hinj hnewest]
  · obtain ⟨e, he⟩ := herror
    rw [h.newest_eq] at he
    obtain ⟨record, -, hrecord⟩ := List.mem_map.mp he
    cases hrecord

theorem readRingRecords_of_isRing (h : IsRing bytes header records) {s : Store}
    (hs : s.file = some bytes) : readRingRecords s = (.ok records, s) := by
  have hle := h.headerOk.validCount
  have hlt := h.headerOk.slotCount_lt
  have hlen := h.length_records
  unfold readRingRecords
  rw [readRingRecordsLimited_of_isRing h hs, rtake_of_le _ (by omega)]

/-! ### Opening -/

theorem length_convertedRing (slotCount : ℕ) (records : List RingRecord) :
    (convertedRing slotCount records).length =
      ringHeaderSize + records.length * ringRecordSize := by
  unfold convertedRing
  rw [writeRingHeader_eq, List.drop_nil, List.append_nil, List.length_append, length_headerBytes,
    length_flatMap_of_length length_encodeRingRecord]

theorem headerOk_convertedHeader {slotCount count : ℕ} (hpos : 0 < slotCount)
    (hlt : slotCount < 2 ^ 32) (hle : count ≤ slotCount) :
    HeaderOk (convertedHeader slotCount count) := by
  have hcount : count % 2 ^ 32 = count := Nat.mod_eq_of_lt (by omega)
  refine ⟨Or.inr rfl, hpos, hlt, rfl, Nat.mod_lt _ hpos, ?_⟩
  show count % 2 ^ 32 ≤ slotCount
  omega

/-- A converted ring holds the records it was written from. -/
theorem isRing_convertedRing {slotCount : ℕ} (hpos : 0 < slotCount) (hlt : slotCount < 2 ^ 32)
    (hle : records.length ≤ slotCount) :
    IsRing (convertedRing slotCount records) (convertedHeader slotCount records.length) records := by
  have hcount : records.length % 2 ^ 32 = records.length := Nat.mod_eq_of_lt (by omega)
  have hvalid : (convertedHeader slotCount records.length).validCount = records.length := hcount
  have hwrite : (convertedHeader slotCount records.length).writePos = records.length % slotCount := by
    show records.length % 2 ^ 32 % slotCount = _
    rw [hcount]
  have hslots : (convertedHeader slotCount records.length).slotCount = slotCount := rfl
  have hsize : (convertedHeader slotCount records.length).recordSize = ringRecordSize := rfl
  have hok := headerOk_convertedHeader hpos hlt hle
  refine ⟨?_, fun h => ?_, ?_, ?_, ?_⟩
  · unfold convertedRing
    rw [writeRingHeader_eq, List.append_assoc]
    exact readRingHeader_headerBytes hok _
  · rw [hvalid, hslots] at h
    rw [hwrite, hvalid, Nat.mod_eq_of_lt h]
  · rw [length_convertedRing, hvalid, hsize]
  · have := Nat.mul_le_mul_right ringRecordSize hle
    unfold ringTotalSize
    rw [length_convertedRing, hslots, hsize]
    omega
  · rw [hvalid, hwrite, hslots, contents_straight _ hpos hle]
    refine List.ext_getElem (by simp) fun i h₁ h₂ => ?_
    rw [List.length_map, List.length_range] at h₁
    rw [List.getElem_map, List.getElem_map, List.getElem_range]
    have hslice : slice (convertedRing slotCount records)
        (ringDataOffset (convertedHeader slotCount records.length) i) ringRecordSize =
        encodeRingRecord records[i] := by
      unfold convertedRing ringDataOffset
      rw [writeRingHeader_eq, List.drop_nil, List.append_nil, hsize,
        slice_append_right (by rw [length_headerBytes]; exact Nat.le_add_right _ _),
        length_headerBytes, Nat.add_sub_cancel_left, ← List.append_nil (records.flatMap _)]
      exact slice_flatMap length_encodeRingRecord records [] (List.getElem?_eq_getElem h₁)
    unfold ringSlot
    rw [hsize, hslice]
    exact decode_encodeRingRecord _

/-- A ring of this capacity, in the current format. -/
def Current (header : RingHeader) (slotCount : ℕ) : Prop :=
  header.version = ringVersion ∧ header.slotCount = slotCount

/-- A ring that is created holds no record. -/
theorem isRing_createRing {slotCount : ℕ} (hpos : 0 < slotCount) (hlt : slotCount < 2 ^ 32) :
    IsRing (writeRingHeader [] (defaultRingHeader slotCount)) (defaultRingHeader slotCount) [] := by
  have h : IsRing (convertedRing slotCount []) (convertedHeader slotCount 0) [] :=
    isRing_convertedRing hpos hlt (Nat.zero_le slotCount)
  have hheader : convertedHeader slotCount 0 = defaultRingHeader slotCount := by
    unfold convertedHeader defaultRingHeader
    rw [Nat.zero_mod, Nat.zero_mod]
  unfold convertedRing at h
  rw [List.flatMap_nil, List.append_nil, List.length_nil, hheader] at h
  exact h

/-- **Opening a ring with a capacity keeps its newest records**, whatever its version and its capacity
were. -/
theorem openOrCreateRing_of_isRing (h : IsRing bytes header records) {s : Store}
    (hs : s.file = some bytes) {slotCount : ℕ} (hpos : 0 < slotCount) (hlt : slotCount < 2 ^ 32) :
    ∃ bytes' header', openOrCreateRing s slotCount = (.ok bytes', { s with file := some bytes' }) ∧
      Current header' slotCount ∧ IsRing bytes' header' (records.rtake slotCount) := by
  have hstore : s = { s with file := some bytes } := by rw [← hs]
  unfold openOrCreateRing
  rw [if_neg hpos.ne', hs]
  dsimp only
  rw [h.header_eq]
  dsimp only
  rw [h.layout.ringSizeBounds]
  dsimp only
  rw [if_neg h.layout.in_bounds]
  by_cases hconv : header.version = 1 ∨ header.slotCount ≠ slotCount
  · rw [if_pos hconv, readRingRecordsLimited_of_isRing h hs]
    refine ⟨_, _, rfl, ⟨rfl, rfl⟩, isRing_convertedRing hpos hlt ?_⟩
    rw [length_rtake]
    exact min_le_right _ _
  · rw [if_neg hconv]
    obtain ⟨hversion, hslots⟩ := not_or.mp hconv
    have hslots := not_not.mp hslots
    have hle := h.headerOk.validCount
    refine ⟨bytes, header, Prod.ext rfl hstore, ⟨h.headerOk.version.resolve_left hversion, hslots⟩, ?_⟩
    rw [rtake_of_le _ (by rw [h.length_records]; omega)]
    exact h

/-! ### Appending -/

theorem headerOk_advance (h : HeaderOk header) : HeaderOk (advance header) :=
  ⟨h.version, h.slotCount_pos, h.slotCount_lt, h.recordSize, Nat.mod_lt _ h.slotCount_pos,
    min_le_right _ _⟩

theorem readRingHeader_pushRecord (h : HeaderOk header) (bytes : List UInt8) (record : RingRecord) :
    readRingHeader (pushRecord bytes header record) = .ok (advance header) := by
  unfold pushRecord
  dsimp only
  rw [writeRingHeader_eq]
  exact readRingHeader_headerBytes (headerOk_advance h) _

theorem advance_validCount (hcount : header.validCount + 1 < 2 ^ 32) :
    (advance header).validCount = min (header.validCount + 1) header.slotCount := by
  unfold advance
  rw [Nat.mod_eq_of_lt hcount]

section
variable (h : Layout bytes header)
  (hpositioned : Positioned header.slotCount header.writePos header.validCount)
  (hversion : header.version = ringVersion) (record : RingRecord)
include h

theorem pushRecord_eq : pushRecord bytes header record = writeRingHeader (writeAt bytes
    (ringDataOffset header header.writePos) (encodeRingRecord record)) (advance header) := by
  unfold pushRecord
  rw [Nat.mod_eq_of_lt h.headerOk.writePos]

theorem advance_writePos : (advance header).writePos = (header.writePos + 1) % header.slotCount := by
  unfold advance
  rw [Nat.mod_eq_of_lt h.headerOk.writePos]

include hpositioned

/-- The slot lies at the end of the file or inside it. -/
theorem ringDataOffset_writePos_le : ringDataOffset header header.writePos ≤ bytes.length := by
  have hmin := h.size_min
  have hle : header.writePos ≤ header.validCount := by
    obtain ⟨hwrite, hvalid, hfilled⟩ := hpositioned
    rcases Nat.lt_or_ge header.validCount header.slotCount with hlt | hge
    · exact (hfilled hlt).le
    · omega
  have := Nat.mul_le_mul_right header.recordSize hle
  unfold ringDataOffset
  omega

include hversion

theorem length_pushRecord : (pushRecord bytes header record).length =
    max bytes.length (ringDataOffset header header.writePos + header.recordSize) := by
  have hsize : header.recordSize = ringRecordSize := by rw [h.headerOk.recordSize, hversion]; rfl
  have hwritten : (writeAt bytes (ringDataOffset header header.writePos)
      (encodeRingRecord record)).length = _ :=
    length_writeAt (ringDataOffset_writePos_le h hpositioned)
  have hoffset : ringHeaderSize ≤ ringDataOffset header header.writePos := Nat.le_add_right _ _
  rw [pushRecord_eq h]
  unfold writeRingHeader
  rw [length_writeAt (Nat.zero_le _), hwritten, length_headerBytes, length_encodeRingRecord, hsize]
  omega

/-- An append changes one slot. -/
theorem ringSlot_pushRecord (i : ℕ) : ringSlot (pushRecord bytes header record) (advance header) i =
    Function.update (ringSlot bytes header) header.writePos (.ok record) i := by
  have hsize : header.recordSize = ringRecordSize := by rw [h.headerOk.recordSize, hversion]; rfl
  have hrecord := length_encodeRingRecord record
  have hoff := ringDataOffset_writePos_le h hpositioned
  have hat : slice (pushRecord bytes header record) (ringDataOffset header i) header.recordSize =
      slice (writeAt bytes (ringDataOffset header header.writePos) (encodeRingRecord record))
        (ringDataOffset header i) header.recordSize := by
    rw [pushRecord_eq h]
    refine slice_writeAt_of_disjoint (Nat.zero_le _) (Or.inr ?_)
    rw [length_headerBytes, Nat.zero_add]
    exact Nat.le_add_right _ _
  have hsame : ringSlot (pushRecord bytes header record) (advance header) i =
      decodeRingRecord (slice (writeAt bytes (ringDataOffset header header.writePos)
        (encodeRingRecord record)) (ringDataOffset header i) header.recordSize) header.version :=
    congrArg (fun data => decodeRingRecord data header.version) hat
  rw [hsame]
  by_cases hi : i = header.writePos
  · rw [hi, Function.update_self, hsize, ← hrecord, slice_writeAt_self hoff, hversion]
    exact decode_encodeRingRecord record
  · rw [Function.update_of_ne hi]
    have hdisjoint := ringDataOffset_disjoint header hi
    rw [slice_writeAt_of_disjoint hoff (by omega)]
    rfl

variable (hcount : header.validCount + 1 < 2 ^ 32)
include hcount

theorem layout_pushRecord : Layout (pushRecord bytes header record) (advance header) := by
  have hpush := hpositioned.push
  have hadvanceCount := advance_validCount hcount
  have hlen := length_pushRecord h hpositioned hversion record
  refine ⟨readRingHeader_pushRecord h.headerOk _ _, fun _ hlt => ?_, ?_, ?_⟩
  · rw [hadvanceCount] at hlt ⊢
    rw [advance_writePos h]
    exact hpush.2.2 hlt
  · have hmin := h.size_min
    show ringHeaderSize + (advance header).validCount * header.recordSize ≤ _
    rw [hadvanceCount, hlen]
    rcases Nat.lt_or_ge header.validCount header.slotCount with hlt | hge
    · rw [Nat.min_eq_left hlt, Nat.succ_mul]
      have := hpositioned.2.2 hlt
      unfold ringDataOffset
      rw [this]
      omega
    · have hle := hpositioned.2.1
      rw [Nat.min_eq_right (by omega), show header.slotCount = header.validCount by omega]
      omega
  · show _ ≤ ringTotalSize header
    have hmax := h.size_max
    have := Nat.mul_le_mul_right header.recordSize (Nat.succ_le_of_lt hpositioned.1)
    rw [Nat.succ_mul] at this
    rw [hlen]
    unfold ringDataOffset
    unfold ringTotalSize at hmax ⊢
    omega

/-- **An append adds its record to the slots**, and drops the oldest of a full ring. -/
theorem contents_pushRecord : contents (ringSlot (pushRecord bytes header record) (advance header))
      header.slotCount (advance header).writePos (advance header).validCount =
    (contents (ringSlot bytes header) header.slotCount header.writePos header.validCount
      ++ [Except.ok record]).rtake header.slotCount := by
  rw [advance_writePos h, advance_validCount hcount, contents_congr fun i _ =>
    ringSlot_pushRecord h hpositioned hversion record _, contents_push hpositioned]

end

/-- **A push adds its record**, while the count of records does not wrap. -/
theorem isRing_pushRecord (h : IsRing bytes header records) (hversion : header.version = ringVersion)
    (hcount : header.validCount + 1 < 2 ^ 32) (record : RingRecord) :
    IsRing (pushRecord bytes header record) (advance header)
      ((records ++ [record]).rtake header.slotCount) := by
  have hlayout := layout_pushRecord h.layout h.positioned hversion record hcount
  have hcontents := contents_pushRecord h.layout h.positioned hversion record hcount
  have hadvance : 0 < (advance header).validCount := by
    have := h.headerOk.slotCount_pos
    rw [advance_validCount hcount]
    omega
  refine ⟨hlayout.header_eq, hlayout.filled hadvance, hlayout.size_min, hlayout.size_max, ?_⟩
  show contents _ header.slotCount _ _ = _
  rw [hcontents, h.slots, ← rtake_map, List.map_append, List.map_singleton]

/-! ### Operations -/

/-- A positive 32-bit capacity. -/
abbrev Capacity := { slotCount : ℕ // 0 < slotCount ∧ slotCount < 2 ^ 32 }

inductive Op where
  | append (record : RingRecord) (slotCount : Capacity)
  | openOrCreate (slotCount : Capacity)

def perform (s : Store) : Op → Except String Unit × Store
  | .append record slotCount => appendRingRecordWithCapacity s record slotCount
  | .openOrCreate slotCount =>
    ((openOrCreateRing s slotCount).1.map fun _ => (), (openOrCreateRing s slotCount).2)

/-- The store after an operation. -/
def storeStep (s : Store) (op : Op) : Store := (perform s op).2

/-- What an operation does to the list of records. -/
def listStep (records : List RingRecord) : Op → List RingRecord
  | .append record slotCount => (records ++ [record]).rtake slotCount
  | .openOrCreate slotCount => records.rtake slotCount

/-- The count of records does not wrap: an append of capacity 2^32 - 1 does not find that many. -/
def Fits (records : List RingRecord) : Op → Prop
  | .append _ slotCount => slotCount.val < 2 ^ 32 - 1 ∨ records.length < 2 ^ 32 - 1
  | .openOrCreate _ => True

/-- The file holds the records. -/
def Holds (s : Store) (records : List RingRecord) : Prop :=
  ∃ bytes header, s.file = some bytes ∧ IsRing bytes header records

/-- There is no file and no record, or a file that holds the records. -/
def Represents (s : Store) (records : List RingRecord) : Prop :=
  (s.file = none ∧ records = []) ∨ Holds s records

theorem openOrCreateRing_of_represents {s : Store} (h : Represents s records)
    (slotCount : Capacity) :
    ∃ bytes header, openOrCreateRing s slotCount = (.ok bytes, { s with file := some bytes }) ∧
      Current header slotCount ∧ IsRing bytes header (records.rtake slotCount) := by
  obtain ⟨hpos, hlt⟩ := slotCount.property
  rcases h with ⟨hnone, rfl⟩ | ⟨bytes, header, hs, hring⟩
  · refine ⟨writeRingHeader [] (defaultRingHeader slotCount), defaultRingHeader slotCount, ?_,
      ⟨rfl, rfl⟩, ?_⟩
    · unfold openOrCreateRing
      rw [if_neg hpos.ne', hnone]
      rfl
    · rw [List.rtake_nil]
      exact isRing_createRing hpos hlt
  · exact openOrCreateRing_of_isRing hring hs hpos hlt

/-- An append to the ring it has opened. -/
theorem perform_append {s s' : Store} {slotCount : Capacity}
    (hopen : openOrCreateRing s slotCount = (.ok bytes, s')) (h : IsRing bytes header records)
    (record : RingRecord) :
    perform s (.append record slotCount) =
      (.ok (), { s' with file := some (pushRecord bytes header record) }) := by
  show appendRingRecordWithCapacity s record slotCount = _
  unfold appendRingRecordWithCapacity
  rw [hopen]
  dsimp only
  rw [h.header_eq]

/-- **One operation does to the file what it does to the list.** -/
theorem perform_spec {s : Store} (h : Represents s records) {op : Op} (hfits : Fits records op) :
    (perform s op).1 = .ok () ∧ Holds (storeStep s op) (listStep records op) := by
  unfold storeStep
  cases op with
  | openOrCreate slotCount =>
    obtain ⟨bytes, header, hopen, -, hring⟩ := openOrCreateRing_of_represents h slotCount
    have hperform : perform s (.openOrCreate slotCount) =
        (.ok (), { s with file := some bytes }) := by
      show ((openOrCreateRing s slotCount).1.map _, (openOrCreateRing s slotCount).2) = _
      rw [hopen]
      rfl
    rw [hperform]
    exact ⟨rfl, bytes, header, rfl, hring⟩
  | append record slotCount =>
    obtain ⟨bytes, header, hopen, ⟨hversion, hslots⟩, hring⟩ :=
      openOrCreateRing_of_represents h slotCount
    have hlen := hring.length_records
    have hcount : header.validCount + 1 < 2 ^ 32 := by
      have hlt := slotCount.property.2
      rw [length_rtake] at hlen
      rcases hfits with hfits | hfits <;> omega
    rw [perform_append hopen hring]
    refine ⟨rfl, pushRecord bytes header record, advance header, rfl, ?_⟩
    have hpush := isRing_pushRecord hring hversion hcount record
    rw [hslots, rtake_append_rtake] at hpush
    exact hpush

theorem represents_run {s : Store} (h : Represents s records) {ops : List Op}
    (hfits : Along listStep Fits records ops) :
    Represents (ops.foldl storeStep s) (ops.foldl listStep records) := by
  induction ops generalizing s records with
  | nil => exact h
  | cons op ops ih => exact ih (Or.inr (perform_spec h hfits.1).2) hfits.2

/-- **A ring file refines the list of its last records**: in every sequence of appends and openings,
each with its own capacity, each operation succeeds, and reading after it returns what it makes of the
list. -/
theorem ring_refines_list (s : Store) (records : List RingRecord) (h : Represents s records)
    (ops : List Op) (hfits : Along listStep Fits records ops) :
    ∀ pre op post, ops = pre ++ op :: post →
      (perform (pre.foldl storeStep s) op).1 = .ok () ∧
      readRingRecords ((pre ++ [op]).foldl storeStep s) =
        (.ok ((pre ++ [op]).foldl listStep records), (pre ++ [op]).foldl storeStep s) := by
  rintro pre op post rfl
  obtain ⟨hpre, hop, -⟩ := along_append.mp hfits
  obtain ⟨hok, bytes, header, hfile, hring⟩ := perform_spec (represents_run h hpre) hop
  rw [List.foldl_append, List.foldl_append]
  exact ⟨hok, readRingRecords_of_isRing hring hfile⟩

/-- The bucket of an hour without samples. -/
def sampleRecord : RingRecord := ⟨.empty 0 3599999⟩

/-- Two appends to a ring of one slot, without a file before. -/
theorem ring_refines_list_sample :
    let s : Store := ⟨none, []⟩
    let ops : List Op := [.append sampleRecord ⟨1, by decide⟩, .append ⟨.empty 3600000 7199999⟩
      ⟨1, by decide⟩]
    (readRingRecords (ops.foldl storeStep s)).1 = .ok [⟨.empty 3600000 7199999⟩] := by
  have h := ring_refines_list ⟨none, []⟩ [] (Or.inl ⟨rfl, rfl⟩)
    [.append sampleRecord ⟨1, by decide⟩, .append ⟨.empty 3600000 7199999⟩ ⟨1, by decide⟩]
    ⟨Or.inl (by decide), Or.inl (by decide), trivial⟩ [.append sampleRecord ⟨1, by decide⟩] _ [] rfl
  exact congrArg Prod.fst h.2

/-! ### The count of records can wrap -/

/-- A ring whose header counts no record is read as empty. -/
theorem readRingRecords_of_validCount_zero {s : Store} (hs : s.file = some bytes)
    (hheader : readRingHeader bytes = .ok header) (hzero : header.validCount = 0) :
    (readRingRecords s).1 = .ok [] := by
  have hbounds : RingFile.ringSizeBounds header = .ok (ringHeaderSize, ringTotalSize header) := by
    unfold RingFile.ringSizeBounds ringMinSize
    rw [if_pos hzero]
  unfold readRingRecords readRingRecordsLimited
  rw [hs]
  dsimp only
  rw [hheader]
  dsimp only
  rw [hbounds]
  dsimp only
  split_ifs
  · rfl
  · rw [hzero, Nat.zero_min]
    rfl

/-- **A ring of 2^32 - 1 records is lost by the next append**: its count becomes 0. -/
theorem append_wraps :
    ¬ ∀ (s : Store) (records : List RingRecord), Represents s records → ∀ ops : List Op,
      ∀ pre op post, ops = pre ++ op :: post →
        (perform (pre.foldl storeStep s) op).1 = .ok () ∧
        readRingRecords ((pre ++ [op]).foldl storeStep s) =
          (.ok ((pre ++ [op]).foldl listStep records), (pre ++ [op]).foldl storeStep s) := by
  intro h
  obtain ⟨slotCount, hslots⟩ : ∃ slotCount : Capacity, slotCount.val = 2 ^ 32 - 1 :=
    ⟨⟨2 ^ 32 - 1, by omega, by omega⟩, rfl⟩
  obtain ⟨records, hlen⟩ : ∃ records : List RingRecord, records.length = 2 ^ 32 - 1 :=
    ⟨List.replicate _ sampleRecord, List.length_replicate⟩
  have hring : IsRing (convertedRing slotCount records) _ records :=
    isRing_convertedRing slotCount.property.1 slotCount.property.2 (by rw [hlen, hslots])
  obtain ⟨s, hs⟩ : ∃ s : Store, s.file = some (convertedRing slotCount records) :=
    ⟨⟨_, []⟩, rfl⟩
  have hread : readRingRecords (storeStep s (.append sampleRecord slotCount)) =
      (.ok (listStep records (.append sampleRecord slotCount)),
        storeStep s (.append sampleRecord slotCount)) :=
          (h s records (Or.inr ⟨_, _, hs, hring⟩) [.append sampleRecord slotCount] []
    (.append sampleRecord slotCount) [] rfl).2
  -- the append writes a header that counts no record
  obtain ⟨bytes, header, hopen, -, hring'⟩ :=
    openOrCreateRing_of_isRing hring hs slotCount.property.1 slotCount.property.2
  have hvalid : header.validCount = 2 ^ 32 - 1 := by
    rw [← hring'.length_records, length_rtake, hlen, hslots]
    exact Nat.min_self _
  have hempty : (readRingRecords (storeStep s (.append sampleRecord slotCount))).1 = .ok [] := by
    unfold storeStep
    rw [perform_append hopen hring']
    refine readRingRecords_of_validCount_zero rfl
      (readRingHeader_pushRecord hring'.headerOk bytes sampleRecord) ?_
    unfold advance
    rw [hvalid]
    exact Nat.zero_min _
  rw [hread] at hempty
  have hlast : ((records ++ [sampleRecord]).rtake slotCount).length = 0 :=
    congrArg List.length (Except.ok.inj hempty)
  rw [length_rtake, List.length_append, hlen, hslots] at hlast
  omega

end BandixPlus.Persistence.Ring
