import BandixPlus.Persistence.RingDamage

/-! # One damaged byte

Each byte enters the checksum by an exclusive or and a multiplication by an odd number, both of which
can be undone. So one byte that is changed changes the checksum, whatever follows it.

* `foldl_set_ne`: a fold whose steps are injective tells lists apart that differ in one element.
* `decodeRingRecord_iff`: a record is decoded from its encoding and from nothing else.
* `one_byte_detected`: no record and no header is accepted after one byte of it is changed, and a file
  damaged so is not read. -/

namespace BandixPlus.Persistence.RingChecksum

open BandixPlus.Lib.Bytes BandixPlus.Lib.RingBuffer BandixPlus.Persistence.Ring
open BandixPlus.Persistence.RingCodec BandixPlus.Persistence.RingDamage
open BandixPlus.Persistence.RingFile Function

/-- The byte at `i` has another value. -/
def Altered (i : ℕ) (bytes bytes' : List UInt8) : Prop :=
  ∃ h : i < bytes.length, ∃ v, v ≠ bytes[i] ∧ bytes' = bytes.set i v

/-- The slots that hold a record, oldest first. -/
def liveSlots (header : RingHeader) : List ℕ :=
  contents id header.slotCount header.writePos header.validCount

/-- The byte at `i` is one of the first 32, or in a record that is read and decodes. -/
def InUse (bytes : List UInt8) (header : RingHeader) (i : ℕ) : Prop :=
  i < 32 ∨ ∃ slot ∈ liveSlots header, ringDataOffset header slot ≤ i ∧
    i < ringDataOffset header slot + header.recordSize ∧
    ∃ record, ringSlot bytes header slot = .ok record

/-- The four bytes at `n` are the checksum of those before them. -/
def Checked (n : ℕ) (bytes : List UInt8) : Prop :=
  leNat (slice bytes n 4) = (checksum32 (slice bytes 0 n)).toNat

/-! ### The checksum -/

section
variable {σ α : Type*} {f : σ → α → σ} (hstate : ∀ a, Injective fun s => f s a)
include hstate

theorem foldl_injective (l : List α) : Injective fun s => l.foldl f s := by
  induction l with
  | nil => exact injective_id
  | cons a l ih => exact ih.comp (hstate a)

/-- **One changed element changes the fold.** -/
theorem foldl_set_ne (helem : ∀ s, Injective (f s)) {l : List α} {i : ℕ} (hi : i < l.length) {a : α}
    (ha : a ≠ l[i]) (s : σ) : (l.set i a).foldl f s ≠ l.foldl f s := by
  induction l generalizing i s with
  | nil => simp at hi
  | cons b l ih =>
    cases i with
    | zero =>
      simp only [List.set_cons_zero, List.foldl_cons]
      exact fun heq => ha (helem s (foldl_injective hstate l heq))
    | succ i => exact ih (by simpa using hi) ha (f s b)

end

/-- The multiplier is odd, so the multiplication can be undone. -/
theorem mul_prime_injective : Injective fun h : UInt32 => h * 0x01000193 := by
  intro a b h
  have hinverse : (0x01000193 : UInt32) * 0x359c449b = 1 := by decide
  have hback : ∀ c : UInt32, c * 0x01000193 * 0x359c449b = c := by
    intro c
    rw [UInt32.mul_assoc, hinverse, UInt32.mul_one]
  have hmul : a * 0x01000193 = b * 0x01000193 := h
  rw [← hback a, hmul, hback]

/-- **The checksum tells one changed byte.** -/
theorem checksum32_set_ne {data : List UInt8} {i : ℕ} (hi : i < data.length) {v : UInt8}
    (hv : v ≠ data[i]) : checksum32 (data.set i v) ≠ checksum32 data := by
  refine foldl_set_ne (fun b s s' h => ?_) (fun s b b' h => ?_) hi hv _
  · exact (UInt32.xor_left_inj _).mp (mul_prime_injective h)
  · exact UInt8.toUInt32_inj.mp ((UInt32.xor_right_inj _).mp (mul_prime_injective h))

/-! ### Checked bytes -/

section
variable {bytes bytes' : List UInt8} {i n off len : ℕ}

theorem Altered.length_eq (h : Altered i bytes bytes') : bytes'.length = bytes.length := by
  obtain ⟨-, v, -, rfl⟩ := h
  simp

theorem Altered.slice_eq (h : Altered i bytes bytes') (hout : i < off ∨ off + len ≤ i) :
    slice bytes' off len = slice bytes off len := by
  obtain ⟨-, v, -, rfl⟩ := h
  unfold slice
  rcases hout with hlt | hge
  · rw [List.drop_set_of_lt hlt]
  · rw [List.drop_set, if_neg (by omega), List.take_set_of_le (by omega)]

/-- A part that holds the byte is altered too. -/
theorem Altered.part (h : Altered i bytes bytes') (hoff : off ≤ i) (hlen : i < off + len) :
    Altered (i - off) (slice bytes off len) (slice bytes' off len) := by
  obtain ⟨hi, v, hv, rfl⟩ := h
  have hin : i - off < (slice bytes off len).length := by
    unfold slice
    simp
    omega
  refine ⟨hin, v, ?_, ?_⟩
  · have hget : (slice bytes off len)[i - off] = bytes[i] := by
      simp [slice, Nat.add_sub_cancel' hoff]
    rw [hget]
    exact hv
  · unfold slice
    rw [List.drop_set, if_neg (by omega), List.take_set]

theorem Altered.leNat_ne (h : Altered i bytes bytes') : leNat bytes' ≠ leNat bytes := by
  intro heq
  have hbytes := leBytes_leNat bytes'
  rw [heq, h.length_eq, leBytes_leNat] at hbytes
  obtain ⟨hi, v, hv, hset⟩ := h
  have hget : (bytes.set i v)[i]? = bytes[i]? := by rw [← hset, ← hbytes]
  rw [List.getElem?_set_self hi, List.getElem?_eq_getElem hi] at hget
  exact hv (Option.some.inj hget)

theorem Altered.checksum32_ne (h : Altered i bytes bytes') : checksum32 bytes' ≠ checksum32 bytes := by
  obtain ⟨hi, v, hv, rfl⟩ := h
  exact checksum32_set_ne hi hv

/-- **A changed byte is a failed check**, whether it is one of the data or one of the checksum. -/
theorem Altered.not_checked (h : Altered i bytes bytes') (hi : i < n + 4) (hchecked : Checked n bytes) :
    ¬ Checked n bytes' := by
  unfold Checked at hchecked ⊢
  by_cases hdata : i < n
  · have hne := (h.part (Nat.zero_le i) (by omega : i < 0 + n)).checksum32_ne
    rw [h.slice_eq (Or.inl hdata), hchecked]
    exact fun heq => hne (UInt32.toNat_inj.mp heq.symm)
  · have hne := (h.part (by omega : n ≤ i) hi).leNat_ne
    have hsame : slice bytes' 0 n = slice bytes 0 n := h.slice_eq (Or.inr (by omega))
    rw [hsame, ← hchecked]
    exact hne

end

/-! ### Records -/

/-- **The codec of records is a bijection**: exactly the encodings are decoded, each to its record. -/
theorem decodeRingRecord_iff (data : List UInt8) (record : RingRecord) :
    decodeRingRecord data ringVersion = .ok record ↔ encodeRingRecord record = data := by
  constructor
  · exact encode_of_decode
  · rintro rfl
    exact decode_encodeRingRecord record

section
variable {data data' bytes bytes' : List UInt8} {header : RingHeader} {record : RingRecord} {i version : ℕ}

theorem four_le_recordSizeOf (version : ℕ) : 4 ≤ recordSizeOf version := by
  unfold recordSizeOf
  split <;> decide

theorem checked_of_decode (h : decodeRingRecord data version = .ok record) :
    data.length = recordSizeOf version ∧ Checked (recordSizeOf version - 4) data := by
  have hsize := four_le_recordSizeOf version
  unfold decodeRingRecord at h
  dsimp only at h
  split_ifs at h with hlen hsum
  all_goals
    have hlen := not_not.mp hlen
    have hdrop : slice data (recordSizeOf version - 4) 4 = data.drop (recordSizeOf version - 4) :=
      List.take_of_length_le (by simp; omega)
    refine ⟨hlen, ?_⟩
    unfold Checked
    rw [hdrop]
    exact not_not.mp hsum

/-- A record with a changed byte is refused, in both versions. -/
theorem decode_altered (h : Altered i data data') (hdecode : decodeRingRecord data version = .ok record) :
    ∃ e, decodeRingRecord data' version = .error e := by
  obtain ⟨hlen, hchecked⟩ := checked_of_decode hdecode
  have hi := h.1
  cases hdecode' : decodeRingRecord data' version with
  | error e => exact ⟨e, rfl⟩
  | ok record' => exact absurd (checked_of_decode hdecode').2 (h.not_checked (by omega) hchecked)

/-! ### Headers -/

theorem checked_of_readRingHeader (h : readRingHeader bytes = .ok header) : Checked 28 bytes := by
  unfold readRingHeader at h
  dsimp only at h
  split_ifs at h with hlen hmagic hversion hsum
  exact not_not.mp hsum

theorem readRingHeader_altered (h : Altered i bytes bytes') (hi : i < 32)
    (hheader : readRingHeader bytes = .ok header) : ∃ e, readRingHeader bytes' = .error e := by
  cases hheader' : readRingHeader bytes' with
  | error e => exact ⟨e, rfl⟩
  | ok header' =>
    exact absurd (checked_of_readRingHeader hheader')
      (h.not_checked (by omega) (checked_of_readRingHeader hheader))

/-! ### Files -/

/-- A file without a layout is moved away. -/
theorem readRingRecords_of_not_layout {s : Store} (hs : s.file = some bytes)
    (hlayout : ¬ Layout bytes header) (hheader : readRingHeader bytes = .ok header) :
    readRingRecords s = (.ok [], quarantineBadFile s) := by
  have hok := (readRingHeader_ok hheader).1
  unfold readRingRecords readRingRecordsLimited
  rw [hs]
  dsimp only
  rw [hheader]
  dsimp only
  by_cases hfilled : 0 < header.validCount → header.validCount < header.slotCount →
      header.writePos = header.validCount
  · rw [ringSizeBounds_eq hok hfilled]
    dsimp only
    rw [if_pos]
    by_contra hsize
    exact hlayout (layout_of_bounds hheader hfilled hsize)
  · obtain ⟨hpos, hlt, hne⟩ : 0 < header.validCount ∧ header.validCount < header.slotCount ∧
        header.writePos ≠ header.validCount := by tauto
    obtain ⟨e, hbounds⟩ := ringSizeBounds_ne_ok hpos hlt hne
    rw [hbounds]

/-- **A file with one changed byte in use is moved away**, and nothing is read from it. -/
theorem readRingRecords_altered (h : Altered i bytes bytes') (hheader : readRingHeader bytes = .ok header)
    (huse : InUse bytes header i) {s : Store} (hs : s.file = some bytes') :
    readRingRecords s = (.ok [], quarantineBadFile s) := by
  rcases huse with hi | ⟨slot, hslot, hle, hlt, record, hrecord⟩
  · obtain ⟨e, he⟩ := readRingHeader_altered h hi hheader
    unfold readRingRecords readRingRecordsLimited
    rw [hs]
    dsimp only
    rw [he]
  -- the header is that of the intact file
  have hsize : ringHeaderSize ≤ ringDataOffset header slot := Nat.le_add_right _ _
  have hheader' : readRingHeader bytes' = .ok header := by
    have htake : slice bytes' 0 ringHeaderSize = slice bytes 0 ringHeaderSize :=
      h.slice_eq (Or.inr (by omega))
    rw [← hheader]
    exact readRingHeader_congr htake
  by_cases hlayout : Layout bytes' header
  swap
  · exact readRingRecords_of_not_layout hs hlayout hheader'
  -- and one of the records that are read does not decode
  obtain ⟨e, he⟩ : ∃ e, ringSlot bytes' header slot = .error e :=
    decode_altered (h.part hle hlt) hrecord
  have hnewest : newest bytes' header (2 ^ 32 - 1) = (liveSlots header).map (ringSlot bytes' header) := by
    rw [newest_all hlayout.headerOk]
    unfold newest liveSlots contents
    simp
  rcases readRingRecordsLimited_of_layout hlayout hs (2 ^ 32 - 1) with ⟨records, hrecords, -⟩ | ⟨-, hread⟩
  · have hmem : ringSlot bytes' header slot ∈ records.map Except.ok := by
      rw [← hrecords, hnewest]
      exact List.mem_map_of_mem hslot
    rw [he] at hmem
    simp at hmem
  · exact hread

end

/-- **One changed byte is detected**: in a record of either version, in the first 32 bytes of a header,
and when a file is read with such a byte in its header or in one of the records that are read. -/
theorem one_byte_detected (i : ℕ) (bytes bytes' : List UInt8) (h : Altered i bytes bytes') :
    (∀ version record, decodeRingRecord bytes version = .ok record →
      ∃ e, decodeRingRecord bytes' version = .error e) ∧
    (∀ header, readRingHeader bytes = .ok header → i < 32 → ∃ e, readRingHeader bytes' = .error e) ∧
    (∀ header, readRingHeader bytes = .ok header → InUse bytes header i →
      ∀ s : Store, s.file = some bytes' → readRingRecords s = (.ok [], quarantineBadFile s)) :=
  ⟨fun _ _ => decode_altered h, fun _ hheader hi => readRingHeader_altered h hi hheader,
    fun _ hheader huse _ => readRingRecords_altered h hheader huse⟩

/-- The last byte of a record's checksum. -/
theorem one_byte_detected_sample :
    ∃ e, decodeRingRecord ((encodeRingRecord sampleRecord).set 219
      ((encodeRingRecord sampleRecord).getD 219 0 + 1)) ringVersion = .error e := by
  have hlen := length_encodeRingRecord sampleRecord
  have hi : 219 < (encodeRingRecord sampleRecord).length := by
    rw [hlen]
    decide
  have haltered : Altered 219 (encodeRingRecord sampleRecord) ((encodeRingRecord sampleRecord).set 219
      ((encodeRingRecord sampleRecord).getD 219 0 + 1)) := by
    refine ⟨hi, _, ?_, rfl⟩
    rw [List.getD_eq_getElem?_getD, List.getElem?_eq_getElem hi, Option.getD_some]
    simp
  exact (one_byte_detected 219 _ _ haltered).1 ringVersion sampleRecord
    (decode_encodeRingRecord sampleRecord)

end BandixPlus.Persistence.RingChecksum
