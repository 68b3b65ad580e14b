import BandixPlus.Persistence.RingFile

/-! # Ring files: the encodings

* `decode_encodeRingRecord`: an encoded record decodes to itself.
* `encode_of_decode`: a record is decoded from its own encoding only.
* `readRingHeader_headerBytes`: a header that is written is read back.
* `readRingHeader_ok`: what a header that is read satisfies. -/

namespace BandixPlus.Persistence.RingCodec

open BandixPlus.Lib.Bytes BandixPlus.Monitor.Counters BandixPlus.Persistence.RingFile

/-! ### Records -/

/-- The numbers of a record are read back one by one. -/
theorem word_flatMap_leBytes (l : List UInt64) (rest : List UInt8) {i : ℕ} {v : UInt64}
    (h : l[i]? = some v) : word ((l.flatMap fun v => leBytes 8 v.toNat) ++ rest) i = v := by
  have hlt : v.toNat < 256 ^ 8 := v.toNat_lt
  unfold word
  rw [Nat.mul_comm, slice_flatMap (fun u : UInt64 => length_leBytes 8 u.toNat) l rest h, leNat_leBytes hlt,
    UInt64.ofNat_toNat]

theorem length_recordData (b : AggregatedBucket) : (recordData b).length = ringRecordDataSize :=
  length_flatMap_of_length (fun u : UInt64 => length_leBytes 8 u.toNat) _

theorem length_encodeRingRecord (record : RingRecord) :
    (encodeRingRecord record).length = ringRecordSize := by
  unfold encodeRingRecord
  rw [List.length_append, length_recordData, length_leBytes]
  rfl

theorem decodeV2_recordData (b : AggregatedBucket) (rest : List UInt8) :
    decodeV2 (recordData b ++ rest) = b := by
  have hword : ∀ i v, (bucketWords b)[i]? = some v → word (recordData b ++ rest) i = v :=
    fun i v h => word_flatMap_leBytes _ rest h
  have hquad : ∀ (i step : ℕ) (q : Quad UInt64), (bucketWords b)[i]? = some q.upV4 →
      (bucketWords b)[i + step]? = some q.downV4 → (bucketWords b)[i + 2 * step]? = some q.upV6 →
      (bucketWords b)[i + 3 * step]? = some q.downV6 →
      wordQuad (recordData b ++ rest) i step = q := by
    intro i step q h₀ h₁ h₂ h₃
    unfold wordQuad
    rw [hword _ _ h₀, hword _ _ h₁, hword _ _ h₂, hword _ _ h₃]
  unfold decodeV2
  rw [hword 0 _ rfl, hword 1 _ rfl, hword 2 _ rfl, hquad 3 1 b.bytes rfl rfl rfl rfl,
    hquad 7 5 b.bpsSum rfl rfl rfl rfl, hquad 8 5 b.bpsMax rfl rfl rfl rfl,
    hquad 9 5 b.bpsMin rfl rfl rfl rfl, hquad 10 5 b.bpsAvg rfl rfl rfl rfl,
    hquad 11 5 b.bpsP95 rfl rfl rfl rfl]

theorem leNat_leBytes_checksum (data : List UInt8) :
    leNat (leBytes 4 (checksum32 data).toNat) = (checksum32 data).toNat :=
  leNat_leBytes (checksum32 data).toNat_lt

/-- **An encoded record decodes to itself.** -/
theorem decode_encodeRingRecord (record : RingRecord) :
    decodeRingRecord (encodeRingRecord record) ringVersion = .ok record := by
  have hsize : recordSizeOf ringVersion = ringRecordSize := rfl
  have hdata : ringRecordSize - 4 = (recordData record.bucket).length := by
    rw [length_recordData]; rfl
  unfold decodeRingRecord
  dsimp only
  rw [hsize, if_neg (by rw [length_encodeRingRecord]; exact fun h => h rfl), hdata]
  unfold encodeRingRecord
  rw [List.drop_left, List.take_left, if_neg (by rw [leNat_leBytes_checksum]; exact fun h => h rfl),
    if_neg (by decide), decodeV2_recordData]

/-- The numbers of a decoded record are those of the file. -/
theorem bucketWords_decodeV2 (data : List UInt8) :
    bucketWords (decodeV2 data) = (List.range 27).map (word data) := rfl

theorem leBytes_word {data : List UInt8} {i : ℕ} (h : 8 * i + 8 ≤ data.length) :
    leBytes 8 (word data i).toNat = slice data (8 * i) 8 := by
  have hlen : (slice data (8 * i) 8).length = 8 := length_slice h
  have hlt : leNat (slice data (8 * i) 8) < 256 ^ 8 := by
    have := leNat_lt (slice data (8 * i) 8)
    rwa [hlen] at this
  have hnat : (word data i).toNat = leNat (slice data (8 * i) 8) :=
    UInt64.toNat_ofNat_of_lt hlt
  have hbytes := leBytes_leNat (slice data (8 * i) 8)
  rw [hlen] at hbytes
  rw [hnat, hbytes]

theorem flatMap_word {data : List UInt8} {n : ℕ} (h : 8 * n ≤ data.length) :
    ((List.range n).map (word data)).flatMap (fun v => leBytes 8 v.toNat) = data.take (8 * n) := by
  induction n with
  | zero => rfl
  | succ n ih =>
    have htake : data.take (8 * (n + 1)) = data.take (8 * n) ++ slice data (8 * n) 8 := by
      unfold slice
      rw [Nat.mul_succ, List.take_add]
    rw [List.range_succ, List.map_append, List.flatMap_append, ih (by omega), htake]
    simp [leBytes_word (show 8 * n + 8 ≤ data.length by omega)]

/-- **A record is decoded from its own encoding only.** -/
theorem encode_of_decode {data : List UInt8} {record : RingRecord}
    (h : decodeRingRecord data ringVersion = .ok record) : encodeRingRecord record = data := by
  have hsize : recordSizeOf ringVersion = ringRecordSize := rfl
  unfold decodeRingRecord at h
  dsimp only at h
  rw [hsize] at h
  by_cases hlen : data.length ≠ ringRecordSize
  · rw [if_pos hlen] at h; cases h
  rw [if_neg hlen] at h
  have hlen := not_not.mp hlen
  have hdataSize : ringRecordSize - 4 = 8 * 27 := rfl
  rw [hdataSize] at h
  by_cases hsum : leNat (data.drop (8 * 27)) ≠ (checksum32 (data.take (8 * 27))).toNat
  · rw [if_pos hsum] at h; cases h
  rw [if_neg hsum, if_neg (by decide)] at h
  have hsum := not_not.mp hsum
  have hrecord : recordData (decodeV2 data) = data.take (8 * 27) := by
    unfold recordData
    rw [bucketWords_decodeV2, flatMap_word (by rw [hlen]; decide)]
  have hdrop : (data.drop (8 * 27)).length = 4 := by rw [List.length_drop, hlen]; rfl
  have htail := leBytes_leNat (data.drop (8 * 27))
  rw [hdrop] at htail
  rw [← Except.ok.inj h]
  unfold encodeRingRecord
  dsimp only
  rw [hrecord, ← hsum, htail, List.take_append_drop]

/-! ### Headers -/

/-- A header that `read_ring_header` accepts. -/
structure HeaderOk (header : RingHeader) : Prop where
  version : header.version = 1 ∨ header.version = ringVersion
  slotCount_pos : 0 < header.slotCount
  slotCount_lt : header.slotCount < 2 ^ 32
  recordSize : header.recordSize = recordSizeOf header.version
  writePos : header.writePos < header.slotCount
  validCount : header.validCount ≤ header.slotCount

theorem HeaderOk.recordSize_le {header : RingHeader} (h : HeaderOk header) :
    0 < header.recordSize ∧ header.recordSize ≤ ringRecordSize := by
  rw [h.recordSize]
  rcases h.version with hv | hv <;> rw [hv] <;> decide

theorem length_headerBytes (header : RingHeader) : (headerBytes header).length = ringHeaderSize := rfl

theorem writeRingHeader_eq (bytes : List UInt8) (header : RingHeader) :
    writeRingHeader bytes header = headerBytes header ++ bytes.drop ringHeaderSize := by
  unfold writeRingHeader
  rw [writeAt_eq (Nat.zero_le _), List.take_zero, List.nil_append, Nat.zero_add, length_headerBytes]

/-- **A header that is written is read back.** -/
theorem readRingHeader_headerBytes {header : RingHeader} (h : HeaderOk header)
    (rest : List UInt8) : readRingHeader (headerBytes header ++ rest) = .ok header := by
  have hnum : ∀ n, n < 2 ^ 32 → leNat (leBytes 4 n) = n := fun n hn => leNat_leBytes hn
  have hsize := h.recordSize_le.2
  have hver : header.version < 2 ^ 32 := by
    rcases h.version with hv | hv <;> rw [hv] <;> decide
  have hslots := h.slotCount_lt
  have hpos := h.writePos
  have hcount := h.validCount
  have hmagic : slice (headerBytes header ++ rest) 0 8 = ringMagic := rfl
  have hdata : slice (headerBytes header ++ rest) 0 28 = headerData header := rfl
  have hsum : slice (headerBytes header ++ rest) 28 4 =
    leBytes 4 (checksum32 (headerData header)).toNat := rfl
  have h₈ : slice (headerBytes header ++ rest) 8 4 = leBytes 4 header.version := rfl
  have h₁₂ : slice (headerBytes header ++ rest) 12 4 = leBytes 4 header.slotCount := rfl
  have h₁₆ : slice (headerBytes header ++ rest) 16 4 = leBytes 4 header.writePos := rfl
  have h₂₀ : slice (headerBytes header ++ rest) 20 4 = leBytes 4 header.validCount := rfl
  have h₂₄ : slice (headerBytes header ++ rest) 24 4 = leBytes 4 header.recordSize := rfl
  have hrec : header.recordSize < 2 ^ 32 := lt_of_le_of_lt hsize (by decide)
  have hlen : ¬ (headerBytes header ++ rest).length < ringHeaderSize := by
    rw [List.length_append, length_headerBytes]
    exact Nat.not_lt.mpr (Nat.le_add_right _ _)
  unfold readRingHeader
  rw [hmagic, hdata, hsum, h₈, h₁₂, h₁₆, h₂₀, h₂₄, leNat_leBytes_checksum, hnum _ hver, hnum _ hslots,
    hnum _ (by omega), hnum _ (by omega), hnum _ hrec]
  rw [if_neg hlen, if_neg (fun h => h rfl)]
  dsimp only
  rw [if_neg (by rintro ⟨h₁, h₂⟩; exact h.version.elim h₁ h₂), if_neg (fun h => h rfl),
    if_neg (by rintro (h₀ | h₀); exacts [h.slotCount_pos.ne' h₀, h₀ h.recordSize]),
    if_neg (by rintro (h₀ | h₀) <;> omega)]

/-- Only the header of a file is read. -/
theorem readRingHeader_congr {bytes bytes' : List UInt8}
    (h : bytes.take ringHeaderSize = bytes'.take ringHeaderSize) :
    readRingHeader bytes = readRingHeader bytes' := by
  have hsize : ringHeaderSize = 64 := rfl
  have hlen : (bytes.length < ringHeaderSize) = (bytes'.length < ringHeaderSize) := by
    have hlen := congrArg List.length h
    rw [List.length_take, List.length_take] at hlen
    exact propext (by omega)
  have hslice : ∀ off len, off + len ≤ ringHeaderSize → slice bytes off len = slice bytes' off len := by
    intro off len hle
    rw [← slice_take hle, h, slice_take hle]
  unfold readRingHeader
  rw [hslice 0 8 (by omega), hslice 8 4 (by omega), hslice 28 4 (by omega), hslice 0 28 (by omega),
    hslice 12 4 (by omega), hslice 16 4 (by omega), hslice 20 4 (by omega), hslice 24 4 (by omega)]
  simp only [hlen]

/-- What a header that is read satisfies. -/
theorem readRingHeader_ok {bytes : List UInt8} {header : RingHeader}
    (h : readRingHeader bytes = .ok header) :
    HeaderOk header ∧ ringHeaderSize ≤ bytes.length := by
  have hheaderSize : ringHeaderSize = 64 := rfl
  unfold readRingHeader at h
  by_cases hlen : bytes.length < ringHeaderSize
  · rw [if_pos hlen] at h; cases h
  by_cases hmagic : slice bytes 0 8 ≠ ringMagic
  · rw [if_neg hlen, if_pos hmagic] at h; cases h
  rw [if_neg hlen, if_neg hmagic] at h
  dsimp only at h
  split at h
  · cases h
  · next hver =>
    split at h
    · cases h
    · split at h
      · cases h
      · next hvals =>
        split at h
        · cases h
        · next hpos =>
          have hslots : leNat (slice bytes 12 4) < 2 ^ 32 := by
            have h₄ : (slice bytes 12 4).length = 4 := length_slice (by omega)
            have := leNat_lt (slice bytes 12 4)
            rwa [h₄] at this
          rw [← Except.ok.inj h]
          refine ⟨⟨?_, ?_, hslots, ?_, ?_, ?_⟩, by omega⟩ <;> dsimp only
          · tauto
          · omega
          · tauto
          · omega
          · omega

end BandixPlus.Persistence.RingCodec
