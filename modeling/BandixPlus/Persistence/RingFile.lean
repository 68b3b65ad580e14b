import BandixPlus.Lib.Bytes
import BandixPlus.Monitor.Counters

/-! # Ring files

`persistence.rs`: the file that holds the completed buckets of one series. A header of 64 bytes, then
one record per slot, each with its checksum; version 1 records have no sample count and no sums. The
state is the file at one path, with the files that were renamed away as corrupt.

The numbers of a header are 32 bits wide, held in `ℕ`; sums that can pass 2^32 are taken modulo 2^32.
Offsets and sizes are 64-bit and stay below 2^40. No read or write fails. -/

namespace BandixPlus.Persistence.RingFile

open BandixPlus.Lib.Bytes BandixPlus.Monitor.Counters

/-- `b"BDXPRNG1"`. -/
def ringMagic : List UInt8 := [66, 68, 88, 80, 82, 78, 71, 49]
def ringVersion : ℕ := 2
def ringV1RecordSize : ℕ := 22 * 8 + 4
def ringHeaderSize : ℕ := 64
def ringRecordDataSize : ℕ := 27 * 8
def ringRecordSize : ℕ := ringRecordDataSize + 4

structure RingHeader where
  version : ℕ
  slotCount : ℕ
  writePos : ℕ
  validCount : ℕ
  recordSize : ℕ
  deriving DecidableEq

structure RingRecord where
  bucket : AggregatedBucket
  deriving DecidableEq

def checksum32 (data : List UInt8) : UInt32 :=
  data.foldl (fun hash b => (hash ^^^ b.toUInt32) * 0x01000193) 0x811c9dc5

/-! ### Records -/

/-- The sum, maximum, minimum, average and 95th percentile of one of the four directions. -/
def rateWords (b : AggregatedBucket) (direction : Quad UInt64 → UInt64) : List UInt64 :=
  [direction b.bpsSum, direction b.bpsMax, direction b.bpsMin, direction b.bpsAvg,
    direction b.bpsP95]

/-- The numbers of a record in the order of the file. -/
def bucketWords (b : AggregatedBucket) : List UInt64 :=
  [b.startTsMs, b.endTsMs, b.sampleCount, b.bytes.upV4, b.bytes.downV4, b.bytes.upV6, b.bytes.downV6]
    ++ rateWords b Quad.upV4 ++ rateWords b Quad.downV4 ++ rateWords b Quad.upV6
    ++ rateWords b Quad.downV6

def recordData (b : AggregatedBucket) : List UInt8 :=
  (bucketWords b).flatMap fun v => leBytes 8 v.toNat

/-- The record with its checksum; the check of its length in the source always passes
(`length_recordData`). -/
def encodeRingRecord (record : RingRecord) : List UInt8 :=
  recordData record.bucket ++ leBytes 4 (checksum32 (recordData record.bucket)).toNat

/-- The `i`-th number of a record. -/
def word (data : List UInt8) (i : ℕ) : UInt64 := UInt64.ofNat (leNat (slice data (8 * i) 8))

/-- The numbers at `i`, `i + step`, `i + 2 * step` and `i + 3 * step`. -/
def wordQuad (data : List UInt8) (i step : ℕ) : Quad UInt64 :=
  ⟨word data i, word data (i + step), word data (i + 2 * step), word data (i + 3 * step)⟩

/-- A version 1 record: an average stands for the one sample it counts. -/
def decodeV1 (data : List UInt8) : AggregatedBucket where
  startTsMs := word data 0
  endTsMs := word data 1
  sampleCount := 1
  bytes := wordQuad data 2 1
  bpsSum := wordQuad data 6 4
  bpsMax := wordQuad data 7 4
  bpsMin := wordQuad data 8 4
  bpsAvg := wordQuad data 6 4
  bpsP95 := wordQuad data 9 4

def decodeV2 (data : List UInt8) : AggregatedBucket where
  startTsMs := word data 0
  endTsMs := word data 1
  sampleCount := word data 2
  bytes := wordQuad data 3 1
  bpsSum := wordQuad data 7 5
  bpsMax := wordQuad data 8 5
  bpsMin := wordQuad data 9 5
  bpsAvg := wordQuad data 10 5
  bpsP95 := wordQuad data 11 5

def recordSizeOf (version : ℕ) : ℕ := if version = 1 then ringV1RecordSize else ringRecordSize

def decodeRingRecord (data : List UInt8) (version : ℕ) : Except String RingRecord :=
  let recordSize := recordSizeOf version
  if data.length ≠ recordSize then .error "invalid ring record length"
  else
    let dataSize := recordSize - 4
    if leNat (data.drop dataSize) ≠ (checksum32 (data.take dataSize)).toNat then
      .error "ring record checksum mismatch"
    else if version = 1 then .ok ⟨decodeV1 data⟩
    else .ok ⟨decodeV2 data⟩

/-! ### Headers -/

def defaultRingHeader (slotCount : ℕ) : RingHeader where
  version := ringVersion
  slotCount := slotCount
  writePos := 0
  validCount := 0
  recordSize := ringRecordSize

/-- The bytes of a header that its checksum covers. -/
def headerData (header : RingHeader) : List UInt8 :=
  ringMagic ++ leBytes 4 header.version ++ leBytes 4 header.slotCount ++ leBytes 4 header.writePos
    ++ leBytes 4 header.validCount ++ leBytes 4 header.recordSize

def headerBytes (header : RingHeader) : List UInt8 :=
  headerData header ++ leBytes 4 (checksum32 (headerData header)).toNat ++ List.replicate 32 0

def writeRingHeader (bytes : List UInt8) (header : RingHeader) : List UInt8 :=
  writeAt bytes 0 (headerBytes header)

def readRingHeader (bytes : List UInt8) : Except String RingHeader :=
  if bytes.length < ringHeaderSize then .error "failed to fill whole buffer"
  else if slice bytes 0 8 ≠ ringMagic then .error "invalid ring magic"
  else
    let version := leNat (slice bytes 8 4)
    if version ≠ 1 ∧ version ≠ ringVersion then .error s!"unsupported ring version {version}"
    else if leNat (slice bytes 28 4) ≠ (checksum32 (slice bytes 0 28)).toNat then
      .error "invalid ring header checksum"
    else
      let slotCount := leNat (slice bytes 12 4)
      let writePos := leNat (slice bytes 16 4)
      let validCount := leNat (slice bytes 20 4)
      let recordSize := leNat (slice bytes 24 4)
      if slotCount = 0 ∨ recordSize ≠ recordSizeOf version then .error "invalid ring header values"
      else if slotCount ≤ writePos ∨ slotCount < validCount then .error "invalid ring positions"
      else .ok { version, slotCount, writePos, validCount, recordSize }

def ringTotalSize (header : RingHeader) : ℕ := ringHeaderSize + header.slotCount * header.recordSize

def ringMinSize (header : RingHeader) : Except String ℕ :=
  if header.validCount = 0 then .ok ringHeaderSize
  else if header.validCount < header.slotCount then
    if header.writePos ≠ header.validCount then
      let writePos := header.writePos
      let validCount := header.validCount
      .error s!"invalid ring header for non-full ring write_pos={writePos} valid_count={validCount}"
    else .ok (ringHeaderSize + header.validCount * header.recordSize)
  else .ok (ringHeaderSize + header.slotCount * header.recordSize)

def ringSizeBounds (header : RingHeader) : Except String (ℕ × ℕ) :=
  match ringMinSize header with
  | .error e => .error e
  | .ok min => .ok (min, ringTotalSize header)

def ringDataOffset (header : RingHeader) (slotIdx : ℕ) : ℕ :=
  ringHeaderSize + slotIdx * header.recordSize

/-! ### Operations -/

/-- The file at one path, if there is one, and the corrupt files renamed away from it. -/
structure Store where
  file : Option (List UInt8)
  quarantined : List (List UInt8)

def quarantineBadFile (s : Store) : Store :=
  match s.file with
  | none => s
  | some bytes => { file := none, quarantined := s.quarantined ++ [bytes] }

/-- Why reading the records stops: a corrupt file, or a failed read. -/
inductive ReadError where
  | corrupt
  | io (message : String)

/-- The loop of `read_ring_records_limited`: read `n` records from the `i`-th on, the reader standing
at `pos`; it jumps back only when it comes round to slot 0. -/
def readSlots (bytes : List UInt8) (header : RingHeader) (startIdx : ℕ) :
    ℕ → ℕ → ℕ → Except ReadError (List RingRecord)
  | 0, _, _ => .ok []
  | n + 1, i, pos =>
    let idx := (startIdx + i) % header.slotCount
    let offset := ringDataOffset header idx
    if bytes.length < offset + header.recordSize then .error .corrupt
    else
      let pos := if 0 < i ∧ idx = 0 then offset else pos
      if bytes.length < pos + header.recordSize then .error (.io "failed to fill whole buffer")
      else
        match decodeRingRecord (slice bytes pos header.recordSize) header.version with
        | .error _ => .error .corrupt
        | .ok record =>
          match readSlots bytes header startIdx n (i + 1) (pos + header.recordSize) with
          | .error e => .error e
          | .ok records => .ok (record :: records)

def readRingRecordsLimited (s : Store) (limit : ℕ) : Except String (List RingRecord) × Store :=
  match s.file with
  | none => (.error "No such file or directory", s)
  | some bytes =>
    match readRingHeader bytes with
    | .error _ => (.ok [], quarantineBadFile s)
    | .ok header =>
      match ringSizeBounds header with
      | .error _ => (.ok [], quarantineBadFile s)
      | .ok (minExpected, maxExpected) =>
        if bytes.length < minExpected ∨ maxExpected < bytes.length then
          (.ok [], quarantineBadFile s)
        else
          let count := min header.validCount limit
          let startIdx := (header.writePos + header.slotCount - count) % header.slotCount
          match readSlots bytes header startIdx count 0 (ringDataOffset header startIdx) with
          | .ok records => (.ok records, s)
          | .error .corrupt => (.ok [], quarantineBadFile s)
          | .error (.io e) => (.error e, s)

/-- `u32::MAX` is no limit: there are at most that many slots. -/
def readRingRecords (s : Store) : Except String (List RingRecord) × Store :=
  readRingRecordsLimited s (2 ^ 32 - 1)

def createRing (s : Store) (slotCount : ℕ) : Except String (List UInt8) × Store :=
  let bytes := writeRingHeader [] (defaultRingHeader slotCount)
  (.ok bytes, { s with file := some bytes })

/-- The header of a ring converted from `count` records. -/
def convertedHeader (slotCount count : ℕ) : RingHeader :=
  { defaultRingHeader slotCount with
    validCount := count % 2 ^ 32
    writePos := count % 2 ^ 32 % slotCount }

def convertedRing (slotCount : ℕ) (records : List RingRecord) : List UInt8 :=
  writeRingHeader [] (convertedHeader slotCount records.length) ++ records.flatMap encodeRingRecord

/-- `open_or_create_ring`, with the content of the file it opens. After a quarantine the recursive
call finds no file and creates one. -/
def openOrCreateRing (s : Store) (slotCount : ℕ) : Except String (List UInt8) × Store :=
  if slotCount = 0 then (.error "ring capacity must be positive", s)
  else
    match s.file with
    | none => createRing s slotCount
    | some bytes =>
      match readRingHeader bytes with
      | .error _ => createRing (quarantineBadFile s) slotCount
      | .ok header =>
        match ringSizeBounds header with
        | .error e => (.error e, s)
        | .ok (minExpected, maxExpected) =>
          if bytes.length < minExpected ∨ maxExpected < bytes.length then
            createRing (quarantineBadFile s) slotCount
          else if header.version = 1 ∨ header.slotCount ≠ slotCount then
            match readRingRecordsLimited s slotCount with
            | (.error e, s) => (.error e, s)
            | (.ok records, s) =>
              let converted := convertedRing slotCount records
              (.ok converted, { s with file := some converted })
          else (.ok bytes, s)

/-- The header after a record is written. -/
def advance (header : RingHeader) : RingHeader :=
  let slot := header.writePos % header.slotCount
  { header with
    writePos := (slot + 1) % header.slotCount
    validCount := min ((header.validCount + 1) % 2 ^ 32) header.slotCount }

/-- Write the record into its slot, then the header. -/
def pushRecord (bytes : List UInt8) (header : RingHeader) (record : RingRecord) : List UInt8 :=
  let slot := header.writePos % header.slotCount
  let written := writeAt bytes (ringDataOffset header slot) (encodeRingRecord record)
  writeRingHeader written (advance header)

def appendRingRecordWithCapacity (s : Store) (record : RingRecord) (slotCount : ℕ) :
    Except String Unit × Store :=
  match openOrCreateRing s slotCount with
  | (.error e, s) => (.error e, s)
  | (.ok bytes, s) =>
    match readRingHeader bytes with
    | .error e => (.error e, s)
    | .ok header => (.ok (), { s with file := some (pushRecord bytes header record) })

end BandixPlus.Persistence.RingFile
