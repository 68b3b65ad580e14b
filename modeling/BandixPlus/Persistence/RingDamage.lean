import BandixPlus.Persistence.Ring

/-! # Appends to damaged ring files

Any content may be found in a ring file: a header that cannot be read, positions that disagree, a
length that does not fit, records that do not decode. Some of it is moved away when the file is opened,
some when it is read, and some makes the append fail or its record disappear.

* `appends_iff`: exactly which contents an append works on.
* `append_fails`: a non-full ring with disagreeing positions is refused for good. -/

namespace BandixPlus.Persistence.RingDamage

open BandixPlus.Lib.RingBuffer BandixPlus.Persistence.RingFile BandixPlus.Persistence.RingCodec
open BandixPlus.Persistence.Ring

/-- **What an append to an existing file is to do**: it succeeds, and its record is the last that is
read afterwards. The old content has been moved away, or its newest records are still there. -/
def Appends (s : Store) (bytes : List UInt8) (record : RingRecord) (slotCount : ℕ) : Prop :=
  let s' := (appendRingRecordWithCapacity s record slotCount).2
  (appendRingRecordWithCapacity s record slotCount).1 = .ok () ∧
    ∃ records : List RingRecord, (readRingRecords s').1 = .ok (records ++ [record]) ∧
      ((s'.quarantined = s.quarantined ++ [bytes] ∧ records = []) ∨
        (s'.quarantined = s.quarantined ∧ ∃ header, readRingHeader bytes = .ok header ∧
          newest bytes header (slotCount - 1) = records.map .ok))

/-- **The contents that an append works on.** -/
structure Appendable (bytes : List UInt8) (slotCount : ℕ) : Prop where
  /-- The positions of a header that is read agree. -/
  positions : ∀ header, readRingHeader bytes = .ok header → 0 < header.validCount →
    header.validCount < header.slotCount → header.writePos = header.validCount
  /-- A ring that is opened as it is and holds no record starts at slot 0. -/
  start : ∀ header, Layout bytes header → Current header slotCount →
    header.validCount = 0 → header.writePos = 0
  /-- The records that such a ring keeps decode. -/
  records : ∀ header, Layout bytes header → Current header slotCount →
    ∀ e, .error e ∉ newest bytes header (slotCount - 1)
  /-- Fewer than 2^32 - 1 records are left when the file is opened. -/
  count : ∀ header, Layout bytes header → header.validCount = 2 ^ 32 - 1 → slotCount = 2 ^ 32 - 1 →
    header.version = 1 ∧ ∃ e, .error e ∈ newest bytes header slotCount

variable {bytes bytes' : List UInt8} {header header' : RingHeader} {records : List RingRecord}
  {s s' : Store} {record : RingRecord} {slotCount : Capacity}

theorem rtake_append_singleton {α : Type} (l : List α) (x : α) {n : ℕ} (h : 0 < n) :
    (l ++ [x]).rtake n = l.rtake (n - 1) ++ [x] := by
  obtain ⟨k, rfl⟩ : ∃ k, n = k + 1 := ⟨n - 1, by omega⟩
  exact List.rtake_concat_succ l k x

theorem newest_rtake (h : HeaderOk header) {m n : ℕ} (hmn : m ≤ n) :
    newest bytes header m = (newest bytes header n).rtake m := by
  have hlen : (newest bytes header n).length = min header.validCount n := length_contents _ _ _ _
  have hvalid := h.validCount
  have hmin : min header.validCount m = min (min header.validCount n) m := by omega
  rw [← rtake_min, hlen]
  unfold newest
  rw [hmin]
  exact contents_rtake _ (by omega) (min_le_left _ _)

/-- No limit. -/
theorem newest_all (h : HeaderOk header) :
    newest bytes header (2 ^ 32 - 1) = newest bytes header header.validCount := by
  have hvalid := h.validCount
  have hslots := h.slotCount_lt
  unfold newest
  rw [Nat.min_self, Nat.min_eq_left (by omega)]

theorem map_ok_injective {l l' : List RingRecord}
    (h : l.map (Except.ok (ε := String)) = l'.map Except.ok) : l = l' :=
  List.map_injective_iff.mpr (fun _ _ => Except.ok.inj) h

theorem eq_map_ok {l : List (Except String RingRecord)} (h : ∀ e, .error e ∉ l) :
    ∃ records : List RingRecord, l = records.map .ok := by
  rcases readAll_cases l with hok | ⟨⟨e, he⟩, -⟩
  · exact hok
  · exact absurd he (h e)

/-! ### Appending to what has been opened -/

theorem append_eq (hopen : openOrCreateRing s slotCount = (.ok bytes', s'))
    (hheader : readRingHeader bytes' = .ok header') :
    appendRingRecordWithCapacity s record slotCount =
      (.ok (), { s' with file := some (pushRecord bytes' header' record) }) := by
  unfold appendRingRecordWithCapacity
  rw [hopen]
  dsimp only
  rw [hheader]

theorem read_append (record : RingRecord) (hopen : openOrCreateRing s slotCount = (.ok bytes', s'))
    (hring : IsRing bytes' header' records) (hcurrent : Current header' slotCount)
    (hcount : header'.validCount + 1 < 2 ^ 32) :
    (readRingRecords (appendRingRecordWithCapacity s record slotCount).2).1 =
      .ok (records.rtake (slotCount - 1) ++ [record]) := by
  have hpush := isRing_pushRecord hring hcurrent.1 hcount record
  rw [hcurrent.2, rtake_append_singleton _ _ slotCount.property.1] at hpush
  rw [append_eq hopen hring.header_eq, readRingRecords_of_isRing hpush rfl]

/-- A file that is moved away makes place for a new ring. -/
theorem appends_of_quarantined (hs : s.file = some bytes)
    (hopen : openOrCreateRing s slotCount = (.ok bytes', { quarantineBadFile s with file := some bytes' }))
    (hring : IsRing bytes' header' []) (hcurrent : Current header' slotCount) :
    Appends s bytes record slotCount := by
  have hzero : header'.validCount = 0 := hring.length_records.symm
  refine ⟨by rw [append_eq hopen hring.header_eq], [], ?_, .inl ⟨?_, rfl⟩⟩
  · rw [read_append record hopen hring hcurrent (by omega), List.rtake_nil]
  · rw [append_eq hopen hring.header_eq]
    show (quarantineBadFile s).quarantined = _
    unfold quarantineBadFile
    rw [hs]

theorem appends_of_createRing (hs : s.file = some bytes)
    (hopen : openOrCreateRing s slotCount = createRing (quarantineBadFile s) slotCount) :
    Appends s bytes record slotCount :=
  appends_of_quarantined hs hopen (isRing_createRing slotCount.property.1 slotCount.property.2) ⟨rfl, rfl⟩

/-- An append after which nothing is read. -/
theorem not_appends_of_read_nil
    (h : (readRingRecords (appendRingRecordWithCapacity s record slotCount).2).1 = .ok []) :
    ¬ Appends s bytes record slotCount := by
  rintro ⟨-, records, hread, -⟩
  rw [h] at hread
  exact List.append_ne_nil_of_right_ne_nil records (List.cons_ne_nil record [])
    (Except.ok.inj hread).symm

/-- A push that makes the count wrap leaves an empty ring. -/
theorem not_appends_of_wrap (hopen : openOrCreateRing s slotCount = (.ok bytes', s'))
    (hheader : readRingHeader bytes' = .ok header') (hvalid : header'.validCount + 1 = 2 ^ 32) :
    ¬ Appends s bytes record slotCount := by
  have hzero : (advance header').validCount = 0 := by
    unfold advance
    rw [hvalid, Nat.mod_self, Nat.zero_min]
  have hok := (readRingHeader_ok hheader).1
  refine not_appends_of_read_nil ?_
  rw [readRingRecords_of_validCount_zero (by rw [append_eq hopen hheader])
    (readRingHeader_pushRecord hok bytes' record) hzero]

/-! ### Opening -/

theorem open_unreadable (hs : s.file = some bytes) {e : String} (h : readRingHeader bytes = .error e) :
    openOrCreateRing s slotCount = createRing (quarantineBadFile s) slotCount := by
  unfold openOrCreateRing
  rw [if_neg slotCount.property.1.ne', hs]
  dsimp only
  rw [h]

theorem open_readable (hs : s.file = some bytes) (hheader : readRingHeader bytes = .ok header) :
    openOrCreateRing s slotCount =
      match ringSizeBounds header with
      | .error e => (.error e, s)
      | .ok (minExpected, maxExpected) =>
        if bytes.length < minExpected ∨ maxExpected < bytes.length then
          createRing (quarantineBadFile s) slotCount
        else if header.version = 1 ∨ header.slotCount ≠ slotCount then
          match readRingRecordsLimited s slotCount with
          | (.error e, s) => (.error e, s)
          | (.ok records, s) =>
            (.ok (convertedRing slotCount records), { s with file := some (convertedRing slotCount records) })
        else (.ok bytes, s) := by
  unfold openOrCreateRing
  rw [if_neg slotCount.property.1.ne', hs]
  dsimp only
  exact hheader ▸ rfl

/-- A readable header and a fitting length are a layout. -/
theorem layout_of_bounds (hheader : readRingHeader bytes = .ok header)
    (hfilled : 0 < header.validCount → header.validCount < header.slotCount →
      header.writePos = header.validCount)
    (hsize : ¬ (bytes.length < ringHeaderSize + header.validCount * header.recordSize ∨
      ringTotalSize header < bytes.length)) : Layout bytes header :=
  ⟨hheader, hfilled, by omega, by omega⟩

theorem open_current (h : Layout bytes header) (hs : s.file = some bytes)
    (hcurrent : Current header slotCount) : openOrCreateRing s slotCount = (.ok bytes, s) := by
  have hkeep : ¬ (header.version = 1 ∨ header.slotCount ≠ slotCount) := by
    rintro (hone | hne)
    · rw [hcurrent.1] at hone
      exact absurd hone (by decide)
    · exact hne hcurrent.2
  rw [open_readable hs h.header_eq, h.ringSizeBounds]
  dsimp only
  rw [if_neg h.in_bounds, if_neg hkeep]

theorem open_converted (h : Layout bytes header) (hs : s.file = some bytes)
    (hcurrent : ¬ Current header slotCount) {r : List RingRecord}
    (hread : readRingRecordsLimited s slotCount = (.ok r, s')) :
    openOrCreateRing s slotCount =
      (.ok (convertedRing slotCount r), { s' with file := some (convertedRing slotCount r) }) := by
  have hconvert : header.version = 1 ∨ header.slotCount ≠ slotCount := by
    by_contra hkeep
    obtain ⟨hversion, hslots⟩ := not_or.mp hkeep
    exact hcurrent ⟨h.headerOk.version.resolve_left hversion, not_not.mp hslots⟩
  rw [open_readable hs h.header_eq, h.ringSizeBounds]
  dsimp only
  rw [if_neg h.in_bounds, if_pos hconvert, hread]

/-! ### A ring that is opened as it is -/

/-- The slots after a push, as far as the push keeps them. -/
theorem newest_pushRecord (h : Layout bytes header) (hcurrent : Current header slotCount)
    (hstart : header.validCount = 0 → header.writePos = 0) (hcount : header.validCount + 1 < 2 ^ 32)
    (record : RingRecord) :
    newest (pushRecord bytes header record) (advance header) (advance header).validCount =
      newest bytes header (slotCount - 1) ++ [.ok record] := by
  have hall : newest bytes header (slotCount - 1) =
      (contents (ringSlot bytes header) header.slotCount header.writePos header.validCount).rtake
        (slotCount - 1) := by
    have hle := h.headerOk.validCount
    have hslots := hcurrent.2
    rw [newest_rtake h.headerOk (Nat.sub_le slotCount.val 1)]
    unfold newest
    rw [Nat.min_eq_left (by omega)]
  have hpush := contents_pushRecord h (h.positioned hstart) hcurrent.1 record hcount
  rw [hcurrent.2, rtake_append_singleton _ _ slotCount.property.1, ← hcurrent.2] at hpush
  rw [hall]
  unfold newest
  rw [Nat.min_self]
  show contents _ header.slotCount _ _ = _
  rw [hpush, hcurrent.2]

/-- A push into an empty ring that does not start at slot 0 leaves positions that disagree. -/
theorem not_appends_of_start (h : Layout bytes header) (hs : s.file = some bytes)
    (hcurrent : Current header slotCount) (hzero : header.validCount = 0) (hwrite : header.writePos ≠ 0) :
    ¬ Appends s bytes record slotCount := by
  have hlt := h.headerOk.writePos
  have hadvance : (advance header).validCount = 1 := by
    rw [advance_validCount (by omega), hzero]
    omega
  have hposition : (advance header).writePos ≠ 1 := by
    rw [advance_writePos h]
    rcases Nat.lt_or_ge (header.writePos + 1) header.slotCount with hsmall | hlarge
    · rw [Nat.mod_eq_of_lt hsmall]
      omega
    · rw [show header.writePos + 1 = header.slotCount by omega, Nat.mod_self]
      omega
  obtain ⟨e, hbounds⟩ := @ringSizeBounds_ne_ok (advance header) (by omega)
    (by rw [hadvance]; show 1 < header.slotCount; omega) (by rw [hadvance]; exact hposition)
  have hheader := readRingHeader_pushRecord h.headerOk bytes record
  refine not_appends_of_read_nil ?_
  rw [append_eq (open_current h hs hcurrent) h.header_eq]
  unfold readRingRecords readRingRecordsLimited
  dsimp only
  rw [hheader]
  dsimp only
  rw [hbounds]

theorem appends_current_iff (h : Layout bytes header) (hs : s.file = some bytes)
    (hcurrent : Current header slotCount) :
    Appends s bytes record slotCount ↔
      (header.validCount = 0 → header.writePos = 0) ∧
        (∀ e, .error e ∉ newest bytes header (slotCount - 1)) ∧ header.validCount ≠ 2 ^ 32 - 1 := by
  have hopen := open_current h hs hcurrent
  have hslots := h.headerOk.slotCount_lt
  have hvalid := h.headerOk.validCount
  by_cases hwrap : header.validCount = 2 ^ 32 - 1
  · refine iff_of_false (not_appends_of_wrap hopen h.header_eq (by omega)) fun hall => hall.2.2 hwrap
  by_cases hstart : header.validCount = 0 → header.writePos = 0
  swap
  · obtain ⟨hzero, hwrite⟩ := Classical.not_imp.mp hstart
    exact iff_of_false (not_appends_of_start h hs hcurrent hzero hwrite) fun hall => hstart hall.1
  have hcount : header.validCount + 1 < 2 ^ 32 := by omega
  have hlayout := layout_pushRecord h (h.positioned hstart) hcurrent.1 record hcount
  have hnewest := newest_pushRecord h hcurrent hstart hcount record
  have happend : appendRingRecordWithCapacity s record slotCount =
      (.ok (), { s with file := some (pushRecord bytes header record) }) := append_eq hopen h.header_eq
  have hread := readRingRecordsLimited_of_layout hlayout
    (s := { s with file := some (pushRecord bytes header record) }) rfl (2 ^ 32 - 1)
  rw [newest_all hlayout.headerOk, hnewest] at hread
  rcases hread with ⟨records, hrecords, hread⟩ | ⟨⟨e, he⟩, hread⟩
  · have hkept : ∀ e, .error e ∉ newest bytes header (slotCount - 1) := by
      intro e he
      have hmem := List.mem_append_left [Except.ok record] he
      rw [hrecords] at hmem
      obtain ⟨r, -, hr⟩ := List.mem_map.mp hmem
      cases hr
    refine iff_of_true ?_ ⟨hstart, hkept, hwrap⟩
    obtain ⟨kept, hkept⟩ := eq_map_ok hkept
    have hlast : records = kept ++ [record] := by
      refine map_ok_injective ?_
      rw [← hrecords, hkept, List.map_append, List.map_singleton]
    refine ⟨by rw [happend], kept, ?_, .inr ⟨by rw [happend], header, h.header_eq, hkept⟩⟩
    rw [happend, ← hlast]
    exact congrArg Prod.fst hread
  · refine iff_of_false (not_appends_of_read_nil ?_) fun hall => hall.2.1 e ?_
    · rw [happend]
      exact congrArg Prod.fst hread
    · rcases List.mem_append.mp he with he | he
      · exact he
      · cases List.mem_singleton.mp he

/-! ### A ring that is converted -/

theorem appends_converted_iff (h : Layout bytes header) (hs : s.file = some bytes)
    (hcurrent : ¬ Current header slotCount) :
    Appends s bytes record slotCount ↔
      (header.validCount = 2 ^ 32 - 1 → slotCount.val = 2 ^ 32 - 1 →
        ∃ e, .error e ∈ newest bytes header slotCount) := by
  obtain ⟨hpos, hlt⟩ := slotCount.property
  rcases readRingRecordsLimited_of_layout h hs slotCount with ⟨records, hrecords, hread⟩ | ⟨herror, hread⟩
  · have hopen := open_converted h hs hcurrent hread
    have hlen : records.length = min header.validCount slotCount := by
      have hlen := congrArg List.length hrecords
      rw [List.length_map] at hlen
      rw [← hlen]
      exact length_contents _ _ _ _
    have hring := @isRing_convertedRing records _ hpos hlt (by omega)
    have hvalid := hring.length_records
    by_cases hwrap : records.length = 2 ^ 32 - 1
    · refine iff_of_false (not_appends_of_wrap hopen hring.header_eq (by omega)) fun hall => ?_
      obtain ⟨e, he⟩ :=
        hall (by have := h.headerOk.validCount; have := h.headerOk.slotCount_lt; omega) (by omega)
      rw [hrecords] at he
      obtain ⟨r, -, hr⟩ := List.mem_map.mp he
      cases hr
    · refine iff_of_true ?_ fun hfull hcap => absurd hlen (by omega)
      have hlast := read_append record hopen hring ⟨rfl, rfl⟩ (by omega)
      refine ⟨by rw [append_eq hopen hring.header_eq], _, hlast, .inr ⟨?_, header, h.header_eq, ?_⟩⟩
      · rw [append_eq hopen hring.header_eq]
      · rw [newest_rtake h.headerOk (Nat.sub_le _ 1), hrecords, rtake_map]
  · refine iff_of_true ?_ fun _ _ => herror
    have hopen := open_converted h hs hcurrent hread
    exact appends_of_quarantined hs hopen (isRing_convertedRing hpos hlt (Nat.zero_le _)) ⟨rfl, rfl⟩

/-! ### Any file -/

/-- Positions that disagree are an error, and the file stays. -/
theorem append_of_positions (record : RingRecord) (slotCount : Capacity) (hs : s.file = some bytes)
    (hheader : readRingHeader bytes = .ok header)
    (hpos : 0 < header.validCount) (hlt : header.validCount < header.slotCount)
    (hne : header.writePos ≠ header.validCount) :
    ∃ e, appendRingRecordWithCapacity s record slotCount = (.error e, s) := by
  obtain ⟨e, hbounds⟩ := ringSizeBounds_ne_ok hpos hlt hne
  refine ⟨e, ?_⟩
  unfold appendRingRecordWithCapacity
  rw [open_readable hs hheader, hbounds]

/-- A header that can be read determines what the conditions ask. -/
theorem appendable_iff (hheader : readRingHeader bytes = .ok header) :
    Appendable bytes slotCount ↔
      (0 < header.validCount → header.validCount < header.slotCount →
        header.writePos = header.validCount) ∧
      (Layout bytes header → Current header slotCount →
        (header.validCount = 0 → header.writePos = 0) ∧
          ∀ e, .error e ∉ newest bytes header (slotCount - 1)) ∧
      (Layout bytes header → header.validCount = 2 ^ 32 - 1 → slotCount.val = 2 ^ 32 - 1 →
        header.version = 1 ∧ ∃ e, .error e ∈ newest bytes header slotCount) := by
  have hunique : ∀ header', readRingHeader bytes = .ok header' → header' = header := fun header' h => by
    rw [hheader] at h
    exact (Except.ok.inj h).symm
  constructor
  · intro h
    exact ⟨h.positions header hheader, fun hl hc => ⟨h.start header hl hc, h.records header hl hc⟩,
      h.count header⟩
  · rintro ⟨hpositions, hcurrent, hcount⟩
    refine ⟨fun header' h => ?_, fun header' hl => ?_, fun header' hl => ?_, fun header' hl => ?_⟩
    · exact hunique header' h ▸ hpositions
    · obtain rfl := hunique header' hl.header_eq
      exact fun hc => (hcurrent hl hc).1
    · obtain rfl := hunique header' hl.header_eq
      exact fun hc => (hcurrent hl hc).2
    · obtain rfl := hunique header' hl.header_eq
      exact hcount hl

theorem appendable_of_unreadable {e : String} (h : readRingHeader bytes = .error e) :
    Appendable bytes slotCount := by
  have hnone : ∀ header, readRingHeader bytes ≠ .ok header := fun header hok => by
    rw [h] at hok
    cases hok
  exact ⟨fun header hok => absurd hok (hnone header), fun header hl => absurd hl.header_eq (hnone header),
    fun header hl => absurd hl.header_eq (hnone header),
    fun header hl => absurd hl.header_eq (hnone header)⟩

/-- **Exactly which files an append works on.** -/
theorem appends_iff (s : Store) (bytes : List UInt8) (hs : s.file = some bytes) (record : RingRecord)
    (slotCount : Capacity) : Appends s bytes record slotCount ↔ Appendable bytes slotCount := by
  cases hheader : readRingHeader bytes with
  | error e =>
    exact iff_of_true (appends_of_createRing hs (open_unreadable hs hheader))
      (appendable_of_unreadable hheader)
  | ok header =>
    have hok := (readRingHeader_ok hheader).1
    have hvalid := hok.validCount
    have hslots := hok.slotCount_lt
    rw [appendable_iff hheader]
    by_cases hfilled : 0 < header.validCount → header.validCount < header.slotCount →
        header.writePos = header.validCount
    swap
    · -- positions that disagree
      refine iff_of_false ?_ fun h => hfilled h.1
      rintro ⟨happend, -⟩
      obtain ⟨hpos, hlt, hne⟩ : 0 < header.validCount ∧ header.validCount < header.slotCount ∧
          header.writePos ≠ header.validCount := by tauto
      obtain ⟨e, herror⟩ := append_of_positions record slotCount hs hheader hpos hlt hne
      rw [herror] at happend
      cases happend
    by_cases hsize : bytes.length < ringHeaderSize + header.validCount * header.recordSize ∨
        ringTotalSize header < bytes.length
    · -- a length that does not fit
      have hnone : ¬ Layout bytes header := fun hl => hl.in_bounds hsize
      refine iff_of_true (appends_of_createRing hs ?_)
        ⟨hfilled, fun hl => absurd hl hnone, fun hl => absurd hl hnone⟩
      rw [open_readable hs hheader, ringSizeBounds_eq hok hfilled]
      dsimp only
      rw [if_pos hsize]
    have hlayout := layout_of_bounds hheader hfilled hsize
    by_cases hcurrent : Current header slotCount
    · rw [appends_current_iff hlayout hs hcurrent]
      constructor
      · rintro ⟨hstart, hrecords, hcount⟩
        exact ⟨hfilled, fun _ _ => ⟨hstart, hrecords⟩, fun _ hfull => absurd hfull hcount⟩
      · rintro ⟨-, hkept, hcount⟩
        obtain ⟨hstart, hrecords⟩ := hkept hlayout hcurrent
        refine ⟨hstart, hrecords, fun hfull => ?_⟩
        obtain ⟨hone, -⟩ := hcount hlayout hfull (by have := hcurrent.2; omega)
        rw [hcurrent.1] at hone
        exact absurd hone (by decide)
    · rw [appends_converted_iff hlayout hs hcurrent]
      constructor
      · intro hcount
        refine ⟨hfilled, fun _ hc => absurd hc hcurrent, fun _ hfull hcap => ⟨?_, hcount hfull hcap⟩⟩
        exact hok.version.resolve_right fun hversion => hcurrent ⟨hversion, by omega⟩
      · rintro ⟨-, -, hcount⟩ hfull hcap
        exact (hcount hlayout hfull hcap).2

/-- A file that is too short for a header. -/
theorem appends_iff_tooShort :
    Appends ⟨some [0], []⟩ [0] sampleRecord 48 ↔ Appendable [0] 48 :=
  appends_iff ⟨some [0], []⟩ [0] rfl sampleRecord ⟨48, by decide⟩

/-- One record in a ring of three slots, and the next position two slots on. -/
def disagreeing : RingHeader where
  version := ringVersion
  slotCount := 3
  writePos := 2
  validCount := 1
  recordSize := ringRecordSize

/-- **An append that fails for good.** -/
theorem append_fails :
    ¬ ∀ (s : Store) (bytes : List UInt8) (record : RingRecord) (slotCount : Capacity),
      s.file = some bytes → Appends s bytes record slotCount := by
  intro h
  have hok : HeaderOk disagreeing := ⟨.inr rfl, by decide, by decide, rfl, by decide, by decide⟩
  have hheader := readRingHeader_headerBytes hok (encodeRingRecord sampleRecord)
  have happends := h ⟨some (headerBytes disagreeing ++ encodeRingRecord sampleRecord), []⟩ _ sampleRecord
    ⟨3, by decide⟩ rfl
  obtain ⟨e, herror⟩ := append_of_positions (s := ⟨some _, []⟩) sampleRecord ⟨3, by decide⟩ rfl
    hheader (by decide) (by decide) (by decide)
  rw [Appends, herror] at happends
  cases happends.1

end BandixPlus.Persistence.RingDamage
