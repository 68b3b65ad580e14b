import BandixPlus.Dns.Stats
import BandixPlus.Persistence.StateFiles

/-! # The history of queries across restarts

`dns.rs`: every so often the records are saved, as lines of JSON, in a temporary file that is then renamed to
`queries.jsonl`; when the service starts, it reads the file and restores the last records. The service may be
killed at any time, also while it saves. A power cut is left out: the file is not synced.

* `loadDnsRecords_encode`: what was saved is loaded, the last records of it.
* `history_survives_restarts`: in every run with kills, a restart restores what the last save that came to its
  end has saved, in order and each record once, and marks those without an answer. -/

namespace BandixPlus.Dns.Storage

open BandixPlus.Lib.Maps BandixPlus.Lib.RingBuffer BandixPlus.Lib.Run
open BandixPlus.Dns.Invariant BandixPlus.Dns.Monitor BandixPlus.Dns.Stats
open BandixPlus.Persistence.StateFiles (written flatten_written)

/-- `records_for_persistence`. -/
abbrev recordsForPersistence : DnsMonitor → List DnsQueryRecord := recordsInOrder

/-- `serde_json` for a record, and its reader for the bytes of a line. -/
structure LineCodec where
  toWriter : DnsQueryRecord → List UInt8
  fromStr : List UInt8 → Option DnsQueryRecord

/-- A line feed ends a line, with a carriage return before it. -/
def chomp (line : List UInt8) : List UInt8 := if line.getLast? = some 13 then line.dropLast else line

/-- `BufRead::lines`, with the line so far. -/
def linesFrom (line : List UInt8) : List UInt8 → List (List UInt8)
  | [] => if line = [] then [] else [line]
  | b :: bytes => if b = 10 then chomp line :: linesFrom [] bytes else linesFrom (line ++ [b]) bytes

variable (json : LineCodec)

/-- The loop of `load_dns_records`; a line that cannot be read is passed over. -/
def loadLine (maxRecords : ℕ) (records : List DnsQueryRecord) (line : List UInt8) : List DnsQueryRecord :=
  match json.fromStr line with
  | none => records
  | some record => (if records.length = maxRecords then records.tail else records) ++ [restoredRecord record]

def loadDnsRecords (maxRecords : ℕ) (file : Option (List UInt8)) : List DnsQueryRecord :=
  if maxRecords = 0 then []
  else
    match file with
    | none => []
    | some bytes => (linesFrom [] bytes).foldl (loadLine json maxRecords) []

/-- What `save_dns_records` writes. -/
def encode (records : List DnsQueryRecord) : List UInt8 :=
  records.flatMap fun record => json.toWriter record ++ [10]

/-! ### Runs -/

/-- A save that is under way: what is still to be written before the file is renamed. -/
structure Save where
  records : List DnsQueryRecord
  todo : List (List UInt8)

structure System where
  monitor : DnsMonitor
  /-- `queries.jsonl` and `queries.jsonl.tmp`. -/
  file : Option (List UInt8)
  temp : Option (List UInt8)
  save : Option Save
  /-- What the last save that came to its end has saved. -/
  stored : List DnsQueryRecord

inductive Action where
  | capture (c : Capture)
  /-- The ticker; it waits for a save that is under way. -/
  | flush (sizes : List ℕ)
  /-- The save makes its next call. -/
  | call
  | fail
  /-- The service is killed and started again. -/
  | restart (maxRecords : UInt32)

def restarted (maxRecords : UInt32) (file : Option (List UInt8)) : DnsMonitor :=
  restoreRecords (DnsMonitor.new maxRecords.toNat) (loadDnsRecords json maxRecords.toNat file)

def step (s : System) : Action → System
  | .capture c => { s with monitor := ingest s.monitor c }
  | .flush sizes =>
    match s.save with
    | some _ => s
    | none =>
      let records := recordsForPersistence s.monitor
      { s with temp := some [], save := some ⟨records, written sizes (encode json records)⟩ }
  | .call =>
    match s.save with
    | none => s
    | some ⟨records, part :: todo⟩ =>
      { s with temp := s.temp.map (· ++ part), save := some ⟨records, todo⟩ }
    | some ⟨records, []⟩ => { s with file := s.temp, temp := none, save := none, stored := records }
  | .fail => { s with save := none }
  | .restart maxRecords => { s with monitor := restarted json maxRecords s.file, save := none }

/-- The service starts for the first time. -/
def begin (maxRecords : UInt32) : System := ⟨DnsMonitor.new maxRecords.toNat, none, none, none, []⟩

/-- **JSON on a line**: no line feed is in it, no carriage return at its end, and it is read back. -/
structure OnLine (record : DnsQueryRecord) : Prop where
  noLineFeed : 10 ∉ json.toWriter record
  noReturn : (json.toWriter record).getLast? ≠ some 13
  readBack : json.fromStr (json.toWriter record) = some record

/-- What a flush takes is written on lines. -/
def Written (s : System) : Action → Prop
  | .flush _ => ∀ record ∈ recordsForPersistence s.monitor, OnLine json record
  | _ => True

/-! ### Lines -/

variable {json}

theorem linesFrom_append {bytes : List UInt8} (h : 10 ∉ bytes) (line rest : List UInt8) :
    linesFrom line (bytes ++ 10 :: rest) = chomp (line ++ bytes) :: linesFrom [] rest := by
  induction bytes generalizing line with
  | nil => simp [linesFrom]
  | cons b bytes ih =>
    have hb : b ≠ 10 := fun heq => h (heq ▸ List.mem_cons_self)
    rw [List.cons_append, linesFrom, if_neg hb, ih fun hmem => h (List.mem_cons_of_mem _ hmem)]
    simp

theorem linesFrom_encode {records : List DnsQueryRecord} (h : ∀ record ∈ records, OnLine json record) :
    linesFrom [] (encode json records) = records.map json.toWriter := by
  induction records with
  | nil => rfl
  | cons record records ih =>
    have hline := h record List.mem_cons_self
    have hencode : encode json (record :: records) = json.toWriter record ++ 10 :: encode json records := by
      simp [encode]
    rw [hencode, linesFrom_append hline.noLineFeed, ih fun r hr => h r (List.mem_cons_of_mem _ hr),
      List.nil_append, chomp, if_neg hline.noReturn, List.map_cons]

/-- A full queue gives up its first record. -/
theorem loadLine_eq {record : DnsQueryRecord} (h : OnLine json record) {maxRecords : ℕ}
    (hpos : 0 < maxRecords) {records : List DnsQueryRecord} (hlen : records.length ≤ maxRecords) :
    loadLine json maxRecords records (json.toWriter record) =
      (records ++ [restoredRecord record]).rtake maxRecords := by
  unfold loadLine
  rw [h.readBack]
  dsimp only
  split_ifs with hfull
  · cases records with
    | nil => simp at hfull; omega
    | cons first records =>
      rw [List.length_cons] at hfull
      simp [List.rtake, ← hfull]
  · exact (rtake_of_le _ (by simp; omega)).symm

theorem foldl_loadLine {maxRecords : ℕ} (hpos : 0 < maxRecords) {records : List DnsQueryRecord}
    (h : ∀ record ∈ records, OnLine json record) {start : List DnsQueryRecord}
    (hstart : start.length ≤ maxRecords) :
    (records.map json.toWriter).foldl (loadLine json maxRecords) start =
      (start ++ records.map restoredRecord).rtake maxRecords := by
  induction records generalizing start with
  | nil => simp [rtake_of_le _ hstart]
  | cons record records ih =>
    have hle : ((start ++ [restoredRecord record]).rtake maxRecords).length ≤ maxRecords := by
      rw [length_rtake]
      exact Nat.min_le_right _ _
    rw [List.map_cons, List.foldl_cons, loadLine_eq (h record List.mem_cons_self) hpos hstart,
      ih (fun r hr => h r (List.mem_cons_of_mem _ hr)) hle, rtake_append_rtake, List.map_cons,
      List.append_assoc, List.singleton_append]

/-- **What was saved is loaded**, the last records of it. -/
theorem loadDnsRecords_encode {records : List DnsQueryRecord} (h : ∀ record ∈ records, OnLine json record)
    (maxRecords : ℕ) : loadDnsRecords json maxRecords (some (encode json records)) =
      (records.map restoredRecord).rtake maxRecords := by
  unfold loadDnsRecords
  split_ifs with hzero
  · simp [hzero, List.rtake]
  · dsimp only
    rw [linesFrom_encode h, foldl_loadLine (Nat.pos_of_ne_zero hzero) h (Nat.zero_le _), List.nil_append]

/-! ### Restoring -/

theorem restoredRecord_idem (record : DnsQueryRecord) :
    restoredRecord (restoredRecord record) = restoredRecord record := by
  by_cases h : (record.responseTimeMs.isNone && record.responseCode.isNone) = true
  · have hmarked : restoredRecord record = { record with responseCode := some "NO_RESPONSE" } := if_pos h
    rw [hmarked]
    exact if_neg (by simp)
  · have hsame : restoredRecord record = record := if_neg h
    rw [hsame, hsame]

theorem recordsInOrder_restoreRecord {n : ℕ} {m : DnsMonitor} (h : Restored n m) (record : DnsQueryRecord) :
    recordsInOrder (restoreRecord m record) = recordsInOrder m ++ [restoredRecord record] := by
  have hlookup : ∀ id ∈ m.order, (restoreRecord m record).records.lookup id = m.records.lookup id := by
    intro id hid
    exact AList.lookup_insert_ne (Nat.ne_of_lt (h.fresh id hid))
  have hnew : (restoreRecord m record).records.lookup m.nextId = some ⟨0, _, restoredRecord record⟩ :=
    AList.lookup_insert _
  show (m.order ++ [m.nextId]).filterMap (fun id => ((restoreRecord m record).records.lookup id).map
    TrackedQuery.record) = _
  rw [List.filterMap_append, List.filterMap_cons, hnew]
  refine congrArg₂ _ (List.filterMap_congr fun id hid => ?_) rfl
  rw [hlookup id hid]

theorem recordsInOrder_foldl {n : ℕ} {m : DnsMonitor} (h : Restored n m) {records : List DnsQueryRecord}
    (hn : n + records.length + 1 < 2 ^ 64) :
    recordsInOrder (records.foldl restoreRecord m) = recordsInOrder m ++ records.map restoredRecord := by
  induction records generalizing n m with
  | nil => simp
  | cons record records ih =>
    rw [List.length_cons] at hn
    rw [List.foldl_cons, ih (restored_restoreRecord h (by omega) record) (by omega),
      recordsInOrder_restoreRecord h, List.append_assoc, List.map_cons, List.singleton_append]

theorem recordsInOrder_restarted (maxRecords : UInt32) {file : Option (List UInt8)}
    {records : List DnsQueryRecord}
    (h : loadDnsRecords json maxRecords.toNat file = (records.map restoredRecord).rtake maxRecords.toNat) :
    recordsInOrder (restarted json maxRecords file) =
      (records.map restoredRecord).rtake maxRecords.toNat := by
  have hmax := maxRecords.toNat_lt
  have hkept : ((records.map restoredRecord).rtake maxRecords.toNat).rtake
      (DnsMonitor.new maxRecords.toNat).maxRecords = (records.map restoredRecord).rtake maxRecords.toNat := by
    refine rtake_of_le _ ?_
    rw [length_rtake]
    exact (Nat.min_le_right _ _).trans (le_max_left _ _)
  have hlen := length_rtake (records.map restoredRecord) maxRecords.toNat
  unfold restarted restoreRecords
  rw [h, hkept, recordsInOrder_foldl (restored_new _) (by omega)]
  show [] ++ _ = _
  rw [List.nil_append, ← rtake_map, List.map_map]
  exact congrArg (fun f => (records.map f).rtake _) (funext restoredRecord_idem)

/-! ### The invariant -/

/-- **The file is whole**: the last save that came to its end, and a save writes what it has taken. -/
structure Inv (json : LineCodec) (s : System) : Prop where
  file : s.file = none ∧ s.stored = [] ∨ s.file = some (encode json s.stored)
  written : ∀ record ∈ s.stored, OnLine json record
  save : ∀ save, s.save = some save → (∀ record ∈ save.records, OnLine json record) ∧
    ∃ bytes, s.temp = some bytes ∧ bytes ++ save.todo.flatten = encode json save.records

theorem inv_step {s : System} (h : Inv json s) {a : Action} (ha : Written json s a) :
    Inv json (step json s a) := by
  cases a with
  | capture c => exact ⟨h.file, h.written, h.save⟩
  | flush sizes =>
    unfold step
    dsimp only
    split
    · exact h
    · refine ⟨h.file, h.written, fun save hsave => ?_⟩
      obtain rfl := Option.some.inj hsave
      exact ⟨ha, [], rfl, flatten_written _ _⟩
  | call =>
    unfold step
    dsimp only
    split
    · exact h
    · next records part todo hsave =>
      obtain ⟨hrecords, bytes, htemp, hbytes⟩ := h.save _ hsave
      refine ⟨h.file, h.written, fun save hsave' => ?_⟩
      obtain rfl := Option.some.inj hsave'
      refine ⟨hrecords, bytes ++ part, by rw [htemp]; rfl, ?_⟩
      rw [List.append_assoc]
      exact hbytes
    · next records hsave =>
      obtain ⟨hrecords, bytes, htemp, hbytes⟩ := h.save _ hsave
      refine ⟨Or.inr ?_, hrecords, fun save hsave' => by cases hsave'⟩
      have hwhole : bytes = encode json records := by simpa using hbytes
      rw [htemp, hwhole]
  | fail => exact ⟨h.file, h.written, fun save hsave => by cases hsave⟩
  | restart maxRecords => exact ⟨h.file, h.written, fun save hsave => by cases hsave⟩

theorem inv_run {s : System} (hs : Inv json s) {acts : List Action}
    (h : Along (step json) (Written json) s acts) : Inv json (acts.foldl (step json) s) :=
  h.invariant (fun _ _ hs ha => inv_step hs ha) hs

theorem inv_begin (maxRecords : UInt32) : Inv json (begin maxRecords) :=
  ⟨Or.inl ⟨rfl, rfl⟩, fun _ hmem => absurd hmem List.not_mem_nil, fun _ hsave => by cases hsave⟩

/-- What a start loads. -/
theorem loadDnsRecords_file {s : System} (h : Inv json s) (maxRecords : ℕ) :
    loadDnsRecords json maxRecords s.file = (s.stored.map restoredRecord).rtake maxRecords := by
  rcases h.file with ⟨hfile, hstored⟩ | hfile
  · rw [hfile, hstored]
    unfold loadDnsRecords
    split_ifs <;> simp [List.rtake]
  · rw [hfile]
    exact loadDnsRecords_encode h.written maxRecords

theorem recordsInOrder_restart {s : System} (h : Inv json s) (maxRecords : UInt32) :
    recordsInOrder (step json s (.restart maxRecords)).monitor =
      (s.stored.map restoredRecord).rtake maxRecords.toNat :=
  recordsInOrder_restarted maxRecords (loadDnsRecords_file h maxRecords.toNat)

/-! ### What is stored -/

/-- What is stored, and what a save under way writes, was the history at a flush of the run. -/
structure FromFlushes (json : LineCodec) (first : System) (acts : List Action) (s : System) : Prop where
  stored : s.stored = [] ∨ ∃ pre sizes post, acts = pre ++ .flush sizes :: post ∧
    s.stored = recordsForPersistence (pre.foldl (step json) first).monitor
  save : ∀ save, s.save = some save → ∃ pre sizes post, acts = pre ++ .flush sizes :: post ∧
    save.records = recordsForPersistence (pre.foldl (step json) first).monitor

theorem fromFlushes_run (maxRecords : UInt32) (acts : List Action) :
    FromFlushes json (begin maxRecords) acts (acts.foldl (step json) (begin maxRecords)) := by
  induction acts using List.reverseRecOn with
  | nil => exact ⟨Or.inl rfl, fun save hsave => by cases hsave⟩
  | append_singleton acts a ih =>
    rw [List.foldl_append, List.foldl_cons, List.foldl_nil]
    let s := acts.foldl (step json) (begin maxRecords)
    have hlater : ∀ records, (∃ pre sizes post, acts = pre ++ .flush sizes :: post ∧
        records = recordsForPersistence (pre.foldl (step json) (begin maxRecords)).monitor) →
        ∃ pre sizes post, acts ++ [a] = pre ++ .flush sizes :: post ∧
          records = recordsForPersistence (pre.foldl (step json) (begin maxRecords)).monitor := by
      rintro records ⟨pre, sizes, post, hacts, hrecords⟩
      exact ⟨pre, sizes, post ++ [a], by rw [hacts, List.append_assoc, List.cons_append], hrecords⟩
    have hstored := ih.stored.imp_right (hlater s.stored)
    have hsave := fun save h => hlater _ (ih.save save h)
    change FromFlushes json (begin maxRecords) (acts ++ [a]) (step json s a)
    cases a with
    | capture c => exact ⟨hstored, hsave⟩
    | flush sizes =>
      unfold step
      dsimp only
      split
      · exact ⟨hstored, hsave⟩
      · refine ⟨hstored, fun save heq => ?_⟩
        obtain rfl := Option.some.inj heq
        exact ⟨acts, sizes, [], rfl, rfl⟩
    | call =>
      unfold step
      dsimp only
      split
      · exact ⟨hstored, hsave⟩
      · next records part todo heq =>
        refine ⟨hstored, fun save heq' => ?_⟩
        obtain rfl := Option.some.inj heq'
        exact hsave ⟨records, part :: todo⟩ heq
      · next records heq => exact ⟨Or.inr (hsave ⟨records, []⟩ heq), fun save heq' => by cases heq'⟩
    | fail => exact ⟨hstored, fun save heq => by cases heq⟩
    | restart maxRecords' => exact ⟨hstored, fun save heq => by cases heq⟩

/-- Calls bring a save to its end. -/
theorem stored_calls (json : LineCodec) {s : System} {records : List DnsQueryRecord}
    {todo : List (List UInt8)}
    (h : s.save = some ⟨records, todo⟩) :
    let t := (List.replicate (todo.length + 1) Action.call).foldl (step json) s
    t.stored = records ∧ t.monitor = s.monitor := by
  induction todo generalizing s with
  | nil => simp [step, h]
  | cons part todo ih =>
    have hcall : step json s .call =
        { s with temp := s.temp.map (· ++ part), save := some ⟨records, todo⟩ } := by
      unfold step
      dsimp only
      rw [h]
    rw [List.length_cons, List.replicate_succ, List.foldl_cons, hcall]
    exact ih rfl

/-- **The history survives restarts**, in every run with kills at any point. A restart restores the last
records of what is stored, in order, those without an answer marked. What is stored was the whole history at
a flush; and from any state in which no save is under way, a flush can come to its end and stores the history
as it is. -/
theorem history_survives_restarts (json : LineCodec) (maxRecords : UInt32) {acts : List Action}
    (h : Along (step json) (Written json) (begin maxRecords) acts) :
    let s := acts.foldl (step json) (begin maxRecords)
    (∀ maxRecords', recordsInOrder (step json s (.restart maxRecords')).monitor =
      (s.stored.map restoredRecord).rtake maxRecords'.toNat) ∧
    (s.stored = [] ∨ ∃ pre sizes post, acts = pre ++ .flush sizes :: post ∧
      s.stored = recordsForPersistence (pre.foldl (step json) (begin maxRecords)).monitor) ∧
    (s.save = none → ∀ sizes, ∃ calls,
      ((.flush sizes :: List.replicate calls .call).foldl (step json) s).stored =
        recordsForPersistence s.monitor) := by
  intro s
  have hinv : Inv json s := inv_run (inv_begin maxRecords) h
  refine ⟨recordsInOrder_restart hinv, (fromFlushes_run maxRecords acts).stored, fun hidle sizes => ?_⟩
  have hflush : (step json s (.flush sizes)).save =
      some ⟨recordsForPersistence s.monitor,
        written sizes (encode json (recordsForPersistence s.monitor))⟩ := by
    unfold step
    dsimp only
    rw [hidle]
  refine ⟨(written sizes (encode json (recordsForPersistence s.monitor))).length + 1, ?_⟩
  rw [List.foldl_cons]
  exact (stored_calls json hflush).1

/-- The record of a query without an answer. -/
def sampleRecord : DnsQueryRecord :=
  queryRecord (sampleCapture true 0).message 0 (sampleCapture true 0).device

/-- A member of an object; its text needs no escapes. -/
def member (name value : String) : String := "\"" ++ name ++ "\":" ++ value
def quoted (text : String) : String := "\"" ++ text ++ "\""

def sampleLine : List UInt8 :=
  let members := [member "timestamp" "0", member "domain" (quoted "example.com"),
    member "query_type" (quoted "A"), member "response_code" "null", member "response_time_ms" "null",
    member "source_ip" (quoted "192.168.1.10"), member "destination_ip" (quoted "8.8.8.8"),
    member "source_port" "50000", member "destination_port" "53", member "transaction_id" "7",
    member "is_query" "true", member "protocol" (quoted "UDP"), member "response_ips" "[]",
    member "response_records" "[]", member "device_mac" (quoted "02:02:02:02:02:02"),
    member "device_name" (quoted "laptop"), member "iface" (quoted "br-lan")]
  ("\x7b" ++ ",".intercalate members ++ "\x7d").toUTF8.data.toList

/-- `serde_json` at the sample. -/
def sampleCodec : LineCodec where
  toWriter := fun _ => sampleLine
  fromStr := fun line => if line = sampleLine then some sampleRecord else none

/-- A query is stored, and the service is killed during the next save. -/
def sampleActs : List Action :=
  [.capture (sampleCapture true 0), .flush [40], .call, .call, .call, .flush [], .restart 100]

theorem recordsInOrder_sample :
    recordsInOrder (ingest (DnsMonitor.new 100) (sampleCapture true 0)) = [sampleRecord] := rfl

theorem onLine_sample : OnLine sampleCodec sampleRecord := by
  have hfeed : 10 ∉ sampleLine := by decide +kernel
  have hreturn : sampleLine.getLast? ≠ some 13 := by decide +kernel
  refine ⟨hfeed, hreturn, ?_⟩
  simp only [sampleCodec, if_true]

theorem history_survives_restarts_sample :
    recordsInOrder
      (step sampleCodec (sampleActs.foldl (step sampleCodec) (begin 100)) (.restart 100)).monitor =
      [{ sampleRecord with responseCode := some "NO_RESPONSE" }] := by
  have hwritten : ∀ record ∈ recordsInOrder (ingest (DnsMonitor.new 100) (sampleCapture true 0)),
      OnLine sampleCodec record := by
    intro record hrecord
    rw [recordsInOrder_sample] at hrecord
    rw [List.mem_singleton.mp hrecord]
    exact onLine_sample
  have halong : Along (step sampleCodec) (Written sampleCodec) (begin 100) sampleActs :=
    ⟨trivial, hwritten, trivial, trivial, trivial, hwritten, trivial, trivial⟩
  exact ((history_survives_restarts sampleCodec 100 halong).1 100).trans rfl

end BandixPlus.Dns.Storage
