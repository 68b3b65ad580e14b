import BandixPlus.Dns.Stats
import BandixPlus.Lib.Pages
import BandixPlus.Net.Text

/-! # Pages of DNS queries

`dns.rs`, `DnsMonitor::queries`: the records that pass seven filters, the newest first, and one page of
them.

* `passes_iff`: what the filters ask for.
* `pages_partition`: in every state of every run the pages are the matching records, each once. -/

namespace BandixPlus.Dns.Queries

open BandixPlus.Common BandixPlus.Dns.Invariant BandixPlus.Dns.Monitor BandixPlus.Dns.Stats
open BandixPlus.Dns.Wrapping BandixPlus.Lib.Checked BandixPlus.Lib.Maps BandixPlus.Lib.Pages
open BandixPlus.Net.Text (trim splitOnce eqIgnoreAsciiCase toLower_toUpper toLower_toLower)

/-! ### Filters -/

/-- `str::contains`. -/
def contains (s needle : String) : Bool := needle.toList <:+: s.toList

def isBlockedAnswer (value : String) : Bool :=
  let answer := trim value
  if answer = "0.0.0.0" ∨ answer = "::" then true
  else
    match splitOnce answer ':' with
    | none => false
    | some (kind, data) =>
      (eqIgnoreAsciiCase kind "A" && trim data = "0.0.0.0")
        || (eqIgnoreAsciiCase kind "AAAA" && trim data = "::")

def resultMatches (record : DnsQueryRecord) (needle : String) : Bool :=
  if needle = "blocked" then
    record.responseIps.any isBlockedAnswer || record.responseRecords.any isBlockedAnswer
  else
    record.responseCode.any (fun code => contains (toAsciiLowercase code) needle)
      || record.responseIps.any (fun answer => contains (toAsciiLowercase answer) needle)
      || record.responseRecords.any (fun answer => contains (toAsciiLowercase answer) needle)

structure DnsQueriesQuery where
  domain : Option String
  device : Option String
  dnsServer : Option String
  queryType : Option String
  result : Option String
  iface : Option String
  protocol : Option String
  page : Option ℕ
  pageSize : Option ℕ

structure DnsQueriesResponse where
  queries : List DnsQueryRecord
  total : ℕ
  page : ℕ
  pageSize : ℕ
  totalPages : ℕ
  stats : DnsStats

/-- The filters of `queries`, with the needles in their case. -/
def passes (query : DnsQueriesQuery) (record : DnsQueryRecord) : Bool :=
  let domain := query.domain.map toAsciiLowercase
  let device := query.device.map toAsciiLowercase
  let dnsServer := query.dnsServer.map toAsciiLowercase
  let queryType := query.queryType.map toAsciiUppercase
  let result := ((query.result.map trim).filter (· ≠ "")).map toAsciiLowercase
  let iface := query.iface.map toAsciiLowercase
  let protocol := query.protocol.map toAsciiUppercase
  if domain.any fun needle => !contains (toAsciiLowercase record.domain) needle then false
  else if device.any fun needle =>
      !contains (toAsciiLowercase record.deviceMac) needle
        && !contains (toAsciiLowercase record.deviceName) needle
        && !contains (toAsciiLowercase record.sourceIp) needle then false
  else if dnsServer.any fun needle =>
      !contains (toAsciiLowercase record.destinationIp) needle then false
  else if queryType.any fun wanted => !eqIgnoreAsciiCase record.queryType wanted then false
  else if result.any fun needle => !resultMatches record needle then false
  else if iface.any fun wanted => !eqIgnoreAsciiCase record.iface wanted then false
  else if protocol.any fun wanted => !eqIgnoreAsciiCase record.protocol wanted then false
  else true

/-- `clamp(1, 100)` of the size asked for. -/
def effectiveSize (query : DnsQueriesQuery) : ℕ := min (max (query.pageSize.getD 20) 1) 100

/-- The record under an id. -/
def recordAt (m : DnsMonitor) (id : ℕ) : Option DnsQueryRecord :=
  (m.records.lookup id).map TrackedQuery.record

/-- The records that pass the filters, the last one in the order first. -/
def filtered (m : DnsMonitor) (query : DnsQueriesQuery) : List DnsQueryRecord :=
  (m.order.reverse.filterMap (recordAt m)).filter (passes query)

/-- `DnsMonitor::queries`. -/
def queries (o : IterOrder) (m : DnsMonitor) (query : DnsQueriesQuery) (nowMs : ℕ) :
    Outcome DnsQueriesResponse := do
  let page := max (query.page.getD 1) 1
  let pageSize := effectiveSize query
  let filtered := filtered m query
  let total := filtered.length
  let totalPages := divCeil total pageSize
  let start := min ((page - 1) * pageSize) u64Max
  let queries := (filtered.drop start).take pageSize
  let stats ← stats o m nowMs
  .value { queries, total, page, pageSize, totalPages, stats }

/-! ### What the filters ask for -/

/-- The text has the needle in it, whatever the case. -/
def ContainsIgnoringCase (s needle : String) : Prop :=
  (toAsciiLowercase needle).toList <:+: (toAsciiLowercase s).toList

/-- **The record satisfies every given filter.** -/
structure Satisfies (query : DnsQueriesQuery) (record : DnsQueryRecord) : Prop where
  domain : ∀ needle, query.domain = some needle → ContainsIgnoringCase record.domain needle
  device : ∀ needle, query.device = some needle →
    ContainsIgnoringCase record.deviceMac needle ∨ ContainsIgnoringCase record.deviceName needle ∨
      ContainsIgnoringCase record.sourceIp needle
  dnsServer : ∀ needle, query.dnsServer = some needle →
    ContainsIgnoringCase record.destinationIp needle
  queryType : ∀ wanted, query.queryType = some wanted →
    toAsciiLowercase record.queryType = toAsciiLowercase wanted
  /-- The needle `blocked` asks for a blocked answer, a blank one for nothing. -/
  result : ∀ needle, query.result = some needle → trim needle ≠ "" →
    if toAsciiLowercase (trim needle) = "blocked" then
      ∃ answer ∈ record.responseIps ++ record.responseRecords, isBlockedAnswer answer = true
    else
      ∃ text ∈ record.responseCode.toList ++ record.responseIps ++ record.responseRecords,
        ContainsIgnoringCase text (trim needle)
  iface : ∀ wanted, query.iface = some wanted →
    toAsciiLowercase record.iface = toAsciiLowercase wanted
  protocol : ∀ wanted, query.protocol = some wanted →
    toAsciiLowercase record.protocol = toAsciiLowercase wanted

theorem contains_iff {s needle : String} :
    contains (toAsciiLowercase s) (toAsciiLowercase needle) = true ↔ ContainsIgnoringCase s needle :=
  decide_eq_true_iff

theorem eqIgnoreAsciiCase_iff {s t : String} :
    eqIgnoreAsciiCase s t = true ↔ toAsciiLowercase s = toAsciiLowercase t := by
  unfold eqIgnoreAsciiCase toAsciiLowercase Net.Text.toAsciiLowercase
  rw [decide_eq_true_iff, String.ofList_inj, ← String.toList_inj, String.toList_map, String.toList_map]

/-- A wanted text may be in either case. -/
theorem toAsciiLowercase_toAsciiUppercase (s : String) :
    toAsciiLowercase (toAsciiUppercase s) = toAsciiLowercase s := by
  unfold toAsciiLowercase toAsciiUppercase
  rw [← String.toList_inj, String.toList_map, String.toList_map, List.map_map, String.toList_map]
  exact List.map_congr_left fun c _ => toLower_toUpper c

theorem toAsciiLowercase_toAsciiLowercase (s : String) :
    toAsciiLowercase (toAsciiLowercase s) = toAsciiLowercase s := by
  unfold toAsciiLowercase
  rw [← String.toList_inj, String.toList_map, String.toList_map, List.map_map]
  exact List.map_congr_left fun c _ => toLower_toLower c

theorem resultMatches_iff {record : DnsQueryRecord} {needle : String} :
    resultMatches record (toAsciiLowercase needle) = true ↔
      if toAsciiLowercase needle = "blocked" then
        ∃ answer ∈ record.responseIps ++ record.responseRecords, isBlockedAnswer answer = true
      else
        ∃ text ∈ record.responseCode.toList ++ record.responseIps ++ record.responseRecords,
          ContainsIgnoringCase text needle := by
  unfold resultMatches
  split_ifs
  · simp [or_and_right, exists_or]
  · simp [contains_iff, Option.any_eq_true, or_and_right, exists_or, or_assoc]

/-- A filter that is not given rejects nothing. -/
theorem any_not_eq_false {o : Option String} {p : String → Bool} :
    (o.any fun needle => !p needle) = false ↔ ∀ needle, o = some needle → p needle = true := by
  cases o <;> simp

/-- **What the filters ask for.** -/
theorem passes_iff {query : DnsQueriesQuery} {record : DnsQueryRecord} :
    passes query record = true ↔ Satisfies query record := by
  unfold passes
  simp only [Option.any_map, Bool.if_false_left, Bool.and_eq_true, ← Bool.not_or, Bool.decide_eq_true,
    Bool.not_eq_true', any_not_eq_false, contains_iff, eqIgnoreAsciiCase_iff, resultMatches_iff,
    toAsciiLowercase_toAsciiUppercase, toAsciiLowercase_toAsciiLowercase, Bool.or_eq_true, or_assoc,
    and_true]
  have hresult : ∀ P : String → Prop,
      (∀ needle, (query.result.map trim).filter (fun needle => decide (needle ≠ "")) = some needle →
        P needle) ↔ ∀ needle, query.result = some needle → trim needle ≠ "" → P (trim needle) := by
    intro P
    cases query.result <;> simp [Option.filter_eq_some_iff]
  rw [hresult]
  constructor
  · rintro ⟨hdomain, hdevice, hserver, htype, hneedle, hiface, hprotocol⟩
    exact ⟨hdomain, hdevice, hserver, htype, hneedle, hiface, hprotocol⟩
  · rintro ⟨hdomain, hdevice, hserver, htype, hneedle, hiface, hprotocol⟩
    exact ⟨hdomain, hdevice, hserver, htype, hneedle, hiface, hprotocol⟩

/-! ### The matching records -/

/-- **The records that satisfy the filters, each once, the newest first**: they are under some of the last
ids that were handed out, and all others fail a filter. -/
structure Matching (m : DnsMonitor) (query : DnsQueriesQuery) (ids : List ℕ)
    (records : List DnsQueryRecord) : Prop where
  once : ids.Nodup
  newest : ∃ j, len m.records ≤ j ∧ m.nextId = idAt j ∧
    ids.Sublist (window j (len m.records)).reverse
  read : ids.map (recordAt m) = records.map some
  complete : ∀ id t, m.records.lookup id = some t → (id ∈ ids ↔ Satisfies query t.record)

section Matching

variable {m : DnsMonitor} {limit : ℕ}

theorem map_filter_any {α β : Type} (f : α → Option β) (p : β → Bool) (l : List α) :
    (l.filter fun a => (f a).any p).map f = ((l.filterMap f).filter p).map some := by
  induction l with
  | nil => rfl
  | cons a l ih =>
    cases hf : f a with
    | none => simpa [hf] using ih
    | some b => cases hp : p b <;> simpa [hf, hp] using ih

theorem matching_filtered (h : Circular limit m) (hlimit : limit < 2 ^ 64) (query : DnsQueriesQuery) :
    Matching m query (m.order.reverse.filter fun id => (recordAt m id).any (passes query))
      (filtered m query) where
  once := (List.nodup_reverse.mpr (h.nodup hlimit)).filter _
  newest := by
    have hlen := h.len_records hlimit
    obtain ⟨j, n, hj, -, hid, horder⟩ := h.ids
    rw [horder, length_window] at hlen
    rw [horder, hlen]
    exact ⟨j, hj, hid, List.filter_sublist⟩
  read := map_filter_any _ _ _
  complete id t ht := by
    have hmem : id ∈ m.order := (h.keys id).mpr (mem_iff_lookup.mpr ⟨t, ht⟩)
    have hrecord : recordAt m id = some t.record := by
      unfold recordAt
      rw [ht]
      rfl
    simp [hmem, hrecord, passes_iff]

theorem length_filtered_le (h : Circular limit m) (query : DnsQueriesQuery) :
    (filtered m query).length ≤ limit := by
  have hfilter : (filtered m query).length ≤ (m.order.reverse.filterMap (recordAt m)).length :=
    List.length_filter_le _ _
  rw [List.filterMap_reverse, List.length_reverse] at hfilter
  exact hfilter.trans (length_recordsInOrder_le h)

end Matching

/-! ### The pages -/

theorem effectiveSize_pos (query : DnsQueriesQuery) : 0 < effectiveSize query := by
  unfold effectiveSize
  omega

/-- **What is returned** is a page of the matching records, also where the offset saturates. -/
theorem queries_eq {o : IterOrder} {m : DnsMonitor} {nowMs : ℕ} {figures : DnsStats}
    (hstats : stats o m nowMs = .value figures) (query : DnsQueriesQuery)
    (hlen : (filtered m query).length ≤ u64Max) :
    queries o m query nowMs = .value
      { queries := page (effectiveSize query) (max (query.page.getD 1) 1 - 1) (filtered m query)
        total := (filtered m query).length
        page := max (query.page.getD 1) 1
        pageSize := effectiveSize query
        totalPages := divCeil (filtered m query).length (effectiveSize query)
        stats := figures } := by
  have hdrop : ∀ start, (filtered m query).drop (min start u64Max) = (filtered m query).drop start := by
    intro start
    rcases Nat.le_total start u64Max with hle | hle
    · rw [Nat.min_eq_left hle]
    · rw [Nat.min_eq_right hle, List.drop_eq_nil_of_le hlen, List.drop_eq_nil_of_le (by omega)]
  unfold queries
  dsimp only
  rw [hstats, Outcome.value_bind, hdrop]
  rfl

/-- **The pages of the DNS queries are a partition of the matching records**, in every state of every run:
one after the other they are these records, all but the last are full, and those beyond are empty. -/
theorem pages_partition (o : IterOrder) (maxRecords : UInt32) (restored : List DnsQueryRecord)
    (cs : List Capture) (query : DnsQueriesQuery) (nowMs : ℕ) :
    let m := cs.foldl ingest (start maxRecords.toNat restored)
    ∃ ids records, Matching m query ids records ∧
      ∃ response : ℕ → DnsQueriesResponse,
        (∀ p, queries o m { query with page := some p } nowMs = .value (response p)) ∧
        (List.range' 1 (response 1).totalPages).flatMap (fun p => (response p).queries) = records ∧
        ∀ p, (response p).total = records.length ∧ (response p).pageSize = effectiveSize query ∧
          (response p).totalPages = divCeil records.length (effectiveSize query) ∧
          (1 ≤ p → p < (response p).totalPages →
            (response p).queries.length = effectiveSize query) ∧
          ((response p).totalPages < p → (response p).queries = []) := by
  intro m
  have hmax := maxRecords.toNat_lt
  have hcircular : Circular (max maxRecords.toNat 1) m :=
    circular_run maxRecords.toNat (by omega) restored cs
  have hlen := length_filtered_le hcircular query
  have horder : (recordsInOrder m).length ≤ u64Max := by
    have hle := length_recordsInOrder_le hcircular
    show _ ≤ 2 ^ 64 - 1
    omega
  obtain ⟨figures, hstats, -⟩ := statsOf_consistent o nowMs horder
  have hpos := effectiveSize_pos query
  refine ⟨_, _, matching_filtered hcircular (by omega) query, _, fun p =>
    queries_eq hstats { query with page := some p }
      (show (filtered m query).length ≤ 2 ^ 64 - 1 by omega), ?_, fun p => ⟨rfl, rfl, rfl, ?_, ?_⟩⟩
  · show (List.range' 1 (divCeil (filtered m query).length (effectiveSize query))).flatMap (fun p =>
      page (effectiveSize query) (max p 1 - 1) (filtered m query)) = filtered m query
    have hsame : ∀ k, page (effectiveSize query) (max (1 + k) 1 - 1) (filtered m query) =
        page (effectiveSize query) k (filtered m query) := by
      intro k
      rw [show max (1 + k) 1 - 1 = k by omega]
    rw [List.range'_eq_map_range, List.flatMap_map]
    simp only [hsame]
    exact flatMap_page hpos _
  · intro hp hlt
    have hnext : max p 1 - 1 + 1 < divCeil (filtered m query).length (effectiveSize query) := by
      rw [show max p 1 - 1 + 1 = p by omega]
      exact hlt
    exact length_page hnext
  · intro hlt
    have hbeyond : divCeil (filtered m query).length (effectiveSize query) ≤ max p 1 - 1 := by
      have hlt : divCeil (filtered m query).length (effectiveSize query) < p := hlt
      omega
    exact page_eq_nil hpos hbeyond

end BandixPlus.Dns.Queries
