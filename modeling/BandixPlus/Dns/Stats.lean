import BandixPlus.Dns.Wrapping
import BandixPlus.Lib.Checked
import BandixPlus.Lib.Tally
import Mathlib.Data.String.Basic

/-! # Statistics of the DNS records

`dns.rs`, `DnsMonitor::stats`: one pass over the records that counts names, response codes and
unanswered queries, then the percentiles of the response times and the most frequent names. The three
figures in floating point are left out.

* `topOf_sortedTopItems`: what a list of most frequent names has.
* `percentiles_ok`: a percentile is always in range, and higher percentiles are not lower.
* `stats_consistent`: in every state of every run the figures agree with the records and with each
  other. -/

namespace BandixPlus.Dns.Stats

open BandixPlus.Dns.Invariant BandixPlus.Dns.Monitor BandixPlus.Dns.Wrapping BandixPlus.Lib.Checked
open BandixPlus.Lib.Maps BandixPlus.Lib.Tally

def unansweredAfterMs : ℕ := 5000

structure DnsTopItem where
  name : String
  count : ℕ
  deriving DecidableEq

structure DnsResponseTimePercentiles where
  p50 : ℕ
  p90 : ℕ
  p95 : ℕ
  p99 : ℕ

structure DnsStats where
  totalQueries : ℕ
  totalResponses : ℕ
  queriesWithResponse : ℕ
  queriesWithoutResponse : ℕ
  successCount : ℕ
  failureCount : ℕ
  minResponseTimeMs : ℕ
  maxResponseTimeMs : ℕ
  latestResponseTimeMs : Option ℕ
  responseTimePercentiles : DnsResponseTimePercentiles
  responseCodes : List DnsTopItem
  topDomains : List DnsTopItem
  topQueryTypes : List DnsTopItem
  topDevices : List DnsTopItem
  topDnsServers : List DnsTopItem
  uniqueDevices : ℕ
  timeRangeStart : ℕ
  timeRangeEnd : ℕ
  timeRangeDurationMinutes : ℕ

/-! ### The pass over the records -/

/-- The response code, unless it stands for none. -/
def realCode (record : DnsQueryRecord) : Option String :=
  record.responseCode.filter fun code => code ≠ "NO_RESPONSE"

/-- `timestamp.saturating_add(UNANSWERED_AFTER_MS) <= now_ms`. -/
def overdue (nowMs : ℕ) (record : DnsQueryRecord) : Bool :=
  min (record.timestamp + unansweredAfterMs) u64Max ≤ nowMs

def deviceIdentity (record : DnsQueryRecord) : String :=
  if record.deviceMac = "" then
    if record.deviceName = "" then record.sourceIp else record.deviceName
  else record.deviceMac

def deviceLabel (record : DnsQueryRecord) : String :=
  if record.deviceName = "" then deviceIdentity record else record.deviceName

structure Counts where
  responseTimes : List ℕ
  responseCodes : HashMap String ℕ
  domains : HashMap String ℕ
  queryTypes : HashMap String ℕ
  devices : HashMap String ℕ
  dnsServers : HashMap String ℕ
  uniqueDevices : HashMap String Unit
  timeRangeStart : ℕ
  timeRangeEnd : ℕ
  latestResponseTimeMs : Option ℕ
  queriesWithoutResponse : ℕ

def Counts.new : Counts where
  responseTimes := []
  responseCodes := ∅
  domains := ∅
  queryTypes := ∅
  devices := ∅
  dnsServers := ∅
  uniqueDevices := ∅
  timeRangeStart := u64Max
  timeRangeEnd := 0
  latestResponseTimeMs := none
  queriesWithoutResponse := 0

def countRecord (nowMs : ℕ) (c : Counts) (record : DnsQueryRecord) : Counts where
  responseTimes :=
    match record.responseTimeMs with
    | some time => c.responseTimes ++ [time]
    | none => c.responseTimes
  responseCodes :=
    match realCode record with
    | some code => upsert code 0 (· + 1) c.responseCodes
    | none => c.responseCodes
  domains := upsert record.domain 0 (· + 1) c.domains
  queryTypes := upsert record.queryType 0 (· + 1) c.queryTypes
  devices := upsert (deviceLabel record) 0 (· + 1) c.devices
  dnsServers := upsert record.destinationIp 0 (· + 1) c.dnsServers
  uniqueDevices := c.uniqueDevices.insert (deviceIdentity record) ()
  timeRangeStart := min c.timeRangeStart record.timestamp
  timeRangeEnd := max c.timeRangeEnd record.timestamp
  latestResponseTimeMs :=
    match record.responseTimeMs with
    | some time => some time
    | none => c.latestResponseTimeMs
  queriesWithoutResponse :=
    match realCode record with
    | some _ => c.queriesWithoutResponse
    | none => if overdue nowMs record then c.queriesWithoutResponse + 1 else c.queriesWithoutResponse

/-! ### The figures -/

/-- By count, highest first, then by name. -/
def topLe (a b : DnsTopItem) : Bool := b.count < a.count || (a.count = b.count && a.name ≤ b.name)

def sortedTopItems (o : IterOrder) (values : HashMap String ℕ) (limit : ℕ) : List DnsTopItem :=
  (((o.order values.entries).map fun e => DnsTopItem.mk e.1 e.2).mergeSort topLe).take limit

/-- An index out of range would be a panic. -/
def percentile (sortedValues : List ℕ) (percentile : ℕ) : Outcome ℕ :=
  if sortedValues = [] then .value 0
  else
    match sortedValues[min ((sortedValues.length - 1) * percentile) u64Max / 100]? with
    | some v => .value v
    | none => .panicked

/-- The records in their order. -/
def recordsInOrder (m : DnsMonitor) : List DnsQueryRecord :=
  m.order.filterMap fun id => (m.records.lookup id).map TrackedQuery.record

def statsOf (o : IterOrder) (nowMs : ℕ) (records : List DnsQueryRecord) : Outcome DnsStats := do
  let c := records.foldl (countRecord nowMs) .new
  let responseTimes := c.responseTimes.mergeSort (· ≤ ·)
  let totalResponses := sumOver (fun _ n => n) c.responseCodes
  let successCount := (c.responseCodes.lookup "NOERROR").getD 0
  let p50 ← percentile responseTimes 50
  let p90 ← percentile responseTimes 90
  let p95 ← percentile responseTimes 95
  let p99 ← percentile responseTimes 99
  let timeRange := if records = [] then (0, 0) else (c.timeRangeStart, c.timeRangeEnd)
  .value
    { totalQueries := records.length
      totalResponses
      queriesWithResponse := totalResponses
      queriesWithoutResponse := c.queriesWithoutResponse
      successCount
      failureCount := totalResponses - successCount
      minResponseTimeMs := responseTimes.head?.getD 0
      maxResponseTimeMs := responseTimes.getLast?.getD 0
      latestResponseTimeMs := c.latestResponseTimeMs
      responseTimePercentiles := { p50, p90, p95, p99 }
      responseCodes := sortedTopItems o c.responseCodes u64Max
      topDomains := sortedTopItems o c.domains 10
      topQueryTypes := sortedTopItems o c.queryTypes 10
      topDevices := sortedTopItems o c.devices 10
      topDnsServers := sortedTopItems o c.dnsServers 10
      uniqueDevices := len c.uniqueDevices
      timeRangeStart := timeRange.1
      timeRangeEnd := timeRange.2
      timeRangeDurationMinutes := (timeRange.2 - timeRange.1) / 60000 }

/-- `DnsMonitor::stats`. -/
def stats (o : IterOrder) (m : DnsMonitor) (nowMs : ℕ) : Outcome DnsStats :=
  statsOf o nowMs (recordsInOrder m)

/-! ### What the figures have to say -/

def occurrences (key : DnsQueryRecord → Option String) (name : String) (records : List DnsQueryRecord) :
    ℕ :=
  (ofKey key name records).length

/-- **The most frequent names**: at most `limit`, distinct, ordered, counted right, and none left out
that is more frequent. -/
structure TopOf (limit : ℕ) (key : DnsQueryRecord → Option String) (records : List DnsQueryRecord)
    (items : List DnsTopItem) : Prop where
  bounded : items.length ≤ limit
  distinct : (items.map DnsTopItem.name).Nodup
  sorted : items.Pairwise fun a b => b.count < a.count ∨ a.count = b.count ∧ a.name < b.name
  counted : ∀ item ∈ items, 0 < item.count ∧ item.count = occurrences key item.name records
  omitted : ∀ name ∉ items.map DnsTopItem.name, ∀ item ∈ items,
    occurrences key name records ≤ item.count
  complete : items.length < limit →
    ∀ name ∉ items.map DnsTopItem.name, occurrences key name records = 0

/-- A response time, or 0 if there is none. -/
def IsTime (times : List ℕ) (t : ℕ) : Prop := if times = [] then t = 0 else t ∈ times

/-- The percentiles are ordered, and are response times, if there are any. -/
structure TimesOk (times : List ℕ) (s : DnsStats) : Prop where
  ordered : s.minResponseTimeMs ≤ s.responseTimePercentiles.p50 ∧
    s.responseTimePercentiles.p50 ≤ s.responseTimePercentiles.p90 ∧
    s.responseTimePercentiles.p90 ≤ s.responseTimePercentiles.p95 ∧
    s.responseTimePercentiles.p95 ≤ s.responseTimePercentiles.p99 ∧
    s.responseTimePercentiles.p99 ≤ s.maxResponseTimeMs
  members : ∀ t ∈ [s.minResponseTimeMs, s.responseTimePercentiles.p50, s.responseTimePercentiles.p90,
      s.responseTimePercentiles.p95, s.responseTimePercentiles.p99, s.maxResponseTimeMs],
    IsTime times t

/-- No answer, and less than five seconds old. -/
def waiting (nowMs : ℕ) (record : DnsQueryRecord) : Bool :=
  (realCode record).isNone && !overdue nowMs record

/-- **The figures agree with the records and with each other.** -/
structure Consistent (records : List DnsQueryRecord) (nowMs : ℕ) (s : DnsStats) : Prop where
  total : s.totalQueries = records.length
  outcomes : s.totalResponses = s.successCount + s.failureCount
  codes : s.totalResponses = (s.responseCodes.map DnsTopItem.count).sum
  parts : s.totalResponses + s.queriesWithoutResponse + records.countP (waiting nowMs) = s.totalQueries
  times : TimesOk (records.filterMap DnsQueryRecord.responseTimeMs) s
  responseCodes : TopOf u64Max realCode records s.responseCodes
  topDomains : TopOf 10 (fun r => some r.domain) records s.topDomains
  topQueryTypes : TopOf 10 (fun r => some r.queryType) records s.topQueryTypes
  topDevices : TopOf 10 (fun r => some (deviceLabel r)) records s.topDevices
  topDnsServers : TopOf 10 (fun r => some r.destinationIp) records s.topDnsServers

/-! ### Most frequent names -/

theorem topLe_iff {a b : DnsTopItem} :
    topLe a b = true ↔ b.count < a.count ∨ a.count = b.count ∧ a.name ≤ b.name := by
  simp [topLe]

theorem topLe_trans (a b c : DnsTopItem) (hab : topLe a b = true) (hbc : topLe b c = true) :
    topLe a c = true := by
  rw [topLe_iff] at hab hbc ⊢
  rcases hab with hab | ⟨hab, hname⟩
  · omega
  · rcases hbc with hbc | ⟨hbc, hname'⟩
    · omega
    · exact Or.inr ⟨hab.trans hbc, hname.trans hname'⟩

theorem topLe_total (a b : DnsTopItem) : (topLe a b || topLe b a) = true := by
  rw [Bool.or_eq_true, topLe_iff, topLe_iff]
  rcases Nat.lt_trichotomy a.count b.count with h | h | h
  · exact Or.inr (Or.inl h)
  · rcases le_total a.name b.name with hname | hname
    · exact Or.inl (Or.inr ⟨h, hname⟩)
    · exact Or.inr (Or.inr ⟨h.symm, hname⟩)
  · exact Or.inl (Or.inl h)

section
variable {key : DnsQueryRecord → Option String} {records : List DnsQueryRecord}

/-- All names with their counts, in the order of the answer. -/
def rankedItems (o : IterOrder) (values : HashMap String ℕ) : List DnsTopItem :=
  ((o.order values.entries).map fun e => DnsTopItem.mk e.1 e.2).mergeSort topLe

theorem mem_rankedItems {o : IterOrder} {values : HashMap String ℕ} {item : DnsTopItem} :
    item ∈ rankedItems o values ↔ values.lookup item.name = some item.count := by
  unfold rankedItems
  rw [List.mem_mergeSort, List.mem_map]
  constructor
  · rintro ⟨e, he, rfl⟩
    exact mem_order_iff.mp he
  · intro h
    exact ⟨⟨item.name, item.count⟩, mem_order_iff.mpr h, rfl⟩

theorem nodup_rankedItems (o : IterOrder) (values : HashMap String ℕ) :
    ((rankedItems o values).map DnsTopItem.name).Nodup := by
  refine ((List.mergeSort_perm _ _).map _).nodup_iff.mpr ?_
  rw [List.map_map]
  exact nodup_order_keys o values

theorem pairwise_rankedItems (o : IterOrder) (values : HashMap String ℕ) :
    (rankedItems o values).Pairwise fun a b =>
      b.count < a.count ∨ a.count = b.count ∧ a.name < b.name := by
  have hsorted : (rankedItems o values).Pairwise fun a b => topLe a b = true :=
    List.pairwise_mergeSort topLe_trans topLe_total _
  have hnames := List.pairwise_map.mp (nodup_rankedItems o values)
  refine (hsorted.and hnames).imp fun {a b} ⟨hle, hne⟩ => ?_
  rw [topLe_iff] at hle
  exact hle.imp_right fun ⟨hcount, hname⟩ => ⟨hcount, lt_of_le_of_ne hname hne⟩

/-- **The most frequent names of the records.** -/
theorem topOf_sortedTopItems (o : IterOrder) (key : DnsQueryRecord → Option String)
    (records : List DnsQueryRecord) (limit : ℕ) :
    TopOf limit key records (sortedTopItems o (countKeys key records) limit) := by
  have hsplit := List.take_append_drop limit (rankedItems o (countKeys key records))
  have hpairwise := pairwise_rankedItems o (countKeys key records)
  rw [← hsplit, List.pairwise_append] at hpairwise
  have hsub : (sortedTopItems o (countKeys key records) limit).Sublist
      (rankedItems o (countKeys key records)) := List.take_sublist _ _
  have hoccurs : ∀ name ∉ (sortedTopItems o (countKeys key records) limit).map DnsTopItem.name,
      0 < occurrences key name records →
        ⟨name, occurrences key name records⟩ ∈ (rankedItems o (countKeys key records)).drop limit := by
    intro name hname hpos
    have hmem : ⟨name, occurrences key name records⟩ ∈ rankedItems o (countKeys key records) :=
      mem_rankedItems.mpr (lookup_countKeys.mpr ⟨hpos, rfl⟩)
    rw [← hsplit, List.mem_append] at hmem
    exact hmem.resolve_left fun hin => hname (List.mem_map_of_mem hin)
  refine ⟨List.length_take_le _ _, (nodup_rankedItems o _).sublist (hsub.map _), hpairwise.1,
    fun item hitem => lookup_countKeys.mp (mem_rankedItems.mp (hsub.subset hitem)),
    fun name hname item hitem => ?_, fun hlen name hname => ?_⟩
  · rcases Nat.eq_zero_or_pos (occurrences key name records) with hzero | hpos
    · omega
    · have hafter := hpairwise.2.2 item hitem _ (hoccurs name hname hpos)
      dsimp only at hafter
      omega
  · -- with room left the list is not cut
    by_contra hne
    have hin := hoccurs name hname (Nat.pos_of_ne_zero hne)
    have hshort : (sortedTopItems o (countKeys key records) limit).length =
        min limit (rankedItems o (countKeys key records)).length := List.length_take
    rw [List.drop_eq_nil_of_le (by omega)] at hin
    cases hin

/-- The counts of all names together, where the list is not cut. -/
theorem sum_sortedTopItems {o : IterOrder} {limit : ℕ} (h : records.length ≤ limit) :
    ((sortedTopItems o (countKeys key records) limit).map DnsTopItem.count).sum =
      records.countP fun r => (key r).isSome := by
  have hsum : ((rankedItems o (countKeys key records)).map DnsTopItem.count).sum =
      sumOver (fun _ n => n) (countKeys key records) := by
    unfold rankedItems
    rw [((List.mergeSort_perm _ _).map _).sum_eq, List.map_map]
    exact sum_order o (fun e => e.2) _
  have hlen : (rankedItems o (countKeys key records)).length ≤
      ((rankedItems o (countKeys key records)).map DnsTopItem.count).sum := by
    have hpos : ∀ n ∈ (rankedItems o (countKeys key records)).map DnsTopItem.count, 1 ≤ n := by
      rintro n hn
      obtain ⟨item, hitem, rfl⟩ := List.mem_map.mp hn
      exact (lookup_countKeys.mp (mem_rankedItems.mp hitem)).1
    have hle := List.length_le_sum_of_one_le _ hpos
    rwa [List.length_map] at hle
  rw [sum_countKeys] at hsum
  have hle := @List.countP_le_length _ (fun r => (key r).isSome) records
  show (((rankedItems o _).take limit).map _).sum = _
  rw [List.take_of_length_le (by omega), hsum]

end

/-! ### Percentiles -/

section
variable {times : List ℕ}

theorem sorted_mergeSort (times : List ℕ) : (times.mergeSort (· ≤ ·)).Pairwise (· ≤ ·) := by
  have hsorted := @List.pairwise_mergeSort ℕ (· ≤ ·)
    (fun a b c hab hbc => decide_eq_true (Nat.le_trans (of_decide_eq_true hab) (of_decide_eq_true hbc)))
    (fun a b => by simpa using Nat.le_total a b) times
  simpa using hsorted

theorem isTime_congr {times times' : List ℕ} (h : ∀ t, t ∈ times ↔ t ∈ times') {t : ℕ} :
    IsTime times t ↔ IsTime times' t := by
  have hnil : times = [] ↔ times' = [] := by
    rw [List.eq_nil_iff_forall_not_mem, List.eq_nil_iff_forall_not_mem]
    exact forall_congr' fun t => not_congr (h t)
  unfold IsTime
  simp only [hnil, h]

theorem isTime_head (times : List ℕ) : IsTime times (times.head?.getD 0) := by
  cases times <;> simp [IsTime]

theorem isTime_getLast (times : List ℕ) : IsTime times (times.getLast?.getD 0) := by
  unfold IsTime
  split_ifs with hnil
  · rw [hnil]
    rfl
  · rw [List.getLast?_eq_some_getLast hnil]
    exact List.getLast_mem hnil

/-- **A percentile is in range.** -/
theorem percentile_eq (h : times ≠ []) {p : ℕ} (hp : p ≤ 100) :
    ∃ i, ∃ hi : i < times.length, percentile times p = .value times[i] ∧
      i = min ((times.length - 1) * p) u64Max / 100 := by
  have hpos := List.length_pos_iff.mpr h
  have hle : (times.length - 1) * p ≤ (times.length - 1) * 100 := Nat.mul_le_mul_left _ hp
  have hi : min ((times.length - 1) * p) u64Max / 100 < times.length := by omega
  refine ⟨_, hi, ?_, rfl⟩
  unfold percentile
  rw [if_neg h, List.getElem?_eq_getElem hi]

theorem getElem_mono (h : times.Pairwise (· ≤ ·)) {i j : ℕ} (hi : i < times.length)
    (hj : j < times.length) (hij : i ≤ j) : times[i] ≤ times[j] := by
  rcases Nat.eq_or_lt_of_le hij with rfl | hlt
  · exact le_refl _
  · exact List.pairwise_iff_getElem.mp h i j hi hj hlt

theorem percentile_mono (h : times.Pairwise (· ≤ ·)) {p q v w : ℕ} (hpq : p ≤ q) (hq : q ≤ 100)
    (hv : percentile times p = .value v) (hw : percentile times q = .value w) : v ≤ w := by
  by_cases hnil : times = []
  · simp only [percentile, hnil, if_true, Outcome.value.injEq] at hv hw
    omega
  · obtain ⟨i, hi, hpi, heqi⟩ := percentile_eq hnil (hpq.trans hq)
    obtain ⟨j, hj, hqj, heqj⟩ := percentile_eq hnil hq
    rw [hpi, Outcome.value.injEq] at hv
    rw [hqj, Outcome.value.injEq] at hw
    have hmul : (times.length - 1) * p ≤ (times.length - 1) * q := Nat.mul_le_mul_left _ hpq
    rw [← hv, ← hw]
    refine getElem_mono h hi hj ?_
    rw [heqi, heqj]
    exact Nat.div_le_div_right (by omega)

/-- A percentile is a time, or 0 where there is none, between the first and the last. -/
theorem percentile_spec (h : times.Pairwise (· ≤ ·)) {p : ℕ} (hp : p ≤ 100) :
    ∃ v, percentile times p = .value v ∧ IsTime times v ∧
      times.head?.getD 0 ≤ v ∧ v ≤ times.getLast?.getD 0 := by
  by_cases hnil : times = []
  · refine ⟨0, ?_, ?_, ?_, ?_⟩ <;> simp [percentile, IsTime, hnil]
  · have hpos := List.length_pos_iff.mpr hnil
    obtain ⟨i, hi, heq, -⟩ := percentile_eq hnil hp
    refine ⟨times[i], heq, ?_, ?_, ?_⟩
    · unfold IsTime
      rw [if_neg hnil]
      exact List.getElem_mem hi
    · rw [List.head?_eq_getElem?, List.getElem?_eq_getElem hpos]
      exact getElem_mono h hpos hi (Nat.zero_le i)
    · rw [List.getLast?_eq_getElem?, List.getElem?_eq_getElem (by omega)]
      exact getElem_mono h hi _ (by omega)

end

/-! ### The pass over the records -/

section
variable {nowMs : ℕ} {records : List DnsQueryRecord}

/-- **What the pass comes to**, one figure at a time. -/
structure Counted (nowMs : ℕ) (records : List DnsQueryRecord) (c : Counts) : Prop where
  responseTimes : c.responseTimes = records.filterMap DnsQueryRecord.responseTimeMs
  responseCodes : c.responseCodes = countKeys realCode records
  domains : c.domains = countKeys (fun r => some r.domain) records
  queryTypes : c.queryTypes = countKeys (fun r => some r.queryType) records
  devices : c.devices = countKeys (fun r => some (deviceLabel r)) records
  dnsServers : c.dnsServers = countKeys (fun r => some r.destinationIp) records
  queriesWithoutResponse : c.queriesWithoutResponse =
    records.countP fun r => (realCode r).isNone && overdue nowMs r

theorem counted_pass (nowMs : ℕ) (records : List DnsQueryRecord) :
    Counted nowMs records (records.foldl (countRecord nowMs) .new) := by
  induction records using List.reverseRecOn with
  | nil => exact ⟨rfl, rfl, rfl, rfl, rfl, rfl, rfl⟩
  | append_singleton records record ih =>
    rw [List.foldl_append, List.foldl_cons, List.foldl_nil]
    refine ⟨?_, ?_, ?_, ?_, ?_, ?_, ?_⟩
    · rw [List.filterMap_append, ← ih.responseTimes]
      unfold countRecord
      cases htime : record.responseTimeMs <;> simp [htime]
    · rw [countKeys_concat, ← ih.responseCodes]
      unfold countRecord
      cases realCode record <;> rfl
    · rw [countKeys_concat, ← ih.domains]
      rfl
    · rw [countKeys_concat, ← ih.queryTypes]
      rfl
    · rw [countKeys_concat, ← ih.devices]
      rfl
    · rw [countKeys_concat, ← ih.dnsServers]
      rfl
    · rw [List.countP_append, ← ih.queriesWithoutResponse]
      unfold countRecord
      cases hcode : realCode record <;> cases hold : overdue nowMs record <;> simp [hcode, hold]

/-- Answered, given up and waiting are all there is. -/
theorem countP_parts (nowMs : ℕ) (records : List DnsQueryRecord) :
    (records.countP fun r => (realCode r).isSome) +
        (records.countP fun r => (realCode r).isNone && overdue nowMs r) +
        records.countP (waiting nowMs) = records.length := by
  induction records with
  | nil => rfl
  | cons record rest ih =>
    unfold waiting at ih ⊢
    cases hcode : realCode record <;> cases hold : overdue nowMs record <;> simp [hcode, hold] <;> omega

/-- **The figures of any list of records.** -/
theorem statsOf_consistent (o : IterOrder) (nowMs : ℕ) (hlen : records.length ≤ u64Max) :
    ∃ s, statsOf o nowMs records = .value s ∧ Consistent records nowMs s := by
  have hc := counted_pass nowMs records
  have hparts := countP_parts nowMs records
  have htotal : sumOver (fun _ n => n) (records.foldl (countRecord nowMs) .new).responseCodes =
      records.countP fun r => (realCode r).isSome := by
    rw [hc.responseCodes, sum_countKeys]
  have hsuccess : ((records.foldl (countRecord nowMs) .new).responseCodes.lookup "NOERROR").getD 0 ≤
      records.countP fun r => (realCode r).isSome := by
    rw [← htotal]
    simpa using lookup_le_sumOver (fun _ n => n)
      (records.foldl (countRecord nowMs) .new).responseCodes "NOERROR"
  have hsorted := sorted_mergeSort (records.foldl (countRecord nowMs) .new).responseTimes
  have hmem : ∀ t, t ∈ (records.foldl (countRecord nowMs) .new).responseTimes.mergeSort (· ≤ ·) ↔
      t ∈ records.filterMap DnsQueryRecord.responseTimeMs := by
    intro t
    rw [List.mem_mergeSort, hc.responseTimes]
  obtain ⟨p50, h50, hmem50, hmin, -⟩ := percentile_spec hsorted (by omega : 50 ≤ 100)
  obtain ⟨p90, h90, hmem90, -, -⟩ := percentile_spec hsorted (by omega : 90 ≤ 100)
  obtain ⟨p95, h95, hmem95, -, -⟩ := percentile_spec hsorted (by omega : 95 ≤ 100)
  obtain ⟨p99, h99, hmem99, -, hmax⟩ := percentile_spec hsorted (by omega : 99 ≤ 100)
  unfold statsOf
  dsimp only
  rw [h50, Outcome.value_bind, h90, Outcome.value_bind, h95, Outcome.value_bind, h99, Outcome.value_bind]
  refine ⟨_, rfl, ⟨rfl, ?_, ?_, ?_, ?_, ?_, ?_, ?_, ?_, ?_⟩⟩
  · dsimp only
    omega
  · dsimp only
    rw [htotal, hc.responseCodes, sum_sortedTopItems hlen]
  · dsimp only
    rw [htotal, hc.queriesWithoutResponse]
    exact hparts
  · refine ⟨⟨hmin, percentile_mono hsorted (by omega) (by omega) h50 h90,
      percentile_mono hsorted (by omega) (by omega) h90 h95,
      percentile_mono hsorted (by omega) (by omega) h95 h99, hmax⟩, fun t ht => ?_⟩
    rw [← isTime_congr hmem]
    simp only [List.mem_cons, List.not_mem_nil, or_false] at ht
    rcases ht with rfl | rfl | rfl | rfl | rfl | rfl
    · exact isTime_head _
    · exact hmem50
    · exact hmem90
    · exact hmem95
    · exact hmem99
    · exact isTime_getLast _
  · rw [hc.responseCodes]
    exact topOf_sortedTopItems o _ records _
  · rw [hc.domains]
    exact topOf_sortedTopItems o _ records _
  · rw [hc.queryTypes]
    exact topOf_sortedTopItems o _ records _
  · rw [hc.devices]
    exact topOf_sortedTopItems o _ records _
  · rw [hc.dnsServers]
    exact topOf_sortedTopItems o _ records _

end

/-! ### The records of a monitor -/

section
variable {records records' : List DnsQueryRecord} {nowMs : ℕ} {s : DnsStats}

theorem TopOf.perm (h : records.Perm records') {limit : ℕ} {key : DnsQueryRecord → Option String}
    {items : List DnsTopItem} (htop : TopOf limit key records items) :
    TopOf limit key records' items := by
  have hoccurs : ∀ name, occurrences key name records = occurrences key name records' :=
    fun name => (ofKey_perm h name).length_eq
  refine ⟨htop.bounded, htop.distinct, htop.sorted, fun item hitem => ?_, fun name hname => ?_,
    fun hlen name hname => ?_⟩
  · rw [← hoccurs]
    exact htop.counted item hitem
  · rw [← hoccurs]
    exact htop.omitted name hname
  · rw [← hoccurs]
    exact htop.complete hlen name hname

/-- The order of the records does not matter to what is said of them. -/
theorem Consistent.perm (h : records.Perm records') (hs : Consistent records nowMs s) :
    Consistent records' nowMs s where
  total := hs.total.trans h.length_eq
  outcomes := hs.outcomes
  codes := hs.codes
  parts := by
    rw [← h.countP_eq]
    exact hs.parts
  times := by
    have hmem := fun t => (h.filterMap DnsQueryRecord.responseTimeMs).mem_iff (a := t)
    exact ⟨hs.times.ordered, fun t ht => (isTime_congr hmem).mp (hs.times.members t ht)⟩
  responseCodes := hs.responseCodes.perm h
  topDomains := hs.topDomains.perm h
  topQueryTypes := hs.topQueryTypes.perm h
  topDevices := hs.topDevices.perm h
  topDnsServers := hs.topDnsServers.perm h

end

/-- The records that a monitor holds. -/
def storedRecords (m : DnsMonitor) : List DnsQueryRecord := m.records.entries.map fun e => e.2.record

theorem recordsInOrder_perm {m : DnsMonitor} {limit : ℕ} (h : Circular limit m)
    (hlimit : limit < 2 ^ 64) : (recordsInOrder m).Perm (storedRecords m) := by
  have hentries : (m.records.entries.map Sigma.fst).filterMap
      (fun id => (m.records.lookup id).map TrackedQuery.record) = storedRecords m := by
    rw [List.filterMap_map]
    unfold storedRecords
    rw [← List.filterMap_eq_map]
    refine List.filterMap_congr fun e he => ?_
    have hlookup : m.records.lookup e.1 = some e.2 := mem_entries_iff.mp he
    show (m.records.lookup e.1).map TrackedQuery.record = _
    rw [hlookup]
    rfl
  rw [← hentries]
  exact (h.perm hlimit).filterMap _

theorem length_recordsInOrder_le {m : DnsMonitor} {limit : ℕ} (h : Circular limit m) :
    (recordsInOrder m).length ≤ limit :=
  (List.length_filterMap_le _ _).trans h.length_le

/-- **The statistics are consistent in every state of every run.** -/
theorem stats_consistent (o : IterOrder) (maxRecords : UInt32) (restored : List DnsQueryRecord)
    (cs : List Capture) (nowMs : ℕ) :
    ∃ s, stats o (cs.foldl ingest (start maxRecords.toNat restored)) nowMs = .value s ∧
      Consistent (storedRecords (cs.foldl ingest (start maxRecords.toNat restored))) nowMs s := by
  have hmax := maxRecords.toNat_lt
  have hcircular := circular_run maxRecords.toNat (by omega) restored cs
  have hperm := recordsInOrder_perm hcircular (by omega)
  have hlen : (recordsInOrder (cs.foldl ingest (start maxRecords.toNat restored))).length ≤ u64Max := by
    have hle := length_recordsInOrder_le hcircular
    show _ ≤ 2 ^ 64 - 1
    omega
  obtain ⟨s, hs, hconsistent⟩ := statsOf_consistent o nowMs hlen
  exact ⟨s, hs, hconsistent.perm hperm⟩

end BandixPlus.Dns.Stats
