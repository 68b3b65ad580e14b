import BandixPlus.Dns.Invariant

/-! # The DNS monitor: which record a response answers

* `matchResponse_cases`: a response answers the front of its key's queue once the expired ids are
  dropped, or no record.
* `matching_sound`: in every run each response answers at most one record, of its own client, port,
  transaction id, name, type and protocol, at most 30 s old; what is answered never changes again. -/

namespace BandixPlus.Dns.Matching

open BandixPlus.Lib.Maps BandixPlus.Lib.Run BandixPlus.Dns.Monitor BandixPlus.Dns.Invariant

/-- The fields of the record agree with its match key. -/
def FieldsOk (t : TrackedQuery) : Prop :=
  t.record.sourceIp = t.matchKey.clientIp.toString ∧
    t.record.sourcePort = t.matchKey.clientPort ∧
    t.record.transactionId = t.matchKey.transactionId ∧
    toAsciiLowercase t.record.domain = t.matchKey.domain ∧
    toAsciiUppercase t.record.queryType = t.matchKey.queryType ∧
    t.record.protocol = t.matchKey.protocol

/-- The records that were not restored have the fields of their keys. -/
def AllFieldsOk (restored : ℕ) (m : DnsMonitor) : Prop :=
  ∀ id t, m.records.lookup id = some t → restored < id → FieldsOk t

/-- The response `c` answers the record `id` of `m`, and changes no other. -/
structure Answers (m : DnsMonitor) (c : Capture) (id : ℕ) (query : TrackedQuery) : Prop where
  live : m.records.lookup id = some query
  unanswered : Unanswered query.record
  set : (ingest m c).records.lookup id = some { query with record := { query.record with
      responseCode := c.message.responseCode
      responseTimeMs := some ((c.ns - query.observedNs) / 1000000)
      responseIps := c.message.responseIps
      responseRecords := c.message.responseRecords } }
  others : ∀ i, i ≠ id → (ingest m c).records.lookup i = m.records.lookup i
  key : query.matchKey = c.key
  clientIp : query.record.sourceIp = c.message.destinationIp.toString
  clientPort : query.record.sourcePort = c.message.destinationPort
  transactionId : query.record.transactionId = c.message.transactionId
  domain : toAsciiLowercase query.record.domain = toAsciiLowercase c.message.domain
  queryType : toAsciiUppercase query.record.queryType = toAsciiUppercase c.message.queryType
  protocol : query.record.protocol = c.message.protocol
  age : c.ns - query.observedNs ≤ maxQueryMatchAgeNs
  earliest : ∃ queue, m.pending.lookup c.key = some queue ∧
    (queue.dropWhile (expired m c.ns)).head? = some id ∧
    ∀ i ∈ queue.dropWhile (expired m c.ns), id ≤ i

/-- What one message may do to the records: a query adds one and answers none, a response answers at
most one. -/
def StepSound (m : DnsMonitor) (c : Capture) : Prop :=
  if c.message.isQuery then
    ∀ id t, (ingest m c).records.lookup id = some t →
      m.records.lookup id = some t ∨ (id = m.nextId ∧ id ∉ m.records ∧ Unanswered t.record)
  else (∀ id, (ingest m c).records.lookup id = m.records.lookup id) ∨ ∃ id query, Answers m c id query

/-! ### Responses -/

/-- **What a response does**: it answers the front of the live part of its key's queue and is
remembered, or that part is empty and it does nothing to the records. -/
theorem matchResponse_cases {r : ℕ} {m : DnsMonitor} (h : Core r m) (c : Capture) :
    ((matchResponse m c).records = m.records ∧
      (matchResponse m c).recentResponses = m.recentResponses ∧
      ∀ queue, m.pending.lookup c.key = some queue → queue.dropWhile (expired m c.ns) = []) ∨
    ∃ id query queue, m.pending.lookup c.key = some queue ∧
      (queue.dropWhile (expired m c.ns)).head? = some id ∧
      r < id ∧ m.records.lookup id = some query ∧ query.matchKey = c.key ∧
      Unanswered query.record ∧ c.ns - query.observedNs ≤ maxQueryMatchAgeNs ∧
      (matchResponse m c).records = m.records.insert id (answered query c) ∧
      (matchResponse m c).recentResponses = m.recentResponses.insert c.key c.ns := by
  obtain ⟨hcore, htaken⟩ := takePending_spec h c.key c.ns
  have hsnd := takePending_snd m c.key c.ns
  have hrec : (takePending m c.key c.ns).2.records = m.records := by rw [hsnd]
  have hresp : (takePending m c.key c.ns).2.recentResponses = m.recentResponses := by rw [hsnd]
  unfold matchResponse
  dsimp only
  split
  · next hnone =>
    refine Or.inl ⟨hrec, hresp, fun queue hq => ?_⟩
    unfold takePending at hnone
    rw [hq] at hnone
    exact List.head?_eq_none_iff.mp hnone
  · next id hid =>
    obtain ⟨⟨queue, hq, hhead⟩, -⟩ := htaken id hid
    have hin : id ∈ queue.dropWhile (expired m c.ns) := List.mem_of_head? hhead
    have hmem : id ∈ queue := (List.dropWhile_sublist _).subset hin
    obtain ⟨hlt, query, hquery, hkey, hun⟩ := (h.queues _ _ hq).live id hmem
    have hfresh : ¬ expired m c.ns id := by
      have := List.head?_dropWhile_not (expired m c.ns) queue
      rw [hhead] at this
      simpa using this
    have hage : c.ns - query.observedNs ≤ maxQueryMatchAgeNs := by
      unfold expired at hfresh
      rw [hquery] at hfresh
      simpa using hfresh
    rw [hrec, hresp, hquery]
    exact Or.inr ⟨id, query, queue, hq, hhead, hlt, hquery, hkey, hun, hage, rfl, rfl⟩

/-- A response answers a record, or leaves every record as it is. -/
theorem answers_of_response {r : ℕ} {m : DnsMonitor} (h : Rep r m) (hf : AllFieldsOk r m)
    {c : Capture} (hdup : ¬ duplicate m c) (hresp : ¬ c.message.isQuery) :
    ((ingest m c).records = m.records ∧
      ∀ queue, m.pending.lookup c.key = some queue → queue.dropWhile (expired m c.ns) = []) ∨
      ∃ id query, Answers m c id query ∧
        (ingest m c).records = m.records.insert id (answered query c) := by
  have hing := ingest_of_response hdup hresp
  rcases matchResponse_cases h.toCore c with ⟨hrec, -, hnil⟩ | ⟨id, query, queue, hq, hhead, hlt,
    hquery, hkey, hun, hage, hrec, -⟩
  · refine Or.inl ⟨?_, hnil⟩
    rw [hing]; exact hrec
  · have hrec' : (ingest m c).records = m.records.insert id (answered query c) := by
      rw [hing]; exact hrec
    obtain ⟨hip, hport, htid, hdom, htype, hproto⟩ := hf id query hquery hlt
    have hsort : (queue.dropWhile (expired m c.ns)).Pairwise (· < ·) :=
      (h.queues _ _ hq).sorted.sublist (List.dropWhile_sublist _)
    have hclient : c.key.clientIp = c.message.destinationIp ∧
        c.key.clientPort = c.message.destinationPort := by
      show (if c.message.isQuery then _ else _) = _ ∧ (if c.message.isQuery then _ else _) = _
      rw [if_neg hresp, if_neg hresp]
      exact ⟨rfl, rfl⟩
    rw [hkey] at hip hport htid hdom htype hproto
    rw [hclient.1] at hip
    rw [hclient.2] at hport
    refine Or.inr ⟨id, query, ⟨hquery, hun, ?_, fun i hi => ?_, hkey, hip, hport, htid, hdom, htype,
      hproto, hage, queue, hq, hhead, fun i hi => ?_⟩, hrec'⟩
    · rw [hrec', AList.lookup_insert]; rfl
    · rw [hrec', AList.lookup_insert_ne hi]
    · obtain ⟨rest, hlive⟩ := List.head?_eq_some_iff.mp hhead
      rw [hlive] at hi hsort
      rcases List.mem_cons.mp hi with rfl | hi
      · exact le_refl _
      · exact (List.rel_of_pairwise_cons hsort hi).le

/-! ### One message -/

theorem stepSound_ingest {r : ℕ} {m : DnsMonitor} (h : Rep r m) (hf : AllFieldsOk r m)
    (c : Capture) : StepSound m c := by
  unfold StepSound
  rcases ingest_cases m c with hdup | hrec | ⟨hdup, hresp⟩
  · rw [ingest_of_duplicate hdup]
    split_ifs
    · exact fun id t ht => Or.inl ht
    · exact Or.inl fun id => rfl
  · rw [if_pos hrec.1, ingest_of_recorded hrec]
    intro id t ht
    rcases lookup_recordQuery h ht with ⟨rfl, rfl⟩ | ⟨-, hold⟩
    · exact Or.inr ⟨rfl, h.nextId_notMem, rfl, rfl, rfl, rfl⟩
    · exact Or.inl hold
  · rw [if_neg hresp]
    rcases answers_of_response h hf hdup hresp with ⟨hrec, -⟩ | ⟨id, query, hans, -⟩
    · exact Or.inl fun id => by rw [hrec]
    · exact Or.inr ⟨id, query, hans⟩

theorem allFieldsOk_ingest {r : ℕ} {m : DnsMonitor} (h : Rep r m) (hf : AllFieldsOk r m)
    (c : Capture) : AllFieldsOk r (ingest m c) := by
  intro id t ht hlt
  rcases ingest_cases m c with hdup | hrec | ⟨hdup, hresp⟩
  · rw [ingest_of_duplicate hdup] at ht
    exact hf id t ht hlt
  · rw [ingest_of_recorded hrec] at ht
    rcases lookup_recordQuery h ht with ⟨-, rfl⟩ | ⟨-, hold⟩
    · have hq : c.message.isQuery = true := hrec.1
      have hclient : c.key.clientIp = c.message.sourceIp ∧
          c.key.clientPort = c.message.sourcePort := by
        show (if c.message.isQuery then _ else _) = _ ∧ (if c.message.isQuery then _ else _) = _
        rw [if_pos hq, if_pos hq]
        exact ⟨rfl, rfl⟩
      unfold FieldsOk
      dsimp only
      rw [hclient.1, hclient.2]
      exact ⟨rfl, rfl, rfl, rfl, rfl, rfl⟩
    · exact hf id t hold hlt
  · rcases answers_of_response h hf hdup hresp with ⟨hrec, -⟩ | ⟨i, query, hans, hrec⟩
    · rw [hrec] at ht
      exact hf id t ht hlt
    · rw [hrec, lookup_insert_eq] at ht
      split_ifs at ht with hid
      · -- the answered record: its key fields are those it had
        rw [← Option.some.inj ht]
        exact hf i query hans.live (hid ▸ hlt)
      · exact hf id t ht hlt

/-- An answered record stays as it is while it is there. -/
theorem lookup_ingest_of_answered {m : DnsMonitor} {c : Capture} (h : StepSound m c) {id : ℕ}
    (hid : id < m.nextId) {t t' : TrackedQuery}
    (ht : ∀ u, m.records.lookup id = some u → u = t) (hans : ¬ Unanswered t.record)
    (ht' : (ingest m c).records.lookup id = some t') : t' = t := by
  unfold StepSound at h
  split_ifs at h
  · rcases h id t' ht' with hold | ⟨hnew, -⟩
    · exact ht _ hold
    · exact absurd hnew hid.ne
  · rcases h with hsame | ⟨i, query, hi⟩
    · exact ht _ (by rw [← hsame]; exact ht')
    · by_cases heq : id = i
      · subst heq
        have := ht _ hi.live
        rw [this] at hi
        exact absurd hi.unanswered hans
      · exact ht _ (by rw [← hi.others id heq]; exact ht')

/-! ### Runs -/

/-- What carries the matching over a run. -/
structure Inv (restored : ℕ) (m : DnsMonitor) : Prop extends Rep restored m where
  fields : AllFieldsOk restored m

theorem inv_ingest {r : ℕ} {m : DnsMonitor} (h : Inv r m) (c : Capture)
    (hw : Recorded m c → m.nextId + 1 < 2 ^ 64) : Inv r (ingest m c) :=
  ⟨rep_ingest h.toRep c hw, allFieldsOk_ingest h.toRep h.fields c⟩

theorem inv_start (maxRecords : ℕ) (restored : List DnsQueryRecord)
    (hn : (keptRecords maxRecords restored).length + 1 < 2 ^ 64) :
    Inv (keptRecords maxRecords restored).length (start maxRecords restored) := by
  refine ⟨rep_start _ _ hn, fun id t ht hlt => ?_⟩
  have hid := (rep_start _ _ hn).lt_nextId (mem_iff_lookup.mpr ⟨t, ht⟩)
  rw [(restored_start _ _ hn).next] at hid
  omega

theorem stepSound_run {r : ℕ} {m : DnsMonitor} (h : Inv r m) {cs : List Capture}
    (hw : NoWrap m cs) : Along ingest StepSound m cs :=
  hw.imp (fun _ c hs hc => inv_ingest hs c hc)
    (fun _ c hs _ => stepSound_ingest hs.toRep hs.fields c) h

/-- What is answered at one point of a run is the same at every later one, or gone. -/
theorem lookup_run_of_answered {r : ℕ} {m : DnsMonitor} (h : Inv r m) {cs : List Capture}
    (hw : NoWrap m cs) {id : ℕ} {t : TrackedQuery} (hid : id < m.nextId)
    (ht : ∀ u, m.records.lookup id = some u → u = t) (hans : ¬ Unanswered t.record) :
    ∀ u, (cs.foldl ingest m).records.lookup id = some u → u = t := by
  have := Along.invariant
    (I := fun m => Inv r m ∧ id < m.nextId ∧ ∀ u, m.records.lookup id = some u → u = t)
    (fun s c hs hc => ?_) hw ⟨h, hid, ht⟩
  · exact this.2.2
  · obtain ⟨hinv, hlt, hsame⟩ := hs
    refine ⟨inv_ingest hinv c hc, ?_, fun u hu =>
      lookup_ingest_of_answered (stepSound_ingest hinv.toRep hinv.fields c) hlt hsame hans hu⟩
    rw [ingest_nextId hinv.toRep c]
    split_ifs with hrec
    · rw [followingId_eq (hc hrec)]; omega
    · exact hlt

/-- **Matching is sound in every run** from a fresh start, while the ids do not wrap: every step is
sound, and a record answered at some point is unchanged for as long as it is kept. -/
theorem matching_sound (maxRecords : ℕ) (restored : List DnsQueryRecord) (cs : List Capture)
    (hids : (keptRecords maxRecords restored).length
      + recordedCount (start maxRecords restored) cs < 2 ^ 64 - 1) :
    (∀ pre c post, cs = pre ++ c :: post →
      StepSound (pre.foldl ingest (start maxRecords restored)) c) ∧
    ∀ pre post, cs = pre ++ post → ∀ id t,
      (pre.foldl ingest (start maxRecords restored)).records.lookup id = some t →
      ¬ Unanswered t.record →
      ∀ t', (cs.foldl ingest (start maxRecords restored)).records.lookup id = some t' → t' = t := by
  have hstart := inv_start maxRecords restored (by omega)
  have hnext := (restored_start maxRecords restored (by omega)).next
  have hw : NoWrap (start maxRecords restored) cs :=
    noWrap_of_count hstart.toRep (by omega)
  refine ⟨along_iff_split.mp (stepSound_run hstart hw), ?_⟩
  rintro pre post rfl id t ht hans t' ht'
  obtain ⟨hpre, hpost⟩ := along_append.mp hw
  have hinv : Inv _ (pre.foldl ingest (start maxRecords restored)) :=
    Along.invariant (I := Inv (keptRecords maxRecords restored).length)
      (fun _ c hs hc => inv_ingest hs c hc) hpre hstart
  rw [List.foldl_append] at ht'
  refine lookup_run_of_answered hinv hpost (hinv.lt_nextId (mem_iff_lookup.mpr ⟨t, ht⟩))
    (fun u hu => ?_) hans t' ht'
  rw [ht, Option.some.injEq] at hu
  exact hu.symm

/-- The response of the sample run is sound where it arrives. -/
theorem matching_sound_sample :
    StepSound (ingest (start 2 []) (sampleCapture true 0)) (sampleCapture false 20000000) :=
  (matching_sound 2 [] sampleRun sampleRun_ids).1 [sampleCapture true 0] _ [] rfl

end BandixPlus.Dns.Matching
