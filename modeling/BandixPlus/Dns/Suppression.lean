import BandixPlus.Dns.Matching

/-! # The DNS monitor: duplicate suppression and answers

A response whose key was answered less than half a second ago is dropped as a duplicate, even when a
newer query of the key is waiting for it.

* `matched_iff_not_suppressed`: along a run with increasing timestamps, the response to a waiting query
  is matched exactly if it is not dropped so.
* `answer_suppressed`: in a run of two rounds the second answer is dropped. -/

namespace BandixPlus.Dns.Suppression

open BandixPlus.Lib.Maps BandixPlus.Lib.Run BandixPlus.Dns.Monitor BandixPlus.Dns.Invariant
open BandixPlus.Dns.Matching

/-- The response is dropped as a duplicate. -/
def suppressed (m : DnsMonitor) (c : Capture) : Bool :=
  seenWithin m.recentResponses responseDedupWindowNs c.key c.ns

/-- The message is a response, and some record of its key gets its code and its response time. -/
def Matched (m : DnsMonitor) (c : Capture) : Prop :=
  ¬ c.message.isQuery ∧ ∃ id t t', m.records.lookup id = some t ∧ t.matchKey = c.key ∧
    Unanswered t.record ∧ (ingest m c).records.lookup id = some t' ∧
    t'.record.responseCode = c.message.responseCode ∧
    t'.record.responseTimeMs = some ((c.ns - t.observedNs) / 1000000)

/-- After the messages `pre`, a query of the key of `c` is recorded, unanswered and at most 30 s old,
and was observed after every response matched for the key. -/
def Due (m : DnsMonitor) (pre : List Capture) (c : Capture) : Prop :=
  ∃ id t, (pre.foldl ingest m).records.lookup id = some t ∧ t.matchKey = c.key ∧
    Unanswered t.record ∧ c.ns - t.observedNs ≤ maxQueryMatchAgeNs ∧
    ∀ pre₁ c' pre₂, pre = pre₁ ++ c' :: pre₂ → c'.key = c.key →
      Matched (pre₁.foldl ingest m) c' → c'.ns < t.observedNs

/-- The id is in the queue of the key. -/
def InQueue (pending : HashMap DnsMatchKey (List ℕ)) (k : DnsMatchKey) (id : ℕ) : Prop :=
  ∃ q, pending.lookup k = some q ∧ id ∈ q

/-- Every unanswered record waits in the queue of its key, or is more than 30 s old at `now`. -/
def Waiting (now : ℕ) (m : DnsMonitor) : Prop :=
  ∀ id t, m.records.lookup id = some t → Unanswered t.record →
    InQueue m.pending t.matchKey id ∨ maxQueryMatchAgeNs < now - t.observedNs

/-! ### Queues -/

section Queues
variable {pending : HashMap DnsMatchKey (List ℕ)} {k k' : DnsMatchKey} {q : List ℕ} {id : ℕ}

theorem inQueue_storeQueue :
    InQueue (storeQueue pending k q) k' id ↔
      if k' = k then id ∈ q else InQueue pending k' id := by
  unfold InQueue
  rw [lookup_storeQueue]
  split_ifs with hk hq
  · subst hq; simp
  · simp
  · exact Iff.rfl

theorem inQueue_upsert_of_inQueue (h : InQueue pending k' id) (i : ℕ) :
    InQueue (upsert k [] (· ++ [i]) pending) k' id := by
  obtain ⟨q, hq, hid⟩ := h
  unfold InQueue
  rw [lookup_upsert_eq]
  split_ifs with hk
  · subst hk
    rw [hq]
    exact ⟨_, rfl, List.mem_append_left _ hid⟩
  · exact ⟨q, hq, hid⟩

theorem inQueue_upsert_self (i : ℕ) : InQueue (upsert k [] (· ++ [i]) pending) k i := by
  unfold InQueue
  rw [lookup_upsert_eq, if_pos rfl]
  exact ⟨_, rfl, List.mem_append_right _ (List.mem_singleton.mpr rfl)⟩

end Queues

/-- Eviction takes no other id out of its queue. -/
theorem inQueue_evictOldest {m : DnsMonitor} {id : ℕ} {rest : List ℕ} (hm : m.order = id :: rest)
    {k : DnsMatchKey} {i : ℕ} (hi : i ≠ id) (h : InQueue m.pending k i) :
    InQueue (evictOldest m).pending k i := by
  unfold evictOldest
  rw [hm]
  dsimp only
  split
  · exact h
  · next query hquery =>
    split
    · split
      · exact h
      · next queue hq =>
        show InQueue (storeQueue m.pending query.matchKey _) k i
        rw [inQueue_storeQueue]
        by_cases hk : k = query.matchKey
        · obtain ⟨q, hq', hin⟩ := h
          rw [hk, hq, Option.some.injEq] at hq'
          subst hq'
          rw [if_pos hk]
          split_ifs with hhead
          · obtain ⟨tail, htail⟩ := List.head?_eq_some_iff.mp hhead
            rw [htail] at hin ⊢
            exact (List.mem_cons.mp hin).resolve_left hi
          · exact List.mem_filter.mpr ⟨hin, by simpa using hi⟩
        · rw [if_neg hk]; exact h
    · exact h

/-- A response takes out of the queues the id it answers and ids of gone or expired records. -/
theorem inQueue_takePending {m : DnsMonitor} {k k' : DnsMatchKey} {now i : ℕ}
    (h : InQueue m.pending k' i) :
    InQueue (takePending m k now).2.pending k' i ∨
      (k' = k ∧ (expired m now i ∨ (takePending m k now).1 = some i)) := by
  unfold takePending
  split
  · exact Or.inl h
  · next queue hq =>
    dsimp only
    rw [inQueue_storeQueue]
    by_cases hk : k' = k
    · obtain ⟨q, hq', hin⟩ := h
      rw [hk, hq, Option.some.injEq] at hq'
      subst hq'
      rw [if_pos hk]
      have hsplit : queue.takeWhile (expired m now) ++ queue.dropWhile (expired m now) = queue :=
        List.takeWhile_append_dropWhile
      rw [← hsplit] at hin
      rcases List.mem_append.mp hin with hin | hin
      · exact Or.inr ⟨hk, Or.inl (List.mem_takeWhile_imp hin)⟩
      · obtain ⟨front, live, hlive⟩ := List.exists_cons_of_ne_nil (List.ne_nil_of_mem hin)
        rw [hlive] at hin ⊢
        rcases List.mem_cons.mp hin with rfl | hin
        · exact Or.inr ⟨hk, Or.inr rfl⟩
        · exact Or.inl hin
    · rw [if_neg hk]; exact Or.inl h

/-! ### One message -/

theorem waiting_mono {m : DnsMonitor} {now now' : ℕ} (h : Waiting now m) (hle : now ≤ now') :
    Waiting now' m := by
  intro id t ht hun
  refine (h id t ht hun).imp_right fun hage => ?_
  omega

theorem matchResponse_pending (m : DnsMonitor) (c : Capture) :
    (matchResponse m c).pending = (takePending m c.key c.ns).2.pending := by
  unfold matchResponse
  dsimp only
  split
  · rfl
  · split <;> rfl

theorem not_unanswered_answered (query : TrackedQuery) (c : Capture) :
    ¬ Unanswered (answered query c).record :=
  fun h => absurd h.2.1 (Option.some_ne_none _)

/-- The id taken for a response is the one it answers. -/
theorem matchResponse_of_taken {r : ℕ} {m : DnsMonitor} (h : Core r m) {c : Capture} {id : ℕ}
    (hid : (takePending m c.key c.ns).1 = some id) :
    ∃ query, (matchResponse m c).records = m.records.insert id (answered query c) := by
  obtain ⟨-, htaken⟩ := takePending_spec h c.key c.ns
  obtain ⟨⟨queue, hq, hhead⟩, -⟩ := htaken id hid
  rcases matchResponse_cases h c with ⟨-, -, hnil⟩ | ⟨i, query, queue', hq', hhead', -, -, -, -, -,
    hrec, -⟩
  · rw [hnil queue hq] at hhead
    cases hhead
  · rw [hq, Option.some.injEq] at hq'
    subst hq'
    rw [hhead, Option.some.injEq] at hhead'
    rw [hhead']
    exact ⟨query, hrec⟩

theorem waiting_ingest {r : ℕ} {m : DnsMonitor} (h : Rep r m) {c : Capture} {now : ℕ}
    (hle : now ≤ c.ns) (hwait : Waiting now m) : Waiting c.ns (ingest m c) := by
  intro id t ht hun
  rcases ingest_cases m c with hdup | hrec | ⟨hdup, hresp⟩
  · rw [ingest_of_duplicate hdup] at ht ⊢
    exact waiting_mono hwait hle id t ht hun
  · rw [ingest_of_recorded hrec] at ht ⊢
    -- in its queue after the insertion, or too old already
    have hins : InQueue (insertQuery m c).pending t.matchKey id ∨
        maxQueryMatchAgeNs < c.ns - t.observedNs := by
      rcases lookup_recordQuery h ht with ⟨rfl, rfl⟩ | ⟨-, hold⟩
      · exact Or.inl (inQueue_upsert_self _)
      · exact (waiting_mono hwait hle id t hold hun).imp_left fun hq =>
          inQueue_upsert_of_inQueue hq _
    refine hins.imp_left fun hq => ?_
    show InQueue (recordQuery m c).pending t.matchKey id
    rcases recordQuery_cases h c with ⟨heq, -⟩ | ⟨heq, i, rest, hm⟩
    · rw [heq]; exact hq
    · rw [heq]
      refine inQueue_evictOldest hm ?_ hq
      rintro rfl
      obtain ⟨-, hrecs, -⟩ := evictOldest_spec (core_insertQuery h c) hm
      have hlook : (recordQuery m c).records.lookup id = some t := ht
      rw [heq, hrecs, AList.lookup_erase] at hlook
      cases hlook
  · rw [ingest_of_response hdup hresp] at ht ⊢
    have hlook : (matchResponse m c).records.lookup id = some t := ht
    show InQueue (matchResponse m c).pending t.matchKey id ∨ _
    rw [matchResponse_pending]
    -- an unanswered record is one of those before the response
    have hold : m.records.lookup id = some t := by
      rcases matchResponse_cases h.toCore c with ⟨hrecs, -⟩ | ⟨_, _, -, -, -, -, -, -, -, -,
        hrecs, -⟩
      · rw [← hrecs]; exact hlook
      · rw [hrecs, lookup_insert_eq] at hlook
        split_ifs at hlook
        · rw [← Option.some.inj hlook] at hun
          exact absurd hun (not_unanswered_answered _ _)
        · exact hlook
    rcases waiting_mono hwait hle id t hold hun with hq | hage
    · rcases inQueue_takePending hq with hq' | ⟨-, hexp | htaken⟩
      · exact Or.inl hq'
      · unfold expired at hexp
        rw [hold] at hexp
        exact Or.inr (by simpa using hexp)
      · obtain ⟨query, hrecs⟩ := matchResponse_of_taken h.toCore htaken
        rw [hrecs, AList.lookup_insert] at hlook
        rw [← Option.some.inj hlook] at hun
        exact absurd hun (not_unanswered_answered _ _)
    · exact Or.inr hage

theorem duplicate_of_response {m : DnsMonitor} {c : Capture} (hresp : ¬ c.message.isQuery) :
    duplicate m c = suppressed m c := by
  unfold duplicate suppressed
  rw [if_neg hresp]

theorem not_matched_of_suppressed {m : DnsMonitor} {c : Capture} (h : suppressed m c) :
    ¬ Matched m c := by
  rintro ⟨hresp, i, u, u', hu, -, hunu, hu', -, htime⟩
  have hsame : ingest m c = m := ingest_of_duplicate (by rw [duplicate_of_response hresp]; exact h)
  rw [hsame, hu, Option.some.injEq] at hu'
  rw [← hu', hunu.2.1] at htime
  cases htime

/-- **A response to a waiting query is matched exactly if it is not dropped as a duplicate.** -/
theorem matched_iff {r : ℕ} {m : DnsMonitor} (h : Core r m) {now : ℕ} (hwait : Waiting now m)
    {c : Capture} (hle : now ≤ c.ns) (hresp : ¬ c.message.isQuery) {id : ℕ} {t : TrackedQuery}
    (ht : m.records.lookup id = some t) (hkey : t.matchKey = c.key) (hun : Unanswered t.record)
    (hage : c.ns - t.observedNs ≤ maxQueryMatchAgeNs) : Matched m c ↔ suppressed m c = false := by
  constructor
  · intro hm
    by_contra hsup
    exact not_matched_of_suppressed (by simpa using hsup) hm
  · intro hsup
    have hing : ingest m c = pruneCaches (matchResponse m c) c :=
      ingest_of_response (by rw [duplicate_of_response hresp, hsup]; exact Bool.false_ne_true) hresp
    obtain ⟨queue, hq, hin⟩ : InQueue m.pending c.key id := by
      rcases waiting_mono hwait hle id t ht hun with hq | hlt
      · rw [← hkey]; exact hq
      · omega
    have hfresh : ¬ expired m c.ns id := by
      unfold expired
      rw [ht]
      simpa using hage
    rcases matchResponse_cases h c with ⟨-, -, hnil⟩ | ⟨i, query, -, -, -, -, hquery, hqkey, hqun, -,
      hrecs, -⟩
    · exact absurd (List.dropWhile_eq_nil_iff.mp (hnil queue hq) id hin) hfresh
    · refine ⟨hresp, i, query, answered query c, hquery, hqkey, hqun, ?_, rfl, rfl⟩
      rw [hing]
      show (matchResponse m c).records.lookup i = _
      rw [hrecs, AList.lookup_insert]

/-! ### Runs -/

theorem waiting_run {r : ℕ} {m : DnsMonitor} (h : Rep r m) {now last : ℕ} (hwait : Waiting now m)
    {cs : List Capture} (hw : NoWrap m cs)
    (hinc : (now :: cs.map Capture.ns ++ [last]).Pairwise (· ≤ ·)) :
    Waiting last (cs.foldl ingest m) := by
  induction cs generalizing m now with
  | nil => exact waiting_mono hwait (List.rel_of_pairwise_cons hinc (List.mem_singleton_self _))
  | cons c cs ih =>
    have hle : now ≤ c.ns := List.rel_of_pairwise_cons hinc (List.mem_cons_self)
    exact ih (rep_ingest h c hw.1) (waiting_ingest h hle hwait) hw.2 hinc.of_cons

theorem waiting_new (maxRecords now : ℕ) : Waiting now (DnsMonitor.new maxRecords) :=
  fun _ t ht => absurd ht (Option.some_ne_none t).symm

theorem rep_new (maxRecords : ℕ) : Rep 0 (DnsMonitor.new maxRecords) :=
  rep_of_restored (restored_new maxRecords) (Nat.zero_le _)

/-- A run with increasing timestamps is too short for the ids to wrap before its last message. -/
theorem noWrap_of_increasing (maxRecords : ℕ) {pre : List Capture} {last c : Capture}
    (hinc : (pre ++ [last, c]).Pairwise fun a b => a.ns < b.ns) :
    NoWrap (DnsMonitor.new maxRecords) pre := by
  have hlt : ((pre ++ [last]).map Capture.ns).Pairwise (· < ·) := by
    refine List.pairwise_map.mpr (hinc.sublist ?_)
    exact List.Sublist.append_left (by simp) pre
  have hsub : (pre ++ [last]).map Capture.ns ⊆ List.range c.ns := by
    intro n hn
    obtain ⟨a, ha, rfl⟩ := List.mem_map.mp hn
    rw [List.mem_range]
    have hsplit : pre ++ [last, c] = (pre ++ [last]) ++ [c] := by simp
    rw [hsplit] at hinc
    exact (List.pairwise_append.mp hinc).2.2 a ha c (List.mem_singleton_self c)
  have hnodup : ((pre ++ [last]).map Capture.ns).Nodup := hlt.imp fun h => h.ne
  have hlen := (List.subperm_of_subset hnodup hsub).length_le
  have hns : c.ns < 2 ^ 64 := c.header.timestampNs.toNat_lt
  have hcount := recordedCount_le (DnsMonitor.new maxRecords) pre
  rw [List.length_map, List.length_range, List.length_append, List.length_singleton] at hlen
  refine noWrap_of_count (rep_new maxRecords) ?_
  show 1 + _ < _
  omega

/-- The state before the last message of a run with increasing timestamps. -/
theorem core_waiting_of_increasing (maxRecords : ℕ) {pre : List Capture} {c : Capture}
    (hinc : (pre ++ [c]).Pairwise fun a b => a.ns < b.ns) :
    Core 0 (pre.foldl ingest (DnsMonitor.new maxRecords)) ∧
      ∃ now ≤ c.ns, Waiting now (pre.foldl ingest (DnsMonitor.new maxRecords)) := by
  rcases pre.eq_nil_or_concat with rfl | ⟨init, last, rfl⟩
  · exact ⟨(rep_new maxRecords).toCore, 0, Nat.zero_le _, waiting_new maxRecords 0⟩
  · rw [List.concat_eq_append] at hinc ⊢
    rw [List.append_assoc] at hinc
    have hw := noWrap_of_increasing maxRecords hinc
    have hrep := rep_run (rep_new maxRecords) hw
    have hle : (0 :: init.map Capture.ns ++ [last.ns]).Pairwise (· ≤ ·) := by
      refine List.pairwise_cons.mpr ⟨fun n _ => Nat.zero_le n, ?_⟩
      have hlt : (init ++ [last]).Pairwise fun a b => a.ns ≤ b.ns :=
        (hinc.sublist (List.Sublist.append_left (by simp) init)).imp fun h => h.le
      have := List.pairwise_map.mpr hlt
      rwa [List.map_append] at this
    have hwait := waiting_run (rep_new maxRecords) (waiting_new maxRecords 0) hw hle
    rw [List.foldl_append]
    refine ⟨core_ingest hrep last, last.ns, ?_, waiting_ingest hrep (le_refl _) hwait⟩
    have := (List.pairwise_append.mp hinc).2.1
    exact (List.rel_of_pairwise_cons this (List.mem_singleton_self c)).le

/-- **Along every run with increasing timestamps, the response to a waiting query is matched exactly
if it is not dropped as a duplicate** of the response matched before. -/
theorem matched_iff_not_suppressed (maxRecords : ℕ) (cs : List Capture)
    (hinc : cs.Pairwise fun a b => a.ns < b.ns) (pre post : List Capture) (c : Capture)
    (hcs : cs = pre ++ c :: post) (hresp : ¬ c.message.isQuery)
    (hdue : Due (DnsMonitor.new maxRecords) pre c) :
    Matched (pre.foldl ingest (DnsMonitor.new maxRecords)) c ↔
      suppressed (pre.foldl ingest (DnsMonitor.new maxRecords)) c = false := by
  subst hcs
  have hpre : (pre ++ [c]).Pairwise fun a b => a.ns < b.ns :=
    hinc.sublist (List.Sublist.append_left (List.cons_sublist_cons.mpr (List.nil_sublist post)) pre)
  obtain ⟨hcore, now, hnow, hwait⟩ := core_waiting_of_increasing maxRecords hpre
  obtain ⟨id, t, ht, hkey, hun, hage, -⟩ := hdue
  exact matched_iff hcore hwait hnow hresp ht hkey hun hage

/-! ### Two rounds of one query

Query at 0, answer at 490 ms, query again at 510 ms, answer at 600 ms: the second query is recorded,
the second answer is dropped. -/

def sampleKey : DnsMatchKey := (sampleCapture true 0).key

theorem sampleCapture_key (isQuery : Bool) (ns : UInt64) :
    (sampleCapture isQuery ns).key = sampleKey := by
  cases isQuery <;> rfl

/-- The record of the query at `ns`. -/
def sampleTracked (ns : UInt64) : TrackedQuery :=
  let c := sampleCapture true ns
  ⟨c.ns, sampleKey, queryRecord c.message c.timestampMs c.device⟩

def afterQuery : DnsMonitor where
  maxRecords := 2
  maxRecords_pos := by omega
  records := AList.insert 1 (sampleTracked 0) ∅
  order := [1]
  pending := AList.insert sampleKey [1] ∅
  recentQueries := AList.insert sampleKey 0 ∅
  recentResponses := ∅
  nextId := 2

def afterAnswer : DnsMonitor :=
  { afterQuery with
    records := afterQuery.records.insert 1 (answered (sampleTracked 0) (sampleCapture false 490000000))
    pending := afterQuery.pending.erase sampleKey
    recentResponses := AList.insert sampleKey 490000000 ∅ }

def afterSecond : DnsMonitor :=
  { afterAnswer with
    records := afterAnswer.records.insert 2 (sampleTracked 510000000)
    order := [1, 2]
    pending := afterAnswer.pending.insert sampleKey [2]
    recentQueries := afterAnswer.recentQueries.insert sampleKey 510000000
    nextId := 3 }

theorem ingest_sampleQuery : ingest (DnsMonitor.new 2) (sampleCapture true 0) = afterQuery := rfl

theorem ingest_sampleAnswer :
    ingest afterQuery (sampleCapture false 490000000) = afterAnswer := by
  have hns : (sampleCapture false 490000000).ns = 490000000 := rfl
  have hqueue : afterQuery.pending.lookup sampleKey = some [1] := AList.lookup_insert _
  have htake : takePending afterQuery sampleKey 490000000 =
      (some 1, { afterQuery with pending := afterQuery.pending.erase sampleKey }) := by
    unfold takePending
    rw [hqueue]
    rfl
  have hmatch : matchResponse afterQuery (sampleCapture false 490000000) = afterAnswer := by
    unfold matchResponse
    rw [sampleCapture_key, hns, htake]
    rfl
  rw [ingest_of_response (by decide) (by decide), hmatch]
  rfl

theorem ingest_sampleSecond :
    ingest afterAnswer (sampleCapture true 510000000) = afterSecond := by
  have hns : (sampleCapture true 510000000).ns = 510000000 := rfl
  have hseen : afterAnswer.recentQueries.lookup sampleKey = some 0 := AList.lookup_insert _
  have hdup : ¬ duplicate afterAnswer (sampleCapture true 510000000) := by
    show ¬ seenWithin _ _ (sampleCapture true 510000000).key _
    unfold seenWithin
    rw [sampleCapture_key, hseen, hns]
    decide
  have hqueue : afterAnswer.pending.lookup sampleKey = none := AList.lookup_erase _ _
  have hins : insertQuery afterAnswer (sampleCapture true 510000000) = afterSecond := by
    unfold insertQuery upsert
    rw [sampleCapture_key, hqueue]
    rfl
  have hlen : len afterSecond.recentQueries = 1 := by
    show len (AList.insert sampleKey _ (AList.insert sampleKey _ ∅)) = 1
    rw [len_insert, if_pos (AList.mem_insert _ |>.mpr (Or.inl rfl))]
    rfl
  have hrec : recordQuery afterAnswer (sampleCapture true 510000000) = afterSecond := by
    unfold recordQuery
    rw [hins]
    rfl
  rw [ingest_of_recorded ⟨rfl, hdup⟩, hrec]
  unfold pruneCaches pruneDedupeCache
  rw [hlen]
  rfl

/-- The two rounds up to the second answer. -/
def sampleRounds : List Capture :=
  [sampleCapture true 0, sampleCapture false 490000000, sampleCapture true 510000000]

theorem foldl_sampleRounds : sampleRounds.foldl ingest (DnsMonitor.new 2) = afterSecond := by
  show ingest (ingest (ingest (DnsMonitor.new 2) _) _) _ = _
  rw [ingest_sampleQuery, ingest_sampleAnswer, ingest_sampleSecond]

/-- The second query is due an answer at 600 ms: the one response matched before it came at 490 ms. -/
theorem due_sampleRounds :
    Due (DnsMonitor.new 2) sampleRounds (sampleCapture false 600000000) := by
  refine ⟨2, sampleTracked 510000000, ?_, (sampleCapture_key _ _).symm, ⟨rfl, rfl, rfl, rfl⟩,
    by decide, ?_⟩
  · rw [foldl_sampleRounds]
    exact AList.lookup_insert _
  · intro pre₁ c' pre₂ hpre _ hmatched
    have hin : c' ∈ sampleRounds := by rw [hpre]; simp
    have hresp := hmatched.1
    show c'.ns < 510000000
    unfold sampleRounds at hin
    rcases List.mem_cons.mp hin with rfl | hin
    · exact absurd rfl hresp
    rcases List.mem_cons.mp hin with rfl | hin
    · decide
    · rw [List.mem_singleton.mp hin] at hresp
      exact absurd rfl hresp

/-- **The answer to a new query can be dropped**: in the two rounds the second answer is not
matched. -/
theorem answer_suppressed :
    ¬ ∀ (maxRecords : ℕ) (cs : List Capture), (cs.Pairwise fun a b => a.ns < b.ns) →
      ∀ (pre post : List Capture) (c : Capture), cs = pre ++ c :: post → ¬ c.message.isQuery →
        Due (DnsMonitor.new maxRecords) pre c →
        Matched (pre.foldl ingest (DnsMonitor.new maxRecords)) c := by
  intro h
  have hm := h 2 (sampleRounds ++ [sampleCapture false 600000000]) (by decide) sampleRounds [] _ rfl
    (by decide) due_sampleRounds
  rw [foldl_sampleRounds] at hm
  refine not_matched_of_suppressed ?_ hm
  have hseen : afterSecond.recentResponses.lookup sampleKey = some 490000000 :=
    AList.lookup_insert _
  unfold suppressed seenWithin
  rw [sampleCapture_key, hseen]
  decide

/-- The first answer of the two rounds is matched. -/
theorem matched_iff_not_suppressed_sample :
    Matched afterQuery (sampleCapture false 490000000) := by
  have hdue : Due (DnsMonitor.new 2) [sampleCapture true 0] (sampleCapture false 490000000) := by
    refine ⟨1, sampleTracked 0, AList.lookup_insert _, (sampleCapture_key _ _).symm,
      ⟨rfl, rfl, rfl, rfl⟩, by decide, ?_⟩
    intro pre₁ c' pre₂ hpre _ hmatched
    have hin : c' ∈ [sampleCapture true 0] := by rw [hpre]; simp
    rw [List.mem_singleton.mp hin] at hmatched
    exact absurd rfl hmatched.1
  exact (matched_iff_not_suppressed 2 [sampleCapture true 0, sampleCapture false 490000000]
    (by decide) [sampleCapture true 0] [] _ rfl (by decide) hdue).mpr rfl

end BandixPlus.Dns.Suppression
