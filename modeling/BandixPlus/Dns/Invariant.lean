import BandixPlus.Dns.Monitor
import BandixPlus.Lib.Run

/-! # The DNS monitor: the representation invariant

`Rep r m`: what holds of the monitor after any run in which the ids do not wrap, `r` being the number
of records restored at the start.

* `rep_ingest`: one message keeps it, when the id of a recorded query does not wrap.
* `rep_start`: it holds after `DnsMonitor::new` and one `restoreRecords`.
* `monitor_representation`: what it says of the collections, in every state of every run. -/

namespace BandixPlus.Dns.Invariant

open BandixPlus.Lib.Maps BandixPlus.Lib.Run BandixPlus.Dns.Monitor

/-- A record with empty response fields. -/
def Unanswered (r : DnsQueryRecord) : Prop :=
  r.responseCode = none ∧ r.responseTimeMs = none ∧ r.responseIps = [] ∧ r.responseRecords = []

/-- A queue of pending ids: non-empty, increasing, each id naming an unanswered record of the key
that was not restored. -/
structure QueueOk (restored : ℕ) (records : HashMap ℕ TrackedQuery) (k : DnsMatchKey)
    (q : List ℕ) : Prop where
  ne_nil : q ≠ []
  sorted : q.Pairwise (· < ·)
  live : ∀ id ∈ q, restored < id ∧
    ∃ t, records.lookup id = some t ∧ t.matchKey = k ∧ Unanswered t.record

def QueuesOk (restored : ℕ) (records : HashMap ℕ TrackedQuery)
    (pending : HashMap DnsMatchKey (List ℕ)) : Prop :=
  ∀ k q, pending.lookup k = some q → QueueOk restored records k q

/-- `order` lists the keys of the records, increasing. -/
structure Ids (m : DnsMonitor) : Prop where
  sorted : m.order.Pairwise (· < ·)
  keys : ∀ id, id ∈ m.order ↔ id ∈ m.records

/-- The next id is above every id handed out. -/
structure Fresh (restored : ℕ) (m : DnsMonitor) : Prop where
  fresh : ∀ id ∈ m.order, id < m.nextId
  restored_lt : restored < m.nextId

/-- The records, their order and the pending queues fit together. -/
structure Core (restored : ℕ) (m : DnsMonitor) : Prop extends Ids m where
  queues : QueuesOk restored m.records m.pending

/-- **The representation invariant.** -/
structure Rep (restored : ℕ) (m : DnsMonitor) : Prop extends Core restored m, Fresh restored m where
  bounded : len m.records ≤ m.maxRecords
  queries : len m.recentQueries ≤ 2 * m.maxRecords
  responses : len m.recentResponses ≤ 2 * m.maxRecords

/-! ### Queues -/

section Queues
variable {r : ℕ} {records records' : HashMap ℕ TrackedQuery}
  {pending : HashMap DnsMatchKey (List ℕ)} {k : DnsMatchKey} {q q' : List ℕ}

theorem QueueOk.sublist (h : QueueOk r records k q) (hs : q'.Sublist q) (hne : q' ≠ []) :
    QueueOk r records k q' :=
  ⟨hne, h.sorted.sublist hs, fun id hid => h.live id (hs.subset hid)⟩

theorem QueueOk.congr (h : QueueOk r records k q)
    (he : ∀ id ∈ q, records'.lookup id = records.lookup id) : QueueOk r records' k q :=
  ⟨h.ne_nil, h.sorted, fun id hid => by rw [he id hid]; exact h.live id hid⟩

theorem lookup_storeQueue (k' : DnsMatchKey) :
    (storeQueue pending k q).lookup k' =
      if k' = k then (if q = [] then none else some q) else pending.lookup k' := by
  unfold storeQueue
  split_ifs with hq hk hk
  · rw [hk, AList.lookup_erase]
  · rw [AList.lookup_erase_ne hk]
  · rw [hk, AList.lookup_insert]
  · rw [AList.lookup_insert_ne hk]

theorem storeQueue_cases {k' : DnsMatchKey} (h : (storeQueue pending k q).lookup k' = some q') :
    (k' = k ∧ q ≠ [] ∧ q' = q) ∨ (k' ≠ k ∧ pending.lookup k' = some q') := by
  rw [lookup_storeQueue] at h
  split_ifs at h with hk hnil
  · exact Or.inl ⟨hk, hnil, (Option.some.inj h).symm⟩
  · exact Or.inr ⟨hk, h⟩

theorem QueuesOk.storeQueue (h : QueuesOk r records pending)
    (hq : q ≠ [] → QueueOk r records k q) : QueuesOk r records (storeQueue pending k q) := by
  intro k' q' h'
  rcases storeQueue_cases h' with ⟨rfl, hnil, rfl⟩ | ⟨-, hold⟩
  · exact hq hnil
  · exact h k' q' hold

/-- The record of an id in no queue can change or go. -/
theorem QueuesOk.frame (h : QueuesOk r records pending) {id : ℕ}
    (hother : ∀ i, i ≠ id → records'.lookup i = records.lookup i)
    (hid : ∀ k q, pending.lookup k = some q → id ∉ q) : QueuesOk r records' pending := by
  intro k q hq
  refine (h k q hq).congr fun i hi => hother i ?_
  rintro rfl
  exact hid k q hq hi

/-- Two queues share no id. -/
theorem QueuesOk.disjoint (h : QueuesOk r records pending) {k₁ k₂ : DnsMatchKey} {q₁ q₂ : List ℕ}
    (h₁ : pending.lookup k₁ = some q₁) (h₂ : pending.lookup k₂ = some q₂) {id : ℕ}
    (hid₁ : id ∈ q₁) (hid₂ : id ∈ q₂) : k₁ = k₂ := by
  obtain ⟨-, t₁, ht₁, hk₁, -⟩ := (h _ _ h₁).live id hid₁
  obtain ⟨-, t₂, ht₂, hk₂, -⟩ := (h _ _ h₂).live id hid₂
  rw [ht₁, Option.some.injEq] at ht₂
  rw [← hk₁, ← hk₂, ht₂]

end Queues

/-! ### Ids -/

theorem followingId_eq {id : ℕ} (h : id + 1 < 2 ^ 64) : followingId id = id + 1 := by
  unfold followingId
  rw [Nat.mod_eq_of_lt h]
  omega

theorem Rep.lt_nextId {r : ℕ} {m : DnsMonitor} (h : Rep r m) {id : ℕ} (hid : id ∈ m.records) :
    id < m.nextId := h.fresh id ((h.keys id).mpr hid)

theorem Rep.nextId_notMem {r : ℕ} {m : DnsMonitor} (h : Rep r m) : m.nextId ∉ m.records :=
  fun hm => absurd (h.lt_nextId hm) (lt_irrefl _)

theorem Ids.len_records {m : DnsMonitor} (h : Ids m) : len m.records = m.order.length := by
  have hnodup : m.order.Nodup := h.sorted.imp fun hlt => hlt.ne
  have hperm : m.order.Perm m.records.keys :=
    (List.perm_ext_iff_of_nodup hnodup m.records.nodupKeys).mpr fun id => by
      rw [h.keys]; exact AList.mem_keys
  rw [len_eq_keys, hperm.length_eq]

/-- A record is added under an id above all others, at the end of the order. -/
theorem Ids.append {m m' : DnsMonitor} (h : Ids m) {id : ℕ} (hlt : ∀ i ∈ m.order, i < id)
    {t : TrackedQuery} (hrec : m'.records = m.records.insert id t)
    (hord : m'.order = m.order ++ [id]) : Ids m' := by
  refine ⟨?_, fun i => ?_⟩
  · rw [hord]
    refine List.pairwise_append.mpr ⟨h.sorted, List.pairwise_singleton _ _, fun a ha b hb => ?_⟩
    rw [List.mem_singleton.mp hb]
    exact hlt a ha
  · rw [hord, hrec, List.mem_append, List.mem_singleton, AList.mem_insert, h.keys, or_comm]

/-- The next id is used, and the one after it does not wrap. -/
theorem Fresh.append {r : ℕ} {m m' : DnsMonitor} (h : Fresh r m) (hw : m.nextId + 1 < 2 ^ 64)
    (hord : ∀ id ∈ m'.order, id ∈ m.order ∨ id = m.nextId)
    (hnext : m'.nextId = followingId m.nextId) : Fresh r m' := by
  rw [followingId_eq hw] at hnext
  refine ⟨fun id hid => ?_, ?_⟩
  · rcases hord id hid with hid | rfl
    · have := h.fresh id hid
      omega
    · omega
  · have := h.restored_lt
    omega

/-- The oldest record is dropped. -/
theorem Ids.dropOldest {m m' : DnsMonitor} (h : Ids m) {id : ℕ} {rest : List ℕ}
    (hm : m.order = id :: rest) (hrec : m'.records = m.records.erase id) (hord : m'.order = rest) :
    Ids m' := by
  have hs := h.sorted
  rw [hm] at hs
  have hlt : ∀ i ∈ rest, id < i := fun i hi => List.rel_of_pairwise_cons hs hi
  refine ⟨by rw [hord]; exact hs.of_cons, fun i => ?_⟩
  rw [hord, hrec, AList.mem_erase, ← h.keys, hm, List.mem_cons]
  constructor
  · intro hi
    exact ⟨(hlt i hi).ne', Or.inr hi⟩
  · rintro ⟨hne, rfl | hi⟩
    · exact absurd rfl hne
    · exact hi

/-- The records keep their ids. -/
theorem Ids.congr {m m' : DnsMonitor} (h : Ids m) (hrec : ∀ id, id ∈ m'.records ↔ id ∈ m.records)
    (hord : m'.order = m.order) : Ids m' :=
  ⟨by rw [hord]; exact h.sorted, fun id => by rw [hord, hrec]; exact h.keys id⟩

/-! ### Queries -/

theorem core_insertQuery {r : ℕ} {m : DnsMonitor} (h : Rep r m) (c : Capture) :
    Core r (insertQuery m c) := by
  have hnot := h.nextId_notMem
  refine ⟨h.toIds.append h.fresh rfl rfl, fun k q hq => ?_⟩
  · have hold : ∀ k q, m.pending.lookup k = some q → QueueOk r (insertQuery m c).records k q := by
      intro k q hq
      refine (h.queues k q hq).congr fun id hid => AList.lookup_insert_ne ?_
      rintro rfl
      obtain ⟨-, t, ht, -⟩ := (h.queues k q hq).live _ hid
      exact hnot (mem_iff_lookup.mpr ⟨t, ht⟩)
    have hnew : (insertQuery m c).records.lookup m.nextId =
        some ⟨c.ns, c.key, queryRecord c.message c.timestampMs c.device⟩ := AList.lookup_insert _
    have hq' : (upsert c.key [] (· ++ [m.nextId]) m.pending).lookup k = some q := hq
    rw [lookup_upsert_eq] at hq'
    split_ifs at hq' with hk
    · -- the queue of the query's own key: its old ids, all below the next id, then the new one
      subst hk
      have hlast : ∀ id ∈ (m.pending.lookup c.key).getD [], id < m.nextId ∧
          (r < id ∧ ∃ t, (insertQuery m c).records.lookup id = some t ∧ t.matchKey = c.key ∧
            Unanswered t.record) := by
        intro id hid
        cases hp : m.pending.lookup c.key with
        | none => rw [hp] at hid; simp at hid
        | some q₀ =>
          rw [hp] at hid
          obtain ⟨-, t, ht, -⟩ := (h.queues _ _ hp).live id hid
          exact ⟨h.lt_nextId (mem_iff_lookup.mpr ⟨t, ht⟩), (hold _ _ hp).live id hid⟩
      have hsort : ((m.pending.lookup c.key).getD []).Pairwise (· < ·) := by
        cases hp : m.pending.lookup c.key with
        | none => simp
        | some q₀ => exact (h.queues _ _ hp).sorted
      rw [← Option.some.inj hq']
      refine ⟨by simp, ?_, fun id hid => ?_⟩
      · refine List.pairwise_append.mpr ⟨hsort, List.pairwise_singleton _ _, fun a ha b hb => ?_⟩
        rw [List.mem_singleton.mp hb]
        exact (hlast a ha).1
      · rcases List.mem_append.mp hid with hid | hid
        · exact (hlast id hid).2
        · rw [List.mem_singleton.mp hid]
          exact ⟨h.restored_lt, _, hnew, rfl, rfl, rfl, rfl, rfl⟩
    · exact hold k q hq'

/-! ### Eviction -/

theorem evictOldest_maxRecords (m : DnsMonitor) : (evictOldest m).maxRecords = m.maxRecords := by
  unfold evictOldest
  split
  · rfl
  · dsimp only
    split
    · rfl
    · split
      · split <;> rfl
      · rfl

/-- Eviction takes the oldest record and its id out of every collection, and nothing else. -/
theorem evictOldest_spec {r : ℕ} {m : DnsMonitor} (h : Core r m) {id : ℕ} {rest : List ℕ}
    (hm : m.order = id :: rest) :
    Core r (evictOldest m) ∧ (evictOldest m).records = m.records.erase id ∧
      (evictOldest m).recentQueries = m.recentQueries ∧
      (evictOldest m).recentResponses = m.recentResponses ∧ (evictOldest m).nextId = m.nextId := by
  have hmem : id ∈ m.records := (h.keys id).mp (by rw [hm]; exact List.mem_cons_self)
  obtain ⟨query, hquery⟩ := mem_iff_lookup.mp hmem
  have hother : ∀ k q, m.pending.lookup k = some q → k ≠ query.matchKey → id ∉ q := by
    intro k q hq hk hid
    obtain ⟨-, t, ht, htk, -⟩ := (h.queues k q hq).live id hid
    rw [hquery, Option.some.injEq] at ht
    exact hk (by rw [← htk, ht])
  have hcore : ∀ pending, QueuesOk r (m.records.erase id) pending →
      Core r { m with order := rest, records := m.records.erase id, pending } := fun pending hp =>
    ⟨h.toIds.dropOldest hm rfl rfl, hp⟩
  unfold evictOldest
  rw [hm]
  dsimp only
  rw [hquery]
  dsimp only
  split
  · next hun =>
    split
    · next hnone =>
      refine ⟨hcore _ (h.queues.frame (fun _ => AList.lookup_erase_ne) fun k q hq => hother k q hq ?_),
        rfl, rfl, rfl, rfl⟩
      rintro rfl
      rw [hnone] at hq; cases hq
    · next queue hsome =>
      -- the queue without the evicted id, whether the id was its front or not
      have hsub : (if queue.head? = some id then queue.tail else queue.filter (· ≠ id)).Sublist
          queue := by
        split_ifs
        · exact List.tail_sublist _
        · exact List.filter_sublist
      have hnot : id ∉ (if queue.head? = some id then queue.tail else queue.filter (· ≠ id)) := by
        split_ifs with hhead
        · have hs := (h.queues _ _ hsome).sorted
          cases queue with
          | nil => simp
          | cons a as =>
            rw [List.head?_cons, Option.some.injEq] at hhead
            subst hhead
            intro hin
            exact absurd (List.rel_of_pairwise_cons hs hin) (lt_irrefl _)
        · simp
      refine ⟨hcore _ (QueuesOk.frame ?_ (fun _ => AList.lookup_erase_ne) fun k q hq => ?_),
        rfl, rfl, rfl, rfl⟩
      · exact h.queues.storeQueue fun hne => (h.queues _ _ hsome).sublist hsub hne
      · rcases storeQueue_cases hq with ⟨-, -, rfl⟩ | ⟨hk, hold⟩
        · exact hnot
        · exact hother k q hold hk
  · next hans =>
    refine ⟨hcore _ (h.queues.frame (fun _ => AList.lookup_erase_ne) fun k q hq hid => ?_),
      rfl, rfl, rfl, rfl⟩
    obtain ⟨-, t, ht, -, hun⟩ := (h.queues k q hq).live id hid
    rw [hquery, Option.some.injEq] at ht
    rw [ht, hun.2.1] at hans
    exact hans rfl

theorem evictExcess_of_le {m : DnsMonitor} (h : len m.records ≤ m.maxRecords) (fuel : ℕ) :
    evictExcess fuel m = m := by
  cases fuel with
  | zero => rfl
  | succ n =>
    unfold evictExcess
    rw [if_neg (by omega)]

/-- With at most one record too many, one round of eviction is enough. -/
theorem evictExcess_of_le_succ {r : ℕ} {m : DnsMonitor} (h : Core r m)
    (hle : len m.records ≤ m.maxRecords + 1) {id : ℕ} {rest : List ℕ} (hm : m.order = id :: rest) :
    evictExcess m.order.length m =
      if m.maxRecords < len m.records then evictOldest m else m := by
  rw [hm, List.length_cons]
  unfold evictExcess
  split_ifs with hlt
  · refine evictExcess_of_le ?_ _
    obtain ⟨-, hrec, -⟩ := evictOldest_spec h hm
    have hmem : id ∈ m.records := (h.keys id).mp (by rw [hm]; exact List.mem_cons_self)
    rw [hrec, len_erase, if_pos hmem, evictOldest_maxRecords]
    omega
  · rfl

theorem len_insertQuery {r : ℕ} {m : DnsMonitor} (h : Rep r m) (c : Capture) :
    len (insertQuery m c).records = len m.records + 1 := by
  show len (m.records.insert _ _) = _
  rw [len_insert, if_neg h.nextId_notMem]

/-- A query that is recorded evicts the oldest record, if there is one too many, and no other. -/
theorem recordQuery_cases {r : ℕ} {m : DnsMonitor} (h : Rep r m) (c : Capture) :
    (recordQuery m c = insertQuery m c ∧ len (insertQuery m c).records ≤ m.maxRecords) ∨
      (recordQuery m c = evictOldest (insertQuery m c) ∧
        ∃ id rest, (insertQuery m c).order = id :: rest) := by
  have hcore := core_insertQuery h c
  have hlen := len_insertQuery h c
  have hmax : (insertQuery m c).maxRecords = m.maxRecords := rfl
  have hbound := h.bounded
  obtain ⟨id, rest, hm⟩ : ∃ id rest, (insertQuery m c).order = id :: rest :=
    List.exists_cons_of_ne_nil (by simp [insertQuery])
  have heq : recordQuery m c = _ := evictExcess_of_le_succ hcore (by omega) hm
  split_ifs at heq with hlt
  · exact Or.inr ⟨heq, id, rest, hm⟩
  · exact Or.inl ⟨heq, by omega⟩

/-- A query that is recorded: the collections fit together again, before the caches are pruned. -/
theorem recordQuery_spec {r : ℕ} {m : DnsMonitor} (h : Rep r m) (c : Capture) :
    Core r (recordQuery m c) ∧ len (recordQuery m c).records ≤ m.maxRecords ∧
      (recordQuery m c).maxRecords = m.maxRecords ∧
      (recordQuery m c).nextId = followingId m.nextId ∧
      (recordQuery m c).recentResponses = m.recentResponses ∧
      ∀ id ∈ (recordQuery m c).order, id ∈ m.order ∨ id = m.nextId := by
  have hcore := core_insertQuery h c
  have hlen := len_insertQuery h c
  have hbound := h.bounded
  have hord : ∀ id ∈ (insertQuery m c).order, id ∈ m.order ∨ id = m.nextId := fun id hid =>
    (List.mem_append.mp hid).imp_right List.mem_singleton.mp
  rcases recordQuery_cases h c with ⟨heq, hle⟩ | ⟨heq, id, rest, hm⟩
  · rw [heq]
    exact ⟨hcore, hle, rfl, rfl, rfl, hord⟩
  · obtain ⟨hcore', hrec, -, hr, hn⟩ := evictOldest_spec hcore hm
    have hmem : id ∈ (insertQuery m c).records :=
      (hcore.keys id).mp (by rw [hm]; exact List.mem_cons_self)
    rw [heq]
    refine ⟨hcore', ?_, evictOldest_maxRecords _, hn, hr, fun i hi => hord i ?_⟩
    · rw [hrec, len_erase, if_pos hmem]
      omega
    · rw [hcore'.keys, hrec, AList.mem_erase] at hi
      exact (hcore.keys i).mpr hi.2

/-- Its records: the new one, and some of those before it. -/
theorem lookup_recordQuery {r : ℕ} {m : DnsMonitor} (h : Rep r m) {c : Capture} {id : ℕ} {t : TrackedQuery}
    (ht : (recordQuery m c).records.lookup id = some t) :
    (id = m.nextId ∧ t = ⟨c.ns, c.key, queryRecord c.message c.timestampMs c.device⟩) ∨
      (id ≠ m.nextId ∧ m.records.lookup id = some t) := by
  have hins : (insertQuery m c).records.lookup id = some t := by
    rcases recordQuery_cases h c with ⟨heq, -⟩ | ⟨heq, i, rest, hm⟩
    · rw [heq] at ht; exact ht
    · obtain ⟨-, hrec, -⟩ := evictOldest_spec (core_insertQuery h c) hm
      rw [heq, hrec, lookup_erase_eq] at ht
      split_ifs at ht
      exact ht
  have hins' : (m.records.insert m.nextId _).lookup id = some t := hins
  rw [lookup_insert_eq] at hins'
  split_ifs at hins' with hid
  · exact Or.inl ⟨hid, (Option.some.inj hins').symm⟩
  · exact Or.inr ⟨hid, hins'⟩

/-! ### Responses -/

theorem takePending_snd (m : DnsMonitor) (k : DnsMatchKey) (now : ℕ) :
    (takePending m k now).2 = { m with pending := (takePending m k now).2.pending } := by
  unfold takePending
  split <;> rfl

/-- What is taken for a key: the front of its queue without the expired ids; it is in no queue
afterwards. -/
theorem takePending_spec {r : ℕ} {m : DnsMonitor} (h : Core r m) (k : DnsMatchKey) (now : ℕ) :
    Core r (takePending m k now).2 ∧
      ∀ id, (takePending m k now).1 = some id →
        (∃ queue, m.pending.lookup k = some queue ∧
          (queue.dropWhile (expired m now)).head? = some id) ∧
        ∀ k' q, (takePending m k now).2.pending.lookup k' = some q → id ∉ q := by
  unfold takePending
  split
  · next hnone => exact ⟨h, fun id hid => by cases hid⟩
  · next queue hsome =>
    have hok := h.queues _ _ hsome
    have hsub : (queue.dropWhile (expired m now)).Sublist queue := List.dropWhile_sublist _
    refine ⟨⟨h.toIds.congr (fun _ => Iff.rfl) rfl, ?_⟩, fun id hid => ?_⟩
    · exact h.queues.storeQueue fun hne => hok.sublist ((List.tail_sublist _).trans hsub) hne
    · refine ⟨⟨queue, hsome, hid⟩, fun k' q hq hin => ?_⟩
      obtain ⟨rest, hlive⟩ : ∃ rest, queue.dropWhile (expired m now) = id :: rest := by
        exact List.head?_eq_some_iff.mp hid
      rcases storeQueue_cases hq with ⟨-, -, rfl⟩ | ⟨hk, hold⟩
      · have hs := hok.sorted.sublist hsub
        rw [hlive] at hs hin
        exact absurd (List.rel_of_pairwise_cons hs hin) (lt_irrefl _)
      · refine hk (h.queues.disjoint hold hsome hin (hsub.subset ?_))
        rw [hlive]
        exact List.mem_cons_self

theorem core_matchResponse {r : ℕ} {m : DnsMonitor} (h : Core r m) (c : Capture) :
    Core r (matchResponse m c) := by
  obtain ⟨hcore, htaken⟩ := takePending_spec h c.key c.ns
  unfold matchResponse
  dsimp only
  split
  · exact hcore
  · next id hid =>
    split
    · exact hcore
    · next query hquery =>
      obtain ⟨-, hnot⟩ := htaken id hid
      refine ⟨hcore.toIds.congr (fun i => ?_) rfl, ?_⟩
      · show i ∈ AList.insert id _ _ ↔ _
        rw [AList.mem_insert, or_iff_right_iff_imp]
        rintro rfl
        exact mem_iff_lookup.mpr ⟨query, hquery⟩
      · exact hcore.queues.frame (fun _ => AList.lookup_insert_ne) hnot

/-- A response adds at most one entry to the responses seen, and touches no other cache. -/
theorem matchResponse_frame (m : DnsMonitor) (c : Capture) :
    (matchResponse m c).maxRecords = m.maxRecords ∧ (matchResponse m c).nextId = m.nextId ∧
      (matchResponse m c).order = m.order ∧
      (matchResponse m c).recentQueries = m.recentQueries := by
  have h := takePending_snd m c.key c.ns
  unfold matchResponse
  dsimp only
  split
  · rw [h]; exact ⟨rfl, rfl, rfl, rfl⟩
  · split
    · rw [h]; exact ⟨rfl, rfl, rfl, rfl⟩
    · dsimp only
      rw [h]
      exact ⟨rfl, rfl, rfl, rfl⟩

/-! ### The caches -/

theorem len_pruneDedupeCache_le (o : IterOrder) (cache : HashMap DnsMatchKey ℕ)
    (now window maxEntries : ℕ) :
    len (pruneDedupeCache o cache now window maxEntries) ≤ maxEntries := by
  unfold pruneDedupeCache
  split_ifs with h
  · exact h
  · dsimp only
    split_ifs with h'
    · exact len_keepFirst_le _ _ _
    · omega

theorem dedupeLimit_le (m : DnsMonitor) : dedupeLimit m ≤ 2 * m.maxRecords := by
  have := m.maxRecords_pos
  unfold dedupeLimit
  omega

theorem core_pruneCaches {r : ℕ} {m : DnsMonitor} (h : Core r m) (c : Capture) :
    Core r (pruneCaches m c) :=
  ⟨h.toIds.congr (fun _ => Iff.rfl) rfl, h.queues⟩

/-- After the caches are pruned the whole invariant holds. -/
theorem rep_pruneCaches {r : ℕ} {m : DnsMonitor} (h : Core r m) (hf : Fresh r m)
    (hlen : len m.records ≤ m.maxRecords) (c : Capture) : Rep r (pruneCaches m c) :=
  ⟨core_pruneCaches h c, ⟨hf.fresh, hf.restored_lt⟩, hlen,
    (len_pruneDedupeCache_le _ _ _ _ _).trans (dedupeLimit_le m),
    (len_pruneDedupeCache_le _ _ _ _ _).trans (dedupeLimit_le m)⟩

/-! ### One message -/

/-- The message is a query that gets a record. -/
def Recorded (m : DnsMonitor) (c : Capture) : Prop := c.message.isQuery ∧ ¬ duplicate m c

instance (m : DnsMonitor) (c : Capture) : Decidable (Recorded m c) := by
  unfold Recorded; infer_instance

theorem ingest_of_duplicate {m : DnsMonitor} {c : Capture} (h : duplicate m c) :
    ingest m c = m := by
  unfold ingest; rw [if_pos h]

theorem ingest_of_recorded {m : DnsMonitor} {c : Capture} (h : Recorded m c) :
    ingest m c = pruneCaches (recordQuery m c) c := by
  unfold ingest; rw [if_neg h.2, if_pos h.1]

theorem ingest_of_response {m : DnsMonitor} {c : Capture} (h : ¬ duplicate m c)
    (hr : ¬ c.message.isQuery) : ingest m c = pruneCaches (matchResponse m c) c := by
  unfold ingest; rw [if_neg h, if_neg hr]

/-- What a message is to the monitor. -/
theorem ingest_cases (m : DnsMonitor) (c : Capture) :
    duplicate m c ∨ Recorded m c ∨ (¬ duplicate m c ∧ ¬ c.message.isQuery) := by
  unfold Recorded
  by_cases h : duplicate m c
  · exact Or.inl h
  · by_cases hq : c.message.isQuery
    · exact Or.inr (Or.inl ⟨hq, h⟩)
    · exact Or.inr (Or.inr ⟨h, hq⟩)

/-- The collections fit together after any message, even if the next id wraps. -/
theorem core_ingest {r : ℕ} {m : DnsMonitor} (h : Rep r m) (c : Capture) : Core r (ingest m c) := by
  rcases ingest_cases m c with hdup | hrec | ⟨hdup, hresp⟩
  · rw [ingest_of_duplicate hdup]; exact h.toCore
  · rw [ingest_of_recorded hrec]
    exact core_pruneCaches (recordQuery_spec h c).1 c
  · rw [ingest_of_response hdup hresp]
    exact core_pruneCaches (core_matchResponse h.toCore c) c

/-- **One message keeps the invariant**, when the id of a recorded query does not wrap. -/
theorem rep_ingest {r : ℕ} {m : DnsMonitor} (h : Rep r m) (c : Capture)
    (hw : Recorded m c → m.nextId + 1 < 2 ^ 64) : Rep r (ingest m c) := by
  rcases ingest_cases m c with hdup | hrec | ⟨hdup, hresp⟩
  · rw [ingest_of_duplicate hdup]; exact h
  · obtain ⟨hcore, hlen, hmax, hnext, -, hord⟩ := recordQuery_spec h c
    rw [ingest_of_recorded hrec]
    exact rep_pruneCaches hcore (h.toFresh.append (hw hrec) hord hnext) (by rw [hmax]; exact hlen) c
  · have hcore := core_matchResponse h.toCore c
    obtain ⟨hmax, hnext, hord, -⟩ := matchResponse_frame m c
    rw [ingest_of_response hdup hresp]
    refine rep_pruneCaches hcore ⟨?_, ?_⟩ ?_ c
    · rw [hord, hnext]; exact h.fresh
    · rw [hnext]; exact h.restored_lt
    · rw [hmax, hcore.toIds.len_records, hord, ← h.toIds.len_records]
      exact h.bounded

theorem ingest_maxRecords {r : ℕ} {m : DnsMonitor} (h : Rep r m) (c : Capture) :
    (ingest m c).maxRecords = m.maxRecords := by
  rcases ingest_cases m c with hdup | hrec | ⟨hdup, hresp⟩
  · rw [ingest_of_duplicate hdup]
  · rw [ingest_of_recorded hrec]
    exact (recordQuery_spec h c).2.2.1
  · rw [ingest_of_response hdup hresp]
    exact (matchResponse_frame m c).1

/-- A recorded query takes one id, any other message none. -/
theorem ingest_nextId {r : ℕ} {m : DnsMonitor} (h : Rep r m) (c : Capture) :
    (ingest m c).nextId = if Recorded m c then followingId m.nextId else m.nextId := by
  rcases ingest_cases m c with hdup | hrec | ⟨hdup, hresp⟩
  · rw [ingest_of_duplicate hdup, if_neg fun hrec => hrec.2 hdup]
  · rw [ingest_of_recorded hrec, if_pos hrec]
    exact (recordQuery_spec h c).2.2.2.1
  · rw [ingest_of_response hdup hresp, if_neg fun hrec => hresp hrec.1]
    exact (matchResponse_frame m c).2.1

/-! ### Runs -/

/-- No recorded query of the run is given the last id. -/
abbrev NoWrap (m : DnsMonitor) (cs : List Capture) : Prop :=
  Along ingest (fun m c => Recorded m c → m.nextId + 1 < 2 ^ 64) m cs

theorem rep_run {r : ℕ} {m : DnsMonitor} (h : Rep r m) {cs : List Capture} (hw : NoWrap m cs) :
    Rep r (cs.foldl ingest m) :=
  Along.invariant (I := Rep r) (fun _ c hr hc => rep_ingest hr c hc) hw h

/-- The number of queries of the run that get a record. -/
def recordedCount : DnsMonitor → List Capture → ℕ
  | _, [] => 0
  | m, c :: cs => (if Recorded m c then 1 else 0) + recordedCount (ingest m c) cs

/-- With enough ids left for the recorded queries, none wraps. -/
theorem noWrap_of_count {r : ℕ} {m : DnsMonitor} (h : Rep r m) {cs : List Capture}
    (hc : m.nextId + recordedCount m cs < 2 ^ 64) : NoWrap m cs := by
  induction cs generalizing m with
  | nil => trivial
  | cons c cs ih =>
    have hc' : m.nextId + ((if Recorded m c then 1 else 0) + recordedCount (ingest m c) cs)
        < 2 ^ 64 := hc
    have hstep : Recorded m c → m.nextId + 1 < 2 ^ 64 := by
      intro hrec
      rw [if_pos hrec] at hc'
      omega
    refine ⟨hstep, ih (rep_ingest h c hstep) ?_⟩
    rw [ingest_nextId h c]
    split_ifs at hc' ⊢ with hrec
    · rw [followingId_eq (hstep hrec)]; omega
    · omega

/-! ### The restored records -/

/-- A monitor that has restored `n` records and ingested nothing. -/
structure Restored (n : ℕ) (m : DnsMonitor) : Prop extends Ids m, Fresh n m where
  next : m.nextId = n + 1
  count : len m.records = n
  answered : ∀ id t, m.records.lookup id = some t → ¬ Unanswered t.record
  pending : m.pending = ∅
  queries : m.recentQueries = ∅
  responses : m.recentResponses = ∅

theorem restored_new (maxRecords : ℕ) : Restored 0 (DnsMonitor.new maxRecords) :=
  ⟨⟨List.Pairwise.nil, fun id => by simp [DnsMonitor.new]⟩,
    ⟨fun id hid => absurd hid List.not_mem_nil, Nat.one_pos⟩, rfl, rfl,
    fun id t ht => absurd ht (Option.some_ne_none t).symm, rfl, rfl, rfl⟩

theorem not_unanswered_restoredRecord (record : DnsQueryRecord) :
    ¬ Unanswered (restoredRecord record) := by
  unfold restoredRecord
  split_ifs with h
  · rintro ⟨hcode, -⟩
    cases hcode
  · rintro ⟨hcode, htime, -⟩
    rw [hcode, htime] at h
    exact h rfl

theorem restored_restoreRecord {n : ℕ} {m : DnsMonitor} (h : Restored n m)
    (hn : n + 2 < 2 ^ 64) (record : DnsQueryRecord) :
    Restored (n + 1) (restoreRecord m record) := by
  have hw : m.nextId + 1 < 2 ^ 64 := by rw [h.next]; exact hn
  have hnext : (restoreRecord m record).nextId = n + 2 := by
    show followingId m.nextId = _
    rw [followingId_eq hw, h.next]
  have hfresh : Fresh n (restoreRecord m record) := h.toFresh.append hw
    (fun id hid => (List.mem_append.mp hid).imp_right List.mem_singleton.mp) rfl
  have hnot : m.nextId ∉ m.records := fun hm =>
    absurd (h.fresh _ ((h.keys _).mpr hm)) (lt_irrefl _)
  refine ⟨h.toIds.append h.fresh rfl rfl, ⟨hfresh.fresh, by omega⟩, hnext, ?_, fun id t ht => ?_,
    h.pending, h.queries, h.responses⟩
  · show len (m.records.insert _ _) = _
    rw [len_insert, if_neg hnot, h.count]
  · have ht' : (m.records.insert _ _).lookup id = some t := ht
    rw [lookup_insert_eq] at ht'
    split_ifs at ht'
    · rw [← Option.some.inj ht']
      exact not_unanswered_restoredRecord record
    · exact h.answered id t ht'

theorem restored_foldl {n : ℕ} {m : DnsMonitor} (h : Restored n m) (records : List DnsQueryRecord)
    (hn : n + records.length + 1 < 2 ^ 64) :
    Restored (n + records.length) (records.foldl restoreRecord m) := by
  induction records generalizing n m with
  | nil => exact h
  | cons record records ih =>
    rw [List.length_cons] at hn ⊢
    have := ih (restored_restoreRecord h (by omega) record) (by omega)
    rwa [show n + 1 + records.length = n + (records.length + 1) by omega] at this

theorem foldl_restoreRecord_maxRecords (records : List DnsQueryRecord) (m : DnsMonitor) :
    (records.foldl restoreRecord m).maxRecords = m.maxRecords := by
  induction records generalizing m with
  | nil => rfl
  | cons record records ih => exact (ih _).trans rfl

/-- The monitor of a fresh start: `new`, then the records of an earlier run. -/
def start (maxRecords : ℕ) (restored : List DnsQueryRecord) : DnsMonitor :=
  restoreRecords (DnsMonitor.new maxRecords) restored

/-- The records of an earlier run that are kept. -/
def keptRecords (maxRecords : ℕ) (restored : List DnsQueryRecord) : List DnsQueryRecord :=
  restored.rtake (max maxRecords 1)

theorem start_maxRecords (maxRecords : ℕ) (restored : List DnsQueryRecord) :
    (start maxRecords restored).maxRecords = max maxRecords 1 :=
  foldl_restoreRecord_maxRecords _ _

theorem restored_start (maxRecords : ℕ) (restored : List DnsQueryRecord)
    (hn : (keptRecords maxRecords restored).length + 1 < 2 ^ 64) :
    Restored (keptRecords maxRecords restored).length (start maxRecords restored) := by
  have h := restored_foldl (restored_new maxRecords) (keptRecords maxRecords restored) (by omega)
  rwa [Nat.zero_add] at h

theorem rep_of_restored {n : ℕ} {m : DnsMonitor} (h : Restored n m) (hle : n ≤ m.maxRecords) :
    Rep n m := by
  refine ⟨⟨h.toIds, fun k q hq => ?_⟩, h.toFresh, ?_, ?_, ?_⟩
  · rw [h.pending] at hq
    cases hq
  · rw [h.count]; exact hle
  · rw [h.queries]; exact Nat.zero_le _
  · rw [h.responses]; exact Nat.zero_le _

theorem rep_start (maxRecords : ℕ) (restored : List DnsQueryRecord)
    (hn : (keptRecords maxRecords restored).length + 1 < 2 ^ 64) :
    Rep (keptRecords maxRecords restored).length (start maxRecords restored) := by
  refine rep_of_restored (restored_start _ _ hn) ?_
  rw [start_maxRecords]
  unfold keptRecords List.rtake
  rw [List.length_drop]
  omega

/-- **The collections of the monitor fit together in every state of every run** from a fresh start,
while the ids do not wrap. -/
theorem monitor_representation (maxRecords : ℕ) (restored : List DnsQueryRecord)
    (cs : List Capture)
    (hids : (keptRecords maxRecords restored).length
      + recordedCount (start maxRecords restored) cs < 2 ^ 64 - 1) :
    let m := cs.foldl ingest (start maxRecords restored)
    m.maxRecords = max maxRecords 1 ∧
    m.order.Pairwise (· < ·) ∧ (∀ id, id ∈ m.order ↔ id ∈ m.records) ∧
    len m.records ≤ m.maxRecords ∧
    (∀ k q, m.pending.lookup k = some q → q ≠ [] ∧ q.Pairwise (· < ·) ∧
      ∀ id ∈ q, q.count id = 1 ∧
        (∀ k' q', m.pending.lookup k' = some q' → id ∈ q' → k' = k) ∧
        (∃ t, m.records.lookup id = some t ∧ t.matchKey = k ∧ Unanswered t.record) ∧
        id ∉ (start maxRecords restored).records) ∧
    len m.recentQueries ≤ 2 * m.maxRecords ∧ len m.recentResponses ≤ 2 * m.maxRecords := by
  intro m
  have hstart := rep_start maxRecords restored (by omega)
  have hnext := (restored_start maxRecords restored (by omega)).next
  have hw : NoWrap (start maxRecords restored) cs := noWrap_of_count hstart (by omega)
  have h : Rep _ m := rep_run hstart hw
  have hmax : m.maxRecords = max maxRecords 1 := by
    have := Along.invariant (I := fun m => Rep (keptRecords maxRecords restored).length m ∧
        m.maxRecords = max maxRecords 1)
      (fun s c hs hc => ⟨rep_ingest hs.1 c hc, (ingest_maxRecords hs.1 c).trans hs.2⟩) hw
      ⟨hstart, start_maxRecords _ _⟩
    exact this.2
  refine ⟨hmax, h.sorted, h.keys, h.bounded, fun k q hq => ?_, h.queries, h.responses⟩
  have hok := h.toCore.queues k q hq
  refine ⟨hok.ne_nil, hok.sorted, fun id hid => ?_⟩
  obtain ⟨hlt, hlive⟩ := hok.live id hid
  refine ⟨List.count_eq_one_of_mem (hok.sorted.imp fun h => h.ne) hid,
    fun k' q' hq' hid' => h.toCore.queues.disjoint hq' hq hid' hid, hlive, fun hin => ?_⟩
  have := hstart.lt_nextId hin
  omega

theorem recordedCount_le (m : DnsMonitor) (cs : List Capture) : recordedCount m cs ≤ cs.length := by
  induction cs generalizing m with
  | nil => exact le_refl _
  | cons c cs ih =>
    have := ih (ingest m c)
    unfold recordedCount
    rw [List.length_cons]
    split_ifs <;> omega

/-- A message about one name between one client and one server, seen at `ns`. -/
def sampleCapture (isQuery : Bool) (ns : UInt64) : Capture where
  message := {
    isQuery
    sourceIp := if isQuery then .v4 0xC0A8010A else .v4 0x08080808
    destinationIp := if isQuery then .v4 0x08080808 else .v4 0xC0A8010A
    sourcePort := if isQuery then 50000 else 53
    destinationPort := if isQuery then 53 else 50000
    transactionId := 7
    domain := "example.com"
    queryType := "A"
    protocol := "UDP"
    responseCode := if isQuery then none else some "NOERROR"
    responseIps := if isQuery then [] else ["1.2.3.4"]
    responseRecords := [] }
  header := {
    timestampNs := ns
    ifindex := 3
    capturedLen := 70
    ipOffset := 14
    ipVersion := BandixPlus.Common.IpVersion.v4
    direction := BandixPlus.Common.TrafficDirection.ingress
    mac := Vector.replicate 6 2
    hasMac := 1 }
  timestampMs := ns.toNat / 1000000
  device := ⟨"02:02:02:02:02:02", "laptop", "br-lan"⟩
  iter := .listed

/-- A name asked for and answered after 20 ms. -/
def sampleRun : List Capture := [sampleCapture true 0, sampleCapture false 20000000]

theorem sampleRun_ids :
    (keptRecords 2 []).length + recordedCount (start 2 []) sampleRun < 2 ^ 64 - 1 := by
  have hcount := recordedCount_le (start 2 []) sampleRun
  have hlen : sampleRun.length = 2 := rfl
  have hkept : (keptRecords 2 []).length = 0 := rfl
  omega

/-- The run with room for two records. -/
theorem monitor_representation_sample :
    let m := sampleRun.foldl ingest (start 2 [])
    m.order.Pairwise (· < ·) ∧ len m.records ≤ 2 := by
  obtain ⟨hmax, hsorted, -, hle, -⟩ := monitor_representation 2 [] sampleRun sampleRun_ids
  rw [hmax] at hle
  exact ⟨hsorted, hle⟩

end BandixPlus.Dns.Invariant
