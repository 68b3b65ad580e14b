import BandixPlus.Dns.Invariant

/-! # Ids that wrap

The ids of the records are 64 bits wide and start again at 1. As records leave in the order in which
they came, and are far fewer than the ids, no id is handed out twice, however long the run.

* `circular_ingest`: one message keeps the ids of the records a stretch of the circle of ids.
* `circular_run`: so they are after any run, from any restored records. -/

namespace BandixPlus.Dns.Wrapping

open BandixPlus.Dns.Invariant BandixPlus.Dns.Monitor BandixPlus.Lib.Maps

/-! ### The circle of ids -/

/-- The id of the `j`-th record ever. -/
def idAt (j : ℕ) : ℕ := j % (2 ^ 64 - 1) + 1

/-- The ids of the last `n` records before the `j`-th. -/
def window (j n : ℕ) : List ℕ := (List.range' (j - n) n).map idAt

theorem followingId_idAt (j : ℕ) : followingId (idAt j) = idAt (j + 1) := by
  unfold followingId idAt
  omega

theorem length_window (j n : ℕ) : (window j n).length = n := by simp [window]

theorem window_concat {j n : ℕ} (h : n ≤ j) : window j n ++ [idAt j] = window (j + 1) (n + 1) := by
  unfold window
  rw [List.range'_1_concat, List.map_append, List.map_singleton]
  congr 3 <;> omega

theorem window_succ {j n : ℕ} (h : n < j) : window j (n + 1) = idAt (j - (n + 1)) :: window j n := by
  unfold window
  rw [List.range'_succ, List.map_cons]
  congr 3
  omega

theorem idAt_injOn {i j : ℕ} (h : i < j) (hj : j - i < 2 ^ 64 - 1) : idAt i ≠ idAt j := by
  unfold idAt
  omega

theorem nodup_window {j n : ℕ} (h : n < 2 ^ 64) : (window j n).Nodup := by
  unfold window
  refine List.Nodup.map_on (fun a ha b hb heq => ?_) List.nodup_range'
  rw [List.mem_range'_1] at ha hb
  by_contra hne
  rcases Nat.lt_or_gt_of_ne hne with hlt | hlt
  · exact idAt_injOn hlt (by omega) heq
  · exact idAt_injOn hlt (by omega) heq.symm

/-- **The records have the last ids that were handed out**, `limit` of them at most. -/
structure Circular (limit : ℕ) (m : DnsMonitor) : Prop where
  ids : ∃ j n, n ≤ j ∧ n ≤ limit ∧ m.nextId = idAt j ∧ m.order = window j n
  keys : ∀ id, id ∈ m.order ↔ id ∈ m.records

section
variable {limit : ℕ} {m m' : DnsMonitor}

theorem Circular.nodup (h : Circular limit m) (hlimit : limit < 2 ^ 64) : m.order.Nodup := by
  obtain ⟨j, n, -, hn, -, horder⟩ := h.ids
  rw [horder]
  exact nodup_window (by omega)

theorem Circular.length_le (h : Circular limit m) : m.order.length ≤ limit := by
  obtain ⟨j, n, -, hn, -, horder⟩ := h.ids
  rw [horder, length_window]
  exact hn

theorem Circular.perm (h : Circular limit m) (hlimit : limit < 2 ^ 64) :
    m.order.Perm m.records.keys :=
  (List.perm_ext_iff_of_nodup (h.nodup hlimit) m.records.nodupKeys).mpr fun id =>
    (h.keys id).trans AList.mem_keys

theorem Circular.len_records (h : Circular limit m) (hlimit : limit < 2 ^ 64) :
    len m.records = m.order.length := by
  rw [len_eq_keys, (h.perm hlimit).length_eq]

theorem Circular.congr (h : Circular limit m) (hrec : ∀ id, id ∈ m'.records ↔ id ∈ m.records)
    (hord : m'.order = m.order) (hnext : m'.nextId = m.nextId) : Circular limit m' := by
  refine ⟨?_, fun id => by rw [hord, hrec, h.keys]⟩
  rw [hord, hnext]
  exact h.ids

/-- A record is added under the next id. -/
theorem Circular.append (h : Circular limit m) {t : TrackedQuery}
    (hrec : m'.records = m.records.insert m.nextId t) (hord : m'.order = m.order ++ [m.nextId])
    (hnext : m'.nextId = followingId m.nextId) : Circular (limit + 1) m' := by
  obtain ⟨j, n, hj, hn, hid, horder⟩ := h.ids
  refine ⟨⟨j + 1, n + 1, by omega, by omega, ?_, ?_⟩, fun id => ?_⟩
  · rw [hnext, hid, followingId_idAt]
  · rw [hord, horder, hid, window_concat hj]
  · rw [hord, hrec, List.mem_append, List.mem_singleton, AList.mem_insert, h.keys, or_comm]

end

/-! ### Eviction -/

section
variable {limit : ℕ} {m : DnsMonitor}

theorem evictOldest_frame {id : ℕ} {rest : List ℕ} (horder : m.order = id :: rest)
    (hmem : id ∈ m.records) :
    (evictOldest m).order = rest ∧ (evictOldest m).records = m.records.erase id ∧
      (evictOldest m).nextId = m.nextId := by
  obtain ⟨query, hquery⟩ := mem_iff_lookup.mp hmem
  unfold evictOldest
  rw [horder]
  dsimp only
  rw [hquery]
  dsimp only
  split_ifs
  · split <;> exact ⟨rfl, rfl, rfl⟩
  · exact ⟨rfl, rfl, rfl⟩

/-- The oldest record leaves at the end of the stretch. -/
theorem circular_evictOldest (h : Circular limit m) (hlimit : limit < 2 ^ 64) {id : ℕ} {rest : List ℕ}
    (horder : m.order = id :: rest) :
    Circular limit (evictOldest m) ∧ (evictOldest m).order = rest := by
  have hnodup := h.nodup hlimit
  obtain ⟨j, n, hj, hn, hid, hwindow⟩ := h.ids
  obtain ⟨hord, hrec, hnext⟩ := evictOldest_frame horder ((h.keys id).mp (by simp [horder]))
  have hlen : rest.length + 1 = n := by
    rw [← length_window j n, ← hwindow, horder, List.length_cons]
  rw [horder, ← hlen, window_succ (by omega), List.cons.injEq] at hwindow
  refine ⟨⟨⟨j, rest.length, by omega, by omega, hnext.trans hid, ?_⟩, fun i => ?_⟩, hord⟩
  · rw [hord]
    exact hwindow.2
  · rw [horder, List.nodup_cons] at hnodup
    rw [hord, hrec, AList.mem_erase, ← h.keys, horder, List.mem_cons]
    constructor
    · intro hi
      exact ⟨fun heq => hnodup.1 (heq ▸ hi), Or.inr hi⟩
    · rintro ⟨hne, rfl | hi⟩
      · exact absurd rfl hne
      · exact hi

/-- The loop of the evictions leaves as many records as there is room for. -/
theorem circular_evictExcess (h : Circular limit m) (hlimit : limit < 2 ^ 64) {fuel : ℕ}
    (hfuel : m.order.length ≤ fuel) :
    Circular m.maxRecords (evictExcess fuel m) ∧ (evictExcess fuel m).maxRecords = m.maxRecords := by
  have hdone : ∀ m : DnsMonitor, Circular limit m → len m.records ≤ m.maxRecords →
      Circular m.maxRecords m := by
    intro m h hle
    rw [h.len_records hlimit] at hle
    obtain ⟨j, n, hj, -, hid, horder⟩ := h.ids
    rw [horder, length_window] at hle
    exact ⟨⟨j, n, hj, hle, hid, horder⟩, h.keys⟩
  induction fuel generalizing m with
  | zero =>
    have hlen := h.len_records hlimit
    exact ⟨hdone m h (by omega), rfl⟩
  | succ fuel ih =>
    unfold evictExcess
    split_ifs with hexcess
    · have hlen := h.len_records hlimit
      obtain ⟨id, rest, horder⟩ : ∃ id rest, m.order = id :: rest :=
        List.exists_cons_of_length_pos (by omega)
      obtain ⟨hcircular, hrest⟩ := circular_evictOldest h hlimit horder
      rw [horder, List.length_cons] at hfuel
      rw [← evictOldest_maxRecords m]
      exact ih hcircular (by rw [hrest]; omega)
    · exact ⟨hdone m h (by omega), rfl⟩

end

/-! ### Messages -/

section
variable {m : DnsMonitor}

theorem mem_records_matchResponse (m : DnsMonitor) (c : Capture) (id : ℕ) :
    id ∈ (matchResponse m c).records ↔ id ∈ m.records := by
  have htaken := takePending_snd m c.key c.ns
  unfold matchResponse
  dsimp only
  split
  · rw [htaken]
  · split
    · rw [htaken]
    · next query hquery =>
      rw [htaken] at hquery ⊢
      rw [AList.mem_insert, or_iff_right_iff_imp]
      rintro rfl
      exact mem_iff_lookup.mpr ⟨query, hquery⟩

/-- **One message keeps the ids on the circle.** -/
theorem circular_ingest (h : Circular m.maxRecords m) (hmax : m.maxRecords + 1 < 2 ^ 64) (c : Capture) :
    Circular (ingest m c).maxRecords (ingest m c) ∧ (ingest m c).maxRecords = m.maxRecords := by
  rcases ingest_cases m c with hdup | hrec | ⟨hdup, hresp⟩
  · rw [ingest_of_duplicate hdup]
    exact ⟨h, rfl⟩
  · have hinsert : Circular (m.maxRecords + 1) (insertQuery m c) := h.append rfl rfl rfl
    obtain ⟨hcircular, hsame⟩ := circular_evictExcess hinsert hmax (le_refl _)
    rw [ingest_of_recorded hrec]
    refine ⟨?_, hsame⟩
    show Circular (recordQuery m c).maxRecords (pruneCaches (recordQuery m c) c)
    rw [show (recordQuery m c).maxRecords = m.maxRecords from hsame]
    exact hcircular.congr (fun _ => Iff.rfl) rfl rfl
  · obtain ⟨hsame, hnext, hord, -⟩ := matchResponse_frame m c
    rw [ingest_of_response hdup hresp]
    refine ⟨?_, hsame⟩
    show Circular (matchResponse m c).maxRecords (pruneCaches (matchResponse m c) c)
    rw [hsame]
    exact h.congr (mem_records_matchResponse m c) hord hnext

end

/-! ### Runs -/

theorem circular_new (maxRecords : ℕ) : Circular 0 (DnsMonitor.new maxRecords) :=
  ⟨⟨0, 0, le_refl _, le_refl _, rfl, rfl⟩, fun id => by simp [DnsMonitor.new]⟩

theorem circular_restore {limit : ℕ} {m : DnsMonitor} (h : Circular limit m)
    (records : List DnsQueryRecord) :
    Circular (limit + records.length) (records.foldl restoreRecord m) := by
  induction records generalizing limit m with
  | nil => exact h
  | cons record rest ih =>
    have hstep : Circular (limit + 1) (restoreRecord m record) := h.append rfl rfl rfl
    have hrest := ih hstep
    rwa [List.length_cons, Nat.add_comm rest.length, ← Nat.add_assoc]

theorem circular_start (maxRecords : ℕ) (restored : List DnsQueryRecord) :
    Circular (start maxRecords restored).maxRecords (start maxRecords restored) := by
  have hkept := circular_restore (circular_new maxRecords)
    (restored.rtake (DnsMonitor.new maxRecords).maxRecords)
  have hle : (restored.rtake (DnsMonitor.new maxRecords).maxRecords).length ≤ max maxRecords 1 := by
    show (restored.drop (restored.length - max maxRecords 1)).length ≤ _
    rw [List.length_drop]
    omega
  rw [start_maxRecords]
  obtain ⟨j, n, hj, hn, hid, horder⟩ := hkept.ids
  exact ⟨⟨j, n, hj, by omega, hid, horder⟩, hkept.keys⟩

/-- **In every run the ids of the records are distinct**, and are those of the order. -/
theorem circular_run (maxRecords : ℕ) (hmax : maxRecords + 2 < 2 ^ 64) (restored : List DnsQueryRecord)
    (cs : List Capture) :
    Circular (max maxRecords 1) (cs.foldl ingest (start maxRecords restored)) := by
  have hrun : Circular (cs.foldl ingest (start maxRecords restored)).maxRecords
        (cs.foldl ingest (start maxRecords restored)) ∧
      (cs.foldl ingest (start maxRecords restored)).maxRecords = max maxRecords 1 := by
    induction cs using List.reverseRecOn with
    | nil => exact ⟨circular_start maxRecords restored, start_maxRecords maxRecords restored⟩
    | append_singleton cs c ih =>
      obtain ⟨hcircular, hsame⟩ := ih
      rw [List.foldl_append]
      obtain ⟨hnext, hkept⟩ := circular_ingest hcircular (by rw [hsame]; omega) c
      exact ⟨hnext, hkept.trans hsame⟩
  rw [← hrun.2]
  exact hrun.1

end BandixPlus.Dns.Wrapping
