import BandixPlus.Monitor.HistogramRun
import BandixPlus.Persistence.Manager
import BandixPlus.Persistence.Ring

/-! # One directory of rings against the completed buckets in memory

* `Agree`: the ring of each series holds its completed buckets, finalized.
* `agree_ingestSeries`, `agree_flushSeries`: a sample and a flush keep it, if what they return is
  appended.
* `loadDir_agree`: what is loaded into an empty histogram is what was in memory, finalized. -/

namespace BandixPlus.Persistence.Agreement

open BandixPlus.Lib.Maps BandixPlus.Lib.RingBuffer
open BandixPlus.Monitor.Counters BandixPlus.Monitor.Histogram BandixPlus.Monitor.HistogramRun
open BandixPlus.Persistence.RingFile BandixPlus.Persistence.Ring BandixPlus.Persistence.Manager

/-! ### Directories -/

theorem on_eq {α : Type} {d : Dir} {fileName : String} {f : Store → α × Store} {a : α} {s : Store}
    (h : f (d.store fileName) = (a, s)) : d.on fileName f = (a, (d.on fileName f).2) := by
  refine Prod.ext ?_ rfl
  unfold Dir.on
  rw [h]

theorem store_on_self {α : Type} (d : Dir) (fileName : String) (f : Store → α × Store) :
    ((d.on fileName f).2.store fileName).file = (f (d.store fileName)).2.file := by
  unfold Dir.on Dir.store
  dsimp only
  cases (f ⟨d.files.lookup fileName, []⟩).2.file with
  | none => exact AList.lookup_erase fileName d.files
  | some bytes => exact AList.lookup_insert d.files

theorem store_on_other {α : Type} (d : Dir) {fileName other : String} (f : Store → α × Store)
    (hne : other ≠ fileName) : (d.on fileName f).2.store other = d.store other := by
  unfold Dir.on Dir.store
  dsimp only
  congr 1
  cases (f ⟨d.files.lookup fileName, []⟩).2.file with
  | none => exact AList.lookup_erase_ne hne
  | some bytes => exact AList.lookup_insert_ne hne

theorem mem_files_on {α : Type} {d : Dir} {fileName other : String} {f : Store → α × Store}
    (h : other ∈ (d.on fileName f).2.files) : other = fileName ∨ other ∈ d.files := by
  by_cases heq : other = fileName
  · exact Or.inl heq
  · right
    have hstore := store_on_other d f heq
    unfold Dir.store at hstore
    obtain ⟨bytes, hbytes⟩ := mem_iff_lookup.mp h
    rw [(Store.mk.inj hstore).1] at hbytes
    exact mem_iff_lookup.mpr ⟨bytes, hbytes⟩

/-- What a store represents depends on its file alone. -/
theorem represents_congr {s s' : Store} {records : List RingRecord} (heq : s'.file = s.file)
    (h : Represents s records) : Represents s' records := by
  unfold Represents Holds at h ⊢
  rw [heq]
  exact h

/-! ### Naming -/

/-- The series that a run can have, their files, and what loading makes of a file name. -/
structure Naming (K : Type) where
  known : K → Prop
  file : K → String
  entry : String → Entry K
  entry_file : ∀ k, known k → entry (file k) = .ring k

section Series
variable {K : Type} [DecidableEq K] {n : Naming K} {c : Capacity} {d : Dir} {m m' : SeriesMap K}
  {k : K}

omit [DecidableEq K] in
theorem Naming.file_inj (n : Naming K) {k k' : K} (hk : n.known k) (hk' : n.known k')
    (h : n.file k = n.file k') : k = k' := by
  have hentry := n.entry_file k hk
  rw [h, n.entry_file k' hk'] at hentry
  exact (Entry.ring.inj hentry).symm

/-- The records that stand for completed buckets. -/
def recordsOf (buckets : List AggregatedBucket) : List RingRecord :=
  buckets.map fun b => ⟨b.finalize⟩

/-- The files of a directory are those of known series, and hold these records. -/
structure Rings (n : Naming K) (d : Dir) (records : K → List RingRecord) : Prop where
  ring : ∀ k, n.known k → Represents (d.store (n.file k)) (records k)
  named : ∀ fileName ∈ d.files, ∃ k, n.known k ∧ fileName = n.file k

/-- The queues in memory are those of known series, and are neither empty nor too long. -/
structure Queues (n : Naming K) (c : Capacity) (m : SeriesMap K) : Prop where
  known : ∀ k ∈ m.completed, n.known k ∧ completedOf m k ≠ []
  bounded : ∀ k, (completedOf m k).length ≤ c

/-- **Memory and disk agree**: the ring of each series holds its completed buckets, finalized. -/
structure Agree (n : Naming K) (c : Capacity) (d : Dir) (m : SeriesMap K) : Prop where
  rings : Rings n d fun k => recordsOf (completedOf m k)
  queues : Queues n c m

theorem completedOf_of_notMem (h : k ∉ m.completed) : completedOf m k = [] := by
  unfold completedOf
  rw [AList.lookup_eq_none.mpr h]
  rfl

/-! ### Appending -/

/-- Work on the ring of one series. -/
theorem rings_on {α : Type} {records records' : K → List RingRecord} (h : Rings n d records)
    (hk : n.known k) {f : Store → α × Store}
    (hself : Represents (f (d.store (n.file k))).2 (records' k))
    (hother : ∀ k', k' ≠ k → records' k' = records k') : Rings n (d.on (n.file k) f).2 records' := by
  refine ⟨fun k' hk' => ?_, fun fileName hf => ?_⟩
  · by_cases heq : k' = k
    · subst heq
      exact represents_congr (store_on_self d _ f) hself
    · rw [store_on_other d f fun hfile => heq (n.file_inj hk' hk hfile), hother k' heq]
      exact h.ring k' hk'
  · rcases mem_files_on hf with rfl | hf
    · exact ⟨k, hk, rfl⟩
    · exact h.named fileName hf

/-- The queue of a series after one more bucket. -/
theorem queues_restoreBucket (h : Queues n c m) (hk : n.known k) (b : AggregatedBucket) :
    Queues n c (restoreBucket c m k b) := by
  have hlast : ∀ q : List AggregatedBucket, (q ++ [b]).rtake c ≠ [] := by
    intro q hnil
    have hlen := congrArg List.length hnil
    have hpos := c.property.1
    rw [length_rtake, List.length_append, List.length_singleton, List.length_nil] at hlen
    omega
  constructor
  · intro k' hk'
    rw [completedOf_restoreBucket]
    split_ifs with heq
    · rw [heq]
      exact ⟨hk, hlast _⟩
    · refine h.known k' ?_
      rcases (AList.mem_insert _).mp hk' with hk' | hk'
      · exact absurd hk' heq
      · exact hk'
  · intro k'
    rw [completedOf_restoreBucket]
    split_ifs
    · rw [length_rtake]
      exact min_le_right _ _
    · exact h.bounded k'

/-- Append what a step returned to the ring of its series. -/
def persistSeries (n : Naming K) (c : Capacity) (d : Dir) (k : K) : Option AggregatedBucket → Dir
  | none => d
  | some b => (d.on (n.file k) fun s => appendRingRecordWithCapacity s ⟨b⟩ c).2

/-- **A bucket that is completed in memory and appended to its ring.** -/
theorem agree_restoreBucket (hc : c.val < 2 ^ 32 - 1) (h : Agree n c d m) (hk : n.known k)
    (b : AggregatedBucket) :
    Agree n c (persistSeries n c d k (some b.finalize)) (restoreBucket c m k b) := by
  refine ⟨rings_on h.rings hk ?_ fun k' hne => ?_, queues_restoreBucket h.queues hk b⟩
  · have hfits : Fits (recordsOf (completedOf m k)) (.append ⟨b.finalize⟩ c) := Or.inl hc
    obtain ⟨-, hholds⟩ := perform_spec (h.rings.ring k hk) hfits
    have hrecords : recordsOf (completedOf (restoreBucket c m k b) k) =
        listStep (recordsOf (completedOf m k)) (.append ⟨b.finalize⟩ c) := by
      rw [completedOf_restoreBucket, if_pos rfl]
      unfold recordsOf listStep
      rw [← rtake_map, List.map_append]
      rfl
    rw [hrecords]
    exact Or.inr hholds
  · rw [completedOf_restoreBucket, if_neg hne]

/-- Agreement is about the completed buckets. -/
theorem agree_congr (h : Agree n c d m) (hcomp : m'.completed = m.completed) : Agree n c d m' := by
  have hqueue : ∀ k, completedOf m' k = completedOf m k := by
    intro k
    unfold completedOf
    rw [hcomp]
  refine ⟨⟨fun k hk => ?_, h.rings.named⟩, ⟨fun k hk => ?_, fun k => ?_⟩⟩
  · rw [hqueue]
    exact h.rings.ring k hk
  · rw [hqueue]
    rw [hcomp] at hk
    exact h.queues.known k hk
  · rw [hqueue]
    exact h.queues.bounded k

/-- **A sample keeps agreement.** -/
theorem agree_ingestSeries (hc : c.val < 2 ^ 32 - 1) (h : Agree n c d m) (hk : n.known k)
    (hourly : UInt64 → UInt64 × UInt64) (ts : UInt64) (metrics : CounterQuad) :
    Agree n c (persistSeries n c d k (ingestSeries c hourly m k ts metrics).1)
      (ingestSeries c hourly m k ts metrics).2 := by
  rcases ingestSeries_cases c hourly m k ts metrics with
    ⟨b, -, -, heq⟩ | ⟨-, heq⟩ | ⟨b, -, -, heq⟩
  · rw [heq]
    exact agree_congr h rfl
  · rw [heq]
    exact agree_congr h rfl
  · rw [heq]
    exact agree_congr (agree_restoreBucket hc h hk b) rfl

/-- **A flush keeps agreement.** -/
theorem agree_flushSeries (hc : c.val < 2 ^ 32 - 1) (h : Agree n c d m) (hk : n.known k)
    (ts : UInt64) :
    Agree n c (persistSeries n c d k (flushSeries c m k ts).1) (flushSeries c m k ts).2 := by
  unfold flushSeries
  cases m.current.lookup k with
  | none => exact h
  | some b =>
    dsimp only
    split_ifs
    · have hflush := agree_restoreBucket hc (m := { m with current := m.current.erase k })
        (agree_congr h rfl) hk b.finalize
      rw [AggregatedBucket.finalize_finalize] at hflush
      exact hflush
    · exact h

/-! ### Loading -/

theorem completedOf_restoreAll {maxHours : ℕ} (k' : K) (records : List RingRecord)
    (hle : (completedOf m k).length ≤ maxHours) :
    completedOf (restoreAll maxHours m k records) k' =
      if k' = k then (completedOf m k ++ records.map RingRecord.bucket).rtake maxHours
      else completedOf m k' := by
  induction records generalizing m with
  | nil =>
    rw [List.map_nil, List.append_nil, rtake_of_le _ hle]
    show completedOf m k' = _
    split_ifs with heq
    · rw [heq]
    · rfl
  | cons r rest ih =>
    have hstep := completedOf_restoreBucket maxHours m k k r.bucket
    rw [if_pos rfl] at hstep
    have hlen : (completedOf (restoreBucket maxHours m k r.bucket) k).length ≤ maxHours := by
      rw [hstep, length_rtake]
      exact min_le_right _ _
    have hrest := ih hlen
    rw [hstep, rtake_append_rtake, List.append_assoc] at hrest
    refine hrest.trans ?_
    split_ifs with heq
    · rfl
    · rw [completedOf_restoreBucket, if_neg heq]

theorem queues_restoreAll (h : Queues n c m) (hk : n.known k) (records : List RingRecord) :
    Queues n c (restoreAll c m k records) := by
  induction records generalizing m with
  | nil => exact h
  | cons r rest ih => exact ih (queues_restoreBucket h hk r.bucket)

theorem current_restoreAll (maxHours : ℕ) (m : SeriesMap K) (k : K) (records : List RingRecord) :
    (restoreAll maxHours m k records).current = m.current := by
  induction records generalizing m with
  | nil => rfl
  | cons r rest ih => exact ih _

variable {records : K → List RingRecord}

/-- **A ring is loaded as it is**, if it is no longer than the capacity. -/
theorem loadRing_eq (h : Rings n d records) (hk : n.known k) (hlen : (records k).length ≤ c)
    (m : SeriesMap K) : ∃ d', loadRing c c d m (n.file k) k = (.ok (), d', restoreAll c m k (records k)) ∧
      Rings n d' records := by
  have hrep := h.ring k hk
  obtain ⟨bytes, header, hopen, -, hring⟩ := openOrCreateRing_of_represents hrep c
  rw [rtake_of_le _ hlen] at hring
  -- opening the ring keeps its records
  have hopened : Rings n (d.on (n.file k) fun s => openOrCreateRing s c).2 records := by
    refine rings_on h hk ?_ fun _ _ => rfl
    rw [hopen]
    exact Or.inr ⟨bytes, header, rfl, hring⟩
  have hfirst : d.on (n.file k) (fun s => openOrCreateRing s c) =
      (.ok bytes, (d.on (n.file k) fun s => openOrCreateRing s c).2) := on_eq hopen
  have hfile : ((d.on (n.file k) fun s => openOrCreateRing s c).2.store (n.file k)).file =
      some bytes := by
    rw [store_on_self, hopen]
  generalize (d.on (n.file k) fun s => openOrCreateRing s c).2 = d₁ at hopened hfirst hfile
  have hread := readRingRecords_of_isRing hring hfile
  have hsecond := on_eq hread
  refine ⟨(d₁.on (n.file k) readRingRecords).2, ?_, rings_on hopened hk ?_ fun _ _ => rfl⟩
  · unfold loadRing
    rw [hfirst]
    dsimp only
    rw [hsecond]
  · rw [hread]
    exact hopened.ring k hk

/-- **The loading of a directory**, file by file, into a histogram that has nothing of their series. -/
theorem loadDir_eq (h : Rings n d records) (hlen : ∀ k, (records k).length ≤ c)
    {names : List String} (hnodup : names.Nodup)
    (hnames : ∀ fileName ∈ names, ∃ k, n.known k ∧ fileName = n.file k) (hq : Queues n c m)
    (hempty : ∀ k, n.known k → n.file k ∈ names → completedOf m k = []) :
    ∃ d' m', loadDir c c n.entry names d m = (.ok (), d', m') ∧ Rings n d' records ∧
      Queues n c m' ∧ m'.current = m.current ∧
      (∀ k, n.known k → n.file k ∈ names →
        completedOf m' k = (records k).map RingRecord.bucket) ∧
      ∀ k, ¬ (n.known k ∧ n.file k ∈ names) → completedOf m' k = completedOf m k := by
  induction names generalizing d m with
  | nil => exact ⟨d, m, rfl, h, hq, rfl, fun k _ hf => absurd hf List.not_mem_nil, fun k _ => rfl⟩
  | cons fileName rest ih =>
    obtain ⟨hnotMem, hrest⟩ := List.nodup_cons.mp hnodup
    obtain ⟨k, hk, rfl⟩ := hnames fileName List.mem_cons_self
    obtain ⟨d₁, hload, h₁⟩ := loadRing_eq h hk (hlen k) m
    have hk₀ : completedOf m k = [] := hempty k hk List.mem_cons_self
    have hcomp : ∀ k', completedOf (restoreAll c m k (records k)) k' =
        if k' = k then (records k).map RingRecord.bucket else completedOf m k' := by
      intro k'
      rw [completedOf_restoreAll k' (records k) (by rw [hk₀]; exact Nat.zero_le _), hk₀,
        List.nil_append, rtake_of_le _ (by rw [List.length_map]; exact hlen k)]
    obtain ⟨d', m', hloadRest, hrings, hqueues, hcur, hin, hout⟩ := ih h₁ hrest
      (fun fileName hf => hnames fileName (List.mem_cons_of_mem _ hf))
      (queues_restoreAll hq hk (records k)) fun k' hk' hf => by
        rw [hcomp, if_neg fun heq => hnotMem (by rw [← heq]; exact hf)]
        exact hempty k' hk' (List.mem_cons_of_mem _ hf)
    refine ⟨d', m', ?_, hrings, hqueues, hcur.trans (current_restoreAll _ _ _ _), fun k' hk' hf => ?_,
      fun k' hk' => ?_⟩
    · unfold loadDir
      rw [n.entry_file k hk]
      dsimp only
      rw [hload]
      exact hloadRest
    · rcases List.mem_cons.mp hf with hf | hf
      · rw [n.file_inj hk' hk hf, hout k fun hand => hnotMem hand.2, hcomp, if_pos rfl]
      · exact hin k' hk' hf
    · rw [hout k' fun hand => hk' ⟨hand.1, List.mem_cons_of_mem _ hand.2⟩, hcomp, if_neg]
      rintro rfl
      exact hk' ⟨hk, List.mem_cons_self⟩

theorem mem_completed_iff (h : Queues n c m) (k : K) : k ∈ m.completed ↔ completedOf m k ≠ [] := by
  constructor
  · exact fun hk => (h.known k hk).2
  · intro hne
    by_contra hk
    exact hne (completedOf_of_notMem hk)

omit [DecidableEq K] in
/-- A known series without a file has no record. -/
theorem records_of_notMem (h : Rings n d records) (hk : n.known k) (hf : n.file k ∉ d.files) :
    records k = [] := by
  have hnone : (d.store (n.file k)).file = none := AList.lookup_eq_none.mpr hf
  rcases h.ring k hk with ⟨-, hnil⟩ | ⟨bytes, header, hsome, -⟩
  · exact hnil
  · rw [hnone] at hsome
    cases hsome

/-- **What is loaded into an empty histogram is what was in memory, finalized**, and memory and disk
agree again. -/
theorem loadDir_agree (h : Agree n c d m) (o : IterOrder) :
    ∃ d' m', loadDir c c n.entry (o.order d.files.keys) d ⟨∅, ∅⟩ = (.ok (), d', m') ∧
      m'.current = ∅ ∧ Agree n c d' m' ∧
      (∀ k, completedOf m' k = (completedOf m k).map AggregatedBucket.finalize) ∧
      ∀ k, k ∈ m'.completed ↔ k ∈ m.completed := by
  have hmem : ∀ fileName, fileName ∈ o.order d.files.keys ↔ fileName ∈ d.files := fun fileName =>
    (o.perm _).mem_iff.trans AList.mem_keys.symm
  have hempty : ∀ k : K, completedOf (⟨∅, ∅⟩ : SeriesMap K) k = [] := fun _ => rfl
  obtain ⟨d', m', hload, hrings, hqueues, hcur, hin, hout⟩ := loadDir_eq h.rings
    (fun k => by unfold recordsOf; rw [List.length_map]; exact h.queues.bounded k)
    ((o.perm _).nodup_iff.mpr d.files.keys_nodup)
    (fun fileName hf => h.rings.named fileName ((hmem fileName).mp hf))
    (m := ⟨∅, ∅⟩) ⟨fun k hk => absurd hk (AList.notMem_empty k), fun k => Nat.zero_le _⟩
    fun k _ _ => hempty k
  have hcomp : ∀ k, completedOf m' k = (completedOf m k).map AggregatedBucket.finalize := by
    intro k
    by_cases hk : n.known k ∧ n.file k ∈ o.order d.files.keys
    · rw [hin k hk.1 hk.2]
      unfold recordsOf
      rw [List.map_map]
      rfl
    · rw [hout k hk, hempty]
      by_cases hknown : n.known k
      · have hnil := records_of_notMem h.rings hknown fun hf => hk ⟨hknown, (hmem _).mpr hf⟩
        rw [List.map_eq_nil_iff.mp hnil]
        rfl
      · rw [completedOf_of_notMem fun hmem => hknown (h.queues.known k hmem).1]
        rfl
  refine ⟨d', m', hload, hcur, ⟨⟨fun k hk => ?_, hrings.named⟩, hqueues⟩, hcomp, fun k => ?_⟩
  · have hrecords : recordsOf (completedOf m' k) = recordsOf (completedOf m k) := by
      rw [hcomp]
      unfold recordsOf
      rw [List.map_map]
      exact List.map_congr_left fun b _ => congrArg RingRecord.mk b.finalize_finalize
    rw [hrecords]
    exact hrings.ring k hk
  · rw [mem_completed_iff hqueues, mem_completed_iff h.queues, hcomp, Ne, List.map_eq_nil_iff]

end Series

end BandixPlus.Persistence.Agreement
