import BandixPlus.Persistence.History

/-! # The ring directories, whatever is in memory

A device can be deleted, and its ring with it, while the cleanup task is still to remove its buckets from
memory, or the other way round. So memory and disk do not always agree; but the directories hold rings of
known series alone, and can be loaded at any time.

* `DiskOk`: the files are rings of interfaces and devices of the topology.
* `diskOk_persist`, `diskOk_eraseDevice`: appending and deleting keep it.
* `diskOk_reload`: loading succeeds, and only a device that has a ring has completed buckets. -/

namespace BandixPlus.Persistence.RingDirs

open BandixPlus.Common BandixPlus.Lib.Maps BandixPlus.Lib.RingBuffer
open BandixPlus.Monitor.Counters BandixPlus.Monitor.Histogram BandixPlus.Monitor.HistogramRun
open BandixPlus.Monitor.Topology BandixPlus.Net.Text BandixPlus.Persistence.Paths
open BandixPlus.Persistence.RingFile BandixPlus.Persistence.Ring BandixPlus.Persistence.Manager
open BandixPlus.Persistence.Agreement BandixPlus.Persistence.History

/-! ### One directory -/

section Directory
variable {K : Type} [DecidableEq K] {n : Naming K} {c : Capacity} {d : Dir}

/-- **The files of a directory are rings of known series**, none longer than the capacity. -/
def DirOk (n : Naming K) (c : Capacity) (d : Dir) : Prop :=
  ∃ records, Rings n d records ∧ ∀ k, (records k).length ≤ c

omit [DecidableEq K] in
theorem dirOk_empty (n : Naming K) (c : Capacity) : DirOk n c .empty :=
  ⟨fun _ => [], ⟨fun _ _ => Or.inl ⟨rfl, rfl⟩, fun _ hf => absurd hf (AList.notMem_empty _)⟩,
    fun _ => Nat.zero_le _⟩

theorem dirOk_append (hc : c.val < 2 ^ 32 - 1) (h : DirOk n c d) {k : K} (hk : n.known k)
    (b : AggregatedBucket) : DirOk n c (persistSeries n c d k (some b)) := by
  obtain ⟨records, hrings, hlen⟩ := h
  let appended := listStep (records k) (.append ⟨b⟩ c)
  have hfits : Fits (records k) (.append ⟨b⟩ c) := Or.inl hc
  have hself : (Function.update records k appended) k = appended := Function.update_self ..
  refine ⟨Function.update records k appended, rings_on hrings hk ?_ fun k' hne => ?_, fun k' => ?_⟩
  · rw [hself]
    exact Or.inr (perform_spec (hrings.ring k hk) hfits).2
  · exact Function.update_of_ne hne _ _
  · by_cases hk' : k' = k
    · have hle : appended.length ≤ c := by
        show ((records k ++ [(⟨b⟩ : RingRecord)]).rtake c).length ≤ c
        rw [length_rtake]
        exact min_le_right _ _
      rw [hk', hself]
      exact hle
    · rw [Function.update_of_ne hk']
      exact hlen k'

omit [DecidableEq K] in
/-- A series whose file is deleted has no record. -/
theorem dirOk_erase (h : DirOk n c d) (fileName : String) :
    DirOk n c { d with files := d.files.erase fileName } := by
  obtain ⟨records, hrings, hlen⟩ := h
  have hlookup : ∀ other, (d.files.erase fileName).lookup other =
      if other = fileName then none else d.files.lookup other := lookup_erase_eq d.files fileName
  refine ⟨fun k => if n.file k = fileName then [] else records k, ⟨fun k hk => ?_, fun other hf => ?_⟩,
    fun k => ?_⟩
  · have hstore := hlookup (n.file k)
    split_ifs at hstore ⊢
    · exact Or.inl ⟨hstore, rfl⟩
    · exact represents_congr (s := d.store (n.file k)) hstore (hrings.ring k hk)
  · exact hrings.named other (AList.mem_erase.mp hf).2
  · dsimp only
    split_ifs
    · exact Nat.zero_le _
    · exact hlen k

/-- **The loading of a directory** succeeds, and only a series that has a file has completed buckets. -/
theorem dirOk_load (h : DirOk n c d) (o : IterOrder) :
    ∃ d' m', loadDir c c n.entry (o.order d.files.keys) d ⟨∅, ∅⟩ = (.ok (), d', m') ∧ DirOk n c d' ∧
      m'.current = ∅ ∧ ∀ k ∈ m'.completed, n.known k ∧ n.file k ∈ d.files := by
  obtain ⟨records, hrings, hlen⟩ := h
  have hmem : ∀ fileName, fileName ∈ o.order d.files.keys ↔ fileName ∈ d.files := fun fileName =>
    (o.perm _).mem_iff.trans AList.mem_keys.symm
  have hempty : ∀ k : K, completedOf (⟨∅, ∅⟩ : SeriesMap K) k = [] := fun _ => rfl
  obtain ⟨d', m', hload, hrings', hqueues, hcur, -, hout⟩ := loadDir_eq hrings hlen
    ((o.perm _).nodup_iff.mpr d.files.keys_nodup)
    (fun fileName hf => hrings.named fileName ((hmem fileName).mp hf))
    (m := ⟨∅, ∅⟩) ⟨fun k hk => absurd hk (AList.notMem_empty k), fun k => Nat.zero_le _⟩
    fun k _ _ => hempty k
  refine ⟨d', m', hload, ⟨records, hrings', hlen⟩, hcur, fun k hk => ?_⟩
  obtain ⟨hknown, hne⟩ := hqueues.known k hk
  refine ⟨hknown, ?_⟩
  by_contra hf
  have hnil := hout k fun hin => hf ((hmem _).mp hin.2)
  exact hne (hnil.trans (hempty k))

end Directory

/-! ### The two directories -/

section
variable {topology : TopologySnapshot} {p : PersistenceManager} {disk : Disk}

/-- **The ring files are of interfaces and devices of the topology.** -/
structure DiskOk (hnames : NamesOk topology) (p : PersistenceManager) (disk : Disk) : Prop where
  iface : DirOk (ifaceNaming hnames .listed) (capacity p) disk.iface
  device : DirOk (deviceNaming hnames .listed) (capacity p) disk.device

variable {hnames : NamesOk topology}

theorem diskOk_empty (hnames : NamesOk topology) (p : PersistenceManager) :
    DiskOk hnames p ⟨.empty, .empty⟩ := ⟨dirOk_empty _ _, dirOk_empty _ _⟩

/-- What a row completes is under the name of an interface, and a MAC address that `mac_utils` wrote. -/
def AggregateOk (topology : TopologySnapshot) : CompletedAggregate → Prop
  | .iface name _ => ∃ i info, topology.byIfindex i = some info ∧ name = info.name
  | .device name mac _ => (∃ i info, topology.byIfindex i = some info ∧ name = info.name) ∧
      ∃ m, mac = macToString m

theorem aggregateOk_ingestRow {row : Row} (h : RowOk topology row) (hourly : UInt64 → UInt64 × UInt64)
    (hist : HistogramHistory) (ts : UInt64) :
    ∀ a ∈ (ingestRow hourly hist ts row).1, AggregateOk topology a := by
  intro a ha
  cases row with
  | iface item =>
    obtain ⟨b, -, rfl⟩ := Option.map_eq_some_iff.mp ha
    exact ⟨_, h⟩
  | device item =>
    obtain ⟨b, -, rfl⟩ := Option.map_eq_some_iff.mp ha
    exact ⟨⟨_, h.1⟩, h.2⟩

theorem aggregateOk_ingestRows {hourly : UInt64 → UInt64 × UInt64} {ts : UInt64} {rs : List Row}
    (h : ∀ row ∈ rs, RowOk topology row) (hist : HistogramHistory) :
    ∀ e ∈ (ingestRows hourly ts hist rs).1, AggregateOk topology e.2 := by
  induction rs generalizing hist with
  | nil => exact fun e he => absurd he List.not_mem_nil
  | cons row rest ih =>
    obtain ⟨hrow, hrest⟩ := List.forall_mem_cons.mp h
    intro e he
    rw [ingestRows_cons] at he
    rcases List.mem_append.mp he with he | he
    · obtain ⟨a, ha, rfl⟩ := Option.map_eq_some_iff.mp (Option.mem_toList.mp he)
      exact aggregateOk_ingestRow hrow hourly hist ts a ha
    · exact ih hrest _ e he

theorem diskOk_persist (h : DiskOk hnames p disk) {a : CompletedAggregate} (ha : AggregateOk topology a) :
    DiskOk hnames p (persist p disk a) := by
  cases a with
  | iface name b =>
    obtain ⟨i, info, hi, rfl⟩ := ha
    have hpersist : persist p disk (.iface info.name b) = _ := persist_iface hnames hi (some b)
    rw [hpersist]
    exact ⟨dirOk_append (capacity_lt p) h.iface ⟨info, hi⟩ b, h.device⟩
  | device name mac b =>
    obtain ⟨⟨i, info, hi, rfl⟩, hmac⟩ := ha
    have hpersist : persist p disk (.device info.name mac b) = _ :=
      persist_device hnames p disk ⟨i, mac⟩ hi hmac (some b)
    rw [hpersist]
    exact ⟨h.iface, dirOk_append (capacity_lt p) h.device ⟨⟨info, hi⟩, hmac⟩ b⟩

theorem diskOk_eraseDevice (h : DiskOk hnames p disk) (fileName : String) :
    DiskOk hnames p { disk with
      device := { disk.device with files := disk.device.files.erase fileName } } :=
  ⟨h.iface, dirOk_erase h.device fileName⟩

/-- The order in which maps are iterated does not matter to a directory. -/
theorem dirOk_order {c : Capacity} {d : Dir} (o o' : IterOrder) :
    (DirOk (ifaceNaming hnames o) c d → DirOk (ifaceNaming hnames o') c d) ∧
      (DirOk (deviceNaming hnames o) c d → DirOk (deviceNaming hnames o') c d) :=
  ⟨fun ⟨records, hrings, hlen⟩ => ⟨records, ⟨hrings.ring, hrings.named⟩, hlen⟩,
    fun ⟨records, hrings, hlen⟩ => ⟨records, ⟨hrings.ring, hrings.named⟩, hlen⟩⟩

/-- **The rings can be loaded at any time**, and only a device that has one has completed buckets. -/
theorem diskOk_reload (h : DiskOk hnames p disk) (o : IterOrder) :
    ∃ disk' hist, reload o p topology disk = (.ok (), disk', hist) ∧ DiskOk hnames p disk' ∧
      (hist.iface.current = ∅ ∧ hist.device.current = ∅) ∧
      ∀ k ∈ hist.device.completed,
        DeviceKnown topology k ∧ deviceFile topology k ∈ disk.device.files := by
  obtain ⟨iface, mi, hloadI, hokI, hcurI, -⟩ := dirOk_load ((dirOk_order .listed o).1 h.iface) o
  obtain ⟨device, md, hloadD, hokD, hcurD, hfileD⟩ := dirOk_load ((dirOk_order .listed o).2 h.device) o
  exact ⟨⟨iface, device⟩, { freshHistogram p with iface := mi, device := md }, reload_eq hloadI hloadD,
    ⟨(dirOk_order o .listed).1 hokI, (dirOk_order o .listed).2 hokD⟩, ⟨hcurI, hcurD⟩, hfileD⟩

end

end BandixPlus.Persistence.RingDirs
