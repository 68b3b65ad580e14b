import BandixPlus.Lib.Tally
import BandixPlus.Monitor.Daily
import BandixPlus.Monitor.Runtime
import BandixPlus.Monitor.Totals

/-! # The histogram of all devices

`api.rs`, the handler of `/api/histogram`. With a MAC address it returns the buckets of this device;
without one it adds up the buckets of all registered devices of the interface, window by window.
`none` is a panic of `daily_bucket_local`.

* `aggregate_single_iff`: for an interface with one device both answers are the same if and only if the
  buckets of the device in the range count no samples and have no sums, for the addresses that are asked
  for, and (hourly) those that begin together are stored in the order of their ends. The counts and the
  sums are left out when buckets are added up. -/

namespace BandixPlus.Api.Aggregate

open BandixPlus.Common BandixPlus.Lib.LocalTime BandixPlus.Lib.Maps BandixPlus.Lib.Saturating
open BandixPlus.Lib.Sorting BandixPlus.Lib.Tally BandixPlus.Monitor.Counters
open BandixPlus.Monitor.Daily BandixPlus.Monitor.Histogram BandixPlus.Monitor.Query
open BandixPlus.Monitor.Runtime BandixPlus.Monitor.Snapshot BandixPlus.Monitor.Topology
open BandixPlus.Monitor.Windows BandixPlus.Net.Text

/-! ### The handler -/

inductive HistoryTrafficType where
  | all | ipv4 | ipv6
  deriving DecidableEq

/-- Keep the selected family; the other two fields become 0. -/
def keepFamily (tt : HistoryTrafficType) (q : Quad UInt64) : Quad UInt64 :=
  match tt with
  | .all => q
  | .ipv4 => { q with upV6 := 0, downV6 := 0 }
  | .ipv6 => { q with upV4 := 0, downV4 := 0 }

def withTrafficType (tt : HistoryTrafficType) (b : AggregatedBucket) : AggregatedBucket :=
  { b with
    bytes := keepFamily tt b.bytes
    bpsSum := keepFamily tt b.bpsSum
    bpsAvg := keepFamily tt b.bpsAvg
    bpsMax := keepFamily tt b.bpsMax
    bpsMin := keepFamily tt b.bpsMin
    bpsP95 := keepFamily tt b.bpsP95 }

structure AggregateQuery where
  iface : Option String
  mac : Option String
  trafficType : Option String
  startMs : Option UInt64
  endMs : Option UInt64
  bucket : Option String

structure ApiEnvelope (α : Type) where
  ok : Bool
  data : α
  error : Option String
  deriving DecidableEq

def resolveQueryIfaceToIfindex (o : IterOrder) (topology : TopologySnapshot)
    (snapshot : SnapshotData) (iface : Option String) : Except String UInt32 :=
  match (iface.map trim).filter fun t => t ≠ "" with
  | none => .error "iface is required"
  | some name =>
    match topology.ifindexByName o name with
    | some ifindex => .ok ifindex
    | none =>
      match snapshot.interfaces.find? fun item => item.ifname = name with
      | some item => .ok item.ifindex
      | none => .error s!"unknown iface: {name}"

def parseTrafficType (input : Option String) : HistoryTrafficType :=
  let tt := toAsciiLowercase (input.getD "all")
  if tt = "ipv4" then .ipv4 else if tt = "ipv6" then .ipv6 else .all

def parseBucket (input : Option String) : AggregateBucket :=
  if toAsciiLowercase (input.getD "hourly") = "daily" then .daily else .hourly

def emptyBucket (startTsMs endTsMs : UInt64) : AggregatedBucket := .empty startTsMs endTsMs

def accumulateBucket (dst src : AggregatedBucket) : AggregatedBucket :=
  { dst with
    bytes := addSat dst.bytes src.bytes
    bpsAvg := addSat dst.bpsAvg src.bpsAvg
    bpsMax := addSat dst.bpsMax src.bpsMax
    bpsMin := addSat dst.bpsMin src.bpsMin
    bpsP95 := addSat dst.bpsP95 src.bpsP95 }

abbrev Window := UInt64 × UInt64

def windowOf (b : AggregatedBucket) : Window := (b.startTsMs, b.endTsMs)

/-- The order of the keys of `by_window`. -/
def windowLe (a b : Window) : Bool := a.1 < b.1 || (a.1 = b.1 && a.2 ≤ b.2)

/-- Add the buckets of a device to those of their windows. -/
def addBuckets (byWindow : HashMap Window AggregatedBucket) (buckets : List AggregatedBucket) :
    HashMap Window AggregatedBucket :=
  gather (fun b => some (windowOf b)) (fun b => emptyBucket b.startTsMs b.endTsMs) accumulateBucket
    buckets byWindow

section
variable (o : IterOrder) (z : Zone) (registry : HashMap DeviceKey KnownDevice)
  (histogram : HistogramHistory) (ifindex : UInt32) (startMs endMs : UInt64)
  (bucket : AggregateBucket)

/-- The MAC addresses of an interface, in the order of the registry. -/
def macsOf : List String :=
  ((o.order registry.entries).filter fun e => e.1.1 = ifindex).map fun e => macToString e.1.2

/-- The buckets of all devices of an interface, added up window by window. -/
def allDevices : Option (List AggregatedBucket) :=
  ((macsOf o registry ifindex).foldlM (fun byWindow mac =>
    (queryAggregate o z histogram ifindex (some mac) startMs endMs bucket).map
      (addBuckets byWindow)) ∅).map (valuesInOrder windowLe)

def aggregate (topology : TopologySnapshot) (snapshot : SnapshotData) (nowMs : UInt64)
    (q : AggregateQuery) : Option (ApiEnvelope (List AggregatedBucket)) :=
  match resolveQueryIfaceToIfindex o topology snapshot q.iface with
  | .error e => some ⟨false, [], some e⟩
  | .ok ifindex =>
    let startMs := q.startMs.getD (satSub nowMs (24 * 3600 * 1000))
    let endMs := q.endMs.getD nowMs
    let bucket := parseBucket q.bucket
    let result :=
      match q.mac.filter fun s => trim s ≠ "" with
      | some mac => queryAggregate o z histogram ifindex (some mac) startMs endMs bucket
      | none => allDevices o z registry histogram ifindex startMs endMs bucket
    result.map fun buckets =>
      ⟨true, buckets.map (withTrafficType (parseTrafficType q.trafficType)), none⟩

end

/-! ### The fields that are left out -/

/-- What is left of a bucket that is added to a new one. -/
def stripped (b : AggregatedBucket) : AggregatedBucket :=
  { b with sampleCount := 0, bpsSum := .const 0 }

/-- **The bucket counts no samples, and has no sums of the selected family.** -/
def Uncounted (tt : HistoryTrafficType) (b : AggregatedBucket) : Prop :=
  b.sampleCount = 0 ∧ keepFamily tt b.bpsSum = .const 0

instance (tt : HistoryTrafficType) (b : AggregatedBucket) : Decidable (Uncounted tt b) := by
  unfold Uncounted; infer_instance

theorem accumulateBucket_empty (b : AggregatedBucket) :
    accumulateBucket (emptyBucket b.startTsMs b.endTsMs) b = stripped b := by
  unfold accumulateBucket emptyBucket stripped
  simp only [AggregatedBucket.empty, zero_addSat]

theorem keepFamily_zero (tt : HistoryTrafficType) : keepFamily tt (.const 0) = .const 0 := by
  cases tt <;> rfl

theorem withTrafficType_stripped (tt : HistoryTrafficType) (b : AggregatedBucket) :
    withTrafficType tt (stripped b) = withTrafficType tt b ↔ Uncounted tt b := by
  unfold withTrafficType stripped Uncounted
  rw [AggregatedBucket.mk.injEq]
  simp only [keepFamily_zero, true_and, and_true]
  exact and_congr eq_comm eq_comm

/-! ### Windows -/

theorem windowLe_iff {a b : Window} :
    windowLe a b = true ↔ a.1.toNat < b.1.toNat ∨ (a.1.toNat = b.1.toNat ∧ a.2.toNat ≤ b.2.toNat) := by
  unfold windowLe
  simp only [Bool.or_eq_true, Bool.and_eq_true, decide_eq_true_eq, UInt64.lt_iff_toNat_lt,
    UInt64.le_iff_toNat_le, ← UInt64.toNat_inj]

theorem windowLe_trans (a b c : Window) (hab : windowLe a b = true) (hbc : windowLe b c = true) :
    windowLe a c = true := by
  rw [windowLe_iff] at hab hbc ⊢
  omega

theorem windowLe_total (a b : Window) : (windowLe a b || windowLe b a) = true := by
  rw [Bool.or_eq_true, windowLe_iff, windowLe_iff]
  omega

theorem windowLe_antisymm (a b : Window) (hab : windowLe a b = true) (hba : windowLe b a = true) :
    a = b := by
  rw [windowLe_iff] at hab hba
  refine Prod.ext (UInt64.toNat_inj.mp ?_) (UInt64.toNat_inj.mp ?_) <;> omega

section
variable {tt : HistoryTrafficType} {buckets : List AggregatedBucket}

theorem windowOf_foldl (buckets : List AggregatedBucket) (b : AggregatedBucket) :
    windowOf (buckets.foldl accumulateBucket b) = windowOf b := by
  induction buckets generalizing b with
  | nil => rfl
  | cons b' rest ih => exact ih (accumulateBucket b b')

/-- Each entry has its window. -/
theorem windowOf_addBuckets {w : Window} {b : AggregatedBucket}
    (h : (addBuckets ∅ buckets).lookup w = some b) : windowOf b = w := by
  unfold addBuckets at h
  rw [lookup_gather_empty, Option.map_eq_some_iff] at h
  obtain ⟨first, hfirst, rfl⟩ := h
  rw [windowOf_foldl]
  exact Option.some.inj (mem_ofKey.mp (List.mem_of_head? hfirst)).2

/-- **When adding up one list of buckets changes nothing that is shown.** -/
theorem map_addBuckets_iff (hdistinct : (buckets.map windowOf).Nodup) :
    (valuesInOrder windowLe (addBuckets ∅ buckets)).map (withTrafficType tt) =
        buckets.map (withTrafficType tt) ↔
      (buckets.Pairwise fun a b => windowLe (windowOf a) (windowOf b) = true) ∧
        ∀ b ∈ buckets, Uncounted tt b := by
  have hkeyed : ∀ w b, (addBuckets ∅ buckets).lookup w = some b → windowOf b = w :=
    fun w b => windowOf_addBuckets
  have hperm : ((addBuckets ∅ buckets).entries.map fun e => e.2).Perm (buckets.map stripped) := by
    have hgather : ((addBuckets ∅ buckets).entries.map fun e => e.2).Perm
        ((buckets.map fun b => accumulateBucket (emptyBucket b.startTsMs b.endTsMs) b) ++ []) :=
      perm_gather hdistinct fun b _ h => AList.notMem_empty _ h
    simpa only [accumulateBucket_empty, List.append_nil] using hgather
  have hiff := valuesInOrder_eq_iff windowLe_trans windowLe_total hkeyed windowLe_antisymm hperm
  rw [List.pairwise_map] at hiff
  constructor
  · intro heq
    -- the windows are shown, so they have to be in order
    have hwindows : (valuesInOrder windowLe (addBuckets ∅ buckets)).map windowOf =
        buckets.map windowOf := by
      have hmap := congrArg (List.map windowOf) heq
      rwa [List.map_map, List.map_map] at hmap
    have hsorted : buckets.Pairwise fun a b => windowLe (windowOf a) (windowOf b) = true := by
      have hvalues := pairwise_valuesInOrder windowLe_trans windowLe_total hkeyed
      rwa [← List.pairwise_map (f := windowOf) (R := fun a b => windowLe a b = true), hwindows,
        List.pairwise_map] at hvalues
    rw [hiff.mpr hsorted, List.map_map, List.map_inj_left] at heq
    exact ⟨hsorted, fun b hb => (withTrafficType_stripped tt b).mp (heq b hb)⟩
  · rintro ⟨hsorted, huncounted⟩
    rw [hiff.mpr hsorted, List.map_map]
    exact List.map_congr_left fun b hb => (withTrafficType_stripped tt b).mpr (huncounted b hb)

end

/-! ### What is stored -/

section
variable (o : IterOrder) (histogram : HistogramHistory) (ifindex : UInt32) (mac : String)
  (startMs endMs : UInt64)

/-- The buckets of the series that the device has, completed and current. -/
def storedBuckets : List AggregatedBucket :=
  match findKey o histogram.device ifindex mac with
  | some k => completedOf histogram.device k ++ (histogram.device.current.lookup k).toList
  | none => []

def inRange : List AggregatedBucket :=
  (storedBuckets o histogram ifindex mac).filter (overlaps startMs endMs)

variable {mac}

theorem hourlyBuckets_eq (hmac : trim mac ≠ "") :
    hourlyBuckets o histogram ifindex (some mac) startMs endMs =
      (inRange o histogram ifindex mac startMs endMs).mergeSort byStart := by
  have hfilter : (some mac).filter (fun s => trim s ≠ "") = some mac :=
    Option.filter_some_pos (decide_eq_true hmac)
  unfold hourlyBuckets inRange storedBuckets
  rw [hfilter]
  dsimp only
  cases findKey o histogram.device ifindex mac with
  | none => exact List.mergeSort_nil.symm
  | some k => rfl

/-- The spelling of a MAC address does not matter. -/
theorem findKey_spelling {mac mac' : String} (h : eqIgnoreAsciiCase mac mac' = true)
    (m : SeriesMap DeviceSeriesKey) : findKey o m ifindex mac = findKey o m ifindex mac' := by
  have hlower : toAsciiLowercase mac = toAsciiLowercase mac' := of_decide_eq_true h
  unfold findKey eqIgnoreAsciiCase
  rw [hlower]

theorem queryAggregate_spelling {mac mac' : String} (h : eqIgnoreAsciiCase mac mac' = true)
    (hmac : trim mac ≠ "") (hmac' : trim mac' ≠ "") (z : Zone) (bucket : AggregateBucket) :
    queryAggregate o z histogram ifindex (some mac) startMs endMs bucket =
      queryAggregate o z histogram ifindex (some mac') startMs endMs bucket := by
  have hhourly : hourlyBuckets o histogram ifindex (some mac) startMs endMs =
      hourlyBuckets o histogram ifindex (some mac') startMs endMs := by
    rw [hourlyBuckets_eq _ _ _ _ _ hmac, hourlyBuckets_eq _ _ _ _ _ hmac']
    unfold inRange storedBuckets
    rw [findKey_spelling o ifindex h]
  unfold queryAggregate
  rw [hhourly]

end

/-! ### Days -/

section
variable {tt : HistoryTrafficType}

theorem satAdd_eq_zero {a b : UInt64} : satAdd a b = 0 ↔ a = 0 ∧ b = 0 := by
  rw [← UInt64.toNat_inj, ← UInt64.toNat_inj, ← UInt64.toNat_inj, toNat_satAdd, UInt64.toNat_zero]
  omega

theorem keepFamily_addSat {p q : Quad UInt64} :
    keepFamily tt (addSat p q) = .const 0 ↔ keepFamily tt p = .const 0 ∧ keepFamily tt q = .const 0 := by
  cases p
  cases q
  cases tt <;> simp [keepFamily, addSat, Quad.zip, Quad.const, satAdd_eq_zero] <;> tauto

/-- A day is uncounted if its hours are. -/
theorem uncounted_foldl (bs : List AggregatedBucket) (b : AggregatedBucket) :
    Uncounted tt (bs.foldl mergeBucket b) ↔ Uncounted tt b ∧ ∀ b' ∈ bs, Uncounted tt b' := by
  have hstep : ∀ b b', Uncounted tt (mergeBucket b b') ↔ Uncounted tt b ∧ Uncounted tt b' := by
    intro b b'
    unfold Uncounted mergeBucket
    dsimp only
    rw [satAdd_eq_zero, keepFamily_addSat]
    tauto
  induction bs generalizing b with
  | nil => simp
  | cons b' rest ih =>
    rw [List.forall_mem_cons, ← and_assoc, ← hstep]
    exact ih (mergeBucket b b')

theorem uncounted_empty (window : UInt64 × UInt64) : Uncounted tt (.empty window.1 window.2) :=
  ⟨rfl, keepFamily_zero tt⟩

variable {z : Zone} {o : IterOrder} {hourly days : List AggregatedBucket}

theorem mergeHourlyToDaily_eq_some (h : mergeHourlyToDaily o z hourly = some days) :
    (∀ b ∈ hourly, ∃ window, dailyBucketLocal z b.startTsMs = some window) ∧
      Keyed (gather (dayKey (dailyBucketLocal z)) (newDay (dailyBucketLocal z)) mergeBucket hourly ∅) ∧
      days = sortedValues o
        (gather (dayKey (dailyBucketLocal z)) (newDay (dailyBucketLocal z)) mergeBucket hourly ∅) := by
  obtain ⟨byDay, hbyDay, hdays⟩ := Option.map_eq_some_iff.mp h
  have hwindows := windows_of_mergeDays hbyDay
  rw [mergeDays_eq hwindows, Option.some.injEq] at hbyDay
  refine ⟨hwindows, ?_, by rw [hbyDay, hdays]⟩
  exact keyed_mergeDays (fun k b hb => by cases hb) (mergeDays_eq hwindows ∅)

/-- The days of the answer are uncounted if and only if the hours are. -/
theorem uncounted_days (h : mergeHourlyToDaily o z hourly = some days) :
    (∀ b ∈ days, Uncounted tt b) ↔ ∀ b ∈ hourly, Uncounted tt b := by
  obtain ⟨hwindows, hkeyed, rfl⟩ := mergeHourlyToDaily_eq_some h
  constructor
  · intro hall b hb
    obtain ⟨window, hwindow⟩ := hwindows b hb
    have hkey : dayKey (dailyBucketLocal z) b = some window.1 := by
      unfold dayKey
      rw [hwindow]
      rfl
    obtain ⟨day, hday⟩ := mem_iff_lookup.mp (mem_gather_empty.mpr ⟨b, hb, hkey⟩)
    have hstart := hkeyed window.1 day hday
    have huncounted := hall day ((mem_sortedValues hkeyed).mpr (by rw [hstart]; exact hday))
    rw [lookup_gather_empty, Option.map_eq_some_iff] at hday
    obtain ⟨first, -, rfl⟩ := hday
    exact ((uncounted_foldl _ _).mp huncounted).2 b (mem_ofKey.mpr ⟨hb, hkey⟩)
  · intro hall day hday
    have hlookup := (mem_sortedValues hkeyed).mp hday
    rw [lookup_gather_empty, Option.map_eq_some_iff] at hlookup
    obtain ⟨first, -, hfold⟩ := hlookup
    rw [← hfold]
    exact (uncounted_foldl _ _).mpr ⟨uncounted_empty _, fun b hb => hall b (mem_ofKey.mp hb).1⟩

theorem mergeHourlyToDaily_isSome (h : ∀ b ∈ hourly, ∃ window, dailyBucketLocal z b.startTsMs = some window)
    (o : IterOrder) : ∃ days, mergeHourlyToDaily o z hourly = some days := by
  unfold mergeHourlyToDaily
  rw [mergeDays_eq h]
  exact ⟨_, rfl⟩

end

/-! ### Both answers -/

/-- **The stored buckets for which both answers are the same.** -/
structure Agree (z : Zone) (tt : HistoryTrafficType) (bucket : AggregateBucket)
    (stored : List AggregatedBucket) : Prop where
  uncounted : ∀ b ∈ stored, Uncounted tt b
  ordered : bucket = .hourly →
    stored.Pairwise fun a b => a.startTsMs = b.startTsMs → a.endTsMs ≤ b.endTsMs
  days : bucket = .daily → ∀ b ∈ stored, HasDay z b.startTsMs

section
variable {o : IterOrder} {z : Zone} {tt : HistoryTrafficType} {stored : List AggregatedBucket}

/-- Hours are in the order of their windows if those that begin together are stored in this order. -/
theorem pairwise_window_iff :
    ((stored.mergeSort byStart).Pairwise fun a b => windowLe (windowOf a) (windowOf b) = true) ↔
      stored.Pairwise fun a b => a.startTsMs = b.startTsMs → a.endTsMs ≤ b.endTsMs := by
  have hstable := pairwise_mergeSort_iff (l := stored) (f := AggregatedBucket.startTsMs)
    (R := fun a b => a.endTsMs ≤ b.endTsMs) byStart_trans byStart_total
    fun a b heq => decide_eq_true (UInt64.le_of_eq heq)
  have hsorted := List.pairwise_mergeSort byStart_trans byStart_total stored
  rw [← hstable]
  constructor
  · refine fun h => h.imp fun {a b} hle heq => ?_
    have hle := windowLe_iff.mp hle
    have heq : a.startTsMs.toNat = b.startTsMs.toNat := congrArg UInt64.toNat heq
    rw [UInt64.le_iff_toNat_le]
    simp only [windowOf] at hle
    omega
  · intro h
    refine (h.and hsorted).imp fun {a b} ⟨hends, hle⟩ => windowLe_iff.mpr ?_
    have hle : a.startTsMs.toNat ≤ b.startTsMs.toNat := UInt64.le_iff_toNat_le.mp (of_decide_eq_true hle)
    rw [← UInt64.toNat_inj, UInt64.le_iff_toNat_le] at hends
    unfold windowOf
    dsimp only
    omega

theorem map_finalize_windowOf (l : List AggregatedBucket) :
    (l.map AggregatedBucket.finalize).map windowOf = l.map windowOf := List.map_map

/-- The answer to a query of one device. -/
def answer (o : IterOrder) (z : Zone) (bucket : AggregateBucket) (stored : List AggregatedBucket) :
    Option (List AggregatedBucket) :=
  match bucket with
  | .hourly => some ((stored.mergeSort byStart).map AggregatedBucket.finalize)
  | .daily => (mergeHourlyToDaily o z (stored.mergeSort byStart)).map (List.map AggregatedBucket.finalize)

theorem hourly_iff (hdistinct : (stored.map windowOf).Nodup) :
    (valuesInOrder windowLe (addBuckets ∅ ((stored.mergeSort byStart).map
      AggregatedBucket.finalize))).map (withTrafficType tt) =
        ((stored.mergeSort byStart).map AggregatedBucket.finalize).map (withTrafficType tt) ↔
      Agree z tt .hourly stored := by
  have hperm := (List.mergeSort_perm stored byStart).map windowOf
  have hnodup : (((stored.mergeSort byStart).map AggregatedBucket.finalize).map windowOf).Nodup := by
    rw [map_finalize_windowOf]
    exact hperm.nodup_iff.mpr hdistinct
  rw [map_addBuckets_iff hnodup, List.pairwise_map, List.forall_mem_map]
  show ((stored.mergeSort byStart).Pairwise fun a b => windowLe (windowOf a) (windowOf b) = true) ∧
    (∀ b ∈ stored.mergeSort byStart, Uncounted tt b) ↔ _
  rw [pairwise_window_iff]
  simp only [List.mem_mergeSort]
  exact ⟨fun ⟨hordered, huncounted⟩ => ⟨huncounted, fun _ => hordered, fun h => by cases h⟩,
    fun h => ⟨h.ordered rfl, h.uncounted⟩⟩

theorem daily_iff {days : List AggregatedBucket}
    (hdays : mergeHourlyToDaily o z (stored.mergeSort byStart) = some days) :
    (valuesInOrder windowLe (addBuckets ∅ (days.map AggregatedBucket.finalize))).map
        (withTrafficType tt) = (days.map AggregatedBucket.finalize).map (withTrafficType tt) ↔
      Agree z tt .daily stored := by
  obtain ⟨hwindows, hkeyed, hsortedDays⟩ := mergeHourlyToDaily_eq_some hdays
  have hstarts := pairwise_sortedValues hkeyed o
  rw [← hsortedDays] at hstarts
  have hnodup : ((days.map AggregatedBucket.finalize).map windowOf).Nodup := by
    rw [map_finalize_windowOf]
    refine List.pairwise_map.mpr (hstarts.imp fun {a b} hlt heq => ?_)
    rw [show a.startTsMs = b.startTsMs from congrArg Prod.fst heq] at hlt
    exact UInt64.lt_irrefl _ hlt
  have hsorted : (days.map AggregatedBucket.finalize).Pairwise fun a b =>
      windowLe (windowOf a) (windowOf b) = true :=
    List.pairwise_map.mpr (hstarts.imp fun {a b} hlt =>
      windowLe_iff.mpr (Or.inl (UInt64.lt_iff_toNat_lt.mp hlt)))
  have hhours := @uncounted_days tt _ _ _ _ hdays
  simp only [List.mem_mergeSort] at hhours hwindows
  rw [map_addBuckets_iff hnodup, List.forall_mem_map]
  show _ ∧ (∀ b ∈ days, Uncounted tt b) ↔ _
  rw [hhours]
  exact ⟨fun ⟨_, huncounted⟩ => ⟨huncounted, fun h => (by cases h),
      fun _ b hb => dailyBucketLocal_isSome_iff.mp (hwindows b hb)⟩,
    fun h => ⟨hsorted, h.uncounted⟩⟩

/-- **When adding up the buckets of one device shows what the device has.** -/
theorem answer_iff (bucket : AggregateBucket) (hdistinct : (stored.map windowOf).Nodup) :
    (∃ buckets, answer o z bucket stored = some buckets ∧
      (valuesInOrder windowLe (addBuckets ∅ buckets)).map (withTrafficType tt) =
        buckets.map (withTrafficType tt)) ↔ Agree z tt bucket stored := by
  cases bucket with
  | hourly =>
    rw [← hourly_iff hdistinct]
    unfold answer
    simp only [Option.some.injEq, exists_eq_left']
  | daily =>
    constructor
    · rintro ⟨buckets, hanswer, heq⟩
      obtain ⟨days, hdays, rfl⟩ := Option.map_eq_some_iff.mp hanswer
      exact (daily_iff hdays).mp heq
    · intro h
      have hwindows : ∀ b ∈ stored.mergeSort byStart,
          ∃ window, dailyBucketLocal z b.startTsMs = some window := fun b hb =>
        dailyBucketLocal_isSome_iff.mpr (h.days rfl b (List.mem_mergeSort.mp hb))
      obtain ⟨days, hdays⟩ := mergeHourlyToDaily_isSome hwindows o
      exact ⟨_, Option.map_eq_some_iff.mpr ⟨days, hdays, rfl⟩, (daily_iff hdays).mpr h⟩

end

section
variable {o : IterOrder} {z : Zone} {registry : HashMap DeviceKey KnownDevice}
  {histogram : HistogramHistory} {ifindex : UInt32} {mac : Mac}

/-- The interface has this device and no other. -/
def OnlyDevice (registry : HashMap DeviceKey KnownDevice) (ifindex : UInt32) (mac : Mac) : Prop :=
  ∀ mac', (ifindex, mac') ∈ registry ↔ mac' = mac

theorem macsOf_only (h : OnlyDevice registry ifindex mac) (o : IterOrder) :
    macsOf o registry ifindex = [macToString mac] := by
  have hall : ∀ e ∈ (o.order registry.entries).filter fun e => e.1.1 = ifindex,
      e.1 = (ifindex, mac) := by
    intro e he
    obtain ⟨hmem, hifindex⟩ := List.mem_filter.mp he
    have hifindex := of_decide_eq_true hifindex
    have hkey : (ifindex, e.1.2) ∈ registry := by
      rw [← hifindex]
      exact mem_iff_lookup.mpr ⟨e.2, mem_order_iff.mp hmem⟩
    exact Prod.ext hifindex ((h e.1.2).mp hkey)
  have hnodup : (((o.order registry.entries).filter fun e => e.1.1 = ifindex).map
      Sigma.fst).Nodup :=
    (nodup_order_keys o registry).sublist (List.filter_sublist.map _)
  obtain ⟨d, hd⟩ := mem_iff_lookup.mp ((h mac).mpr rfl)
  have hmem : (⟨(ifindex, mac), d⟩ : Σ _ : DeviceKey, KnownDevice) ∈
      (o.order registry.entries).filter fun e => e.1.1 = ifindex :=
    List.mem_filter.mpr ⟨mem_order_iff.mpr hd, decide_eq_true rfl⟩
  unfold macsOf
  cases hl : (o.order registry.entries).filter fun e => e.1.1 = ifindex with
  | nil => rw [hl] at hmem; cases hmem
  | cons e rest =>
    rw [hl] at hall hnodup
    obtain ⟨he, hrest⟩ := List.forall_mem_cons.mp hall
    cases rest with
    | nil => rw [List.map_singleton, he]
    | cons e' rest =>
      -- two entries have different keys
      obtain ⟨hnot, -⟩ := List.nodup_cons.mp hnodup
      refine absurd ?_ hnot
      rw [he, ← hrest e' List.mem_cons_self]
      exact List.mem_cons_self

theorem queryAggregate_eq (hmac : trim (macToString mac) ≠ "") (startMs endMs : UInt64)
    (bucket : AggregateBucket) :
    queryAggregate o z histogram ifindex (some (macToString mac)) startMs endMs bucket =
      answer o z bucket (inRange o histogram ifindex (macToString mac) startMs endMs) := by
  have hbuckets := hourlyBuckets_eq o histogram ifindex startMs endMs hmac
  unfold queryAggregate answer
  cases bucket with
  | hourly =>
    dsimp only
    rw [hbuckets]
  | daily =>
    dsimp only
    rw [hbuckets]

theorem allDevices_only (h : OnlyDevice registry ifindex mac) (startMs endMs : UInt64)
    (bucket : AggregateBucket) :
    allDevices o z registry histogram ifindex startMs endMs bucket =
      (queryAggregate o z histogram ifindex (some (macToString mac)) startMs endMs bucket).map
        fun buckets => valuesInOrder windowLe (addBuckets ∅ buckets) := by
  unfold allDevices
  rw [macsOf_only h, List.foldlM_cons]
  cases queryAggregate o z histogram ifindex (some (macToString mac)) startMs endMs bucket <;> rfl

end

section
variable {o : IterOrder} {z : Zone} {registry : HashMap DeviceKey KnownDevice}
  {histogram : HistogramHistory} {topology : TopologySnapshot} {snapshot : SnapshotData}
  {nowMs : UInt64} {q : AggregateQuery} {ifindex : UInt32} {mac : Mac} {spelling : String}

/-- The buckets of the device that a query is about. -/
def queried (o : IterOrder) (histogram : HistogramHistory) (nowMs : UInt64) (q : AggregateQuery)
    (ifindex : UInt32) (mac : Mac) : List AggregatedBucket :=
  inRange o histogram ifindex (macToString mac) (q.startMs.getD (satSub nowMs (24 * 3600 * 1000)))
    (q.endMs.getD nowMs)

theorem nodup_queried
    (hdistinct : ((storedBuckets o histogram ifindex (macToString mac)).map windowOf).Nodup) :
    ((queried o histogram nowMs q ifindex mac).map windowOf).Nodup :=
  hdistinct.sublist (List.filter_sublist.map _)

/-- The handler with the MAC address of the device, in any spelling. -/
theorem aggregate_spelled (hiface : resolveQueryIfaceToIfindex o topology snapshot q.iface = .ok ifindex)
    (hspelling : eqIgnoreAsciiCase spelling (macToString mac) = true) :
    aggregate o z registry histogram topology snapshot nowMs { q with mac := some spelling } =
      (answer o z (parseBucket q.bucket) (queried o histogram nowMs q ifindex mac)).map fun buckets =>
        ⟨true, buckets.map (withTrafficType (parseTrafficType q.trafficType)), none⟩ := by
  have hmac : trim (macToString mac) ≠ "" := trim_ne_empty (decide_eq_true rfl)
  have hspelled : trim spelling ≠ "" := trim_ne_empty hspelling
  have hfilter : (some spelling).filter (fun s => trim s ≠ "") = some spelling :=
    Option.filter_some_pos (decide_eq_true hspelled)
  unfold aggregate queried
  dsimp only
  rw [hiface, hfilter]
  dsimp only
  rw [queryAggregate_spelling o histogram ifindex _ _ hspelling hspelled hmac, queryAggregate_eq hmac]

/-- The handler without a MAC address, where there is one device. -/
theorem aggregate_allDevices
    (hiface : resolveQueryIfaceToIfindex o topology snapshot q.iface = .ok ifindex)
    (honly : OnlyDevice registry ifindex mac) :
    aggregate o z registry histogram topology snapshot nowMs { q with mac := none } =
      (answer o z (parseBucket q.bucket) (queried o histogram nowMs q ifindex mac)).map fun buckets =>
        ⟨true, (valuesInOrder windowLe (addBuckets ∅ buckets)).map
          (withTrafficType (parseTrafficType q.trafficType)), none⟩ := by
  have hmac : trim (macToString mac) ≠ "" := trim_ne_empty (decide_eq_true rfl)
  unfold aggregate queried
  dsimp only
  rw [hiface, Option.filter_none]
  dsimp only
  rw [allDevices_only honly, queryAggregate_eq hmac, Option.map_map]
  rfl

end

/-- **When the handler shows for an interface with one device what it shows for the device.** -/
theorem aggregate_single_iff (o : IterOrder) (z : Zone) (registry : HashMap DeviceKey KnownDevice)
    (histogram : HistogramHistory) (topology : TopologySnapshot) (snapshot : SnapshotData)
    (nowMs : UInt64) (q : AggregateQuery) (ifindex : UInt32) (mac : Mac) (spelling : String)
    (hiface : resolveQueryIfaceToIfindex o topology snapshot q.iface = .ok ifindex)
    (honly : OnlyDevice registry ifindex mac)
    (hspelling : eqIgnoreAsciiCase spelling (macToString mac) = true)
    (hdistinct : ((storedBuckets o histogram ifindex (macToString mac)).map windowOf).Nodup) :
    (∃ buckets,
      aggregate o z registry histogram topology snapshot nowMs { q with mac := none } =
          some ⟨true, buckets, none⟩ ∧
        aggregate o z registry histogram topology snapshot nowMs { q with mac := some spelling } =
          some ⟨true, buckets, none⟩) ↔
      Agree z (parseTrafficType q.trafficType) (parseBucket q.bucket)
        (queried o histogram nowMs q ifindex mac) := by
  have hnodup := @nodup_queried o histogram nowMs q ifindex mac hdistinct
  rw [aggregate_spelled hiface hspelling, aggregate_allDevices hiface honly, ← answer_iff (o := o) _ hnodup]
  cases answer o z (parseBucket q.bucket) (queried o histogram nowMs q ifindex mac) with
  | none => simp
  | some buckets =>
    simp only [Option.map_some, Option.some.injEq, ApiEnvelope.mk.injEq, true_and, and_true,
      exists_eq_left']
    exact eq_comm

section Sample

def camera : KnownDevice where
  ifindex := 7
  mac := .replicate 6 2
  ipv4 := ["192.168.7.20"]
  ipv6 := []
  hostname := "camera"
  logicalIface := "lan"
  subnet := "192.168.7.0/24"
  lastSeenMs := 0

def cameraRegistry : HashMap DeviceKey KnownDevice := AList.insert (7, camera.mac) camera ∅

def cameraTopology : TopologySnapshot := .ofInterfaces [⟨7, "br-lan", "lan", [], []⟩]

/-- The bucket of one hour in which the device sent 60 bytes. -/
def cameraBucket (samples : UInt64) : AggregatedBucket :=
  { AggregatedBucket.empty 0 3599999 with sampleCount := samples, bytes := ⟨60, 0, 0, 0⟩ }

def cameraHistory (samples : UInt64) : HistogramHistory where
  maxHours := 1
  maxHours_pos := Nat.one_pos
  iface := ⟨∅, ∅⟩
  device := ⟨AList.insert ⟨7, macToString camera.mac⟩ (cameraBucket samples) ∅, ∅⟩

def cameraQuery : AggregateQuery where
  iface := some "br-lan"
  mac := none
  trafficType := none
  startMs := some 0
  endMs := some 3600000
  bucket := none

theorem only_camera : OnlyDevice cameraRegistry 7 camera.mac := by
  intro mac
  unfold cameraRegistry
  rw [AList.mem_insert]
  simp

theorem resolve_camera :
    resolveQueryIfaceToIfindex .listed cameraTopology ⟨0, [], []⟩ cameraQuery.iface = .ok 7 := by
  decide

theorem queried_camera :
    queried .listed (cameraHistory 1) 0 cameraQuery 7 camera.mac = [cameraBucket 1] := by
  decide

theorem aggregate_single_iff_camera :
    (∃ buckets,
      aggregate .listed utc cameraRegistry (cameraHistory 0) cameraTopology ⟨0, [], []⟩ 0
            { cameraQuery with mac := none } = some ⟨true, buckets, none⟩ ∧
        aggregate .listed utc cameraRegistry (cameraHistory 0) cameraTopology ⟨0, [], []⟩ 0
            { cameraQuery with mac := some "02:02:02:02:02:02" } = some ⟨true, buckets, none⟩) ↔
      Agree utc .all .hourly (queried .listed (cameraHistory 0) 0 cameraQuery 7 camera.mac) :=
  aggregate_single_iff .listed utc cameraRegistry (cameraHistory 0) cameraTopology ⟨0, [], []⟩ 0
    cameraQuery 7 camera.mac "02:02:02:02:02:02" resolve_camera only_camera (by decide) (by decide)

/-- **An hour with one sample shows no samples when no device is asked for.** -/
theorem aggregate_counted_hour :
    OnlyDevice cameraRegistry 7 camera.mac ∧
      ((storedBuckets .listed (cameraHistory 1) 7 (macToString camera.mac)).map windowOf).Nodup ∧
      aggregate .listed utc cameraRegistry (cameraHistory 1) cameraTopology ⟨0, [], []⟩ 0
          { cameraQuery with mac := none } ≠
        aggregate .listed utc cameraRegistry (cameraHistory 1) cameraTopology ⟨0, [], []⟩ 0
          { cameraQuery with mac := some "02:02:02:02:02:02" } := by
  have hdistinct : ((storedBuckets .listed (cameraHistory 1) 7 (macToString camera.mac)).map
      windowOf).Nodup := by decide
  refine ⟨only_camera, hdistinct, fun heq => ?_⟩
  have hnodup : ((queried .listed (cameraHistory 1) 0 cameraQuery 7 camera.mac).map windowOf).Nodup :=
    nodup_queried hdistinct
  have hspelling : eqIgnoreAsciiCase "02:02:02:02:02:02" (macToString camera.mac) = true := by decide
  rw [aggregate_allDevices resolve_camera only_camera, aggregate_spelled resolve_camera hspelling] at heq
  have hsame := congrArg ApiEnvelope.data (Option.some.inj heq)
  have hagree : Agree utc .all .hourly _ := (hourly_iff hnodup).mp hsame
  rw [queried_camera] at hagree
  exact absurd (hagree.uncounted (cameraBucket 1) List.mem_cons_self) (by decide)

end Sample

end BandixPlus.Api.Aggregate
