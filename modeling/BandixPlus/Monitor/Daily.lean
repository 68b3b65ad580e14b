import BandixPlus.Lib.Tally
import BandixPlus.Monitor.Query
import Mathlib.Data.List.Flatten
import Mathlib.Data.List.Induction

/-! # Days are made of hours

`merge_hourly_to_daily` against a bucket that counts all samples of the day itself. The sums, the counts
and the maxima agree. The minimum of an hour may be 0, which the merge takes for a day that has no
minimum yet.

* `foldl_addSample_flatMap`: counting the samples of several hours is joining their buckets, with the
  true minimum.
* `mergeHourlyToDaily_iff`: the days are those of direct counting if and only if the zone gives the ends
  of every hour's day a single offset, and of the hours of one day either all have the minimum 0 or none,
  for each of the four rates. -/

namespace BandixPlus.Monitor.Daily

open BandixPlus.Lib.LocalTime BandixPlus.Lib.Maps BandixPlus.Lib.Saturating BandixPlus.Lib.Sorting
open BandixPlus.Lib.Tally BandixPlus.Monitor.Counters BandixPlus.Monitor.Histogram
open BandixPlus.Monitor.Query BandixPlus.Monitor.Windows

/-- An hour of one or more samples, between the bounds of `hourly_bucket_local`. -/
structure Hour (z : Zone) where
  startTsMs : UInt64
  endTsMs : UInt64
  window : ∃ ts, hourlyBucketLocal z ts = some (startTsMs, endTsMs)
  samples : List CounterQuad
  nonempty : samples ≠ []

variable {z : Zone}

/-- The bucket that ingested the samples. -/
def Hour.bucket (h : Hour z) : AggregatedBucket :=
  h.samples.foldl addSample (.empty h.startTsMs h.endTsMs)

/-- The local day that the hour begins on. -/
def Hour.date (h : Hour z) : ℤ := dateNaive (z.wall (asI64 h.startTsMs))

def hoursOf (hours : List (Hour z)) (date : ℤ) : List (Hour z) := hours.filter fun h => h.date = date

/-- The bucket that ingested all samples of a day. -/
def directBucket (window : UInt64 × UInt64) (hours : List (Hour z)) (date : ℤ) : AggregatedBucket :=
  (((hoursOf hours date).flatMap Hour.samples).foldl addSample (.empty window.1 window.2)).finalize

/-- **The days are what direct aggregation gives**: one for each local day that has an hour, sorted. -/
def Direct (o : IterOrder) (hours : List (Hour z)) : Prop :=
  ∃ daily, (mergeHourlyToDaily o z (hours.map Hour.bucket)).map (List.map AggregatedBucket.finalize) =
      some daily ∧
    daily.Pairwise (fun a b => a.startTsMs < b.startTsMs) ∧
    ∀ b, b ∈ daily ↔ ∃ h ∈ hours, ∃ window, dailyBucketLocal z h.startTsMs = some window ∧
      b = directBucket window hours h.date

/-- **The ends of every hour's day have a single offset, and the hours of a day agree on which of their
minima are 0.** -/
structure Mergeable (hours : List (Hour z)) : Prop where
  days : ∀ h ∈ hours, HasDay z h.startTsMs
  minima : ∀ h ∈ hours, ∀ h' ∈ hours, h.date = h'.date →
    ∀ l, h.bucket.bpsMin.get l = 0 ↔ h'.bucket.bpsMin.get l = 0

/-! ### Minima -/

section
variable (m : UInt64) (ms : List UInt64)

theorem lowerMin_eq_zero {a b : UInt64} : lowerMin a b = 0 ↔ a = 0 ∧ b = 0 := by
  unfold lowerMin
  split_ifs with h
  · simp only [← UInt64.toNat_inj, UInt64.lt_iff_toNat_lt, UInt64.toNat_zero] at h ⊢
    omega
  · have ha : a ≠ 0 := fun ha => h (Or.inl ha)
    simp [ha]

theorem lowerMin_eq_min {a b : UInt64} (ha : a ≠ 0) (hb : b ≠ 0) : lowerMin a b = min a b := by
  unfold lowerMin
  split_ifs with h <;>
  · simp only [← UInt64.toNat_inj, ne_eq, UInt64.lt_iff_toNat_lt, UInt64.toNat_zero,
      UInt64.toNat_min] at ha hb h ⊢
    omega

theorem foldl_lowerMin_eq_zero : ms.foldl lowerMin m = 0 ↔ m = 0 ∧ ∀ a ∈ ms, a = 0 := by
  induction ms generalizing m with
  | nil => simp
  | cons a rest ih => rw [List.foldl_cons, ih, lowerMin_eq_zero, List.forall_mem_cons, and_assoc]

theorem min_eq_zero {a b : UInt64} : min a b = 0 ↔ a = 0 ∨ b = 0 := by
  rw [← UInt64.toNat_inj, ← UInt64.toNat_inj, ← UInt64.toNat_inj, UInt64.toNat_min, UInt64.toNat_zero]
  omega

theorem foldl_min_eq_zero : ms.foldl min m = 0 ↔ m = 0 ∨ ∃ a ∈ ms, a = 0 := by
  induction ms generalizing m with
  | nil => simp
  | cons a rest ih => rw [List.foldl_cons, ih, min_eq_zero, List.exists_mem_cons_iff, or_assoc]

theorem foldl_lowerMin_eq_min (hm : m ≠ 0) (hms : ∀ a ∈ ms, a ≠ 0) :
    ms.foldl lowerMin m = ms.foldl min m := by
  induction ms generalizing m with
  | nil => rfl
  | cons a rest ih =>
    obtain ⟨ha, hrest⟩ := List.forall_mem_cons.mp hms
    have hmin : min m a ≠ 0 := fun h => (min_eq_zero.mp h).elim hm ha
    rw [List.foldl_cons, List.foldl_cons, lowerMin_eq_min hm ha, ih (min m a) hmin hrest]

/-- **The merge finds the minimum if and only if no hour has the minimum 0, or every hour has it.** -/
theorem foldl_lowerMin_eq_iff :
    ms.foldl lowerMin m = ms.foldl min m ↔ ∀ a ∈ ms, a = 0 ↔ m = 0 := by
  constructor
  · intro heq a ha
    constructor
    · intro hzero
      have hmin : ms.foldl min m = 0 := (foldl_min_eq_zero m ms).mpr (Or.inr ⟨a, ha, hzero⟩)
      exact ((foldl_lowerMin_eq_zero m ms).mp (heq.trans hmin)).1
    · intro hzero
      have hmin : ms.foldl min m = 0 := (foldl_min_eq_zero m ms).mpr (Or.inl hzero)
      exact ((foldl_lowerMin_eq_zero m ms).mp (heq.trans hmin)).2 a ha
  · intro hall
    by_cases hm : m = 0
    · have hlower : ms.foldl lowerMin m = 0 :=
        (foldl_lowerMin_eq_zero m ms).mpr ⟨hm, fun a ha => (hall a ha).mpr hm⟩
      have hmin : ms.foldl min m = 0 := (foldl_min_eq_zero m ms).mpr (Or.inl hm)
      rw [hlower, hmin]
    · exact foldl_lowerMin_eq_min m ms hm fun a ha => mt (hall a ha).mp hm

end

/-! ### Joining buckets -/

/-- Count the samples of a bucket in another one. -/
def join (acc b : AggregatedBucket) : AggregatedBucket :=
  { acc with
    bytes := addSat acc.bytes b.bytes
    bpsMin := if acc.sampleCount = 0 then b.bpsMin else Quad.zip min acc.bpsMin b.bpsMin
    bpsMax := Quad.zip max acc.bpsMax b.bpsMax
    bpsSum := addSat acc.bpsSum b.bpsSum
    sampleCount := satAdd acc.sampleCount b.sampleCount }

theorem addSat_assoc (p q r : Quad UInt64) : addSat (addSat p q) r = addSat p (addSat q r) :=
  add_assoc (G := Quad UInt64) p q r

theorem zip_assoc {f : UInt64 → UInt64 → UInt64} (hf : ∀ a b c, f (f a b) c = f a (f b c))
    (p q r : Quad UInt64) : Quad.zip f (Quad.zip f p q) r = Quad.zip f p (Quad.zip f q r) :=
  Quad.ext (hf _ _ _) (hf _ _ _) (hf _ _ _) (hf _ _ _)

theorem zip_max_zero (q : Quad UInt64) : Quad.zip max (.const 0) q = q := by
  have hmax : ∀ a : UInt64, max 0 a = a := by
    intro a
    rw [← UInt64.toNat_inj, UInt64.toNat_max, UInt64.toNat_zero, Nat.zero_max]
  exact Quad.ext (hmax _) (hmax _) (hmax _) (hmax _)

theorem zip_min_assoc (p q r : Quad UInt64) :
    Quad.zip min (Quad.zip min p q) r = Quad.zip min p (Quad.zip min q r) := by
  refine zip_assoc (fun a b c => ?_) p q r
  rw [← UInt64.toNat_inj]
  simp only [UInt64.toNat_min]
  omega

theorem zip_max_assoc (p q r : Quad UInt64) :
    Quad.zip max (Quad.zip max p q) r = Quad.zip max p (Quad.zip max q r) := by
  refine zip_assoc (fun a b c => ?_) p q r
  rw [← UInt64.toNat_inj]
  simp only [UInt64.toNat_max]
  omega

theorem zero_addSat (q : Quad UInt64) : addSat (.const 0) q = q := zero_add (M := Quad UInt64) q

theorem toNat_sampleCount {samples : List CounterQuad} {b : AggregatedBucket}
    (h : b.sampleCount.toNat + samples.length < 2 ^ 64) :
    (samples.foldl addSample b).sampleCount.toNat = b.sampleCount.toNat + samples.length := by
  induction samples generalizing b with
  | nil => rfl
  | cons m rest ih =>
    rw [List.length_cons] at h ⊢
    have hone : (addSample b m).sampleCount.toNat = b.sampleCount.toNat + 1 := by
      show (b.sampleCount + 1).toNat = _
      rw [UInt64.toNat_add, UInt64.toNat_one]
      omega
    rw [List.foldl_cons, ih (by omega), hone]
    omega

theorem satAdd_add_one {a b : UInt64} (h : a.toNat + b.toNat + 1 < 2 ^ 64) :
    satAdd a b + 1 = satAdd a (b + 1) := by
  have hone : (b + 1).toNat = b.toNat + 1 := by
    rw [UInt64.toNat_add, UInt64.toNat_one]
    omega
  rw [← UInt64.toNat_inj, UInt64.toNat_add, toNat_satAdd, toNat_satAdd, hone, UInt64.toNat_one]
  omega

/-- One more sample after a join. -/
theorem addSample_join {acc b : AggregatedBucket} {m : CounterQuad} (hb : b.sampleCount ≠ 0)
    (h : acc.sampleCount.toNat + b.sampleCount.toNat + 1 < 2 ^ 64) :
    addSample (join acc b) m = join acc (addSample b m) := by
  have hsat : satAdd acc.sampleCount b.sampleCount ≠ 0 := by
    rw [← UInt64.toNat_inj.ne, toNat_satAdd, UInt64.toNat_zero]
    rw [← UInt64.toNat_inj.ne, UInt64.toNat_zero] at hb
    omega
  have hmin : (if acc.sampleCount = 0 then Quad.zip min b.bpsMin m.bps else
      Quad.zip min acc.bpsMin (Quad.zip min b.bpsMin m.bps)) =
      Quad.zip min (if acc.sampleCount = 0 then b.bpsMin else Quad.zip min acc.bpsMin b.bpsMin)
        m.bps := by
    split_ifs
    · rfl
    · exact (zip_min_assoc _ _ _).symm
  unfold addSample join
  dsimp only
  rw [if_neg hsat, if_neg hb, hmin, addSat_assoc, addSat_assoc, zip_max_assoc,
    satAdd_add_one h]

/-- **Counting the samples of an hour is joining its bucket.** -/
theorem foldl_addSample {samples : List CounterQuad} (hne : samples ≠ []) {acc : AggregatedBucket}
    (h : acc.sampleCount.toNat + samples.length < 2 ^ 64) (startTs endTs : UInt64) :
    samples.foldl addSample acc = join acc (samples.foldl addSample (.empty startTs endTs)) := by
  have hzero : (AggregatedBucket.empty startTs endTs).sampleCount.toNat = 0 := rfl
  induction samples using List.reverseRecOn with
  | nil => exact absurd rfl hne
  | append_singleton rest m ih =>
    rw [List.length_append, List.length_singleton] at h
    rw [List.foldl_append, List.foldl_append]
    show addSample (rest.foldl addSample acc) m = join acc (addSample _ m)
    cases rest with
    | nil =>
      -- the first sample
      unfold addSample join
      simp only [List.foldl_nil, AggregatedBucket.empty, zero_addSat, zip_max_zero]
      have hone : acc.sampleCount + 1 = satAdd acc.sampleCount (0 + 1) := by
        rw [← satAdd_add_one (by rw [UInt64.toNat_zero]; exact h), satAdd_zero]
      rw [hone]
      rfl
    | cons first rest =>
      have hcount := @toNat_sampleCount (first :: rest) (.empty startTs endTs) (by omega)
      rw [ih (List.cons_ne_nil _ _) (by omega)]
      refine addSample_join ?_ (by omega)
      rw [← UInt64.toNat_inj.ne, hcount, List.length_cons]
      exact Nat.succ_ne_zero _

section
variable {hours : List (Hour z)}

theorem toNat_sampleCount_join (acc b : AggregatedBucket) : (join acc b).sampleCount.toNat =
    min (acc.sampleCount.toNat + b.sampleCount.toNat) (2 ^ 64 - 1) := toNat_satAdd _ _

/-- The samples of an hour are counted, unless there are 2^64 of them. -/
theorem Hour.toNat_sampleCount (h : Hour z) (hlt : h.samples.length < 2 ^ 64) :
    h.bucket.sampleCount.toNat = h.samples.length := by
  have hzero : (AggregatedBucket.empty h.startTsMs h.endTsMs).sampleCount.toNat = 0 := rfl
  have hcount := @Daily.toNat_sampleCount h.samples (.empty h.startTsMs h.endTsMs) (by omega)
  unfold Hour.bucket
  omega

/-- **Counting the samples of several hours is joining their buckets.** -/
theorem foldl_addSample_flatMap {acc : AggregatedBucket}
    (h : acc.sampleCount.toNat + (hours.flatMap Hour.samples).length < 2 ^ 64) :
    (hours.flatMap Hour.samples).foldl addSample acc = (hours.map Hour.bucket).foldl join acc := by
  induction hours generalizing acc with
  | nil => rfl
  | cons hour rest ih =>
    rw [List.flatMap_cons, List.length_append] at h
    have hjoin := @foldl_addSample hour.samples hour.nonempty acc (by omega) hour.startTsMs
      hour.endTsMs
    have hcount := hour.toNat_sampleCount (by omega)
    rw [List.flatMap_cons, List.foldl_append, List.map_cons, List.foldl_cons, hjoin]
    refine ih ?_
    show (join acc hour.bucket).sampleCount.toNat + _ < _
    rw [toNat_sampleCount_join]
    omega

end

/-! ### Merging and joining -/

/-- Two buckets that differ in their minima at most, and in what finalizing replaces. -/
structure SameFigures (a b : AggregatedBucket) : Prop where
  startTsMs : a.startTsMs = b.startTsMs
  endTsMs : a.endTsMs = b.endTsMs
  sampleCount : a.sampleCount = b.sampleCount
  bytes : a.bytes = b.bytes
  bpsSum : a.bpsSum = b.bpsSum
  bpsMax : a.bpsMax = b.bpsMax

theorem sameFigures_step {a b : AggregatedBucket} (h : SameFigures a b) (hour : AggregatedBucket) :
    SameFigures (mergeBucket a hour) (join b hour) := by
  obtain ⟨hstart, hend, hcount, hbytes, hsum, hmax⟩ := h
  unfold mergeBucket join
  exact ⟨hstart, hend, by simp [hcount], by simp [hbytes], by simp [hsum], by simp [hmax]⟩

/-- The merge differs from the join in the minima only. -/
theorem sameFigures_foldl (bs : List AggregatedBucket) {a b : AggregatedBucket}
    (h : SameFigures a b) : SameFigures (bs.foldl mergeBucket a) (bs.foldl join b) := by
  induction bs generalizing a b with
  | nil => exact h
  | cons hour rest ih => exact ih (sameFigures_step h hour)

theorem finalize_eq_iff {a b : AggregatedBucket} (h : SameFigures a b) (hcount : b.sampleCount ≠ 0) :
    a.finalize = b.finalize ↔ a.bpsMin = b.bpsMin := by
  obtain ⟨hstart, hend, hsample, hbytes, hsum, hmax⟩ := h
  have hpos : 0 < b.sampleCount := UInt64.pos_iff_ne_zero.mpr hcount
  constructor
  · intro heq
    have hmin : a.finalize.bpsMin = b.finalize.bpsMin := by rw [heq]
    exact hmin
  · intro hmin
    unfold AggregatedBucket.finalize
    rw [hsample, if_pos hpos, if_pos hpos, hstart, hend, hbytes, hsum, hmax, hmin]

theorem bpsMin_foldl_merge (bs : List AggregatedBucket) (acc : AggregatedBucket) (l : Lane) :
    (bs.foldl mergeBucket acc).bpsMin.get l =
      (bs.map fun b => b.bpsMin.get l).foldl lowerMin (acc.bpsMin.get l) := by
  induction bs generalizing acc with
  | nil => rfl
  | cons b rest ih =>
    have hstep : (mergeBucket acc b).bpsMin.get l = lowerMin (acc.bpsMin.get l) (b.bpsMin.get l) :=
      Quad.get_zip _ _ _ _
    rw [List.foldl_cons, ih, hstep]
    rfl

theorem sampleCount_join_ne {acc : AggregatedBucket} (h : acc.sampleCount ≠ 0)
    (b : AggregatedBucket) : (join acc b).sampleCount ≠ 0 := by
  have hcount := toNat_sampleCount_join acc b
  rw [← UInt64.toNat_inj.ne, UInt64.toNat_zero] at h ⊢
  omega

theorem bpsMin_foldl_join (bs : List AggregatedBucket) {acc : AggregatedBucket}
    (h : acc.sampleCount ≠ 0) (l : Lane) :
    (bs.foldl join acc).bpsMin.get l =
      (bs.map fun b => b.bpsMin.get l).foldl min (acc.bpsMin.get l) := by
  induction bs generalizing acc with
  | nil => rfl
  | cons b rest ih =>
    have hstep : (join acc b).bpsMin.get l = min (acc.bpsMin.get l) (b.bpsMin.get l) := by
      unfold join
      dsimp only
      rw [if_neg h, Quad.get_zip]
    rw [List.foldl_cons, ih (sampleCount_join_ne h b), hstep]
    rfl

theorem sampleCount_foldl_join_ne (bs : List AggregatedBucket) {acc : AggregatedBucket}
    (h : acc.sampleCount ≠ 0) : (bs.foldl join acc).sampleCount ≠ 0 := by
  induction bs generalizing acc with
  | nil => exact h
  | cons b rest ih => exact ih (sampleCount_join_ne h b)

theorem quad_ext_get {q r : Quad UInt64} : q = r ↔ ∀ l, q.get l = r.get l :=
  ⟨fun h l => by rw [h], fun h => Quad.ext (h .upV4) (h .downV4) (h .upV6) (h .downV6)⟩

/-- **When a day is that of direct aggregation.** -/
theorem merge_eq_join_iff {hour : AggregatedBucket} (hcount : hour.sampleCount ≠ 0)
    (rest : List AggregatedBucket) (window : UInt64 × UInt64) :
    ((hour :: rest).foldl mergeBucket (.empty window.1 window.2)).finalize =
        ((hour :: rest).foldl join (.empty window.1 window.2)).finalize ↔
      ∀ b ∈ rest, ∀ l, b.bpsMin.get l = 0 ↔ hour.bpsMin.get l = 0 := by
  -- the first hour of a day gives its minima to both
  have hfirst : (join (.empty window.1 window.2) hour).bpsMin = hour.bpsMin := rfl
  have hfirst' : ∀ l, (mergeBucket (.empty window.1 window.2) hour).bpsMin.get l =
      hour.bpsMin.get l := by
    intro l
    have hstep : (mergeBucket (.empty window.1 window.2) hour).bpsMin.get l =
        lowerMin ((Quad.const 0).get l) (hour.bpsMin.get l) := Quad.get_zip _ _ _ _
    rw [hstep, Quad.get_const]
    exact if_pos (Or.inl rfl)
  have hne : (join (.empty window.1 window.2) hour).sampleCount ≠ 0 := by
    unfold join
    show satAdd 0 hour.sampleCount ≠ 0
    rw [zero_satAdd]
    exact hcount
  have hsame := sameFigures_foldl (hour :: rest) (a := .empty window.1 window.2)
    (b := .empty window.1 window.2) ⟨rfl, rfl, rfl, rfl, rfl, rfl⟩
  have hlane : ∀ l, ((hour :: rest).foldl mergeBucket (.empty window.1 window.2)).bpsMin.get l =
      ((hour :: rest).foldl join (.empty window.1 window.2)).bpsMin.get l ↔
        ∀ b ∈ rest, b.bpsMin.get l = 0 ↔ hour.bpsMin.get l = 0 := by
    intro l
    rw [List.foldl_cons, List.foldl_cons, bpsMin_foldl_merge, bpsMin_foldl_join rest hne, hfirst,
      hfirst', foldl_lowerMin_eq_iff, List.forall_mem_map]
  rw [finalize_eq_iff hsame (sampleCount_foldl_join_ne rest hne), quad_ext_get]
  simp only [hlane]
  exact ⟨fun h b hb l => h l b hb, fun h l b hb => h b hb l⟩

/-! ### Local days -/

/-- What is asked of the library: the midnight of a day that an instant is on, if it is single, is on
this day. The clock may show more than midnight there, when it is put forward at midnight. -/
def DatedMidnights (z : Zone) : Prop :=
  ∀ t, Representable t → Representable (z.wall t) → ∀ o, z.SingleAt (dayStart (z.wall t)) o →
    dateNaive (z.wall (o.instantOf (dayStart (z.wall t)))) = dateNaive (z.wall t)

theorem datedMidnights_fixed (o : ℤ) (ho : -86400 < o ∧ o < 86400) : DatedMidnights (.fixed o ho) := by
  rintro t - - _ ⟨hsingle, -⟩
  cases hsingle
  unfold Zone.wall FixedOffset.wallOf FixedOffset.instantOf Zone.fixed dayStart andHmsMilli dateNaive
  dsimp only
  omega

/-- The library keeps this in a zone whose clock is changed once. -/
theorem datedMidnights_change (transition : ℤ) (before after : FixedOffset) :
    DatedMidnights (.change transition before after) := by
  rintro t - - o ⟨hsingle, -⟩
  obtain ⟨hchanged, hanswer⟩ := offsetFromLocal_change.mp hsingle
  revert hchanged hanswer
  unfold Changed Zone.wall FixedOffset.wallOf FixedOffset.instantOf Zone.change dayStart andHmsMilli
    dateNaive
  dsimp only
  intro hchanged hanswer
  have hbefore := before.bound
  have hafter := after.bound
  rcases hanswer with ⟨rfl, hside⟩ | ⟨rfl, hside⟩ <;> split_ifs at * <;> omega

theorem representable_iff {wall : ℤ} :
    Representable wall ↔ -96465292 ≤ dateNaive wall ∧ dateNaive wall ≤ 95026236 := by
  have hmin : minMs = -8334601228800000 := rfl
  have hmax : maxMs = 8210266876799999 := rfl
  unfold Representable dateNaive
  omega

/-- The bounds of a window are instants of the library. -/
theorem Hour.representable (h : Hour z) : Representable (asI64 h.startTsMs) := by
  obtain ⟨ts, hts⟩ := h.window
  by_cases hrep : Representable (asI64 ts)
  · obtain ⟨-, ⟨o, ho, hstart⟩, -⟩ := (bucketLocal_eq_some hrep).mp hts
    have hstart' : _ = h.startTsMs := hstart
    rw [← hstart', asI64_asU64 ho.2]
    exact ho.2
  · unfold hourlyBucketLocal bucketLocal at hts
    rw [if_neg hrep] at hts
    rw [← (Prod.mk.inj (Option.some.inj hts)).1]
    decide

/-- The window of a day, by its date. -/
def dayWindow (z : Zone) (date : ℤ) : Option (UInt64 × UInt64) :=
  (z.fromLocal (andHmsMilli date 0 0 0 0)).unwrap.bind fun startTs =>
    (z.fromLocal (andHmsMilli date 23 59 59 999)).unwrap.map fun endTs => (asU64 startTs, asU64 endTs)

section
variable {h h' : Hour z}

theorem dailyBucketLocal_eq (h : Hour z) : dailyBucketLocal z h.startTsMs =
    if -96465292 ≤ h.date ∧ h.date ≤ 95026236 then dayWindow z h.date else none := by
  unfold dailyBucketLocal bucketLocal
  rw [if_pos h.representable]
  dsimp only
  exact if_congr representable_iff rfl rfl

/-- Hours of one day have one window. -/
theorem dailyBucketLocal_congr (hdate : h.date = h'.date) :
    dailyBucketLocal z h.startTsMs = dailyBucketLocal z h'.startTsMs := by
  rw [dailyBucketLocal_eq, dailyBucketLocal_eq, hdate]

/-- The first millisecond of a day tells its date. -/
theorem date_eq_of_window (hz : DatedMidnights z) {window window' : UInt64 × UInt64}
    (hw : dailyBucketLocal z h.startTsMs = some window)
    (hw' : dailyBucketLocal z h'.startTsMs = some window') (hstart : window.1 = window'.1) :
    h.date = h'.date := by
  have hmidnight : ∀ (h : Hour z) (window : UInt64 × UInt64),
      dailyBucketLocal z h.startTsMs = some window →
        h.date = dateNaive (z.wall (asI64 window.1)) := by
    intro h window hw
    obtain ⟨hwall, ⟨o, ho, hstart⟩, -⟩ := (bucketLocal_eq_some h.representable).mp hw
    rw [← hstart, asI64_asU64 ho.2]
    exact (hz _ h.representable hwall o ho).symm
  rw [hmidnight h window hw, hmidnight h' window' hw', hstart]

end

/-! ### The map of the days -/

section
variable {daily : UInt64 → Option (UInt64 × UInt64)} {bs : List AggregatedBucket}

/-- The day that a bucket is counted under. -/
def dayKey (daily : UInt64 → Option (UInt64 × UInt64)) (b : AggregatedBucket) : Option UInt64 :=
  (daily b.startTsMs).map Prod.fst

/-- The day that a bucket begins. -/
def newDay (daily : UInt64 → Option (UInt64 × UInt64)) (b : AggregatedBucket) : AggregatedBucket :=
  let window := (daily b.startTsMs).getD (0, 0)
  .empty window.1 window.2

/-- The merge gathers the hours by day, if all have one. -/
theorem mergeDays_eq (h : ∀ b ∈ bs, ∃ window, daily b.startTsMs = some window)
    (byDay : HashMap UInt64 AggregatedBucket) :
    mergeDays daily byDay bs = some (gather (dayKey daily) (newDay daily) mergeBucket bs byDay) := by
  induction bs generalizing byDay with
  | nil => rfl
  | cons b rest ih =>
    obtain ⟨⟨window, hwindow⟩, hrest⟩ := List.forall_mem_cons.mp h
    unfold mergeDays
    rw [hwindow, Option.bind_some]
    dsimp only
    rw [ih hrest]
    unfold gather dayKey newDay
    rw [List.foldl_cons, hwindow]
    rfl

theorem windows_of_mergeDays {byDay byDay' : HashMap UInt64 AggregatedBucket}
    (h : mergeDays daily byDay bs = some byDay') :
    ∀ b ∈ bs, ∃ window, daily b.startTsMs = some window := by
  induction bs generalizing byDay with
  | nil => exact fun b hb => absurd hb List.not_mem_nil
  | cons b rest ih =>
    obtain ⟨window, hwindow, hrest⟩ := Option.bind_eq_some_iff.mp h
    exact List.forall_mem_cons.mpr ⟨⟨window, hwindow⟩, ih hrest⟩

end

section
variable {hours : List (Hour z)} {h : Hour z} {window : UInt64 × UInt64}

theorem mem_hoursOf {date : ℤ} : h ∈ hoursOf hours date ↔ h ∈ hours ∧ h.date = date := by
  simp [hoursOf]

/-- The day of an hour has an hour. -/
theorem exists_hoursOf_eq_cons (hh : h ∈ hours) :
    ∃ first ∈ hoursOf hours h.date, ∃ rest, hoursOf hours h.date = first :: rest := by
  have hmem : h ∈ hoursOf hours h.date := mem_hoursOf.mpr ⟨hh, rfl⟩
  obtain ⟨first, rest, heq⟩ := List.exists_cons_of_ne_nil (List.ne_nil_of_mem hmem)
  exact ⟨first, heq ▸ List.mem_cons_self, rest, heq⟩

theorem startTsMs_foldl_addSample (samples : List CounterQuad) (b : AggregatedBucket) :
    (samples.foldl addSample b).startTsMs = b.startTsMs := by
  induction samples generalizing b with
  | nil => rfl
  | cons m rest ih =>
    rw [List.foldl_cons, ih]
    rfl

theorem Hour.startTsMs_bucket (h : Hour z) : h.bucket.startTsMs = h.startTsMs :=
  startTsMs_foldl_addSample _ _

theorem dayKey_bucket (hw : dailyBucketLocal z h.startTsMs = some window) :
    dayKey (dailyBucketLocal z) h.bucket = some window.1 := by
  unfold dayKey
  rw [h.startTsMs_bucket, hw]
  rfl

/-- The bucket of a day as the hours are merged. -/
def mergedBucket (window : UInt64 × UInt64) (hours : List (Hour z)) (date : ℤ) : AggregatedBucket :=
  ((hoursOf hours date).map Hour.bucket).foldl mergeBucket (.empty window.1 window.2)

variable (hz : DatedMidnights z)
  (hwindows : ∀ h ∈ hours, ∃ window, dailyBucketLocal z h.startTsMs = some window)
include hz hwindows

/-- The buckets under a day are those of its hours. -/
theorem ofKey_map_bucket (hw : dailyBucketLocal z h.startTsMs = some window) :
    ofKey (dayKey (dailyBucketLocal z)) window.1 (hours.map Hour.bucket) =
      (hoursOf hours h.date).map Hour.bucket := by
  unfold ofKey hoursOf
  rw [List.filter_map]
  refine congrArg _ (List.filter_congr fun h' hh' => ?_)
  obtain ⟨window', hw'⟩ := hwindows h' hh'
  show decide (dayKey (dailyBucketLocal z) h'.bucket = some window.1) = decide (h'.date = h.date)
  rw [dayKey_bucket hw', decide_eq_decide]
  constructor
  · intro hstart
    exact date_eq_of_window hz hw' hw (Option.some.inj hstart)
  · intro hdate
    have hsame := dailyBucketLocal_congr hdate
    rw [hw', hw] at hsame
    rw [Option.some.inj hsame]

theorem lookup_day (hh : h ∈ hours) (hw : dailyBucketLocal z h.startTsMs = some window) :
    (gather (dayKey (dailyBucketLocal z)) (newDay (dailyBucketLocal z)) mergeBucket
      (hours.map Hour.bucket) ∅).lookup window.1 = some (mergedBucket window hours h.date) := by
  rw [lookup_gather_empty, ofKey_map_bucket hz hwindows hw, Option.map_eq_some_iff]
  obtain ⟨first, hfirst, rest, hhours⟩ := exists_hoursOf_eq_cons hh
  have hnew : newDay (dailyBucketLocal z) first.bucket = .empty window.1 window.2 := by
    unfold newDay
    rw [first.startTsMs_bucket, dailyBucketLocal_congr (mem_hoursOf.mp hfirst).2, hw]
    rfl
  rw [hhours]
  refine ⟨first.bucket, rfl, ?_⟩
  unfold mergedBucket
  rw [hhours, hnew]

/-- **The days of the answer**, before they are finalized. -/
theorem mergeHourlyToDaily_spec (o : IterOrder) :
    ∃ daily, mergeHourlyToDaily o z (hours.map Hour.bucket) = some daily ∧
      daily.Pairwise (fun a b => a.startTsMs < b.startTsMs) ∧
      ∀ b, b ∈ daily ↔ ∃ h ∈ hours, ∃ window, dailyBucketLocal z h.startTsMs = some window ∧
        b = mergedBucket window hours h.date := by
  have hbuckets : ∀ b ∈ hours.map Hour.bucket,
      ∃ window, dailyBucketLocal z b.startTsMs = some window := by
    refine List.forall_mem_map.mpr fun h hh => ?_
    rw [h.startTsMs_bucket]
    exact hwindows h hh
  have hmerge := mergeDays_eq hbuckets ∅
  have hkeyed := keyed_mergeDays (fun k b hb => by cases hb) hmerge
  refine ⟨_, by unfold mergeHourlyToDaily; rw [hmerge]; rfl, pairwise_sortedValues hkeyed o,
    fun b => ?_⟩
  rw [mem_sortedValues hkeyed]
  constructor
  · intro hlookup
    obtain ⟨b', hb', hkey⟩ := mem_gather_empty.mp (mem_iff_lookup.mpr ⟨b, hlookup⟩)
    obtain ⟨h, hh, rfl⟩ := List.mem_map.mp hb'
    obtain ⟨window, hw⟩ := hwindows h hh
    rw [dayKey_bucket hw] at hkey
    rw [← Option.some.inj hkey, lookup_day hz hwindows hh hw] at hlookup
    exact ⟨h, hh, window, hw, (Option.some.inj hlookup).symm⟩
  · rintro ⟨h, hh, window, hw, rfl⟩
    have hlookup := lookup_day hz hwindows hh hw
    rw [hkeyed _ _ hlookup]
    exact hlookup

end

/-! ### Direct aggregation -/

section
variable {hours : List (Hour z)} {h : Hour z}

/-- **When the day of an hour is that of direct aggregation.** -/
theorem merged_eq_direct_iff (window : UInt64 × UInt64) (hh : h ∈ hours)
    (hfits : ((hoursOf hours h.date).flatMap Hour.samples).length < 2 ^ 64) :
    (mergedBucket window hours h.date).finalize = directBucket window hours h.date ↔
      ∀ h₁ ∈ hoursOf hours h.date, ∀ h₂ ∈ hoursOf hours h.date,
        ∀ l, h₁.bucket.bpsMin.get l = 0 ↔ h₂.bucket.bpsMin.get l = 0 := by
  have hzero : (AggregatedBucket.empty window.1 window.2).sampleCount.toNat = 0 := rfl
  unfold mergedBucket directBucket
  rw [foldl_addSample_flatMap (by omega)]
  obtain ⟨first, -, rest, hhours⟩ := exists_hoursOf_eq_cons hh
  rw [hhours] at hfits ⊢
  rw [List.flatMap_cons, List.length_append] at hfits
  have hcount : first.bucket.sampleCount ≠ 0 := by
    have hlen := List.length_pos_of_ne_nil first.nonempty
    have htoNat := first.toNat_sampleCount (by omega)
    rw [← UInt64.toNat_inj.ne, htoNat]
    exact hlen.ne'
  rw [List.map_cons, merge_eq_join_iff hcount, List.forall_mem_map]
  constructor
  · intro hall
    have hfirst : ∀ h₁ ∈ first :: rest, ∀ l,
        h₁.bucket.bpsMin.get l = 0 ↔ first.bucket.bpsMin.get l = 0 :=
      List.forall_mem_cons.mpr ⟨fun l => Iff.rfl, hall⟩
    exact fun h₁ hh₁ h₂ hh₂ l => (hfirst h₁ hh₁ l).trans (hfirst h₂ hh₂ l).symm
  · exact fun hall h₁ hh₁ l =>
      hall h₁ (List.mem_cons_of_mem _ hh₁) first List.mem_cons_self l

theorem startTsMs_mergedBucket (window : UInt64 × UInt64) (hours : List (Hour z)) (date : ℤ) :
    (mergedBucket window hours date).finalize.startTsMs = window.1 := by
  have hfold : ∀ (bs : List AggregatedBucket) (b : AggregatedBucket),
      (bs.foldl mergeBucket b).startTsMs = b.startTsMs := by
    intro bs
    induction bs with
    | nil => exact fun _ => rfl
    | cons b' rest ih => exact fun b => ih (mergeBucket b b')
  exact hfold _ _

/-- The samples of no day overflow its count. -/
def Fits (hours : List (Hour z)) : Prop :=
  ∀ h ∈ hours, ((hoursOf hours h.date).flatMap Hour.samples).length < 2 ^ 64

variable {o : IterOrder}

theorem mergeable_of_direct (hz : DatedMidnights z) (hfits : Fits hours) (hdirect : Direct o hours) :
    Mergeable hours := by
  obtain ⟨daily, hdaily, hsorted, hall⟩ := hdirect
  obtain ⟨merged, hmerged, hmap⟩ := Option.map_eq_some_iff.mp hdaily
  obtain ⟨byDay, hbyDay, -⟩ := Option.map_eq_some_iff.mp hmerged
  have hwindows : ∀ h ∈ hours, ∃ window, dailyBucketLocal z h.startTsMs = some window := by
    intro h hh
    have hw := windows_of_mergeDays hbyDay h.bucket (List.mem_map.mpr ⟨h, hh, rfl⟩)
    rwa [h.startTsMs_bucket] at hw
  refine ⟨fun h hh => dailyBucketLocal_isSome_iff.mp (hwindows h hh), fun h hh h' hh' hdate => ?_⟩
  obtain ⟨window, hw⟩ := hwindows h hh
  obtain ⟨merged', hmerged', -, hmergedAll⟩ := mergeHourlyToDaily_spec hz hwindows o
  -- both buckets of the day are in the answer
  have hdirect : directBucket window hours h.date ∈ daily := (hall _).mpr ⟨h, hh, window, hw, rfl⟩
  have hmergedMem : (mergedBucket window hours h.date).finalize ∈ daily := by
    rw [hmerged, Option.some.injEq] at hmerged'
    rw [← hmap, hmerged']
    exact List.mem_map_of_mem ((hmergedAll _).mpr ⟨h, hh, window, hw, rfl⟩)
  have hstart : (mergedBucket window hours h.date).finalize.startTsMs =
      (directBucket window hours h.date).startTsMs :=
    (startTsMs_mergedBucket window hours h.date).trans
      (startTsMs_foldl_addSample _ (.empty window.1 window.2)).symm
  have heq := eq_of_pairwise_lt (fun _ => UInt64.lt_irrefl _) hsorted hmergedMem hdirect hstart
  exact (merged_eq_direct_iff window hh (hfits h hh)).mp heq h (mem_hoursOf.mpr ⟨hh, rfl⟩) h'
    (mem_hoursOf.mpr ⟨hh', hdate.symm⟩)

theorem direct_of_mergeable (hz : DatedMidnights z) (hfits : Fits hours) (h : Mergeable hours) :
    Direct o hours := by
  obtain ⟨merged, hmerged, hsorted, hall⟩ := mergeHourlyToDaily_spec hz
    (fun h' hh' => dailyBucketLocal_isSome_iff.mpr (h.days h' hh')) o
  have hdirect : ∀ h ∈ hours, ∀ window,
      (mergedBucket window hours h.date).finalize = directBucket window hours h.date := by
    intro h' hh' window
    refine (merged_eq_direct_iff window hh' (hfits h' hh')).mpr fun h₁ hh₁ h₂ hh₂ => ?_
    obtain ⟨hmem₁, hdate₁⟩ := mem_hoursOf.mp hh₁
    obtain ⟨hmem₂, hdate₂⟩ := mem_hoursOf.mp hh₂
    exact h.minima h₁ hmem₁ h₂ hmem₂ (hdate₁.trans hdate₂.symm)
  refine ⟨merged.map AggregatedBucket.finalize, by rw [hmerged]; rfl,
    List.pairwise_map.mpr hsorted, fun b => ?_⟩
  rw [List.mem_map]
  constructor
  · rintro ⟨b', hb', rfl⟩
    obtain ⟨h, hh, window, hw, rfl⟩ := (hall b').mp hb'
    exact ⟨h, hh, window, hw, hdirect h hh window⟩
  · rintro ⟨h, hh, window, hw, rfl⟩
    exact ⟨_, (hall _).mpr ⟨h, hh, window, hw, rfl⟩, hdirect h hh window⟩

end

/-- **When the days are what direct aggregation gives**: if and only if the ends of every hour's day have
a single offset, and of the hours of one day either all have the minimum 0 or none, for each of the four
rates. -/
theorem mergeHourlyToDaily_iff (o : IterOrder) (hours : List (Hour z)) (hz : DatedMidnights z)
    (hfits : Fits hours) : Direct o hours ↔ Mergeable hours :=
  ⟨mergeable_of_direct hz hfits, direct_of_mergeable hz hfits⟩

section Sample

def utc : Zone := .fixed 0 utc_bound

/-- An hour of 1970-01-11, one sample of this rate. -/
def sampleHour (i : Fin 24) (bps : UInt64) : Hour utc where
  startTsMs := asU64 (864000000 + i * 3600000)
  endTsMs := asU64 (864000000 + i * 3600000 + 3599999)
  window := by
    refine ⟨UInt64.ofNat (864000000 + i * 3600000), ?_⟩
    have hts : (UInt64.ofNat (864000000 + i * 3600000)).toNat = 864000000 + i * 3600000 :=
      UInt64.toNat_ofNat_of_lt (by have := i.isLt; show _ < 2 ^ 64; omega)
    have hmax : maxMs = 8210266876799999 := rfl
    have hi := i.isLt
    have hwindow := @bucketLocal_fixed hourStart hourEnd (UInt64.ofNat (864000000 + i * 3600000)) 0
      utc_bound (by omega) (by omega) (fun w => (hour_spans w).1) fun w => (hour_spans w).2
    have hstart : hourStart (864000000 + (i : ℕ) * 3600000 : ℕ) = 864000000 + (i : ℕ) * 3600000 := by
      rw [hourStart_eq]
      omega
    unfold hourlyBucketLocal utc
    rw [hwindow, hts, hourEnd_eq, Int.zero_mul, Int.add_zero, Int.sub_zero, Int.sub_zero, hstart]
  samples := [⟨.const bps, .const 0⟩]
  nonempty := List.cons_ne_nil _ _

theorem fits_sample (bps bps' : UInt64) : Fits [sampleHour 0 bps, sampleHour 1 bps'] := by
  intro h hh
  have hlen : ((hoursOf [sampleHour 0 bps, sampleHour 1 bps'] h.date).flatMap Hour.samples).length ≤
      ([sampleHour 0 bps, sampleHour 1 bps'].flatMap Hour.samples).length :=
    (List.filter_sublist.flatMap _).length_le
  exact lt_of_le_of_lt hlen (by show 2 < 2 ^ 64; decide)

theorem mergeHourlyToDaily_iff_hours :
    Direct .listed [sampleHour 0 5, sampleHour 1 7] ↔ Mergeable [sampleHour 0 5, sampleHour 1 7] :=
  mergeHourlyToDaily_iff .listed _ (datedMidnights_fixed 0 utc_bound) (fits_sample 5 7)

/-- **An idle hour is left out of the minimum of its day.** -/
theorem mergeHourlyToDaily_idle_hour : ¬ Direct .listed [sampleHour 0 5, sampleHour 1 0] := by
  intro hdirect
  have hminima := (mergeable_of_direct (datedMidnights_fixed 0 utc_bound) (fits_sample 5 0) hdirect).minima
    (sampleHour 0 5) List.mem_cons_self (sampleHour 1 0) (List.mem_cons_of_mem _ List.mem_cons_self)
    (by decide) .upV4
  have hidle : (sampleHour 1 0).bucket.bpsMin.get .upV4 = 0 := rfl
  exact absurd (hminima.mpr hidle) (by decide)

end Sample

end BandixPlus.Monitor.Daily
