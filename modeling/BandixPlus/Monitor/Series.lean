import BandixPlus.Monitor.Histogram
import Mathlib.Order.Bounds.Defs

/-! # One series of the histogram

The buckets of one interface or one device, all that were ever completed and the current one, against
the samples that were counted in them.

* `isFold_addSample`: a bucket with one more sample is the fold over one more sample.
* `SeriesOk`: every sample is counted in the one bucket of its hour, and the buckets follow each other.
* `SeriesOk.newBucket`, `SeriesOk.sameBucket`, `SeriesOk.flush`: what a sample and a flush keep. -/

namespace BandixPlus.Monitor.Series

open BandixPlus.Lib.Saturating BandixPlus.Monitor.Counters BandixPlus.Monitor.Histogram

structure Sample where
  tsMs : UInt64
  metrics : CounterQuad

/-! ### Folds -/

/-- **The bucket is the fold over these samples.** -/
structure IsFold (b : AggregatedBucket) (xs : List CounterQuad) : Prop where
  sampleCount : b.sampleCount.toNat = xs.length
  bytes : ∀ l, (b.bytes.get l).toNat = (xs.map fun m => (m.bytes.get l).toNat).sum
  bpsSum : ∀ l, (b.bpsSum.get l).toNat = (xs.map fun m => (m.bps.get l).toNat).sum
  bpsMax : ∀ l, IsGreatest {n | ∃ m ∈ xs, n = (m.bps.get l).toNat} (b.bpsMax.get l).toNat
  bpsMin : ∀ l, IsLeast {n | ∃ m ∈ xs, n = (m.bps.get l).toNat} (b.bpsMin.get l).toNat

/-- The count and the sums of these samples fit in 64 bits. -/
structure FitsU64 (xs : List CounterQuad) : Prop where
  sampleCount : xs.length < 2 ^ 64
  bytes : ∀ l, (xs.map fun m => (m.bytes.get l).toNat).sum < 2 ^ 64
  bps : ∀ l, (xs.map fun m => (m.bps.get l).toNat).sum < 2 ^ 64

theorem IsFold.ne_nil {b : AggregatedBucket} {xs : List CounterQuad} (h : IsFold b xs) : xs ≠ [] := by
  rintro rfl
  obtain ⟨m, hm, -⟩ := (h.bpsMax .upV4).1
  exact List.not_mem_nil hm

theorem toNat_addOne {n : UInt64} {k : ℕ} (h : n.toNat = k) (hk : k + 1 < 2 ^ 64) :
    (n + 1).toNat = k + 1 := by
  rw [UInt64.toNat_add, UInt64.toNat_one, h]
  omega

theorem sum_concat {α : Type} (f : α → ℕ) (xs : List α) (x : α) :
    ((xs ++ [x]).map f).sum = (xs.map f).sum + f x := by
  rw [List.map_append, List.sum_append, List.map_singleton, List.sum_singleton]

theorem toNat_addSat_get {q r : Quad UInt64} {l : Lane} {n : ℕ} (h : (q.get l).toNat = n)
    (hlt : n + (r.get l).toNat < 2 ^ 64) : ((addSat q r).get l).toNat = n + (r.get l).toNat := by
  unfold addSat
  rw [Quad.get_zip, toNat_satAdd, h]
  omega

/-- The first sample of a bucket. -/
theorem isFold_first (startTs endTs : UInt64) (m : CounterQuad) :
    IsFold (addSample (.empty startTs endTs) m) [m] := by
  have hzero : ∀ (q : Quad UInt64) (l : Lane), ((addSat (.const 0) q).get l).toNat = (q.get l).toNat := by
    intro q l
    unfold addSat
    rw [Quad.get_zip, Quad.get_const, zero_satAdd]
  refine ⟨rfl, fun l => ?_, fun l => ?_, fun l => ?_, fun l => ?_⟩
  · rw [List.map_singleton, List.sum_singleton]
    exact hzero _ l
  · rw [List.map_singleton, List.sum_singleton]
    exact hzero _ l
  · have hmax : (addSample (.empty startTs endTs) m).bpsMax.get l = max 0 (m.bps.get l) := by
      show (Quad.zip max (.const 0) m.bps).get l = _
      rw [Quad.get_zip, Quad.get_const]
    rw [hmax, UInt64.toNat_max, UInt64.toNat_zero, Nat.zero_max]
    refine ⟨⟨m, List.mem_singleton_self m, rfl⟩, ?_⟩
    rintro n ⟨m', hm', rfl⟩
    rw [List.mem_singleton.mp hm']
  · refine ⟨⟨m, List.mem_singleton_self m, rfl⟩, ?_⟩
    rintro n ⟨m', hm', rfl⟩
    rw [List.mem_singleton.mp hm']
    exact le_refl _

/-- **One more sample.** -/
theorem isFold_addSample {b : AggregatedBucket} {xs : List CounterQuad} (h : IsFold b xs)
    {m : CounterQuad} (hfits : FitsU64 (xs ++ [m])) : IsFold (addSample b m) (xs ++ [m]) := by
  have hcount := hfits.sampleCount
  rw [List.length_append, List.length_singleton] at hcount
  have hne : b.sampleCount ≠ 0 := by
    intro h₀
    have := h.sampleCount
    rw [h₀] at this
    exact h.ne_nil (List.length_eq_zero_iff.mp this.symm)
  refine ⟨?_, fun l => ?_, fun l => ?_, fun l => ?_, fun l => ?_⟩
  · rw [List.length_append, List.length_singleton]
    exact toNat_addOne h.sampleCount hcount
  · have hlt := hfits.bytes l
    rw [sum_concat] at hlt ⊢
    exact toNat_addSat_get (h.bytes l) hlt
  · have hlt := hfits.bps l
    rw [sum_concat] at hlt ⊢
    exact toNat_addSat_get (h.bpsSum l) hlt
  · have hmax : (addSample b m).bpsMax.get l = max (b.bpsMax.get l) (m.bps.get l) := by
      show (Quad.zip max b.bpsMax m.bps).get l = _
      rw [Quad.get_zip]
    obtain ⟨⟨m₀, hm₀, hmem⟩, hub⟩ := h.bpsMax l
    rw [hmax, UInt64.toNat_max]
    constructor
    · rcases le_total (b.bpsMax.get l).toNat (m.bps.get l).toNat with hle | hle
      · exact ⟨m, List.mem_append_right _ (List.mem_singleton_self m), max_eq_right hle⟩
      · exact ⟨m₀, List.mem_append_left _ hm₀, (max_eq_left hle).trans hmem⟩
    · rintro n ⟨m', hm', rfl⟩
      rcases List.mem_append.mp hm' with hm' | hm'
      · exact le_max_of_le_left (hub ⟨m', hm', rfl⟩)
      · rw [List.mem_singleton.mp hm']
        exact le_max_right _ _
  · have hmin : (addSample b m).bpsMin.get l = min (b.bpsMin.get l) (m.bps.get l) := by
      show (if b.sampleCount = 0 then m.bps else Quad.zip min b.bpsMin m.bps).get l = _
      rw [if_neg hne, Quad.get_zip]
    obtain ⟨⟨m₀, hm₀, hmem⟩, hlb⟩ := h.bpsMin l
    rw [hmin, UInt64.toNat_min]
    constructor
    · rcases le_total (b.bpsMin.get l).toNat (m.bps.get l).toNat with hle | hle
      · exact ⟨m₀, List.mem_append_left _ hm₀, (min_eq_left hle).trans hmem⟩
      · exact ⟨m, List.mem_append_right _ (List.mem_singleton_self m), min_eq_right hle⟩
    · rintro n ⟨m', hm', rfl⟩
      rcases List.mem_append.mp hm' with hm' | hm'
      · exact min_le_of_left_le (hlb ⟨m', hm', rfl⟩)
      · rw [List.mem_singleton.mp hm']
        exact min_le_right _ _

theorem IsFold.finalize {b : AggregatedBucket} {xs : List CounterQuad} (h : IsFold b xs) :
    IsFold b.finalize xs :=
  ⟨h.sampleCount, h.bytes, h.bpsSum, h.bpsMax, h.bpsMin⟩

/-- The average of a finalized bucket. -/
theorem IsFold.bpsAvg {b : AggregatedBucket} {xs : List CounterQuad} (h : IsFold b xs) (l : Lane) :
    (b.finalize.bpsAvg.get l).toNat = (xs.map fun m => (m.bps.get l).toNat).sum / xs.length := by
  have hpos : 0 < b.sampleCount := by
    rw [UInt64.lt_iff_toNat_lt, h.sampleCount]
    exact List.length_pos_iff.mpr h.ne_nil
  show ((if 0 < b.sampleCount then b.bpsSum.map (· / b.sampleCount) else b.bpsAvg).get l).toNat = _
  rw [if_pos hpos, Quad.get_map, UInt64.toNat_div, h.bpsSum, h.sampleCount]

/-! ### Hours -/

/-- On these timestamps the windows of `hourly` contain their timestamps and are equal or disjoint. -/
structure HourWindows (hourly : UInt64 → UInt64 × UInt64) (times : List UInt64) : Prop where
  contains : ∀ t ∈ times, (hourly t).1 ≤ t ∧ t ≤ (hourly t).2
  apart : ∀ t ∈ times, ∀ t' ∈ times,
    hourly t = hourly t' ∨ (hourly t).2 < (hourly t').1 ∨ (hourly t').2 < (hourly t).1

/-- The hour of a bucket. -/
def span (b : AggregatedBucket) : UInt64 × UInt64 := (b.startTsMs, b.endTsMs)

/-- The samples of one hour. -/
def samplesIn (hourly : UInt64 → UInt64 × UInt64) (hour : UInt64 × UInt64) (xs : List Sample) :
    List CounterQuad :=
  (xs.filter fun x => hourly x.tsMs = hour).map Sample.metrics

section Hours
variable {hourly : UInt64 → UInt64 × UInt64} {times : List UInt64} {t t' : UInt64}

/-- Two timestamps of one hour start have one hour. -/
theorem HourWindows.eq_of_start (hw : HourWindows hourly times) (ht : t ∈ times) (ht' : t' ∈ times)
    (h : (hourly t).1 = (hourly t').1) : hourly t = hourly t' := by
  have h₁ := UInt64.le_trans (hw.contains t ht).1 (hw.contains t ht).2
  have h₂ := UInt64.le_trans (hw.contains t' ht').1 (hw.contains t' ht').2
  rcases hw.apart t ht t' ht' with heq | hlt | hlt
  · exact heq
  · rw [← h] at hlt
    exact absurd (UInt64.lt_of_le_of_lt h₁ hlt) (UInt64.lt_irrefl _)
  · rw [h] at hlt
    exact absurd (UInt64.lt_of_le_of_lt h₂ hlt) (UInt64.lt_irrefl _)

/-- The hour of a later timestamp is the same or begins after the end. -/
theorem HourWindows.later (hw : HourWindows hourly times) (ht : t ∈ times) (ht' : t' ∈ times)
    (hle : t ≤ t') : hourly t = hourly t' ∨ (hourly t).2 < (hourly t').1 := by
  rcases hw.apart t ht t' ht' with heq | hlt | hlt
  · exact Or.inl heq
  · exact Or.inr hlt
  · have h₁ := UInt64.lt_of_lt_of_le hlt (UInt64.le_trans (hw.contains t ht).1 hle)
    exact absurd (UInt64.lt_of_lt_of_le h₁ (hw.contains t' ht').2) (UInt64.lt_irrefl _)

theorem samplesIn_append (hour : UInt64 × UInt64) (xs : List Sample) (x : Sample) :
    samplesIn hourly hour (xs ++ [x]) = samplesIn hourly hour xs ++
      if hourly x.tsMs = hour then [x.metrics] else [] := by
  unfold samplesIn
  rw [List.filter_append, List.map_append]
  congr 1
  by_cases h : hourly x.tsMs = hour
  · simp [h]
  · simp [h]

end Hours

/-! ### The buckets of a series -/

/-- **The invariant of a series**: its completed buckets, all that ever were, the current one, the
samples counted so far and the time. -/
structure SeriesOk (hourly : UInt64 → UInt64 × UInt64) (times : List UInt64)
    (done : List AggregatedBucket) (current : Option AggregatedBucket) (xs : List Sample)
    (now : UInt64) : Prop where
  times : ∀ x ∈ xs, x.tsMs ∈ times ∧ x.tsMs ≤ now
  ordered : (done ++ current.toList).Pairwise fun b c => b.endTsMs < c.startTsMs
  hour : ∀ b ∈ done ++ current.toList, ∃ x ∈ xs, hourly x.tsMs = span b
  fold : ∀ b ∈ done ++ current.toList, IsFold b (samplesIn hourly (span b) xs)
  covered : ∀ x ∈ xs, ∃ b ∈ done ++ current.toList, hourly x.tsMs = span b
  closed : ∀ b ∈ done, b.endTsMs < now

section Steps
variable {hourly : UInt64 → UInt64 × UInt64} {times : List UInt64} {done : List AggregatedBucket}
  {current : Option AggregatedBucket} {xs : List Sample} {now ts : UInt64}

theorem seriesOk_empty (hourly : UInt64 → UInt64 × UInt64) (times : List UInt64) (now : UInt64) :
    SeriesOk hourly times [] none [] now := by
  refine ⟨fun x hx => ?_, List.Pairwise.nil, fun b hb => ?_, fun b hb => ?_, fun x hx => ?_,
    fun b hb => ?_⟩
  · cases hx
  · cases hb
  · cases hb
  · cases hx
  · cases hb

/-- Time goes on. -/
theorem SeriesOk.later (h : SeriesOk hourly times done current xs now) (hle : now ≤ ts) :
    SeriesOk hourly times done current xs ts :=
  ⟨fun x hx => ⟨(h.times x hx).1, UInt64.le_trans (h.times x hx).2 hle⟩, h.ordered, h.hour, h.fold,
    h.covered, fun b hb => UInt64.lt_of_lt_of_le (h.closed b hb) hle⟩

/-- A bucket's bounds are those of the hour of one of its samples. -/
theorem SeriesOk.bounds (h : SeriesOk hourly times done current xs now)
    (hw : HourWindows hourly times) {b : AggregatedBucket} (hb : b ∈ done ++ current.toList) :
    b.startTsMs ≤ b.endTsMs := by
  obtain ⟨x, hx, hspan⟩ := h.hour b hb
  have hc := hw.contains _ (h.times x hx).1
  rw [hspan] at hc
  exact UInt64.le_trans hc.1 hc.2

/-- A sample of a new hour: all buckets are before it. -/
theorem SeriesOk.before (h : SeriesOk hourly times done current xs now)
    (hw : HourWindows hourly times) (hts : ts ∈ times) (hle : now ≤ ts)
    (hnew : ∀ b, current = some b → b.startTsMs ≠ (hourly ts).1) {b : AggregatedBucket}
    (hb : b ∈ done ++ current.toList) : b.endTsMs < (hourly ts).1 := by
  obtain ⟨x, hx, hspan⟩ := h.hour b hb
  rcases hw.later (h.times x hx).1 hts (UInt64.le_trans (h.times x hx).2 hle) with heq | hlt
  · rw [hspan] at heq
    rcases List.mem_append.mp hb with hdone | hcur
    · -- a completed bucket is over
      have hlt : (hourly ts).2 < ts := by
        rw [← heq]
        exact UInt64.lt_of_lt_of_le (h.closed b hdone) hle
      exact absurd (UInt64.lt_of_le_of_lt (hw.contains ts hts).2 hlt) (UInt64.lt_irrefl _)
    · rw [Option.mem_toList] at hcur
      exact absurd (congrArg Prod.fst heq) (hnew b hcur)
  · rw [hspan] at hlt
    exact hlt

/-- **A sample of a new hour** closes the current bucket, if there is one, and starts a new one. -/
theorem SeriesOk.newBucket (h : SeriesOk hourly times done current xs now)
    (hw : HourWindows hourly times) (hts : ts ∈ times) (hle : now ≤ ts)
    (hnew : ∀ b, current = some b → b.startTsMs ≠ (hourly ts).1) (m : CounterQuad) :
    SeriesOk hourly times (done ++ current.toList)
      (some (addSample (.empty (hourly ts).1 (hourly ts).2) m)) (xs ++ [⟨ts, m⟩]) ts := by
  have hbefore : ∀ b ∈ done ++ current.toList, b.endTsMs < (hourly ts).1 :=
    fun b hb => h.before hw hts hle hnew hb
  have hspan : span (addSample (.empty (hourly ts).1 (hourly ts).2) m) = hourly ts := rfl
  have hother : ∀ b ∈ done ++ current.toList, hourly ts ≠ span b := by
    intro b hb heq
    have hlt := hbefore b hb
    have hc := hw.contains ts hts
    rw [heq] at hlt hc
    exact UInt64.lt_irrefl _ (UInt64.lt_of_le_of_lt (UInt64.le_trans hc.1 hc.2) hlt)
  refine ⟨fun x hx => ?_, ?_, fun b hb => ?_, fun b hb => ?_, fun x hx => ?_, fun b hb => ?_⟩
  · rcases List.mem_append.mp hx with hx | hx
    · exact ⟨(h.times x hx).1, UInt64.le_trans (h.times x hx).2 hle⟩
    · rw [List.mem_singleton.mp hx]
      exact ⟨hts, UInt64.le_refl _⟩
  · refine List.pairwise_append.mpr ⟨h.ordered, List.pairwise_singleton _ _, fun b hb c hc => ?_⟩
    rw [List.mem_singleton.mp hc]
    exact hbefore b hb
  · rcases List.mem_append.mp hb with hb | hb
    · obtain ⟨x, hx, hxb⟩ := h.hour b hb
      exact ⟨x, List.mem_append_left _ hx, hxb⟩
    · rw [List.mem_singleton.mp hb]
      exact ⟨⟨ts, m⟩, List.mem_append_right _ (List.mem_singleton_self _), hspan.symm⟩
  · rcases List.mem_append.mp hb with hb | hb
    · rw [samplesIn_append, if_neg (hother b hb), List.append_nil]
      exact h.fold b hb
    · rw [List.mem_singleton.mp hb, hspan, samplesIn_append, if_pos rfl]
      have hnone : samplesIn hourly (hourly ts) xs = [] := by
        unfold samplesIn
        rw [List.map_eq_nil_iff, List.filter_eq_nil_iff]
        intro x hx heq
        obtain ⟨b, hb, hxb⟩ := h.covered x hx
        exact hother b hb ((of_decide_eq_true heq).symm.trans hxb)
      rw [hnone]
      exact isFold_first _ _ m
  · rcases List.mem_append.mp hx with hx | hx
    · obtain ⟨b, hb, hxb⟩ := h.covered x hx
      exact ⟨b, List.mem_append_left _ hb, hxb⟩
    · rw [List.mem_singleton.mp hx]
      exact ⟨_, List.mem_append_right _ (List.mem_singleton_self _), hspan.symm⟩
  · exact UInt64.lt_of_lt_of_le (hbefore b hb) (hw.contains ts hts).1

/-- **A sample of the current hour** is counted in the current bucket. -/
theorem SeriesOk.sameBucket {b : AggregatedBucket}
    (h : SeriesOk hourly times done (some b) xs now) (hw : HourWindows hourly times)
    (hts : ts ∈ times) (hle : now ≤ ts) (hstart : b.startTsMs = (hourly ts).1) (m : CounterQuad)
    (hfits : FitsU64 (samplesIn hourly (hourly ts) (xs ++ [⟨ts, m⟩]))) :
    SeriesOk hourly times done (some (addSample b m)) (xs ++ [⟨ts, m⟩]) ts := by
  have hbmem : b ∈ done ++ (some b).toList := List.mem_append_right _ (List.mem_singleton_self b)
  have hspan : hourly ts = span b := by
    obtain ⟨x, hx, hxb⟩ := h.hour b hbmem
    rw [← hxb]
    refine hw.eq_of_start hts (h.times x hx).1 ?_
    rw [hxb, ← hstart]
    rfl
  have hspan' : span (addSample b m) = span b := rfl
  have hdone : ∀ c ∈ done, c.endTsMs < b.startTsMs := fun c hc =>
    (List.pairwise_append.mp h.ordered).2.2 c hc b (List.mem_singleton_self b)
  have hother : ∀ c ∈ done, hourly ts ≠ span c := by
    intro c hc heq
    have hlt := hdone c hc
    have hend : b.endTsMs = c.endTsMs := congrArg Prod.snd (hspan.symm.trans heq)
    rw [← hend] at hlt
    exact UInt64.lt_irrefl _ (UInt64.lt_of_le_of_lt (h.bounds hw hbmem) hlt)
  -- a bucket is one of the completed, or the current one
  have hcases : ∀ c ∈ done ++ (some (addSample b m)).toList, c ∈ done ∨ c = addSample b m :=
    fun c hc => (List.mem_append.mp hc).imp_right List.mem_singleton.mp
  refine ⟨fun x hx => ?_, ?_, fun c hc => ?_, fun c hc => ?_, fun x hx => ?_, fun c hc => ?_⟩
  · rcases List.mem_append.mp hx with hx | hx
    · exact ⟨(h.times x hx).1, UInt64.le_trans (h.times x hx).2 hle⟩
    · rw [List.mem_singleton.mp hx]
      exact ⟨hts, UInt64.le_refl _⟩
  · refine List.pairwise_append.mpr ⟨(List.pairwise_append.mp h.ordered).1,
      List.pairwise_singleton _ _, fun c hc d hd => ?_⟩
    rw [List.mem_singleton.mp hd]
    exact hdone c hc
  · rcases hcases c hc with hc | rfl
    · obtain ⟨x, hx, hxc⟩ := h.hour c (List.mem_append_left _ hc)
      exact ⟨x, List.mem_append_left _ hx, hxc⟩
    · exact ⟨⟨ts, m⟩, List.mem_append_right _ (List.mem_singleton_self _), hspan⟩
  · rcases hcases c hc with hc | rfl
    · rw [samplesIn_append, if_neg (hother c hc), List.append_nil]
      exact h.fold c (List.mem_append_left _ hc)
    · rw [hspan'] at *
      rw [hspan, samplesIn_append, if_pos hspan] at hfits
      rw [samplesIn_append, if_pos hspan]
      exact isFold_addSample (h.fold b hbmem) hfits
  · rcases List.mem_append.mp hx with hx | hx
    · obtain ⟨c, hc, hxc⟩ := h.covered x hx
      rcases List.mem_append.mp hc with hc | hc
      · exact ⟨c, List.mem_append_left _ hc, hxc⟩
      · rw [List.mem_singleton.mp hc] at hxc
        exact ⟨_, List.mem_append_right _ (List.mem_singleton_self _), hxc⟩
    · rw [List.mem_singleton.mp hx]
      exact ⟨_, List.mem_append_right _ (List.mem_singleton_self _), hspan⟩
  · exact UInt64.lt_of_lt_of_le (h.closed c hc) hle

/-- **The flush of a bucket whose hour is over.** -/
theorem SeriesOk.flush {b : AggregatedBucket} (h : SeriesOk hourly times done (some b) xs now)
    (hle : now ≤ ts) (hend : b.endTsMs < ts) :
    SeriesOk hourly times (done ++ [b.finalize]) none xs ts := by
  have hcases : ∀ c ∈ done ++ [b.finalize] ++ (none : Option AggregatedBucket).toList,
      c ∈ done ∨ c = b.finalize := by
    intro c hc
    rw [Option.toList_none, List.append_nil] at hc
    exact (List.mem_append.mp hc).imp_right List.mem_singleton.mp
  have hbmem : b ∈ done ++ (some b).toList := List.mem_append_right _ (List.mem_singleton_self b)
  refine ⟨fun x hx => ⟨(h.times x hx).1, UInt64.le_trans (h.times x hx).2 hle⟩, ?_, fun c hc => ?_,
    fun c hc => ?_, fun x hx => ?_, fun c hc => ?_⟩
  · rw [Option.toList_none, List.append_nil]
    refine List.pairwise_append.mpr ⟨(List.pairwise_append.mp h.ordered).1,
      List.pairwise_singleton _ _, fun c hc d hd => ?_⟩
    rw [List.mem_singleton.mp hd]
    exact (List.pairwise_append.mp h.ordered).2.2 c hc b (List.mem_singleton_self b)
  · rcases hcases c hc with hc | rfl
    · exact h.hour c (List.mem_append_left _ hc)
    · exact h.hour b hbmem
  · rcases hcases c hc with hc | rfl
    · exact h.fold c (List.mem_append_left _ hc)
    · exact (h.fold b hbmem).finalize
  · rw [Option.toList_none, List.append_nil]
    obtain ⟨c, hc, hxc⟩ := h.covered x hx
    rcases List.mem_append.mp hc with hc | hc
    · exact ⟨c, List.mem_append_left _ hc, hxc⟩
    · rw [List.mem_singleton.mp hc] at hxc
      exact ⟨b.finalize, List.mem_append_right _ (List.mem_singleton_self _), hxc⟩
  · rcases List.mem_append.mp hc with hc | hc
    · exact UInt64.lt_of_lt_of_le (h.closed c hc) hle
    · rw [List.mem_singleton.mp hc]
      exact hend

end Steps

end BandixPlus.Monitor.Series
