import BandixPlus.Lib.LocalTime

/-! # The hour and the day of a timestamp

`monitor.rs`, `hourly_bucket_local` and `daily_bucket_local`: the local hour or day of a timestamp, as
the timestamps of its first and last millisecond. `none` is a panic.

* `windows_contain_iff`: when both windows contain their timestamp, for any zone.
* `windows_contain_iff_change`: when they do, in a zone whose clock is changed once.
* `window_missing`: the hour that is repeated when the clock goes back has no window. -/

namespace BandixPlus.Monitor.Windows

open BandixPlus.Lib.LocalTime

/-- `ts as i64` and `t as u64`. -/
def asI64 (ts : UInt64) : ℤ := ts.toBitVec.toInt
def asU64 (t : ℤ) : UInt64 := ⟨BitVec.ofInt 64 t⟩

/-- `date_naive`, in days, and `hour` of a wall time. -/
def dateNaive (wall : ℤ) : ℤ := wall / 86400000
def hour (wall : ℤ) : ℤ := wall % 86400000 / 3600000

/-- `and_hms_milli_opt` of a date. -/
def andHmsMilli (date h m s milli : ℤ) : ℤ :=
  date * 86400000 + h * 3600000 + m * 60000 + s * 1000 + milli

/-- The instants of the first and the last millisecond of a window given by wall times; `date_naive`
panics if the wall time of `ts` is out of range. -/
def bucketLocal (z : Zone) (first last : ℤ → ℤ) (ts : UInt64) : Option (UInt64 × UInt64) :=
  if Representable (asI64 ts) then
    let wall := z.wall (asI64 ts)
    if Representable wall then
      (z.fromLocal (first wall)).unwrap.bind fun startTs =>
        (z.fromLocal (last wall)).unwrap.map fun endTs => (asU64 startTs, asU64 endTs)
    else none
  else some (0, 0)

def hourStart (wall : ℤ) : ℤ := andHmsMilli (dateNaive wall) (hour wall) 0 0 0
def hourEnd (wall : ℤ) : ℤ := andHmsMilli (dateNaive wall) (hour wall) 59 59 999
def dayStart (wall : ℤ) : ℤ := andHmsMilli (dateNaive wall) 0 0 0 0
def dayEnd (wall : ℤ) : ℤ := andHmsMilli (dateNaive wall) 23 59 59 999

def hourlyBucketLocal (z : Zone) (ts : UInt64) : Option (UInt64 × UInt64) :=
  bucketLocal z hourStart hourEnd ts

def dailyBucketLocal (z : Zone) (ts : UInt64) : Option (UInt64 × UInt64) :=
  bucketLocal z dayStart dayEnd ts

/-- The window is returned, and `ts` is in it. -/
def Contains (window : Option (UInt64 × UInt64)) (ts : UInt64) : Prop :=
  ∃ startTs endTs, window = some (startTs, endTs) ∧ startTs ≤ ts ∧ ts ≤ endTs

/-- At the offset `o` the clock shows `wall` before 1970 begins. -/
def BeforeEpoch (wall : ℤ) (o : FixedOffset) : Prop := wall < o.localMinusUtc * 1000

/-- **From `wall` to `wall'` the clock was put forward by no more than it shows as passed**, and 1970
did not begin. The instants before 1970 come after all others, as `u64` counts them. -/
def Passed (wall : ℤ) (o : FixedOffset) (wall' : ℤ) (o' : FixedOffset) : Prop :=
  ((o'.localMinusUtc - o.localMinusUtc) * 1000 ≤ wall' - wall ∧
      (BeforeEpoch wall o → BeforeEpoch wall' o')) ∨
    (¬ BeforeEpoch wall o ∧ BeforeEpoch wall' o')

instance (wall : ℤ) (o : FixedOffset) : Decidable (BeforeEpoch wall o) := by
  unfold BeforeEpoch; infer_instance

instance (wall : ℤ) (o : FixedOffset) (wall' : ℤ) (o' : FixedOffset) :
    Decidable (Passed wall o wall' o') := by unfold Passed; infer_instance

/-- The wall time of `ts` is in range, the zone gives its window's first and last millisecond a single
offset each, and neither from the first to `ts` nor from `ts` to the last the clock was put forward by
more than it shows as passed. -/
structure Regular (z : Zone) (first last : ℤ → ℤ) (ts : UInt64) : Prop where
  wall : Representable (z.wall (asI64 ts))
  starts : ∃ o, z.SingleAt (first (z.wall (asI64 ts))) o ∧
    Passed (first (z.wall (asI64 ts))) o (z.wall (asI64 ts)) (z.offsetFromUtc (asI64 ts))
  ends : ∃ o, z.SingleAt (last (z.wall (asI64 ts))) o ∧
    Passed (z.wall (asI64 ts)) (z.offsetFromUtc (asI64 ts)) (last (z.wall (asI64 ts))) o

/-- **The zone gives midnight and the last millisecond of the local day of `ts` a single offset each.** -/
def HasDay (z : Zone) (ts : UInt64) : Prop :=
  Representable (asI64 ts) → Representable (z.wall (asI64 ts)) ∧
    z.Single (dayStart (z.wall (asI64 ts))) ∧ z.Single (dayEnd (z.wall (asI64 ts)))

theorem toNat_asU64 {t : ℤ} (h₀ : 0 ≤ t) (h : t < 2 ^ 64) : ((asU64 t).toNat : ℤ) = t := by
  have hn : (asU64 t).toNat = (BitVec.ofInt 64 t).toNat := rfl
  rw [hn, BitVec.toNat_ofInt]
  omega

theorem asI64_of_lt {ts : UInt64} (h : ts.toNat < 2 ^ 63) : asI64 ts = ts.toNat := by
  unfold asI64
  rw [BitVec.toInt_eq_toNat_of_lt (by show 2 * ts.toNat < 2 ^ 64; omega)]
  rfl

theorem asU64_asI64 (ts : UInt64) : asU64 (asI64 ts) = ts := by
  unfold asU64 asI64
  rw [BitVec.ofInt_toInt]

theorem asI64_asU64 {t : ℤ} (h : Representable t) : asI64 (asU64 t) = t := by
  obtain ⟨hmin, hmax⟩ := h
  have hmin' : minMs = -8334601228800000 := rfl
  have hmax' : maxMs = 8210266876799999 := rfl
  have hint : asI64 (asU64 t) = (BitVec.ofInt 64 t).toInt := rfl
  rw [hint, BitVec.toInt_ofInt, Int.bmod_eq_of_le] <;> omega

theorem toNat_asU64_of_neg {t : ℤ} (h : t < 0) (h' : -2 ^ 63 ≤ t) :
    ((asU64 t).toNat : ℤ) = t + 2 ^ 64 := by
  have hn : (asU64 t).toNat = (BitVec.ofInt 64 t).toNat := rfl
  rw [hn, BitVec.toNat_ofInt]
  omega

/-- The order of two timestamps. -/
theorem asU64_le_asU64 {s t : ℤ} (hs : Representable s) (ht : Representable t) :
    asU64 s ≤ asU64 t ↔ (s ≤ t ∧ (s < 0 → t < 0)) ∨ (¬ s < 0 ∧ t < 0) := by
  have hmin : minMs = -8334601228800000 := rfl
  have hmax : maxMs = 8210266876799999 := rfl
  obtain ⟨hs₀, hs₁⟩ := hs
  obtain ⟨ht₀, ht₁⟩ := ht
  have hnat : ∀ u : ℤ, minMs ≤ u → u ≤ maxMs →
      ((asU64 u).toNat : ℤ) = if u < 0 then u + 2 ^ 64 else u := by
    intro u hu₀ hu₁
    split_ifs with hneg
    · exact toNat_asU64_of_neg hneg (by omega)
    · exact toNat_asU64 (by omega) (by omega)
  rw [UInt64.le_iff_toNat_le, ← Int.ofNat_le, hnat s hs₀ hs₁, hnat t ht₀ ht₁]
  split_ifs <;> omega

/-- The order of two timestamps, by what the clock shows at them. -/
theorem passed_iff {wall wall' : ℤ} {o o' : FixedOffset} (h : Representable (o.instantOf wall))
    (h' : Representable (o'.instantOf wall')) :
    asU64 (o.instantOf wall) ≤ asU64 (o'.instantOf wall') ↔ Passed wall o wall' o' := by
  rw [asU64_le_asU64 h h']
  unfold Passed BeforeEpoch FixedOffset.instantOf
  omega

theorem instantOf_wall (z : Zone) (t : ℤ) : (z.offsetFromUtc t).instantOf (z.wall t) = t := by
  unfold FixedOffset.instantOf Zone.wall FixedOffset.wallOf
  omega

/-- When a window is returned. -/
theorem bucketLocal_eq_some {z : Zone} {first last : ℤ → ℤ} {ts : UInt64} {window : UInt64 × UInt64}
    (h : Representable (asI64 ts)) : bucketLocal z first last ts = some window ↔
      Representable (z.wall (asI64 ts)) ∧
        (∃ o, z.SingleAt (first (z.wall (asI64 ts))) o ∧
          asU64 (o.instantOf (first (z.wall (asI64 ts)))) = window.1) ∧
        ∃ o, z.SingleAt (last (z.wall (asI64 ts))) o ∧
          asU64 (o.instantOf (last (z.wall (asI64 ts)))) = window.2 := by
  unfold bucketLocal
  rw [if_pos h]
  dsimp only
  split_ifs with hwall
  · constructor
    · intro heq
      obtain ⟨s, hs, heq⟩ := Option.bind_eq_some_iff.mp heq
      obtain ⟨e, he, rfl⟩ := Option.map_eq_some_iff.mp heq
      obtain ⟨o, ho, rfl⟩ := Zone.unwrap_fromLocal.mp hs
      obtain ⟨o', ho', rfl⟩ := Zone.unwrap_fromLocal.mp he
      exact ⟨hwall, ⟨o, ho, rfl⟩, o', ho', rfl⟩
    · rintro ⟨-, ⟨o, ho, hstart⟩, o', ho', hend⟩
      rw [Zone.unwrap_of_singleAt ho, Option.bind_some, Zone.unwrap_of_singleAt ho', Option.map_some,
        hstart, hend]
  · exact ⟨fun heq => (by cases heq), fun hwindow => absurd hwindow.1 hwall⟩

/-- **When a window is returned and contains its timestamp.** -/
theorem bucketLocal_iff {z : Zone} {first last : ℤ → ℤ} {ts : UInt64}
    (h : Representable (asI64 ts)) :
    Contains (bucketLocal z first last ts) ts ↔ Regular z first last ts := by
  have hts : asU64 ((z.offsetFromUtc (asI64 ts)).instantOf (z.wall (asI64 ts))) = ts := by
    rw [instantOf_wall, asU64_asI64]
  have hrep : Representable ((z.offsetFromUtc (asI64 ts)).instantOf (z.wall (asI64 ts))) := by
    rwa [instantOf_wall]
  constructor
  · rintro ⟨startTs, endTs, heq, hstart, hend⟩
    obtain ⟨hwall, ⟨o, ho, hs⟩, o', ho', he⟩ := (bucketLocal_eq_some h).mp heq
    refine ⟨hwall, ⟨o, ho, (passed_iff ho.2 hrep).mp ?_⟩, o', ho', (passed_iff hrep ho'.2).mp ?_⟩
    · rw [hts, hs]
      exact hstart
    · rw [hts, he]
      exact hend
  · rintro ⟨hwall, ⟨o, ho, hstart⟩, o', ho', hend⟩
    rw [← passed_iff ho.2 hrep, hts] at hstart
    rw [← passed_iff hrep ho'.2, hts] at hend
    exact ⟨_, _, (bucketLocal_eq_some h).mpr ⟨hwall, ⟨o, ho, rfl⟩, o', ho', rfl⟩, hstart, hend⟩

/-- **When a day is returned.** -/
theorem dailyBucketLocal_isSome_iff {z : Zone} {ts : UInt64} :
    (∃ window, dailyBucketLocal z ts = some window) ↔ HasDay z ts := by
  unfold HasDay
  by_cases h : Representable (asI64 ts)
  · simp only [dailyBucketLocal, bucketLocal_eq_some h, h, forall_true_left]
    constructor
    · rintro ⟨_, hwall, ⟨o, ho, -⟩, o', ho', -⟩
      exact ⟨hwall, ⟨o, ho⟩, o', ho'⟩
    · rintro ⟨hwall, ⟨o, ho⟩, o', ho'⟩
      exact ⟨(_, _), hwall, ⟨o, ho, rfl⟩, o', ho', rfl⟩
  · unfold dailyBucketLocal bucketLocal
    rw [if_neg h]
    exact ⟨fun _ hrep => absurd hrep h, fun _ => ⟨_, rfl⟩⟩

/-! ### The bounds of an hour and of a day -/

theorem hourStart_eq (wall : ℤ) : hourStart wall = wall / 3600000 * 3600000 := by
  unfold hourStart andHmsMilli dateNaive hour
  omega

theorem hourEnd_eq (wall : ℤ) : hourEnd wall = hourStart wall + 3599999 := by
  unfold hourEnd hourStart andHmsMilli
  omega

theorem dayEnd_eq (wall : ℤ) : dayEnd wall = dayStart wall + 86399999 := by
  unfold dayEnd dayStart andHmsMilli
  omega

theorem hour_bounds (wall : ℤ) : hourStart wall ≤ wall ∧ wall ≤ hourEnd wall := by
  rw [hourEnd_eq, hourStart_eq]
  omega

theorem day_bounds (wall : ℤ) : dayStart wall ≤ wall ∧ wall ≤ dayEnd wall := by
  rw [dayEnd_eq]
  unfold dayStart andHmsMilli dateNaive
  omega

theorem hour_spans (w : ℤ) : (hourStart w ≤ w ∧ w < hourStart w + 86400000) ∧
    (w ≤ hourEnd w ∧ hourEnd w < w + 86400000) := by
  have h := hour_bounds w
  rw [hourEnd_eq] at h ⊢
  omega

theorem day_spans (w : ℤ) : (dayStart w ≤ w ∧ w < dayStart w + 86400000) ∧
    (w ≤ dayEnd w ∧ dayEnd w < w + 86400000) := by
  have h := day_bounds w
  rw [dayEnd_eq] at h ⊢
  omega

theorem whole_seconds (w : ℤ) : hourStart w % 1000 = 0 ∧ dayStart w % 1000 = 0 := by
  unfold hourStart dayStart andHmsMilli dateNaive hour
  omega

/-! ### Every zone -/

/-- **When the hour and the day of a timestamp are returned and contain it**, for any zone. -/
theorem windows_contain_iff (z : Zone) (ts : UInt64) (h : Representable (asI64 ts)) :
    (Contains (hourlyBucketLocal z ts) ts ↔ Regular z hourStart hourEnd ts) ∧
      (Contains (dailyBucketLocal z ts) ts ↔ Regular z dayStart dayEnd ts) :=
  ⟨bucketLocal_iff h, bucketLocal_iff h⟩

/-! ### One offset -/

/-- The window in whose ends the zone answers with one offset. -/
theorem bucketLocal_of_singleAt {z : Zone} {first last : ℤ → ℤ} {ts : UInt64} {o : FixedOffset}
    (h : Representable (asI64 ts)) (hwall : Representable (z.wall (asI64 ts)))
    (hfirst : z.SingleAt (first (z.wall (asI64 ts))) o)
    (hlast : z.SingleAt (last (z.wall (asI64 ts))) o) :
    bucketLocal z first last ts = some (asU64 (o.instantOf (first (z.wall (asI64 ts)))),
      asU64 (o.instantOf (last (z.wall (asI64 ts))))) :=
  (bucketLocal_eq_some h).mpr ⟨hwall, ⟨o, hfirst, rfl⟩, o, hlast, rfl⟩

/-- The window in a zone of fixed offset, from the second day of 1970 to the end of the library's
range. -/
theorem bucketLocal_fixed {first last : ℤ → ℤ} {ts : UInt64} (o : ℤ) (ho : -86400 < o ∧ o < 86400)
    (hmin : 86400000 ≤ ts.toNat) (hmax : (ts.toNat : ℤ) + 259200000 ≤ maxMs)
    (hfirst : ∀ w, first w ≤ w ∧ w < first w + 86400000)
    (hlast : ∀ w, w ≤ last w ∧ last w < w + 86400000) :
    bucketLocal (.fixed o ho) first last ts = some (asU64 (first (ts.toNat + o * 1000) - o * 1000),
      asU64 (last (ts.toNat + o * 1000) - o * 1000)) := by
  have hmin' : minMs = -8334601228800000 := rfl
  have hmax' : maxMs = 8210266876799999 := rfl
  have hi64 : asI64 ts = ts.toNat := asI64_of_lt (by omega)
  have hwall : (Zone.fixed o ho).wall (asI64 ts) = ts.toNat + o * 1000 := by rw [hi64]; rfl
  have hf := hfirst (ts.toNat + o * 1000)
  have hl := hlast (ts.toNat + o * 1000)
  have hwindow := @bucketLocal_of_singleAt (.fixed o ho) first last ts ⟨o, ho⟩
  rw [hwall, hi64] at hwindow
  unfold Zone.SingleAt FixedOffset.instantOf at hwindow
  dsimp only at hwindow
  refine hwindow ?_ ?_ ⟨rfl, ?_⟩ ⟨rfl, ?_⟩
  all_goals
    unfold Representable
    omega

/-! ### One change -/

/-- At the change of the clock the second of `wall` is repeated, or it is skipped. -/
def Changed (transition : ℤ) (before after : FixedOffset) (wall : ℤ) : Prop :=
  (transition + after.localMinusUtc ≤ wall / 1000 ∧
      wall / 1000 ≤ transition + before.localMinusUtc) ∨
    (transition + before.localMinusUtc < wall / 1000 ∧
      wall / 1000 < transition + after.localMinusUtc)

section Change
variable {transition : ℤ} {before after : FixedOffset} {first last : ℤ → ℤ} {ts : UInt64}

/-- What the zone answers for a wall time. -/
theorem offsetFromLocal_change {wall : ℤ} {o : FixedOffset} :
    (Zone.change transition before after).offsetFromLocal wall = .single o ↔
      ¬ Changed transition before after wall ∧
        ((o = before ∧ wall / 1000 ≤ transition + before.localMinusUtc) ∨
          (o = after ∧ transition + before.localMinusUtc < wall / 1000)) := by
  unfold Zone.change Changed
  dsimp only
  split_ifs
  · rw [LocalResult.single.injEq]
    constructor
    · rintro rfl
      exact ⟨by omega, Or.inl ⟨rfl, by omega⟩⟩
    · rintro ⟨-, ⟨rfl, -⟩ | ⟨-, hlt⟩⟩
      · rfl
      · omega
  · rw [false_iff]
    rintro ⟨hchanged, -⟩
    omega
  · rw [LocalResult.single.injEq]
    constructor
    · rintro rfl
      exact ⟨by omega, Or.inr ⟨rfl, by omega⟩⟩
    · rintro ⟨-, ⟨-, hle⟩ | ⟨rfl, -⟩⟩
      · omega
      · rfl
  · rw [LocalResult.single.injEq]
    constructor
    · rintro rfl
      exact ⟨by omega, Or.inl ⟨rfl, by omega⟩⟩
    · rintro ⟨-, ⟨rfl, -⟩ | ⟨-, hlt⟩⟩
      · rfl
      · omega
  · rw [false_iff]
    rintro ⟨hchanged, -⟩
    omega
  · rw [LocalResult.single.injEq]
    constructor
    · rintro rfl
      exact ⟨by omega, Or.inr ⟨rfl, by omega⟩⟩
    · rintro ⟨-, ⟨-, hle⟩ | ⟨rfl, -⟩⟩
      · omega
      · rfl

/-- The wall times with a single offset are those that are not changed. -/
theorem single_change {wall : ℤ} (hmin : minMs + 86400000 ≤ wall) (hmax : wall + 86400000 ≤ maxMs) :
    (Zone.change transition before after).Single wall ↔ ¬ Changed transition before after wall := by
  have hrep : ∀ o : FixedOffset, Representable (o.instantOf wall) := by
    intro o
    have hb := o.bound
    unfold Representable FixedOffset.instantOf
    omega
  unfold Zone.Single Zone.SingleAt
  simp only [offsetFromLocal_change, hrep, and_true]
  constructor
  · rintro ⟨o, hchanged, -⟩
    exact hchanged
  · intro hchanged
    rcases Int.lt_or_le (transition + before.localMinusUtc) (wall / 1000) with hlt | hle
    · exact ⟨after, hchanged, Or.inr ⟨rfl, hlt⟩⟩
    · exact ⟨before, hchanged, Or.inl ⟨rfl, hle⟩⟩

/-- From a whole second to `t`, and from `t` on, such a clock is put forward by no more than it shows. -/
theorem passed_change {wall t : ℤ} {o : FixedOffset} (hepoch : 172800000 ≤ wall) (ht : 86400000 ≤ t)
    (h : (Zone.change transition before after).offsetFromLocal wall = .single o) :
    (wall % 1000 = 0 → wall ≤ (Zone.change transition before after).wall t →
      Passed wall o ((Zone.change transition before after).wall t)
        ((Zone.change transition before after).offsetFromUtc t)) ∧
    ((Zone.change transition before after).wall t ≤ wall →
      Passed ((Zone.change transition before after).wall t)
        ((Zone.change transition before after).offsetFromUtc t) wall o) := by
  obtain ⟨hchanged, hanswer⟩ := offsetFromLocal_change.mp h
  have hbefore := before.bound
  have hafter := after.bound
  unfold Changed at hchanged
  unfold Passed BeforeEpoch Zone.wall FixedOffset.wallOf Zone.change
  dsimp only
  constructor
  · intro hwhole hle
    refine Or.inl ⟨?_, fun hepoch' => ?_⟩
    · rcases hanswer with ⟨rfl, hside⟩ | ⟨rfl, hside⟩ <;> split_ifs at hle ⊢ <;> omega
    · rcases hanswer with ⟨rfl, -⟩ | ⟨rfl, -⟩ <;> omega
  · intro hle
    refine Or.inl ⟨?_, fun hepoch' => ?_⟩
    · rcases hanswer with ⟨rfl, hside⟩ | ⟨rfl, hside⟩ <;> split_ifs at hle ⊢ <;> omega
    · split_ifs at hepoch' <;> omega

/-- When the window is returned and contains its timestamp. -/
theorem regular_change {wall : ℤ} (hmin : 345600000 ≤ ts.toNat)
    (hmax : (ts.toNat : ℤ) + 345600000 ≤ maxMs)
    (hwall : (Zone.change transition before after).wall (asI64 ts) = wall)
    (hwhole : first wall % 1000 = 0) (hfirst : first wall ≤ wall ∧ wall < first wall + 86400000)
    (hlast : wall ≤ last wall ∧ last wall < wall + 86400000) :
    Regular (.change transition before after) first last ts ↔
      ¬ Changed transition before after (first wall) ∧
        ¬ Changed transition before after (last wall) := by
  have hmin' : minMs = -8334601228800000 := rfl
  have hmax' : maxMs = 8210266876799999 := rfl
  have hi64 : asI64 ts = ts.toNat := asI64_of_lt (by omega)
  have hoffset := Zone.offset_bound (.change transition before after) (asI64 ts)
  have hwall' := hwall
  rw [Zone.wall_eq] at hwall'
  have hsingle : (Zone.change transition before after).Single (first wall) ↔ _ :=
    single_change (by omega) (by omega)
  have hsingle' : (Zone.change transition before after).Single (last wall) ↔ _ :=
    single_change (by omega) (by omega)
  rw [← hsingle, ← hsingle']
  constructor
  · rintro ⟨-, ⟨o, ho, -⟩, o', ho', -⟩
    rw [hwall] at ho ho'
    exact ⟨⟨o, ho⟩, o', ho'⟩
  · rintro ⟨⟨o, ho⟩, o', ho'⟩
    have hstart := (passed_change (t := asI64 ts) (by omega) (by omega) ho.1).1
    have hend := (passed_change (t := asI64 ts) (by omega) (by omega) ho'.1).2
    rw [hwall] at hstart hend
    refine ⟨?_, ⟨o, ?_⟩, o', ?_⟩
    · rw [hwall]
      unfold Representable
      omega
    · rw [hwall]
      exact ⟨ho, hstart hwhole hfirst.1⟩
    · rw [hwall]
      exact ⟨ho', hend hlast.1⟩

/-- **When the hour and the day of a timestamp are returned and contain it, in a zone whose clock is
changed once**: exactly if the change neither repeats nor skips their first and their last millisecond. -/
theorem windows_contain_iff_change (transition : ℤ) (before after : FixedOffset) (ts : UInt64)
    (hmin : 345600000 ≤ ts.toNat) (hmax : (ts.toNat : ℤ) + 345600000 ≤ maxMs) (wall : ℤ)
    (hwall : (Zone.change transition before after).wall (asI64 ts) = wall) :
    (Contains (hourlyBucketLocal (.change transition before after) ts) ts ↔
      ¬ Changed transition before after (hourStart wall) ∧
        ¬ Changed transition before after (hourEnd wall)) ∧
    (Contains (dailyBucketLocal (.change transition before after) ts) ts ↔
      ¬ Changed transition before after (dayStart wall) ∧
        ¬ Changed transition before after (dayEnd wall)) := by
  have hmin' : minMs = -8334601228800000 := rfl
  have hmax' : maxMs = 8210266876799999 := rfl
  have hi64 : asI64 ts = ts.toNat := asI64_of_lt (by omega)
  have hrep : Representable (asI64 ts) := by
    unfold Representable
    omega
  obtain ⟨hwholeHour, hwholeDay⟩ := whole_seconds wall
  obtain ⟨hfirst, hlast⟩ := hour_spans wall
  obtain ⟨hfirst', hlast'⟩ := day_spans wall
  unfold hourlyBucketLocal dailyBucketLocal
  rw [bucketLocal_iff hrep, bucketLocal_iff hrep]
  exact ⟨regular_change hmin hmax hwall hwholeHour hfirst hlast,
    regular_change hmin hmax hwall hwholeDay hfirst' hlast'⟩

end Change

/-! ### The repeated hour -/

/-- The zone of London in autumn 2024: the clock goes back one hour at 2024-10-27T01:00Z. -/
def londonAutumn : Zone := .change 1729990800 ⟨3600, hour_bound.1⟩ ⟨0, utc_bound⟩

/-- Half past one in the morning, for the first time. -/
def firstHalfPastOne : UInt64 := 1729989000000

/-- **The repeated hour has no window**: its first millisecond has two offsets. -/
theorem window_missing :
    ¬ ∀ (z : Zone) (ts : UInt64), Representable (asI64 ts) →
      Contains (hourlyBucketLocal z ts) ts ∧ Contains (dailyBucketLocal z ts) ts := by
  intro h
  obtain ⟨⟨_, _, heq, -⟩, -⟩ := h londonAutumn firstHalfPastOne (by decide)
  have hnone : hourlyBucketLocal londonAutumn firstHalfPastOne = none := by decide
  rw [hnone] at heq
  cases heq

/-- Half past three in the morning has one. -/
theorem windows_contain_iff_london :
    Contains (hourlyBucketLocal londonAutumn 1729999800000) 1729999800000 := by
  refine (windows_contain_iff londonAutumn 1729999800000 (by decide)).1.mpr ⟨by decide, ?_, ?_⟩
  · exact ⟨⟨0, utc_bound⟩, by decide, by decide⟩
  · exact ⟨⟨0, utc_bound⟩, by decide, by decide⟩

end BandixPlus.Monitor.Windows
