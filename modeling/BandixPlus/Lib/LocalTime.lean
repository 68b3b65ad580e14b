import Mathlib.Algebra.Order.Group.Unbundled.Int
import Mathlib.Tactic.Linarith

/-! # Local time

A time zone as the `chrono` library shows it: the offset from UTC in force at every instant, and the
library's answer to the question which offset a wall time has. An instant is a number of milliseconds
since 1970-01-01T00:00Z; a wall time is the reading of the local clock, counted the same way. The two
functions are the required methods of the trait `TimeZone`, and nothing is assumed of them.

* `unwrap_fromLocal`: a wall time is turned back exactly if the zone gives it a single offset, and the
  instant is in range.
* `Zone.fixed`, `Zone.change`: the zones whose clock is never changed, and changed once. -/

namespace BandixPlus.Lib.LocalTime

/-- The instants and the wall times that the library represents: the years -262143 to 262142. -/
def minMs : ℤ := -8334601228800000
def maxMs : ℤ := 8210266876799999

def Representable (t : ℤ) : Prop := minMs ≤ t ∧ t ≤ maxMs

instance (t : ℤ) : Decidable (Representable t) := by unfold Representable; infer_instance

/-- Seconds east of UTC, less than a day. -/
structure FixedOffset where
  localMinusUtc : ℤ
  bound : -86400 < localMinusUtc ∧ localMinusUtc < 86400
deriving DecidableEq

/-- The instant at which a clock of this offset shows `wall`, and what it shows at `t`. -/
def FixedOffset.instantOf (o : FixedOffset) (wall : ℤ) : ℤ := wall - o.localMinusUtc * 1000
def FixedOffset.wallOf (o : FixedOffset) (t : ℤ) : ℤ := t + o.localMinusUtc * 1000

/-- `MappedLocalTime`: what a wall time is mapped to. -/
inductive LocalResult (α : Type) where
  | none
  | single (t : α)
  | ambiguous (earlier later : α)
deriving DecidableEq

namespace LocalResult

variable {α β : Type}

/-- `LocalResult::unwrap`, which panics (`none`) unless the result is single. -/
def unwrap : LocalResult α → Option α
  | single t => some t
  | _ => Option.none

/-- `and_then`: a result of which a part fails is no result. -/
def andThen (r : LocalResult α) (f : α → Option β) : LocalResult β :=
  match r with
  | none => none
  | single t => ((f t).map single).getD none
  | ambiguous earlier later =>
    ((f earlier).bind fun e => (f later).map fun l => ambiguous e l).getD none

theorem unwrap_andThen {r : LocalResult α} {f : α → Option β} {u : β} :
    (r.andThen f).unwrap = some u ↔ ∃ t, r = single t ∧ f t = some u := by
  cases r with
  | none => simp [andThen, unwrap]
  | single t => cases h : f t <;> simp [andThen, unwrap, h]
  | ambiguous earlier later =>
    cases h : f earlier <;> cases h' : f later <;> simp [andThen, unwrap, h, h']

end LocalResult

/-- A time zone: the offset at every instant (`offset_from_utc_datetime`) and the offset or offsets of
every wall time (`offset_from_local_datetime`). -/
structure Zone where
  offsetFromUtc : ℤ → FixedOffset
  offsetFromLocal : ℤ → LocalResult FixedOffset

namespace Zone

/-- Seconds east of UTC at an instant. -/
def offset (z : Zone) (t : ℤ) : ℤ := (z.offsetFromUtc t).localMinusUtc

/-- The reading of the local clock at an instant. -/
def wall (z : Zone) (t : ℤ) : ℤ := (z.offsetFromUtc t).wallOf t

/-- `checked_sub_offset`. -/
def checkedInstant (wall : ℤ) (o : FixedOffset) : Option ℤ :=
  if Representable (o.instantOf wall) then some (o.instantOf wall) else none

/-- `from_local_datetime`. -/
def fromLocal (z : Zone) (wall : ℤ) : LocalResult ℤ :=
  (z.offsetFromLocal wall).andThen (checkedInstant wall)

/-- **The zone gives the wall time the single offset `o`**, and the instant is in range. -/
def SingleAt (z : Zone) (wall : ℤ) (o : FixedOffset) : Prop :=
  z.offsetFromLocal wall = .single o ∧ Representable (o.instantOf wall)

instance (z : Zone) (wall : ℤ) (o : FixedOffset) : Decidable (z.SingleAt wall o) := by
  unfold SingleAt; infer_instance

/-- The wall time has a single offset: the clock neither repeats it nor skips it. -/
def Single (z : Zone) (wall : ℤ) : Prop := ∃ o, z.SingleAt wall o

variable {z : Zone} {wall t : ℤ}

theorem checkedInstant_eq_some {o : FixedOffset} :
    checkedInstant wall o = some t ↔ Representable (o.instantOf wall) ∧ o.instantOf wall = t := by
  unfold checkedInstant
  split_ifs with h <;> simp [h]

/-- **A wall time is turned back exactly if it has a single offset.** -/
theorem unwrap_fromLocal :
    (z.fromLocal wall).unwrap = some t ↔ ∃ o, z.SingleAt wall o ∧ o.instantOf wall = t := by
  unfold fromLocal SingleAt
  rw [LocalResult.unwrap_andThen]
  simp only [checkedInstant_eq_some, and_assoc]

theorem unwrap_of_singleAt {o : FixedOffset} (h : z.SingleAt wall o) :
    (z.fromLocal wall).unwrap = some (o.instantOf wall) := unwrap_fromLocal.mpr ⟨o, h, rfl⟩

theorem wall_eq (z : Zone) (t : ℤ) : z.wall t = t + z.offset t * 1000 := rfl

theorem offset_bound (z : Zone) (t : ℤ) : -86400 < z.offset t ∧ z.offset t < 86400 :=
  (z.offsetFromUtc t).bound

/-! ### Zones of one or two offsets -/

/-- The zone of a fixed offset. -/
def fixed (seconds : ℤ) (h : -86400 < seconds ∧ seconds < 86400) : Zone where
  offsetFromUtc := fun _ => ⟨seconds, h⟩
  offsetFromLocal := fun _ => .single ⟨seconds, h⟩

/-- **A zone whose clock is changed once**, at the second `transition`, from the offset `before` to
`after`. The library looks at the second of the wall time only; it counts the last second of a repeated
hour as repeated, and the first second of a skipped hour as single. -/
def change (transition : ℤ) (before after : FixedOffset) : Zone where
  offsetFromUtc := fun t => if t < transition * 1000 then before else after
  offsetFromLocal := fun wall =>
    let transitionStart := transition + before.localMinusUtc
    let transitionEnd := transition + after.localMinusUtc
    if transitionEnd ≤ transitionStart then
      if wall / 1000 < transitionEnd then .single before
      else if wall / 1000 ≤ transitionStart then .ambiguous before after
      else .single after
    else if wall / 1000 ≤ transitionStart then .single before
    else if wall / 1000 < transitionEnd then .none
    else .single after

end Zone

theorem utc_bound : -86400 < (0 : ℤ) ∧ (0 : ℤ) < 86400 := by decide

theorem hour_bound : (-86400 < (3600 : ℤ) ∧ (3600 : ℤ) < 86400) ∧
    -86400 < (-3600 : ℤ) ∧ (-3600 : ℤ) < 86400 := by decide

end BandixPlus.Lib.LocalTime
