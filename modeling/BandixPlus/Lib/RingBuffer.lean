import Mathlib.Data.List.DropRight
import Mathlib.Logic.Function.Basic
import Mathlib.Tactic.Linarith

/-! # Ring buffers

A ring of `cap` slots holds its last `count` entries in the slots before position `pos`, oldest first.

* `contents_push`: writing at `pos` and moving on keeps the last `cap` of the entries with the new
  one.
* `contents_rtake`: the newest entries of a ring.
* `contents_straight`: a ring filled from slot 0. -/

namespace BandixPlus.Lib.RingBuffer

variable {α : Type*}

/-- The entries, oldest first. -/
def contents (slots : ℕ → α) (cap pos count : ℕ) : List α :=
  (List.range count).map fun i => slots ((pos + cap - count + i) % cap)

@[simp] theorem length_contents (slots : ℕ → α) (cap pos count : ℕ) :
    (contents slots cap pos count).length = count := by
  rw [contents, List.length_map, List.length_range]

theorem getElem_contents {slots : ℕ → α} {cap pos count i : ℕ}
    (h : i < (contents slots cap pos count).length) :
    (contents slots cap pos count)[i] = slots ((pos + cap - count + i) % cap) := by
  simp [contents]

theorem contents_congr {slots slots' : ℕ → α} {cap pos count : ℕ}
    (h : ∀ i < count, slots ((pos + cap - count + i) % cap) =
      slots' ((pos + cap - count + i) % cap)) :
    contents slots cap pos count = contents slots' cap pos count :=
  List.map_congr_left fun i hi => h i (List.mem_range.mp hi)

theorem rtake_map {β : Type*} (f : α → β) (l : List α) (n : ℕ) :
    (l.map f).rtake n = (l.rtake n).map f := by
  unfold List.rtake
  rw [List.length_map, List.map_drop]

theorem rtake_of_le (l : List α) {n : ℕ} (h : l.length ≤ n) : l.rtake n = l := by
  unfold List.rtake
  rw [Nat.sub_eq_zero_of_le h, List.drop_zero]

theorem length_rtake (l : List α) (n : ℕ) : (l.rtake n).length = min l.length n := by
  unfold List.rtake
  rw [List.length_drop]
  omega

theorem rtake_min (l : List α) (n : ℕ) : l.rtake (min l.length n) = l.rtake n := by
  unfold List.rtake
  congr 1
  omega

/-- Dropping the oldest before or after entries are added is the same. -/
theorem rtake_append_rtake (l l' : List α) (n : ℕ) :
    (l.rtake n ++ l').rtake n = (l ++ l').rtake n := by
  have hlen := length_rtake l n
  unfold List.rtake at hlen ⊢
  rw [List.length_append, hlen, List.length_append, List.drop_append, List.drop_append, hlen,
    List.drop_drop]
  congr 2
  · omega
  · omega

theorem mod_of_lt_two_mul {a n : ℕ} (h : a < 2 * n) : a % n = if a < n then a else a - n := by
  split_ifs with ha
  · exact Nat.mod_eq_of_lt ha
  · rw [Nat.mod_eq_sub_mod (by omega), Nat.mod_eq_of_lt (by omega)]

theorem succ_mod {n : ℕ} (hn : 0 < n) (a : ℕ) :
    (a + 1) % n = if a % n + 1 < n then a % n + 1 else 0 := by
  have hlt := Nat.mod_lt a hn
  rw [← Nat.mod_add_mod, mod_of_lt_two_mul (by omega)]
  split_ifs <;> omega

/-- A ring that is not full has been filled from slot 0. -/
def Positioned (cap pos count : ℕ) : Prop :=
  pos < cap ∧ count ≤ cap ∧ (count < cap → pos = count)

variable {cap pos count : ℕ}

theorem Positioned.push (h : Positioned cap pos count) :
    Positioned cap ((pos + 1) % cap) (min (count + 1) cap) := by
  obtain ⟨hpos, hle, hfill⟩ := h
  refine ⟨Nat.mod_lt _ (by omega), min_le_right _ _, fun hlt => ?_⟩
  have hcount : count + 1 < cap := by omega
  rw [hfill (by omega), Nat.mod_eq_of_lt hcount]
  omega

/-- The entries are in the first `count` slots. -/
theorem Positioned.slot_lt (h : Positioned cap pos count) {k i : ℕ} (hk : k ≤ count) (hi : i < k) :
    (pos + cap - k + i) % cap < count := by
  obtain ⟨hpos, hle, hfill⟩ := h
  rcases Nat.lt_or_ge count cap with hlt | hge
  · have hp := hfill hlt
    rw [mod_of_lt_two_mul (by omega)]
    split_ifs <;> omega
  · have := Nat.mod_lt (pos + cap - k + i) (show 0 < cap by omega)
    omega

/-- The slots after a push are those before it, counted on to the slot just written. -/
theorem push_slot (h : count ≤ cap) (i : ℕ) :
    ((pos + 1) % cap + cap - min (count + 1) cap + i) % cap =
      (pos + cap - count + (count + 1 - cap + i)) % cap := by
  have hmin : min (count + 1) cap ≤ cap := min_le_right _ _
  have hsplit : (pos + 1) % cap + cap - min (count + 1) cap + i =
      (pos + 1) % cap + (cap - min (count + 1) cap + i) := by omega
  rw [hsplit, Nat.mod_add_mod]
  congr 1
  omega

/-- The slots of the entries are not the one that is written next, unless the ring is full and the
oldest is overwritten. -/
theorem Positioned.slot_ne (h : Positioned cap pos count) {j : ℕ} (hj : j < count)
    (hkept : count + 1 - cap ≤ j) : (pos + cap - count + j) % cap ≠ pos := by
  obtain ⟨hpos, hle, hfill⟩ := h
  rw [mod_of_lt_two_mul (by omega)]
  split_ifs <;> omega

/-- **A push keeps the last `cap` entries.** -/
theorem contents_push (h : Positioned cap pos count) (slots : ℕ → α) (x : α) :
    contents (Function.update slots pos x) cap ((pos + 1) % cap) (min (count + 1) cap) =
      (contents slots cap pos count ++ [x]).rtake cap := by
  have hpos := h.1
  have hle := h.2.1
  have hlen : (contents slots cap pos count ++ [x]).length = count + 1 := by simp
  unfold List.rtake
  rw [hlen]
  refine List.ext_getElem ?_ fun i h₁ h₂ => ?_
  · rw [length_contents, List.length_drop, hlen]
    omega
  · rw [length_contents] at h₁
    rw [getElem_contents, List.getElem_drop, push_slot hle]
    by_cases hlast : count + 1 - cap + i = count
    · -- the entry just written
      have hslot : (pos + cap - count + (count + 1 - cap + i)) % cap = pos := by
        have hturn : pos + cap - count + count = pos + cap := by omega
        rw [hlast, hturn, Nat.add_mod_right, Nat.mod_eq_of_lt hpos]
      rw [hslot, Function.update_self]
      simp [hlast]
    · rw [List.getElem_append_left (by rw [length_contents]; omega), getElem_contents]
      exact Function.update_of_ne (h.slot_ne (by omega) (by omega)) _ _

/-- The newest `k` entries. -/
theorem contents_rtake (slots : ℕ → α) (hle : count ≤ cap) {k : ℕ} (hk : k ≤ count) :
    contents slots cap pos k = (contents slots cap pos count).rtake k := by
  unfold List.rtake
  refine List.ext_getElem ?_ fun i h₁ h₂ => ?_
  · rw [length_contents, List.length_drop, length_contents]
    omega
  · rw [length_contents] at h₁
    rw [List.getElem_drop, getElem_contents, getElem_contents]
    simp only [length_contents]
    congr 2
    omega

/-- A ring filled from slot 0, not beyond its end. -/
theorem contents_straight (slots : ℕ → α) (hcap : 0 < cap) (hle : count ≤ cap) :
    contents slots cap (count % cap) count = (List.range count).map slots := by
  unfold contents
  refine List.map_congr_left fun i hi => ?_
  have hi := List.mem_range.mp hi
  congr 1
  rw [mod_of_lt_two_mul (a := count) (by omega)]
  split_ifs
  · rw [mod_of_lt_two_mul (by omega)]
    split_ifs <;> omega
  · rw [mod_of_lt_two_mul (by omega)]
    split_ifs <;> omega

end BandixPlus.Lib.RingBuffer
