import BandixPlus.Lib.Bytes
import BandixPlus.Lib.Checked

/-! # Layouts

Which bytes stand where in a slice, and what the reads of a slice come to there.

* `holds_append`: two byte strings one behind the other.
* `Consecutive.times`: a loop with a fixed number of turns reads as many pieces of a row. -/

namespace BandixPlus.Lib.Layout

open BandixPlus.Lib.Bytes BandixPlus.Lib.Checked BandixPlus.Lib.Checked.Outcome

/-- The bytes `bs` stand in `s` from `i` on. -/
def Holds (s : Slice) (i : ℕ) (bs : List UInt8) : Prop := slice s.bytes i bs.length = bs

variable {s : Slice} {i j n : ℕ} {b : UInt8} {as bs : List UInt8}

instance : Decidable (Holds s i bs) := inferInstanceAs (Decidable (_ = _))

theorem Holds.le (h : Holds s i bs) (hpos : 0 < bs.length) : i + bs.length ≤ s.len := by
  have hlen := congrArg List.length h
  have hs : s.len = s.bytes.length := rfl
  unfold slice at hlen
  rw [List.length_take, List.length_drop] at hlen
  omega

theorem Holds.le_of_le (h : Holds s i bs) (hi : i ≤ s.len) : i + bs.length ≤ s.len := by
  rcases Nat.eq_zero_or_pos bs.length with hbs | hbs
  · omega
  · exact h.le hbs

/-- **One behind the other.** -/
theorem holds_append : Holds s i (as ++ bs) ↔ Holds s i as ∧ Holds s (i + as.length) bs := by
  unfold Holds
  rw [List.length_append, slice_add]
  constructor
  · intro h
    refine List.append_inj h ?_
    have hlen := congrArg List.length h
    simp only [slice, List.length_append, List.length_take, List.length_drop] at hlen ⊢
    omega
  · rintro ⟨has, hbs⟩
    rw [has, hbs]

theorem holds_cons : Holds s i (b :: bs) ↔ Holds s i [b] ∧ Holds s (i + 1) bs :=
  @holds_append s i [b] bs

theorem Holds.bytes_cut (h : Holds s i bs) : (s.cut i (i + bs.length)).bytes = bs := by
  show (s.bytes.drop i).take (i + bs.length - i) = bs
  rw [Nat.add_sub_cancel_left]
  exact h

theorem Holds.cut (h : Holds s (i + j) bs) (hle : j + bs.length ≤ n - i) : Holds (s.cut i n) j bs := by
  show slice ((s.bytes.drop i).take (n - i)) j bs.length = bs
  rw [slice_take hle]
  unfold slice
  rw [List.drop_drop]
  exact h

theorem holds_all (s : Slice) : Holds s 0 s.bytes := slice_all s.bytes

/-! ### Reads -/

theorem Holds.getRange (h : Holds s i bs) (hle : i + bs.length ≤ s.len) :
    ∃ t, s.getRange i (i + bs.length) = .value t ∧ t.bytes = bs :=
  ⟨_, Slice.getRange_eq (by omega) hle, h.bytes_cut⟩

theorem Holds.byte (h : Holds s i [b]) : i < s.len ∧ s.byte i = b := by
  have hle : i + 1 ≤ s.len := h.le (by simp)
  have hcut : (s.cut i (i + 1)).bytes = [b] := h.bytes_cut
  have hbyte := Slice.byte_cut (s := s) (a := i) (b := i + 1) (i := 0) (by omega)
  refine ⟨hle, ?_⟩
  simpa [Slice.byte, hcut] using hbyte.symm

theorem Holds.index (h : Holds s i [b]) : s.index i = .value b := by
  rw [Slice.index_eq h.byte.1, h.byte.2]

theorem Holds.get (h : Holds s i [b]) : s.get i = .value b := by
  unfold Slice.get
  rw [Slice.getElem?_eq_byte h.byte.1, h.byte.2]

theorem holds_byte (h : i < s.len) : Holds s i [s.byte i] := by
  have hi : i < s.bytes.length := h
  unfold Holds slice
  rw [List.drop_eq_getElem_cons hi, List.length_singleton, List.take_succ_cons, List.take_zero]
  simp [Slice.byte, hi]

theorem holds_cut (hle : j ≤ s.len) : Holds s i (s.cut i j).bytes := by
  have hlen : (s.cut i j).bytes.length = j - i := Slice.len_cut hle
  unfold Holds
  rw [hlen]
  rfl

/-! ### Rows -/

section
variable {α σ : Type} {R : ℕ → α → ℕ → Prop} {row : List α} {k : ℕ}

/-- A row of pieces from `i` to `k`, where `R i a j` says that `a` reaches from `i` to `j`. -/
inductive Consecutive (R : ℕ → α → ℕ → Prop) : ℕ → List α → ℕ → Prop
  | nil {i : ℕ} : Consecutive R i [] i
  | cons {i j k : ℕ} {a : α} {row : List α} :
      R i a j → Consecutive R j row k → Consecutive R i (a :: row) k

theorem Consecutive.eq_of_nil (h : Consecutive R i [] k) : i = k := by
  cases h
  rfl

theorem Consecutive.head {a : α} (h : Consecutive R i (a :: row) k) : ∃ j, R i a j := by
  cases h with
  | cons ha _ => exact ⟨_, ha⟩

/-- **Each turn reads one piece.** The state depends on the position and on the pieces that are
read. -/
theorem Consecutive.times {body : σ → Outcome σ} (state : ℕ → List α → σ)
    (hbody : ∀ i a j seen, R i a j → body (state i seen) = .value (state j (seen ++ [a])))
    (h : Consecutive R i row k) (hn : n ≤ row.length) (seen : List α) :
    ∃ j, Consecutive R j (row.drop n) k ∧
      times body n (state i seen) = .value (state j (seen ++ row.take n)) := by
  induction h generalizing n seen with
  | @nil i =>
    obtain rfl : n = 0 := by simpa using hn
    exact ⟨i, .nil, by simp [Checked.times]⟩
  | @cons i j k a row ha hrow ih =>
    cases n with
    | zero => exact ⟨i, .cons ha hrow, by simp [Checked.times]⟩
    | succ n =>
      obtain ⟨l, hl, hread⟩ := ih (by simpa using hn) (seen ++ [a])
      refine ⟨l, hl, ?_⟩
      rw [Checked.times, hbody i a j seen ha, value_bind, hread]
      simp

end

end BandixPlus.Lib.Layout
