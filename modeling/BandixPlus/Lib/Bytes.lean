import Mathlib.Data.List.Basic
import Mathlib.Tactic.Ring

/-! # Byte strings

Numbers in both byte orders, and reading and writing at an offset of a byte string, as on a file.

* `leNat_leBytes`, `Endian.nat_bytes`: a number that fits comes back.
* `slice_writeAt_self`, `slice_writeAt_of_disjoint`: what is read after a write. -/

namespace BandixPlus.Lib.Bytes

/-- The lowest `w` bytes of `n`, lowest first. -/
def leBytes : ℕ → ℕ → List UInt8
  | 0, _ => []
  | w + 1, n => UInt8.ofNat (n % 256) :: leBytes w (n / 256)

def leNat : List UInt8 → ℕ
  | [] => 0
  | b :: bs => b.toNat + 256 * leNat bs

def beBytes (w n : ℕ) : List UInt8 := (leBytes w n).reverse

def beNat (bs : List UInt8) : ℕ := leNat bs.reverse

/-- The byte order of a machine. -/
inductive Endian where
  | little | big
  deriving DecidableEq

/-- `to_ne_bytes`, of `w` bytes. -/
def Endian.bytes : Endian → ℕ → ℕ → List UInt8
  | .little => leBytes
  | .big => beBytes

/-- `from_ne_bytes`. -/
def Endian.nat : Endian → List UInt8 → ℕ
  | .little => leNat
  | .big => beNat

/-- The `len` bytes at `off`. -/
def slice (bytes : List UInt8) (off len : ℕ) : List UInt8 := (bytes.drop off).take len

/-- Overwrite the bytes at `off`, filling a gap before them with zeros. -/
def writeAt (bytes : List UInt8) (off : ℕ) (data : List UInt8) : List UInt8 :=
  (bytes ++ List.replicate (off - bytes.length) 0).take off ++ data
    ++ bytes.drop (off + data.length)

variable {bytes data : List UInt8} {off len : ℕ}

/-! ### Numbers -/

@[simp] theorem length_leBytes (w n : ℕ) : (leBytes w n).length = w := by
  induction w generalizing n with
  | zero => rfl
  | succ w ih => rw [leBytes, List.length_cons, ih]

theorem leNat_leBytes {w n : ℕ} (h : n < 256 ^ w) : leNat (leBytes w n) = n := by
  induction w generalizing n with
  | zero =>
    have : n = 0 := by omega
    rw [this]; rfl
  | succ w ih =>
    have hdiv : n / 256 < 256 ^ w := by
      rw [Nat.pow_succ] at h
      exact Nat.div_lt_of_lt_mul (by omega)
    have hlow : (UInt8.ofNat (n % 256)).toNat = n % 256 := by
      rw [UInt8.toNat_ofNat']
      omega
    rw [leBytes, leNat, ih hdiv, hlow]
    omega

@[simp] theorem length_beBytes (w n : ℕ) : (beBytes w n).length = w := by
  simp [beBytes]

theorem beNat_beBytes {w n : ℕ} (h : n < 256 ^ w) : beNat (beBytes w n) = n := by
  unfold beNat beBytes
  rw [List.reverse_reverse, leNat_leBytes h]

@[simp] theorem Endian.length_bytes (e : Endian) (w n : ℕ) : (e.bytes w n).length = w := by
  cases e
  · exact length_leBytes w n
  · exact length_beBytes w n

theorem Endian.nat_bytes (e : Endian) {w n : ℕ} (h : n < 256 ^ w) : e.nat (e.bytes w n) = n := by
  cases e
  · exact leNat_leBytes h
  · exact beNat_beBytes h

theorem leNat_zeros {bs : List UInt8} (h : ∀ b ∈ bs, b = 0) : leNat bs = 0 := by
  induction bs with
  | nil => rfl
  | cons b bs ih =>
    obtain ⟨hb, hbs⟩ := List.forall_mem_cons.mp h
    rw [leNat, hb, ih hbs]
    rfl

theorem Endian.nat_zeros (e : Endian) {bs : List UInt8} (h : ∀ b ∈ bs, b = 0) : e.nat bs = 0 := by
  cases e
  · exact leNat_zeros h
  · exact leNat_zeros fun b hb => h b (List.mem_reverse.mp hb)

theorem leNat_lt (bs : List UInt8) : leNat bs < 256 ^ bs.length := by
  induction bs with
  | nil => exact Nat.one_pos
  | cons b bs ih =>
    have hb : b.toNat < 256 := b.toNat_lt
    rw [leNat, List.length_cons, Nat.pow_succ]
    omega

/-- **The bytes of a number come back.** -/
theorem leBytes_leNat (bs : List UInt8) : leBytes bs.length (leNat bs) = bs := by
  induction bs with
  | nil => rfl
  | cons b bs ih =>
    have hb : b.toNat < 256 := b.toNat_lt
    have hlow : (b.toNat + 256 * leNat bs) % 256 = b.toNat := by omega
    have hhigh : (b.toNat + 256 * leNat bs) / 256 = leNat bs := by omega
    rw [leNat, List.length_cons, leBytes, hlow, hhigh, ih, UInt8.ofNat_toNat]

/-! ### Slices -/

theorem length_slice (h : off + len ≤ bytes.length) : (slice bytes off len).length = len := by
  unfold slice
  rw [List.length_take, List.length_drop]
  omega

theorem slice_append_left (h : off + len ≤ bytes.length) :
    slice (bytes ++ data) off len = slice bytes off len := by
  unfold slice
  rw [List.drop_append_of_le_length (by omega), List.take_append_of_le_length]
  rw [List.length_drop]
  omega

theorem slice_append_right (h : bytes.length ≤ off) :
    slice (bytes ++ data) off len = slice data (off - bytes.length) len := by
  unfold slice
  rw [List.drop_append, List.drop_eq_nil_of_le h, List.nil_append]

theorem slice_all (bytes : List UInt8) : slice bytes 0 bytes.length = bytes := by
  unfold slice
  rw [List.drop_zero, List.take_length]

/-- A slice in two parts. -/
theorem slice_add (bytes : List UInt8) (off m n : ℕ) :
    slice bytes off (m + n) = slice bytes off m ++ slice bytes (off + m) n := by
  unfold slice
  rw [List.take_add, List.drop_drop]

theorem slice_take {n : ℕ} (h : off + len ≤ n) : slice (bytes.take n) off len = slice bytes off len := by
  unfold slice
  rw [List.drop_take, List.take_take, Nat.min_eq_left (by omega)]

theorem length_flatMap_of_length {α : Type*} {f : α → List UInt8} {w : ℕ}
    (hf : ∀ a, (f a).length = w) (l : List α) : (l.flatMap f).length = l.length * w := by
  induction l with
  | nil => rw [List.flatMap_nil, List.length_nil, List.length_nil, Nat.zero_mul]
  | cons a l ih =>
    rw [List.flatMap_cons, List.length_append, hf, ih, List.length_cons, Nat.succ_mul, Nat.add_comm]

/-- The `i`-th of a row of encodings of one width. -/
theorem slice_flatMap {α : Type*} {f : α → List UInt8} {w : ℕ} (hf : ∀ a, (f a).length = w)
    (l : List α) (rest : List UInt8) {i : ℕ} {a : α} (h : l[i]? = some a) :
    slice (l.flatMap f ++ rest) (i * w) w = f a := by
  induction l generalizing i with
  | nil => cases h
  | cons b l ih =>
    rw [List.flatMap_cons, List.append_assoc]
    cases i with
    | zero =>
      have hb : b = a := by simpa using h
      rw [hb, Nat.zero_mul, ← hf a, slice_append_left (by omega), slice_all]
    | succ i =>
      rw [Nat.succ_mul, slice_append_right (by rw [hf]; omega), hf, Nat.add_sub_cancel]
      exact ih (by simpa using h)

/-! ### Writes -/

theorem writeAt_eq (h : off ≤ bytes.length) :
    writeAt bytes off data = bytes.take off ++ data ++ bytes.drop (off + data.length) := by
  unfold writeAt
  rw [Nat.sub_eq_zero_of_le h, List.replicate_zero, List.append_nil]

theorem length_writeAt (h : off ≤ bytes.length) :
    (writeAt bytes off data).length = max bytes.length (off + data.length) := by
  rw [writeAt_eq h, List.length_append, List.length_append, List.length_take, List.length_drop]
  omega

theorem slice_writeAt_self (h : off ≤ bytes.length) :
    slice (writeAt bytes off data) off data.length = data := by
  have htake : (bytes.take off).length = off := by rw [List.length_take]; omega
  rw [writeAt_eq h, slice_append_left (by rw [List.length_append, htake]),
    slice_append_right (by rw [htake]), htake, Nat.sub_self, slice_all]

/-- A write of what is there already. -/
theorem writeAt_slice (h : off + len ≤ bytes.length) :
    writeAt bytes off (slice bytes off len) = bytes := by
  rw [writeAt_eq (by omega), length_slice h]
  unfold slice
  rw [List.append_assoc, ← List.drop_drop, List.take_append_drop, List.take_append_drop]

/-- A write leaves the bytes before it and after it. -/
theorem slice_writeAt_of_disjoint (h : off ≤ bytes.length) {o l : ℕ}
    (hd : o + l ≤ off ∨ off + data.length ≤ o) :
    slice (writeAt bytes off data) o l = slice bytes o l := by
  have htake : (bytes.take off).length = off := by rw [List.length_take]; omega
  rw [writeAt_eq h]
  rcases hd with hd | hd
  · rw [List.append_assoc, slice_append_left (by rw [htake]; exact hd)]
    unfold slice
    rw [List.drop_take, List.take_take]
    congr 1
    omega
  · rw [slice_append_right (by rw [List.length_append, htake]; exact hd), List.length_append, htake]
    unfold slice
    rw [List.drop_drop]
    congr 2
    omega

/-- A write into the first part of a slice. -/
theorem slice_writeAt_part (h : off + len ≤ bytes.length) (hdata : data.length ≤ len) :
    slice (writeAt bytes off data) off len =
      data ++ slice bytes (off + data.length) (len - data.length) := by
  have hoff : off ≤ bytes.length := by omega
  have hlen : len = data.length + (len - data.length) := by omega
  have hrest : slice (writeAt bytes off data) (off + data.length) (len - data.length) =
      slice bytes (off + data.length) (len - data.length) :=
    slice_writeAt_of_disjoint hoff (Or.inr le_rfl)
  conv_lhs => rw [hlen]
  rw [slice_add, slice_writeAt_self hoff, hrest]

end BandixPlus.Lib.Bytes
