import BandixPlus.Lib.Bytes
import BandixPlus.Lib.LastWins
import Mathlib.Data.Nat.Bitwise

/-! # Netlink attributes

`conntrack.rs`, the iterator `NetlinkAttributes`. An attribute is a header of two native 16-bit numbers,
its length and its kind with two flag bits, and a payload; the next one starts at a multiple of four
bytes.

* `Encoded`: the bytes of a list of attributes. The padding after the last one may be missing, and
  zeros may follow it.
* `items_encoded`: the iterator returns the attributes. -/

namespace BandixPlus.Conntrack.Netlink

open BandixPlus.Lib.Bytes

def nlaAlignto : ℕ := 4

/-- `(value + alignment - 1) & !(alignment - 1)`: the bits of `alignment - 1` are cleared. -/
def align (value alignment : ℕ) : ℕ :=
  let n := value + alignment - 1
  n - (n &&& (alignment - 1))

structure NetlinkAttributes where
  buffer : List UInt8
  offset : ℕ

def NetlinkAttributes.new (buffer : List UInt8) : NetlinkAttributes := ⟨buffer, 0⟩

section
variable (e : Endian)

/-- The next item and the iterator after it. An iterator that has returned nothing is not used again. -/
def next (it : NetlinkAttributes) :
    Option (Except String (UInt16 × List UInt8) × NetlinkAttributes) :=
  let stop := { it with offset := it.buffer.length }
  if it.buffer.length ≤ it.offset then none
  else if (it.buffer.drop it.offset).all (· = 0) then none
  else
    let base := it.offset
    let remaining := it.buffer.length - base
    if remaining < 4 then some (.error "truncated netlink attribute", stop)
    else
      let length := e.nat (slice it.buffer base 2)
      let kind := UInt16.ofNat (e.nat (slice it.buffer (base + 2) 2)) &&& 0x3fff
      if length = 0 then none
      else if length < 4 ∨ remaining < length then
        some (.error (s!"invalid netlink attribute length {length} (kind {kind}, offset {base}, " ++
          s!"remaining {remaining})"), stop)
      else
        some (.ok (kind, slice it.buffer (base + 4) (length - 4)),
          { it with offset := base + align length nlaAlignto })

theorem align_four (value : ℕ) : align value nlaAlignto = (value + 3) / 4 * 4 := by
  have hmod : (value + 3) &&& 3 = (value + 3) % 4 := Nat.and_two_pow_sub_one_eq_mod (value + 3) 2
  show value + 3 - ((value + 3) &&& 3) = _
  rw [hmod]
  omega

/-- The iterator advances. -/
theorem next_advances {it it' : NetlinkAttributes} {item : Except String (UInt16 × List UInt8)}
    (h : next e it = some (item, it')) :
    it'.buffer.length - it'.offset < it.buffer.length - it.offset := by
  unfold next at h
  dsimp only at h
  split_ifs at h with hend hzeros hshort hlength hinvalid
  · obtain ⟨-, rfl⟩ := Prod.mk.inj (Option.some.inj h)
    show it.buffer.length - it.buffer.length < _
    omega
  · obtain ⟨-, rfl⟩ := Prod.mk.inj (Option.some.inj h)
    show it.buffer.length - it.buffer.length < _
    omega
  · obtain ⟨-, rfl⟩ := Prod.mk.inj (Option.some.inj h)
    have halign := align_four (e.nat (slice it.buffer it.offset 2))
    show it.buffer.length - (it.offset + align _ nlaAlignto) < _
    omega

/-- All items that the iterator returns. -/
def items (it : NetlinkAttributes) : List (Except String (UInt16 × List UInt8)) :=
  match _h : next e it with
  | none => []
  | some (item, it') => item :: items it'
termination_by it.buffer.length - it.offset
decreasing_by exact next_advances e _h

/-- `for attribute in NetlinkAttributes::new(value)` with `attribute?` at its start. -/
def forAttributes {σ : Type} (value : List UInt8) (step : σ → UInt16 → List UInt8 → Except String σ)
    (init : σ) : Except String σ :=
  (items e (.new value)).foldlM (fun s item => item.bind fun a => step s a.1 a.2) init

/-- `NetlinkAttributes::new(value).flatten()`: the items that are no errors. -/
def flatten (value : List UInt8) : List (UInt16 × List UInt8) :=
  (items e (.new value)).filterMap Except.toOption

end

/-! ### Encoding -/

structure Attribute where
  /-- The kind in the lower 14 bits, above it the flags for nested attributes and for the byte order. -/
  type : UInt16
  payload : List UInt8
  fits : 4 + payload.length < 2 ^ 16

namespace Attribute

def kind (a : Attribute) : UInt16 := a.type &&& 0x3fff

def length (a : Attribute) : ℕ := 4 + a.payload.length

/-- How many bytes are missing to a multiple of four. -/
def padding (a : Attribute) : ℕ := (a.length + 3) / 4 * 4 - a.length

def header (e : Endian) (a : Attribute) : List UInt8 := e.bytes 2 a.length ++ e.bytes 2 a.type.toNat

end Attribute

/-- **The bytes of some attributes.** -/
inductive Encoded (e : Endian) : List Attribute → List UInt8 → Prop
  | zeros (n : ℕ) : Encoded e [] (List.replicate n 0)
  | last (a : Attribute) {padding : List UInt8} (h : padding.length ≤ a.padding) :
      Encoded e [a] (a.header e ++ (a.payload ++ padding))
  | cons {a : Attribute} {as : List Attribute} {padding bytes : List UInt8}
      (h : padding.length = a.padding) (rest : Encoded e as bytes) :
      Encoded e (a :: as) (a.header e ++ (a.payload ++ (padding ++ bytes)))

/-- The attributes with all padding. -/
def encode (e : Endian) : List Attribute → List UInt8
  | [] => []
  | a :: as => a.header e ++ (a.payload ++ (List.replicate a.padding 0 ++ encode e as))

section
variable {e : Endian}

theorem encoded_encode (as : List Attribute) : Encoded e as (encode e as) := by
  induction as with
  | nil => exact .zeros 0
  | cons a as ih => exact .cons List.length_replicate ih

theorem Attribute.length_header (a : Attribute) : (a.header e).length = 4 := by
  simp [header]

/-- **One attribute**, whatever precedes and follows it. -/
theorem next_header (a : Attribute) (before after : List UInt8) :
    next e ⟨before ++ (a.header e ++ (a.payload ++ after)), before.length⟩ =
      some (.ok (a.kind, a.payload),
        ⟨before ++ (a.header e ++ (a.payload ++ after)), before.length + (a.length + 3) / 4 * 4⟩) := by
  have hheader := a.length_header (e := e)
  have hfits := a.fits
  have hlen : (before ++ (a.header e ++ (a.payload ++ after))).length =
      before.length + (a.length + after.length) := by
    simp [hheader, Attribute.length]
    omega
  have hlength : slice (before ++ (a.header e ++ (a.payload ++ after))) before.length 2 =
      e.bytes 2 a.length := by
    simp [slice, Attribute.header]
  have htype : slice (before ++ (a.header e ++ (a.payload ++ after))) (before.length + 2) 2 =
      e.bytes 2 a.type.toNat := by
    rw [slice_append_right (by omega), Nat.add_sub_cancel_left]
    simp [slice, Attribute.header]
  have hpayload : slice (before ++ (a.header e ++ (a.payload ++ after))) (before.length + 4)
      (a.length - 4) = a.payload := by
    rw [slice_append_right (by omega), Nat.add_sub_cancel_left, slice_append_right (by omega), hheader]
    simp [slice, Attribute.length]
  have hnat : e.nat (e.bytes 2 a.length) = a.length := e.nat_bytes hfits
  have hkind : UInt16.ofNat (e.nat (e.bytes 2 a.type.toNat)) = a.type := by
    rw [e.nat_bytes a.type.toNat_lt, UInt16.ofNat_toNat]
  have hlong : 4 ≤ a.length := Nat.le_add_right 4 _
  -- the length is not zero, so not all of what is left is
  have hzeros : ((before ++ (a.header e ++ (a.payload ++ after))).drop before.length).all (· = 0) =
      false := by
    by_contra hall
    rw [Bool.not_eq_false, List.drop_left, List.all_eq_true] at hall
    have hzero := e.nat_zeros fun b hb => of_decide_eq_true
      (hall b (List.mem_append_left _ (List.mem_append_left (e.bytes 2 a.type.toNat) hb)))
    omega
  unfold next
  dsimp only
  rw [hlen, hzeros, hlength, hnat, htype, hpayload, hkind, align_four, if_neg (by omega),
    if_neg (by simp), if_neg (by omega), if_neg (by omega), if_neg (by omega)]
  rfl

/-! ### The items of an encoding -/

theorem items_of_next_none {it : NetlinkAttributes} (h : next e it = none) : items e it = [] := by
  rw [items]
  split
  · rfl
  · next heq => rw [h] at heq; cases heq

theorem items_of_next_some {it it' : NetlinkAttributes} {item : Except String (UInt16 × List UInt8)}
    (h : next e it = some (item, it')) : items e it = item :: items e it' := by
  rw [items]
  split
  · next heq => rw [h] at heq; cases heq
  · next heq =>
    rw [h] at heq
    obtain ⟨rfl, rfl⟩ := Prod.mk.inj (Option.some.inj heq)
    rfl

theorem items_of_end {it : NetlinkAttributes} (h : it.buffer.length ≤ it.offset) : items e it = [] := by
  refine items_of_next_none ?_
  unfold next
  rw [if_pos h]

/-- What follows the last attribute is no attribute. -/
theorem items_zeros (before : List UInt8) (n : ℕ) :
    items e ⟨before ++ List.replicate n 0, before.length⟩ = [] := by
  refine items_of_next_none ?_
  have hzeros : ((before ++ List.replicate n 0).drop before.length).all (· = 0) = true := by
    rw [List.drop_left, List.all_eq_true]
    exact fun b hb => decide_eq_true (List.eq_of_mem_replicate hb)
  unfold next
  dsimp only
  rw [if_pos hzeros]
  split_ifs <;> rfl

/-- **The iterator returns the attributes**, from wherever their bytes begin. -/
theorem items_encoded_at {as : List Attribute} {bytes : List UInt8} (h : Encoded e as bytes)
    (before : List UInt8) :
    items e ⟨before ++ bytes, before.length⟩ = as.map fun a => .ok (a.kind, a.payload) := by
  induction h generalizing before with
  | zeros n => exact items_zeros before n
  | last a hpadding =>
    have hheader := a.length_header (e := e)
    rw [items_of_next_some (next_header a before _), items_of_end]
    · rfl
    · unfold Attribute.padding Attribute.length at *
      simp only [List.length_append]
      omega
  | @cons a as padding bytes hpadding rest ih =>
    have hheader := a.length_header (e := e)
    have hlength : (before ++ (a.header e ++ (a.payload ++ padding))).length =
        before.length + (a.length + 3) / 4 * 4 := by
      unfold Attribute.padding Attribute.length at *
      simp only [List.length_append]
      omega
    have hih := ih (before ++ (a.header e ++ (a.payload ++ padding)))
    rw [hlength] at hih
    rw [items_of_next_some (next_header a before _), List.map_cons, ← hih]
    simp only [List.append_assoc]

theorem items_encoded {as : List Attribute} {bytes : List UInt8} (h : Encoded e as bytes) :
    items e (.new bytes) = as.map fun a => .ok (a.kind, a.payload) :=
  items_encoded_at h []

/-- **A loop over the attributes** whose steps do not fail. -/
theorem forAttributes_encoded {σ : Type} {as : List Attribute} {value : List UInt8}
    (h : Encoded e as value) {step : σ → UInt16 → List UInt8 → Except String σ}
    {effect : σ → Attribute → σ} (hstep : ∀ a ∈ as, ∀ s, step s a.kind a.payload = .ok (effect s a))
    (init : σ) : forAttributes e value step init = .ok (as.foldl effect init) := by
  unfold forAttributes
  rw [items_encoded h, List.foldlM_map]
  clear h
  induction as generalizing init with
  | nil => rfl
  | cons a rest ih =>
    obtain ⟨ha, hrest⟩ := List.forall_mem_cons.mp hstep
    rw [List.foldlM_cons, List.foldl_cons, ← ih hrest]
    show (step init a.kind a.payload).bind _ = _
    rw [ha]
    rfl

theorem flatten_encoded {as : List Attribute} {value : List UInt8} (h : Encoded e as value) :
    flatten e value = as.map fun a => (a.kind, a.payload) := by
  unfold flatten
  rw [items_encoded h, List.filterMap_map]
  exact congrFun List.filterMap_eq_map as

end

end BandixPlus.Conntrack.Netlink
