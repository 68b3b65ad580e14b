import BandixPlus.Conntrack.Netlink
import BandixPlus.Lib.Iteration

/-! # Netlink messages

`conntrack.rs`, the iterator `NetlinkMessages`. A message is a header of 16 bytes, its length, its kind
and ten bytes that are not read, and a payload; the next one starts at a multiple of four bytes.

* `next_advances`: what one step of the iterator does, on any bytes and at any offset.
* `Framed`: the bytes of a list of messages. The padding after the last one may be missing.
* `collect_framed_iff`: the iterator returns the messages, without an error, if and only if no padding
  is missing. -/

namespace BandixPlus.Conntrack.Messages

open BandixPlus.Lib.Bytes BandixPlus.Lib.Checked BandixPlus.Lib.Checked.Outcome
open BandixPlus.Lib.Iteration
open BandixPlus.Conntrack.Netlink (align align_four)

def nlmsgHdrLen : ℕ := 16
def nlmsgAlignto : ℕ := 4

structure NetlinkMessage where
  kind : UInt16
  payload : Slice

structure NetlinkMessages where
  buffer : Slice
  offset : ℕ

def NetlinkMessages.new (buffer : Slice) : NetlinkMessages := ⟨buffer, 0⟩

/-- `s[a..b].try_into().unwrap()` as an array of `n` bytes. -/
def array (s : Slice) (a b n : ℕ) : Outcome (List UInt8) := do
  let part ← s.indexRange a b
  if part.len = n then .value part.bytes else .panicked

/-- `align` on `usize`. -/
def alignUsize (value alignment : ℕ) : Outcome ℕ := do
  let sum ← add value alignment
  let _ ← sub sum 1
  .value (align value alignment)

section
variable (e : Endian)

def next (it : NetlinkMessages) : Outcome (Option (Except String NetlinkMessage) × NetlinkMessages) :=
  let stop := { it with offset := it.buffer.len }
  if it.offset = it.buffer.len then .value (none, it)
  else if it.buffer.len - it.offset < nlmsgHdrLen then
    .value (some (.error "truncated netlink header"), stop)
  else do
    let base := it.offset
    let length := e.nat (← array it.buffer base (← add base 4) 4)
    if length < nlmsgHdrLen ∨ it.buffer.len - base < length then
      .value (some (.error s!"invalid netlink message length {length}"), stop)
    else do
      let kind := UInt16.ofNat (e.nat (← array it.buffer (← add base 4) (← add base 6) 2))
      let payload ← it.buffer.indexRange (← add base nlmsgHdrLen) (← add base length)
      let offset ← add base (← alignUsize length nlmsgAlignto)
      .value (some (.ok ⟨kind, payload⟩), { it with offset })

/-! ### One step -/

variable {e}

theorem array_eq {s : Slice} {a b n : ℕ} (h : a + n = b) (hb : b ≤ s.len) :
    array s a b n = .value (slice s.bytes a n) := by
  have hlen : (s.cut a b).len = n := by rw [Slice.len_cut hb]; omega
  unfold array
  rw [Slice.indexRange_eq (by omega) hb, value_bind, if_pos hlen]
  show Outcome.value ((s.bytes.drop a).take (b - a)) = _
  rw [← h, Nat.add_sub_cancel_left]
  rfl

theorem alignUsize_eq {value : ℕ} (h : value < 2 ^ 63) :
    alignUsize value nlmsgAlignto = .value ((value + 3) / 4 * 4) := by
  have halign : align value nlmsgAlignto = (value + 3) / 4 * 4 := align_four value
  have hfour : nlmsgAlignto = 4 := rfl
  unfold alignUsize
  rw [add_eq (by omega), value_bind, sub_eq (by omega), value_bind, halign]

/-- A step where there is no room for a header. -/
theorem next_short {it : NetlinkMessages} (hend : it.offset ≠ it.buffer.len)
    (h : it.buffer.len - it.offset < nlmsgHdrLen) :
    next e it = .value (some (.error "truncated netlink header"), ⟨it.buffer, it.buffer.len⟩) := by
  unfold next
  dsimp only
  rw [if_neg hend, if_pos h]

theorem next_end (buffer : Slice) : next e ⟨buffer, buffer.len⟩ = .value (none, ⟨buffer, buffer.len⟩) := by
  unfold next
  dsimp only
  rw [if_pos rfl]

/-- A step where there is. -/
theorem next_header {it : NetlinkMessages} (h : it.offset + nlmsgHdrLen ≤ it.buffer.len) {length : ℕ}
    (hlength : e.nat (slice it.buffer.bytes it.offset 4) = length) :
    next e it = .value (
      if length < nlmsgHdrLen ∨ it.buffer.len - it.offset < length then
        (some (.error s!"invalid netlink message length {length}"), ⟨it.buffer, it.buffer.len⟩)
      else
        (some (.ok ⟨UInt16.ofNat (e.nat (slice it.buffer.bytes (it.offset + 4) 2)),
            it.buffer.cut (it.offset + nlmsgHdrLen) (it.offset + length)⟩),
          ⟨it.buffer, it.offset + (length + 3) / 4 * 4⟩)) := by
  have hshort := it.buffer.len_lt
  have hheader : nlmsgHdrLen = 16 := rfl
  unfold next
  dsimp only
  rw [if_neg (by omega), if_neg (by omega), add_eq (by omega), value_bind,
    array_eq rfl (by omega), value_bind, hlength]
  split_ifs with hinvalid
  · rfl
  · rw [value_bind, add_eq (by omega), value_bind,
      array_eq (by omega : it.offset + 4 + 2 = it.offset + 6) (by omega), value_bind,
      add_eq (by omega), value_bind, add_eq (by omega), value_bind,
      Slice.indexRange_eq (by omega) (by omega), value_bind, alignUsize_eq (by omega), value_bind,
      add_eq (by omega), value_bind]

/-- **What one step does**: nothing is left, or the iterator is set to the end of its buffer with an
error, or a message of this buffer is returned and the offset moves on by at least 16. -/
inductive Stepped (it : NetlinkMessages) :
    Option (Except String NetlinkMessage) → NetlinkMessages → Prop
  | done (h : it.offset = it.buffer.len) : Stepped it none it
  | failed (h : it.offset ≠ it.buffer.len) (message : String) :
      Stepped it (some (.error message)) ⟨it.buffer, it.buffer.len⟩
  | item {a b offset : ℕ} (kind : UInt16) (hoffset : it.offset + nlmsgHdrLen ≤ offset)
      (ha : it.offset + nlmsgHdrLen ≤ a) (hab : a ≤ b) (hb : b ≤ it.buffer.len) :
      Stepped it (some (.ok ⟨kind, it.buffer.cut a b⟩)) ⟨it.buffer, offset⟩

theorem next_stepped (it : NetlinkMessages) :
    ∃ o it', next e it = .value (o, it') ∧ Stepped it o it' := by
  have hheader : nlmsgHdrLen = 16 := rfl
  by_cases hend : it.offset = it.buffer.len
  · refine ⟨none, it, ?_, .done hend⟩
    unfold next
    dsimp only
    rw [if_pos hend]
  by_cases hshort : it.buffer.len - it.offset < nlmsgHdrLen
  · exact ⟨_, _, next_short hend hshort, .failed hend _⟩
  have hroom : it.offset + nlmsgHdrLen ≤ it.buffer.len := by omega
  have hstep := @next_header e it hroom _ rfl
  split_ifs at hstep with hinvalid
  · exact ⟨_, _, hstep, .failed hend _⟩
  · exact ⟨_, _, hstep, .item _ (by omega) (by omega) (by omega) (by omega)⟩

/-- What is left, and whether an error can still be returned. -/
def remaining (it : NetlinkMessages) : ℕ :=
  2 * (it.buffer.len - it.offset) + if it.offset = it.buffer.len then 0 else 1

theorem next_advances {it it' : NetlinkMessages} {item : Except String NetlinkMessage}
    (h : next e it = .value (some item, it')) : remaining it' < remaining it := by
  obtain ⟨o, it'', hnext, hstepped⟩ := next_stepped (e := e) it
  rw [h] at hnext
  cases hnext
  cases hstepped with
  | failed hend =>
    unfold remaining
    simp [hend]
  | item kind hoffset ha hab hb =>
    have hheader : nlmsgHdrLen = 16 := rfl
    unfold remaining
    dsimp only
    split_ifs <;> omega

end

/-- The messages of a buffer, one by one. -/
def messages (e : Endian) : Iterator NetlinkMessages (Except String NetlinkMessage) where
  next := next e
  measure := remaining
  advances := next_advances

/-! ### Framing -/

/-- A message before it is framed; the flags, the sequence number and the port are not read. -/
structure Message where
  kind : UInt16
  unread : List UInt8
  payload : List UInt8
  unread_length : unread.length = 10
  fits : nlmsgHdrLen + payload.length < 2 ^ 32

namespace Message

def length (m : Message) : ℕ := nlmsgHdrLen + m.payload.length

/-- How many bytes are missing to a multiple of four. -/
def padding (m : Message) : ℕ := (m.length + 3) / 4 * 4 - m.length

def header (e : Endian) (m : Message) : List UInt8 :=
  e.bytes 4 m.length ++ (e.bytes 2 m.kind.toNat ++ m.unread)

/-- The message as it is returned. -/
def read (m : Message) : NetlinkMessage where
  kind := m.kind
  payload := ⟨m.payload, by have := m.fits; omega⟩

theorem length_header (e : Endian) (m : Message) : (m.header e).length = nlmsgHdrLen := by
  simp [header, m.unread_length, nlmsgHdrLen]

end Message

/-- **The bytes of some messages**: each is followed by its padding, of any bytes, which may be missing
after the last one. -/
inductive Framed (e : Endian) : List Message → List UInt8 → Prop
  | nil : Framed e [] []
  | last (m : Message) {padding : List UInt8} (h : padding.length ≤ m.padding) :
      Framed e [m] (m.header e ++ (m.payload ++ padding))
  | cons {m : Message} {ms : List Message} {padding bytes : List UInt8}
      (h : padding.length = m.padding) (rest : Framed e ms bytes) :
      Framed e (m :: ms) (m.header e ++ (m.payload ++ (padding ++ bytes)))

section
variable {e : Endian}

/-- **One message**, whatever precedes and follows it. -/
theorem next_message (m : Message) {buffer : Slice} {before after : List UInt8}
    (hbuffer : buffer.bytes = before ++ (m.header e ++ (m.payload ++ after))) :
    next e ⟨buffer, before.length⟩ =
      .value (some (.ok m.read), ⟨buffer, before.length + (m.length + 3) / 4 * 4⟩) := by
  have hheader := m.length_header e
  have hfits := m.fits
  have hhdr : nlmsgHdrLen = 16 := rfl
  have hlen : buffer.len = before.length + (m.length + after.length) := by
    unfold Slice.len Message.length
    rw [hbuffer]
    simp [hheader]
    omega
  have hlength : slice buffer.bytes before.length 4 = e.bytes 4 m.length := by
    rw [hbuffer]
    simp [slice, Message.header]
  have hkind : slice buffer.bytes (before.length + 4) 2 = e.bytes 2 m.kind.toNat := by
    rw [hbuffer, slice_append_right (by omega), Nat.add_sub_cancel_left]
    simp [slice, Message.header]
  have hpayload : buffer.cut (before.length + nlmsgHdrLen) (before.length + m.length) =
      m.read.payload := by
    unfold Slice.cut Message.read
    simp only [Slice.mk.injEq]
    rw [hbuffer]
    simp [← hheader, Message.length, Nat.add_sub_add_left]
  have hnat : e.nat (slice buffer.bytes before.length 4) = m.length := by
    rw [hlength, e.nat_bytes hfits]
  have hlong : nlmsgHdrLen ≤ m.length := Nat.le_add_right _ _
  rw [next_header (by dsimp only; omega) hnat, hkind, e.nat_bytes m.kind.toNat_lt, UInt16.ofNat_toNat]
  dsimp only
  rw [hpayload, if_neg (by omega)]
  rfl

/-- The items where all padding is there. -/
theorem yields_framed {ms : List Message} {bytes : List UInt8} (h : Framed e ms bytes)
    {buffer : Slice} (before : List UInt8) (hbuffer : buffer.bytes = before ++ bytes) :
    (bytes.length % 4 = 0 ∧ (messages e).Yields ⟨buffer, before.length⟩ (ms.map fun m => .ok m.read)) ∨
    (bytes.length % 4 ≠ 0 ∧ (messages e).Yields ⟨buffer, before.length⟩
      ((ms.map fun m => .ok m.read) ++ [.error "truncated netlink header"])) := by
  have hlen := congrArg List.length hbuffer
  have hnil : ∀ {offset}, offset = buffer.len → (messages e).Yields ⟨buffer, offset⟩ [] := by
    rintro _ rfl
    exact .nil (next_end buffer)
  induction h generalizing before with
  | nil =>
    refine Or.inl ⟨rfl, hnil ?_⟩
    show before.length = buffer.bytes.length
    simp [hbuffer]
  | @last m padding hpadding =>
    have hheader := m.length_header e
    have hnext : next e ⟨buffer, before.length⟩ = _ := next_message m hbuffer
    have hhdr : nlmsgHdrLen = 16 := rfl
    simp only [List.length_append, hheader] at hlen ⊢
    unfold Message.padding Message.length at *
    rw [List.map_singleton]
    by_cases hfull : (nlmsgHdrLen + (m.payload.length + padding.length)) % 4 = 0
    · refine Or.inl ⟨hfull, .cons hnext (hnil ?_)⟩
      show _ = buffer.bytes.length
      omega
    · -- the offset is behind the end of the buffer
      refine Or.inr ⟨hfull, .cons hnext (.cons (next_short ?_ ?_) (hnil rfl))⟩
      · show before.length + _ ≠ buffer.bytes.length
        omega
      · show buffer.bytes.length - (before.length + _) < nlmsgHdrLen
        omega
  | @cons m ms padding bytes hpadding rest ih =>
    have hheader := m.length_header e
    have hnext : next e ⟨buffer, before.length⟩ = _ := next_message m hbuffer
    have hhdr : nlmsgHdrLen = 16 := rfl
    have hbefore : (before ++ (m.header e ++ (m.payload ++ padding))).length =
        before.length + (m.length + 3) / 4 * 4 := by
      unfold Message.padding Message.length at *
      simp only [List.length_append, hheader]
      omega
    have hrest := ih (before ++ (m.header e ++ (m.payload ++ padding))) (by simpa using hbuffer)
      (by simpa using hlen)
    rw [hbefore] at hrest
    simp only [List.length_append, hheader, List.map_cons, List.cons_append]
    unfold Message.padding Message.length at *
    rcases hrest with ⟨hfull, hyields⟩ | ⟨hfull, hyields⟩
    · exact Or.inl ⟨by omega, .cons hnext hyields⟩
    · exact Or.inr ⟨by omega, .cons hnext hyields⟩

theorem items_ne (ms : List Message) (e : String) :
    (ms.map fun m => (.ok m.read : Except String NetlinkMessage)) ++ [.error e] ≠
      ms.map fun m => .ok m.read := by
  intro heq
  have hlen := congrArg List.length heq
  simp at hlen

/-- **The messages are read back**, in order and without an error, if and only if the padding after the
last one is there. -/
theorem collect_framed_iff (e : Endian) (ms : List Message) (buffer : Slice)
    (h : Framed e ms buffer.bytes) :
    (messages e).collect (.new buffer) = .value (ms.map fun m => .ok m.read) ↔ buffer.len % 4 = 0 := by
  rcases yields_framed h [] rfl with ⟨hfull, hyields⟩ | ⟨hmissing, hyields⟩
  · exact iff_of_true hyields.collect_eq hfull
  · refine iff_of_false (fun heq => ?_) hmissing
    have hcollect : (messages e).collect (.new buffer) = _ := hyields.collect_eq
    rw [heq] at hcollect
    exact items_ne ms _ (Outcome.value.inj hcollect).symm

/-- A message of the first kind with one byte as payload. -/
def oneByte : Message := ⟨256, List.replicate 10 0, [7], rfl, by decide⟩

/-- The message with so many bytes of padding. -/
def framedOneByte (n : ℕ) (h : n ≤ 3) : Slice where
  bytes := oneByte.header .little ++ ([7] ++ List.replicate n 0)
  short := by
    simp [oneByte.length_header, nlmsgHdrLen]
    omega

theorem framed_oneByte {n : ℕ} (h : n ≤ 3) : Framed .little [oneByte] (framedOneByte n h).bytes :=
  .last oneByte (by rw [List.length_replicate]; exact h)

theorem collect_framed_iff_padded :
    (messages .little).collect (.new (framedOneByte 3 le_rfl)) = .value [.ok oneByte.read] ↔
      (framedOneByte 3 le_rfl).len % 4 = 0 :=
  collect_framed_iff .little [oneByte] _ (framed_oneByte le_rfl)

/-- **A last message without padding is followed by an error.** -/
theorem collect_unpadded :
    ¬ ∀ (e : Endian) (ms : List Message) (buffer : Slice), Framed e ms buffer.bytes →
      (messages e).collect (.new buffer) = .value (ms.map fun m => .ok m.read) := by
  intro hall
  have hframed := framed_oneByte (Nat.zero_le 3)
  rcases yields_framed hframed [] rfl with
    ⟨hfull, -⟩ | ⟨-, hyields⟩
  · exact absurd hfull (by decide)
  · have hcollect : (messages .little).collect (.new (framedOneByte 0 (Nat.zero_le 3))) = _ :=
      hyields.collect_eq
    rw [hall .little [oneByte] _ hframed] at hcollect
    exact items_ne [oneByte] _ (Outcome.value.inj hcollect).symm

end

end BandixPlus.Conntrack.Messages
