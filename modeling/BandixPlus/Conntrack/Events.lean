import BandixPlus.Conntrack.FlowMessage
import BandixPlus.Conntrack.Messages

/-! # Event messages

`conntrack.rs`, `apply_event_messages` and what it calls, on any bytes: the parser of flow messages once
more, with every slice and every conversion to an array as a step that panics out of range.

* `nextAttribute_stepped`: what one step of `NetlinkAttributes` does, on any bytes and at any offset.
* `parseFlowMessage_eq`: the parser does not panic, and returns what the parser on lists returns.
* `events_safe`: nothing panics but the negation of the least error code, in a build that checks for
  overflow. -/

namespace BandixPlus.Conntrack.Events

open BandixPlus.Lib.Bytes BandixPlus.Lib.Checked BandixPlus.Lib.Checked.Outcome
open BandixPlus.Lib.Iteration BandixPlus.Net.Addresses
open BandixPlus.Conntrack.FlowMessage BandixPlus.Conntrack.Messages BandixPlus.Conntrack.State
open BandixPlus.Conntrack.Netlink (align align_four nlaAlignto)
open BandixPlus.Dns.Packet (ipv4OfOctets ipv6OfOctets)

/-! ### Attributes -/

structure NetlinkAttributes where
  buffer : Slice
  offset : ℕ

def NetlinkAttributes.new (buffer : Slice) : NetlinkAttributes := ⟨buffer, 0⟩

/-- The iterator over the list of bytes. -/
def NetlinkAttributes.plain (it : NetlinkAttributes) : Netlink.NetlinkAttributes :=
  ⟨it.buffer.bytes, it.offset⟩

def plainItem (item : Except String (UInt16 × Slice)) : Except String (UInt16 × List UInt8) :=
  item.map fun a => (a.1, a.2.bytes)

section
variable (e : Endian)

/-- `NetlinkAttributes::next`. -/
def nextAttribute (it : NetlinkAttributes) :
    Outcome (Option (Except String (UInt16 × Slice)) × NetlinkAttributes) :=
  let stop := { it with offset := it.buffer.len }
  if it.buffer.len ≤ it.offset then .value (none, stop)
  else do
    let rest ← it.buffer.indexRange it.offset it.buffer.len
    if rest.bytes.all (· = 0) then .value (none, stop)
    else if it.buffer.len - it.offset < 4 then
      .value (some (.error "truncated netlink attribute"), stop)
    else do
      let base := it.offset
      let length := e.nat (← array it.buffer base (← add base 2) 2)
      let kind := UInt16.ofNat (e.nat (← array it.buffer (← add base 2) (← add base 4) 2)) &&& 0x3fff
      let remaining := it.buffer.len - base
      if length = 0 then .value (none, stop)
      else if length < 4 ∨ remaining < length then
        .value (some (.error (s!"invalid netlink attribute length {length} (kind {kind}, offset {base}, " ++
          s!"remaining {remaining})")), stop)
      else do
        let offset ← add base (← alignUsize length nlaAlignto)
        let payload ← it.buffer.indexRange (← add base 4) (← add base length)
        .value (some (.ok (kind, payload)), { it with offset })

variable {e}

/-- **What one step does**: nothing is left and the iterator stands at the end of its buffer, or it is set
there with an error, or an attribute of this buffer is returned and the offset moves on by at least 4. -/
inductive SteppedAttribute (it : NetlinkAttributes) :
    Option (Except String (UInt16 × Slice)) → NetlinkAttributes → Prop
  | done : SteppedAttribute it none ⟨it.buffer, it.buffer.len⟩
  | failed (h : it.offset < it.buffer.len) (message : String) :
      SteppedAttribute it (some (.error message)) ⟨it.buffer, it.buffer.len⟩
  | item {a b offset : ℕ} (h : it.offset < it.buffer.len) (kind : UInt16)
      (hoffset : it.offset + 4 ≤ offset) (ha : it.offset + 4 ≤ a) (hab : a ≤ b) (hb : b ≤ it.buffer.len) :
      SteppedAttribute it (some (.ok (kind, it.buffer.cut a b))) ⟨it.buffer, offset⟩

/-- The step on the list of bytes is the same. -/
def SameStep (e : Endian) (it : NetlinkAttributes) (it' : NetlinkAttributes) :
    Option (Except String (UInt16 × Slice)) → Prop
  | none => Netlink.next e it.plain = none
  | some item => Netlink.next e it.plain = some (plainItem item, it'.plain)

theorem nextAttribute_stepped (it : NetlinkAttributes) :
    ∃ o it', nextAttribute e it = .value (o, it') ∧ SteppedAttribute it o it' ∧ SameStep e it it' o := by
  have hshort := it.buffer.len_lt
  have hlen : it.buffer.bytes.length = it.buffer.len := rfl
  unfold nextAttribute SameStep Netlink.next NetlinkAttributes.plain
  dsimp only
  rw [hlen]
  by_cases hend : it.buffer.len ≤ it.offset
  · rw [if_pos hend, if_pos hend]
    exact ⟨none, _, rfl, .done, rfl⟩
  have hrest : (it.buffer.cut it.offset it.buffer.len).bytes = it.buffer.bytes.drop it.offset := by
    show (it.buffer.bytes.drop it.offset).take (it.buffer.len - it.offset) = _
    rw [← hlen, ← List.length_drop, List.take_length]
  rw [if_neg hend, if_neg hend, Slice.indexRange_eq (by omega) le_rfl, value_bind, hrest]
  by_cases hzeros : (it.buffer.bytes.drop it.offset).all (· = 0) = true
  · rw [if_pos hzeros, if_pos hzeros]
    exact ⟨none, _, rfl, .done, rfl⟩
  rw [if_neg hzeros, if_neg hzeros]
  by_cases htrunc : it.buffer.len - it.offset < 4
  · rw [if_pos htrunc, if_pos htrunc]
    exact ⟨_, _, rfl, .failed (by omega) _, rfl⟩
  rw [if_neg htrunc, if_neg htrunc, add_eq (by omega), value_bind, array_eq rfl (by omega), value_bind,
    value_bind, add_eq (by omega), value_bind,
    array_eq (by omega : it.offset + 2 + 2 = it.offset + 4) (by omega), value_bind]
  generalize hlength : e.nat (slice it.buffer.bytes it.offset 2) = length
  by_cases hzero : length = 0
  · rw [if_pos hzero, if_pos hzero]
    exact ⟨none, _, rfl, .done, rfl⟩
  rw [if_neg hzero, if_neg hzero]
  by_cases hinvalid : length < 4 ∨ it.buffer.len - it.offset < length
  · rw [if_pos hinvalid, if_pos hinvalid]
    exact ⟨_, _, rfl, .failed (by omega) _, rfl⟩
  have halign : alignUsize length nlaAlignto = .value ((length + 3) / 4 * 4) :=
    alignUsize_eq (by omega)
  have hpayload : (it.buffer.cut (it.offset + 4) (it.offset + length)).bytes =
      slice it.buffer.bytes (it.offset + 4) (length - 4) := by
    show (it.buffer.bytes.drop (it.offset + 4)).take (it.offset + length - (it.offset + 4)) = _
    rw [Nat.add_sub_add_left]
    rfl
  rw [if_neg hinvalid, if_neg hinvalid, halign, value_bind, add_eq (by omega), value_bind,
    value_bind, add_eq (by omega), value_bind, Slice.indexRange_eq (by omega) (by omega), value_bind,
    align_four]
  refine ⟨_, _, rfl, .item (by omega) _ (by omega) (by omega) (by omega) (by omega), ?_⟩
  dsimp only [plainItem, Except.map]
  rw [hpayload]

theorem nextAttribute_advances {it it' : NetlinkAttributes} {item : Except String (UInt16 × Slice)}
    (h : nextAttribute e it = .value (some item, it')) :
    it'.buffer.len - it'.offset < it.buffer.len - it.offset := by
  obtain ⟨o, it'', hnext, hstepped, -⟩ := nextAttribute_stepped (e := e) it
  rw [h] at hnext
  cases hnext
  cases hstepped <;> dsimp only <;> omega

end

/-- The attributes of a buffer, one by one. -/
def attributes (e : Endian) : Iterator NetlinkAttributes (Except String (UInt16 × Slice)) where
  next := nextAttribute e
  measure := fun it => it.buffer.len - it.offset
  advances := nextAttribute_advances

/-! ### Loops over attributes -/

section
variable (e : Endian)

/-- `for attribute in NetlinkAttributes::new(value)` with `attribute?` at its start. -/
def forAttributes {σ : Type} (value : Slice) (step : σ → UInt16 → Slice → Outcome (Except String σ))
    (init : σ) : Outcome (Except String σ) :=
  (attributes e).forEach (fun s item =>
    match item with
    | .error message => .value (.inr (.error message))
    | .ok (kind, nested) => do
      match ← step s kind nested with
      | .ok s' => .value (.inl s')
      | .error message => .value (.inr (.error message))) .ok init (.new value)

/-- `for attribute in NetlinkAttributes::new(value).flatten()`, with what the body returns, if it does. -/
def searchAttributes {β : Type} (value : Slice) (body : UInt16 → Slice → Outcome (Option β)) :
    Outcome (Option β) :=
  (attributes e).forEach (fun _ item =>
    match item with
    | .error _ => .value (.inl ())
    | .ok (kind, nested) => do
      match ← body kind nested with
      | some b => .value (.inr (some b))
      | none => .value (.inl ())) (fun _ => none) () (.new value)

variable {e}

/-- The items are those of the iterator over the list of bytes. -/
theorem yields_items (it : NetlinkAttributes) :
    ∃ items, (attributes e).Yields it items ∧ items.map plainItem = Netlink.items e it.plain := by
  induction hm : (attributes e).measure it using Nat.strongRecOn generalizing it with
  | _ m ih =>
    obtain ⟨o, it', hnext, -, hsame⟩ := nextAttribute_stepped (e := e) it
    cases o with
    | none =>
      exact ⟨[], .nil hnext, (Netlink.items_of_next_none hsame).symm⟩
    | some item =>
      obtain ⟨items, hyields, hitems⟩ := ih _ (hm ▸ (attributes e).advances hnext) it' rfl
      refine ⟨item :: items, .cons hnext hyields, ?_⟩
      rw [List.map_cons, hitems, Netlink.items_of_next_some hsame]

/-- **A loop whose body is that of a loop over lists** does what this one does. -/
theorem forAttributes_plain {σ : Type} {step : σ → UInt16 → Slice → Outcome (Except String σ)}
    {plain : σ → UInt16 → List UInt8 → Except String σ}
    (hstep : ∀ s kind nested, step s kind nested = .value (plain s kind nested.bytes)) (value : Slice)
    (init : σ) : forAttributes e value step init =
      .value (Netlink.forAttributes e value.bytes plain init) := by
  obtain ⟨items, hyields, hitems⟩ := yields_items (e := e) (.new value)
  have hplain : (NetlinkAttributes.new value).plain = .new value.bytes := rfl
  unfold forAttributes Netlink.forAttributes
  rw [hyields.forEach_eq, ← hplain, ← hitems, List.foldlM_map]
  clear hyields hitems
  induction items generalizing init with
  | nil => rfl
  | cons item items ih =>
    rw [foldUntil, List.foldlM_cons]
    cases item with
    | error message => rfl
    | ok a =>
      dsimp only
      rw [hstep]
      show _ = Outcome.value ((plain init a.1 a.2.bytes).bind _)
      cases hplain : plain init a.1 a.2.bytes with
      | error message => rfl
      | ok s' => exact ih s'

theorem searchAttributes_plain {β : Type} {body : UInt16 → Slice → Outcome (Option β)}
    {plain : UInt16 × List UInt8 → Option β}
    (hbody : ∀ kind nested, body kind nested = .value (plain (kind, nested.bytes))) (value : Slice) :
    searchAttributes e value body = .value ((Netlink.flatten e value.bytes).findSome? plain) := by
  obtain ⟨items, hyields, hitems⟩ := yields_items (e := e) (.new value)
  have hplain : (NetlinkAttributes.new value).plain = .new value.bytes := rfl
  unfold searchAttributes Netlink.flatten
  rw [hyields.forEach_eq, ← hplain, ← hitems, List.filterMap_map]
  clear hyields hitems
  induction items with
  | nil => rfl
  | cons item items ih =>
    rw [foldUntil]
    cases item with
    | error message => exact ih
    | ok a =>
      dsimp only
      rw [hbody, value_bind, List.filterMap_cons]
      show _ = Outcome.value (List.findSome? plain ((a.1, a.2.bytes) :: _))
      rw [List.findSome?_cons]
      cases plain (a.1, a.2.bytes) with
      | some b => rfl
      | none => exact ih

end

/-! ### Flow messages -/

/-- `u16::from_be_bytes([bytes[0], bytes[1]])`. -/
def portAt (bytes : Slice) : Outcome UInt16 := do
  let hi ← bytes.index 0
  let lo ← bytes.index 1
  .value (UInt16.ofNat (beNat [hi, lo]))

/-- The first bytes as a number, `bytes[..n].try_into().unwrap()`. -/
def numberOf (bytes : Slice) (n : ℕ) : Outcome ℕ := do
  .value (beNat (← array bytes 0 n n))

def ipStep (s : TupleParts) (ipKind : UInt16) (bytes : Slice) : Outcome (Except String TupleParts) :=
  if ipKind = ctaIpV4Src ∧ 4 ≤ bytes.len then do
    .value (.ok { s with src := some (ipv4OfOctets (← array bytes 0 4 4)) })
  else if ipKind = ctaIpV4Dst ∧ 4 ≤ bytes.len then do
    .value (.ok { s with dst := some (ipv4OfOctets (← array bytes 0 4 4)) })
  else if ipKind = ctaIpV6Src ∧ 16 ≤ bytes.len then do
    .value (.ok { s with src := some (ipv6OfOctets (← array bytes 0 16 16)) })
  else if ipKind = ctaIpV6Dst ∧ 16 ≤ bytes.len then do
    .value (.ok { s with dst := some (ipv6OfOctets (← array bytes 0 16 16)) })
  else .value (.ok s)

def protoStep (s : TupleParts) (protoKind : UInt16) (bytes : Slice) :
    Outcome (Except String TupleParts) :=
  if protoKind = ctaProtoNum then .value (.ok { s with protocol := bytes.bytes.head? })
  else if protoKind = ctaProtoSrcPort ∧ 2 ≤ bytes.len then do
    .value (.ok { s with sport := some (← portAt bytes) })
  else if protoKind = ctaProtoDstPort ∧ 2 ≤ bytes.len then do
    .value (.ok { s with dport := some (← portAt bytes) })
  else .value (.ok s)

def counterStep (s : UInt64 × UInt64) (kind : UInt16) (data : Slice) :
    Outcome (Except String (UInt64 × UInt64)) :=
  if kind = ctaCountersPackets ∧ 8 ≤ data.len then do
    .value (.ok (UInt64.ofNat (← numberOf data 8), s.2))
  else if kind = ctaCountersBytes ∧ 8 ≤ data.len then do
    .value (.ok (s.1, UInt64.ofNat (← numberOf data 8)))
  else .value (.ok s)

def readU32Be (value : Slice) : Outcome (Option UInt32) :=
  if 4 ≤ value.len then do
    .value (some (UInt32.ofNat (← numberOf value 4)))
  else .value none

section
variable (e : Endian)

def tupleStep (s : TupleParts) (kind : UInt16) (nested : Slice) : Outcome (Except String TupleParts) :=
  if kind = ctaTupleIp then forAttributes e nested ipStep s
  else if kind = ctaTupleProto then forAttributes e nested protoStep s
  else .value (.ok s)

def parseTuple (value : Slice) : Outcome (Except String (Option (UInt8 × EndpointKey))) := do
  match ← forAttributes e value (tupleStep e) ⟨none, none, none, none, none⟩ with
  | .error message => .value (.error message)
  | .ok ⟨some src, some dst, some protocol, some sport, some dport⟩ =>
    .value (.ok (some (protocol, ⟨src, dst, sport, dport⟩)))
  | .ok _ => .value (.ok none)

def parseTcpState (value : Slice) : Outcome (Option String) := do
  let found ← searchAttributes e value fun kind nested =>
    if kind ≠ ctaProtoinfoTcp then .value none
    else searchAttributes e nested fun kind data =>
      if kind = ctaProtoinfoTcpState then .value (some (data.bytes.head?.map tcpStateName))
      else .value none
  .value (found.getD none)

def parseCounters (value : Slice) : Outcome (Except String (UInt64 × UInt64)) :=
  forAttributes e value counterStep (0, 0)

def messageStep (s : MessageParts) (kind : UInt16) (value : Slice) :
    Outcome (Except String MessageParts) :=
  if kind = ctaTupleOrig then do
    .value ((← parseTuple e value).map fun orig => { s with orig })
  else if kind = ctaTupleReply then do
    .value ((← parseTuple e value).map fun reply => { s with reply })
  else if kind = ctaStatus then do
    .value (.ok { s with status := ← readU32Be value })
  else if kind = ctaProtoinfo then do
    .value (.ok { s with protoinfo := ← parseTcpState e value })
  else if kind = ctaCountersOrig then do
    .value ((← parseCounters e value).map fun origCounters => { s with origCounters })
  else if kind = ctaCountersReply then do
    .value ((← parseCounters e value).map fun replyCounters => { s with replyCounters })
  else if kind = ctaId then do
    .value (.ok { s with id := ← readU32Be value })
  else .value (.ok s)

def parseFlowMessage (payload : Slice) : Outcome (Except String (Option ParsedFlow)) :=
  if payload.len < nfgenmsgLen then .value (.error "ctnetlink message is shorter than nfgenmsg")
  else do
    let attributes ← payload.indexRange nfgenmsgLen payload.len
    let parts ← forAttributes e attributes (messageStep e)
      ⟨none, none, none, none, (0, 0), (0, 0), none⟩
    .value (parts.map flowOf)

end

/-! ### The parser does not panic -/

section
variable {e : Endian} {bytes : Slice}

theorem array_take {n : ℕ} (h : n ≤ bytes.len) : array bytes 0 n n = .value (bytes.bytes.take n) :=
  array_eq (Nat.zero_add n) h

theorem numberOf_eq {n : ℕ} (h : n ≤ bytes.len) :
    numberOf bytes n = .value (beNat (bytes.bytes.take n)) := by
  unfold numberOf
  rw [array_take h, value_bind]

theorem portAt_eq (h : 2 ≤ bytes.len) :
    portAt bytes = .value (UInt16.ofNat (beNat (bytes.bytes.take 2))) := by
  have hlen : bytes.bytes.length = bytes.len := rfl
  unfold portAt
  rw [Slice.index_eq (by omega), value_bind, Slice.index_eq (by omega), value_bind]
  unfold Slice.byte
  match hbytes : bytes.bytes with
  | [] => simp [hbytes] at hlen; omega
  | [_] => simp [hbytes] at hlen; omega
  | hi :: lo :: rest => rfl

theorem ipStep_plain (s : TupleParts) (ipKind : UInt16) (bytes : Slice) :
    ipStep s ipKind bytes = .value (FlowMessage.ipStep s ipKind bytes.bytes) := by
  have hlen : bytes.bytes.length = bytes.len := rfl
  unfold ipStep FlowMessage.ipStep
  rw [hlen]
  split_ifs with h₁ h₂ h₃ h₄
  · rw [array_take h₁.2]; rfl
  · rw [array_take h₂.2]; rfl
  · rw [array_take h₃.2]; rfl
  · rw [array_take h₄.2]; rfl
  · rfl

theorem protoStep_plain (s : TupleParts) (protoKind : UInt16) (bytes : Slice) :
    protoStep s protoKind bytes = .value (FlowMessage.protoStep s protoKind bytes.bytes) := by
  have hlen : bytes.bytes.length = bytes.len := rfl
  unfold protoStep FlowMessage.protoStep
  rw [hlen]
  split_ifs with h₁ h₂ h₃
  · rfl
  · rw [portAt_eq h₂.2]; rfl
  · rw [portAt_eq h₃.2]; rfl
  · rfl

theorem counterStep_plain (s : UInt64 × UInt64) (kind : UInt16) (data : Slice) :
    counterStep s kind data = .value (FlowMessage.counterStep s kind data.bytes) := by
  have hlen : data.bytes.length = data.len := rfl
  unfold counterStep FlowMessage.counterStep
  rw [hlen]
  split_ifs with h₁ h₂
  · rw [numberOf_eq h₁.2]; rfl
  · rw [numberOf_eq h₂.2]; rfl
  · rfl

theorem readU32Be_plain (value : Slice) :
    readU32Be value = .value (FlowMessage.readU32Be value.bytes) := by
  have hlen : value.bytes.length = value.len := rfl
  unfold readU32Be FlowMessage.readU32Be
  rw [hlen]
  split_ifs with h
  · rw [numberOf_eq h]; rfl
  · rfl

theorem tupleStep_plain (s : TupleParts) (kind : UInt16) (nested : Slice) :
    tupleStep e s kind nested = .value (FlowMessage.tupleStep e s kind nested.bytes) := by
  unfold tupleStep FlowMessage.tupleStep
  split_ifs
  · exact forAttributes_plain ipStep_plain nested s
  · exact forAttributes_plain protoStep_plain nested s
  · rfl

theorem parseTuple_plain (value : Slice) :
    parseTuple e value = .value (FlowMessage.parseTuple e value.bytes) := by
  unfold parseTuple FlowMessage.parseTuple
  rw [forAttributes_plain tupleStep_plain, value_bind]
  cases Netlink.forAttributes e value.bytes (FlowMessage.tupleStep e) ⟨none, none, none, none, none⟩ with
  | error message => rfl
  | ok s =>
    obtain ⟨src, dst, protocol, sport, dport⟩ := s
    cases src <;> cases dst <;> cases protocol <;> cases sport <;> cases dport <;> rfl

theorem parseCounters_plain (value : Slice) :
    parseCounters e value = .value (FlowMessage.parseCounters e value.bytes) :=
  forAttributes_plain counterStep_plain value (0, 0)

/-- The search for the state, attribute by attribute, is a search in all of them. -/
theorem findSome?_flatMap_filter {α β γ : Type} (p : α → Prop) [DecidablePred p] (f : α → List β)
    (g : β → Option γ) (l : List α) :
    (l.findSome? fun a => if ¬ p a then none else (f a).findSome? g) =
      ((l.filter fun a => p a).flatMap f).findSome? g := by
  induction l with
  | nil => rfl
  | cons a l ih =>
    rw [List.findSome?_cons, ih]
    by_cases ha : p a
    · rw [if_neg (not_not.mpr ha), List.filter_cons_of_pos (by simpa using ha), List.flatMap_cons,
        List.findSome?_append]
      cases (f a).findSome? g <;> rfl
    · rw [if_pos ha, List.filter_cons_of_neg (by simpa using ha)]

theorem findSome?_ite {β γ : Type} (p : β → Prop) [DecidablePred p] (f : β → γ) (l : List β) :
    (l.findSome? fun b => if p b then some (f b) else none) = (l.find? fun b => p b).map f := by
  induction l with
  | nil => rfl
  | cons b l ih =>
    rw [List.findSome?_cons, List.find?_cons, ih]
    by_cases hb : p b <;> simp [hb]

theorem parseTcpState_plain (value : Slice) :
    parseTcpState e value = .value (FlowMessage.parseTcpState e value.bytes) := by
  have hinner : ∀ nested : Slice, (searchAttributes e nested fun kind data =>
      if kind = ctaProtoinfoTcpState then .value (some (data.bytes.head?.map tcpStateName))
      else .value none) = .value ((Netlink.flatten e nested.bytes).findSome? fun a =>
        if a.1 = ctaProtoinfoTcpState then some (a.2.head?.map tcpStateName) else none) :=
    searchAttributes_plain fun kind data => by dsimp only; split_ifs <;> rfl
  have houter : (searchAttributes e value fun kind nested =>
      if kind ≠ ctaProtoinfoTcp then .value none
      else searchAttributes e nested fun kind data =>
        if kind = ctaProtoinfoTcpState then .value (some (data.bytes.head?.map tcpStateName))
        else .value none) = .value ((Netlink.flatten e value.bytes).findSome? fun a =>
          if ¬ a.1 = ctaProtoinfoTcp then none
          else (Netlink.flatten e a.2).findSome? fun a =>
            if a.1 = ctaProtoinfoTcpState then some (a.2.head?.map tcpStateName) else none) :=
    searchAttributes_plain (fun kind nested => by rw [hinner]; split_ifs <;> rfl) value
  unfold parseTcpState FlowMessage.parseTcpState
  rw [houter, value_bind, findSome?_flatMap_filter (fun a : UInt16 × List UInt8 => a.1 = ctaProtoinfoTcp),
    findSome?_ite]
  dsimp only
  cases List.find? _ (List.flatMap _ _) <;> rfl

theorem messageStep_plain (s : MessageParts) (kind : UInt16) (value : Slice) :
    messageStep e s kind value = .value (FlowMessage.messageStep e s kind value.bytes) := by
  unfold messageStep FlowMessage.messageStep
  rw [parseTuple_plain, parseCounters_plain, readU32Be_plain, parseTcpState_plain]
  split_ifs
  · cases FlowMessage.parseTuple e value.bytes <;> rfl
  · cases FlowMessage.parseTuple e value.bytes <;> rfl
  · rfl
  · rfl
  · cases FlowMessage.parseCounters e value.bytes <;> rfl
  · cases FlowMessage.parseCounters e value.bytes <;> rfl
  · rfl
  · rfl

/-- **The parser of flow messages does not panic**, and returns what the parser on lists returns. -/
theorem parseFlowMessage_eq (payload : Slice) :
    parseFlowMessage e payload = .value (FlowMessage.parseFlowMessage e payload.bytes) := by
  have hlen : payload.bytes.length = payload.len := rfl
  unfold parseFlowMessage FlowMessage.parseFlowMessage
  rw [hlen]
  split_ifs with hshort
  · rfl
  have hrest : (payload.cut nfgenmsgLen payload.len).bytes = payload.bytes.drop nfgenmsgLen := by
    show (payload.bytes.drop nfgenmsgLen).take (payload.len - nfgenmsgLen) = _
    rw [← hlen, ← List.length_drop, List.take_length]
  rw [Slice.indexRange_eq (by omega) le_rfl, value_bind, forAttributes_plain messageStep_plain, value_bind,
    hrest]
  cases Netlink.forAttributes e (payload.bytes.drop nfgenmsgLen) (FlowMessage.messageStep e)
    ⟨none, none, none, none, (0, 0), (0, 0), none⟩ <;> rfl

end

/-! ### Events -/

def ipctnlMsgCtNew : UInt16 := 0
def ipctnlMsgCtDelete : UInt16 := 2
def nlmsgNoop : UInt16 := 1
def nlmsgError : UInt16 := 2
def nlmsgDone : UInt16 := 3
def nlmsgOverrun : UInt16 := 4

/-- Whether arithmetic is checked for overflow: in a debug build it panics, in a release build it wraps. -/
inductive Build where
  | release | debug
  deriving DecidableEq

/-- `-code` on `i32`. -/
def negate (build : Build) (code : Int32) : Outcome Int32 :=
  if build = .debug ∧ code = Int32.minValue then .panicked else .value (-code)

section
variable (e : Endian)

/-- `i32::from_ne_bytes(payload[..4])`. -/
def errorCode (payload : Slice) : Outcome Int32 := do
  .value (UInt32.ofNat (e.nat (← array payload 0 4 4))).toInt32

variable (osError : Int32 → String) (build : Build)

/-- The body of the loop over the messages: it goes on with the state, or returns an error. `osError` is
the text of an error number. -/
def applyEventMessage (state : ConntrackState) (message : NetlinkMessage) :
    Outcome (ConntrackState ⊕ Except String Unit × ConntrackState) :=
  if message.kind = nlmsgNoop ∨ message.kind = nlmsgDone then .value (.inl state)
  else if message.kind = nlmsgOverrun then .value (.inr (.error "netlink reported an overrun", state))
  else if message.kind = nlmsgError then
    if 4 ≤ message.payload.len then do
      let code ← errorCode e message.payload
      if code ≠ 0 then do
        let number ← negate build code
        .value (.inr (.error s!"netlink event error: {osError number}", state))
      else .value (.inl state)
    else .value (.inl state)
  else do
    let eventType := message.kind &&& 0x00ff
    match ← parseFlowMessage e message.payload with
    | .error error => .value (.inr (.error error, state))
    | .ok none => .value (.inl state)
    | .ok (some flow) =>
      if eventType = ipctnlMsgCtDelete then .value (.inl (removeFlow state flow))
      else if eventType = ipctnlMsgCtNew then .value (.inl (insertFlow state flow))
      else .value (.inl state)

/-- `apply_event_messages`, with the state it leaves. -/
def applyEventMessages (buffer : Slice) (state : ConntrackState) :
    Outcome (Except String Unit × ConntrackState) :=
  (messages e).forEach (fun state item =>
    match item with
    | .error error => .value (.inr (.error error, state))
    | .ok message => applyEventMessage e osError build state message) (fun state => (.ok (), state)) state
    (.new buffer)

end

/-! ### Safety -/

section
variable {e : Endian} {osError : Int32 → String} {build : Build}

/-- A message that holds the least error code. -/
def LeastCode (e : Endian) (message : NetlinkMessage) : Prop :=
  message.kind = nlmsgError ∧ errorCode e message.payload = .value Int32.minValue

/-- **One message is applied without a panic**, but for the negation of the least error code in a debug
build. -/
theorem applyEventMessage_value (state : ConntrackState) (message : NetlinkMessage) :
    (∃ r, applyEventMessage e osError build state message = .value r) ∨
      (build = .debug ∧ LeastCode e message) := by
  unfold applyEventMessage
  rw [parseFlowMessage_eq, value_bind]
  by_cases hnoop : message.kind = nlmsgNoop ∨ message.kind = nlmsgDone
  · rw [if_pos hnoop]; exact Or.inl ⟨_, rfl⟩
  by_cases hoverrun : message.kind = nlmsgOverrun
  · rw [if_neg hnoop, if_pos hoverrun]; exact Or.inl ⟨_, rfl⟩
  rw [if_neg hnoop, if_neg hoverrun]
  by_cases herror : message.kind = nlmsgError
  · rw [if_pos herror]
    by_cases hlong : 4 ≤ message.payload.len
    swap
    · rw [if_neg hlong]; exact Or.inl ⟨_, rfl⟩
    have hcode : errorCode e message.payload =
        .value (UInt32.ofNat (e.nat (message.payload.bytes.take 4))).toInt32 := by
      unfold errorCode
      rw [array_take hlong, value_bind]
    rw [if_pos hlong, hcode, value_bind]
    by_cases hleast : build = .debug ∧
        (UInt32.ofNat (e.nat (message.payload.bytes.take 4))).toInt32 = Int32.minValue
    · exact Or.inr ⟨hleast.1, herror, by rw [hcode, hleast.2]⟩
    · unfold negate
      rw [if_neg hleast, value_bind]
      split_ifs
      · exact Or.inl ⟨_, rfl⟩
      · exact Or.inl ⟨_, rfl⟩
  · -- what the parser returns is applied, or the error is returned
    rw [if_neg herror]
    refine Or.inl ?_
    rcases FlowMessage.parseFlowMessage e message.payload.bytes with error | _ | flow
    · exact ⟨_, rfl⟩
    · exact ⟨_, rfl⟩
    · dsimp only
      split_ifs
      · exact ⟨_, rfl⟩
      · exact ⟨_, rfl⟩
      · exact ⟨_, rfl⟩

theorem foldUntil_value {α σ β : Type} {body : σ → α → Outcome (σ ⊕ β)} {done : σ → β} (items : List α)
    (s : σ) : (∃ b, foldUntil body done s items = .value b) ∨
      ∃ a ∈ items, ∃ s, ¬ ∃ r, body s a = .value r := by
  induction items generalizing s with
  | nil => exact Or.inl ⟨done s, rfl⟩
  | cons a items ih =>
    by_cases hbody : ∃ r, body s a = .value r
    swap
    · exact Or.inr ⟨a, List.mem_cons_self, s, hbody⟩
    obtain ⟨r, hr⟩ := hbody
    rw [foldUntil, hr, value_bind]
    cases r with
    | inr b => exact Or.inl ⟨b, rfl⟩
    | inl s' =>
      refine (ih s').imp_right ?_
      rintro ⟨a', ha', hno⟩
      exact ⟨a', List.mem_cons_of_mem a ha', hno⟩

/-- The messages of any buffer can be read. -/
theorem collect_messages (it : NetlinkMessages) : ∃ items, (messages e).Yields it items := by
  obtain ⟨items, hyields, -⟩ := exists_yields (I := messages e) (P := fun _ => True) (Q := fun _ => True)
    (fun it _ => by
      obtain ⟨o, it', hnext, -⟩ := next_stepped (e := e) it
      exact ⟨o, it', hnext, trivial, fun _ _ => trivial⟩) trivial
  exact ⟨items, hyields⟩

/-- What one step of an iterator over a buffer may do: it returns nothing; or it returns an error and is at
the end, where the next step returns nothing; or it moves on by at least four bytes, and the payload it
returns is a part of its buffer. -/
def StepOk {ι α : Type} (next : ι → Outcome (Option (Except String α) × ι)) (buffer : ι → Slice)
    (offset : ι → ℕ) (payload : α → Slice) (it : ι) : Prop :=
  ∃ o it', next it = .value (o, it') ∧ buffer it' = buffer it ∧
    match o with
    | none => True
    | some (.error _) => offset it' = (buffer it).len ∧ next it' = .value (none, it')
    | some (.ok a) => offset it + 4 ≤ offset it' ∧
        ∃ start stop, start ≤ stop ∧ stop ≤ (buffer it).len ∧ payload a = (buffer it).cut start stop

theorem messages_stepOk (it : NetlinkMessages) :
    StepOk (next e) NetlinkMessages.buffer NetlinkMessages.offset NetlinkMessage.payload it := by
  obtain ⟨o, it', hnext, hstepped⟩ := next_stepped (e := e) it
  have hheader : nlmsgHdrLen = 16 := rfl
  refine ⟨o, it', hnext, ?_⟩
  cases hstepped with
  | done h => exact ⟨rfl, trivial⟩
  | failed h message => exact ⟨rfl, rfl, next_end it.buffer⟩
  | item kind hoffset ha hab hb => exact ⟨rfl, by dsimp only; omega, _, _, hab, hb, rfl⟩

theorem attributes_stepOk (it : NetlinkAttributes) :
    StepOk (nextAttribute e) NetlinkAttributes.buffer NetlinkAttributes.offset Prod.snd it := by
  obtain ⟨o, it', hnext, hstepped, -⟩ := nextAttribute_stepped (e := e) it
  refine ⟨o, it', hnext, ?_⟩
  cases hstepped with
  | done => exact ⟨rfl, trivial⟩
  | failed h message =>
    refine ⟨rfl, rfl, ?_⟩
    unfold nextAttribute
    exact if_pos le_rfl
  | item h kind hoffset ha hab hb => exact ⟨rfl, hoffset, _, _, hab, hb, rfl⟩

end

/-- **Any bytes are safe**: every step of both iterators, on any buffer and at any offset, does one of
three things, and applying the messages of a buffer ends without a panic. A debug build panics where it
negates the least error code, and nowhere else. -/
theorem events_safe (e : Endian) (osError : Int32 → String) :
    (∀ it, StepOk (next e) NetlinkMessages.buffer NetlinkMessages.offset NetlinkMessage.payload it) ∧
    (∀ it, StepOk (nextAttribute e) NetlinkAttributes.buffer NetlinkAttributes.offset Prod.snd it) ∧
    ∀ build buffer state, (∃ r, applyEventMessages e osError build buffer state = .value r) ∨
      (build = .debug ∧ ∃ items message, (messages e).collect (.new buffer) = .value items ∧
        .ok message ∈ items ∧ LeastCode e message) := by
  refine ⟨messages_stepOk, attributes_stepOk, fun build buffer state => ?_⟩
  obtain ⟨items, hyields⟩ := collect_messages (e := e) (.new buffer)
  unfold applyEventMessages
  rw [hyields.forEach_eq]
  refine (foldUntil_value items state).imp_right ?_
  rintro ⟨item, hitem, s, hno⟩
  cases item with
  | error error => exact absurd ⟨_, rfl⟩ hno
  | ok message =>
    obtain ⟨hbuild, hleast⟩ := (applyEventMessage_value s message).resolve_left hno
    exact ⟨hbuild, items, message, hyields.collect_eq, hitem, hleast⟩

end BandixPlus.Conntrack.Events
