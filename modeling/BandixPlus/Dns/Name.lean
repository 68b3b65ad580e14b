import BandixPlus.Lib.Checked
import BandixPlus.Net.Text

/-! # DNS names

`dns.rs`, `read_u16` and `read_dns_name`. A name is a row of labels, each behind its length, up to the
empty label; a pointer, two bytes with the highest two bits set, goes on elsewhere in the packet.

* `nameStep_fuel`: every turn of the loop uses up a jump or a label, wherever the pointers lead.
* `meets_readDnsLabels`: what is read lies in the packet and is at most 255 bytes long. -/

namespace BandixPlus.Dns.Name

open BandixPlus.Lib.Checked BandixPlus.Lib.Checked.Outcome
open BandixPlus.Net.Text (fromUtf8Lossy)

/-- `u16::from_be_bytes`. -/
def u16FromBe (hi lo : UInt8) : UInt16 := UInt16.ofNat (hi.toNat * 256 + lo.toNat)

def readU16 (packet : Slice) (offset : ℕ) : Outcome UInt16 := do
  let part ← packet.getRange offset (← checkedAdd offset 2)
  match part.bytes with
  | [hi, lo] => .value (u16FromBe hi lo)
  | _ => .absent

/-- The variables of the loop of `read_dns_name`. The labels stay as they are in the packet until
they are joined. -/
structure NameState where
  position : ℕ
  consumedPosition : Option ℕ
  labels : List (List UInt8)
  jumps : ℕ
  expandedLen : ℕ

/-- One turn: it goes on, or breaks with the labels and the offset behind the name. -/
def nameStep (packet : Slice) (s : NameState) : Outcome (NameState ⊕ List (List UInt8) × ℕ) := do
  reject (packet.len ≤ s.position ∨ 16 < s.jumps ∨ 127 < s.labels.length)
  let length ← packet.index s.position
  if length &&& 0xc0 = 0xc0 then
    let second ← packet.get (← add s.position 1)
    let pointer := (length &&& 0x3f).toNat <<< 8 ||| second.toNat
    reject (packet.len ≤ pointer)
    let behind ← add s.position 2
    .value (.inl { s with
      consumedPosition := s.consumedPosition.or (some behind)
      position := pointer
      jumps := s.jumps + 1 })
  else
    reject (length &&& 0xc0 ≠ 0)
    let position ← add s.position 1
    if length = 0 then .value (.inr (s.labels, s.consumedPosition.getD position))
    else
      let stop ← checkedAdd position length.toNat
      let label ← packet.getRange position stop
      let expandedLen ← checkedAdd s.expandedLen (length.toNat + 1)
      reject (255 < expandedLen)
      .value (.inl { s with position := stop, labels := s.labels ++ [label.bytes], expandedLen })

variable {packet : Slice} {offset : ℕ}

theorem meets_readU16 : (readU16 packet offset).Meets fun _ => offset + 2 ≤ packet.len := by
  unfold readU16
  refine meets_checkedAdd.bind fun stop hstop => Slice.meets_getRange.bind fun part hpart => ?_
  split
  · show offset + 2 ≤ packet.len
    omega
  · trivial

theorem readU16_byte (h : offset + 2 ≤ packet.len) :
    readU16 packet offset = .value (u16FromBe (packet.byte offset) (packet.byte (offset + 1))) := by
  have hlen := packet.len_lt
  have hpart : (packet.cut offset (offset + 2)).len = 2 := by
    rw [Slice.len_cut h]
    omega
  obtain ⟨hi, lo, hbytes⟩ := List.length_eq_two.mp hpart
  have hhi : hi = packet.byte offset := by
    have h0 := Slice.byte_cut (s := packet) (a := offset) (b := offset + 2) (i := 0) (by omega)
    simpa [Slice.byte, hbytes] using h0
  have hlo : lo = packet.byte (offset + 1) := by
    have h1 := Slice.byte_cut (s := packet) (a := offset) (b := offset + 2) (i := 1) (by omega)
    simpa [Slice.byte, hbytes] using h1
  unfold readU16
  rw [checkedAdd_eq (by omega), value_bind, Slice.getRange_eq (by omega) h, value_bind, hbytes, hhi, hlo]

/-- The jumps and labels that are left. -/
def NameState.fuel (s : NameState) : ℕ := (17 - s.jumps) + (128 - s.labels.length)

/-- The length of a name: of every label, with one more byte for its separator. -/
def nameLen (labels : List (List UInt8)) : ℕ := (labels.map fun l => l.length + 1).sum

/-- What holds before every turn of a loop that started at `offset`. -/
structure NameState.Inv (packet : Slice) (offset : ℕ) (s : NameState) : Prop where
  expandedLen : s.expandedLen = nameLen s.labels
  short : nameLen s.labels ≤ 255
  position : s.consumedPosition = none → offset ≤ s.position
  consumed : ∀ c, s.consumedPosition = some c → offset < c ∧ c ≤ packet.len

/-- What a name that is read comes to. -/
def IsName (packet : Slice) (offset : ℕ) (r : List (List UInt8) × ℕ) : Prop :=
  offset < r.2 ∧ r.2 ≤ packet.len ∧ nameLen r.1 ≤ 255

/-- **One turn of the loop.** -/
theorem meets_nameStep (packet : Slice) (offset : ℕ) (s : NameState) :
    (nameStep packet s).Meets (Sum.elim
      (fun s' => s'.fuel < s.fuel ∧ (s.Inv packet offset → s'.Inv packet offset))
      fun r => s.Inv packet offset → IsName packet offset r) := by
  have hlen := packet.len_lt
  unfold nameStep
  refine meets_reject.bind fun _ hgo => ?_
  have hpos : s.position < packet.len := by omega
  refine (Slice.meets_index hpos).bind fun length _ => ?_
  split
  · refine (meets_add (by omega)).bind fun next hnext => Slice.meets_get.bind fun second hsecond => ?_
    refine meets_reject.bind fun _ _ => (meets_add (by omega)).bind fun behind hbehind => ?_
    refine ⟨?_, fun h => ⟨h.expandedLen, h.short, fun hc => ?_, fun c hc => ?_⟩⟩
    · show 17 - (s.jumps + 1) + (128 - s.labels.length) < 17 - s.jumps + (128 - s.labels.length)
      omega
    · cases hs : s.consumedPosition with
      | none => simp [hs] at hc
      | some c => simp [hs] at hc
    · cases hs : s.consumedPosition with
      | none =>
        have hc' : behind = c := by simpa [hs] using hc
        have hle := h.position hs
        omega
      | some c' =>
        have hc' : c' = c := by simpa [hs] using hc
        exact hc' ▸ h.consumed c' hs
  · refine meets_reject.bind fun _ _ => (meets_add (by omega)).bind fun position hposition => ?_
    split
    · intro h
      cases hs : s.consumedPosition with
      | none =>
        have hle := h.position hs
        have hnext : offset < position ∧ position ≤ packet.len := by omega
        simp only [Option.getD_none]
        exact ⟨hnext.1, hnext.2, h.short⟩
      | some c =>
        have hc := h.consumed c hs
        simp only [Option.getD_some]
        exact ⟨hc.1, hc.2, h.short⟩
    · refine meets_checkedAdd.bind fun stop hstop => Slice.meets_getRange.bind fun label hlabel => ?_
      refine meets_checkedAdd.bind fun expandedLen hexpanded => meets_reject.bind fun _ hle => ?_
      obtain ⟨-, hlabel, -, -⟩ := hlabel
      refine ⟨?_, fun h => ?_⟩
      · show 17 - s.jumps + (128 - (s.labels ++ [label.bytes]).length)
          < 17 - s.jumps + (128 - s.labels.length)
        rw [List.length_append, List.length_singleton]
        omega
      · have hlen : label.bytes.length = length.toNat := by
          have hdef : label.len = label.bytes.length := rfl
          omega
        have hname : nameLen (s.labels ++ [label.bytes]) = expandedLen := by
          have hbefore := h.expandedLen
          simp only [nameLen, List.map_append, List.map_singleton, List.sum_append,
            List.sum_singleton] at hbefore ⊢
          omega
        have hshort : nameLen (s.labels ++ [label.bytes]) ≤ 255 := by omega
        refine ⟨hname.symm, hshort, fun hc => ?_, h.consumed⟩
        have hposition' := h.position hc
        show offset ≤ stop
        omega

/-- **Every turn uses up a jump or a label.** -/
theorem nameStep_fuel {s s' : NameState} (h : nameStep packet s = .value (.inl s')) :
    s'.fuel < s.fuel :=
  ((meets_nameStep packet 0 s).of_eq h).1

/-- The loop of `read_dns_name`: the labels, and the offset behind the name. -/
def readDnsLabels (packet : Slice) (offset : ℕ) : Outcome (List (List UInt8) × ℕ) :=
  loop (nameStep packet) NameState.fuel (fun _ _ => nameStep_fuel)
    { position := offset, consumedPosition := none, labels := [], jumps := 0, expandedLen := 0 }

def readDnsName (packet : Slice) (offset : ℕ) : Outcome (String × ℕ) := do
  let (labels, next) ← readDnsLabels packet offset
  .value (".".intercalate (labels.map fromUtf8Lossy), next)

theorem meets_readDnsLabels (packet : Slice) (offset : ℕ) :
    (readDnsLabels packet offset).Meets (IsName packet offset) := by
  refine Meets.loop (I := NameState.Inv packet offset) (fun s hs => ?_) ?_
  · refine (meets_nameStep packet offset s).mono fun r hr => ?_
    cases r with
    | inl s' => exact hr.2 hs
    | inr r => exact hr hs
  · exact ⟨rfl, Nat.zero_le _, fun _ => le_rfl, fun c hc => by cases hc⟩

theorem meets_readDnsName (packet : Slice) (offset : ℕ) :
    (readDnsName packet offset).Meets fun r => offset < r.2 ∧ r.2 ≤ packet.len := by
  unfold readDnsName
  exact (meets_readDnsLabels packet offset).bind fun r hr => ⟨hr.1, hr.2.1⟩

end BandixPlus.Dns.Name
