import BandixPlus.Dns.Wire
import Mathlib.Data.Nat.Bitwise

/-! # DNS messages decode to what they encode

`parse_dns_message` of `dns.rs` against the wire format. The cursor is right behind every name, wherever
its pointers lead, so it is right behind every question and every record.

* `readDnsName_eq`: the text of a name, and the position behind it.
* `parse_encoded`: **the message that the bytes encode.** -/

namespace BandixPlus.Dns.Decoding

open BandixPlus.Lib.Bytes BandixPlus.Lib.Checked BandixPlus.Lib.Checked.Outcome BandixPlus.Lib.Layout
open BandixPlus.Net.Addresses BandixPlus.Dns.Monitor BandixPlus.Dns.Name BandixPlus.Dns.Packet
open BandixPlus.Dns.Wire
open BandixPlus.Net.Text (fromUtf8Lossy utf8LossyChars)

variable {dns : Slice} {i next stop n : ℕ}

/-! ### Text -/

theorem utf8LossyChars_ascii {bytes : List UInt8} (h : ∀ b ∈ bytes, b.toNat < 128) :
    utf8LossyChars bytes.length bytes = bytes.map fun b => Char.ofNat b.toNat := by
  induction bytes with
  | nil => rfl
  | cons b bytes ih =>
    obtain ⟨hb, hbytes⟩ := List.forall_mem_cons.mp h
    rw [List.length_cons, utf8LossyChars, if_pos hb, ih hbytes, List.map_cons]

theorem fromUtf8Lossy_ascii {bytes : List UInt8} (h : ∀ b ∈ bytes, b.toNat < 128) :
    fromUtf8Lossy bytes = asciiText bytes := by
  unfold fromUtf8Lossy asciiText
  rw [utf8LossyChars_ascii h]

/-! ### Numbers -/

theorem beBytes_two (n : ℕ) : beBytes 2 n = [UInt8.ofNat (n / 256 % 256), UInt8.ofNat (n % 256)] := rfl

theorem u16FromBe_beBytes (hn : n < 2 ^ 16) :
    u16FromBe (UInt8.ofNat (n / 256 % 256)) (UInt8.ofNat (n % 256)) = UInt16.ofNat n := by
  unfold u16FromBe
  rw [UInt8.toNat_ofNat', UInt8.toNat_ofNat']
  congr 1
  omega

theorem readU16_holds (h : Holds dns i (beBytes 2 n)) (hn : n < 2 ^ 16) :
    readU16 dns i = .value (UInt16.ofNat n) := by
  have hle : i + 2 ≤ dns.len := h.le (by simp)
  rw [beBytes_two] at h
  obtain ⟨hhi, hlo⟩ := holds_cons.mp h
  rw [readU16_byte hle, hhi.byte.2, hlo.byte.2, u16FromBe_beBytes hn]

/-! ### Names -/

/-- The first byte of a label is none of a pointer. -/
theorem label_byte : ∀ x < 64, UInt8.ofNat x &&& 0xc0 = 0 := by decide

theorem pointer_byte :
    ∀ x < 64, UInt8.ofNat (192 + x) &&& 0xc0 = 0xc0 ∧ (UInt8.ofNat (192 + x) &&& 0x3f).toNat = x := by
  decide

/-- The two bytes of a pointer. -/
theorem pointer_bytes (target : Fin (2 ^ 14)) :
    ∃ hi lo : UInt8, beBytes 2 (0xc000 + target) = [hi, lo] ∧ hi &&& 0xc0 = 0xc0 ∧
      (hi &&& 0x3f).toNat <<< 8 ||| lo.toNat = target := by
  have hlt := target.isLt
  obtain ⟨hmark, hhigh⟩ := pointer_byte (target / 256) (by omega)
  have hdiv : (0xc000 + target.val) / 256 % 256 = 192 + target / 256 := by omega
  have hlow : (UInt8.ofNat ((0xc000 + target.val) % 256)).toNat = target % 256 := by
    rw [UInt8.toNat_ofNat']
    omega
  refine ⟨_, _, beBytes_two _, ?_, ?_⟩
  · rw [hdiv]
    exact hmark
  · rw [hdiv, hhigh, hlow, ← Nat.shiftLeft_add_eq_or_of_lt (by omega), Nat.shiftLeft_eq]
    omega

theorem two_mul_length_le_nameLen {labels : List (List UInt8)} (h : ∀ l ∈ labels, 0 < l.length) :
    2 * labels.length ≤ nameLen labels := by
  induction labels with
  | nil => simp [nameLen]
  | cons l labels ih =>
    obtain ⟨hl, hlabels⟩ := List.forall_mem_cons.mp h
    have hle := ih hlabels
    simp only [nameLen, List.map_cons, List.sum_cons, List.length_cons] at hle ⊢
    omega

theorem nameLen_cons (l : List UInt8) (labels : List (List UInt8)) :
    nameLen (l :: labels) = l.length + 1 + nameLen labels := by
  simp [nameLen]

theorem nameLen_append (as bs : List (List UInt8)) : nameLen (as ++ bs) = nameLen as + nameLen bs := by
  simp [nameLen]

section
variable {s : NameState} (hjumps : s.jumps ≤ 16) (hlabels : s.labels.length ≤ 127)
include hjumps hlabels

theorem nameStep_root (h : Holds dns s.position [0]) :
    nameStep dns s = .value (.inr (s.labels, s.consumedPosition.getD (s.position + 1))) := by
  have hlen := dns.len_lt
  have hpos := h.byte.1
  unfold nameStep
  rw [reject_eq (by omega), value_bind]
  refine bind_value h.index ?_
  rw [if_neg (by decide), reject_eq (by decide), value_bind, add_eq (by omega), value_bind]
  rfl

theorem nameStep_label {l : List UInt8} (h : Holds dns s.position (UInt8.ofNat l.length :: l))
    (hl : 0 < l.length ∧ l.length ≤ 63) (hshort : s.expandedLen + (l.length + 1) ≤ 255) :
    nameStep dns s = .value (.inl { s with
      position := s.position + 1 + l.length
      labels := s.labels ++ [l]
      expandedLen := s.expandedLen + (l.length + 1) }) := by
  have hlen := dns.len_lt
  have hpos := (holds_cons.mp h).1.byte.1
  have hin : s.position + 1 + l.length ≤ dns.len := by
    have hle := h.le (by simp)
    simp only [List.length_cons] at hle
    omega
  have hmark := label_byte l.length (by omega)
  have hsize : (UInt8.ofNat l.length).toNat = l.length := by
    rw [UInt8.toNat_ofNat']
    omega
  have hne : UInt8.ofNat l.length ≠ 0 := by
    intro h0
    rw [h0] at hsize
    have hzero : l.length = 0 := hsize.symm
    omega
  obtain ⟨label, hlabel, hbytes⟩ := (holds_cons.mp h).2.getRange hin
  unfold nameStep
  rw [reject_eq (by omega), value_bind]
  refine bind_value (holds_cons.mp h).1.index ?_
  rw [hmark, if_neg (by decide), reject_eq (by simp), value_bind, add_eq (by omega), value_bind,
    if_neg hne, hsize, checkedAdd_eq (by omega), value_bind]
  refine bind_value hlabel ?_
  rw [checkedAdd_eq (by omega), value_bind, reject_eq (by omega), value_bind, hbytes]

theorem nameStep_pointer {target : Fin (2 ^ 14)} (h : Holds dns s.position (beBytes 2 (0xc000 + target)))
    (htarget : target < dns.len) :
    nameStep dns s = .value (.inl { s with
      consumedPosition := s.consumedPosition.or (some (s.position + 2))
      position := target
      jumps := s.jumps + 1 }) := by
  have hlen := dns.len_lt
  obtain ⟨hi, lo, hbytes, hmark, hpointer⟩ := pointer_bytes target
  rw [hbytes] at h
  have hin : s.position + 2 ≤ dns.len := h.le (by simp)
  obtain ⟨hhi, hlo⟩ := holds_cons.mp h
  unfold nameStep
  rw [reject_eq (by omega), value_bind]
  refine bind_value hhi.index ?_
  rw [if_pos hmark, add_eq (by omega), value_bind]
  refine bind_value hlo.get ?_
  rw [hpointer]
  exact bind_value (reject_eq (by omega)) (bind_value (add_eq (by omega)) rfl)

end

/-- The limits of the loop leave room for so many jumps and these labels. -/
structure Room (s : NameState) (labels : List (List UInt8)) (jumps : ℕ) : Prop where
  jumps : s.jumps + jumps ≤ 16
  expandedLen : s.expandedLen = nameLen s.labels
  label_length : ∀ l ∈ s.labels ++ labels, 0 < l.length ∧ l.length ≤ 63
  short : nameLen (s.labels ++ labels) ≤ 255

theorem Room.labels_le {s : NameState} {labels : List (List UInt8)} {jumps : ℕ} (h : Room s labels jumps) :
    s.labels.length ≤ 127 := by
  have hle := two_mul_length_le_nameLen fun l hl => (h.label_length l hl).1
  have hshort := h.short
  rw [List.length_append] at hle
  omega

/-- **The loop reads the labels of a name**, from any position and behind any labels that are read. -/
theorem loop_nameAt {position jumps : ℕ} {labels : List (List UInt8)}
    (h : NameAt dns position labels jumps next) {s : NameState} (hposition : s.position = position)
    (hs : Room s labels jumps) :
    loop (nameStep dns) NameState.fuel (fun _ _ => nameStep_fuel) s =
      .value (s.labels ++ labels, s.consumedPosition.getD next) := by
  induction h generalizing s with
  | root h =>
    have hstep := nameStep_root hs.jumps hs.labels_le (hposition ▸ h)
    rw [loop_break hstep, List.append_nil, hposition]
  | @label position jumps next l labels h _ ih =>
    have hlen := hs.expandedLen
    have hshort := hs.short
    rw [nameLen_append, nameLen_cons] at hshort
    have hstep := nameStep_label (Nat.le_of_add_right_le hs.jumps) hs.labels_le (hposition ▸ h)
      (hs.label_length l (by simp)) (by omega)
    rw [loop_next hstep, ih (by rw [hposition])]
    · simp
    · refine ⟨hs.jumps, ?_, by simpa using hs.label_length, by simpa using hs.short⟩
      simp [nameLen, hlen]
  | @pointer position jumps next labels target h htarget ih =>
    have hjumps := hs.jumps
    have hstep := nameStep_pointer (by omega) hs.labels_le (hposition ▸ h) htarget.lt_len
    rw [loop_next hstep, ih rfl]
    · cases hc : s.consumedPosition <;> simp [hposition]
    · refine ⟨?_, hs.expandedLen, hs.label_length, hs.short⟩
      show s.jumps + 1 + jumps ≤ 16
      omega

theorem readDnsName_eq {name : DomainName} (h : EncodesName dns i name next) :
    readDnsName dns i = .value (name.text, next) := by
  obtain ⟨jumps, hjumps, hname⟩ := h
  have hlabels : readDnsLabels dns i = .value (name.labels, next) :=
    loop_nameAt hname rfl
      ⟨by simpa using hjumps, rfl, by simpa using name.label_length, by simpa using name.short⟩
  have htext : name.labels.map fromUtf8Lossy = name.labels.map asciiText :=
    List.map_congr_left fun l hl => fromUtf8Lossy_ascii (name.ascii l hl)
  refine bind_value hlabels ?_
  show Outcome.value (".".intercalate (name.labels.map fromUtf8Lossy), next) = _
  rw [htext]
  rfl

theorem encodesName_bounds {name : DomainName} (h : EncodesName dns i name next) :
    i < next ∧ next ≤ dns.len :=
  (meets_readDnsName dns i).of_eq (readDnsName_eq h)

/-! ### Questions -/

theorem encodesQuestion_lt {q : Question} (h : EncodesQuestion dns i q stop) : i < dns.len := by
  obtain ⟨_, ⟨_, -, hname⟩, -, -⟩ := h
  exact hname.lt_len

theorem skipQuestion_eq {q : Question} (h : EncodesQuestion dns i q stop) :
    skipQuestion dns i = .value stop := by
  obtain ⟨next, hname, hfields, rfl⟩ := h
  have hle : next + 4 ≤ dns.len := hfields.le (by simp)
  have hlen := dns.len_lt
  refine bind_value (readDnsName_eq hname) ?_
  exact bind_value (checkedAdd_eq (by omega)) (bind_value (reject_eq (by omega)) rfl)

/-! ### The data of a record -/

section
variable {data : Slice} {start : ℕ} {strings : List (List UInt8)}

theorem txtStep_next {s rest : List UInt8} {parts : List String} (hs : s.length ≤ 255)
    (h : Holds data i (characterString s ++ rest)) :
    txtStep data (i, parts) = .value (.inl (i + (s.length + 1), parts ++ [fromUtf8Lossy s])) := by
  obtain ⟨hs, -⟩ := holds_append.mp h
  obtain ⟨hlength, htext⟩ := holds_cons.mp hs
  have hle : i + (s.length + 1) ≤ data.len := hs.le (by simp [characterString])
  have hlen := data.len_lt
  have hsize : (UInt8.ofNat s.length).toNat = s.length := by
    rw [UInt8.toNat_ofNat']
    omega
  unfold txtStep
  rw [if_pos (by omega)]
  refine bind_value hlength.index (bind_value (add_eq (by omega)) (bind_value (add_eq (by omega)) ?_))
  rw [hsize, if_neg (by omega)]
  refine bind_value (Slice.indexRange_eq (by omega) (by omega)) ?_
  rw [htext.bytes_cut, Nat.add_right_comm]
  rfl

theorem loop_txt {measure : ℕ × List String → ℕ}
    (hbody : ∀ s s', txtStep data s = .value (.inl s') → measure s' < measure s)
    (hshort : ∀ s ∈ strings, s.length ≤ 255) {parts : List String}
    (h : Holds data i (strings.flatMap characterString))
    (hend : i + (strings.flatMap characterString).length = data.len) :
    loop (txtStep data) measure hbody (i, parts) = .value (parts ++ strings.map fromUtf8Lossy) := by
  induction strings generalizing i parts with
  | nil =>
    have hstep : txtStep data (i, parts) = .value (.inr parts) := by
      unfold txtStep
      rw [if_neg]
      simp at hend
      omega
    rw [loop_break hstep, List.map_nil, List.append_nil]
  | cons s strings ih =>
    obtain ⟨hs, hstrings⟩ := List.forall_mem_cons.mp hshort
    rw [loop_next (txtStep_next hs h), ih hstrings]
    · simp
    · exact (holds_append.mp h).2
    · rw [List.flatMap_cons, List.length_append] at hend
      rw [← hend, Nat.add_assoc]
      rfl

theorem readTxt_eq (hshort : ∀ s ∈ strings, s.length ≤ 255)
    (h : data.bytes = strings.flatMap characterString) :
    readTxt data = .value (strings.map fromUtf8Lossy) := by
  have hall := holds_all data
  rw [h] at hall
  refine loop_txt _ hshort hall ?_
  rw [← h, Nat.zero_add]
  rfl

theorem ipv4At_holds {ip : UInt32} (h : Holds data 0 (beBytes 4 ip.toNat)) :
    ipv4At data 0 = .value (.v4 ip) := by
  have hip := ipv4OfOctets_beBytes ip
  have hle : 0 + 4 ≤ data.len := h.le (by simp)
  obtain ⟨a, b, c, d, hbytes⟩ : ∃ a b c d, beBytes 4 ip.toNat = [a, b, c, d] := ⟨_, _, _, _, rfl⟩
  rw [hbytes] at h hip
  obtain ⟨ha, h⟩ := holds_cons.mp h
  obtain ⟨hb, h⟩ := holds_cons.mp h
  obtain ⟨hc, hd⟩ := holds_cons.mp h
  rw [ipv4At_eq hle, ha.byte.2, hb.byte.2, hc.byte.2, hd.byte.2, hip]

theorem ipv6Of_bytes {ip : BitVec 128} (h : data.bytes = beBytes 16 ip.toNat) :
    ipv6Of data = .value (.v6 ip) := by
  rw [ipv6Of_eq (congrArg List.length h), h, ipv6OfOctets_beBytes]

end

theorem encodesData_bounds {data : RData} (h : EncodesData dns i data stop) (hi : i ≤ dns.len) :
    i ≤ stop ∧ stop ≤ dns.len := by
  cases data with
  | a ip =>
    obtain ⟨hip, rfl⟩ := h
    exact ⟨Nat.le_add_right _ _, hip.le (by simp)⟩
  | aaaa ip =>
    obtain ⟨hip, rfl⟩ := h
    exact ⟨Nat.le_add_right _ _, hip.le (by simp)⟩
  | cname name | ns name | ptr name =>
    have hbounds := encodesName_bounds h
    exact ⟨hbounds.1.le, hbounds.2⟩
  | mx priority exchange =>
    obtain ⟨-, hexchange⟩ := h
    have hbounds := encodesName_bounds hexchange
    omega
  | txt strings _ =>
    obtain ⟨hstrings, rfl⟩ := h
    exact ⟨Nat.le_add_right _ _, hstrings.le_of_le hi⟩
  | other _ bytes _ =>
    obtain ⟨hbytes, rfl⟩ := h
    exact ⟨Nat.le_add_right _ _, hbytes.le_of_le hi⟩

theorem recordTexts_name {rrType : UInt16} {name : DomainName} (hrr : rrType ∈ [5, 2, 12])
    (h : EncodesName dns i name stop) (data : Slice) :
    recordTexts dns rrType data i = .value ([], [dnsTypeName rrType ++ ":" ++ name.text]) := by
  have ha : ¬ (rrType = 1 ∧ data.len = 4) := by
    rintro ⟨rfl, -⟩
    simp at hrr
  have haaaa : ¬ (rrType = 28 ∧ data.len = 16) := by
    rintro ⟨rfl, -⟩
    simp at hrr
  unfold recordTexts
  rw [if_neg ha, if_neg haaaa, if_pos hrr, readDnsName_eq h]
  rfl

/-- **The strings of one record.** -/
theorem recordTexts_eq {data : RData} (h : EncodesData dns i data stop) (hstop : stop ≤ dns.len) :
    recordTexts dns data.rrType (dns.cut i stop) i = .value (data.address.toList, [data.text]) := by
  have hlen := dns.len_lt
  have hcut := @Slice.len_cut dns i stop hstop
  cases data with
  | a ip =>
    obtain ⟨hip, rfl⟩ := h
    unfold recordTexts
    rw [if_pos ⟨rfl, by omega⟩, ipv4At_holds (Holds.cut hip (by simp))]
    rfl
  | aaaa ip =>
    obtain ⟨hip, rfl⟩ := h
    unfold recordTexts
    rw [if_neg (by simp), if_pos ⟨rfl, by omega⟩, ipv6Of_bytes (by simpa using hip.bytes_cut)]
    rfl
  | cname name => exact recordTexts_name (by simp) h _
  | ns name => exact recordTexts_name (by simp) h _
  | ptr name => exact recordTexts_name (by simp) h _
  | mx priority exchange =>
    obtain ⟨hpriority, hexchange⟩ := h
    have hlt := (encodesName_bounds hexchange).1
    have hbytes : Holds (dns.cut i stop) 0 (beBytes 2 priority.toNat) := Holds.cut hpriority (by simp; omega)
    rw [beBytes_two] at hbytes
    obtain ⟨hhi, hlo⟩ := holds_cons.mp hbytes
    unfold recordTexts
    rw [if_neg (by simp), if_neg (by simp), if_neg (by simp), if_pos ⟨rfl, by omega⟩, add_eq (by omega),
      value_bind, readDnsName_eq hexchange]
    refine bind_value (a := some (exchange.text, stop)) rfl ?_
    refine bind_value hhi.index (bind_value hlo.index ?_)
    rw [u16FromBe_beBytes priority.toNat_lt, UInt16.ofNat_toNat]
    rfl
  | txt strings hshort =>
    obtain ⟨hstrings, rfl⟩ := h
    unfold recordTexts
    rw [if_neg (by simp), if_neg (by simp), if_neg (by simp), if_neg (by simp), if_pos (by simp),
      readTxt_eq hshort hstrings.bytes_cut]
    rfl
  | other rrType bytes hother =>
    obtain ⟨-, rfl⟩ := h
    simp only [List.mem_cons, List.not_mem_nil, or_false, not_or] at hother
    obtain ⟨ha, haaaa, hcname, hns, hptr, hmx, htxt⟩ := hother
    unfold recordTexts
    rw [if_neg fun h => ha h.1, if_neg fun h => haaaa h.1, if_neg (by simp [*]), if_neg fun h => hmx h.1,
      if_neg (by simpa using htxt), hcut, Nat.add_sub_cancel_left]
    rfl

/-! ### Records -/

/-- The variables of the loop over the answers, at `i`, behind these records. -/
def answersAt (i : ℕ) (seen : List ResourceRecord) : Answers where
  cursor := i
  responseIps := seen.filterMap fun rr => rr.data.address
  responseRecords := seen.map fun rr => rr.data.text

theorem readAnswer_eq (i : ℕ) (rr : ResourceRecord) (stop : ℕ) (seen : List ResourceRecord)
    (h : EncodesRecord dns i rr stop) :
    readAnswer dns (answersAt i seen) = .value (answersAt stop (seen ++ [rr])) := by
  obtain ⟨next, size, hname, hsize, rfl, hfields, hdata⟩ := h
  have hlen := dns.len_lt
  have hle : next + 10 ≤ dns.len := hfields.le (by simp)
  obtain ⟨hfields, hrdlength⟩ := holds_append.mp hfields
  obtain ⟨htype, -⟩ := holds_append.mp hfields
  have hrrType := readU16_holds htype rr.data.rrType.toNat_lt
  rw [UInt16.ofNat_toNat] at hrrType
  have hsizeRead : readU16 dns (next + 8) = .value (UInt16.ofNat size) := readU16_holds hrdlength hsize
  have hsizeNat : (UInt16.ofNat size).toNat = size := by
    rw [UInt16.toNat_ofNat']
    omega
  obtain ⟨hstart, hstop⟩ := encodesData_bounds hdata hle
  have htexts := recordTexts_eq hdata hstop
  refine bind_value (readDnsName_eq hname) (bind_value (within_eq hle hlen) ?_)
  refine bind_value hrrType (bind_value (add_eq (by omega)) (bind_value hsizeRead ?_))
  rw [hsizeNat]
  refine bind_value (add_eq (by omega)) (bind_value (checkedAdd_eq (by omega)) ?_)
  refine bind_value (Slice.getRange_eq (by omega) hstop) (bind_value htexts ?_)
  cases haddress : rr.data.address <;> simp [answersAt, haddress]

/-! ### The header -/

theorem flags_lt (m : Message) : m.flags < 2 ^ 16 := by
  have hmiddle := m.middle.isLt
  have hrcode := m.rcode.isLt
  have hresponse : m.response.toNat ≤ 1 := Bool.toNat_le m.response
  unfold Message.flags
  omega

theorem flags_toNat (m : Message) : (UInt16.ofNat m.flags).toNat = m.flags := by
  rw [UInt16.toNat_ofNat', Nat.mod_eq_of_lt (flags_lt m)]

/-- The highest bit of the flags. -/
theorem flags_response (m : Message) : UInt16.ofNat m.flags &&& 0x8000 = 0 ↔ m.response = false := by
  have hmiddle := m.middle.isLt
  have hrcode := m.rcode.isLt
  rw [← UInt16.toNat_inj, UInt16.toNat_and, flags_toNat]
  show m.flags &&& 2 ^ 15 = 0 ↔ _
  rw [Nat.and_two_pow, Nat.testBit_eq_decide_div_mod_eq]
  unfold Message.flags
  cases m.response <;> simp <;> omega

/-- The lowest four bits of the flags. -/
theorem flags_rcode (m : Message) : (UInt16.ofNat m.flags &&& 0x0f).toUInt8 = UInt8.ofNat m.rcode := by
  have hrcode := m.rcode.isLt
  rw [← UInt8.toNat_inj, UInt16.toNat_toUInt8, UInt16.toNat_and, flags_toNat, UInt8.toNat_ofNat']
  show (m.flags &&& 2 ^ 4 - 1) % 2 ^ 8 = _
  rw [Nat.and_two_pow_sub_one_eq_mod]
  unfold Message.flags
  omega

/-- The header as it is read. -/
def headerOf (m : Message) : DnsHeader where
  transactionId := m.transactionId
  flags := UInt16.ofNat m.flags
  questionCount := m.moreQuestions.length + 1
  answerCount := m.answers.length

theorem headerOf_isQuery (m : Message) : (headerOf m).isQuery = !m.response := by
  have hflags := flags_response m
  unfold headerOf DnsHeader.isQuery
  cases hm : m.response <;> simp [hflags, hm]

theorem headerOf_responseCode (m : Message) :
    (if !m.response then none else some (dnsResponseCode ((headerOf m).flags &&& 0x0f).toUInt8)) =
      if m.response then some (dnsResponseCode (UInt8.ofNat m.rcode)) else none := by
  have hrcode := flags_rcode m
  unfold headerOf
  cases m.response <;> simp [hrcode]

/-- How many answers are read. -/
def answerLimit (m : Message) : ℕ :=
  if (headerOf m).isQuery then 0 else min (headerOf m).answerCount maxDnsAnswers

theorem answerLimit_le (m : Message) : answerLimit m ≤ m.answers.length := by
  unfold answerLimit headerOf
  split
  · exact Nat.zero_le _
  · exact Nat.min_le_left _ _

theorem take_answerLimit (m : Message) : m.answers.take (answerLimit m) = m.readAnswers := by
  unfold answerLimit Message.readAnswers
  rw [headerOf_isQuery]
  cases m.response with
  | false => simp
  | true =>
    show m.answers.take (min m.answers.length 64) = m.answers.take 64
    rw [Nat.min_comm, ← List.take_take, List.take_length]

section
variable {m : Message}

theorem parseDnsHeader_eq (h : Encodes dns m) : parseDnsHeader dns = .value (headerOf m) := by
  have hquestions := m.questions_le
  have hanswers := m.answers_lt
  have hlen : 12 ≤ dns.len := by
    obtain ⟨_, _, hrow, -⟩ := h.sections
    obtain ⟨_, hquestion⟩ := hrow.head
    exact (encodesQuestion_lt hquestion).le
  obtain ⟨hfields, hanswerCount⟩ := holds_append.mp h.header
  obtain ⟨hfields, hquestionCount⟩ := holds_append.mp hfields
  obtain ⟨hid, hflags⟩ := holds_append.mp hfields
  have hid := readU16_holds hid m.transactionId.toNat_lt
  rw [UInt16.ofNat_toNat] at hid
  have hcount : (UInt16.ofNat (m.moreQuestions.length + 1)).toNat = m.moreQuestions.length + 1 := by
    rw [UInt16.toNat_ofNat']
    omega
  have hanswerNat : (UInt16.ofNat m.answers.length).toNat = m.answers.length := by
    rw [UInt16.toNat_ofNat']
    omega
  refine bind_value (reject_eq (by omega)) (bind_value hid ?_)
  refine bind_value (readU16_holds hflags (flags_lt m)) ?_
  refine bind_value (readU16_holds hquestionCount (by omega)) ?_
  rw [hcount]
  refine bind_value (reject_eq (by omega)) ?_
  refine bind_value (readU16_holds hanswerCount hanswers) ?_
  rw [hanswerNat]
  rfl

/-! ### The message -/

variable {sourceIp destinationIp : IpAddr} {sourcePort destinationPort : UInt16} {protocol : String}

/-- The loop over the answers reads all of them, or the first 64, or none of a query. -/
theorem times_readAnswer {row : List ResourceRecord} (h : Consecutive (EncodesRecord dns) i row stop)
    (hn : n ≤ row.length) :
    ∃ j, times (readAnswer dns) n (answersAt i []) = .value (answersAt j (row.take n)) := by
  obtain ⟨j, -, hread⟩ := h.times answersAt readAnswer_eq hn []
  exact ⟨j, hread⟩

theorem times_skipQuestion {row : List Question} (h : Consecutive (EncodesQuestion dns) i row stop) :
    times (skipQuestion dns) row.length i = .value stop := by
  obtain ⟨j, hrest, hread⟩ := h.times (fun i _ => i) (fun _ _ _ _ hq => skipQuestion_eq hq) le_rfl []
  rw [List.drop_length] at hrest
  rw [hread, hrest.eq_of_nil]

theorem parseDnsSections_eq (h : Encodes dns m) :
    parseDnsSections dns (headerOf m) sourceIp destinationIp sourcePort destinationPort protocol =
      .value (m.decoded sourceIp destinationIp sourcePort destinationPort protocol) := by
  have hlen := dns.len_lt
  obtain ⟨questionsEnd, answersEnd, hquestions, hanswers⟩ := h.sections
  cases hquestions with
  | cons hquestion hmore =>
    obtain ⟨next, hname, hfields, rfl⟩ := hquestion
    have hle : next + 4 ≤ dns.len := hfields.le (by simp)
    have hqtype := readU16_holds (holds_append.mp hfields).1 m.question.qtype.toNat_lt
    rw [UInt16.ofNat_toNat] at hqtype
    obtain ⟨j, hread⟩ := times_readAnswer hanswers (answerLimit_le m)
    rw [take_answerLimit] at hread
    refine bind_value (readDnsName_eq hname) (bind_value (within_eq hle hlen) ?_)
    refine bind_value hqtype (bind_value (add_eq (by omega)) ?_)
    refine bind_value (times_skipQuestion hmore) (bind_value hread ?_)
    rw [headerOf_isQuery, headerOf_responseCode]
    rfl

/-- **DNS messages decode to what they encode.** -/
theorem parse_encoded (dns : Slice) (m : Message) (sourceIp destinationIp : IpAddr)
    (sourcePort destinationPort : UInt16) (protocol : String) (h : Encodes dns m) :
    parseDnsMessage dns sourceIp destinationIp sourcePort destinationPort protocol =
      .value (m.decoded sourceIp destinationIp sourcePort destinationPort protocol) :=
  bind_value (parseDnsHeader_eq h) (parseDnsSections_eq h)

end

/-! A response to a question for `A`: the alias `b.A`, whose name ends in a pointer to the question, and
its address, whose name is a pointer to the data of the alias. -/

def aliasBytes : Slice where
  bytes := [0x12, 0x34, 0x81, 0x80, 0, 1, 0, 2, 0, 0, 0, 0, 1, 0x41, 0, 0, 1, 0, 1] ++
    [0xc0, 12, 0, 5, 0, 1, 0, 0, 0, 60, 0, 4, 1, 0x62, 0xc0, 12] ++
    [0xc0, 31, 0, 1, 0, 1, 0, 0, 0, 60, 0, 4, 93, 184, 216, 34]
  short := by decide

def questionName : DomainName where
  labels := [[0x41]]
  label_length := by simp
  ascii := by simp
  short := by simp [nameLen]

def aliasName : DomainName where
  labels := [[0x62], [0x41]]
  label_length := by simp
  ascii := by simp
  short := by simp [nameLen]

def aliasRecord : ResourceRecord where
  name := questionName
  rrClass := 1
  ttl := 60
  data := .cname aliasName

def addressRecord : ResourceRecord where
  name := aliasName
  rrClass := 1
  ttl := 60
  data := .a 0x5db8d822

def aliasMessage : Message where
  transactionId := 0x1234
  response := true
  middle := 0x18
  rcode := 0
  question := { name := questionName, qtype := 1, qclass := 1 }
  moreQuestions := []
  answers := [aliasRecord, addressRecord]
  questions_le := by decide
  answers_lt := by decide

theorem questionName_at : NameAt aliasBytes 12 [[0x41]] 0 15 :=
  .label (by decide) (.root (by decide))

theorem aliasName_at : NameAt aliasBytes 31 [[0x62], [0x41]] 1 35 :=
  .label (by decide) (.pointer 12 (by decide) questionName_at)

theorem aliasRecord_at : EncodesRecord aliasBytes 19 aliasRecord 35 :=
  ⟨21, 4, ⟨1, by decide, .pointer 12 (by decide) questionName_at⟩, by decide, rfl, by decide,
    1, by decide, aliasName_at⟩

theorem addressRecord_at : EncodesRecord aliasBytes 35 addressRecord 51 :=
  ⟨37, 4, ⟨2, by decide, .pointer 31 (by decide) aliasName_at⟩, by decide, rfl, by decide,
    by decide, rfl⟩

theorem aliasBytes_encodes : Encodes aliasBytes aliasMessage where
  header := by decide
  sections := ⟨19, 51, .cons ⟨15, ⟨0, by decide, questionName_at⟩, by decide, rfl⟩ .nil,
    .cons aliasRecord_at (.cons addressRecord_at .nil)⟩

/-- What is read of it. -/
theorem parse_encoded_alias :
    Encodes aliasBytes aliasMessage ∧
      parseDnsMessage aliasBytes (.v4 0) (.v4 1) 53 5353 "UDP" = .value
        { isQuery := false
          sourceIp := .v4 0
          destinationIp := .v4 1
          sourcePort := 53
          destinationPort := 5353
          transactionId := 0x1234
          domain := "a"
          queryType := "A"
          protocol := "UDP"
          responseCode := some "NOERROR"
          responseIps := ["93.184.216.34"]
          responseRecords := ["CNAME:b.A", "A:93.184.216.34"] } := by
  refine ⟨aliasBytes_encodes, (parse_encoded aliasBytes aliasMessage _ _ _ _ _ aliasBytes_encodes).trans ?_⟩
  have hdomain : toAsciiLowercase aliasMessage.question.name.text = "a" := by decide +kernel
  have hips : aliasMessage.readAnswers.filterMap (fun rr => rr.data.address) = ["93.184.216.34"] := by
    decide +kernel
  have hrecords : aliasMessage.readAnswers.map (fun rr => rr.data.text) =
      ["CNAME:b.A", "A:93.184.216.34"] := by
    decide +kernel
  unfold Message.decoded
  rw [hdomain, hips, hrecords]
  rfl

end BandixPlus.Dns.Decoding
