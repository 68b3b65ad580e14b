import BandixPlus.Dns.Decoding

/-! # The grammar of names

`read_dns_name` of `dns.rs` accepts a row of labels and pointers within its limits, and nothing else.

* `nameStep_cases`: what a turn of the loop that succeeds has found.
* `nameAt_of_loop`: hence the labels and pointers that the loop has followed.
* `readDnsName_iff`: **the names that are read.** -/

namespace BandixPlus.Dns.NameGrammar

open BandixPlus.Lib.Bytes BandixPlus.Lib.Checked BandixPlus.Lib.Checked.Outcome BandixPlus.Lib.Layout
open BandixPlus.Dns.Name BandixPlus.Dns.Wire BandixPlus.Dns.Decoding
open BandixPlus.Net.Text (fromUtf8Lossy)

variable {packet : Slice} {s : NameState}

/-! ### The first byte -/

theorem pointer_mark : ∀ x < 256, UInt8.ofNat x &&& 0xc0 = 0xc0 →
    192 ≤ x ∧ (UInt8.ofNat x &&& 0x3f).toNat = x - 192 := by
  decide +kernel

theorem label_mark : ∀ x < 256, UInt8.ofNat x &&& 0xc0 = 0 → x < 64 := by
  decide +kernel

theorem toNat_of_pointer {b : UInt8} (h : b &&& 0xc0 = 0xc0) :
    192 ≤ b.toNat ∧ (b &&& 0x3f).toNat = b.toNat - 192 := by
  have hb := pointer_mark b.toNat b.toNat_lt
  rw [UInt8.ofNat_toNat] at hb
  exact hb h

theorem toNat_of_label {b : UInt8} (h : b &&& 0xc0 = 0) : b.toNat < 64 := by
  have hb := label_mark b.toNat b.toNat_lt
  rw [UInt8.ofNat_toNat] at hb
  exact hb h

/-- Two bytes of a pointer are read as its target. -/
theorem pointer_target {hi : UInt8} (h : hi &&& 0xc0 = 0xc0) (lo : UInt8) :
    ∃ target : Fin (2 ^ 14), (hi &&& 0x3f).toNat <<< 8 ||| lo.toNat = target ∧
      beBytes 2 (0xc000 + target) = [hi, lo] := by
  have hhi := hi.toNat_lt
  have hlo := lo.toNat_lt
  obtain ⟨hle, hlow⟩ := toNat_of_pointer h
  have htarget : (hi &&& 0x3f).toNat <<< 8 ||| lo.toNat = (hi.toNat - 192) * 256 + lo.toNat := by
    rw [hlow, ← Nat.shiftLeft_add_eq_or_of_lt (by omega), Nat.shiftLeft_eq]
  refine ⟨⟨(hi.toNat - 192) * 256 + lo.toNat, by omega⟩, htarget, ?_⟩
  show beBytes 2 (0xc000 + ((hi.toNat - 192) * 256 + lo.toNat)) = [hi, lo]
  have hfirst : (0xc000 + ((hi.toNat - 192) * 256 + lo.toNat)) / 256 % 256 = hi.toNat := by omega
  have hsecond : (0xc000 + ((hi.toNat - 192) * 256 + lo.toNat)) % 256 = lo.toNat := by omega
  rw [beBytes_two, hfirst, hsecond, UInt8.ofNat_toNat, UInt8.ofNat_toNat]

/-- The bytes behind a length are a label. -/
theorem holds_label {i : ℕ} {b : UInt8} (h : Holds packet i [b]) (hin : i + 1 + b.toNat ≤ packet.len) :
    ∃ l, (packet.cut (i + 1) (i + 1 + b.toNat)).bytes = l ∧ l.length = b.toNat ∧
      Holds packet i (UInt8.ofNat l.length :: l) := by
  have hsize : (packet.cut (i + 1) (i + 1 + b.toNat)).bytes.length = b.toNat := by
    have hcut : (packet.cut (i + 1) (i + 1 + b.toNat)).bytes.length = i + 1 + b.toNat - (i + 1) :=
      Slice.len_cut hin
    omega
  refine ⟨_, rfl, hsize, ?_⟩
  rw [hsize, UInt8.ofNat_toNat]
  exact holds_cons.mpr ⟨h, holds_cut hin⟩

/-! ### One turn -/

/-- **What a turn has found**: the end of the name, a label, or a pointer. -/
theorem nameStep_cases {r : NameState ⊕ List (List UInt8) × ℕ} (h : nameStep packet s = .value r) :
    s.jumps ≤ 16 ∧
      ((Holds packet s.position [0] ∧
          r = .inr (s.labels, s.consumedPosition.getD (s.position + 1))) ∨
        (∃ l : List UInt8, (0 < l.length ∧ l.length ≤ 63) ∧
          Holds packet s.position (UInt8.ofNat l.length :: l) ∧
          s.expandedLen + (l.length + 1) ≤ 255 ∧
          r = .inl { s with
            position := s.position + 1 + l.length
            labels := s.labels ++ [l]
            expandedLen := s.expandedLen + (l.length + 1) }) ∨
        ∃ target : Fin (2 ^ 14), Holds packet s.position (beBytes 2 (0xc000 + target)) ∧
          r = .inl { s with
            consumedPosition := s.consumedPosition.or (some (s.position + 2))
            position := target
            jumps := s.jumps + 1 }) := by
  have hlen := packet.len_lt
  unfold nameStep at h
  obtain ⟨_, hgo, h⟩ := bind_eq_value h
  have hgo := reject_eq_value hgo
  have hpos : s.position < packet.len := by omega
  refine ⟨by omega, ?_⟩
  have hfirst := holds_byte hpos
  rw [Slice.index_eq hpos, value_bind] at h
  generalize packet.byte s.position = length at hfirst h
  by_cases hmark : length &&& 0xc0 = 0xc0
  · -- a pointer
    rw [if_pos hmark, add_eq (by omega), value_bind] at h
    obtain ⟨second, hsecond, h⟩ := bind_eq_value h
    obtain ⟨hnext, rfl⟩ := Slice.get_eq_value hsecond
    obtain ⟨_, -, h⟩ := bind_eq_value h
    obtain ⟨target, htarget, hbytes⟩ := pointer_target hmark (packet.byte (s.position + 1))
    rw [add_eq (by omega), value_bind, htarget, Outcome.value.injEq] at h
    refine Or.inr (Or.inr ⟨target, ?_, h.symm⟩)
    rw [hbytes]
    exact holds_cons.mpr ⟨hfirst, holds_byte hnext⟩
  · rw [if_neg hmark] at h
    obtain ⟨_, hlabel, h⟩ := bind_eq_value h
    have hlt := toNat_of_label (not_not.mp (reject_eq_value hlabel))
    rw [add_eq (by omega), value_bind] at h
    by_cases hzero : length = 0
    · -- the empty label
      rw [if_pos hzero, Outcome.value.injEq] at h
      rw [hzero] at hfirst
      exact Or.inl ⟨hfirst, h.symm⟩
    · -- a label
      rw [if_neg hzero, checkedAdd_eq (by omega), value_bind] at h
      obtain ⟨label, hrange, h⟩ := bind_eq_value h
      obtain ⟨rfl, hsize, hle, hin⟩ := Slice.meets_getRange.of_eq hrange
      obtain ⟨expandedLen, hexpanded, h⟩ := bind_eq_value h
      obtain rfl := meets_checkedAdd.of_eq hexpanded
      obtain ⟨_, hshort, h⟩ := bind_eq_value h
      have hshort := reject_eq_value hshort
      rw [Outcome.value.injEq] at h
      have hpositive : 0 < length.toNat :=
        Nat.pos_iff_ne_zero.mpr fun h0 => hzero (UInt8.toNat_inj.mp h0)
      obtain ⟨l, hbytes, hl, hholds⟩ := holds_label hfirst hin
      rw [hbytes, ← hl] at h
      exact Or.inr (Or.inl ⟨l, by omega, hholds, by omega, h.symm⟩)

/-! ### The loop -/

/-- **Labels and pointers lead from a turn of the loop to its result**, within the limits. -/
structure Followed (packet : Slice) (s : NameState) (labels : List (List UInt8)) (jumps next : ℕ) :
    Prop where
  name : NameAt packet s.position labels jumps next
  label_length : ∀ l ∈ labels, 0 < l.length ∧ l.length ≤ 63
  jumps_le : s.jumps + jumps ≤ 16
  short : s.expandedLen ≤ 255 → s.expandedLen + nameLen labels ≤ 255

theorem nameAt_of_loop {r : List (List UInt8) × ℕ}
    (h : loop (nameStep packet) NameState.fuel (fun _ _ => nameStep_fuel) s = .value r) :
    ∃ labels jumps next, Followed packet s labels jumps next ∧
      r = (s.labels ++ labels, s.consumedPosition.getD next) := by
  refine loop_induct (P := fun s r => ∃ labels jumps next, Followed packet s labels jumps next ∧
    r = (s.labels ++ labels, s.consumedPosition.getD next)) ?_ ?_ h
  · intro s r hbreak
    obtain ⟨hjumps, ⟨hroot, hr⟩ | ⟨l, -, -, -, hr⟩ | ⟨target, -, hr⟩⟩ := nameStep_cases hbreak
    · refine ⟨[], 0, s.position + 1, ⟨.root hroot, by simp, hjumps, fun hle => hle⟩, ?_⟩
      rw [List.append_nil]
      exact Sum.inr.inj hr
    · cases hr
    · cases hr
  · rintro s s' r hnext ⟨labels, jumps, next, hfollowed, rfl⟩
    obtain ⟨hjumps, ⟨hroot, hr⟩ | ⟨l, hl, hlabel, hshort, hr⟩ | ⟨target, hpointer, hr⟩⟩ :=
      nameStep_cases hnext
    · cases hr
    · obtain rfl := Sum.inl.inj hr
      refine ⟨l :: labels, jumps, next, ⟨.label hlabel hfollowed.name,
        List.forall_mem_cons.mpr ⟨hl, hfollowed.label_length⟩, hfollowed.jumps_le, fun _ => ?_⟩, ?_⟩
      · have hrest := hfollowed.short hshort
        rw [nameLen_cons, ← Nat.add_assoc]
        exact hrest
      · simp
    · obtain rfl := Sum.inl.inj hr
      refine ⟨labels, jumps + 1, s.position + 2, ⟨.pointer target hpointer hfollowed.name,
        hfollowed.label_length, ?_, hfollowed.short⟩, ?_⟩
      · have hle : s.jumps + 1 + jumps ≤ 16 := hfollowed.jumps_le
        omega
      · cases s.consumedPosition <;> simp

/-! ### The names that are read -/

/-- **`read_dns_name` accepts exactly the grammar of names**: labels of 1 to 63 bytes, 255 bytes of them at
most with one more for each, 16 pointers at most, and the empty label. It never panics. -/
theorem readDnsName_iff (packet : Slice) (offset : ℕ) :
    readDnsName packet offset ≠ .panicked ∧
      ∀ name next, readDnsName packet offset = .value (name, next) ↔
        ∃ labels jumps, NameAt packet offset labels jumps next ∧
          (∀ l ∈ labels, 1 ≤ l.length ∧ l.length ≤ 63) ∧ jumps ≤ 16 ∧ nameLen labels ≤ 255 ∧
          name = ".".intercalate (labels.map fromUtf8Lossy) := by
  refine ⟨(meets_readDnsName packet offset).ne_panicked, fun name next => ⟨fun h => ?_, ?_⟩⟩
  · obtain ⟨r, hlabels, h⟩ := bind_eq_value h
    obtain ⟨labels, jumps, next', hfollowed, rfl⟩ := nameAt_of_loop hlabels
    obtain ⟨hname, hnext⟩ := Prod.mk.inj (Outcome.value.inj h)
    obtain rfl : next' = next := hnext
    exact ⟨labels, jumps, hfollowed.name, hfollowed.label_length, by simpa using hfollowed.jumps_le,
      by simpa using hfollowed.short (Nat.zero_le _), hname.symm⟩
  · rintro ⟨labels, jumps, hname, hlabel, hjumps, hshort, rfl⟩
    have hlabels : readDnsLabels packet offset = .value (labels, next) :=
      loop_nameAt hname rfl
        ⟨by simpa using hjumps, rfl, fun l hl => hlabel l (by simpa using hl), by simpa using hshort⟩
    exact bind_value hlabels rfl

end BandixPlus.Dns.NameGrammar
