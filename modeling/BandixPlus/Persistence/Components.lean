import BandixPlus.Persistence.Paths

/-! # Names of any file

`decode_component` of `persistence.rs` is given the stem of every ring file in a directory, whoever wrote
it. It takes the characters in pairs, and a pair may be a sign and a digit.

* `decodePairs_some_iff`, `decodePairs_panic_iff`: what the loop over the pairs does.
* `decodeComponent_exact_iff`: **when a component is read exactly**.
* `decodeComponent_not_exact`: two names that are not. -/

namespace BandixPlus.Persistence.Components

open BandixPlus.Common BandixPlus.Net.Text BandixPlus.Persistence.Paths

/-- The bytes of a text. -/
def bytesOf (t : String) : List UInt8 := t.toByteArray.data.toList

/-- The characters of some pairs. -/
def charsOf (pairs : List (Char × Char)) : List Char := pairs.flatMap fun p => [p.1, p.2]

/-- What a pair is read as. -/
def valueOf (p : Char × Char) : Option UInt8 := u8FromHex p.1 p.2

/-- **A component is read exactly**: without an index out of bounds, and as a text if and only if it is
the encoding of this text, up to the case of the digits. -/
def Exact (s : String) : Prop :=
  ∃ r, decodeComponent s = .ok r ∧ ∀ t, r = some t ↔ t ≠ "" ∧ toAsciiLowercase s = encodeComponent t

/-! ### Pairs -/

theorem u8FromHex_eq_some_iff {hi lo : Char} {v : UInt8} :
    u8FromHex hi lo = some v ↔ ∃ y, hexDigit lo = some y ∧
      (hi = '+' ∧ v = UInt8.ofNat y ∨ ∃ x, hexDigit hi = some x ∧ v = UInt8.ofNat (x * 16 + y)) := by
  have hplus : hexDigit '+' = none := by decide
  unfold u8FromHex
  split_ifs with hsign
  · subst hsign
    cases hexDigit lo <;> simp [hplus, eq_comm]
  · cases hexDigit hi <;> cases hexDigit lo <;> simp [hsign, eq_comm]

/-- The characters of a pair that is read are bytes. -/
theorem utf8Size_of_valueOf {p : Char × Char} (h : (valueOf p).isSome) :
    p.1.utf8Size = 1 ∧ p.2.utf8Size = 1 := by
  obtain ⟨v, hv⟩ := Option.isSome_iff_exists.mp h
  obtain ⟨y, hlo, ⟨hhi, -⟩ | ⟨x, hhi, -⟩⟩ := u8FromHex_eq_some_iff.mp hv
  · rw [hhi]
    exact ⟨by decide, (digit_of_hexDigit hlo).2.2⟩
  · exact ⟨(digit_of_hexDigit hhi).2.2, (digit_of_hexDigit hlo).2.2⟩

/-- A pair without a sign has the digits of its byte. -/
theorem hexByte_of_valueOf {p : Char × Char} {v : UInt8} (h : valueOf p = some v) (hsign : p.1 ≠ '+') :
    [p.1.toLower, p.2.toLower] = hexByte v := by
  obtain ⟨y, hlo, ⟨hhi, -⟩ | ⟨x, hhi, rfl⟩⟩ := u8FromHex_eq_some_iff.mp h
  · exact absurd hhi hsign
  · obtain ⟨hx, hx', -⟩ := digit_of_hexDigit hhi
    obtain ⟨hy, hy', -⟩ := digit_of_hexDigit hlo
    rw [hexByte_ofNat hx hy, hx', hy']

theorem valueOf_of_hexByte {p : Char × Char} {v : UInt8} (h : [p.1.toLower, p.2.toLower] = hexByte v) :
    valueOf p = some v ∧ p.1 ≠ '+' := by
  have hv := v.toNat_lt
  unfold hexByte at h
  rw [List.cons.injEq, List.cons.injEq] at h
  have hhi := hexDigit_of_toLower (by omega) h.1
  have hlo := hexDigit_of_toLower (by omega) h.2.1
  refine ⟨u8FromHex_eq_some_iff.mpr ⟨_, hlo, Or.inr ⟨_, hhi, ?_⟩⟩, ?_⟩
  · rw [Nat.div_add_mod', UInt8.ofNat_toNat]
  · rintro hsign
    rw [hsign] at hhi
    cases hhi

/-! ### The loop over the pairs -/

theorem decodePairs_cons (p : Char × Char) (rest : List Char) :
    decodePairs (p.1 :: p.2 :: rest) =
      match valueOf p with
      | none => .ok none
      | some v => (decodePairs rest).map fun bytes => bytes.map (v :: ·) := rfl

/-- **The pairs are all read.** -/
theorem decodePairs_some_iff {l : List Char} {bytes : List UInt8} :
    decodePairs l = .ok (some bytes) ↔
      ∃ pairs, l = charsOf pairs ∧ pairs.map valueOf = bytes.map some := by
  constructor
  · intro h
    fun_induction decodePairs l generalizing bytes with
    | case1 =>
      obtain rfl : [] = bytes := Option.some.inj (Except.ok.inj h)
      exact ⟨[], rfl, rfl⟩
    | case2 c => cases h
    | case3 hi lo rest hnone => cases h
    | case4 hi lo rest v hv ih =>
      cases hrest : decodePairs rest with
      | error e =>
        rw [hrest] at h
        cases h
      | ok r =>
        rw [hrest] at h
        obtain ⟨bytes', rfl, rfl⟩ := Option.map_eq_some_iff.mp (Except.ok.inj h)
        obtain ⟨pairs, rfl, hvalues⟩ := ih hrest
        refine ⟨(hi, lo) :: pairs, rfl, ?_⟩
        rw [List.map_cons, List.map_cons, hvalues]
        exact congrArg (· :: _) hv
  · rintro ⟨pairs, rfl, hvalues⟩
    induction pairs generalizing bytes with
    | nil =>
      obtain rfl : bytes = [] := List.map_eq_nil_iff.mp hvalues.symm
      rfl
    | cons p pairs ih =>
      obtain ⟨v, bytes, rfl, hv, hrest⟩ := List.map_eq_cons_iff.mp hvalues.symm
      show decodePairs (p.1 :: p.2 :: charsOf pairs) = _
      rw [decodePairs_cons, ← hv, ih hrest.symm]
      rfl

/-- **A character is left over** behind pairs that are read. -/
theorem decodePairs_panic_iff {l : List Char} :
    decodePairs l = .error .panic ↔
      ∃ pairs c, l = charsOf pairs ++ [c] ∧ ∀ p ∈ pairs, (valueOf p).isSome := by
  constructor
  · intro h
    fun_induction decodePairs l with
    | case1 => cases h
    | case2 c => exact ⟨[], c, rfl, by simp⟩
    | case3 hi lo rest hnone => cases h
    | case4 hi lo rest v hv ih =>
      cases hrest : decodePairs rest with
      | error e =>
        obtain ⟨pairs, c, rfl, hall⟩ := ih hrest
        refine ⟨(hi, lo) :: pairs, c, rfl, List.forall_mem_cons.mpr ⟨?_, hall⟩⟩
        exact Option.isSome_of_eq_some hv
      | ok r =>
        rw [hrest] at h
        cases h
  · rintro ⟨pairs, c, rfl, hall⟩
    induction pairs with
    | nil => rfl
    | cons p pairs ih =>
      obtain ⟨hp, hpairs⟩ := List.forall_mem_cons.mp hall
      obtain ⟨v, hv⟩ := Option.isSome_iff_exists.mp hp
      show decodePairs (p.1 :: p.2 :: (charsOf pairs ++ [c])) = _
      rw [decodePairs_cons, hv, ih hpairs]
      rfl

/-! ### Lengths -/

theorem strLen_append (l l' : List Char) :
    strLen (.ofList (l ++ l')) = strLen (.ofList l) + strLen (.ofList l') := by
  simp [strLen]

theorem strLen_charsOf {pairs : List (Char × Char)} (h : ∀ p ∈ pairs, (valueOf p).isSome) :
    strLen (.ofList (charsOf pairs)) = 2 * pairs.length := by
  induction pairs with
  | nil => rfl
  | cons p pairs ih =>
    obtain ⟨hp, hpairs⟩ := List.forall_mem_cons.mp h
    obtain ⟨hhi, hlo⟩ := utf8Size_of_valueOf hp
    have hfirst : strLen (.ofList [p.1, p.2]) = 2 := by simp [strLen, hhi, hlo]
    show strLen (.ofList ([p.1, p.2] ++ charsOf pairs)) = _
    rw [strLen_append, hfirst, ih hpairs, List.length_cons]
    omega

theorem isSome_of_map {pairs : List (Char × Char)} {bytes : List UInt8}
    (h : pairs.map valueOf = bytes.map some) : ∀ p ∈ pairs, (valueOf p).isSome := by
  intro p hp
  have hmem : valueOf p ∈ bytes.map some := h ▸ List.mem_map_of_mem hp
  obtain ⟨v, -, hv⟩ := List.mem_map.mp hmem
  exact Option.isSome_of_eq_some hv.symm

/-! ### Texts -/

theorem fromUTF8_eq_some_iff {bytes : List UInt8} {t : String} :
    String.fromUTF8? ⟨bytes.toArray⟩ = some t ↔ bytes = bytesOf t := by
  unfold String.fromUTF8?
  constructor
  · intro h
    split_ifs at h
    rw [← Option.some.inj h]
    rfl
  · rintro rfl
    have hbytes : (⟨(bytesOf t).toArray⟩ : ByteArray) = t.toByteArray := rfl
    rw [hbytes, dif_pos t.isValidUTF8]
    rfl

theorem bytesOf_eq_nil_iff {t : String} : bytesOf t = [] ↔ t = "" := by
  constructor
  · intro h
    exact String.toByteArray_inj.mp (ByteArray.ext (Array.toList_inj.mp h))
  · rintro rfl
    rfl

/-- Pairs of a text that is not empty are not empty. -/
theorem ne_empty_iff {s t : String} {pairs : List (Char × Char)} (hchars : s.toList = charsOf pairs)
    (hvalues : pairs.map valueOf = (bytesOf t).map some) : s ≠ "" ↔ t ≠ "" := by
  have hpairs : pairs = [] ↔ t = "" := by
    rw [← bytesOf_eq_nil_iff, ← List.map_eq_nil_iff (f := valueOf), hvalues, List.map_eq_nil_iff]
  have hs : s = "" ↔ pairs = [] := by
    rw [← String.toList_eq_nil_iff, hchars]
    cases pairs <;> simp [charsOf]
  rw [ne_eq, ne_eq, hs, hpairs]

theorem strLen_of_toList {s : String} {l : List Char} (h : s.toList = l) :
    strLen s = strLen (.ofList l) := by
  rw [← h, String.ofList_toList]

/-- **The texts that are read.** -/
theorem decodeComponent_some_iff {s t : String} :
    decodeComponent s = .ok (some t) ↔ t ≠ "" ∧
      ∃ pairs, s.toList = charsOf pairs ∧ pairs.map valueOf = (bytesOf t).map some := by
  unfold decodeComponent
  constructor
  · intro h
    split_ifs at h with hempty
    · cases Except.ok.inj h
    · cases hpairs : decodePairs s.toList with
      | error e =>
        rw [hpairs] at h
        cases h
      | ok r =>
        rw [hpairs] at h
        obtain ⟨bytes, rfl, hutf8⟩ := Option.bind_eq_some_iff.mp (Except.ok.inj h)
        obtain rfl := fromUTF8_eq_some_iff.mp hutf8
        obtain ⟨pairs, hchars, hvalues⟩ := decodePairs_some_iff.mp hpairs
        exact ⟨(ne_empty_iff hchars hvalues).mp (not_or.mp hempty).1, pairs, hchars, hvalues⟩
  · rintro ⟨ht, pairs, hchars, hvalues⟩
    have hs := (ne_empty_iff hchars hvalues).mpr ht
    have hlen : strLen s % 2 = 0 := by
      rw [strLen_of_toList hchars, strLen_charsOf (isSome_of_map hvalues)]
      omega
    rw [if_neg (not_or.mpr ⟨hs, not_not.mpr hlen⟩),
      decodePairs_some_iff.mpr ⟨pairs, hchars, hvalues⟩]
    exact congrArg Except.ok (fromUTF8_eq_some_iff.mpr rfl)

theorem map_toLower_eq_iff {l : List Char} {bytes : List UInt8} :
    l.map Char.toLower = bytes.flatMap hexByte ↔
      ∃ pairs, l = charsOf pairs ∧ pairs.map valueOf = bytes.map some ∧ ∀ p ∈ pairs, p.1 ≠ '+' := by
  constructor
  · intro h
    induction bytes generalizing l with
    | nil => exact ⟨[], List.map_eq_nil_iff.mp h, rfl, by simp⟩
    | cons v bytes ih =>
      obtain ⟨hi, l, rfl, hhi, h⟩ := List.map_eq_cons_iff.mp h
      obtain ⟨lo, l, rfl, hlo, h⟩ := List.map_eq_cons_iff.mp h
      obtain ⟨pairs, rfl, hvalues, hsigns⟩ := ih h
      obtain ⟨hv, hsign⟩ := valueOf_of_hexByte (p := (hi, lo)) (v := v) (by
        rw [hhi, hlo]
        rfl)
      refine ⟨(hi, lo) :: pairs, rfl, ?_, List.forall_mem_cons.mpr ⟨hsign, hsigns⟩⟩
      rw [List.map_cons, List.map_cons, hv, hvalues]
  · rintro ⟨pairs, rfl, hvalues, hsigns⟩
    induction pairs generalizing bytes with
    | nil =>
      obtain rfl : bytes = [] := List.map_eq_nil_iff.mp hvalues.symm
      rfl
    | cons p pairs ih =>
      obtain ⟨v, bytes, rfl, hv, hrest⟩ := List.map_eq_cons_iff.mp hvalues.symm
      obtain ⟨hsign, hsigns⟩ := List.forall_mem_cons.mp hsigns
      show [p.1.toLower, p.2.toLower] ++ (charsOf pairs).map Char.toLower = _
      rw [hexByte_of_valueOf hv.symm hsign, ih hrest.symm hsigns, List.flatMap_cons]

/-- **The encoding of a text**, up to the case of its digits. -/
theorem lower_eq_encodeComponent_iff {s t : String} :
    toAsciiLowercase s = encodeComponent t ↔
      ∃ pairs, s.toList = charsOf pairs ∧ pairs.map valueOf = (bytesOf t).map some ∧
        ∀ p ∈ pairs, p.1 ≠ '+' := by
  unfold toAsciiLowercase encodeComponent
  rw [String.ofList_inj]
  exact map_toLower_eq_iff

/-! ### Exact names -/

/-- Behind pairs that are read there is one character, of two or four bytes. -/
def WideRest (s : String) : Prop :=
  ∃ (pairs : List (Char × Char)) (c : Char), s.toList = charsOf pairs ++ [c] ∧
    (∀ p ∈ pairs, (valueOf p).isSome) ∧ c.utf8Size % 2 = 0

/-- All pairs are read, one of them with a sign, and their bytes are UTF-8. -/
def Signed (s : String) : Prop :=
  ∃ (pairs : List (Char × Char)) (bytes : List UInt8), s.toList = charsOf pairs ∧
    pairs.map valueOf = bytes.map some ∧ (∃ p ∈ pairs, p.1 = '+') ∧
    ByteArray.IsValidUTF8 ⟨bytes.toArray⟩

theorem decodeComponent_panic_iff {s : String} :
    decodeComponent s = .error .panic ↔ WideRest s := by
  have hlast : ∀ {pairs : List (Char × Char)} {c : Char}, s.toList = charsOf pairs ++ [c] →
      (∀ p ∈ pairs, (valueOf p).isSome) → strLen s = 2 * pairs.length + c.utf8Size := by
    intro pairs c hchars hall
    rw [strLen_of_toList hchars, strLen_append, strLen_charsOf hall]
    simp [strLen]
  unfold decodeComponent
  constructor
  · intro h
    split_ifs at h with hempty
    obtain ⟨-, heven⟩ := not_or.mp hempty
    cases hpairs : decodePairs s.toList with
    | error e =>
      obtain ⟨pairs, c, hchars, hall⟩ := decodePairs_panic_iff.mp hpairs
      have hlen := hlast hchars hall
      exact ⟨pairs, c, hchars, hall, by omega⟩
    | ok r =>
      rw [hpairs] at h
      cases h
  · rintro ⟨pairs, c, hchars, hall, heven⟩
    have hlen := hlast hchars hall
    have hs : s ≠ "" := by
      rintro rfl
      simp at hchars
    rw [if_neg (not_or.mpr ⟨hs, by omega⟩), decodePairs_panic_iff.mpr ⟨pairs, c, hchars, hall⟩]
    rfl

theorem charsOf_inj {pairs pairs' : List (Char × Char)} (h : charsOf pairs = charsOf pairs') :
    pairs = pairs' := by
  induction pairs generalizing pairs' with
  | nil => cases pairs' <;> simp [charsOf] at h ⊢
  | cons p pairs ih =>
    cases pairs' with
    | nil => simp [charsOf] at h
    | cons p' pairs' =>
      have h : p.1 :: p.2 :: charsOf pairs = p'.1 :: p'.2 :: charsOf pairs' := h
      obtain ⟨hhi, hlo, hrest⟩ : p.1 = p'.1 ∧ p.2 = p'.2 ∧ charsOf pairs = charsOf pairs' := by
        simpa using h
      rw [Prod.ext hhi hlo, ih hrest]

/-- **When a component is read exactly**: unless it panics at a character of an even number of bytes that is
left over, or takes a sign for a digit. -/
theorem decodeComponent_exact_iff (s : String) : Exact s ↔ ¬ WideRest s ∧ ¬ Signed s := by
  unfold Exact
  rw [← decodeComponent_panic_iff]
  cases hdecode : decodeComponent s with
  | error e => simp
  | ok r =>
    constructor
    · rintro ⟨r', hr, hexact⟩
      refine ⟨nofun, ?_⟩
      rintro ⟨pairs, bytes, hchars, hvalues, ⟨p, hp, hsign⟩, hvalid⟩
      obtain ⟨t, rfl⟩ : ∃ t, bytesOf t = bytes := ⟨String.ofByteArray _ hvalid, rfl⟩
      have ht : t ≠ "" := by
        rintro rfl
        rw [List.map_eq_nil_iff.mp hvalues] at hp
        cases hp
      have hread : decodeComponent s = .ok (some t) :=
        decodeComponent_some_iff.mpr ⟨ht, pairs, hchars, hvalues⟩
      obtain ⟨-, hlower⟩ := (hexact t).mp (Except.ok.inj (hr.symm.trans (hdecode.symm.trans hread)))
      obtain ⟨pairs', hchars', -, hsigns⟩ := lower_eq_encodeComponent_iff.mp hlower
      obtain rfl := charsOf_inj (hchars.symm.trans hchars')
      exact hsigns p hp hsign
    · rintro ⟨-, hsigned⟩
      refine ⟨r, rfl, fun t => ?_⟩
      have hr : r = some t ↔ decodeComponent s = .ok (some t) := by rw [hdecode, Except.ok.injEq]
      rw [hr, decodeComponent_some_iff, lower_eq_encodeComponent_iff]
      refine and_congr_right fun _ => ⟨?_, ?_⟩
      · rintro ⟨pairs, hchars, hvalues⟩
        exact ⟨pairs, hchars, hvalues, fun p hp hsign =>
          hsigned ⟨pairs, bytesOf t, hchars, hvalues, ⟨p, hp, hsign⟩, t.isValidUTF8⟩⟩
      · rintro ⟨pairs, hchars, hvalues, -⟩
        exact ⟨pairs, hchars, hvalues⟩

/-- **Two names that are not read exactly**: the one panics, and the other is read as a text that is encoded
in another way. -/
theorem decodeComponent_not_exact :
    decodeComponent "é" = .error .panic ∧ ¬ Exact "é" ∧
      decodeComponent "+f" = .ok (some "\x0f") ∧ encodeComponent "\x0f" = "0f" ∧ ¬ Exact "+f" := by
  have hpanic : decodeComponent "é" = .error .panic := rfl
  have hread : decodeComponent "+f" = .ok (some "\x0f") :=
    decodeComponent_some_iff.mpr ⟨by decide, [('+', 'f')], by decide, rfl⟩
  refine ⟨hpanic, ?_, hread, by decide +kernel, ?_⟩
  · rintro ⟨r, hr, -⟩
    rw [hpanic] at hr
    cases hr
  · rintro ⟨r, hr, hexact⟩
    have hsame := ((hexact "\x0f").mp (Except.ok.inj (hr.symm.trans hread))).2
    exact absurd hsame (by decide +kernel)

end BandixPlus.Persistence.Components
