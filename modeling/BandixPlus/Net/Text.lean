import BandixPlus.Common
import Mathlib.Data.List.DropRight
import Mathlib.Data.List.TakeWhile
import Mathlib.Tactic.IntervalCases

/-! # Text

Functions on `str` of the Rust standard library that the program uses, as it documents them, and
`mac_utils` of `utils.rs`. A string is handled as its list of characters.

* `u8FromHex_hexByte`: the two digits that `{:02x}` writes are read back.
* `macFromStr_macToString`: so is a MAC address. -/

namespace BandixPlus.Net.Text

open BandixPlus.Common

/-- `char::is_whitespace`: the Unicode property `White_Space`. -/
def isWhitespace (c : Char) : Bool :=
  let n := c.toNat
  (9 ≤ n && n ≤ 13) || n = 0x20 || n = 0x85 || n = 0xA0 || n = 0x1680 || (0x2000 ≤ n && n ≤ 0x200A)
    || n = 0x2028 || n = 0x2029 || n = 0x202F || n = 0x205F || n = 0x3000

/-- `str::trim`. -/
def trim (s : String) : String :=
  .ofList ((s.toList.dropWhile isWhitespace).reverse.dropWhile isWhitespace).reverse

/-- `str::len`: the length in bytes. -/
def strLen (s : String) : ℕ := (s.toList.map Char.utf8Size).sum

/-- `to_ascii_lowercase`. -/
def toAsciiLowercase (s : String) : String := .ofList (s.toList.map Char.toLower)

def eqIgnoreAsciiCase (s t : String) : Bool := toAsciiLowercase s = toAsciiLowercase t

/-- The characters before and after the last `c`. -/
def rsplitOnceChars (c : Char) : List Char → Option (List Char × List Char)
  | [] => none
  | a :: rest =>
    match rsplitOnceChars c rest with
    | some (before, after) => some (a :: before, after)
    | none => if a = c then some ([], rest) else none

/-- `str::rsplit_once`. -/
def rsplitOnce (s : String) (c : Char) : Option (String × String) :=
  (rsplitOnceChars c s.toList).map fun (before, after) => (.ofList before, .ofList after)

/-- `split(c).next()`: the text before the first `c`. -/
def beforeChar (s : String) (c : Char) : String := .ofList (s.toList.takeWhile (· ≠ c))

/-- `str::split_once`. -/
def splitOnce (s : String) (c : Char) : Option (String × String) :=
  match s.toList.dropWhile (· ≠ c) with
  | [] => none
  | _ :: rest => some (beforeChar s c, .ofList rest)

/-- `str::split_whitespace`. -/
def splitWhitespace (s : String) : List String :=
  ((s.toList.splitOnP isWhitespace).filter (· ≠ [])).map .ofList

/-- `str::lines`: a line ends at a newline, with the carriage return before it, or at the end. -/
def lines (s : String) : List String :=
  let segments := s.toList.splitOn '\n'
  let ended := segments.dropLast.map fun l => if l.getLast? = some '\r' then l.dropLast else l
  let last := (segments.getLast?.filter (· ≠ [])).toList
  (ended ++ last).map .ofList

/-- The bytes that follow a first byte of UTF-8: how many, and the range of the second. -/
def utf8Lead (b : ℕ) : Option (ℕ × ℕ × ℕ) :=
  if 0xC2 ≤ b ∧ b ≤ 0xDF then some (1, 0x80, 0xBF)
  else if b = 0xE0 then some (2, 0xA0, 0xBF)
  else if b = 0xED then some (2, 0x80, 0x9F)
  else if 0xE1 ≤ b ∧ b ≤ 0xEF then some (2, 0x80, 0xBF)
  else if b = 0xF0 then some (3, 0x90, 0xBF)
  else if b = 0xF4 then some (3, 0x80, 0x8F)
  else if 0xF1 ≤ b ∧ b ≤ 0xF3 then some (3, 0x80, 0xBF)
  else none

/-- Read `n` continuation bytes, the first of them in the given range, up to one that does not
belong there. -/
def utf8Rest : ℕ → ℕ → ℕ → ℕ → List UInt8 → Option ℕ × List UInt8
  | 0, _, _, code, bs => (some code, bs)
  | _ + 1, _, _, _, [] => (none, [])
  | n + 1, lo, hi, code, b :: bs =>
    if lo ≤ b.toNat ∧ b.toNat ≤ hi then utf8Rest n 0x80 0xBF (code * 64 + b.toNat % 64) bs
    else (none, b :: bs)

/-- One round takes a byte at least, so the number of bytes is enough fuel. -/
def utf8LossyChars : ℕ → List UInt8 → List Char
  | 0, _ => []
  | _ + 1, [] => []
  | fuel + 1, b :: bs =>
    if b.toNat < 0x80 then Char.ofNat b.toNat :: utf8LossyChars fuel bs
    else match utf8Lead b.toNat with
      | none => '\uFFFD' :: utf8LossyChars fuel bs
      | some (n, lo, hi) =>
        let (code, rest) := utf8Rest n lo hi (b.toNat % 2 ^ (6 - n)) bs
        (code.map Char.ofNat).getD '\uFFFD' :: utf8LossyChars fuel rest

/-- `String::from_utf8_lossy`: each longest start of a sequence that is not completed becomes one
U+FFFD. -/
def fromUtf8Lossy (bytes : List UInt8) : String := .ofList (utf8LossyChars bytes.length bytes)

/-- `trim_start_matches`. -/
def trimStartMatches (pattern : List Char) : ℕ → List Char → List Char
  | 0, cs => cs
  | n + 1, cs => if pattern.isPrefixOf cs then trimStartMatches pattern n (cs.drop pattern.length) else cs

/-- `trim_matches` of everything but ASCII letters, then `to_ascii_uppercase`. -/
def trimToLetters (s : String) : String :=
  let cs := s.toList.dropWhile fun c => !c.isAlpha
  .ofList ((cs.reverse.dropWhile fun c => !c.isAlpha).reverse.map Char.toUpper)

/-- `char::is_ascii_hexdigit` and `char::to_digit(16)`. -/
def hexDigit (c : Char) : Option ℕ :=
  if '0' ≤ c ∧ c ≤ '9' then some (c.toNat - 48)
  else if 'a' ≤ c ∧ c ≤ 'f' then some (c.toNat - 87)
  else if 'A' ≤ c ∧ c ≤ 'F' then some (c.toNat - 55)
  else none

def isHexDigit (c : Char) : Bool := (hexDigit c).isSome

/-- `u8::from_str_radix` of two characters; a plus sign may stand before the one digit. -/
def u8FromHex (hi lo : Char) : Option UInt8 :=
  if hi = '+' then (hexDigit lo).map UInt8.ofNat
  else (hexDigit hi).bind fun h => (hexDigit lo).map fun l => UInt8.ofNat (h * 16 + l)

/-- `from_str_radix` of an unsigned type: digits, after a plus sign perhaps, of a number below
`bound`. -/
def parseUnsigned (radix bound : ℕ) (s : String) : Option ℕ :=
  let cs := match s.toList with
    | '+' :: rest => rest
    | cs => cs
  let ds := cs.map fun c => (hexDigit c).filter (· < radix)
  if cs = [] ∨ none ∈ ds then none
  else
    let n := ds.foldl (fun acc d => acc * radix + d.getD 0) 0
    if n < bound then some n else none

/-- `{:02x}`. -/
def hexByte (b : UInt8) : List Char := [Nat.digitChar (b.toNat / 16), Nat.digitChar (b.toNat % 16)]

/-- `mac_utils::to_string`. -/
def macToString (mac : Mac) : String := .ofList ([':'].intercalate (mac.toList.map hexByte))

/-- `splitn(6, ':')`. -/
def splitColons : ℕ → List Char → List (List Char)
  | 0, _ => []
  | 1, cs => [cs]
  | n + 2, cs =>
    match cs.dropWhile (· ≠ ':') with
    | [] => [cs]
    | _ :: rest => cs.takeWhile (· ≠ ':') :: splitColons (n + 1) rest

/-- `mac_utils::from_str`. -/
def macFromStr (s : String) : Except String Mac :=
  let parts := (splitColons 6 s.toList).map String.ofList
  if parts.length ≠ 6 then .error s!"invalid mac format: {s}"
  else do
    let bytes ← parts.mapM fun part =>
      match parseUnsigned 16 256 (trim part) with
      | some n => .ok (UInt8.ofNat n)
      | none => .error s!"invalid hex in mac: {part}"
    pure (Vector.ofFn fun i => bytes.getD i 0)

/-! ### Digits -/

/-- What the sixteen digits have in common. -/
structure IsDigit (c : Char) : Prop where
  lower : c.toLower = c
  hex : isHexDigit c = true
  size : c.utf8Size = 1
  notColon : c ≠ ':'
  notDash : c ≠ '-'
  notDot : c ≠ '.'
  notPlus : c ≠ '+'
  notSpace : isWhitespace c = false

theorem isDigit_digitChar {n : ℕ} (h : n < 16) :
    IsDigit (Nat.digitChar n) ∧ hexDigit (Nat.digitChar n) = some n := by
  interval_cases n <;> exact ⟨⟨by decide, by decide, by decide, by decide, by decide, by decide,
    by decide, by decide⟩, by decide⟩

theorem isDigit_of_mem_hexByte {b : UInt8} {c : Char} (h : c ∈ hexByte b) : IsDigit c := by
  have hb := b.toNat_lt
  unfold hexByte at h
  rcases List.mem_cons.mp h with rfl | h
  · exact (isDigit_digitChar (by omega)).1
  · rw [List.mem_singleton.mp h]
    exact (isDigit_digitChar (by omega)).1

theorem isDigit_of_mem_flatMap {bytes : List UInt8} {c : Char} (h : c ∈ bytes.flatMap hexByte) :
    IsDigit c := by
  obtain ⟨b, -, hc⟩ := List.mem_flatMap.mp h
  exact isDigit_of_mem_hexByte hc

/-- **Reading the two digits of a byte.** -/
theorem u8FromHex_hexByte (b : UInt8) :
    u8FromHex (Nat.digitChar (b.toNat / 16)) (Nat.digitChar (b.toNat % 16)) = some b := by
  have hb := b.toNat_lt
  obtain ⟨hhi, hhi'⟩ := isDigit_digitChar (n := b.toNat / 16) (by omega)
  obtain ⟨-, hlo'⟩ := isDigit_digitChar (n := b.toNat % 16) (by omega)
  unfold u8FromHex
  rw [if_neg hhi.notPlus, hhi', hlo', Option.bind_some, Option.map_some]
  have hsum : b.toNat / 16 * 16 + b.toNat % 16 = b.toNat := by omega
  rw [hsum, UInt8.ofNat_toNat]

theorem lt_of_hexDigit {c : Char} {n : ℕ} (h : hexDigit c = some n) : c.toNat < 128 := by
  have hle : ∀ hi : Char, c ≤ hi → c.toNat ≤ hi.toNat := fun _ hle => hle
  unfold hexDigit at h
  split_ifs at h with h0 h1 h2
  · exact (hle _ h0.2).trans_lt (by decide)
  · exact (hle _ h1.2).trans_lt (by decide)
  · exact (hle _ h2.2).trans_lt (by decide)

theorem hexDigit_table : ∀ k < 128, (hexDigit (Char.ofNat k)).all fun n =>
    n < 16 ∧ (Char.ofNat k).toLower = Nat.digitChar n ∧ (Char.ofNat k).utf8Size = 1 := by
  decide +kernel

/-- **What a digit is**, in either case. -/
theorem digit_of_hexDigit {c : Char} {n : ℕ} (h : hexDigit c = some n) :
    n < 16 ∧ c.toLower = Nat.digitChar n ∧ c.utf8Size = 1 := by
  have hc := hexDigit_table c.toNat (lt_of_hexDigit h)
  rw [Char.ofNat_toNat, h, Option.all_some] at hc
  exact of_decide_eq_true hc

theorem hexDigit_toLower (c : Char) : hexDigit c.toLower = hexDigit c := by
  by_cases h : 'A'.val ≤ c.val ∧ c.val ≤ 'Z'.val
  · have hlo : 65 ≤ c.toNat := h.1
    have hhi : c.toNat ≤ 90 := h.2
    obtain ⟨k, hk⟩ : ∃ k, k = c.toNat := ⟨_, rfl⟩
    rw [← Char.ofNat_toNat c, ← hk]
    rw [← hk] at hlo hhi
    interval_cases k <;> rfl
  · unfold Char.toLower
    rw [dif_neg h]

theorem hexDigit_of_toLower {c : Char} {n : ℕ} (hn : n < 16) (h : c.toLower = Nat.digitChar n) :
    hexDigit c = some n := by
  rw [← hexDigit_toLower, h]
  exact (isDigit_digitChar hn).2

theorem IsDigit.eq_digitChar {c : Char} (h : IsDigit c) : ∃ n < 16, c = Nat.digitChar n := by
  obtain ⟨n, hn⟩ := Option.isSome_iff_exists.mp h.hex
  obtain ⟨hlt, hlower, -⟩ := digit_of_hexDigit hn
  exact ⟨n, hlt, h.lower.symm.trans hlower⟩

theorem hexByte_ofNat {x y : ℕ} (hx : x < 16) (hy : y < 16) :
    hexByte (UInt8.ofNat (x * 16 + y)) = [Nat.digitChar x, Nat.digitChar y] := by
  have hbyte : (UInt8.ofNat (x * 16 + y)).toNat = x * 16 + y := by
    rw [UInt8.toNat_ofNat']
    omega
  unfold hexByte
  rw [hbyte, show (x * 16 + y) / 16 = x by omega, show (x * 16 + y) % 16 = y by omega]

/-- Digits in pairs are bytes. -/
theorem exists_bytes_of_digits {n : ℕ} {l : List Char} (h : ∀ c ∈ l, IsDigit c)
    (hlen : l.length = 2 * n) : ∃ bytes : List UInt8, bytes.length = n ∧ l = bytes.flatMap hexByte := by
  induction n generalizing l with
  | zero => exact ⟨[], rfl, List.length_eq_zero_iff.mp hlen⟩
  | succ n ih =>
    rcases l with _ | ⟨hi, _ | ⟨lo, rest⟩⟩
    · simp at hlen
    · simp at hlen
      omega
    · obtain ⟨hhi, h⟩ := List.forall_mem_cons.mp h
      obtain ⟨hlo, hrest⟩ := List.forall_mem_cons.mp h
      obtain ⟨bytes, hbytes, rfl⟩ := ih hrest (by simp only [List.length_cons] at hlen; omega)
      obtain ⟨x, hx, rfl⟩ := hhi.eq_digitChar
      obtain ⟨y, hy, rfl⟩ := hlo.eq_digitChar
      refine ⟨UInt8.ofNat (x * 16 + y) :: bytes, by rw [List.length_cons, hbytes], ?_⟩
      rw [List.flatMap_cons, hexByte_ofNat hx hy]
      rfl

/-! ### Splitting at the last occurrence -/

theorem rsplitOnceChars_eq_none {c : Char} {l : List Char} (h : c ∉ l) :
    rsplitOnceChars c l = none := by
  induction l with
  | nil => rfl
  | cons a rest ih =>
    obtain ⟨ha, hrest⟩ := not_or.mp (List.mem_cons.not.mp h)
    unfold rsplitOnceChars
    rw [ih hrest]
    exact if_neg (Ne.symm ha)

theorem rsplitOnceChars_append {c : Char} (before : List Char) {after : List Char}
    (h : c ∉ after) : rsplitOnceChars c (before ++ c :: after) = some (before, after) := by
  induction before with
  | nil =>
    show rsplitOnceChars c (c :: after) = _
    unfold rsplitOnceChars
    rw [rsplitOnceChars_eq_none h]
    exact if_pos rfl
  | cons a before ih =>
    show rsplitOnceChars c (a :: (before ++ c :: after)) = _
    unfold rsplitOnceChars
    rw [ih]

theorem strLen_of_digits {l : List Char} (h : ∀ c ∈ l, IsDigit c) :
    strLen (.ofList l) = l.length := by
  unfold strLen
  rw [String.toList_ofList]
  induction l with
  | nil => rfl
  | cons c rest ih =>
    rw [List.map_cons, List.sum_cons, (h c List.mem_cons_self).size,
      ih fun c hc => h c (List.mem_cons_of_mem _ hc), List.length_cons, Nat.add_comm]

theorem map_toLower_of_digits {l : List Char} (h : ∀ c ∈ l, IsDigit c) :
    l.map Char.toLower = l :=
  (List.map_congr_left fun c hc => (h c hc).lower).trans (List.map_id _)

theorem toAsciiLowercase_macToString (mac : Mac) :
    toAsciiLowercase (macToString mac) = macToString mac := by
  have hparts : ∀ parts : List (List Char), (∀ part ∈ parts, ∀ c ∈ part, IsDigit c) →
      ([':'].intercalate parts).map Char.toLower = [':'].intercalate parts := by
    intro parts hdigits
    induction parts with
    | nil => rfl
    | cons part rest ih =>
      have hpart := map_toLower_of_digits (hdigits part List.mem_cons_self)
      have hrest := ih fun part hp => hdigits part (List.mem_cons_of_mem _ hp)
      cases rest with
      | nil =>
        rw [List.intercalate_singleton]
        exact hpart
      | cons part' rest =>
        rw [List.intercalate_cons_cons, List.map_append, List.map_append, hpart, hrest]
        rfl
  unfold toAsciiLowercase macToString
  rw [String.toList_ofList]
  refine congrArg String.ofList (hparts _ fun part hp c hc => ?_)
  obtain ⟨b, -, rfl⟩ := List.mem_map.mp hp
  exact isDigit_of_mem_hexByte hc

/-! ### Case -/

/-- The lower case of a letter does not depend on its case. -/
theorem toLower_toUpper (c : Char) : c.toUpper.toLower = c.toLower := by
  unfold Char.toUpper
  split
  · next h =>
    have hlo : 97 ≤ c.val.toNat := UInt32.le_iff_toNat_le.mp h.1
    have hhi : c.val.toNat ≤ 122 := UInt32.le_iff_toNat_le.mp h.2
    have hupper : (c.val + ('A'.val - 'a'.val)).toNat = c.val.toNat - 32 := by
      rw [UInt32.toNat_add]
      show (c.val.toNat + 4294967264) % 2 ^ 32 = _
      omega
    have hback : c.val + ('A'.val - 'a'.val) + ('a'.val - 'A'.val) = c.val := by
      rw [UInt32.add_assoc]
      exact UInt32.add_zero c.val
    unfold Char.toLower
    rw [dif_pos, dif_neg]
    · exact Char.ext hback
    · rintro ⟨-, hle⟩
      have hle : c.val.toNat ≤ 90 := UInt32.le_iff_toNat_le.mp hle
      omega
    · constructor
      · refine UInt32.le_iff_toNat_le.mpr ?_
        rw [hupper]
        show 65 ≤ c.val.toNat - 32
        omega
      · refine UInt32.le_iff_toNat_le.mpr ?_
        rw [hupper]
        show c.val.toNat - 32 ≤ 90
        omega
  · rfl

theorem toLower_toLower (c : Char) : c.toLower.toLower = c.toLower := by
  unfold Char.toLower
  grind

/-! ### MAC addresses -/

theorem trim_of_digits {l : List Char} (h : ∀ c ∈ l, IsDigit c) : trim (.ofList l) = .ofList l := by
  have hkeep : ∀ l : List Char, (∀ c ∈ l, IsDigit c) → l.dropWhile isWhitespace = l := by
    intro l hl
    cases l with
    | nil => rfl
    | cons c rest =>
      exact List.dropWhile_cons_of_neg (ne_true_of_eq_false (hl c List.mem_cons_self).notSpace)
  unfold trim
  rw [String.toList_ofList, hkeep l h, hkeep _ fun c hc => h c (List.mem_reverse.mp hc),
    List.reverse_reverse]

theorem trim_trim (s : String) : trim (trim s) = trim s := by
  let front := s.toList.dropWhile isWhitespace
  let chars := front.rdropWhile isWhitespace
  have hfront : chars.dropWhile isWhitespace = chars := by
    obtain ⟨rest, hrest⟩ : chars <+: front := List.rdropWhile_prefix isWhitespace front
    cases hchars : chars with
    | nil => rfl
    | cons c cs =>
      -- the first character is the one that the front begins with
      have hhead := List.head?_dropWhile_not isWhitespace s.toList
      rw [show s.toList.dropWhile isWhitespace = (c :: cs) ++ rest by rw [← hchars, hrest]] at hhead
      have hc : isWhitespace c = false := by simpa using hhead
      exact List.dropWhile_cons_of_neg (ne_true_of_eq_false hc)
  have htrim : trim s = .ofList chars := rfl
  rw [htrim]
  show String.ofList (((String.ofList chars).toList.dropWhile isWhitespace).rdropWhile isWhitespace) = _
  rw [String.toList_ofList, hfront]
  exact congrArg String.ofList (List.rdropWhile_idempotent isWhitespace front)

/-- A text that is blank when trimmed is blank. -/
theorem isWhitespace_of_trim {s : String} (h : trim s = "") : ∀ c ∈ s.toList, isWhitespace c = true := by
  have hnil : (s.toList.dropWhile isWhitespace).reverse.dropWhile isWhitespace = [] := by
    have hlist := congrArg String.toList h
    unfold trim at hlist
    rw [String.toList_ofList] at hlist
    exact List.reverse_eq_nil_iff.mp hlist
  have hall := List.dropWhile_eq_nil_iff.mp hnil
  cases hdrop : s.toList.dropWhile isWhitespace with
  | nil => exact List.dropWhile_eq_nil_iff.mp hdrop
  | cons c rest =>
    -- what is left begins with a character that is not a space
    have hc : isWhitespace c = false := by
      have hhead := List.head?_dropWhile_not isWhitespace s.toList
      rw [hdrop] at hhead
      simpa using hhead
    rw [hdrop] at hall
    have hspace := hall c (List.mem_reverse.mpr List.mem_cons_self)
    rw [hc] at hspace
    cases hspace

theorem toLower_of_isWhitespace {c : Char} (h : isWhitespace c = true) : c.toLower = c := by
  unfold Char.toLower
  rw [dif_neg]
  rintro ⟨hlo, hhi⟩
  have hlo' : 65 ≤ c.toNat := hlo
  have hhi' : c.toNat ≤ 90 := hhi
  unfold isWhitespace at h
  simp only [Bool.or_eq_true, Bool.and_eq_true, decide_eq_true_eq] at h
  omega

/-- No spelling of a MAC address is blank. -/
theorem trim_ne_empty {s : String} {mac : Mac} (h : eqIgnoreAsciiCase s (macToString mac) = true) :
    trim s ≠ "" := by
  intro hblank
  have hlower : toAsciiLowercase s = macToString mac := by
    have hboth : toAsciiLowercase s = toAsciiLowercase (macToString mac) := of_decide_eq_true h
    rwa [toAsciiLowercase_macToString] at hboth
  have hchars : s.toList.map Char.toLower = (macToString mac).toList := by
    rw [← hlower]
    exact String.toList_ofList.symm
  obtain ⟨c, rest, hmac, hdigit⟩ : ∃ c rest, (macToString mac).toList = c :: rest ∧ IsDigit c := by
    obtain ⟨b, bytes, hbytes⟩ := List.exists_cons_of_length_eq_add_one (n := 5)
      (show mac.toList.length = 5 + 1 by rw [Vector.length_toList])
    have hparts : ∀ part parts, ∃ rest, [':'].intercalate (part :: parts) = part ++ rest := by
      intro part parts
      cases parts with
      | nil => exact ⟨[], by rw [List.intercalate_singleton, List.append_nil]⟩
      | cons part' parts => exact ⟨_, by rw [List.intercalate_cons_cons, List.append_assoc]⟩
    obtain ⟨rest, hrest⟩ := hparts (hexByte b) (bytes.map hexByte)
    refine ⟨Nat.digitChar (b.toNat / 16), Nat.digitChar (b.toNat % 16) :: rest, ?_,
      isDigit_of_mem_hexByte (b := b) List.mem_cons_self⟩
    unfold macToString
    rw [String.toList_ofList, hbytes, List.map_cons, hrest]
    rfl
  rw [hmac] at hchars
  obtain ⟨c', rest', hs, hc', -⟩ := List.map_eq_cons_iff.mp hchars
  have hspace := isWhitespace_of_trim hblank c' (by rw [hs]; exact List.mem_cons_self)
  rw [toLower_of_isWhitespace hspace] at hc'
  rw [hc', hdigit.notSpace] at hspace
  cases hspace

theorem parseUnsigned_hexByte (b : UInt8) :
    parseUnsigned 16 256 (.ofList (hexByte b)) = some b.toNat := by
  have hb := b.toNat_lt
  obtain ⟨hhi, hhi'⟩ := isDigit_digitChar (n := b.toNat / 16) (by omega)
  obtain ⟨-, hlo'⟩ := isDigit_digitChar (n := b.toNat % 16) (by omega)
  have hsign : (match hexByte b with
      | '+' :: rest => rest
      | cs => cs) = hexByte b := by
    unfold hexByte
    split
    · next heq => exact absurd (List.cons.inj heq).1 hhi.notPlus
    · rfl
  have hds : (hexByte b).map (fun c => (hexDigit c).filter (· < 16)) =
      [some (b.toNat / 16), some (b.toNat % 16)] := by
    have hlt : ∀ n < 16, (some n).filter (fun d => decide (d < 16)) = some n := fun n hn =>
      Option.filter_eq_some_iff.mpr ⟨rfl, decide_eq_true hn⟩
    unfold hexByte
    rw [List.map_cons, List.map_singleton, hhi', hlo', hlt _ (by omega), hlt _ (by omega)]
  unfold parseUnsigned
  rw [String.toList_ofList, hsign]
  dsimp only
  have hvalue : [some (b.toNat / 16), some (b.toNat % 16)].foldl
      (fun acc d => acc * 16 + d.getD 0) 0 = b.toNat := by
    show (0 * 16 + b.toNat / 16) * 16 + b.toNat % 16 = b.toNat
    omega
  rw [hds, if_neg (by simp [hexByte]), hvalue, if_pos hb]

theorem splitColons_intercalate (n : ℕ) (parts : List (List Char))
    (h : ∀ part ∈ parts, ':' ∉ part) (hlen : parts.length = n + 1) :
    splitColons (n + 1) ([':'].intercalate parts) = parts := by
  induction n generalizing parts with
  | zero =>
    obtain ⟨part, rfl⟩ := List.length_eq_one_iff.mp hlen
    rw [List.intercalate_singleton]
    rfl
  | succ n ih =>
    rcases parts with _ | ⟨part, _ | ⟨part', rest⟩⟩
    · simp at hlen
    · simp at hlen
    · have hpart : ∀ c ∈ part, decide (c ≠ ':') = true := fun c hc =>
        decide_eq_true fun heq => h part List.mem_cons_self (heq ▸ hc)
      have hcolon : ¬ decide (':' ≠ ':') = true := by decide
      have hrest := ih (part' :: rest) (fun p hp => h p (List.mem_cons_of_mem _ hp))
        (by rw [List.length_cons] at hlen; omega)
      rw [List.intercalate_cons_cons]
      unfold splitColons
      rw [List.append_assoc, List.dropWhile_append_of_pos hpart,
        List.takeWhile_append_of_pos hpart]
      show (part ++ (':' :: ([':'].intercalate (part' :: rest))).takeWhile _) ::
        splitColons (n + 1) ([':'].intercalate (part' :: rest)) = _
      rw [List.takeWhile_cons, if_neg hcolon, List.append_nil, hrest]

/-- **A MAC address is read back from its text.** -/
theorem macFromStr_macToString (mac : Mac) : macFromStr (macToString mac) = .ok mac := by
  have hparts : splitColons 6 (macToString mac).toList = mac.toList.map hexByte := by
    unfold macToString
    rw [String.toList_ofList]
    refine splitColons_intercalate 5 _ (fun part hp hc => ?_) ?_
    · obtain ⟨b, -, rfl⟩ := List.mem_map.mp hp
      exact (isDigit_of_mem_hexByte hc).notColon rfl
    · rw [List.length_map, Vector.length_toList]
  have hbyte : ∀ b : UInt8, parseUnsigned 16 256 (trim (.ofList (hexByte b))) = some b.toNat := by
    intro b
    rw [trim_of_digits fun c hc => isDigit_of_mem_hexByte hc, parseUnsigned_hexByte]
  have hread : ∀ bytes : List UInt8, ((bytes.map hexByte).map String.ofList).mapM
      (fun part => match parseUnsigned 16 256 (trim part) with
        | some n => Except.ok (UInt8.ofNat n)
        | none => Except.error s!"invalid hex in mac: {part}") = .ok bytes := by
    intro bytes
    induction bytes with
    | nil => rfl
    | cons b rest ih =>
      rw [List.map_cons, List.map_cons, List.mapM_cons, hbyte, ih]
      show Except.ok (UInt8.ofNat b.toNat :: rest) = _
      rw [UInt8.ofNat_toNat]
  unfold macFromStr
  dsimp only
  rw [hparts, if_neg (by simp), hread]
  refine congrArg Except.ok (Vector.ext fun i hi => ?_)
  rw [Vector.getElem_ofFn]
  simp [List.getD_eq_getElem?_getD, hi]

end BandixPlus.Net.Text
