import BandixPlus.Net.Text

/-! # The names of ring files

`persistence.rs`: a ring file is named after its interface, in hexadecimal, and for a device after its
MAC address too.

* `decodeComponent_encodeComponent`: the name of the interface is read back.
* `macHexToColon_macHex`: so is a MAC address that `mac_utils` wrote. -/

namespace BandixPlus.Persistence.Paths

open BandixPlus.Common BandixPlus.Net.Text

/-- An index is out of bounds. -/
inductive Panic where
  | panic

def encodeComponent (input : String) : String :=
  .ofList (input.toByteArray.data.toList.flatMap hexByte)

/-- The loop of `decode_component`, over pairs of characters; a last character without a second one is
an index out of bounds. -/
def decodePairs : List Char → Except Panic (Option (List UInt8))
  | [] => .ok (some [])
  | [_] => .error .panic
  | hi :: lo :: rest =>
    match u8FromHex hi lo with
    | none => .ok none
    | some v => (decodePairs rest).map fun bytes => bytes.map (v :: ·)

def decodeComponent (hex : String) : Except Panic (Option String) :=
  if hex = "" ∨ strLen hex % 2 ≠ 0 then .ok none
  else (decodePairs hex.toList).map fun bytes =>
    bytes.bind fun bytes => String.fromUTF8? ⟨bytes.toArray⟩

def normalizeMacHex (mac : String) : Option String :=
  let compact := toAsciiLowercase (.ofList (mac.toList.filter (· ≠ ':')))
  if strLen compact ≠ 12 ∨ ¬ compact.toList.all isHexDigit then none else some compact

def macHexToColon (hex : String) : Option String :=
  if strLen hex ≠ 12 ∨ ¬ hex.toList.all isHexDigit then none
  else
    let parts := (List.range 6).map fun i => ((hex.toList.drop (2 * i)).take 2).map Char.toLower
    some (.ofList ([':'].intercalate parts))

/-- `Path::file_stem`. -/
def fileStem (fileName : String) : String :=
  if fileName = ".." then fileName
  else
    match rsplitOnce fileName '.' with
    | none => fileName
    | some (before, _) => if before = "" then fileName else before

/-- `Path::extension`. -/
def extension (fileName : String) : Option String :=
  if fileName = ".." then none
  else
    match rsplitOnce fileName '.' with
    | none => none
    | some (before, after) => if before = "" then none else some after

def isRingFile (fileName : String) : Bool := extension fileName = some "ring"

def ifaceRingFile (ifaceName : String) : String := encodeComponent ifaceName ++ ".ring"

def deviceRingFile (ifaceName macHex : String) : String :=
  encodeComponent ifaceName ++ "-" ++ macHex ++ ".ring"

/-! ### Components -/

theorem decodePairs_flatMap (bytes : List UInt8) :
    decodePairs (bytes.flatMap hexByte) = .ok (some bytes) := by
  induction bytes with
  | nil => rfl
  | cons b rest ih =>
    show decodePairs (_ :: _ :: rest.flatMap hexByte) = _
    unfold decodePairs
    rw [u8FromHex_hexByte]
    dsimp only
    rw [ih]
    rfl

theorem encodeComponent_ne_empty {name : String} (h : name ≠ "") : encodeComponent name ≠ "" := by
  intro heq
  have hlist : (encodeComponent name).toList = [] := by rw [heq]; rfl
  unfold encodeComponent at hlist
  rw [String.toList_ofList, List.flatMap_eq_nil_iff] at hlist
  refine h (String.toByteArray_inj.mp (ByteArray.ext (Array.toList_inj.mp ?_)))
  cases hbytes : name.toByteArray.data.toList with
  | nil => rfl
  | cons b rest =>
    have := hlist b (by rw [hbytes]; exact List.mem_cons_self)
    cases this

theorem length_flatMap_hexByte (bytes : List UInt8) :
    (bytes.flatMap hexByte).length = 2 * bytes.length := by
  induction bytes with
  | nil => rfl
  | cons b rest ih =>
    rw [List.flatMap_cons, List.length_append, ih, List.length_cons]
    show 2 + _ = _
    omega

/-- **The name of an interface is read back from its file.** -/
theorem decodeComponent_encodeComponent {name : String} (h : name ≠ "") :
    decodeComponent (encodeComponent name) = .ok (some name) := by
  have hlen : strLen (encodeComponent name) % 2 = 0 := by
    unfold encodeComponent
    rw [strLen_of_digits fun c => isDigit_of_mem_flatMap, length_flatMap_hexByte]
    omega
  unfold decodeComponent
  rw [if_neg (not_or.mpr ⟨encodeComponent_ne_empty h, not_not.mpr hlen⟩)]
  unfold encodeComponent
  rw [String.toList_ofList, decodePairs_flatMap]
  have hutf8 : String.fromUTF8? name.toByteArray = some name := dif_pos name.isValidUTF8
  exact congrArg Except.ok hutf8

/-! ### MAC addresses -/

/-- The twelve digits of a MAC address. -/
def macHex (mac : Mac) : String := .ofList (mac.toList.flatMap hexByte)

theorem isDigit_of_mem_macHex {mac : Mac} {c : Char} (h : c ∈ (macHex mac).toList) : IsDigit c := by
  unfold macHex at h
  rw [String.toList_ofList] at h
  exact isDigit_of_mem_flatMap h

theorem length_macHex (mac : Mac) : (macHex mac).toList.length = 12 := by
  unfold macHex
  rw [String.toList_ofList, length_flatMap_hexByte, Vector.length_toList]

theorem macHex_ok (mac : Mac) :
    ¬ (strLen (macHex mac) ≠ 12 ∨ ¬ (macHex mac).toList.all isHexDigit = true) := by
  have hlen := strLen_of_digits fun c (hc : c ∈ (macHex mac).toList) => isDigit_of_mem_macHex hc
  rw [String.ofList_toList, length_macHex] at hlen
  rw [not_or, not_not, not_not]
  exact ⟨hlen, List.all_eq_true.mpr fun c hc => (isDigit_of_mem_macHex hc).hex⟩

theorem filter_colon (bytes : List (List Char)) (h : ∀ b ∈ bytes, ∀ c ∈ b, IsDigit c) :
    ([':'].intercalate bytes).filter (· ≠ ':') = bytes.flatten := by
  induction bytes with
  | nil => rfl
  | cons b rest ih =>
    have hb : b.filter (· ≠ ':') = b :=
      List.filter_eq_self.mpr fun c hc => decide_eq_true (h b List.mem_cons_self c hc).notColon
    have hrest := ih fun b hb => h b (List.mem_cons_of_mem _ hb)
    cases rest with
    | nil =>
      rw [List.intercalate_singleton, List.flatten_singleton]
      exact hb
    | cons b' rest =>
      have hcolon : [':'].filter (· ≠ ':') = [] := by decide
      rw [List.intercalate_cons_cons, List.filter_append, List.filter_append, hb, hrest, hcolon,
        List.append_nil, List.flatten_cons (L := b' :: rest)]

/-- **The digits of a MAC address that `mac_utils` wrote.** -/
theorem normalizeMacHex_macToString (mac : Mac) :
    normalizeMacHex (macToString mac) = some (macHex mac) := by
  have hcompact : toAsciiLowercase (.ofList ((macToString mac).toList.filter (· ≠ ':'))) =
      macHex mac := by
    unfold toAsciiLowercase macToString
    rw [String.toList_ofList, String.toList_ofList, filter_colon _ ?_]
    · exact congrArg String.ofList (map_toLower_of_digits fun c hc => isDigit_of_mem_flatMap hc)
    · intro b hb c hc
      obtain ⟨byte, -, rfl⟩ := List.mem_map.mp hb
      exact isDigit_of_mem_hexByte hc
  unfold normalizeMacHex
  rw [hcompact]
  exact if_neg (macHex_ok mac)

theorem pairs_flatMap (bytes : List UInt8) :
    (List.range bytes.length).map (fun i => ((bytes.flatMap hexByte).drop (2 * i)).take 2) =
      bytes.map hexByte := by
  induction bytes with
  | nil => rfl
  | cons b rest ih =>
    rw [List.length_cons, List.range_succ_eq_map, List.map_cons, List.map_map, List.map_cons, ← ih]
    rfl

/-- **They are read back as the address.** -/
theorem macHexToColon_macHex (mac : Mac) : macHexToColon (macHex mac) = some (macToString mac) := by
  unfold macHexToColon
  rw [if_neg (macHex_ok mac)]
  refine congrArg (fun parts => some (String.ofList ([':'].intercalate parts))) ?_
  have hdigits : ∀ i, (((macHex mac).toList.drop (2 * i)).take 2).map Char.toLower =
      ((macHex mac).toList.drop (2 * i)).take 2 := by
    intro i
    exact map_toLower_of_digits fun c hc =>
      isDigit_of_mem_macHex (List.mem_of_mem_drop (List.mem_of_mem_take hc))
  simp only [hdigits]
  have hpairs := pairs_flatMap mac.toList
  rw [Vector.length_toList] at hpairs
  unfold macHex
  rw [String.toList_ofList]
  exact hpairs

/-! ### File names -/

theorem fileStem_append {stem : String} (h : stem ≠ "") :
    fileStem (stem ++ ".ring") = stem ∧ extension (stem ++ ".ring") = some "ring" := by
  have hchars : (stem ++ ".ring").toList = stem.toList ++ '.' :: ['r', 'i', 'n', 'g'] :=
    String.toList_append
  have hsplit : rsplitOnce (stem ++ ".ring") '.' = some (stem, "ring") := by
    unfold rsplitOnce
    rw [hchars, rsplitOnceChars_append _ (by decide), Option.map_some]
    dsimp only
    rw [String.ofList_toList]
  have hdots : stem ++ ".ring" ≠ ".." := by
    intro heq
    have hlast := congrArg (fun s : String => s.toList.getLast?) heq
    rw [hchars, List.getLast?_append] at hlast
    cases hlast
  unfold fileStem extension
  rw [if_neg hdots, if_neg hdots, hsplit]
  exact ⟨if_neg h, if_neg h⟩

theorem append_ne_empty {s : String} (h : s ≠ "") (t : String) : s ++ t ≠ "" := by
  intro heq
  refine h (String.toList_inj.mp ?_)
  have hlist : (s ++ t).toList = [] := by rw [heq]; rfl
  rw [String.toList_append] at hlist
  exact (List.append_eq_nil_iff.mp hlist).1

/-- The stem of a device's file is split at its last dash. -/
theorem rsplitOnce_deviceStem (ifaceName : String) (mac : Mac) :
    rsplitOnce (encodeComponent ifaceName ++ "-" ++ macHex mac) '-' =
      some (encodeComponent ifaceName, macHex mac) := by
  have hchars : (encodeComponent ifaceName ++ "-" ++ macHex mac).toList =
      (encodeComponent ifaceName).toList ++ '-' :: (macHex mac).toList := by
    rw [String.toList_append, String.toList_append, List.append_assoc]
    rfl
  unfold rsplitOnce
  rw [hchars, rsplitOnceChars_append _ fun h => (isDigit_of_mem_macHex h).notDash rfl]
  rw [Option.map_some]
  dsimp only
  rw [String.ofList_toList, String.ofList_toList]

end BandixPlus.Persistence.Paths
