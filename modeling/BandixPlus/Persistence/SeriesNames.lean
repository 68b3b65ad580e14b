import BandixPlus.Persistence.Paths

/-! # Ring files and their series

* `macHex_of_normalizeMacHex`: every accepted spelling of a MAC address is read as one address.
* `stems_identify`: the stem of a ring file gives back its series, so that no two share a ring. -/

namespace BandixPlus.Persistence.SeriesNames

open BandixPlus.Common BandixPlus.Net.Text BandixPlus.Persistence.Paths

/-! ### Spellings of a MAC address -/

/-- In lower case, a digit is one of sixteen characters. -/
theorem isDigit_of_lower {c : Char} (hhex : isHexDigit c = true) (hlower : c.toLower = c) :
    IsDigit c := by
  obtain ⟨n, hn⟩ := Option.isSome_iff_exists.mp hhex
  obtain ⟨hlt, hc, -⟩ := digit_of_hexDigit hn
  rw [hlower] at hc
  rw [hc]
  exact (isDigit_digitChar hlt).1

/-- **The twelve digits are those of an address.** -/
theorem macHex_of_normalizeMacHex {mac hex : String} (h : normalizeMacHex mac = some hex) :
    ∃ m : Mac, hex = macHex m := by
  unfold normalizeMacHex at h
  dsimp only at h
  split_ifs at h with hok
  obtain ⟨hlen, hall⟩ := not_or.mp hok
  rw [not_not] at hlen hall
  have hhex : toAsciiLowercase (.ofList (mac.toList.filter (· ≠ ':'))) = hex := Option.some.inj h
  rw [hhex] at hlen hall
  have hdigits : ∀ c ∈ hex.toList, IsDigit c := by
    intro c hc
    have hlower : c.toLower = c := by
      rw [← hhex] at hc
      unfold toAsciiLowercase at hc
      rw [String.toList_ofList] at hc
      obtain ⟨c', -, rfl⟩ := List.mem_map.mp hc
      exact toLower_toLower c'
    exact isDigit_of_lower (List.all_eq_true.mp hall c hc) hlower
  have hsize := strLen_of_digits hdigits
  rw [String.ofList_toList, hlen] at hsize
  obtain ⟨bytes, hbytes, hchars⟩ := exists_bytes_of_digits (n := 6) hdigits hsize.symm
  refine ⟨⟨bytes.toArray, by rw [List.size_toArray, hbytes]⟩, ?_⟩
  rw [← String.ofList_toList (s := hex), hchars]
  rfl

/-! ### Stems -/

section Stems

variable {ifaceName : String} (hname : ifaceName ≠ "")
include hname

theorem fileStem_ifaceRingFile : fileStem (ifaceRingFile ifaceName) = encodeComponent ifaceName :=
  (fileStem_append (encodeComponent_ne_empty hname)).1

theorem fileStem_deviceRingFile (macHex : String) :
    fileStem (deviceRingFile ifaceName macHex) = encodeComponent ifaceName ++ "-" ++ macHex :=
  (fileStem_append (append_ne_empty (append_ne_empty (encodeComponent_ne_empty hname) _) _)).1

/-- Two names are not encoded in the same way. -/
theorem encodeComponent_inj {other : String} (hother : other ≠ "")
    (h : encodeComponent ifaceName = encodeComponent other) : ifaceName = other := by
  have hread := decodeComponent_encodeComponent hname
  rw [h, decodeComponent_encodeComponent hother, Except.ok.injEq, Option.some.injEq] at hread
  exact hread.symm

end Stems

/-- **A ring file identifies its series**: the name and the address are read back from its stem, and two
series have the same stem only if both are the same. -/
theorem stems_identify {ifaceName mac hex : String} (hname : ifaceName ≠ "")
    (hmac : normalizeMacHex mac = some hex) :
    decodeComponent (fileStem (ifaceRingFile ifaceName)) = .ok (some ifaceName) ∧
      (∃ m : Mac, hex = macHex m ∧ ∃ ifaceHex,
        rsplitOnce (fileStem (deviceRingFile ifaceName hex)) '-' = some (ifaceHex, hex) ∧
          decodeComponent ifaceHex = .ok (some ifaceName) ∧
          macHexToColon hex = some (macToString m)) ∧
      ∀ other mac' hex', other ≠ "" → normalizeMacHex mac' = some hex' →
        (fileStem (deviceRingFile ifaceName hex) = fileStem (deviceRingFile other hex') ↔
          ifaceName = other ∧ hex = hex') := by
  obtain ⟨m, rfl⟩ := macHex_of_normalizeMacHex hmac
  refine ⟨?_, ⟨m, rfl, encodeComponent ifaceName, ?_, decodeComponent_encodeComponent hname,
    macHexToColon_macHex m⟩, ?_⟩
  · rw [fileStem_ifaceRingFile hname]
    exact decodeComponent_encodeComponent hname
  · rw [fileStem_deviceRingFile hname]
    exact rsplitOnce_deviceStem ifaceName m
  · intro other mac' hex' hother hmac'
    obtain ⟨m', rfl⟩ := macHex_of_normalizeMacHex hmac'
    rw [fileStem_deviceRingFile hname, fileStem_deviceRingFile hother]
    constructor
    · intro hstems
      have hsplit := rsplitOnce_deviceStem ifaceName m
      rw [hstems, rsplitOnce_deviceStem other m', Option.some.injEq, Prod.mk.injEq] at hsplit
      exact ⟨encodeComponent_inj hname hother hsplit.1.symm, hsplit.2.symm⟩
    · rintro ⟨rfl, hhex⟩
      rw [hhex]

/-- A name with a dash and a dot, and an address in upper case. -/
theorem stems_identify_dashed :
    decodeComponent (fileStem (ifaceRingFile "br-lan.10")) = .ok (some "br-lan.10") ∧
      (∃ m : Mac, "02aabbccddee" = macHex m ∧ ∃ ifaceHex,
        rsplitOnce (fileStem (deviceRingFile "br-lan.10" "02aabbccddee")) '-' =
            some (ifaceHex, "02aabbccddee") ∧
          decodeComponent ifaceHex = .ok (some "br-lan.10") ∧
          macHexToColon "02aabbccddee" = some (macToString m)) ∧
      ∀ other mac' hex', other ≠ "" → normalizeMacHex mac' = some hex' →
        (fileStem (deviceRingFile "br-lan.10" "02aabbccddee") = fileStem (deviceRingFile other hex') ↔
          "br-lan.10" = other ∧ "02aabbccddee" = hex') :=
  stems_identify (by decide)
    (show normalizeMacHex "02:AA:BB:CC:DD:EE" = some "02aabbccddee" by decide +kernel)

end BandixPlus.Persistence.SeriesNames
