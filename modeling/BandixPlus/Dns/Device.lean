import BandixPlus.Dns.Monitor
import BandixPlus.Monitor.Session

/-! # Whose traffic it is

`dns.rs`, `resolve_device`: the device that a DNS packet is entered under, by the MAC address of the
packet and by the address of the client, each of which the registry may know or not.

* `uniqueMatch_values`: what the search of a map by its values finds, in any order.
* `resolveDevice_sound`: the order of the registry does not matter, and the answer is a device that has
  the address of the client, or that of the MAC address of the packet where nothing speaks against it. -/

namespace BandixPlus.Dns.Device

open BandixPlus.Common BandixPlus.Dns.Monitor BandixPlus.Lib.Maps BandixPlus.Monitor.Runtime
open BandixPlus.Monitor.Session BandixPlus.Monitor.Topology BandixPlus.Net.Addresses
open BandixPlus.Net.Text

/-! ### The search -/

/-- The only element that satisfies `p`: the first one, if there is no second. -/
def uniqueMatch {α : Type} (p : α → Bool) (l : List α) : Option α :=
  match l.filter p with
  | [a] => some a
  | _ => none

def ownsIp (ipText : String) (known : KnownDevice) : Bool :=
  known.ipv4.any (· = ipText) || known.ipv6.any (· = ipText)

def identityOf (known : KnownDevice) : DeviceIdentity where
  mac := macToString known.mac
  name := known.hostname
  iface := known.logicalIface

section
variable (o : IterOrder) (registry : HashMap DeviceKey KnownDevice) (topology : TopologySnapshot)
  (header : DnsPacketHeader) (clientIp : IpAddr)

/-- The known device of the MAC address of the packet, unless it has other addresses only. -/
def byMac : Option KnownDevice :=
  (if header.hasMac ≠ 0 then registry.lookup (header.ifindex, header.mac) else none).filter fun known =>
    (known.ipv4.isEmpty && known.ipv6.isEmpty) || ownsIp clientIp.toString known

def uniqueIpMatch : Option KnownDevice :=
  uniqueMatch (ownsIp clientIp.toString) ((o.order registry.entries).map fun e => e.2)

def knownMacBelongsToAnotherIp : Bool :=
  header.hasMac ≠ 0 && (registry.lookup (header.ifindex, header.mac)).any fun known =>
    !ownsIp clientIp.toString known && (!known.ipv4.isEmpty || !known.ipv6.isEmpty)

def resolveDevice : DeviceIdentity :=
  match (byMac registry header clientIp).or (uniqueIpMatch o registry clientIp) with
  | some known => identityOf known
  | none =>
    { mac := if header.hasMac ≠ 0 ∧ !knownMacBelongsToAnotherIp registry header clientIp then
        macToString header.mac else ""
      name := ""
      iface := ((topology.byIfindex header.ifindex).map Interface.name).getD "" }

end

/-! ### What is found -/

section
variable {α K V : Type} [DecidableEq K] {p : α → Bool} {q : V → Bool}

theorem uniqueMatch_eq_some {l : List α} {a : α} : uniqueMatch p l = some a ↔ l.filter p = [a] := by
  unfold uniqueMatch
  split
  · next b hb => rw [hb]; simp
  · next hb =>
    constructor
    · intro h
      cases h
    · intro h
      exact absurd h (hb a)

theorem uniqueMatch_perm {l l' : List α} (h : l.Perm l') : uniqueMatch p l = uniqueMatch p l' := by
  refine Option.ext fun a => ?_
  rw [uniqueMatch_eq_some, uniqueMatch_eq_some]
  constructor
  · intro heq
    exact List.perm_singleton.mp (heq ▸ (h.filter p).symm)
  · intro heq
    exact List.perm_singleton.mp (heq ▸ h.filter p)

/-- **A value of a map is found if and only if no other key has one that could be.** -/
theorem uniqueMatch_values {m : HashMap K V} {v : V} (o : IterOrder) :
    uniqueMatch q ((o.order m.entries).map fun e => e.2) = some v ↔
      ∃ k, m.lookup k = some v ∧ q v = true ∧
        ∀ k' v', m.lookup k' = some v' → q v' = true → k' = k := by
  rw [uniqueMatch_perm ((o.perm m.entries).map _), uniqueMatch_eq_some, List.filter_map]
  constructor
  · intro heq
    obtain ⟨⟨k, v₀⟩, hfilter, hv⟩ := List.map_eq_singleton_iff.mp heq
    have hmem : ∀ e, e ∈ m.entries ∧ q e.2 = true ↔ e = ⟨k, v₀⟩ := by
      intro e
      have hiff := @List.mem_singleton _ e ⟨k, v₀⟩
      rw [← hfilter, List.mem_filter] at hiff
      exact hiff
    obtain ⟨hentry, hq⟩ := (hmem ⟨k, v₀⟩).mpr rfl
    subst hv
    refine ⟨k, mem_entries_iff.mp hentry, hq, fun k' v' hk' hv' => ?_⟩
    exact congrArg Sigma.fst ((hmem ⟨k', v'⟩).mp ⟨mem_entries_iff.mpr hk', hv'⟩)
  · rintro ⟨k, hk, hq, hall⟩
    have hnodup : (m.entries.filter (q ∘ fun e => e.2)).Nodup := m.nodupKeys.nodup.filter _
    have honly : ∀ e ∈ m.entries.filter (q ∘ fun e => e.2), e = ⟨k, v⟩ := by
      rintro ⟨k', v'⟩ he
      obtain ⟨hmem, hv'⟩ := List.mem_filter.mp he
      have hlookup := mem_entries_iff.mp hmem
      obtain rfl := hall k' v' hlookup hv'
      rw [hk, Option.some.injEq] at hlookup
      rw [hlookup]
    have hmem : (⟨k, v⟩ : Σ _ : K, V) ∈ m.entries.filter (q ∘ fun e => e.2) :=
      List.mem_filter.mpr ⟨mem_entries_iff.mpr hk, hq⟩
    refine List.map_eq_singleton_iff.mpr ⟨⟨k, v⟩, ?_, rfl⟩
    cases hl : m.entries.filter (q ∘ fun e => e.2) with
    | nil => rw [hl] at hmem; cases hmem
    | cons e rest =>
      rw [hl] at hnodup honly
      rcases rest with - | ⟨e', rest⟩
      · rw [honly e List.mem_cons_self]
      · simp [honly e (by simp), honly e' (by simp)] at hnodup

end

/-! ### Attribution -/

/-- The device has the address, and shows it as text. -/
def Lists (known : KnownDevice) (ip : IpAddr) : Prop :=
  ip.toString ∈ known.ipv4 ∨ ip.toString ∈ known.ipv6

def ListsNothing (known : KnownDevice) : Prop := known.ipv4 = [] ∧ known.ipv6 = []

section
variable (o : IterOrder) (registry : HashMap DeviceKey KnownDevice) (topology : TopologySnapshot)
  (header : DnsPacketHeader) (ip : IpAddr)

/-- The known device of the MAC address of the packet, with nothing that speaks against it. -/
def Fits (known : KnownDevice) : Prop :=
  header.hasMac ≠ 0 ∧ registry.lookup (header.ifindex, header.mac) = some known ∧
    (Lists known ip ∨ ListsNothing known)

/-- No other entry has the address. -/
def OnlyLister (known : KnownDevice) : Prop :=
  ∃ key, registry.lookup key = some known ∧ Lists known ip ∧
    ∀ key' known', registry.lookup key' = some known' → Lists known' ip → key' = key

/-- **Attribution that is sound**, and the same in every order. -/
structure Sound : Prop where
  order : ∀ o', resolveDevice o' registry topology header ip =
    resolveDevice o registry topology header ip
  mac : (resolveDevice o registry topology header ip).mac ≠ "" →
    (∃ key known, registry.lookup key = some known ∧ Lists known ip ∧
      (resolveDevice o registry topology header ip).mac = macToString known.mac) ∨
    header.hasMac ≠ 0 ∧ (resolveDevice o registry topology header ip).mac = macToString header.mac ∧
      ∀ known, registry.lookup (header.ifindex, header.mac) = some known → ListsNothing known
  byMac : ∀ known, Fits registry header ip known →
    resolveDevice o registry topology header ip = identityOf known
  byIp : (∀ known, ¬ Fits registry header ip known) → ∀ known, OnlyLister registry ip known →
    resolveDevice o registry topology header ip = identityOf known

end

section
variable {o : IterOrder} {registry : HashMap DeviceKey KnownDevice} {header : DnsPacketHeader}
  {ip : IpAddr} {known : KnownDevice}

theorem ownsIp_iff : ownsIp ip.toString known = true ↔ Lists known ip := by
  simp [ownsIp, Lists]

theorem noAddress_iff : (known.ipv4.isEmpty && known.ipv6.isEmpty) = true ↔ ListsNothing known := by
  simp [ListsNothing]

theorem byMac_eq_some : byMac registry header ip = some known ↔ Fits registry header ip known := by
  unfold byMac Fits
  rw [Option.filter_eq_some_iff, Bool.or_eq_true, noAddress_iff, ownsIp_iff, or_comm,
    Option.ite_none_right_eq_some, and_assoc]

theorem uniqueIpMatch_eq_some : uniqueIpMatch o registry ip = some known ↔ OnlyLister registry ip known := by
  unfold uniqueIpMatch OnlyLister
  rw [uniqueMatch_values]
  simp only [ownsIp_iff]

theorem uniqueIpMatch_order (o o' : IterOrder) (registry : HashMap DeviceKey KnownDevice) (ip : IpAddr) :
    uniqueIpMatch o registry ip = uniqueIpMatch o' registry ip := by
  refine Option.ext fun known => ?_
  rw [uniqueIpMatch_eq_some, uniqueIpMatch_eq_some]

/-- Where the MAC address is not vetoed and its device not chosen, it is unknown. -/
theorem unknown_of_not_vetoed (hmac : header.hasMac ≠ 0) (hnone : ∀ known, ¬ Fits registry header ip known)
    (hveto : knownMacBelongsToAnotherIp registry header ip = false) :
    registry.lookup (header.ifindex, header.mac) = none := by
  refine Option.eq_none_iff_forall_ne_some.mpr fun known hlookup => ?_
  have hlists : ¬ Lists known ip ∧ ¬ ListsNothing known := by
    rw [← not_or]
    exact fun h => hnone known ⟨hmac, hlookup, h⟩
  have howns : ownsIp ip.toString known = false := by
    rw [← Bool.not_eq_true, ownsIp_iff]
    exact hlists.1
  have haddress : (!known.ipv4.isEmpty || !known.ipv6.isEmpty) = true := by
    rw [← Bool.not_and, Bool.not_eq_true', ← Bool.not_eq_true, noAddress_iff]
    exact hlists.2
  unfold knownMacBelongsToAnotherIp at hveto
  simp [hmac, hlookup, howns, haddress] at hveto

end

/-- **Attribution is sound, in every order of the registry.** -/
theorem resolveDevice_sound (o : IterOrder) (registry : HashMap DeviceKey KnownDevice)
    (hkeyed : Keyed registry) (topology : TopologySnapshot) (header : DnsPacketHeader) (ip : IpAddr) :
    Sound o registry topology header ip := by
  have hfits : ∀ known, Fits registry header ip known →
      resolveDevice o registry topology header ip = identityOf known := by
    intro known h
    unfold resolveDevice
    rw [byMac_eq_some.mpr h]
    rfl
  have honly : (∀ known, ¬ Fits registry header ip known) → ∀ known, OnlyLister registry ip known →
      resolveDevice o registry topology header ip = identityOf known := by
    intro hnone known h
    have hmac : byMac registry header ip = none :=
      Option.eq_none_iff_forall_ne_some.mpr fun k hk => hnone k (byMac_eq_some.mp hk)
    unfold resolveDevice
    rw [hmac, uniqueIpMatch_eq_some.mpr h]
    rfl
  refine ⟨fun o' => ?_, fun hne => ?_, hfits, honly⟩
  · unfold resolveDevice
    rw [uniqueIpMatch_order o' o]
  · by_cases hfit : ∃ known, Fits registry header ip known
    · obtain ⟨known, hfit⟩ := hfit
      rw [hfits known hfit]
      obtain ⟨hmac, hlookup, hlists | hnothing⟩ := hfit
      · exact Or.inl ⟨_, known, hlookup, hlists, rfl⟩
      · refine Or.inr ⟨hmac, ?_, fun known' hlookup' => ?_⟩
        · exact congrArg macToString (hkeyed _ known hlookup).2
        · rw [hlookup, Option.some.injEq] at hlookup'
          exact hlookup' ▸ hnothing
    by_cases hlister : ∃ known, OnlyLister registry ip known
    · obtain ⟨known, hlister⟩ := hlister
      rw [honly (not_exists.mp hfit) known hlister]
      obtain ⟨key, hlookup, hlists, -⟩ := hlister
      exact Or.inl ⟨key, known, hlookup, hlists, rfl⟩
    · -- nothing is chosen, the MAC address of the packet is all there is
      have hmac : byMac registry header ip = none :=
        Option.eq_none_iff_forall_ne_some.mpr fun k hk => hfit ⟨k, byMac_eq_some.mp hk⟩
      have hip : uniqueIpMatch o registry ip = none :=
        Option.eq_none_iff_forall_ne_some.mpr fun k hk => hlister ⟨k, uniqueIpMatch_eq_some.mp hk⟩
      unfold resolveDevice at hne ⊢
      rw [hmac, hip] at hne ⊢
      simp only [Option.or_none] at hne ⊢
      split_ifs at hne ⊢ with hheader
      · obtain ⟨hhas, hveto⟩ := hheader
        have hunknown := unknown_of_not_vetoed hhas (not_exists.mp hfit) (by simpa using hveto)
        refine Or.inr ⟨hhas, rfl, fun known hlookup => ?_⟩
        rw [hunknown] at hlookup
        cases hlookup
      · exact absurd rfl hne

section Sample

def printer : KnownDevice where
  ifindex := 7
  mac := .replicate 6 2
  ipv4 := ["192.168.7.20"]
  ipv6 := []
  hostname := "printer"
  logicalIface := "lan"
  subnet := "192.168.7.0/24"
  lastSeenMs := 0

/-- It had the address of the printer before, and has no other entry. -/
def scanner : KnownDevice :=
  { printer with
    mac := .replicate 6 6
    hostname := "scanner" }

/-- Two devices that list one address. -/
def printerRegistry : HashMap DeviceKey KnownDevice :=
  (AList.insert (7, printer.mac) printer ∅).insert (7, scanner.mac) scanner

def printerHeader : DnsPacketHeader where
  timestampNs := 0
  ifindex := 7
  capturedLen := 0
  ipOffset := 0
  ipVersion := 4
  direction := 1
  mac := printer.mac
  hasMac := 1

theorem resolveDevice_sound_printer :
    Sound .listed printerRegistry (.ofInterfaces []) printerHeader (.v4 0xC0A80714) :=
  resolveDevice_sound .listed printerRegistry (keyed_insert (keyed_insert keyed_empty ⟨rfl, rfl⟩) ⟨rfl, rfl⟩)
    (.ofInterfaces []) printerHeader (.v4 0xC0A80714)

/-- A packet with the MAC address of the printer and another address is not the printer's. -/
example : (resolveDevice .listed printerRegistry (.ofInterfaces []) printerHeader
    (.v4 0xC0A80715)).mac = "" := by
  decide

end Sample

end BandixPlus.Dns.Device
