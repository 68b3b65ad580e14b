import BandixPlus.Monitor.Cumulative
import BandixPlus.Monitor.Ownership

/-! # Hardware bytes are attributed once

* `Attributed`: after some counters of a tick, what each place got is the sum of the deltas that belong
  there.
* `attributed_hardware`: so it is after all of them, for every reachable state.
* `ecm_attributed_once`: hence the deltas are those of the own addresses of the WAN side, the WAN side,
  the global entry and the LAN interfaces; and a LAN interface has what its devices and its unresolved
  traffic have.
* `ecm_attributed_twice`: an interface under the reserved index of the global entry breaks this. -/

namespace BandixPlus.Monitor.Conservation

open BandixPlus.Common BandixPlus.Lib.Maps BandixPlus.Lib.Saturating
open BandixPlus.Monitor.Counters BandixPlus.Monitor.Snapshot BandixPlus.Monitor.Topology
open BandixPlus.Monitor.Runtime BandixPlus.Monitor.Interfaces BandixPlus.Monitor.Devices
open BandixPlus.Monitor.Ecm BandixPlus.Monitor.Collect BandixPlus.Monitor.Session
open BandixPlus.Monitor.Registry BandixPlus.Monitor.Cumulative BandixPlus.Monitor.Group
open BandixPlus.Monitor.Ownership (ownerAt)
open BandixPlus.Net.Addresses BandixPlus.Net.Text

/-! ### The own addresses of the WAN side -/

/-- The IPv4 address of a key, its first word. -/
def addressV4 (key : EcmTrafficKey) : UInt32 := key.ip.head

/-- An IPv4 address of an interface of the zone `wan`. -/
def OwnAddressV4 (topology : TopologySnapshot) (ip : UInt32) : Prop :=
  ∃ iface ∈ topology.interfaces, iface.zone = "wan" ∧
    ∃ cidr ∈ iface.ipv4Cidrs, parseIpv4 (beforeChar cidr '/') = some ip

/-- An IPv6 address of an interface of the zone `wan`, which may be written with its scope. -/
def OwnAddressV6 (topology : TopologySnapshot) (words : IpWords) : Prop :=
  ∃ iface ∈ topology.interfaces, iface.zone = "wan" ∧
    ∃ cidr ∈ iface.ipv6Cidrs,
      (parseIpv6 (beforeChar (beforeChar cidr '%') '/')).map v6Words = some words

/-- **The address of the key is an own address of the WAN side.** -/
def OwnAddress (topology : TopologySnapshot) (key : EcmTrafficKey) : Prop :=
  (key.ipVersion = 4 ∧ OwnAddressV4 topology (addressV4 key)) ∨
    (key.ipVersion = 6 ∧ OwnAddressV6 topology key.ip)

instance (topology : TopologySnapshot) (key : EcmTrafficKey) : Decidable (OwnAddress topology key) := by
  unfold OwnAddress OwnAddressV4 OwnAddressV6; infer_instance

theorem mem_wanV4Ips {topology : TopologySnapshot} {ip : UInt32} :
    ip ∈ (subnetsOf topology).wanV4Ips ↔ OwnAddressV4 topology ip := by
  unfold subnetsOf OwnAddressV4
  simp only [List.mem_filterMap, List.mem_flatMap, List.mem_filter, decide_eq_true_eq]
  constructor
  · rintro ⟨cidr, ⟨iface, ⟨hmem, hzone⟩, hcidr⟩, hip⟩
    exact ⟨iface, hmem, hzone, cidr, hcidr, hip⟩
  · rintro ⟨iface, hmem, hzone, cidr, hcidr, hip⟩
    exact ⟨cidr, ⟨iface, ⟨hmem, hzone⟩, hcidr⟩, hip⟩

theorem mem_wanV6Ips {topology : TopologySnapshot} {words : IpWords} :
    words ∈ (subnetsOf topology).wanV6Ips ↔ OwnAddressV6 topology words := by
  unfold subnetsOf OwnAddressV6
  simp only [List.mem_filterMap, List.mem_flatMap, List.mem_filter, decide_eq_true_eq]
  constructor
  · rintro ⟨cidr, ⟨iface, ⟨hmem, hzone⟩, hcidr⟩, hip⟩
    exact ⟨iface, hmem, hzone, cidr, hcidr, hip⟩
  · rintro ⟨iface, hmem, hzone, cidr, hcidr, hip⟩
    exact ⟨cidr, ⟨iface, ⟨hmem, hzone⟩, hcidr⟩, hip⟩

/-! ### Kinds of attributions -/

def isSkipped : Attribution → Bool
  | .ownWan => true
  | _ => false

def isExternal : Attribution → Bool
  | .external => true
  | _ => false

def isLan : Attribution → Bool
  | .owner _ => true
  | .subnet _ => true
  | _ => false

/-- LAN traffic of an interface. -/
def isLanOf (ifindex : UInt32) : Attribution → Bool
  | .owner device => device.1 = ifindex
  | .subnet i => i = ifindex
  | _ => false

/-- Unresolved traffic under a key. -/
def isUnresolvedOf (ifindex : UInt32) : Attribution → Bool
  | .subnet i => i = ifindex
  | .global => ecmUnresolvedGlobalKey = ifindex
  | _ => false

def isOwnedBy (key : DeviceKey) : Attribution → Bool
  | .owner device => device = key
  | _ => false

/-- Traffic of the devices on an interface. -/
def isOwnedOn (ifindex : UInt32) : Attribution → Bool
  | .owner device => device.1 = ifindex
  | _ => false

/-! ### Bytes of a lane -/

/-- The lane of the same IP version and the other direction. -/
def inverted : Lane → Lane
  | .upV4 => .downV4
  | .downV4 => .upV4
  | .upV6 => .downV6
  | .downV6 => .upV6

/-- The bytes of a lane. -/
def laneBytes (l : Lane) (q : CounterQuad) : ℕ := (q.bytes.get l).toNat

/-- The bytes of a lane under an interface. -/
def laneUnder (l : Lane) (m : HashMap UInt32 CounterQuad) (ifindex : UInt32) : ℕ :=
  laneBytes l ((m.lookup ifindex).getD .zero)

/-- The bytes of a lane of a device; a device that is not there has none. -/
def deviceBytes (l : Lane) (devices : DevicesGroup) (key : DeviceKey) : ℕ :=
  ((devices.lookup key).map fun item => laneBytes l item.metrics).getD 0

/-- The bytes of a lane of the devices on an interface. -/
def devicesOn (l : Lane) (devices : DevicesGroup) (ifindex : UInt32) : ℕ :=
  sumOver (fun key item => if key.1 = ifindex then laneBytes l item.metrics else 0) devices

/-- What a delta adds to a lane. -/
def laneAmount (l : Lane) (key : EcmTrafficKey) (delta : UInt64) : ℕ :=
  if laneOf key.ipVersion key.direction = some l then delta.toNat else 0

theorem laneAmount_zero (l : Lane) (key : EcmTrafficKey) : laneAmount l key 0 = 0 := by
  unfold laneAmount
  split_ifs <;> rfl

theorem laneOf_inverted (ipVersion direction : UInt8) (l : Lane) :
    laneOf ipVersion (invertedDir direction) = some (inverted l) ↔
      laneOf ipVersion direction = some l := by
  unfold laneOf invertedDir
  by_cases hin : direction = TrafficDirection.ingress
  · subst hin
    rw [if_pos rfl]
    by_cases h4 : ipVersion = IpVersion.v4
    · subst h4
      cases l <;> decide
    · by_cases h6 : ipVersion = IpVersion.v6
      · subst h6
        cases l <;> decide
      · simp [h4, h6]
  · by_cases hout : direction = TrafficDirection.egress
    · subst hout
      rw [if_neg hin, if_pos rfl]
      by_cases h4 : ipVersion = IpVersion.v4
      · subst h4
        cases l <;> decide
      · by_cases h6 : ipVersion = IpVersion.v6
        · subst h6
          cases l <;> decide
        · simp [h4, h6]
    · simp [hin, hout]

theorem laneBytes_lt (l : Lane) (q : CounterQuad) : laneBytes l q < 2 ^ 64 := (q.bytes.get l).toNat_lt

/-- A delta is added to its lane, up to the largest value. -/
theorem laneBytes_fillQuad_min (l : Lane) (ipVersion direction : UInt8) (q : CounterQuad)
    (delta : UInt64) (sec : Float) :
    laneBytes l (fillQuad ipVersion direction q delta sec) = min
      (laneBytes l q + if laneOf ipVersion direction = some l then delta.toNat else 0) (2 ^ 64 - 1) := by
  have hlt := laneBytes_lt l q
  unfold fillQuad
  cases hlane : laneOf ipVersion direction with
  | none =>
    rw [if_neg (Option.some_ne_none l ∘ Eq.symm)]
    show laneBytes l q = _
    omega
  | some l' =>
    show ((raise q.bytes l' delta).get l).toNat = _
    unfold raise laneBytes at *
    rw [Quad.get_modify]
    by_cases hl : l = l'
    · rw [if_pos hl, toNat_satAdd, if_pos (congrArg some hl.symm)]
    · rw [if_neg hl, if_neg fun h => hl (Option.some.inj h).symm]
      omega

theorem laneBytes_fillQuad {l : Lane} {key : EcmTrafficKey} {q : CounterQuad} {delta : UInt64}
    (hfits : laneBytes l q + laneAmount l key delta < 2 ^ 64) (sec : Float) :
    laneBytes l (fillQuad key.ipVersion key.direction q delta sec) =
      laneBytes l q + laneAmount l key delta := by
  have hmin := laneBytes_fillQuad_min l key.ipVersion key.direction q delta sec
  unfold laneAmount at *
  omega

theorem laneBytes_fillQuadWan {l : Lane} {key : EcmTrafficKey} {q : CounterQuad} {delta : UInt64}
    (hfits : laneBytes (inverted l) q + laneAmount l key delta < 2 ^ 64) (sec : Float) :
    laneBytes (inverted l) (fillQuadWan key.ipVersion key.direction q delta sec) =
      laneBytes (inverted l) q + laneAmount l key delta := by
  have hamount : laneAmount (inverted l) { key with direction := invertedDir key.direction } delta =
      laneAmount l key delta := by
    unfold laneAmount
    exact if_congr (laneOf_inverted _ _ _) rfl rfl
  rw [← hamount] at hfits ⊢
  exact laneBytes_fillQuad hfits sec

theorem laneUnder_fillEcm {l : Lane} {key : EcmTrafficKey} {m : HashMap UInt32 CounterQuad}
    {delta : UInt64} {ifindex : UInt32}
    (hfits : laneUnder l m ifindex + laneAmount l key delta < 2 ^ 64) (sec : Float) (i : UInt32) :
    laneUnder l (fillEcm ifindex key delta sec m) i =
      laneUnder l m i + if ifindex = i then laneAmount l key delta else 0 := by
  unfold laneUnder fillEcm at *
  rw [lookup_upsert_eq]
  by_cases hi : i = ifindex
  · subst hi
    rw [if_pos rfl, if_pos rfl, Option.getD_some]
    exact laneBytes_fillQuad hfits sec
  · rw [if_neg hi, if_neg (Ne.symm hi)]
    rfl

theorem sumOver_fillEcm {l : Lane} {key : EcmTrafficKey} {m : HashMap UInt32 CounterQuad}
    {delta : UInt64} {ifindex : UInt32}
    (hfits : laneUnder l m ifindex + laneAmount l key delta < 2 ^ 64) (sec : Float) :
    sumOver (fun _ q => laneBytes l q) (fillEcm ifindex key delta sec m) =
      sumOver (fun _ q => laneBytes l q) m + laneAmount l key delta := by
  have hsum := sumOver_insert (fun _ q => laneBytes l q) m ifindex
    (fillQuad key.ipVersion key.direction ((m.lookup ifindex).getD .zero) delta sec)
  have hfill := laneBytes_fillQuad hfits sec
  have hold : ((m.lookup ifindex).map fun q => laneBytes l q).getD 0 =
      laneBytes l ((m.lookup ifindex).getD .zero) := by
    cases m.lookup ifindex with
    | none => cases l <;> rfl
    | some q => rfl
  show sumOver _ (m.insert ifindex (fillQuad key.ipVersion key.direction
    ((m.lookup ifindex).getD .zero) delta sec)) = _
  have hunder : laneUnder l m ifindex = laneBytes l ((m.lookup ifindex).getD .zero) := rfl
  omega

/-! ### Devices -/

theorem laneBytes_zero (l : Lane) : laneBytes l .zero = 0 := by
  cases l <;> rfl

/-- A device that appears has no bytes yet. -/
theorem deviceBytes_activateKnownDevice (l : Lane) (devices : DevicesGroup)
    (registry : HashMap DeviceKey KnownDevice) (key : DeviceKey) (nowMs : UInt64) (k : DeviceKey) :
    deviceBytes l (activateKnownDevice devices registry key nowMs) k = deviceBytes l devices k := by
  unfold activateKnownDevice
  split_ifs with hmem
  · rfl
  · split
    · next known _ =>
      unfold deviceBytes
      rw [lookup_insert_eq]
      by_cases hk : k = key
      · subst hk
        rw [if_pos rfl, AList.lookup_eq_none.mpr hmem]
        exact laneBytes_zero l
      · rw [if_neg hk]
    · rfl

/-- An entry of the group replaced. -/
theorem devicesOn_insert (l : Lane) (devices : DevicesGroup) (key : DeviceKey) (item : DeviceListItem)
    (i : UInt32) :
    devicesOn l (devices.insert key item) i + (if key.1 = i then deviceBytes l devices key else 0) =
      devicesOn l devices i + if key.1 = i then laneBytes l item.metrics else 0 := by
  have hsum := sumOver_insert
    (fun key (item : DeviceListItem) => if key.1 = i then laneBytes l item.metrics else 0)
    devices key item
  unfold devicesOn deviceBytes
  cases hlookup : devices.lookup key with
  | none =>
    rw [hlookup] at hsum
    simpa using hsum
  | some old =>
    rw [hlookup] at hsum
    exact hsum

theorem devicesOn_activateKnownDevice (l : Lane) (devices : DevicesGroup)
    (registry : HashMap DeviceKey KnownDevice) (key : DeviceKey) (nowMs : UInt64) (i : UInt32) :
    devicesOn l (activateKnownDevice devices registry key nowMs) i = devicesOn l devices i := by
  unfold activateKnownDevice
  split_ifs with hmem
  · rfl
  · split
    · next known _ =>
      have hsum := devicesOn_insert l devices key (activatedItem known nowMs) i
      have hold : deviceBytes l devices key = 0 := by
        unfold deviceBytes
        rw [AList.lookup_eq_none.mpr hmem]
        rfl
      have hnew : laneBytes l (activatedItem known nowMs).metrics = 0 := laneBytes_zero l
      rw [hold, hnew] at hsum
      exact Nat.add_right_cancel hsum
    · rfl

section Fill
variable {l : Lane} {key : EcmTrafficKey} {devices : DevicesGroup} {device : DeviceKey}
  {delta : UInt64}

theorem laneBytes_fillDevice {item : DeviceListItem} (hitem : devices.lookup device = some item)
    (hfits : deviceBytes l devices device + laneAmount l key delta < 2 ^ 64) (sec : Float) :
    laneBytes l (fillDevice key.ipVersion key.direction delta sec item).metrics =
      laneBytes l item.metrics + laneAmount l key delta := by
  unfold deviceBytes at hfits
  rw [hitem] at hfits
  exact laneBytes_fillQuad hfits sec

theorem deviceBytes_fillDevice (hmem : device ∈ devices)
    (hfits : deviceBytes l devices device + laneAmount l key delta < 2 ^ 64) (sec : Float)
    (k : DeviceKey) :
    deviceBytes l
        (Lib.Maps.modify device (fillDevice key.ipVersion key.direction delta sec) devices) k =
      deviceBytes l devices k + if device = k then laneAmount l key delta else 0 := by
  obtain ⟨item, hitem⟩ := mem_iff_lookup.mp hmem
  have hfill := laneBytes_fillDevice hitem hfits sec
  unfold deviceBytes
  rw [lookup_modify_eq]
  by_cases hk : k = device
  · subst hk
    rw [if_pos rfl, if_pos rfl, hitem]
    exact hfill
  · rw [if_neg hk, if_neg (Ne.symm hk)]
    rfl

theorem devicesOn_fillDevice (hmem : device ∈ devices)
    (hfits : deviceBytes l devices device + laneAmount l key delta < 2 ^ 64) (sec : Float)
    (i : UInt32) :
    devicesOn l
        (Lib.Maps.modify device (fillDevice key.ipVersion key.direction delta sec) devices) i =
      devicesOn l devices i + if device.1 = i then laneAmount l key delta else 0 := by
  obtain ⟨item, hitem⟩ := mem_iff_lookup.mp hmem
  have hfill := laneBytes_fillDevice hitem hfits sec
  have hold : deviceBytes l devices device = laneBytes l item.metrics := by
    unfold deviceBytes
    rw [hitem]
    rfl
  have hsum := devicesOn_insert l devices device
    (fillDevice key.ipVersion key.direction delta sec item) i
  rw [hold] at hsum
  unfold Lib.Maps.modify
  rw [hitem]
  dsimp only at hsum ⊢
  split_ifs at hsum ⊢ <;> omega

end Fill

/-! ### The loop -/

/-- A counter of a tick. -/
abbrev Counter := Σ _ : EcmTrafficKey, TrafficValue

/-- **The sum of the deltas** of the counters whose attribution satisfies `p`, by lane. -/
def ecmSum (l : Lane) (prev : HashMap EcmTrafficKey UInt64) (whose : EcmTrafficKey → Attribution)
    (p : Attribution → Bool) (es : List Counter) : ℕ :=
  (es.map fun e =>
    if p (whose e.1) then laneAmount l e.1 (deltaBytes e.2.bytes ((prev.lookup e.1).getD 0)) else 0).sum

/-- **The sum of the deltas** of the counters whose key satisfies `p`, by lane. -/
def deltaSum (l : Lane) (prev : HashMap EcmTrafficKey UInt64) (p : EcmTrafficKey → Prop)
    [DecidablePred p] (es : List Counter) : ℕ :=
  (es.map fun e =>
    if p e.1 then laneAmount l e.1 (deltaBytes e.2.bytes ((prev.lookup e.1).getD 0)) else 0).sum

section Loop
variable {l : Lane} {prev : HashMap EcmTrafficKey UInt64} {whose : EcmTrafficKey → Attribution}
  {devices : DevicesGroup}

theorem ecmSum_eq_deltaSum {p : Attribution → Bool} {q : EcmTrafficKey → Prop} [DecidablePred q]
    (h : ∀ key, p (whose key) = true ↔ q key) (es : List Counter) :
    ecmSum l prev whose p es = deltaSum l prev q es := by
  unfold ecmSum deltaSum
  refine congrArg List.sum (List.map_congr_left fun e _ => ?_)
  exact if_congr (h e.1) rfl rfl

theorem ecmSum_cons (p : Attribution → Bool) (e : Counter) (es : List Counter) :
    ecmSum l prev whose p (e :: es) =
      (if p (whose e.1) then laneAmount l e.1 (deltaBytes e.2.bytes ((prev.lookup e.1).getD 0))
      else 0) + ecmSum l prev whose p es := by
  unfold ecmSum
  rw [List.map_cons, List.sum_cons]

theorem ecmSum_append (p : Attribution → Bool) (es es' : List Counter) :
    ecmSum l prev whose p (es ++ es') = ecmSum l prev whose p es + ecmSum l prev whose p es' := by
  unfold ecmSum
  rw [List.map_append, List.sum_append]

theorem ecmSum_singleton (p : Attribution → Bool) (e : Counter) :
    ecmSum l prev whose p [e] =
      if p (whose e.1) then laneAmount l e.1 (deltaBytes e.2.bytes ((prev.lookup e.1).getD 0))
      else 0 := by
  unfold ecmSum
  rw [List.map_singleton, List.sum_singleton]

theorem ecmSum_le (p : Attribution → Bool) (es : List Counter) :
    ecmSum l prev whose p es ≤ ecmSum l prev whose (fun _ => true) es := by
  induction es with
  | nil => exact Nat.le_refl 0
  | cons e rest ih =>
    rw [ecmSum_cons, ecmSum_cons, if_pos rfl]
    split_ifs <;> omega

/-- **After the counters `done`** each place has the deltas that belong there. -/
structure Attributed (l : Lane) (prev : HashMap EcmTrafficKey UInt64)
    (whose : EcmTrafficKey → Attribution) (devices : DevicesGroup) (done : List Counter)
    (st : EcmLoop) : Prop where
  external : laneBytes (inverted l) st.wanEcmMetrics = ecmSum l prev whose isExternal done
  unresolved : ∀ i, laneUnder l st.unresolvedEcmMetrics i = ecmSum l prev whose (isUnresolvedOf i) done
  lan : ∀ i, laneUnder l st.lanEcmMetrics i = ecmSum l prev whose (isLanOf i) done
  lanTotal : sumOver (fun _ q => laneBytes l q) st.lanEcmMetrics = ecmSum l prev whose isLan done
  device : ∀ key, deviceBytes l st.devices key =
    deviceBytes l devices key + ecmSum l prev whose (isOwnedBy key) done
  deviceTotal : ∀ i, devicesOn l st.devices i =
    devicesOn l devices i + ecmSum l prev whose (isOwnedOn i) done
  mem : ∀ key ∈ devices, key ∈ st.devices

/-- Nothing saturates. -/
structure EcmFits (l : Lane) (prev : HashMap EcmTrafficKey UInt64)
    (whose : EcmTrafficKey → Attribution) (devices : DevicesGroup) (es : List Counter) : Prop where
  sum : ecmSum l prev whose (fun _ => true) es < 2 ^ 64
  device : ∀ key, deviceBytes l devices key + ecmSum l prev whose (fun _ => true) es < 2 ^ 64

theorem EcmFits.of_append {es es' : List Counter} (h : EcmFits l prev whose devices (es ++ es')) :
    EcmFits l prev whose devices es := by
  have happend : ecmSum l prev whose (fun _ => true) (es ++ es') = _ := ecmSum_append _ es es'
  have hsum := h.sum
  refine ⟨by omega, fun key => ?_⟩
  have hdevice := h.device key
  omega

theorem attributed_nil (base : EcmBase) :
    Attributed l prev whose devices [] ⟨base, devices, [], .zero, ∅, ∅, []⟩ where
  external := laneBytes_zero _
  unresolved := fun _ => laneBytes_zero _
  lan := fun _ => laneBytes_zero _
  lanTotal := rfl
  device := fun _ => rfl
  deviceTotal := fun _ => rfl
  mem := fun _ h => h

/-- **Each place gains the amount, if it belongs there.** -/
structure Gains (l : Lane) (amount : ℕ) (a : Attribution) (st st' : EcmLoop) : Prop where
  external : laneBytes (inverted l) st'.wanEcmMetrics =
    laneBytes (inverted l) st.wanEcmMetrics + if isExternal a then amount else 0
  unresolved : ∀ i, laneUnder l st'.unresolvedEcmMetrics i =
    laneUnder l st.unresolvedEcmMetrics i + if isUnresolvedOf i a then amount else 0
  lan : ∀ i, laneUnder l st'.lanEcmMetrics i =
    laneUnder l st.lanEcmMetrics i + if isLanOf i a then amount else 0
  lanTotal : sumOver (fun _ q => laneBytes l q) st'.lanEcmMetrics =
    sumOver (fun _ q => laneBytes l q) st.lanEcmMetrics + if isLan a then amount else 0
  device : ∀ key, deviceBytes l st'.devices key =
    deviceBytes l st.devices key + if isOwnedBy key a then amount else 0
  deviceTotal : ∀ i, devicesOn l st'.devices i =
    devicesOn l st.devices i + if isOwnedOn i a then amount else 0
  mem : ∀ key ∈ st.devices, key ∈ st'.devices

/-- The places have room for the amount. -/
structure HasRoom (l : Lane) (amount : ℕ) (st : EcmLoop) : Prop where
  external : laneBytes (inverted l) st.wanEcmMetrics + amount < 2 ^ 64
  unresolved : ∀ i, laneUnder l st.unresolvedEcmMetrics i + amount < 2 ^ 64
  lan : ∀ i, laneUnder l st.lanEcmMetrics i + amount < 2 ^ 64
  device : ∀ key, deviceBytes l st.devices key + amount < 2 ^ 64

theorem ite_decide {p : Prop} [Decidable p] (amount : ℕ) :
    (if decide p = true then amount else 0) = if p then amount else 0 :=
  if_congr decide_eq_true_iff rfl rfl

/-- **One delta goes where it belongs.** -/
theorem gains_attributeEcm {key : EcmTrafficKey} {delta : UInt64} {st : EcmLoop}
    (hroom : HasRoom l (laneAmount l key delta) st) {registry : HashMap DeviceKey KnownDevice}
    {a : Attribution} (hknown : ∀ device, a = .owner device → device ∈ registry ∨ device ∈ st.devices)
    (nowMs : UInt64) (sec : Float) :
    Gains l (laneAmount l key delta) a st (attributeEcm registry nowMs sec key delta st a) := by
  cases a with
  | owner device =>
    have hmem : device ∈ activateKnownDevice st.devices registry device nowMs :=
      mem_activateKnownDevice (hknown device rfl) nowMs
    have hdeviceFits : deviceBytes l (activateKnownDevice st.devices registry device nowMs) device +
        laneAmount l key delta < 2 ^ 64 := by
      rw [deviceBytes_activateKnownDevice]
      exact hroom.device device
    have hlanFits := hroom.lan device.1
    have hkeep : ∀ k ∈ st.devices, k ∈ activateKnownDevice st.devices registry device nowMs := by
      intro k hk
      unfold activateKnownDevice
      split_ifs
      · exact hk
      · split
        · exact (AList.mem_insert _).mpr (Or.inr hk)
        · exact hk
    unfold attributeEcm
    dsimp only
    rw [if_pos hmem]
    refine ⟨rfl, fun _ => rfl, fun i => ?_, sumOver_fillEcm hlanFits sec, fun k => ?_, fun i => ?_,
      fun k hk => mem_modify.mpr (hkeep k hk)⟩
    · rw [laneUnder_fillEcm hlanFits]
      exact congrArg _ (ite_decide _).symm
    · rw [deviceBytes_fillDevice hmem hdeviceFits, deviceBytes_activateKnownDevice]
      exact congrArg _ (ite_decide _).symm
    · rw [devicesOn_fillDevice hmem hdeviceFits, devicesOn_activateKnownDevice]
      exact congrArg _ (ite_decide _).symm
  | ownWan => exact ⟨rfl, fun _ => rfl, fun _ => rfl, rfl, fun _ => rfl, fun _ => rfl, fun _ h => h⟩
  | subnet ifindex =>
    have hlanFits := hroom.lan ifindex
    have hunresolvedFits := hroom.unresolved ifindex
    unfold attributeEcm
    refine ⟨rfl, fun i => ?_, fun i => ?_, sumOver_fillEcm hlanFits sec, fun _ => rfl, fun _ => rfl,
      fun _ h => h⟩
    · rw [laneUnder_fillEcm hunresolvedFits]
      exact congrArg _ (ite_decide _).symm
    · rw [laneUnder_fillEcm hlanFits]
      exact congrArg _ (ite_decide _).symm
  | global =>
    have hunresolvedFits := hroom.unresolved ecmUnresolvedGlobalKey
    unfold attributeEcm
    refine ⟨rfl, fun i => ?_, fun _ => rfl, rfl, fun _ => rfl, fun _ => rfl, fun _ h => h⟩
    rw [laneUnder_fillEcm hunresolvedFits]
    exact congrArg _ (ite_decide _).symm
  | external =>
    unfold attributeEcm
    exact ⟨laneBytes_fillQuadWan hroom.external sec, fun _ => rfl, fun _ => rfl, rfl, fun _ => rfl,
      fun _ => rfl, fun _ h => h⟩

/-- What a counter adds to the sum of its attribution. -/
theorem ecmSum_concat (p : Attribution → Bool) (done : List Counter) (e : Counter) :
    ecmSum l prev whose p (done ++ [e]) = ecmSum l prev whose p done +
      if p (whose e.1) then laneAmount l e.1 (deltaBytes e.2.bytes ((prev.lookup e.1).getD 0))
      else 0 := by
  rw [ecmSum_append, ecmSum_singleton]

theorem Attributed.gains {done : List Counter} {st st' : EcmLoop} {e : Counter}
    (h : Attributed l prev whose devices done st)
    (hgains : Gains l (laneAmount l e.1 (deltaBytes e.2.bytes ((prev.lookup e.1).getD 0)))
      (whose e.1) st st') : Attributed l prev whose devices (done ++ [e]) st' where
  external := by rw [hgains.external, h.external, ecmSum_concat]
  unresolved i := by rw [hgains.unresolved, h.unresolved, ecmSum_concat]
  lan i := by rw [hgains.lan, h.lan, ecmSum_concat]
  lanTotal := by rw [hgains.lanTotal, h.lanTotal, ecmSum_concat]
  device key := by rw [hgains.device, h.device, ecmSum_concat, Nat.add_assoc]
  deviceTotal i := by rw [hgains.deviceTotal, h.deviceTotal, ecmSum_concat, Nat.add_assoc]
  mem key hkey := hgains.mem key (h.mem key hkey)

/-- No place overflows. -/
theorem Attributed.hasRoom {done : List Counter} {st : EcmLoop} {e : Counter}
    (h : Attributed l prev whose devices done st)
    (hfits : EcmFits l prev whose devices (done ++ [e])) :
    HasRoom l (laneAmount l e.1 (deltaBytes e.2.bytes ((prev.lookup e.1).getD 0))) st := by
  have htotal := hfits.sum
  rw [ecmSum_concat, if_pos rfl] at htotal
  have hroom : ∀ p, ecmSum l prev whose p done +
      laneAmount l e.1 (deltaBytes e.2.bytes ((prev.lookup e.1).getD 0)) < 2 ^ 64 := by
    intro p
    have hle : ecmSum l prev whose p done ≤ ecmSum l prev whose (fun _ => true) done :=
      ecmSum_le p done
    omega
  refine ⟨h.external ▸ hroom isExternal, fun i => h.unresolved i ▸ hroom (isUnresolvedOf i),
    fun i => h.lan i ▸ hroom (isLanOf i), fun key => ?_⟩
  have hdevice := hfits.device key
  rw [ecmSum_concat, if_pos rfl] at hdevice
  have hle : ecmSum l prev whose (isOwnedBy key) done ≤ ecmSum l prev whose (fun _ => true) done :=
    ecmSum_le _ done
  rw [h.device]
  omega

/-- **One counter**: its delta is that of the base at the start. -/
theorem attributed_ecmStep {done : List Counter} {st : EcmLoop} {e : Counter}
    (h : Attributed l prev whose devices done st)
    (hbase : st.base.prevEcmBytes.lookup e.1 = prev.lookup e.1)
    (hfits : EcmFits l prev whose devices (done ++ [e]))
    {registry : HashMap DeviceKey KnownDevice}
    (hknown : ∀ device, whose e.1 = .owner device → device ∈ registry ∨ device ∈ devices)
    (nowMs : UInt64) (sec : Float) :
    Attributed l prev whose devices (done ++ [e]) (ecmStep registry whose nowMs sec st e.1 e.2) := by
  have hdelta : (ecmDelta st.base e.1 e.2.bytes nowMs).1 =
      deltaBytes e.2.bytes ((prev.lookup e.1).getD 0) := by
    rw [← hbase]
    rfl
  have hst : Attributed l prev whose devices done
      { st with base := (ecmDelta st.base e.1 e.2.bytes nowMs).2 } :=
    ⟨h.external, h.unresolved, h.lan, h.lanTotal, h.device, h.deviceTotal, h.mem⟩
  unfold ecmStep
  dsimp only
  rw [hdelta]
  by_cases hzero : deltaBytes e.2.bytes ((prev.lookup e.1).getD 0) = 0
  · have hsame : ∀ p, ecmSum l prev whose p (done ++ [e]) = ecmSum l prev whose p done := by
      intro p
      rw [ecmSum_append, ecmSum_singleton, hzero, laneAmount_zero]
      split_ifs <;> rfl
    rw [if_pos hzero]
    split_ifs <;> exact ⟨(hsame _).symm ▸ h.external, fun i => (hsame _).symm ▸ h.unresolved i,
      fun i => (hsame _).symm ▸ h.lan i, (hsame _).symm ▸ h.lanTotal,
      fun key => (hsame _).symm ▸ h.device key, fun i => (hsame _).symm ▸ h.deviceTotal i, h.mem⟩
  · rw [if_neg hzero]
    exact hst.gains (gains_attributeEcm (hst.hasRoom hfits)
      (fun device hwhose => (hknown device hwhose).imp_right (h.mem device)) nowMs sec)

theorem attributed_foldl (rest : List Counter) {done : List Counter} {st : EcmLoop}
    (h : Attributed l prev whose devices done st)
    (hbase : ∀ e ∈ rest, st.base.prevEcmBytes.lookup e.1 = prev.lookup e.1)
    (hdistinct : (rest.map Sigma.fst).Nodup)
    (hfits : EcmFits l prev whose devices (done ++ rest)) {registry : HashMap DeviceKey KnownDevice}
    (hknown : ∀ key device, whose key = .owner device → device ∈ registry ∨ device ∈ devices)
    (nowMs : UInt64) (sec : Float) :
    Attributed l prev whose devices (done ++ rest)
      (rest.foldl (fun st e => ecmStep registry whose nowMs sec st e.1 e.2) st) := by
  induction rest generalizing done st with
  | nil =>
    rw [List.append_nil]
    exact h
  | cons e rest ih =>
    rw [List.append_cons] at hfits ⊢
    rw [List.map_cons, List.nodup_cons] at hdistinct
    refine ih (attributed_ecmStep h (hbase e List.mem_cons_self) hfits.of_append (hknown e.1) nowMs sec)
      (fun e' he' => ?_) hdistinct.2 hfits
    have hne : e'.1 ≠ e.1 := fun heq => hdistinct.1 (heq ▸ List.mem_map_of_mem he')
    rw [base_ecmStep]
    exact (AList.lookup_insert_ne hne).trans (hbase e' (List.mem_cons_of_mem _ he'))

end Loop

/-! ### The tick -/

/-- One step of `uniqueSubnetIface`. -/
def nextMatch (result : SubnetMatch) (ifindex : UInt32) : SubnetMatch :=
  match result with
  | .none => .unique ifindex
  | .unique previous => if previous ≠ ifindex then .ambiguous else .unique previous
  | .ambiguous => .ambiguous

theorem foldl_ambiguous (l : List UInt32) : l.foldl nextMatch .ambiguous = .ambiguous := by
  induction l with
  | nil => rfl
  | cons first l ih => exact ih

theorem foldl_unique (l : List UInt32) (previous : UInt32) :
    l.foldl nextMatch (.unique previous) =
      if l.all fun i => i = previous then .unique previous else .ambiguous := by
  induction l with
  | nil => simp
  | cons first l ih =>
    by_cases h : previous = first
    · subst h
      simpa [nextMatch] using ih
    · simp [nextMatch, h, foldl_ambiguous, Ne.symm h]

/-- **A match is unique** if it is of one interface, any number of times. -/
theorem uniqueSubnetIface_eq_unique {l : List UInt32} {ifindex : UInt32} :
    uniqueSubnetIface l = .unique ifindex ↔ ifindex ∈ l ∧ ∀ i ∈ l, i = ifindex := by
  cases l with
  | nil => simp [uniqueSubnetIface]
  | cons first l =>
    have hfold : uniqueSubnetIface (first :: l) = l.foldl nextMatch (.unique first) := rfl
    have hrest : (l.all fun i => i = first) = true ↔ ∀ i ∈ l, i = first := by simp
    rw [hfold, foldl_unique]
    split_ifs with h
    · constructor
      · intro hsame
        obtain rfl := SubnetMatch.unique.inj hsame
        exact ⟨List.mem_cons_self, List.forall_mem_cons.mpr ⟨rfl, hrest.mp h⟩⟩
      · rintro ⟨-, hall⟩
        rw [hall first List.mem_cons_self]
    · refine ⟨nofun, ?_⟩
      rintro ⟨-, hall⟩
      obtain rfl := hall first List.mem_cons_self
      exact absurd (hrest.mpr fun i hi => hall i (List.mem_cons_of_mem _ hi)) h

/-- No device owns the address, and its interface is one of some networks. -/
def IsWithin (ifindices : List UInt32) : Attribution → Prop
  | .owner _ => False
  | .subnet ifindex => ifindex ∈ ifindices
  | _ => True

/-- A unique match is one of the networks that were looked through. -/
theorem within_match {l ifindices : List UInt32} (hsub : l ⊆ ifindices) {unmatched : Attribution}
    (hunmatched : IsWithin ifindices unmatched) :
    IsWithin ifindices
      (match uniqueSubnetIface l with
      | .unique ifindex => .subnet ifindex
      | .ambiguous => .global
      | .none => unmatched) := by
  split
  · next ifindex hunique => exact hsub (uniqueSubnetIface_eq_unique.mp hunique).1
  · trivial
  · exact hunmatched

theorem within_attributeV4 (s : Subnets) (ip : UInt32) :
    IsWithin (s.localV4.map Prod.fst) (attributeV4 s ip) := by
  unfold attributeV4
  split
  · trivial
  · refine within_match (List.filter_sublist.map _).subset ?_
    split <;> trivial

theorem within_attributeV6 (s : Subnets) (words : IpWords) :
    IsWithin (s.localV6.map Prod.fst) (attributeV6 s words) := by
  unfold attributeV6
  split
  · trivial
  · refine within_match (List.filter_sublist.map _).subset ?_
    split <;> trivial

/-- **What an attribution tells**: an owner is in the ownership, an interface has a local network. -/
theorem attributionOf_cases (s : Subnets) (ownership : HashMap EcmAddress NeighborOwnership)
    (nowMs : UInt64) (key : EcmTrafficKey) :
    (∃ device entry, attributionOf s ownership nowMs key = .owner device ∧
      ownership.lookup (key.ip, key.ipVersion) = some entry ∧ entry.device = some device) ∨
    IsWithin (s.localV4.map Prod.fst ++ s.localV6.map Prod.fst)
      (attributionOf s ownership nowMs key) := by
  have hwiden : ∀ {a : Attribution} {l l' : List UInt32}, IsWithin l a → (∀ i ∈ l, i ∈ l') →
      IsWithin l' a := by
    intro a l l' ha hl
    cases a with
    | subnet ifindex => exact hl ifindex ha
    | owner device => exact ha
    | ownWan => trivial
    | global => trivial
    | external => trivial
  unfold attributionOf
  split
  · next device howner =>
    obtain ⟨entry, hentry, hvalid⟩ := Option.bind_eq_some_iff.mp howner
    unfold NeighborOwnership.validOwner at hvalid
    split_ifs at hvalid
    exact Or.inl ⟨device, entry, rfl, hentry, hvalid⟩
  · right
    split_ifs
    · exact hwiden (within_attributeV4 s _) fun i hi => List.mem_append_left _ hi
    · exact hwiden (within_attributeV6 s _) fun i hi => List.mem_append_right _ hi
    · trivial

/-! ### Who owns an address, and which are skipped -/

theorem isSkipped_attributeV4 {s : Subnets} {ip : UInt32} :
    isSkipped (attributeV4 s ip) = true ↔ ip ∈ s.wanV4Ips := by
  unfold attributeV4
  by_cases hown : ip ∈ s.wanV4Ips
  · rw [if_pos hown]
    exact ⟨fun _ => hown, fun _ => rfl⟩
  · rw [if_neg hown]
    dsimp only
    split <;> try split_ifs
    all_goals simp [isSkipped, hown]

theorem isSkipped_attributeV6 {s : Subnets} {words : IpWords} :
    isSkipped (attributeV6 s words) = true ↔ words ∈ s.wanV6Ips := by
  unfold attributeV6
  by_cases hown : words ∈ s.wanV6Ips
  · rw [if_pos hown]
    exact ⟨fun _ => hown, fun _ => rfl⟩
  · rw [if_neg hown]
    dsimp only
    split <;> try split_ifs
    all_goals simp [isSkipped, hown]

section Owner
variable {topology : TopologySnapshot} {ownership : HashMap EcmAddress NeighborOwnership}
  {nowMs : UInt64} {key : EcmTrafficKey}

theorem attributionOf_of_owner {s : Subnets} {device : DeviceKey}
    (h : ownerAt ownership (key.ip, key.ipVersion) nowMs = some device) :
    attributionOf s ownership nowMs key = .owner device := by
  unfold attributionOf
  rw [show (ownership.lookup (key.ip, key.ipVersion)).bind
    (fun entry => entry.validOwner nowMs) = some device from h]

theorem attributionOf_unowned {s : Subnets}
    (h : ownerAt ownership (key.ip, key.ipVersion) nowMs = none) :
    attributionOf s ownership nowMs key =
      if key.ipVersion = 4 then attributeV4 s (addressV4 key)
      else if key.ipVersion = 6 then attributeV6 s key.ip
      else .external := by
  unfold attributionOf
  rw [show (ownership.lookup (key.ip, key.ipVersion)).bind
    (fun entry => entry.validOwner nowMs) = none from h]
  rfl

/-- **Skipped are the own addresses of the WAN side** that no device owns. -/
theorem isSkipped_attributionOf :
    isSkipped (attributionOf (subnetsOf topology) ownership nowMs key) = true ↔
      ownerAt ownership (key.ip, key.ipVersion) nowMs = none ∧ OwnAddress topology key := by
  cases howner : ownerAt ownership (key.ip, key.ipVersion) nowMs with
  | some device =>
    rw [attributionOf_of_owner howner]
    exact ⟨fun h => (by cases h), fun h => (by cases h.1)⟩
  | none =>
    rw [attributionOf_unowned howner]
    unfold OwnAddress
    by_cases h4 : key.ipVersion = 4
    · have h6 : ¬ key.ipVersion = 6 := by
        rw [h4]
        decide
      rw [if_pos h4, isSkipped_attributeV4, mem_wanV4Ips]
      simp [h4]
    · by_cases h6 : key.ipVersion = 6
      · rw [if_neg h4, if_pos h6, isSkipped_attributeV6, mem_wanV6Ips]
        simp [h6]
      · rw [if_neg h4, if_neg h6]
        simp [isSkipped, h4, h6]

/-- **The bytes of an address that has an owner go to the owner.** -/
theorem isOwned_attributionOf (p : Attribution → Bool) (q : DeviceKey → Prop)
    (howner : ∀ device, p (.owner device) = true ↔ q device)
    (hother : ∀ a, (∀ device, a ≠ .owner device) → p a = false) :
    p (attributionOf (subnetsOf topology) ownership nowMs key) = true ↔
      ∃ device, ownerAt ownership (key.ip, key.ipVersion) nowMs = some device ∧ q device := by
  cases h : ownerAt ownership (key.ip, key.ipVersion) nowMs with
  | some device =>
    rw [attributionOf_of_owner h, howner]
    simp
  | none =>
    have hne : ∀ device, attributionOf (subnetsOf topology) ownership nowMs key ≠ .owner device := by
      intro device hdevice
      have hv4 := within_attributeV4 (subnetsOf topology) (addressV4 key)
      have hv6 := within_attributeV6 (subnetsOf topology) key.ip
      rw [attributionOf_unowned h] at hdevice
      split_ifs at hdevice
      · rw [hdevice] at hv4
        exact hv4.elim
      · rw [hdevice] at hv6
        exact hv6.elim
    rw [hother _ hne]
    simp

theorem isOwnedBy_attributionOf {device : DeviceKey} :
    isOwnedBy device (attributionOf (subnetsOf topology) ownership nowMs key) = true ↔
      ownerAt ownership (key.ip, key.ipVersion) nowMs = some device := by
  rw [isOwned_attributionOf (isOwnedBy device) (· = device) (fun _ => decide_eq_true_iff)]
  · simp
  · intro a ha
    cases a with
    | owner device => exact absurd rfl (ha device)
    | ownWan => rfl
    | subnet ifindex => rfl
    | global => rfl
    | external => rfl

theorem isOwnedOn_attributionOf {i : UInt32} :
    isOwnedOn i (attributionOf (subnetsOf topology) ownership nowMs key) = true ↔
      (ownerAt ownership (key.ip, key.ipVersion) nowMs).map Prod.fst = some i := by
  rw [isOwned_attributionOf (isOwnedOn i) (fun device => device.1 = i) (fun _ => decide_eq_true_iff),
    Option.map_eq_some_iff]
  intro a ha
  cases a with
  | owner device => exact absurd rfl (ha device)
  | ownWan => rfl
  | subnet ifindex => rfl
  | global => rfl
  | external => rfl

end Owner

/-- The local networks are those of interfaces of the topology. -/
theorem byIfindex_of_local {topology : TopologySnapshot} {ifindex : UInt32}
    (h : ifindex ∈ (subnetsOf topology).localV4.map Prod.fst ++
      (subnetsOf topology).localV6.map Prod.fst) : (topology.byIfindex ifindex).isSome := by
  have hmap : ∀ {α : Type} (iface : Interface) (subnets : List α),
      ifindex ∈ (subnets.map fun subnet => (iface.ifindex, subnet)).map Prod.fst →
      ifindex = iface.ifindex := by
    intro α iface subnets hmem
    obtain ⟨p, hp, rfl⟩ := List.mem_map.mp hmem
    obtain ⟨subnet, -, rfl⟩ := List.mem_map.mp hp
    rfl
  have hiface : ∃ iface ∈ topology.interfaces, ifindex = iface.ifindex := by
    rcases List.mem_append.mp h with h | h
    · obtain ⟨p, hp, rfl⟩ := List.mem_map.mp h
      obtain ⟨iface, hmem, hp⟩ := List.mem_flatMap.mp hp
      exact ⟨iface, List.mem_of_mem_filter hmem, hmap iface _ (List.mem_map_of_mem hp)⟩
    · obtain ⟨p, hp, rfl⟩ := List.mem_map.mp h
      obtain ⟨iface, hmem, hp⟩ := List.mem_flatMap.mp hp
      split_ifs at hp
      · cases hp
      · exact ⟨iface, hmem, hmap iface _ (List.mem_map_of_mem hp)⟩
  obtain ⟨iface, hmem, rfl⟩ := hiface
  exact Option.isSome_of_eq_some (mem_interfaces.mp hmem)

/-! ### The tick -/

theorem ecmSum_order (l : Lane) (prev : HashMap EcmTrafficKey UInt64)
    (whose : EcmTrafficKey → Attribution) (p : Attribution → Bool) (o : IterOrder)
    (stats : HashMap EcmTrafficKey TrafficValue) :
    ecmSum l prev whose p (o.order stats.entries) = ecmSum l prev whose p stats.entries :=
  sum_order o _ stats

/-- A sum over two kinds that exclude each other. -/
theorem ecmSum_add {l : Lane} {prev : HashMap EcmTrafficKey UInt64}
    {whose : EcmTrafficKey → Attribution} {p q r : Attribution → Bool}
    (h : ∀ key, p (whose key) = (q (whose key) || r (whose key)) ∧
      (q (whose key) && r (whose key)) = false) (es : List Counter) :
    ecmSum l prev whose p es = ecmSum l prev whose q es + ecmSum l prev whose r es := by
  induction es with
  | nil => rfl
  | cons e rest ih =>
    rw [ecmSum_cons, ecmSum_cons, ecmSum_cons, ih]
    obtain ⟨hor, hand⟩ := h e.1
    rw [hor]
    cases hq : q (whose e.1) <;> cases hr : r (whose e.1)
    · simp
    · simp
      omega
    · simp
      omega
    · rw [hq, hr] at hand
      cases hand

theorem prevEcmBytes_beforeEcm {cfg : Config} (henable : cfg.enableEcm = true)
    (topology : TopologySnapshot) (tick : Tick) (rt : MonitorRuntime)
    (ifaceStats : HashMap InterfaceTrafficKey TrafficValue)
    (deviceStats : HashMap DeviceTrafficKey TrafficValue) :
    (beforeEcm cfg topology tick rt ifaceStats deviceStats).rt.prevEcmBytes = rt.prevEcmBytes := by
  let start := startTick cfg topology tick rt
  let st := interfaceLoop cfg tick.o topology ifaceStats start.sec start.rt
  have hstart : start.rt.prevEcmBytes = rt.prevEcmBytes := by
    show (startTick cfg topology tick rt).rt.prevEcmBytes = _
    unfold startTick readEcm tickSeconds
    dsimp only
    rw [if_pos henable, if_pos henable]
    split_ifs <;> (split <;> rfl)
  have hloop : st.rt.prevEcmBytes = start.rt.prevEcmBytes :=
    List.foldlRecOn (motive := fun s : IfaceLoop => s.rt.prevEcmBytes = start.rt.prevEcmBytes) _ _ rfl
      fun _ h _ _ => h
  have hobserve : ∀ rt refresh, (observe cfg topology tick refresh rt).2.prevEcmBytes =
      rt.prevEcmBytes := by
    intro rt refresh
    unfold observe readNeighbors Neighbors.listNeighborsFiltered
    dsimp only
    rw [if_pos henable]
    split_ifs <;> rfl
  exact ((hobserve st.rt start.reading.refreshIpv6Neighbors).trans hloop).trans hstart

theorem ecmStats_beforeEcm {cfg : Config} (henable : cfg.enableEcm = true)
    (topology : TopologySnapshot) {tick : Tick} {entries : List (EcmTrafficKey × List TrafficValue)}
    (hentries : tick.ecmEntries = some entries) (rt : MonitorRuntime)
    (ifaceStats : HashMap InterfaceTrafficKey TrafficValue)
    (deviceStats : HashMap DeviceTrafficKey TrafficValue) :
    (beforeEcm cfg topology tick rt ifaceStats deviceStats).ecmStats =
      some (readEcmStats topology rt tick.nowMs entries).1 := by
  show (startTick cfg topology tick rt).reading.stats = _
  unfold startTick readEcm
  dsimp only
  rw [if_pos henable, hentries]
  rfl

/-- **After the tick each place has the deltas that belong there.** -/
theorem attributed_hardware {rt : MonitorRuntime} (h : Reachable rt) {cfg : Config}
    (henable : cfg.enableEcm = true) (topology : TopologySnapshot) {tick : Tick}
    {entries : List (EcmTrafficKey × List TrafficValue)} (hentries : tick.ecmEntries = some entries)
    (ifaceStats : HashMap InterfaceTrafficKey TrafficValue)
    (deviceStats : HashMap DeviceTrafficKey TrafficValue) {l : Lane} :
    let b := beforeEcm cfg topology tick rt ifaceStats deviceStats
    let whose := attributionOf (subnetsOf topology) b.rt.neighborOwnership tick.nowMs
    let counters := tick.o.order (readEcmStats topology rt tick.nowMs entries).1.entries
    EcmFits l rt.prevEcmBytes whose b.devices counters →
      Attributed l rt.prevEcmBytes whose b.devices counters (hardware topology tick b) := by
  intro b whose counters hfits
  obtain ⟨-, -, -, howners⟩ := beforeEcm_spec cfg topology tick ifaceStats deviceStats
    (runtimeInv_reachable h)
  have hprev : b.rt.prevEcmBytes = rt.prevEcmBytes :=
    prevEcmBytes_beforeEcm henable topology tick rt ifaceStats deviceStats
  have hstats : b.ecmStats = some (readEcmStats topology rt tick.nowMs entries).1 :=
    ecmStats_beforeEcm henable topology hentries rt ifaceStats deviceStats
  have hknown : ∀ key device, whose key = .owner device →
      device ∈ b.rt.deviceRegistry ∨ device ∈ b.devices := by
    intro key device hkey
    rcases attributionOf_cases (subnetsOf topology) b.rt.neighborOwnership tick.nowMs key with
      ⟨device', entry, hdevice, hentry, howner⟩ | hwithin
    · obtain rfl := Attribution.owner.inj (hdevice.symm.trans hkey)
      exact (howners _ entry device' hentry howner).2
    · have hwithin : IsWithin _ (whose key) := hwithin
      rw [hkey] at hwithin
      exact hwithin.elim
  have hstart : Attributed l rt.prevEcmBytes whose b.devices []
      ⟨⟨rt.prevEcmBytes, b.rt.ecmLastActiveMs⟩, b.devices, [], .zero, ∅, ∅, []⟩ := attributed_nil _
  unfold hardware ecmLoop
  rw [hstats, hprev]
  exact attributed_foldl counters hstart (fun _ _ => rfl) (nodup_order_keys tick.o _) hfits hknown
    tick.nowMs b.ecmSec

/-- No attribution is to the interface of the reserved index, if there is none. -/
theorem attribution_ne_global {topology : TopologySnapshot}
    (hmax : topology.byIfindex ecmUnresolvedGlobalKey = none)
    (ownership : HashMap EcmAddress NeighborOwnership) (nowMs : UInt64) (key : EcmTrafficKey) :
    attributionOf (subnetsOf topology) ownership nowMs key ≠ .subnet ecmUnresolvedGlobalKey := by
  intro hsubnet
  rcases attributionOf_cases (subnetsOf topology) ownership nowMs key with
    ⟨device, entry, hdevice, -, -⟩ | hwithin
  · rw [hsubnet] at hdevice
    cases hdevice
  · rw [hsubnet] at hwithin
    have hsome := byIfindex_of_local hwithin
    rw [hmax] at hsome
    cases hsome

section Parts
variable {l : Lane} {prev : HashMap EcmTrafficKey UInt64} {whose : EcmTrafficKey → Attribution}

/-- **The kinds of attributions**, one after the other. Only a network under the reserved index would be
of two kinds. -/
theorem ecmSum_parts (hglobal : ∀ key, whose key ≠ .subnet ecmUnresolvedGlobalKey)
    (counters : List Counter) :
    ecmSum l prev whose (fun _ => true) counters = ecmSum l prev whose isSkipped counters +
      (ecmSum l prev whose isExternal counters +
        (ecmSum l prev whose (isUnresolvedOf ecmUnresolvedGlobalKey) counters +
          ecmSum l prev whose isLan counters)) := by
  have hself : isUnresolvedOf ecmUnresolvedGlobalKey .global = true := by
    unfold isUnresolvedOf
    exact decide_eq_true rfl
  have hlan : ecmSum l prev whose (fun a => isUnresolvedOf ecmUnresolvedGlobalKey a || isLan a)
      counters = ecmSum l prev whose (isUnresolvedOf ecmUnresolvedGlobalKey) counters +
        ecmSum l prev whose isLan counters := by
    refine ecmSum_add (fun key => ⟨rfl, ?_⟩) counters
    have hne := hglobal key
    cases hkey : whose key with
    | subnet ifindex =>
      rw [hkey] at hne
      have hne' : ifindex ≠ ecmUnresolvedGlobalKey := fun heq => hne (congrArg _ heq)
      exact (Bool.and_true _).trans (decide_eq_false hne')
    | owner device => rfl
    | ownWan => rfl
    | global => rfl
    | external => rfl
  have hwan : ecmSum l prev whose
      (fun a => isExternal a || (isUnresolvedOf ecmUnresolvedGlobalKey a || isLan a)) counters =
      ecmSum l prev whose isExternal counters + ecmSum l prev whose
        (fun a => isUnresolvedOf ecmUnresolvedGlobalKey a || isLan a) counters := by
    refine ecmSum_add (fun key => ⟨rfl, ?_⟩) counters
    cases whose key <;> rfl
  rw [← hlan, ← hwan]
  refine ecmSum_add (fun key => ?_) counters
  cases whose key with
  | subnet ifindex => exact ⟨by simp [isExternal, isLan], rfl⟩
  | owner device => exact ⟨rfl, rfl⟩
  | ownWan => exact ⟨rfl, rfl⟩
  | global => exact ⟨by rw [hself]; rfl, rfl⟩
  | external => exact ⟨rfl, rfl⟩

/-- LAN traffic of an interface is that of its devices and its own unresolved one. -/
theorem ecmSum_isLanOf {i : UInt32} (hi : i ≠ ecmUnresolvedGlobalKey) (counters : List Counter) :
    ecmSum l prev whose (isLanOf i) counters =
      ecmSum l prev whose (isOwnedOn i) counters + ecmSum l prev whose (isUnresolvedOf i) counters := by
  refine ecmSum_add (fun key => ?_) counters
  cases whose key with
  | owner device => exact ⟨(Bool.or_false _).symm, Bool.and_false _⟩
  | subnet ifindex => exact ⟨rfl, rfl⟩
  | global => exact ⟨(decide_eq_false (Ne.symm hi)).symm, rfl⟩
  | ownWan => exact ⟨rfl, rfl⟩
  | external => exact ⟨rfl, rfl⟩

end Parts

/-- **Hardware bytes are attributed exactly once**, if no interface has the reserved index of the global
entry: by lane the deltas are those of the own addresses of the WAN side that no device owns, the bytes of
the WAN side, those of the global entry and those of the LAN interfaces. An interface has the deltas of the
addresses that its devices own and its own unresolved traffic, a device gains those of the addresses that
it owns, and every owner of an address is a known device or one of the tick. -/
theorem ecm_attributed_once {rt : MonitorRuntime} (h : Reachable rt) {cfg : Config}
    (henable : cfg.enableEcm = true) {topology : TopologySnapshot}
    (hmax : topology.byIfindex ecmUnresolvedGlobalKey = none) {tick : Tick}
    {entries : List (EcmTrafficKey × List TrafficValue)} (hentries : tick.ecmEntries = some entries)
    (ifaceStats : HashMap InterfaceTrafficKey TrafficValue)
    (deviceStats : HashMap DeviceTrafficKey TrafficValue) (l : Lane) :
    let b := beforeEcm cfg topology tick rt ifaceStats deviceStats
    let e := hardware topology tick b
    let counters := (readEcmStats topology rt tick.nowMs entries).1.entries
    let owner := fun key : EcmTrafficKey =>
      ownerAt b.rt.neighborOwnership (key.ip, key.ipVersion) tick.nowMs
    (∀ device, deviceBytes l b.devices device + deltaSum l rt.prevEcmBytes (fun _ => True) counters <
        2 ^ 64) →
      deltaSum l rt.prevEcmBytes (fun _ => True) counters =
        deltaSum l rt.prevEcmBytes (fun key => owner key = none ∧ OwnAddress topology key) counters +
          laneBytes (inverted l) e.wanEcmMetrics +
          laneUnder l e.unresolvedEcmMetrics ecmUnresolvedGlobalKey +
          sumOver (fun _ q => laneBytes l q) e.lanEcmMetrics ∧
      (∀ i ≠ ecmUnresolvedGlobalKey, laneUnder l e.lanEcmMetrics i =
        deltaSum l rt.prevEcmBytes (fun key => (owner key).map Prod.fst = some i) counters +
          laneUnder l e.unresolvedEcmMetrics i) ∧
      (∀ i, devicesOn l e.devices i = devicesOn l b.devices i +
        deltaSum l rt.prevEcmBytes (fun key => (owner key).map Prod.fst = some i) counters) ∧
      (∀ device, deviceBytes l e.devices device = deviceBytes l b.devices device +
        deltaSum l rt.prevEcmBytes (fun key => owner key = some device) counters) ∧
      ∀ address entry device, b.rt.neighborOwnership.lookup address = some entry →
        entry.device = some device → device ∈ rt.deviceRegistry ∨ device ∈ b.devices := by
  intro b e counters owner hfits
  obtain ⟨hregistry, -, -, howners⟩ := beforeEcm_spec cfg topology tick ifaceStats deviceStats
    (runtimeInv_reachable h)
  let whose := attributionOf (subnetsOf topology) b.rt.neighborOwnership tick.nowMs
  let ordered : List Counter := tick.o.order counters
  have hsum : ∀ p, ecmSum l rt.prevEcmBytes whose p ordered = ecmSum l rt.prevEcmBytes whose p counters :=
    fun p => ecmSum_order l rt.prevEcmBytes whose p tick.o (readEcmStats topology rt tick.nowMs entries).1
  have htotal : ecmSum l rt.prevEcmBytes whose (fun _ => true) counters =
      deltaSum l rt.prevEcmBytes (fun _ => True) counters :=
    ecmSum_eq_deltaSum (fun _ => iff_of_true rfl trivial) counters
  have hfits' : EcmFits l rt.prevEcmBytes whose b.devices ordered := by
    refine ⟨?_, fun device => ?_⟩
    · rw [hsum, htotal]
      exact Nat.lt_of_le_of_lt (Nat.le_add_left _ _) (hfits (0, .replicate 6 0))
    · rw [hsum, htotal]
      exact hfits device
  have hattributed : Attributed l rt.prevEcmBytes whose b.devices ordered e :=
    attributed_hardware h henable topology hentries ifaceStats deviceStats hfits'
  have hglobal : ∀ key, whose key ≠ .subnet ecmUnresolvedGlobalKey :=
    attribution_ne_global hmax b.rt.neighborOwnership tick.nowMs
  -- the kinds of attributions, by the addresses
  have hskipped : ecmSum l rt.prevEcmBytes whose isSkipped counters =
      deltaSum l rt.prevEcmBytes (fun key => owner key = none ∧ OwnAddress topology key) counters :=
    ecmSum_eq_deltaSum (fun _ => isSkipped_attributionOf) counters
  have howned : ∀ device, ecmSum l rt.prevEcmBytes whose (isOwnedBy device) counters =
      deltaSum l rt.prevEcmBytes (fun key => owner key = some device) counters :=
    fun device => ecmSum_eq_deltaSum (fun _ => isOwnedBy_attributionOf) counters
  have hon : ∀ i, ecmSum l rt.prevEcmBytes whose (isOwnedOn i) counters =
      deltaSum l rt.prevEcmBytes (fun key => (owner key).map Prod.fst = some i) counters :=
    fun i => ecmSum_eq_deltaSum (fun _ => isOwnedOn_attributionOf) counters
  refine ⟨?_, fun i hi => ?_, fun i => ?_, fun device => ?_, fun address entry device hentry hdevice => ?_⟩
  · have hparts := @ecmSum_parts l rt.prevEcmBytes whose hglobal counters
    rw [hattributed.external, hattributed.unresolved, hattributed.lanTotal, hsum, hsum, hsum, ← htotal,
      ← hskipped, hparts]
    omega
  · have hsplit : ecmSum l rt.prevEcmBytes whose (isLanOf i) counters = _ := ecmSum_isLanOf hi counters
    rw [hattributed.lan, hattributed.unresolved, hsum, hsum, hsplit, hon]
  · rw [hattributed.deviceTotal, hsum, hon]
  · rw [hattributed.device, hsum, howned]
  · rw [← hregistry]
    exact (howners address entry device hentry hdevice).2

/-- Without software counters the devices are those that the neighbours show. -/
theorem devices_beforeEcm (cfg : Config) (topology : TopologySnapshot) (tick : Tick)
    (rt : MonitorRuntime) (ifaceStats : HashMap InterfaceTrafficKey TrafficValue) :
    let start := startTick cfg topology tick rt
    let st := interfaceLoop cfg tick.o topology ifaceStats start.sec start.rt
    (beforeEcm cfg topology tick rt ifaceStats ∅).devices =
      (observe cfg topology tick start.reading.refreshIpv6Neighbors st.rt).1 := by
  intro start st
  have hcounters : ∀ rt sec prune devices, counterLoop tick topology rt sec prune ∅ devices =
      ⟨rt.prevDeviceBytes, rt.deviceLastActiveMs, devices, ⟨∅, ∅, ∅⟩, []⟩ := by
    intro rt sec prune devices
    have hnone : tick.o.order (∅ : HashMap DeviceTrafficKey TrafficValue).entries = [] :=
      (tick.o.perm _).eq_nil
    unfold counterLoop
    rw [hnone]
    rfl
  show (pruneCounters tick.deviceRemoved (counterLoop tick topology _ start.sec start.prune ∅
    (observe cfg topology tick start.reading.refreshIpv6Neighbors st.rt).1)).devices = _
  rw [hcounters]
  rfl

theorem metrics_neighborDevice {cfg : Config} {topology : TopologySnapshot} {rt : MonitorRuntime}
    {nowMs : UInt64} {dev : String} {mac : Mac} {ips : NeighborIps} {key : DeviceKey}
    {item : DeviceListItem} (h : neighborDevice cfg topology rt nowMs dev mac ips = some (key, item)) :
    item.metrics = .zero := by
  unfold neighborDevice at h
  split at h
  · cases h
  · split at h
    · cases h
    · split_ifs at h
      obtain ⟨-, rfl⟩ := Prod.mk.inj (Option.some.inj h)
      rfl

/-- Such devices have no bytes yet. -/
theorem deviceBytes_observe (l : Lane) (cfg : Config) (topology : TopologySnapshot) (tick : Tick)
    (refresh : Bool) (rt : MonitorRuntime) (device : DeviceKey) :
    deviceBytes l (observe cfg topology tick refresh rt).1 device = 0 := by
  have hzero : GroupAll (fun _ item => item.metrics = .zero)
      (observe cfg topology tick refresh rt).1 :=
    groupAll_neighborDevices (fun _ _ _ _ _ h => metrics_neighborDevice h) tick.o _
  unfold deviceBytes
  cases hlookup : (observe cfg topology tick refresh rt).1.lookup device with
  | none => rfl
  | some item =>
    rw [Option.map_some, hzero device item hlookup]
    exact laneBytes_zero l

/-! ### A home network -/

def homeTopology : TopologySnapshot :=
  .ofInterfaces [⟨3, "br-lan", "lan", ["192.168.1.1/24"], []⟩,
    ⟨2, "eth1", "wan", ["203.0.113.5/24"], []⟩]

theorem interfaces_homeTopology : homeTopology.interfaces =
    [⟨2, "eth1", "wan", ["203.0.113.5/24"], []⟩, ⟨3, "br-lan", "lan", ["192.168.1.1/24"], []⟩] :=
  List.mergeSort_of_pairwise (by simp [homeTopology, TopologySnapshot.ofInterfaces])

/-- The counters of a phone, of the router's address on the WAN side and of a server outside. -/
def homeEntries : List (EcmTrafficKey × List TrafficValue) :=
  [(⟨#v[0xC0A80132, 0, 0, 0], 4, 1⟩, [⟨1, 100⟩]), (⟨#v[0xCB007105, 0, 0, 0], 4, 1⟩, [⟨1, 30⟩]),
    (⟨#v[0x09090909, 0, 0, 0], 4, 1⟩, [⟨1, 50⟩])]

def phoneKey : DeviceKey := (3, .replicate 6 4)

/-- The phone is a neighbour. -/
def homeTick : Tick where
  nowMs := 1000000
  ifaceEntries := some []
  deviceEntries := some []
  insertFailuresRead := true
  ecmEntries := some homeEntries
  arp := some "IP address\n192.168.1.50 0x1 0x2 04:04:04:04:04:04 * br-lan"
  ipNeigh := none
  hostnames := ∅
  deviceRemoved := fun _ => false
  ecmRecheck := fun _ => none
  ecmRemoved := fun _ => false
  o := .listed

def homeConfig : Config := ⟨["br-lan"], true, 1.0⟩

def homeBefore : BeforeEcm :=
  beforeEcm homeConfig homeTopology homeTick (startRuntime .listed homeTopology none ∅ ∅) ∅ ∅

/-- The neighbour that the table shows. -/
theorem arp_homeTick : ((((homeTick.arp).map lines).getD []).drop 1).filterMap
    (Neighbors.arpEntry homeConfig.monitorIfaces (subnetMap homeTopology)) =
      [⟨"br-lan", .replicate 6 4, "192.168.1.50", "REACHABLE"⟩] := by
  unfold subnetMap
  rw [interfaces_homeTopology]
  rfl

theorem observeNeighbors_home (fetchMs : UInt64) : observeNeighbors homeTopology 1000000 fetchMs ∅
    [⟨"br-lan", .replicate 6 4, "192.168.1.50", "REACHABLE"⟩] =
      AList.singleton (#v[0xC0A80132, 0, 0, 0], 4) ⟨some phoneKey, 1000000, 1000000⟩ := by
  unfold observeNeighbors observeStep ifaceOf ifindexByName
  rw [interfaces_homeTopology]
  rfl

theorem readNeighbors_home (refresh : Bool) {rt : MonitorRuntime}
    (hraw : rt.cachedIpv6NeighborsRaw = "") :
    (readNeighbors homeConfig homeTopology homeTick refresh rt).1 =
      [⟨"br-lan", .replicate 6 4, "192.168.1.50", "REACHABLE"⟩] := by
  have hnone : (lines "").filterMap (Neighbors.neighEntry homeConfig.monitorIfaces) = [] := rfl
  unfold readNeighbors Neighbors.listNeighborsFiltered
  dsimp only
  rw [arp_homeTick]
  split_ifs
  · rw [show homeTick.ipNeigh.getD "" = "" from rfl, hnone]
    rfl
  · rw [hraw, hnone]
    rfl

/-- The phone owns its address, and no other address has an owner. -/
theorem neighborOwnership_homeBefore : homeBefore.rt.neighborOwnership =
    AList.singleton (#v[0xC0A80132, 0, 0, 0], 4) ⟨some phoneKey, 1000000, 1000000⟩ := by
  let rt := startRuntime .listed homeTopology none ∅ ∅
  let start := startTick homeConfig homeTopology homeTick rt
  let st := interfaceLoop homeConfig homeTick.o homeTopology ∅ start.sec start.rt
  have henable : homeConfig.enableEcm = true := rfl
  have howners : st.rt.neighborOwnership = ∅ :=
    (neighborOwnership_interfaceLoop ..).trans (neighborOwnership_startTick henable homeTopology homeTick rt)
  have hstart : start.rt.cachedIpv6NeighborsRaw = "" := by
    show (startTick homeConfig homeTopology homeTick rt).rt.cachedIpv6NeighborsRaw = _
    unfold startTick readEcm tickSeconds
    dsimp only
    rw [if_pos henable, if_pos henable]
    split_ifs <;> (split <;> rfl)
  have hraw : st.rt.cachedIpv6NeighborsRaw = "" :=
    List.foldlRecOn (motive := fun s : IfaceLoop => s.rt.cachedIpv6NeighborsRaw = "") _ _ hstart
      fun _ h _ _ => h
  have hread := readNeighbors_home start.reading.refreshIpv6Neighbors hraw
  obtain ⟨-, -, -, hkept⟩ :=
    readNeighbors_snd homeConfig homeTopology homeTick start.reading.refreshIpv6Neighbors st.rt
  rw [howners] at hkept
  show (observe homeConfig homeTopology homeTick start.reading.refreshIpv6Neighbors
    st.rt).2.neighborOwnership = _
  unfold observe
  dsimp only
  rw [hread, if_pos henable, hkept]
  exact observeNeighbors_home _

/-- Only the second counter is of an own address. -/
theorem ownAddress_home (key : EcmTrafficKey) : OwnAddress homeTopology key ↔
    key.ipVersion = 4 ∧ addressV4 key = 0xCB007105 := by
  have hparse : parseIpv4 (beforeChar "203.0.113.5/24" '/') = some 0xCB007105 := by decide
  unfold OwnAddress OwnAddressV4 OwnAddressV6
  rw [interfaces_homeTopology]
  simp [hparse, eq_comm]

/-- **The three counters of a home network**: of 180 bytes the 30 of the router's own address are
skipped, the others are attributed, 100 of them to the phone. -/
theorem ecm_attributed_once_home :
    let e := hardware homeTopology homeTick homeBefore
    laneBytes .downV4 e.wanEcmMetrics + laneUnder .upV4 e.unresolvedEcmMetrics ecmUnresolvedGlobalKey +
        sumOver (fun _ q => laneBytes .upV4 q) e.lanEcmMetrics = 150 ∧
      laneUnder .upV4 e.lanEcmMetrics 3 = 100 + laneUnder .upV4 e.unresolvedEcmMetrics 3 ∧
      deviceBytes .upV4 e.devices phoneKey = 100 := by
  intro e
  let rt := startRuntime .listed homeTopology none ∅ ∅
  let owner := fun key : EcmTrafficKey =>
    ownerAt homeBefore.rt.neighborOwnership (key.ip, key.ipVersion) homeTick.nowMs
  let counters := (readEcmStats homeTopology rt homeTick.nowMs homeEntries).1.entries
  have howner : owner = fun key => ownerAt
      (AList.singleton (#v[0xC0A80132, 0, 0, 0], 4) ⟨some phoneKey, 1000000, 1000000⟩)
      (key.ip, key.ipVersion) 1000000 := by
    funext key
    show ownerAt homeBefore.rt.neighborOwnership _ _ = _
    rw [neighborOwnership_homeBefore]
    rfl
  have hbytes : ∀ device, deviceBytes .upV4 homeBefore.devices device = 0 := by
    intro device
    have hdevices : homeBefore.devices = _ := devices_beforeEcm homeConfig homeTopology homeTick rt ∅
    rw [hdevices]
    exact deviceBytes_observe ..
  have htotal : deltaSum .upV4 rt.prevEcmBytes (fun _ => True) counters = 180 := by decide
  have hskipped : deltaSum .upV4 rt.prevEcmBytes (fun key => owner key = none ∧
      OwnAddress homeTopology key) counters = 30 := by
    simp only [howner, ownAddress_home]
    decide
  have hphone : deltaSum .upV4 rt.prevEcmBytes (fun key => owner key = some phoneKey) counters = 100 := by
    simp only [howner]
    decide
  have hlan : deltaSum .upV4 rt.prevEcmBytes (fun key => (owner key).map Prod.fst = some 3) counters =
      100 := by
    simp only [howner]
    decide
  obtain ⟨hsum, hiface, -, hdevice, -⟩ := ecm_attributed_once (.start .listed homeTopology none ∅ ∅)
    (show homeConfig.enableEcm = true from rfl)
    (show homeTopology.byIfindex ecmUnresolvedGlobalKey = none from rfl)
    (show homeTick.ecmEntries = some homeEntries from rfl) ∅ ∅ .upV4 (fun device => by
      show deviceBytes .upV4 homeBefore.devices device + deltaSum .upV4 rt.prevEcmBytes _ counters < _
      rw [hbytes, htotal]
      decide)
  refine ⟨?_, ?_, ?_⟩
  · have hsum : 180 = 30 + laneBytes .downV4 e.wanEcmMetrics +
        laneUnder .upV4 e.unresolvedEcmMetrics ecmUnresolvedGlobalKey +
        sumOver (fun _ q => laneBytes .upV4 q) e.lanEcmMetrics := by
      rw [← htotal, ← hskipped]
      exact hsum
    omega
  · rw [← hlan]
    exact hiface 3 (by decide)
  · have hdevice : deviceBytes .upV4 e.devices phoneKey = deviceBytes .upV4 homeBefore.devices phoneKey +
        deltaSum .upV4 rt.prevEcmBytes (fun key => owner key = some phoneKey) counters := hdevice phoneKey
    rw [hdevice, hbytes, hphone]

/-! ### The reserved index -/

/-- A tick that finds 100 hardware bytes to an address. -/
def addressTick (ip : IpWords) : Tick where
  nowMs := 1000000
  ifaceEntries := some []
  deviceEntries := some []
  insertFailuresRead := true
  ecmEntries := some [(⟨ip, 4, 1⟩, [⟨1, 100⟩])]
  arp := none
  ipNeigh := none
  hostnames := ∅
  deviceRemoved := fun _ => false
  ecmRecheck := fun _ => none
  ecmRemoved := fun _ => false
  o := .listed

def ecmConfig : Config := ⟨[], true, 1.0⟩

theorem readNeighbors_ecmConfig (topology : TopologySnapshot) (tick : Tick) (refresh : Bool)
    (rt : MonitorRuntime) : (readNeighbors ecmConfig topology tick refresh rt).1 = [] := by
  refine List.eq_nil_iff_forall_not_mem.mpr fun n hn => ?_
  have hdev : n.dev ∈ ([] : List String) := Neighbors.mem_listNeighborsFiltered hn
  cases hdev

/-- Nothing is monitored, hence no device is there and no address has an owner. -/
theorem beforeEcm_ecmConfig (topology : TopologySnapshot) (ip : IpWords) :
    let b := beforeEcm ecmConfig topology (addressTick ip) (startRuntime .listed topology none ∅ ∅) ∅ ∅
    b.devices = ∅ ∧ b.rt.neighborOwnership = ∅ := by
  intro b
  have henable : ecmConfig.enableEcm = true := rfl
  have hobserve : ∀ refresh rt, rt.neighborOwnership = ∅ →
      (observe ecmConfig topology (addressTick ip) refresh rt).1 = ∅ ∧
      (observe ecmConfig topology (addressTick ip) refresh rt).2.neighborOwnership = ∅ := by
    intro refresh rt hnone
    obtain ⟨-, -, -, howners⟩ := readNeighbors_snd ecmConfig topology (addressTick ip) refresh rt
    unfold observe
    dsimp only
    rw [readNeighbors_ecmConfig, if_pos henable]
    refine ⟨rfl, ?_⟩
    show (readNeighbors ecmConfig topology (addressTick ip) refresh rt).2.neighborOwnership = ∅
    rw [howners, hnone]
    rfl
  let start := startTick ecmConfig topology (addressTick ip) (startRuntime .listed topology none ∅ ∅)
  let st := interfaceLoop ecmConfig (addressTick ip).o topology ∅ start.sec start.rt
  have hloop : st.rt = start.rt := rfl
  have hstart : st.rt.neighborOwnership = ∅ := by
    rw [hloop]
    exact neighborOwnership_startTick henable topology (addressTick ip)
      (startRuntime .listed topology none ∅ ∅)
  have hdevices : b.devices = (observe ecmConfig topology (addressTick ip)
      start.reading.refreshIpv6Neighbors st.rt).1 :=
    devices_beforeEcm ecmConfig topology (addressTick ip) _ ∅
  have howners : b.rt.neighborOwnership = (observe ecmConfig topology (addressTick ip)
      start.reading.refreshIpv6Neighbors st.rt).2.neighborOwnership :=
    neighborOwnership_beforeEcm ecmConfig topology (addressTick ip) _ ∅ ∅
  rw [hdevices, howners]
  exact hobserve _ _ hstart

/-- A LAN interface under the index that the global entry uses. -/
def reservedTopology : TopologySnapshot :=
  .ofInterfaces [⟨0xFFFFFFFF, "br-lan", "lan", ["192.168.1.1/24"], []⟩]

theorem interfaces_reservedTopology : reservedTopology.interfaces =
    [⟨0xFFFFFFFF, "br-lan", "lan", ["192.168.1.1/24"], []⟩] :=
  List.mergeSort_singleton _

/-- The counter of 192.168.1.50, in the network of this interface. -/
def lanCounter : Counter := ⟨⟨#v[0xC0A80132, 0, 0, 0], 4, 1⟩, ⟨1, 100⟩⟩

def reservedBefore : BeforeEcm :=
  beforeEcm ecmConfig reservedTopology (addressTick lanCounter.1.ip)
    (startRuntime .listed reservedTopology none ∅ ∅) ∅ ∅

def reservedWhose : EcmTrafficKey → Attribution :=
  attributionOf (subnetsOf reservedTopology) reservedBefore.rt.neighborOwnership 1000000

theorem reservedWhose_lanCounter :
    reservedWhose lanCounter.1 = .subnet ecmUnresolvedGlobalKey := by
  have hsubnets : subnetsOf reservedTopology =
      ⟨[(0xFFFFFFFF, 0xC0A80100, 0xFFFFFF00)], [], [], [], []⟩ := by
    unfold subnetsOf localV6Subnets
    rw [interfaces_reservedTopology]
    rfl
  have howners : reservedBefore.rt.neighborOwnership = ∅ := (beforeEcm_ecmConfig _ _).2
  unfold reservedWhose
  rw [hsubnets, howners]
  rfl

theorem ecmSum_lanCounter (p : Attribution → Bool) :
    ecmSum .upV4 ∅ reservedWhose p [lanCounter] =
      if p (.subnet ecmUnresolvedGlobalKey) then 100 else 0 := by
  rw [ecmSum_singleton, reservedWhose_lanCounter]
  rfl

theorem ecmFits_lanCounter : EcmFits .upV4 ∅ reservedWhose reservedBefore.devices [lanCounter] := by
  have hdevices : reservedBefore.devices = ∅ := (beforeEcm_ecmConfig _ _).1
  refine ⟨?_, fun key => ?_⟩
  · rw [ecmSum_lanCounter]
    decide
  · rw [ecmSum_lanCounter, hdevices]
    show 0 + 100 < 2 ^ 64
    decide

/-- **The reserved index counts bytes twice**: they are in the global entry and in that of the
interface. -/
theorem ecm_attributed_twice :
    let tick := addressTick lanCounter.1.ip
    let rt := startRuntime .listed reservedTopology none ∅ ∅
    let b := beforeEcm ecmConfig reservedTopology tick rt ∅ ∅
    let e := hardware reservedTopology tick b
    let counters := (readEcmStats reservedTopology rt tick.nowMs
      [(lanCounter.1, [lanCounter.2])]).1.entries
    let owner := fun key : EcmTrafficKey =>
      ownerAt b.rt.neighborOwnership (key.ip, key.ipVersion) tick.nowMs
    tick.ecmEntries = some [(lanCounter.1, [lanCounter.2])] ∧
      (∀ device, deviceBytes .upV4 b.devices device +
        deltaSum .upV4 rt.prevEcmBytes (fun _ => True) counters < 2 ^ 64) ∧
      deltaSum .upV4 rt.prevEcmBytes (fun _ => True) counters ≠
        deltaSum .upV4 rt.prevEcmBytes (fun key => owner key = none ∧ OwnAddress reservedTopology key)
          counters +
          laneBytes (inverted .upV4) e.wanEcmMetrics +
          laneUnder .upV4 e.unresolvedEcmMetrics ecmUnresolvedGlobalKey +
          sumOver (fun _ q => laneBytes .upV4 q) e.lanEcmMetrics := by
  intro tick rt b e counters owner
  have hattributed : Attributed .upV4 ∅ reservedWhose reservedBefore.devices [lanCounter] e :=
    attributed_hardware (.start .listed reservedTopology none ∅ ∅)
      (show ecmConfig.enableEcm = true from rfl) reservedTopology
      (show tick.ecmEntries = some [(lanCounter.1, [lanCounter.2])] from rfl)
      ∅ ∅ ecmFits_lanCounter
  have hcounters : counters = [lanCounter] := rfl
  have hprev : rt.prevEcmBytes = ∅ := rfl
  have htotal : deltaSum .upV4 ∅ (fun _ => True) [lanCounter] = 100 := rfl
  have hb : b = reservedBefore := rfl
  have hnow : tick.nowMs = 1000000 := rfl
  have hskipped : ecmSum .upV4 ∅ reservedWhose isSkipped [lanCounter] =
      deltaSum .upV4 ∅ (fun key => owner key = none ∧ OwnAddress reservedTopology key) [lanCounter] := by
    show _ = deltaSum .upV4 ∅ (fun key => ownerAt b.rt.neighborOwnership (key.ip, key.ipVersion)
      tick.nowMs = none ∧ OwnAddress reservedTopology key) [lanCounter]
    rw [hb, hnow]
    exact ecmSum_eq_deltaSum (fun _ => isSkipped_attributionOf) [lanCounter]
  have hdevices : b.devices = ∅ := (beforeEcm_ecmConfig _ _).1
  refine ⟨rfl, fun device => ?_, ?_⟩
  · rw [hdevices, hcounters, hprev, htotal]
    show 0 + 100 < 2 ^ 64
    decide
  · rw [hcounters, hprev, htotal, ← hskipped, hattributed.external, hattributed.unresolved,
      hattributed.lanTotal, ecmSum_lanCounter, ecmSum_lanCounter, ecmSum_lanCounter, ecmSum_lanCounter]
    decide

end BandixPlus.Monitor.Conservation
