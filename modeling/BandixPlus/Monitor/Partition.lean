import BandixPlus.Lib.Tally
import BandixPlus.Monitor.Conservation

/-! # Software bytes are attributed once

`monitor.rs`, the loop of `collect_snapshot` over the counters of the devices.

* `Placed`: after some counters of a tick, each place has those that belong there, added up.
* `counterLoop_partition`: on an interface other than the WAN one the deltas are what the devices got,
  the broadcast, the multicast and the unresolved traffic; a registered device is never unresolved; and
  the order of the counters does not matter. -/

namespace BandixPlus.Monitor.Partition

open BandixPlus.Common BandixPlus.Lib.Maps BandixPlus.Lib.Saturating BandixPlus.Lib.Tally
open BandixPlus.Monitor.Counters BandixPlus.Monitor.Snapshot BandixPlus.Monitor.Topology
open BandixPlus.Monitor.Runtime BandixPlus.Monitor.Interfaces BandixPlus.Monitor.Devices
open BandixPlus.Monitor.Registry BandixPlus.Monitor.Conservation

/-! ### Places -/

/-- Where the bytes of a counter go. -/
inductive Place where
  | bcast | mcast | device | ofWan | unresolved
  deriving DecidableEq

/-- **The place of a counter**, which only the devices and the registry before the loop decide. -/
def placeOf (registry : HashMap DeviceKey KnownDevice) (wan : Option UInt32) (devices : DevicesGroup)
    (k : DeviceTrafficKey) : Place :=
  if isBroadcastMac k.mac then .bcast
  else if isMulticastMac k.mac then .mcast
  else if (k.ifindex, k.mac) ∈ devices ∨ some k.ifindex ≠ wan ∧ (k.ifindex, k.mac) ∈ registry then
    .device
  else if some k.ifindex = wan then .ofWan
  else .unresolved

/-- A counter of a tick. -/
abbrev TcCounter := Σ _ : DeviceTrafficKey, TrafficValue

def deltaOf (prev : HashMap DeviceTrafficKey UInt64) (e : TcCounter) : UInt64 :=
  deltaBytes e.2.bytes ((prev.lookup e.1).getD 0)

/-- The delta of a counter, if it is one of the lane. -/
def laneDelta (l : Lane) (prev : HashMap DeviceTrafficKey UInt64) (e : TcCounter) : ℕ :=
  if laneOf e.1.ipVersion e.1.direction = some l then (deltaOf prev e).toNat else 0

/-- **The sum of the deltas** of the counters that satisfy `p`, by lane. -/
def tcSum (l : Lane) (prev : HashMap DeviceTrafficKey UInt64) (p : DeviceTrafficKey → Bool)
    (es : List TcCounter) : ℕ :=
  (es.map fun e => if p e.1 then laneDelta l prev e else 0).sum

section
variable {l : Lane} {prev : HashMap DeviceTrafficKey UInt64}

theorem tcSum_append (p : DeviceTrafficKey → Bool) (es es' : List TcCounter) :
    tcSum l prev p (es ++ es') = tcSum l prev p es + tcSum l prev p es' := by
  unfold tcSum
  rw [List.map_append, List.sum_append]

theorem tcSum_concat (p : DeviceTrafficKey → Bool) (es : List TcCounter) (e : TcCounter) :
    tcSum l prev p (es ++ [e]) = tcSum l prev p es + if p e.1 then laneDelta l prev e else 0 := by
  rw [tcSum_append]
  simp [tcSum]

theorem tcSum_le (p : DeviceTrafficKey → Bool) (es : List TcCounter) :
    tcSum l prev p es ≤ tcSum l prev (fun _ => true) es := by
  induction es with
  | nil => exact Nat.le_refl 0
  | cons e rest ih =>
    have hcons : ∀ p, tcSum l prev p (e :: rest) =
        (if p e.1 then laneDelta l prev e else 0) + tcSum l prev p rest := fun _ => List.sum_cons
    rw [hcons, hcons, if_pos rfl]
    split_ifs <;> omega

theorem tcSum_perm (p : DeviceTrafficKey → Bool) {es es' : List TcCounter} (h : es.Perm es') :
    tcSum l prev p es = tcSum l prev p es' :=
  (h.map _).sum_eq

theorem laneDelta_of_zero {e : TcCounter} (h : deltaOf prev e = 0) : laneDelta l prev e = 0 := by
  unfold laneDelta
  rw [h]
  split_ifs <;> rfl

/-- The counters that moved are enough. -/
theorem sum_moved (p : DeviceTrafficKey → Bool) (es : List TcCounter) :
    ((es.filter fun e => deltaOf prev e ≠ 0 ∧ p e.1).map (laneDelta l prev)).sum =
      tcSum l prev p es := by
  unfold tcSum
  induction es with
  | nil => rfl
  | cons e rest ih =>
    rw [List.filter_cons, List.map_cons, List.sum_cons, ← ih]
    by_cases hzero : deltaOf prev e = 0
    · have hlane : laneDelta l prev e = 0 := laneDelta_of_zero hzero
      simp [hzero, hlane]
    · cases p e.1 <;> simp [hzero]

end

/-! ### Adding up -/

theorem raise_right_comm (q : Quad UInt64) (l l' : Lane) (a b : UInt64) :
    raise (raise q l a) l' b = raise (raise q l' b) l a := by
  have hcomm : ∀ v : UInt64, satAdd (satAdd v a) b = satAdd (satAdd v b) a := by
    intro v
    rw [satAdd_assoc, satAdd_comm a b, satAdd_assoc]
  cases l <;> cases l' <;> simp [raise, Quad.modify, hcomm]

theorem fillQuad_right_comm (v v' d d' : UInt8) (q : CounterQuad) (a b : UInt64) (sec : Float) :
    fillQuad v' d' (fillQuad v d q a sec) b sec = fillQuad v d (fillQuad v' d' q b sec) a sec := by
  unfold fillQuad
  cases laneOf v d with
  | none => rfl
  | some l =>
    cases laneOf v' d' with
    | none => rfl
    | some l' =>
      dsimp only
      rw [raise_right_comm, raise_right_comm q.bytes]

section
variable (wan : Option UInt32) (prev : HashMap DeviceTrafficKey UInt64) (sec : Float)

/-- What a counter adds to the traffic of an interface. -/
def fillBy (q : CounterQuad) (e : TcCounter) : CounterQuad :=
  fillQuadFor (some e.1.ifindex = wan) e.1.ipVersion e.1.direction q (deltaOf prev e) sec

/-- What it adds to the traffic of a device. -/
def fillItem (item : DeviceListItem) (e : TcCounter) : DeviceListItem :=
  fillDevice e.1.ipVersion e.1.direction (deltaOf prev e) sec item

instance : RightCommutative (fillBy wan prev sec) where
  right_comm q e e' := by
    unfold fillBy fillQuadFor fillQuadWan
    split_ifs <;> exact fillQuad_right_comm ..

instance : RightCommutative (fillItem prev sec) where
  right_comm item e e' := by
    unfold fillItem fillDevice
    dsimp only
    rw [fillQuad_right_comm]

variable {wan prev}

/-- Counters that are added up: their sum, up to the largest value. -/
theorem laneBytes_foldl (l : Lane) {es : List TcCounter} (hlan : ∀ e ∈ es, some e.1.ifindex ≠ wan)
    (q : CounterQuad) :
    laneBytes l (es.foldl (fillBy wan prev sec) q) =
      min (laneBytes l q + (es.map (laneDelta l prev)).sum) (2 ^ 64 - 1) := by
  induction es generalizing q with
  | nil =>
    have hlt := laneBytes_lt l q
    simp
    omega
  | cons e rest ih =>
    obtain ⟨he, hrest⟩ := List.forall_mem_cons.mp hlan
    have hfill : laneBytes l (fillBy wan prev sec q e) =
        min (laneBytes l q + laneDelta l prev e) (2 ^ 64 - 1) := by
      unfold fillBy fillQuadFor
      rw [decide_eq_false he]
      exact laneBytes_fillQuad_min ..
    rw [List.foldl_cons, ih hrest, hfill, List.map_cons, List.sum_cons]
    omega

theorem laneBytes_foldl_item (l : Lane) (es : List TcCounter) (item : DeviceListItem) :
    laneBytes l (es.foldl (fillItem prev sec) item).metrics =
      min (laneBytes l item.metrics + (es.map (laneDelta l prev)).sum) (2 ^ 64 - 1) := by
  induction es generalizing item with
  | nil =>
    have hlt := laneBytes_lt l item.metrics
    simp
    omega
  | cons e rest ih =>
    have hfill : laneBytes l (fillItem prev sec item e).metrics =
        min (laneBytes l item.metrics + laneDelta l prev e) (2 ^ 64 - 1) :=
      laneBytes_fillQuad_min ..
    rw [List.foldl_cons, ih, hfill, List.map_cons, List.sum_cons]
    omega

end

/-! ### What each place has -/

section
variable (registry : HashMap DeviceKey KnownDevice) (wan : Option UInt32) (devices : DevicesGroup)
  (nowMs : UInt64) (sec : Float) (prev : HashMap DeviceTrafficKey UInt64)

/-- The interface under which a counter is added up in a place. -/
def bucketKey (p : Place) (e : TcCounter) : Option UInt32 :=
  if deltaOf prev e ≠ 0 ∧ placeOf registry wan devices e.1 = p then some e.1.ifindex else none

/-- The device whose traffic a counter is. -/
def deviceKey (e : TcCounter) : Option DeviceKey :=
  if deltaOf prev e ≠ 0 ∧ placeOf registry wan devices e.1 = .device then
    some (e.1.ifindex, e.1.mac)
  else none

def bucketOf (p : Place) (es : List TcCounter) : HashMap UInt32 CounterQuad :=
  tally (bucketKey registry wan devices prev p) .zero (fillBy wan prev sec) es ∅

/-- The row of a device. A known device gets one with its first counter. -/
def rowOf (es : List TcCounter) (key : DeviceKey) : Option DeviceListItem :=
  let mine := ofKey (deviceKey registry wan devices prev) key es
  ((devices.lookup key).or
    (if mine = [] then none else (registry.lookup key).map (activatedItem · nowMs))).map fun item =>
      mine.foldl (fillItem prev sec) item

/-- **After the counters `done`** each place has those that belong there. -/
structure Placed (done : List TcCounter) (st : CounterLoop) : Prop where
  base : ∀ k ∉ done.map Sigma.fst, st.prevDeviceBytes.lookup k = prev.lookup k
  bcast : st.breakdown.bcast = bucketOf registry wan devices sec prev .bcast done
  mcast : st.breakdown.mcast = bucketOf registry wan devices sec prev .mcast done
  unresolved : st.breakdown.unresolved = bucketOf registry wan devices sec prev .unresolved done
  row : ∀ key, st.devices.lookup key = rowOf registry wan devices nowMs sec prev done key

end

section
variable {registry : HashMap DeviceKey KnownDevice} {wan : Option UInt32} {devices : DevicesGroup}
  {nowMs : UInt64} {sec : Float} {prev : HashMap DeviceTrafficKey UInt64}

theorem bucketOf_concat (p : Place) (done : List TcCounter) (e : TcCounter) :
    bucketOf registry wan devices sec prev p (done ++ [e]) =
      if deltaOf prev e ≠ 0 ∧ placeOf registry wan devices e.1 = p then
        upsert e.1.ifindex .zero (fun q => fillBy wan prev sec q e)
          (bucketOf registry wan devices sec prev p done)
      else bucketOf registry wan devices sec prev p done := by
  unfold bucketOf tally bucketKey
  rw [List.foldl_append, List.foldl_cons, List.foldl_nil]
  split_ifs <;> rfl

theorem bucketOf_idle {e : TcCounter} (h : deltaOf prev e = 0) (p : Place) (done : List TcCounter) :
    bucketOf registry wan devices sec prev p (done ++ [e]) =
      bucketOf registry wan devices sec prev p done := by
  rw [bucketOf_concat, if_neg fun hboth => hboth.1 h]

/-- The place that has the counter, and the others. -/
theorem bucketOf_moved {e : TcCounter} (h : deltaOf prev e ≠ 0) (p : Place) (done : List TcCounter) :
    bucketOf registry wan devices sec prev p (done ++ [e]) =
      if placeOf registry wan devices e.1 = p then
        fillEntry (some e.1.ifindex = wan) e.1 (deltaOf prev e) sec
          (bucketOf registry wan devices sec prev p done)
      else bucketOf registry wan devices sec prev p done := by
  rw [bucketOf_concat]
  simp only [h, ne_eq, not_false_eq_true, true_and]
  rfl

theorem ofKey_concat {key : TcCounter → Option DeviceKey} (done : List TcCounter) (e : TcCounter)
    (k : DeviceKey) :
    ofKey key k (done ++ [e]) = if key e = some k then ofKey key k done ++ [e] else ofKey key k done := by
  unfold ofKey
  rw [List.filter_append]
  split_ifs with h <;> simp [h]

/-- A counter that is not of the device changes nothing there. -/
theorem rowOf_concat_ne {key : DeviceKey} {e : TcCounter}
    (h : deviceKey registry wan devices prev e ≠ some key) (done : List TcCounter) :
    rowOf registry wan devices nowMs sec prev (done ++ [e]) key =
      rowOf registry wan devices nowMs sec prev done key := by
  unfold rowOf
  rw [ofKey_concat, if_neg h]

/-- A counter of the device raises its row, which is made if there is none. -/
theorem rowOf_concat {key : DeviceKey} {e : TcCounter}
    (h : deviceKey registry wan devices prev e = some key) (done : List TcCounter) :
    rowOf registry wan devices nowMs sec prev (done ++ [e]) key =
      ((rowOf registry wan devices nowMs sec prev done key).or
        ((registry.lookup key).map (activatedItem · nowMs))).map (fillItem prev sec · e) := by
  have hne : ofKey (deviceKey registry wan devices prev) key done ++ [e] ≠ [] := by simp
  unfold rowOf
  rw [ofKey_concat, if_pos h]
  dsimp only
  rw [if_neg hne]
  cases devices.lookup key with
  | some item => simp
  | none =>
    cases hl : ofKey (deviceKey registry wan devices prev) key done with
    | nil => simp
    | cons first rest =>
      cases registry.lookup key <;> simp

theorem lookup_activateKnownDevice (devices : DevicesGroup) (key k : DeviceKey) :
    (activateKnownDevice devices registry key nowMs).lookup k =
      if k = key then (devices.lookup key).or ((registry.lookup key).map (activatedItem · nowMs))
      else devices.lookup k := by
  unfold activateKnownDevice
  by_cases hmem : key ∈ devices
  · obtain ⟨item, hitem⟩ := mem_iff_lookup.mp hmem
    rw [if_pos hmem, hitem]
    split_ifs with hk
    · rw [hk, hitem]
      rfl
    · rfl
  · rw [if_neg hmem, AList.lookup_eq_none.mpr hmem]
    cases registry.lookup key with
    | none =>
      split_ifs with hk
      · rw [hk]
        exact AList.lookup_eq_none.mpr hmem
      · rfl
    | some known => exact lookup_insert_eq ..

/-! ### One counter -/

theorem isMulticastMac_of_broadcast {mac : Mac} (h : isBroadcastMac mac = true) :
    isMulticastMac mac = true := by
  rw [show mac = _ from of_decide_eq_true h]
  decide

theorem placeOf_eq_device {k : DeviceTrafficKey} (h : placeOf registry wan devices k = .device) :
    (k.ifindex, k.mac) ∈ devices ∨ some k.ifindex ≠ wan ∧ (k.ifindex, k.mac) ∈ registry := by
  unfold placeOf at h
  split_ifs at h with hbcast hmcast hdevice hwan
  exact hdevice

theorem deviceKey_eq_some {e : TcCounter} {key : DeviceKey} :
    deviceKey registry wan devices prev e = some key ↔
      deltaOf prev e ≠ 0 ∧ placeOf registry wan devices e.1 = .device ∧
        (e.1.ifindex, e.1.mac) = key := by
  unfold deviceKey
  split_ifs with h
  · simp [h.1, h.2]
  · exact ⟨fun hnone => (by cases hnone), fun ⟨hmoved, hplace, _⟩ => absurd ⟨hmoved, hplace⟩ h⟩

/-- The devices of the loop are those of its start and known ones of the LAN side. -/
structure Known (registry : HashMap DeviceKey KnownDevice) (wan : Option UInt32)
    (devices current : DevicesGroup) : Prop where
  keep : ∀ key ∈ devices, key ∈ current
  known : ∀ key ∈ current, key ∈ devices ∨ some key.1 ≠ wan ∧ key ∈ registry

theorem Placed.devices_known {done : List TcCounter} {st : CounterLoop}
    (h : Placed registry wan devices nowMs sec prev done st) :
    Known registry wan devices st.devices where
  keep key hkey := by
    obtain ⟨item, hitem⟩ := mem_iff_lookup.mp hkey
    rw [mem_iff_lookup, h.row]
    unfold rowOf
    rw [hitem]
    exact ⟨_, rfl⟩
  known key hkey := by
    obtain ⟨item, hitem⟩ := mem_iff_lookup.mp hkey
    rw [h.row] at hitem
    cases hdevice : devices.lookup key with
    | some old => exact Or.inl (mem_iff_lookup.mpr ⟨old, hdevice⟩)
    | none =>
      -- the row was made for a counter
      refine Or.inr ?_
      unfold rowOf at hitem
      simp only [hdevice, Option.none_or] at hitem
      cases hmine : ofKey (deviceKey registry wan devices prev) key done with
      | nil => simp [hmine] at hitem
      | cons e rest =>
        have hmem : e ∈ ofKey (deviceKey registry wan devices prev) key done := by simp [hmine]
        obtain ⟨-, hplace, rfl⟩ := deviceKey_eq_some.mp (mem_ofKey.mp hmem).2
        refine (placeOf_eq_device hplace).resolve_left fun hin => ?_
        rw [AList.lookup_eq_none] at hdevice
        exact hdevice hin

/-- What a counter that moved does, by its place. -/
def placeCounter (registry : HashMap DeviceKey KnownDevice) (wan : Option UInt32) (nowMs : UInt64)
    (k : DeviceTrafficKey) (delta : UInt64) (sec : Float) (current : DevicesGroup) (b : Breakdown) :
    Place → DevicesGroup × Breakdown
  | .bcast => (current, { b with bcast := fillEntry (some k.ifindex = wan) k delta sec b.bcast })
  | .mcast => (current, { b with mcast := fillEntry (some k.ifindex = wan) k delta sec b.mcast })
  | .device =>
    (Lib.Maps.modify (k.ifindex, k.mac) (fillDevice k.ipVersion k.direction delta sec)
      (activateKnownDevice current registry (k.ifindex, k.mac) nowMs), b)
  | .ofWan => (current, b)
  | .unresolved =>
    (current, { b with unresolved := fillEntry (some k.ifindex = wan) k delta sec b.unresolved })

theorem activateKnownDevice_of_mem {current : DevicesGroup} {key : DeviceKey} (h : key ∈ current)
    (registry : HashMap DeviceKey KnownDevice) (nowMs : UInt64) :
    activateKnownDevice current registry key nowMs = current := by
  unfold activateKnownDevice
  rw [if_pos h]

theorem activateKnownDevice_of_notMem {key : DeviceKey} (h : key ∉ registry) (current : DevicesGroup)
    (nowMs : UInt64) : activateKnownDevice current registry key nowMs = current := by
  unfold activateKnownDevice
  rw [AList.lookup_eq_none.mpr h]
  split_ifs <;> rfl

/-- **The place is decided before the loop**, although rows are made during it. -/
theorem attributeCounter_place {current : DevicesGroup} (h : Known registry wan devices current)
    (k : DeviceTrafficKey) (delta : UInt64) (b : Breakdown) :
    attributeCounter wan k delta sec
        (if some k.ifindex ≠ wan ∧ !isMulticastMac k.mac then
          activateKnownDevice current registry (k.ifindex, k.mac) nowMs
        else current) b =
      placeCounter registry wan nowMs k delta sec current b (placeOf registry wan devices k) := by
  unfold attributeCounter placeOf
  dsimp only
  by_cases hbcast : isBroadcastMac k.mac = true
  · have hmcast := isMulticastMac_of_broadcast hbcast
    simp [hbcast, hmcast, placeCounter]
  by_cases hmcast : isMulticastMac k.mac = true
  · simp [hbcast, hmcast, placeCounter]
  by_cases hwan : some k.ifindex = wan
  · -- no row is made on the WAN interface
    have hiff : (k.ifindex, k.mac) ∈ current ↔ (k.ifindex, k.mac) ∈ devices :=
      ⟨fun hmem => (h.known _ hmem).resolve_right fun hlan => hlan.1 hwan, h.keep _⟩
    by_cases hmem : (k.ifindex, k.mac) ∈ devices
    · have hactivate := activateKnownDevice_of_mem (hiff.mpr hmem) registry nowMs
      simp [hbcast, hmcast, hwan, hmem, hiff.mpr hmem, placeCounter, hactivate]
    · have hcurrent : (k.ifindex, k.mac) ∉ current := fun hin => hmem (hiff.mp hin)
      simp [hbcast, hmcast, hwan, hmem, hcurrent, placeCounter]
  · by_cases hmem : (k.ifindex, k.mac) ∈ devices ∨ (k.ifindex, k.mac) ∈ registry
    · have hin : (k.ifindex, k.mac) ∈ activateKnownDevice current registry (k.ifindex, k.mac) nowMs :=
        mem_activateKnownDevice (hmem.symm.imp_right (h.keep _)) nowMs
      simp [hbcast, hmcast, hwan, hmem, hin, placeCounter]
    · obtain ⟨hdevices, hregistry⟩ := not_or.mp hmem
      have hcurrent : (k.ifindex, k.mac) ∉ current := fun hin =>
        (h.known _ hin).elim hdevices fun hlan => hregistry hlan.2
      have hactivate := activateKnownDevice_of_notMem hregistry current nowMs
      simp [hbcast, hmcast, hwan, hdevices, hregistry, hcurrent, hactivate, placeCounter]

/-- A counter that did not move. -/
theorem counterStep_idle {st : CounterLoop} {k : DeviceTrafficKey} {v : TrafficValue}
    (h : deltaBytes v.bytes ((st.prevDeviceBytes.lookup k).getD 0) = 0) (prune : Bool) :
    (counterStep registry wan nowMs sec prune st k v).devices = st.devices ∧
      (counterStep registry wan nowMs sec prune st k v).breakdown = st.breakdown := by
  unfold counterStep
  dsimp only
  rw [if_pos h]
  exact ⟨rfl, rfl⟩

/-- **A counter that moved.** -/
theorem counterStep_moved {st : CounterLoop} {k : DeviceTrafficKey} {v : TrafficValue}
    {delta : UInt64} (hdelta : deltaBytes v.bytes ((st.prevDeviceBytes.lookup k).getD 0) = delta)
    (hmoved : delta ≠ 0) (h : Known registry wan devices st.devices) (prune : Bool) :
    ((counterStep registry wan nowMs sec prune st k v).devices,
        (counterStep registry wan nowMs sec prune st k v).breakdown) =
      placeCounter registry wan nowMs k delta sec st.devices st.breakdown
        (placeOf registry wan devices k) := by
  rw [← attributeCounter_place h]
  unfold counterStep
  dsimp only
  rw [hdelta, if_neg hmoved]

theorem base_counterStep (st : CounterLoop) (k : DeviceTrafficKey) (v : TrafficValue) (prune : Bool) :
    (counterStep registry wan nowMs sec prune st k v).prevDeviceBytes =
      st.prevDeviceBytes.insert k v.bytes := by
  unfold counterStep
  dsimp only
  split_ifs <;> rfl

theorem Placed.delta_eq {done : List TcCounter} {st : CounterLoop} {e : TcCounter}
    (h : Placed registry wan devices nowMs sec prev done st) (hnew : e.1 ∉ done.map Sigma.fst) :
    deltaBytes e.2.bytes ((st.prevDeviceBytes.lookup e.1).getD 0) = deltaOf prev e := by
  rw [h.base e.1 hnew]
  rfl

/-- **One more counter.** -/
theorem placed_counterStep {done : List TcCounter} {st : CounterLoop} {e : TcCounter}
    (h : Placed registry wan devices nowMs sec prev done st) (hnew : e.1 ∉ done.map Sigma.fst)
    (prune : Bool) :
    Placed registry wan devices nowMs sec prev (done ++ [e])
      (counterStep registry wan nowMs sec prune st e.1 e.2) := by
  have hbase : ∀ k ∉ (done ++ [e]).map Sigma.fst,
      (counterStep registry wan nowMs sec prune st e.1 e.2).prevDeviceBytes.lookup k =
        prev.lookup k := by
    intro k hk
    rw [List.map_append, List.map_singleton, List.mem_append, List.mem_singleton, not_or] at hk
    rw [base_counterStep, AList.lookup_insert_ne hk.2, h.base k hk.1]
  have hdelta := h.delta_eq hnew
  by_cases hmoved : deltaOf prev e = 0
  · obtain ⟨hdevices, hbreakdown⟩ := counterStep_idle (hdelta.trans hmoved) prune
    refine ⟨hbase, ?_, ?_, ?_, fun key => ?_⟩
    · rw [hbreakdown, bucketOf_idle hmoved, h.bcast]
    · rw [hbreakdown, bucketOf_idle hmoved, h.mcast]
    · rw [hbreakdown, bucketOf_idle hmoved, h.unresolved]
    · rw [hdevices, rowOf_concat_ne fun hkey => (deviceKey_eq_some.mp hkey).1 hmoved, h.row]
  · have hstep := @counterStep_moved registry wan devices nowMs sec st e.1 e.2 _ hdelta hmoved
      h.devices_known prune
    obtain ⟨hdevices, hbreakdown⟩ := Prod.mk.inj hstep
    have hother : ∀ key, placeOf registry wan devices e.1 ≠ .device →
        rowOf registry wan devices nowMs sec prev (done ++ [e]) key = st.devices.lookup key := by
      intro key hplace
      rw [rowOf_concat_ne fun hkey => hplace (deviceKey_eq_some.mp hkey).2.1, h.row]
    refine ⟨hbase, ?_, ?_, ?_, fun key => ?_⟩
    · rw [hbreakdown, bucketOf_moved hmoved, ← h.bcast]
      cases placeOf registry wan devices e.1 <;> rfl
    · rw [hbreakdown, bucketOf_moved hmoved, ← h.mcast]
      cases placeOf registry wan devices e.1 <;> rfl
    · rw [hbreakdown, bucketOf_moved hmoved, ← h.unresolved]
      cases placeOf registry wan devices e.1 <;> rfl
    · rw [hdevices]
      cases hplace : placeOf registry wan devices e.1 with
      | device =>
        show (Lib.Maps.modify (e.1.ifindex, e.1.mac) _ _).lookup key = _
        rw [lookup_modify_eq, lookup_activateKnownDevice, lookup_activateKnownDevice, if_pos rfl]
        by_cases hkey : key = (e.1.ifindex, e.1.mac)
        · rw [if_pos hkey, rowOf_concat (deviceKey_eq_some.mpr ⟨hmoved, hplace, hkey.symm⟩), h.row,
            ← hkey]
          rfl
        · rw [if_neg hkey, if_neg hkey, h.row, rowOf_concat_ne fun heq =>
            hkey (deviceKey_eq_some.mp heq).2.2.symm]
      | bcast => exact (hother key (by simp [hplace])).symm
      | mcast => exact (hother key (by simp [hplace])).symm
      | ofWan => exact (hother key (by simp [hplace])).symm
      | unresolved => exact (hother key (by simp [hplace])).symm

theorem placed_foldl {es : List TcCounter} (hnodup : (es.map Sigma.fst).Nodup)
    (lastActive : HashMap DeviceTrafficKey UInt64) (prune : Bool) :
    Placed registry wan devices nowMs sec prev es
      (es.foldl (fun st e => counterStep registry wan nowMs sec prune st e.1 e.2)
        ⟨prev, lastActive, devices, ⟨∅, ∅, ∅⟩, []⟩) := by
  induction es using List.reverseRecOn with
  | nil =>
    refine ⟨fun _ _ => rfl, rfl, rfl, rfl, fun key => ?_⟩
    unfold rowOf
    simp [ofKey]
  | append_singleton done e ih =>
    rw [List.map_append, List.nodup_append] at hnodup
    obtain ⟨hdone, -, hdisjoint⟩ := hnodup
    have hnew : e.1 ∉ done.map Sigma.fst := fun hmem =>
      hdisjoint _ hmem _ (List.mem_singleton_self _) rfl
    rw [List.foldl_append]
    exact placed_counterStep (ih hdone) hnew prune

end

/-! ### Bytes -/

section
variable (registry : HashMap DeviceKey KnownDevice) (wan : Option UInt32) (devices : DevicesGroup)

/-- The counters of a place on an interface. -/
def isAt (p : Place) (i : UInt32) (k : DeviceTrafficKey) : Bool :=
  placeOf registry wan devices k = p ∧ k.ifindex = i

/-- The counters of a device. -/
def isOf (key : DeviceKey) (k : DeviceTrafficKey) : Bool :=
  placeOf registry wan devices k = .device ∧ (k.ifindex, k.mac) = key

/-- **Nothing saturates** on an interface. -/
structure TcFits (l : Lane) (prev : HashMap DeviceTrafficKey UInt64) (i : UInt32)
    (es : List TcCounter) : Prop where
  bcast : tcSum l prev (isAt registry wan devices .bcast i) es < 2 ^ 64
  mcast : tcSum l prev (isAt registry wan devices .mcast i) es < 2 ^ 64
  unresolved : tcSum l prev (isAt registry wan devices .unresolved i) es < 2 ^ 64
  device : ∀ key : DeviceKey, key.1 = i →
    deviceBytes l devices key + tcSum l prev (isOf registry wan devices key) es < 2 ^ 64

end

section
variable {registry : HashMap DeviceKey KnownDevice} {wan : Option UInt32} {devices : DevicesGroup}
  {nowMs : UInt64} {sec : Float} {prev : HashMap DeviceTrafficKey UInt64} {l : Lane} {i : UInt32}

theorem laneUnder_bucketOf (hlan : some i ≠ wan) (p : Place) (es : List TcCounter) :
    laneUnder l (bucketOf registry wan devices sec prev p es) i =
      min (tcSum l prev (isAt registry wan devices p i) es) (2 ^ 64 - 1) := by
  have hmine : (es.filter fun e => bucketKey registry wan devices prev p e = some i) =
      es.filter fun e => deltaOf prev e ≠ 0 ∧ isAt registry wan devices p i e.1 := by
    refine List.filter_congr fun e _ => ?_
    unfold bucketKey isAt
    split_ifs with h
    · simp [h.1, h.2]
    · simp only [not_and] at h
      simp
      tauto
  have hon : ∀ e ∈ es.filter fun e => bucketKey registry wan devices prev p e = some i,
      some e.1.ifindex ≠ wan := by
    intro e he
    rw [hmine] at he
    have hat := (of_decide_eq_true (List.mem_filter.mp he).2).2
    rw [(of_decide_eq_true hat).2]
    exact hlan
  have hfold := @laneBytes_foldl wan prev sec l _ hon .zero
  rw [laneBytes_zero, Nat.zero_add] at hfold
  rw [← sum_moved, ← hmine, ← hfold]
  unfold laneUnder bucketOf
  rw [lookup_tally]
  split_ifs with hnil
  · rw [hnil]
    rfl
  · rfl

theorem sum_deviceKey (key : DeviceKey) (es : List TcCounter) :
    ((ofKey (deviceKey registry wan devices prev) key es).map (laneDelta l prev)).sum =
      tcSum l prev (isOf registry wan devices key) es := by
  rw [← sum_moved]
  unfold ofKey
  refine congrArg (fun es => (List.map (laneDelta l prev) es).sum) (List.filter_congr fun e _ => ?_)
  have hiff := @deviceKey_eq_some registry wan devices prev e key
  unfold isOf
  simp only [hiff, decide_eq_true_eq]

/-- A device has what it had and its counters, up to the largest value. -/
theorem deviceBytes_row_le {done : List TcCounter} {st : CounterLoop}
    (h : Placed registry wan devices nowMs sec prev done st) (key : DeviceKey) :
    deviceBytes l st.devices key ≤
      deviceBytes l devices key + tcSum l prev (isOf registry wan devices key) done := by
  rw [← sum_deviceKey]
  unfold deviceBytes
  rw [h.row]
  unfold rowOf
  cases devices.lookup key with
  | some item =>
    have hfold := @laneBytes_foldl_item prev sec l
      (ofKey (deviceKey registry wan devices prev) key done) item
    simp
    omega
  | none =>
    simp only [Option.none_or]
    split_ifs with hnil
    · simp
    · cases registry.lookup key with
      | none => simp
      | some known =>
        have hfold := @laneBytes_foldl_item prev sec l
          (ofKey (deviceKey registry wan devices prev) key done) (activatedItem known nowMs)
        have hzero : laneBytes l (activatedItem known nowMs).metrics = 0 := laneBytes_zero l
        simp
        omega

/-- What is filled in for a device goes to the devices on its interface. -/
theorem devicesOn_fillDevice {group : DevicesGroup} {key : DeviceKey} (hmem : key ∈ group) {e : TcCounter}
    (hroom : key.1 = i → deviceBytes l group key + laneDelta l prev e < 2 ^ 64) :
    devicesOn l (Lib.Maps.modify key
        (fillDevice e.1.ipVersion e.1.direction (deltaOf prev e) sec) group) i =
      devicesOn l group i + if key.1 = i then laneDelta l prev e else 0 := by
  obtain ⟨item, hitem⟩ := mem_iff_lookup.mp hmem
  have hold : deviceBytes l group key = laneBytes l item.metrics := by
    unfold deviceBytes
    rw [hitem]
    rfl
  have hfill : laneBytes l
      (fillDevice e.1.ipVersion e.1.direction (deltaOf prev e) sec item).metrics =
        min (laneBytes l item.metrics + laneDelta l prev e) (2 ^ 64 - 1) :=
    laneBytes_fillQuad_min ..
  have hinsert := devicesOn_insert l group key
    (fillDevice e.1.ipVersion e.1.direction (deltaOf prev e) sec item) i
  rw [hold] at hroom hinsert
  unfold Lib.Maps.modify
  rw [hitem]
  dsimp only
  split_ifs at hinsert ⊢ with hi
  · have hroom := hroom hi
    omega
  · omega

/-- One more counter adds its delta to the devices on its interface if it is one of a device. -/
theorem devicesOn_counterStep {done : List TcCounter} {st : CounterLoop} {e : TcCounter}
    (h : Placed registry wan devices nowMs sec prev done st) (hnew : e.1 ∉ done.map Sigma.fst)
    (hfits : ∀ key : DeviceKey, key.1 = i → deviceBytes l devices key +
      tcSum l prev (isOf registry wan devices key) (done ++ [e]) < 2 ^ 64) (prune : Bool) :
    devicesOn l (counterStep registry wan nowMs sec prune st e.1 e.2).devices i =
      devicesOn l st.devices i +
        if isAt registry wan devices .device i e.1 then laneDelta l prev e else 0 := by
  have hdelta := h.delta_eq hnew
  by_cases hmoved : deltaOf prev e = 0
  · have hdevices := (@counterStep_idle registry wan nowMs sec st e.1 e.2
      (hdelta.trans hmoved) prune).1
    rw [hdevices, laneDelta_of_zero hmoved]
    simp
  have hstep := @counterStep_moved registry wan devices nowMs sec st e.1 e.2 _ hdelta hmoved
    h.devices_known prune
  have hdevices := (Prod.mk.inj hstep).1
  rw [hdevices]
  by_cases hplace : placeOf registry wan devices e.1 = .device
  · have hmem : (e.1.ifindex, e.1.mac) ∈
        activateKnownDevice st.devices registry (e.1.ifindex, e.1.mac) nowMs := by
      refine mem_activateKnownDevice ?_ nowMs
      exact (placeOf_eq_device hplace).symm.imp And.right (h.devices_known.keep _)
    have hrow := @deviceBytes_row_le registry wan devices nowMs sec prev l done st h
      (e.1.ifindex, e.1.mac)
    have hroom := hfits (e.1.ifindex, e.1.mac)
    have hisOf : isOf registry wan devices (e.1.ifindex, e.1.mac) e.1 = true :=
      decide_eq_true ⟨hplace, rfl⟩
    have hisAt : isAt registry wan devices .device i e.1 = decide (e.1.ifindex = i) := by
      unfold isAt
      simp [hplace]
    rw [tcSum_concat, if_pos hisOf] at hroom
    rw [hplace, hisAt, ite_decide, ← devicesOn_activateKnownDevice l st.devices registry
      (e.1.ifindex, e.1.mac) nowMs]
    refine devicesOn_fillDevice hmem fun hi => ?_
    rw [deviceBytes_activateKnownDevice]
    have hroom := hroom hi
    omega
  · have hisAt : isAt registry wan devices .device i e.1 = false := by
      unfold isAt
      simp [hplace]
    rw [hisAt]
    cases hp : placeOf registry wan devices e.1 with
    | device => exact absurd hp hplace
    | bcast => rfl
    | mcast => rfl
    | ofWan => rfl
    | unresolved => rfl

theorem TcFits.of_total {es : List TcCounter} (hdevices : ∀ key, deviceBytes l devices key = 0)
    (h : tcSum l prev (fun _ => true) es < 2 ^ 64) : TcFits registry wan devices l prev i es :=
  ⟨lt_of_le_of_lt (tcSum_le _ es) h, lt_of_le_of_lt (tcSum_le _ es) h,
    lt_of_le_of_lt (tcSum_le _ es) h, fun key _ => by
      rw [hdevices, Nat.zero_add]
      exact lt_of_le_of_lt (tcSum_le _ es) h⟩

theorem TcFits.of_append {es es' : List TcCounter}
    (h : TcFits registry wan devices l prev i (es ++ es')) :
    TcFits registry wan devices l prev i es := by
  have happend : ∀ p, tcSum l prev p (es ++ es') = tcSum l prev p es + tcSum l prev p es' :=
    fun p => tcSum_append p es es'
  obtain ⟨hbcast, hmcast, hunresolved, hdevice⟩ := h
  rw [happend] at hbcast hmcast hunresolved
  refine ⟨by omega, by omega, by omega, fun key hkey => ?_⟩
  have hkey := hdevice key hkey
  rw [happend] at hkey
  omega

theorem TcFits.of_perm {es es' : List TcCounter} (hperm : es.Perm es')
    (h : TcFits registry wan devices l prev i es) : TcFits registry wan devices l prev i es' := by
  obtain ⟨hbcast, hmcast, hunresolved, hdevice⟩ := h
  refine ⟨?_, ?_, ?_, fun key hkey => ?_⟩
  · rwa [← tcSum_perm _ hperm]
  · rwa [← tcSum_perm _ hperm]
  · rwa [← tcSum_perm _ hperm]
  · rw [← tcSum_perm _ hperm]
    exact hdevice key hkey

/-- **The devices on an interface** got the counters that are theirs. -/
theorem devicesOn_foldl {es : List TcCounter} (hnodup : (es.map Sigma.fst).Nodup)
    (hfits : TcFits registry wan devices l prev i es) (lastActive : HashMap DeviceTrafficKey UInt64)
    (prune : Bool) :
    devicesOn l (es.foldl (fun st e => counterStep registry wan nowMs sec prune st e.1 e.2)
        ⟨prev, lastActive, devices, ⟨∅, ∅, ∅⟩, []⟩).devices i =
      devicesOn l devices i + tcSum l prev (isAt registry wan devices .device i) es := by
  induction es using List.reverseRecOn with
  | nil => rfl
  | append_singleton done e ih =>
    have hplaced := @placed_foldl registry wan devices nowMs sec prev done
      (hnodup.sublist ((List.sublist_append_left done [e]).map _)) lastActive prune
    rw [List.map_append, List.nodup_append] at hnodup
    obtain ⟨hdone, -, hdisjoint⟩ := hnodup
    have hnew : e.1 ∉ done.map Sigma.fst := fun hmem =>
      hdisjoint _ hmem _ (List.mem_singleton_self _) rfl
    rw [List.foldl_append, List.foldl_cons, List.foldl_nil,
      devicesOn_counterStep hplaced hnew hfits.device, ih hdone hfits.of_append, tcSum_concat,
      Nat.add_assoc]

/-- **The places of an interface** that is not the WAN one. -/
theorem tcSum_places (hlan : some i ≠ wan) (es : List TcCounter) :
    tcSum l prev (fun k => k.ifindex = i) es =
      tcSum l prev (isAt registry wan devices .device i) es +
        (tcSum l prev (isAt registry wan devices .bcast i) es +
          (tcSum l prev (isAt registry wan devices .mcast i) es +
            tcSum l prev (isAt registry wan devices .unresolved i) es)) := by
  unfold tcSum
  rw [← List.sum_map_add, ← List.sum_map_add, ← List.sum_map_add]
  refine congrArg List.sum (List.map_congr_left fun e _ => ?_)
  unfold isAt
  by_cases hi : e.1.ifindex = i
  · have hplace : placeOf registry wan devices e.1 ≠ .ofWan := by
      intro hwan
      unfold placeOf at hwan
      split_ifs at hwan with _ _ _ heq
      rw [hi] at heq
      exact hlan heq
    cases hp : placeOf registry wan devices e.1 with
    | ofWan => exact absurd hp hplace
    | bcast => simp [hi]
    | mcast => simp [hi]
    | device => simp [hi]
    | unresolved => simp [hi]
  · simp [hi]

/-- **The order of the counters does not matter** to a place. -/
theorem lookup_bucketOf_perm {es es' : List TcCounter} (h : es.Perm es') (p : Place) (j : UInt32) :
    (bucketOf registry wan devices sec prev p es).lookup j =
      (bucketOf registry wan devices sec prev p es').lookup j :=
  lookup_tally_perm h rfl

theorem rowOf_perm {es es' : List TcCounter} (h : es.Perm es') (key : DeviceKey) :
    rowOf registry wan devices nowMs sec prev es key =
      rowOf registry wan devices nowMs sec prev es' key := by
  have hperm : (ofKey (deviceKey registry wan devices prev) key es).Perm
      (ofKey (deviceKey registry wan devices prev) key es') := ofKey_perm h key
  have hnil : (ofKey (deviceKey registry wan devices prev) key es = []) =
      (ofKey (deviceKey registry wan devices prev) key es' = []) :=
    propext ⟨fun heq => (heq ▸ hperm).nil_eq.symm, fun heq => (heq ▸ hperm).eq_nil⟩
  unfold rowOf
  simp only [hnil, hperm.foldl_eq]

end

/-- A counter of a device that has a row is not unresolved. -/
theorem unresolved_attributeCounter {k : DeviceTrafficKey} {devices : DevicesGroup}
    (h : (k.ifindex, k.mac) ∈ devices) (wan : Option UInt32) (delta : UInt64) (sec : Float)
    (b : Breakdown) : (attributeCounter wan k delta sec devices b).2.unresolved = b.unresolved := by
  unfold attributeCounter
  dsimp only
  rw [if_pos h]
  split_ifs <;> rfl

/-- The devices that have the same rows have the same bytes. -/
theorem devicesOn_congr {devices devices' : DevicesGroup}
    (h : ∀ key, devices.lookup key = devices'.lookup key) (l : Lane) (i : UInt32) :
    devicesOn l devices i = devicesOn l devices' i :=
  ((entries_perm h).map _).sum_eq

section
variable (tick : Tick) (topology : TopologySnapshot) (rt : MonitorRuntime) (sec : Float)
  (prune : Bool) (stats : HashMap DeviceTrafficKey TrafficValue) (devices : DevicesGroup)

theorem placed_counterLoop :
    Placed rt.deviceRegistry (wanIfindex topology) devices tick.nowMs sec rt.prevDeviceBytes
      (tick.o.order stats.entries) (counterLoop tick topology rt sec prune stats devices) :=
  placed_foldl (nodup_order_keys tick.o stats) rt.deviceLastActiveMs prune

/-- **Software bytes are attributed exactly once** on an interface other than the WAN one: by lane the
deltas are what the rows of its devices gained, its broadcast, its multicast and its unresolved traffic.
A counter with the MAC address of a registered device leaves the unresolved traffic as it is. In another
order of the counters all devices and all three kinds of traffic come out the same. -/
theorem counterLoop_partition (i : UInt32) (hlan : some i ≠ wanIfindex topology) (l : Lane) :
    let st := counterLoop tick topology rt sec prune stats devices
    (TcFits rt.deviceRegistry (wanIfindex topology) devices l rt.prevDeviceBytes i stats.entries →
      devicesOn l devices i + tcSum l rt.prevDeviceBytes (fun k => k.ifindex = i) stats.entries =
        devicesOn l st.devices i + laneUnder l st.breakdown.bcast i +
          laneUnder l st.breakdown.mcast i + laneUnder l st.breakdown.unresolved i) ∧
      (∀ st k v, k.ifindex = i → isMulticastMac k.mac = false → (i, k.mac) ∈ rt.deviceRegistry →
        (counterStep rt.deviceRegistry (wanIfindex topology) tick.nowMs sec prune st k
          v).breakdown.unresolved = st.breakdown.unresolved) ∧
      ∀ o, let st' := counterLoop { tick with o } topology rt sec prune stats devices
        (∀ key, st'.devices.lookup key = st.devices.lookup key) ∧
          devicesOn l st'.devices i = devicesOn l st.devices i ∧
          (∀ j, st'.breakdown.bcast.lookup j = st.breakdown.bcast.lookup j) ∧
          (∀ j, st'.breakdown.mcast.lookup j = st.breakdown.mcast.lookup j) ∧
          ∀ j, st'.breakdown.unresolved.lookup j = st.breakdown.unresolved.lookup j := by
  intro st
  have hplaced := placed_counterLoop tick topology rt sec prune stats devices
  refine ⟨fun hfits => ?_, fun st k v hk hunicast hknown => ?_, ?_⟩
  · have hperm := (tick.o.perm stats.entries).symm
    have hfits' := hfits.of_perm hperm
    have hdevices : devicesOn l st.devices i = devicesOn l devices i +
        tcSum l rt.prevDeviceBytes (isAt rt.deviceRegistry (wanIfindex topology) devices .device i)
          (tick.o.order stats.entries) :=
      devicesOn_foldl (nodup_order_keys tick.o stats) hfits' rt.deviceLastActiveMs prune
    have hsum := @tcSum_places rt.deviceRegistry (wanIfindex topology) devices rt.prevDeviceBytes l i
      hlan (tick.o.order stats.entries)
    have hbcast := hfits'.bcast
    have hmcast := hfits'.mcast
    have hunresolved := hfits'.unresolved
    rw [tcSum_perm _ hperm, hplaced.bcast, hplaced.mcast, hplaced.unresolved, laneUnder_bucketOf hlan,
      laneUnder_bucketOf hlan, laneUnder_bucketOf hlan]
    omega
  · by_cases hmoved : deltaBytes v.bytes ((st.prevDeviceBytes.lookup k).getD 0) = 0
    · rw [(counterStep_idle hmoved prune).2]
    · rw [← hk] at hknown hlan
      unfold counterStep
      dsimp only
      rw [if_neg hmoved, if_pos ⟨hlan, by simp [hunicast]⟩]
      exact unresolved_attributeCounter (mem_activateKnownDevice (Or.inl hknown) tick.nowMs) ..
  · intro o st'
    have hplaced' := placed_counterLoop { tick with o } topology rt sec prune stats devices
    have hperm : (o.order stats.entries).Perm (tick.o.order stats.entries) :=
      (o.perm _).trans (tick.o.perm _).symm
    have hrow : ∀ key, st'.devices.lookup key = st.devices.lookup key := by
      intro key
      rw [hplaced.row, hplaced'.row]
      exact rowOf_perm hperm key
    refine ⟨hrow, devicesOn_congr hrow l i, fun j => ?_, fun j => ?_, fun j => ?_⟩
    · rw [hplaced.bcast, hplaced'.bcast]
      exact lookup_bucketOf_perm hperm .bcast j
    · rw [hplaced.mcast, hplaced'.mcast]
      exact lookup_bucketOf_perm hperm .mcast j
    · rw [hplaced.unresolved, hplaced'.unresolved]
      exact lookup_bucketOf_perm hperm .unresolved j

end

section Sample

/-- A broadcast of 60 bytes and 100 bytes of an unknown device, both sent over IPv4. -/
def lanStats : HashMap DeviceTrafficKey TrafficValue :=
  AList.insert ⟨2, .replicate 6 0xff, 4, 1⟩ ⟨1, 60⟩
    (AList.insert ⟨2, .replicate 6 0x02, 4, 1⟩ ⟨1, 100⟩ ∅)

theorem wanIfindex_none : wanIfindex (.ofInterfaces []) = none := by
  unfold wanIfindex TopologySnapshot.interfaces
  show (List.find? _ (List.mergeSort [] _)).map _ = none
  rw [List.mergeSort_nil]
  rfl

theorem counterLoop_partition_lan :
    let topology := TopologySnapshot.ofInterfaces []
    let st := counterLoop (addressTick (.replicate 4 0)) topology .default 1.0 false lanStats ∅
    devicesOn .upV4 ∅ 2 + tcSum .upV4 ∅ (fun k => k.ifindex = 2) lanStats.entries =
      devicesOn .upV4 st.devices 2 + laneUnder .upV4 st.breakdown.bcast 2 +
        laneUnder .upV4 st.breakdown.mcast 2 + laneUnder .upV4 st.breakdown.unresolved 2 := by
  have hlan : some 2 ≠ wanIfindex (.ofInterfaces []) := by
    rw [wanIfindex_none]
    exact Option.some_ne_none 2
  exact (counterLoop_partition (addressTick (.replicate 4 0)) (.ofInterfaces []) .default 1.0 false
    lanStats ∅ 2 hlan .upV4).1 (.of_total (fun _ => rfl) (by decide))

end Sample

end BandixPlus.Monitor.Partition
