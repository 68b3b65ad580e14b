import BandixPlus.Lib.Ledger
import BandixPlus.Monitor.HistogramRun
import BandixPlus.Monitor.Registry

/-! # Totals

* `accounts_interfaceRows`, `accounts_deviceRows`: the rows of a tick account for the totals of the
  interfaces and of the devices: software and hardware bytes enter a row and its total alike.
* `cumulative_totals`: so in every reachable state, and over every run without removals a total grows
  by the bytes that the histogram ingests. -/

namespace BandixPlus.Monitor.Cumulative

open BandixPlus.Common BandixPlus.Lib.Ledger BandixPlus.Lib.Maps
open BandixPlus.Monitor.Counters BandixPlus.Monitor.Snapshot BandixPlus.Monitor.Topology
open BandixPlus.Monitor.Runtime BandixPlus.Monitor.Interfaces BandixPlus.Monitor.Devices
open BandixPlus.Monitor.Ecm BandixPlus.Monitor.Collect BandixPlus.Monitor.Session
open BandixPlus.Monitor.Registry BandixPlus.Monitor.Histogram BandixPlus.Monitor.HistogramRun
open BandixPlus.Net.Text

/-- The total bytes under a key; an absent entry counts as zero. -/
def bytesUnder {K : Type} [DecidableEq K] (m : HashMap K CounterQuad) (k : K) : Quad UInt64 :=
  ((m.lookup k).getD .zero).bytes

theorem bytesUnder_insert {K : Type} [DecidableEq K] (m : HashMap K CounterQuad) (k : K)
    (v : CounterQuad) : bytesUnder (m.insert k v) = Function.update (bytesUnder m) k v.bytes := by
  funext k'
  unfold bytesUnder
  rw [lookup_insert_eq]
  by_cases hk : k' = k
  · rw [if_pos hk, hk, Function.update_self]
    rfl
  · rw [if_neg hk, Function.update_of_ne hk]

/-! ### The rows of the interfaces -/

/-- A row posts the bytes of the tick and shows the total. -/
def ifaceEntry (row : InterfaceOverviewItem) : Entry UInt32 (Quad UInt64) :=
  ⟨row.ifindex, row.metrics.bytes, row.cumulative.bytes⟩

theorem map_key_ifaceEntry (rows : List InterfaceOverviewItem) :
    (rows.map ifaceEntry).map Entry.key = rows.map InterfaceOverviewItem.ifindex := by
  rw [List.map_map]
  rfl

section Loop
variable {before : UInt32 → Quad UInt64} (o : IterOrder) (topology : TopologySnapshot)
  (stats : HashMap InterfaceTrafficKey TrafficValue) (sec : Float)

theorem accounts_interfaceStep {st : IfaceLoop} {iface : String × UInt32}
    (h : Accounts before (bytesUnder st.rt.cumulativeIface) (st.interfaces.map ifaceEntry))
    (hfresh : iface.2 ∉ st.interfaces.map InterfaceOverviewItem.ifindex) :
    Accounts before (bytesUnder (interfaceStep o topology stats sec st iface).rt.cumulativeIface)
      ((interfaceStep o topology stats sec st iface).interfaces.map ifaceEntry) := by
  rw [← map_key_ifaceEntry] at hfresh
  have hpost := h.post hfresh (ifaceMetrics o stats sec
    ((topology.byIfindex iface.2).any fun i => i.zone = "wan") iface.2 st.rt.prevIfaceBytes).1.bytes
  unfold interfaceStep
  dsimp only
  rw [bytesUnder_insert, List.map_append]
  exact hpost

theorem accounts_foldl_interfaceStep (l : List (String × UInt32)) {st : IfaceLoop}
    (hdistinct : (l.map Prod.snd).Nodup)
    (hfresh : ∀ iface ∈ l, iface.2 ∉ st.interfaces.map InterfaceOverviewItem.ifindex)
    (h : Accounts before (bytesUnder st.rt.cumulativeIface) (st.interfaces.map ifaceEntry)) :
    Accounts before
      (bytesUnder (l.foldl (interfaceStep o topology stats sec) st).rt.cumulativeIface)
      ((l.foldl (interfaceStep o topology stats sec) st).interfaces.map ifaceEntry) := by
  induction l generalizing st with
  | nil => exact h
  | cons iface rest ih =>
    rw [List.map_cons, List.nodup_cons] at hdistinct
    refine ih hdistinct.2 (fun later hlater => ?_)
      (accounts_interfaceStep o topology stats sec h (hfresh iface List.mem_cons_self))
    have hrows : (interfaceStep o topology stats sec st iface).interfaces.map
        InterfaceOverviewItem.ifindex =
        st.interfaces.map InterfaceOverviewItem.ifindex ++ [iface.2] := List.map_append
    rw [hrows, List.mem_append, List.mem_singleton, not_or]
    refine ⟨hfresh later (List.mem_cons_of_mem _ hlater), fun heq => hdistinct.1 ?_⟩
    exact heq ▸ List.mem_map_of_mem hlater

end Loop

theorem mem_monitoredInterfaces {byName : HashMap String UInt32} {iface : String × UInt32}
    (monitorIfaces : List String) {seen : List String}
    (h : iface ∈ monitoredInterfaces byName seen monitorIfaces) :
    byName.lookup iface.1 = some iface.2 ∧ iface.1 ∉ seen := by
  induction monitorIfaces generalizing seen with
  | nil => cases h
  | cons name rest ih =>
    unfold monitoredInterfaces at h
    split_ifs at h with hseen
    · exact ih h
    · split at h
      · obtain ⟨hlookup, hnot⟩ := ih h
        exact ⟨hlookup, fun hmem => hnot (List.mem_cons_of_mem _ hmem)⟩
      · next ifindex hifindex =>
        rcases List.mem_cons.mp h with rfl | h
        · exact ⟨hifindex, hseen⟩
        · obtain ⟨hlookup, hnot⟩ := ih h
          exact ⟨hlookup, fun hmem => hnot (List.mem_cons_of_mem _ hmem)⟩

theorem nodup_monitoredInterfaces (byName : HashMap String UInt32) (monitorIfaces seen : List String) :
    ((monitoredInterfaces byName seen monitorIfaces).map Prod.fst).Nodup := by
  induction monitorIfaces generalizing seen with
  | nil => exact List.nodup_nil
  | cons name rest ih =>
    unfold monitoredInterfaces
    split_ifs
    · exact ih seen
    · split
      · exact ih _
      · refine List.nodup_cons.mpr ⟨fun hmem => ?_, ih _⟩
        obtain ⟨iface, hiface, hname⟩ := List.mem_map.mp hmem
        exact (mem_monitoredInterfaces rest hiface).2 (hname ▸ List.mem_cons_self)

/-- Different names are different interfaces. -/
theorem nodup_ifindex_monitoredInterfaces (topology : TopologySnapshot) (monitorIfaces : List String) :
    ((monitoredInterfaces (ifindexByName topology) [] monitorIfaces).map Prod.snd).Nodup := by
  refine List.Nodup.map_on (fun a ha b hb heq => ?_)
    (List.Nodup.of_map _ (nodup_monitoredInterfaces _ monitorIfaces []))
  obtain ⟨infoA, hinfoA, hnameA⟩ := lookup_ifindexByName (mem_monitoredInterfaces _ ha).1
  obtain ⟨infoB, hinfoB, hnameB⟩ := lookup_ifindexByName (mem_monitoredInterfaces _ hb).1
  rw [heq, hinfoB] at hinfoA
  exact Prod.ext (by rw [← hnameA, ← hnameB, Option.some.inj hinfoA]) heq

/-- **The loop over the interfaces.** -/
theorem accounts_interfaceLoop (cfg : Config) (o : IterOrder) (topology : TopologySnapshot)
    (stats : HashMap InterfaceTrafficKey TrafficValue) (sec : Float) (rt : MonitorRuntime) :
    Accounts (bytesUnder rt.cumulativeIface)
      (bytesUnder (interfaceLoop cfg o topology stats sec rt).rt.cumulativeIface)
      ((interfaceLoop cfg o topology stats sec rt).interfaces.map ifaceEntry) :=
  accounts_foldl_interfaceStep o topology stats sec _
    (nodup_ifindex_monitoredInterfaces topology cfg.monitorIfaces)
    (fun _ _ => List.not_mem_nil) (accounts_nil _)

/-- A row shows the zone of its interface. -/
theorem zone_interfaceLoop (cfg : Config) (o : IterOrder) (topology : TopologySnapshot)
    (stats : HashMap InterfaceTrafficKey TrafficValue) (sec : Float) (rt : MonitorRuntime) :
    ∀ row ∈ (interfaceLoop cfg o topology stats sec rt).interfaces,
      row.zone = ((topology.byIfindex row.ifindex).map Interface.zone).getD "unknown" := by
  unfold interfaceLoop
  refine List.foldlRecOn (motive := fun st : IfaceLoop => ∀ row ∈ st.interfaces,
    row.zone = ((topology.byIfindex row.ifindex).map Interface.zone).getD "unknown") _ _
    (fun _ hrow => absurd hrow List.not_mem_nil) fun st hst iface _ row hrow => ?_
  rcases List.mem_append.mp hrow with hrow | hrow
  · exact hst row hrow
  · rw [List.mem_singleton.mp hrow]

/-- **The row of the WAN interface** shows a total and adds nothing to it. -/
theorem accounts_addWanRow {before : UInt32 → Quad UInt64} {topology : TopologySnapshot}
    {rt : MonitorRuntime} {rows : List InterfaceOverviewItem}
    (h : Accounts before (bytesUnder rt.cumulativeIface) (rows.map ifaceEntry))
    (hzone : ∀ row ∈ rows,
      row.zone = ((topology.byIfindex row.ifindex).map Interface.zone).getD "unknown") :
    Accounts before (bytesUnder rt.cumulativeIface)
      ((addWanRow topology rt rows).map ifaceEntry) := by
  unfold addWanRow
  split_ifs with hany
  · exact h
  · split
    · exact h
    · next wan hwan =>
      have hmem := mem_interfaces.mp (List.mem_of_find?_eq_some hwan)
      have hwanZone := List.find?_some hwan
      have hfresh : wan.ifindex ∉ (rows.map ifaceEntry).map Entry.key := by
        rw [map_key_ifaceEntry]
        intro hrow
        obtain ⟨row, hrow, hifindex⟩ := List.mem_map.mp hrow
        refine hany (List.any_eq_true.mpr ⟨row, hrow, ?_⟩)
        rw [hzone row hrow, hifindex, hmem]
        exact hwanZone
      rw [List.map_append]
      refine h.idle (List.nodup_singleton _) ?_ ?_ ?_
      all_goals
        intro e he
        rw [List.mem_singleton.mp he]
      · exact hfresh
      · rfl
      · rfl

/-! ### Traffic that enters rows -/

/-- **A change of a row raises its bytes and its total alike.** -/
def Raises (f : MonitorRuntime → InterfaceOverviewItem → InterfaceOverviewItem × MonitorRuntime) :
    Prop :=
  ∀ rt row, bytesUnder rt.cumulativeIface row.ifindex = row.cumulative.bytes → ∃ x,
    ifaceEntry (f rt row).1 = (ifaceEntry row).raise x ∧
    bytesUnder (f rt row).2.cumulativeIface =
      Function.update (bytesUnder rt.cumulativeIface) row.ifindex (row.cumulative.bytes + x)

/-- **A change of a row raises it by the amount of its interface.** -/
def RaisesBy (amount : UInt32 → Quad UInt64)
    (f : MonitorRuntime → InterfaceOverviewItem → InterfaceOverviewItem × MonitorRuntime) : Prop :=
  ∀ rt row, bytesUnder rt.cumulativeIface row.ifindex = row.cumulative.bytes →
    ifaceEntry (f rt row).1 = (ifaceEntry row).raise (amount row.ifindex) ∧
    bytesUnder (f rt row).2.cumulativeIface = Function.update (bytesUnder rt.cumulativeIface)
      row.ifindex (row.cumulative.bytes + amount row.ifindex)

theorem RaisesBy.raises {amount : UInt32 → Quad UInt64}
    {f : MonitorRuntime → InterfaceOverviewItem → InterfaceOverviewItem × MonitorRuntime}
    (h : RaisesBy amount f) : Raises f :=
  fun rt row htotal => ⟨amount row.ifindex, h rt row htotal⟩

theorem raise_zero (d : Entry UInt32 (Quad UInt64)) : d.raise 0 = d :=
  Entry.ext rfl (add_zero _) (add_zero _)

/-- A change that touches neither. -/
theorem raisesBy_of_eq
    {f : MonitorRuntime → InterfaceOverviewItem → InterfaceOverviewItem × MonitorRuntime}
    (hrow : ∀ rt row, ifaceEntry (f rt row).1 = ifaceEntry row)
    (htotal : ∀ rt row, (f rt row).2.cumulativeIface = rt.cumulativeIface) :
    RaisesBy (fun _ => 0) f := by
  intro rt row h
  refine ⟨?_, ?_⟩
  · rw [hrow, raise_zero]
  · rw [htotal, add_zero, ← h, Function.update_eq_self]

theorem RaisesBy.comp {a a' : UInt32 → Quad UInt64}
    {f g : MonitorRuntime → InterfaceOverviewItem → InterfaceOverviewItem × MonitorRuntime}
    (hf : RaisesBy a f) (hg : RaisesBy a' g) :
    RaisesBy (fun i => a i + a' i) fun rt row => g (f rt row).2 (f rt row).1 := by
  intro rt row h
  obtain ⟨hentry, htotal⟩ := hf rt row h
  have hkey : (f rt row).1.ifindex = row.ifindex := congrArg Entry.key hentry
  have hbalance : (f rt row).1.cumulative.bytes = row.cumulative.bytes + a row.ifindex :=
    congrArg Entry.balance hentry
  have hsame : bytesUnder (f rt row).2.cumulativeIface (f rt row).1.ifindex =
      (f rt row).1.cumulative.bytes := by
    rw [htotal, hkey, hbalance, Function.update_self]
  obtain ⟨hentry', htotal'⟩ := hg _ _ hsame
  rw [hkey] at hentry' htotal'
  refine ⟨?_, ?_⟩
  · rw [hentry', hentry]
    unfold Entry.raise
    dsimp only
    rw [add_assoc, add_assoc]
  · rw [htotal', htotal, hbalance, Function.update_idem, add_assoc]

/-- **Rows whose changes raise them still account for the totals.** -/
theorem accounts_eachRow {before : UInt32 → Quad UInt64}
    {f : MonitorRuntime → InterfaceOverviewItem → InterfaceOverviewItem × MonitorRuntime}
    (hf : Raises f) (rows : List InterfaceOverviewItem) {rt : MonitorRuntime}
    (done : List (Entry UInt32 (Quad UInt64)))
    (h : Accounts before (bytesUnder rt.cumulativeIface) (done ++ rows.map ifaceEntry)) :
    Accounts before (bytesUnder (eachRow f rt rows).2.cumulativeIface)
      (done ++ (eachRow f rt rows).1.map ifaceEntry) := by
  induction rows generalizing rt done with
  | nil => exact h
  | cons row rest ih =>
    have hcurrent : bytesUnder rt.cumulativeIface row.ifindex = row.cumulative.bytes :=
      h.current (ifaceEntry row) (List.mem_append_right _ List.mem_cons_self)
    obtain ⟨x, hentry, htotal⟩ := hf rt row hcurrent
    have hraise : Accounts before (bytesUnder (f rt row).2.cumulativeIface)
        (done ++ [ifaceEntry (f rt row).1] ++ rest.map ifaceEntry) := by
      rw [htotal, hentry, List.append_assoc]
      exact h.raise x
    have hrest := ih _ hraise
    rw [List.append_assoc] at hrest
    exact hrest

/-- **The rows after such changes.** -/
theorem map_ifaceEntry_eachRow {amount : UInt32 → Quad UInt64}
    {f : MonitorRuntime → InterfaceOverviewItem → InterfaceOverviewItem × MonitorRuntime}
    (hf : RaisesBy amount f) (rows : List InterfaceOverviewItem) {rt : MonitorRuntime}
    (hdistinct : (rows.map InterfaceOverviewItem.ifindex).Nodup)
    (hcurrent : ∀ row ∈ rows, bytesUnder rt.cumulativeIface row.ifindex = row.cumulative.bytes) :
    (eachRow f rt rows).1.map ifaceEntry =
      (rows.map ifaceEntry).map fun d => d.raise (amount d.key) := by
  induction rows generalizing rt with
  | nil => rfl
  | cons row rest ih =>
    obtain ⟨hentry, htotal⟩ := hf rt row (hcurrent row List.mem_cons_self)
    obtain ⟨hfresh, hdistinct⟩ := List.nodup_cons.mp hdistinct
    have hrest := @ih (f rt row).2 hdistinct fun later hlater => by
      have hne : later.ifindex ≠ row.ifindex := fun heq =>
        hfresh (heq ▸ List.mem_map_of_mem hlater)
      rw [htotal, Function.update_of_ne hne]
      exact hcurrent later (List.mem_cons_of_mem _ hlater)
    rw [List.map_cons, List.map_cons, ← hrest]
    exact congrArg (· :: _) hentry

/-- What the rows show has the bytes of this tick. -/
def ShowsBytes (metrics shown : HashMap UInt32 CounterQuad) : Prop :=
  ∀ ifindex smoothed, shown.lookup ifindex = some smoothed →
    smoothed.bytes = bytesUnder metrics ifindex

theorem showsBytes_insert {metrics shown : HashMap UInt32 CounterQuad} (h : ShowsBytes metrics shown)
    {ifindex : UInt32} {smoothed : CounterQuad} (hs : smoothed.bytes = bytesUnder metrics ifindex) :
    ShowsBytes metrics (shown.insert ifindex smoothed) := by
  intro i s hlookup
  rw [lookup_insert_eq] at hlookup
  split_ifs at hlookup with hi
  · rw [hi, ← Option.some.inj hlookup]
    exact hs
  · exact h i s hlookup

theorem showsBytes_smoothRates (o : IterOrder) (metrics rates : HashMap UInt32 CounterQuad) :
    ShowsBytes metrics (smoothRates o metrics rates).shown := by
  have hempty : ShowsBytes metrics ∅ := by
    intro ifindex smoothed h
    rw [AList.lookup_empty] at h
    cases h
  unfold smoothRates
  refine List.foldlRecOn (motive := fun st : SmoothLoop => ShowsBytes metrics st.shown) _ _ ?_
    fun st hst e he => showsBytes_insert hst ?_
  · refine List.foldlRecOn (motive := fun st : SmoothLoop => ShowsBytes metrics st.shown) _ _ hempty
      fun st hst e _ => ?_
    unfold decayStep
    dsimp only
    split_ifs with hmem
    · exact hst
    · exact hst
    · refine showsBytes_insert hst ?_
      unfold bytesUnder
      rw [AList.lookup_eq_none.mpr hmem]
      rfl
  · unfold bytesUnder
    rw [mem_order_iff.mp he]
    rfl

/-- Every interface with bytes is shown. -/
theorem mem_shown_smoothRates {o : IterOrder} {metrics rates : HashMap UInt32 CounterQuad}
    {ifindex : UInt32} (h : ifindex ∈ metrics) : ifindex ∈ (smoothRates o metrics rates).shown := by
  obtain ⟨m, hm⟩ := mem_iff_lookup.mp h
  have hmem : ⟨ifindex, m⟩ ∈ o.order metrics.entries := mem_order_iff.mpr hm
  unfold smoothRates
  generalize (o.order rates.entries).foldl (fun st e => decayStep metrics st e.1 e.2) ⟨∅, rates⟩ = st
  obtain ⟨done, rest, hsplit⟩ := List.append_of_mem hmem
  dsimp only
  rw [hsplit, List.foldl_append, List.foldl_cons]
  refine List.foldlRecOn (motive := fun st : SmoothLoop => ifindex ∈ st.shown) _ _ ?_
    fun st hst e _ => (AList.mem_insert _).mpr (Or.inr hst)
  exact (AList.mem_insert _).mpr (Or.inl rfl)

theorem bytes_smoothWan (metrics : CounterQuad) (rates : Option CounterQuad) :
    (smoothWan metrics rates).bytes = metrics.bytes := by
  unfold smoothWan
  dsimp only
  split_ifs with hempty
  · exact (of_decide_eq_true hempty).1.symm
  · rfl

theorem raisesBy_injectLan {shown metrics : HashMap UInt32 CounterQuad}
    (h : ShowsBytes metrics shown) (hmem : ∀ i ∈ metrics, i ∈ shown) :
    RaisesBy (bytesUnder metrics) (injectLan shown metrics) := by
  intro rt row htotal
  unfold injectLan
  split
  · next hnone =>
    have hzero : bytesUnder metrics row.ifindex = 0 := by
      have hnot : row.ifindex ∉ metrics := fun hin => AList.lookup_eq_none.mp hnone (hmem _ hin)
      unfold bytesUnder
      rw [AList.lookup_eq_none.mpr hnot]
      rfl
    rw [hzero]
    exact raisesBy_of_eq (f := fun rt row => (row, rt)) (fun _ _ => rfl) (fun _ _ => rfl) rt row
      htotal
  · next smoothed hsmoothed =>
    have hbytes := h row.ifindex smoothed hsmoothed
    have htotal : ((rt.cumulativeIface.lookup row.ifindex).getD .zero).bytes = row.cumulative.bytes :=
      htotal
    -- what is shown, and the total, if the total is raised by what is shown
    have hraise : ∀ cum : CounterQuad, cum.bytes = row.cumulative.bytes + smoothed.bytes →
        ifaceEntry { row with cumulative := cum, metrics := addQuad row.metrics smoothed } =
          (ifaceEntry row).raise smoothed.bytes ∧
        bytesUnder (rt.cumulativeIface.insert row.ifindex cum) = Function.update
          (bytesUnder rt.cumulativeIface) row.ifindex (row.cumulative.bytes + smoothed.bytes) := by
      intro cum hcum
      refine ⟨Entry.ext rfl rfl hcum, ?_⟩
      rw [bytesUnder_insert]
      exact congrArg (Function.update _ _) hcum
    rw [← hbytes]
    refine hraise _ ?_
    rw [hbytes, ← htotal]
    unfold bytesUnder
    cases metrics.lookup row.ifindex with
    | some raw => rfl
    | none => exact (add_zero _).symm

/-- The bytes of the WAN side, under the index of the WAN interface. -/
def wanBytes (wan : Option UInt32) (metrics : CounterQuad) (ifindex : UInt32) : Quad UInt64 :=
  if some ifindex = wan then metrics.bytes else 0

theorem raisesBy_injectWan {smoothed metrics : CounterQuad} (h : smoothed.bytes = metrics.bytes)
    (wan : Option UInt32) : RaisesBy (wanBytes wan metrics) (injectWan wan smoothed metrics) := by
  intro rt row htotal
  unfold injectWan wanBytes
  by_cases hwan : some row.ifindex = wan
  · rw [if_neg (not_not.mpr hwan), if_pos hwan]
    refine ⟨?_, ?_⟩
    · refine Entry.ext rfl ?_ ?_
      · show row.metrics.bytes + smoothed.bytes = _
        rw [h]
        rfl
      · exact congrArg (· + metrics.bytes) htotal
    · dsimp only
      rw [bytesUnder_insert]
      exact congrArg (fun total : Quad UInt64 => Function.update (bytesUnder rt.cumulativeIface)
        row.ifindex (total + metrics.bytes)) htotal
  · rw [if_pos hwan, if_neg hwan]
    exact raisesBy_of_eq (f := fun rt row => (row, rt)) (fun _ _ => rfl) (fun _ _ => rfl) rt row
      htotal

/-- **What the hardware traffic of a tick adds to an interface.** -/
def hardwareBytes (x : Injection) (ifindex : UInt32) : Quad UInt64 :=
  bytesUnder x.lanMetrics ifindex + wanBytes x.wan x.wanMetrics ifindex

theorem raisesBy_injectRow {x : Injection} (hlan : ShowsBytes x.lanMetrics x.lanShown)
    (hmem : ∀ i ∈ x.lanMetrics, i ∈ x.lanShown) (hwan : x.wanShown.bytes = x.wanMetrics.bytes) :
    RaisesBy (hardwareBytes x) (injectRow x) := by
  have hunresolved : RaisesBy (fun _ => 0) (injectUnresolved x.unresolvedShown x.unresolvedMetrics) :=
    raisesBy_of_eq (fun _ _ => rfl) fun _ _ => rfl
  have hall := ((raisesBy_injectLan hlan hmem).comp hunresolved).comp
    (raisesBy_injectWan hwan x.wan)
  simp only [add_zero] at hall
  exact hall

/-- **The rows of the interfaces account for their totals.** -/
theorem accounts_interfaceRows {before : UInt32 → Quad UInt64} {topology : TopologySnapshot}
    {b : BeforeEcm} {rt : MonitorRuntime}
    (h : Accounts before (bytesUnder rt.cumulativeIface) (b.interfaces.map ifaceEntry))
    (hzone : ∀ row ∈ b.interfaces,
      row.zone = ((topology.byIfindex row.ifindex).map Interface.zone).getD "unknown")
    (tick : Tick) (e : EcmLoop) :
    Accounts before (bytesUnder (interfaceRows topology tick b e rt).2.cumulativeIface)
      ((interfaceRows topology tick b e rt).1.map ifaceEntry) := by
  have hbreakdown : Accounts before
      (bytesUnder (applyTcBreakdowns b.breakdown rt (addWanRow topology rt b.interfaces)).2.cumulativeIface)
      ((applyTcBreakdowns b.breakdown rt (addWanRow topology rt b.interfaces)).1.map ifaceEntry) :=
    accounts_eachRow (raisesBy_of_eq (fun _ _ => rfl) fun _ _ => rfl).raises _ []
      (accounts_addWanRow h hzone)
  unfold interfaceRows
  dsimp only
  split_ifs
  · unfold injectEcm
    dsimp only
    exact accounts_eachRow (raisesBy_injectRow (showsBytes_smoothRates tick.o _ _)
      (fun _ => mem_shown_smoothRates) (bytes_smoothWan _ _)).raises _ [] hbreakdown
  · exact hbreakdown

/-! ### The rows of the devices -/

/-- The key of a row of a device. -/
def deviceKeyOf (row : DeviceListItem) : DeviceKey :=
  (row.ifindex, (macFromStr row.mac).toOption.getD (Vector.replicate 6 0))

def deviceEntry (row : DeviceListItem) : Entry DeviceKey (Quad UInt64) :=
  ⟨deviceKeyOf row, row.metrics.bytes, row.cumulative.bytes⟩

theorem deviceKeyOf_eq {row : DeviceListItem} {key : DeviceKey}
    (h : row.ifindex = key.1 ∧ row.mac = macToString key.2) : deviceKeyOf row = key := by
  unfold deviceKeyOf
  rw [h.1, h.2, macFromStr_macToString]
  rfl

/-- What settling one device does. -/
theorem settleStep_spec (ecmDevices : List DeviceKey) (st : SettleLoop) (key : DeviceKey)
    (dev : DeviceListItem) :
    ∃ item, (settleStep ecmDevices st key dev).devices = st.devices.insert key item ∧
      item.metrics.bytes = dev.metrics.bytes ∧
      item.cumulative.bytes = bytesUnder st.cumulativeDevice key + dev.metrics.bytes ∧
      bytesUnder (settleStep ecmDevices st key dev).cumulativeDevice =
        Function.update (bytesUnder st.cumulativeDevice) key item.cumulative.bytes := by
  unfold settleStep
  dsimp only
  split
  · exact ⟨_, rfl, rfl, rfl, bytesUnder_insert _ _ _⟩
  · exact ⟨_, rfl, rfl, rfl, bytesUnder_insert _ _ _⟩

/-- The devices of `done` have their totals. -/
structure Settled (devices : DevicesGroup) (before : DeviceKey → Quad UInt64) (done : List DeviceKey)
    (st : SettleLoop) : Prop where
  mem : ∀ key, key ∈ st.devices ↔ key ∈ devices
  item : ∀ key ∈ done, ∀ item, st.devices.lookup key = some item →
    item.cumulative.bytes = before key + item.metrics.bytes ∧
      bytesUnder st.cumulativeDevice key = item.cumulative.bytes
  others : ∀ key ∉ done, bytesUnder st.cumulativeDevice key = before key

theorem settled_settleStep {devices : DevicesGroup} {before : DeviceKey → Quad UInt64}
    {done : List DeviceKey} {st : SettleLoop} (h : Settled devices before done st)
    (ecmDevices : List DeviceKey) {key : DeviceKey} {dev : DeviceListItem} (hkey : key ∈ devices)
    (hnew : key ∉ done) :
    Settled devices before (done ++ [key]) (settleStep ecmDevices st key dev) := by
  obtain ⟨item, hdevices, hmetrics, hcum, htotal⟩ := settleStep_spec ecmDevices st key dev
  refine ⟨fun k => ?_, fun k hk it hit => ?_, fun k hk => ?_⟩
  · rw [hdevices, AList.mem_insert, h.mem k, or_iff_right_iff_imp]
    rintro rfl
    exact hkey
  · rw [hdevices, lookup_insert_eq] at hit
    rw [htotal]
    by_cases hself : k = key
    · rw [if_pos hself] at hit
      rw [hself, ← Option.some.inj hit, Function.update_self, hmetrics, hcum, h.others key hnew]
      exact ⟨rfl, rfl⟩
    · rw [if_neg hself] at hit
      rw [Function.update_of_ne hself]
      refine h.item k ?_ it hit
      exact (List.mem_append.mp hk).resolve_right fun hlast => hself (List.mem_singleton.mp hlast)
  · rw [List.mem_append, not_or, List.mem_singleton] at hk
    rw [htotal, Function.update_of_ne hk.2]
    exact h.others k hk.1

theorem settled_foldl {devices : DevicesGroup} {before : DeviceKey → Quad UInt64}
    (ecmDevices : List DeviceKey) (l : List (Σ _ : DeviceKey, DeviceListItem)) {done : List DeviceKey}
    {st : SettleLoop} (h : Settled devices before done st) (hmem : ∀ e ∈ l, e.1 ∈ devices)
    (hdistinct : (done ++ l.map Sigma.fst).Nodup) :
    Settled devices before (done ++ l.map Sigma.fst)
      (l.foldl (fun st e => settleStep ecmDevices st e.1 e.2) st) := by
  induction l generalizing done st with
  | nil =>
    rw [List.map_nil, List.append_nil]
    exact h
  | cons e rest ih =>
    rw [List.map_cons, List.append_cons] at hdistinct ⊢
    refine ih (settled_settleStep h ecmDevices (hmem e List.mem_cons_self) ?_)
      (fun e' he' => hmem e' (List.mem_cons_of_mem _ he')) hdistinct
    intro hold
    have hpair := (List.nodup_append.mp hdistinct).1
    exact (List.nodup_append.mp hpair).2.2 e.1 hold e.1 (List.mem_singleton_self _) rfl

/-- **The devices of a tick account for their totals.** -/
theorem accounts_settleDevices (o : IterOrder) (rt : MonitorRuntime) (devices : DevicesGroup)
    (ecmDevices : List DeviceKey) :
    Accounts (bytesUnder rt.cumulativeDevice)
      (bytesUnder (settleDevices o rt devices ecmDevices).2.cumulativeDevice)
      ((o.order (settleDevices o rt devices ecmDevices).1.entries).map fun e =>
        ⟨e.1, e.2.metrics.bytes, e.2.cumulative.bytes⟩) := by
  let start : SettleLoop := ⟨devices, rt.cumulativeDevice,
    ecmDevices.foldl (fun m key => m.insert key 2) rt.ecmDeviceGraceTicks, rt.smoothedRates⟩
  let st := (o.order devices.entries).foldl (fun st e => settleStep ecmDevices st e.1 e.2) start
  have hstart : Settled devices (bytesUnder rt.cumulativeDevice) [] start :=
    ⟨fun _ => Iff.rfl, fun _ hk => absurd hk List.not_mem_nil, fun _ _ => rfl⟩
  have hst := settled_foldl ecmDevices (o.order devices.entries) hstart
    (fun e he => mem_iff_lookup.mpr ⟨e.2, mem_order_iff.mp he⟩) (nodup_order_keys o devices)
  have hdone : ∀ key, key ∈ st.devices → key ∈ (o.order devices.entries).map Sigma.fst := by
    intro key hkey
    obtain ⟨item, hitem⟩ := mem_iff_lookup.mp ((hst.mem key).mp hkey)
    exact List.mem_map.mpr ⟨⟨key, item⟩, mem_order_iff.mpr hitem, rfl⟩
  have hentry : ∀ e ∈ o.order st.devices.entries,
      e.2.cumulative.bytes = bytesUnder rt.cumulativeDevice e.1 + e.2.metrics.bytes ∧
        bytesUnder st.cumulativeDevice e.1 = e.2.cumulative.bytes := by
    intro e he
    have hlookup := mem_order_iff.mp he
    exact hst.item e.1 (hdone e.1 (mem_iff_lookup.mpr ⟨e.2, hlookup⟩)) e.2 hlookup
  refine ⟨?_, fun d hd => ?_, fun d hd => ?_, fun key hkey => hst.others key fun hdone' => hkey ?_⟩
  · rw [List.map_map]
    exact nodup_order_keys o st.devices
  · obtain ⟨e, he, rfl⟩ := List.mem_map.mp hd
    exact (hentry e he).1
  · obtain ⟨e, he, rfl⟩ := List.mem_map.mp hd
    exact (hentry e he).2
  · obtain ⟨e, he, rfl⟩ := List.mem_map.mp hdone'
    have hmem := (hst.mem e.1).mpr (mem_iff_lookup.mpr ⟨e.2, mem_order_iff.mp he⟩)
    obtain ⟨item, hitem⟩ := mem_iff_lookup.mp hmem
    rw [List.map_map]
    exact List.mem_map.mpr ⟨⟨e.1, item⟩, mem_order_iff.mpr hitem, rfl⟩

theorem keyed_deviceRows {cfg : Config} {o : IterOrder} {topology : TopologySnapshot}
    {rt : MonitorRuntime} {devices : DevicesGroup} (hgroup : GroupKeyed devices)
    (hkeyed : Keyed rt.deviceRegistry) :
    ∀ row ∈ deviceRows cfg o topology rt devices, row.mac = macToString (deviceKeyOf row).2 := by
  intro row hrow
  have hrow := List.mem_mergeSort.mp hrow
  rcases List.mem_append.mp hrow with hrow | hrow
  · obtain ⟨e, he, rfl⟩ := List.mem_map.mp hrow
    have hrow := hgroup e.1 e.2 (mem_order_iff.mp he)
    rw [deviceKeyOf_eq hrow]
    exact hrow.2
  · obtain ⟨e, he, rfl⟩ := List.mem_map.mp hrow
    obtain ⟨hifindex, hmac⟩ := hkeyed e.1 e.2 (mem_order_iff.mp (List.mem_of_mem_filter he))
    have hrow : (offlineItem rt e.1 e.2).ifindex = e.1.1 ∧
        (offlineItem rt e.1 e.2).mac = macToString e.1.2 := ⟨hifindex, congrArg macToString hmac⟩
    rw [deviceKeyOf_eq hrow]
    exact hrow.2

/-- **The rows of the devices account for their totals**: a device that is offline adds nothing. -/
theorem accounts_deviceRows {before : DeviceKey → Quad UInt64} {o : IterOrder} {rt : MonitorRuntime}
    {devices : DevicesGroup}
    (h : Accounts before (bytesUnder rt.cumulativeDevice) ((o.order devices.entries).map fun e =>
      ⟨e.1, e.2.metrics.bytes, e.2.cumulative.bytes⟩)) (hgroup : GroupKeyed devices)
    (hkeyed : Keyed rt.deviceRegistry) (cfg : Config) (topology : TopologySnapshot) :
    Accounts before (bytesUnder rt.cumulativeDevice)
      ((deviceRows cfg o topology rt devices).map deviceEntry) := by
  let known := (o.order rt.deviceRegistry.entries).filter fun e =>
    shownOffline cfg topology devices e.1 e.2
  have honline : ((o.order devices.entries).map fun e => e.2).map deviceEntry =
      (o.order devices.entries).map fun e => ⟨e.1, e.2.metrics.bytes, e.2.cumulative.bytes⟩ := by
    rw [List.map_map]
    refine List.map_congr_left fun e he => ?_
    exact Entry.ext (deviceKeyOf_eq (hgroup e.1 e.2 (mem_order_iff.mp he))) rfl rfl
  have hkey : ∀ e ∈ known, deviceKeyOf (offlineItem rt e.1 e.2) = e.1 := by
    intro e he
    obtain ⟨hifindex, hmac⟩ := hkeyed e.1 e.2 (mem_order_iff.mp (List.mem_of_mem_filter he))
    exact deviceKeyOf_eq ⟨hifindex, congrArg macToString hmac⟩
  have hoffline : ((known.map fun e => offlineItem rt e.1 e.2).map deviceEntry).map Entry.key =
      known.map Sigma.fst := by
    rw [List.map_map, List.map_map]
    exact List.map_congr_left hkey
  have hall : Accounts before (bytesUnder rt.cumulativeDevice)
      (((o.order devices.entries).map fun e => e.2).map deviceEntry ++
        (known.map fun e => offlineItem rt e.1 e.2).map deviceEntry) := by
    rw [honline]
    refine h.idle ?_ (fun d hd => ?_) (fun d hd => ?_) fun d hd => ?_
    · rw [hoffline]
      exact (nodup_order_keys o rt.deviceRegistry).sublist (List.filter_sublist.map _)
    all_goals
      obtain ⟨row, hrow, rfl⟩ := List.mem_map.mp hd
      obtain ⟨e, he, rfl⟩ := List.mem_map.mp hrow
    · have hshown := (List.mem_filter.mp he).2
      obtain ⟨hnot, -⟩ := Bool.and_eq_true_iff.mp hshown
      rw [List.map_map]
      intro hmem
      obtain ⟨e', he', heq⟩ := List.mem_map.mp hmem
      have heq : e'.1 = deviceKeyOf (offlineItem rt e.1 e.2) := heq
      rw [hkey e he] at heq
      exact of_decide_eq_true hnot (heq ▸ mem_iff_lookup.mpr ⟨e'.2, mem_order_iff.mp he'⟩)
    · rfl
    · exact congrArg (bytesUnder rt.cumulativeDevice) (hkey e he).symm
  have hperm := (List.mergeSort_perm (((o.order devices.entries).map fun e => e.2) ++
    known.map fun e => offlineItem rt e.1 e.2) deviceLe).map deviceEntry
  rw [List.map_append] at hperm
  exact hall.perm hperm

/-! ### One tick -/

section Tick
variable {cfg : Config} {topology : TopologySnapshot} {tick : Tick} {rt rt' : MonitorRuntime}
  {s : SnapshotData}

theorem cumulativeIface_startTick (cfg : Config) (topology : TopologySnapshot) (tick : Tick)
    (rt : MonitorRuntime) :
    (startTick cfg topology tick rt).rt.cumulativeIface = rt.cumulativeIface := by
  unfold startTick readEcm tickSeconds
  dsimp only
  split_ifs <;> first | rfl | (split <;> rfl)

theorem accounts_beforeEcm (h : RuntimeInv rt) (cfg : Config) (topology : TopologySnapshot)
    (tick : Tick) (ifaceStats : HashMap InterfaceTrafficKey TrafficValue)
    (deviceStats : HashMap DeviceTrafficKey TrafficValue) :
    let b := beforeEcm cfg topology tick rt ifaceStats deviceStats
    Accounts (bytesUnder rt.cumulativeIface) (bytesUnder b.rt.cumulativeIface)
      (b.interfaces.map ifaceEntry) := by
  intro b
  let start := startTick cfg topology tick rt
  let st := interfaceLoop cfg tick.o topology ifaceStats start.sec start.rt
  have hinv : RuntimeInv st.rt := runtimeInv_frame h ((frame_startTick cfg topology tick rt).trans
    (frame_interfaceLoop cfg tick.o topology ifaceStats start.sec start.rt))
  obtain ⟨-, -, hsame, -⟩ := observe_spec cfg topology tick start.reading.refreshIpv6Neighbors hinv
  have hsame : b.rt.cumulativeIface = st.rt.cumulativeIface := hsame
  have hloop := accounts_interfaceLoop cfg tick.o topology ifaceStats start.sec start.rt
  have hstart : start.rt.cumulativeIface = rt.cumulativeIface :=
    cumulativeIface_startTick cfg topology tick rt
  rw [hstart] at hloop
  rw [hsame]
  exact hloop

/-- **The rows of a tick account for the totals.** -/
theorem accounts_collectSnapshot (h : RuntimeInv rt)
    (hs : collectSnapshot cfg topology tick rt = (some s, rt')) :
    Accounts (bytesUnder rt.cumulativeIface) (bytesUnder rt'.cumulativeIface)
      (s.interfaces.map ifaceEntry) ∧
    Accounts (bytesUnder rt.cumulativeDevice) (bytesUnder rt'.cumulativeDevice)
      (s.devices.map deviceEntry) ∧
    ∀ row ∈ s.devices, row.mac = macToString (deviceKeyOf row).2 := by
  obtain ⟨ie, de, -, -, rfl, rfl⟩ := collectSnapshot_eq_some cfg topology tick hs
  let b := beforeEcm cfg topology tick rt (readStats ie) (readStats de)
  let e := hardware topology tick b
  let settled := settle topology tick b e
  obtain ⟨hregistry, hdevice, hgroup, -⟩ := beforeEcm_spec cfg topology tick (readStats ie)
    (readStats de) h
  obtain ⟨hgrows, hkeyed, -⟩ := settle_spec topology tick (hregistry ▸ h.keyed) hgroup
  have hframe : Frame settled.2 (interfaceRows topology tick b e settled.2).2 :=
    frame_interfaceRows topology tick b e settled.2
  refine ⟨?_, ?_, keyed_deviceRows (hgrows.keyed hgroup) hkeyed⟩
  · have hbefore : Accounts (bytesUnder rt.cumulativeIface) (bytesUnder settled.2.cumulativeIface)
        (b.interfaces.map ifaceEntry) :=
      accounts_beforeEcm h cfg topology tick (readStats ie) (readStats de)
    exact accounts_interfaceRows hbefore (zone_interfaceLoop cfg tick.o topology _ _ _) tick e
  · have hsettle : Accounts (bytesUnder rt.cumulativeDevice) (bytesUnder settled.2.cumulativeDevice)
        ((tick.o.order settled.1.entries).map fun e =>
          ⟨e.1, e.2.metrics.bytes, e.2.cumulative.bytes⟩) := by
      rw [← hdevice]
      exact accounts_settleDevices tick.o _ _ _
    rw [hframe.device]
    exact accounts_deviceRows hsettle (hgrows.keyed hgroup) hkeyed cfg topology

end Tick

/-! ### Runs -/

/-- The bytes that the histogram ingests for a series. -/
def ingestedBytes (k : SeriesKey) (snapshots : List SnapshotData) : Quad UInt64 :=
  ((samplesFor k snapshots).map fun x => x.metrics.bytes).sum

theorem ingestedBytes_append (k : SeriesKey) (xs ys : List SnapshotData) :
    ingestedBytes k (xs ++ ys) = ingestedBytes k xs + ingestedBytes k ys := by
  unfold ingestedBytes samplesFor
  rw [List.flatMap_append, List.map_append, List.sum_append]

/-- The bytes of rows for a series. -/
def rowBytes (k : SeriesKey) (tsMs : UInt64) (rs : List Row) : Quad UInt64 :=
  ((samplesOfRows k tsMs rs).map fun x => x.metrics.bytes).sum

theorem rowBytes_append (k : SeriesKey) (tsMs : UInt64) (rs rs' : List Row) :
    rowBytes k tsMs (rs ++ rs') = rowBytes k tsMs rs + rowBytes k tsMs rs' := by
  unfold rowBytes samplesOfRows
  rw [List.filter_append, List.filterMap_append, List.map_append, List.sum_append]

/-- The bytes of a row. -/
def bytesOfRow : Row → Quad UInt64
  | .iface item => item.metrics.bytes
  | .device item => item.metrics.bytes

/-- A row without a sample has no bytes. -/
theorem rowBytes_cons (k : SeriesKey) (tsMs : UInt64) (row : Row) (rs : List Row) :
    rowBytes k tsMs (row :: rs) =
      (if rowKey row = k then bytesOfRow row else 0) + rowBytes k tsMs rs := by
  have hrow : ((rowSample tsMs row).toList.map fun x => x.metrics.bytes).sum = bytesOfRow row := by
    cases row with
    | iface item => exact add_zero _
    | device item =>
      unfold rowSample
      dsimp only
      split_ifs with hidle
      · obtain ⟨-, hempty⟩ := Bool.and_eq_true_iff.mp hidle
        exact (of_decide_eq_true hempty).1.symm
      · exact add_zero _
  have hcons : rowBytes k tsMs [row] = if rowKey row = k then bytesOfRow row else 0 := by
    unfold rowBytes samplesOfRows
    rw [List.filter_cons, List.filter_nil]
    by_cases hk : rowKey row = k
    · rw [if_pos hk, if_pos (decide_eq_true hk), ← hrow, List.filterMap_cons, List.filterMap_nil]
      cases rowSample tsMs row <;> rfl
    · rw [if_neg hk, if_neg fun h => hk (of_decide_eq_true h)]
      rfl
  rw [← hcons, ← rowBytes_append]
  rfl

theorem posted_cons {K : Type} [DecidableEq K] (k : K) (d : Entry K (Quad UInt64))
    (entries : List (Entry K (Quad UInt64))) :
    posted k (d :: entries) = (if d.key = k then d.amount else 0) + posted k entries := by
  unfold posted
  rw [List.filter_cons]
  by_cases hk : d.key = k
  · rw [if_pos hk, if_pos (decide_eq_true hk), List.map_cons, List.sum_cons]
  · rw [if_neg hk, if_neg fun h => hk (of_decide_eq_true h), zero_add]

/-- The rows of the interfaces have the bytes of their series. -/
theorem rowBytes_iface (ifindex : UInt32) (tsMs : UInt64) (rows : List InterfaceOverviewItem) :
    rowBytes (.iface ifindex) tsMs (rows.map Row.iface) = posted ifindex (rows.map ifaceEntry) := by
  induction rows with
  | nil => rfl
  | cons row rest ih =>
    rw [List.map_cons, List.map_cons, rowBytes_cons, posted_cons, ih]
    have hkey : rowKey (.iface row) = .iface ifindex ↔ (ifaceEntry row).key = ifindex :=
      ⟨SeriesKey.iface.inj, congrArg SeriesKey.iface⟩
    rw [if_congr hkey rfl rfl]
    rfl

/-- So have those of the devices. -/
theorem rowBytes_device (key : DeviceKey) (tsMs : UInt64) {rows : List DeviceListItem}
    (h : ∀ row ∈ rows, row.mac = macToString (deviceKeyOf row).2) :
    rowBytes (.device ⟨key.1, macToString key.2⟩) tsMs (rows.map Row.device) =
      posted key (rows.map deviceEntry) := by
  induction rows with
  | nil => rfl
  | cons row rest ih =>
    rw [List.map_cons, List.map_cons, rowBytes_cons, posted_cons,
      ih fun r hr => h r (List.mem_cons_of_mem _ hr)]
    have hkey : rowKey (.device row) = .device ⟨key.1, macToString key.2⟩ ↔
        (deviceEntry row).key = key := by
      constructor
      · intro heq
        have heq := DeviceSeriesKey.mk.inj (SeriesKey.device.inj heq)
        exact deviceKeyOf_eq heq
      · rintro rfl
        have hmac := h row List.mem_cons_self
        show SeriesKey.device ⟨row.ifindex, row.mac⟩ = _
        rw [hmac]
        rfl
    rw [if_congr hkey rfl rfl]
    rfl

/-- The rows of the other kind have none. -/
theorem rowBytes_eq_zero {k : SeriesKey} (tsMs : UInt64) {rs : List Row}
    (h : ∀ row ∈ rs, rowKey row ≠ k) : rowBytes k tsMs rs = 0 := by
  unfold rowBytes samplesOfRows
  rw [List.filter_eq_nil_iff.mpr fun row hrow hk => h row hrow (of_decide_eq_true hk)]
  rfl

theorem ingestedBytes_singleton (k : SeriesKey) (s : SnapshotData) :
    ingestedBytes k [s] = rowBytes k s.timestampMs (rows s) := by
  unfold ingestedBytes samplesFor rowBytes
  rw [List.flatMap_singleton]

/-- **A total grows by the bytes that the histogram ingests.** -/
def Grown (rt rt' : MonitorRuntime) (snapshots : List SnapshotData) : Prop :=
  (∀ ifindex, bytesUnder rt'.cumulativeIface ifindex =
    bytesUnder rt.cumulativeIface ifindex + ingestedBytes (.iface ifindex) snapshots) ∧
  ∀ key : DeviceKey, bytesUnder rt'.cumulativeDevice key =
    bytesUnder rt.cumulativeDevice key +
      ingestedBytes (.device ⟨key.1, macToString key.2⟩) snapshots

theorem grown_refl (rt : MonitorRuntime) : Grown rt rt [] :=
  ⟨fun _ => (add_zero _).symm, fun _ => (add_zero _).symm⟩

theorem Grown.trans {rt rt' rt'' : MonitorRuntime} {xs ys : List SnapshotData} (h : Grown rt rt' xs)
    (h' : Grown rt' rt'' ys) : Grown rt rt'' (xs ++ ys) := by
  constructor
  · intro ifindex
    rw [h'.1, h.1, ingestedBytes_append, add_assoc]
  · intro key
    rw [h'.2, h.2, ingestedBytes_append, add_assoc]

theorem grown_collectSnapshot {cfg : Config} {topology : TopologySnapshot} {tick : Tick}
    {rt rt' : MonitorRuntime} {s : SnapshotData} (h : RuntimeInv rt)
    (hs : collectSnapshot cfg topology tick rt = (some s, rt')) : Grown rt rt' [s] := by
  obtain ⟨hiface, hdevice, hmac⟩ := accounts_collectSnapshot h hs
  constructor
  · intro ifindex
    rw [hiface.after_eq ifindex, ingestedBytes_singleton]
    unfold rows
    rw [rowBytes_append, rowBytes_iface, rowBytes_eq_zero, add_zero]
    intro row hrow
    obtain ⟨item, -, rfl⟩ := List.mem_map.mp hrow
    exact fun heq => by cases heq
  · intro key
    rw [hdevice.after_eq key, ingestedBytes_singleton]
    unfold rows
    rw [rowBytes_append, rowBytes_device key _ hmac, rowBytes_eq_zero, zero_add]
    intro row hrow
    obtain ⟨item, -, rfl⟩ := List.mem_map.mp hrow
    exact fun heq => by cases heq

theorem grown_step {rt : MonitorRuntime} (h : RuntimeInv rt) {op : Op} (hkeeps : op.keeps = true) :
    Grown rt (step rt op).2 (step rt op).1.toList := by
  cases op with
  | collect cfg topology tick =>
    show Grown rt (collectSnapshot cfg topology tick rt).2
      (collectSnapshot cfg topology tick rt).1.toList
    rcases hs : collectSnapshot cfg topology tick rt with ⟨s, rt'⟩
    cases s with
    | none =>
      have hkeep := collectSnapshot_eq_none cfg topology tick (congrArg Prod.fst hs)
      rw [hs] at hkeep
      rw [hkeep]
      exact grown_refl _
    | some s => exact grown_collectSnapshot h hs
  | remove key => cases hkeeps
  | hostname key name snapshotDevice nowMs =>
    have hsame : ∀ rt', rt' = updateHostname rt key name snapshotDevice nowMs →
        rt'.cumulativeIface = rt.cumulativeIface ∧ rt'.cumulativeDevice = rt.cumulativeDevice := by
      rintro rt' rfl
      unfold updateHostname
      split <;> exact ⟨rfl, rfl⟩
    obtain ⟨hiface, hdevice⟩ := hsame _ rfl
    refine ⟨fun ifindex => ?_, fun key => ?_⟩
    · show bytesUnder (updateHostname _ _ _ _ _).cumulativeIface ifindex = _
      rw [hiface]
      exact (add_zero _).symm
    · show bytesUnder (updateHostname _ _ _ _ _).cumulativeDevice key = _
      rw [hdevice]
      exact (add_zero _).symm

theorem grown_run {rt : MonitorRuntime} (h : Reachable rt) (ops : List Op)
    (hkeeps : ∀ op ∈ ops, op.keeps = true) : Grown rt (run rt ops).2 (run rt ops).1 := by
  induction ops generalizing rt with
  | nil => exact grown_refl rt
  | cons op rest ih =>
    exact (grown_step (runtimeInv_reachable h) (hkeeps op List.mem_cons_self)).trans
      (ih (.step op h) fun op' hop => hkeeps op' (List.mem_cons_of_mem _ hop))

/-- **Totals are the sum of the bytes of the ticks.** In every snapshot each row's total is the total
before the tick and the bytes of the row, and it is the total after the tick. Over every run without
removals a total grows by the bytes that the histogram ingests. -/
theorem cumulative_totals {rt : MonitorRuntime} (h : Reachable rt) :
    (∀ cfg topology tick s rt', collectSnapshot cfg topology tick rt = (some s, rt') →
      (∀ row ∈ s.interfaces,
        row.cumulative.bytes = addSat (bytesUnder rt.cumulativeIface row.ifindex) row.metrics.bytes ∧
        bytesUnder rt'.cumulativeIface row.ifindex = row.cumulative.bytes) ∧
      ∀ row ∈ s.devices, ∃ mac, row.mac = macToString mac ∧
        row.cumulative.bytes =
          addSat (bytesUnder rt.cumulativeDevice (row.ifindex, mac)) row.metrics.bytes ∧
        bytesUnder rt'.cumulativeDevice (row.ifindex, mac) = row.cumulative.bytes) ∧
    ∀ ops, (∀ op ∈ ops, op.keeps = true) → Grown rt (run rt ops).2 (run rt ops).1 := by
  refine ⟨fun cfg topology tick s rt' hs => ?_, grown_run h⟩
  obtain ⟨hiface, hdevice, hmac⟩ := accounts_collectSnapshot (runtimeInv_reachable h) hs
  refine ⟨fun row hrow => ?_, fun row hrow => ?_⟩
  · have hentry := List.mem_map_of_mem (f := ifaceEntry) hrow
    exact ⟨hiface.balance _ hentry, hiface.current _ hentry⟩
  · have hentry := List.mem_map_of_mem (f := deviceEntry) hrow
    exact ⟨(deviceKeyOf row).2, hmac row hrow, hdevice.balance _ hentry, hdevice.current _ hentry⟩

/-- A LAN and a WAN interface, and a tick that finds traffic of both kinds. -/
def sampleTopology : TopologySnapshot :=
  .ofInterfaces [⟨2, "wan", "wan", [], []⟩, ⟨3, "br-lan", "lan", [], []⟩]

def sampleConfig : Config := ⟨["wan", "br-lan"], true, 1.0⟩

def sampleTick : Tick where
  nowMs := 1000000
  ifaceEntries := some [(⟨3, 4, 1⟩, ⟨1, 100⟩), (⟨2, 4, 2⟩, ⟨1, 100⟩)]
  deviceEntries := some [(⟨3, macWan, 4, 1⟩, ⟨1, 100⟩)]
  insertFailuresRead := true
  ecmEntries := some [(⟨#v[0x01010101, 0, 0, 0], 4, 1⟩, [⟨1, 500⟩])]
  arp := none
  ipNeigh := none
  hostnames := ∅
  deviceRemoved := fun _ => false
  ecmRecheck := fun _ => none
  ecmRemoved := fun _ => false
  o := .listed

theorem cumulative_totals_sample :
    let rt := startRuntime .listed sampleTopology none ∅ ∅
    ∃ s rt', collectSnapshot sampleConfig sampleTopology sampleTick rt = (some s, rt') ∧
      ∀ row ∈ s.interfaces,
        row.cumulative.bytes = addSat (bytesUnder rt.cumulativeIface row.ifindex) row.metrics.bytes ∧
        bytesUnder rt'.cumulativeIface row.ifindex = row.cumulative.bytes := by
  intro rt
  have hsome : (collectSnapshot sampleConfig sampleTopology sampleTick rt).1.isSome := rfl
  obtain ⟨s, hs⟩ := Option.isSome_iff_exists.mp hsome
  have hpair : collectSnapshot sampleConfig sampleTopology sampleTick rt =
      (some s, (collectSnapshot sampleConfig sampleTopology sampleTick rt).2) := Prod.ext hs rfl
  exact ⟨s, _, hpair, ((cumulative_totals (.start .listed sampleTopology none ∅ ∅)).1
    sampleConfig sampleTopology sampleTick s _ hpair).1⟩

end BandixPlus.Monitor.Cumulative
