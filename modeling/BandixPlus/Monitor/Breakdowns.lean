import BandixPlus.Monitor.RuntimeState

/-! # Multicast, broadcast and unresolved traffic

A row shows how much traffic of its interface was multicast, broadcast or to no known device: the bytes
are totals, which the state holds and `export_runtime_state` saves.

* `posted_interfaceRows`: a tick adds the bytes that it finds to the totals of the interfaces that have
  a row, those of the software counters first, then those of the hardware, and the rows show the totals.
* `breakdowns_accumulate`: over a run each tick is added once. -/

namespace BandixPlus.Monitor.Breakdowns

open BandixPlus.Common BandixPlus.Lib.Maps BandixPlus.Lib.Saturating
open BandixPlus.Monitor.Counters BandixPlus.Monitor.Snapshot BandixPlus.Monitor.Topology
open BandixPlus.Monitor.Runtime BandixPlus.Monitor.Neighbors BandixPlus.Monitor.Interfaces
open BandixPlus.Monitor.Ecm BandixPlus.Monitor.Collect BandixPlus.Monitor.Session
open BandixPlus.Monitor.Series BandixPlus.Monitor.Registry BandixPlus.Monitor.Cumulative
open BandixPlus.Monitor.RuntimeState

inductive Kind where
  | mcast | bcast | unresolved
  deriving DecidableEq

/-- The totals in the state. -/
def kept (rt : MonitorRuntime) : Kind → HashMap UInt32 CounterQuad
  | .mcast => rt.cumulativeMcast
  | .bcast => rt.cumulativeBcast
  | .unresolved => rt.cumulativeUnresolved

/-- What a row shows. -/
def shown (row : InterfaceOverviewItem) : Kind → CounterQuad
  | .mcast => row.mcastMetrics
  | .bcast => row.bcastMetrics
  | .unresolved => row.unresolvedMetrics

/-- What is saved. -/
def saved (state : MonitorRuntimeState) : Kind → List PersistedIfaceBreakdown
  | .mcast => state.ifaceMcast
  | .bcast => state.ifaceBcast
  | .unresolved => state.ifaceUnresolved

/-- What the software counters of a tick show. -/
def software (b : Breakdown) : Kind → HashMap UInt32 CounterQuad
  | .mcast => b.mcast
  | .bcast => b.bcast
  | .unresolved => b.unresolved

/-- What those of the hardware show. -/
def hardwareFound (e : EcmLoop) : Kind → HashMap UInt32 CounterQuad
  | .unresolved => e.unresolvedEcmMetrics
  | _ => ∅

/-- The bytes that the state holds. -/
def held (k : Kind) (rt : MonitorRuntime) : UInt32 → Quad UInt64 := bytesUnder (kept rt k)

/-! ### Changes of the rows -/

/-- **A change of a row posts an amount** to the total of its interface, which the row shows then. It may
ask for what the row shows before. -/
def Posts (k : Kind) (ready : Quad UInt64 → CounterQuad → Prop) (amount : UInt32 → Quad UInt64)
    (f : MonitorRuntime → InterfaceOverviewItem → InterfaceOverviewItem × MonitorRuntime) : Prop :=
  ∀ rt row, ready (held k rt row.ifindex) (shown row k) →
    (f rt row).1.ifindex = row.ifindex ∧
    held k (f rt row).2 = Function.update (held k rt) row.ifindex
      (held k rt row.ifindex + amount row.ifindex) ∧
    (shown (f rt row).1 k).bytes = held k rt row.ifindex + amount row.ifindex

/-- **Rows and state after amounts are posted.** -/
structure Posted (k : Kind) (amount before : UInt32 → Quad UInt64)
    (rows : List InterfaceOverviewItem) (after : List InterfaceOverviewItem × MonitorRuntime) :
    Prop where
  ifindex : after.1.map InterfaceOverviewItem.ifindex = rows.map InterfaceOverviewItem.ifindex
  held_eq : ∀ i, held k after.2 i =
    if i ∈ rows.map InterfaceOverviewItem.ifindex then before i + amount i else before i
  current : ∀ row ∈ after.1, (shown row k).bytes = held k after.2 row.ifindex

theorem Posted.trans {k : Kind} {a a' before : UInt32 → Quad UInt64}
    {rows : List InterfaceOverviewItem} {p q : List InterfaceOverviewItem × MonitorRuntime}
    (h : Posted k a before rows p) (h' : Posted k a' (held k p.2) p.1 q) :
    Posted k (fun i => a i + a' i) before rows q := by
  refine ⟨h'.ifindex.trans h.ifindex, fun i => ?_, h'.current⟩
  rw [h'.held_eq, h.ifindex, h.held_eq]
  split_ifs
  · exact add_assoc _ _ _
  · rfl

theorem posted_eachRow {k : Kind} {ready : Quad UInt64 → CounterQuad → Prop}
    {amount : UInt32 → Quad UInt64}
    {f : MonitorRuntime → InterfaceOverviewItem → InterfaceOverviewItem × MonitorRuntime}
    (hf : Posts k ready amount f) (rows : List InterfaceOverviewItem) {rt : MonitorRuntime}
    (hdistinct : (rows.map InterfaceOverviewItem.ifindex).Nodup)
    (hready : ∀ row ∈ rows, ready (held k rt row.ifindex) (shown row k)) :
    Posted k amount (held k rt) rows (eachRow f rt rows) := by
  induction rows generalizing rt with
  | nil => exact ⟨rfl, fun i => (if_neg List.not_mem_nil).symm, fun row h => absurd h List.not_mem_nil⟩
  | cons row rest ih =>
    obtain ⟨hifindex, hheld, hshown⟩ := hf rt row (hready row List.mem_cons_self)
    obtain ⟨hfresh, hdistinct⟩ := List.nodup_cons.mp hdistinct
    have hother : ∀ i ∈ rest.map InterfaceOverviewItem.ifindex,
        held k (f rt row).2 i = held k rt i := by
      intro i hi
      have hne : i ≠ row.ifindex := fun heq => hfresh (heq ▸ hi)
      rw [hheld, Function.update_of_ne hne]
    have hrest := @ih (f rt row).2 hdistinct fun later hlater => by
      rw [hother _ (List.mem_map_of_mem hlater)]
      exact hready later (List.mem_cons_of_mem _ hlater)
    -- the later rows are of other interfaces
    have hself : held k (eachRow f (f rt row).2 rest).2 row.ifindex =
        held k rt row.ifindex + amount row.ifindex := by
      rw [hrest.held_eq, if_neg hfresh, hheld, Function.update_self]
    refine ⟨?_, fun i => ?_, fun item hitem => ?_⟩
    · rw [List.map_cons, ← hrest.ifindex, ← hifindex]
      rfl
    · show held k (eachRow f (f rt row).2 rest).2 i = _
      rw [List.map_cons]
      by_cases hi : i = row.ifindex
      · rw [hi, hself, if_pos List.mem_cons_self]
      · rw [hrest.held_eq, hheld, Function.update_of_ne hi]
        exact if_congr (by simp [hi]) rfl rfl
    · rcases List.mem_cons.mp hitem with rfl | hitem
      · rw [hshown, hifindex]
        exact hself.symm
      · exact hrest.current item hitem

theorem bytes_breakdownEntry (cumulative metrics : HashMap UInt32 CounterQuad) (i : UInt32)
    (c : CounterQuad) :
    (breakdownEntry cumulative metrics i c).1.bytes = bytesUnder cumulative i + bytesUnder metrics i ∧
    (breakdownEntry cumulative metrics i c).2.bytes = (breakdownEntry cumulative metrics i c).1.bytes := by
  unfold breakdownEntry bytesUnder
  dsimp only
  cases metrics.lookup i with
  | some m => exact ⟨rfl, rfl⟩
  | none => exact ⟨(add_zero _).symm, rfl⟩

/-- The software counters, whatever the row shows before. -/
theorem posts_breakdownStep (k : Kind) (b : Breakdown) :
    Posts k (fun _ _ => True) (bytesUnder (software b k)) (breakdownStep b) := by
  intro rt row _
  refine ⟨rfl, ?_⟩
  cases k with
  | mcast =>
    obtain ⟨htotal, hshown⟩ := bytes_breakdownEntry rt.cumulativeMcast b.mcast row.ifindex row.mcastMetrics
    exact ⟨(bytesUnder_insert _ _ _).trans (congrArg _ htotal), hshown.trans htotal⟩
  | bcast =>
    obtain ⟨htotal, hshown⟩ := bytes_breakdownEntry rt.cumulativeBcast b.bcast row.ifindex row.bcastMetrics
    exact ⟨(bytesUnder_insert _ _ _).trans (congrArg _ htotal), hshown.trans htotal⟩
  | unresolved =>
    obtain ⟨htotal, hshown⟩ :=
      bytes_breakdownEntry rt.cumulativeUnresolved b.unresolved row.ifindex row.unresolvedMetrics
    exact ⟨(bytesUnder_insert _ _ _).trans (congrArg _ htotal), hshown.trans htotal⟩

/-- A change that has nothing to do with the breakdowns. -/
def LeavesOut (k : Kind)
    (f : MonitorRuntime → InterfaceOverviewItem → InterfaceOverviewItem × MonitorRuntime) : Prop :=
  ∀ rt row, (f rt row).1.ifindex = row.ifindex ∧ shown (f rt row).1 k = shown row k ∧
    held k (f rt row).2 = held k rt

theorem leavesOut_injectLan (k : Kind) (shown metrics : HashMap UInt32 CounterQuad) :
    LeavesOut k (injectLan shown metrics) := by
  intro rt row
  unfold injectLan
  cases shown.lookup row.ifindex with
  | none => exact ⟨rfl, rfl, rfl⟩
  | some smoothed => cases k <;> exact ⟨rfl, rfl, rfl⟩

theorem leavesOut_injectWan (k : Kind) (wan : Option UInt32) (smoothed metrics : CounterQuad) :
    LeavesOut k (injectWan wan smoothed metrics) := by
  intro rt row
  unfold injectWan
  split_ifs
  · exact ⟨rfl, rfl, rfl⟩
  · cases k <;> exact ⟨rfl, rfl, rfl⟩

/-- It adds nothing to a total that the row shows. -/
theorem LeavesOut.posts {k : Kind}
    {f : MonitorRuntime → InterfaceOverviewItem → InterfaceOverviewItem × MonitorRuntime}
    (h : LeavesOut k f) : Posts k (fun total c => c.bytes = total) (bytesUnder ∅) f := by
  intro rt row hready
  obtain ⟨hifindex, hshown, hheld⟩ := h rt row
  have hzero : held k rt row.ifindex + bytesUnder ∅ row.ifindex = held k rt row.ifindex := add_zero _
  refine ⟨hifindex, ?_, ?_⟩
  · rw [hheld, hzero, Function.update_eq_self]
  · rw [hshown, hzero, hready]

theorem LeavesOut.comp_posts {k : Kind} {ready : Quad UInt64 → CounterQuad → Prop}
    {amount : UInt32 → Quad UInt64}
    {f g : MonitorRuntime → InterfaceOverviewItem → InterfaceOverviewItem × MonitorRuntime}
    (hf : LeavesOut k f) (hg : Posts k ready amount g) :
    Posts k ready amount fun rt row => g (f rt row).2 (f rt row).1 := by
  intro rt row hready
  obtain ⟨hifindex, hshown, hheld⟩ := hf rt row
  have hposts := hg (f rt row).2 (f rt row).1
  rw [hifindex, hshown, hheld] at hposts
  exact hposts hready

theorem Posts.comp_leavesOut {k : Kind} {ready : Quad UInt64 → CounterQuad → Prop}
    {amount : UInt32 → Quad UInt64}
    {f g : MonitorRuntime → InterfaceOverviewItem → InterfaceOverviewItem × MonitorRuntime}
    (hf : Posts k ready amount f) (hg : LeavesOut k g) :
    Posts k ready amount fun rt row => g (f rt row).2 (f rt row).1 := by
  intro rt row hready
  obtain ⟨hifindex, hheld, hshown⟩ := hf rt row hready
  obtain ⟨hifindex', hshown', hheld'⟩ := hg (f rt row).2 (f rt row).1
  refine ⟨hifindex'.trans hifindex, hheld'.trans hheld, ?_⟩
  rw [hshown', hshown]

/-- The hardware counters, on rows that show the totals. -/
theorem posts_injectUnresolved (k : Kind) {e : EcmLoop} {shown : HashMap UInt32 CounterQuad}
    (hmem : ∀ i ∈ e.unresolvedEcmMetrics, i ∈ shown) :
    Posts k (fun total c => c.bytes = total) (bytesUnder (hardwareFound e k))
      (injectUnresolved shown e.unresolvedEcmMetrics) := by
  cases k with
  | mcast => exact LeavesOut.posts fun _ _ => ⟨rfl, rfl, rfl⟩
  | bcast => exact LeavesOut.posts fun _ _ => ⟨rfl, rfl, rfl⟩
  | unresolved =>
    intro rt row _
    have htotal : (injectUnresolved shown e.unresolvedEcmMetrics rt row).1.unresolvedMetrics.bytes =
        held .unresolved rt row.ifindex + bytesUnder e.unresolvedEcmMetrics row.ifindex := by
      unfold injectUnresolved bytesUnder
      dsimp only
      cases hraw : e.unresolvedEcmMetrics.lookup row.ifindex with
      | none =>
        split
        · next heq => cases heq
        · exact (add_zero _).symm
      | some raw =>
        obtain ⟨smoothed, hsmoothed⟩ := mem_iff_lookup.mp (hmem _ (mem_iff_lookup.mpr ⟨raw, hraw⟩))
        rw [hsmoothed]
        rfl
    exact ⟨rfl, (bytesUnder_insert _ _ _).trans (congrArg _ htotal), htotal⟩

theorem posts_injectRow (k : Kind) {e : EcmLoop} {x : Injection}
    (hmetrics : x.unresolvedMetrics = e.unresolvedEcmMetrics)
    (hmem : ∀ i ∈ e.unresolvedEcmMetrics, i ∈ x.unresolvedShown) :
    Posts k (fun total c => c.bytes = total) (bytesUnder (hardwareFound e k)) (injectRow x) := by
  have hposts := ((leavesOut_injectLan k x.lanShown x.lanMetrics).comp_posts
    (posts_injectUnresolved k hmem)).comp_leavesOut
      (leavesOut_injectWan k x.wan x.wanShown x.wanMetrics)
  rw [← hmetrics] at hposts
  exact hposts

/-! ### One tick -/

/-- The bytes that a tick finds. -/
def foundBytes (k : Kind) (b : BeforeEcm) (e : EcmLoop) (i : UInt32) : Quad UInt64 :=
  bytesUnder (software b.breakdown k) i + bytesUnder (hardwareFound e k) i

/-- **A tick posts what it finds**, with the hardware counters or without. -/
theorem posted_interfaceRows (k : Kind) (topology : TopologySnapshot) (tick : Tick) {b : BeforeEcm}
    {e : EcmLoop} (rt : MonitorRuntime)
    (hdistinct : ((addWanRow topology rt b.interfaces).map InterfaceOverviewItem.ifindex).Nodup)
    (hnone : b.ecmStats = none → e.unresolvedEcmMetrics = ∅) :
    Posted k (foundBytes k b e) (held k rt) (addWanRow topology rt b.interfaces)
      (interfaceRows topology tick b e rt) := by
  have hsoft := @posted_eachRow _ _ _ _ (posts_breakdownStep k b.breakdown) _ rt hdistinct
    fun _ _ => trivial
  unfold interfaceRows applyTcBreakdowns
  dsimp only
  generalize eachRow (breakdownStep b.breakdown) rt (addWanRow topology rt b.interfaces) = p at hsoft
  by_cases hstats : b.ecmStats.isSome = true
  · rw [if_pos hstats]
    refine hsoft.trans ?_
    unfold injectEcm
    dsimp only
    have hsame : ∀ rt', rt' = { p.2 with
        smoothedLanEcmRates := (smoothRates tick.o e.lanEcmMetrics p.2.smoothedLanEcmRates).rates
        smoothedUnresolvedEcmRates :=
          (smoothRates tick.o e.unresolvedEcmMetrics p.2.smoothedUnresolvedEcmRates).rates
        smoothedWanEcmRates := some (smoothWan e.wanEcmMetrics p.2.smoothedWanEcmRates) } →
        held k rt' = held k p.2 := by
      rintro rt' rfl
      cases k <;> rfl
    rw [← hsame _ rfl]
    refine posted_eachRow (posts_injectRow k rfl fun _ => mem_shown_smoothRates) p.1 ?_ fun row hrow => ?_
    · rw [hsoft.ifindex]
      exact hdistinct
    · rw [hsame _ rfl]
      exact hsoft.current row hrow
  · rw [if_neg hstats]
    have hamount : foundBytes k b e = bytesUnder (software b.breakdown k) := by
      have hempty : hardwareFound e k = ∅ := by
        cases k with
        | unresolved => exact hnone (Option.not_isSome_iff_eq_none.mp hstats)
        | _ => rfl
      funext i
      unfold foundBytes
      rw [hempty]
      exact add_zero _
    rw [hamount]
    exact hsoft

/-- The rows of a tick are of different interfaces. -/
theorem nodup_ifindex_addWanRow (cfg : Config) (topology : TopologySnapshot) (tick : Tick)
    (rt rt' : MonitorRuntime) (ifaceStats : HashMap InterfaceTrafficKey TrafficValue)
    (deviceStats : HashMap DeviceTrafficKey TrafficValue) :
    ((addWanRow topology rt' (beforeEcm cfg topology tick rt ifaceStats deviceStats).interfaces).map
      InterfaceOverviewItem.ifindex).Nodup := by
  let start := startTick cfg topology tick rt
  let st := interfaceLoop cfg tick.o topology ifaceStats start.sec start.rt
  have hrows := (accounts_addWanRow (accounts_interfaceLoop cfg tick.o topology ifaceStats start.sec
    start.rt) (zone_interfaceLoop cfg tick.o topology ifaceStats start.sec start.rt)).distinct
  rw [map_key_ifaceEntry] at hrows
  -- the totals do not decide which rows there are
  have hsame : (addWanRow topology rt' st.interfaces).map InterfaceOverviewItem.ifindex =
      (addWanRow topology st.rt st.interfaces).map InterfaceOverviewItem.ifindex := by
    unfold addWanRow
    split_ifs
    · rfl
    · cases topology.interfaces.find? fun i => i.zone = "wan" with
      | none => rfl
      | some wan =>
        dsimp only
        rw [List.map_append, List.map_append]
        rfl
  show ((addWanRow topology rt' st.interfaces).map InterfaceOverviewItem.ifindex).Nodup
  rw [hsame]
  exact hrows

theorem held_startTick (k : Kind) (cfg : Config) (topology : TopologySnapshot) (tick : Tick)
    (rt : MonitorRuntime) : held k (startTick cfg topology tick rt).rt = held k rt := by
  have hkept : kept (startTick cfg topology tick rt).rt k = kept rt k := by
    unfold startTick readEcm tickSeconds
    dsimp only
    cases k <;> split_ifs <;> first | rfl | (split <;> rfl)
  unfold held
  rw [hkept]

theorem held_interfaceLoop (k : Kind) (cfg : Config) (o : IterOrder) (topology : TopologySnapshot)
    (stats : HashMap InterfaceTrafficKey TrafficValue) (sec : Float) (rt : MonitorRuntime) :
    held k (interfaceLoop cfg o topology stats sec rt).rt = held k rt := by
  unfold interfaceLoop
  refine List.foldlRecOn (motive := fun st : IfaceLoop => held k st.rt = held k rt) _ _ rfl
    fun st hst iface _ => ?_
  rw [← hst]
  cases k <;> rfl

theorem held_observe (k : Kind) (cfg : Config) (topology : TopologySnapshot) (tick : Tick)
    (refresh : Bool) (rt : MonitorRuntime) :
    held k (observe cfg topology tick refresh rt).2 = held k rt := by
  have hkept : kept (observe cfg topology tick refresh rt).2 k = kept rt k := by
    unfold observe readNeighbors listNeighborsFiltered
    dsimp only
    cases k <;> split_ifs <;> rfl
  unfold held
  rw [hkept]

/-- The totals are as they were until the rows get them. -/
theorem held_settle (k : Kind) (cfg : Config) (topology : TopologySnapshot) (tick : Tick)
    (rt : MonitorRuntime) (ifaceStats : HashMap InterfaceTrafficKey TrafficValue)
    (deviceStats : HashMap DeviceTrafficKey TrafficValue) (e : EcmLoop) :
    held k (settle topology tick (beforeEcm cfg topology tick rt ifaceStats deviceStats) e).2 =
      held k rt := by
  let start := startTick cfg topology tick rt
  let st := interfaceLoop cfg tick.o topology ifaceStats start.sec start.rt
  have hobserve := held_observe k cfg topology tick start.reading.refreshIpv6Neighbors st.rt
  rw [held_interfaceLoop, held_startTick] at hobserve
  rw [← hobserve]
  cases k <;> rfl

/-- Without a reading the hardware shows nothing. -/
theorem unresolvedEcmMetrics_hardware (topology : TopologySnapshot) (tick : Tick) {b : BeforeEcm}
    (h : b.ecmStats = none) : (hardware topology tick b).unresolvedEcmMetrics = ∅ := by
  have hempty : tick.o.order (∅ : HashMap EcmTrafficKey TrafficValue).entries = [] :=
    List.perm_nil.mp (tick.o.perm _)
  unfold hardware ecmLoop
  rw [h, Option.getD_none, hempty]
  rfl

/-- What a tick finds outside is attributed before its rows are put together. -/
def tickStart (cfg : Config) (topology : TopologySnapshot) (tick : Tick) (rt : MonitorRuntime) :
    BeforeEcm :=
  beforeEcm cfg topology tick rt (readStats (tick.ifaceEntries.getD []))
    (readStats (tick.deviceEntries.getD []))

/-- The bytes that a tick finds for an interface. -/
def tickBytes (k : Kind) (cfg : Config) (topology : TopologySnapshot) (tick : Tick)
    (rt : MonitorRuntime) : UInt32 → Quad UInt64 :=
  foundBytes k (tickStart cfg topology tick rt) (hardware topology tick (tickStart cfg topology tick rt))

/-- **A tick adds what it finds to the totals of the interfaces with a row**, and the rows show them. -/
theorem posted_collectSnapshot (k : Kind) {cfg : Config} {topology : TopologySnapshot} {tick : Tick}
    {rt rt' : MonitorRuntime} {s : SnapshotData}
    (hs : collectSnapshot cfg topology tick rt = (some s, rt')) :
    (∀ i, held k rt' i = if i ∈ s.interfaces.map InterfaceOverviewItem.ifindex then
      held k rt i + tickBytes k cfg topology tick rt i else held k rt i) ∧
    ∀ row ∈ s.interfaces, (shown row k).bytes = held k rt' row.ifindex := by
  obtain ⟨ie, de, hie, hde, rfl, rfl⟩ := collectSnapshot_eq_some cfg topology tick hs
  let b := beforeEcm cfg topology tick rt (readStats ie) (readStats de)
  have hb : tickStart cfg topology tick rt = b := by
    unfold tickStart
    rw [hie, hde]
    rfl
  let settled := settle topology tick b (hardware topology tick b)
  have hposted := posted_interfaceRows k topology tick settled.2
    (nodup_ifindex_addWanRow cfg topology tick rt settled.2 (readStats ie) (readStats de))
    (unresolvedEcmMetrics_hardware topology tick)
  refine ⟨fun i => ?_, hposted.current⟩
  have hheld := hposted.held_eq i
  rw [← hposted.ifindex, held_settle] at hheld
  unfold tickBytes
  rw [hb]
  exact hheld

/-! ### Runs -/

/-- What an operation adds to a total of an interface: a tick the bytes of the software and of the
hardware counters, if the interface has a row. -/
def gained (k : Kind) (i : UInt32) (l : Lane) (rt : MonitorRuntime) : Op → ℕ
  | .collect cfg topology tick =>
    match (collectSnapshot cfg topology tick rt).1 with
    | some s =>
      if i ∈ s.interfaces.map InterfaceOverviewItem.ifindex then
        let b := tickStart cfg topology tick rt
        ((bytesUnder (software b.breakdown k) i).get l).toNat +
          ((bytesUnder (hardwareFound (hardware topology tick b) k) i).get l).toNat
      else 0
    | none => 0
  | _ => 0

def gainedIn (k : Kind) (i : UInt32) (l : Lane) : MonitorRuntime → List Op → ℕ
  | _, [] => 0
  | rt, op :: ops => gained k i l rt op + gainedIn k i l (step rt op).2 ops

/-- An operation without a snapshot keeps the totals. -/
theorem held_step_of_none (k : Kind) {rt : MonitorRuntime} {op : Op} (h : (step rt op).1 = none) :
    held k (step rt op).2 = held k rt := by
  cases op with
  | collect cfg topology tick =>
    show held k (collectSnapshot cfg topology tick rt).2 = _
    rw [collectSnapshot_eq_none cfg topology tick h]
  | remove key => cases k <;> rfl
  | hostname key name snapshotDevice nowMs =>
    have hkept : kept (updateHostname rt key name snapshotDevice nowMs) k = kept rt k := by
      unfold updateHostname
      cases k <;> (split <;> rfl)
    show bytesUnder (kept (updateHostname rt key name snapshotDevice nowMs) k) = _
    rw [hkept]
    rfl

theorem toNat_held_step {k : Kind} {i : UInt32} {l : Lane} {rt : MonitorRuntime} {op : Op}
    (h : ((held k rt i).get l).toNat + gained k i l rt op < 2 ^ 64) :
    ((held k (step rt op).2 i).get l).toNat =
      ((held k rt i).get l).toNat + gained k i l rt op := by
  rcases hs : (step rt op).1 with _ | s
  · have hzero : gained k i l rt op = 0 := by
      cases op with
      | collect cfg topology tick =>
        have hnone : (collectSnapshot cfg topology tick rt).1 = none := hs
        simp only [gained, hnone]
      | _ => rfl
    rw [held_step_of_none k hs, hzero, add_zero]
  · cases op with
    | collect cfg topology tick =>
      have hs' : (collectSnapshot cfg topology tick rt).1 = some s := hs
      have hpair : collectSnapshot cfg topology tick rt =
          (some s, (collectSnapshot cfg topology tick rt).2) := Prod.ext hs' rfl
      obtain ⟨hheld, -⟩ := posted_collectSnapshot k hpair
      have hheld : held k (step rt (.collect cfg topology tick)).2 i = _ := hheld i
      simp only [gained, hs'] at h ⊢
      rw [hheld]
      by_cases hrow : i ∈ s.interfaces.map InterfaceOverviewItem.ifindex
      · rw [if_pos hrow] at h ⊢
        rw [if_pos hrow]
        have hfound : ((tickBytes k cfg topology tick rt i).get l).toNat = _ :=
          toNat_addSat_get rfl (by omega)
        rw [← hfound] at h ⊢
        exact toNat_addSat_get rfl h
      · rw [if_neg hrow, if_neg hrow, add_zero]
    | remove key => cases hs
    | hostname key name snapshotDevice nowMs => cases hs

theorem toNat_held_run {k : Kind} {i : UInt32} {l : Lane} {rt : MonitorRuntime} (ops : List Op)
    (h : ((held k rt i).get l).toNat + gainedIn k i l rt ops < 2 ^ 64) :
    ((held k (run rt ops).2 i).get l).toNat =
      ((held k rt i).get l).toNat + gainedIn k i l rt ops := by
  induction ops generalizing rt with
  | nil => rfl
  | cons op rest ih =>
    unfold gainedIn at h ⊢
    have hstep := @toNat_held_step k i l rt op (by omega)
    have hrest := @ih (step rt op).2 (by omega)
    show ((held k (run (step rt op).2 rest).2 i).get l).toNat = _
    omega

/-- The rows of a snapshot show the totals of the state. -/
def ShowsHeld (k : Kind) (rt : MonitorRuntime) (s : SnapshotData) : Prop :=
  ∀ row ∈ s.interfaces, (shown row k).bytes = held k rt row.ifindex

theorem showsHeld_step {k : Kind} {rt : MonitorRuntime} {last : Option SnapshotData}
    (h : ∀ s ∈ last, ShowsHeld k rt s) (op : Op) :
    ∀ s ∈ (step rt op).1.or last, ShowsHeld k (step rt op).2 s := by
  intro s hmem
  rcases hs : (step rt op).1 with _ | t
  · rw [hs, Option.none_or] at hmem
    intro row hrow
    rw [held_step_of_none k hs]
    exact h s hmem row hrow
  · rw [hs, Option.some_or] at hmem
    obtain rfl := Option.some.inj hmem
    cases op with
    | collect cfg topology tick => exact (posted_collectSnapshot k (Prod.ext hs rfl)).2
    | remove key => cases hs
    | hostname key name snapshotDevice nowMs => cases hs

theorem showsHeld_run {k : Kind} {rt : MonitorRuntime} (ops : List Op) {last : Option SnapshotData}
    (h : ∀ s ∈ last, ShowsHeld k rt s) :
    ∀ s ∈ (run rt ops).1.getLast?.or last, ShowsHeld k (run rt ops).2 s := by
  induction ops generalizing rt last with
  | nil => exact h
  | cons op rest ih =>
    have hrest := ih (showsHeld_step h op)
    have hlast : (run rt (op :: rest)).1.getLast?.or last =
        (run (step rt op).2 rest).1.getLast?.or ((step rt op).1.or last) := by
      show ((step rt op).1.toList ++ (run (step rt op).2 rest).1).getLast?.or last = _
      rw [List.getLast?_append, Option.or_assoc]
      cases (step rt op).1 <;> rfl
    rw [hlast]
    exact hrest

/-! ### What is saved -/

theorem saved_exportRuntimeState (k : Kind) (o : IterOrder) (topology : TopologySnapshot)
    (rt : MonitorRuntime) :
    saved (exportRuntimeState o topology rt) k = exportBreakdown o topology (kept rt k) := by
  cases k <;> rfl

/-- **A total is saved under the name of its interface**, unless it is zero. -/
theorem mem_saved {k : Kind} {topology : TopologySnapshot} {i : UInt32} {iface : Interface}
    (hiface : topology.byIfindex i = some iface) {rt : MonitorRuntime} (h : held k rt i ≠ 0)
    (o : IterOrder) :
    ⟨iface.name, ⟨.const 0, held k rt i⟩⟩ ∈ saved (exportRuntimeState o topology rt) k := by
  unfold held bytesUnder at h ⊢
  cases hlookup : (kept rt k).lookup i with
  | none =>
    rw [hlookup] at h
    exact absurd rfl h
  | some quad =>
    rw [hlookup] at h
    rw [saved_exportRuntimeState]
    unfold exportBreakdown
    refine List.mem_mergeSort.mpr (List.mem_filterMap.mpr ⟨⟨i, quad⟩, mem_order_iff.mpr hlookup, ?_⟩)
    have hempty : quad.isEmpty = false := by
      refine Bool.eq_false_iff.mpr fun hempty => h ?_
      exact (of_decide_eq_true hempty).1
    unfold exportEntry
    dsimp only
    rw [hiface]
    dsimp only
    rw [hempty, if_neg Bool.false_ne_true]
    rfl

/-- Nothing else is saved. -/
theorem exists_of_mem_saved {k : Kind} {o : IterOrder} {topology : TopologySnapshot}
    {rt : MonitorRuntime} {item : PersistedIfaceBreakdown}
    (h : item ∈ saved (exportRuntimeState o topology rt) k) :
    ∃ i iface, topology.byIfindex i = some iface ∧
      item = ⟨iface.name, ⟨.const 0, held k rt i⟩⟩ := by
  rw [saved_exportRuntimeState] at h
  unfold exportBreakdown at h
  obtain ⟨e, he, hexport⟩ := List.mem_filterMap.mp (List.mem_mergeSort.mp h)
  have hlookup := mem_order_iff.mp he
  unfold exportEntry at hexport
  split at hexport
  · next iface hiface =>
    split_ifs at hexport
    refine ⟨e.1, iface, hiface, ?_⟩
    unfold held bytesUnder
    rw [hlookup]
    exact (Option.some.inj hexport).symm
  · cases hexport

/-- **Breakdowns accumulate each tick exactly once.** Short of an overflow a total after a run is that at
its start and the bytes of the ticks in which the interface had a row; the rows of the last snapshot
show it, and it is saved. -/
theorem breakdowns_accumulate (k : Kind) (rt : MonitorRuntime) (ops : List Op) (i : UInt32) (l : Lane)
    (hfits : ((held k rt i).get l).toNat + gainedIn k i l rt ops < 2 ^ 64) :
    ((held k (run rt ops).2 i).get l).toNat =
      ((held k rt i).get l).toNat + gainedIn k i l rt ops ∧
    (∀ s ∈ (run rt ops).1.getLast?, ∀ row ∈ s.interfaces, row.ifindex = i →
      ((shown row k).bytes.get l).toNat = ((held k rt i).get l).toNat + gainedIn k i l rt ops) ∧
    ∀ o topology,
      (∀ iface, topology.byIfindex i = some iface → held k (run rt ops).2 i ≠ 0 →
        ⟨iface.name, ⟨.const 0, held k (run rt ops).2 i⟩⟩ ∈
          saved (exportRuntimeState o topology (run rt ops).2) k) ∧
      ∀ item ∈ saved (exportRuntimeState o topology (run rt ops).2) k, ∃ j iface,
        topology.byIfindex j = some iface ∧
        item = ⟨iface.name, ⟨.const 0, held k (run rt ops).2 j⟩⟩ := by
  have htotal := toNat_held_run ops hfits
  refine ⟨htotal, fun s hs row hrow hi => ?_, fun o topology => ⟨fun iface hiface hne => ?_,
    fun item hitem => exists_of_mem_saved hitem⟩⟩
  · have hlast := @showsHeld_run k rt ops none (fun _ h => absurd h (by simp)) s
      (by rw [Option.or_none]; exact hs)
    rw [hlast row hrow, hi, htotal]
  · exact mem_saved hiface hne o

/-- Traffic of a device and of an address on the LAN side that nobody is known to own. -/
def strangerTick (nowMs bytes : UInt64) (ecmEntries : Option (List (EcmTrafficKey × List TrafficValue))) :
    Tick where
  nowMs
  ifaceEntries := some [(⟨3, 4, 1⟩, ⟨1, bytes⟩)]
  deviceEntries := some [(⟨3, #v[2, 0, 0, 0, 0, 51], 4, 1⟩, ⟨1, bytes⟩)]
  insertFailuresRead := true
  ecmEntries
  arp := none
  ipNeigh := none
  hostnames := ∅
  deviceRemoved := fun _ => false
  ecmRecheck := fun _ => none
  ecmRemoved := fun _ => false
  o := .listed

def lanTopology : TopologySnapshot :=
  .ofInterfaces [⟨3, "br-lan", "lan", ["192.168.1.1/24"], []⟩]

/-- Two ticks, and the reading of the hardware counters fails in the second. -/
def strangerRun : List Op :=
  [.collect sampleConfig lanTopology
      (strangerTick 1000000 100 (some [(⟨#v[0xC0A80134, 0, 0, 0], 4, 1⟩, [⟨1, 500⟩])])),
    .collect sampleConfig lanTopology (strangerTick 1001000 130 none)]

theorem breakdowns_accumulate_stranger :
    let rt := startRuntime .listed lanTopology none ∅ ∅
    gainedIn .unresolved 3 .upV4 rt strangerRun = 630 ∧
    ((held .unresolved (run rt strangerRun).2 3).get .upV4).toNat =
      ((held .unresolved rt 3).get .upV4).toNat + gainedIn .unresolved 3 .upV4 rt strangerRun := by
  intro rt
  have hgained : gainedIn .unresolved 3 .upV4 rt strangerRun = 630 := by decide +kernel
  refine ⟨hgained, (breakdowns_accumulate .unresolved rt strangerRun 3 .upV4 ?_).1⟩
  rw [hgained]
  decide +kernel

end BandixPlus.Monitor.Breakdowns
