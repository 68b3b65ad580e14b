import BandixPlus.Lib.Run
import BandixPlus.Monitor.Baseline
import BandixPlus.Monitor.Session

/-! # The software counters and the kernel

The kernel raises the counters of the devices while the collector reads them one after the other, counts the
deltas, and removes the counters that were idle for a day. Each operation on the kernel's map is one step.

* `inv_step`: what was counted and what is not yet counted is what the kernel added, as long as no packet
  comes between the reading of an idle counter and its removal.
* `device_bytes_once`: so it is in every run without such a packet.
* `count_and_prune`: without packets in between, the steps are a tick of `collect_snapshot`.
* `packet_lost`: such a packet is lost. -/

namespace BandixPlus.Monitor.DeviceCounters

open BandixPlus.Common BandixPlus.Lib.Maps BandixPlus.Lib.Run BandixPlus.Lib.Sampling
open BandixPlus.Lib.Saturating BandixPlus.Monitor.Counters BandixPlus.Monitor.Snapshot
open BandixPlus.Monitor.Topology BandixPlus.Monitor.Runtime BandixPlus.Monitor.Interfaces
open BandixPlus.Monitor.Devices BandixPlus.Monitor.Session BandixPlus.Monitor.Baseline

/-! ### The kernel's map -/

/-- `DEVICE_TRAFFIC_STATS`. -/
abbrev KernelMap := HashMap DeviceTrafficKey TrafficValue

def deviceTrafficMaxEntries : ℕ := 8192

/-- A packet: its counter is raised, or entered if there is room. -/
def bumpDeviceCounter (map : KernelMap) (key : DeviceTrafficKey) (bytes : UInt64) : KernelMap :=
  match map.lookup key with
  | some value => map.insert key ⟨satAdd value.packets 1, satAdd value.bytes bytes⟩
  | none => if len map < deviceTrafficMaxEntries then map.insert key ⟨1, bytes⟩ else map

theorem bytesOf_insert (map : KernelMap) (key : DeviceTrafficKey) (value : TrafficValue)
    (k : DeviceTrafficKey) :
    bytesOf (map.insert key value) k = if k = key then value.bytes.toNat else bytesOf map k := by
  unfold bytesOf
  rw [lookup_insert_eq]
  split_ifs <;> rfl

theorem bytesOf_bump_ne (map : KernelMap) {key k : DeviceTrafficKey} (bytes : UInt64) (hk : k ≠ key) :
    bytesOf (bumpDeviceCounter map key bytes) k = bytesOf map k := by
  unfold bumpDeviceCounter
  split
  · rw [bytesOf_insert, if_neg hk]
  · split_ifs
    · rw [bytesOf_insert, if_neg hk]
    · rfl

/-- A packet lowers no counter. -/
theorem bytesOf_le_bump (map : KernelMap) (key : DeviceTrafficKey) (bytes : UInt64)
    (k : DeviceTrafficKey) : bytesOf map k ≤ bytesOf (bumpDeviceCounter map key bytes) k := by
  by_cases hk : k = key
  · subst hk
    unfold bumpDeviceCounter
    cases hvalue : map.lookup k with
    | none =>
      have hzero : bytesOf map k = 0 := by
        unfold bytesOf
        rw [hvalue]
        rfl
      rw [hzero]
      exact Nat.zero_le _
    | some value =>
      have hold : bytesOf map k = value.bytes.toNat := by
        unfold bytesOf
        rw [hvalue]
        rfl
      have hlt := value.bytes.toNat_lt
      dsimp only
      rw [bytesOf_insert, if_pos rfl, hold, toNat_satAdd]
      omega
  · rw [bytesOf_bump_ne map bytes hk]

theorem bytesOf_erase (map : KernelMap) (key k : DeviceTrafficKey) :
    bytesOf (map.erase key) k = if k = key then 0 else bytesOf map k := by
  unfold bytesOf
  rw [lookup_erase_eq]
  split_ifs <;> rfl

theorem baseOf_erase (prev : HashMap DeviceTrafficKey UInt64) (key k : DeviceTrafficKey) :
    baseOf (prev.erase key) k = if k = key then 0 else baseOf prev k := by
  unfold baseOf
  rw [lookup_erase_eq]
  split_ifs <;> rfl

/-! ### The system -/

/-- Where the collector is. -/
inductive Phase where
  | idle
  /-- It reads the counters; `prune` tells whether it will look for idle ones. -/
  | reading (tick : Tick) (prune : Bool) (stats : KernelMap)
  /-- It removes idle counters. -/
  | pruning (keys : List DeviceTrafficKey)

structure System where
  kernel : KernelMap
  rt : MonitorRuntime
  phase : Phase
  /-- What the kernel has added to a counter. -/
  added : DeviceTrafficKey → ℕ
  /-- The sum of the deltas of a counter. -/
  counted : DeviceTrafficKey → ℕ

inductive Action where
  /-- A packet. -/
  | bump (key : DeviceTrafficKey) (bytes : UInt64)
  /-- A tick begins. -/
  | start (tick : Tick)
  /-- One counter is read. -/
  | read (key : DeviceTrafficKey)
  /-- The deltas are counted; the seconds and the devices so far do not matter here. -/
  | count (topology : TopologySnapshot) (sec : Float) (devices : DevicesGroup)
  /-- The next idle counter is removed. -/
  | prune
  /-- The tick ends, or fails. -/
  | finish
  | removeDevice (ifindex : UInt32) (mac : Mac)

def step (s : System) : Action → System
  | .bump key bytes =>
    let kernel := bumpDeviceCounter s.kernel key bytes
    { s with
      kernel
      added := Function.update s.added key
        (s.added key + (bytesOf kernel key - bytesOf s.kernel key)) }
  | .start tick =>
    let prune := deviceCounterPruneIntervalMs ≤ satSub tick.nowMs s.rt.lastDevicePruneMs
    { s with
      rt := if prune then { s.rt with lastDevicePruneMs := tick.nowMs } else s.rt
      phase := .reading tick prune ∅ }
  | .read key =>
    match s.phase, s.kernel.lookup key with
    | .reading tick prune stats, some value =>
      { s with phase := .reading tick prune (stats.insert key value) }
    | _, _ => s
  | .count topology sec devices =>
    match s.phase with
    | .reading tick prune stats =>
      let counters := counterLoop tick topology s.rt sec prune stats devices
      { s with
        rt := { s.rt with
          prevDeviceBytes := counters.prevDeviceBytes
          deviceLastActiveMs := counters.deviceLastActiveMs }
        phase := .pruning counters.inactive
        counted := fun k => s.counted k +
          deltaSum k (deltas s.rt.prevDeviceBytes (tick.o.order stats.entries)) }
    | _ => s
  | .prune =>
    match s.phase with
    | .pruning (key :: rest) =>
      if key ∈ s.kernel then
        { s with
          kernel := s.kernel.erase key
          rt := { s.rt with
            prevDeviceBytes := s.rt.prevDeviceBytes.erase key
            deviceLastActiveMs := s.rt.deviceLastActiveMs.erase key }
          phase := .pruning rest }
      else { s with phase := .pruning rest }
    | _ => s
  | .finish => { s with phase := .idle }
  | .removeDevice ifindex mac => { s with rt := (s.rt.removeDevice ifindex mac).2 }

/-- Before the first packet and the first tick. -/
def System.start (rt : MonitorRuntime) : System := ⟨∅, rt, .idle, fun _ => 0, fun _ => 0⟩

/-- **The condition on a step**: a counter that is removed still has the value that was counted. -/
def Meets (s : System) : Action → Prop
  | .prune => ∀ key rest, s.phase = .pruning (key :: rest) → key ∈ s.kernel →
      bytesOf s.kernel key = baseOf s.rt.prevDeviceBytes key
  | _ => True

/-! ### The invariant -/

/-- The counter of a key and its baseline. -/
def meter (s : System) (k : DeviceTrafficKey) : Meter :=
  ⟨bytesOf s.kernel k, baseOf s.rt.prevDeviceBytes k, s.added k, s.counted k⟩

/-- Every counter is balanced, and a value that was read is between the baseline and the counter. -/
structure Inv (s : System) : Prop where
  balanced : ∀ k, (meter s k).Balanced
  read : ∀ tick prune stats, s.phase = .reading tick prune stats → ∀ k ∈ stats,
    baseOf s.rt.prevDeviceBytes k ≤ bytesOf stats k ∧ bytesOf stats k ≤ bytesOf s.kernel k

theorem prevDeviceBytes_counterLoop (tick : Tick) (topology : TopologySnapshot) (rt : MonitorRuntime)
    (sec : Float) (prune : Bool) (stats : KernelMap) (devices : DevicesGroup) :
    (counterLoop tick topology rt sec prune stats devices).prevDeviceBytes =
      rebase rt.prevDeviceBytes (tick.o.order stats.entries) := by
  have hstep : ∀ st k v, (counterStep rt.deviceRegistry (wanIfindex topology) tick.nowMs sec prune st k
      v).prevDeviceBytes = st.prevDeviceBytes.insert k v.bytes := by
    intro st k v
    unfold counterStep
    dsimp only
    split_ifs <;> rfl
  have hloop : ∀ (es : List (Σ _ : DeviceTrafficKey, TrafficValue)) (st : CounterLoop),
      (es.foldl (fun st e => counterStep rt.deviceRegistry (wanIfindex topology) tick.nowMs sec prune st
        e.1 e.2) st).prevDeviceBytes = rebase st.prevDeviceBytes es := by
    intro es
    induction es with
    | nil => exact fun _ => rfl
    | cons e rest ih =>
      intro st
      rw [List.foldl_cons, ih, hstep]
      rfl
  exact hloop _ _

theorem inv_start {rt : MonitorRuntime} (h : rt.prevDeviceBytes = ∅) : Inv (.start rt) := by
  refine ⟨fun k => ?_, fun tick prune stats hphase => by cases hphase⟩
  have hmeter : meter (.start rt) k = .zero := by
    unfold meter System.start
    dsimp only
    rw [h]
    rfl
  rw [hmeter]
  exact balanced_zero

section Step
variable {s : System}

/-- A packet raises its own counter. -/
theorem inv_bump (h : Inv s) (key : DeviceTrafficKey) (bytes : UInt64) :
    Inv (step s (.bump key bytes)) := by
  refine ⟨fun k => ?_, fun tick prune stats hphase k hk => ?_⟩
  · by_cases hk : k = key
    · subst hk
      have hle := bytesOf_le_bump s.kernel k bytes k
      have hmeter : meter (step s (.bump k bytes)) k = (meter s k).raise
          (bytesOf (bumpDeviceCounter s.kernel k bytes) k - bytesOf s.kernel k) := by
        unfold meter step Meter.raise
        dsimp only
        rw [Function.update_self, Nat.add_sub_cancel' hle]
      rw [hmeter]
      exact balanced_raise (h.balanced k) _
    · have hmeter : meter (step s (.bump key bytes)) k = meter s k := by
        unfold meter step
        dsimp only
        rw [Function.update_of_ne hk, bytesOf_bump_ne s.kernel bytes hk]
      rw [hmeter]
      exact h.balanced k
  · obtain ⟨hbase, hvalue⟩ := h.read tick prune stats hphase k hk
    exact ⟨hbase, hvalue.trans (bytesOf_le_bump s.kernel key bytes k)⟩

/-- A tick starts with nothing read. -/
theorem inv_startTick (h : Inv s) (tick : Tick) : Inv (step s (.start tick)) := by
  have hprev : (step s (.start tick)).rt.prevDeviceBytes = s.rt.prevDeviceBytes := by
    unfold step
    dsimp only
    split_ifs <;> rfl
  refine ⟨fun k => ?_, fun tick' prune stats hphase k hk => ?_⟩
  · have hmeter : meter (step s (.start tick)) k = meter s k := by
      unfold meter
      rw [hprev]
      rfl
    rw [hmeter]
    exact h.balanced k
  · obtain ⟨-, -, rfl⟩ := Phase.reading.inj hphase
    exact absurd hk (AList.notMem_empty k)

/-- What is read is between the baseline and the counter. -/
theorem inv_read (h : Inv s) (key : DeviceTrafficKey) : Inv (step s (.read key)) := by
  unfold step
  dsimp only
  split
  · next tick prune stats value hphase hvalue =>
    refine ⟨h.balanced, fun tick' prune' stats' hphase' k hk => ?_⟩
    obtain ⟨-, -, rfl⟩ := Phase.reading.inj hphase'
    rw [bytesOf_insert]
    by_cases hself : k = key
    · subst hself
      have hkernel : bytesOf s.kernel k = value.bytes.toNat := by
        unfold bytesOf
        rw [hvalue]
        rfl
      rw [if_pos rfl, ← hkernel]
      exact ⟨(h.balanced k).le, Nat.le_refl _⟩
    · rw [if_neg hself]
      exact h.read tick prune stats hphase k (((AList.mem_insert _).mp hk).resolve_left hself)
  · exact h

/-- Counting is a sample of every counter that was read. -/
theorem inv_count (h : Inv s) (topology : TopologySnapshot) (sec : Float) (devices : DevicesGroup) :
    Inv (step s (.count topology sec devices)) := by
  unfold step
  dsimp only
  split
  · next tick prune stats hphase =>
    refine ⟨fun k => ?_, fun tick' prune' stats' hphase' => by cases hphase'⟩
    have hread := h.read tick prune stats hphase k
    have hdeltas := deltaSum_deltas tick.o stats s.rt.prevDeviceBytes k fun hk => (hread hk).1
    have hbase := baseOf_rebase tick.o stats s.rt.prevDeviceBytes k
    unfold meter
    dsimp only
    rw [prevDeviceBytes_counterLoop, hdeltas, hbase]
    by_cases hk : k ∈ stats
    · rw [if_pos hk, if_pos hk]
      exact balanced_sample (h.balanced k) (hread hk).1 (hread hk).2
    · rw [if_neg hk, if_neg hk]
      exact h.balanced k
  · exact h

/-- A counter that is removed with its baseline had been counted to the end. -/
theorem inv_prune (h : Inv s) (hmeets : Meets s .prune) : Inv (step s .prune) := by
  unfold step
  dsimp only
  split
  · next key rest hphase =>
    split_ifs with hmem
    · refine ⟨fun k => ?_, fun tick prune stats hphase' => by cases hphase'⟩
      have hsame := hmeets key rest hphase hmem
      unfold meter
      dsimp only
      rw [bytesOf_erase, baseOf_erase]
      by_cases hk : k = key
      · subst hk
        rw [if_pos rfl, if_pos rfl]
        exact (balanced_reset_iff (h.balanced k)).mpr hsame
      · rw [if_neg hk, if_neg hk]
        exact h.balanced k
    · exact ⟨h.balanced, fun tick prune stats hphase' => by cases hphase'⟩
  · exact h

/-- **One step keeps the invariant.** -/
theorem inv_step (h : Inv s) {a : Action} (hmeets : Meets s a) : Inv (step s a) := by
  cases a with
  | bump key bytes => exact inv_bump h key bytes
  | start tick => exact inv_startTick h tick
  | read key => exact inv_read h key
  | count topology sec devices => exact inv_count h topology sec devices
  | prune => exact inv_prune h hmeets
  | finish => exact ⟨h.balanced, fun tick prune stats hphase => by cases hphase⟩
  | removeDevice ifindex mac => exact ⟨h.balanced, h.read⟩

end Step

/-- **The bytes of every counter are accounted exactly once**, in every state of a run in which a counter
that is removed still has the value that was counted. -/
theorem device_bytes_once (o : IterOrder) (topology : TopologySnapshot)
    (state : Option MonitorRuntimeState) (cumulativeIface : HashMap UInt32 CounterQuad)
    (cumulativeDevice : HashMap DeviceKey CounterQuad) (acts : List Action)
    (h : Along step Meets (.start (startRuntime o topology state cumulativeIface cumulativeDevice)) acts) :
    ∀ pre, pre <+: acts →
      let s := pre.foldl step (.start (startRuntime o topology state cumulativeIface cumulativeDevice))
      ∀ k, (s.counted k : ℤ) + (bytesOf s.kernel k - baseOf s.rt.prevDeviceBytes k) = s.added k := by
  rintro pre ⟨post, rfl⟩ s k
  have hstart : Inv (.start (startRuntime o topology state cumulativeIface cumulativeDevice)) := by
    refine inv_start ?_
    unfold startRuntime
    cases state <;> rfl
  have hinv : Inv s := (along_append.mp h).1.invariant (fun _ _ hs hmeets => inv_step hs hmeets) hstart
  exact balanced_int (hinv.balanced k)

/-! ### The steps and the tick -/

/-- The idle counters are among those that were read, each once. -/
theorem nodup_inactive (tick : Tick) (topology : TopologySnapshot) (rt : MonitorRuntime) (sec : Float)
    (prune : Bool) (stats : KernelMap) (devices : DevicesGroup) :
    (counterLoop tick topology rt sec prune stats devices).inactive.Nodup := by
  have hstep : ∀ st k v, (counterStep rt.deviceRegistry (wanIfindex topology) tick.nowMs sec prune st k
      v).inactive = st.inactive ∨ (counterStep rt.deviceRegistry (wanIfindex topology) tick.nowMs sec prune
      st k v).inactive = st.inactive ++ [k] := by
    intro st k v
    unfold counterStep
    dsimp only
    split_ifs
    · exact Or.inr rfl
    · exact Or.inl rfl
    all_goals exact Or.inl rfl
  have hloop : ∀ (es : List (Σ _ : DeviceTrafficKey, TrafficValue)) (st : CounterLoop),
      (st.inactive ++ es.map Sigma.fst).Nodup →
      (es.foldl (fun st e => counterStep rt.deviceRegistry (wanIfindex topology) tick.nowMs sec prune st
        e.1 e.2) st).inactive.Nodup := by
    intro es
    induction es with
    | nil =>
      intro st hst
      rw [List.map_nil, List.append_nil] at hst
      exact hst
    | cons e rest ih =>
      intro st hst
      refine ih _ ?_
      rw [List.map_cons] at hst
      rcases hstep st e.1 e.2 with hsame | happend
      · rw [hsame]
        exact hst.sublist ((List.sublist_cons_self _ _).append_left _)
      · rw [happend, List.append_assoc]
        exact hst
  exact hloop _ _ (nodup_order_keys tick.o stats)

/-- The removals, if no packet comes between them. -/
theorem foldl_prune (keys : List DeviceTrafficKey) {s : System} {st : CounterLoop}
    (hphase : s.phase = .pruning keys) (hdistinct : keys.Nodup)
    (hprev : s.rt.prevDeviceBytes = st.prevDeviceBytes)
    (hactive : s.rt.deviceLastActiveMs = st.deviceLastActiveMs) :
    let s' := (List.replicate keys.length Action.prune).foldl step s
    let st' := (keys.filter fun k => k ∈ s.kernel).foldl (fun st k =>
      { st with
        prevDeviceBytes := st.prevDeviceBytes.erase k
        deviceLastActiveMs := st.deviceLastActiveMs.erase k }) st
    s'.rt.prevDeviceBytes = st'.prevDeviceBytes ∧ s'.rt.deviceLastActiveMs = st'.deviceLastActiveMs := by
  induction keys generalizing s st with
  | nil => exact ⟨hprev, hactive⟩
  | cons k rest ih =>
    rw [List.nodup_cons] at hdistinct
    have hstep : step s .prune = if k ∈ s.kernel then
        { s with
          kernel := s.kernel.erase k
          rt := { s.rt with
            prevDeviceBytes := s.rt.prevDeviceBytes.erase k
            deviceLastActiveMs := s.rt.deviceLastActiveMs.erase k }
          phase := .pruning rest }
        else { s with phase := .pruning rest } := by
      unfold step
      dsimp only
      rw [hphase]
    rw [List.length_cons, List.replicate_succ, List.foldl_cons, hstep]
    by_cases hmem : k ∈ s.kernel
    · rw [if_pos hmem, List.filter_cons, if_pos (decide_eq_true hmem), List.foldl_cons]
      have hfilter : (rest.filter fun k' => k' ∈ s.kernel.erase k) =
          rest.filter fun k' => k' ∈ s.kernel := by
        refine List.filter_congr fun k' hk' => decide_eq_decide.mpr ?_
        have hne : k' ≠ k := fun heq => hdistinct.1 (heq ▸ hk')
        rw [AList.mem_erase, and_iff_right hne]
      rw [← hfilter]
      exact ih rfl hdistinct.2 (by rw [hprev]) (by rw [hactive])
    · rw [if_neg hmem, List.filter_cons, if_neg fun h => hmem (of_decide_eq_true h)]
      exact ih rfl hdistinct.2 hprev hactive

/-- **The steps of a tick** do what `collect_snapshot` does, if no packet comes between them. -/
theorem count_and_prune {s : System} {tick : Tick} {prune : Bool} {stats : KernelMap}
    (hphase : s.phase = .reading tick prune stats) (topology : TopologySnapshot) (sec : Float)
    (devices : DevicesGroup) :
    let counters := counterLoop tick topology s.rt sec prune stats devices
    let s' := (.count topology sec devices :: List.replicate counters.inactive.length .prune).foldl step s
    let pruned := pruneCounters (fun k => k ∈ s.kernel) counters
    s'.rt.prevDeviceBytes = pruned.prevDeviceBytes ∧
      s'.rt.deviceLastActiveMs = pruned.deviceLastActiveMs := by
  intro counters s' pruned
  have hcount : step s (.count topology sec devices) = { s with
      rt := { s.rt with
        prevDeviceBytes := counters.prevDeviceBytes
        deviceLastActiveMs := counters.deviceLastActiveMs }
      phase := .pruning counters.inactive
      counted := fun k => s.counted k +
        deltaSum k (deltas s.rt.prevDeviceBytes (tick.o.order stats.entries)) } := by
    unfold step
    dsimp only
    rw [hphase]
  have hprunes := foldl_prune counters.inactive (s := step s (.count topology sec devices)) (by rw [hcount])
    (nodup_inactive tick topology s.rt sec prune stats devices)
    (show _ = counters.prevDeviceBytes by rw [hcount])
    (show _ = counters.deviceLastActiveMs by rw [hcount])
  have hkernel : (step s (.count topology sec devices)).kernel = s.kernel := by rw [hcount]
  rw [hkernel] at hprunes
  exact hprunes

/-! ### An idle counter -/

def idleKey : DeviceTrafficKey := ⟨3, #v[0x02, 0, 0, 0, 0, 0x0a], 4, 1⟩

def idleTick (nowMs : UInt64) : Tick where
  nowMs
  ifaceEntries := some []
  deviceEntries := some []
  insertFailuresRead := true
  ecmEntries := none
  arp := none
  ipNeigh := none
  hostnames := ∅
  deviceRemoved := fun _ => true
  ecmRecheck := fun _ => none
  ecmRemoved := fun _ => false
  o := .listed

/-- One packet, a tick, and a day later another tick that finds the counter idle. -/
def idleRun : List Action :=
  [.bump idleKey 100, .start (idleTick 1000000), .read idleKey, .count (.ofInterfaces []) 1.0 ∅, .finish,
    .start (idleTick 87400000), .read idleKey, .count (.ofInterfaces []) 1.0 ∅]

def idleStart : System := .start (startRuntime .listed (.ofInterfaces []) none ∅ ∅)

theorem device_bytes_once_sample :
    let s := (idleRun ++ [Action.prune]).foldl step idleStart
    (s.counted idleKey : ℤ) + (bytesOf s.kernel idleKey - baseOf s.rt.prevDeviceBytes idleKey) =
      s.added idleKey := by
  refine device_bytes_once .listed (.ofInterfaces []) none ∅ ∅ (idleRun ++ [Action.prune]) ?_ _
    (List.prefix_refl _) idleKey
  refine ⟨trivial, trivial, trivial, trivial, trivial, trivial, trivial, trivial, ?_, trivial⟩
  intro key rest hphase _
  have hkeys : Phase.pruning [idleKey] = .pruning (key :: rest) := hphase
  obtain ⟨rfl, -⟩ := List.cons.inj (Phase.pruning.inj hkeys)
  decide

/-- **A packet between the reading of an idle counter and its removal is lost.** -/
theorem packet_lost :
    let s := (idleRun ++ [Action.bump idleKey 50, .prune]).foldl step idleStart
    s.added idleKey = 150 ∧ s.counted idleKey = 100 ∧ bytesOf s.kernel idleKey = 0 ∧
      baseOf s.rt.prevDeviceBytes idleKey = 0 := by
  decide

end BandixPlus.Monitor.DeviceCounters
