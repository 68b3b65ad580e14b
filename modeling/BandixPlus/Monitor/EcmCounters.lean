import BandixPlus.Lib.Run
import BandixPlus.Monitor.Baseline
import BandixPlus.Monitor.Session

/-! # The hardware counters and the kernel

The kernel raises the counters of the addresses, a value of each CPU, while the collector reads them one
after the other, counts the deltas of a complete reading, and removes the counters that were idle for a
minute. A removal looks at the counter once more and is one step.

* `inv_step`: what was counted for an address is what the kernel had added when it was last read.
* `ecm_accounted_once`: so it is in every run, failed readings keep the baselines, and the seconds of a
  reading are those since the last good one.
* `ecm_not_accounted`: the first reading sets a time also if it fails, and a counter that overflows loses
  its bytes. -/

namespace BandixPlus.Monitor.EcmCounters

open BandixPlus.Common BandixPlus.Lib.Maps BandixPlus.Lib.Run BandixPlus.Lib.Sampling
open BandixPlus.Lib.Saturating BandixPlus.Monitor.Counters BandixPlus.Monitor.Snapshot
open BandixPlus.Monitor.Topology BandixPlus.Monitor.Runtime BandixPlus.Monitor.Interfaces
open BandixPlus.Monitor.Devices BandixPlus.Monitor.Ecm BandixPlus.Monitor.Session
open BandixPlus.Monitor.Baseline

/-! ### The kernel's map -/

/-- `ECM_TRAFFIC_STATS`: a value of each CPU. -/
abbrev EcmMap := HashMap EcmTrafficKey (List TrafficValue)

def ecmMaxEntries : ℕ := 16384

/-- `+=` on both numbers. -/
def TrafficValue.add (packets bytes : UInt64) (v : TrafficValue) : TrafficValue :=
  ⟨v.packets + packets, v.bytes + bytes⟩

/-- The hook of the kernel on one of `cpus` CPUs. -/
def bumpEcmCounter (cpus : ℕ) (map : EcmMap) (key : EcmTrafficKey) (cpu : ℕ) (packets bytes : UInt64) :
    EcmMap :=
  match map.lookup key with
  | some values => map.insert key (values.modify cpu (TrafficValue.add packets bytes))
  | none =>
    if len map < ecmMaxEntries then
      map.insert key ((List.replicate cpus ⟨0, 0⟩).modify cpu (TrafficValue.add packets bytes))
    else map

/-- The bytes of all CPUs. -/
def cpuBytes (values : List TrafficValue) : ℕ := (values.map fun v => v.bytes.toNat).sum

def valueOf (map : EcmMap) (k : EcmTrafficKey) : ℕ := ((map.lookup k).map cpuBytes).getD 0

theorem toNat_sumCpus {values : List TrafficValue} (h : cpuBytes values < 2 ^ 64) :
    (sumCpus values).bytes.toNat = cpuBytes values := by
  have hsum : ∀ (values : List TrafficValue) (acc : TrafficValue),
      acc.bytes.toNat + cpuBytes values < 2 ^ 64 →
      (values.foldl (fun sum v => { packets := satAdd sum.packets v.packets
                                    bytes := satAdd sum.bytes v.bytes : TrafficValue }) acc).bytes.toNat =
        acc.bytes.toNat + cpuBytes values := by
    intro values
    induction values with
    | nil => exact fun _ _ => rfl
    | cons v rest ih =>
      intro acc hacc
      have hcons : cpuBytes (v :: rest) = v.bytes.toNat + cpuBytes rest := List.sum_cons
      have hadd : (satAdd acc.bytes v.bytes).toNat = acc.bytes.toNat + v.bytes.toNat := by
        rw [toNat_satAdd]
        omega
      rw [List.foldl_cons, ih _ (by dsimp only; omega)]
      dsimp only
      omega
  have hzero := hsum values ⟨0, 0⟩ (by simpa using h)
  unfold sumCpus
  rw [hzero]
  exact Nat.zero_add _

/-- Without overflow the bytes are added. -/
theorem cpuBytes_modify {values : List TrafficValue} {cpu : ℕ} (hcpu : cpu < values.length)
    {bytes : UInt64} (hfits : cpuBytes values + bytes.toNat < 2 ^ 64) (packets : UInt64) :
    cpuBytes (values.modify cpu (TrafficValue.add packets bytes)) = cpuBytes values + bytes.toNat := by
  induction values generalizing cpu with
  | nil => exact absurd hcpu (Nat.not_lt_zero cpu)
  | cons v rest ih =>
    have hcons : ∀ w, cpuBytes (w :: rest) = w.bytes.toNat + cpuBytes rest := fun _ => List.sum_cons
    rw [hcons] at hfits ⊢
    cases cpu with
    | zero =>
      have hadd : (v.bytes + bytes).toNat = v.bytes.toNat + bytes.toNat := by
        rw [UInt64.toNat_add]
        omega
      rw [List.modify_zero_cons, hcons]
      show (v.bytes + bytes).toNat + _ = _
      omega
    | succ cpu =>
      have hrest := ih (Nat.lt_of_succ_lt_succ hcpu) (by omega)
      have hcons' : ∀ l, cpuBytes (v :: l) = v.bytes.toNat + cpuBytes l := fun _ => List.sum_cons
      rw [List.modify_succ_cons, hcons', hrest]
      omega

theorem valueOf_insert (map : EcmMap) (key : EcmTrafficKey) (values : List TrafficValue)
    (k : EcmTrafficKey) :
    valueOf (map.insert key values) k = if k = key then cpuBytes values else valueOf map k := by
  unfold valueOf
  rw [lookup_insert_eq]
  split_ifs <;> rfl

theorem valueOf_erase (map : EcmMap) (key k : EcmTrafficKey) :
    valueOf (map.erase key) k = if k = key then 0 else valueOf map k := by
  unfold valueOf
  rw [lookup_erase_eq]
  split_ifs <;> rfl

theorem valueOf_of_lookup {map : EcmMap} {k : EcmTrafficKey} {values : List TrafficValue}
    (h : map.lookup k = some values) : valueOf map k = cpuBytes values := by
  unfold valueOf
  rw [h]
  rfl

/-! ### The system -/

/-- Where the collector is. -/
inductive Phase where
  | idle
  /-- It reads the counters: what is still to be read, what was read, and what the kernel had added. -/
  | reading (tick : Tick) (pending : List EcmTrafficKey) (stats : HashMap EcmTrafficKey TrafficValue)
      (marks : EcmTrafficKey → ℕ)
  /-- The reading is complete, and spans some seconds. -/
  | complete (tick : Tick) (ecmSec : Float) (stats : HashMap EcmTrafficKey TrafficValue)
      (marks : EcmTrafficKey → ℕ)
  /-- It removes idle counters. -/
  | pruning (tick : Tick) (stats : HashMap EcmTrafficKey TrafficValue) (keys : List EcmTrafficKey)

structure System where
  kernel : EcmMap
  rt : MonitorRuntime
  phase : Phase
  /-- What the kernel has added to a counter. -/
  added : EcmTrafficKey → ℕ
  /-- The sum of the deltas of a counter. -/
  counted : EcmTrafficKey → ℕ
  /-- What the kernel had added when the counter was last read by a complete reading. -/
  seen : EcmTrafficKey → ℕ
  /-- The time of the last tick, and of the last complete reading. -/
  clock : Option UInt64
  lastGood : Option UInt64

inductive Action where
  | bump (key : EcmTrafficKey) (cpu : ℕ) (packets bytes : UInt64)
  /-- A tick begins to read. -/
  | start (tick : Tick)
  /-- One counter is read. -/
  | read (key : EcmTrafficKey)
  /-- The reading is complete, or it has failed. -/
  | readOk (fallbackSecs : Float)
  | readFailed (fallbackSecs : Float)
  /-- The deltas are counted; where they go does not matter here. -/
  | count (whose : EcmTrafficKey → Attribution) (devices : DevicesGroup)
  /-- The next idle counter is looked at once more, and removed if the kernel lets it. -/
  | prune (removed : Bool)
  /-- The tick ends. -/
  | finish

/-- What a removal finds. -/
def pruneTick (tick : Tick) (kernel : EcmMap) (removed : Bool) : Tick :=
  { tick with ecmRecheck := kernel.lookup, ecmRemoved := fun _ => removed }

def step (cpus : ℕ) (s : System) : Action → System
  | .bump key cpu packets bytes =>
    let kernel := bumpEcmCounter cpus s.kernel key cpu packets bytes
    if key ∈ kernel then
      { s with kernel, added := Function.update s.added key (s.added key + bytes.toNat) }
    else s
  | .start tick =>
    match s.phase with
    | .idle => { s with phase := .reading tick s.kernel.keys ∅ s.seen, clock := some tick.nowMs }
    | _ => s
  | .read key =>
    match s.phase, s.kernel.lookup key with
    | .reading tick pending stats marks, some values =>
      { s with phase := .reading tick (pending.erase key) (stats.insert key (sumCpus values))
                (Function.update marks key (s.added key)) }
    | _, _ => s
  | .readOk fallbackSecs =>
    match s.phase with
    | .reading tick _ stats marks =>
      let (ecmSec, rt) := s.rt.ecmIntervalSeconds tick.nowMs fallbackSecs true
      { s with rt, phase := .complete tick ecmSec stats marks, lastGood := some tick.nowMs }
    | _ => s
  | .readFailed fallbackSecs =>
    match s.phase with
    | .reading tick _ _ _ =>
      { s with rt := (s.rt.ecmIntervalSeconds tick.nowMs fallbackSecs false).2, phase := .idle }
    | _ => s
  | .count whose devices =>
    match s.phase with
    | .complete tick ecmSec stats marks =>
      let loop := ecmLoop tick.o s.rt.deviceRegistry whose tick.nowMs ecmSec
        ⟨s.rt.prevEcmBytes, s.rt.ecmLastActiveMs⟩ devices stats
      { s with
        rt := { s.rt with
          prevEcmBytes := loop.base.prevEcmBytes
          ecmLastActiveMs := loop.base.ecmLastActiveMs }
        phase := .pruning tick stats loop.keysToPrune
        counted := fun k => s.counted k +
          deltaSum k (deltas s.rt.prevEcmBytes (tick.o.order stats.entries))
        seen := marks }
    | _ => s
  | .prune removed =>
    match s.phase with
    | .pruning tick stats (key :: rest) =>
      let pruned := pruneStep (pruneTick tick s.kernel removed)
        (⟨s.rt.prevEcmBytes, s.rt.ecmLastActiveMs⟩, stats) key
      { s with
        -- the kernel removed the counter if its baseline is gone
        kernel := if key ∈ s.rt.prevEcmBytes ∧ key ∉ pruned.1.prevEcmBytes then s.kernel.erase key
          else s.kernel
        rt := { s.rt with
          prevEcmBytes := pruned.1.prevEcmBytes
          ecmLastActiveMs := pruned.1.ecmLastActiveMs }
        phase := .pruning tick pruned.2 rest }
    | _ => s
  | .finish =>
    match s.phase with
    | .pruning _ stats _ =>
      { s with
        rt := { s.rt with
          prevEcmBytes := retain (fun key _ => key ∈ stats) s.rt.prevEcmBytes
          ecmLastActiveMs := retain (fun key _ => key ∈ stats) s.rt.ecmLastActiveMs }
        phase := .idle }
    | _ => s

/-- Before the first flow and the first tick. -/
def System.start (rt : MonitorRuntime) : System :=
  ⟨∅, rt, .idle, fun _ => 0, fun _ => 0, fun _ => 0, none, none⟩

/-- The clock increases, a complete reading has read every counter that was there when it began, and a flow
is on one of the CPUs. -/
def Legal (cpus : ℕ) (s : System) : Action → Prop
  | .bump _ cpu _ _ => cpu < cpus
  | .start tick => ∀ t, s.clock = some t → t < tick.nowMs
  | .readOk _ => ∀ tick pending stats marks, s.phase = .reading tick pending stats marks → pending = []
  | _ => True

/-- The counter does not overflow. -/
def Fits (s : System) : Action → Prop
  | .bump key _ _ bytes => valueOf s.kernel key + bytes.toNat < 2 ^ 64
  | _ => True

/-! ### The invariant -/

/-- The counter of an address and its baseline. -/
def meter (s : System) (k : EcmTrafficKey) : Meter :=
  ⟨valueOf s.kernel k, baseOf s.rt.prevEcmBytes k, s.added k, s.counted k⟩

/-- **What a reading has found**: a value between the baseline and the counter, and what the kernel had
added then. -/
structure Found (s : System) (stats : HashMap EcmTrafficKey TrafficValue) (marks : EcmTrafficKey → ℕ) :
    Prop where
  base : ∀ k ∈ stats, baseOf s.rt.prevEcmBytes k ≤ bytesOf stats k
  value : ∀ k ∈ stats, bytesOf stats k ≤ valueOf s.kernel k
  mark : ∀ k ∈ stats, s.counted k + bytesOf stats k = marks k + baseOf s.rt.prevEcmBytes k
  other : ∀ k, k ∉ stats → marks k = s.seen k
  known : ∀ k ∈ stats, k ∈ s.kernel

/-- What is known in each phase: no baseline is left behind by a complete reading. -/
def InPhase (s : System) : Phase → Prop
  | .idle => True
  | .reading _ pending stats marks =>
    Found s stats marks ∧ ∀ k ∈ s.rt.prevEcmBytes, k ∈ stats ∨ k ∈ pending
  | .complete _ _ stats marks => Found s stats marks ∧ ∀ k ∈ s.rt.prevEcmBytes, k ∈ stats
  | .pruning _ stats _ => ∀ k ∈ s.rt.prevEcmBytes, k ∈ stats

structure Inv (cpus : ℕ) (s : System) : Prop where
  width : ∀ k values, s.kernel.lookup k = some values → values.length = cpus
  fits : ∀ k, valueOf s.kernel k < 2 ^ 64
  balanced : ∀ k, (meter s k).Balanced
  seen : ∀ k, s.counted k = s.seen k
  based : ∀ k ∈ s.rt.prevEcmBytes, k ∈ s.kernel
  phase : InPhase s s.phase

section Steps
variable {cpus : ℕ} {s : System}

theorem cpuBytes_replicate (cpus : ℕ) : cpuBytes (List.replicate cpus ⟨0, 0⟩) = 0 := by
  unfold cpuBytes
  rw [List.map_replicate, List.sum_replicate]
  exact Nat.mul_zero cpus

/-- **What a flow does to the counters**, if its own has room and does not overflow. -/
theorem bump_spec {map : EcmMap} (hwidth : ∀ k values, map.lookup k = some values → values.length = cpus)
    {key : EcmTrafficKey} {cpu : ℕ} (hcpu : cpu < cpus) {bytes : UInt64}
    (hfits : valueOf map key + bytes.toNat < 2 ^ 64) (packets : UInt64)
    (hmem : key ∈ bumpEcmCounter cpus map key cpu packets bytes) :
    ∃ values, bumpEcmCounter cpus map key cpu packets bytes = map.insert key values ∧
      values.length = cpus ∧ cpuBytes values = valueOf map key + bytes.toNat := by
  unfold bumpEcmCounter at hmem ⊢
  cases hvalues : map.lookup key with
  | some values =>
    rw [valueOf_of_lookup hvalues] at hfits ⊢
    have hlength := hwidth key values hvalues
    refine ⟨_, rfl, ?_, cpuBytes_modify (by omega) hfits packets⟩
    rw [List.length_modify, hlength]
  | none =>
    have hzero : valueOf map key = 0 := by
      unfold valueOf
      rw [hvalues]
      rfl
    rw [hvalues] at hmem
    dsimp only at hmem ⊢
    split_ifs at hmem ⊢ with hroom
    · refine ⟨_, rfl, ?_, ?_⟩
      · rw [List.length_modify, List.length_replicate]
      · have hbytes := cpuBytes_replicate cpus
        rw [cpuBytes_modify (by rw [List.length_replicate]; exact hcpu) (by omega), hzero, hbytes]
    · exact absurd hmem (AList.lookup_eq_none.mp hvalues)

theorem prevEcmBytes_ecmLoop (o : IterOrder) (registry : HashMap DeviceKey KnownDevice)
    (whose : EcmTrafficKey → Attribution) (nowMs : UInt64) (sec : Float) (base : EcmBase)
    (devices : DevicesGroup) (stats : HashMap EcmTrafficKey TrafficValue) :
    (ecmLoop o registry whose nowMs sec base devices stats).base.prevEcmBytes =
      rebase base.prevEcmBytes (o.order stats.entries) := by
  have hloop : ∀ (es : List (Σ _ : EcmTrafficKey, TrafficValue)) (st : EcmLoop),
      (es.foldl (fun st e => ecmStep registry whose nowMs sec st e.1 e.2) st).base.prevEcmBytes =
        rebase st.base.prevEcmBytes es := by
    intro es
    induction es with
    | nil => exact fun _ => rfl
    | cons e rest ih =>
      intro st
      rw [List.foldl_cons, ih, base_ecmStep]
      rfl
  exact hloop _ _

theorem inv_start {rt : MonitorRuntime} (h : rt.prevEcmBytes = ∅) : Inv cpus (.start rt) where
  width := fun k values hk => by
    rw [show (System.start rt).kernel = ∅ from rfl, AList.lookup_empty] at hk
    cases hk
  fits := fun k => Nat.two_pow_pos 64
  balanced := fun k => by
    have hmeter : meter (.start rt) k = .zero := by
      unfold meter System.start
      dsimp only
      rw [h]
      rfl
    rw [hmeter]
    exact balanced_zero
  seen := fun _ => rfl
  based := fun k hk => by
    rw [show (System.start rt).rt.prevEcmBytes = ∅ from h] at hk
    exact absurd hk (AList.notMem_empty k)
  phase := trivial

theorem inv_bump (h : Inv cpus s) {key : EcmTrafficKey} {cpu : ℕ} (hcpu : cpu < cpus) {bytes : UInt64}
    (hfits : valueOf s.kernel key + bytes.toNat < 2 ^ 64) (packets : UInt64) :
    Inv cpus (step cpus s (.bump key cpu packets bytes)) := by
  unfold step
  dsimp only
  split_ifs with hmem
  · obtain ⟨values, hbump, hlength, hbytes⟩ := bump_spec h.width hcpu hfits packets hmem
    rw [hbump]
    have hvalue : ∀ k, valueOf (s.kernel.insert key values) k =
        valueOf s.kernel k + if k = key then bytes.toNat else 0 := by
      intro k
      rw [valueOf_insert]
      split_ifs with hk
      · rw [hk, hbytes]
      · rfl
    have hgrows : ∀ k ∈ s.kernel, k ∈ s.kernel.insert key values := fun k hk =>
      (AList.mem_insert _).mpr (Or.inr hk)
    have hfound : ∀ {stats marks}, Found s stats marks → Found { s with
        kernel := s.kernel.insert key values
        added := Function.update s.added key (s.added key + bytes.toNat) } stats marks := fun hf =>
      ⟨hf.base, fun k hk => (hf.value k hk).trans (by rw [hvalue]; exact Nat.le_add_right _ _), hf.mark,
        hf.other, fun k hk => hgrows k (hf.known k hk)⟩
    refine ⟨fun k values' hk => ?_, fun k => ?_, fun k => ?_, h.seen, fun k hk => hgrows k (h.based k hk),
      ?_⟩
    · rw [lookup_insert_eq] at hk
      split_ifs at hk with hself
      · rw [← Option.some.inj hk]
        exact hlength
      · exact h.width k values' hk
    · have hk := h.fits k
      rw [hvalue]
      split_ifs with hself
      · rw [hself]
        exact hfits
      · exact hk
    · have hbalanced := balanced_raise (h.balanced k) (if k = key then bytes.toNat else 0)
      unfold Meter.raise meter at hbalanced
      unfold meter
      dsimp only at hbalanced ⊢
      rw [hvalue, Function.update_apply]
      split_ifs at hbalanced ⊢ with hself
      · rw [← hself]
        exact hbalanced
      · exact hbalanced
    · have hphase : ∀ p, InPhase s p → InPhase { s with
          kernel := s.kernel.insert key values
          added := Function.update s.added key (s.added key + bytes.toNat) } p := by
        intro p hp
        cases p with
        | idle => trivial
        | reading tick pending stats marks => exact ⟨hfound hp.1, hp.2⟩
        | complete tick ecmSec stats marks => exact ⟨hfound hp.1, hp.2⟩
        | pruning tick stats keys => exact hp
      exact hphase s.phase h.phase
  · exact h

theorem inv_read (h : Inv cpus s) (key : EcmTrafficKey) : Inv cpus (step cpus s (.read key)) := by
  unfold step
  dsimp only
  split
  · next tick pending stats marks values hp hvalues =>
    have hphase := h.phase
    rw [hp] at hphase
    obtain ⟨hf, hpending⟩ := hphase
    have hvalue := valueOf_of_lookup hvalues
    have hsum : (sumCpus values).bytes.toNat = valueOf s.kernel key := by
      rw [hvalue]
      exact toNat_sumCpus (hvalue ▸ h.fits key)
    have hbytes : ∀ k, bytesOf (stats.insert key (sumCpus values)) k =
        if k = key then valueOf s.kernel key else bytesOf stats k := by
      intro k
      unfold bytesOf
      rw [lookup_insert_eq]
      split_ifs
      · exact hsum
      · rfl
    have hmem : ∀ {k}, k ∈ stats.insert key (sumCpus values) → k ≠ key → k ∈ stats := fun hk hne =>
      ((AList.mem_insert _).mp hk).resolve_left hne
    refine ⟨h.width, h.fits, h.balanced, h.seen, h.based, ⟨fun k hk => ?_, fun k hk => ?_, fun k hk => ?_,
      fun k hk => ?_, fun k hk => ?_⟩, fun k hk => ?_⟩
    · rw [hbytes]
      split_ifs with hself
      · rw [hself]
        exact (h.balanced key).le
      · exact hf.base k (hmem hk hself)
    · rw [hbytes]
      split_ifs with hself
      · rw [hself]
      · exact hf.value k (hmem hk hself)
    · rw [hbytes, Function.update_apply]
      split_ifs with hself
      · rw [hself]
        exact (h.balanced key).total
      · exact hf.mark k (hmem hk hself)
    · rw [AList.mem_insert, not_or] at hk
      rw [Function.update_of_ne hk.1]
      exact hf.other k hk.2
    · by_cases hself : k = key
      · rw [hself]
        exact mem_iff_lookup.mpr ⟨values, hvalues⟩
      · exact hf.known k (hmem hk hself)
    · by_cases hself : k = key
      · exact Or.inl ((AList.mem_insert _).mpr (Or.inl hself))
      · exact (hpending k hk).imp (fun hmem => (AList.mem_insert _).mpr (Or.inr hmem)) fun hmem =>
          (List.mem_erase_of_ne hself).mpr hmem
  · exact h

theorem inv_count (h : Inv cpus s) (whose : EcmTrafficKey → Attribution) (devices : DevicesGroup) :
    Inv cpus (step cpus s (.count whose devices)) := by
  unfold step
  dsimp only
  split
  · next tick ecmSec stats marks hp =>
    have hphase := h.phase
    rw [hp] at hphase
    obtain ⟨hf, hleft⟩ := hphase
    have hdeltas : ∀ k, deltaSum k (deltas s.rt.prevEcmBytes (tick.o.order stats.entries)) =
        if k ∈ stats then bytesOf stats k - baseOf s.rt.prevEcmBytes k else 0 := fun k =>
      deltaSum_deltas tick.o stats s.rt.prevEcmBytes k (hf.base k)
    have hprev := prevEcmBytes_ecmLoop tick.o s.rt.deviceRegistry whose tick.nowMs ecmSec
      ⟨s.rt.prevEcmBytes, s.rt.ecmLastActiveMs⟩ devices stats
    have hkeys : ∀ k ∈ rebase s.rt.prevEcmBytes (tick.o.order stats.entries), k ∈ stats := by
      intro k hk
      by_contra hnot
      obtain ⟨v, hv⟩ := mem_iff_lookup.mp hk
      rw [lookup_rebase, AList.lookup_eq_none.mpr hnot] at hv
      exact hnot (hleft k (mem_iff_lookup.mpr ⟨v, hv⟩))
    refine ⟨h.width, h.fits, fun k => ?_, fun k => ?_, fun k hk => ?_, fun k hk => ?_⟩
    · unfold meter
      dsimp only
      rw [hprev, hdeltas, baseOf_rebase]
      by_cases hk : k ∈ stats
      · rw [if_pos hk, if_pos hk]
        exact balanced_sample (h.balanced k) (hf.base k hk) (hf.value k hk)
      · rw [if_neg hk, if_neg hk]
        exact h.balanced k
    · dsimp only
      rw [hdeltas]
      split_ifs with hk
      · have hbase := hf.base k hk
        have hmark := hf.mark k hk
        omega
      · rw [hf.other k hk, h.seen, Nat.add_zero]
    · dsimp only at hk ⊢
      rw [hprev] at hk
      exact hf.known k (hkeys k hk)
    · dsimp only at hk ⊢
      rw [hprev] at hk
      exact hkeys k hk
  · exact h

theorem inv_startTick (h : Inv cpus s) (tick : Tick) : Inv cpus (step cpus s (.start tick)) := by
  unfold step
  dsimp only
  split
  · refine ⟨h.width, h.fits, h.balanced, h.seen, h.based, ⟨?_, fun k hk => ?_⟩⟩
    · exact ⟨fun k hk => absurd hk (AList.notMem_empty k), fun k hk => absurd hk (AList.notMem_empty k),
        fun k hk => absurd hk (AList.notMem_empty k), fun _ _ => rfl,
        fun k hk => absurd hk (AList.notMem_empty k)⟩
    · exact Or.inr (AList.mem_keys.mp (h.based k hk))
  · exact h

theorem inv_readOk (h : Inv cpus s) {fallbackSecs : Float} (hlegal : Legal cpus s (.readOk fallbackSecs)) :
    Inv cpus (step cpus s (.readOk fallbackSecs)) := by
  unfold step
  dsimp only
  split
  · next tick pending stats marks hp =>
    have hphase := h.phase
    rw [hp] at hphase
    obtain ⟨hf, hpending⟩ := hphase
    obtain rfl := hlegal tick pending stats marks hp
    refine ⟨h.width, h.fits, h.balanced, h.seen, h.based, ?_, fun k hk => ?_⟩
    · exact ⟨hf.base, hf.value, hf.mark, hf.other, hf.known⟩
    · exact (hpending k hk).resolve_right List.not_mem_nil
  · exact h

theorem inv_readFailed (h : Inv cpus s) (fallbackSecs : Float) :
    Inv cpus (step cpus s (.readFailed fallbackSecs)) := by
  unfold step
  dsimp only
  split
  · exact ⟨h.width, h.fits, h.balanced, h.seen, h.based, trivial⟩
  · exact h

/-- A look at an idle counter changes nothing, or removes what is counted. -/
theorem pruneStep_cases (tick : Tick) (kernel : EcmMap) (removed : Bool) (base : EcmBase)
    (stats : HashMap EcmTrafficKey TrafficValue) (key : EcmTrafficKey) :
    pruneStep (pruneTick tick kernel removed) (base, stats) key = (base, stats) ∨
    ∃ values, kernel.lookup key = some values ∧
      base.prevEcmBytes.lookup key = some (sumCpus values).bytes ∧
      pruneStep (pruneTick tick kernel removed) (base, stats) key =
        ({ prevEcmBytes := base.prevEcmBytes.erase key
           ecmLastActiveMs := base.ecmLastActiveMs.erase key }, stats.erase key) := by
  have hrecheck : (pruneTick tick kernel removed).ecmRecheck key = kernel.lookup key := rfl
  unfold pruneStep
  dsimp only
  rw [hrecheck]
  cases hvalues : kernel.lookup key with
  | none => exact Or.inl rfl
  | some values =>
    dsimp only
    split_ifs with hsame hremoved
    · exact Or.inl rfl
    · exact Or.inr ⟨values, rfl, not_not.mp hsame, rfl⟩
    · exact Or.inl rfl

theorem inv_prune (h : Inv cpus s) (removed : Bool) : Inv cpus (step cpus s (.prune removed)) := by
  unfold step
  dsimp only
  split
  · next tick stats key rest hp =>
    have hleft : ∀ k ∈ s.rt.prevEcmBytes, k ∈ stats := by
      have hphase := h.phase
      rw [hp] at hphase
      exact hphase
    rcases pruneStep_cases tick s.kernel removed ⟨s.rt.prevEcmBytes, s.rt.ecmLastActiveMs⟩ stats key with
      hsame | ⟨values, hvalues, hbase, herased⟩
    · rw [hsame, if_neg fun hc => hc.2 hc.1]
      exact ⟨h.width, h.fits, h.balanced, h.seen, h.based, hleft⟩
    · have hmem : key ∈ s.rt.prevEcmBytes := mem_iff_lookup.mpr ⟨_, hbase⟩
      have hgone : key ∉ s.rt.prevEcmBytes.erase key := fun hk => (AList.mem_erase.mp hk).1 rfl
      have hreset : valueOf s.kernel key = baseOf s.rt.prevEcmBytes key := by
        have hvalue := valueOf_of_lookup hvalues
        have hsum := toNat_sumCpus (hvalue ▸ h.fits key)
        unfold baseOf
        rw [hvalue, hbase]
        exact hsum.symm
      rw [herased, if_pos ⟨hmem, hgone⟩]
      refine ⟨fun k values hk => ?_, fun k => ?_, fun k => ?_, h.seen, fun k hk => ?_, fun k hk => ?_⟩
      · rw [lookup_erase_eq] at hk
        split_ifs at hk
        exact h.width k values hk
      · have hfits := h.fits k
        rw [valueOf_erase]
        split_ifs
        · exact Nat.two_pow_pos 64
        · exact hfits
      · unfold meter
        dsimp only
        rw [valueOf_erase]
        have hbaseOf : baseOf (s.rt.prevEcmBytes.erase key) k =
            if k = key then 0 else baseOf s.rt.prevEcmBytes k := by
          unfold baseOf
          rw [lookup_erase_eq]
          split_ifs <;> rfl
        rw [hbaseOf]
        by_cases hk : k = key
        · subst hk
          rw [if_pos rfl, if_pos rfl]
          exact (balanced_reset_iff (h.balanced k)).mpr hreset
        · rw [if_neg hk, if_neg hk]
          exact h.balanced k
      · obtain ⟨hne, hk⟩ := AList.mem_erase.mp hk
        exact AList.mem_erase.mpr ⟨hne, h.based k hk⟩
      · obtain ⟨hne, hk⟩ := AList.mem_erase.mp hk
        exact AList.mem_erase.mpr ⟨hne, hleft k hk⟩
  · exact h

theorem inv_finish (h : Inv cpus s) : Inv cpus (step cpus s .finish) := by
  unfold step
  dsimp only
  split
  · next tick stats keys hp =>
    have hleft : ∀ k ∈ s.rt.prevEcmBytes, k ∈ stats := by
      have hphase := h.phase
      rw [hp] at hphase
      exact hphase
    -- no baseline goes
    have hlookup : ∀ k, (retain (fun key _ => key ∈ stats) s.rt.prevEcmBytes).lookup k =
        s.rt.prevEcmBytes.lookup k := by
      intro k
      rw [lookup_retain]
      cases hk : s.rt.prevEcmBytes.lookup k with
      | none => rfl
      | some v =>
        exact Option.filter_eq_some_iff.mpr
          ⟨rfl, decide_eq_true (hleft k (mem_iff_lookup.mpr ⟨v, hk⟩))⟩
    refine ⟨h.width, h.fits, fun k => ?_, h.seen, fun k hk => ?_, trivial⟩
    · unfold meter baseOf
      dsimp only
      rw [hlookup]
      exact h.balanced k
    · obtain ⟨v, hv⟩ := mem_iff_lookup.mp hk
      rw [hlookup] at hv
      exact h.based k (mem_iff_lookup.mpr ⟨v, hv⟩)
  · exact h

/-- **One step keeps the invariant.** -/
theorem inv_step (h : Inv cpus s) {a : Action} (hlegal : Legal cpus s a) (hfits : Fits s a) :
    Inv cpus (step cpus s a) := by
  cases a with
  | bump key cpu packets bytes => exact inv_bump h hlegal hfits packets
  | start tick => exact inv_startTick h tick
  | read key => exact inv_read h key
  | readOk fallbackSecs => exact inv_readOk h hlegal
  | readFailed fallbackSecs => exact inv_readFailed h fallbackSecs
  | count whose devices => exact inv_count h whose devices
  | prune removed => exact inv_prune h removed
  | finish => exact inv_finish h

end Steps

/-! ### Times -/

/-- The time of the last complete reading is kept, and is before that of a tick that reads. -/
structure Timed (s : System) : Prop where
  good : ∀ t, s.lastGood = some t → s.rt.lastEcmSnapshotMs = some t
  clock : ∀ t, s.lastGood = some t → ∃ c, s.clock = some c ∧ t ≤ c
  reading : ∀ tick pending stats marks, s.phase = .reading tick pending stats marks →
    s.clock = some tick.nowMs ∧ ∀ t, s.lastGood = some t → t < tick.nowMs

/-- Only the ends of a reading change the time. -/
theorem timed_of_same {s s' : System} (h : Timed s) (hgood : s'.lastGood = s.lastGood)
    (htime : s'.rt.lastEcmSnapshotMs = s.rt.lastEcmSnapshotMs) (hclock : s'.clock = s.clock)
    (hphase : ∀ tick pending stats marks, s'.phase = .reading tick pending stats marks →
      ∃ pending' stats' marks', s.phase = .reading tick pending' stats' marks') : Timed s' := by
  refine ⟨fun t ht => ?_, fun t ht => ?_, fun tick pending stats marks hp => ?_⟩
  · rw [htime]
    exact h.good t (hgood ▸ ht)
  · rw [hclock]
    exact h.clock t (hgood ▸ ht)
  · obtain ⟨pending', stats', marks', hp'⟩ := hphase tick pending stats marks hp
    rw [hclock, hgood]
    exact h.reading tick pending' stats' marks' hp'

section Timed

variable {cpus : ℕ} {s : System}

theorem timed_startTick (h : Timed s) {tick : Tick} (hlegal : Legal cpus s (.start tick)) :
    Timed (step cpus s (.start tick)) := by
  unfold step
  dsimp only
  split
  · refine ⟨h.good, fun t ht => ?_, fun tick' pending stats marks hp => ?_⟩
    · obtain ⟨c, hc, hle⟩ := h.clock t ht
      exact ⟨tick.nowMs, rfl, UInt64.le_of_lt (UInt64.lt_of_le_of_lt hle (hlegal c hc))⟩
    · obtain ⟨rfl, -⟩ := Phase.reading.inj hp
      refine ⟨rfl, fun t ht => ?_⟩
      obtain ⟨c, hc, hle⟩ := h.clock t ht
      exact UInt64.lt_of_le_of_lt hle (hlegal c hc)
  · exact h

/-- A complete reading takes the time of its tick. -/
theorem timed_readOk (h : Timed s) (fallbackSecs : Float) : Timed (step cpus s (.readOk fallbackSecs)) := by
  unfold step
  dsimp only
  split
  · next tick pending stats marks hp =>
    refine ⟨fun t ht => ?_, fun t ht => ?_, fun tick' pending' stats' marks' hp' => by cases hp'⟩
    · exact ht
    · obtain rfl := Option.some.inj ht
      exact ⟨tick.nowMs, (h.reading tick pending stats marks hp).1, UInt64.le_refl _⟩
  · exact h

/-- A reading that fails keeps the time of the last one. -/
theorem timed_readFailed (h : Timed s) (fallbackSecs : Float) :
    Timed (step cpus s (.readFailed fallbackSecs)) := by
  unfold step
  dsimp only
  split
  · refine ⟨fun t ht => ?_, h.clock, fun tick' pending' stats' marks' hp' => (by cases hp')⟩
    have hgood := h.good t ht
    unfold MonitorRuntime.ecmIntervalSeconds
    dsimp only
    rw [hgood, if_neg Bool.false_ne_true]
    rfl
  · exact h

theorem timed_step (h : Timed s) {a : Action} (hlegal : Legal cpus s a) : Timed (step cpus s a) := by
  cases a with
  | bump key cpu packets bytes =>
    unfold step
    dsimp only
    split_ifs
    · exact timed_of_same h rfl rfl rfl fun _ _ _ _ hp => ⟨_, _, _, hp⟩
    · exact h
  | start tick => exact timed_startTick h hlegal
  | read key =>
    unfold step
    dsimp only
    split
    · next tick pending stats marks values hp _ =>
      refine timed_of_same h rfl rfl rfl fun tick' pending' stats' marks' hp' => ?_
      obtain ⟨rfl, -⟩ := Phase.reading.inj hp'
      exact ⟨_, _, _, hp⟩
    · exact h
  | readOk fallbackSecs => exact timed_readOk h fallbackSecs
  | readFailed fallbackSecs => exact timed_readFailed h fallbackSecs
  | count whose devices | prune removed | finish =>
    unfold step
    dsimp only
    split
    · exact timed_of_same h rfl rfl rfl fun _ _ _ _ hp => by cases hp
    · exact h

end Timed

/-- The seconds of an interval. -/
def secondsOf (ms : UInt64) : Float := max (ms.toFloat / 1000.0) 0.001

/-- **What the end of a reading does**: a failed one keeps the baselines, and the time once it is set; a
complete one spans the time since the last complete one. -/
def Exact (cpus : ℕ) (s : System) : Action → Prop
  | .readFailed fallbackSecs =>
    let s' := step cpus s (.readFailed fallbackSecs)
    s'.rt.prevEcmBytes = s.rt.prevEcmBytes ∧
      ∀ t, s.rt.lastEcmSnapshotMs = some t → s'.rt.lastEcmSnapshotMs = some t
  | .readOk fallbackSecs => ∀ tick pending stats marks t,
    s.phase = .reading tick pending stats marks → s.lastGood = some t →
      t < tick.nowMs ∧
        (step cpus s (.readOk fallbackSecs)).phase =
          .complete tick (secondsOf (tick.nowMs - t)) stats marks
  | _ => True

theorem exact_of_timed {cpus : ℕ} {s : System} (h : Timed s) (a : Action) : Exact cpus s a := by
  cases a with
  | readFailed fallbackSecs =>
    unfold Exact step
    dsimp only
    split
    · refine ⟨rfl, fun t ht => ?_⟩
      unfold MonitorRuntime.ecmIntervalSeconds
      dsimp only
      rw [ht, if_neg Bool.false_ne_true]
      rfl
    · exact ⟨rfl, fun _ ht => ht⟩
  | readOk fallbackSecs =>
    intro tick pending stats marks t hp ht
    obtain ⟨-, hlast⟩ := h.reading tick pending stats marks hp
    have hlt := hlast t ht
    refine ⟨hlt, ?_⟩
    unfold step
    dsimp only
    rw [hp]
    unfold MonitorRuntime.ecmIntervalSeconds secondsOf satSub
    dsimp only
    rw [h.good t ht, Option.getD_some, if_pos (UInt64.le_of_lt hlt)]
  | bump key cpu packets bytes => trivial
  | start tick => trivial
  | read key => trivial
  | count whose devices => trivial
  | prune removed => trivial
  | finish => trivial

/-- **Hardware bytes and times are accounted exactly once**, in every run whose counters do not overflow: in
every state what was counted for an address is what the kernel had added when it was last read, and every
reading ends as it should. -/
theorem ecm_accounted_once (cpus : ℕ) (o : IterOrder) (topology : TopologySnapshot)
    (state : Option MonitorRuntimeState) (cumulativeIface : HashMap UInt32 CounterQuad)
    (cumulativeDevice : HashMap DeviceKey CounterQuad) (acts : List Action)
    (h : Along (step cpus) (fun s a => Legal cpus s a ∧ Fits s a)
      (.start (startRuntime o topology state cumulativeIface cumulativeDevice)) acts) :
    (∀ pre, pre <+: acts →
      let s := pre.foldl (step cpus)
        (.start (startRuntime o topology state cumulativeIface cumulativeDevice))
      ∀ k, s.counted k = s.seen k) ∧
    Along (step cpus) (Exact cpus)
      (.start (startRuntime o topology state cumulativeIface cumulativeDevice)) acts := by
  have hrt : (startRuntime o topology state cumulativeIface cumulativeDevice).prevEcmBytes = ∅ := by
    unfold startRuntime
    cases state <;> rfl
  have htimed : Timed (.start (startRuntime o topology state cumulativeIface cumulativeDevice)) :=
    ⟨fun t ht => (by cases ht), fun t ht => (by cases ht), fun _ _ _ _ hp => (by cases hp)⟩
  constructor
  · rintro pre ⟨post, rfl⟩ s k
    have hinv : Inv cpus s := (along_append.mp h).1.invariant (I := Inv cpus)
      (fun _ _ hs hstep => inv_step hs hstep.1 hstep.2) (inv_start hrt)
    exact hinv.seen k
  · exact h.imp (fun _ _ hs hstep => timed_step hs hstep.1) (fun _ a hs _ => exact_of_timed hs a) htimed

/-! ### Some runs -/

def flowKey : EcmTrafficKey := ⟨#v[0xC0A80133, 0, 0, 0], 4, 1⟩

def readTick (nowMs : UInt64) : Tick where
  nowMs
  ifaceEntries := some []
  deviceEntries := some []
  insertFailuresRead := true
  ecmEntries := none
  arp := none
  ipNeigh := none
  hostnames := ∅
  deviceRemoved := fun _ => false
  ecmRecheck := fun _ => none
  ecmRemoved := fun _ => false
  o := .listed

def freshSystem : System := .start (startRuntime .listed (.ofInterfaces []) none ∅ ∅)

/-- Two flows of an address on the only CPU, and a tick that reads its counter. -/
def readRun (bytes : UInt64) : List Action :=
  [.bump flowKey 0 1 bytes, .bump flowKey 0 1 bytes, .start (readTick 1000), .read flowKey, .readOk 1.0,
    .count (fun _ => .global) ∅]

theorem legal_readRun (bytes : UInt64) : Along (step 1) (Legal 1) freshSystem (readRun bytes) := by
  refine ⟨Nat.one_pos, Nat.one_pos, fun t ht => ?_, trivial, fun tick pending stats marks hp => ?_, trivial,
    trivial⟩
  · cases ht
  · obtain ⟨-, rfl, -, -⟩ := Phase.reading.inj hp
    rfl

theorem ecm_accounted_once_sample :
    ((readRun 100).foldl (step 1) freshSystem).counted flowKey =
      ((readRun 100).foldl (step 1) freshSystem).seen flowKey := by
  refine (ecm_accounted_once 1 .listed (.ofInterfaces []) none ∅ ∅ (readRun 100) ?_).1 _
    (List.prefix_refl _) flowKey
  have hlegal := legal_readRun 100
  refine along_iff_split.mpr fun pre a post hsplit => ⟨along_iff_split.mp hlegal pre a post hsplit, ?_⟩
  revert pre a post
  refine along_iff_split.mp ⟨?_, ?_, trivial, trivial, trivial, trivial, trivial⟩
  · show valueOf _ flowKey + _ < _
    decide
  · show valueOf _ flowKey + _ < _
    decide

/-- **Not every reading and not every byte**: the first reading sets a time although it fails, and an
overflow loses bytes. -/
theorem ecm_not_accounted :
    (step 1 freshSystem (.start (readTick 1000))).rt.lastEcmSnapshotMs = none ∧
      ([Action.start (readTick 1000), .readFailed 1.0].foldl (step 1) freshSystem).rt.lastEcmSnapshotMs ≠
        none ∧
    Along (step 1) (Legal 1) freshSystem (readRun 0x8000000000000000) ∧
      ((readRun 0x8000000000000000).foldl (step 1) freshSystem).counted flowKey = 0 ∧
      ((readRun 0x8000000000000000).foldl (step 1) freshSystem).seen flowKey = 2 ^ 64 := by
  refine ⟨rfl, fun hnone => ?_, legal_readRun _, by decide, by decide⟩
  cases hnone

end BandixPlus.Monitor.EcmCounters
