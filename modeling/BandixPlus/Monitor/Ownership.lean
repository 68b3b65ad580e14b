import BandixPlus.Monitor.Registry

/-! # Who owns an address

The neighbours of a tick say which device holds an address. `observe_neighbor` enters them one by one,
in the order in which a hash map yields them, into entries that carry the tick of the last observation.
This file states the owner of an address by what was observed, whatever the order, and shows that the
entries compute it.

* `lookup_run`: the entry of an address depends on its own observations only, and on what the devices
  of one tick agree on.
* `names_entryRun`: the entry names what the latest tick that observed the address agrees on.
* `owner_of_latest`: the owner at any later time, whatever the order inside the ticks.
* `neighborOwnership_run`: the runs of the collector are such runs. -/

namespace BandixPlus.Monitor.Ownership

open BandixPlus.Common BandixPlus.Lib.Maps BandixPlus.Monitor.Counters BandixPlus.Monitor.Snapshot
open BandixPlus.Monitor.Topology
open BandixPlus.Monitor.Runtime BandixPlus.Monitor.Neighbors BandixPlus.Monitor.Interfaces
open BandixPlus.Monitor.Devices BandixPlus.Monitor.Collect BandixPlus.Monitor.Registry

/-! ### Agreement -/

section
variable {α : Type} [DecidableEq α]

/-- What all elements of a list are. -/
def agreed : List α → Option α
  | [] => none
  | a :: l => if ∀ b ∈ l, b = a then some a else none

theorem agreed_eq_some {l : List α} {a : α} : agreed l = some a ↔ l ≠ [] ∧ ∀ b ∈ l, b = a := by
  cases l with
  | nil => simp [agreed]
  | cons c l =>
    simp only [agreed, Option.ite_none_right_eq_some, Option.some.injEq, ne_eq, reduceCtorEq,
      not_false_eq_true, true_and, List.forall_mem_cons]
    constructor
    · rintro ⟨h, rfl⟩
      exact ⟨rfl, h⟩
    · rintro ⟨rfl, h⟩
      exact ⟨h, rfl⟩

theorem agreed_perm {l l' : List α} (h : l.Perm l') : agreed l = agreed l' := by
  refine Option.ext fun a => ?_
  rw [agreed_eq_some, agreed_eq_some]
  have hnil : l ≠ [] ↔ l' ≠ [] := not_congr (by constructor <;> rintro rfl <;> simpa using h)
  rw [hnil]
  exact and_congr_right fun _ => forall_congr' fun b => imp_congr_left h.mem_iff

end

/-! ### Ticks -/

/-- One tick as the owners see it. The addresses of one family were all read at one time. -/
structure Tick where
  nowMs : UInt64
  topology : TopologySnapshot
  observations : List (EcmAddress × DeviceKey)
  observedMs : UInt8 → UInt64

inductive Op where
  | tick (t : Tick)
  | remove (device : DeviceKey)

def Op.nowMs? : Op → Option UInt64
  | .tick t => some t.nowMs
  | .remove _ => none

def observeAll (t : Tick) (cache : HashMap EcmAddress NeighborOwnership) :
    HashMap EcmAddress NeighborOwnership :=
  t.observations.foldl (fun cache o =>
    observeNeighbor cache o.1 o.2 (t.observedMs o.1.2) t.nowMs) cache

/-- What `remove_device` does to the owners. -/
def forgetDevice (device : DeviceKey) (cache : HashMap EcmAddress NeighborOwnership) :
    HashMap EcmAddress NeighborOwnership :=
  retain (fun _ owner => owner.device ≠ some device) cache

def step (cache : HashMap EcmAddress NeighborOwnership) : Op → HashMap EcmAddress NeighborOwnership
  | .tick t => observeAll t (retainOwnership t.topology t.nowMs cache)
  | .remove device => forgetDevice device cache

def run (ops : List Op) : HashMap EcmAddress NeighborOwnership := ops.foldl step ∅

def ownerAt (cache : HashMap EcmAddress NeighborOwnership) (address : EcmAddress) (nowMs : UInt64) :
    Option DeviceKey :=
  (cache.lookup address).bind fun entry => entry.validOwner nowMs

/-- The devices observed at an address. -/
def devicesAt (t : Tick) (address : EcmAddress) : List DeviceKey :=
  (t.observations.filter fun o => o.1 = address).map Prod.snd

/-! ### One address -/

/-- The entry is kept by a tick at `nowMs`. -/
def Fresh (topology : TopologySnapshot) (nowMs : UInt64) (entry : NeighborOwnership) : Bool :=
  satSub nowMs entry.observedMs < ecmHistoryFallbackMs &&
    entry.device.all fun device => (topology.byIfindex device.1).isSome

/-- What an operation does to the entry of one address. -/
def entryStep (address : EcmAddress) (entry : Option NeighborOwnership) : Op → Option NeighborOwnership
  | .tick t =>
    if devicesAt t address = [] then entry.filter (Fresh t.topology t.nowMs)
    else some
      { device := agreed (devicesAt t address)
        observedMs := t.observedMs address.2
        observationTick := t.nowMs }
  | .remove device => entry.filter fun owner => owner.device ≠ some device

def entryRun (address : EcmAddress) (ops : List Op) : Option NeighborOwnership :=
  ops.foldl (entryStep address) none

/-- The entry after an observation. -/
def observed (entry : Option NeighborOwnership) (device : DeviceKey) (observedMs tick : UInt64) :
    NeighborOwnership :=
  let entry := entry.getD ⟨some device, observedMs, tick⟩
  let owner :=
    if entry.observationTick = tick then
      if entry.device = some device then some device else none
    else some device
  { device := owner, observedMs, observationTick := tick }

variable {address : EcmAddress}

theorem lookup_observeAll (t : Tick) (cache : HashMap EcmAddress NeighborOwnership) :
    (observeAll t cache).lookup address = (devicesAt t address).foldl (fun entry device =>
      some (observed entry device (t.observedMs address.2) t.nowMs)) (cache.lookup address) := by
  unfold observeAll devicesAt
  generalize t.observations = l
  induction l generalizing cache with
  | nil => rfl
  | cons o l ih =>
    have hlookup : (observeNeighbor cache o.1 o.2 (t.observedMs o.1.2) t.nowMs).lookup address =
        if address = o.1 then some (observed (cache.lookup o.1) o.2 (t.observedMs o.1.2) t.nowMs)
        else cache.lookup address := lookup_insert_eq _ _ _ _
    rw [List.foldl_cons, ih, hlookup]
    by_cases ho : address = o.1
    · subst ho
      rw [if_pos rfl, List.filter_cons_of_pos (by simp), List.map_cons, List.foldl_cons]
    · rw [if_neg ho, List.filter_cons_of_neg (by simpa using fun h => ho h.symm)]

/-- A second device in one tick leaves no owner, and none comes back. -/
theorem foldl_observed_sameTick (devices : List DeviceKey) (owner : Option DeviceKey)
    (observedMs tick : UInt64) :
    devices.foldl (fun entry device => some (observed entry device observedMs tick))
      (some ⟨owner, observedMs, tick⟩) =
    some ⟨if ∀ d ∈ devices, owner = some d then owner else none, observedMs, tick⟩ := by
  induction devices generalizing owner with
  | nil => simp
  | cons d devices ih =>
    have hone : observed (some ⟨owner, observedMs, tick⟩) d observedMs tick =
        ⟨if owner = some d then some d else none, observedMs, tick⟩ := by
      simp [observed]
    rw [List.foldl_cons, hone, ih]
    by_cases hd : owner = some d
    · subst hd
      rw [if_pos rfl]
      simp only [List.forall_mem_cons, true_and]
    · rw [if_neg hd]
      have hleft : (if ∀ b ∈ devices, (none : Option DeviceKey) = some b then none else none) =
          (none : Option DeviceKey) := by split <;> rfl
      have hright : ¬ ∀ b ∈ d :: devices, owner = some b := fun h => hd (h d List.mem_cons_self)
      rw [hleft, if_neg hright]

/-- The first observation of a tick replaces what earlier ticks observed. -/
theorem foldl_observed {devices : List DeviceKey} (hne : devices ≠ []) {entry : Option NeighborOwnership}
    (observedMs : UInt64) {tick : UInt64} (hold : ∀ e, entry = some e → e.observationTick ≠ tick) :
    devices.foldl (fun entry device => some (observed entry device observedMs tick)) entry =
      some ⟨agreed devices, observedMs, tick⟩ := by
  obtain ⟨d, devices, rfl⟩ := List.exists_cons_of_ne_nil hne
  have hone : observed entry d observedMs tick = ⟨some d, observedMs, tick⟩ := by
    cases entry with
    | none => simp [observed]
    | some e => simp [observed, hold e rfl]
  rw [List.foldl_cons, hone, foldl_observed_sameTick]
  simp only [agreed, Option.some.injEq, eq_comm]

theorem run_concat (ops : List Op) (op : Op) : run (ops ++ [op]) = step (run ops) op := by
  unfold run
  rw [List.foldl_append, List.foldl_cons, List.foldl_nil]

theorem entryRun_concat (ops : List Op) (op : Op) :
    entryRun address (ops ++ [op]) = entryStep address (entryRun address ops) op := by
  unfold entryRun
  rw [List.foldl_append, List.foldl_cons, List.foldl_nil]

/-- The times of the ticks increase. -/
def Increasing (ops : List Op) : Prop := (ops.filterMap Op.nowMs?).Pairwise (· < ·)

theorem increasing_concat {ops : List Op} {op : Op} (h : Increasing (ops ++ [op])) :
    Increasing ops ∧ ∀ t t', .tick t ∈ ops → op = .tick t' → t.nowMs < t'.nowMs := by
  unfold Increasing at h
  rw [List.filterMap_append, List.pairwise_append] at h
  refine ⟨h.1, ?_⟩
  rintro t t' ht rfl
  exact h.2.2 t.nowMs (List.mem_filterMap.mpr ⟨_, ht, rfl⟩) t'.nowMs (by simp [Op.nowMs?])

/-- **The entry of an address.** -/
theorem lookup_run {ops : List Op} (h : Increasing ops) :
    (run ops).lookup address = entryRun address ops ∧
      ∀ e, entryRun address ops = some e → ∃ t, .tick t ∈ ops ∧ e.observationTick = t.nowMs := by
  induction ops using List.reverseRecOn with
  | nil => exact ⟨rfl, fun e he => by cases he⟩
  | append_singleton ops op ih =>
    obtain ⟨hops, hlater⟩ := increasing_concat h
    obtain ⟨hlookup, htick⟩ := ih hops
    have hkept : ∀ (p : NeighborOwnership → Bool) e, (entryRun address ops).filter p = some e →
        ∃ t, .tick t ∈ ops ∧ e.observationTick = t.nowMs := fun p e he =>
      htick e (Option.filter_eq_some_iff.mp he).1
    rw [run_concat, entryRun_concat]
    cases op with
    | remove device =>
      refine ⟨?_, fun e he => ?_⟩
      · show (forgetDevice device _).lookup address = _
        unfold forgetDevice
        rw [lookup_retain, hlookup]
        rfl
      · obtain ⟨t, ht, heq⟩ := hkept _ e he
        exact ⟨t, List.mem_append_left _ ht, heq⟩
    | tick t =>
      have hretain : (retainOwnership t.topology t.nowMs (run ops)).lookup address =
          (entryRun address ops).filter (Fresh t.topology t.nowMs) := by
        unfold retainOwnership
        rw [lookup_retain, hlookup]
        rfl
      show (observeAll t _).lookup address = entryStep address _ _ ∧ _
      rw [lookup_observeAll, hretain]
      unfold entryStep
      dsimp only
      by_cases hnone : devicesAt t address = []
      · rw [if_pos hnone, hnone]
        refine ⟨rfl, fun e he => ?_⟩
        obtain ⟨t', ht', heq⟩ := hkept _ e he
        exact ⟨t', List.mem_append_left _ ht', heq⟩
      · rw [if_neg hnone]
        refine ⟨foldl_observed hnone _ fun e he heq => ?_, fun e he => ?_⟩
        · obtain ⟨t', ht', heq'⟩ := hkept _ e he
          have hlt := hlater t' t ht' rfl
          rw [← heq', heq] at hlt
          exact (UInt64.lt_irrefl _) hlt
        · rw [← Option.some.inj he]
          exact ⟨t, List.mem_append_right _ List.mem_cons_self, rfl⟩

/-! ### The latest observation -/

/-- **The latest tick that observed the address**, and what happened since. -/
structure Latest (ops : List Op) (address : EcmAddress) (t : Tick) (since : List Op) : Prop where
  split : ∃ before, ops = before ++ .tick t :: since
  observed : devicesAt t address ≠ []
  unobserved : ∀ t', .tick t' ∈ since → devicesAt t' address = []

theorem append_eq_split {ops before since : List Op} {op op' : Op}
    (h : ops ++ [op] = before ++ op' :: since) :
    (since = [] ∧ ops = before ∧ op = op') ∨
      ∃ since', since = since' ++ [op] ∧ ops = before ++ op' :: since' := by
  rcases List.eq_nil_or_concat since with rfl | ⟨since', last, rfl⟩
  · obtain ⟨hbefore, hop⟩ := List.append_inj' h rfl
    exact Or.inl ⟨rfl, hbefore, List.singleton_inj.mp hop⟩
  · have h' : ops ++ [op] = (before ++ op' :: since') ++ [last] := by simpa using h
    obtain ⟨hbefore, hop⟩ := List.append_inj' h' rfl
    exact Or.inr ⟨since', by rw [List.singleton_inj.mp hop, List.concat_eq_append], hbefore⟩

/-- An operation that does not observe the address leaves the latest observation. -/
theorem latest_concat {ops : List Op} {op : Op} (hop : ∀ t, op = .tick t → devicesAt t address = [])
    {t : Tick} {since : List Op} : Latest (ops ++ [op]) address t since ↔
      ∃ since', since = since' ++ [op] ∧ Latest ops address t since' := by
  constructor
  · rintro ⟨⟨before, hsplit⟩, hobserved, hsince⟩
    rcases append_eq_split hsplit with ⟨-, -, rfl⟩ | ⟨since', rfl, hops⟩
    · exact absurd (hop t rfl) hobserved
    · exact ⟨since', rfl, ⟨before, hops⟩, hobserved, fun t' ht' =>
        hsince t' (List.mem_append_left _ ht')⟩
  · rintro ⟨since', rfl, ⟨before, rfl⟩, hobserved, hsince⟩
    refine ⟨⟨before, by rw [List.append_assoc, List.cons_append]⟩, hobserved, fun t' ht' => ?_⟩
    rcases List.mem_append.mp ht' with ht' | ht'
    · exact hsince t' ht'
    · exact hop t' (List.mem_singleton.mp ht').symm

/-- A tick that observes the address is the latest. -/
theorem latest_concat_tick {ops : List Op} {t' : Tick} (hobserved : devicesAt t' address ≠ [])
    {t : Tick} {since : List Op} :
    Latest (ops ++ [.tick t']) address t since ↔ t = t' ∧ since = [] := by
  constructor
  · rintro ⟨⟨before, hsplit⟩, -, hsince⟩
    rcases append_eq_split hsplit with ⟨hnil, -, heq⟩ | ⟨since', rfl, -⟩
    · exact ⟨(Op.tick.inj heq).symm, hnil⟩
    · exact absurd (hsince t' (by simp)) hobserved
  · rintro ⟨rfl, rfl⟩
    exact ⟨⟨ops, rfl⟩, hobserved, fun _ h => by cases h⟩

theorem latest_unique {ops : List Op} {t t' : Tick} {since since' : List Op}
    (h : Latest ops address t since) (h' : Latest ops address t' since') : t = t' := by
  obtain ⟨before, rfl⟩ := h.split
  obtain ⟨before', hsplit⟩ := h'.split
  rcases List.append_eq_append_iff.mp hsplit with ⟨l, rfl, hl⟩ | ⟨l, rfl, hl⟩
  · cases l with
    | nil => exact Op.tick.inj (List.cons.inj hl).1
    | cons op l =>
      -- the other tick is later than this one, and it observed the address
      obtain ⟨rfl, rfl⟩ := List.cons.inj hl
      exact absurd (h.unobserved t' (by simp)) h'.observed
  · cases l with
    | nil => exact (Op.tick.inj (List.cons.inj hl).1).symm
    | cons op l =>
      obtain ⟨rfl, rfl⟩ := List.cons.inj hl
      exact absurd (h'.unobserved t (by simp)) h.observed

/-- The device that the latest observation agrees on, while every tick since keeps it. -/
structure Holds (ops : List Op) (address : EcmAddress) (d : DeviceKey) (t : Tick)
    (since : List Op) : Prop where
  latest : Latest ops address t since
  agree : agreed (devicesAt t address) = some d
  fresh : ∀ t', .tick t' ∈ since → satSub t'.nowMs (t.observedMs address.2) < ecmHistoryFallbackMs
  interface : ∀ t', .tick t' ∈ since → (t'.topology.byIfindex d.1).isSome
  kept : .remove d ∉ since

/-- An entry names this device, observed at this time. -/
def Names (entry : Option NeighborOwnership) (d : DeviceKey) (observedMs : UInt64) : Prop :=
  ∃ e, entry = some e ∧ e.device = some d ∧ e.observedMs = observedMs

theorem names_filter (entry : Option NeighborOwnership) (d : DeviceKey) (observedMs : UInt64)
    {p : NeighborOwnership → Bool} {P : Prop}
    (hp : ∀ e, e.device = some d → e.observedMs = observedMs → (p e = true ↔ P)) :
    Names (entry.filter p) d observedMs ↔ Names entry d observedMs ∧ P := by
  unfold Names
  simp only [Option.filter_eq_some_iff]
  constructor
  · rintro ⟨e, ⟨he, hkept⟩, hd, hms⟩
    exact ⟨⟨e, he, hd, hms⟩, (hp e hd hms).mp hkept⟩
  · rintro ⟨⟨e, he, hd, hms⟩, hP⟩
    exact ⟨e, ⟨he, (hp e hd hms).mpr hP⟩, hd, hms⟩

theorem holds_concat {ops : List Op} {op : Op} (hop : ∀ t, op = .tick t → devicesAt t address = [])
    {d : DeviceKey} {t : Tick} : (∃ since, Holds (ops ++ [op]) address d t since) ↔
      (∃ since, Holds ops address d t since) ∧ op ≠ .remove d ∧
        ∀ t', op = .tick t' → satSub t'.nowMs (t.observedMs address.2) < ecmHistoryFallbackMs ∧
          (t'.topology.byIfindex d.1).isSome := by
  constructor
  · rintro ⟨since, hlatest, hagree, hfresh, hinterface, hkept⟩
    obtain ⟨since', rfl, hbefore⟩ := (latest_concat hop).mp hlatest
    have hleft : ∀ {x}, x ∈ since' → x ∈ since' ++ [op] := fun h => List.mem_append_left _ h
    have hlast : op ∈ since' ++ [op] := List.mem_append_right _ List.mem_cons_self
    refine ⟨⟨since', hbefore, hagree, fun t' ht' => hfresh t' (hleft ht'),
      fun t' ht' => hinterface t' (hleft ht'), fun h => hkept (hleft h)⟩, ?_, ?_⟩
    · rintro rfl
      exact hkept hlast
    · rintro t' rfl
      exact ⟨hfresh t' hlast, hinterface t' hlast⟩
  · rintro ⟨⟨since, hlatest, hagree, hfresh, hinterface, hkept⟩, hremove, htick⟩
    refine ⟨since ++ [op], (latest_concat hop).mpr ⟨since, rfl, hlatest⟩, hagree, ?_, ?_, ?_⟩
    · intro t' ht'
      rcases List.mem_append.mp ht' with ht' | ht'
      · exact hfresh t' ht'
      · exact (htick t' (List.mem_singleton.mp ht').symm).1
    · intro t' ht'
      rcases List.mem_append.mp ht' with ht' | ht'
      · exact hinterface t' ht'
      · exact (htick t' (List.mem_singleton.mp ht').symm).2
    · rw [List.mem_append, not_or]
      exact ⟨hkept, fun h => hremove (List.mem_singleton.mp h).symm⟩

/-- **The entry of an address names the device that its latest observation agrees on.** -/
theorem names_entryRun {ops : List Op} {d : DeviceKey} {observedMs : UInt64} :
    Names (entryRun address ops) d observedMs ↔
      ∃ t, (∃ since, Holds ops address d t since) ∧ t.observedMs address.2 = observedMs := by
  induction ops using List.reverseRecOn with
  | nil =>
    constructor
    · rintro ⟨e, he, -⟩
      cases he
    · rintro ⟨t, ⟨since, ⟨⟨before, hsplit⟩, -, -⟩, -, -, -, -⟩, -⟩
      simp at hsplit
  | append_singleton ops op ih =>
    rw [entryRun_concat]
    cases op with
    | remove device =>
      have hop : ∀ t, Op.remove device = .tick t → devicesAt t address = [] := fun t h => by cases h
      have hkept := names_filter (entryRun address ops) d observedMs
        (p := fun owner => owner.device ≠ some device) (P := device ≠ d) fun e hd _ => by
          rw [hd, decide_eq_true_iff, ne_eq, Option.some.injEq, ne_comm, ne_eq]
      show Names ((entryRun address ops).filter _) d observedMs ↔ _
      rw [hkept, ih]
      simp only [holds_concat hop, ne_eq, Op.remove.injEq, reduceCtorEq, false_implies, implies_true,
        and_true]
      constructor
      · rintro ⟨⟨t, hholds, hms⟩, hne⟩
        exact ⟨t, ⟨hholds, hne⟩, hms⟩
      · rintro ⟨t, ⟨hholds, hne⟩, hms⟩
        exact ⟨⟨t, hholds, hms⟩, hne⟩
    | tick t' =>
      by_cases hnone : devicesAt t' address = []
      · have hop : ∀ t, Op.tick t' = .tick t → devicesAt t address = [] := fun t h =>
          Op.tick.inj h ▸ hnone
        have hkept := names_filter (entryRun address ops) d observedMs
          (p := Fresh t'.topology t'.nowMs) (P := satSub t'.nowMs observedMs < ecmHistoryFallbackMs ∧
            (t'.topology.byIfindex d.1).isSome) fun e hd hms => by
            unfold Fresh
            rw [hd, hms, Bool.and_eq_true, decide_eq_true_iff]
            rfl
        unfold entryStep
        dsimp only
        rw [if_pos hnone, hkept, ih]
        simp only [holds_concat hop, ne_eq, reduceCtorEq, not_false_eq_true, true_and, Op.tick.injEq,
          forall_eq']
        constructor
        · rintro ⟨⟨t, hholds, rfl⟩, hfresh⟩
          exact ⟨t, ⟨hholds, hfresh⟩, rfl⟩
        · rintro ⟨t, ⟨hholds, hfresh⟩, rfl⟩
          exact ⟨⟨t, hholds, rfl⟩, hfresh⟩
      · unfold entryStep Names
        dsimp only
        rw [if_neg hnone]
        constructor
        · rintro ⟨e, he, hd, hms⟩
          rw [← Option.some.inj he] at hd hms
          exact ⟨t', ⟨[], (latest_concat_tick hnone).mpr ⟨rfl, rfl⟩, hd,
            fun _ h => absurd h List.not_mem_nil, fun _ h => absurd h List.not_mem_nil,
            List.not_mem_nil⟩, hms⟩
        · rintro ⟨t, ⟨since, hlatest, hagree, -, -, -⟩, hms⟩
          obtain ⟨rfl, rfl⟩ := (latest_concat_tick hnone).mp hlatest
          exact ⟨_, rfl, hagree, hms⟩

/-! ### The owner -/

/-- **Who owns an address** at a time, by what was observed. -/
structure Owns (ops : List Op) (address : EcmAddress) (nowMs : UInt64) (d : DeviceKey) (t : Tick)
    (since : List Op) : Prop where
  latest : Latest ops address t since
  named : ∀ d' ∈ devicesAt t address, d' = d
  age : nowMs.toNat - (t.observedMs address.2).toNat < ecmHistoryFallbackMs.toNat
  interface : ∀ t', .tick t' ∈ since → (t'.topology.byIfindex d.1).isSome
  kept : .remove d ∉ since

theorem satSub_lt {a b c : UInt64} : satSub a b < c ↔ a.toNat - b.toNat < c.toNat := by
  unfold satSub
  split_ifs with h
  · rw [UInt64.lt_iff_toNat_lt, UInt64.toNat_sub_of_le _ _ h]
  · rw [UInt64.lt_iff_toNat_lt, Nat.sub_eq_zero_of_le]
    · rfl
    · exact (Nat.not_le.mp fun hle => h (UInt64.le_iff_toNat_le.mpr hle)).le

theorem mem_of_latest {ops since : List Op} {t : Tick} (h : Latest ops address t since) {op : Op}
    (hop : op ∈ since) : op ∈ ops := by
  obtain ⟨before, rfl⟩ := h.split
  exact List.mem_append_right _ (List.mem_cons_of_mem _ hop)

theorem owner_iff {ops : List Op} (h : Increasing ops) {nowMs : UInt64}
    (hlater : ∀ t, .tick t ∈ ops → t.nowMs ≤ nowMs) (d : DeviceKey) :
    ownerAt (run ops) address nowMs = some d ↔ ∃ t since, Owns ops address nowMs d t since := by
  have hentry : ownerAt (run ops) address nowMs = some d ↔
      ∃ ms, Names (entryRun address ops) d ms ∧ satSub nowMs ms < ecmHistoryFallbackMs := by
    unfold ownerAt NeighborOwnership.validOwner Names
    rw [(lookup_run h).1, Option.bind_eq_some_iff]
    constructor
    · rintro ⟨e, he, hvalid⟩
      split_ifs at hvalid with hfresh
      exact ⟨e.observedMs, ⟨e, he, hvalid, rfl⟩, hfresh⟩
    · rintro ⟨ms, ⟨e, he, hd, rfl⟩, hfresh⟩
      exact ⟨e, he, by rw [if_pos hfresh, hd]⟩
  rw [hentry]
  constructor
  · rintro ⟨ms, hnames, hfresh⟩
    obtain ⟨t, ⟨since, hholds⟩, rfl⟩ := names_entryRun.mp hnames
    exact ⟨t, since, hholds.latest, (agreed_eq_some.mp hholds.agree).2, satSub_lt.mp hfresh,
      hholds.interface, hholds.kept⟩
  · rintro ⟨t, since, hlatest, hnamed, hage, hinterface, hkept⟩
    refine ⟨_, names_entryRun.mpr ⟨t, ⟨since, hlatest, ?_, fun t' ht' => ?_, hinterface, hkept⟩, rfl⟩,
      satSub_lt.mpr hage⟩
    · exact agreed_eq_some.mpr ⟨hlatest.observed, hnamed⟩
    · -- what is young enough now was so at every tick before
      have hle := UInt64.le_iff_toNat_le.mp (hlater t' (mem_of_latest hlatest ht'))
      rw [satSub_lt]
      omega

/-! ### The order of the observations -/

/-- The same operation, with the observations in another order. -/
inductive Reordered : Op → Op → Prop where
  | tick {t : Tick} {observations : List (EcmAddress × DeviceKey)}
      (h : t.observations.Perm observations) : Reordered (.tick t) (.tick { t with observations })
  | remove (device : DeviceKey) : Reordered (.remove device) (.remove device)

theorem entryStep_reordered {op op' : Op} (h : Reordered op op') (entry : Option NeighborOwnership) :
    entryStep address entry op' = entryStep address entry op := by
  cases h with
  | @tick t observations h =>
    have hperm : (devicesAt t address).Perm (devicesAt { t with observations } address) :=
      (h.filter _).map _
    have hnil : devicesAt { t with observations } address = [] ↔ devicesAt t address = [] := by
      constructor <;> intro hnil
      · exact List.perm_nil.mp (hnil ▸ hperm)
      · exact List.nil_perm.mp (hnil ▸ hperm)
    unfold entryStep
    dsimp only
    rw [agreed_perm hperm]
    by_cases hnone : devicesAt t address = []
    · rw [if_pos hnone, if_pos (hnil.mpr hnone)]
    · rw [if_neg hnone, if_neg (hnil.not.mpr hnone)]
  | remove device => rfl

theorem entryRun_reordered {ops ops' : List Op} (h : List.Forall₂ Reordered ops ops') :
    entryRun address ops' = entryRun address ops := by
  unfold entryRun
  generalize (none : Option NeighborOwnership) = entry
  induction h generalizing entry with
  | nil => rfl
  | cons hop _ ih => rw [List.foldl_cons, List.foldl_cons, entryStep_reordered hop, ih]

theorem increasing_reordered {ops ops' : List Op} (h : List.Forall₂ Reordered ops ops') :
    ops'.filterMap Op.nowMs? = ops.filterMap Op.nowMs? := by
  induction h with
  | nil => rfl
  | cons hop _ ih =>
    have hnow : ∀ {op op' : Op}, Reordered op op' → op'.nowMs? = op.nowMs? := by
      rintro _ _ (_ | _) <;> rfl
    rw [List.filterMap_cons, List.filterMap_cons, hnow hop, ih]

theorem ownerAt_reordered {ops ops' : List Op} (h : Increasing ops)
    (hops : List.Forall₂ Reordered ops ops') (nowMs : UInt64) :
    ownerAt (run ops') address nowMs = ownerAt (run ops) address nowMs := by
  have h' : Increasing ops' := by
    unfold Increasing
    rw [increasing_reordered hops]
    exact h
  unfold ownerAt
  rw [(lookup_run h).1, (lookup_run h').1, entryRun_reordered hops]

/-- **The owner of an address, whatever the order of the observations**: the device that the latest tick
observing it agrees on, for five minutes, while its interface is there and it is not removed; and nobody
if two devices were observed in that tick. -/
theorem owner_of_latest {ops : List Op} (h : Increasing ops) (address : EcmAddress) :
    (∀ nowMs, (∀ t, .tick t ∈ ops → t.nowMs ≤ nowMs) → ∀ d,
      ownerAt (run ops) address nowMs = some d ↔ ∃ t since, Owns ops address nowMs d t since) ∧
    (∀ ops', List.Forall₂ Reordered ops ops' → ∀ nowMs,
      ownerAt (run ops') address nowMs = ownerAt (run ops) address nowMs) ∧
    ∀ t since, Latest ops address t since → ∀ d ∈ devicesAt t address,
      ∀ d' ∈ devicesAt t address, d ≠ d' → ∀ nowMs, ownerAt (run ops) address nowMs = none := by
  refine ⟨fun nowMs hlater d => owner_iff h hlater d, fun ops' => ownerAt_reordered h, ?_⟩
  intro t since hlatest d hd d' hd' hne nowMs
  unfold ownerAt NeighborOwnership.validOwner
  rw [(lookup_run h).1]
  cases hentry : entryRun address ops with
  | none => rfl
  | some e =>
    rw [Option.bind_some]
    split_ifs
    · cases hdevice : e.device with
      | none => rfl
      | some owner =>
        obtain ⟨t', ⟨since', hholds⟩, -⟩ := names_entryRun.mp ⟨e, hentry, hdevice, rfl⟩
        obtain rfl := latest_unique hlatest hholds.latest
        have hagree := (agreed_eq_some.mp hholds.agree).2
        exact absurd ((hagree d hd).trans (hagree d' hd').symm) hne
    · rfl

def sampleTopology : TopologySnapshot := .ofInterfaces [⟨1, "br-lan", "lan", ["192.168.1.1/24"], []⟩]

def sampleAddress : EcmAddress := (#v[0xC0A80102, 0, 0, 0], 4)

def sampleTick (nowMs : UInt64) (devices : List DeviceKey) : Op :=
  .tick ⟨nowMs, sampleTopology, devices.map fun d => (sampleAddress, d), fun _ => nowMs⟩

/-- Two devices claim an address, and later one of them does. -/
def sampleOps : List Op :=
  [sampleTick 1000 [(1, #v[2, 0, 0, 0, 0, 1]), (1, #v[2, 0, 0, 0, 0, 2])],
    sampleTick 2000 [(1, #v[2, 0, 0, 0, 0, 2])], sampleTick 3000 []]

theorem increasing_sampleOps : Increasing sampleOps := by
  unfold Increasing
  decide

theorem owner_of_latest_sampleOps : ∃ t since,
    Owns sampleOps sampleAddress 4000 (1, #v[2, 0, 0, 0, 0, 2]) t since := by
  refine ((owner_of_latest increasing_sampleOps sampleAddress).1 4000 ?_ _).mp rfl
  intro t ht
  have htimes : sampleOps.filterMap Op.nowMs? = [1000, 2000, 3000] := rfl
  have hmem : t.nowMs ∈ sampleOps.filterMap Op.nowMs? := List.mem_filterMap.mpr ⟨_, ht, rfl⟩
  rw [htimes] at hmem
  simp only [List.mem_cons, List.not_mem_nil, or_false] at hmem
  rcases hmem with h | h | h <;> rw [h] <;> decide

/-! ### The runs of the collector -/

/-- What the neighbours on the LAN side observe. -/
def observationsOf (topology : TopologySnapshot) (neighbors : List FilteredNeighborEntry) :
    List (EcmAddress × DeviceKey) :=
  (hostNeighbors neighbors).filterMap fun n =>
    match (ifaceOf topology n.dev).filter fun iface => !wanZone iface, ecmAddress n.ip,
        (ifindexByName topology).lookup n.dev with
    | some _, some address, some ifindex => some (address, (ifindex, n.mac))
    | _, _, _ => none

/-- A tick of the collector as the owners see it. -/
def tickOf (cfg : Config) (topology : TopologySnapshot) (tick : Interfaces.Tick) (refresh : Bool)
    (rt : MonitorRuntime) : Tick :=
  let (neighbors, rt) := readNeighbors cfg topology tick refresh rt
  { nowMs := tick.nowMs
    topology
    observations := observationsOf topology neighbors
    observedMs := fun version => if version = 6 then rt.lastIpv6NeighFetchMs else tick.nowMs }

theorem observeNeighbors_eq (topology : TopologySnapshot) (nowMs ipv6FetchMs : UInt64)
    (cache : HashMap EcmAddress NeighborOwnership) (neighbors : List FilteredNeighborEntry) :
    observeNeighbors topology nowMs ipv6FetchMs cache neighbors =
      observeAll ⟨nowMs, topology, observationsOf topology neighbors,
        fun version => if version = 6 then ipv6FetchMs else nowMs⟩ cache := by
  unfold observeNeighbors observeAll observationsOf
  dsimp only
  generalize hostNeighbors neighbors = l
  induction l generalizing cache with
  | nil => rfl
  | cons n l ih =>
    rw [List.foldl_cons, ih]
    unfold observeStep
    cases hiface : (ifaceOf topology n.dev).filter fun iface => !wanZone iface with
    | none => simp [hiface]
    | some iface =>
      cases haddress : ecmAddress n.ip with
      | none => simp [hiface, haddress]
      | some address =>
        cases hifindex : (ifindexByName topology).lookup n.dev with
        | none => simp [hiface, haddress, hifindex]
        | some ifindex => simp [hiface, haddress, hifindex]

theorem neighborOwnership_observe {cfg : Config} (henable : cfg.enableEcm = true)
    (topology : TopologySnapshot) (tick : Interfaces.Tick) (refresh : Bool) (rt : MonitorRuntime) :
    (observe cfg topology tick refresh rt).2.neighborOwnership =
      step rt.neighborOwnership (.tick (tickOf cfg topology tick refresh rt)) := by
  obtain ⟨-, -, -, howners⟩ := readNeighbors_snd cfg topology tick refresh rt
  unfold observe
  dsimp only
  rw [if_pos henable]
  show observeNeighbors _ _ _ _ _ = _
  rw [observeNeighbors_eq, howners]
  rfl

theorem neighborOwnership_eachRow
    {f : MonitorRuntime → InterfaceOverviewItem → InterfaceOverviewItem × MonitorRuntime}
    (hf : ∀ rt row, (f rt row).2.neighborOwnership = rt.neighborOwnership)
    (rows : List InterfaceOverviewItem) (rt : MonitorRuntime) :
    (eachRow f rt rows).2.neighborOwnership = rt.neighborOwnership := by
  induction rows generalizing rt with
  | nil => rfl
  | cons row rest ih => exact (ih _).trans (hf rt row)

theorem neighborOwnership_injectRow (x : Injection) (rt : MonitorRuntime)
    (row : InterfaceOverviewItem) :
    (injectRow x rt row).2.neighborOwnership = rt.neighborOwnership := by
  have hlan : (injectLan x.lanShown x.lanMetrics rt row).2.neighborOwnership =
      rt.neighborOwnership := by
    unfold injectLan
    split <;> rfl
  have hwan : ∀ rt row, (injectWan x.wan x.wanShown x.wanMetrics rt row).2.neighborOwnership =
      rt.neighborOwnership := by
    intro rt row
    unfold injectWan
    split_ifs <;> rfl
  exact (hwan _ _).trans hlan

theorem neighborOwnership_interfaceRows (topology : TopologySnapshot) (tick : Interfaces.Tick)
    (b : BeforeEcm) (e : Ecm.EcmLoop) (rt : MonitorRuntime) :
    (interfaceRows topology tick b e rt).2.neighborOwnership = rt.neighborOwnership := by
  have hbreakdown : (applyTcBreakdowns b.breakdown rt
      (addWanRow topology rt b.interfaces)).2.neighborOwnership = rt.neighborOwnership :=
    neighborOwnership_eachRow (fun _ _ => rfl) _ _
  unfold interfaceRows
  dsimp only
  split_ifs
  · refine Eq.trans ?_ hbreakdown
    exact neighborOwnership_eachRow (neighborOwnership_injectRow _) _ _
  · exact hbreakdown

/-- The owners see a tick that can read its counters. -/
def collectOps (cfg : Config) (topology : TopologySnapshot) (tick : Interfaces.Tick)
    (rt : MonitorRuntime) : List Op :=
  match tick.ifaceEntries, tick.deviceEntries, tick.insertFailuresRead with
  | some ifaceEntries, some _, true =>
    let start := startTick cfg topology tick rt
    let st := interfaceLoop cfg tick.o topology (readStats ifaceEntries) start.sec start.rt
    [.tick (tickOf cfg topology tick start.reading.refreshIpv6Neighbors st.rt)]
  | _, _, _ => []

def opsOf (rt : MonitorRuntime) : Session.Op → List Op
  | .collect cfg topology tick => collectOps cfg topology tick rt
  | .remove key => [.remove key]
  | .hostname _ _ _ _ => []

/-- ECM is enabled. -/
def Enabled : Session.Op → Prop
  | .collect cfg _ _ => cfg.enableEcm = true
  | _ => True

theorem neighborOwnership_step (rt : MonitorRuntime) {op : Session.Op} (h : Enabled op) :
    (Session.step rt op).2.neighborOwnership = (opsOf rt op).foldl step rt.neighborOwnership := by
  cases op with
  | remove key => rfl
  | hostname key name snapshotDevice nowMs =>
    show (Session.updateHostname rt key name snapshotDevice nowMs).neighborOwnership = _
    unfold Session.updateHostname
    split <;> rfl
  | collect cfg topology tick =>
    show (collectSnapshot cfg topology tick rt).2.neighborOwnership =
      (collectOps cfg topology tick rt).foldl step rt.neighborOwnership
    unfold collectSnapshot collectOps
    cases tick.ifaceEntries with
    | none => rfl
    | some ie =>
      cases tick.deviceEntries with
      | none => rfl
      | some de =>
        cases tick.insertFailuresRead with
        | false => rfl
        | true =>
          dsimp only
          rw [neighborOwnership_interfaceRows]
          refine (neighborOwnership_observe h topology tick _ _).trans ?_
          rw [neighborOwnership_interfaceLoop, neighborOwnership_startTick h]
          rfl

/-- What a run does to the owners. -/
def runOps : MonitorRuntime → List Session.Op → List Op
  | _, [] => []
  | rt, op :: ops => opsOf rt op ++ runOps (Session.step rt op).2 ops

theorem neighborOwnership_foldl {ops : List Session.Op} (h : ∀ op ∈ ops, Enabled op)
    (rt : MonitorRuntime) : (Session.run rt ops).2.neighborOwnership =
      (runOps rt ops).foldl step rt.neighborOwnership := by
  induction ops generalizing rt with
  | nil => rfl
  | cons op ops ih =>
    obtain ⟨hop, hops⟩ := List.forall_mem_cons.mp h
    unfold runOps
    rw [List.foldl_append, ← neighborOwnership_step rt hop]
    exact ih hops _

/-- **The owners after a run of the collector.** -/
theorem neighborOwnership_run {ops : List Session.Op} (h : ∀ op ∈ ops, Enabled op) (o : IterOrder)
    (topology : TopologySnapshot) (state : Option Session.MonitorRuntimeState)
    (cumulativeIface : HashMap UInt32 CounterQuad) (cumulativeDevice : HashMap DeviceKey CounterQuad) :
    let rt := Session.startRuntime o topology state cumulativeIface cumulativeDevice
    (Session.run rt ops).2.neighborOwnership = run (runOps rt ops) := by
  intro rt
  have hnone : rt.neighborOwnership = ∅ := by
    show (Session.startRuntime o topology state cumulativeIface cumulativeDevice).neighborOwnership = ∅
    unfold Session.startRuntime
    cases state <;> rfl
  unfold run
  rw [neighborOwnership_foldl h, hnone]

end BandixPlus.Monitor.Ownership
