import BandixPlus.Api.Usage
import BandixPlus.Lib.Ranking
import Mathlib.Data.String.Basic

/-! # The ranking of the devices by their usage

`api.rs`, the handler of `/api/usage_ranking`: the devices of the registry, or those of one interface, with
the bytes of their days in the range, sorted by the bytes and cut to a length.

* `usageItem_spec`: the item of a device has the bytes of its hours.
* `usage_ranking_exact`: every device with bytes in the range is in the ranking once, or as many as are asked
  for have at least its bytes. -/

namespace BandixPlus.Api.Ranking

open BandixPlus.Api.Aggregate BandixPlus.Api.Usage BandixPlus.Common BandixPlus.Lib.LocalTime
open BandixPlus.Lib.Maps BandixPlus.Lib.Ranking BandixPlus.Lib.Saturating
open BandixPlus.Monitor.Counters BandixPlus.Monitor.Histogram BandixPlus.Monitor.Query
open BandixPlus.Monitor.Runtime BandixPlus.Monitor.Snapshot BandixPlus.Monitor.Topology
open BandixPlus.Monitor.Windows BandixPlus.Net.Text

/-! ### The handler -/

structure UsageRankingQuery where
  iface : Option String
  trafficType : Option String
  startMs : Option UInt64
  endMs : Option UInt64
  /-- 0 stands for no limit. -/
  limit : Option ℕ

def badRequest : UInt16 := 400

section
variable (o : IterOrder) (z : Zone) (topology : TopologySnapshot) (snapshot : SnapshotData)
  (registry : HashMap DeviceKey KnownDevice) (histogram : HistogramHistory) (nowMs laterMs : UInt64)
  (q : UsageRankingQuery)

/-- A range ends now and begins a year ago, if it is not given; the clock is read twice. -/
def UsageRankingQuery.range : UInt64 × UInt64 :=
  (q.startMs.getD (laterMs - 365 * 24 * 3600 * 1000), q.endMs.getD nowMs)

/-- The response of `/api/usage_ranking`; `none` is a panic. -/
def rankingResponse : Option (Except UInt16 (List UsageRankingItem)) :=
  match q.iface.filter fun s => trim s ≠ "" with
  | none => some (.error badRequest)
  | some iface =>
    let startMs := (q.range nowMs laterMs).1
    let endMs := (q.range nowMs laterMs).2
    if endMs < startMs then some (.error badRequest)
    else
      let answer := fun ifindex => (usageRanking o z histogram startMs endMs registry ifindex
        (parseTrafficType q.trafficType) q.limit).map .ok
      if iface = "all" then answer none
      else
        match resolveQueryIfaceToIfindex o topology snapshot (some iface) with
        | .error _ => some (.error badRequest)
        | .ok ifindex => answer (some ifindex)

/-- **The request is answered**, with the devices of this interface or of all. -/
structure Accepted (ifindex : Option UInt32) : Prop where
  iface : ∃ name, q.iface = some name ∧ trim name ≠ "" ∧
    if name = "all" then ifindex = none
    else ∃ i, resolveQueryIfaceToIfindex o topology snapshot (some name) = .ok i ∧ ifindex = some i
  range : (q.range nowMs laterMs).1 ≤ (q.range nowMs laterMs).2

end

/-! ### What is ranked -/

/-- An entry of the registry. -/
abbrev Registered := Σ _ : DeviceKey, KnownDevice

/-- The device is known, and one of those that are asked for. -/
def Asked (registry : HashMap DeviceKey KnownDevice) (ifindex : Option UInt32) (e : Registered) : Prop :=
  registry.lookup e.1 = some e.2 ∧ ∀ i, ifindex = some i → e.1.1 = i

section
variable (o : IterOrder) (z : Zone) (histogram : HistogramHistory) (startMs endMs : UInt64)
  (tt : HistoryTrafficType)

/-- The stored hours of a device that overlap the range. -/
def hoursOf (key : DeviceKey) : List AggregatedBucket :=
  rangeOf o histogram key.1 (some (macToString key.2)) startMs endMs

/-- The bytes of one kind, if its family is asked for. -/
def kept (l : Lane) (hours : List AggregatedBucket) : ℕ := if keeps tt l then total l hours else 0

def upTotal (hours : List AggregatedBucket) : ℕ := kept tt .upV4 hours + kept tt .upV6 hours

def downTotal (hours : List AggregatedBucket) : ℕ := kept tt .downV4 hours + kept tt .downV6 hours

def used (hours : List AggregatedBucket) : ℕ := upTotal tt hours + downTotal tt hours

/-- **The item is that of the device**, with the bytes of these hours. -/
structure Shows (hours : List AggregatedBucket) (e : Registered) (item : UsageRankingItem) : Prop where
  iface : item.iface = e.2.logicalIface
  mac : item.mac = macToString e.1.2
  hostname : item.hostname = e.2.hostname
  addresses : item.ipv4 = e.2.ipv4 ∧ item.ipv6 = e.2.ipv6
  up : item.upBytes.toNat = min (upTotal tt hours) (2 ^ 64 - 1)
  down : item.downBytes.toNat = min (downTotal tt hours) (2 ^ 64 - 1)
  total : item.totalBytes.toNat = min (used tt hours) (2 ^ 64 - 1)

/-- More bytes come first; of the same number the lesser MAC address. -/
def Before (bytes : ℕ) (mac : String) (bytes' : ℕ) (mac' : String) : Prop :=
  bytes' < bytes ∨ bytes = bytes' ∧ mac ≤ mac'

/-- **The items are the first of the ranking**, those of `devices` in this order. -/
structure IsRanking (registry : HashMap DeviceKey KnownDevice) (ifindex : Option UInt32)
    (limit : Option ℕ) (devices : List Registered) (items : List UsageRankingItem) : Prop where
  shows : List.Forall₂ (fun e item => Shows tt (hoursOf o histogram startMs endMs e.1) e item) devices items
  asked : ∀ e ∈ devices, Asked registry ifindex e ∧ 0 < used tt (hoursOf o histogram startMs endMs e.1)
  /-- No device occurs twice. -/
  once : (devices.map Sigma.fst).Nodup
  sorted : items.Pairwise fun a b => Before a.totalBytes.toNat a.mac b.totalBytes.toNat b.mac
  /-- Only a limit keeps a device with bytes out, and only behind others. -/
  complete : ∀ e, Asked registry ifindex e → 0 < used tt (hoursOf o histogram startMs endMs e.1) →
    e ∈ devices ∨ ∃ n, limit = some n ∧ 0 < n ∧ items.length = n ∧ ∀ item ∈ items,
      Before item.totalBytes.toNat item.mac
        (min (used tt (hoursOf o histogram startMs endMs e.1)) (2 ^ 64 - 1)) (macToString e.1.2)
  length : ∀ n, limit = some n → 0 < n → items.length ≤ n

end

/-! ### Items -/

section
variable {o : IterOrder} {z : Zone} {histogram : HistogramHistory} {startMs endMs : UInt64}
  {tt : HistoryTrafficType}

theorem usageItem_eq_none {e : Registered} : usageItem o z histogram startMs endMs tt e = none ↔
    ¬ DaysExist z (hoursOf o histogram startMs endMs e.1) := by
  unfold usageItem
  rw [Option.map_eq_none_iff]
  constructor
  · intro h hdays
    obtain ⟨days, hmerged⟩ := queryDaily_isSome hdays
    unfold queryAggregate at h
    simp only [hmerged, Option.map_some] at h
    cases h
  · intro h
    cases hquery : queryAggregate o z histogram e.1.1 (some (macToString e.1.2)) startMs endMs .daily with
    | none => rfl
    | some days => exact absurd (daysExist_of_daily hquery) h

theorem min_add_congr {a a' b b' m : ℕ} (ha : min a m = min a' m) (hb : min b m = min b' m) :
    min (a + b) m = min (a' + b') m := by omega

/-- The bytes of the days are those of the hours. -/
theorem toNat_usageBytes_daily (tt : HistoryTrafficType) {key : DeviceKey} {days : List AggregatedBucket}
    (h : queryAggregate o z histogram key.1 (some (macToString key.2)) startMs endMs .daily = some days) :
    (usageBytes tt days).1.toNat = min (upTotal tt (hoursOf o histogram startMs endMs key)) (2 ^ 64 - 1) ∧
      (usageBytes tt days).2.toNat =
        min (downTotal tt (hoursOf o histogram startMs endMs key)) (2 ^ 64 - 1) := by
  unfold queryAggregate at h
  dsimp only at h
  obtain ⟨merged, hmerged, hdays⟩ := Option.map_eq_some_iff.mp h
  have hlane : ∀ l, min (Usage.total l (days.map (withTrafficType tt))) (2 ^ 64 - 1) =
      min (kept tt l (hoursOf o histogram startMs endMs key)) (2 ^ 64 - 1) := by
    intro l
    have hhours := min_total_days hmerged l
    rw [total_hourlyBuckets] at hhours
    rw [total_withTrafficType, ← hdays, total_finalize]
    unfold kept hoursOf
    split_ifs
    · exact hhours
    · rfl
  obtain ⟨hup, hdown⟩ := toNat_usageBytes tt days
  exact ⟨hup.trans (min_add_congr (hlane .upV4) (hlane .upV6)),
    hdown.trans (min_add_congr (hlane .downV4) (hlane .downV6))⟩

/-- **The item of a device.** -/
theorem usageItem_spec {e : Registered} {found : Option UsageRankingItem}
    (h : usageItem o z histogram startMs endMs tt e = some found) :
    (found = none → used tt (hoursOf o histogram startMs endMs e.1) = 0) ∧
      ∀ item, found = some item → 0 < used tt (hoursOf o histogram startMs endMs e.1) ∧
        Shows tt (hoursOf o histogram startMs endMs e.1) e item := by
  obtain ⟨days, hdays, rfl⟩ := Option.map_eq_some_iff.mp h
  obtain ⟨hup, hdown⟩ := toNat_usageBytes_daily tt hdays
  have hcut : ∀ a : ℕ, min (min a (2 ^ 64 - 1)) (2 ^ 64 - 1) = min a (2 ^ 64 - 1) := fun a => by
    rw [min_assoc, min_self]
  have hused : (satAdd (usageBytes tt days).1 (usageBytes tt days).2).toNat =
      min (used tt (hoursOf o histogram startMs endMs e.1)) (2 ^ 64 - 1) := by
    rw [toNat_satAdd, hup, hdown]
    exact min_add_congr (hcut _) (hcut _)
  unfold rankingItem
  dsimp only
  split_ifs with hzero
  · rw [hzero, UInt64.toNat_zero] at hused
    exact ⟨fun _ => by omega, (by rintro _ ⟨⟩)⟩
  · have hne : (satAdd (usageBytes tt days).1 (usageBytes tt days).2).toNat ≠ 0 :=
      fun heq => hzero (UInt64.toNat_inj.mp heq)
    refine ⟨(by rintro ⟨⟩), ?_⟩
    rintro _ ⟨⟩
    exact ⟨by omega, rfl, rfl, rfl, ⟨rfl, rfl⟩, hup, hdown, hused⟩

end

/-! ### The order -/

theorem rankingLe_iff {a b : UsageRankingItem} : rankingLe a b = true ↔
    Before a.totalBytes.toNat a.mac b.totalBytes.toNat b.mac := by
  unfold rankingLe Before
  rw [Bool.or_eq_true, Bool.and_eq_true, decide_eq_true_iff, decide_eq_true_iff, decide_eq_true_iff,
    UInt64.lt_iff_toNat_lt, UInt64.toNat_inj]

theorem Before.trans {a b c : ℕ} {s t u : String} (h : Before a s b t) (h' : Before b t c u) :
    Before a s c u := by
  rcases h with h | ⟨h, hmac⟩
  · rcases h' with h' | ⟨h', -⟩
    · exact Or.inl (h'.trans h)
    · exact Or.inl (h' ▸ h)
  · rcases h' with h' | ⟨h', hmac'⟩
    · exact Or.inl (h ▸ h')
    · exact Or.inr ⟨h.trans h', hmac.trans hmac'⟩

theorem rankingLe_trans (a b c : UsageRankingItem) (hab : rankingLe a b = true)
    (hbc : rankingLe b c = true) : rankingLe a c = true :=
  rankingLe_iff.mpr ((rankingLe_iff.mp hab).trans (rankingLe_iff.mp hbc))

theorem rankingLe_total (a b : UsageRankingItem) : (rankingLe a b || rankingLe b a) = true := by
  rw [Bool.or_eq_true, rankingLe_iff, rankingLe_iff]
  rcases Nat.lt_trichotomy a.totalBytes.toNat b.totalBytes.toNat with h | h | h
  · exact Or.inr (Or.inl h)
  · rcases le_total a.mac b.mac with hmac | hmac
    · exact Or.inl (Or.inr ⟨h, hmac⟩)
    · exact Or.inr (Or.inr ⟨h.symm, hmac⟩)
  · exact Or.inl (Or.inl h)

/-! ### The devices -/

section
variable {o : IterOrder} {registry : HashMap DeviceKey KnownDevice} {ifindex : Option UInt32}

theorem mem_entries {e : Registered} :
    e ∈ (o.order registry.entries).filter (fun e => ifindex.all (· = e.1.1)) ↔ Asked registry ifindex e := by
  rw [List.mem_filter, mem_order_iff]
  cases ifindex <;> simp [Asked, eq_comm]

theorem nodup_entries : (((o.order registry.entries).filter fun e => ifindex.all (· = e.1.1)).map
    Sigma.fst).Nodup :=
  (nodup_order_keys o registry).sublist (List.filter_sublist.map _)

end

section
variable (o : IterOrder) (z : Zone) (histogram : HistogramHistory) (startMs endMs : UInt64)
  (registry : HashMap DeviceKey KnownDevice) (ifindex : Option UInt32) (tt : HistoryTrafficType)

/-- All items, each with its device, in the order of the ranking. -/
def ranked : List (UsageRankingItem × Registered) :=
  ranking (Option.join ∘ usageItem o z histogram startMs endMs tt) rankingLe
    ((o.order registry.entries).filter fun e => ifindex.all (· = e.1.1))

/-- The number of items that are kept. -/
def keptItems (limit : Option ℕ) : ℕ :=
  (limit.filter (0 < ·)).getD (ranked o z histogram startMs endMs registry ifindex tt).length

/-- Those that are kept. -/
def top (limit : Option ℕ) : List (UsageRankingItem × Registered) :=
  (ranked o z histogram startMs endMs registry ifindex tt).take
    (keptItems o z histogram startMs endMs registry ifindex tt limit)

variable {o z histogram startMs endMs registry ifindex tt} {limit : Option ℕ}

theorem usageRanking_eq_none : usageRanking o z histogram startMs endMs registry ifindex tt limit = none ↔
    ∃ e, Asked registry ifindex e ∧ ¬ DaysExist z (hoursOf o histogram startMs endMs e.1) := by
  unfold usageRanking
  dsimp only
  rw [Option.map_eq_none_iff, mapM_eq_none]
  exact exists_congr fun e => and_congr mem_entries usageItem_eq_none

/-- The answer is the head of the ranking. -/
theorem usageRanking_eq_some {items : List UsageRankingItem}
    (h : usageRanking o z histogram startMs endMs registry ifindex tt limit = some items) :
    items = (top o z histogram startMs endMs registry ifindex tt limit).map Prod.fst := by
  obtain ⟨found, hfound, hcut⟩ := Option.map_eq_some_iff.mp h
  have hmap := congrArg (List.map Option.join) (mapM_eq_some.mp hfound)
  rw [List.map_map, List.map_map] at hmap
  have hall : found.filterMap id =
      ((o.order registry.entries).filter fun e => ifindex.all (· = e.1.1)).filterMap
        (Option.join ∘ usageItem o z histogram startMs endMs tt) := by
    have hjoin : found.map (Option.join ∘ some) = found := List.map_id found
    rw [← hjoin, ← hmap, List.filterMap_map, Function.id_comp]
  have hsorted : (found.filterMap id).mergeSort rankingLe =
      (ranked o z histogram startMs endMs registry ifindex tt).map Prod.fst := by
    unfold ranked
    rw [map_fst_ranking, hall]
  dsimp only at hcut
  rw [hsorted] at hcut
  unfold top keptItems
  rw [List.map_take, ← hcut]
  cases limit.filter (0 < ·) with
  | some n => rfl
  | none => exact (List.take_of_length_le (List.length_map _).le).symm

/-- Each device has its item. -/
theorem shows_ranked {p : UsageRankingItem × Registered}
    (h : p ∈ ranked o z histogram startMs endMs registry ifindex tt) :
    Asked registry ifindex p.2 ∧ 0 < used tt (hoursOf o histogram startMs endMs p.2.1) ∧
      Shows tt (hoursOf o histogram startMs endMs p.2.1) p.2 p.1 := by
  unfold ranked at h
  rw [mem_ranking, Function.comp_apply, Option.join_eq_some_iff, mem_entries] at h
  obtain ⟨hasked, hitem⟩ := h
  exact ⟨hasked, (usageItem_spec hitem).2 p.1 rfl⟩

/-- Each device with bytes is ranked, unless there is a panic. -/
theorem exists_ranked {items : List UsageRankingItem}
    (h : usageRanking o z histogram startMs endMs registry ifindex tt limit = some items) {e : Registered}
    (hasked : Asked registry ifindex e) (hused : 0 < used tt (hoursOf o histogram startMs endMs e.1)) :
    ∃ item, (item, e) ∈ ranked o z histogram startMs endMs registry ifindex tt := by
  cases hitem : usageItem o z histogram startMs endMs tt e with
  | none =>
    rw [usageRanking_eq_none.mpr ⟨e, hasked, usageItem_eq_none.mp hitem⟩] at h
    cases h
  | some found =>
    cases found with
    | none => exact absurd ((usageItem_spec hitem).1 rfl) hused.ne'
    | some item =>
      refine ⟨item, ?_⟩
      unfold ranked
      rw [mem_ranking, Function.comp_apply, Option.join_eq_some_iff, mem_entries]
      exact ⟨hasked, hitem⟩

/-- Only a limit cuts items off. -/
theorem keptItems_of_lt (h : keptItems o z histogram startMs endMs registry ifindex tt limit <
    (ranked o z histogram startMs endMs registry ifindex tt).length) :
    limit = some (keptItems o z histogram startMs endMs registry ifindex tt limit) ∧
      0 < keptItems o z histogram startMs endMs registry ifindex tt limit := by
  unfold keptItems at h ⊢
  cases hlimit : limit.filter (0 < ·) with
  | none =>
    rw [hlimit, Option.getD_none] at h
    exact absurd h (lt_irrefl _)
  | some n =>
    obtain ⟨hn, hpos⟩ := Option.filter_eq_some_iff.mp hlimit
    exact ⟨hn, of_decide_eq_true hpos⟩

theorem keptItems_of_limit {n : ℕ} (hpos : 0 < n) :
    keptItems o z histogram startMs endMs registry ifindex tt (some n) = n := by
  have hfilter : (some n).filter (0 < ·) = some n := Option.filter_some_pos (decide_eq_true hpos)
  unfold keptItems
  rw [hfilter, Option.getD_some]

theorem sublist_top : (top o z histogram startMs endMs registry ifindex tt limit).Sublist
    (ranked o z histogram startMs endMs registry ifindex tt) := List.take_sublist _ _

/-- **The head of the ranking is one**, if there is no panic. -/
theorem isRanking_top {items : List UsageRankingItem}
    (h : usageRanking o z histogram startMs endMs registry ifindex tt limit = some items) :
    IsRanking o histogram startMs endMs tt registry ifindex limit
      ((top o z histogram startMs endMs registry ifindex tt limit).map Prod.snd)
      ((top o z histogram startMs endMs registry ifindex tt limit).map Prod.fst) where
  shows := by
    rw [List.forall₂_map_left_iff, List.forall₂_map_right_iff, List.forall₂_same]
    exact fun p hp => (shows_ranked (sublist_top.subset hp)).2.2
  asked := by
    intro e he
    obtain ⟨p, hp, rfl⟩ := List.mem_map.mp he
    obtain ⟨hasked, hused, -⟩ := shows_ranked (sublist_top.subset hp)
    exact ⟨hasked, hused⟩
  once := by
    rw [List.map_map]
    exact (nodup_ranking nodup_entries).sublist (sublist_top.map _)
  sorted := by
    have hsorted : (ranked o z histogram startMs endMs registry ifindex tt).Pairwise fun p q =>
        rankingLe p.1 q.1 = true := pairwise_ranking rankingLe_trans rankingLe_total
    refine List.pairwise_map.mpr ((hsorted.sublist sublist_top).imp ?_)
    exact fun hle => rankingLe_iff.mp hle
  complete := by
    intro e hasked hused
    obtain ⟨item, hmem⟩ := exists_ranked h hasked hused
    rcases mem_take_or rankingLe_trans rankingLe_total
      (keptItems o z histogram startMs endMs registry ifindex tt limit) hmem with htop | ⟨hkept, hbehind⟩
    · exact Or.inl (List.mem_map.mpr ⟨_, htop, rfl⟩)
    · obtain ⟨hlimit, hpos⟩ := keptItems_of_lt hkept
      refine Or.inr ⟨_, hlimit, hpos, ?_, fun other hother => ?_⟩
      · rw [List.length_map]
        exact List.length_take_of_le hkept.le
      · obtain ⟨q, hq, rfl⟩ := List.mem_map.mp hother
        obtain ⟨-, -, hshows⟩ := shows_ranked hmem
        rw [← hshows.total, ← hshows.mac]
        exact rankingLe_iff.mp (hbehind q hq)
  length := by
    rintro n rfl hpos
    rw [List.length_map]
    unfold top
    rw [keptItems_of_limit hpos]
    exact List.length_take_le _ _

end

/-! ### Requests -/

section
variable {o : IterOrder} {z : Zone} {topology : TopologySnapshot} {snapshot : SnapshotData}
  {registry : HashMap DeviceKey KnownDevice} {histogram : HistogramHistory} {nowMs laterMs : UInt64}
  {q : UsageRankingQuery}

/-- A request is answered for one interface or for all. -/
theorem Accepted.unique {ifindex ifindex' : Option UInt32}
    (h : Accepted o topology snapshot nowMs laterMs q ifindex)
    (h' : Accepted o topology snapshot nowMs laterMs q ifindex') : ifindex = ifindex' := by
  obtain ⟨name, hname, -, hfound⟩ := h.iface
  obtain ⟨name', hname', -, hfound'⟩ := h'.iface
  obtain rfl : name = name' := Option.some.inj (hname.symm.trans hname')
  split_ifs at hfound hfound' with hall
  · exact hfound.trans hfound'.symm
  · obtain ⟨i, hi, rfl⟩ := hfound
    obtain ⟨i', hi', rfl⟩ := hfound'
    rw [Except.ok.inj (hi.symm.trans hi')]

/-- **A request is answered with a ranking or refused.** -/
theorem rankingResponse_cases :
    (∃ ifindex, Accepted o topology snapshot nowMs laterMs q ifindex ∧
      rankingResponse o z topology snapshot registry histogram nowMs laterMs q =
        (usageRanking o z histogram (q.range nowMs laterMs).1 (q.range nowMs laterMs).2 registry ifindex
          (parseTrafficType q.trafficType) q.limit).map .ok) ∨
    (∀ ifindex, ¬ Accepted o topology snapshot nowMs laterMs q ifindex) ∧
      rankingResponse o z topology snapshot registry histogram nowMs laterMs q =
        some (.error badRequest) := by
  unfold rankingResponse
  cases hname : q.iface.filter fun s => trim s ≠ "" with
  | none =>
    refine Or.inr ⟨fun ifindex h => ?_, rfl⟩
    obtain ⟨name, hiface, hne, -⟩ := h.iface
    have hsome : (some name).filter (fun s => trim s ≠ "") = some name :=
      Option.filter_some_pos (decide_eq_true hne)
    rw [hiface, hsome] at hname
    cases hname
  | some name =>
    obtain ⟨hiface, hne⟩ := Option.filter_eq_some_iff.mp hname
    have hne := of_decide_eq_true hne
    have hfound : ∀ {ifindex}, Accepted o topology snapshot nowMs laterMs q ifindex →
        if name = "all" then ifindex = none
        else ∃ i, resolveQueryIfaceToIfindex o topology snapshot (some name) = .ok i ∧ ifindex = some i := by
      intro ifindex h
      obtain ⟨name', hiface', -, hfound⟩ := h.iface
      rw [Option.some.inj (hiface.symm.trans hiface')]
      exact hfound
    dsimp only
    split_ifs with hrange hall
    · exact Or.inr ⟨fun ifindex h => absurd h.range (UInt64.not_le.mpr hrange), rfl⟩
    · refine Or.inl ⟨none, ⟨⟨name, hiface, hne, ?_⟩, UInt64.not_lt.mp hrange⟩, rfl⟩
      rw [if_pos hall]
    · cases hresolve : resolveQueryIfaceToIfindex o topology snapshot (some name) with
      | error e =>
        refine Or.inr ⟨fun ifindex h => ?_, rfl⟩
        have hfound := hfound h
        rw [if_neg hall, hresolve] at hfound
        obtain ⟨i, hi, -⟩ := hfound
        cases hi
      | ok i =>
        refine Or.inl ⟨some i, ⟨⟨name, hiface, hne, ?_⟩, UInt64.not_lt.mp hrange⟩, rfl⟩
        rw [if_neg hall]
        exact ⟨i, hresolve, rfl⟩

end

end BandixPlus.Api.Ranking
