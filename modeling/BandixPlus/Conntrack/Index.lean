import BandixPlus.Conntrack.State
import BandixPlus.Lib.Run

/-! # Connection tracking: when the id index is exact

The index is exact when `flowIds` maps `id` to `k` just if `flows` holds under `k` a flow with that
id. It is not exact in every run: a tuple that reappears under a new id leaves its old id indexed,
and an insertion into a full table indexes a flow that it then drops.

* `exact_insertFlow_iff`, `exact_removeFlow_iff`: an event keeps the index exact if and only if it
  meets the condition `Admits` (`Removes`) in the state before it.
* `index_exact_of_meets`: in a run whose operations all meet their condition the index is exact in
  every state, and an event about one id changes nothing recorded under another.
* `index_not_exact`: two insertions of one tuple under different ids. -/

namespace BandixPlus.Conntrack.Index

open BandixPlus.Lib.Maps BandixPlus.Lib.Run BandixPlus.Net.Addresses BandixPlus.Conntrack.State

/-- **The index is exact.** -/
def IndexExact (s : ConntrackState) : Prop :=
  ∀ id k, s.flowIds.lookup id = some k ↔ ∃ f, s.flows.lookup k = some f ∧ f.id = some id

/-- The invariant of a run whose flows carry ids: the index is exact, every flow has an id, and the
table is not over its limit. -/
structure Indexed (s : ConntrackState) : Prop where
  exact : IndexExact s
  ids : ∀ k f, s.flows.lookup k = some f → ∃ id, f.id = some id
  bounded : len s.flows ≤ maxTrackedFlows

/-- The condition on an insertion: the table holds the tuple under no other id, and has room for it
or already indexes its id. -/
structure Admits (s : ConntrackState) (p : ParsedFlow) : Prop where
  sameId : ∀ f, s.flows.lookup p.key = some f → f.id = p.flow.id
  room : len s.flows < maxTrackedFlows ∨ ∃ id, p.flow.id = some id ∧ id ∈ s.flowIds

/-- The condition on a removal: the id is indexed, or the tuple is not in the table. -/
def Removes (s : ConntrackState) (p : ParsedFlow) : Prop :=
  (∃ id, p.flow.id = some id ∧ id ∈ s.flowIds) ∨ p.key ∉ s.flows

/-! ### What one insertion does -/

section Insert
variable {s : ConntrackState} {p : ParsedFlow} {id : UInt32} (hid : p.flow.id = some id)
include hid

theorem indexFlow_flowIds : (indexFlow s p).flowIds = s.flowIds.insert id p.key := by
  simp only [indexFlow, hid]
  split <;> rfl

theorem indexFlow_lookup (k : FlowKey) :
    (indexFlow s p).flows.lookup k =
      if s.flowIds.lookup id = some k then none else s.flows.lookup k := by
  simp only [indexFlow, hid]
  split
  · next old hold =>
    rw [lookup_erase_eq, hold]
    simp only [Option.some.injEq, eq_comm]
  · next hnone => rw [hnone, if_neg (by simp)]

/-- Under an exact index the flow the id named is in the table, so there is room once it is gone. -/
theorem indexFlow_len (hs : Indexed s) (ha : Admits s p) :
    len (indexFlow s p).flows < maxTrackedFlows := by
  have hb := hs.bounded
  cases hl : s.flowIds.lookup id with
  | none =>
    have hroom : len s.flows < maxTrackedFlows := by
      rcases ha.room with h | ⟨id', hid', hmem⟩
      · exact h
      · obtain ⟨k, hk⟩ := mem_iff_lookup.mp hmem
        rw [hid, Option.some.injEq] at hid'
        rw [← hid', hl] at hk
        cases hk
    simpa only [indexFlow, hid, hl] using hroom
  | some old =>
    obtain ⟨f, hf, -⟩ := (hs.exact id old).mp hl
    have hmem : old ∈ s.flows := mem_iff_lookup.mpr ⟨f, hf⟩
    have hpos : 0 < len s.flows := by
      rw [len_eq_keys]; exact List.length_pos_of_mem (AList.mem_keys.mp hmem)
    simp only [indexFlow, hid, hl]
    rw [len_erase, if_pos hmem]
    omega

/-- An admitted flow is stored. -/
theorem insertFlow_of_admits (hs : Indexed s) (ha : Admits s p) :
    insertFlow s p =
      { indexFlow s p with flows := (indexFlow s p).flows.insert p.key p.flow } := by
  have hlen := indexFlow_len hid hs ha
  simp only [insertFlow]
  rw [if_neg (by omega)]

theorem insertFlow_flowIds : (insertFlow s p).flowIds = s.flowIds.insert id p.key := by
  rw [← indexFlow_flowIds hid]
  simp only [insertFlow]
  split_ifs <;> rfl

/-- **Insertion keeps the invariant** when its condition holds. -/
theorem indexed_insertFlow (hs : Indexed s) (ha : Admits s p) : Indexed (insertFlow s p) := by
  have hlookup : ∀ k, (insertFlow s p).flows.lookup k = if k = p.key then some p.flow else
      if s.flowIds.lookup id = some k then none else s.flows.lookup k := fun k => by
    rw [insertFlow_of_admits hid hs ha, lookup_insert_eq, indexFlow_lookup hid]
  refine ⟨fun i k => ?_, fun k f hf => ?_, ?_⟩
  · rw [insertFlow_flowIds hid, lookup_insert_eq, hlookup]
    have hik := hs.exact i k
    by_cases hi : i = id
    · subst hi
      rw [if_pos rfl]
      by_cases hk : k = p.key
      · simp [hk, hid]
      · rw [if_neg hk]
        split_ifs with hold
        · simp [Ne.symm hk]
        · rw [hik] at hold
          simp only [Option.some.injEq, Ne.symm hk, hold]
    · rw [if_neg hi]
      by_cases hk : k = p.key
      · subst hk
        rw [if_pos rfl, hik]
        constructor
        · rintro ⟨f, hf, hfi⟩
          have := ha.sameId f hf
          rw [hfi, hid] at this
          exact absurd (Option.some.inj this) hi
        · rintro ⟨f, hf, hfi⟩
          rw [← Option.some.inj hf, hid] at hfi
          exact absurd (Option.some.inj hfi).symm hi
      · rw [if_neg hk]
        split_ifs with hold
        · obtain ⟨f, hf, hfi⟩ := (hs.exact id k).mp hold
          rw [hik]
          constructor
          · rintro ⟨f', hf', hfi'⟩
            rw [hf, Option.some.injEq] at hf'
            rw [← hf', hfi] at hfi'
            exact absurd (Option.some.inj hfi').symm hi
          · rintro ⟨f', hf', -⟩; cases hf'
        · exact hik
  · rw [hlookup] at hf
    split_ifs at hf
    · rw [← Option.some.inj hf]; exact ⟨id, hid⟩
    · exact hs.ids k f hf
  · have hlen := indexFlow_len hid hs ha
    rw [insertFlow_of_admits hid hs ha, len_insert]
    split_ifs <;> omega

/-- **The condition is exact**: an insertion keeps an exact index exact just when it meets it. -/
theorem exact_insertFlow_iff (hs : Indexed s) : IndexExact (insertFlow s p) ↔ Admits s p := by
  refine ⟨fun h => ?_, fun ha => (indexed_insertFlow hid hs ha).exact⟩
  have hflows : ∀ k, (insertFlow s p).flows.lookup k = (indexFlow s p).flows.lookup k ∨
      (k = p.key ∧ (insertFlow s p).flows.lookup k = some p.flow) := fun k => by
    simp only [insertFlow]
    split_ifs
    · exact Or.inl rfl
    · simp only [lookup_insert_eq]
      split_ifs with hk
      · exact Or.inr ⟨hk, rfl⟩
      · exact Or.inl rfl
  have hsame : ∀ f, s.flows.lookup p.key = some f → f.id = p.flow.id := fun f hf => by
    obtain ⟨i, hi⟩ := hs.ids _ _ hf
    by_contra hne
    have hii : i ≠ id := fun he => hne (by rw [hi, hid, he])
    have hidx : (insertFlow s p).flowIds.lookup i = some p.key := by
      rw [insertFlow_flowIds hid, lookup_insert_eq, if_neg hii]
      exact (hs.exact i p.key).mpr ⟨f, hf, hi⟩
    obtain ⟨g, hg, hgi⟩ := (h i p.key).mp hidx
    rcases hflows p.key with he | ⟨-, he⟩
    · have hkey : p.key ∈ (indexFlow s p).flows := mem_iff_lookup.mpr ⟨g, he ▸ hg⟩
      simp only [insertFlow, if_neg fun hc : _ ∧ p.key ∉ _ => hc.2 hkey, lookup_insert_eq,
        if_true] at hg
      rw [← Option.some.inj hg, hid] at hgi
      exact hii (Option.some.inj hgi).symm
    · rw [he] at hg
      rw [← Option.some.inj hg, hid] at hgi
      exact hii (Option.some.inj hgi).symm
  refine ⟨hsame, ?_⟩
  by_contra hn
  simp only [not_or, not_exists, not_and, not_lt] at hn
  have hnid : s.flowIds.lookup id = none := AList.lookup_eq_none.mpr (hn.2 id hid)
  have hkey : s.flows.lookup p.key = none := by
    cases hf : s.flows.lookup p.key with
    | none => rfl
    | some f =>
      have := (hs.exact id p.key).mpr ⟨f, hf, by rw [hsame f hf, hid]⟩
      rw [hnid] at this; cases this
  have hindex : (indexFlow s p).flows = s.flows := by simp only [indexFlow, hid, hnid]
  have hdrop : (insertFlow s p).flows = s.flows := by
    simp only [insertFlow, hindex]
    rw [if_pos ⟨hn.1, AList.lookup_eq_none.mp hkey⟩, hindex]
  obtain ⟨f, hf, -⟩ := (h id p.key).mp (by
    rw [insertFlow_flowIds hid, lookup_insert_eq, if_pos rfl])
  rw [hdrop, hkey] at hf
  cases hf

end Insert

/-! ### What one removal does -/

section Remove
variable {s : ConntrackState} {p : ParsedFlow} {id : UInt32} (hid : p.flow.id = some id)
include hid

/-- Removal by an indexed id takes the id and the flow it names, and nothing else. -/
theorem removeFlow_of_indexed {key : FlowKey} (hkey : s.flowIds.lookup id = some key) :
    removeFlow s p =
      { s with flowIds := s.flowIds.erase id, flows := s.flows.erase key } := by
  simp only [removeFlow, hid, hkey]

/-- Removal by an id that is not indexed goes by the tuple. -/
theorem removeFlow_of_not_indexed (hkey : s.flowIds.lookup id = none) :
    removeFlow s p = { s with flows := s.flows.erase p.key } := by
  simp only [removeFlow, hid, hkey]

theorem notMem_of_removes (hkey : s.flowIds.lookup id = none) (hr : Removes s p) :
    p.key ∉ s.flows := by
  rcases hr with ⟨id', hid', hmem⟩ | h
  · rw [hid, Option.some.injEq] at hid'
    exact absurd hkey (by rw [hid', AList.lookup_eq_none]; exact not_not.mpr hmem)
  · exact h

/-- **Removal keeps the invariant** when its condition holds. -/
theorem indexed_removeFlow (hs : Indexed s) (hr : Removes s p) : Indexed (removeFlow s p) := by
  cases hl : s.flowIds.lookup id with
  | none =>
    have habs := notMem_of_removes hid hl hr
    have hlen : len (s.flows.erase p.key) = len s.flows := by rw [len_erase, if_neg habs]
    have hlookup := lookup_erase_of_notMem habs
    rw [removeFlow_of_not_indexed hid hl]
    refine ⟨fun i k => ?_, fun k f hf => ?_, by rw [hlen]; exact hs.bounded⟩
    · simp only [hlookup]; exact hs.exact i k
    · simp only [hlookup] at hf; exact hs.ids k f hf
  | some key =>
    obtain ⟨f, hf, hfi⟩ := (hs.exact id key).mp hl
    rw [removeFlow_of_indexed hid hl]
    refine ⟨fun i k => ?_, fun k g hg => ?_, ?_⟩
    · simp only [lookup_erase_eq]
      have hik := hs.exact i k
      by_cases hi : i = id
      · subst hi
        rw [if_pos rfl]
        split_ifs with hk
        · simp
        · rw [← hik, hl]
          simp [Ne.symm hk]
      · rw [if_neg hi]
        split_ifs with hk
        · subst hk
          rw [hik, hf]
          simp [hfi, Ne.symm hi]
        · exact hik
    · simp only [lookup_erase_eq] at hg
      split_ifs at hg
      exact hs.ids k g hg
    · have hb := hs.bounded
      rw [len_erase]
      split_ifs <;> omega

/-- **The condition is exact**: a removal keeps an exact index exact just when it meets it. -/
theorem exact_removeFlow_iff (hs : Indexed s) : IndexExact (removeFlow s p) ↔ Removes s p := by
  refine ⟨fun h => ?_, fun hr => (indexed_removeFlow hid hs hr).exact⟩
  by_contra hn
  simp only [Removes, not_or, not_exists, not_and, not_not] at hn
  have hl : s.flowIds.lookup id = none := AList.lookup_eq_none.mpr (hn.1 id hid)
  obtain ⟨f, hf⟩ := mem_iff_lookup.mp hn.2
  obtain ⟨i, hi⟩ := hs.ids _ f hf
  rw [removeFlow_of_not_indexed hid hl] at h
  obtain ⟨g, hg, -⟩ := (h i p.key).mp ((hs.exact i p.key).mpr ⟨f, hf, hi⟩)
  simp only [lookup_erase_eq, if_true] at hg
  cases hg

end Remove

/-! ### Runs -/

/-- An operation on the table. -/
inductive Op where
  | insert (p : ParsedFlow)
  | remove (p : ParsedFlow)
  | replace (ps : List ParsedFlow)

/-- The flows an operation carries. -/
def Op.parsed : Op → List ParsedFlow
  | .insert p => [p]
  | .remove p => [p]
  | .replace ps => ps

def step (s : ConntrackState) : Op → ConntrackState
  | .insert p => insertFlow s p
  | .remove p => removeFlow s p
  | .replace ps => replaceFlows s ps

/-- Every flow of the operation carries an id. -/
def Op.CarriesIds (op : Op) : Prop := ∀ p ∈ op.parsed, ∃ id, p.flow.id = some id

/-- **The condition on an operation**, in the state before it. A dump inserts its flows one by one
into an empty table, and each of these insertions must meet its own condition. -/
def Meets (s : ConntrackState) : Op → Prop
  | .insert p => Admits s p
  | .remove p => Removes s p
  | .replace ps => Along insertFlow Admits { s with flows := ∅, flowIds := ∅ }
      (ps.take maxTrackedFlows)

theorem indexed_empty (e : Option String) : Indexed ⟨∅, ∅, e⟩ where
  exact id k := by simp
  ids k f hf := by simp at hf
  bounded := Nat.zero_le _

theorem indexed_foldl_insertFlow {s : ConntrackState} {ps : List ParsedFlow} (hs : Indexed s)
    (hid : ∀ p ∈ ps, ∃ id, p.flow.id = some id) (h : Along insertFlow Admits s ps) :
    Indexed (ps.foldl insertFlow s) := by
  induction ps generalizing s with
  | nil => exact hs
  | cons p ps ih =>
    obtain ⟨id, hp⟩ := hid p (by simp)
    exact ih (indexed_insertFlow hp hs h.1) (fun q hq => hid q (by simp [hq])) h.2

/-- **One operation keeps the invariant** when its condition holds. -/
theorem indexed_step (s : ConntrackState) (op : Op) (hs : Indexed s)
    (h : op.CarriesIds ∧ Meets s op) : Indexed (step s op) := by
  obtain ⟨hid, hm⟩ := h
  cases op with
  | insert p =>
    obtain ⟨id, hp⟩ := hid p (by simp [Op.parsed])
    exact indexed_insertFlow hp hs hm
  | remove p =>
    obtain ⟨id, hp⟩ := hid p (by simp [Op.parsed])
    exact indexed_removeFlow hp hs hm
  | replace ps =>
    have hf := indexed_foldl_insertFlow (indexed_empty s.lastError)
      (fun p hp => hid p (List.mem_of_mem_take hp)) hm
    exact ⟨hf.exact, hf.ids, hf.bounded⟩

/-- What the table records under the id `i`, and its index entry. -/
def SameUnder (i : UInt32) (s s' : ConntrackState) : Prop :=
  s'.flowIds.lookup i = s.flowIds.lookup i ∧
    ∀ k f, f.id = some i → (s'.flows.lookup k = some f ↔ s.flows.lookup k = some f)

/-- A flow that an id indexes is recorded under no other. -/
theorem not_recorded_of_indexed {s : ConntrackState} {id i : UInt32} {k : FlowKey} {f : ConnectionFlow}
    (hs : Indexed s) (hk : s.flowIds.lookup id = some k) (hi : i ≠ id) (hf : f.id = some i) :
    s.flows.lookup k ≠ some f := by
  obtain ⟨g, hg, hgi⟩ := (hs.exact id k).mp hk
  intro h
  rw [hg, Option.some.injEq] at h
  rw [← h, hgi] at hf
  exact hi (Option.some.inj hf).symm

/-- An insertion under another id changes nothing recorded under `i`. -/
theorem sameUnder_insertFlow {s : ConntrackState} {p : ParsedFlow} {id i : UInt32}
    (hid : p.flow.id = some id) (hi : i ≠ id) (hs : Indexed s) (ha : Admits s p) :
    SameUnder i s (insertFlow s p) := by
  refine ⟨by rw [insertFlow_flowIds hid, lookup_insert_eq, if_neg hi], fun k f hf => ?_⟩
  rw [insertFlow_of_admits hid hs ha, lookup_insert_eq, indexFlow_lookup hid]
  have hne : f ≠ p.flow := fun he => hi (Option.some.inj (by rw [← hf, he, hid]))
  split_ifs with hk hold
  · subst hk
    constructor
    · rintro h; exact absurd (Option.some.inj h).symm hne
    · intro h
      have := ha.sameId f h
      rw [hf, hid] at this
      exact absurd (Option.some.inj this) hi
  · simp [not_recorded_of_indexed hs hold hi hf]
  · exact Iff.rfl

/-- A removal under another id changes nothing recorded under `i`. -/
theorem sameUnder_removeFlow {s : ConntrackState} {p : ParsedFlow} {id i : UInt32}
    (hid : p.flow.id = some id) (hi : i ≠ id) (hs : Indexed s) (hr : Removes s p) :
    SameUnder i s (removeFlow s p) := by
  cases hl : s.flowIds.lookup id with
  | none =>
    have habs := notMem_of_removes hid hl hr
    rw [removeFlow_of_not_indexed hid hl]
    refine ⟨rfl, fun k f _ => ?_⟩
    rw [lookup_erase_of_notMem habs]
  | some key =>
    rw [removeFlow_of_indexed hid hl]
    refine ⟨by simp only [lookup_erase_eq, if_neg hi], fun k f hf => ?_⟩
    simp only [lookup_erase_eq]
    split_ifs with hk
    · subst hk
      simp [not_recorded_of_indexed hs hl hi hf]
    · exact Iff.rfl

/-- An event about one id changes nothing recorded under another. -/
def EventLocal (s : ConntrackState) : Op → Prop
  | .insert p => ∀ i, p.flow.id ≠ some i → SameUnder i s (insertFlow s p)
  | .remove p => ∀ i, p.flow.id ≠ some i → SameUnder i s (removeFlow s p)
  | .replace _ => True

/-- **The index is exact in every state of a run whose operations all meet their condition**, and
then no event about one id removes or overwrites what another id indexes. -/
theorem index_exact_of_meets (ops : List Op) (hid : ∀ op ∈ ops, op.CarriesIds)
    (h : Along step Meets ConntrackState.default ops) :
    (∀ pre, pre <+: ops → IndexExact (pre.foldl step ConntrackState.default)) ∧
      Along step EventLocal ConntrackState.default ops := by
  have hG : Along step (fun s op => op.CarriesIds ∧ Meets s op) ConntrackState.default ops :=
    along_iff_split.mpr fun pre op post he =>
      ⟨hid op (by simp [he]), along_iff_split.mp h pre op post he⟩
  have h0 : Indexed ConntrackState.default := indexed_empty none
  constructor
  · rintro pre ⟨post, rfl⟩
    exact ((along_append.mp hG).1.invariant indexed_step h0).exact
  · refine hG.imp indexed_step (fun s op hs hop => ?_) h0
    cases op with
    | insert p =>
      intro i hi
      obtain ⟨id, hp⟩ := hop.1 p (by simp [Op.parsed])
      exact sameUnder_insertFlow hp (fun he => hi (by rw [hp, he])) hs hop.2
    | remove p =>
      intro i hi
      obtain ⟨id, hp⟩ := hop.1 p (by simp [Op.parsed])
      exact sameUnder_removeFlow hp (fun he => hi (by rw [hp, he])) hs hop.2
    | replace _ => trivial

/-! ### A run that leaves a stale index -/

/-- A UDP flow `10.0.0.1:1000 → 10.0.0.2:53` with the given id. -/
def sampleFlow (id : UInt32) : ParsedFlow where
  key := ⟨17, ⟨.v4 0x0a000001, .v4 0x0a000002, 1000, 53⟩, ⟨.v4 0x0a000002, .v4 0x0a000001, 53, 1000⟩⟩
  flow := ⟨some id, "udp", none, ⟨"10.0.0.1", "10.0.0.2", 1000, 53⟩,
    ⟨"10.0.0.2", "10.0.0.1", 53, 1000⟩, 1, 60, 1, 60, []⟩

/-- Another client. -/
def otherFlow (id : UInt32) : ParsedFlow where
  key := ⟨17, ⟨.v4 0x0a000003, .v4 0x0a000002, 1000, 53⟩, ⟨.v4 0x0a000002, .v4 0x0a000003, 53, 1000⟩⟩
  flow := ⟨some id, "udp", none, ⟨"10.0.0.3", "10.0.0.2", 1000, 53⟩,
    ⟨"10.0.0.2", "10.0.0.3", 53, 1000⟩, 1, 60, 1, 60, []⟩

/-- The tuple reappears under a new id once it has gone, and a dump lists it. -/
def sampleOps : List Op :=
  [.insert (sampleFlow 1), .insert (otherFlow 5), .remove (sampleFlow 1), .insert (sampleFlow 2),
    .replace [otherFlow 5, sampleFlow 2], .remove (otherFlow 5)]

theorem index_exact_of_meets_sample :
    IndexExact (sampleOps.foldl step ConntrackState.default) := by
  refine (index_exact_of_meets sampleOps ?_ ⟨?_, ?_, ?_, ?_, ?_, ?_, trivial⟩).1 _ (List.prefix_refl _)
  · intro op hop p hp
    have hids : ∀ p ∈ sampleOps.flatMap Op.parsed, ∃ id ∈ [1, 2, 5], p.flow.id = some id := by decide
    obtain ⟨id, -, hid⟩ := hids p (List.mem_flatMap.mpr ⟨op, hop, hp⟩)
    exact ⟨id, hid⟩
  · exact ⟨fun f hf => (by cases hf), Or.inl (by decide)⟩
  · exact ⟨fun f hf => (by cases hf), Or.inl (by decide)⟩
  · exact Or.inl ⟨1, rfl, by decide⟩
  · exact ⟨fun f hf => (by cases hf), Or.inl (by decide)⟩
  · have htake : [otherFlow 5, sampleFlow 2].take maxTrackedFlows = [otherFlow 5, sampleFlow 2] :=
      List.take_of_length_le (by decide)
    show Along insertFlow Admits _ ([otherFlow 5, sampleFlow 2].take maxTrackedFlows)
    rw [htake]
    exact ⟨⟨fun f hf => (by cases hf), Or.inl (by decide)⟩,
      ⟨fun f hf => (by cases hf), Or.inl (by decide)⟩, trivial⟩
  · exact Or.inl ⟨5, rfl, by decide⟩
/-- **The index is not exact in every run**: the tuple reappears under id 2, and id 1 still names
it. -/
theorem index_not_exact :
    (∀ op ∈ [Op.insert (sampleFlow 1), .insert (sampleFlow 2)], op.CarriesIds) ∧
      ¬ IndexExact ([Op.insert (sampleFlow 1), .insert (sampleFlow 2)].foldl step
        ConntrackState.default) := by
  constructor
  · intro op hop p hp
    simp only [List.mem_cons, List.not_mem_nil, or_false] at hop
    rcases hop with rfl | rfl
    · simp only [Op.parsed, List.mem_singleton] at hp
      exact ⟨1, by rw [hp]; rfl⟩
    · simp only [Op.parsed, List.mem_singleton] at hp
      exact ⟨2, by rw [hp]; rfl⟩
  · intro h
    obtain ⟨f, hf, hfi⟩ := (h 1 (sampleFlow 1).key).mp (by decide)
    have hflow : ([Op.insert (sampleFlow 1), .insert (sampleFlow 2)].foldl step
        ConntrackState.default).flows.lookup (sampleFlow 1).key = some (sampleFlow 2).flow := rfl
    rw [hflow, Option.some.injEq] at hf
    rw [← hf] at hfi
    exact absurd hfi (by decide)

end BandixPlus.Conntrack.Index
