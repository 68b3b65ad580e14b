import BandixPlus.Conntrack.State
import BandixPlus.Lib.Run

/-! # Connection tracking: the event stream and the dumps

The kernel's table, the queue of its events, the monitor that applies them one at a time, and the dump task
that reads the table at one moment and replaces the flows at a later one.

* `CatchesUp`: what the monitor holds is right, or the queued events will set it right.
* `catchesUp_applyEvent`, `catchesUp_replaceFlows`: events keep it, and a dump establishes it.
* `converges_of_meets`: the monitor has the flows of the kernel once the queue is empty, in every run in
  which no event from after the reading of a dump is applied before that dump is installed, updates of the
  flows that it read apart.
* `deleted_flow_reappears`: a run in which such an event is undone by the dump. -/

namespace BandixPlus.Conntrack.Convergence

open BandixPlus.Lib.Maps BandixPlus.Lib.Run BandixPlus.Net.Addresses BandixPlus.Conntrack.State

/-! ### The kernel -/

/-- A message of the event socket; an update is a `new`. -/
inductive Event where
  | new (p : ParsedFlow)
  | delete (p : ParsedFlow)

def Event.parsed : Event → ParsedFlow
  | .new p => p
  | .delete p => p

/-- The kernel's table. -/
abbrev Table := HashMap FlowKey ConnectionFlow

/-- The change of the kernel's table that an event tells. -/
def change (table : Table) : Event → Table
  | .new p => table.insert p.key p.flow
  | .delete p => table.erase p.key

/-- No two flows have the same id. -/
def UniqueIds (table : Table) : Prop :=
  ∀ k k' f f' id, table.lookup k = some f → table.lookup k' = some f' → f.id = some id →
    f'.id = some id → k = k'

/-- The id of a flow does not change and is not the id of another, and what is deleted is in the table. -/
def Possible (table : Table) : Event → Prop
  | .new p => (∀ f, table.lookup p.key = some f → f.id = p.flow.id) ∧
      ∀ k f id, table.lookup k = some f → f.id = some id → p.flow.id = some id → k = p.key
  | .delete p => ∃ f, table.lookup p.key = some f ∧ f.id = p.flow.id

/-- The flows of the table, each once. -/
structure Lists (table : Table) (listing : List ParsedFlow) : Prop where
  nodup : (listing.map ParsedFlow.key).Nodup
  mem : ∀ p, p ∈ listing ↔ table.lookup p.key = some p.flow

/-- The tuples and the ids of the flows of the table, each tuple once. -/
structure SameFlows (table : Table) (listing : List ParsedFlow) : Prop where
  nodup : (listing.map ParsedFlow.key).Nodup
  mem : ∀ k id, (∃ p ∈ listing, p.key = k ∧ p.flow.id = id) ↔ ∃ f, table.lookup k = some f ∧ f.id = id

/-! ### The system -/

/-- One message of `apply_event_messages`. -/
def applyEvent (state : ConntrackState) : Event → ConntrackState
  | .new p => insertFlow state p
  | .delete p => removeFlow state p

/-- A dump in flight: what was read, and how many of the queued events are older than the reading. -/
structure Dump where
  flows : List ParsedFlow
  older : ℕ

structure System where
  kernel : Table
  queue : List Event
  monitor : ConntrackState
  dump : Option Dump
  /-- A dump has been installed. -/
  completed : Bool

def System.start (kernel : Table) : System := ⟨kernel, [], .default, none, false⟩

inductive Action where
  /-- The kernel changes its table and tells so. -/
  | emit (e : Event)
  /-- The monitor applies the next event. -/
  | deliver
  /-- A dump reads the table. -/
  | read (listing : List ParsedFlow)
  /-- The dump replaces the flows. -/
  | install
  /-- The dump fails. -/
  | fail (message : String)

def step (s : System) : Action → System
  | .emit e => { s with kernel := change s.kernel e, queue := s.queue ++ [e] }
  | .deliver =>
    match s.queue with
    | [] => s
    | e :: rest =>
      { s with
        queue := rest
        monitor := applyEvent s.monitor e
        dump := s.dump.map fun d => { d with older := d.older - 1 } }
  | .read listing => { s with dump := some ⟨listing.take maxTrackedFlows, s.queue.length⟩ }
  | .install =>
    match s.dump with
    | none => s
    | some d => { s with monitor := replaceFlows s.monitor d.flows, dump := none, completed := true }
  | .fail message => { s with monitor := { s.monitor with lastError := some message }, dump := none }

/-- What the kernel and the dump task do: ids are unique, the table stays below the limit, and one dump
is in flight at a time. -/
def Legal (s : System) : Action → Prop
  | .emit e => Possible s.kernel e ∧ len (change s.kernel e) < maxTrackedFlows
  | .read listing => s.dump = none ∧ Lists s.kernel listing
  | _ => True

/-- `insert_flow` gives up at the limit. -/
def Refused (state : ConntrackState) : Event → Prop
  | .new p => maxTrackedFlows ≤ len (indexFlow state p).flows ∧ p.key ∉ (indexFlow state p).flows
  | .delete _ => False

/-- The event updates a flow of the list. -/
def Updates (listing : List ParsedFlow) : Event → Prop
  | .new p => p.key ∈ listing.map ParsedFlow.key
  | .delete _ => False

/-- **The condition on a step**: an event that is applied while a dump is in flight is older than the
reading of the dump or updates a flow that the dump read, and is not refused at the limit. -/
def Meets (s : System) : Action → Prop
  | .deliver => ∀ e rest, s.queue = e :: rest →
      (∀ d, s.dump = some d → 0 < d.older ∨ Updates d.flows e) ∧ ¬ Refused s.monitor e
  | _ => True

/-! ### Tables -/

theorem uniqueIds_change {table : Table} (h : UniqueIds table) {e : Event} (he : Possible table e) :
    UniqueIds (change table e) := by
  intro k k' f f' id hf hf' hid hid'
  cases e with
  | new p =>
    obtain ⟨-, hfresh⟩ := he
    unfold change at hf hf'
    rw [lookup_insert_eq] at hf hf'
    split_ifs at hf hf' with hk hk' hk'
    · rw [hk, hk']
    · rw [← Option.some.inj hf] at hid
      rw [hk, hfresh k' f' id hf' hid' hid]
    · rw [← Option.some.inj hf'] at hid'
      rw [hk', hfresh k f id hf hid hid']
    · exact h k k' f f' id hf hf' hid hid'
  | delete p =>
    unfold change at hf hf'
    rw [lookup_erase_eq] at hf hf'
    split_ifs at hf hf'
    exact h k k' f f' id hf hf' hid hid'

/-- A change leaves the other flows. -/
theorem lookup_change_ne {table : Table} {e : Event} {k : FlowKey} (hk : e.parsed.key ≠ k) :
    (change table e).lookup k = table.lookup k := by
  cases e with
  | new p => exact AList.lookup_insert_ne (Ne.symm hk)
  | delete p => exact AList.lookup_erase_ne (Ne.symm hk)

theorem lookup_foldl_change_ne {table : Table} {es : List Event} {k : FlowKey}
    (h : ∀ e ∈ es, e.parsed.key ≠ k) : (es.foldl change table).lookup k = table.lookup k := by
  induction es generalizing table with
  | nil => rfl
  | cons e rest ih =>
    rw [List.foldl_cons, ih fun e' he' => h e' (List.mem_cons_of_mem _ he')]
    exact lookup_change_ne (h e List.mem_cons_self)

/-- What is in a table was there before the changes, or is new. -/
theorem lookup_foldl_change {table : Table} {es : List Event} {k : FlowKey} {f : ConnectionFlow}
    (h : (es.foldl change table).lookup k = some f) :
    (∀ e ∈ es, e.parsed.key ≠ k) ∨ ∃ p, Event.new p ∈ es ∧ p.key = k ∧ p.flow = f := by
  induction es generalizing table with
  | nil => exact Or.inl fun e he => absurd he List.not_mem_nil
  | cons e rest ih =>
    rcases ih h with hrest | ⟨p, hp, hkey, hflow⟩
    · by_cases hk : e.parsed.key = k
      · subst hk
        rw [List.foldl_cons, lookup_foldl_change_ne hrest] at h
        cases e with
        | new p => exact Or.inr ⟨p, List.mem_cons_self, rfl,
            Option.some.inj ((AList.lookup_insert _).symm.trans h)⟩
        | delete p => cases (AList.lookup_erase _ _).symm.trans h
      · exact Or.inl (List.forall_mem_cons.mpr ⟨hk, hrest⟩)
    · exact Or.inr ⟨p, List.mem_cons_of_mem _ hp, hkey, hflow⟩

theorem length_le_of_lists {table : Table} {listing : List ParsedFlow} (h : Lists table listing) :
    listing.length ≤ len table := by
  have hsub : listing.map ParsedFlow.key ⊆ table.keys := by
    intro k hk
    obtain ⟨p, hp, rfl⟩ := List.mem_map.mp hk
    exact AList.mem_keys.mp (mem_iff_lookup.mpr ⟨p.flow, (h.mem p).mp hp⟩)
  have hle := (List.subperm_of_subset h.nodup hsub).length_le
  rw [List.length_map] at hle
  rw [len_eq_keys]
  exact hle

theorem Lists.sameFlows {table : Table} {listing : List ParsedFlow} (h : Lists table listing) :
    SameFlows table listing := by
  refine ⟨h.nodup, fun k id => ⟨?_, ?_⟩⟩
  · rintro ⟨p, hp, rfl, hid⟩
    exact ⟨p.flow, (h.mem p).mp hp, hid⟩
  · rintro ⟨f, hf, hid⟩
    exact ⟨⟨k, f⟩, (h.mem ⟨k, f⟩).mpr hf, rfl, hid⟩

theorem SameFlows.lookup {table : Table} {listing : List ParsedFlow} (h : SameFlows table listing)
    {p : ParsedFlow} (hp : p ∈ listing) : ∃ f, table.lookup p.key = some f ∧ f.id = p.flow.id :=
  (h.mem p.key p.flow.id).mp ⟨p, hp, rfl, rfl⟩

/-- **An update leaves the tuples and the ids as they are.** -/
theorem SameFlows.update {table : Table} {listing : List ParsedFlow} (h : SameFlows table listing)
    {e : Event} (hpossible : Possible table e) (hupdates : Updates listing e) :
    SameFlows (change table e) listing := by
  cases e with
  | delete p => exact hupdates.elim
  | new p =>
    obtain ⟨q, hq, hqkey⟩ := List.mem_map.mp hupdates
    obtain ⟨live, hlive, -⟩ := h.lookup hq
    rw [hqkey] at hlive
    have hid : live.id = p.flow.id := hpossible.1 live hlive
    refine ⟨h.nodup, fun k id => (h.mem k id).trans ?_⟩
    have hlookup : (change table (.new p)).lookup k = if k = p.key then some p.flow else table.lookup k :=
      lookup_insert_eq _ _ _ _
    rw [hlookup]
    split_ifs with hk
    · rw [hk, hlive]
      simp [hid]
    · rfl

/-! ### One operation on the monitor -/

/-- The tuple that the index has under the id of a flow. -/
def indexed (state : ConntrackState) (p : ParsedFlow) : Option FlowKey :=
  p.flow.id.bind fun id => state.flowIds.lookup id

section Operations
variable {state : ConntrackState} {p : ParsedFlow}

theorem mem_indexFlow (k : FlowKey) :
    k ∈ (indexFlow state p).flows ↔ k ∈ state.flows ∧ indexed state p ≠ some k := by
  unfold indexFlow indexed
  cases p.flow.id with
  | none => simp
  | some id =>
    rw [Option.bind_some]
    cases hold : state.flowIds.lookup id with
    | none => simp [hold]
    | some old =>
      simp only [hold, AList.mem_erase, Ne, Option.some.injEq]
      rw [and_comm, eq_comm]

theorem mem_insertFlow (h : ¬ Refused state (.new p)) (k : FlowKey) :
    k ∈ (insertFlow state p).flows ↔ k = p.key ∨ (k ∈ state.flows ∧ indexed state p ≠ some k) := by
  have hroom : ¬ (maxTrackedFlows ≤ len (indexFlow state p).flows ∧
      p.key ∉ (indexFlow state p).flows) := h
  unfold insertFlow
  dsimp only
  rw [if_neg hroom, AList.mem_insert, mem_indexFlow]

theorem lookup_flowIds_insertFlow (id : UInt32) : (insertFlow state p).flowIds.lookup id =
    if p.flow.id = some id then some p.key else state.flowIds.lookup id := by
  have hindex : (insertFlow state p).flowIds = (indexFlow state p).flowIds := by
    unfold insertFlow
    dsimp only
    split_ifs <;> rfl
  rw [hindex]
  unfold indexFlow
  cases hid : p.flow.id with
  | none => simp
  | some i =>
    have hinsert : (state.flowIds.insert i p.key).lookup id =
        if some i = some id then some p.key else state.flowIds.lookup id := by
      rw [lookup_insert_eq]
      simp only [Option.some.injEq, eq_comm]
    dsimp only
    split <;> exact hinsert

theorem mem_removeFlow (k : FlowKey) : k ∈ (removeFlow state p).flows ↔
    k ∈ state.flows ∧ k ≠ (indexed state p).getD p.key := by
  unfold removeFlow indexed
  cases p.flow.id with
  | none => simp [AList.mem_erase, and_comm]
  | some id =>
    rw [Option.bind_some]
    cases hold : state.flowIds.lookup id with
    | none => simp [hold, AList.mem_erase, and_comm]
    | some old => simp [hold, AList.mem_erase, and_comm]

theorem lookup_flowIds_removeFlow (id : UInt32) : (removeFlow state p).flowIds.lookup id =
    if p.flow.id = some id then none else state.flowIds.lookup id := by
  unfold removeFlow
  cases hid : p.flow.id with
  | none => simp
  | some i =>
    cases hold : state.flowIds.lookup i with
    | none =>
      simp only [hold, Option.some.injEq]
      split_ifs with hi
      · rw [← hi, hold]
      · rfl
    | some old =>
      simp only [hold, Option.some.injEq, lookup_erase_eq, eq_comm]

end Operations

/-! ### Catching up -/

/-- The monitor has the flow if the table does, under its id. -/
def Settled (state : ConntrackState) (table : Table) (k : FlowKey) : Prop :=
  (k ∈ state.flows ↔ k ∈ table) ∧
    ∀ f id, table.lookup k = some f → f.id = some id → state.flowIds.lookup id = some k

/-- A queued event will settle the flow: it is created, or it is missing and deleted. -/
def Pending (state : ConntrackState) (queue : List Event) (k : FlowKey) : Prop :=
  (∃ p, Event.new p ∈ queue ∧ p.key = k) ∨ (k ∉ state.flows ∧ ∃ e ∈ queue, e.parsed.key = k)

/-- **The monitor catches up**: `table` is the kernel's table before the queued events. A flow is right
or an event will set it right, and so is an entry of the index. -/
structure CatchesUp (state : ConntrackState) (table : Table) (queue : List Event) : Prop where
  flows : ∀ k, Settled state table k ∨ Pending state queue k
  ids : ∀ id k, state.flowIds.lookup id = some k →
    (∃ f, table.lookup k = some f ∧ f.id = some id) ∨
      ∃ p, Event.new p ∈ queue ∧ p.key = k ∧ p.flow.id = some id

theorem CatchesUp.append {state : ConntrackState} {table : Table} {queue : List Event}
    (h : CatchesUp state table queue) (es : List Event) : CatchesUp state table (queue ++ es) := by
  refine ⟨fun k => (h.flows k).imp_right ?_, fun id k hk => (h.ids id k hk).imp_right ?_⟩
  · rintro (⟨p, hp, hkey⟩ | ⟨hk, e, he, hkey⟩)
    · exact Or.inl ⟨p, List.mem_append_left _ hp, hkey⟩
    · exact Or.inr ⟨hk, e, List.mem_append_left _ he, hkey⟩
  · rintro ⟨p, hp, hkey⟩
    exact ⟨p, List.mem_append_left _ hp, hkey⟩

/-- With nothing queued the monitor has the flows of the table. -/
theorem CatchesUp.mem_iff {state : ConntrackState} {table : Table} (h : CatchesUp state table [])
    (k : FlowKey) : k ∈ state.flows ↔ k ∈ table := by
  rcases h.flows k with hsettled | ⟨p, hp, -⟩ | ⟨-, e, he, -⟩
  · exact hsettled.1
  · exact absurd hp List.not_mem_nil
  · exact absurd he List.not_mem_nil

section Deliver
variable {state : ConntrackState} {table : Table} {p : ParsedFlow} {rest : List Event}

theorem catchesUp_insertFlow (h : CatchesUp state table (.new p :: rest))
    (hpossible : Possible table (.new p)) (hroom : ¬ Refused state (.new p)) :
    CatchesUp (insertFlow state p) (change table (.new p)) rest := by
  obtain ⟨hsame, hfresh⟩ := hpossible
  have hlookup : ∀ k, (change table (.new p)).lookup k =
      if k = p.key then some p.flow else table.lookup k := fun k => lookup_insert_eq _ _ _ _
  have hlater : ∀ q, Event.new q ∈ Event.new p :: rest → q ≠ p → Event.new q ∈ rest := by
    intro q hq hne
    rcases List.mem_cons.mp hq with heq | hq
    · exact absurd (Event.new.inj heq) hne
    · exact hq
  refine ⟨fun k => ?_, fun id k hk => ?_⟩
  · by_cases hkey : k = p.key
    · -- the event settles its own flow
      subst hkey
      refine Or.inl ⟨?_, fun f id hf hid => ?_⟩
      · rw [mem_insertFlow hroom]
        exact iff_of_true (Or.inl rfl) ((AList.mem_insert _).mpr (Or.inl rfl))
      · rw [hlookup, if_pos rfl] at hf
        rw [lookup_flowIds_insertFlow, Option.some.inj hf, if_pos hid]
    · rcases h.flows k with hsettled | ⟨q, hq, rfl⟩ | ⟨hmissing, e, he, rfl⟩
      · by_cases hindexed : indexed state p = some k
        · -- the id named this flow, which the kernel will create again under it
          obtain ⟨id, hid, hk⟩ := Option.bind_eq_some_iff.mp hindexed
          rcases h.ids id k hk with ⟨f, hf, hfid⟩ | ⟨q, hq, hqkey, -⟩
          · exact absurd (hfresh k f id hf hfid hid) hkey
          · exact Or.inr (Or.inl ⟨q, hlater q hq fun heq => hkey (by rw [← hqkey, heq]), hqkey⟩)
        · refine Or.inl ⟨?_, fun f id hf hid => ?_⟩
          · have hmem : k ∈ change table (.new p) ↔ k = p.key ∨ k ∈ table := AList.mem_insert _
            rw [mem_insertFlow hroom, hmem, or_iff_right hkey, or_iff_right hkey,
              and_iff_left hindexed]
            exact hsettled.1
          · rw [hlookup, if_neg hkey] at hf
            rw [lookup_flowIds_insertFlow, if_neg fun hpid => hkey (hfresh k f id hf hid hpid)]
            exact hsettled.2 f id hf hid
      · exact Or.inr (Or.inl ⟨q, hlater q hq fun heq => hkey (by rw [heq]), rfl⟩)
      · refine Or.inr (Or.inr ⟨fun hmem => ?_, e, ?_, rfl⟩)
        · rcases (mem_insertFlow hroom _).mp hmem with hk | ⟨hmem, -⟩
          · exact hkey hk
          · exact hmissing hmem
        · rcases List.mem_cons.mp he with rfl | he
          · exact absurd rfl hkey
          · exact he
  · rw [lookup_flowIds_insertFlow] at hk
    split_ifs at hk with hid
    · obtain rfl := Option.some.inj hk
      exact Or.inl ⟨p.flow, by rw [hlookup, if_pos rfl], hid⟩
    · rcases h.ids id k hk with ⟨f, hf, hfid⟩ | ⟨q, hq, hqkey, hqid⟩
      · have hkey : k ≠ p.key := by
          rintro rfl
          exact hid ((hsame f hf).symm.trans hfid)
        exact Or.inl ⟨f, by rw [hlookup, if_neg hkey]; exact hf, hfid⟩
      · exact Or.inr ⟨q, hlater q hq fun heq => hid (heq ▸ hqid), hqkey, hqid⟩

/-- A removal takes the flow that its id names, and the flow itself where the two are one. -/
theorem indexed_getD_self (h : ∀ id, p.flow.id = some id → state.flowIds.lookup id = some p.key) :
    (indexed state p).getD p.key = p.key := by
  unfold indexed
  cases hid : p.flow.id with
  | none => rfl
  | some id =>
    rw [Option.bind_some, h id hid]
    rfl

theorem ne_indexed_getD {k : FlowKey} (hkey : k ≠ p.key) (h : indexed state p ≠ some k) :
    k ≠ (indexed state p).getD p.key := by
  cases hold : indexed state p with
  | none => exact hkey
  | some old =>
    rintro rfl
    exact h hold

theorem catchesUp_removeFlow (h : CatchesUp state table (.delete p :: rest))
    (hunique : UniqueIds table) (hpossible : Possible table (.delete p)) :
    CatchesUp (removeFlow state p) (change table (.delete p)) rest := by
  obtain ⟨live, hlive, hliveId⟩ := hpossible
  have hlookup : ∀ k, (change table (.delete p)).lookup k =
      if k = p.key then none else table.lookup k := fun k => lookup_erase_eq _ _ _
  have hlater : ∀ q, Event.new q ∈ Event.delete p :: rest → Event.new q ∈ rest := by
    intro q hq
    rcases List.mem_cons.mp hq with heq | hq
    · cases heq
    · exact hq
  refine ⟨fun k => ?_, fun id k hk => ?_⟩
  · rcases h.flows k with hsettled | ⟨q, hq, rfl⟩ | ⟨hmissing, e, he, rfl⟩
    · by_cases hkey : k = p.key
      · -- its id is indexed, hence the removal takes this flow
        subst hkey
        have hindexed := indexed_getD_self fun id hid => hsettled.2 live id hlive (hliveId.trans hid)
        refine Or.inl ⟨?_, fun f id hf _ => ?_⟩
        · rw [mem_removeFlow, hindexed]
          refine iff_of_false (fun hmem => hmem.2 rfl) fun hmem => ?_
          exact (AList.mem_erase.mp hmem).1 rfl
        · rw [hlookup, if_pos rfl] at hf
          cases hf
      · by_cases hindexed : indexed state p = some k
        · -- the id named this flow, which the kernel will create again under it
          obtain ⟨id, hid, hk⟩ := Option.bind_eq_some_iff.mp hindexed
          rcases h.ids id k hk with ⟨f, hf, hfid⟩ | ⟨q, hq, hqkey, -⟩
          · exact absurd (hunique k p.key f live id hf hlive hfid (hliveId.trans hid)) hkey
          · exact Or.inr (Or.inl ⟨q, hlater q hq, hqkey⟩)
        · have hother := ne_indexed_getD hkey hindexed
          refine Or.inl ⟨?_, fun f id hf hid => ?_⟩
          · have hmem : k ∈ change table (.delete p) ↔ k ≠ p.key ∧ k ∈ table := AList.mem_erase
            rw [mem_removeFlow, hmem, and_iff_left hother, and_iff_right hkey]
            exact hsettled.1
          · rw [hlookup, if_neg hkey] at hf
            have hne : p.flow.id ≠ some id := fun hpid =>
              hkey (hunique k p.key f live id hf hlive hid (hliveId.trans hpid))
            rw [lookup_flowIds_removeFlow, if_neg hne]
            exact hsettled.2 f id hf hid
    · exact Or.inr (Or.inl ⟨q, hlater q hq, rfl⟩)
    · have hmissing' : e.parsed.key ∉ (removeFlow state p).flows := fun hmem =>
        hmissing ((mem_removeFlow _).mp hmem).1
      rcases List.mem_cons.mp he with rfl | he
      · refine Or.inl ⟨iff_of_false hmissing' fun hmem => ?_, fun f id hf _ => ?_⟩
        · exact (AList.mem_erase.mp hmem).1 rfl
        · rw [hlookup] at hf
          cases (if_pos rfl).symm.trans hf
      · exact Or.inr (Or.inr ⟨hmissing', e, he, rfl⟩)
  · rw [lookup_flowIds_removeFlow] at hk
    split_ifs at hk with hid
    rcases h.ids id k hk with ⟨f, hf, hfid⟩ | ⟨q, hq, hqkey, hqid⟩
    · have hkey : k ≠ p.key := by
        rintro rfl
        obtain rfl := Option.some.inj (hf.symm.trans hlive)
        exact hid (hliveId.symm.trans hfid)
      exact Or.inl ⟨f, by rw [hlookup, if_neg hkey]; exact hf, hfid⟩
    · exact Or.inr ⟨q, hlater q hq, hqkey, hqid⟩

end Deliver

/-- **Applying the next event** keeps catching up. -/
theorem catchesUp_applyEvent {state : ConntrackState} {table : Table} {e : Event} {rest : List Event}
    (h : CatchesUp state table (e :: rest)) (hunique : UniqueIds table) (hpossible : Possible table e)
    (hroom : ¬ Refused state e) : CatchesUp (applyEvent state e) (change table e) rest := by
  cases e with
  | new p => exact catchesUp_insertFlow h hpossible hroom
  | delete p => exact catchesUp_removeFlow h hunique hpossible

/-! ### A dump -/

/-- Two flows with different tuples and ids. -/
def Apart (p q : ParsedFlow) : Prop :=
  p.key ≠ q.key ∧ ∀ id, p.flow.id = some id → q.flow.id ≠ some id

/-- The monitor has exactly the flows of a list. -/
structure Holds (state : ConntrackState) (listing : List ParsedFlow) : Prop where
  flows : ∀ k, k ∈ state.flows ↔ ∃ p ∈ listing, p.key = k
  ids : ∀ id k, state.flowIds.lookup id = some k ↔ ∃ p ∈ listing, p.key = k ∧ p.flow.id = some id
  size : len state.flows = listing.length

theorem holds_insertFlow {state : ConntrackState} {done : List ParsedFlow} (h : Holds state done)
    {p : ParsedFlow} (hapart : ∀ q ∈ done, Apart q p) (hsmall : done.length < maxTrackedFlows) :
    Holds (insertFlow state p) (done ++ [p]) := by
  have hindexed : indexed state p = none := by
    unfold indexed
    cases hid : p.flow.id with
    | none => rfl
    | some id =>
      rw [Option.bind_some]
      by_contra hsome
      obtain ⟨k, hk⟩ := Option.ne_none_iff_exists'.mp hsome
      obtain ⟨q, hq, -, hqid⟩ := (h.ids id k).mp hk
      exact (hapart q hq).2 id hqid hid
  have hkey : p.key ∉ state.flows := by
    intro hmem
    obtain ⟨q, hq, hqkey⟩ := (h.flows p.key).mp hmem
    exact (hapart q hq).1 hqkey
  have hindex : (indexFlow state p).flows = state.flows := by
    unfold indexed at hindexed
    unfold indexFlow
    cases hid : p.flow.id with
    | none => rfl
    | some id =>
      rw [hid, Option.bind_some] at hindexed
      simp only [hindexed]
  have hroom : ¬ Refused state (.new p) := by
    rintro ⟨hfull, -⟩
    rw [hindex, h.size] at hfull
    omega
  refine ⟨fun k => ?_, fun id k => ?_, ?_⟩
  · rw [mem_insertFlow hroom, hindexed, h.flows]
    simp only [List.mem_append, List.mem_singleton, or_and_right, exists_or, exists_eq_left]
    rw [and_iff_left (by simp), or_comm, eq_comm]
  · rw [lookup_flowIds_insertFlow]
    have hids := h.ids id k
    split_ifs with hid
    · constructor
      · intro hk
        exact ⟨p, List.mem_append_right _ List.mem_cons_self, Option.some.inj hk, hid⟩
      · rintro ⟨q, hq, hqkey, hqid⟩
        rcases List.mem_append.mp hq with hq | hq
        · exact absurd hid ((hapart q hq).2 id hqid)
        · rw [← hqkey, List.mem_singleton.mp hq]
    · rw [hids]
      constructor
      · rintro ⟨q, hq, hqkey⟩
        exact ⟨q, List.mem_append_left _ hq, hqkey⟩
      · rintro ⟨q, hq, hqkey, hqid⟩
        rcases List.mem_append.mp hq with hq | hq
        · exact ⟨q, hq, hqkey, hqid⟩
        · rw [List.mem_singleton.mp hq] at hqid
          exact absurd hqid hid
  · have hsize := h.size
    unfold insertFlow
    dsimp only
    rw [hindex, if_neg (by omega), len_insert, if_neg hkey, List.length_append]
    simp only [List.length_singleton]
    omega

theorem holds_foldl_insertFlow (rest : List ParsedFlow) {state : ConntrackState}
    {done : List ParsedFlow} (h : Holds state done) (hapart : (done ++ rest).Pairwise Apart)
    (hsmall : (done ++ rest).length ≤ maxTrackedFlows) :
    Holds (rest.foldl insertFlow state) (done ++ rest) := by
  induction rest generalizing state done with
  | nil =>
    rw [List.append_nil]
    exact h
  | cons p rest ih =>
    have hpast : ∀ q ∈ done, Apart q p := fun q hq =>
      (List.pairwise_append.mp hapart).2.2 q hq p List.mem_cons_self
    have hlength : done.length < maxTrackedFlows := by
      rw [List.length_append, List.length_cons] at hsmall
      omega
    rw [List.append_cons] at hapart hsmall ⊢
    exact ih (holds_insertFlow h hpast hlength) hapart hsmall

/-- **A dump installs the flows of the table that it read.** -/
theorem holds_replaceFlows {table : Table} (hunique : UniqueIds table) {listing : List ParsedFlow}
    (hlists : SameFlows table listing) (hsmall : listing.length ≤ maxTrackedFlows)
    (state : ConntrackState) : Holds (replaceFlows state listing) listing := by
  have hempty : Holds ⟨∅, ∅, state.lastError⟩ [] := by
    refine ⟨fun k => iff_of_false (AList.notMem_empty k) ?_, fun id k => iff_of_false ?_ ?_, rfl⟩
    · rintro ⟨p, hp, -⟩
      exact absurd hp List.not_mem_nil
    · rw [AList.lookup_empty]
      exact Option.some_ne_none k ∘ Eq.symm
    · rintro ⟨p, hp, -⟩
      exact absurd hp List.not_mem_nil
  have hkeys : listing.Pairwise fun p q => p.key ≠ q.key := List.pairwise_map.mp hlists.nodup
  have hapart : listing.Pairwise Apart := by
    refine hkeys.imp_of_mem fun {p q} hp hq hne => ⟨hne, fun id hpid hqid => hne ?_⟩
    obtain ⟨f, hf, hfid⟩ := hlists.lookup hp
    obtain ⟨g, hg, hgid⟩ := hlists.lookup hq
    exact hunique p.key q.key f g id hf hg (hfid.trans hpid) (hgid.trans hqid)
  have hheld := holds_foldl_insertFlow listing hempty hapart hsmall
  unfold replaceFlows
  rw [List.take_of_length_le hsmall]
  exact ⟨hheld.flows, hheld.ids, hheld.size⟩

/-- **A dump catches up**, if the older events are still queued. -/
theorem catchesUp_replaceFlows {table : Table} {older : List Event} (hunique : UniqueIds table)
    (hpossible : Along change Possible table older) {listing : List ParsedFlow}
    (hlists : SameFlows (older.foldl change table) listing) (hsmall : listing.length ≤ maxTrackedFlows)
    (state : ConntrackState) : CatchesUp (replaceFlows state listing) table older := by
  have hread : UniqueIds (older.foldl change table) :=
    hpossible.invariant (fun _ _ h he => uniqueIds_change h he) hunique
  have hheld := holds_replaceFlows hread hlists hsmall state
  have hflows : ∀ k, k ∈ (replaceFlows state listing).flows ↔ k ∈ older.foldl change table := by
    intro k
    rw [hheld.flows, mem_iff_lookup]
    constructor
    · rintro ⟨p, hp, rfl⟩
      obtain ⟨f, hf, -⟩ := hlists.lookup hp
      exact ⟨f, hf⟩
    · rintro ⟨f, hf⟩
      obtain ⟨p, hp, hkey, -⟩ := (hlists.mem k f.id).mpr ⟨f, hf, rfl⟩
      exact ⟨p, hp, hkey⟩
  refine ⟨fun k => ?_, fun id k hk => ?_⟩
  · by_cases htouched : ∃ e ∈ older, e.parsed.key = k
    · by_cases hmem : k ∈ older.foldl change table
      · obtain ⟨f, hf⟩ := mem_iff_lookup.mp hmem
        rcases lookup_foldl_change hf with huntouched | ⟨p, hp, hkey, -⟩
        · obtain ⟨e, he, hkey⟩ := htouched
          exact absurd hkey (huntouched e he)
        · exact Or.inr (Or.inl ⟨p, hp, hkey⟩)
      · exact Or.inr (Or.inr ⟨fun hk => hmem ((hflows k).mp hk), htouched⟩)
    · have hsame : (older.foldl change table).lookup k = table.lookup k :=
        lookup_foldl_change_ne fun e he hkey => htouched ⟨e, he, hkey⟩
      refine Or.inl ⟨?_, fun f id hf hid => ?_⟩
      · rw [hflows, mem_iff_lookup, mem_iff_lookup, hsame]
      · exact (hheld.ids id k).mpr ((hlists.mem k (some id)).mpr ⟨f, hsame.trans hf, hid⟩)
  · obtain ⟨f, hlookup, hid⟩ := (hlists.mem k (some id)).mp ((hheld.ids id k).mp hk)
    rcases lookup_foldl_change hlookup with huntouched | ⟨q, hq, hkey, hflow⟩
    · rw [lookup_foldl_change_ne huntouched] at hlookup
      exact Or.inl ⟨f, hlookup, hid⟩
    · exact Or.inr ⟨q, hq, hkey, hflow ▸ hid⟩

/-! ### Runs -/

/-- **The invariant**: `table` is the kernel's table before the queued events. -/
structure Inv (s : System) (table : Table) : Prop where
  unique : UniqueIds table
  possible : Along change Possible table s.queue
  kernel : s.queue.foldl change table = s.kernel
  small : len s.kernel < maxTrackedFlows
  caughtUp : s.completed = true → CatchesUp s.monitor table s.queue
  dump : ∀ d, s.dump = some d → ∃ older newer, s.queue = older ++ newer ∧ older.length = d.older ∧
    SameFlows (older.foldl change table) d.flows ∧ d.flows.length ≤ maxTrackedFlows

theorem inv_start {kernel : Table} (hunique : UniqueIds kernel) (hsmall : len kernel < maxTrackedFlows) :
    Inv (.start kernel) kernel where
  unique := hunique
  possible := trivial
  kernel := rfl
  small := hsmall
  caughtUp := fun h => by cases h
  dump := fun d h => by cases h

section Step
variable {s : System} {table : Table}

/-- A change of the kernel is queued. -/
theorem inv_emit (h : Inv s table) {e : Event} (hlegal : Legal s (.emit e)) :
    Inv (step s (.emit e)) table := by
  refine ⟨h.unique, ?_, ?_, hlegal.2, fun hc => (h.caughtUp hc).append [e], fun d hd => ?_⟩
  · refine along_append.mpr ⟨h.possible, ?_, trivial⟩
    rw [h.kernel]
    exact hlegal.1
  · show (s.queue ++ [e]).foldl change table = change s.kernel e
    rw [List.foldl_append, h.kernel]
    rfl
  · obtain ⟨older, newer, hqueue, hrest⟩ := h.dump d hd
    refine ⟨older, newer ++ [e], ?_, hrest⟩
    show s.queue ++ [e] = _
    rw [hqueue, List.append_assoc]

/-- The first event is applied, and the table that the monitor has caught up with changes by it. -/
theorem inv_deliver (h : Inv s table) {e : Event} {rest : List Event} (hqueue : s.queue = e :: rest)
    (hmeets : Meets s .deliver) : Inv (step s .deliver) (change table e) := by
  have hstep : step s .deliver = { s with
      queue := rest
      monitor := applyEvent s.monitor e
      dump := s.dump.map fun d => { d with older := d.older - 1 } } := by
    unfold step
    rw [hqueue]
  obtain ⟨holder, hroom⟩ := hmeets e rest hqueue
  have hpossible := h.possible
  have hkernel := h.kernel
  have hcaught := h.caughtUp
  rw [hqueue] at hpossible hkernel hcaught
  rw [hstep]
  refine ⟨uniqueIds_change h.unique hpossible.1, hpossible.2, hkernel, h.small,
    fun hc => catchesUp_applyEvent (hcaught hc) h.unique hpossible.1 hroom, fun d hd => ?_⟩
  obtain ⟨d, hdump, rfl⟩ := Option.map_eq_some_iff.mp hd
  obtain ⟨older, newer, hsplit, hlength, hlists, hsmall⟩ := h.dump d hdump
  cases older with
  | nil =>
    -- the event is newer than the reading, hence an update
    have hupdates : Updates d.flows e := (holder d hdump).resolve_left (by rw [← hlength]; exact lt_irrefl 0)
    refine ⟨[], rest, rfl, ?_, hlists.update hpossible.1 hupdates, hsmall⟩
    rw [List.length_nil] at hlength ⊢
    show 0 = d.older - 1
    omega
  | cons e' older =>
    rw [hqueue, List.cons_append] at hsplit
    obtain ⟨rfl, htail⟩ := List.cons.inj hsplit
    refine ⟨older, newer, htail, ?_, hlists, hsmall⟩
    simp only [List.length_cons] at hlength
    show older.length = d.older - 1
    omega

/-- A dump reads the table after all queued events. -/
theorem inv_read (h : Inv s table) {listing : List ParsedFlow} (hlegal : Legal s (.read listing)) :
    Inv (step s (.read listing)) table := by
  have hlength := length_le_of_lists hlegal.2
  have hsmall := h.small
  have htake : listing.take maxTrackedFlows = listing := List.take_of_length_le (by omega)
  refine ⟨h.unique, h.possible, h.kernel, h.small, h.caughtUp, fun d hd => ?_⟩
  obtain rfl := Option.some.inj hd
  refine ⟨s.queue, [], (List.append_nil _).symm, rfl, ?_, ?_⟩
  · rw [h.kernel, htake]
    exact hlegal.2.sameFlows
  · exact List.length_take_le _ _

/-- A dump is installed: only the events after its reading are still to come. -/
theorem inv_install (h : Inv s table) {d : Dump} (hdump : s.dump = some d) :
    Inv (step s .install) table := by
  have hstep : step s .install =
      { s with monitor := replaceFlows s.monitor d.flows, dump := none, completed := true } := by
    unfold step
    rw [hdump]
  obtain ⟨older, newer, hqueue, -, hlists, hsmall⟩ := h.dump d hdump
  have hpossible := h.possible
  rw [hqueue] at hpossible
  rw [hstep]
  refine ⟨h.unique, h.possible, h.kernel, h.small, fun _ => ?_, fun d hd => by cases hd⟩
  show CatchesUp _ table s.queue
  rw [hqueue]
  exact (catchesUp_replaceFlows h.unique (along_append.mp hpossible).1 hlists hsmall _).append newer

/-- **A step that meets its condition keeps the invariant.** -/
theorem inv_step (h : Inv s table) {a : Action} (hlegal : Legal s a) (hmeets : Meets s a) :
    ∃ table', Inv (step s a) table' := by
  cases a with
  | emit e => exact ⟨table, inv_emit h hlegal⟩
  | deliver =>
    cases hqueue : s.queue with
    | nil =>
      have hstep : step s .deliver = s := by
        unfold step
        rw [hqueue]
      rw [hstep]
      exact ⟨table, h⟩
    | cons e rest => exact ⟨change table e, inv_deliver h hqueue hmeets⟩
  | read listing => exact ⟨table, inv_read h hlegal⟩
  | install =>
    cases hdump : s.dump with
    | none =>
      have hstep : step s .install = s := by
        unfold step
        rw [hdump]
      rw [hstep]
      exact ⟨table, h⟩
    | some d => exact ⟨table, inv_install h hdump⟩
  | fail message =>
    exact ⟨table, h.unique, h.possible, h.kernel, h.small, fun hc =>
      ⟨(h.caughtUp hc).flows, (h.caughtUp hc).ids⟩, fun d hd => by cases hd⟩

end Step

/-- **Events and dumps converge** in every run whose steps meet their condition: once a dump has been
installed, none is in flight and all events are applied, the monitor has the flows of the kernel. -/
theorem converges_of_meets {kernel : Table} (hunique : UniqueIds kernel)
    (hsmall : len kernel < maxTrackedFlows) (acts : List Action)
    (h : Along step (fun s a => Legal s a ∧ Meets s a) (.start kernel) acts) :
    ∀ pre, pre <+: acts →
      let s := pre.foldl step (System.start kernel)
      s.completed = true → s.dump = none → s.queue = [] → ∀ k, k ∈ s.monitor.flows ↔ k ∈ s.kernel := by
  rintro pre ⟨post, rfl⟩ s hcompleted - hqueue k
  have hinv : ∃ table, Inv s table :=
    (along_append.mp h).1.invariant (I := fun s => ∃ table, Inv s table)
      (fun _ _ ⟨_, hs⟩ ⟨hlegal, hmeets⟩ => inv_step hs hlegal hmeets)
      ⟨kernel, inv_start hunique hsmall⟩
  obtain ⟨table, hinv⟩ := hinv
  have hcaught := hinv.caughtUp hcompleted
  have hkernel := hinv.kernel
  rw [hqueue] at hcaught hkernel
  rw [hcaught.mem_iff, ← hkernel]
  rfl

/-! ### Two runs -/

/-- The UDP flow `10.0.0.1:1000 → 10.0.0.2:53` with id 1. -/
def dnsFlow : ParsedFlow where
  key := ⟨17, ⟨.v4 0x0a000001, .v4 0x0a000002, 1000, 53⟩, ⟨.v4 0x0a000002, .v4 0x0a000001, 53, 1000⟩⟩
  flow := ⟨some 1, "udp", none, ⟨"10.0.0.1", "10.0.0.2", 1000, 53⟩,
    ⟨"10.0.0.2", "10.0.0.1", 53, 1000⟩, 1, 60, 1, 60, []⟩

/-- A table with this flow alone. -/
def dnsTable : Table := AList.insert dnsFlow.key dnsFlow.flow ∅

theorem lookup_dnsTable (k : FlowKey) :
    dnsTable.lookup k = if k = dnsFlow.key then some dnsFlow.flow else none := by
  unfold dnsTable
  rw [lookup_insert_eq, AList.lookup_empty]

theorem uniqueIds_dnsTable : UniqueIds dnsTable := by
  intro k k' f f' id hf hf' _ _
  rw [lookup_dnsTable] at hf hf'
  split_ifs at hf hf' with hk hk'
  rw [hk, hk']

theorem lists_dnsTable : Lists dnsTable [dnsFlow] := by
  refine ⟨List.nodup_singleton _, fun p => ?_⟩
  rw [List.mem_singleton, lookup_dnsTable]
  constructor
  · rintro rfl
    rw [if_pos rfl]
  · intro hp
    split_ifs at hp with hk
    obtain ⟨key, flow⟩ := p
    obtain rfl : key = dnsFlow.key := hk
    obtain rfl : dnsFlow.flow = flow := Option.some.inj hp
    rfl

theorem possible_update : Possible dnsTable (.new dnsFlow) := by
  refine ⟨fun f hf => ?_, fun k f id hf _ _ => ?_⟩
  · rw [lookup_dnsTable, if_pos rfl] at hf
    exact congrArg ConnectionFlow.id (Option.some.inj hf).symm
  · rw [lookup_dnsTable] at hf
    split_ifs at hf with hk
    exact hk

/-- The flow is updated while the dump is in flight, and then deleted. -/
theorem converges_of_meets_sample :
    let s := [Action.read [dnsFlow], .emit (.new dnsFlow), .deliver, .emit (.delete dnsFlow), .install,
      .deliver].foldl step (.start dnsTable)
    ∀ k, k ∈ s.monitor.flows ↔ k ∈ s.kernel := by
  refine converges_of_meets uniqueIds_dnsTable (by decide) _ ?_ _ (List.prefix_refl _) rfl rfl rfl
  refine ⟨⟨⟨rfl, lists_dnsTable⟩, trivial⟩, ⟨⟨possible_update, by decide⟩, trivial⟩,
    ⟨trivial, fun e rest hqueue => ?_⟩, ⟨⟨⟨dnsFlow.flow, rfl, rfl⟩, by decide⟩, trivial⟩,
    ⟨trivial, trivial⟩, ⟨trivial, fun e rest hqueue => ?_⟩, trivial⟩
  · obtain ⟨rfl, -⟩ := List.cons.inj (show [Event.new dnsFlow] = e :: rest from hqueue)
    refine ⟨fun d hd => Or.inr ?_, fun hrefused => absurd hrefused.1 (by decide)⟩
    obtain rfl := Option.some.inj hd
    exact List.mem_singleton.mpr rfl
  · obtain ⟨rfl, -⟩ := List.cons.inj (show [Event.delete dnsFlow] = e :: rest from hqueue)
    exact ⟨fun d hd => (by cases hd), id⟩

/-- **A deleted flow comes back**: the kernel deletes it after the dump has read it, the event is applied,
and the dump installs what it read. -/
theorem deleted_flow_reappears :
    let acts := [Action.read [dnsFlow], .emit (.delete dnsFlow), .deliver, .install]
    let s := acts.foldl step (.start dnsTable)
    UniqueIds dnsTable ∧ len dnsTable < maxTrackedFlows ∧ Along step Legal (.start dnsTable) acts ∧
      s.completed = true ∧ s.dump.isNone ∧ s.queue.length = 0 ∧
      dnsFlow.key ∈ s.monitor.flows ∧ dnsFlow.key ∉ s.kernel := by
  refine ⟨uniqueIds_dnsTable, by decide, ?_, rfl, rfl, rfl, by decide, by decide⟩
  exact ⟨⟨rfl, lists_dnsTable⟩, ⟨⟨dnsFlow.flow, rfl, rfl⟩, by decide⟩, trivial, trivial, trivial⟩

end BandixPlus.Conntrack.Convergence
