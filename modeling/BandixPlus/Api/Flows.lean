import BandixPlus.Conntrack.Index
import BandixPlus.Lib.Pages
import BandixPlus.Lib.Sorting
import BandixPlus.Net.Text

/-! # Pages of connections

`conntrack.rs`, `filtered_flows`, and `api.rs`, `connection_flows`: the flows that pass three filters, sorted
by their original tuple, and one page of them.

* `bounded_run`: no run of events and dumps makes the table grow beyond its limit.
* `flow_pages_partition`: in every state of every run the pages are the matching flows, each once and in
  order; a page after the last one is the last one.
* `selectedFlows_eq`: the order in which the table is iterated shows only among flows with the same original
  tuple. -/

namespace BandixPlus.Api.Flows

open BandixPlus.Conntrack.Index BandixPlus.Conntrack.State BandixPlus.Lib.Maps BandixPlus.Lib.Pages
open BandixPlus.Lib.Sorting BandixPlus.Net.Text

def usizeMax : ℕ := 2 ^ 64 - 1

/-! ### Filters -/

/-- The addresses between the commas. -/
def ipFilters (ip : Option String) : List String :=
  ((((ip.getD "").toList.splitOn ',').map String.ofList).map trim).filter (· ≠ "")

def flowMatchesIpFilters (flow : ConnectionFlow) (filters : List String) : Bool :=
  filters.isEmpty || filters.any fun value =>
    eqIgnoreAsciiCase flow.orig.src value || eqIgnoreAsciiCase flow.reply.dst value

def passes (ip protocol stateFilter : Option String) (flow : ConnectionFlow) : Bool :=
  ((protocol.map fun value => eqIgnoreAsciiCase flow.protocol value).getD true) &&
    ((stateFilter.map fun value =>
      (flow.state.map fun state => eqIgnoreAsciiCase state value).getD false).getD true) &&
    flowMatchesIpFilters flow (ipFilters ip)

/-- The order of the flows: that of their original tuples. -/
def flowOrder : ConnectionFlow → ConnectionFlow → Ordering :=
  compareLex (compareOn fun flow => flow.orig.src) (compareLex (compareOn fun flow => flow.orig.dst)
    (compareLex (compareOn fun flow => flow.orig.sport) (compareOn fun flow => flow.orig.dport)))

def flowLe (a b : ConnectionFlow) : Bool := (flowOrder a b).isLE

/-- `filtered_flows`, the table iterated in the order `o`. -/
def filteredFlows (o : IterOrder) (state : ConntrackState) (ip protocol stateFilter : Option String) :
    List ConnectionFlow :=
  (((o.order state.flows.entries).map fun e => e.2).filter (passes ip protocol stateFilter)).mergeSort flowLe

/-! ### The handler -/

structure ConnectionFlowsQuery where
  ip : Option String
  protocol : Option String
  state : Option String
  page : Option ℕ
  pageSize : Option ℕ

structure ConnectionFlowsResponse where
  enabled : Bool
  items : List ConnectionFlow
  total : ℕ
  page : ℕ
  pageSize : ℕ
  totalPages : ℕ

/-- A filter that is blank is none. -/
def given (filter : Option String) : Option String := (filter.map trim).filter (· ≠ "")

/-- The flows that the filters of a query select. -/
def selectedFlows (o : IterOrder) (state : ConntrackState) (query : ConnectionFlowsQuery) :
    List ConnectionFlow :=
  filteredFlows o state (given query.ip) (given query.protocol) (given query.state)

/-- `clamp(1, 500)` of the size asked for. -/
def effectiveSize (query : ConnectionFlowsQuery) : ℕ := min (max (query.pageSize.getD 100) 1) 500

def connectionFlows (o : IterOrder) (enabled : Bool) (state : ConntrackState)
    (query : ConnectionFlowsQuery) : ConnectionFlowsResponse :=
  let flows := selectedFlows o state query
  let total := flows.length
  let pageSize := effectiveSize query
  let totalPages := max (min (total + (pageSize - 1)) usizeMax / pageSize) 1
  let page := min (max (query.page.getD 1) 1) totalPages
  let start := min ((page - 1) * pageSize) usizeMax
  let items := if start < total then (flows.drop start).take pageSize else []
  { enabled, items, total, page, pageSize, totalPages }

/-! ### What the filters ask for -/

/-- **The flow satisfies every given filter.** A blank filter asks for nothing, and so does a list of
addresses that are all blank. -/
structure Satisfies (query : ConnectionFlowsQuery) (flow : ConnectionFlow) : Prop where
  protocol : ∀ wanted, given query.protocol = some wanted →
    toAsciiLowercase flow.protocol = toAsciiLowercase wanted
  state : ∀ wanted, given query.state = some wanted →
    ∃ state, flow.state = some state ∧ toAsciiLowercase state = toAsciiLowercase wanted
  ip : ipFilters (given query.ip) = [] ∨ ∃ address ∈ ipFilters (given query.ip),
    toAsciiLowercase flow.orig.src = toAsciiLowercase address ∨
      toAsciiLowercase flow.reply.dst = toAsciiLowercase address

theorem passes_iff {query : ConnectionFlowsQuery} {flow : ConnectionFlow} :
    passes (given query.ip) (given query.protocol) (given query.state) flow = true ↔
      Satisfies query flow := by
  have hprotocol : ((given query.protocol).map fun value => eqIgnoreAsciiCase flow.protocol value).getD true =
      true ↔ ∀ wanted, given query.protocol = some wanted →
        toAsciiLowercase flow.protocol = toAsciiLowercase wanted := by
    cases given query.protocol <;> simp [eqIgnoreAsciiCase]
  have hstate : ((given query.state).map fun value =>
      (flow.state.map fun state => eqIgnoreAsciiCase state value).getD false).getD true = true ↔
      ∀ wanted, given query.state = some wanted →
        ∃ state, flow.state = some state ∧ toAsciiLowercase state = toAsciiLowercase wanted := by
    cases given query.state <;> cases flow.state <;> simp [eqIgnoreAsciiCase]
  have hip : flowMatchesIpFilters flow (ipFilters (given query.ip)) = true ↔
      (ipFilters (given query.ip) = [] ∨ ∃ address ∈ ipFilters (given query.ip),
        toAsciiLowercase flow.orig.src = toAsciiLowercase address ∨
          toAsciiLowercase flow.reply.dst = toAsciiLowercase address) := by
    simp [flowMatchesIpFilters, eqIgnoreAsciiCase]
  unfold passes
  rw [Bool.and_eq_true, Bool.and_eq_true, hprotocol, hstate, hip]
  exact ⟨fun ⟨⟨hp, hs⟩, hi⟩ => ⟨hp, hs, hi⟩, fun h => ⟨⟨h.protocol, h.state⟩, h.ip⟩⟩

/-! ### The order -/

instance : Std.TransCmp flowOrder := by
  unfold flowOrder
  infer_instance

theorem flowLe_trans (a b c : ConnectionFlow) (hab : flowLe a b = true) (hbc : flowLe b c = true) :
    flowLe a c = true :=
  Std.TransCmp.isLE_trans hab hbc

theorem flowLe_total (a b : ConnectionFlow) : (flowLe a b || flowLe b a) = true := by
  have hswap : flowOrder b a = (flowOrder a b).swap := Std.OrientedCmp.eq_swap
  unfold flowLe
  rw [hswap]
  cases flowOrder a b <;> rfl

theorem orig_eq_of_flowLe {a b : ConnectionFlow} (hab : flowLe a b = true) (hba : flowLe b a = true) :
    a.orig = b.orig := by
  have heq : flowOrder a b = .eq := Std.OrientedCmp.isLE_antisymm hab hba
  obtain ⟨hsrc, heq⟩ := Ordering.then_eq_eq.mp heq
  obtain ⟨hdst, heq⟩ := Ordering.then_eq_eq.mp heq
  obtain ⟨hsport, hdport⟩ := Ordering.then_eq_eq.mp heq
  have hends : ∀ x y : ConnectionEndpoint, x.src = y.src → x.dst = y.dst → x.sport = y.sport →
      x.dport = y.dport → x = y := by
    rintro ⟨⟩ ⟨⟩ rfl rfl rfl rfl
    rfl
  exact hends _ _ (Std.compare_eq_iff_eq.mp hsrc) (Std.compare_eq_iff_eq.mp hdst)
    (Std.compare_eq_iff_eq.mp hsport) (Std.compare_eq_iff_eq.mp hdport)

/-! ### The selected flows -/

section
variable {o o' : IterOrder} {state : ConntrackState} {query : ConnectionFlowsQuery}

theorem selectedFlows_perm : (selectedFlows o state query).Perm
    ((state.flows.entries.map fun e => e.2).filter
      (passes (given query.ip) (given query.protocol) (given query.state))) :=
  (List.mergeSort_perm _ _).trans (((o.perm _).map _).filter _)

theorem pairwise_selectedFlows :
    (selectedFlows o state query).Pairwise fun a b => flowLe a b = true :=
  List.pairwise_mergeSort flowLe_trans flowLe_total _

theorem length_selectedFlows_le : (selectedFlows o state query).length ≤ len state.flows := by
  rw [selectedFlows_perm.length_eq]
  exact (List.length_filter_le _ _).trans (List.length_map _).le

/-- **The order of the table shows only among flows with the same original tuple.** -/
theorem selectedFlows_eq
    (hunique : ∀ k k' f f', state.flows.lookup k = some f → state.flows.lookup k' = some f' →
      f.orig = f'.orig → f = f') : selectedFlows o state query = selectedFlows o' state query := by
  have hlookup : ∀ f ∈ ((o.order state.flows.entries).map fun e => e.2).filter
      (passes (given query.ip) (given query.protocol) (given query.state)),
      ∃ k, state.flows.lookup k = some f := by
    intro f hf
    obtain ⟨e, he, rfl⟩ := List.mem_map.mp (List.mem_of_mem_filter hf)
    exact ⟨e.1, mem_order_iff.mp he⟩
  refine mergeSort_eq_of_perm flowLe_trans flowLe_total
    ((((o.perm _).trans (o'.perm _).symm).map _).filter _) fun a ha b hb hab hba => ?_
  obtain ⟨k, hk⟩ := hlookup a ha
  obtain ⟨k', hk'⟩ := hlookup b hb
  exact hunique k k' a b hk hk' (orig_eq_of_flowLe hab hba)

end

/-! ### The pages -/

theorem effectiveSize_bounds (query : ConnectionFlowsQuery) :
    0 < effectiveSize query ∧ effectiveSize query ≤ 500 := by
  unfold effectiveSize
  omega

/-- The quotient of the source rounds up. -/
theorem roundUp_eq {n s : ℕ} (hs : 0 < s) : (n + (s - 1)) / s = divCeil n s := by
  have hdiv := Nat.div_add_mod' n s
  have hlt := Nat.mod_lt n hs
  unfold divCeil
  split_ifs with hzero
  · refine Nat.div_eq_of_lt_le ?_ ?_
    · omega
    · rw [Nat.add_mul]
      omega
  · refine Nat.div_eq_of_lt_le ?_ ?_
    · rw [Nat.add_mul]
      omega
    · rw [Nat.add_mul, Nat.add_mul]
      omega

theorem divCeil_mul_le {n s : ℕ} (hs : 0 < s) : divCeil n s * s ≤ n + (s - 1) := by
  rw [← roundUp_eq hs]
  exact Nat.div_mul_le_self _ _

/-- Page `p` of some flows, or the last page if there are fewer. -/
def pageOf (enabled : Bool) (size : ℕ) (flows : List ConnectionFlow) (p : ℕ) : ConnectionFlowsResponse :=
  let totalPages := max (divCeil flows.length size) 1
  let asked := min (max p 1) totalPages
  { enabled
    items := page size (asked - 1) flows
    total := flows.length
    page := asked
    pageSize := size
    totalPages }

/-- **What is returned** is a page of the selected flows. -/
theorem connectionFlows_eq (o : IterOrder) (enabled : Bool) {state : ConntrackState}
    (hsmall : len state.flows ≤ maxTrackedFlows) (query : ConnectionFlowsQuery) :
    connectionFlows o enabled state query =
      pageOf enabled (effectiveSize query) (selectedFlows o state query) (query.page.getD 1) := by
  obtain ⟨hpos, hsize⟩ := effectiveSize_bounds query
  have hlen : (selectedFlows o state query).length ≤ 100000 := length_selectedFlows_le.trans hsmall
  have husize : usizeMax = 2 ^ 64 - 1 := rfl
  have hceil := divCeil_mul_le (n := (selectedFlows o state query).length) hpos
  have hpages : min ((selectedFlows o state query).length + (effectiveSize query - 1)) usizeMax /
      effectiveSize query = divCeil (selectedFlows o state query).length (effectiveSize query) := by
    rw [Nat.min_eq_left (by omega), roundUp_eq hpos]
  unfold connectionFlows pageOf
  dsimp only
  rw [hpages]
  generalize hasked : min (max (query.page.getD 1) 1)
    (max (divCeil (selectedFlows o state query).length (effectiveSize query)) 1) = asked
  have hstart : (asked - 1) * effectiveSize query ≤ usizeMax := by
    have hle : asked - 1 ≤ divCeil (selectedFlows o state query).length (effectiveSize query) := by omega
    have hmul := Nat.mul_le_mul_right (effectiveSize query) hle
    omega
  have hitems : (if (asked - 1) * effectiveSize query < (selectedFlows o state query).length then
      ((selectedFlows o state query).drop ((asked - 1) * effectiveSize query)).take (effectiveSize query)
      else []) = page (effectiveSize query) (asked - 1) (selectedFlows o state query) := by
    unfold page
    split_ifs with hbefore
    · rfl
    · rw [List.drop_eq_nil_of_le (by omega), List.take_nil]
  rw [Nat.min_eq_left hstart, hitems]

section
variable {enabled : Bool} {size : ℕ} {flows : List ConnectionFlow}

theorem flatMap_pageOf (hpos : 0 < size) :
    (List.range' 1 (max (divCeil flows.length size) 1)).flatMap
      (fun p => (pageOf enabled size flows p).items) =
      flows := by
  have hceil : flows.length ≤ max (divCeil flows.length size) 1 * size :=
    (le_divCeil_mul hpos).trans (Nat.mul_le_mul_right _ (Nat.le_max_left _ _))
  have hsame : ∀ k ∈ List.range (max (divCeil flows.length size) 1),
      (pageOf enabled size flows (1 + k)).items = page size k flows := by
    intro k hk
    have hk := List.mem_range.mp hk
    have hasked : min (max (1 + k) 1) (max (divCeil flows.length size) 1) - 1 = k := by omega
    unfold pageOf
    dsimp only
    rw [hasked]
  rw [List.range'_eq_map_range, List.flatMap_map, List.flatMap_congr hsame, flatMap_range_page,
    List.take_of_length_le hceil]

theorem length_pageOf {p : ℕ} (hp : 1 ≤ p) (hlt : p < (pageOf enabled size flows p).totalPages) :
    (pageOf enabled size flows p).items.length = size := by
  have hlt : p < max (divCeil flows.length size) 1 := hlt
  refine length_page ?_
  show min (max p 1) (max (divCeil flows.length size) 1) - 1 + 1 < divCeil flows.length size
  omega

theorem pageOf_last {p : ℕ} (hlast : (pageOf enabled size flows p).totalPages ≤ p) :
    pageOf enabled size flows p = pageOf enabled size flows (pageOf enabled size flows p).totalPages := by
  have hpages : (pageOf enabled size flows p).totalPages = max (divCeil flows.length size) 1 := rfl
  rw [hpages] at hlast ⊢
  have hp : min (max p 1) (max (divCeil flows.length size) 1) = max (divCeil flows.length size) 1 := by omega
  have hself : min (max (max (divCeil flows.length size) 1) 1) (max (divCeil flows.length size) 1) =
      max (divCeil flows.length size) 1 := by omega
  unfold pageOf
  dsimp only
  rw [hp, hself]

end

/-! ### Runs -/

theorem len_indexFlow_le (s : ConntrackState) (p : ParsedFlow) :
    len (indexFlow s p).flows ≤ len s.flows := by
  unfold indexFlow
  split
  · dsimp only
    split
    · rw [len_erase]
      split_ifs <;> omega
    · exact le_rfl
  · exact le_rfl

theorem bounded_insertFlow {s : ConntrackState} (h : len s.flows ≤ maxTrackedFlows) (p : ParsedFlow) :
    len (insertFlow s p).flows ≤ maxTrackedFlows := by
  have hindex := (len_indexFlow_le s p).trans h
  unfold insertFlow
  dsimp only
  split_ifs with hfull
  · exact hindex
  · rw [len_insert]
    split_ifs with hmem
    · exact hindex
    · by_contra hgrows
      exact hfull ⟨by omega, hmem⟩

theorem bounded_foldl_insertFlow (ps : List ParsedFlow) {s : ConntrackState}
    (h : len s.flows ≤ maxTrackedFlows) : len (ps.foldl insertFlow s).flows ≤ maxTrackedFlows := by
  induction ps generalizing s with
  | nil => exact h
  | cons p ps ih => exact ih (bounded_insertFlow h p)

theorem bounded_step {s : ConntrackState} (h : len s.flows ≤ maxTrackedFlows) (op : Op) :
    len (step s op).flows ≤ maxTrackedFlows := by
  cases op with
  | insert p => exact bounded_insertFlow h p
  | remove p =>
    have herase : ∀ k, len (s.flows.erase k) ≤ maxTrackedFlows := by
      intro k
      rw [len_erase]
      split_ifs <;> omega
    show len (removeFlow s p).flows ≤ maxTrackedFlows
    unfold removeFlow
    dsimp only
    split
    · exact herase _
    · split
      · exact herase _
      · exact herase _
  | replace ps => exact bounded_foldl_insertFlow _ (s := ⟨∅, ∅, s.lastError⟩) (Nat.zero_le _)

/-- **The table keeps its limit in every run.** -/
theorem bounded_run (ops : List Op) {s : ConntrackState} (h : len s.flows ≤ maxTrackedFlows) :
    len (ops.foldl step s).flows ≤ maxTrackedFlows := by
  induction ops generalizing s with
  | nil => exact h
  | cons op ops ih => exact ih (bounded_step h op)

/-- **The pages of the connections are a partition of the matching flows**, in every state of every run of
events and dumps: one after the other they are these flows, sorted and each once; all but the last are full;
and a page after the last one is the last one. The order in which the table is iterated shows only if two
flows have the same original tuple. -/
theorem flow_pages_partition (o : IterOrder) (enabled : Bool) (ops : List Op)
    (query : ConnectionFlowsQuery) :
    let state := ops.foldl step .default
    let response := fun p => connectionFlows o enabled state { query with page := some p }
    ∃ flows : List ConnectionFlow,
      (∃ selected : FlowKey → ConnectionFlow → Bool,
        (∀ k flow, selected k flow = true ↔ Satisfies query flow) ∧
        flows.Perm ((retain selected state.flows).entries.map fun e => e.2)) ∧
      flows.Pairwise (fun a b => flowLe a b = true) ∧
      (List.range' 1 (response 1).totalPages).flatMap (fun p => (response p).items) = flows ∧
      (∀ p, (response p).total = flows.length ∧ (response p).pageSize = effectiveSize query ∧
        (1 ≤ p → p < (response p).totalPages → (response p).items.length = effectiveSize query) ∧
        ((response p).totalPages ≤ p → response p = response (response p).totalPages)) ∧
      ((∀ k k' f f', state.flows.lookup k = some f → state.flows.lookup k' = some f' →
        f.orig = f'.orig → f = f') →
        ∀ o' p, connectionFlows o' enabled state { query with page := some p } = response p) := by
  intro state response
  have hsmall : len state.flows ≤ maxTrackedFlows := bounded_run ops (Nat.zero_le _)
  obtain ⟨hpos, -⟩ := effectiveSize_bounds query
  have hresponse : ∀ p, response p =
      pageOf enabled (effectiveSize query) (selectedFlows o state query) p := fun p =>
    connectionFlows_eq o enabled hsmall { query with page := some p }
  simp only [hresponse]
  refine ⟨selectedFlows o state query, ⟨fun _ flow => passes (given query.ip) (given query.protocol)
    (given query.state) flow, fun _ flow => passes_iff, ?_⟩, pairwise_selectedFlows,
    flatMap_pageOf hpos, fun p => ⟨rfl, rfl, length_pageOf, pageOf_last⟩, fun hunique o' p => ?_⟩
  · refine selectedFlows_perm.trans (List.Perm.of_eq ?_)
    rw [List.filter_map]
    rfl
  · rw [connectionFlows_eq o' enabled hsmall]
    show pageOf enabled (effectiveSize query) (selectedFlows o' state query) p = _
    have hsame : selectedFlows o' state query = selectedFlows o state query := selectedFlows_eq hunique
    rw [hsame]

end BandixPlus.Api.Flows
