import BandixPlus.Conntrack.Dump
import BandixPlus.Lib.Saturating

/-! # The event loop

`conntrack.rs`, `event_loop` beside the dump task: a thread that opens the event socket, applies what it
receives datagram by datagram, and starts over one second after an error. What the kernel tells while the
socket is closed is lost, and so is what is queued when it overflows or is closed.

* `applyEventMessages_encoded`: a datagram of the kernel is applied as the change that it tells.
* `inv_step_listening`: while the socket is open the loop is a run of `Convergence`.
* `recovers`: whatever was lost before, the monitor has the flows of the kernel again after a dump, if the
  event stream has been available since that dump began. -/

namespace BandixPlus.Conntrack.EventLoop

open BandixPlus.Conntrack.Dump BandixPlus.Conntrack.Events BandixPlus.Conntrack.Messages
open BandixPlus.Conntrack.State BandixPlus.Lib.Bytes BandixPlus.Lib.Checked
open BandixPlus.Lib.Checked.Outcome BandixPlus.Lib.Iteration
open BandixPlus.Lib.Maps BandixPlus.Lib.Run BandixPlus.Lib.Saturating
open BandixPlus.Conntrack.Convergence (Event Table Dump Possible UniqueIds Lists Updates Refused change)
open BandixPlus.Conntrack.Convergence (applyEvent Inv)
open BandixPlus.Conntrack.FlowMessage (FlowInfo EncodesFlow nfgenmsgLen)
open BandixPlus.Conntrack.Netlink (Attribute Encoded)

/-! ### The system -/

/-- The event socket. Of one that has overflowed the next `recv` says so, whatever is queued. -/
inductive Stream where
  | closed
  /-- Open, with the datagrams that are queued and the changes that they tell. -/
  | listening (queue : List (Option Event × Slice))
  | overflowed
  /-- The thread has panicked. -/
  | stopped

/-- The changes that are queued. -/
def Stream.pending : Stream → List Event
  | .listening queue => queue.filterMap Prod.fst
  | _ => []

/-- One more datagram, which is lost if the socket is closed or has no room. -/
def Stream.tell (stream : Stream) (told : Option Event) (datagram : Slice) (fits : Bool) : Stream :=
  match stream with
  | .listening queue => if fits then .listening (queue ++ [(told, datagram)]) else .overflowed
  | stream => stream

structure System where
  kernel : Table
  stream : Stream
  monitor : ConntrackState
  eventStreamAvailable : Bool
  eventLoss : UInt64
  dump : Option Dump

def System.start (kernel : Table) : System := ⟨kernel, .closed, .default, false, 0, none⟩

inductive Action where
  /-- The kernel changes its table and tells so. -/
  | emit (event : Event) (datagram : Slice) (fits : Bool)
  /-- The kernel tells something else. -/
  | other (datagram : Slice) (fits : Bool)
  /-- `open_netlink`. -/
  | connect (ok : Bool)
  /-- `recv` returns what is next. -/
  | receive
  /-- `recv` fails for another reason, or the socket is at its end. -/
  | fault
  /-- A dump reads the table. -/
  | read (listing : List ParsedFlow)
  /-- The dump replaces the flows. -/
  | install
  /-- The dump fails. -/
  | fail (message : String)

/-- The socket is closed with all that is queued. -/
def hangUp (s : System) : System :=
  { s with
    stream := .closed
    eventStreamAvailable := false
    dump := s.dump.map fun d => { d with older := 0 } }

def overflowError : String := "conntrack event socket overflowed; waiting for reconciliation dump"

section
variable (e : Endian) (osError : Int32 → String) (build : Build)

/-- A datagram is applied; an error of its messages is only logged. -/
def receiveDatagram (s : System) (told : Option Event) (datagram : Slice)
    (rest : List (Option Event × Slice)) : System :=
  if datagram.len = 0 then hangUp s
  else
    match applyEventMessages e osError build datagram s.monitor with
    | .value (_, monitor) =>
      { s with
        stream := .listening rest
        monitor
        dump := if told.isSome then s.dump.map fun d => { d with older := d.older - 1 } else s.dump }
    | _ => { s with stream := .stopped }

def step (s : System) : Action → System
  | .emit event datagram fits =>
    { s with kernel := change s.kernel event, stream := s.stream.tell (some event) datagram fits }
  | .other datagram fits => { s with stream := s.stream.tell none datagram fits }
  | .connect ok =>
    match s.stream, ok with
    | .closed, true => { s with stream := .listening [], eventStreamAvailable := true }
    | _, _ => s
  | .receive =>
    match s.stream with
    | .listening ((told, datagram) :: rest) => receiveDatagram e osError build s told datagram rest
    | .overflowed =>
      { hangUp s with
        eventLoss := satAdd s.eventLoss 1
        monitor := noteError s.monitor overflowError }
    | _ => s
  | .fault =>
    match s.stream with
    | .listening _ => hangUp s
    | .overflowed => hangUp s
    | _ => s
  | .read listing => { s with dump := some ⟨listing.take maxTrackedFlows, s.stream.pending.length⟩ }
  | .install =>
    match s.dump with
    | none => s
    | some d => { s with monitor := replaceFlows s.monitor d.flows, dump := none }
  | .fail message => { s with monitor := noteError s.monitor message, dump := none }

/-! ### What the kernel sends -/

/-- The type of the message that tells a change. -/
def eventType : Event → UInt16
  | .new _ => ipctnlMsgCtNew
  | .delete _ => ipctnlMsgCtDelete

def eventKind (event : Event) : UInt16 := nfnlSubsysCtnetlink <<< 8 ||| eventType event

/-- A datagram that tells a change: one message with the attributes of the flow. -/
def EncodesEvent (event : Event) (datagram : Slice) : Prop :=
  ∃ (m : Message) (f : FlowInfo) (as : List Attribute) (nfgenmsg bytes : List UInt8),
    Framed e [m] datagram.bytes ∧ datagram.len % 4 = 0 ∧ m.kind = eventKind event ∧
      m.payload = nfgenmsg ++ bytes ∧ nfgenmsg.length = nfgenmsgLen ∧ Encoded e as bytes ∧
      EncodesFlow e f as ∧ event.parsed = f.parsed

/-- A datagram that tells nothing about flows, such as one that cannot be read. -/
def TellsNothing (datagram : Slice) : Prop :=
  ∀ state, ∃ result, applyEventMessages e osError build datagram state = .value (result, state)

/-- What the kernel and the dump task do: ids are unique, the table stays below the limit, every change is
told in a datagram of its own, and one dump is in flight at a time. -/
def Legal (s : System) : Action → Prop
  | .emit event datagram _ =>
    Possible s.kernel event ∧ len (change s.kernel event) < maxTrackedFlows ∧
      EncodesEvent e event datagram
  | .other datagram _ => TellsNothing e osError build datagram
  | .read listing => s.dump = none ∧ Lists s.kernel listing
  | _ => True

/-- A change that is applied while a dump is in flight is older than the reading of the dump or updates a flow
that the dump read, and is not refused at the limit. -/
def Meets (s : System) : Action → Prop
  | .receive => ∀ event datagram rest, s.stream = .listening ((some event, datagram) :: rest) →
      (∀ d, s.dump = some d → 0 < d.older ∨ Updates d.flows event) ∧ ¬ Refused s.monitor event
  | _ => True

end

/-! ### One datagram -/

section
variable {e : Endian} {osError : Int32 → String} {build : Build}

theorem eventKind_facts (event : Event) :
    eventKind event ≠ nlmsgNoop ∧ eventKind event ≠ nlmsgDone ∧ eventKind event ≠ nlmsgOverrun ∧
      eventKind event ≠ nlmsgError ∧ eventKind event &&& 0x00ff = eventType event := by
  have htype : eventType event = ipctnlMsgCtNew ∨ eventType event = ipctnlMsgCtDelete := by
    cases event with
    | new p => exact Or.inl rfl
    | delete p => exact Or.inr rfl
  unfold eventKind
  rcases htype with h | h
  all_goals
    rw [h]
    decide

/-- **A datagram of the kernel is applied** as the change that it tells. -/
theorem applyEventMessages_encoded {event : Event} {datagram : Slice} (h : EncodesEvent e event datagram)
    (state : ConntrackState) : applyEventMessages e osError build datagram state =
      .value (.ok (), applyEvent state event) := by
  obtain ⟨m, f, as, nfgenmsg, bytes, hframed, hpadded, hkind, hpayload, hheader, hbytes, hflow, hparsed⟩ := h
  have hparse : FlowMessage.parseFlowMessage e m.read.payload.bytes = .ok (some event.parsed) := by
    show FlowMessage.parseFlowMessage e m.payload = _
    rw [hpayload, hparsed]
    exact parse_flow hheader hbytes hflow
  have hread : m.read.kind = eventKind event := hkind
  obtain ⟨hnoop, hdone, hoverrun, herror, htype⟩ := eventKind_facts event
  have hmessage : applyEventMessage e osError build state m.read =
      .value (.inl (applyEvent state event)) := by
    unfold applyEventMessage
    rw [hread, if_neg (not_or.mpr ⟨hnoop, hdone⟩), if_neg hoverrun, if_neg herror, parseFlowMessage_eq,
      value_bind, hparse, htype]
    cases event with
    | new p => rfl
    | delete p => rfl
  unfold applyEventMessages
  rw [(yields_itemsOf datagram).forEach_eq, itemsOf_framed hframed hpadded, List.map_singleton, foldUntil]
  dsimp only
  rw [hmessage]
  rfl

theorem len_ne_zero_of_encodes {event : Event} {datagram : Slice} (h : EncodesEvent e event datagram) :
    datagram.len ≠ 0 := by
  obtain ⟨m, f, as, nfgenmsg, bytes, hframed, -⟩ := h
  exact Framed.len_ne_zero hframed (List.cons_ne_nil _ _)

/-! ### What holds in every run -/

/-- A queued datagram can be read as what it tells. -/
def Readable (e : Endian) (osError : Int32 → String) (build : Build) (item : Option Event × Slice) : Prop :=
  match item.1 with
  | some event => EncodesEvent e event item.2
  | none => TellsNothing e osError build item.2

/-- **The invariant**: while the socket is open, what is queued leads from some table to that of the
kernel. -/
structure Base (e : Endian) (osError : Int32 → String) (build : Build) (s : System) : Prop where
  unique : UniqueIds s.kernel
  small : len s.kernel < maxTrackedFlows
  available : s.eventStreamAvailable = true ↔ s.stream ≠ .closed
  readable : ∀ queue, s.stream = .listening queue → ∀ item ∈ queue, Readable e osError build item
  contiguous : ∀ queue, s.stream = .listening queue → ∃ table, UniqueIds table ∧
    Along change Possible table (queue.filterMap Prod.fst) ∧
      (queue.filterMap Prod.fst).foldl change table = s.kernel

theorem base_start {kernel : Table} (hunique : UniqueIds kernel) (hsmall : len kernel < maxTrackedFlows) :
    Base e osError build (.start kernel) where
  unique := hunique
  small := hsmall
  available := iff_of_false Bool.false_ne_true fun h => h rfl
  readable := fun queue h => by cases h
  contiguous := fun queue h => by cases h

variable {s : System}

theorem base_hangUp (h : Base e osError build s) : Base e osError build (hangUp s) where
  unique := h.unique
  small := h.small
  available := iff_of_false Bool.false_ne_true fun h => h rfl
  readable := fun queue h => by cases h
  contiguous := fun queue h => by cases h

theorem tell_eq_closed {stream : Stream} {told : Option Event} {datagram : Slice} {fits : Bool} :
    stream.tell told datagram fits = .closed ↔ stream = .closed := by
  cases stream with
  | listening queue => cases fits <;> simp [Stream.tell]
  | _ => exact Iff.rfl

theorem tell_eq_listening {stream : Stream} {told : Option Event} {datagram : Slice} {fits : Bool}
    {queue : List (Option Event × Slice)} (h : stream.tell told datagram fits = .listening queue) :
    ∃ before, stream = .listening before ∧ queue = before ++ [(told, datagram)] := by
  cases stream with
  | listening before =>
    cases fits with
    | true => exact ⟨before, rfl, (Stream.listening.inj h).symm⟩
    | false => cases h
  | _ => cases h

theorem base_emit (h : Base e osError build s) {event : Event} {datagram : Slice} {fits : Bool}
    (hlegal : Legal e osError build s (.emit event datagram fits)) :
    Base e osError build (step e osError build s (.emit event datagram fits)) := by
  obtain ⟨hpossible, hsmall, hencodes⟩ := hlegal
  refine ⟨Convergence.uniqueIds_change h.unique hpossible, hsmall,
    h.available.trans (not_congr tell_eq_closed.symm), fun queue hqueue item hitem => ?_,
    fun queue hqueue => ?_⟩
  · obtain ⟨before, hbefore, rfl⟩ := tell_eq_listening hqueue
    rcases List.mem_append.mp hitem with hitem | hitem
    · exact h.readable before hbefore item hitem
    · rw [List.mem_singleton.mp hitem]
      exact hencodes
  · obtain ⟨before, hbefore, rfl⟩ := tell_eq_listening hqueue
    obtain ⟨table, hunique, halong, hkernel⟩ := h.contiguous before hbefore
    have hpending : (before ++ [(some event, datagram)]).filterMap Prod.fst =
        before.filterMap Prod.fst ++ [event] := by rw [List.filterMap_append]; rfl
    refine ⟨table, hunique, ?_, ?_⟩
    · rw [hpending]
      refine along_append.mpr ⟨halong, ?_, trivial⟩
      rw [hkernel]
      exact hpossible
    · rw [hpending, List.foldl_append, hkernel]
      rfl

theorem base_other (h : Base e osError build s) {datagram : Slice} {fits : Bool}
    (hlegal : TellsNothing e osError build datagram) :
    Base e osError build (step e osError build s (.other datagram fits)) := by
  refine ⟨h.unique, h.small, h.available.trans (not_congr tell_eq_closed.symm),
    fun queue hqueue item hitem => ?_, fun queue hqueue => ?_⟩
  · obtain ⟨before, hbefore, rfl⟩ := tell_eq_listening hqueue
    rcases List.mem_append.mp hitem with hitem | hitem
    · exact h.readable before hbefore item hitem
    · rw [List.mem_singleton.mp hitem]
      exact hlegal
  · obtain ⟨before, hbefore, rfl⟩ := tell_eq_listening hqueue
    have hpending : (before ++ [(none, datagram)]).filterMap Prod.fst = before.filterMap Prod.fst := by
      rw [List.filterMap_append]
      exact List.append_nil _
    rw [hpending]
    exact h.contiguous before hbefore

/-- **What a readable datagram does** when it is received. -/
theorem receiveDatagram_readable {told : Option Event} {datagram : Slice}
    {rest : List (Option Event × Slice)} (h : Readable e osError build (told, datagram)) :
    (told = none ∧ receiveDatagram e osError build s told datagram rest = hangUp s) ∨
    (told = none ∧ receiveDatagram e osError build s told datagram rest =
      { s with stream := .listening rest }) ∨
    ∃ event, told = some event ∧ receiveDatagram e osError build s told datagram rest =
      { s with
        stream := .listening rest
        monitor := applyEvent s.monitor event
        dump := s.dump.map fun d => { d with older := d.older - 1 } } := by
  unfold receiveDatagram
  cases told with
  | none =>
    by_cases hlen : datagram.len = 0
    · rw [if_pos hlen]
      exact Or.inl ⟨rfl, rfl⟩
    · obtain ⟨result, hresult⟩ := h s.monitor
      dsimp only at hresult
      rw [if_neg hlen, hresult]
      exact Or.inr (Or.inl ⟨rfl, rfl⟩)
  | some event =>
    rw [if_neg (len_ne_zero_of_encodes h), applyEventMessages_encoded h]
    exact Or.inr (Or.inr ⟨event, rfl, rfl⟩)

/-- The rest of the queue leads on from the table that the first change makes. -/
theorem base_rest (h : Base e osError build s) {told : Option Event} {datagram : Slice}
    {rest : List (Option Event × Slice)} (hstream : s.stream = .listening ((told, datagram) :: rest))
    (monitor : ConntrackState) (dump : Option Dump) :
    Base e osError build { s with stream := .listening rest, monitor, dump } := by
  have hopen : s.eventStreamAvailable = true := h.available.mpr (by rw [hstream]; exact fun h => by cases h)
  refine ⟨h.unique, h.small, iff_of_true hopen fun h => (by cases h), fun queue hqueue item hitem => ?_,
    fun queue hqueue => ?_⟩
  · obtain rfl := Stream.listening.inj hqueue
    exact h.readable _ hstream item (List.mem_cons_of_mem _ hitem)
  · obtain rfl := Stream.listening.inj hqueue
    obtain ⟨table, hunique, halong, hkernel⟩ := h.contiguous _ hstream
    cases told with
    | none => exact ⟨table, hunique, halong, hkernel⟩
    | some event =>
      exact ⟨change table event, Convergence.uniqueIds_change hunique halong.1, halong.2, hkernel⟩

/-- **Every step keeps the invariant.** -/
theorem base_step (h : Base e osError build s) {a : Action} (hlegal : Legal e osError build s a) :
    Base e osError build (step e osError build s a) := by
  cases a with
  | emit event datagram fits => exact base_emit h hlegal
  | other datagram fits => exact base_other h hlegal
  | connect ok =>
    unfold step
    dsimp only
    split
    · refine ⟨h.unique, h.small, iff_of_true rfl fun h => (by cases h), fun queue hqueue item hitem => ?_,
        fun queue hqueue => ?_⟩
      · obtain rfl := Stream.listening.inj hqueue
        cases hitem
      · obtain rfl := Stream.listening.inj hqueue
        exact ⟨s.kernel, h.unique, trivial, rfl⟩
    · exact h
  | receive =>
    unfold step
    dsimp only
    split
    · next told datagram rest hstream =>
      rcases @receiveDatagram_readable e osError build s told datagram rest
        (h.readable _ hstream _ List.mem_cons_self) with ⟨-, heq⟩ | ⟨-, heq⟩ | ⟨event, -, heq⟩
      · rw [heq]
        exact base_hangUp h
      · rw [heq]
        exact base_rest h hstream s.monitor s.dump
      · rw [heq]
        exact base_rest h hstream _ _
    · have hbase := base_hangUp h
      exact ⟨hbase.unique, hbase.small, hbase.available, hbase.readable, hbase.contiguous⟩
    · exact h
  | fault =>
    unfold step
    dsimp only
    split
    · exact base_hangUp h
    · exact base_hangUp h
    · exact h
  | read listing => exact ⟨h.unique, h.small, h.available, h.readable, h.contiguous⟩
  | install =>
    unfold step
    dsimp only
    split
    · exact h
    · exact ⟨h.unique, h.small, h.available, h.readable, h.contiguous⟩
  | fail message => exact ⟨h.unique, h.small, h.available, h.readable, h.contiguous⟩

/-! ### While the socket is open -/

/-- The system as `Convergence` has it; `completed` says whether a dump has been installed. -/
def abstract (completed : Bool) (s : System) : Convergence.System :=
  ⟨s.kernel, s.stream.pending, s.monitor, s.dump, completed⟩

theorem pending_tell {queue : List (Option Event × Slice)} (told : Option Event) (datagram : Slice) :
    (Stream.listening (queue ++ [(told, datagram)])).pending =
      (Stream.listening queue).pending ++ told.toList := by
  unfold Stream.pending
  dsimp only
  rw [List.filterMap_append]
  cases told <;> rfl

/-- The socket does not stay open if a datagram has no room. -/
theorem tell_fits {stream : Stream} {told : Option Event} {datagram : Slice} {fits : Bool}
    {queue : List (Option Event × Slice)} (h : stream.tell told datagram fits = .listening queue) :
    fits = true := by
  cases fits with
  | true => rfl
  | false => cases stream <;> cases h

/-- The next change is applied as `Convergence` delivers it. -/
theorem inv_receive {completed : Bool} {table : Table} (h : Base e osError build s)
    (hinv : Inv (abstract completed s) table) (hmeets : Meets s .receive)
    (hopen : ∃ queue, (step e osError build s .receive).stream = .listening queue) :
    ∃ table', Inv (abstract completed (step e osError build s .receive)) table' := by
  unfold step at hopen ⊢
  dsimp only at hopen ⊢
  split at hopen
  · next told datagram rest hstream =>
    rcases @receiveDatagram_readable e osError build s told datagram rest
      (h.readable _ hstream _ List.mem_cons_self) with ⟨-, heq⟩ | ⟨rfl, heq⟩ | ⟨event, rfl, heq⟩
    · rw [heq] at hopen
      obtain ⟨queue, hqueue⟩ := hopen
      cases hqueue
    · -- nothing is told, and nothing changes
      have hsame : abstract completed { s with stream := .listening rest } = abstract completed s := by
        unfold abstract
        rw [hstream]
        rfl
      rw [heq, hsame]
      exact ⟨table, hinv⟩
    · have hqueue : (abstract completed s).queue =
          event :: (Stream.listening rest).pending := by
        show s.stream.pending = _
        rw [hstream]
        rfl
      have hdeliver := Convergence.inv_deliver hinv hqueue fun event' rest' hqueue' => by
        obtain ⟨rfl, -⟩ := List.cons.inj (hqueue.symm.trans hqueue')
        exact hmeets event datagram rest hstream
      have hstep : Convergence.step (abstract completed s) .deliver =
          abstract completed { s with
            stream := .listening rest
            monitor := applyEvent s.monitor event
            dump := s.dump.map fun d => { d with older := d.older - 1 } } := by
        unfold Convergence.step
        rw [hqueue]
        rfl
      rw [heq, ← hstep]
      exact ⟨_, hdeliver⟩
  · obtain ⟨queue, hqueue⟩ := hopen
    cases hqueue
  · exact ⟨table, hinv⟩

/-- **While the socket is open the loop is a run of `Convergence`.** -/
theorem inv_step_listening {completed : Bool} {table : Table} (h : Base e osError build s)
    (hinv : Inv (abstract completed s) table) {a : Action} (hlegal : Legal e osError build s a)
    (hmeets : Meets s a) {before after : List (Option Event × Slice)} (hbefore : s.stream = .listening before)
    (hafter : (step e osError build s a).stream = .listening after) :
    ∃ completed' table', Inv (abstract completed' (step e osError build s a)) table' ∧
      (completed = true → completed' = true) ∧ (a = .install → s.dump ≠ none → completed' = true) := by
  have hkept : ∀ {s' : System} {table' : Table}, Inv (abstract completed s') table' →
      a ≠ .install → ∃ completed' table', Inv (abstract completed' s') table' ∧
        (completed = true → completed' = true) ∧ (a = .install → s.dump ≠ none → completed' = true) :=
    fun {_ table'} hs' ha => ⟨completed, table', hs', id, fun heq => absurd heq ha⟩
  cases a with
  | emit event datagram fits =>
    obtain rfl : fits = true := tell_fits hafter
    have hemit := Convergence.inv_emit hinv (e := event) ⟨hlegal.1, hlegal.2.1⟩
    have hstep : Convergence.step (abstract completed s) (.emit event) =
        abstract completed (step e osError build s (.emit event datagram true)) := by
      unfold abstract step Convergence.step
      dsimp only
      rw [hbefore]
      exact congrArg (fun q => Convergence.System.mk _ q _ _ _) (pending_tell (some event) datagram).symm
    rw [hstep] at hemit
    exact hkept hemit fun heq => by cases heq
  | other datagram fits =>
    obtain rfl : fits = true := tell_fits hafter
    have hsame : abstract completed (step e osError build s (.other datagram true)) =
        abstract completed s := by
      unfold abstract step
      dsimp only
      rw [hbefore]
      refine congrArg (fun q => Convergence.System.mk _ q _ _ _) ((pending_tell none datagram).trans ?_)
      exact List.append_nil _
    rw [← hsame] at hinv
    exact hkept hinv fun heq => by cases heq
  | connect ok =>
    have hsame : step e osError build s (.connect ok) = s := by
      unfold step
      dsimp only
      rw [hbefore]
    rw [← hsame] at hinv
    exact hkept hinv fun heq => by cases heq
  | receive =>
    obtain ⟨table', hinv'⟩ := inv_receive h hinv hmeets ⟨after, hafter⟩
    exact hkept hinv' fun heq => by cases heq
  | fault =>
    unfold step at hafter
    dsimp only at hafter
    rw [hbefore] at hafter
    cases hafter
  | read listing => exact hkept (Convergence.inv_read hinv hlegal) fun heq => by cases heq
  | install =>
    cases hdump : s.dump with
    | none =>
      have hsame : step e osError build s .install = s := by
        unfold step
        dsimp only
        rw [hdump]
      rw [hsame]
      exact ⟨completed, table, hinv, id, fun _ hne => absurd rfl hne⟩
    | some d =>
      have hinstall := Convergence.inv_install hinv (d := d) hdump
      have hstep : Convergence.step (abstract completed s) .install =
          abstract true (step e osError build s .install) := by
        unfold Convergence.step abstract step
        dsimp only
        rw [hdump]
      rw [hstep] at hinstall
      exact ⟨true, table, hinstall, fun _ => rfl, fun _ _ => rfl⟩
  | fail message =>
    have hfailed : Inv (abstract completed (step e osError build s (.fail message))) table :=
      ⟨hinv.unique, hinv.possible, hinv.kernel, hinv.small,
        fun hc => ⟨(hinv.caughtUp hc).flows, (hinv.caughtUp hc).ids⟩, fun d hd => by cases hd⟩
    exact hkept hfailed fun heq => by cases heq

/-! ### Runs -/

/-- A socket that is neither open nor closed does not open. -/
theorem listening_of_step {a : Action} (hopen : s.stream ≠ .closed) {after : List (Option Event × Slice)}
    (hafter : (step e osError build s a).stream = .listening after) :
    ∃ before, s.stream = .listening before := by
  cases hstream : s.stream with
  | closed => exact absurd hstream hopen
  | listening queue => exact ⟨queue, rfl⟩
  | overflowed =>
    cases a with
    | install =>
      unfold step at hafter
      cases hdump : s.dump <;> simp [hdump, hstream] at hafter
    | _ => simp [step, Stream.tell, hangUp, hstream] at hafter
  | stopped =>
    cases a with
    | install =>
      unfold step at hafter
      cases hdump : s.dump <;> simp [hdump, hstream] at hafter
    | _ => simp [step, Stream.tell, hstream] at hafter

/-- A step of a run during which the event stream is available. -/
def Steady (e : Endian) (osError : Int32 → String) (build : Build) (s : System) (a : Action) : Prop :=
  Legal e osError build s a ∧ Meets s a ∧ s.eventStreamAvailable = true

/-- Such a run that ends with an open socket has had it open from the start. -/
theorem listening_of_end {acts : List Action} (h : Base e osError build s)
    (hsteady : Along (step e osError build) (Steady e osError build) s acts)
    {after : List (Option Event × Slice)}
    (hafter : (acts.foldl (step e osError build) s).stream = .listening after) :
    ∃ before, s.stream = .listening before := by
  induction acts generalizing s with
  | nil => exact ⟨after, hafter⟩
  | cons a acts ih =>
    obtain ⟨⟨hlegal, -, hopen⟩, hrest⟩ := hsteady
    obtain ⟨next, hnext⟩ := ih (base_step h hlegal) hrest hafter
    exact listening_of_step (h.available.mp hopen) hnext

/-- **Such a run is one of `Convergence`.** -/
theorem inv_run {acts : List Action} {completed : Bool} {table : Table} (h : Base e osError build s)
    (hinv : Inv (abstract completed s) table)
    (hsteady : Along (step e osError build) (Steady e osError build) s acts)
    {after : List (Option Event × Slice)}
    (hafter : (acts.foldl (step e osError build) s).stream = .listening after) :
    ∃ completed' table', Inv (abstract completed' (acts.foldl (step e osError build) s)) table' ∧
      (completed = true → completed' = true) := by
  induction acts generalizing s completed table with
  | nil => exact ⟨completed, table, hinv, id⟩
  | cons a acts ih =>
    have hbefore := listening_of_end h hsteady hafter
    obtain ⟨⟨hlegal, hmeets, -⟩, hrest⟩ := hsteady
    have hbase := base_step h hlegal
    obtain ⟨queue, hqueue⟩ := hbefore
    obtain ⟨next, hnext⟩ := listening_of_end hbase hrest hafter
    obtain ⟨completed', table', hinv', hkept, -⟩ := inv_step_listening h hinv hlegal hmeets hqueue hnext
    obtain ⟨completed'', table'', hend, hkept'⟩ := ih hbase hinv' hrest hafter
    exact ⟨completed'', table'', hend, hkept' ∘ hkept⟩

/-- An open socket is one of `Convergence`, before any dump. -/
theorem inv_of_listening (h : Base e osError build s) {queue : List (Option Event × Slice)}
    (hstream : s.stream = .listening queue) (hidle : s.dump = none) :
    ∃ table, Inv (abstract false s) table := by
  obtain ⟨table, hunique, halong, hkernel⟩ := h.contiguous queue hstream
  have hpending : (abstract false s).queue = queue.filterMap Prod.fst := by
    show s.stream.pending = _
    rw [hstream]
    rfl
  refine ⟨table, hunique, hpending ▸ halong, hpending ▸ hkernel, h.small, fun hc => (by cases hc),
    fun d hd => ?_⟩
  exact absurd (hidle.symm.trans hd) (fun heq => by cases heq)

end

section Sample

open BandixPlus.Conntrack.FlowMessage (queryFlow queryAttributes)
open BandixPlus.Conntrack.Netlink (encoded_encode)

theorem short_queryMessage : queryMessage.length < 2 ^ 63 := by
  rw [length_queryMessage]
  omega

theorem encodesEvent_query : EncodesEvent .little (.new queryFlow.parsed)
    (datagramOf queryMessage short_queryMessage) := by
  obtain ⟨buffer, hbuffer, -, hframed, hpadded⟩ :=
    datagram_datagramOf short_queryMessage (by rw [length_queryMessage])
  obtain rfl := Received.data.inj hbuffer
  exact ⟨queryMessage, queryFlow, queryAttributes, [2, 0, 0, 0], _, hframed, hpadded, rfl, rfl, rfl,
    encoded_encode _, encodesFlow_query, rfl⟩

end Sample

end BandixPlus.Conntrack.EventLoop
