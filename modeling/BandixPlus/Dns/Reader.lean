import BandixPlus.Dns.Device
import BandixPlus.Dns.PacketSafety
import BandixPlus.Ebpf.Capture
import BandixPlus.Lib.Saturating

/-! # From the kernel to the monitor

`spawn_dns_reader` takes the captured packets out of the ring buffer until it is empty, finds the device of
every message, and then enters all messages into the monitor. The kernel goes on capturing, and the devices
and the topology change, between any two of its steps.

* `inv_step`: every captured packet is in the ring, or the reader has taken it; what it has taken is entered,
  in its hands, or counted as an error.
* `captures_delivered`: so every captured packet reaches the monitor once, in order, byte for byte, in every
  run; and if the kernel pauses, the reader gets to the end.
* `readItem_event`: the sizes that the reader checks are those that the kernel wrote. -/

namespace BandixPlus.Dns.Reader

open BandixPlus.Common BandixPlus.Lib.Bytes BandixPlus.Lib.Checked BandixPlus.Lib.Checked.Outcome
open BandixPlus.Lib.Maps BandixPlus.Lib.Saturating BandixPlus.Dns.Device BandixPlus.Dns.Monitor
open BandixPlus.Dns.Packet BandixPlus.Dns.PacketSafety BandixPlus.Ebpf.Capture BandixPlus.Ebpf.Framing
open BandixPlus.Monitor.Runtime BandixPlus.Monitor.Topology

/-! ### The reader -/

/-- One turn of the inner loop: the message of an item, or nothing if it is an error. -/
def readItem (e : Endian) (item : Slice) : Outcome (Option (DnsPacketHeader × ParsedDnsMessage)) :=
  if item.len < headerSize then .value none
  else
    let header := readHeader e item
    let capturedLen := min header.capturedLen.toNat dnsPacketMaxBytes
    if capturedLen = 0 ∨ item.len < headerSize + capturedLen then .value none
    else do
      let packet ← item.indexRange headerSize (headerSize + capturedLen)
      let message ← (parseDnsPacket packet header.ipOffset.toNat header.ipVersion).attempt
      .value (message.map fun message => (header, message))

/-- The time of the packet on the clock of the system, in milliseconds. -/
def timestampMs (clockOffsetNs : ℤ) (header : DnsPacketHeader) : ℕ :=
  (max (header.timestampNs.toNat + clockOffsetNs) 0 / 1000000).toNat % 2 ^ 64

def clientIp (message : ParsedDnsMessage) : Net.Addresses.IpAddr :=
  if message.isQuery then message.sourceIp else message.destinationIp

/-- Where the reader is. -/
inductive Phase where
  /-- It takes items; so far it has some messages and errors. -/
  | reading (messages : List (DnsPacketHeader × ParsedDnsMessage)) (parseErrors : UInt64)
  /-- It finds the devices of the messages, one after the other. -/
  | resolving (messages : List (DnsPacketHeader × ParsedDnsMessage)) (processed : List Capture)
      (parseErrors : UInt64)
  /-- It has panicked. -/
  | stopped

/-- The reader waits for the next packet. -/
def Phase.waiting : Phase := .reading [] 0

/-! ### The system -/

structure System where
  filters : Maps
  /-- The items that the kernel has submitted and that are not taken yet. -/
  ring : List Slice
  registry : HashMap DeviceKey KnownDevice
  topology : TopologySnapshot
  phase : Phase
  monitor : DnsMonitor
  captureParseErrors : UInt64
  /-- The packets that were captured, and the messages that were entered. -/
  captured : List (Frame × PacketMeta)
  ingested : List Capture
  /-- The devices and topologies so far. -/
  known : List (HashMap DeviceKey KnownDevice × TopologySnapshot)

inductive Action where
  /-- A packet passes the hook. -/
  | packet (frame : Frame)
  /-- The reader takes the next item, or finds none. -/
  | next
  /-- It finds the device of the next message; the orders are those of the maps that are iterated. -/
  | resolve (o iter : IterOrder)
  /-- It enters the messages into the monitor. -/
  | ingest
  /-- The devices, the topology and the filters change. -/
  | setRegistry (registry : HashMap DeviceKey KnownDevice)
  | setTopology (topology : TopologySnapshot)
  | setFilters (filters : Maps)

/-- A packet is classified, and captured if it is one of DNS. -/
def capture (e : Endian) (filters : Maps) (frame : Frame) : Option (PacketMeta × Slice) :=
  (resolvePacketMeta filters frame.data frame.direction).bind fun packetMeta =>
    (captureDnsPacket e frame packetMeta).map fun item => (packetMeta, item)

variable (e : Endian) (clockOffsetNs : ℤ)

def step (s : System) : Action → System
  | .packet frame =>
    match capture e s.filters frame with
    | none => s
    | some (packetMeta, item) =>
      { s with ring := s.ring ++ [item], captured := s.captured ++ [(frame, packetMeta)] }
  | .next =>
    match s.phase with
    | .reading messages parseErrors =>
      match s.ring with
      | [] => { s with phase := .resolving messages [] parseErrors }
      | item :: ring =>
        match readItem e item with
        | .value (some message) => { s with ring, phase := .reading (messages ++ [message]) parseErrors }
        | .value none => { s with ring, phase := .reading messages (satAdd parseErrors 1) }
        | _ => { s with ring, phase := .stopped }
    | _ => s
  | .resolve o iter =>
    match s.phase with
    | .resolving ((header, message) :: messages) processed parseErrors =>
      let device := resolveDevice o s.registry s.topology header (clientIp message)
      let processed := processed ++ [⟨message, header, timestampMs clockOffsetNs header, device, iter⟩]
      { s with phase := .resolving messages processed parseErrors }
    | _ => s
  | .ingest =>
    match s.phase with
    | .resolving [] processed parseErrors =>
      { s with
        monitor := processed.foldl ingest s.monitor
        captureParseErrors := satAdd s.captureParseErrors parseErrors
        phase := .waiting
        ingested := s.ingested ++ processed }
    | _ => s
  | .setRegistry registry => { s with registry, known := (registry, s.topology) :: s.known }
  | .setTopology topology => { s with topology, known := (s.registry, topology) :: s.known }
  | .setFilters filters => { s with filters }

/-- The program is loaded, and the reader waits. -/
def System.start (filters : Maps) (registry : HashMap DeviceKey KnownDevice) (topology : TopologySnapshot)
    (monitor : DnsMonitor) : System :=
  ⟨filters, [], registry, topology, .waiting, monitor, 0, [], [], [(registry, topology)]⟩

/-! ### One item -/

/-- **What a captured packet is to userspace**: its header and its message, or an error. -/
def delivery (c : Frame × PacketMeta) : Option (DnsPacketHeader × ParsedDnsMessage) :=
  (parseDnsPacket c.1.data c.2.ipOffset.toNat c.2.ipVersion).ok.map fun message =>
    (headerOf c.1 c.2, message)

variable {e}

/-- **The reader gets the message of the packet that was captured.** -/
theorem readItem_event {frame : Frame} {packetMeta : PacketMeta} {item : Slice}
    (h : captureDnsPacket e frame packetMeta = some item) :
    readItem e item = .value (delivery (frame, packetMeta)) := by
  obtain ⟨hfits, entry, hpos, -, -, rfl⟩ := captureDnsPacket_eq_some.mp h
  have hlen : (event e (headerOf frame packetMeta) frame.data entry hfits).len =
      headerSize + dnsPacketMaxBytes := length_eventBytes e _ entry hfits
  have hcaptured : min (headerOf frame packetMeta).capturedLen.toNat dnsPacketMaxBytes = frame.data.len := by
    have hsmall : (UInt32.ofNat frame.data.len).toNat = frame.data.len := by
      rw [UInt32.toNat_ofNat']
      unfold dnsPacketMaxBytes at hfits
      omega
    unfold headerOf
    dsimp only
    rw [hsmall]
    exact Nat.min_eq_left hfits
  unfold readItem
  dsimp only
  rw [readHeader_event, hcaptured, if_neg (by omega), if_neg (by omega),
    Slice.indexRange_eq (by omega) (by omega), value_bind, cut_event]
  have hmeets := meets_parseDnsPacket frame.data packetMeta.ipOffset.toNat packetMeta.ipVersion
  unfold delivery
  cases hparse : parseDnsPacket frame.data packetMeta.ipOffset.toNat packetMeta.ipVersion with
  | value message =>
    have hheader : parseDnsPacket frame.data (headerOf frame packetMeta).ipOffset.toNat
        (headerOf frame packetMeta).ipVersion = .value message := hparse
    rw [hheader]
    rfl
  | absent =>
    have hheader : parseDnsPacket frame.data (headerOf frame packetMeta).ipOffset.toNat
        (headerOf frame packetMeta).ipVersion = .absent := hparse
    rw [hheader]
    rfl
  | panicked => exact absurd hparse hmeets.ne_panicked

/-! ### The invariant -/

/-- The messages in the hands of the reader. -/
def Phase.inHand : Phase → List (DnsPacketHeader × ParsedDnsMessage)
  | .reading messages _ => messages
  | .resolving messages processed _ => processed.map (fun c => (c.header, c.message)) ++ messages
  | .stopped => []

def Phase.errors : Phase → UInt64
  | .reading _ parseErrors | .resolving _ _ parseErrors => parseErrors
  | .stopped => 0

/-- The captures that are no messages. -/
def failed (captured : List (Frame × PacketMeta)) : ℕ :=
  (captured.filter fun c => (delivery c).isNone).length

/-- The item of a capture. -/
def Item (e : Endian) (c : Frame × PacketMeta) (item : Slice) : Prop :=
  captureDnsPacket e c.1 c.2 = some item

/-- What the reader adds to a message: its time, and a device that was known at some moment. -/
structure Entered (clockOffsetNs : ℤ)
    (known : List (HashMap DeviceKey KnownDevice × TopologySnapshot)) (c : Capture) : Prop where
  timed : c.timestampMs = timestampMs clockOffsetNs c.header
  device : ∃ o, ∃ k ∈ known, c.device = resolveDevice o k.1 k.2 c.header (clientIp c.message)

/-- **Where the captures are**: the reader has taken the first ones, the others are in the ring; of those it
has taken, the messages are entered or in its hands, and the errors are counted. -/
structure Placed (e : Endian) (s : System) (taken rest : List (Frame × PacketMeta)) : Prop where
  captured : s.captured = taken ++ rest
  ring : List.Forall₂ (Item e) rest s.ring
  messages : s.ingested.map (fun c => (c.header, c.message)) ++ s.phase.inHand = taken.filterMap delivery
  errors : ∃ m n, s.captureParseErrors = saturate m ∧ s.phase.errors = saturate n ∧ m + n = failed taken

/-- The messages whose device is found. -/
def Phase.processed : Phase → List Capture
  | .resolving _ processed _ => processed
  | _ => []

structure Inv (e : Endian) (clockOffsetNs : ℤ) (start : DnsMonitor) (s : System) : Prop where
  placed : ∃ taken rest, Placed e s taken rest
  runs : s.phase ≠ .stopped
  monitor : s.monitor = s.ingested.foldl ingest start
  entered : ∀ c ∈ s.ingested ++ s.phase.processed, Entered clockOffsetNs s.known c
  current : (s.registry, s.topology) ∈ s.known

theorem failed_append (captured : List (Frame × PacketMeta)) (c : Frame × PacketMeta) :
    failed (captured ++ [c]) = failed captured + if (delivery c).isNone then 1 else 0 := by
  unfold failed
  rw [List.filter_append, List.length_append]
  split_ifs with h <;> simp [h]

section
variable {clockOffsetNs : ℤ} {start : DnsMonitor} {s : System}

theorem inv_start (filters : Maps) (registry : HashMap DeviceKey KnownDevice) (topology : TopologySnapshot)
    (monitor : DnsMonitor) : Inv e clockOffsetNs monitor (.start filters registry topology monitor) where
  placed := ⟨[], [], rfl, .nil, rfl, 0, 0, rfl, rfl, rfl⟩
  runs := fun h => by cases h
  monitor := rfl
  entered := fun c hc => absurd hc List.not_mem_nil
  current := List.mem_singleton_self _

/-! ### One step -/

theorem inv_packet (h : Inv e clockOffsetNs start s) (frame : Frame) :
    Inv e clockOffsetNs start (step e clockOffsetNs s (.packet frame)) := by
  unfold step
  dsimp only
  cases hcapture : capture e s.filters frame with
  | none => exact h
  | some found =>
    obtain ⟨packetMeta, item⟩ := found
    obtain ⟨taken, rest, hplaced⟩ := h.placed
    obtain ⟨packetMeta', -, hfound⟩ := Option.bind_eq_some_iff.mp hcapture
    obtain ⟨item', hitem, heq⟩ := Option.map_eq_some_iff.mp hfound
    obtain ⟨rfl, rfl⟩ := Prod.mk.inj heq
    refine ⟨⟨taken, rest ++ [(frame, packetMeta')], ?_, ?_, hplaced.messages, hplaced.errors⟩,
      h.runs, h.monitor,
      h.entered, h.current⟩
    · dsimp only
      rw [hplaced.captured, List.append_assoc]
    · exact List.rel_append hplaced.ring (.cons hitem .nil)

/-- **The reader takes an item**: it is that of the first capture that it has not taken. -/
theorem inv_next (h : Inv e clockOffsetNs start s) :
    Inv e clockOffsetNs start (step e clockOffsetNs s .next) := by
  obtain ⟨taken, rest, hplaced⟩ := h.placed
  unfold step
  dsimp only
  cases hphase : s.phase with
  | stopped => exact h
  | resolving => exact h
  | reading messages parseErrors =>
    have hmessages := hplaced.messages
    obtain ⟨m, n, hm, hn, hsum⟩ := hplaced.errors
    rw [hphase] at hmessages hn
    have hentered : ∀ c ∈ s.ingested, Entered clockOffsetNs s.known c := fun c hc =>
      h.entered c (List.mem_append_left _ hc)
    cases hring : s.ring with
    | nil =>
      dsimp only
      refine ⟨⟨taken, rest, hplaced.captured, ?_, hmessages, m, n, hm, hn, hsum⟩, by simp, h.monitor, ?_,
        h.current⟩
      · rw [← hring]
        exact hplaced.ring
      · simpa [Phase.processed] using hentered
    | cons item ring =>
      have hfirst := hplaced.ring
      rw [hring] at hfirst
      obtain ⟨c, rest', hitem, hrest, rfl⟩ := List.forall₂_cons_right_iff.mp hfirst
      have hcaptured : s.captured = (taken ++ [c]) ++ rest' := by simp [hplaced.captured]
      dsimp only
      rw [readItem_event hitem]
      cases hdelivery : delivery c with
      | some message =>
        refine ⟨⟨taken ++ [c], rest', hcaptured, hrest, ?_, m, n, hm, hn, ?_⟩,
          by simp, h.monitor, ?_, h.current⟩
        · simp [Phase.inHand, ← hmessages, hdelivery]
        · simp [failed_append, hdelivery, hsum]
        · simpa [Phase.processed] using hentered
      | none =>
        refine ⟨⟨taken ++ [c], rest', hcaptured, hrest, ?_, m, n + 1, hm, ?_, ?_⟩, by simp, h.monitor, ?_,
          h.current⟩
        · simp [Phase.inHand, ← hmessages, hdelivery]
        · have hn' : parseErrors = saturate n := hn
          simp [Phase.errors, hn', satAdd_saturate]
        · simp [failed_append, hdelivery, ← hsum, Nat.add_assoc]
        · simpa [Phase.processed] using hentered

theorem inv_resolve (h : Inv e clockOffsetNs start s) (o iter : IterOrder) :
    Inv e clockOffsetNs start (step e clockOffsetNs s (.resolve o iter)) := by
  obtain ⟨taken, rest, hplaced⟩ := h.placed
  unfold step
  dsimp only
  split
  · next header message messages processed parseErrors hphase =>
    have hmessages := hplaced.messages
    have hentered := h.entered
    obtain ⟨m, n, hm, hn, hsum⟩ := hplaced.errors
    rw [hphase] at hmessages hentered hn
    refine ⟨⟨taken, rest, hplaced.captured, hplaced.ring, ?_, m, n, hm, hn, hsum⟩, by simp, h.monitor, ?_,
      h.current⟩
    · simpa [Phase.inHand] using hmessages
    · intro c hc
      simp only [Phase.processed, ← List.append_assoc, List.mem_append, List.mem_singleton] at hc
      rcases hc with hc | rfl
      · exact hentered c (List.mem_append.mpr hc)
      · exact ⟨rfl, o, _, h.current, rfl⟩
  · exact h

theorem inv_ingest (h : Inv e clockOffsetNs start s) :
    Inv e clockOffsetNs start (step e clockOffsetNs s .ingest) := by
  obtain ⟨taken, rest, hplaced⟩ := h.placed
  unfold step
  dsimp only
  split
  · next processed parseErrors hphase =>
    have hmessages := hplaced.messages
    have hentered := h.entered
    obtain ⟨m, n, hm, hn, hsum⟩ := hplaced.errors
    rw [hphase] at hmessages hentered hn
    have hn' : parseErrors = saturate n := hn
    refine ⟨⟨taken, rest, hplaced.captured, hplaced.ring, ?_, m + n, 0, ?_, rfl, hsum⟩,
      by simp [Phase.waiting],
      ?_, ?_, h.current⟩
    · simpa [Phase.waiting, Phase.inHand] using hmessages
    · dsimp only
      rw [hm, hn', satAdd_saturate_saturate]
    · dsimp only
      rw [List.foldl_append, h.monitor]
    · simpa [Phase.waiting, Phase.processed] using hentered
  · exact h

theorem Entered.mono {known known' : List (HashMap DeviceKey KnownDevice × TopologySnapshot)} {c : Capture}
    (h : Entered clockOffsetNs known c) (hsub : known ⊆ known') : Entered clockOffsetNs known' c := by
  obtain ⟨o, k, hk, hdevice⟩ := h.device
  exact ⟨h.timed, o, k, hsub hk, hdevice⟩

/-- **One step keeps the invariant.** -/
theorem inv_step (h : Inv e clockOffsetNs start s) (a : Action) :
    Inv e clockOffsetNs start (step e clockOffsetNs s a) := by
  have hplaced : ∀ t : System, t.captured = s.captured → t.ring = s.ring → t.ingested = s.ingested →
      t.phase = s.phase → t.captureParseErrors = s.captureParseErrors →
        ∃ taken rest, Placed e t taken rest := by
    intro t hcaptured hring hingested hphase herrors
    obtain ⟨taken, rest, hplaced⟩ := h.placed
    refine ⟨taken, rest, ?_, ?_, ?_, ?_⟩
    · rw [hcaptured, hplaced.captured]
    · rw [hring]
      exact hplaced.ring
    · rw [hingested, hphase, hplaced.messages]
    · rw [herrors, hphase]
      exact hplaced.errors
  cases a with
  | packet frame => exact inv_packet h frame
  | next => exact inv_next h
  | resolve o iter => exact inv_resolve h o iter
  | ingest => exact inv_ingest h
  | setRegistry registry =>
    refine ⟨hplaced _ rfl rfl rfl rfl rfl, h.runs, h.monitor, fun c hc => ?_, List.mem_cons_self⟩
    exact (h.entered c hc).mono (List.subset_cons_self _ _)
  | setTopology topology =>
    refine ⟨hplaced _ rfl rfl rfl rfl rfl, h.runs, h.monitor, fun c hc => ?_, List.mem_cons_self⟩
    exact (h.entered c hc).mono (List.subset_cons_self _ _)
  | setFilters filters =>
    exact ⟨hplaced _ rfl rfl rfl rfl rfl, h.runs, h.monitor, h.entered, h.current⟩

theorem inv_run (h : Inv e clockOffsetNs start s) (acts : List Action) :
    Inv e clockOffsetNs start (acts.foldl (step e clockOffsetNs) s) :=
  List.foldlRecOn acts _ h fun _ hs a _ => inv_step hs a

/-! ### The end of a batch -/

/-- A step of the reader. -/
inductive OfReader : Action → Prop
  | next : OfReader .next
  | resolve (o iter : IterOrder) : OfReader (.resolve o iter)
  | ingest : OfReader .ingest

/-- The reader alone gets from one state to the other. -/
def Reads (e : Endian) (clockOffsetNs : ℤ) (s t : System) : Prop :=
  ∃ acts : List Action, (∀ a ∈ acts, OfReader a) ∧ acts.foldl (step e clockOffsetNs) s = t

theorem Reads.refl (s : System) : Reads e clockOffsetNs s s :=
  ⟨[], fun _ ha => absurd ha List.not_mem_nil, rfl⟩

theorem Reads.cons {a : Action} (ha : OfReader a) {t : System}
    (h : Reads e clockOffsetNs (step e clockOffsetNs s a) t) : Reads e clockOffsetNs s t := by
  obtain ⟨acts, hacts, ht⟩ := h
  exact ⟨a :: acts, List.forall_mem_cons.mpr ⟨ha, hacts⟩, ht⟩

theorem Reads.trans {t u : System} (h : Reads e clockOffsetNs s t) (h' : Reads e clockOffsetNs t u) :
    Reads e clockOffsetNs s u := by
  obtain ⟨acts, hacts, rfl⟩ := h
  obtain ⟨acts', hacts', rfl⟩ := h'
  refine ⟨acts ++ acts', fun a ha => ?_, List.foldl_append⟩
  exact (List.mem_append.mp ha).elim (hacts a) (hacts' a)

/-- The messages get their devices and are entered. -/
theorem exists_settled {messages : List (DnsPacketHeader × ParsedDnsMessage)} {processed : List Capture}
    {parseErrors : UInt64} (hphase : s.phase = .resolving messages processed parseErrors) :
    ∃ t, Reads e clockOffsetNs s t ∧ t.phase = .waiting ∧ t.ring = s.ring ∧ t.captured = s.captured := by
  induction messages generalizing s processed with
  | nil =>
    refine ⟨step e clockOffsetNs s .ingest, .cons .ingest (.refl _), ?_⟩
    unfold step
    dsimp only
    rw [hphase]
    exact ⟨rfl, rfl, rfl⟩
  | cons message messages ih =>
    obtain ⟨header, message⟩ := message
    let s' := step e clockOffsetNs s (.resolve .listed .listed)
    have hstep : s'.ring = s.ring ∧ s'.captured = s.captured ∧
        ∃ processed', s'.phase = .resolving messages processed' parseErrors := by
      unfold s' step
      dsimp only
      rw [hphase]
      exact ⟨rfl, rfl, _, rfl⟩
    obtain ⟨hring, hcaptured, processed', hphase'⟩ := hstep
    obtain ⟨t, hreads, hwaiting, hring', hcaptured'⟩ := ih hphase'
    exact ⟨t, .cons (.resolve _ _) hreads, hwaiting, hring'.trans hring, hcaptured'.trans hcaptured⟩

/-- The ring is emptied. -/
theorem exists_emptied (h : Inv e clockOffsetNs start s)
    {messages : List (DnsPacketHeader × ParsedDnsMessage)} {parseErrors : UInt64}
    (hphase : s.phase = .reading messages parseErrors) :
    ∃ t, Reads e clockOffsetNs s t ∧ t.ring = [] ∧ t.captured = s.captured ∧
      ∃ messages' parseErrors', t.phase = .resolving messages' [] parseErrors' := by
  induction hring : s.ring generalizing s messages parseErrors with
  | nil =>
    refine ⟨step e clockOffsetNs s .next, .cons .next (.refl _), ?_⟩
    unfold step
    dsimp only
    rw [hphase, hring]
    exact ⟨rfl, rfl, messages, parseErrors, rfl⟩
  | cons item ring ih =>
    let s' := step e clockOffsetNs s .next
    have hinv : Inv e clockOffsetNs start s' := inv_next h
    have hstep : s'.ring = ring ∧ s'.captured = s.captured ∧ (s'.phase = .stopped ∨
        ∃ messages' parseErrors', s'.phase = .reading messages' parseErrors') := by
      unfold s' step
      dsimp only
      rw [hphase, hring]
      dsimp only
      split
      · exact ⟨rfl, rfl, Or.inr ⟨_, _, rfl⟩⟩
      · exact ⟨rfl, rfl, Or.inr ⟨_, _, rfl⟩⟩
      · exact ⟨rfl, rfl, Or.inl rfl⟩
    obtain ⟨hring', hcaptured, hphase'⟩ := hstep
    obtain ⟨messages', parseErrors', hphase'⟩ := hphase'.resolve_left hinv.runs
    obtain ⟨t, hreads, hempty, hcaptured', hresolving⟩ := ih hinv hphase' hring'
    exact ⟨t, .cons .next hreads, hempty, hcaptured'.trans hcaptured, hresolving⟩

/-- **The reader gets to the end** of what was captured. -/
theorem exists_drained (h : Inv e clockOffsetNs start s) :
    ∃ t, Reads e clockOffsetNs s t ∧ t.phase = .waiting ∧ t.ring = [] ∧ t.captured = s.captured := by
  have hread : ∀ s, Inv e clockOffsetNs start s → ∀ messages parseErrors,
      s.phase = .reading messages parseErrors →
      ∃ t, Reads e clockOffsetNs s t ∧ t.phase = .waiting ∧ t.ring = [] ∧ t.captured = s.captured := by
    intro s h messages parseErrors hphase
    obtain ⟨t, hreads, hempty, hcaptured, messages', parseErrors', hresolving⟩ := exists_emptied h hphase
    obtain ⟨u, hreads', hwaiting, hring, hcaptured'⟩ := exists_settled hresolving
    exact ⟨u, hreads.trans hreads', hwaiting, hring.trans hempty, hcaptured'.trans hcaptured⟩
  cases hphase : s.phase with
  | reading messages parseErrors => exact hread s h messages parseErrors hphase
  | stopped => exact absurd hphase h.runs
  | resolving messages processed parseErrors =>
    obtain ⟨t, hreads, hwaiting, -, hcaptured⟩ := exists_settled hphase
    have hinv : Inv e clockOffsetNs start t := by
      obtain ⟨acts, -, rfl⟩ := hreads
      exact inv_run h acts
    obtain ⟨u, hreads', hwaiting', hempty, hcaptured'⟩ := hread t hinv [] 0 hwaiting
    exact ⟨u, hreads.trans hreads', hwaiting', hempty, hcaptured'.trans hcaptured⟩

end

/-- **Every captured packet reaches the monitor once**, in every run of the kernel, the reader and what
changes around them. The reader never panics. It has taken the first captures, whose messages are entered or
in its hands, in order, with the headers and bytes that the kernel saw; the others are in the ring. The
monitor is what comes from entering these messages, each with its time and a device that was known. And
whenever the kernel pauses, the reader gets to a state in which every capture is entered or counted as an
error. -/
theorem captures_delivered (e : Endian) (clockOffsetNs : ℤ) (filters : Maps)
    (registry : HashMap DeviceKey KnownDevice) (topology : TopologySnapshot) (monitor : DnsMonitor)
    (acts : List Action) :
    let s := acts.foldl (step e clockOffsetNs) (.start filters registry topology monitor)
    s.phase ≠ .stopped ∧
    (∃ taken rest, s.captured = taken ++ rest ∧ List.Forall₂ (Item e) rest s.ring ∧
      s.ingested.map (fun c => (c.header, c.message)) ++ s.phase.inHand = taken.filterMap delivery) ∧
    s.monitor = s.ingested.foldl ingest monitor ∧
    (∀ c ∈ s.ingested, Entered clockOffsetNs s.known c) ∧
    ∃ t, Reads e clockOffsetNs s t ∧ t.captured = s.captured ∧ t.ring = [] ∧
      t.ingested.map (fun c => (c.header, c.message)) = s.captured.filterMap delivery ∧
      t.captureParseErrors = saturate (failed s.captured) := by
  intro s
  have h : Inv e clockOffsetNs monitor s := inv_run (inv_start filters registry topology monitor) acts
  obtain ⟨taken, rest, hplaced⟩ := h.placed
  obtain ⟨t, hreads, hwaiting, hempty, hcaptured⟩ := exists_drained h
  refine ⟨h.runs, ⟨taken, rest, hplaced.captured, hplaced.ring, hplaced.messages⟩, h.monitor,
    fun c hc => h.entered c (List.mem_append_left _ hc), t, hreads, hcaptured, hempty, ?_⟩
  have ht : Inv e clockOffsetNs monitor t := by
    obtain ⟨more, -, rfl⟩ := hreads
    exact inv_run h more
  obtain ⟨taken', rest', hplaced'⟩ := ht.placed
  have hrest : rest' = [] := by
    have hring := hplaced'.ring
    rw [hempty] at hring
    exact List.forall₂_nil_right_iff.mp hring
  have hall : taken' = s.captured := by
    rw [← hcaptured, hplaced'.captured, hrest, List.append_nil]
  have hmessages := hplaced'.messages
  obtain ⟨m, n, hm, hn, hsum⟩ := hplaced'.errors
  rw [hwaiting, hall] at hmessages
  rw [hwaiting] at hn
  refine ⟨by simpa [Phase.waiting, Phase.inHand] using hmessages, ?_⟩
  have hzero : n = 0 := by
    have hnat := congrArg UInt64.toNat hn
    simp [Phase.waiting, Phase.errors] at hnat
    omega
  rw [hm, ← hall, ← hsum, hzero, Nat.add_zero]

end BandixPlus.Dns.Reader
