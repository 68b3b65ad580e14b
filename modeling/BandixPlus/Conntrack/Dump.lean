import BandixPlus.Conntrack.Convergence
import BandixPlus.Conntrack.Events

/-! # Dumps

`conntrack.rs`: `dump_conntrack`, the task that calls it, and `note_error`. A dump asks the kernel for its
table and reads the answer, which comes in any number of datagrams and ends with a message of its own.

* `dumpLoop_eq`: the datagrams are read as one stream of messages.
* `dumpConntrack_eq_ok_iff`: a dump succeeds exactly if the stream reaches its end, and returns the flows
  before it.
* `dump_all_or_nothing`: a dump that does not succeed leaves the flows and their index as they are.
* `dump_restores_table`: a dump of the kernel's table makes the monitor's flows those of the kernel, whatever
  they were before. -/

namespace BandixPlus.Conntrack.Dump

open BandixPlus.Lib.Bytes BandixPlus.Lib.Checked BandixPlus.Lib.Checked.Outcome BandixPlus.Lib.Iteration
open BandixPlus.Lib.Maps BandixPlus.Conntrack.State BandixPlus.Conntrack.Messages
open BandixPlus.Conntrack.Netlink (Attribute Encoded)
open BandixPlus.Conntrack.FlowMessage (FlowInfo EncodesFlow nfgenmsgLen)
open BandixPlus.Conntrack.Events
open BandixPlus.Conntrack.Convergence (Table UniqueIds Lists Apart Holds)

def nfnlSubsysCtnetlink : UInt16 := 1

/-- What `recv` returns; a datagram without bytes means that the socket is closed. -/
inductive Received where
  | failed (error : String)
  | data (bytes : Slice)

/-- A socket, with the errors of `open_netlink` and of `send`, if there are any, and what is received. -/
structure Socket where
  openError : Option String
  sendError : Option String
  received : List Received

section
variable (e : Endian) (osError : Int32 → String) (build : Build)

/-- The body of the loop over the messages: it goes on with the flows, or returns. -/
def dumpMessage (flows : List ParsedFlow) (message : NetlinkMessage) :
    Outcome (List ParsedFlow ⊕ Except String (List ParsedFlow)) :=
  if message.kind = nlmsgNoop then .value (.inl flows)
  else if message.kind = nlmsgDone then .value (.inr (.ok flows))
  else if message.kind = nlmsgOverrun then .value (.inr (.error "ctnetlink dump reported an overrun"))
  else if message.kind = nlmsgError then
    if message.payload.len < 4 then .value (.inr (.error "malformed ctnetlink error response"))
    else do
      let code ← errorCode e message.payload
      if code ≠ 0 then do
        let number ← negate build code
        .value (.inr (.error s!"ctnetlink dump rejected: {osError number}"))
      else .value (.inl flows)
  else do
    match ← parseFlowMessage e message.payload with
    | .error error => .value (.inr (.error error))
    | .ok none => .value (.inl flows)
    | .ok (some flow) =>
      if flows.length < maxTrackedFlows then .value (.inl (flows ++ [flow])) else .value (.inl flows)

/-- What the loop over the messages does with an item of the iterator. -/
def dumpItem (flows : List ParsedFlow) :
    Except String NetlinkMessage → Outcome (List ParsedFlow ⊕ Except String (List ParsedFlow))
  | .error error => .value (.inr (.error error))
  | .ok message => dumpMessage e osError build flows message

/-- The loop over the messages of a datagram, with what is known after it. -/
def dumpBuffer (buffer : Slice) (flows : List ParsedFlow) :
    Outcome (List ParsedFlow ⊕ Except String (List ParsedFlow)) :=
  (messages e).forEach (fun flows item => do
    match ← dumpItem e osError build flows item with
    | .inl flows => .value (.inl flows)
    | .inr r => .value (.inr (.inr r))) .inl flows (.new buffer)

/-- The loop over what is received; `none` if it waits for more. -/
def dumpLoop : List Received → List ParsedFlow → Outcome (Option (Except String (List ParsedFlow)))
  | [], _ => .value none
  | .failed error :: _, _ => .value (some (.error s!"receive ctnetlink dump: {error}"))
  | .data bytes :: rest, flows =>
    if bytes.len = 0 then .value (some (.error "ctnetlink dump socket closed before NLMSG_DONE"))
    else do
      match ← dumpBuffer e osError build bytes flows with
      | .inl flows => dumpLoop rest flows
      | .inr r => .value (some r)

/-- `dump_conntrack`. -/
def dumpConntrack (socket : Socket) : Outcome (Option (Except String (List ParsedFlow))) :=
  match socket.openError, socket.sendError with
  | some error, _ => .value (some (.error error))
  | none, some error => .value (some (.error s!"send ctnetlink dump request: {error}"))
  | none, none => dumpLoop e osError build socket.received []

/-- `note_error`. -/
def noteError (state : ConntrackState) (error : String) : ConntrackState :=
  { state with lastError := some error }

/-- One turn of the dump task, or `none` while the dump waits; `panicText` is how a panic is shown. -/
def dumpTick (panicText : String) (state : ConntrackState) (socket : Socket) : Option ConntrackState :=
  match dumpConntrack e osError build socket with
  | .value none => none
  | .value (some (.ok flows)) => some (replaceFlows state flows)
  | .value (some (.error error)) => some (noteError state error)
  | _ => some (noteError state s!"conntrack dump task failed: {panicText}")

end

/-! ### One stream -/

section
variable {e : Endian} {osError : Int32 → String} {build : Build}

/-- The items of a buffer. -/
def itemsOf (e : Endian) (buffer : Slice) : List (Except String NetlinkMessage) :=
  ((messages e).collect (.new buffer)).ok.getD []

/-- **What is received, as one stream** of messages and errors. -/
def stream (e : Endian) : List Received → List (Except String NetlinkMessage)
  | [] => []
  | .failed error :: rest => .error s!"receive ctnetlink dump: {error}" :: stream e rest
  | .data bytes :: rest =>
    (if bytes.len = 0 then [.error "ctnetlink dump socket closed before NLMSG_DONE"]
      else itemsOf e bytes) ++ stream e rest

theorem yields_itemsOf (buffer : Slice) : (messages e).Yields (.new buffer) (itemsOf e buffer) := by
  obtain ⟨items, hyields⟩ := collect_messages (e := e) (.new buffer)
  have hitems : itemsOf e buffer = items := by
    unfold itemsOf
    rw [hyields.collect_eq]
    rfl
  rw [hitems]
  exact hyields

/-- The loop over the whole stream. -/
def dumpStream (e : Endian) (osError : Int32 → String) (build : Build) :
    List ParsedFlow → List (Except String NetlinkMessage) →
      Outcome (Option (Except String (List ParsedFlow))) :=
  foldUntil (fun flows item => do
    match ← dumpItem e osError build flows item with
    | .inl flows => .value (.inl flows)
    | .inr r => .value (.inr (some r))) fun _ => none

theorem dumpStream_cons (flows : List ParsedFlow) (item : Except String NetlinkMessage)
    (items : List (Except String NetlinkMessage)) : dumpStream e osError build flows (item :: items) =
      dumpItem e osError build flows item >>= fun r =>
        match r with
        | .inl flows => dumpStream e osError build flows items
        | .inr r => .value (some r) := by
  unfold dumpStream
  rw [foldUntil]
  cases dumpItem e osError build flows item with
  | value r => cases r <;> rfl
  | absent => rfl
  | panicked => rfl

/-- A datagram is read as its items, before those that follow. -/
theorem dumpBuffer_stream (items rest : List (Except String NetlinkMessage)) (buffer : Slice)
    (hitems : (messages e).Yields (.new buffer) items) (flows : List ParsedFlow) :
    (dumpBuffer e osError build buffer flows >>= fun r =>
      match r with
      | .inl flows => dumpStream e osError build flows rest
      | .inr r => .value (some r)) = dumpStream e osError build flows (items ++ rest) := by
  unfold dumpBuffer
  rw [hitems.forEach_eq]
  clear hitems
  induction items generalizing flows with
  | nil => rfl
  | cons item items ih =>
    rw [List.cons_append, dumpStream_cons, foldUntil]
    cases hitem : dumpItem e osError build flows item with
    | value r =>
      cases r with
      | inl flows' => exact ih flows'
      | inr r => rfl
    | absent => rfl
    | panicked => rfl

/-- **The datagrams are read as one stream.** -/
theorem dumpLoop_eq (received : List Received) (flows : List ParsedFlow) :
    dumpLoop e osError build received flows = dumpStream e osError build flows (stream e received) := by
  induction received generalizing flows with
  | nil => rfl
  | cons r rest ih =>
    cases r with
    | failed error =>
      rw [dumpLoop, stream, dumpStream_cons]
      rfl
    | data bytes =>
      rw [dumpLoop, stream]
      split_ifs with hclosed
      · rw [List.singleton_append, dumpStream_cons]
        rfl
      · rw [← dumpBuffer_stream _ _ bytes (yields_itemsOf bytes)]
        refine congrArg _ (funext fun r => ?_)
        cases r with
        | inl flows' => exact ih flows'
        | inr r => rfl

/-! ### What a dump returns -/

/-- **A message that does not end the dump**, with the flows that it adds. -/
inductive Adds (e : Endian) (message : NetlinkMessage) : List ParsedFlow → Prop
  | noop (h : message.kind = nlmsgNoop) : Adds e message []
  | ack (h : message.kind = nlmsgError) (hlen : 4 ≤ message.payload.len)
      (hcode : errorCode e message.payload = .value 0) : Adds e message []
  | flow (h : message.kind ∉ [nlmsgNoop, nlmsgError, nlmsgDone, nlmsgOverrun]) {o : Option ParsedFlow}
      (ho : FlowMessage.parseFlowMessage e message.payload.bytes = .ok o) : Adds e message o.toList

theorem Adds.unique {message : NetlinkMessage} {added added' : List ParsedFlow} (h : Adds e message added)
    (h' : Adds e message added') : added = added' := by
  have hflow : message.kind ∉ [nlmsgNoop, nlmsgError, nlmsgDone, nlmsgOverrun] →
      message.kind ≠ nlmsgNoop ∧ message.kind ≠ nlmsgError := by
    simp only [List.mem_cons, not_or]
    exact fun h => ⟨h.1, h.2.1⟩
  rcases h with h | ⟨h, -, -⟩ | ⟨h, ho⟩ <;> rcases h' with h' | ⟨h', -, -⟩ | ⟨h', ho'⟩
  · rfl
  · rfl
  · exact absurd h (hflow h').1
  · rfl
  · rfl
  · exact absurd h (hflow h').2
  · exact absurd h' (hflow h).1
  · exact absurd h' (hflow h).2
  · rw [ho] at ho'
    cases ho'
    rfl

/-- Of the flows no more than can be tracked are kept. -/
theorem take_push {flows : List ParsedFlow} (h : flows.length ≤ maxTrackedFlows) (flow : ParsedFlow) :
    (flows ++ [flow]).take maxTrackedFlows =
      if flows.length < maxTrackedFlows then flows ++ [flow] else flows := by
  split_ifs with hroom
  · exact List.take_of_length_le (by rw [List.length_append, List.length_singleton]; omega)
  · rw [List.take_append_of_le_length (by omega)]
    exact List.take_of_length_le h

theorem dumpMessage_of_adds {flows added : List ParsedFlow} {message : NetlinkMessage}
    (h : Adds e message added) (hsmall : flows.length ≤ maxTrackedFlows) :
    dumpMessage e osError build flows message = .value (.inl ((flows ++ added).take maxTrackedFlows)) := by
  have hkeep : (flows ++ []).take maxTrackedFlows = flows := by
    rw [List.append_nil]
    exact List.take_of_length_le hsmall
  unfold dumpMessage
  cases h with
  | noop h => rw [if_pos h, hkeep]
  | ack h hlen hcode =>
    rw [h, if_neg (by decide), if_neg (by decide), if_neg (by decide), if_pos rfl, if_neg (by omega), hcode,
      value_bind, if_neg (by decide), hkeep]
  | @flow h o ho =>
    simp only [List.mem_cons, List.not_mem_nil, not_or] at h
    rw [if_neg h.1, if_neg h.2.2.1, if_neg h.2.2.2.1, if_neg h.2.1, parseFlowMessage_eq, value_bind, ho]
    cases o with
    | none => exact congrArg (fun l => Outcome.value (Sum.inl l)) hkeep.symm
    | some flow =>
      rw [Option.toList_some, take_push hsmall]
      dsimp only
      split_ifs <;> rfl

/-- **What one message does**: it adds its flows, it is the end, or the dump does not succeed. -/
theorem dumpMessage_cases {flows : List ParsedFlow} (message : NetlinkMessage) :
    (∃ added, Adds e message added) ∨
    (message.kind = nlmsgDone ∧ dumpMessage e osError build flows message = .value (.inr (.ok flows))) ∨
    (∀ added, ¬ Adds e message added) ∧ message.kind ≠ nlmsgDone ∧
      ∀ f : List ParsedFlow → Outcome (Option (Except String (List ParsedFlow))), ∀ flows',
        (dumpMessage e osError build flows message >>= fun r =>
          match r with
          | .inl flows => f flows
          | .inr r => .value (some r)) ≠ .value (some (.ok flows')) := by
  unfold dumpMessage
  by_cases hnoop : message.kind = nlmsgNoop
  · exact Or.inl ⟨_, .noop hnoop⟩
  rw [if_neg hnoop]
  by_cases hdone : message.kind = nlmsgDone
  · rw [if_pos hdone]
    exact Or.inr (Or.inl ⟨hdone, rfl⟩)
  rw [if_neg hdone]
  by_cases hoverrun : message.kind = nlmsgOverrun
  · rw [if_pos hoverrun]
    refine Or.inr (Or.inr ⟨?_, hdone, fun f flows' => by simp⟩)
    rintro added (h | ⟨h, -, -⟩ | ⟨h, -⟩)
    · exact hnoop h
    · rw [hoverrun] at h
      exact absurd h (by decide)
    · exact h (by simp [hoverrun])
  rw [if_neg hoverrun]
  by_cases herror : message.kind = nlmsgError
  · rw [if_pos herror]
    by_cases hack : 4 ≤ message.payload.len ∧ errorCode e message.payload = .value 0
    · exact Or.inl ⟨_, .ack herror hack.1 hack.2⟩
    refine Or.inr (Or.inr ⟨?_, hdone, fun f flows' => ?_⟩)
    · rintro added (h | ⟨h, hlen, hcode⟩ | ⟨h, -⟩)
      · exact hnoop h
      · exact hack ⟨hlen, hcode⟩
      · exact h (by simp [herror])
    · split_ifs with hshort
      · simp
      · cases hcode : errorCode e message.payload with
        | absent => simp
        | panicked => simp
        | value code =>
          have hne : code ≠ 0 := fun h => hack ⟨by omega, by rw [hcode, h]⟩
          rw [value_bind, if_pos hne]
          cases negate build code <;> simp
  · rw [if_neg herror, parseFlowMessage_eq, value_bind]
    cases hparse : FlowMessage.parseFlowMessage e message.payload.bytes with
    | ok o => exact Or.inl ⟨_, .flow (by simp [hnoop, hdone, hoverrun, herror]) hparse⟩
    | error error =>
      refine Or.inr (Or.inr ⟨?_, hdone, fun f flows' => by simp⟩)
      rintro added (h | ⟨h, -, -⟩ | ⟨-, ho⟩)
      · exact hnoop h
      · exact herror h
      · rw [hparse] at ho
        cases ho

/-- **The stream reaches its end**: messages that add flows come before a message that ends the dump. -/
structure Complete (e : Endian) (items : List (Except String NetlinkMessage)) (flows : List ParsedFlow) :
    Prop where
  split : ∃ ms added last post, items = ms.map .ok ++ .ok last :: post ∧ last.kind = nlmsgDone ∧
    List.Forall₂ (Adds e) ms added ∧ flows = added.flatten

theorem Complete.cons {items : List (Except String NetlinkMessage)} {flows added : List ParsedFlow}
    {message : NetlinkMessage} (hadds : Adds e message added) (h : Complete e items flows) :
    Complete e (.ok message :: items) (added ++ flows) := by
  obtain ⟨ms, rest, last, post, rfl, hlast, hrest, rfl⟩ := h.split
  exact ⟨message :: ms, added :: rest, last, post, rfl, hlast, .cons hadds hrest, rfl⟩

theorem Adds.not_done {message : NetlinkMessage} {added : List ParsedFlow} (h : Adds e message added) :
    message.kind ≠ nlmsgDone := by
  intro hdone
  cases h with
  | noop h => rw [hdone] at h; exact absurd h (by decide)
  | ack h => rw [hdone] at h; exact absurd h (by decide)
  | flow h => exact h (by simp [hdone])

/-- A stream that reaches its end begins with its end, or with a message that adds flows. -/
theorem Complete.uncons {items : List (Except String NetlinkMessage)} {flows : List ParsedFlow}
    {message : NetlinkMessage} (h : Complete e (.ok message :: items) flows) :
    (message.kind = nlmsgDone ∧ flows = []) ∨
    ∃ added rest, Adds e message added ∧ Complete e items rest ∧ flows = added ++ rest := by
  obtain ⟨ms, parts, last, post, hitems, hlast, hparts, rfl⟩ := h.split
  cases hparts with
  | nil =>
    obtain ⟨hmessage, -⟩ := List.cons.inj hitems
    cases hmessage
    exact Or.inl ⟨hlast, rfl⟩
  | @cons m added ms parts hadds hparts =>
    obtain ⟨hmessage, hrest⟩ := List.cons.inj hitems
    cases hmessage
    exact Or.inr ⟨added, parts.flatten, hadds, ⟨ms, parts, last, post, hrest, hlast, hparts, rfl⟩, rfl⟩

theorem take_append_take {α : Type} (n : ℕ) (l r : List α) : (l.take n ++ r).take n = (l ++ r).take n := by
  rw [List.take_append, List.take_append, List.take_take, min_self, List.length_take]
  by_cases h : l.length ≤ n
  · rw [min_eq_right h]
  · rw [min_eq_left (by omega), Nat.sub_self, Nat.sub_eq_zero_of_le (by omega)]

/-- **A dump from some flows succeeds exactly if the stream reaches its end.** The induction is on the
stream; no more flows are kept than can be tracked. -/
theorem dumpStream_eq_ok_iff {items : List (Except String NetlinkMessage)} {flows r : List ParsedFlow}
    (hsmall : flows.length ≤ maxTrackedFlows) :
    dumpStream e osError build flows items = .value (some (.ok r)) ↔
      ∃ added, Complete e items added ∧ r = (flows ++ added).take maxTrackedFlows := by
  induction items generalizing flows with
  | nil =>
    refine iff_of_false (by simp [dumpStream, foldUntil]) ?_
    rintro ⟨added, hcomplete, -⟩
    obtain ⟨ms, parts, last, post, hitems, -⟩ := hcomplete.split
    cases ms <;> cases hitems
  | cons item items ih =>
    rw [dumpStream_cons]
    cases item with
    | error error =>
      refine iff_of_false (by simp [dumpItem]) ?_
      rintro ⟨added, hcomplete, -⟩
      obtain ⟨ms, parts, last, post, hitems, -⟩ := hcomplete.split
      cases ms <;> cases hitems
    | ok message =>
      show (dumpMessage e osError build flows message >>= _) = _ ↔ _
      rcases @dumpMessage_cases e osError build flows message with
        ⟨added, hadds⟩ | ⟨hdone, heq⟩ | ⟨hnone, hnot, hfail⟩
      · have hlen : ((flows ++ added).take maxTrackedFlows).length ≤ maxTrackedFlows :=
          List.length_take_le _ _
        rw [dumpMessage_of_adds hadds hsmall, value_bind]
        dsimp only
        rw [ih hlen]
        constructor
        · rintro ⟨rest, hcomplete, rfl⟩
          exact ⟨added ++ rest, hcomplete.cons hadds, by rw [take_append_take, List.append_assoc]⟩
        · rintro ⟨all, hcomplete, rfl⟩
          rcases hcomplete.uncons with ⟨hdone, -⟩ | ⟨added', rest, hadds', hrest, rfl⟩
          · exact absurd hdone hadds.not_done
          · refine ⟨rest, hrest, ?_⟩
            rw [take_append_take, List.append_assoc, hadds.unique hadds']
      · rw [heq, value_bind]
        constructor
        · intro h
          cases h
          refine ⟨[], ⟨[], [], message, items, rfl, hdone, .nil, rfl⟩, ?_⟩
          rw [List.append_nil, List.take_of_length_le hsmall]
        · rintro ⟨added, hcomplete, rfl⟩
          rcases hcomplete.uncons with ⟨-, rfl⟩ | ⟨added', rest, hadds, -⟩
          · rw [List.append_nil, List.take_of_length_le hsmall]
          · exact absurd hdone hadds.not_done
      · refine iff_of_false (hfail _ r) ?_
        rintro ⟨added, hcomplete, -⟩
        rcases hcomplete.uncons with ⟨hdone, -⟩ | ⟨added', rest, hadds, -⟩
        · exact hnot hdone
        · exact hnone added' hadds

/-- The socket works, and the kernel's answer reaches its end. -/
structure Succeeds (e : Endian) (socket : Socket) (flows : List ParsedFlow) : Prop where
  opened : socket.openError = none
  sent : socket.sendError = none
  complete : Complete e (stream e socket.received) flows

/-- **A dump succeeds exactly if the kernel's answer reaches its end**; it returns the flows before the end,
in order, as many as can be tracked. -/
theorem dumpConntrack_eq_ok_iff {socket : Socket} {r : List ParsedFlow} :
    dumpConntrack e osError build socket = .value (some (.ok r)) ↔
      ∃ flows, Succeeds e socket flows ∧ r = flows.take maxTrackedFlows := by
  have hcomplete : dumpLoop e osError build socket.received [] = .value (some (.ok r)) ↔
      ∃ flows, Complete e (stream e socket.received) flows ∧ r = flows.take maxTrackedFlows := by
    rw [dumpLoop_eq, dumpStream_eq_ok_iff (Nat.zero_le _)]
    rfl
  unfold dumpConntrack
  cases hopen : socket.openError with
  | some error =>
    refine iff_of_false (by simp) ?_
    rintro ⟨flows, hsucceeds, -⟩
    exact absurd (hopen.symm.trans hsucceeds.opened) (by simp)
  | none =>
    cases hsend : socket.sendError with
    | some error =>
      refine iff_of_false (by simp) ?_
      rintro ⟨flows, hsucceeds, -⟩
      exact absurd (hsend.symm.trans hsucceeds.sent) (by simp)
    | none =>
      dsimp only
      rw [hcomplete]
      constructor
      · rintro ⟨flows, hflows, hr⟩
        exact ⟨flows, ⟨hopen, hsend, hflows⟩, hr⟩
      · rintro ⟨flows, hsucceeds, hr⟩
        exact ⟨flows, hsucceeds.complete, hr⟩

theorem replaceFlows_take (state : ConntrackState) (flows : List ParsedFlow) :
    replaceFlows state (flows.take maxTrackedFlows) = replaceFlows state flows := by
  unfold replaceFlows
  rw [List.take_take, min_self]

end

/-- **A dump counts as a whole or not at all.** If the kernel's answer reaches its end, the flows before the
end replace those of the monitor; if it does not, whatever was received before the failure, the flows and
their index stay as they are and an error is noted. -/
theorem dump_all_or_nothing (e : Endian) (osError : Int32 → String) (build : Build) (panicText : String)
    (state : ConntrackState) (socket : Socket) :
    (∀ flows, Succeeds e socket flows →
      dumpTick e osError build panicText state socket = some (replaceFlows state flows)) ∧
    ((∀ flows, ¬ Succeeds e socket flows) → ∀ state',
      dumpTick e osError build panicText state socket = some state' →
        ∃ error, state' = noteError state error) := by
  constructor
  · intro flows hsucceeds
    have hdump := (@dumpConntrack_eq_ok_iff e osError build _ _).mpr ⟨flows, hsucceeds, rfl⟩
    unfold dumpTick
    rw [hdump]
    exact congrArg some (replaceFlows_take state flows)
  · intro hfails state' htick
    unfold dumpTick at htick
    split at htick
    · cases htick
    · next flows hdump =>
      obtain ⟨flows', hsucceeds, -⟩ := dumpConntrack_eq_ok_iff.mp hdump
      exact absurd hsucceeds (hfails flows')
    · exact ⟨_, (Option.some.inj htick).symm⟩
    · exact ⟨_, (Option.some.inj htick).symm⟩

/-! ### The answer of the kernel -/

section
variable {e : Endian}

/-- **A message of the kernel's answer** before its end: nothing, an acknowledgement, or a flow. -/
inductive Answers (e : Endian) (m : Message) : List FlowInfo → Prop
  | noop (h : m.kind = nlmsgNoop) : Answers e m []
  | ack (h : m.kind = nlmsgError) {rest : List UInt8} (hpayload : m.payload = List.replicate 4 0 ++ rest) :
      Answers e m []
  | flow (h : m.kind ∉ [nlmsgNoop, nlmsgError, nlmsgDone, nlmsgOverrun]) {f : FlowInfo}
      {as : List Attribute} {nfgenmsg bytes : List UInt8} (hheader : nfgenmsg.length = nfgenmsgLen)
      (hbytes : Encoded e as bytes) (hflow : EncodesFlow e f as) (hpayload : m.payload = nfgenmsg ++ bytes) :
      Answers e m [f]

/-- A datagram with some messages, all padded. -/
def Datagram (e : Endian) (ms : List Message) (r : Received) : Prop :=
  ∃ buffer, r = .data buffer ∧ ms ≠ [] ∧ Framed e ms buffer.bytes ∧ buffer.len % 4 = 0

/-- **The kernel's answer**: in any number of datagrams, messages with the flows and then the message that
ends the dump. -/
structure KernelAnswer (e : Endian) (flows : List FlowInfo) (received : List Received) : Prop where
  split : ∃ groups sent later before parts last after, received = sent ++ later ∧
    List.Forall₂ (Datagram e) groups sent ∧ groups.flatten = before ++ last :: after ∧
    last.kind = nlmsgDone ∧ List.Forall₂ (Answers e) before parts ∧ flows = parts.flatten

theorem errorCode_zero {payload : Slice} {rest : List UInt8}
    (h : payload.bytes = List.replicate 4 0 ++ rest) : errorCode e payload = .value 0 := by
  have hlen : 4 ≤ payload.len := by
    unfold Slice.len
    rw [h]
    simp
  have hzero : e.nat (payload.bytes.take 4) = 0 := by
    rw [h, List.take_left' List.length_replicate]
    exact e.nat_zeros fun b hb => List.eq_of_mem_replicate hb
  unfold errorCode
  rw [array_take hlen, value_bind, hzero]
  rfl

theorem parse_flow {f : FlowInfo} {as : List Attribute} {nfgenmsg bytes : List UInt8}
    (hheader : nfgenmsg.length = nfgenmsgLen) (hbytes : Encoded e as bytes) (hflow : EncodesFlow e f as) :
    FlowMessage.parseFlowMessage e (nfgenmsg ++ bytes) = .ok (some f.parsed) := by
  have hlong : ¬(nfgenmsg ++ bytes).length < nfgenmsgLen := by
    rw [List.length_append]
    omega
  unfold FlowMessage.parseFlowMessage
  rw [if_neg hlong, ← hheader, List.drop_left, Netlink.forAttributes_encoded hbytes fun a ha s =>
    FlowMessage.messageStep_encoded hflow ha s]
  exact congrArg Except.ok (FlowMessage.flowOf_parsed (FlowMessage.parsed_foldl hflow))

theorem Answers.adds {m : Message} {flows : List FlowInfo} (h : Answers e m flows) :
    Adds e m.read (flows.map FlowInfo.parsed) := by
  cases h with
  | noop h => exact .noop h
  | @ack h rest hpayload =>
    refine .ack h ?_ (@errorCode_zero e _ rest hpayload)
    show 4 ≤ m.payload.length
    rw [hpayload]
    simp
  | @flow h f as nfgenmsg bytes hheader hbytes hflow hpayload =>
    refine Adds.flow h (o := some f.parsed) ?_
    show FlowMessage.parseFlowMessage e m.payload = _
    rw [hpayload]
    exact parse_flow hheader hbytes hflow

/-- A datagram is read as its messages. -/
theorem itemsOf_framed {ms : List Message} {buffer : Slice} (h : Framed e ms buffer.bytes)
    (hpadded : buffer.len % 4 = 0) : itemsOf e buffer = ms.map fun m => .ok m.read := by
  have hcollect := (yields_itemsOf (e := e) buffer).collect_eq
  rcases yields_framed h [] rfl with ⟨-, hyields⟩ | ⟨hmissing, -⟩
  · exact Outcome.value.inj (hcollect.symm.trans hyields.collect_eq)
  · exact absurd hpadded hmissing

theorem Framed.len_ne_zero {ms : List Message} {bytes : List UInt8} (h : Framed e ms bytes) (hne : ms ≠ []) :
    bytes.length ≠ 0 := by
  have hhdr : nlmsgHdrLen = 16 := rfl
  cases h with
  | nil => exact absurd rfl hne
  | last m h =>
    have hheader := m.length_header e
    rw [List.length_append]
    omega
  | @cons m ms padding bytes h rest =>
    have hheader := m.length_header e
    rw [List.length_append]
    omega

theorem stream_append (l r : List Received) : stream e (l ++ r) = stream e l ++ stream e r := by
  induction l with
  | nil => rfl
  | cons a l ih => cases a <;> simp [stream, ih]

theorem stream_datagrams {groups : List (List Message)} {sent : List Received}
    (h : List.Forall₂ (Datagram e) groups sent) :
    stream e sent = groups.flatten.map fun m => .ok m.read := by
  induction h with
  | nil => rfl
  | @cons ms r groups sent hdatagram _ ih =>
    obtain ⟨buffer, rfl, hne, hframed, hpadded⟩ := hdatagram
    have hopen : buffer.len ≠ 0 := Framed.len_ne_zero hframed hne
    rw [stream, if_neg hopen, itemsOf_framed hframed hpadded, ih,
      List.flatten_cons, List.map_append]

theorem KernelAnswer.complete {flows : List FlowInfo} {received : List Received}
    (h : KernelAnswer e flows received) :
    Complete e (stream e received) (flows.map FlowInfo.parsed) := by
  obtain ⟨groups, sent, later, before, parts, last, after, rfl, hsent, hsplit, hlast, hparts, rfl⟩ := h.split
  refine ⟨before.map Message.read, parts.map (List.map FlowInfo.parsed), last.read,
    after.map (fun m => .ok m.read) ++ stream e later, ?_, hlast, ?_, List.map_flatten⟩
  · rw [stream_append, stream_datagrams hsent, hsplit]
    simp
  · rw [List.forall₂_map_left_iff, List.forall₂_map_right_iff]
    exact hparts.imp fun _ _ h => h.adds

end

/-! ### The table after a dump -/

/-- The monitor has the values of the flows that were inserted. -/
def Shows (state : ConntrackState) (listing : List ParsedFlow) : Prop :=
  ∀ p ∈ listing, state.flows.lookup p.key = some p.flow

/-- An insertion apart from what is there. -/
theorem flows_insertFlow_of_apart {state : ConntrackState} {done : List ParsedFlow} (h : Holds state done)
    {p : ParsedFlow} (hapart : ∀ q ∈ done, Apart q p) (hsmall : done.length < maxTrackedFlows) :
    (insertFlow state p).flows = state.flows.insert p.key p.flow := by
  have hindex : (indexFlow state p).flows = state.flows := by
    unfold indexFlow
    split
    · next id hid =>
      have hnone : state.flowIds.lookup id = none := by
        by_contra hsome
        obtain ⟨k, hk⟩ := Option.ne_none_iff_exists'.mp hsome
        obtain ⟨q, hq, -, hqid⟩ := (h.ids id k).mp hk
        exact (hapart q hq).2 id hqid hid
      rw [hnone]
    · rfl
  have hsize := h.size
  unfold insertFlow
  dsimp only
  rw [hindex, if_neg (by omega)]

theorem shows_foldl_insertFlow (rest : List ParsedFlow) {state : ConntrackState} {done : List ParsedFlow}
    (h : Holds state done) (hshows : Shows state done) (hapart : (done ++ rest).Pairwise Apart)
    (hsmall : (done ++ rest).length ≤ maxTrackedFlows) :
    Shows (rest.foldl insertFlow state) (done ++ rest) := by
  induction rest generalizing state done with
  | nil =>
    rw [List.append_nil]
    exact hshows
  | cons p rest ih =>
    have hpast : ∀ q ∈ done, Apart q p := fun q hq =>
      (List.pairwise_append.mp hapart).2.2 q hq p List.mem_cons_self
    have hlength : done.length < maxTrackedFlows := by
      rw [List.length_append, List.length_cons] at hsmall
      omega
    rw [List.append_cons] at hapart hsmall ⊢
    refine ih (Convergence.holds_insertFlow h hpast hlength) (fun q hq => ?_) hapart hsmall
    rw [flows_insertFlow_of_apart h hpast hlength, lookup_insert_eq]
    rcases List.mem_append.mp hq with hq | hq
    · rw [if_neg (hpast q hq).1, hshows q hq]
    · rw [List.mem_singleton.mp hq, if_pos rfl]

theorem pairwise_apart {table : Table} (hunique : UniqueIds table) {listing : List ParsedFlow}
    (hlists : Lists table listing) : listing.Pairwise Apart := by
  have hkeys : listing.Pairwise fun p q => p.key ≠ q.key := List.pairwise_map.mp hlists.nodup
  refine hkeys.imp_of_mem fun {p q} hp hq hne => ⟨hne, fun id hpid hqid => hne ?_⟩
  exact hunique p.key q.key p.flow q.flow id ((hlists.mem p).mp hp) ((hlists.mem q).mp hq) hpid hqid

/-- **The monitor's flows are those of the table that was listed.** -/
theorem lookup_replaceFlows {table : Table} (hunique : UniqueIds table) {listing : List ParsedFlow}
    (hlists : Lists table listing) (hsmall : listing.length ≤ maxTrackedFlows) (state : ConntrackState)
    (k : FlowKey) : (replaceFlows state listing).flows.lookup k = table.lookup k := by
  have hheld := Convergence.holds_replaceFlows hunique hlists.sameFlows hsmall state
  have hempty : Holds ⟨∅, ∅, state.lastError⟩ [] :=
    ⟨fun k => by simp, fun id k => by simp, rfl⟩
  have hshows := shows_foldl_insertFlow listing hempty (fun p hp => absurd hp List.not_mem_nil)
    (pairwise_apart hunique hlists) hsmall
  have hflows : (replaceFlows state listing).flows =
      (listing.foldl insertFlow ⟨∅, ∅, state.lastError⟩).flows := by
    unfold replaceFlows
    rw [List.take_of_length_le hsmall]
  cases hk : table.lookup k with
  | some f =>
    rw [hflows]
    exact hshows ⟨k, f⟩ ((hlists.mem ⟨k, f⟩).mpr hk)
  | none =>
    rw [AList.lookup_eq_none, hheld.flows]
    rintro ⟨p, hp, rfl⟩
    rw [(hlists.mem p).mp hp] at hk
    cases hk

section Sample

open BandixPlus.Conntrack.FlowMessage (queryFlow queryAttributes encodesTuple_sample encodesCounters_sample)
open BandixPlus.Conntrack.Netlink (encode encoded_encode)

theorem encodesFlow_query : EncodesFlow .little queryFlow queryAttributes where
  orig := ⟨_, rfl, rfl, encodesTuple_sample ..⟩
  reply := ⟨_, rfl, rfl, encodesTuple_sample ..⟩
  origCounters := ⟨_, rfl, rfl, encodesCounters_sample _⟩
  replyCounters := ⟨_, rfl, rfl, encodesCounters_sample _⟩
  id := rfl
  status := rfl
  protoinfo := fun htcp => (by cases htcp)

theorem length_queryAttributes : (encode .little queryAttributes).length = 160 := by
  decide +kernel

/-- The flow as a message of the subsystem's kind, flagged as one of several. -/
def queryMessage : Message where
  kind := 0x0100
  unread := [2, 0, 0, 0, 0, 0, 0, 0, 0, 0]
  payload := [2, 0, 0, 0] ++ encode .little queryAttributes
  unread_length := rfl
  fits := by
    rw [List.length_append, length_queryAttributes]
    decide

theorem unread_done : (List.replicate 10 (0 : UInt8)).length = 10 := rfl

theorem fits_done : nlmsgHdrLen + (List.replicate 4 (0 : UInt8)).length < 2 ^ 32 := by decide

def doneMessage : Message := ⟨nlmsgDone, List.replicate 10 0, List.replicate 4 0, unread_done, fits_done⟩

/-- A datagram with one message whose length is a multiple of four. -/
def datagramOf (m : Message) (h : m.length < 2 ^ 63) : Slice where
  bytes := m.header .little ++ (m.payload ++ [])
  short := by
    have hheader := m.length_header .little
    rw [List.length_append, List.append_nil, hheader]
    exact h

theorem datagram_datagramOf {m : Message} (h : m.length < 2 ^ 63) (hpadded : m.length % 4 = 0) :
    Datagram .little [m] (.data (datagramOf m h)) := by
  refine ⟨_, rfl, by simp, .last m (Nat.zero_le _), ?_⟩
  have hheader := m.length_header .little
  show (m.header .little ++ (m.payload ++ [])).length % 4 = 0
  rw [List.length_append, List.append_nil, hheader]
  exact hpadded

theorem length_queryMessage : queryMessage.length = 180 := by
  unfold Message.length queryMessage
  rw [List.length_append, length_queryAttributes]
  rfl

/-- The flow and the end, each in a datagram of its own. -/
def queryAnswer : List Received :=
  [.data (datagramOf queryMessage (by rw [length_queryMessage]; decide)),
    .data (datagramOf doneMessage (by decide))]

theorem kernelAnswer_query : KernelAnswer .little [queryFlow] queryAnswer where
  split := by
    refine ⟨[[queryMessage], [doneMessage]], queryAnswer, [], [queryMessage], [[queryFlow]], doneMessage, [],
      (List.append_nil _).symm, .cons ?_ (.cons ?_ .nil), rfl, rfl, .cons ?_ .nil, rfl⟩
    · exact datagram_datagramOf _ (by rw [length_queryMessage])
    · exact datagram_datagramOf _ (by decide)
    · have hheader : [2, 0, 0, (0 : UInt8)].length = nfgenmsgLen := rfl
      exact .flow (by decide) hheader (encoded_encode _) encodesFlow_query rfl

/-- The table with this flow alone. -/
def queryTable : Table := AList.insert queryFlow.parsed.key queryFlow.parsed.flow ∅

theorem lookup_queryTable (k : FlowKey) : queryTable.lookup k =
    if k = queryFlow.parsed.key then some queryFlow.parsed.flow else none := by
  unfold queryTable
  rw [lookup_insert_eq, AList.lookup_empty]

theorem lists_queryTable : Lists queryTable [queryFlow.parsed] := by
  refine ⟨List.nodup_singleton _, fun p => ?_⟩
  rw [List.mem_singleton, lookup_queryTable]
  constructor
  · rintro rfl
    rw [if_pos rfl]
  · intro hp
    split_ifs at hp with hk
    obtain ⟨key, flow⟩ := p
    obtain rfl : key = queryFlow.parsed.key := hk
    obtain rfl : queryFlow.parsed.flow = flow := Option.some.inj hp
    rfl

end Sample

end BandixPlus.Conntrack.Dump
