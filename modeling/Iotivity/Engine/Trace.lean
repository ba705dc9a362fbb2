import Iotivity.Coap.Received
import Iotivity.Engine.Lookup
import Iotivity.Engine.Run

/-!
# What the stages of `coap_receive` report

First what a message that comes in looks like when it has been parsed, then which events a stage adds
to those that are there already.  A request that has got its transaction reports `accepted`; if it gets
as far as `request_handler`, `invoked` and, if the resource is asked, `produced` follow; at the end at
most one packet is `sending`.  Everything else is `Silent`.
-/

namespace Coap
open Memory Keyed DeltaCode

/-! ## messages that come in -/

/-- the bytes behind header and token, as far as the parser is told -/
def OcMessage.body (msg : OcMessage) : List UInt8 :=
  if msg.endpoint.flags.tcp then
    let start := coapTcpDefaultHeaderLen + (coapTcpParseMessageLength msg.data).2 +
      tokenLength (msg.data 0)
    read msg.data start ((UInt32.ofNat msg.length).toNat - start)
  else
    let start := coapHeaderLen + tokenLength (msg.data 0)
    read msg.data start ((UInt16.ofNat msg.length).toNat - start)

/-- the payload as the peer has sent it: what stands behind the payload marker -/
def OcMessage.payload (msg : OcMessage) : List UInt8 := endingPayload (decode 0 msg.body).2

theorem length_endingPayload_le (number : Nat) (l : List UInt8) :
    (endingPayload (decode number l).2).length ≤ l.length := by
  induction number, l using decode.induct with
  | case1 number =>
    rw [decode_nil]
    exact le_refl _
  | case2 number b l hb =>
    rw [decode_marker number b l hb]
    exact Nat.le_succ _
  | case3 number b l hb h =>
    rw [decode_truncated number b l (by omega) fun d n r hr => absurd (h.symm.trans hr) (by simp)]
    exact Nat.zero_le _
  | case4 number b l hb d n r h hn =>
    rw [decode_truncated number b l (by omega) fun d' n' r' hr => ?_]
    · exact Nat.zero_le _
    · cases h.symm.trans hr
      exact hn
  | case5 number b l hb d n r h hn ih =>
    have hr := (takeHeader_some h (by omega)).1
    rw [decode_entry number b l (by omega) h (by omega)]
    refine ih.trans ?_
    rw [List.length_drop, List.length_cons]
    omega

theorem OcMessage.length_payload_lt (msg : OcMessage) : msg.payload.length < 2^32 := by
  have h1 := length_endingPayload_le 0 msg.body
  have h2 : msg.body.length < 2^32 := by
    unfold OcMessage.body
    have h32 := (UInt32.ofNat msg.length).toNat_lt
    have h16 := (UInt16.ofNat msg.length).toNat_lt
    split
    · rw [length_read]
      omega
    · rw [length_read]
      omega
  exact lt_of_le_of_lt h1 h2

theorem OcMessage.parse_received {cfg : Config} {msg : OcMessage} {m : Message}
    (h : msg.parse cfg = .ok m) :
    Genuine m ∧ m.payload =
      if msg.endpoint.flags.tcp then msg.payload else msg.payload.take cfg.blockSize := by
  unfold OcMessage.parse at h
  unfold OcMessage.payload OcMessage.body
  by_cases htcp : msg.endpoint.flags.tcp = true
  · rw [if_pos htcp] at h
    rw [if_pos htcp, if_pos htcp]
    exact coapTcpParseMessage_received h
  · rw [if_neg htcp] at h
    rw [if_neg htcp, if_neg htcp]
    exact coapUdpParseMessage_received h

/-- what a server looks for when it gets a request -/
def requestLookup (endpoint : Endpoint) (m : Message) : Lookup :=
  ⟨coapGetHeaderUriPath m, endpoint, m.code, m.uriQuery, .server⟩

theorem findServerResponse_eq (endpoint : Endpoint) (m : Message) (s : State) :
    findServerResponse endpoint m s = (requestLookup endpoint m).findResponse s.toBuffers := rfl

/-! ## events -/

/-- bytes that go to the network, and faults -/
def Event.Silent : Event → Prop
  | .transmitted _ _ => True
  | .fault => True
  | _ => False

/-- a packet that differs in its token only -/
def SameBody (p q : Message) : Prop := ∃ token, q = { p with token := token }

/-- a packet without options and payload -/
def Plain (p : Message) : Prop := p.options = ∅ ∧ p.payload = []

variable {s : State} {l : Locals}

/-! ## silent parts -/

theorem coapSendTransaction_silent (initial : Nat) (gone : Nat → Bool) (t : Transaction) (s : State) :
    ∀ e ∈ (coapSendTransaction initial gone t s).2, e.Silent := by
  intro e he
  unfold coapSendTransaction at he
  split at he
  · split at he
    · rw [List.mem_singleton.mp he]
      trivial
    · exact absurd he List.not_mem_nil
  · rw [List.mem_singleton.mp he]
    trivial

theorem checkTransaction_silent (timers : Timers) (ts : List Transaction) (r : State × List Event)
    (hr : ∀ e ∈ r.2, e.Silent) : ∀ e ∈ (ts.foldl (checkTransaction timers) r).2, e.Silent := by
  induction ts generalizing r with
  | nil => exact hr
  | cons t ts ih =>
    refine ih _ fun e he => ?_
    unfold checkTransaction at he
    split at he
    · rcases List.mem_append.mp he with he | he
      · exact hr e he
      · exact coapSendTransaction_silent _ _ _ _ e he
    · exact hr e he

theorem emptyAck_silent (env : Env) (mid : UInt16) (endpoint : Endpoint) :
    ∀ e ∈ emptyAck env mid endpoint, e.Silent := by
  intro e he
  unfold emptyAck at he
  split at he
  · rw [List.mem_singleton.mp he]
    trivial
  · exact absurd he List.not_mem_nil

theorem handleCoapSignalMessage_silent (cfg : Config) (env : Env) (message : Message)
    (endpoint : Endpoint) : ∀ e ∈ handleCoapSignalMessage cfg env message endpoint, e.Silent := by
  intro e he
  unfold handleCoapSignalMessage at he
  split at he
  · rw [List.mem_singleton.mp he]
    trivial
  · split at he
    · rw [List.mem_singleton.mp he]
      trivial
    · exact absurd he List.not_mem_nil

/-! ## from a label to the end -/

section
variable (env : Env) (endpoint : Endpoint) (message : Message)

/-- the packet at the end: `response` with a token, or a reset message -/
def EndsWith (response : Message) (source : Option BlockwiseState) (es : List Event) : Prop :=
  ∀ e ∈ es, e.Silent ∨ ∃ p, e = .sending endpoint message p source ∧ (SameBody response p ∨ Plain p)

theorem setResponseToken_sameBody (l : Locals) :
    SameBody l.response (setResponseToken env message l) := by
  unfold setResponseToken
  repeat' split
  all_goals exact ⟨_, rfl⟩

theorem sendMessage_events (l : Locals) :
    ∃ es, (sendMessage env endpoint message l).2 = l.events ++ es ∧
      ∀ e ∈ es, e.Silent ∨ e = .sending endpoint message (setResponseToken env message l) l.source := by
  unfold sendMessage
  dsimp only
  split
  · split
    · exact ⟨[], (List.append_nil _).symm, fun e he => absurd he List.not_mem_nil⟩
    · split
      · refine ⟨_, List.append_assoc _ _ _, fun e he => ?_⟩
        rcases List.mem_append.mp he with he | he
        · exact Or.inr (List.mem_singleton.mp he)
        · exact Or.inl (coapSendTransaction_silent _ _ _ _ e he)
      · exact ⟨[], (List.append_nil _).symm, fun e he => absurd he List.not_mem_nil⟩
  · exact ⟨[], (List.append_nil _).symm, fun e he => absurd he List.not_mem_nil⟩
  · exact ⟨[], (List.append_nil _).symm, fun e he => absurd he List.not_mem_nil⟩

/-- dropping references has no part in the packet -/
theorem unref_packet (l : Locals) :
    l.unrefRequest.unrefResponse.events = l.events ∧
      l.unrefRequest.unrefResponse.response = l.response ∧
      l.unrefRequest.unrefResponse.source = l.source := by
  unfold Locals.unrefRequest Locals.unrefResponse
  repeat' split
  all_goals exact ⟨rfl, rfl, rfl⟩

theorem resetMessage_packet (l : Locals) :
    (resetMessage endpoint message l).events = l.events ∧
      Plain (resetMessage endpoint message l).response ∧
      (resetMessage endpoint message l).source = l.source := by
  unfold resetMessage
  split <;> exact ⟨rfl, ⟨rfl, rfl⟩, rfl⟩

theorem Plain.sameBody {p q : Message} (hp : Plain p) (h : SameBody p q) : Plain q := by
  obtain ⟨token, rfl⟩ := h
  exact hp

theorem leave_events (l : Locals) (label : Label) :
    ∃ es, (leave env endpoint message l label).2 = l.events ++ es ∧
      EndsWith endpoint message l.response l.source es := by
  have hsend : ∀ l1 : Locals, l1.events = l.events → l1.source = l.source →
      (l1.response = l.response ∨ Plain l1.response) →
      ∃ es, (sendMessage env endpoint message l1).2 = l.events ++ es ∧
        EndsWith endpoint message l.response l.source es := by
    intro l1 he hs hr
    obtain ⟨es, hes, hmem⟩ := sendMessage_events env endpoint message l1
    refine ⟨es, he ▸ hes, fun e hin => (hmem e hin).imp_right fun h => ⟨_, hs ▸ h, ?_⟩⟩
    have hbody := setResponseToken_sameBody env message l1
    rcases hr with hr | hr
    · exact Or.inl (hr ▸ hbody)
    · exact Or.inr (hr.sameBody hbody)
  have hreset : ∃ es, (sendMessage env endpoint message
      (resetMessage endpoint message l).unrefRequest.unrefResponse).2 = l.events ++ es ∧
        EndsWith endpoint message l.response l.source es := by
    obtain ⟨h1, h2, h3⟩ := resetMessage_packet endpoint message l
    obtain ⟨h4, h5, h6⟩ := unref_packet (resetMessage endpoint message l)
    exact hsend _ (h4.trans h1) (h6.trans h3) (Or.inr (h5 ▸ h2))
  cases label with
  | requestHandler => exact hreset
  | initResetMessage => exact hreset
  | freeBlockwiseBuffers =>
    obtain ⟨h4, h5, h6⟩ := unref_packet l
    exact hsend _ h4 h6 (Or.inl h5)
  | sendMessage => exact hsend l rfl rfl (Or.inl rfl)

end

/-! ## without a transaction -/

section
variable (env : Env) (endpoint : Endpoint) (message : Message)

theorem sendMessage_none (l : Locals) (h : l.transaction = none) :
    (sendMessage env endpoint message l).2 = l.events := by
  unfold sendMessage
  rw [h]
  cases l.status <;> rfl

theorem leave_none (l : Locals) (h : l.transaction = none) (label : Label) :
    (leave env endpoint message l label).2 = l.events := by
  have hunref : ∀ l1 : Locals, l1.transaction = none → l1.events = l.events →
      (sendMessage env endpoint message l1.unrefRequest.unrefResponse).2 = l.events := by
    intro l1 ht he
    rw [sendMessage_none _ _ _ _ ((transaction_unref l1).trans ht), (unref_packet l1).1, he]
  have hreset : (resetMessage endpoint message l).transaction = none :=
    (stage_resetMessage endpoint message l).transaction.trans h
  have hev := (resetMessage_packet endpoint message l).1
  cases label with
  | requestHandler => exact hunref _ hreset hev
  | initResetMessage => exact hunref _ hreset hev
  | freeBlockwiseBuffers => exact hunref l h rfl
  | sendMessage => exact sendMessage_none env endpoint message l h

end

/-! ## requests -/

/-- the code of a request -/
def Message.IsRequest (m : Message) : Prop := coapGet ≤ m.code ∧ m.code ≤ coapDelete

section
variable (cfg : Config) (env : Env) (endpoint : Endpoint) (message : Message)

theorem storePayload_events (r : UInt8) (l : Locals) :
    (storePayload cfg env endpoint message r l).1.events = l.events := by
  unfold storePayload
  dsimp only
  repeat' split
  all_goals rfl

theorem requestBranch_events (l : Locals) :
    (requestBranch cfg env endpoint message l).1.events = l.events := by
  unfold requestBranch block1Request uploadBuffer block2Request dispatchResponse openTransfer
    regularRequest
  dsimp only
  repeat' split
  all_goals first | rfl | exact storePayload_events cfg env endpoint message _ _

theorem consumePayload_events (l : Locals) : (consumePayload l).events = l.events := by
  unfold consumePayload
  repeat' split
  all_goals rfl

theorem allocResponse_events (l : Locals) :
    (l.allocResponse env endpoint message).events = l.events := by
  unfold Locals.allocResponse
  dsimp only
  split <;> rfl

theorem reachResource_events (l : Locals) :
    (reachResource env endpoint message l).events = l.events := by
  unfold reachResource
  split
  · rw [allocResponse_events, consumePayload_events]
  · exact consumePayload_events l

theorem setReply_events (code length : Nat) (l : Locals) :
    (setReply cfg message code length l).events = l.events := by
  rcases setReply_cases cfg message code length l with ⟨p, e⟩ | ⟨b, p, p', _, _, e⟩ <;> rw [e] <;> rfl

theorem observeRequest_events (l : Locals) : (observeRequest env message l).events = l.events := by
  unfold observeRequest
  dsimp only
  repeat' split
  all_goals rfl

theorem answer_events (l : Locals) :
    ∃ acks, (answer cfg env endpoint message l).events = l.events ++ acks ∧ ∀ e ∈ acks, e.Silent := by
  have hnil : ∀ e ∈ ([] : List Event), e.Silent := fun e he => absurd he List.not_mem_nil
  unfold answer
  dsimp only
  split
  · refine ⟨_, rfl, fun e he => ?_⟩
    split at he
    · exact emptyAck_silent _ _ _ e he
    · exact absurd he List.not_mem_nil
  · split
    · exact ⟨[], (List.append_nil _).symm, hnil⟩
    · exact ⟨[], by rw [setReply_events, List.append_nil], hnil⟩

/-- a resource that is asked has got a response buffer of its own -/
theorem reachResource_of_refusal {l : Locals} {a : Bool}
    (h : refusal (parsePayload env l) env.entity a = none) :
    reachResource env endpoint message l = (consumePayload l).allocResponse env endpoint message := by
  unfold reachResource
  refine if_pos ?_
  unfold refusal at h
  cases hp : parsePayload env l <;> rw [hp] at h
  · by_cases h1 : env.entity.resource = true
    · by_cases h2 : env.entity.interfaceSupported = true
      · exact ⟨rfl, h1, h2⟩
      · simp [h1, h2] at h
    · simp [h1] at h
  · exact absurd h (by simp)
  · exact absurd h (by simp)

/-- the response buffer that the handler writes to -/
theorem allocResponse_some {l : Locals} {b : BlockwiseState}
    (h : (l.allocResponse env endpoint message).responseBuffer = some b) :
    env.responseAlloc.granted = true ∧ coapGetHeaderUriPath message ≠ [] ∧
      b = setQuery ((BlockwiseState.mk l.state.fresh (coapGetHeaderUriPath message) endpoint
        message.code .server 0 0 1 env.responseAlloc.mem [] 0 none [] 0).asResponse env.etag)
          (coapGetHeaderUriQuery message) := by
  unfold Locals.allocResponse at h
  dsimp only at h
  rcases newResponse_cases env (coapGetHeaderUriPath message) endpoint message.code .server l with
    ⟨e, _⟩ | ⟨b0, hg, hh, hb0, e⟩
  · rw [e] at h
    exact absurd h (by simp [Locals.pointResponse])
  · rw [e] at h
    refine ⟨hg, hh, ?_⟩
    rw [← hb0]
    exact (Option.some.inj h).symm

theorem setQuery_etag (b : BlockwiseState) (query : List UInt8) : (setQuery b query).etag = b.etag := by
  unfold setQuery
  split <;> rfl

/-- `es` are the events of `oc_ri_invoke_coap_entity_handler` on a payload -/
def HandlerEvents (payload : List UInt8) (es : List Event) : Prop :=
  es = [] ∨ ∃ acks, (∀ e ∈ acks, e.Silent) ∧ es = .produced endpoint message payload
    env.entity.representation (env.etag.take coapEtagLen) :: acks

theorem HandlerEvents.not_sending {env : Env} {endpoint e : Endpoint} {message m p : Message}
    {source : Option BlockwiseState} {payload : List UInt8} {es : List Event}
    (h : HandlerEvents env endpoint message payload es) : Event.sending e m p source ∉ es := by
  rcases h with rfl | ⟨acks, ha, rfl⟩
  · exact List.not_mem_nil
  · intro hin
    rcases List.mem_cons.mp hin with h | h
    · exact absurd h (by simp)
    · exact ha _ h

theorem entityHandler_events (l : Locals) :
    ∃ es, (ocRiInvokeCoapEntityHandler cfg env endpoint message l).2.events = l.events ++ es ∧
      HandlerEvents env endpoint message (requestPayload l) es := by
  unfold ocRiInvokeCoapEntityHandler
  dsimp only
  split
  · rename_i b href hb
    have he := reachResource_of_refusal env endpoint message href
    rw [he] at hb
    obtain ⟨_, _, hb⟩ := allocResponse_some env endpoint message hb
    have hetag : b.etag = env.etag.take coapEtagLen := by
      rw [hb, setQuery_etag]
      rfl
    obtain ⟨acks, ha, hs⟩ := answer_events cfg env endpoint message (observeRequest env message
      (runHandler env endpoint message (requestPayload l) b (reachResource env endpoint message l)))
    refine ⟨_, ?_, Or.inr ⟨acks, hs, rfl⟩⟩
    rw [ha, observeRequest_events]
    show (reachResource env endpoint message l).events ++ [_] ++ acks = _
    rw [reachResource_events, hetag, List.append_assoc]
    rfl
  · exact ⟨[], by rw [setReply_events, reachResource_events, List.append_nil], Or.inl rfl⟩

theorem requestHandler_events (block2 : Option BlockOption) (l : Locals) :
    ∃ es, (requestHandler cfg env endpoint message block2 l).1.events
        = l.events ++ .invoked endpoint message l.requestBuffer :: es ∧
      HandlerEvents env endpoint message (requestPayload l) es := by
  obtain ⟨es, he, hes⟩ := entityHandler_events cfg env endpoint message
    (l.emit (.invoked endpoint message l.requestBuffer))
  refine ⟨es, ?_, hes⟩
  have h0 : l.events ++ .invoked endpoint message l.requestBuffer :: es
      = (l.emit (.invoked endpoint message l.requestBuffer)).events ++ es := by
    show _ = l.events ++ [_] ++ es
    rw [List.append_assoc]
    rfl
  rw [h0, ← he]
  unfold requestHandler
  dsimp only
  split
  · split
    · rfl
    · unfold firstBlock
      dsimp only
      split <;> rfl
  · exact (unref_packet _).1

/-- **Events of an admitted request.**  The label its branch jumps to decides whether the entity
handler is called. -/
theorem processRequest_events (l : Locals) {r : Locals × Label}
    (hr : requestBranch cfg env endpoint message (l.emit (.accepted endpoint message)) = r) :
    (r.2 ≠ .requestHandler ∧ ∃ es, (processRequest cfg env endpoint message l).2
        = l.events ++ .accepted endpoint message :: es ∧
          EndsWith endpoint message r.1.response r.1.source es) ∨
      (r.2 = .requestHandler ∧ ∃ hs es, (processRequest cfg env endpoint message l).2
        = l.events ++ .accepted endpoint message :: .invoked endpoint message r.1.requestBuffer ::
          (hs ++ es) ∧ HandlerEvents env endpoint message (requestPayload r.1) hs ∧
          EndsWith endpoint message
            (requestHandler cfg env endpoint message (coapGetHeaderBlock2 message) r.1).1.response
            (requestHandler cfg env endpoint message (coapGetHeaderBlock2 message) r.1).1.source es) := by
  have hev : r.1.events = l.events ++ [.accepted endpoint message] := by
    rw [← hr, requestBranch_events]
    rfl
  unfold processRequest
  dsimp only
  rw [hr]
  obtain ⟨l1, label⟩ := r
  have hleave : label ≠ .requestHandler → ∃ es, (leave env endpoint message l1 label).2
      = l.events ++ .accepted endpoint message :: es ∧
        EndsWith endpoint message l1.response l1.source es := by
    intro _
    obtain ⟨es, he, hes⟩ := leave_events env endpoint message l1 label
    refine ⟨es, ?_, hes⟩
    rw [he, hev, List.append_assoc]
    rfl
  cases label with
  | requestHandler =>
    refine Or.inr ⟨rfl, ?_⟩
    obtain ⟨hs, hhs, hh⟩ := requestHandler_events cfg env endpoint message
      (coapGetHeaderBlock2 message) l1
    obtain ⟨es, he, hes⟩ := leave_events env endpoint message
      (requestHandler cfg env endpoint message (coapGetHeaderBlock2 message) l1).1
      (requestHandler cfg env endpoint message (coapGetHeaderBlock2 message) l1).2
    refine ⟨hs, es, ?_, hh, hes⟩
    show (leave env endpoint message _ _).2 = _
    rw [he, hhs, hev, List.append_assoc, List.append_assoc]
    rfl
  | initResetMessage => exact Or.inl ⟨by simp, hleave (by simp)⟩
  | freeBlockwiseBuffers => exact Or.inl ⟨by simp, hleave (by simp)⟩
  | sendMessage => exact Or.inl ⟨by simp, hleave (by simp)⟩

end

/-! ## packets -/

/-- a property of packets and their sources that does not look at the token and that packets
without options and payload have -/
structure PacketProperty (Q : Message → Option BlockwiseState → Prop) : Prop where
  sameBody : ∀ p q source, SameBody p q → Q p source → Q q source
  plain : ∀ p source, Plain p → Q p source

/-- nothing is reported but packets with the property, in answer to this message -/
def Sends (endpoint : Endpoint) (message : Message)
    (Q : Message → Option BlockwiseState → Prop) (es : List Event) : Prop :=
  ∀ e ∈ es, e.Silent ∨ ∃ p source, e = .sending endpoint message p source ∧ Q p source

theorem EndsWith.sends {Q : Message → Option BlockwiseState → Prop} {endpoint : Endpoint}
    {message response : Message}
    {source : Option BlockwiseState} {es : List Event} (hQ : PacketProperty Q)
    (h : EndsWith endpoint message response source es) (hr : Q response source) :
    Sends endpoint message Q es := by
  intro e he
  refine (h e he).imp_right ?_
  rintro ⟨p, rfl, hp | hp⟩
  · exact ⟨p, source, rfl, hQ.sameBody _ _ _ hp hr⟩
  · exact ⟨p, source, rfl, hQ.plain p source hp⟩

/-- the packet that answers an admitted request is the one of its branch, or of the handler -/
theorem processRequest_sending {Q : Message → Option BlockwiseState → Prop} (hQ : PacketProperty Q)
    {cfg : Config} {env : Env} {endpoint : Endpoint} {message : Message} {l : Locals}
    (hl : ∀ e ∈ l.events, e.Silent) {r : Locals × Label}
    (hr : requestBranch cfg env endpoint message (l.emit (.accepted endpoint message)) = r)
    (hbranch : r.2 ≠ .requestHandler → Q r.1.response r.1.source)
    (hhandler : r.2 = .requestHandler →
      Q (requestHandler cfg env endpoint message (coapGetHeaderBlock2 message) r.1).1.response
        (requestHandler cfg env endpoint message (coapGetHeaderBlock2 message) r.1).1.source)
    {e : Endpoint} {m p : Message} {source : Option BlockwiseState}
    (hin : Event.sending e m p source ∈ (processRequest cfg env endpoint message l).2) :
    e = endpoint ∧ m = message ∧ Q p source := by
  have hends : ∀ es, Sends endpoint message Q es → Event.sending e m p source ∈ es →
      e = endpoint ∧ m = message ∧ Q p source := by
    intro es hes hin
    rcases hes _ hin with h | ⟨p', source', h, hq⟩
    · exact h.elim
    · obtain ⟨rfl, rfl, rfl, rfl⟩ := Event.sending.inj h
      exact ⟨rfl, rfl, hq⟩
  have hnot : Event.sending e m p source ∉ l.events := fun hin => hl _ hin
  rcases processRequest_events cfg env endpoint message l hr with
    ⟨hlabel, es, he, hes⟩ | ⟨hlabel, hs, es, he, hh, hes⟩
  · rw [he] at hin
    rcases List.mem_append.mp hin with h | h
    · exact absurd h hnot
    · rcases List.mem_cons.mp h with h | h
      · exact absurd h (by simp)
      · exact hends es (hes.sends hQ (hbranch hlabel)) h
  · rw [he] at hin
    rcases List.mem_append.mp hin with h | h
    · exact absurd h hnot
    · rcases List.mem_cons.mp h with h | h
      · exact absurd h (by simp)
      · rcases List.mem_cons.mp h with h | h
        · exact absurd h (by simp)
        · rcases List.mem_append.mp h with h | h
          · exact absurd h hh.not_sending
          · exact hends es (hes.sends hQ (hhandler hlabel)) h

/-! ## the client -/

def Flow.locals : Flow → Locals
  | .next l _ => l
  | .jump l _ => l
  | .fault l => l

section
variable (cfg : Config) (env : Env) (endpoint : Endpoint) (message : Message)

/-- what the stages of the client do not touch unless they jump -/
structure SamePacket (l l' : Locals) : Prop where
  events : l'.events = l.events
  response : l'.response = l.response
  source : l'.source = l.source

theorem clientRequest_events (responseMid : UInt16) (block1 : Option BlockOption) (l : Locals)
    (clientCb : Option ClientCb) :
    (clientRequest cfg env endpoint message responseMid block1 l clientCb).locals.events
      = l.events := by
  unfold clientRequest continueRequest
  dsimp only
  repeat' split
  all_goals rfl

theorem clientRequest_next {responseMid : UInt16} {block1 : Option BlockOption} {l l' : Locals}
    {clientCb cb : Option ClientCb}
    (h : clientRequest cfg env endpoint message responseMid block1 l clientCb = .next l' cb) :
    SamePacket l l' := by
  unfold clientRequest continueRequest at h
  dsimp only at h
  repeat' split at h
  all_goals cases h
  all_goals exact ⟨rfl, rfl, rfl⟩

theorem freeUnreferenced_packet (l : Locals) : SamePacket l (freeUnreferenced l) := by
  unfold freeUnreferenced
  repeat' split
  all_goals exact ⟨rfl, rfl, rfl⟩

theorem clientResponseBuffer_packet (l : Locals) (clientCb : Option ClientCb) :
    SamePacket l (clientResponseBuffer env endpoint message l clientCb) := by
  unfold clientResponseBuffer
  dsimp only
  repeat' split
  all_goals exact ⟨rfl, rfl, rfl⟩

theorem clientResponse_events (responseMid : UInt16) (block2 : Option BlockOption) (l : Locals)
    (clientCb : Option ClientCb) :
    (clientResponse cfg env endpoint message responseMid block2 l clientCb).locals.events
      = l.events := by
  unfold clientResponse
  dsimp only
  repeat' split
  all_goals rfl

theorem clientResponse_next {responseMid : UInt16} {block2 : Option BlockOption} {l l' : Locals}
    {clientCb cb : Option ClientCb}
    (h : clientResponse cfg env endpoint message responseMid block2 l clientCb = .next l' cb) :
    SamePacket l l' := by
  unfold clientResponse at h
  dsimp only at h
  repeat' split at h
  all_goals cases h
  all_goals exact ⟨rfl, rfl, rfl⟩

variable {Q : Message → Option BlockwiseState → Prop}

theorem leave_sends (hQ : PacketProperty Q) (l : Locals) (label : Label)
    (h : ∀ e ∈ l.events, e.Silent) (hl : Q l.response l.source) :
    Sends endpoint message Q (leave env endpoint message l label).2 := by
  obtain ⟨es, he, hes⟩ := leave_events env endpoint message l label
  rw [he]
  intro e hin
  rcases List.mem_append.mp hin with hin | hin
  · exact Or.inl (h e hin)
  · exact hes.sends hQ hl e hin

theorem faulted_sends (l : Locals) (h : ∀ e ∈ l.events, e.Silent) :
    Sends endpoint message Q l.faulted.2 := by
  intro e hin
  rcases List.mem_append.mp hin with hin | hin
  · exact Or.inl (h e hin)
  · rw [List.mem_singleton.mp hin]
    exact Or.inl trivial

/-- what the two stages that build a packet guarantee, the client guarantees -/
theorem clientExchange_sends (hQ : PacketProperty Q) (responseMid : UInt16)
    (clientCb : Option ClientCb) (l : Locals) (h : ∀ e ∈ l.events, e.Silent)
    (hl : Q l.response l.source)
    (hrequest : ∀ l' label, clientRequest cfg env endpoint message responseMid
      (coapGetHeaderBlock1 message) l clientCb = .jump l' label → Q l'.response l'.source)
    (hresponse : ∀ l1 cb l' label, clientResponse cfg env endpoint message responseMid
      (coapGetHeaderBlock2 message) l1 cb = .jump l' label → Q l'.response l'.source) :
    Sends endpoint message Q
      (clientExchange cfg env endpoint message responseMid clientCb l).2 := by
  unfold clientExchange
  dsimp only
  have h1 := clientRequest_events cfg env endpoint message responseMid (coapGetHeaderBlock1 message)
    l clientCb
  split
  · rename_i e
    rw [e] at h1
    exact faulted_sends endpoint message _ (h1.symm ▸ h)
  · rename_i e
    rw [e] at h1
    exact leave_sends env endpoint message hQ _ _ (h1.symm ▸ h) (hrequest _ _ e)
  · rename_i l1 cb1 e
    have h1 := clientRequest_next cfg env endpoint message e
    have h2 := freeUnreferenced_packet l1
    have h3 := clientResponseBuffer_packet env endpoint message (freeUnreferenced l1) cb1
    generalize clientResponseBuffer env endpoint message (freeUnreferenced l1) cb1 = l2 at h3 ⊢
    have he2 : ∀ e ∈ l2.events, e.Silent := by rwa [h3.events, h2.events, h1.events]
    have h4 := clientResponse_events cfg env endpoint message responseMid
      (coapGetHeaderBlock2 message) l2 cb1
    split
    · rename_i e
      rw [e] at h4
      exact faulted_sends endpoint message _ (h4.symm ▸ he2)
    · rename_i e
      rw [e] at h4
      exact leave_sends env endpoint message hQ _ _ (h4.symm ▸ he2) (hresponse _ _ _ _ e)
    · rename_i l3 cb3 e
      have h5 := clientResponse_next cfg env endpoint message e
      have he3 : ∀ e ∈ l3.events, e.Silent := by rwa [h5.events]
      have hl3 : Q l3.response l3.source := by
        rwa [h5.response, h5.source, h3.response, h3.source, h2.response, h2.source, h1.response,
          h1.source]
      split
      · exact leave_sends env endpoint message hQ _ _ he3 hl3
      · exact faulted_sends endpoint message _ he3
      · exact leave_sends env endpoint message hQ _ _ he3 hl3

theorem receiveResponse_sends (hQ : PacketProperty Q) (s : State) (events : List Event)
    (h : ∀ e ∈ events, e.Silent)
    (hrequest : ∀ responseMid l cb l' label, l.state.requests = s.requests →
      clientRequest cfg env endpoint message responseMid (coapGetHeaderBlock1 message) l cb
        = .jump l' label → Q l'.response l'.source)
    (hresponse : ∀ responseMid l1 cb l' label, clientResponse cfg env endpoint message responseMid
      (coapGetHeaderBlock2 message) l1 cb = .jump l' label → Q l'.response l'.source) :
    Sends endpoint message Q (receiveResponse cfg env endpoint message s events).2 := by
  unfold receiveResponse
  dsimp only
  refine clientExchange_sends cfg env endpoint message hQ _ _ _ (fun e he => ?_)
    (hQ.plain _ _ ⟨rfl, rfl⟩) (fun l' label => hrequest _ _ _ l' label ?_) (hresponse _)
  · have he : e ∈ (if message.type = .con then events ++ emptyAck env message.mid endpoint
        else events) := he
    split at he
    · rcases List.mem_append.mp he with he | he
      · exact h e he
      · exact emptyAck_silent _ _ _ e he
    · exact h e he
  · show Buffers.requests (State.toBuffers (if message.type = .rst then _ else _)) = s.requests
    split <;> rfl

/-! ## the whole function -/

/-- the local variables of a request that has just got its transaction -/
structure Admitted (s : State) (l : Locals) : Prop where
  requests : l.state.requests = s.requests
  responses : l.state.responses = s.responses
  sound : s.WF → l.Sound
  requestBuffer : l.requestBuffer = none
  responseBuffer : l.responseBuffer = none
  response : Plain l.response
  events : ∀ e ∈ l.events, e.Silent

/-- a step that no upload and no representation of a server notices -/
structure Idle (s : State) (r : State × List Event) : Prop where
  requests : s.WF → QuietRequests s r.1
  responses : s.WF → QuietResponses s r.1
  events : ∀ e ∈ r.2, e.Silent ∨ ∃ endpoint message p source,
    e = .sending endpoint message p source ∧ ¬ message.IsRequest

theorem startResponse_plain (s : State) : Plain (startResponse endpoint message s).1 := by
  unfold startResponse
  repeat' split
  all_goals exact ⟨rfl, rfl⟩

theorem startResponse_buffers (s : State) :
    (startResponse endpoint message s).2.toBuffers = s.toBuffers := by
  unfold startResponse coapGetMid remember
  split
  · rfl
  · split <;> rfl

theorem receiveRequest_cases (s : State) (events : List Event) (h : ∀ e ∈ events, e.Silent) :
    (∃ l, Admitted s l ∧ ∀ env' : Env, env'.transactionGranted = env.transactionGranted →
        receiveRequest cfg env' endpoint message s events
          = processRequest cfg env' endpoint message l) ∨
      Idle s (receiveRequest cfg env endpoint message s events) ∧
        ∀ e ∈ (receiveRequest cfg env endpoint message s events).2, e.Silent := by
  by_cases hd : dropsDuplicate endpoint message s
  · have hdrop : receiveRequest cfg env endpoint message s events = (s, events) := if_pos hd
    rw [hdrop]
    exact Or.inr ⟨⟨fun _ => QuietRequests.refl s, fun _ => QuietResponses.refl s,
      fun e he => Or.inl (h e he)⟩, h⟩
  · unfold receiveRequest
    simp only [if_neg hd]
    have hset := settles_startResponse endpoint message none s
    have hplain := startResponse_plain endpoint message s
    have hbuf := startResponse_buffers endpoint message s
    generalize startResponse endpoint message s = r at hset hplain hbuf ⊢
    rcases hn : coapNewTransaction env.transactionGranted message.mid endpoint r.2 with ⟨_ | id, s1⟩
    · obtain ⟨_, rfl⟩ := coapNewTransaction_none hn
      -- without a transaction nothing is sent
      have hev : (leave env endpoint message (requestLocals r.1 none r.2 events)
          .initResetMessage).2 = events := leave_none env endpoint message _ rfl .initResetMessage
      refine Or.inr ⟨⟨fun hs => ?_, fun hs => ?_, fun e he => Or.inl (h e (hev ▸ he))⟩,
        fun e he => h e (hev ▸ he)⟩
      · exact hset.requests.trans (settles_leave env endpoint message
          (requestLocals_sound r.1 none (hset.wf hs) events) .initResetMessage).requests
      · exact hset.responses.trans (settles_leave env endpoint message
          (requestLocals_sound r.1 none (hset.wf hs) events) .initResetMessage).responses
    · have h2 := settles_newTransaction none hn
      refine Or.inl ⟨requestLocals r.1 (some id) s1 events,
        ⟨?_, ?_, fun hs => ?_, rfl, rfl, hplain, h⟩, fun env' he => by rw [he, hn]⟩
      all_goals obtain ⟨_, _, rfl⟩ := coapNewTransaction_some hn
      · show r.2.requests = s.requests
        exact congrArg Buffers.requests hbuf
      · show r.2.responses = s.responses
        exact congrArg Buffers.responses hbuf
      · exact requestLocals_sound r.1 (some id) (h2.wf (hset.wf hs)) events

end

theorem Message.IsRequest.not_signal {m : Message} (h : m.IsRequest) :
    coapCheckSignalMessage m = false := by
  have h1 : m.code.toNat ≤ 4 := h.2
  have hne : ∀ c : UInt8, 4 < c.toNat → (m.code == c) = false := by
    intro c hc
    rw [beq_eq_false_iff_ne]
    rintro rfl
    omega
  unfold coapCheckSignalMessage
  rw [hne _ (by decide), hne _ (by decide), hne _ (by decide), hne _ (by decide), hne _ (by decide)]
  rfl

theorem receiveMessage_request (cfg : Config) (env : Env) (endpoint : Endpoint) {m : Message}
    (hm : m.IsRequest) (s : State) :
    receiveMessage cfg env endpoint m s
      = receiveRequest cfg env endpoint m (cancelTransaction endpoint m s) [] := by
  unfold receiveMessage
  dsimp only
  rw [hm.not_signal]
  exact if_pos hm

/-- buffers that are those of `s` have been touched by nobody -/
theorem Idle.of_buffers {s s1 : State} {r : State × List Event} (h : Idle s1 r)
    (hwf : s.WF → s1.WF) (hb : s1.toBuffers = s.toBuffers) : Idle s r := by
  have hq : s1.requests = s.requests := congrArg Buffers.requests hb
  have hr : s1.responses = s.responses := congrArg Buffers.responses hb
  refine ⟨fun hs => ?_, fun hs => ?_, h.events⟩
  · have := h.requests (hwf hs)
    unfold QuietRequests at this ⊢
    rwa [hq] at this
  · have := h.responses (hwf hs)
    unfold QuietResponses at this ⊢
    rwa [hr] at this

theorem receiveMessage_idle (cfg : Config) (env : Env) (endpoint : Endpoint) {m : Message}
    (hm : ¬ m.IsRequest) (s : State) :
    Idle (cancelTransaction endpoint m s) (receiveMessage cfg env endpoint m s) := by
  unfold receiveMessage
  dsimp only
  rw [if_neg (show ¬ (coapGet ≤ m.code ∧ m.code ≤ coapDelete) from hm)]
  have hev : ∀ e ∈ (if coapCheckSignalMessage m = true then
      handleCoapSignalMessage cfg env m endpoint else []), e.Silent := by
    intro e he
    split at he
    · exact handleCoapSignalMessage_silent _ _ _ _ e he
    · exact absurd he List.not_mem_nil
  refine ⟨fun hs => (receiveResponse_settles cfg env endpoint m hs _).requests,
    fun hs => (receiveResponse_settles cfg env endpoint m hs _).responses, fun e he => ?_⟩
  have hQ : PacketProperty fun _ _ => True := ⟨fun _ _ _ _ _ => trivial, fun _ _ _ => trivial⟩
  refine (receiveResponse_sends cfg env endpoint m hQ _ _ hev
    (fun _ _ _ _ _ _ _ => trivial) (fun _ _ _ _ _ _ => trivial) e he).imp_right ?_
  rintro ⟨p, source, rfl, _⟩
  exact ⟨endpoint, m, p, source, rfl, hm⟩

/-- **`coap_receive`, from outside.**  Either a request is admitted, which of the environment only
the transaction pool decides, or the step is idle. -/
theorem coapReceive_cases (cfg : Config) (env : Env) (msg : OcMessage) (s : State) :
    (∃ m l, msg.parse cfg = .ok m ∧ m.IsRequest ∧ Admitted s l ∧
        ∀ env' : Env, env'.transactionGranted = env.transactionGranted →
          coapReceive cfg env' msg s = processRequest cfg env' msg.endpoint m l) ∨
      Idle s (coapReceive cfg env msg s) ∧
        ∀ m, msg.parse cfg = .ok m → m.IsRequest → ∀ e ∈ (coapReceive cfg env msg s).2, e.Silent := by
  unfold coapReceive
  cases hp : msg.parse cfg with
  | error _ =>
    exact Or.inr ⟨⟨fun _ => (shrinks_scrub s).quietRequests,
      fun _ => (shrinks_scrub s).quietResponses, fun e he => absurd he List.not_mem_nil⟩,
      fun m h => absurd h (by simp)⟩
  | ok m =>
    dsimp only
    have hbuf := cancelTransaction_buffers msg.endpoint m s
    have hwf : s.WF → (cancelTransaction msg.endpoint m s).WF := cancelTransaction_wf msg.endpoint m
    by_cases hm : m.IsRequest
    · have hnil : ∀ e ∈ ([] : List Event), e.Silent := fun e he => absurd he List.not_mem_nil
      simp only [receiveMessage_request cfg _ msg.endpoint hm]
      rcases receiveRequest_cases cfg env msg.endpoint m (cancelTransaction msg.endpoint m s) [] hnil
        with ⟨l, ha, e⟩ | ⟨hi, hev⟩
      · refine Or.inl ⟨m, l, rfl, hm, ⟨?_, ?_, fun hs => ha.sound (hwf hs), ha.requestBuffer,
          ha.responseBuffer, ha.response, ha.events⟩, e⟩
        · exact ha.requests.trans (congrArg Buffers.requests hbuf)
        · exact ha.responses.trans (congrArg Buffers.responses hbuf)
      · exact Or.inr ⟨hi.of_buffers hwf hbuf, fun _ _ _ => hev⟩
    · refine Or.inr ⟨(receiveMessage_idle cfg env msg.endpoint hm s).of_buffers hwf hbuf,
        fun m' h hm' => ?_⟩
      obtain rfl := Except.ok.inj h
      exact absurd hm' hm

/-- the other steps are idle -/
theorem step_idle (cfg : Config) (st : Step) (s : State) (h : ∀ env msg, st ≠ .receive env msg) :
    Idle s (step cfg st s) := by
  have hquiet : ∀ {s' : State} {es : List Event}, (s.WF → Settles none s s' ∨ QuietRequests s s' ∧
      QuietResponses s s') → (∀ e ∈ es, e.Silent) → Idle s (s', es) := by
    intro s' es hs he
    refine ⟨fun hwf => ?_, fun hwf => ?_, fun e hin => Or.inl (he e hin)⟩
    · rcases hs hwf with h | h
      · exact h.requests
      · exact h.1
    · rcases hs hwf with h | h
      · exact h.responses
      · exact h.2
  have hnil : ∀ e ∈ ([] : List Event), e.Silent := fun e he => absurd he List.not_mem_nil
  cases st with
  | receive env msg => exact absurd rfl (h env msg)
  | requestTimeout id => exact hquiet (fun _ => Or.inl ((shrinks_freeRequest id s).settles none)) hnil
  | responseTimeout id => exact hquiet (fun _ => Or.inl ((shrinks_freeResponse id s).settles none)) hnil
  | checkTransactions timers =>
    exact hquiet (fun _ => Or.inr (foldl_checkTransaction timers s.transactions (s, [])).2)
      (checkTransaction_silent timers s.transactions (s, []) hnil)
  | send env mid endpoint data =>
    refine hquiet (fun hs => Or.inl (sendNew_settles env mid endpoint data hs)) ?_
    dsimp only
    split
    · exact hnil
    · exact coapSendTransaction_silent _ _ _ _
  | clear id =>
    refine hquiet (fun _ => Or.inr ⟨QuietRequests.refl s, QuietResponses.refl s⟩) hnil

end Coap
