import Iotivity.Engine.Answering
import Iotivity.Engine.Exchange

/-!
# Which messages reach a client request

A client has several requests in flight, each with its callback and its buffers.  A message reaches one of
them by the token of the callback, or else by the message id of a buffer.

* `Exchanges`             the engine with the follow-up requests that have been sent;
* `Entitled`              a message from the endpoint of a request, with its token or for a follow-up;
* `Matched`               what the lookups leave out;
* `responses_isolated`    only entitled messages reach a response buffer or a handler;
* `misdirected`           a message of another endpoint with the token, and one with a message id.
-/

namespace Coap
open Memory Keyed

/-! ## runs -/

/-- the engine with the static variables of the client, and the follow-up requests so far -/
structure Exchanges where
  session : Session
  uploads : List FollowUp
  downloads : List FollowUp

def Exchanges.engine (x : Exchanges) : State := x.session.engine

def Exchanges.withEngine (s : State) (x : Exchanges) : Exchanges :=
  { x with session := { x.session with engine := s } }

/-- * `receive`            a message;
* `request`               a call of the client, or an init and a do call at once;
* `prepare`, `dispatch`   an init call, and a do call;
* `requestTimeout`, `responseTimeout`, `callbackTimeout`   the life of a buffer, or of a callback, is over;
* `checkTransactions`     the retransmission timer;
* `others`                whatever minds the client's buffers: observers, separate responses, discovery. -/
inductive ExchangeStep where
  | receive (env : Env) (msg : OcMessage)
  | request (k : ClientSequence) (call : RequestCall)
  | prepare (k : ClientSequence) (call : RequestCall)
  | dispatch (call : RequestCall)
  | requestTimeout (id : Nat)
  | responseTimeout (id : Nat)
  | callbackTimeout (id : Nat)
  | checkTransactions (timers : Timers)
  | others (f : State → State) (asks : ∀ s, Asking s (f s))

def Exchanges.step (cfg : Config) (st : ExchangeStep) (x : Exchanges) : Exchanges :=
  match st with
  | .receive env msg =>
    let o := receiveOutcome cfg env msg x.engine
    { x.withEngine (coapReceive cfg env msg x.engine).1 with
      uploads := x.uploads ++ o.uploads
      downloads := x.downloads ++ o.downloads }
  | .request k call => { x with session := (k.run cfg call x.session).2.1 }
  | .prepare k call => { x with session := (prepareWith call k.method k.observeSeq x.session).2 }
  | .dispatch call => { x with session := (dispatchCoapRequest cfg call x.session).2.1 }
  | .requestTimeout id => x.withEngine (x.engine.withBuffers (ocBlockwiseFreeRequestBuffer id))
  | .responseTimeout id => x.withEngine (x.engine.withBuffers (ocBlockwiseFreeResponseBuffer id))
  | .callbackTimeout id => x.withEngine (freeClientCb id x.engine)
  | .checkTransactions timers => x.withEngine (coapCheckTransactions timers x.engine).1
  | .others f _ => x.withEngine (f x.engine)

/-- start-up -/
def Exchanges.init (currentMid : UInt16) : Exchanges where
  session := ⟨State.init currentMid, none, none, none, coapUdpInitMessage .con 0 0⟩
  uploads := []
  downloads := []

/-- a run from start-up, all of whose steps meet a condition -/
inductive ExchangeRun (cfg : Config) (C : Exchanges → ExchangeStep → Prop) : Exchanges → Prop where
  | init (currentMid : UInt16) : ExchangeRun cfg C (Exchanges.init currentMid)
  | step {x : Exchanges} (st : ExchangeStep) (h : ExchangeRun cfg C x) (hc : C x st) :
      ExchangeRun cfg C (x.step cfg st)

/-! ## isolation -/

/-- a request to one peer; the address of a multicast has the flag `DISCOVERY` -/
def ClientCb.Unicast (R : ClientCb) : Prop := R.endpoint.flags.discovery = false

/-- the message answers a follow-up request -/
def FollowUp.Answered (f : FollowUp) (message : Message) : Prop :=
  message.mid = f.mid ∧ (message.token = f.token ∨ message.code = 0)

/-- The message has been received from the endpoint that the request was sent to, and it carries the token of
the request or answers a follow-up request that has been sent for it. -/
structure Entitled (x : Exchanges) (R : ClientCb) (endpoint : Endpoint) (message : Message) : Prop where
  endpoint : SameEndpoint endpoint R.endpoint
  related : message.token = R.token ∨
    ∃ f, (f ∈ x.uploads ∨ f ∈ x.downloads) ∧ f.cb = R.id ∧ f.Answered message

/-- the step receives a message that is entitled to the request -/
def ExchangeStep.Delivers (cfg : Config) (x : Exchanges) (R : ClientCb) : ExchangeStep → Prop
  | .receive _ msg => ∃ message, msg.parse cfg = .ok message ∧ Entitled x R msg.endpoint message
  | _ => False

/-- the callback that a step invokes -/
def ExchangeStep.invoked (cfg : Config) (x : Exchanges) : ExchangeStep → Option ClientCb
  | .receive env msg => (receiveOutcome cfg env msg x.engine).invoked
  | _ => none

/-- Client response buffers of unicast requests keep their bytes, and handlers are not called, unless the step
receives a message that is entitled to the request. -/
structure ClientIsolated (cfg : Config) (x : Exchanges) (st : ExchangeStep) : Prop where
  buffer : ∀ b' ∈ (x.step cfg st).engine.responses, b'.role = .client → ∀ R ∈ x.engine.clientCbs,
    b'.clientCb = some R.id → R.Unicast →
      (∃ b ∈ x.engine.responses, SameBytes b b') ∨ st.Delivers cfg x R
  handler : ∀ R, st.invoked cfg x = some R → R.Unicast → st.Delivers cfg x R

/-! ## what the lookups leave out -/

/-- The buffer that is found by a message id belongs to the endpoint of the message, and the message answers a
follow-up request that has been sent for this buffer. -/
def Traced (fs : List FollowUp) (endpoint : Endpoint) (message : Message) (b : BlockwiseState) : Prop :=
  SameEndpoint endpoint b.endpoint ∧ ∃ f ∈ fs, f.buffer = b.id ∧ f.Answered message

/-- The callback with the token of a response was for the endpoint of the response.  Without such a callback, the
buffer with its message id is a traced one: the request buffer, if its upload goes on and no block of it is
sent, or else the response buffer. -/
structure Matched (cfg : Config) (env : Env) (x : Exchanges) (endpoint : Endpoint) (message : Message) :
    Prop where
  token : ∀ R, tokenCb message x.engine = some R → R.Unicast → SameEndpoint endpoint R.endpoint
  upload : tokenCb message x.engine = none → ∀ b,
    ocBlockwiseFindBufferByMid x.engine.requests message.mid = some b → continues message = true →
    ¬ UploadsOn cfg env endpoint message none x.engine →
    ∀ R, bufferClientCb x.engine b = some R → R.Unicast → Traced x.uploads endpoint message b
  download : tokenCb message x.engine = none → exchangeCb endpoint message none x.engine = none →
    ¬ UploadsOn cfg env endpoint message none x.engine →
    ∀ b, ocBlockwiseFindBufferByMid x.engine.responses message.mid = some b →
    ∀ R, bufferClientCb x.engine b = some R → R.Unicast → Traced x.downloads endpoint message b

/-- responses are matched -/
def ExchangeStep.Matched (cfg : Config) (x : Exchanges) : ExchangeStep → Prop
  | .receive env msg => ∀ message, msg.parse cfg = .ok message → ¬ message.IsRequest →
      Coap.Matched cfg env x msg.endpoint message
  | _ => True

/-! ## the invariant -/

/-- Addresses are distinct; the buffers of a callback are for its endpoint, and the buffers of follow-up
requests belong to the callbacks they were sent for. -/
structure Exchanges.Sound (x : Exchanges) : Prop where
  wf : x.engine.WF
  distinct : Distinct ClientCb.id x.engine.fresh x.engine.clientCbs
  requestLt : ∀ b ∈ x.engine.requests, b.role = .client → ∀ id, b.clientCb = some id → id < x.engine.fresh
  responseLt : ∀ b ∈ x.engine.responses, b.role = .client → ∀ id, b.clientCb = some id → id < x.engine.fresh
  request : ∀ b ∈ x.engine.requests, b.role = .client → ∀ R ∈ x.engine.clientCbs,
    b.clientCb = some R.id → b.endpoint = R.endpoint
  response : ∀ b ∈ x.engine.responses, b.role = .client → ∀ R ∈ x.engine.clientCbs,
    b.clientCb = some R.id → R.Unicast → SameEndpoint b.endpoint R.endpoint
  upload : ∀ f ∈ x.uploads, f.buffer < x.engine.fresh ∧ ∀ b ∈ x.engine.requests, b.role = .client →
    b.id = f.buffer → b.clientCb = some f.cb
  download : ∀ f ∈ x.downloads, f.buffer < x.engine.fresh ∧ ∀ b ∈ x.engine.responses, b.role = .client →
    b.id = f.buffer → b.clientCb = some f.cb

/-- the invariant needs nothing else of a step -/
theorem Exchanges.Sound.asks {x : Exchanges} (h : x.Sound) {s : State} (ha : Asking x.engine s)
    {y : Exchanges} (hy : y.engine = s) (hu : y.uploads = x.uploads) (hd : y.downloads = x.downloads) :
    y.Sound := by
  have hdist := ha.distinct h.distinct
  refine ⟨hy ▸ ha.wf h.wf, hy ▸ hdist, ?_, ?_, ?_, ?_, ?_, ?_⟩
  · rw [hy]
    intro b hb hr id hid
    rcases ha.requests b hb hr with ⟨c, hc, hcb⟩ | ⟨cb, hm⟩
    · exact (h.requestLt c hc (hcb.role.symm.trans hr) id (hcb.clientCb.symm.trans hid)).trans_le ha.fresh
    · exact Option.some.inj (hm.owner.symm.trans hid) ▸ hm.lt
  · rw [hy]
    intro b hb hr id hid
    obtain ⟨c, hc, hcb⟩ := ha.responses b hb hr
    have hlt := h.responseLt c hc (hcb.owner.role.symm.trans hr) id (hcb.owner.clientCb.symm.trans hid)
    exact hlt.trans_le ha.fresh
  · rw [hy]
    intro b hb hr R hR hid
    rcases ha.requests b hb hr with ⟨c, hc, hcb⟩ | ⟨cb, hm⟩
    · have hrole := hcb.role.symm.trans hr
      have howner := hcb.clientCb.symm.trans hid
      rcases ha.clientCbs R hR with hn | ⟨R0, hR0, hsame⟩
      · have := h.requestLt c hc hrole R.id howner
        omega
      · rw [hcb.endpoint, hsame.endpoint]
        exact h.request c hc hrole R0 hR0 (howner.trans (congrArg some hsame.id))
    · exact hm.endpoint R hR (Option.some.inj (hid.symm.trans hm.owner))
  · rw [hy]
    intro b hb hr R hR hid hun
    obtain ⟨c, hc, hcb⟩ := ha.responses b hb hr
    have hrole := hcb.owner.role.symm.trans hr
    have howner := hcb.owner.clientCb.symm.trans hid
    rcases ha.clientCbs R hR with hn | ⟨R0, hR0, hsame⟩
    · have := h.responseLt c hc hrole R.id howner
      omega
    · unfold ClientCb.Unicast at hun
      rw [hsame.endpoint] at hun
      rw [hcb.owner.endpoint, hsame.endpoint]
      exact h.response c hc hrole R0 hR0 (howner.trans (congrArg some hsame.id)) hun
  · rw [hy, hu]
    intro f hf
    obtain ⟨hlt, howner⟩ := h.upload f hf
    refine ⟨hlt.trans_le ha.fresh, fun b hb hr hid => ?_⟩
    rcases ha.requests b hb hr with ⟨c, hc, hcb⟩ | ⟨cb, hm⟩
    · rw [hcb.clientCb]
      exact howner c hc (hcb.role.symm.trans hr) (hcb.id.symm.trans hid)
    · have := hm.id
      omega
  · rw [hy, hd]
    intro f hf
    obtain ⟨hlt, howner⟩ := h.download f hf
    refine ⟨hlt.trans_le ha.fresh, fun b hb hr hid => ?_⟩
    obtain ⟨c, hc, hcb⟩ := ha.responses b hb hr
    rw [hcb.owner.clientCb]
    exact howner c hc (hcb.owner.role.symm.trans hr) (hcb.owner.id.symm.trans hid)

/-! ## the buffer of a response -/

section
variable {cfg : Config} {env : Env} {endpoint : Endpoint} {message : Message} {s : State} {x : Exchanges}
  {b : BlockwiseState} {R cb : ClientCb} {clientCb : Option ClientCb} {n : Nat}

/-- the callback of a buffer is the one with the address -/
theorem bufferClientCb_eq (hd : Distinct ClientCb.id n s.clientCbs) (hR : R ∈ s.clientCbs)
    (hb : b.clientCb = some R.id) : bufferClientCb s b = some R := by
  unfold bufferClientCb
  rw [hb]
  show s.clientCbs.find? (fun cb => cb.id == R.id) = some R
  cases hf : s.clientCbs.find? fun cb => cb.id == R.id with
  | none => exact absurd (beq_self_eq_true R.id) (List.find?_eq_none.mp hf R hR)
  | some c =>
    have hp := List.find?_some hf
    have hid := beq_iff_eq.mp hp
    rw [hd.coherent hR c (List.mem_of_find?_eq_some hf) hid]

/-- it is the buffer of the callback, which is new perhaps; or there is no callback, and it has the message
id -/
theorem responseAt_some (h : responseAt env endpoint message clientCb s = some b) :
    (∃ cb, clientCb = some cb ∧ b.clientCb = some cb.id ∧
        (b ∈ s.responses ∨ b.id = s.fresh ∧ b.endpoint = endpoint)) ∨
      clientCb = none ∧ ocBlockwiseFindBufferByMid s.responses message.mid = some b := by
  unfold responseAt at h
  cases clientCb with
  | none =>
    refine Or.inr ⟨rfl, ?_⟩
    cases hq : ocBlockwiseFindBufferByMid s.responses message.mid with
    | none =>
      simp only [clientBuffer, hq] at h
      exact absurd h (by simp)
    | some c =>
      simp only [clientBuffer, hq] at h
      exact h
  | some cb =>
    refine Or.inl ⟨cb, rfl, ?_⟩
    cases hq : clientBuffer endpoint message s.responses (some cb) with
    | some c =>
      rw [hq] at h
      obtain rfl := Option.some.inj h
      have hp := List.find?_some hq
      simp only [Bool.and_eq_true, beq_iff_eq] at hp
      exact ⟨hp.1.2, Or.inl (clientBuffer_some endpoint message hq).1⟩
    | none =>
      rw [hq] at h
      dsimp only at h
      rcases allocResponse_cases env.responseAlloc env.etag (cb.uri.drop 1) endpoint cb.method .client
        s.toBuffers with e | ⟨c, hid, he, _, e⟩
      · rw [e] at h
        exact absurd h (by simp)
      · rw [e] at h
        obtain rfl := Option.some.inj h
        exact ⟨rfl, Or.inr ⟨hid, he⟩⟩

/-- a response with the token of a callback is for this callback -/
theorem exchangeCb_token (hd : Distinct ClientCb.id n s.clientCbs) (hcb : cb ∈ s.clientCbs) :
    exchangeCb endpoint message (some cb) s = some cb := by
  unfold exchangeCb
  split
  · rfl
  · rename_i c hq
    split
    · have hp := List.find?_some hq
      simp only [Bool.and_eq_true, beq_iff_eq] at hp
      exact bufferClientCb_eq hd hcb hp.1.2
    · rfl

/-- without it the callback is that of the request buffer with the message id -/
theorem exchangeCb_mid (h : exchangeCb endpoint message none s = some cb) :
    ∃ c, ocBlockwiseFindBufferByMid s.requests message.mid = some c ∧ continues message = true ∧
      bufferClientCb s c = some cb := by
  unfold exchangeCb at h
  split at h
  · exact absurd h (by simp)
  · rename_i c hq
    split at h
    · rename_i hc
      exact ⟨c, hq, hc, h⟩
    · exact absurd h (by simp)

theorem tokenCb_some (h : tokenCb message s = some cb) : cb ∈ s.clientCbs ∧ message.token = cb.token := by
  unfold tokenCb ocRiFindClientCbByToken at h
  split at h
  · have hp := List.find?_some h
    exact ⟨List.mem_of_find?_eq_some h, (beq_iff_eq.mp hp).symm⟩
  · exact absurd h (by simp)

theorem exchangeCb_mem (h : exchangeCb endpoint message (tokenCb message s) s = some cb) :
    cb ∈ s.clientCbs := by
  unfold exchangeCb at h
  split at h
  · exact (tokenCb_some h).1
  · split at h
    · exact bufferClientCb_mem h
    · exact (tokenCb_some h).1

/-- the response is for this buffer -/
def Targets (cfg : Config) (env : Env) (endpoint : Endpoint) (message : Message) (s : State)
    (b : BlockwiseState) : Prop :=
  ¬ UploadsOn cfg env endpoint message (tokenCb message s) s ∧
    responseAt env endpoint message (exchangeCb endpoint message (tokenCb message s) s) s = some b

/-- a new buffer, for the endpoint of the response and one of the callbacks -/
def NewFor (endpoint : Endpoint) (s : State) (b : BlockwiseState) : Prop :=
  b.id = s.fresh ∧ b.endpoint = endpoint ∧ ∃ cb ∈ s.clientCbs, b.clientCb = some cb.id

theorem Targets.origin (h : Targets cfg env endpoint message s b) :
    b ∈ s.responses ∨ NewFor endpoint s b := by
  rcases responseAt_some h.2 with ⟨cb, h1, h2, h3 | ⟨h3, h4⟩⟩ | ⟨_, hmid⟩
  · exact Or.inl h3
  · exact Or.inr ⟨h3, h4, cb, exchangeCb_mem h1, h2⟩
  · exact Or.inl (findBufferByMid_some hmid).1

/-- **A matched response is entitled** to the request of the buffer it is for. -/
theorem Exchanges.Sound.entitled (h : x.Sound) (hm : Matched cfg env x endpoint message)
    (ht : Targets cfg env endpoint message x.engine b) (hR : R ∈ x.engine.clientCbs)
    (hid : b.clientCb = some R.id) (hun : R.Unicast) : Entitled x R endpoint message := by
  obtain ⟨hup, hb⟩ := ht
  -- the callback that a buffer has been found or made for
  have hsame : ∀ cb, cb ∈ x.engine.clientCbs → b.clientCb = some cb.id → cb = R := by
    intro cb hcb h1
    exact h.distinct.coherent hR cb hcb (Option.some.inj (h1.symm.trans hid))
  cases hT : tokenCb message x.engine with
  | some T =>
    obtain ⟨hTmem, htoken⟩ := tokenCb_some hT
    rw [hT, exchangeCb_token h.distinct hTmem] at hb
    rcases responseAt_some hb with ⟨cb, hcb, howner, _⟩ | ⟨hn, _⟩
    · obtain rfl := Option.some.inj hcb
      obtain rfl := hsame T hTmem howner
      exact ⟨hm.token T hT hun, Or.inl htoken⟩
    · exact absurd hn (by simp)
  | none =>
    rw [hT] at hb hup
    rcases responseAt_some hb with ⟨cb, hcb, howner, _⟩ | ⟨hn, hmid⟩
    · -- an upload that has come to its end
      obtain ⟨c, hc, hcont, hccb⟩ := exchangeCb_mid hcb
      obtain rfl := hsame cb (bufferClientCb_mem hccb) howner
      obtain ⟨hsame, f, hf, hbuf, hans⟩ := hm.upload hT c hc hcont hup cb hccb hun
      obtain ⟨hin, hrole⟩ := findBufferByMid_some hc
      have hcowner := bufferClientCb_some hccb
      have hcb' := ((h.upload f hf).2 c hin hrole hbuf.symm).symm.trans hcowner
      refine ⟨?_, Or.inr ⟨f, Or.inl hf, Option.some.inj hcb', hans⟩⟩
      rw [← h.request c hin hrole cb hR hcowner]
      exact hsame
    · obtain ⟨hsame, f, hf, hbuf, hans⟩ := hm.download hT hn hup b hmid R (bufferClientCb_eq h.distinct hR hid) hun
      obtain ⟨hin, hrole⟩ := findBufferByMid_some hmid
      have hcb' := ((h.download f hf).2 b hin hrole hbuf.symm).symm.trans hid
      refine ⟨hsame.trans (h.response b hin hrole R hR hid hun), Or.inr ⟨f, Or.inr hf, ?_, hans⟩⟩
      exact Option.some.inj hcb'

end

/-! ## a response -/

section
variable {cfg : Config} {env : Env} {endpoint : Endpoint} {message : Message} {s s' : State}
  {x y : Exchanges} {o : ExchangeOutcome} {target : Option BlockwiseState} {R cb : ClientCb}

/-- where the request buffers of the client come from -/
theorem Replies.request_origin (ha : Replies target s s') {b : BlockwiseState} (hb : b ∈ s'.requests)
    (hr : b.role = .client) : ∃ c ∈ s.requests, SameOwner c b ∧ c.role = .client := by
  rcases ha.requests b hb with hs | ⟨c, hc, hcb⟩
  · exact absurd (hr.symm.trans hs) (by simp)
  · exact ⟨c, hc, hcb, hcb.role.symm.trans hr⟩

/-- a buffer with the address of the target is the target -/
theorem Exchanges.Sound.target_eq (h : x.Sound)
    (ht : ∀ b, target = some b → Targets cfg env endpoint message x.engine b) {b c : BlockwiseState}
    (hb : target = some b)
    (hc : c ∈ x.engine.responses ∨ target = some c ∧ NewFor endpoint x.engine c) (hid : c.id = b.id) :
    c = b := by
  rcases hc with hc | ⟨hc, _⟩
  · rcases (ht b hb).origin with hin | ⟨hnew, _⟩
    · exact h.wf.responses.coherent hin c hc hid
    · have := h.wf.responses.lt c hc
      omega
  · exact Option.some.inj (hc.symm.trans hb)

section
variable (ha : Replies target x.engine s')
  (ht : ∀ b, target = some b → Targets cfg env endpoint message x.engine b)
include ha ht

/-- where the response buffers of the client come from -/
theorem Replies.response_origin {b : BlockwiseState} (hb : b ∈ s'.responses) (hr : b.role = .client) :
    ∃ c, SameOwner c b ∧ c.role = .client ∧
      (c ∈ x.engine.responses ∨ target = some c ∧ NewFor endpoint x.engine c) := by
  rcases ha.responses b hb with (hs | ⟨c, hc, hcb⟩) | ⟨c, hc, hcb⟩
  · exact absurd (hr.symm.trans hs) (by simp)
  · exact ⟨c, hcb, hcb.role.symm.trans hr, (ht c hc).origin.imp_right fun hnew => ⟨hc, hnew⟩⟩
  · exact ⟨c, hcb.owner, hcb.owner.role.symm.trans hr, Or.inl hc⟩

theorem Exchanges.Sound.response_lt (h : x.Sound) {b : BlockwiseState} (hb : b ∈ s'.responses)
    (hr : b.role = .client) {id : Nat} (hid : b.clientCb = some id) : id < s'.fresh := by
  obtain ⟨c, hcb, hrole, hc⟩ := ha.response_origin ht hb hr
  have hcid := hcb.clientCb.symm.trans hid
  rcases hc with hc | ⟨_, _, _, cb, hcb, howner⟩
  · exact (h.responseLt c hc hrole id hcid).trans_le ha.fresh
  · obtain rfl := Option.some.inj (howner.symm.trans hcid)
    exact (h.distinct.lt cb hcb).trans_le ha.fresh

theorem Exchanges.Sound.response_endpoint (h : x.Sound) (hm : Matched cfg env x endpoint message)
    {b : BlockwiseState} (hb : b ∈ s'.responses) (hr : b.role = .client) (hR : R ∈ s'.clientCbs)
    (hid : b.clientCb = some R.id) (hun : R.Unicast) : SameEndpoint b.endpoint R.endpoint := by
  obtain ⟨c, hcb, hrole, hc⟩ := ha.response_origin ht hb hr
  obtain ⟨R0, hR0, hsame⟩ := ha.clientCbs R hR
  have hcid := (hcb.clientCb.symm.trans hid).trans (congrArg some hsame.id)
  unfold ClientCb.Unicast at hun
  rw [hsame.endpoint] at hun
  rw [hcb.endpoint, hsame.endpoint]
  rcases hc with hc | ⟨htarget, _, he, _⟩
  · exact h.response c hc hrole R0 hR0 hcid hun
  · rw [he]
    exact (h.entitled hm (ht c htarget) hR0 hcid hun).endpoint

/-- the downloads so far, and those of the response -/
theorem Exchanges.Sound.download_kept (h : x.Sound) {f : FollowUp}
    (hf : f ∈ x.downloads ∨ f.buffer < s'.fresh ∧ ∃ b, target = some b ∧ b.id = f.buffer ∧
      b.clientCb = some f.cb) :
    f.buffer < s'.fresh ∧ ∀ b ∈ s'.responses, b.role = .client → b.id = f.buffer →
      b.clientCb = some f.cb := by
  rcases hf with hf | ⟨hlt, b0, htarget, hid0, hcb0⟩
  · obtain ⟨hlt, howner⟩ := h.download f hf
    refine ⟨hlt.trans_le ha.fresh, fun b hb hr hid => ?_⟩
    obtain ⟨c, hcb, hrole, hc⟩ := ha.response_origin ht hb hr
    have hcid := hcb.id.symm.trans hid
    rcases hc with hc | ⟨_, hnew, _⟩
    · rw [hcb.clientCb]
      exact howner c hc hrole hcid
    · omega
  · refine ⟨hlt, fun b hb hr hid => ?_⟩
    obtain ⟨c, hcb, hrole, hc⟩ := ha.response_origin ht hb hr
    have hcid : c.id = b0.id := (hcb.id.symm.trans hid).trans hid0.symm
    rw [hcb.clientCb, h.target_eq ht htarget hc hcid]
    exact hcb0

end

/-- the uploads so far, and those of the response -/
theorem Exchanges.Sound.upload_kept (h : x.Sound) (ha : Replies target x.engine s') {f : FollowUp}
    (hf : f ∈ x.uploads ∨ ∃ b ∈ x.engine.requests, b.id = f.buffer ∧ b.clientCb = some f.cb) :
    f.buffer < s'.fresh ∧ ∀ b ∈ s'.requests, b.role = .client → b.id = f.buffer →
      b.clientCb = some f.cb := by
  have hold : f.buffer < x.engine.fresh ∧ ∀ c ∈ x.engine.requests, c.role = .client →
      c.id = f.buffer → c.clientCb = some f.cb := by
    rcases hf with hf | ⟨b0, hb0, hid, hcb⟩
    · exact h.upload f hf
    · refine ⟨hid ▸ h.wf.requests.lt b0 hb0, fun c hc _ hcid => ?_⟩
      rw [h.wf.requests.coherent hb0 c hc (hcid.trans hid.symm)]
      exact hcb
  refine ⟨hold.1.trans_le ha.fresh, fun b hb hr hid => ?_⟩
  obtain ⟨c, hc, hcb, hrole⟩ := ha.request_origin hb hr
  rw [hcb.clientCb]
  exact hold.2 c hc hrole (hcb.id.symm.trans hid)

/-- **A response** that is matched keeps the invariant. -/
theorem Exchanges.Sound.attributed (h : x.Sound) (hm : Matched cfg env x endpoint message)
    (ha : Attributed target x.engine s' o)
    (ht : ∀ b, target = some b → Targets cfg env endpoint message x.engine b) (hwf : s'.WF)
    (hy : y.engine = s') (hu : y.uploads = x.uploads ++ o.uploads)
    (hd : y.downloads = x.downloads ++ o.downloads) : y.Sound := by
  obtain ⟨ha, hau, had, _⟩ := ha
  refine ⟨hy ▸ hwf, hy ▸ ha.distinct h.distinct, ?_, ?_, ?_, ?_, ?_, ?_⟩
  · rw [hy]
    intro b hb hr id hid
    obtain ⟨c, hc, hcb, hrole⟩ := ha.request_origin hb hr
    exact (h.requestLt c hc hrole id (hcb.clientCb.symm.trans hid)).trans_le ha.fresh
  · rw [hy]
    exact fun b hb hr id hid => h.response_lt ha ht hb hr hid
  · rw [hy]
    intro b hb hr R hR hid
    obtain ⟨c, hc, hcb, hrole⟩ := ha.request_origin hb hr
    obtain ⟨R0, hR0, hsame⟩ := ha.clientCbs R hR
    rw [hcb.endpoint, hsame.endpoint]
    exact h.request c hc hrole R0 hR0 ((hcb.clientCb.symm.trans hid).trans (congrArg some hsame.id))
  · rw [hy]
    exact fun b hb hr R hR hid hun => h.response_endpoint ha ht hm hb hr hR hid hun
  · rw [hy, hu]
    exact fun f hf => h.upload_kept ha ((List.mem_append.mp hf).imp_right (hau f))
  · rw [hy, hd]
    exact fun f hf => h.download_kept ha ht ((List.mem_append.mp hf).imp_right (had f))

/-- bytes and calls of a response -/
theorem Exchanges.Sound.writes (h : x.Sound) (hm : Matched cfg env x endpoint message)
    (ha : Attributed target x.engine s' o)
    (ht : ∀ b, target = some b → Targets cfg env endpoint message x.engine b) :
    (∀ b' ∈ s'.responses, b'.role = .client → ∀ R ∈ x.engine.clientCbs, b'.clientCb = some R.id →
        R.Unicast → (∃ b ∈ x.engine.responses, SameBytes b b') ∨ Entitled x R endpoint message) ∧
      ∀ R, o.invoked = some R → R.Unicast → Entitled x R endpoint message := by
  refine ⟨fun b' hb' hr R hR hid hun => ?_, fun R hR hun => ?_⟩
  · rcases ha.answers.responses b' hb' with (hs | ⟨c, hc, hcb⟩) | hb
    · exact absurd (hr.symm.trans hs) (by simp)
    · exact Or.inr (h.entitled hm (ht c hc) hR (hcb.clientCb.symm.trans hid) hun)
    · exact Or.inl hb
  · obtain ⟨b, hb, hcb⟩ := ha.invoked R hR
    exact h.entitled hm (ht b hb) (bufferClientCb_mem hcb) (bufferClientCb_some hcb) hun

end

/-! ## messages -/

section
variable (cfg : Config) (env : Env) (endpoint : Endpoint) (message : Message) {x : Exchanges}

/-- where the client side takes over: a transaction and subscriptions have been cancelled -/
def Exchanges.arrived (x : Exchanges) : Exchanges :=
  x.withEngine (cancelled env message (coapGetMid (cancelTransaction endpoint message x.engine)).2)

theorem arrived_minds (x : Exchanges) : Minds x.engine (x.arrived env endpoint message).engine := by
  refine (minds_cancelTransaction endpoint message x.engine).trans ?_
  have h1 : Minds (cancelTransaction endpoint message x.engine)
      (coapGetMid (cancelTransaction endpoint message x.engine)).2 := Minds.of_eq rfl rfl rfl rfl
  refine h1.trans ?_
  show Minds _ (cancelled env message _)
  unfold cancelled
  split
  · exact minds_dropObservers env.gone _
  · exact Minds.refl _

theorem arrived_wf (h : x.engine.WF) : (x.arrived env endpoint message).engine.WF := by
  have h1 := cancelTransaction_wf endpoint message h
  have h2 : (coapGetMid (cancelTransaction endpoint message x.engine)).2.WF :=
    ⟨h1.requests, h1.responses, h1.transactions⟩
  show (cancelled env message _).WF
  unfold cancelled
  split
  · exact dropObservers_wf env.gone h2
  · exact h2

theorem Exchanges.Sound.arrived (h : x.Sound) : (x.arrived env endpoint message).Sound :=
  h.asks ((arrived_minds env endpoint message x).asks (arrived_wf env endpoint message)) rfl rfl rfl

/-- callbacks and request buffers are as they were, and of a response buffer no more is changed than its
`ref_count` -/
theorem arrived_lists (x : Exchanges) :
    (x.arrived env endpoint message).engine.clientCbs = x.engine.clientCbs ∧
      (x.arrived env endpoint message).engine.requests = x.engine.requests ∧
      ∃ g : BlockwiseState → BlockwiseState, (∀ b, SameBytes b (g b) ∧ (g b).mid = b.mid) ∧
        (x.arrived env endpoint message).engine.responses = x.engine.responses.map g := by
  have hb := cancelTransaction_buffers endpoint message x.engine
  have hc := cancelTransaction_clientCbs endpoint message x.engine
  show (cancelled env message _).clientCbs = _ ∧ (cancelled env message _).requests = _ ∧ ∃ g, _ ∧
    (cancelled env message _).responses = _
  have hq := congrArg Buffers.requests hb
  have hr := congrArg Buffers.responses hb
  generalize cancelTransaction endpoint message x.engine = s1 at hq hr hc
  unfold cancelled
  split
  · refine ⟨hc, hq,
      fun b => if env.gone b.id then { b with refCount := 0 } else b, fun b => ⟨?_, ?_⟩, ?_⟩
    · exact sameBytes_unref b (env.gone b.id)
    · dsimp only
      split <;> rfl
    · show s1.responses.map _ = _
      rw [hr]
  · refine ⟨hc, hq, id, fun b => ⟨SameBytes.refl b, rfl⟩, ?_⟩
    rw [List.map_id]
    exact hr

variable {cfg env endpoint message}

theorem Matched.arrived (h : Matched cfg env x endpoint message) :
    Matched cfg env (x.arrived env endpoint message) endpoint message := by
  obtain ⟨hc, hq, g, hg, hr⟩ := arrived_lists env endpoint message x
  have htoken : tokenCb message (x.arrived env endpoint message).engine = tokenCb message x.engine := by
    unfold tokenCb ocRiFindClientCbByToken
    rw [hc]
  have hup : UploadsOn cfg env endpoint message none (x.arrived env endpoint message).engine ↔
      UploadsOn cfg env endpoint message none x.engine := by
    unfold UploadsOn
    rw [hq]
  have hcb : exchangeCb endpoint message none (x.arrived env endpoint message).engine =
      exchangeCb endpoint message none x.engine := by
    unfold exchangeCb bufferClientCb
    rw [hc, hq]
  refine ⟨fun R hR => h.token R (htoken ▸ hR), fun hT b hb hcont hn R hR hun => ?_,
    fun hT hE hn b hb R hR hun => ?_⟩
  · exact h.upload (htoken ▸ hT) b (hq ▸ hb) hcont (hup.not.mp hn) R (bufferClientCb_congr hc b ▸ hR) hun
  · -- the buffer that is found has been found before
    have hfind : ocBlockwiseFindBufferByMid (x.arrived env endpoint message).engine.responses message.mid
        = (ocBlockwiseFindBufferByMid x.engine.responses message.mid).map g := by
      unfold ocBlockwiseFindBufferByMid
      rw [hr, List.find?_map]
      congr 2
      funext b
      show ((g b).mid == _ && (g b).role == _) = _
      rw [(hg b).2, (hg b).1.owner.role]
    rw [hfind] at hb
    obtain ⟨c, hc0, rfl⟩ := Option.map_eq_some_iff.mp hb
    have howner := (hg c).1.owner
    have hcR : bufferClientCb x.engine c = some R := by
      rw [bufferClientCb_congr hc] at hR
      unfold bufferClientCb at hR ⊢
      rwa [howner.clientCb] at hR
    obtain ⟨hsame, f, hf, hbuf, hans⟩ := h.download (htoken ▸ hT) (hcb ▸ hE) (hup.not.mp hn) c hc0 R hcR hun
    exact ⟨howner.endpoint ▸ hsame, f, hf, hbuf.trans howner.id.symm, hans⟩

theorem Entitled.of_arrived {R : ClientCb} (h : Entitled (x.arrived env endpoint message) R endpoint message) :
    Entitled x R endpoint message := ⟨h.endpoint, h.related⟩

/-- a message that is no request -/
theorem receive_attributed (env : Env) {msg : OcMessage} (hp : msg.parse cfg = .ok message)
    (hm : ¬ message.IsRequest) (hs : x.engine.WF) :
    ∃ target, (∀ b, target = some b →
        Targets cfg env msg.endpoint message (x.arrived env msg.endpoint message).engine b) ∧
      Attributed target (x.arrived env msg.endpoint message).engine (coapReceive cfg env msg x.engine).1
        (receiveOutcome cfg env msg x.engine) := by
  have hm' : ¬ (coapGet ≤ message.code ∧ message.code ≤ coapDelete) := hm
  unfold coapReceive receiveOutcome
  rw [hp]
  dsimp only
  unfold receiveMessage
  dsimp only
  rw [if_neg hm', if_neg hm']
  have hwf := arrived_wf env msg.endpoint message hs
  have htoken : tokenCb message (coapGetMid (cancelTransaction msg.endpoint message x.engine)).2 =
      tokenCb message (x.arrived env msg.endpoint message).engine := by
    unfold tokenCb ocRiFindClientCbByToken
    rw [(arrived_lists env msg.endpoint message x).1]
    show (if _ then (cancelTransaction msg.endpoint message x.engine).clientCbs.find? _ else none) = _
    rw [cancelTransaction_clientCbs]
  unfold Targets
  rw [← htoken]
  exact clientExchange_attributed cfg env msg.endpoint message _ _ (requestLocals
    (coapUdpInitMessage .con 0 0) none (x.arrived env msg.endpoint message).engine _) hwf rfl rfl rfl

end

/-! ## steps and runs -/

section
variable {cfg : Config} {x : Exchanges}

/-- a message that is a request, or none at all, minds the client's buffers and leads to nothing -/
theorem receive_asks {env : Env} {msg : OcMessage}
    (h : ∀ message, msg.parse cfg = .ok message → message.IsRequest) (s : State) :
    Asking s (coapReceive cfg env msg s).1 ∧ receiveOutcome cfg env msg s = ⟨[], [], none⟩ := by
  refine ⟨Minds.asks ?_ (coapReceive_wf env msg), ?_⟩
  · unfold coapReceive
    cases hp : msg.parse cfg with
    | error e => exact minds_scrub s
    | ok m =>
      dsimp only
      rw [receiveMessage_request cfg env msg.endpoint (h m hp)]
      exact (minds_cancelTransaction msg.endpoint m s).trans (receiveRequest_minds cfg env msg.endpoint m _ _)
  · unfold receiveOutcome
    cases hp : msg.parse cfg with
    | error e => rfl
    | ok m => exact if_pos (h m hp)

/-- the step is no response -/
structure Quiet (cfg : Config) (x : Exchanges) (st : ExchangeStep) : Prop where
  asks : Asking x.engine (x.step cfg st).engine
  uploads : (x.step cfg st).uploads = x.uploads
  downloads : (x.step cfg st).downloads = x.downloads
  invoked : st.invoked cfg x = none

theorem step_quiet (st : ExchangeStep) (h : ¬ ∃ env msg, st = .receive env msg) : Quiet cfg x st := by
  have hall : ∀ cbs : List ClientCb, ∃ p, cbs = cbs.filter p :=
    fun cbs => ⟨fun _ => true, (List.filter_true _).symm⟩
  cases st with
  | receive env msg => exact absurd ⟨env, msg, rfl⟩ h
  | request k call => exact ⟨k.run_asks cfg call x.session, rfl, rfl, rfl⟩
  | prepare k call => exact ⟨prepareWith_asks call k.method k.observeSeq x.session, rfl, rfl, rfl⟩
  | dispatch call => exact ⟨dispatchCoapRequest_asks cfg call x.session, rfl, rfl, rfl⟩
  | requestTimeout id => exact ⟨(shrinks_freeRequest id x.engine).asks (hall _), rfl, rfl, rfl⟩
  | responseTimeout id => exact ⟨(shrinks_freeResponse id x.engine).asks (hall _), rfl, rfl, rfl⟩
  | callbackTimeout id => exact ⟨(shrinks_freeClientCb id x.engine).asks ⟨_, rfl⟩, rfl, rfl, rfl⟩
  | checkTransactions timers =>
    refine ⟨(minds_checkTransactions timers x.engine).asks ?_, rfl, rfl, rfl⟩
    exact (foldl_checkTransaction timers x.engine.transactions (x.engine, [])).1
  | others f asks => exact ⟨asks x.engine, rfl, rfl, rfl⟩

theorem receive_quiet {env : Env} {msg : OcMessage}
    (h : ∀ message, msg.parse cfg = .ok message → message.IsRequest) :
    Quiet cfg x (.receive env msg) := by
  obtain ⟨ha, ho⟩ := receive_asks h x.engine
  refine ⟨ha, ?_, ?_, congrArg ExchangeOutcome.invoked ho⟩
  · show x.uploads ++ (receiveOutcome cfg env msg x.engine).uploads = x.uploads
    rw [ho, List.append_nil]
  · show x.downloads ++ (receiveOutcome cfg env msg x.engine).downloads = x.downloads
    rw [ho, List.append_nil]

theorem Exchanges.Sound.quiet (h : x.Sound) {st : ExchangeStep} (hq : Quiet cfg x st) :
    (x.step cfg st).Sound ∧ ClientIsolated cfg x st := by
  refine ⟨h.asks hq.asks rfl hq.uploads hq.downloads, ?_, fun R hR => ?_⟩
  · exact fun b' hb' hr R _ _ _ => Or.inl (hq.asks.responses b' hb' hr)
  · exact absurd (hq.invoked.symm.trans hR) (by simp)

/-- **A step** that is matched keeps the invariant, and is isolated. -/
theorem Exchanges.Sound.step (h : x.Sound) {st : ExchangeStep} (hm : st.Matched cfg x) :
    (x.step cfg st).Sound ∧ ClientIsolated cfg x st := by
  by_cases hst : ∃ env msg, st = .receive env msg
  · obtain ⟨env, msg, rfl⟩ := hst
    by_cases hreq : ∀ message, msg.parse cfg = .ok message → message.IsRequest
    · exact h.quiet (receive_quiet hreq)
    · obtain ⟨message, hreq⟩ := not_forall.mp hreq
      obtain ⟨hp, hreq⟩ := Classical.not_imp.mp hreq
      have hx := h.arrived env msg.endpoint message
      have hmatched := (hm message hp hreq).arrived
      obtain ⟨target, ht, ha⟩ := receive_attributed env hp hreq h.wf
      obtain ⟨hwrites, hcalls⟩ := hx.writes hmatched ha ht
      have hdelivers : ∀ R, Entitled (x.arrived env msg.endpoint message) R msg.endpoint message →
          ExchangeStep.Delivers cfg x R (.receive env msg) := fun R he => ⟨message, hp, he.of_arrived⟩
      have hold := (arrived_minds env msg.endpoint message x).responses
      refine ⟨hx.attributed hmatched ha ht (coapReceive_wf env msg h.wf) rfl rfl rfl,
        fun b' hb' hr R hR hid hun => ?_, fun R hR hun => hdelivers R (hcalls R hR hun)⟩
      rw [← (arrived_lists env msg.endpoint message x).1] at hR
      rcases hwrites b' hb' hr R hR hid hun with ⟨c, hc, hcb⟩ | he
      · rcases hold c hc with hs | ⟨b, hb, hbc⟩
        · exact absurd ((hcb.owner.role.symm.trans hr).symm.trans hs) (by simp)
        · exact Or.inl ⟨b, hb, hbc.trans hcb⟩
      · exact Or.inr (hdelivers R he)
  · exact h.quiet (step_quiet st hst)

theorem Exchanges.init_sound (currentMid : UInt16) : (Exchanges.init currentMid).Sound := by
  have hnil : ∀ {α : Type} {P : α → Prop}, ∀ a ∈ ([] : List α), P a := fun a ha => absurd ha List.not_mem_nil
  exact ⟨State.init_wf currentMid, ⟨List.nodup_nil, hnil⟩, hnil, hnil, hnil, hnil, hnil, hnil⟩

theorem ExchangeRun.sound (h : ExchangeRun cfg (fun x st => st.Matched cfg x) x) : x.Sound := by
  induction h with
  | init currentMid => exact Exchanges.init_sound currentMid
  | step st _ hc ih => exact (ih.step hc).1

/-- **Isolation.**  In every run whose responses are matched, every step is isolated. -/
theorem responses_isolated {st : ExchangeStep} (h : ExchangeRun cfg (fun x st => st.Matched cfg x) x)
    (hm : st.Matched cfg x) : ClientIsolated cfg x st :=
  (h.sound.step hm).2

end

/-! ## sample inputs -/

/-- a `GET` has been sent to port 5683 -/
def afterGet : Exchanges := (Exchanges.init 0).step smallBlocks (.request .get (sampleCall true true))

theorem afterGet_run (C : Exchanges → ExchangeStep → Prop)
    (h : C (Exchanges.init 0) (.request .get (sampleCall true true))) : ExchangeRun smallBlocks C afterGet :=
  .step _ (.init 0) h

/-- the acknowledgement with the first block of the response -/
def firstReply : ExchangeStep := .receive (replyEnv true)
  (sampleMessage 5683 ([0x68, content205, 0, 1, 0, 0, 0, 0, 0, 0, 0, 0, 0xD1, 0x0A, 0x08, 0xFF]
    ++ List.replicate 16 0))

/-- the second block, without the token, from another port -/
def strayBlock : ExchangeStep := .receive (replyEnv true)
  (sampleMessage 5684 [0x50, content205, 0, 2, 0xD1, 0x0A, 0x10, 0xFF, 0xA0])

/-- the whole response, with the token, from another port -/
def strayReply : ExchangeStep := .receive (replyEnv true)
  (sampleMessage 5684 [0x68, content205, 0, 1, 0, 0, 0, 0, 0, 0, 0, 0, 0xFF, 0xA0])

theorem responses_isolated_get :
    ClientIsolated smallBlocks afterGet (.receive (replyEnv true) (sampleReply content205)) := by
  have hcbs : ∀ R ∈ afterGet.engine.clientCbs, R.endpoint = sampleEndpoint 5683 := by decide
  refine responses_isolated (afterGet_run _ trivial) fun m _ _ => ⟨fun R hR _ => ?_, fun _ b hb => ?_,
    fun _ _ _ b hb => ?_⟩
  · exact Or.inl (hcbs R (tokenCb_some hR).1).symm
  · exact absurd (findBufferByMid_some hb).1 List.not_mem_nil
  · exact absurd (findBufferByMid_some hb).1 List.not_mem_nil

/-- a message from port 5684 is not for a request to port 5683 -/
theorem stray_not_isolated {cfg : Config} {env : Env} {msg : OcMessage} {x : Exchanges}
    (he : msg.endpoint = sampleEndpoint 5684)
    (h : ((ExchangeStep.receive env msg).invoked cfg x).map ClientCb.endpoint = some (sampleEndpoint 5683)) :
    ¬ ClientIsolated cfg x (.receive env msg) := by
  intro hi
  obtain ⟨R, hR, hend⟩ := Option.map_eq_some_iff.mp h
  have hun : R.Unicast := by
    unfold ClientCb.Unicast
    rw [hend]
    rfl
  obtain ⟨message, _, hent⟩ := hi.handler R hR hun
  have hsame := hent.endpoint
  rw [hend, he] at hsame
  exact absurd hsame (by decide)

/-- **Misdirected responses.**  A response from another port reaches the handler of a `GET`, with the token
that the request had, or with the message id of its last follow-up request. -/
theorem misdirected :
    (∃ x, ExchangeRun smallBlocks (fun _ _ => True) x ∧ ¬ ClientIsolated smallBlocks x strayReply) ∧
      ∃ x, ExchangeRun smallBlocks (fun _ _ => True) x ∧ ¬ ClientIsolated smallBlocks x strayBlock := by
  have hrun := afterGet_run (fun _ _ => True) trivial
  refine ⟨⟨afterGet, hrun, stray_not_isolated rfl ?_⟩, ⟨_, .step firstReply hrun trivial, stray_not_isolated rfl ?_⟩⟩
  · decide
  · decide

end Coap
