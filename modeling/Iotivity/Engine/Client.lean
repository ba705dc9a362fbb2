import Iotivity.Engine.Run
import Iotivity.Engine.Separate

/-!
# Client requests: `oc_client_api.c`

A request is put together in static variables: a client callback, a transaction and, for `PUT` and
`POST`, a request buffer are taken one after the other, and then the packet is dispatched.

* `Session`               the engine with the static variables;
* `prepareCoapRequest`, `dispatchCoapRequest`;
* `ocDoGet`, `ocDoDelete`, `ocDoObserve`, and `updateWith` for `oc_init_put … oc_do_put` and
  `oc_init_post … oc_do_post`;
* `restores_iff`          when a call that fails leaves the lists as they were.
-/

namespace Coap
open Memory

/-- the engine with `transaction`, `client_cb`, `request_buffer` and `request` -/
structure Session where
  engine : State
  transaction : Option Nat
  clientCb : Option Nat
  requestBuffer : Option Nat
  request : Message

/-- the arguments of a request, and the answers that it gets: `cbGranted` is that of
`oc_memb_alloc(&client_cbs_s)`, `encoded` is what the payload encoder holds, and `format` the
content format for the version of the endpoint -/
structure RequestCall where
  uri : List UInt8
  endpoint : Endpoint
  query : List UInt8
  highQos : Bool
  cbGranted : Bool
  encoded : List UInt8
  format : UInt16
  env : Env

section
variable (cfg : Config) (call : RequestCall)

/-- `oc_ri_alloc_client_cb` -/
def ocRiAllocClientCb (method : UInt8) (s : State) : Option ClientCb × State :=
  if call.cbGranted then
    let (mid, s) := coapGetMid s
    let cb : ClientCb :=
      { id := s.fresh
        uri := call.uri
        query := call.query
        endpoint := call.endpoint
        observeSeq := 0xFFFFFFFF
        method
        mid
        token := call.env.randomToken.take coapTokenLen
        discovery := false
        multicast := false
        stopMulticastReceive := false }
    (some cb, { s with clientCbs := s.clientCbs ++ [cb], fresh := s.fresh + 1 })
  else (none, s)

def carriesPayload (method : UInt8) : Bool := method == coapPut || method == coapPost

/-- the header of a request -/
def requestHeader (cb : ClientCb) : Message :=
  let p := if cb.endpoint.flags.tcp then coapTcpInitMessage cb.method
    else coapUdpInitMessage (if call.highQos then .con else .non) cb.method cb.mid
  let p := coapSetToken (coapSetHeaderAccept p call.format.toUInt32) cb.token
  let p := coapSetHeaderUriPath p cb.uri
  let p := if cb.observeSeq ≠ 0xFFFFFFFF then coapSetHeaderObserve p cb.observeSeq else p
  if cb.query ≠ [] then coapSetHeaderUriQuery p cb.query else p

/-- the end of `prepare_coap_request` -/
def Session.prepared (cb : ClientCb) (s : Session) : Session :=
  { s with request := requestHeader call cb, clientCb := some cb.id }

/-- `prepare_coap_request` -/
def prepareCoapRequest (cb : ClientCb) (s : Session) : Bool × Session :=
  match coapNewTransaction call.env.transactionGranted cb.mid cb.endpoint s.engine with
  | (none, engine) => (false, { s with engine, transaction := none })
  | (some id, engine) =>
    let s := { s with engine, transaction := some id }
    if carriesPayload cb.method then
      match ocBlockwiseAllocRequestBuffer call.env.requestAlloc (cb.uri.drop 1) cb.endpoint cb.method
          .client engine.toBuffers with
      | (none, _) => (false, { s with requestBuffer := none })
      | (some b, buffers) =>
        let buffers := buffers.putRequest { b with mid := cb.mid, clientCb := some cb.id }
        (true, Session.prepared call cb
          { s with engine := engine.withBuffers fun _ => buffers, requestBuffer := some b.id })
    else (true, s.prepared call cb)

/-- the payload of a `PUT` or `POST`: its first block, or all of it -/
def fillRequest (tcp : Bool) (b : BlockwiseState) (p : Message) : BlockwiseState × Message :=
  let b := { b with
    buffer := write b.buffer 0 call.encoded
    payloadSize := call.encoded.length }
  if tcp = false ∧ cfg.blockSize < call.encoded.length then
    let (payload, b) := ocBlockwiseDispatchBlock b 0 cfg.blockSize
    match payload with
    | none => (b, p)
    | some payload =>
      let p := coapSetHeaderBlock1 (coapSetPayload cfg p payload) 0 1 (UInt16.ofNat payload.length)
      (b, { coapSetHeaderSize1 p (UInt32.ofNat call.encoded.length) with type := .con })
  else ({ b with refCount := 0 }, coapSetPayload cfg p call.encoded)

/-- the payload goes into the packet, over the request buffer; without a buffer there is a read
through NULL -/
def loadPayload (cb : ClientCb) (s : Session) : Option Session :=
  if carriesPayload cb.method ∧ call.encoded ≠ [] then
    (s.engine.requests.find? fun b => s.requestBuffer == some b.id).map fun b =>
      let x := fillRequest cfg call cb.endpoint.flags.tcp b s.request
      { s with engine := s.engine.withBuffers (·.putRequest x.1), request := x.2 }
  else some s

/-- a request buffer that nobody refers to is freed; of one that went with its callback nothing is on
a list any more -/
def Session.releaseBuffer (s : Session) : Session :=
  match s.engine.requests.find? fun b => s.requestBuffer == some b.id with
  | none => s
  | some b =>
    if b.refCount = 0 then
      { s with engine := s.engine.withBuffers (ocBlockwiseFreeRequestBuffer b.id) }
    else s

/-- the packet is serialized and sent, or everything is given back -/
def dispatchPacket (cb : ClientCb) (id : Nat) (s : Session) : Bool × Session × List Event :=
  let packet := if call.encoded = [] then s.request
    else coapSetHeaderContentFormat s.request call.format.toUInt32
  let x := sendSerialized call.env id cb.mid cb.endpoint packet s.engine
  let engine := if x.1 then x.2.1 else freeClientCb cb.id x.2.1
  let s := Session.releaseBuffer { s with engine, request := packet }
  (x.1, { s with requestBuffer := none, transaction := none, clientCb := none }, x.2.2)

/-- `dispatch_coap_request`, once the callback and the transaction are known -/
def dispatchWith (cb : ClientCb) (id : Nat) (s : Session) : Bool × Session × List Event :=
  match loadPayload cfg call cb s with
  | none => (false, s, [.fault])
  | some s => dispatchPacket call cb id s

/-- `dispatch_coap_request`; without a request that is prepared it reads through NULL -/
def dispatchCoapRequest (s : Session) : Bool × Session × List Event :=
  match s.engine.clientCbs.find? (fun cb => s.clientCb == some cb.id), s.transaction with
  | some cb, some id => dispatchWith cfg call cb id s
  | _, _ => (false, s, [.fault])

/-! ## the calls -/

/-- the common part of the calls: `observeSeq` is stored in the new callback -/
def prepareWith (method : UInt8) (observeSeq : UInt32) (s : Session) : Bool × Session :=
  match ocRiAllocClientCb call method s.engine with
  | (none, engine) => (false, { s with engine })
  | (some cb, engine) =>
    let cb := { cb with observeSeq }
    prepareCoapRequest call cb
      { s with engine := { engine with clientCbs := Keyed.put ClientCb.id cb engine.clientCbs } }

/-- a request is prepared and dispatched -/
def requestWith (method : UInt8) (observeSeq : UInt32) (s : Session) :
    Bool × Session × List Event :=
  match prepareWith call method observeSeq s with
  | (false, s) => (false, s, [])
  | (true, s) => dispatchCoapRequest cfg call s

def ocDoGet : Session → Bool × Session × List Event := requestWith cfg call coapGet 0xFFFFFFFF

def ocDoDelete : Session → Bool × Session × List Event :=
  requestWith cfg call coapDelete 0xFFFFFFFF

def ocDoObserve : Session → Bool × Session × List Event := requestWith cfg call coapGet 0

def ocInitPut : Session → Bool × Session := prepareWith call coapPut 0xFFFFFFFF

def ocInitPost : Session → Bool × Session := prepareWith call coapPost 0xFFFFFFFF

/-- `oc_do_put` -/
def ocDoPut : Session → Bool × Session × List Event := dispatchCoapRequest cfg call

/-- `oc_do_post` -/
def ocDoPost : Session → Bool × Session × List Event := dispatchCoapRequest cfg call

/-- an init call, and the do call if it was successful -/
def updateWith (init : Session → Bool × Session) (run : Session → Bool × Session × List Event)
    (s : Session) : Bool × Session × List Event :=
  match init s with
  | (false, s) => (false, s, [])
  | (true, s) => run s

/-- the calls, or sequences of calls, that make one request -/
inductive ClientSequence where
  | get | delete | observe | put | post

def ClientSequence.method : ClientSequence → UInt8
  | .get => coapGet
  | .delete => coapDelete
  | .observe => coapGet
  | .put => coapPut
  | .post => coapPost

/-- what is stored in `observe_seq` -/
def ClientSequence.observeSeq : ClientSequence → UInt32
  | .observe => 0
  | _ => 0xFFFFFFFF

def ClientSequence.run : ClientSequence → Session → Bool × Session × List Event
  | .get => ocDoGet cfg call
  | .delete => ocDoDelete cfg call
  | .observe => ocDoObserve cfg call
  | .put => updateWith (ocInitPut call) (ocDoPut cfg call)
  | .post => updateWith (ocInitPost call) (ocDoPost cfg call)

theorem ClientSequence.run_eq (k : ClientSequence) (s : Session) :
    k.run cfg call s = requestWith cfg call k.method k.observeSeq s := by
  cases k <;> rfl

end

/-! ## what a request takes -/

/-- the lists of a state -/
def SameLists (s s' : State) : Prop :=
  s'.clientCbs = s.clientCbs ∧ s'.transactions = s.transactions ∧ s'.requests = s.requests ∧
    s'.responses = s.responses

/-- no request is being prepared, and a new address is one that nothing has and nothing points to -/
structure Session.Idle (s : Session) : Prop where
  buffer : s.requestBuffer = none
  wf : s.engine.WF
  clientCbs : ∀ cb ∈ s.engine.clientCbs, cb.id < s.engine.fresh
  requests : ∀ b ∈ s.engine.requests, ∀ id, b.clientCb = some id → id < s.engine.fresh
  responses : ∀ b ∈ s.engine.responses, ∀ id, b.clientCb = some id → id < s.engine.fresh

/-- a request that is prepared: what has been taken since `s` -/
structure Prepared (s s' : Session) (cb : ClientCb) (id : Nat) : Prop where
  clientCb : s'.clientCb = some cb.id
  transaction : s'.transaction = some id
  newCb : cb.id = s.engine.fresh
  newId : s.engine.fresh ≤ id
  clientCbs : s'.engine.clientCbs = s.engine.clientCbs ++ [cb]
  transactions : s'.engine.transactions =
    s.engine.transactions ++ [⟨id, cb.mid, cb.endpoint, 0, 0, []⟩]
  responses : s'.engine.responses = s.engine.responses
  buffer : if carriesPayload cb.method then
      ∃ b, s'.requestBuffer = some b.id ∧ s.engine.fresh ≤ b.id ∧ b.clientCb = some cb.id ∧
        s'.engine.requests = s.engine.requests ++ [b]
    else s'.requestBuffer = none ∧ s'.engine.requests = s.engine.requests

/-- there is a transaction, and a request buffer if need be -/
def RequestCall.Supplied (call : RequestCall) (method : UInt8) : Prop :=
  call.env.transactionGranted = true ∧
    (carriesPayload method = true → call.env.requestAlloc.granted = true ∧ call.uri.drop 1 ≠ [])

section
variable {cfg : Config} {call : RequestCall} {method : UInt8} {observeSeq : UInt32}
  {s s' : Session} {cb : ClientCb} {id : Nat}

/-- the callback that `oc_ri_alloc_client_cb` and its caller have filled -/
def newClientCb (call : RequestCall) (method : UInt8) (observeSeq : UInt32) (s : State) : ClientCb :=
  { id := s.fresh
    uri := call.uri
    query := call.query
    endpoint := call.endpoint
    observeSeq
    method
    mid := s.currentMid + 1
    token := call.env.randomToken.take coapTokenLen
    discovery := false
    multicast := false
    stopMulticastReceive := false }

/-- the session with a callback at the end of the list -/
def Session.withCb (cb : ClientCb) (s : Session) : Session :=
  { s with engine :=
    { s.engine with
      clientCbs := s.engine.clientCbs ++ [cb]
      currentMid := s.engine.currentMid + 1
      fresh := s.engine.fresh + 1 } }

theorem prepareWith_eq (hs : s.Idle) (hg : call.cbGranted = true) :
    prepareWith call method observeSeq s =
      prepareCoapRequest call (newClientCb call method observeSeq s.engine)
        (s.withCb (newClientCb call method observeSeq s.engine)) := by
  have hne : ∀ cb ∈ s.engine.clientCbs,
      cb.id ≠ (newClientCb call method observeSeq s.engine).id := by
    intro cb hcb
    exact Nat.ne_of_lt (hs.clientCbs cb hcb)
  have hput : Keyed.put ClientCb.id (newClientCb call method observeSeq s.engine)
      (s.engine.clientCbs ++ [newClientCb call method 0xFFFFFFFF s.engine]) =
        s.engine.clientCbs ++ [newClientCb call method observeSeq s.engine] :=
    Keyed.put_snoc hne rfl
  unfold prepareWith ocRiAllocClientCb coapGetMid Session.withCb
  rw [if_pos hg, ← hput]
  rfl

theorem allocRequest_granted {a : Alloc} (ha : a.granted = true) {href : List UInt8}
    (hu : href ≠ []) (endpoint : Endpoint) (method : UInt8) (role : Role) (s : Buffers) :
    ∃ b : BlockwiseState, b.id = s.fresh ∧ b.clientCb = none ∧
      ocBlockwiseAllocRequestBuffer a href endpoint method role s =
        (some b, { s with requests := s.requests ++ [b], fresh := s.fresh + 1 }) := by
  unfold ocBlockwiseAllocRequestBuffer ocBlockwiseInitBuffer
  rw [if_neg hu, if_pos ha]
  exact ⟨_, rfl, rfl, rfl⟩

theorem allocRequest_refused {a : Alloc} {href : List UInt8}
    (h : ¬ (a.granted = true ∧ href ≠ [])) (endpoint : Endpoint) (method : UInt8) (role : Role)
    (s : Buffers) : ocBlockwiseAllocRequestBuffer a href endpoint method role s = (none, s) := by
  unfold ocBlockwiseAllocRequestBuffer ocBlockwiseInitBuffer
  by_cases hu : href = []
  · rw [if_pos hu]
  · rw [if_neg hu, if_neg fun ha => h ⟨ha, hu⟩]

/-- what `prepare_coap_request` comes to -/
theorem prepareCoapRequest_cases (hs : s.Idle) (hcb : cb = newClientCb call method observeSeq s.engine) :
    (¬ call.Supplied method ∧ ∃ s', prepareCoapRequest call cb (s.withCb cb) = (false, s') ∧
        s'.engine.clientCbs = s.engine.clientCbs ++ [cb]) ∨
      (call.Supplied method ∧ ∃ s' id, prepareCoapRequest call cb (s.withCb cb) = (true, s') ∧
        Prepared s s' cb id) := by
  unfold prepareCoapRequest coapNewTransaction
  cases ht : call.env.transactionGranted with
  | false =>
    refine Or.inl ⟨fun h => absurd (ht.symm.trans h.1) (by decide), _, rfl, rfl⟩
  | true =>
    rw [if_pos rfl]
    dsimp only
    have hmethod : cb.method = method := by rw [hcb]; rfl
    have huri : cb.uri = call.uri := by rw [hcb]; rfl
    have hid : cb.id = s.engine.fresh := by rw [hcb]; rfl
    by_cases hc : carriesPayload method = true
    · rw [if_pos (by rw [hmethod]; exact hc), huri]
      by_cases ha : call.env.requestAlloc.granted = true ∧ call.uri.drop 1 ≠ []
      · refine Or.inr ⟨⟨ht, fun _ => ha⟩, ?_⟩
        obtain ⟨b, hid', _, hb⟩ := allocRequest_granted ha.1 ha.2 cb.endpoint cb.method .client
          { (s.withCb cb).engine.toBuffers with fresh := (s.withCb cb).engine.fresh + 1 }
        rw [hb]
        refine ⟨_, _, rfl, rfl, rfl, hid, Nat.le_succ _, rfl, rfl, rfl, ?_⟩
        rw [if_pos (by rw [hmethod]; exact hc)]
        have hb' : b.id = s.engine.fresh + 2 := hid'
        refine ⟨{ b with mid := cb.mid, clientCb := some cb.id }, rfl, ?_, rfl, ?_⟩
        · show s.engine.fresh ≤ b.id
          omega
        · refine Keyed.put_snoc (fun y hy => ?_) rfl
          have hlt := hs.wf.requests.lt y hy
          show y.id ≠ b.id
          omega
      · refine Or.inl ⟨fun h => ha (h.2 hc), ?_⟩
        rw [allocRequest_refused ha]
        exact ⟨_, rfl, rfl⟩
    · rw [if_neg (by rw [hmethod]; exact hc)]
      refine Or.inr ⟨⟨ht, fun h => absurd h hc⟩, _, s.engine.fresh + 1, rfl, ?_⟩
      refine ⟨rfl, rfl, hid, Nat.le_succ _, rfl, rfl, rfl, ?_⟩
      rw [if_neg (by rw [hmethod]; exact hc)]
      exact ⟨hs.buffer, rfl⟩

theorem fillRequest_keeps (cfg : Config) (call : RequestCall) (tcp : Bool) (b : BlockwiseState)
    (p : Message) :
    (fillRequest cfg call tcp b p).1.id = b.id ∧
      (fillRequest cfg call tcp b p).1.clientCb = b.clientCb := by
  have hd : ∀ (b : BlockwiseState) (offset size : Nat),
      (ocBlockwiseDispatchBlock b offset size).2.id = b.id ∧
        (ocBlockwiseDispatchBlock b offset size).2.clientCb = b.clientCb := by
    intro b offset size
    unfold ocBlockwiseDispatchBlock
    split
    · exact ⟨rfl, rfl⟩
    · exact ⟨rfl, rfl⟩
  unfold fillRequest
  dsimp only
  split
  · split
    · exact hd _ 0 cfg.blockSize
    · exact hd _ 0 cfg.blockSize
  · exact ⟨rfl, rfl⟩

/-- the payload changes no more than the request buffer -/
theorem Prepared.loadPayload (hs : s.Idle) (h : Prepared s s' cb id) (cfg : Config)
    (call : RequestCall) :
    ∃ s'', Coap.loadPayload cfg call cb s' = some s'' ∧ Prepared s s'' cb id := by
  unfold Coap.loadPayload
  by_cases hc : carriesPayload cb.method = true ∧ call.encoded ≠ []
  · rw [if_pos hc]
    have hbuffer := h.buffer
    rw [if_pos hc.1] at hbuffer
    obtain ⟨b, hb, hle, hcb, hreq⟩ := hbuffer
    have hne : ∀ y ∈ s.engine.requests, y.id ≠ b.id := by
      intro y hy
      have hlt := hs.wf.requests.lt y hy
      omega
    have hfind : s'.engine.requests.find? (fun b => s'.requestBuffer == some b.id) = some b := by
      rw [hreq, hb, List.find?_append, List.find?_eq_none.mpr fun y hy => ?_]
      · simp
      · simpa using Ne.symm (hne y hy)
    rw [hfind]
    refine ⟨_, rfl, h.clientCb, h.transaction, h.newCb, h.newId, h.clientCbs, h.transactions,
      h.responses, ?_⟩
    rw [if_pos hc.1]
    obtain ⟨hid, hkeep⟩ := fillRequest_keeps cfg call cb.endpoint.flags.tcp b s'.request
    refine ⟨(fillRequest cfg call cb.endpoint.flags.tcp b s'.request).1, ?_, ?_, hkeep.trans hcb, ?_⟩
    · rw [hid]
      exact hb
    · rw [hid]
      exact hle
    · show Keyed.put BlockwiseState.id (fillRequest cfg call cb.endpoint.flags.tcp b s'.request).1
        s'.engine.requests = _
      rw [hreq]
      exact Keyed.put_snoc (fun y hy => hid ▸ hne y hy) hid.symm
  · rw [if_neg hc]
    exact ⟨s', rfl, h⟩

theorem sendSerialized_failed {env : Env} {id : Nat} {mid : UInt16} {endpoint : Endpoint}
    {packet : Message} {s : State} (h : (sendSerialized env id mid endpoint packet s).1 = false) :
    (sendSerialized env id mid endpoint packet s).2.1 = coapClearTransaction id s := by
  unfold sendSerialized at h ⊢
  dsimp only at h ⊢
  split at h
  · rename_i hd
    rw [if_pos hd]
  · cases h

/-- records that point to no callback with an address stay -/
theorem filter_clientCb {l : List BlockwiseState} {n : Nat}
    (h : ∀ b ∈ l, ∀ id, b.clientCb = some id → id < n) :
    l.filter (fun b => b.clientCb ≠ some n) = l := by
  refine List.filter_eq_self.mpr fun b hb => decide_eq_true ?_
  intro heq
  exact Nat.lt_irrefl n (h b hb n heq)

/-- a packet that is not sent: everything that was taken is given back -/
theorem Prepared.dispatchPacket (hs : s.Idle) (h : Prepared s s' cb id)
    (hf : (Coap.dispatchPacket call cb id s').1 = false) :
    SameLists s.engine (Coap.dispatchPacket call cb id s').2.1.engine := by
  have hx := sendSerialized_failed hf
  unfold Coap.dispatchPacket at hf ⊢
  dsimp only at hf ⊢
  rw [hf, hx, if_neg (by decide)]
  -- the lists without what was taken
  have hcbs : Keyed.remove ClientCb.id cb.id s'.engine.clientCbs = s.engine.clientCbs := by
    rw [h.clientCbs]
    refine Keyed.remove_snoc (fun y hy => ?_) rfl
    rw [h.newCb]
    exact Nat.ne_of_lt (hs.clientCbs y hy)
  have htrans : Keyed.remove Transaction.id id s'.engine.transactions = s.engine.transactions := by
    rw [h.transactions]
    refine Keyed.remove_snoc (fun y hy => ?_) rfl
    have hlt := hs.wf.transactions.lt y hy
    have hle := h.newId
    show y.id ≠ id
    omega
  have hreq : s'.engine.requests.filter (fun b => b.clientCb ≠ some cb.id) = s.engine.requests := by
    rw [h.newCb]
    have hkeep := filter_clientCb hs.requests
    have hbuffer := h.buffer
    split at hbuffer
    · obtain ⟨b, _, _, hcb, hreq⟩ := hbuffer
      rw [hreq, List.filter_append, hkeep, ← h.newCb]
      simp [hcb]
    · rw [hbuffer.2, hkeep]
  have hresp : s'.engine.responses.filter (fun b => b.clientCb ≠ some cb.id) = s.engine.responses := by
    rw [h.responses, h.newCb]
    exact filter_clientCb hs.responses
  have hlists : SameLists s.engine (freeClientCb cb.id (coapClearTransaction id s'.engine)) :=
    ⟨hcbs, htrans, hreq, hresp⟩
  have hfind : (freeClientCb cb.id (coapClearTransaction id s'.engine)).requests.find?
      (fun b => s'.requestBuffer == some b.id) = none := by
    rw [hlists.2.2.1, List.find?_eq_none]
    intro y hy
    have hlt := hs.wf.requests.lt y hy
    have hbuffer := h.buffer
    split at hbuffer
    · obtain ⟨b, hb, hle, _⟩ := hbuffer
      have hne : b.id ≠ y.id := by omega
      simp [hb, hne]
    · simp [hbuffer.1]
  unfold Session.releaseBuffer
  dsimp only
  rw [hfind]
  exact hlists

/-- a request that is prepared and dispatched: it is sent, or everything is given back -/
theorem Prepared.dispatch (hs : s.Idle) (h : Prepared s s' cb id) (cfg : Config)
    (call : RequestCall) (hf : (dispatchCoapRequest cfg call s').1 = false) :
    SameLists s.engine (dispatchCoapRequest cfg call s').2.1.engine := by
  have hfind : s'.engine.clientCbs.find? (fun cb => s'.clientCb == some cb.id) = some cb := by
    rw [h.clientCbs, h.clientCb, List.find?_append, List.find?_eq_none.mpr fun y hy => ?_]
    · simp
    · have hlt := hs.clientCbs y hy
      have hne : cb.id ≠ y.id := by
        rw [h.newCb]
        omega
      simp [hne]
  obtain ⟨s'', hload, h'⟩ := h.loadPayload hs cfg call
  have heq : dispatchCoapRequest cfg call s' = Coap.dispatchPacket call cb id s'' := by
    unfold dispatchCoapRequest dispatchWith
    rw [hfind, h.transaction]
    dsimp only
    rw [hload]
  rw [heq] at hf ⊢
  exact h'.dispatchPacket hs hf

end

/-- everything that a request takes is there, unless there is not even a callback -/
def ClientSequence.Unwinds (k : ClientSequence) (call : RequestCall) : Prop :=
  call.cbGranted = true → call.Supplied k.method

/-- a call that fails leaves the lists as they were -/
def ClientSequence.Restores (k : ClientSequence) (cfg : Config) (call : RequestCall) (s : Session) :
    Prop :=
  (k.run cfg call s).1 = false → SameLists s.engine (k.run cfg call s).2.1.engine

/-- **Failed client calls.**  A request that fails leaves the lists of callbacks, transactions and
block-wise buffers as they were if and only if it is not for want of a transaction or of a buffer,
with a callback already on its list. -/
theorem ClientSequence.restores_iff (k : ClientSequence) (cfg : Config) (call : RequestCall)
    (s : Session) (hs : s.Idle) : k.Restores cfg call s ↔ k.Unwinds call := by
  unfold ClientSequence.Restores ClientSequence.Unwinds
  rw [k.run_eq]
  unfold requestWith
  cases hg : call.cbGranted with
  | false =>
    have hp : prepareWith call k.method k.observeSeq s = (false, s) := by
      unfold prepareWith ocRiAllocClientCb
      rw [if_neg (by rw [hg]; decide)]
    rw [hp]
    exact iff_of_true (fun _ => ⟨rfl, rfl, rfl, rfl⟩) (fun h => absurd h (by decide))
  | true =>
    rw [prepareWith_eq hs hg]
    have hcb := Eq.refl (newClientCb call k.method k.observeSeq s.engine)
    rcases prepareCoapRequest_cases hs hcb with ⟨hn, s', hp, hcbs⟩ | ⟨hy, s', id, hp, h⟩
    · rw [hp]
      refine iff_of_false (fun h => ?_) (fun h => hn (h rfl))
      have heq := (h rfl).1
      rw [hcbs] at heq
      have hlen := congrArg List.length heq
      rw [List.length_append, List.length_singleton] at hlen
      omega
    · rw [hp]
      exact iff_of_true (fun hf => h.dispatch hs cfg call hf) (fun _ => hy)

/-! ## sample inputs -/

def sampleSession : Session where
  engine := State.init 0
  transaction := none
  clientCb := none
  requestBuffer := none
  request := coapUdpInitMessage .con 0 0

theorem sampleSession_idle : sampleSession.Idle :=
  ⟨rfl, State.init_wf 0, fun _ h => absurd h List.not_mem_nil, fun _ h => absurd h List.not_mem_nil,
    fun _ h => absurd h List.not_mem_nil⟩

/-- a request to `/a`, without a transaction or without a buffer for it -/
def sampleCall (transaction buffer : Bool) : RequestCall where
  uri := [slash, 0x61]
  endpoint := sampleEndpoint 5683
  query := []
  highQos := true
  cbGranted := true
  encoded := [0xA0]
  format := applicationVndOcfCbor
  env := { sampleEnv [] length_nil_lt with
    transactionGranted := transaction
    requestAlloc := ⟨buffer, fun _ => 0⟩ }

/-- without a transaction the callback of a `GET` is left behind; without a buffer those of a `PUT`
are, and its transaction -/
theorem failed_request_leaves :
    ¬ ClientSequence.get.Restores defaultConfig (sampleCall false true) sampleSession ∧
      ¬ ClientSequence.put.Restores defaultConfig (sampleCall true false) sampleSession ∧
      (ClientSequence.put.run defaultConfig (sampleCall true false)
        sampleSession).2.1.engine.transactions ≠ [] := by
  refine ⟨fun h => ?_, fun h => ?_, ?_⟩
  · exact List.cons_ne_nil _ _ (h rfl).1
  · exact List.cons_ne_nil _ _ (h rfl).1
  · exact List.cons_ne_nil _ _

theorem ClientSequence.restores_iff_get :
    ClientSequence.get.Restores defaultConfig (sampleCall true true) sampleSession ↔
      ClientSequence.get.Unwinds (sampleCall true true) :=
  ClientSequence.restores_iff _ _ _ _ sampleSession_idle

end Coap
