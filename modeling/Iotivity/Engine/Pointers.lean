import Iotivity.Engine.Client
import Iotivity.Engine.Trace

/-!
# The buffers that a client points to

`request_buffer` and `response_buffer` are set early in `coap_receive` and used to its end.  On the way
handlers are called, and callbacks are freed together with their buffers.

* `Handler`              what a handler does, which may be anything;
* `exchangeCourse`       the client side of `coap_receive` with every use of its pointers;
* `receiveWith_idle`     it is `coapReceive`, if the handler does nothing to the engine;
* `Undisturbed`          there is a response buffer, and what is freed is not pointed to;
* `accesses_live`        buffers are live when they are used;
* `dead_buffers_used`    a `PUT` that is refused in mid-transfer, and a full pool.
-/

namespace Coap
open Memory Keyed

/-! ## handlers -/

/-- What a handler does while it runs.  It may do anything to the engine; `leaves` is what it makes of the
callbacks, and `frees` are the buffers that it frees, by freeing their callbacks or otherwise.  `parsed`
says that the payload of the response can be parsed. -/
structure Handler where
  parsed : Bool
  leaves : List ClientCb → List ClientCb
  frees : List Nat
  run : State → State
  clientCbs : ∀ s, (run s).clientCbs = leaves s.clientCbs
  requests : ∀ s, ∀ b ∈ s.requests, b.id ∉ frees →
    ∃ b' ∈ (run s).requests, b'.id = b.id ∧ b'.clientCb = b.clientCb
  responses : ∀ s, ∀ b ∈ s.responses, b.id ∉ frees →
    ∃ b' ∈ (run s).responses, b'.id = b.id ∧ b'.clientCb = b.clientCb

/-- a handler that does nothing to the engine -/
def idleHandler (parsed : Bool) : Handler where
  parsed := parsed
  leaves := id
  frees := []
  run := id
  clientCbs := fun _ => rfl
  requests := fun _ b hb _ => ⟨b, hb, rfl, rfl⟩
  responses := fun _ b hb _ => ⟨b, hb, rfl, rfl⟩

section
variable (cfg : Config) (env : Env) (handler : Handler) (endpoint : Endpoint) (message : Message)

/-- `oc_ri_invoke_client_cb` calls the handler, or that of a discovery -/
def callsHandler (b : BlockwiseState) (cb : ClientCb) : Bool :=
  if b.payloadSize ≠ 0 then cb.discovery || handler.parsed
  else !(message.type == .ack && message.code == 0) && !cb.discovery

/-- the state when the handler has returned -/
def handled (b : BlockwiseState) (cb : ClientCb) (s : State) : State :=
  if callsHandler handler message b cb then handler.run s else s

/-- a callback as it is now -/
def currentCb (cb : ClientCb) (cbs : List ClientCb) : ClientCb :=
  (cbs.find? fun c => c.id == cb.id).getD cb

/-- `oc_ri_invoke_client_cb`, with the handler -/
def invokeHandler (b : BlockwiseState) (cb : ClientCb) (l : Locals) : Locals :=
  let s := handled handler message b cb l.state
  invokeClientCb env endpoint message b (currentCb cb s.clientCbs) { l with state := s }

/-! ## accesses -/

/-- a read or a write through `request_buffer`, or through `response_buffer` and `*response_state`, in a
state -/
inductive Access where
  | request (target : Option BlockwiseState) (s : State)
  | response (target : Option BlockwiseState) (s : State)

def Access.Live : Access → Prop
  | .request target s => ∃ b, target = some b ∧ b.id ∈ s.requests.map BlockwiseState.id
  | .response target s => ∃ b, target = some b ∧ b.id ∈ s.responses.map BlockwiseState.id

instance : DecidablePred Access.Live
  | .request none _ => isFalse fun ⟨_, h, _⟩ => absurd h (by simp)
  | .request (some b) s => decidable_of_iff (b.id ∈ s.requests.map BlockwiseState.id)
      ⟨fun h => ⟨b, rfl, h⟩, fun ⟨_, h, hb⟩ => Option.some.inj h ▸ hb⟩
  | .response none _ => isFalse fun ⟨_, h, _⟩ => absurd h (by simp)
  | .response (some b) s => decidable_of_iff (b.id ∈ s.responses.map BlockwiseState.id)
      ⟨fun h => ⟨b, rfl, h⟩, fun ⟨_, h, hb⟩ => Option.some.inj h ▸ hb⟩

/-- behind `if (request_buffer)` -/
def Locals.ifRequest (l : Locals) : List Access :=
  match l.requestBuffer with
  | none => []
  | some b => [.request (some b) l.state]

/-- behind `if (response_buffer)` -/
def Locals.ifResponse (l : Locals) : List Access :=
  match l.responseBuffer with
  | none => []
  | some b => [.response (some b) l.state]

/-- Where the client side gets to: a label, or no further because a NULL pointer is read; and the uses of
the buffers, one for each stretch in which nothing is freed. -/
structure Course where
  locals : Locals
  label : Option Label
  accesses : List Access

def exchangeCourse (responseMid : UInt16) (clientCb : Option ClientCb) (l : Locals) : Course :=
  let block1 := coapGetHeaderBlock1 message
  let block2 := coapGetHeaderBlock2 message
  let a := (l.pointRequest (clientBuffer endpoint message l.state.requests clientCb)).ifRequest
  match clientRequest cfg env endpoint message responseMid block1 l clientCb with
  | .fault l => ⟨l, none, a ++ [.request l.requestBuffer l.state]⟩
  | .jump l label => ⟨l, some label, a ++ [.request l.requestBuffer l.state]⟩
  | .next l clientCb =>
    let a := a ++ l.ifRequest
    let l := clientResponseBuffer env endpoint message (freeUnreferenced l) clientCb
    let a := a ++ l.ifResponse
    match clientResponse cfg env endpoint message responseMid block2 l clientCb with
    | .fault l => ⟨l, none, a ++ [.response l.responseBuffer l.state]⟩
    -- `observe_seq` is read for the token of the follow-up request
    | .jump l label => ⟨l, some label, a ++ [.response l.responseBuffer l.state]⟩
    | .next l clientCb =>
      match clientCb, l.responseBuffer with
      | none, _ => ⟨l, some .initResetMessage, a ++ l.ifRequest ++ l.ifResponse⟩
      | some _, none => ⟨l, none, a ++ [.response none l.state]⟩
      | some cb, some b =>
        let a := a ++ [.response (some b) l.state]
        let l := invokeHandler env handler endpoint message b cb l
        -- `ref_count` is cleared
        ⟨l, some .freeBlockwiseBuffers, a ++ l.ifRequest ++ l.ifResponse⟩

/-- from where the client side gets to, to the end of the function -/
def Course.finish (c : Course) : State × List Event :=
  match c.label with
  | none => c.locals.faulted
  | some label => leave env endpoint message c.locals label

/-! ## what a response finds -/

/-- a request buffer goes on with its upload -/
def continues : Bool :=
  (coapGetHeaderBlock1 message).isSome || message.code == requestEntityTooLarge413

/-- where the next block of an upload starts -/
def uploadOffset : Nat :=
  let p := blockParams cfg (coapGetHeaderBlock1 message)
  if (coapGetHeaderBlock1 message).isSome then (p.offset.toNat + p.size.toNat) % 2^32 else 0

/-- the next block of an upload is sent -/
def UploadsOn (clientCb : Option ClientCb) (s : State) : Prop :=
  ∃ b, clientBuffer endpoint message s.requests clientCb = some b ∧ continues message = true ∧
    uploadOffset cfg message < b.payloadSize ∧ env.transactionGranted = true

/-- the callback behind a response -/
def exchangeCb (clientCb : Option ClientCb) (s : State) : Option ClientCb :=
  match clientBuffer endpoint message s.requests clientCb with
  | none => clientCb
  | some b => if continues message then bufferClientCb s b else clientCb

/-- the request buffer that stays, with `request_buffer` pointing to it, though no block is sent -/
def requestLeft (clientCb : Option ClientCb) (s : State) : Option BlockwiseState :=
  match clientBuffer endpoint message s.requests clientCb with
  | none => none
  | some b =>
    if continues message then
      if uploadOffset cfg message < b.payloadSize ∧
          ((coapGetHeaderBlock1 message).isSome → b.refCount ≠ 0) then some b
      else none
    else if b.refCount = 0 then none else some b

/-- the response buffer of a callback, a new one if need be -/
def responseAt (clientCb : Option ClientCb) (s : State) : Option BlockwiseState :=
  match clientBuffer endpoint message s.responses clientCb, clientCb with
  | none, some cb =>
    (ocBlockwiseAllocResponseBuffer env.responseAlloc env.etag (cb.uri.drop 1) endpoint cb.method .client
      s.toBuffers).1.map fun b => { b with clientCb := some cb.id }
  | found, _ => found

/-- the payload of a response goes to its buffer -/
def storing (b : BlockwiseState) : Bool × BlockwiseState :=
  let b := { b with observeSeq := (coapGetHeaderObserve message).getD b.observeSeq }
  if 0 < incomingBlockLen message then
    ocBlockwiseHandleBlock cfg.maxAppDataSize b
      (blockParams cfg (coapGetHeaderBlock2 message)).offset.toNat message.payload
  else (false, b)

/-- the response buffer as the callback gets it -/
def stored (b : BlockwiseState) : BlockwiseState :=
  match storing cfg message b with
  | (false, _) => { b with observeSeq := (coapGetHeaderObserve message).getD b.observeSeq }
  | (true, b) => { b with payloadSize := b.nextBlockOffset }

/-- the request for the next block is sent -/
def FollowsUp (b : BlockwiseState) : Prop :=
  (storing cfg message b).1 = true ∧ (coapGetHeaderBlock2 message).isSome = true ∧
    (blockParams cfg (coapGetHeaderBlock2 message)).more ≠ 0 ∧ env.transactionGranted = true

/-! ## what `oc_ri_invoke_client_cb` frees -/

/-- the handler has ended the discovery -/
def Stops (b : BlockwiseState) (cb : ClientCb) : Prop :=
  b.payloadSize ≠ 0 ∧ cb.discovery = true ∧ env.stopDiscovery = true

/-- the last response: no notification, no empty acknowledgement, no discovery -/
def Ends (b : BlockwiseState) (cb : ClientCb) : Prop :=
  b.observeSeq = 0xFFFFFFFF ∧ ¬ (b.payloadSize = 0 ∧ message.type = .ack ∧ message.code = 0) ∧
    ¬ cb.discovery = true

instance (b : BlockwiseState) (cb : ClientCb) : Decidable (Stops env b cb) :=
  inferInstanceAs (Decidable (_ ∧ _))

instance (b : BlockwiseState) (cb : ClientCb) : Decidable (Ends message b cb) :=
  inferInstanceAs (Decidable (_ ∧ _))

/-- the observe callback that a first notification replaces -/
def duplicateCb (cb : ClientCb) (cbs : List ClientCb) : Option ClientCb :=
  cbs.find? fun d => d.id != cb.id && d.observeSeq != 0xFFFFFFFF && d.uri.length == cb.uri.length &&
    strncmpEq d.uri cb.uri cb.uri.length && ocEndpointCompare d.endpoint endpoint

/-- the callbacks with a message id -/
def idsByMid (mid : UInt16) (cbs : List ClientCb) : List Nat :=
  (cbs.filter (·.mid == mid)).map ClientCb.id

/-- the callbacks that are freed when the handler has returned -/
def freedCbs (b : BlockwiseState) (cb : ClientCb) (cbs : List ClientCb) : List Nat :=
  if Stops env b cb then idsByMid cb.mid cbs
  else if Ends message b cb then
    if cb.multicast then if cb.stopMulticastReceive then idsByMid cb.mid cbs else []
    else [cb.id]
  else if b.observeSeq = 0 then
    ((duplicateCb endpoint cb
      (Keyed.put ClientCb.id { cb with observeSeq := b.observeSeq } cbs)).map ClientCb.id).toList
  else []

/-- the callbacks when the handler has returned -/
def callbacksLeft (b : BlockwiseState) (cb : ClientCb) (cbs : List ClientCb) : List ClientCb :=
  if callsHandler handler message b cb then handler.leaves cbs else cbs

/-- the buffers that the handler frees -/
def freedByHandler (b : BlockwiseState) (cb : ClientCb) : List Nat :=
  if callsHandler handler message b cb then handler.frees else []

/-- nothing that is still pointed to is freed: neither the request buffer that is left, nor the response
buffer, which is out of use if the exchange ends -/
def Spared (clientCb : Option ClientCb) (s : State) (b : BlockwiseState) (cb : ClientCb) : Prop :=
  let cbs := callbacksLeft handler message b cb s.clientCbs
  let cb' := currentCb cb cbs
  (∀ rb, requestLeft cfg endpoint message clientCb s = some rb →
      rb.id ∉ freedByHandler handler message b cb ∧
        ∀ id ∈ freedCbs env endpoint message b cb' cbs, rb.clientCb ≠ some id) ∧
    (¬ Stops env b cb' → ¬ Ends message b cb' → b.id ∉ freedByHandler handler message b cb)

/-- Unless the next block of an upload is sent: there is a response buffer for the callback, and what is
freed in `oc_ri_invoke_client_cb` is not pointed to. -/
structure Undisturbed (clientCb : Option ClientCb) (s : State) : Prop where
  response : ¬ UploadsOn cfg env endpoint message clientCb s →
    ∀ cb, exchangeCb endpoint message clientCb s = some cb →
      responseAt env endpoint message (some cb) s ≠ none
  spared : ¬ UploadsOn cfg env endpoint message clientCb s → ∀ b cb,
    responseAt env endpoint message (exchangeCb endpoint message clientCb s) s = some b →
    bufferClientCb s b = some cb → ¬ FollowsUp cfg env message b →
    Spared cfg env handler endpoint message clientCb s (stored cfg message b) cb

/-! ## the stages -/

/-- between two stages: callbacks, response buffers and addresses are as they were -/
structure Beside (l l' : Locals) : Prop where
  clientCbs : l'.state.clientCbs = l.state.clientCbs
  responses : l'.state.responses = l.state.responses
  fresh : l'.state.fresh = l.state.fresh

/-- what `request_buffer` points to is on the list -/
def Locals.RequestOn (l : Locals) : Prop := ∀ b, l.requestBuffer = some b → b ∈ l.state.requests

/-- what `response_buffer` points to is on the list -/
def Locals.ResponseOn (l : Locals) : Prop := ∀ b, l.responseBuffer = some b → b ∈ l.state.responses

variable {cfg env handler endpoint message}

theorem Locals.RequestOn.ifRequest {l : Locals} (h : l.RequestOn) : ∀ a ∈ l.ifRequest, a.Live := by
  intro a ha
  unfold Locals.ifRequest at ha
  split at ha
  · exact absurd ha List.not_mem_nil
  · rename_i b hb
    rw [List.mem_singleton.mp ha]
    exact ⟨b, rfl, List.mem_map_of_mem (h b hb)⟩

theorem Locals.ResponseOn.ifResponse {l : Locals} (h : l.ResponseOn) : ∀ a ∈ l.ifResponse, a.Live := by
  intro a ha
  unfold Locals.ifResponse at ha
  split at ha
  · exact absurd ha List.not_mem_nil
  · rename_i b hb
    rw [List.mem_singleton.mp ha]
    exact ⟨b, rfl, List.mem_map_of_mem (h b hb)⟩

/-- a store through `request_buffer` -/
theorem requestOn_setRequest {l : Locals} {b b' : BlockwiseState} (h : b ∈ l.state.requests)
    (hid : b.id = b'.id) : (l.setRequest b').RequestOn := by
  intro x hx
  obtain rfl := Option.some.inj hx
  exact mem_put_self h hid

theorem responseOn_setResponse {l : Locals} {b b' : BlockwiseState} (h : b ∈ l.state.responses)
    (hid : b.id = b'.id) : (l.setResponse b').ResponseOn := by
  intro x hx
  obtain rfl := Option.some.inj hx
  exact mem_put_self h hid

/-- dispatching a block changes its offset only -/
theorem dispatchBlock_cases (b : BlockwiseState) (offset size : Nat) :
    (∃ payload next, ocBlockwiseDispatchBlock b offset size
        = (some payload, { b with nextBlockOffset := next }) ∧ offset < b.payloadSize) ∨
      ocBlockwiseDispatchBlock b offset size = (none, b) ∧ ¬ offset < b.payloadSize := by
  unfold ocBlockwiseDispatchBlock
  split
  · rename_i h
    exact Or.inl ⟨_, _, rfl, h⟩
  · rename_i h
    exact Or.inr ⟨rfl, h⟩

variable (cfg env endpoint message)

/-- the request buffer as it is left -/
structure Leaves (clientCb : Option ClientCb) (l l' : Locals) : Prop where
  beside : Beside l l'
  requestOn : l'.RequestOn
  left : ∀ b, (freeUnreferenced l').requestBuffer = some b → ∃ rb,
    requestLeft cfg endpoint message clientCb l.state = some rb ∧ rb.id = b.id ∧
      rb.clientCb = b.clientCb

/-- a follow-up is sent, or a NULL pointer is read -/
def Departs (f : Flow) (l : Locals) : Prop := f = .jump l .sendMessage ∨ f = .fault l

theorem freeUnreferenced_some {l : Locals} {b : BlockwiseState}
    (h : (freeUnreferenced l).requestBuffer = some b) :
    l.requestBuffer = some b ∧ b.refCount ≠ 0 ∧ freeUnreferenced l = l := by
  unfold freeUnreferenced at h ⊢
  split at h
  · rename_i hn
    exact absurd (hn.symm.trans h) (by simp)
  · rename_i x hx
    split at h
    · exact absurd h (by simp [Locals.freeRequest])
    · rename_i hr
      obtain rfl := Option.some.inj (hx.symm.trans h)
      exact ⟨hx, hr, if_neg hr⟩

theorem continueRequest_cases (responseMid : UInt16) {l : Locals} {b : BlockwiseState}
    (hb : b ∈ l.state.requests) (hl : l.requestBuffer = some b) :
    (uploadOffset cfg message < b.payloadSize ∧ env.transactionGranted = true ∧ ∃ l', l'.RequestOn ∧
        l'.requestBuffer ≠ none ∧
        Departs (continueRequest cfg env endpoint message responseMid (coapGetHeaderBlock1 message) l b)
          l') ∨
      ¬ (uploadOffset cfg message < b.payloadSize ∧ env.transactionGranted = true) ∧ ∃ l' b',
        continueRequest cfg env endpoint message responseMid (coapGetHeaderBlock1 message) l b
          = .next l' (bufferClientCb l.state b) ∧ l' = l.setRequest b' ∧ b'.id = b.id ∧
          b'.clientCb = b.clientCb ∧ (b'.refCount ≠ 0 → uploadOffset cfg message < b.payloadSize ∧
            ((coapGetHeaderBlock1 message).isSome → b.refCount ≠ 0)) := by
  unfold continueRequest
  dsimp only
  generalize (if (coapGetHeaderBlock1 message).isSome = true then _ else _ : UInt16) = size
  rcases dispatchBlock_cases b (uploadOffset cfg message) size.toNat with
    ⟨payload, next, e, hlt⟩ | ⟨e, hlt⟩
  · have e' := e
    unfold uploadOffset at e'
    dsimp only at e'
    rw [e']
    dsimp only
    -- `ref_count` is set again when an upload starts
    obtain ⟨b2, hb2, hid, hcb, hr⟩ : ∃ b2 : BlockwiseState,
        (if (coapGetHeaderBlock1 message).isSome = true then { b with nextBlockOffset := next }
          else { b with nextBlockOffset := next, refCount := 1 }) = b2 ∧ b2.id = b.id ∧
        b2.clientCb = b.clientCb ∧
        ((coapGetHeaderBlock1 message).isSome → b2.refCount = b.refCount) := by
      refine ⟨_, rfl, ?_, ?_, fun h => by rw [if_pos h]⟩
      · split <;> rfl
      · split <;> rfl
    rw [hb2]
    cases hg : env.transactionGranted with
    | false =>
      exact Or.inr ⟨fun h => absurd h.2 (by simp), _, b2, rfl, rfl, hid, hcb,
        fun h => ⟨hlt, fun h1 => hr h1 ▸ h⟩⟩
    | true =>
      refine Or.inl ⟨hlt, rfl, ?_⟩
      simp only [coapNewTransaction, if_true]
      cases bufferClientCb l.state b with
      | none =>
        refine ⟨_, ?_, ?_, Or.inr rfl⟩
        · exact fun x hx => Option.some.inj (hl.symm.trans hx) ▸ hb
        · exact fun hn => absurd (hl.symm.trans hn) (by simp)
      | some cb =>
        refine ⟨_, ?_, ?_, Or.inl rfl⟩
        · exact requestOn_setRequest (b := b) hb hid.symm
        · exact Option.some_ne_none _
  · have e' := e
    unfold uploadOffset at e'
    dsimp only at e'
    rw [e']
    exact Or.inr ⟨fun h => hlt h.1, _, _, rfl, rfl, rfl, rfl, fun hr => absurd rfl hr⟩

/-- the stage of the request buffer -/
theorem clientRequest_cases (responseMid : UInt16) (clientCb : Option ClientCb) (l : Locals) :
    (UploadsOn cfg env endpoint message clientCb l.state ∧ ∃ l', l'.RequestOn ∧
        l'.requestBuffer ≠ none ∧ Departs
          (clientRequest cfg env endpoint message responseMid (coapGetHeaderBlock1 message) l clientCb) l') ∨
      ¬ UploadsOn cfg env endpoint message clientCb l.state ∧ ∃ l',
        clientRequest cfg env endpoint message responseMid (coapGetHeaderBlock1 message) l clientCb
          = .next l' (exchangeCb endpoint message clientCb l.state) ∧
        Leaves cfg endpoint message clientCb l l' := by
  unfold clientRequest UploadsOn exchangeCb
  dsimp only
  cases hq : clientBuffer endpoint message l.state.requests clientCb with
  | none =>
    refine Or.inr ⟨by simp, l.pointRequest none, rfl, ⟨rfl, rfl, rfl⟩,
      fun b hb => absurd hb (by simp [Locals.pointRequest]), fun b hb => ?_⟩
    exact absurd (freeUnreferenced_some hb).1 (by simp [Locals.pointRequest])
  | some b =>
    have hb : b ∈ (l.pointRequest (some b)).state.requests := (clientBuffer_some endpoint message hq).1
    dsimp only
    by_cases hc : continues message = true
    · have hc' : (coapGetHeaderBlock1 message).isSome = true ∨
          message.code = requestEntityTooLarge413 := by
        simpa [continues] using hc
      rw [if_pos hc']
      rcases continueRequest_cases cfg env endpoint message responseMid hb rfl with
        ⟨h1, h2, h⟩ | ⟨hn, l', b', e, rfl, hid, hcb, hr⟩
      · exact Or.inl ⟨⟨b, rfl, hc, h1, h2⟩, h⟩
      · refine Or.inr ⟨?_, (l.pointRequest (some b)).setRequest b', by rw [e, if_pos hc]; rfl,
          ⟨rfl, rfl, rfl⟩, requestOn_setRequest hb hid.symm, fun x hx => ?_⟩
        · rintro ⟨x, hx, _, h⟩
          obtain rfl := Option.some.inj hx
          exact hn h
        · obtain ⟨h1, h2, _⟩ := freeUnreferenced_some hx
          obtain rfl := Option.some.inj h1
          refine ⟨b, ?_, hid.symm, hcb.symm⟩
          unfold requestLeft
          rw [hq]
          exact (if_pos hc).trans (if_pos (hr h2))
    · have hc' : ¬ ((coapGetHeaderBlock1 message).isSome = true ∨
          message.code = requestEntityTooLarge413) := by
        simpa [continues] using hc
      rw [if_neg hc']
      refine Or.inr ⟨?_, l.pointRequest (some b), by rw [if_neg hc], ⟨rfl, rfl, rfl⟩, fun x hx => ?_,
        fun x hx => ?_⟩
      · rintro ⟨x, _, h, _⟩
        exact hc h
      · exact Option.some.inj hx ▸ hb
      · obtain ⟨h1, h2, _⟩ := freeUnreferenced_some hx
        obtain rfl := Option.some.inj h1
        refine ⟨b, ?_, rfl, rfl⟩
        unfold requestLeft
        rw [hq]
        exact (if_neg hc).trans (if_neg h2)

/-- a request buffer that is freed takes nothing else with it -/
theorem freeUnreferenced_beside (l : Locals) : Beside l (freeUnreferenced l) := by
  unfold freeUnreferenced
  repeat' split
  all_goals exact ⟨rfl, rfl, rfl⟩

theorem Locals.RequestOn.freeUnreferenced {l : Locals} (h : l.RequestOn) :
    (freeUnreferenced l).RequestOn := by
  intro b hb
  obtain ⟨h1, _, e⟩ := freeUnreferenced_some hb
  rw [e]
  exact h b h1

/-- a new response buffer is on the list -/
theorem allocResponseBuffer_cases {a : Alloc} {etag href : List UInt8} {method : UInt8} {role : Role}
    {s s' : Buffers} {o : Option BlockwiseState}
    (h : ocBlockwiseAllocResponseBuffer a etag href endpoint method role s = (o, s')) :
    s'.requests = s.requests ∧ ∀ b, o = some b → b ∈ s'.responses := by
  unfold ocBlockwiseAllocResponseBuffer at h
  split at h
  · cases h
    exact ⟨rfl, fun b hb => absurd hb (by simp)⟩
  · cases h
    refine ⟨rfl, fun b hb => ?_⟩
    obtain rfl := Option.some.inj hb
    exact List.mem_append_right _ (List.mem_singleton.mpr rfl)

/-- the stage of the response buffer -/
theorem clientResponseBuffer_cases (clientCb : Option ClientCb) (l : Locals) :
    (clientResponseBuffer env endpoint message l clientCb).requestBuffer = l.requestBuffer ∧
      (clientResponseBuffer env endpoint message l clientCb).state.requests = l.state.requests ∧
      (clientResponseBuffer env endpoint message l clientCb).state.clientCbs = l.state.clientCbs ∧
      (clientResponseBuffer env endpoint message l clientCb).responseBuffer
        = responseAt env endpoint message clientCb l.state ∧
      (clientResponseBuffer env endpoint message l clientCb).ResponseOn := by
  unfold clientResponseBuffer responseAt
  dsimp only
  cases hq : clientBuffer endpoint message l.state.responses clientCb with
  | some b =>
    refine ⟨rfl, rfl, rfl, rfl, fun x hx => ?_⟩
    exact Option.some.inj hx ▸ (clientBuffer_some endpoint message hq).1
  | none =>
    cases clientCb with
    | none => exact ⟨rfl, rfl, rfl, rfl, fun x hx => absurd hx (by simp [Locals.pointResponse])⟩
    | some cb =>
      rcases ha : ocBlockwiseAllocResponseBuffer env.responseAlloc env.etag (cb.uri.drop 1) endpoint
        cb.method .client l.state.toBuffers with ⟨_ | b, s'⟩
      · obtain ⟨h1, _⟩ := allocResponseBuffer_cases endpoint ha
        simp only [Locals.pointResponse, Locals.newResponse, ha]
        exact ⟨trivial, h1, rfl, rfl, fun x hx => absurd hx (by simp)⟩
      · obtain ⟨h1, h2⟩ := allocResponseBuffer_cases endpoint ha
        simp only [Locals.pointResponse, Locals.newResponse, ha]
        refine ⟨rfl, h1, rfl, rfl, ?_⟩
        exact responseOn_setResponse (b := b) (h2 b rfl) rfl

/-- the stage of the response: either it departs, or the payload is stored -/
theorem clientResponse_cases (responseMid : UInt16) (clientCb : Option ClientCb) (l : Locals)
    {b : BlockwiseState} (hl : l.responseBuffer = some b) (hb : b ∈ l.state.responses) :
    (FollowsUp cfg env message b ∧ ∃ l', l'.ResponseOn ∧ l'.responseBuffer ≠ none ∧ Departs
        (clientResponse cfg env endpoint message responseMid (coapGetHeaderBlock2 message) l clientCb) l') ∨
      ¬ FollowsUp cfg env message b ∧ ∃ l',
        clientResponse cfg env endpoint message responseMid (coapGetHeaderBlock2 message) l clientCb
          = .next l' (bufferClientCb l.state b) ∧ l'.requestBuffer = l.requestBuffer ∧
        l'.state.requests = l.state.requests ∧ l'.state.clientCbs = l.state.clientCbs ∧
        l'.responseBuffer = some (stored cfg message b) ∧ l'.ResponseOn := by
  unfold clientResponse FollowsUp stored storing
  rw [hl]
  dsimp only
  obtain ⟨b1, hb1, hid⟩ : ∃ b1 : BlockwiseState,
      { b with observeSeq := (coapGetHeaderObserve message).getD b.observeSeq } = b1 ∧ b.id = b1.id :=
    ⟨_, rfl, rfl⟩
  have hon := responseOn_setResponse hb hid
  have hmem : b1 ∈ (l.setResponse b1).state.responses := hon b1 rfl
  rw [hb1]
  by_cases hlen : 0 < incomingBlockLen message
  · simp only [if_pos hlen]
    have hk := (sameKey_handle cfg.maxAppDataSize b1
      (blockParams cfg (coapGetHeaderBlock2 message)).offset.toNat message.payload).id
    generalize ocBlockwiseHandleBlock cfg.maxAppDataSize b1
      (blockParams cfg (coapGetHeaderBlock2 message)).offset.toNat message.payload = r at hk ⊢
    rcases r with ⟨_ | _, b2⟩
    · exact Or.inr ⟨by simp, _, rfl, rfl, rfl, rfl, rfl, hon⟩
    · have hk : b1.id = b2.id := hk.symm
      dsimp only
      by_cases hmore : (coapGetHeaderBlock2 message).isSome = true ∧
          (blockParams cfg (coapGetHeaderBlock2 message)).more ≠ 0
      · rw [if_pos hmore]
        cases hg : env.transactionGranted with
        | false =>
          refine Or.inr ⟨by simp, _, rfl, rfl, rfl, rfl, rfl, ?_⟩
          exact responseOn_setResponse hmem hk
        | true =>
          refine Or.inl ⟨⟨rfl, hmore.1, hmore.2, rfl⟩, ?_⟩
          simp only [coapNewTransaction, if_true]
          cases bufferClientCb l.state b with
          | none =>
            refine ⟨_, ?_, ?_, Or.inr rfl⟩
            · exact hon
            · exact Option.some_ne_none b1
          | some cb =>
            refine ⟨_, ?_, ?_, Or.inl rfl⟩
            · exact responseOn_setResponse (b := b1) hmem hk
            · exact Option.some_ne_none _
      · rw [if_neg hmore]
        refine Or.inr ⟨fun h => hmore ⟨h.2.1, h.2.2.1⟩, _, rfl, rfl, rfl, rfl, rfl, ?_⟩
        exact responseOn_setResponse hmem hk
  · simp only [if_neg hlen]
    exact Or.inr ⟨by simp, _, rfl, rfl, rfl, rfl, rfl, hon⟩

/-! ## freeing callbacks -/

/-- buffers of other callbacks stay -/
structure Spares (ids : List Nat) (s s' : State) : Prop where
  requests : ∀ b ∈ s.requests, (∀ id ∈ ids, b.clientCb ≠ some id) → b ∈ s'.requests
  responses : ∀ b ∈ s.responses, (∀ id ∈ ids, b.clientCb ≠ some id) → b ∈ s'.responses

theorem spares_freeClientCb (id : Nat) (s : State) : Spares [id] s (freeClientCb id s) := by
  have hkeep : ∀ (b : BlockwiseState) (l : List BlockwiseState), b ∈ l →
      (∀ i ∈ [id], b.clientCb ≠ some i) → b ∈ l.filter (·.clientCb ≠ some id) := by
    intro b l hb h
    exact List.mem_filter.mpr ⟨hb, decide_eq_true (h id (List.mem_singleton.mpr rfl))⟩
  exact ⟨fun b hb h => hkeep b _ hb h, fun b hb h => hkeep b _ hb h⟩

theorem spares_foldl (cbs : List ClientCb) (s : State) :
    Spares (cbs.map ClientCb.id) s (cbs.foldl (fun s cb => freeClientCb cb.id s) s) := by
  induction cbs generalizing s with
  | nil => exact ⟨fun b hb _ => hb, fun b hb _ => hb⟩
  | cons cb cbs ih =>
    have h1 := spares_freeClientCb cb.id s
    have h2 := ih (freeClientCb cb.id s)
    constructor
    · intro b hb h
      refine h2.requests b (h1.requests b hb fun id hid => h id ?_) fun id hid => h id ?_
      · exact List.mem_singleton.mp hid ▸ List.mem_cons_self
      · exact List.mem_cons_of_mem _ hid
    · intro b hb h
      refine h2.responses b (h1.responses b hb fun id hid => h id ?_) fun id hid => h id ?_
      · exact List.mem_singleton.mp hid ▸ List.mem_cons_self
      · exact List.mem_cons_of_mem _ hid

/-- the end of `oc_ri_invoke_client_cb` -/
theorem spares_invokeClientCb (b : BlockwiseState) (cb : ClientCb) (s : State) :
    Spares (freedCbs env endpoint message b cb s.clientCbs) s
        (ocRiInvokeClientCb env endpoint message b cb s).1 ∧
      ((ocRiInvokeClientCb env endpoint message b cb s).2 = true ↔
        ¬ Stops env b cb ∧ ¬ Ends message b cb) := by
  unfold ocRiInvokeClientCb freedCbs
  dsimp only
  by_cases hs : Stops env b cb
  · have hs' : b.payloadSize ≠ 0 ∧ cb.discovery = true ∧ env.stopDiscovery = true := hs
    rw [if_pos hs, if_pos hs']
    exact ⟨spares_foldl _ s, by simp [hs]⟩
  · have hs' : ¬ (b.payloadSize ≠ 0 ∧ cb.discovery = true ∧ env.stopDiscovery = true) := hs
    rw [if_neg hs, if_neg hs']
    by_cases he : Ends message b cb
    · have he' : b.observeSeq = 0xFFFFFFFF ∧
        ¬ (b.payloadSize = 0 ∧ message.type = .ack ∧ message.code = 0) ∧ ¬ cb.discovery = true := he
      rw [if_pos he, if_pos he']
      refine ⟨?_, ?_⟩
      · split
        · split
          · exact spares_foldl _ s
          · exact ⟨fun x hx _ => hx, fun x hx _ => hx⟩
        · exact spares_freeClientCb cb.id s
      · split <;> simp [he]
    · have he' : ¬ (b.observeSeq = 0xFFFFFFFF ∧
        ¬ (b.payloadSize = 0 ∧ message.type = .ack ∧ message.code = 0) ∧ ¬ cb.discovery = true) := he
      rw [if_neg he, if_neg he']
      refine ⟨?_, by simp [hs, he]⟩
      dsimp only
      split
      · unfold dropDuplicateCb duplicateCb
        split
        · rename_i hd
          exact ⟨fun x hx _ => hx, fun x hx _ => hx⟩
        · rename_i d hd
          rw [hd]
          exact ⟨fun x hx => (spares_freeClientCb d.id _).requests x hx,
            fun x hx => (spares_freeClientCb d.id _).responses x hx⟩
      · exact ⟨fun x hx _ => hx, fun x hx _ => hx⟩

/-! ## live buffers -/

variable (handler)

theorem Locals.RequestOn.live {l : Locals} (h : l.RequestOn) (hn : l.requestBuffer ≠ none) :
    (Access.request l.requestBuffer l.state).Live := by
  obtain ⟨b, hb⟩ := Option.ne_none_iff_exists'.mp hn
  exact ⟨b, hb, List.mem_map_of_mem (h b hb)⟩

theorem Locals.ResponseOn.live {l : Locals} (h : l.ResponseOn) (hn : l.responseBuffer ≠ none) :
    (Access.response l.responseBuffer l.state).Live := by
  obtain ⟨b, hb⟩ := Option.ne_none_iff_exists'.mp hn
  exact ⟨b, hb, List.mem_map_of_mem (h b hb)⟩

/-- the owner of a buffer, looked up -/
theorem bufferClientCb_some {s : State} {b : BlockwiseState} {cb : ClientCb}
    (h : bufferClientCb s b = some cb) : b.clientCb = some cb.id := by
  unfold bufferClientCb at h
  obtain ⟨id, hid, hf⟩ := Option.bind_eq_some_iff.mp h
  have hp := List.find?_some hf
  rw [hid, beq_iff_eq.mp hp]

theorem currentCb_id (cb : ClientCb) (cbs : List ClientCb) : (currentCb cb cbs).id = cb.id := by
  unfold currentCb
  cases h : cbs.find? fun c => c.id == cb.id with
  | none => rfl
  | some c =>
    have hp := List.find?_some h
    exact beq_iff_eq.mp hp

theorem stored_owner (b : BlockwiseState) :
    (stored cfg message b).id = b.id ∧ (stored cfg message b).clientCb = b.clientCb := by
  have hk : (storing cfg message b).2.id = b.id ∧ (storing cfg message b).2.clientCb = b.clientCb := by
    unfold storing ocBlockwiseHandleBlock
    dsimp only
    repeat' split
    all_goals exact ⟨rfl, rfl⟩
  unfold stored
  generalize storing cfg message b = r at hk ⊢
  rcases r with ⟨_ | _, b'⟩
  · exact ⟨rfl, rfl⟩
  · exact hk

/-- a buffer that the handler leaves -/
theorem handled_requests (b : BlockwiseState) (cb : ClientCb) (s : State) {x : BlockwiseState}
    (hx : x ∈ s.requests) (hf : x.id ∉ freedByHandler handler message b cb) :
    ∃ x' ∈ (handled handler message b cb s).requests, x'.id = x.id ∧ x'.clientCb = x.clientCb := by
  unfold handled
  unfold freedByHandler at hf
  split
  · rename_i hc
    exact handler.requests s x hx (by rwa [if_pos hc] at hf)
  · exact ⟨x, hx, rfl, rfl⟩

theorem handled_responses (b : BlockwiseState) (cb : ClientCb) (s : State) {x : BlockwiseState}
    (hx : x ∈ s.responses) (hf : x.id ∉ freedByHandler handler message b cb) :
    ∃ x' ∈ (handled handler message b cb s).responses, x'.id = x.id ∧ x'.clientCb = x.clientCb := by
  unfold handled
  unfold freedByHandler at hf
  split
  · rename_i hc
    exact handler.responses s x hx (by rwa [if_pos hc] at hf)
  · exact ⟨x, hx, rfl, rfl⟩

theorem handled_clientCbs (b : BlockwiseState) (cb : ClientCb) (s : State) :
    (handled handler message b cb s).clientCbs = callbacksLeft handler message b cb s.clientCbs := by
  unfold handled callbacksLeft
  split
  · exact handler.clientCbs s
  · rfl

/-- the duplicate is another callback -/
theorem freedCbs_kept {b : BlockwiseState} {cb : ClientCb} {cbs : List ClientCb} (hs : ¬ Stops env b cb)
    (he : ¬ Ends message b cb) : cb.id ∉ freedCbs env endpoint message b cb cbs := by
  unfold freedCbs
  rw [if_neg hs, if_neg he]
  split
  · intro h
    obtain ⟨d, hd, hid⟩ := Option.map_eq_some_iff.mp (Option.mem_toList.mp h)
    have hp := List.find?_some hd
    simp [hid] at hp
  · exact List.not_mem_nil

/-- behind `oc_ri_invoke_client_cb` -/
theorem invokeHandler_live {l : Locals} {b : BlockwiseState} {cb : ClientCb} (hreq : l.RequestOn)
    (hl : l.responseBuffer = some b) (hb : b ∈ l.state.responses) (hcb : b.clientCb = some cb.id)
    (hleft : ∀ x, l.requestBuffer = some x → x.id ∉ freedByHandler handler message b cb ∧
      ∀ id ∈ freedCbs env endpoint message b
        (currentCb cb (callbacksLeft handler message b cb l.state.clientCbs))
        (callbacksLeft handler message b cb l.state.clientCbs), x.clientCb ≠ some id)
    (hkept : ¬ Stops env b (currentCb cb (callbacksLeft handler message b cb l.state.clientCbs)) →
      ¬ Ends message b (currentCb cb (callbacksLeft handler message b cb l.state.clientCbs)) →
      b.id ∉ freedByHandler handler message b cb) :
    ∀ a ∈ (invokeHandler env handler endpoint message b cb l).ifRequest ++
      (invokeHandler env handler endpoint message b cb l).ifResponse, a.Live := by
  have hcbs := handled_clientCbs handler message b cb l.state
  have hid := currentCb_id cb (callbacksLeft handler message b cb l.state.clientCbs)
  have hsp := spares_invokeClientCb env endpoint message b
    (currentCb cb (callbacksLeft handler message b cb l.state.clientCbs))
    (handled handler message b cb l.state)
  rw [hcbs] at hsp
  unfold invokeHandler invokeClientCb
  dsimp only
  rw [hcbs]
  generalize currentCb cb (callbacksLeft handler message b cb l.state.clientCbs) = c at *
  intro a ha
  rcases List.mem_append.mp ha with ha | ha
  · unfold Locals.ifRequest at ha
    split at ha
    · exact absurd ha List.not_mem_nil
    · rename_i x hx
      rw [List.mem_singleton.mp ha]
      obtain ⟨h1, h2⟩ := hleft x hx
      obtain ⟨x', hx', e1, e2⟩ := handled_requests handler message b cb l.state (hreq x hx) h1
      have hin := hsp.1.requests x' hx' fun id hm => e2 ▸ h2 id hm
      exact ⟨x, rfl, e1 ▸ List.mem_map_of_mem hin⟩
  · unfold Locals.ifResponse at ha
    split at ha
    · exact absurd ha List.not_mem_nil
    · rename_i x hx
      rw [List.mem_singleton.mp ha]
      dsimp only at hx
      split at hx
      · rename_i hk
        obtain ⟨hs, he⟩ := hsp.2.mp hk
        obtain rfl := Option.some.inj (hl.symm.trans hx)
        obtain ⟨x', hx', e1, e2⟩ := handled_responses handler message b cb l.state hb (hkept hs he)
        have hin := hsp.1.responses x' hx' fun id hm => by
          rw [e2, hcb, ← hid]
          rintro h
          exact freedCbs_kept env endpoint message hs he (Option.some.inj h ▸ hm)
        exact ⟨b, rfl, e1 ▸ List.mem_map_of_mem hin⟩
      · exact absurd hx (by simp)

/-- which response buffer there is depends on the list and the next address -/
theorem responseAt_congr (clientCb : Option ClientCb) {s s' : State} (hr : s'.responses = s.responses)
    (hf : s'.fresh = s.fresh) :
    responseAt env endpoint message clientCb s' = responseAt env endpoint message clientCb s := by
  unfold responseAt ocBlockwiseAllocResponseBuffer
  rw [hr, hf]
  repeat' split
  all_goals rfl

/-- what is on the list of accesses and behind it -/
theorem live_append {as bs : List Access} (ha : ∀ a ∈ as, a.Live) (hb : ∀ a ∈ bs, a.Live) :
    ∀ a ∈ as ++ bs, a.Live :=
  fun a h => (List.mem_append.mp h).elim (ha a) (hb a)

theorem live_singleton {a : Access} (h : a.Live) : ∀ x ∈ [a], x.Live :=
  fun _ hx => List.mem_singleton.mp hx ▸ h

/-- **The client side of `coap_receive`**, undisturbed, uses live buffers only. -/
theorem exchange_live (responseMid : UInt16) (clientCb : Option ClientCb) (l : Locals)
    (h : Undisturbed cfg env handler endpoint message clientCb l.state) :
    ∀ a ∈ (exchangeCourse cfg env handler endpoint message responseMid clientCb l).accesses, a.Live := by
  have h0 : (l.pointRequest (clientBuffer endpoint message l.state.requests clientCb)).RequestOn :=
    fun b hb => (clientBuffer_some endpoint message hb).1
  unfold exchangeCourse
  dsimp only
  rcases clientRequest_cases cfg env endpoint message responseMid clientCb l with
    ⟨_, l1, hon, hne, e⟩ | ⟨hup, l1, e, hl⟩
  · have hlive := live_append h0.ifRequest (live_singleton (hon.live hne))
    rcases e with e | e
    · rw [e]
      exact hlive
    · rw [e]
      exact hlive
  · rw [e]
    dsimp only
    have ha1 := live_append h0.ifRequest hl.requestOn.ifRequest
    have hresponse := h.response hup
    have hspared := h.spared hup
    have hbeside := freeUnreferenced_beside l1
    obtain ⟨hq2, hr2, hc2, hb2, hon2⟩ := clientResponseBuffer_cases env endpoint message
      (exchangeCb endpoint message clientCb l.state) (freeUnreferenced l1)
    rw [responseAt_congr env endpoint message _ (hbeside.responses.trans hl.beside.responses)
      (hbeside.fresh.trans hl.beside.fresh)] at hb2
    have hc2 := hc2.trans (hbeside.clientCbs.trans hl.beside.clientCbs)
    have hreq2 : (clientResponseBuffer env endpoint message (freeUnreferenced l1)
        (exchangeCb endpoint message clientCb l.state)).RequestOn := by
      intro x hx
      rw [hr2]
      exact hl.requestOn.freeUnreferenced x (hq2 ▸ hx)
    have hleft : ∀ x, (clientResponseBuffer env endpoint message (freeUnreferenced l1)
        (exchangeCb endpoint message clientCb l.state)).requestBuffer = some x → ∃ rb,
        requestLeft cfg endpoint message clientCb l.state = some rb ∧ rb.id = x.id ∧
          rb.clientCb = x.clientCb :=
      fun x hx => hl.left x (hq2 ▸ hx)
    generalize exchangeCb endpoint message clientCb l.state = cb1 at *
    generalize clientResponseBuffer env endpoint message (freeUnreferenced l1) cb1 = l2 at *
    have ha2 := live_append ha1 hon2.ifResponse
    cases hb : responseAt env endpoint message cb1 l.state with
    | none =>
      -- without a response buffer
      have hn : clientResponse cfg env endpoint message responseMid (coapGetHeaderBlock2 message) l2 cb1
          = .next l2 cb1 := by
        unfold clientResponse
        rw [hb2, hb]
      rw [hn]
      cases cb1 with
      | none => exact live_append (live_append ha2 hreq2.ifRequest) hon2.ifResponse
      | some cb => exact absurd hb (hresponse cb rfl)
    | some b =>
      rw [hb] at hb2
      rcases clientResponse_cases cfg env endpoint message responseMid cb1 l2 hb2 (hon2 b hb2) with
        ⟨_, l3, hon3, hne3, e3⟩ | ⟨hf, l3, e3, hq3, hr3, hc3, hb3, hon3⟩
      · have hlive := live_append ha2 (live_singleton (hon3.live hne3))
        rcases e3 with e3 | e3
        · rw [e3]
          exact hlive
        · rw [e3]
          exact hlive
      · rw [e3]
        have hreq3 : l3.RequestOn := fun x hx => hr3 ▸ hreq2 x (hq3 ▸ hx)
        have hfind : bufferClientCb l2.state b = bufferClientCb l.state b := by
          unfold bufferClientCb
          rw [hc2]
        rw [hfind]
        dsimp only
        rw [hb3]
        cases hcb : bufferClientCb l.state b with
        | none => exact live_append (live_append ha2 hreq3.ifRequest) hon3.ifResponse
        | some cb =>
          have hsp := hspared b cb hb hcb hf
          have hb3' := hon3 _ hb3
          dsimp only
          rw [List.append_assoc]
          refine live_append (live_append ha2 (live_singleton ⟨_, rfl, List.mem_map_of_mem hb3'⟩)) ?_
          refine invokeHandler_live env handler endpoint message hreq3 hb3 hb3' ?_ ?_ ?_
          · rw [(stored_owner cfg message b).2]
            exact bufferClientCb_some hcb
          · intro x hx
            obtain ⟨rb, h1, h2, h3⟩ := hleft x (hq3 ▸ hx)
            rw [hc3, hc2, ← h2, ← h3]
            exact hsp.1 rb h1
          · rw [hc3, hc2]
            exact hsp.2

/-! ## messages -/

/-- the callback with the token of a response -/
def tokenCb (s : State) : Option ClientCb :=
  if message.type ≠ .rst then ocRiFindClientCbByToken s message.token else none

/-- subscriptions that a reset cancels -/
def cancelled (s : State) : State := if message.type = .rst then dropObservers env.gone s else s

/-- `receiveResponse`, with the handler -/
def responseCourse (s : State) (events : List Event) : Course :=
  let (responseMid, s) := coapGetMid s
  let clientCb := tokenCb message s
  let events :=
    if message.type = .con then events ++ emptyAck env message.mid endpoint else events
  exchangeCourse cfg env handler endpoint message responseMid clientCb
    (requestLocals (coapUdpInitMessage .con 0 0) none (cancelled env message s) events)

/-- `coap_receive` with a handler: the state and the events, and the uses of the buffers by the client
side -/
def receiveWith (msg : OcMessage) (s : State) : (State × List Event) × List Access :=
  match msg.parse cfg with
  | .error _ => ((s.withBuffers ocBlockwiseScrubBuffers, []), [])
  | .ok message =>
    let events :=
      if coapCheckSignalMessage message then handleCoapSignalMessage cfg env message msg.endpoint
      else []
    let s := cancelTransaction msg.endpoint message s
    if coapGet ≤ message.code ∧ message.code ≤ coapDelete then
      (receiveRequest cfg env msg.endpoint message s events, [])
    else
      let c := responseCourse cfg env handler msg.endpoint message s events
      (c.finish env msg.endpoint message, c.accesses)

/-- a callback that is looked up by its buffer is the one on the list -/
theorem currentCb_eq {s : State} {b : BlockwiseState} {cb : ClientCb}
    (h : bufferClientCb s b = some cb) : currentCb cb s.clientCbs = cb := by
  obtain ⟨id, hid, hf⟩ := Option.bind_eq_some_iff.mp h
  have hp := List.find?_some hf
  unfold currentCb
  rw [beq_iff_eq.mp hp, hf]
  rfl

/-- a handler that does nothing to the engine -/
theorem invokeHandler_idle (parsed : Bool) (b : BlockwiseState) {cb : ClientCb} {l : Locals}
    (h : currentCb cb l.state.clientCbs = cb) :
    invokeHandler env (idleHandler parsed) endpoint message b cb l
      = invokeClientCb env endpoint message b cb l := by
  have hs : handled (idleHandler parsed) message b cb l.state = l.state := by
    unfold handled
    split <;> rfl
  unfold invokeHandler
  rw [hs]
  dsimp only
  rw [h]

/-- the callback of the response buffer goes to `oc_ri_invoke_client_cb` -/
theorem clientResponse_invokes (responseMid : UInt16) {clientCb : Option ClientCb} {cb : ClientCb}
    {l l' : Locals} {b : BlockwiseState} (hon : l.ResponseOn) (hb : l'.responseBuffer = some b)
    (h : clientResponse cfg env endpoint message responseMid (coapGetHeaderBlock2 message) l clientCb
      = .next l' (some cb)) :
    ∃ b0, l.responseBuffer = some b0 ∧ bufferClientCb l.state b0 = some cb ∧
      l'.state.clientCbs = l.state.clientCbs := by
  cases hl : l.responseBuffer with
  | none =>
    unfold clientResponse at h
    rw [hl] at h
    obtain ⟨rfl, _⟩ := Flow.next.inj h
    exact absurd (hl.symm.trans hb) (by simp)
  | some b0 =>
    rcases clientResponse_cases cfg env endpoint message responseMid clientCb l hl (hon b0 hl) with
      ⟨_, l1, _, _, e⟩ | ⟨_, l1, e, _, _, hc, _, _⟩
    · rcases e with e | e
      · exact absurd (e.symm.trans h) (by simp)
      · exact absurd (e.symm.trans h) (by simp)
    · obtain ⟨rfl, h2⟩ := Flow.next.inj (e.symm.trans h)
      exact ⟨b0, rfl, h2, hc⟩

/-- **The course is that of `clientExchange`**, if the handler does nothing to the engine. -/
theorem exchangeCourse_idle (parsed : Bool) (responseMid : UInt16) (clientCb : Option ClientCb)
    (l : Locals) :
    (exchangeCourse cfg env (idleHandler parsed) endpoint message responseMid clientCb l).finish env endpoint
      message = clientExchange cfg env endpoint message responseMid clientCb l := by
  unfold exchangeCourse clientExchange
  dsimp only
  cases clientRequest cfg env endpoint message responseMid (coapGetHeaderBlock1 message) l clientCb with
  | fault l1 => rfl
  | jump l1 label => rfl
  | next l1 cb1 =>
    dsimp only
    obtain ⟨_, _, _, _, hon⟩ := clientResponseBuffer_cases env endpoint message cb1 (freeUnreferenced l1)
    generalize clientResponseBuffer env endpoint message (freeUnreferenced l1) cb1 = l2 at hon ⊢
    have hcb : ∀ l3 cb,
        clientResponse cfg env endpoint message responseMid (coapGetHeaderBlock2 message) l2 cb1
          = .next l3 (some cb) → l3.responseBuffer ≠ none → currentCb cb l3.state.clientCbs = cb := by
      intro l3 cb h hne
      obtain ⟨b3, hb3⟩ := Option.ne_none_iff_exists'.mp hne
      obtain ⟨b, _, hcb, hc⟩ := clientResponse_invokes cfg env endpoint message responseMid hon hb3 h
      rw [hc]
      exact currentCb_eq hcb
    cases he : clientResponse cfg env endpoint message responseMid (coapGetHeaderBlock2 message) l2 cb1 with
    | fault l3 => rfl
    | jump l3 label => rfl
    | next l3 cb3 =>
      cases cb3 with
      | none => rfl
      | some cb =>
        dsimp only
        cases hb : l3.responseBuffer with
        | none => rfl
        | some b =>
          dsimp only
          rw [invokeHandler_idle env endpoint message parsed b (hcb l3 cb he (by simp [hb]))]
          rfl

/-- **`coap_receive`** with a handler that does nothing to the engine -/
theorem receiveWith_idle (parsed : Bool) (msg : OcMessage) (s : State) :
    (receiveWith cfg env (idleHandler parsed) msg s).1 = coapReceive cfg env msg s := by
  unfold receiveWith coapReceive
  cases msg.parse cfg with
  | error e => rfl
  | ok m =>
    dsimp only
    unfold receiveMessage
    dsimp only
    split
    · rfl
    · unfold responseCourse receiveResponse tokenCb cancelled
      exact exchangeCourse_idle cfg env msg.endpoint m parsed _ _ _

/-! ## runs -/

/-- a message, with the handler that it meets if it is a response; or anything else that is done to the
engine: requests, timers, other modules -/
inductive ClientStep where
  | receive (env : Env) (handler : Handler) (msg : OcMessage)
  | other (f : State → State)

/-- the state afterwards, and the uses of the buffers -/
def clientStep (cfg : Config) : ClientStep → State → State × List Access
  | .receive env handler msg, s =>
    let r := receiveWith cfg env handler msg s
    (r.1.1, r.2)
  | .other f, s => (f s, [])

/-- a response comes undisturbed, in the state with the subscriptions that it cancels cancelled -/
def ClientStep.Undisturbed (cfg : Config) (s : State) : ClientStep → Prop
  | .receive env handler msg => ∀ message, msg.parse cfg = .ok message → ¬ message.IsRequest →
      Coap.Undisturbed cfg env handler msg.endpoint message (tokenCb message s) (cancelled env message s)
  | .other _ => True

/-- from any state the engine has come to `s` with these uses of its buffers, and every step on the way has
met the condition `C` -/
inductive ClientRun (cfg : Config) (C : State → ClientStep → Prop) : State → List Access → Prop where
  | init (s : State) : ClientRun cfg C s []
  | step {s : State} {as : List Access} (st : ClientStep) (h : ClientRun cfg C s as) (hc : C s st) :
      ClientRun cfg C (clientStep cfg st s).1 (as ++ (clientStep cfg st s).2)

/-- transactions, message ids and history have no part in it -/
theorem Undisturbed.congr {clientCb : Option ClientCb} {s s' : State}
    (h : Undisturbed cfg env handler endpoint message clientCb s) (hb : s'.toBuffers = s.toBuffers)
    (hc : s'.clientCbs = s.clientCbs) : Undisturbed cfg env handler endpoint message clientCb s' := by
  obtain ⟨b, _, c, _, _, _⟩ := s
  obtain ⟨b', _, c', _, _, _⟩ := s'
  obtain rfl : b' = b := hb
  obtain rfl : c' = c := hc
  exact ⟨h.response, h.spared⟩

theorem cancelTransaction_clientCbs (s : State) :
    (cancelTransaction endpoint message s).clientCbs = s.clientCbs := by
  rcases cancelTransaction_cases endpoint message s with e | ⟨t, _, _, e⟩
  · rw [e]
  · rw [e]
    rfl

theorem receive_live (msg : OcMessage) (s : State)
    (h : (ClientStep.receive env handler msg).Undisturbed cfg s) :
    ∀ a ∈ (receiveWith cfg env handler msg s).2, a.Live := by
  have hnil : ∀ a ∈ ([] : List Access), a.Live := fun a ha => absurd ha List.not_mem_nil
  unfold receiveWith
  cases hp : msg.parse cfg with
  | error e => exact hnil
  | ok m =>
    dsimp only
    split
    · exact hnil
    · rename_i hm
      have hu := h m hp hm
      have hb := cancelTransaction_buffers msg.endpoint m s
      have hc := cancelTransaction_clientCbs msg.endpoint m s
      generalize cancelTransaction msg.endpoint m s = s1 at hb hc
      have ht : tokenCb m (coapGetMid s1).2 = tokenCb m s := by
        unfold tokenCb ocRiFindClientCbByToken
        show (if _ then s1.clientCbs.find? _ else none) = _
        rw [hc]
      refine exchange_live cfg env handler msg.endpoint m _ _ _ ?_
      show Coap.Undisturbed cfg env handler msg.endpoint m (tokenCb m (coapGetMid s1).2)
        (cancelled env m (coapGetMid s1).2)
      rw [ht]
      refine hu.congr cfg env handler msg.endpoint m ?_ ?_
      · unfold cancelled
        split
        · show (dropObservers env.gone s1).toBuffers = _
          unfold dropObservers
          rw [hb]
        · exact hb
      · unfold cancelled
        split
        · exact hc
        · exact hc

/-- with room for it there is a response buffer -/
theorem responseAt_room {cb : ClientCb} (hg : env.responseAlloc.granted = true) (hu : cb.uri.drop 1 ≠ [])
    (s : State) : responseAt env endpoint message (some cb) s ≠ none := by
  unfold responseAt
  cases clientBuffer endpoint message s.responses (some cb) with
  | some b => exact Option.some_ne_none b
  | none =>
    unfold ocBlockwiseAllocResponseBuffer ocBlockwiseInitBuffer
    dsimp only
    rw [if_neg hu, if_pos hg]
    exact Option.some_ne_none _

/-- no request buffer, and a response buffer that can be had -/
theorem undisturbed_idle {parsed : Bool} {clientCb : Option ClientCb} {s : State} (hq : s.requests = [])
    (hr : ∀ cb, clientCb = some cb → responseAt env endpoint message (some cb) s ≠ none) :
    Undisturbed cfg env (idleHandler parsed) endpoint message clientCb s := by
  have hnone : clientBuffer endpoint message s.requests clientCb = none := by
    rw [hq]
    cases clientCb <;> rfl
  have hfreed : ∀ b cb, freedByHandler (idleHandler parsed) message b cb = [] := by
    intro b cb
    unfold freedByHandler
    split <;> rfl
  refine ⟨fun _ cb hcb => hr cb ?_, fun _ b cb _ _ _ => ⟨fun rb hrb => absurd hrb ?_, fun _ _ => ?_⟩⟩
  · unfold exchangeCb at hcb
    rwa [hnone] at hcb
  · unfold requestLeft
    rw [hnone]
    simp
  · rw [hfreed]
    exact List.not_mem_nil

end

/-- **Buffers are live when they are used**, in every run whose responses come undisturbed. -/
theorem accesses_live (cfg : Config) {s : State} {as : List Access}
    (h : ClientRun cfg (fun s st => st.Undisturbed cfg s) s as) : ∀ a ∈ as, a.Live := by
  induction h with
  | init s => exact fun a ha => absurd ha List.not_mem_nil
  | step st _ hc ih =>
    refine live_append ih ?_
    cases st with
    | receive env handler msg => exact receive_live cfg env handler msg _ hc
    | other f => exact fun a ha => absurd ha List.not_mem_nil

/-! ## sample inputs -/

theorem smallBlocks_pow : ∃ k, 4 ≤ k ∧ k ≤ 11 ∧ 16 = 2^k := ⟨4, by decide, by decide, rfl⟩

/-- blocks of 16 bytes -/
def smallBlocks : Config := ⟨16, 8192, smallBlocks_pow⟩

/-- a request has been sent: a `GET`, or a `PUT` of 17 bytes -/
def afterRequest (k : ClientSequence) : State :=
  (k.run smallBlocks { sampleCall true true with encoded := List.replicate 17 0 } sampleSession).2.1.engine

/-- the acknowledgement with the response -/
def sampleReply (code : UInt8) : OcMessage :=
  sampleMessage 5683 [0x68, code, 0, 1, 0, 0, 0, 0, 0, 0, 0, 0, 0xFF, 0xA0]

/-- there is room for a response buffer, or there is none -/
def replyEnv (room : Bool) : Env :=
  { sampleEnv [] length_nil_lt with responseAlloc := ⟨room, fun _ => 0⟩ }

theorem accesses_live_get :
    (ClientStep.receive (replyEnv true) (idleHandler true) (sampleReply content205)).Undisturbed
      smallBlocks (afterRequest .get) ∧
    ∀ a ∈ (clientStep smallBlocks
      (.receive (replyEnv true) (idleHandler true) (sampleReply content205)) (afterRequest .get)).2,
      a.Live := by
  have hc : (ClientStep.receive (replyEnv true) (idleHandler true) (sampleReply content205)).Undisturbed
      smallBlocks (afterRequest .get) := by
    intro m _ _
    refine undisturbed_idle _ _ _ _ ?_ fun cb hcb => responseAt_room _ _ _ rfl ?_ _
    · unfold cancelled
      split <;> rfl
    · have huri : ∀ cb ∈ (afterRequest .get).clientCbs, cb.uri.drop 1 ≠ [] := by decide
      unfold tokenCb at hcb
      split at hcb
      · exact huri cb (List.mem_of_find?_eq_some hcb)
      · exact absurd hcb (by simp)
  exact ⟨hc, accesses_live smallBlocks (.step _ (.init (afterRequest .get)) hc)⟩

/-- without room for a response buffer a NULL pointer is read; and a `PUT` that is refused in mid-transfer
has its request buffer freed with its callback, and `ref_count` is written behind it -/
theorem dead_buffers_used :
    (¬ ∀ a ∈ (clientStep smallBlocks
      (.receive (replyEnv false) (idleHandler true) (sampleReply content205)) (afterRequest .get)).2, a.Live) ∧
    ¬ ∀ a ∈ (clientStep smallBlocks
      (.receive (replyEnv true) (idleHandler true) (sampleReply badRequest400)) (afterRequest .put)).2,
      a.Live := by
  decide

end Coap
