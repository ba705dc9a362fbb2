import Iotivity.Engine.Receive

/-!
# What the stages of `coap_receive` leave alone

Most of `coap_receive` does not touch what a given property is about.  Here this is said once for
every stage.

* `State.WF`      addresses are distinct and below the counter;
* `Locals.Sound`  moreover the local copies of buffers are up to date;
* `Stage l l'`    from `l` to `l'` only buffers change: transactions stay as they are, addresses are
                  only drawn, and `Sound` is kept;
* `QuietRequests`, `QuietResponses`   a server's uploads, resp. its representations, are those that
                  were there before; some may be gone.
-/

namespace Coap
open Memory Keyed

/-! ## definitions -/

structure State.WF (s : State) : Prop where
  requests : Distinct BlockwiseState.id s.fresh s.requests
  responses : Distinct BlockwiseState.id s.fresh s.responses
  transactions : Distinct Transaction.id s.fresh s.transactions

structure Locals.Sound (l : Locals) : Prop where
  wf : l.state.WF
  request : ∀ b, l.requestBuffer = some b → Coherent BlockwiseState.id b l.state.requests
  response : ∀ b, l.responseBuffer = some b → Coherent BlockwiseState.id b l.state.responses

structure Stage (l l' : Locals) : Prop where
  transactions : l'.state.transactions = l.state.transactions
  transaction : l'.transaction = l.transaction
  fresh : l.state.fresh ≤ l'.state.fresh
  sound : l.Sound → l'.Sound

/-- the same exchange -/
structure SameKey (b b' : BlockwiseState) : Prop where
  id : b'.id = b.id
  href : b'.href = b.href
  endpoint : b'.endpoint = b.endpoint
  method : b'.method = b.method
  role : b'.role = b.role
  uriQuery : b'.uriQuery = b.uriQuery

/-- the same exchange, and on a server the same bytes received -/
structure SameUpload (b b' : BlockwiseState) : Prop where
  key : SameKey b b'
  content : b.role = .server → b'.nextBlockOffset = b.nextBlockOffset ∧ b'.buffer = b.buffer

/-- the same exchange, and on a server the same representation -/
structure SameRep (b b' : BlockwiseState) : Prop where
  key : SameKey b b'
  content : b.role = .server →
    b'.payloadSize = b.payloadSize ∧ b'.buffer = b.buffer ∧ b'.etag = b.etag

def QuietRequests (s s' : State) : Prop :=
  Descends (fun b => b.role = .client) SameUpload s.requests s'.requests

def QuietResponses (s s' : State) : Prop :=
  Descends (fun b => b.role = .client) SameRep s.responses s'.responses

variable {cfg : Config} {env : Env} {endpoint : Endpoint} {message : Message} {s s' s'' : State}
  {l l' l'' : Locals} {b b' b'' : BlockwiseState}

/-! ## the relations compose -/

theorem SameKey.refl (b : BlockwiseState) : SameKey b b := ⟨rfl, rfl, rfl, rfl, rfl, rfl⟩

theorem SameKey.trans (h : SameKey b b') (h' : SameKey b' b'') : SameKey b b'' :=
  ⟨h'.id.trans h.id, h'.href.trans h.href, h'.endpoint.trans h.endpoint, h'.method.trans h.method,
    h'.role.trans h.role, h'.uriQuery.trans h.uriQuery⟩

theorem SameUpload.refl (b : BlockwiseState) : SameUpload b b := ⟨SameKey.refl b, fun _ => ⟨rfl, rfl⟩⟩

theorem SameUpload.trans (h : SameUpload b b') (h' : SameUpload b' b'') : SameUpload b b'' := by
  refine ⟨h.key.trans h'.key, fun hr => ?_⟩
  obtain ⟨h1, h2⟩ := h.content hr
  obtain ⟨h3, h4⟩ := h'.content (h.key.role.trans hr)
  exact ⟨h3.trans h1, h4.trans h2⟩

theorem SameRep.refl (b : BlockwiseState) : SameRep b b := ⟨SameKey.refl b, fun _ => ⟨rfl, rfl, rfl⟩⟩

theorem SameRep.trans (h : SameRep b b') (h' : SameRep b' b'') : SameRep b b'' := by
  refine ⟨h.key.trans h'.key, fun hr => ?_⟩
  obtain ⟨h1, h2, h3⟩ := h.content hr
  obtain ⟨h4, h5, h6⟩ := h'.content (h.key.role.trans hr)
  exact ⟨h4.trans h1, h5.trans h2, h6.trans h3⟩

theorem QuietRequests.refl (s : State) : QuietRequests s s := Descends.refl SameUpload.refl _

theorem QuietRequests.trans (h : QuietRequests s s') (h' : QuietRequests s' s'') :
    QuietRequests s s'' := by
  refine Descends.trans ?_ ?_ h h'
  · intro x y hq hr
    exact hr.key.role.trans hq
  · intro x y z hxy hyz
    exact hxy.trans hyz

theorem QuietResponses.refl (s : State) : QuietResponses s s := Descends.refl SameRep.refl _

theorem QuietResponses.trans (h : QuietResponses s s') (h' : QuietResponses s' s'') :
    QuietResponses s s'' := by
  refine Descends.trans ?_ ?_ h h'
  · intro x y hq hr
    exact hr.key.role.trans hq
  · intro x y z hxy hyz
    exact hxy.trans hyz

theorem Stage.refl (l : Locals) : Stage l l := ⟨rfl, rfl, le_refl _, fun h => h⟩

theorem Stage.trans (h : Stage l l') (h' : Stage l' l'') : Stage l l'' :=
  ⟨h'.transactions.trans h.transactions, h'.transaction.trans h.transaction,
    h.fresh.trans h'.fresh, fun hs => h'.sound (h.sound hs)⟩

/-! ## freeing -/

/-- buffers are taken off the lists, nothing else -/
structure Shrinks (s s' : State) : Prop where
  transactions : s'.transactions = s.transactions
  fresh : s'.fresh = s.fresh
  requests : ∃ p, s'.requests = s.requests.filter p
  responses : ∃ p, s'.responses = s.responses.filter p

theorem Shrinks.refl (s : State) : Shrinks s s :=
  ⟨rfl, rfl, ⟨fun _ => true, (List.filter_true _).symm⟩, ⟨fun _ => true, (List.filter_true _).symm⟩⟩

theorem Shrinks.trans (h : Shrinks s s') (h' : Shrinks s' s'') : Shrinks s s'' := by
  obtain ⟨p, hp⟩ := h.requests
  obtain ⟨q, hq⟩ := h.responses
  obtain ⟨p', hp'⟩ := h'.requests
  obtain ⟨q', hq'⟩ := h'.responses
  refine ⟨h'.transactions.trans h.transactions, h'.fresh.trans h.fresh, ?_, ?_⟩
  · exact ⟨_, by rw [hp', hp, List.filter_filter]⟩
  · exact ⟨_, by rw [hq', hq, List.filter_filter]⟩

theorem Shrinks.wf (h : Shrinks s s') (hs : s.WF) : s'.WF := by
  obtain ⟨ht, hf, ⟨p, hp⟩, q, hq⟩ := h
  refine ⟨?_, ?_, ?_⟩
  · rw [hp, hf]; exact hs.requests.filter p
  · rw [hq, hf]; exact hs.responses.filter q
  · rw [ht, hf]; exact hs.transactions

theorem Shrinks.mem_requests (h : Shrinks s s') (hb : b ∈ s'.requests) : b ∈ s.requests := by
  obtain ⟨p, hp⟩ := h.requests
  rw [hp] at hb
  exact List.mem_of_mem_filter hb

theorem Shrinks.mem_responses (h : Shrinks s s') (hb : b ∈ s'.responses) : b ∈ s.responses := by
  obtain ⟨p, hp⟩ := h.responses
  rw [hp] at hb
  exact List.mem_of_mem_filter hb

theorem Shrinks.quietRequests (h : Shrinks s s') : QuietRequests s s' :=
  Descends.of_subset SameUpload.refl fun _ => h.mem_requests

theorem Shrinks.quietResponses (h : Shrinks s s') : QuietResponses s s' :=
  Descends.of_subset SameRep.refl fun _ => h.mem_responses

/-- freeing behind the back of the local copies, or with the copies dropped -/
theorem Shrinks.stage (h : Shrinks l.state l'.state) (ht : l'.transaction = l.transaction)
    (hq : l'.requestBuffer = l.requestBuffer ∨ l'.requestBuffer = none)
    (hr : l'.responseBuffer = l.responseBuffer ∨ l'.responseBuffer = none) : Stage l l' := by
  refine ⟨h.transactions, ht, h.fresh.ge, fun hs => ⟨h.wf hs.wf, fun b hb => ?_, fun b hb => ?_⟩⟩
  · rcases hq with hq | hq
    · exact (hs.request b (hq ▸ hb)).sub fun _ => h.mem_requests
    · rw [hq] at hb
      exact absurd hb (by simp)
  · rcases hr with hr | hr
    · exact (hs.response b (hr ▸ hb)).sub fun _ => h.mem_responses
    · rw [hr] at hb
      exact absurd hb (by simp)

theorem shrinks_scrub (s : State) : Shrinks s (s.withBuffers ocBlockwiseScrubBuffers) :=
  ⟨rfl, rfl, ⟨_, rfl⟩, ⟨_, rfl⟩⟩

theorem shrinks_freeRequest (id : Nat) (s : State) :
    Shrinks s (s.withBuffers (ocBlockwiseFreeRequestBuffer id)) :=
  ⟨rfl, rfl, ⟨_, rfl⟩, ⟨fun _ => true, (List.filter_true _).symm⟩⟩

theorem shrinks_freeResponse (id : Nat) (s : State) :
    Shrinks s (s.withBuffers (ocBlockwiseFreeResponseBuffer id)) :=
  ⟨rfl, rfl, ⟨fun _ => true, (List.filter_true _).symm⟩, ⟨_, rfl⟩⟩

theorem shrinks_freeClientCb (cb : Nat) (s : State) : Shrinks s (freeClientCb cb s) :=
  ⟨rfl, rfl, ⟨_, rfl⟩, ⟨_, rfl⟩⟩

theorem shrinks_removeClientCbByMid (mid : UInt16) (s : State) :
    Shrinks s (ocRiRemoveClientCbByMid mid s) := by
  unfold ocRiRemoveClientCbByMid
  split
  · exact Shrinks.refl s
  · exact shrinks_freeClientCb _ s

theorem shrinks_foldl_freeClientCb (l : List ClientCb) (s : State) :
    Shrinks s (l.foldl (fun s cb => freeClientCb cb.id s) s) := by
  induction l generalizing s with
  | nil => exact Shrinks.refl s
  | cons cb l ih => exact (shrinks_freeClientCb cb.id s).trans (ih _)

theorem shrinks_removeClientCbsByMid (mid : UInt16) (s : State) :
    Shrinks s (removeClientCbsByMid mid s) :=
  shrinks_foldl_freeClientCb _ s

/-! ## observers -/

theorem sameRep_unref (b : BlockwiseState) (p : Bool) :
    SameRep b (if p then { b with refCount := 0 } else b) := by
  cases p
  · exact SameRep.refl b
  · exact ⟨⟨rfl, rfl, rfl, rfl, rfl, rfl⟩, fun _ => ⟨rfl, rfl, rfl⟩⟩

theorem quietResponses_dropObservers (gone : Nat → Bool) (s : State) :
    QuietResponses s (dropObservers gone s) :=
  Descends.map (fun b => sameRep_unref b (gone b.id)) s.responses

theorem dropObservers_wf (gone : Nat → Bool) (h : s.WF) : (dropObservers gone s).WF :=
  ⟨h.requests, h.responses.map fun b => (sameRep_unref b (gone b.id)).key.id, h.transactions⟩

/-! ## stores through local copies -/

theorem stage_setRequest (l : Locals) (b : BlockwiseState) : Stage l (l.setRequest b) := by
  refine ⟨rfl, rfl, le_refl _, fun hs => ⟨⟨hs.wf.requests.put b, hs.wf.responses, hs.wf.transactions⟩,
    fun x hx => ?_, hs.response⟩⟩
  obtain rfl : b = x := Option.some.inj hx
  exact coherent_put b _

theorem stage_setResponse (l : Locals) (b : BlockwiseState) : Stage l (l.setResponse b) := by
  refine ⟨rfl, rfl, le_refl _, fun hs => ⟨⟨hs.wf.requests, hs.wf.responses.put b, hs.wf.transactions⟩,
    hs.request, fun x hx => ?_⟩⟩
  obtain rfl : b = x := Option.some.inj hx
  exact coherent_put b _

theorem quietRequests_setRequest (hs : l.Sound) (hb : l.requestBuffer = some b)
    (h : SameUpload b b') : QuietRequests l.state (l.setRequest b').state :=
  Descends.put SameUpload.refl (hs.request b hb) h.key.id h

theorem quietResponses_setResponse (hs : l.Sound) (hb : l.responseBuffer = some b)
    (h : SameRep b b') : QuietResponses l.state (l.setResponse b').state :=
  Descends.put SameRep.refl (hs.response b hb) h.key.id h

theorem stage_unrefRequest (l : Locals) : Stage l l.unrefRequest := by
  unfold Locals.unrefRequest
  split
  · exact Stage.refl l
  · exact stage_setRequest l _

theorem stage_unrefResponse (l : Locals) : Stage l l.unrefResponse := by
  unfold Locals.unrefResponse
  split
  · exact Stage.refl l
  · exact stage_setResponse l _

theorem quietRequests_unrefRequest (hs : l.Sound) : QuietRequests l.state l.unrefRequest.state := by
  unfold Locals.unrefRequest
  split
  · exact QuietRequests.refl _
  · rename_i b hb
    exact quietRequests_setRequest hs hb
      ⟨⟨rfl, rfl, rfl, rfl, rfl, rfl⟩, fun _ => ⟨rfl, rfl⟩⟩

theorem quietResponses_unrefResponse (hs : l.Sound) :
    QuietResponses l.state l.unrefResponse.state := by
  unfold Locals.unrefResponse
  split
  · exact QuietResponses.refl _
  · rename_i b hb
    exact quietResponses_setResponse hs hb
      ⟨⟨rfl, rfl, rfl, rfl, rfl, rfl⟩, fun _ => ⟨rfl, rfl, rfl⟩⟩

theorem requests_unrefResponse (l : Locals) : l.unrefResponse.state.requests = l.state.requests := by
  unfold Locals.unrefResponse
  split <;> rfl

theorem responses_unrefRequest (l : Locals) : l.unrefRequest.state.responses = l.state.responses := by
  unfold Locals.unrefRequest
  split <;> rfl

/-! ## stages that set local variables only -/

theorem Stage.of_eq (hs : l'.state = l.state) (ht : l'.transaction = l.transaction)
    (hq : l'.requestBuffer = l.requestBuffer) (hr : l'.responseBuffer = l.responseBuffer) :
    Stage l l' := by
  refine ⟨by rw [hs], ht, by rw [hs], fun h => ⟨hs ▸ h.wf, fun b hb => ?_, fun b hb => ?_⟩⟩
  · rw [hs]
    exact h.request b (hq ▸ hb)
  · rw [hs]
    exact h.response b (hr ▸ hb)

theorem stage_withResponse (l : Locals) (p : Message) : Stage l (l.withResponse p) :=
  Stage.of_eq rfl rfl rfl rfl

theorem stage_withBlock (l : Locals) (p : Message) (b : BlockwiseState) : Stage l (l.withBlock p b) :=
  Stage.of_eq rfl rfl rfl rfl

theorem stage_emit (l : Locals) (e : Event) : Stage l (l.emit e) := Stage.of_eq rfl rfl rfl rfl

theorem stage_pointRequest (l : Locals) (o : Option BlockwiseState)
    (h : ∀ b, o = some b → b ∈ l.state.requests) : Stage l (l.pointRequest o) :=
  ⟨rfl, rfl, le_refl _, fun hs => ⟨hs.wf, fun b hb => hs.wf.requests.coherent (h b hb), hs.response⟩⟩

theorem stage_pointResponse (l : Locals) (o : Option BlockwiseState)
    (h : ∀ b, o = some b → b ∈ l.state.responses) : Stage l (l.pointResponse o) :=
  ⟨rfl, rfl, le_refl _, fun hs => ⟨hs.wf, hs.request, fun b hb => hs.wf.responses.coherent (h b hb)⟩⟩

theorem findServerRequest_mem (h : findServerRequest endpoint message s = some b) :
    b ∈ s.requests := List.mem_of_find?_eq_some h

theorem findServerResponse_mem (h : findServerResponse endpoint message s = some b) :
    b ∈ s.responses := List.mem_of_find?_eq_some h

theorem stage_foundRequest (h : b ∈ l.state.requests) : Stage l (l.pointRequest (some b)) := by
  refine stage_pointRequest l (some b) fun x hx => ?_
  rw [← Option.some.inj hx]
  exact h

theorem stage_foundResponse (h : b ∈ l.state.responses) : Stage l (l.pointResponse (some b)) := by
  refine stage_pointResponse l (some b) fun x hx => ?_
  rw [← Option.some.inj hx]
  exact h

theorem stage_freeRequest (l : Locals) (b : BlockwiseState) : Stage l (l.freeRequest b) :=
  (shrinks_freeRequest b.id l.state).stage rfl (Or.inr rfl) (Or.inl rfl)

theorem stage_dropObservers (l : Locals) (gone : Nat → Bool) : Stage l (l.dropObservers gone) := by
  refine ⟨rfl, rfl, le_refl _, fun hs => ⟨dropObservers_wf gone hs.wf, hs.request, fun b hb => ?_⟩⟩
  obtain ⟨x, hx, rfl⟩ := Option.map_eq_some_iff.mp hb
  intro y hy hk
  obtain ⟨z, hz, rfl⟩ := List.mem_map.mp hy
  have hz' : z.id = x.id := by
    rw [(sameRep_unref z (gone z.id)).key.id, (sameRep_unref x (gone x.id)).key.id] at hk
    exact hk
  rw [hs.response x hx z hz hz']

/-! ## allocation -/

/-- what `oc_blockwise_init_buffer` fills in -/
theorem ocBlockwiseInitBuffer_some {a : Alloc} {id : Nat} {href : List UInt8} {method : UInt8}
    {role : Role} (h : ocBlockwiseInitBuffer a id href endpoint method role = some b) :
    a.granted = true ∧ href ≠ [] ∧
      b = ⟨id, href, endpoint, method, role, 0, 0, 1, a.mem, [], 0, none, [], 0⟩ := by
  unfold ocBlockwiseInitBuffer at h
  split at h
  · exact absurd h (by simp)
  · split at h
    · exact ⟨‹_›, ‹_›, (Option.some.inj h).symm⟩
    · exact absurd h (by simp)

/-- a new request buffer at the end of the list -/
theorem sound_appendRequest (hs : l.Sound) (hb : b.id = l.state.fresh)
    (hreq : l'.state.requests = l.state.requests ++ [b]) (hfresh : l'.state.fresh = l.state.fresh + 1)
    (hresp : l'.state.responses = l.state.responses)
    (ht : l'.state.transactions = l.state.transactions) (hq : l'.requestBuffer = some b)
    (hr : l'.responseBuffer = l.responseBuffer) : l'.Sound := by
  have hd := hs.wf.requests.snoc hb
  have hle := Nat.le_succ l.state.fresh
  refine ⟨⟨?_, ?_, ?_⟩, fun x hx => ?_, fun x hx => ?_⟩
  · rw [hreq, hfresh]; exact hd
  · rw [hresp, hfresh]; exact hs.wf.responses.mono hle
  · rw [ht, hfresh]; exact hs.wf.transactions.mono hle
  · obtain rfl : b = x := Option.some.inj (hq ▸ hx)
    rw [hreq]
    exact hd.coherent (by simp)
  · rw [hresp]
    exact hs.response x (hr ▸ hx)

/-- a new response buffer at the end of the list -/
theorem sound_appendResponse (hs : l.Sound) (hb : b.id = l.state.fresh)
    (hresp : l'.state.responses = l.state.responses ++ [b])
    (hfresh : l'.state.fresh = l.state.fresh + 1) (hreq : l'.state.requests = l.state.requests)
    (ht : l'.state.transactions = l.state.transactions) (hr : l'.responseBuffer = some b)
    (hq : l'.requestBuffer = l.requestBuffer) : l'.Sound := by
  have hd := hs.wf.responses.snoc hb
  have hle := Nat.le_succ l.state.fresh
  refine ⟨⟨?_, ?_, ?_⟩, fun x hx => ?_, fun x hx => ?_⟩
  · rw [hreq, hfresh]; exact hs.wf.requests.mono hle
  · rw [hresp, hfresh]; exact hd
  · rw [ht, hfresh]; exact hs.wf.transactions.mono hle
  · rw [hreq]
    exact hs.request x (hq ▸ hx)
  · obtain rfl : b = x := Option.some.inj (hr ▸ hx)
    rw [hresp]
    exact hd.coherent (by simp)

/-- a new request buffer of a server -/
def newRequest (env : Env) (endpoint : Endpoint) (message : Message) (id : Nat) : BlockwiseState :=
  ⟨id, coapGetHeaderUriPath message, endpoint, message.code, .server, 0, 0, 1, env.requestAlloc.mem,
    [], 0, none, [], 0⟩

/-- the allocator has a request buffer, and there is a path for it -/
def CanAlloc (env : Env) (message : Message) : Prop :=
  env.requestAlloc.granted = true ∧ coapGetHeaderUriPath message ≠ []

/-- a new request buffer, or none -/
theorem allocRequest_cases (env : Env) (endpoint : Endpoint) (message : Message) (l : Locals) :
    (¬ CanAlloc env message ∧ l.allocRequest env endpoint message = l.pointRequest none) ∨
      (CanAlloc env message ∧ l.allocRequest env endpoint message =
        { l with
          state := l.state.withBuffers fun s =>
            { s with
              requests := s.requests ++ [newRequest env endpoint message s.fresh]
              fresh := s.fresh + 1 }
          requestBuffer := some (newRequest env endpoint message l.state.fresh) }) := by
  unfold Locals.allocRequest ocBlockwiseAllocRequestBuffer
  cases h : ocBlockwiseInitBuffer env.requestAlloc l.state.fresh (coapGetHeaderUriPath message)
      endpoint message.code .server with
  | none =>
    refine Or.inl ⟨fun hc => ?_, rfl⟩
    unfold ocBlockwiseInitBuffer at h
    rw [if_neg hc.2, if_pos hc.1] at h
    exact absurd h (by simp)
  | some b =>
    obtain ⟨hg, hh, rfl⟩ := ocBlockwiseInitBuffer_some h
    exact Or.inr ⟨⟨hg, hh⟩, rfl⟩

theorem stage_allocRequest (env : Env) (endpoint : Endpoint) (message : Message) (l : Locals) :
    Stage l (l.allocRequest env endpoint message) := by
  rcases allocRequest_cases env endpoint message l with ⟨_, e⟩ | ⟨_, e⟩
  · rw [e]
    exact stage_pointRequest l none fun b hb => absurd hb (by simp)
  · rw [e]
    exact ⟨rfl, rfl, Nat.le_succ _, fun hs => sound_appendRequest hs rfl rfl rfl rfl rfl rfl rfl⟩

/-- a block of `n` bytes at offset `0` fits into a buffer -/
def Storable (cfg : Config) (n : Nat) : Prop :=
  0 < cfg.maxAppDataSize % 2^32 ∧ (n : Int) ≤ toLong cfg.maxAppDataSize

/-- the part of a payload that is stored at once; its length is a `uint16_t` -/
def storedPayload (message : Message) : List UInt8 :=
  message.payload.take (incomingBlockLen message % 2^16)

theorem handleBlock_fresh (cfg : Config) (incoming : List UInt8) (hb : b.nextBlockOffset = 0) :
    (Storable cfg incoming.length ∧ ocBlockwiseHandleBlock cfg.maxAppDataSize b 0 incoming =
      (true, { b with
        buffer := write b.buffer 0 incoming
        nextBlockOffset := incoming.length % 2^32 })) ∨
      (¬ Storable cfg incoming.length ∧
        ocBlockwiseHandleBlock cfg.maxAppDataSize b 0 incoming = (false, b)) := by
  unfold ocBlockwiseHandleBlock Storable
  rw [hb]
  by_cases h : cfg.maxAppDataSize % 2^32 ≤ 0 ∨
      toLong cfg.maxAppDataSize - (0 : Nat) < incoming.length ∨ 0 < 0
  · rw [if_pos h]
    exact Or.inr ⟨by omega, rfl⟩
  · rw [if_neg h, if_pos rfl, Nat.zero_add]
    exact Or.inl ⟨by omega, rfl⟩

/-- a buffer that has taken the payload of a request -/
def filledRequest (env : Env) (endpoint : Endpoint) (message : Message) (refCount : UInt8)
    (id : Nat) : BlockwiseState :=
  { setQuery
      { newRequest env endpoint message id with
        buffer := write env.requestAlloc.mem 0 (storedPayload message)
        nextBlockOffset := (storedPayload message).length % 2^32 }
      message.uriQuery with
    payloadSize := incomingBlockLen message
    refCount := refCount }

/-- storing a payload: it goes into a new buffer, or the request is refused -/
theorem storePayload_cases (cfg : Config) (env : Env) (endpoint : Endpoint) (message : Message)
    (r : UInt8) (l : Locals) :
    (CanAlloc env message ∧ Storable cfg (storedPayload message).length ∧
      storePayload cfg env endpoint message r l =
        ((l.allocRequest env endpoint message).setRequest
          (filledRequest env endpoint message r l.state.fresh), .requestHandler)) ∨
      (¬ (CanAlloc env message ∧ Storable cfg (storedPayload message).length) ∧
        storePayload cfg env endpoint message r l =
          (l.allocRequest env endpoint message, .initResetMessage)) := by
  unfold storePayload
  rcases allocRequest_cases env endpoint message l with ⟨hn, e⟩ | ⟨hc, e⟩
  · rw [e]
    exact Or.inr ⟨fun h => hn h.1, rfl⟩
  · rw [e]
    dsimp only
    rcases handleBlock_fresh cfg (b := newRequest env endpoint message l.state.fresh)
      (storedPayload message) rfl with ⟨hs, eh⟩ | ⟨hs, eh⟩
    · unfold storedPayload at eh
      rw [eh]
      exact Or.inl ⟨hc, hs, rfl⟩
    · unfold storedPayload at eh
      rw [eh]
      exact Or.inr ⟨fun h => hs h.2, rfl⟩

/-- a new response buffer, or none -/
theorem newResponse_cases (env : Env) (href : List UInt8) (endpoint : Endpoint) (method : UInt8)
    (role : Role) (l : Locals) :
    (l.newResponse env href endpoint method role = l.pointResponse none ∧
        (env.responseAlloc.granted = false ∨ href = [])) ∨
      ∃ b : BlockwiseState, env.responseAlloc.granted = true ∧ href ≠ [] ∧
        b = (BlockwiseState.mk l.state.fresh href endpoint method role 0 0 1 env.responseAlloc.mem []
          0 none [] 0).asResponse env.etag ∧
        l.newResponse env href endpoint method role =
          { l with
            state := l.state.withBuffers fun s =>
              { s with responses := s.responses ++ [b], fresh := s.fresh + 1 }
            responseBuffer := some b } := by
  unfold Locals.newResponse ocBlockwiseAllocResponseBuffer
  cases h : ocBlockwiseInitBuffer env.responseAlloc l.state.fresh href endpoint method role with
  | none =>
    refine Or.inl ⟨rfl, ?_⟩
    unfold ocBlockwiseInitBuffer at h
    by_cases hh : href = []
    · exact Or.inr hh
    · rw [if_neg hh] at h
      refine Or.inl ?_
      by_contra hg
      rw [if_pos (by simpa using hg)] at h
      exact absurd h (by simp)
  | some b =>
    obtain ⟨hg, hh, rfl⟩ := ocBlockwiseInitBuffer_some h
    exact Or.inr ⟨_, hg, hh, rfl, rfl⟩

theorem stage_newResponse (env : Env) (href : List UInt8) (endpoint : Endpoint) (method : UInt8)
    (role : Role) (l : Locals) : Stage l (l.newResponse env href endpoint method role) := by
  rcases newResponse_cases env href endpoint method role l with ⟨e, _⟩ | ⟨b, _, _, hb, e⟩
  · rw [e]
    exact stage_pointResponse l none fun b hb => absurd hb (by simp)
  · have hid : b.id = l.state.fresh := by rw [hb]; rfl
    rw [e]
    exact ⟨rfl, rfl, Nat.le_succ _, fun hs => sound_appendResponse hs hid rfl rfl rfl rfl rfl rfl⟩

theorem stage_allocResponse (env : Env) (endpoint : Endpoint) (message : Message) (l : Locals) :
    Stage l (l.allocResponse env endpoint message) := by
  unfold Locals.allocResponse
  dsimp only
  refine (stage_newResponse env (coapGetHeaderUriPath message) endpoint message.code .server l).trans ?_
  split
  · exact Stage.refl _
  · exact stage_setResponse _ _

/-! ## the branches of a request -/

theorem stage_storePayload (r : UInt8) (l : Locals) :
    Stage l (storePayload cfg env endpoint message r l).1 := by
  refine (stage_allocRequest env endpoint message l).trans ?_
  unfold storePayload
  dsimp only
  split
  · exact Stage.refl _
  · split
    · exact Stage.refl _
    · exact stage_setRequest _ _

theorem stage_uploadBuffer (env : Env) (endpoint : Endpoint) (message : Message) (num : UInt32)
    (l : Locals) : Stage l (uploadBuffer env endpoint message num l) := by
  unfold uploadBuffer
  split
  · rename_i b hb
    exact stage_foundRequest (findServerRequest_mem hb)
  · split
    · refine (stage_allocRequest env endpoint message l).trans ?_
      dsimp only
      split
      · exact Stage.refl _
      · exact stage_setRequest _ _
    · exact stage_pointRequest l none fun x hx => absurd hx (by simp)

theorem stage_block1Request (p : BlockOption) (l : Locals) :
    Stage l (block1Request cfg env endpoint message p l).1 := by
  refine (stage_uploadBuffer env endpoint message p.num l).trans ?_
  unfold block1Request
  dsimp only
  generalize uploadBuffer env endpoint message p.num l = l1
  split
  · exact Stage.refl _
  · split
    · exact Stage.refl _
    · split
      · exact (stage_withResponse l1 _).trans (stage_setRequest _ _)
      · exact (stage_withResponse l1 _).trans (stage_setRequest _ _)

theorem stage_dispatchResponse (p : BlockOption) (l : Locals) (b : BlockwiseState) :
    Stage l (dispatchResponse cfg p l b).1 := by
  unfold dispatchResponse
  split
  · exact Stage.refl l
  · exact (stage_withBlock l _ _).trans (stage_setResponse _ _)

theorem stage_openTransfer (p : BlockOption) (l : Locals) :
    Stage l (openTransfer cfg env endpoint message p l).1 := by
  unfold openTransfer
  split
  · split
    · split
      · rename_i b hb
        exact stage_foundRequest (findServerRequest_mem hb)
      · exact stage_storePayload 1 l
    · exact Stage.refl l
  · exact Stage.refl l

theorem stage_block2Request (p : BlockOption) (l : Locals) :
    Stage l (block2Request cfg env endpoint message p l).1 := by
  refine (stage_withResponse l (coapSetHeaderContentFormat l.response (block2Format message))).trans ?_
  unfold block2Request
  dsimp only
  generalize l.withResponse (coapSetHeaderContentFormat l.response (block2Format message)) = l1
  split
  · rename_i b hb
    exact (stage_foundResponse (findServerResponse_mem hb)).trans (stage_dispatchResponse p _ b)
  · exact stage_openTransfer p l1

theorem stage_regularRequest (p : BlockOption) (l : Locals) :
    Stage l (regularRequest cfg env endpoint message p l).1 := by
  unfold regularRequest
  split
  · split
    · exact stage_storePayload 0 l
    · exact Stage.refl l
  · exact Stage.refl l

/-! ## the entity handler -/

section
variable (cfg env endpoint message)

theorem stage_consumePayload (l : Locals) : Stage l (consumePayload l) := by
  unfold consumePayload
  split
  · exact Stage.refl l
  · split
    · exact stage_freeRequest l _
    · exact Stage.refl l

theorem stage_reachResource (l : Locals) : Stage l (reachResource env endpoint message l) := by
  unfold reachResource
  split
  · exact (stage_consumePayload l).trans (stage_allocResponse env endpoint message _)
  · exact stage_consumePayload l

theorem stage_runHandler (payload : List UInt8) (b : BlockwiseState) (l : Locals) :
    Stage l (runHandler env endpoint message payload b l) :=
  (stage_setResponse l _).trans (stage_emit _ _)

theorem stage_observeRequest (l : Locals) : Stage l (observeRequest env message l) := by
  unfold observeRequest
  split
  · exact Stage.refl l
  · refine (stage_dropObservers l env.gone).trans ?_
    dsimp only
    split
    · exact stage_withResponse _ _
    · exact Stage.refl _

/-- `setReply` up to the response packet -/
theorem setReply_cases (code length : Nat) (l : Locals) :
    (∃ p, setReply cfg message code length l = l.withResponse p) ∨
      ∃ b p p', l.responseBuffer = some b ∧ 0 < length ∧
        setReply cfg message code length l =
          ((l.withResponse p).setResponse { b with payloadSize := length }).withResponse p' := by
  unfold setReply
  dsimp only
  split
  · exact Or.inl ⟨_, rfl⟩
  · rename_i b hb
    split
    · exact Or.inr ⟨b, _, _, hb, ‹_›, rfl⟩
    · exact Or.inl ⟨_, rfl⟩

theorem stage_setReply (code length : Nat) (l : Locals) :
    Stage l (setReply cfg message code length l) := by
  rcases setReply_cases cfg message code length l with
    ⟨p, e⟩ | ⟨b, p, p', _, _, e⟩
  · rw [e]
    exact stage_withResponse l p
  · rw [e]
    exact ((stage_withResponse l p).trans (stage_setResponse _ _)).trans (stage_withResponse _ _)

theorem stage_answer (l : Locals) : Stage l (answer cfg env endpoint message l) := by
  unfold answer
  split
  · exact Stage.of_eq rfl rfl rfl rfl
  · split
    · exact Stage.of_eq rfl rfl rfl rfl
    · exact stage_setReply cfg message _ _ l

theorem stage_entityHandler (l : Locals) :
    Stage l (ocRiInvokeCoapEntityHandler cfg env endpoint message l).2 := by
  refine (stage_reachResource env endpoint message l).trans ?_
  unfold ocRiInvokeCoapEntityHandler
  dsimp only
  split
  · rename_i b _ _
    refine (stage_runHandler env endpoint message (requestPayload l) b _).trans ?_
    exact (stage_observeRequest env message _).trans (stage_answer cfg env endpoint message _)
  · exact stage_setReply cfg message _ _ _

theorem stage_wholeResponse (l : Locals) (b : BlockwiseState) : Stage l (wholeResponse cfg l b) :=
  (stage_withBlock l _ _).trans (stage_setResponse _ _)

theorem stage_firstBlock (block2 : Option BlockOption) (l : Locals) (b : BlockwiseState) :
    Stage l (firstBlock cfg block2 l b) := by
  unfold firstBlock
  dsimp only
  split
  · exact (stage_withBlock l _ _).trans (stage_setResponse _ _)
  · exact (stage_withBlock l _ _).trans (stage_setResponse _ _)

theorem stage_requestHandler (block2 : Option BlockOption) (l : Locals) :
    Stage l (requestHandler cfg env endpoint message block2 l).1 := by
  unfold requestHandler
  dsimp only
  refine (stage_emit l (.invoked endpoint message l.requestBuffer)).trans ?_
  refine (stage_entityHandler cfg env endpoint message _).trans ?_
  split
  · split
    · exact stage_wholeResponse cfg _ _
    · exact stage_firstBlock cfg block2 _ _
  · exact (stage_unrefRequest _).trans (stage_unrefResponse _)

theorem stage_resetMessage (l : Locals) : Stage l (resetMessage endpoint message l) := by
  unfold resetMessage
  split <;> exact stage_withResponse l _

end

end Coap
