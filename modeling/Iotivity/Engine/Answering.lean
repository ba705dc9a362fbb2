import Iotivity.Engine.Asking
import Iotivity.Engine.Pointers

/-!
# What a response does to a client

A response is for one response buffer, `responseAt`.  The other buffers of the client keep what they hold, and
what is sent or called is for the callback of this buffer, or for that of the request buffer.

* `ExchangeOutcome`   follow-up requests and calls of `oc_ri_invoke_client_cb`;
* `Replies target`    from one state to another only the buffer `target` has been written;
* `clientExchange_attributed`   the client side of `coap_receive`.
-/

namespace Coap
open Memory Keyed

/-! ## follow-up requests -/

/-- a request for the next block: the buffer and the callback it is sent for, and what a response to it
carries -/
structure FollowUp where
  buffer : Nat
  cb : Nat
  mid : UInt16
  token : List UInt8

section
variable (cfg : Config) (env : Env) (endpoint : Endpoint) (message : Message)

/-- the packet at `send_message`, if it can be serialized -/
def sentFrom (l : Locals) (b : Option BlockwiseState) : List FollowUp :=
  match b with
  | none => []
  | some b =>
    match b.clientCb with
    | none => []
    | some cb =>
      let packet := setResponseToken env message l
      if serializedBytes packet = [] then [] else [⟨b.id, cb, packet.mid, packet.token⟩]

/-- what a response leads to: a follow-up request for a request buffer or for a response buffer, or a call
of `oc_ri_invoke_client_cb` -/
structure ExchangeOutcome where
  uploads : List FollowUp
  downloads : List FollowUp
  invoked : Option ClientCb

def exchangeOutcome (responseMid : UInt16) (clientCb : Option ClientCb) (l : Locals) : ExchangeOutcome :=
  match clientRequest cfg env endpoint message responseMid (coapGetHeaderBlock1 message) l clientCb with
  | .fault _ => ⟨[], [], none⟩
  | .jump l _ => ⟨sentFrom env message l l.requestBuffer, [], none⟩
  | .next l clientCb =>
    let l := clientResponseBuffer env endpoint message (freeUnreferenced l) clientCb
    match clientResponse cfg env endpoint message responseMid (coapGetHeaderBlock2 message) l clientCb with
    | .fault _ => ⟨[], [], none⟩
    | .jump l _ => ⟨[], sentFrom env message l l.responseBuffer, none⟩
    | .next l clientCb =>
      match clientCb, l.responseBuffer with
      | some cb, some _ => ⟨[], [], some cb⟩
      | _, _ => ⟨[], [], none⟩

/-- `receiveResponse` -/
def responseOutcome (s : State) (events : List Event) : ExchangeOutcome :=
  let (responseMid, s) := coapGetMid s
  let clientCb := tokenCb message s
  let events :=
    if message.type = .con then events ++ emptyAck env message.mid endpoint else events
  exchangeOutcome cfg env endpoint message responseMid clientCb
    (requestLocals (coapUdpInitMessage .con 0 0) none (cancelled env message s) events)

/-- `coapReceive` -/
def receiveOutcome (msg : OcMessage) (s : State) : ExchangeOutcome :=
  match msg.parse cfg with
  | .error _ => ⟨[], [], none⟩
  | .ok message =>
    let events :=
      if coapCheckSignalMessage message then handleCoapSignalMessage cfg env message msg.endpoint
      else []
    let s := cancelTransaction msg.endpoint message s
    if coapGet ≤ message.code ∧ message.code ≤ coapDelete then ⟨[], [], none⟩
    else responseOutcome cfg env msg.endpoint message s events

end

/-! ## what is written -/

/-- The buffer that a response is for may have changed.  Otherwise a client has what it had, or less. -/
structure Replies (target : Option BlockwiseState) (s s' : State) : Prop where
  fresh : s.fresh ≤ s'.fresh
  distinct : Distinct ClientCb.id s.fresh s.clientCbs → Distinct ClientCb.id s'.fresh s'.clientCbs
  clientCbs : ∀ cb' ∈ s'.clientCbs, ∃ cb ∈ s.clientCbs, SameCb cb cb'
  requests : Descends (fun b => b.role = .server) SameOwner s.requests s'.requests
  responses : Descends (fun b => b.role = .server ∨ ∃ b0, target = some b0 ∧ SameOwner b0 b) SameBytes
    s.responses s'.responses

/-- the same for the local variables, which point to buffers that were there or to the target -/
structure Answering (target : Option BlockwiseState) (s : State) (l : Locals) : Prop where
  answers : Replies target s l.state
  request : ∀ b, l.requestBuffer = some b → ∃ b0 ∈ s.requests, SameOwner b0 b
  response : ∀ b, l.responseBuffer = some b → b.id < l.state.fresh ∧ ∃ b0, target = some b0 ∧ SameOwner b0 b

/-- what a response leads to is for the callback of the target, or for that of a request buffer -/
structure Attributed (target : Option BlockwiseState) (s s' : State) (o : ExchangeOutcome) : Prop where
  answers : Replies target s s'
  uploads : ∀ f ∈ o.uploads, ∃ b ∈ s.requests, b.id = f.buffer ∧ b.clientCb = some f.cb
  downloads : ∀ f ∈ o.downloads, f.buffer < s'.fresh ∧ ∃ b, target = some b ∧ b.id = f.buffer ∧
    b.clientCb = some f.cb
  invoked : ∀ R, o.invoked = some R → ∃ b, target = some b ∧ bufferClientCb s b = some R

variable {cfg : Config} {env : Env} {endpoint : Endpoint} {message : Message} {s s' s'' : State}
  {l l' : Locals} {b b' : BlockwiseState} {target : Option BlockwiseState}

theorem Minds.answers (h : Minds s s') : Replies target s s' := by
  obtain ⟨p, hp⟩ := h.clientCbs
  refine ⟨h.fresh, fun hd => ?_, fun cb hcb => ?_, h.requests, fun b hb => ?_⟩
  · rw [hp]
    exact (hd.filter p).mono h.fresh
  · rw [hp] at hcb
    exact ⟨cb, List.mem_of_mem_filter hcb, SameCb.refl cb⟩
  · exact (h.responses b hb).imp_left Or.inl

theorem Replies.refl (s : State) : Replies target s s := (Minds.refl s).answers

theorem Replies.trans (h : Replies target s s') (h' : Replies target s' s'') : Replies target s s'' := by
  refine ⟨h.fresh.trans h'.fresh, fun hd => h'.distinct (h.distinct hd), fun cb hcb => ?_, ?_, ?_⟩
  · obtain ⟨c, hc, hcc⟩ := h'.clientCbs cb hcb
    obtain ⟨d, hd, hdc⟩ := h.clientCbs c hc
    exact ⟨d, hd, hdc.trans hcc⟩
  · refine Descends.trans ?_ ?_ h.requests h'.requests
    · exact fun x y hx hxy => hxy.role.trans hx
    · exact fun x y z hxy hyz => hxy.trans hyz
  · refine Descends.trans ?_ ?_ h.responses h'.responses
    · rintro x y (hx | ⟨b0, ht, hx⟩) hxy
      · exact Or.inl (hxy.owner.role.trans hx)
      · exact Or.inr ⟨b0, ht, hx.trans hxy.owner⟩
    · exact fun x y z hxy hyz => hxy.trans hyz

/-- without a target less is allowed -/
theorem Replies.weaken (h : Replies none s s') : Replies target s s' := by
  refine ⟨h.fresh, h.distinct, h.clientCbs, h.requests, fun b hb => ?_⟩
  rcases h.responses b hb with (hs | ⟨_, hn, _⟩) | hx
  · exact Or.inl (Or.inl hs)
  · exact absurd hn (by simp)
  · exact Or.inr hx

theorem Answering.weaken (h : Answering none s l) : Answering target s l := by
  refine ⟨h.answers.weaken, h.request, fun b hb => ?_⟩
  obtain ⟨_, _, hn, _⟩ := h.response b hb
  exact absurd hn (by simp)

/-! ## stores -/

/-- a step that writes no buffer of the client -/
theorem Answering.minds (h : Answering target s l) (hm : Minds l.state l'.state)
    (hq : ∀ b, l'.requestBuffer = some b → l.requestBuffer = some b)
    (hr : ∀ b, l'.responseBuffer = some b → l.responseBuffer = some b) : Answering target s l' := by
  refine ⟨h.answers.trans hm.answers, fun b hb => h.request b (hq b hb), fun b hb => ?_⟩
  obtain ⟨hlt, ht⟩ := h.response b (hr b hb)
  exact ⟨hlt.trans_le hm.fresh, ht⟩

/-- other local variables -/
theorem Answering.of_eq (h : Answering target s l) (hs : l'.state = l.state)
    (hq : l'.requestBuffer = l.requestBuffer) (hr : l'.responseBuffer = l.responseBuffer) :
    Answering target s l' := by
  refine h.minds ?_ (fun b hb => hq ▸ hb) fun b hb => hr ▸ hb
  rw [hs]
  exact Minds.refl _

theorem Answering.setRequest (h : Answering target s l) (hb : l.requestBuffer = some b)
    (hk : SameOwner b b') : Answering target s (l.setRequest b') := by
  obtain ⟨b0, hb0, h0⟩ := h.request b hb
  have ha := h.answers
  refine ⟨⟨ha.fresh, ha.distinct, ha.clientCbs, fun x hx => ?_, ha.responses⟩, fun x hx => ?_, h.response⟩
  · rcases mem_put hx with rfl | ⟨hx, _⟩
    · exact Or.inr ⟨b0, hb0, h0.trans hk⟩
    · exact ha.requests x hx
  · obtain rfl := Option.some.inj hx
    exact ⟨b0, hb0, h0.trans hk⟩

theorem Answering.setResponse (h : Answering target s l) (hb : l.responseBuffer = some b)
    (hk : SameOwner b b') : Answering target s (l.setResponse b') := by
  obtain ⟨hlt, b0, ht, h0⟩ := h.response b hb
  have ha := h.answers
  refine ⟨⟨ha.fresh, ha.distinct, ha.clientCbs, ha.requests, fun x hx => ?_⟩, h.request, fun x hx => ?_⟩
  · rcases mem_put hx with rfl | ⟨hx, _⟩
    · exact Or.inl (Or.inr ⟨b0, ht, h0.trans hk⟩)
    · exact ha.responses x hx
  · obtain rfl := Option.some.inj hx
    refine ⟨?_, b0, ht, h0.trans hk⟩
    rw [hk.id]
    exact hlt

theorem Answering.pointRequest (h : Answering target s l) {q : Option BlockwiseState}
    (hq : ∀ b, q = some b → b ∈ l.state.requests ∧ b.role = .client) :
    Answering target s (l.pointRequest q) := by
  refine ⟨h.answers, fun b hb => ?_, h.response⟩
  obtain ⟨hin, hrole⟩ := hq b hb
  rcases h.answers.requests b hin with hs | hb
  · exact absurd (hrole.symm.trans hs) (by simp)
  · exact hb

theorem Answering.freeUnreferenced (h : Answering target s l) :
    Answering target s (freeUnreferenced l) := by
  unfold Coap.freeUnreferenced
  split
  · exact h
  · rename_i b _
    split
    · refine h.minds ((shrinks_freeRequest b.id l.state).minds ⟨fun _ => true, (List.filter_true _).symm⟩) ?_ fun x hx => hx
      exact fun x hx => absurd hx (by simp [Locals.freeRequest])
    · exact h

/-- a transaction for a follow-up request -/
theorem Answering.withTransaction (h : Answering target s l) {granted : Bool} {mid : UInt16} {id : Nat}
    {s1 : State} (hn : coapNewTransaction granted mid endpoint l.state = (some id, s1)) :
    Answering target s (l.withTransaction id s1) :=
  h.minds (minds_newTransaction hn) (fun _ hb => hb) fun _ hb => hb

/-! ## the stages -/

theorem owner_dispatch (b : BlockwiseState) (offset size : Nat) :
    SameOwner b (ocBlockwiseDispatchBlock b offset size).2 := by
  unfold ocBlockwiseDispatchBlock
  split <;> exact ⟨rfl, rfl, rfl, rfl⟩

theorem owner_handle (max : Nat) (b : BlockwiseState) (offset : Nat) (incoming : List UInt8) :
    SameOwner b (ocBlockwiseHandleBlock max b offset incoming).2 := by
  unfold ocBlockwiseHandleBlock
  repeat' split
  all_goals exact ⟨rfl, rfl, rfl, rfl⟩

section
variable (cfg env endpoint message)

theorem continueRequest_answering (responseMid : UInt16) (block1 : Option BlockOption)
    (h : Answering target s l) (hb : l.requestBuffer = some b) :
    Answering target s (continueRequest cfg env endpoint message responseMid block1 l b).locals := by
  unfold continueRequest
  dsimp only
  generalize (if block1.isSome = true then _ else _ : Nat) = offset
  generalize (if block1.isSome = true then _ else _ : UInt16) = size
  have hk := owner_dispatch b offset size.toNat
  split
  · rename_i b1 hd
    rw [hd] at hk
    exact h.setRequest hb (hk.trans ⟨rfl, rfl, rfl, rfl⟩)
  · rename_i payload b1 hd
    rw [hd] at hk
    have hk1 : SameOwner b (if block1.isSome = true then b1 else { b1 with refCount := 1 }) := by
      split
      · exact hk
      · exact hk.trans ⟨rfl, rfl, rfl, rfl⟩
    generalize (if block1.isSome = true then b1 else { b1 with refCount := 1 }) = b2 at hk1 ⊢
    split
    · exact h.setRequest hb hk1
    · rename_i hn _
      exact h.withTransaction hn
    · rename_i cb hn _
      refine Answering.setRequest (b := b) ?_ hb (hk1.trans ⟨rfl, rfl, rfl, rfl⟩)
      exact (h.withTransaction hn).of_eq rfl rfl rfl

theorem clientRequest_answering (responseMid : UInt16) (block1 : Option BlockOption)
    (clientCb : Option ClientCb) (h : Answering target s l) :
    Answering target s (clientRequest cfg env endpoint message responseMid block1 l clientCb).locals := by
  unfold clientRequest
  dsimp only
  have h1 : Answering target s
      (l.pointRequest (clientBuffer endpoint message l.state.requests clientCb)) :=
    h.pointRequest fun b => clientBuffer_some endpoint message
  generalize clientBuffer endpoint message l.state.requests clientCb = q at h1 ⊢
  split
  · exact h1
  · split
    · exact continueRequest_answering cfg env endpoint message responseMid block1 h1 rfl
    · exact h1

/-- a new response buffer, if there is one -/
theorem allocResponse_cases (a : Alloc) (etag href : List UInt8) (endpoint : Endpoint) (method : UInt8)
    (role : Role) (s : Buffers) :
    ocBlockwiseAllocResponseBuffer a etag href endpoint method role s = (none, s) ∨
      ∃ b : BlockwiseState, b.id = s.fresh ∧ b.endpoint = endpoint ∧ b.role = role ∧
        ocBlockwiseAllocResponseBuffer a etag href endpoint method role s =
          (some b, { s with responses := s.responses ++ [b], fresh := s.fresh + 1 }) := by
  unfold ocBlockwiseAllocResponseBuffer ocBlockwiseInitBuffer
  by_cases hh : href = []
  · rw [if_pos hh]
    exact Or.inl rfl
  · rw [if_neg hh]
    cases a.granted with
    | false => exact Or.inl rfl
    | true => exact Or.inr ⟨_, rfl, rfl, rfl, rfl⟩

/-- the buffer that the response is for is the target -/
theorem clientResponseBuffer_answering (clientCb : Option ClientCb) (h : Answering target s l)
    (hwf : l.state.WF) (ht : responseAt env endpoint message clientCb l.state = target) :
    Answering target s (clientResponseBuffer env endpoint message l clientCb) := by
  unfold clientResponseBuffer
  unfold responseAt at ht
  dsimp only
  cases hq : clientBuffer endpoint message l.state.responses clientCb with
  | some b =>
    rw [hq] at ht
    refine ⟨h.answers, h.request, fun x hx => ?_⟩
    obtain rfl := Option.some.inj hx
    exact ⟨hwf.responses.lt b (clientBuffer_some endpoint message hq).1, b, ht.symm, SameOwner.refl b⟩
  | none =>
    rw [hq] at ht
    have hnone : Answering target s (l.pointResponse none) :=
      ⟨h.answers, h.request, fun x hx => absurd hx (by simp [Locals.pointResponse])⟩
    cases clientCb with
    | none => exact hnone
    | some cb =>
      simp only [Locals.pointResponse, Locals.newResponse] at ht ⊢
      rcases allocResponse_cases env.responseAlloc env.etag (cb.uri.drop 1) endpoint cb.method .client
        l.state.toBuffers with e | ⟨b, hid, _, _, e⟩
      · rw [e]
        exact hnone
      · rw [e] at ht ⊢
        have ha := h.answers
        refine ⟨⟨ha.fresh.trans (Nat.le_succ _), fun hd => (ha.distinct hd).mono (Nat.le_succ _),
          ha.clientCbs, ha.requests, fun x hx => ?_⟩, h.request, fun x hx => ?_⟩
        · rcases mem_put hx with rfl | ⟨hx, hne⟩
          · exact Or.inl (Or.inr ⟨_, ht.symm, SameOwner.refl _⟩)
          · rcases List.mem_append.mp hx with hx | hx
            · exact ha.responses x hx
            · exact absurd (congrArg BlockwiseState.id (List.mem_singleton.mp hx)) hne
        · obtain rfl := Option.some.inj hx
          exact ⟨hid.trans_lt (Nat.lt_succ_self _), _, ht.symm, SameOwner.refl _⟩

theorem clientResponse_answering (responseMid : UInt16) (block2 : Option BlockOption)
    (clientCb : Option ClientCb) (h : Answering target s l) :
    Answering target s (clientResponse cfg env endpoint message responseMid block2 l clientCb).locals := by
  unfold clientResponse
  split
  · exact h
  · rename_i b hb
    dsimp only
    have hk1 : SameOwner b { b with observeSeq := (coapGetHeaderObserve message).getD b.observeSeq } :=
      ⟨rfl, rfl, rfl, rfl⟩
    have h1 := h.setResponse hb hk1
    generalize ({ b with observeSeq := (coapGetHeaderObserve message).getD b.observeSeq } :
      BlockwiseState) = b1 at h1 ⊢
    have hb1 : (l.setResponse b1).responseBuffer = some b1 := rfl
    generalize l.setResponse b1 = l1 at h1 hb1 ⊢
    have hk := owner_handle cfg.maxAppDataSize b1 (blockParams cfg block2).offset.toNat message.payload
    split
    · split
      · exact h1
      · rename_i b2 hd
        rw [hd] at hk
        have hcomplete : Answering target s
            (l1.setResponse { b2 with payloadSize := b2.nextBlockOffset }) :=
          h1.setResponse hb1 (hk.trans ⟨rfl, rfl, rfl, rfl⟩)
        split
        · split
          · exact hcomplete
          · rename_i hn _
            exact h1.withTransaction hn
          · rename_i cb hn _
            refine Answering.setResponse (b := b1) ?_ hb1 (hk.trans ⟨rfl, rfl, rfl, rfl⟩)
            exact (h1.withTransaction hn).of_eq rfl rfl rfl
        · exact hcomplete
    · exact h1

theorem minds_foldl_freeClientCb (cbs : List ClientCb) (s : State) :
    Minds s (cbs.foldl (fun s cb => freeClientCb cb.id s) s) := by
  induction cbs generalizing s with
  | nil => exact Minds.refl s
  | cons cb cbs ih => exact (minds_freeClientCb cb.id s).trans (ih _)

/-- a store to a callback -/
theorem answers_putCb {cb cb' : ClientCb} (hcb : cb ∈ s.clientCbs) (h : SameCb cb cb') :
    Replies target s { s with clientCbs := Keyed.put ClientCb.id cb' s.clientCbs } := by
  refine ⟨le_refl _, fun hd => hd.put cb', fun c hc => ?_, Descends.refl SameOwner.refl _,
    Descends.refl SameBytes.refl _⟩
  rcases mem_put hc with rfl | ⟨hc, _⟩
  · exact ⟨cb, hcb, h⟩
  · exact ⟨c, hc, SameCb.refl c⟩

/-- the callback is freed, with others perhaps, or `observe_seq` is stored in it -/
theorem invokeClientCb_answers (b : BlockwiseState) {cb : ClientCb} (hcb : cb ∈ s.clientCbs) :
    Replies target s (ocRiInvokeClientCb env endpoint message b cb s).1 := by
  unfold ocRiInvokeClientCb
  dsimp only
  split
  · exact (minds_foldl_freeClientCb _ s).answers
  · split
    · split
      · split
        · exact (minds_foldl_freeClientCb _ s).answers
        · exact Replies.refl s
      · exact (minds_freeClientCb cb.id s).answers
    · have hs : SameCb cb { cb with observeSeq := b.observeSeq } := ⟨rfl, rfl, rfl⟩
      split
      · refine (answers_putCb hcb hs).trans ?_
        unfold dropDuplicateCb
        split
        · exact Replies.refl _
        · exact (minds_freeClientCb _ _).answers
      · exact answers_putCb hcb hs

theorem Answering.invoke (h : Answering target s l) (b : BlockwiseState) {cb : ClientCb}
    (hcb : cb ∈ l.state.clientCbs) :
    Answering target s (invokeClientCb env endpoint message b cb l) := by
  have ha : Replies target l.state (ocRiInvokeClientCb env endpoint message b cb l.state).1 :=
    invokeClientCb_answers env endpoint message b hcb
  refine ⟨h.answers.trans ha, h.request, fun x hx => ?_⟩
  unfold invokeClientCb at hx
  dsimp only at hx
  split at hx
  · obtain ⟨hlt, ht⟩ := h.response x hx
    exact ⟨hlt.trans_le ha.fresh, ht⟩
  · exact absurd hx (by simp)

/-- from a label to the end -/
theorem Answering.leave (h : Answering target s l) (label : Label) :
    Replies target s (leave env endpoint message l label).1 := by
  have hunref : ∀ l : Locals, Answering target s l →
      Replies target s (sendMessage env endpoint message l.unrefRequest.unrefResponse).1 := by
    intro l h
    have h1 : Answering target s l.unrefRequest := by
      unfold Locals.unrefRequest
      split
      · exact h
      · rename_i b hb
        exact h.setRequest hb ⟨rfl, rfl, rfl, rfl⟩
    have h2 : Answering target s l.unrefRequest.unrefResponse := by
      unfold Locals.unrefResponse
      split
      · exact h1
      · rename_i b hb
        exact h1.setResponse hb ⟨rfl, rfl, rfl, rfl⟩
    exact h2.answers.trans (minds_sendMessage _).answers
  have hreset : Answering target s (resetMessage endpoint message l) := by
    unfold resetMessage
    split
    · exact h.of_eq rfl rfl rfl
    · exact h.of_eq rfl rfl rfl
  cases label with
  | requestHandler => exact hunref _ hreset
  | initResetMessage => exact hunref _ hreset
  | freeBlockwiseBuffers => exact hunref l h
  | sendMessage => exact h.answers.trans (minds_sendMessage l).answers

/-! ## the client side -/

theorem mem_sentFrom {o : Option BlockwiseState} {f : FollowUp} (h : f ∈ sentFrom env message l o) :
    ∃ b, o = some b ∧ f.buffer = b.id ∧ b.clientCb = some f.cb := by
  unfold sentFrom at h
  split at h
  · exact absurd h List.not_mem_nil
  · rename_i b
    split at h
    · exact absurd h List.not_mem_nil
    · rename_i cb hcb
      dsimp only at h
      split at h
      · exact absurd h List.not_mem_nil
      · rw [List.mem_singleton.mp h]
        exact ⟨b, rfl, rfl, hcb⟩

theorem bufferClientCb_congr {s s' : State} (h : s'.clientCbs = s.clientCbs) (b : BlockwiseState) :
    bufferClientCb s' b = bufferClientCb s b := by
  unfold bufferClientCb
  rw [h]

theorem bufferClientCb_mem {s : State} {cb : ClientCb} (h : bufferClientCb s b = some cb) :
    cb ∈ s.clientCbs := by
  obtain ⟨id, _, hf⟩ := Option.bind_eq_some_iff.mp h
  exact List.mem_of_find?_eq_some hf

/-- the stages behind the response buffer -/
theorem clientResponse_attributed (responseMid : UInt16) (clientCb : Option ClientCb)
    (hc : ClientSound s l) (htr : l.transaction = none) (hs : s.WF) (h : Answering target s l)
    (ht : l.responseBuffer = target) (hon : l.ResponseOn) (hcbs : l.state.clientCbs = s.clientCbs) :
    Attributed target s
      (match clientResponse cfg env endpoint message responseMid (coapGetHeaderBlock2 message) l clientCb with
      | .fault l => l.faulted
      | .jump l label => leave env endpoint message l label
      | .next l clientCb =>
        match clientCb, l.responseBuffer with
        | none, _ => leave env endpoint message l .initResetMessage
        | some _, none => l.faulted
        | some cb, some b =>
          leave env endpoint message (invokeClientCb env endpoint message b cb l) .freeBlockwiseBuffers).1
      (match clientResponse cfg env endpoint message responseMid (coapGetHeaderBlock2 message) l clientCb with
      | .fault _ => ⟨[], [], none⟩
      | .jump l _ => ⟨[], sentFrom env message l l.responseBuffer, none⟩
      | .next l clientCb =>
        match clientCb, l.responseBuffer with
        | some cb, some _ => ⟨[], [], some cb⟩
        | _, _ => ⟨[], [], none⟩) := by
  have ha := clientResponse_answering cfg env endpoint message responseMid (coapGetHeaderBlock2 message)
    clientCb h
  have hc' := clientResponse_sound cfg env endpoint message responseMid (coapGetHeaderBlock2 message)
    clientCb hs hc htr
  -- nothing is sent and nothing is called
  have hquiet : ∀ s', Replies target s s' → Attributed target s s' ⟨[], [], none⟩ := fun s' h =>
    ⟨h, fun f hf => absurd hf List.not_mem_nil, fun f hf => absurd hf List.not_mem_nil,
      fun R hR => absurd hR (by simp)⟩
  cases he : clientResponse cfg env endpoint message responseMid (coapGetHeaderBlock2 message) l clientCb with
  | fault l1 =>
    rw [he] at ha
    exact hquiet _ ha.answers
  | jump l1 label =>
    rw [he] at ha hc'
    dsimp only
    refine ⟨ha.leave env endpoint message label, fun f hf => absurd hf List.not_mem_nil, fun f hf => ?_,
      fun R hR => absurd hR (by simp)⟩
    obtain ⟨b, hb, hid, hcb⟩ := mem_sentFrom env message hf
    obtain ⟨hlt, b0, ht0, h0⟩ := ha.response b hb
    have hfresh := (settles_leave env endpoint message hc'.sound label).fresh
    refine ⟨?_, b0, ht0, h0.id.symm.trans hid.symm, h0.clientCb.symm.trans hcb⟩
    exact (hid.trans_lt hlt).trans_le hfresh
  | next l1 cb1 =>
    rw [he] at ha
    dsimp only
    cases cb1 with
    | none => exact hquiet _ (ha.leave env endpoint message _)
    | some cb =>
      cases hb : l1.responseBuffer with
      | none => exact hquiet _ ha.answers
      | some b =>
        obtain ⟨b0, hb0, hcb, hl1⟩ := clientResponse_invokes cfg env endpoint message responseMid hon hb he
        have hmem : cb ∈ l1.state.clientCbs := hl1 ▸ bufferClientCb_mem hcb
        have hinvoke := ha.invoke env endpoint message b hmem
        refine ⟨hinvoke.leave env endpoint message _, fun f hf => absurd hf List.not_mem_nil,
          fun f hf => absurd hf List.not_mem_nil, fun R hR => ?_⟩
        obtain rfl := Option.some.inj hR
        exact ⟨b0, ht.symm.trans hb0, bufferClientCb_congr hcbs b0 ▸ hcb⟩

/-- **The client side of `coap_receive`.**  Unless the next block of an upload is sent, the response is for
`responseAt`. -/
theorem clientExchange_attributed (responseMid : UInt16) (clientCb : Option ClientCb) (l : Locals)
    (hs : l.state.WF) (htr : l.transaction = none) (hq : l.requestBuffer = none)
    (hr : l.responseBuffer = none) :
    ∃ target, (∀ b, target = some b → ¬ UploadsOn cfg env endpoint message clientCb l.state ∧
        responseAt env endpoint message (exchangeCb endpoint message clientCb l.state) l.state = some b) ∧
      Attributed target l.state (clientExchange cfg env endpoint message responseMid clientCb l).1
        (exchangeOutcome cfg env endpoint message responseMid clientCb l) := by
  have hnq : ∀ b, l.requestBuffer ≠ some b := fun b hb => absurd (hq.symm.trans hb) (by simp)
  have hnr : ∀ b, l.responseBuffer ≠ some b := fun b hb => absurd (hr.symm.trans hb) (by simp)
  have ha0 : Answering none l.state l :=
    ⟨Replies.refl _, fun b hb => absurd hb (hnq b), fun b hb => absurd hb (hnr b)⟩
  have hc0 : ClientSound l.state l :=
    ⟨⟨hs, fun b hb => absurd hb (hnq b), fun b hb => absurd hb (hnr b)⟩, Settles.refl none _,
      fun b hb => absurd hb (hnq b), fun b hb => absurd hb (hnr b), fun t _ h => absurd (htr.symm.trans h) (by simp)⟩
  have ha1 := clientRequest_answering cfg env endpoint message responseMid (coapGetHeaderBlock1 message)
    clientCb ha0
  have hc1 := clientRequest_sound cfg env endpoint message responseMid (coapGetHeaderBlock1 message)
    clientCb hs hc0 htr
  unfold clientExchange exchangeOutcome
  dsimp only
  rcases clientRequest_cases cfg env endpoint message responseMid clientCb l with
    ⟨_, l1, _, _, e⟩ | ⟨hup, l1, e, hl⟩
  · refine ⟨none, fun b hb => absurd hb (by simp), ?_⟩
    rcases e with e | e
    · rw [e] at ha1 ⊢
      refine ⟨ha1.leave env endpoint message _, fun f hf => ?_, fun f hf => absurd hf List.not_mem_nil,
        fun R hR => absurd hR (by simp)⟩
      obtain ⟨b, hb, hid, hcb⟩ := mem_sentFrom env message hf
      obtain ⟨b0, hb0, h0⟩ := ha1.request b hb
      exact ⟨b0, hb0, h0.id.symm.trans hid.symm, h0.clientCb.symm.trans hcb⟩
    · rw [e] at ha1 ⊢
      exact ⟨ha1.answers, fun f hf => absurd hf List.not_mem_nil, fun f hf => absurd hf List.not_mem_nil,
        fun R hR => absurd hR (by simp)⟩
  · rw [e] at ha1 hc1 ⊢
    dsimp only
    obtain ⟨hc1, htr1⟩ := hc1
    refine ⟨_, fun b hb => ⟨hup, hb⟩, ?_⟩
    have hbeside := freeUnreferenced_beside l1
    have htarget := responseAt_congr env endpoint message (exchangeCb endpoint message clientCb l.state)
      (hbeside.responses.trans hl.beside.responses) (hbeside.fresh.trans hl.beside.fresh)
    have ha2 : Answering (responseAt env endpoint message
        (exchangeCb endpoint message clientCb l.state) l.state) l.state (freeUnreferenced l1) :=
      ha1.weaken.freeUnreferenced
    have hc2 := hc1.freeUnreferenced
    have ha3 := clientResponseBuffer_answering env endpoint message _ ha2 hc2.sound.wf htarget
    have hc3 := clientResponseBuffer_sound env endpoint message
      (exchangeCb endpoint message clientCb l.state) hc2
    obtain ⟨_, _, hcbs, hb3, hon⟩ := clientResponseBuffer_cases env endpoint message
      (exchangeCb endpoint message clientCb l.state) (freeUnreferenced l1)
    refine clientResponse_attributed cfg env endpoint message responseMid _ hc3 ?_ hs ha3
      (hb3.trans htarget) hon (hcbs.trans (hbeside.clientCbs.trans hl.beside.clientCbs))
    rw [transaction_clientResponseBuffer, transaction_freeUnreferenced, htr1]

end

end Coap
