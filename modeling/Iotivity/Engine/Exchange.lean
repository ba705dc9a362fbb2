import Iotivity.Engine.Duplicates
import Iotivity.Lib.History

/-!
# Exchanges

Requests belong to one exchange if endpoint, path, query and method are the same: what a lookup goes
by.

* `Akin`          two requests of one exchange;
* `Handles`               a request that gets its transaction;
* `coapReceive_handles`   every other message is idle;
* `processRequest_requests`   which request buffers are left when a request has been processed.
-/

namespace Coap
open Memory Keyed

/-! ## the key of a request -/

structure Akin (e : Endpoint) (m : Message) (e' : Endpoint) (m' : Message) : Prop where
  endpoint : SameEndpoint e e'
  path : coapGetHeaderUriPath m' = coapGetHeaderUriPath m
  query : m'.uriQuery = m.uriQuery
  code : m'.code = m.code

instance (a b : Endpoint) : Decidable (SameEndpoint a b) :=
  inferInstanceAs (Decidable (a = b ∨ ocEndpointCompare a b = true))

instance (e : Endpoint) (m : Message) (e' : Endpoint) (m' : Message) :
    Decidable (Akin e m e' m') :=
  decidable_of_iff (SameEndpoint e e' ∧ coapGetHeaderUriPath m' = coapGetHeaderUriPath m ∧
      m'.uriQuery = m.uriQuery ∧ m'.code = m.code)
    ⟨fun ⟨h1, h2, h3, h4⟩ => ⟨h1, h2, h3, h4⟩, fun h => ⟨h.endpoint, h.path, h.query, h.code⟩⟩

section
variable {a b c : Endpoint}

theorem SameEndpoint.symm (h : SameEndpoint a b) : SameEndpoint b a :=
  h.imp Eq.symm ocEndpointCompare_symm

theorem SameEndpoint.trans (h : SameEndpoint a b) (h' : SameEndpoint b c) : SameEndpoint a c := by
  rcases h with rfl | h
  · exact h'
  · rcases h' with rfl | h'
    · exact Or.inr h
    · exact Or.inr (ocEndpointCompare_trans h h')

end

section
variable {e e' e'' : Endpoint} {m m' m'' : Message} {b : BlockwiseState}

theorem Akin.refl (e : Endpoint) (m : Message) : Akin e m e m :=
  ⟨Or.inl rfl, rfl, rfl, rfl⟩

theorem Akin.symm (h : Akin e m e' m') : Akin e' m' e m :=
  ⟨h.endpoint.symm, h.path.symm, h.query.symm, h.code.symm⟩

theorem Akin.trans (h : Akin e m e' m') (h' : Akin e' m' e'' m'') :
    Akin e m e'' m'' :=
  ⟨h.endpoint.trans h'.endpoint, h'.path.trans h.path, h'.query.trans h.query,
    h'.code.trans h.code⟩

theorem Akin.congr (h : Akin e m e' m') :
    Akin e m e'' m'' ↔ Akin e' m' e'' m'' :=
  ⟨h.symm.trans, h.trans⟩

/-- a buffer of one request is a buffer of every request of the exchange -/
theorem Akin.owns (h : Akin e m e' m') (hb : (requestLookup e m).Owns b) :
    (requestLookup e' m').Owns b := by
  obtain ⟨h1, h2, h3, h4, h5⟩ := hb
  refine ⟨h1.trans h.path.symm, h2.trans h.query.symm, ?_, h4.trans h.code.symm, h5⟩
  rcases h.endpoint with rfl | he
  · exact h3
  · exact ocEndpointCompare_trans h3 he

/-- requests with a common buffer belong to one exchange -/
theorem akin_of_owns (hb : (requestLookup e m).Owns b)
    (hb' : (requestLookup e' m').Owns b) : Akin e m e' m' := by
  obtain ⟨h1, h2, h3, h4, _⟩ := hb
  obtain ⟨g1, g2, g3, g4, _⟩ := hb'
  exact ⟨Or.inr (ocEndpointCompare_trans (ocEndpointCompare_symm h3) g3), g1.symm.trans h1,
    g2.symm.trans h2, g4.symm.trans h4⟩

/-- the fields of a buffer that has been made for a request -/
theorem akin_of_made (hb : (requestLookup e m).Owns b) (he : b.endpoint = e')
    (hp : b.href = coapGetHeaderUriPath m') (hq : b.uriQuery = m'.uriQuery)
    (hc : b.method = m'.code) : Akin e m e' m' := by
  obtain ⟨h1, h2, h3, h4, _⟩ := hb
  exact ⟨Or.inr (ocEndpointCompare_symm (he ▸ h3)), hp.symm.trans h1, hq.symm.trans h2,
    hc.symm.trans h4⟩

theorem SameKey.owns {b' : BlockwiseState} (h : SameKey b b') {r : Lookup} (hb : r.Owns b') :
    r.Owns b := by
  obtain ⟨h1, h2, h3, h4, h5⟩ := hb
  exact ⟨h.href ▸ h1, h.uriQuery ▸ h2, h.endpoint ▸ h3, h.method ▸ h4, h.role ▸ h5⟩

theorem SameKey.symm {b' : BlockwiseState} (h : SameKey b b') : SameKey b' b :=
  ⟨h.id.symm, h.href.symm, h.endpoint.symm, h.method.symm, h.role.symm, h.uriQuery.symm⟩

/-- a buffer of the request is found, or another one in front of it -/
theorem owns_found {l : List BlockwiseState} {r : Lookup} (hb : b ∈ l) (h : r.Owns b) :
    ocBlockwiseFindBuffer l r.href r.endpoint r.method r.query r.role ≠ none := by
  intro hn
  exact findBuffer_none.mp hn b hb ⟨h.looksAlike, h.2⟩

/-- what is found is the request's own if it has the path -/
theorem found_owns {l : List BlockwiseState} {r : Lookup}
    (h : ocBlockwiseFindBuffer l r.href r.endpoint r.method r.query r.role = some b)
    (hp : b.href = r.href) : r.Owns b :=
  ⟨hp, (findBuffer_some.mp h).1.2⟩

/-- a buffer without a query gets the one of the request -/
theorem setQuery_eq (b : BlockwiseState) (query : List UInt8) (h : b.uriQuery = []) :
    setQuery b query = { b with uriQuery := query } := by
  unfold setQuery
  split
  · rename_i hq
    rw [hq, ← h]
  · rfl

end

/-! ## requests that are handled -/

/-- the message is a request, it is not dropped as a duplicate, and it gets a transaction -/
structure Handles (cfg : Config) (env : Env) (msg : OcMessage) (s : State) (m : Message) : Prop where
  parsed : msg.parse cfg = .ok m
  request : m.IsRequest
  kept : dropsDuplicate msg.endpoint m s = false
  granted : env.transactionGranted = true

section
variable {cfg : Config} {env : Env} {msg : OcMessage} {s : State} {m : Message}

/-- without a transaction nothing is reported -/
theorem coapReceive_ungranted (hp : msg.parse cfg = .ok m) (hm : m.IsRequest)
    (hg : env.transactionGranted = false) : (coapReceive cfg env msg s).2 = [] := by
  unfold coapReceive
  rw [hp]
  dsimp only
  rw [receiveMessage_request cfg env msg.endpoint hm]
  unfold receiveRequest
  split
  · rfl
  · dsimp only
    unfold coapNewTransaction
    rw [hg]
    exact leave_none env msg.endpoint m _ rfl .initResetMessage

theorem processRequest_accepted (endpoint : Endpoint) (l : Locals) :
    Event.accepted endpoint m ∈ (processRequest cfg env endpoint m l).2 := by
  rcases processRequest_events cfg env endpoint m l rfl with ⟨_, es, he, _⟩ | ⟨_, hs, es, he, _, _⟩
  · rw [he]
    simp
  · rw [he]
    simp

/-- **`coap_receive`, by what it handles.** -/
theorem coapReceive_handles (cfg : Config) (env : Env) (msg : OcMessage) (s : State) :
    (∃ m l, Handles cfg env msg s m ∧ Genuine m ∧ Admitted s l ∧
        coapReceive cfg env msg s = processRequest cfg env msg.endpoint m l) ∨
      Idle s (coapReceive cfg env msg s) := by
  rcases coapReceive_cases cfg env msg s with ⟨m, l, hp, hm, ha, hrun⟩ | ⟨hi, _⟩
  · have hrun := hrun env rfl
    have hin : Event.accepted msg.endpoint m ∈ (coapReceive cfg env msg s).2 := by
      rw [hrun]
      exact processRequest_accepted msg.endpoint l
    refine Or.inl ⟨m, l, ⟨hp, hm, ?_, ?_⟩, (OcMessage.parse_received hp).1, ha, hrun⟩
    · by_contra hd
      rw [coapReceive_of_drops hp ⟨hm, by simpa using hd⟩] at hin
      exact absurd hin List.not_mem_nil
    · by_contra hg
      rw [coapReceive_ungranted hp hm (by simpa using hg)] at hin
      exact absurd hin List.not_mem_nil
  · exact Or.inr hi

end

/-! ## what a request reports -/

/-- a request is reported once, and a handler that has run on its payload was its own -/
structure Reported (env : Env) (endpoint : Endpoint) (m : Message) (r : Locals × Label)
    (rest : List Event) : Prop where
  accepted : ∀ e' m', Event.accepted e' m' ∉ rest
  produced : ∀ e' m' payload rep etag, Event.produced e' m' payload rep etag ∈ rest →
    r.2 = .requestHandler ∧ e' = endpoint ∧ m' = m ∧ payload = requestPayload r.1 ∧
      rep = env.entity.representation ∧ etag = env.etag.take coapEtagLen

section
variable {cfg : Config} {env : Env} {endpoint : Endpoint} {m response : Message}
  {source : Option BlockwiseState} {es : List Event} {s : State}

theorem EndsWith.not_accepted (h : EndsWith endpoint m response source es) (e' : Endpoint)
    (m' : Message) : Event.accepted e' m' ∉ es := by
  intro hin
  rcases h _ hin with h | ⟨p, hp, _⟩
  · exact h
  · exact absurd hp (by simp)

theorem EndsWith.not_produced (h : EndsWith endpoint m response source es) (e' : Endpoint)
    (m' : Message) (payload rep etag : List UInt8) : Event.produced e' m' payload rep etag ∉ es := by
  intro hin
  rcases h _ hin with h | ⟨p, hp, _⟩
  · exact h
  · exact absurd hp (by simp)

theorem Idle.not_accepted {r : State × List Event} (h : Idle s r) (e' : Endpoint) (m' : Message) :
    Event.accepted e' m' ∉ r.2 := by
  intro hin
  rcases h.events _ hin with h | ⟨_, _, _, _, hp, _⟩
  · exact h
  · exact absurd hp (by simp)

theorem processRequest_rest (cfg : Config) (env : Env) (endpoint : Endpoint) (m : Message)
    (l : Locals) {r : Locals × Label}
    (hr : requestBranch cfg env endpoint m (l.emit (.accepted endpoint m)) = r) :
    ∃ rest, (processRequest cfg env endpoint m l).2 = l.events ++ .accepted endpoint m :: rest ∧
      Reported env endpoint m r rest := by
  rcases processRequest_events cfg env endpoint m l hr with
    ⟨_, es, he, hes⟩ | ⟨hlabel, hs, es, he, hh, hes⟩
  · exact ⟨es, he, hes.not_accepted, fun e' m' payload rep etag hin =>
      absurd hin (hes.not_produced e' m' payload rep etag)⟩
  · refine ⟨_, he, fun e' m' hin => ?_, fun e' m' payload rep etag hin => ?_⟩
    · rcases List.mem_cons.mp hin with h | h
      · exact absurd h (by simp)
      · rcases List.mem_append.mp h with h | h
        · rcases hh with rfl | ⟨acks, ha, rfl⟩
          · exact absurd h List.not_mem_nil
          · rcases List.mem_cons.mp h with h | h
            · exact absurd h (by simp)
            · exact ha _ h
        · exact hes.not_accepted e' m' h
    · rcases List.mem_cons.mp hin with h | h
      · exact absurd h (by simp)
      · rcases List.mem_append.mp h with h | h
        · rcases hh with rfl | ⟨acks, ha, rfl⟩
          · exact absurd h List.not_mem_nil
          · rcases List.mem_cons.mp h with h | h
            · obtain ⟨h1, h2, h3, h4, h5⟩ := Event.produced.inj h
              exact ⟨hlabel, h1, h2, h3, h4, h5⟩
            · exact absurd (ha _ h) (fun h => h)
        · exact absurd h (hes.not_produced e' m' payload rep etag)

end

/-! ## request buffers that are left -/

section
variable (cfg : Config) (env : Env) (endpoint : Endpoint) (message : Message)

theorem sendTransaction_requests (initial : Nat) (gone : Nat → Bool) (t : Transaction) (s : State) :
    ∀ b ∈ (coapSendTransaction initial gone t s).1.requests, b ∈ s.requests := by
  intro b hb
  unfold coapSendTransaction at hb
  dsimp only at hb
  split at hb
  · split at hb
    · exact hb
    · have h1 := (shrinks_scrub (ocRiRemoveClientCbByMid t.mid (dropObservers gone s))).mem_requests hb
      exact (shrinks_removeClientCbByMid t.mid (dropObservers gone s)).mem_requests h1
  · exact hb

/-- what is left has a reference -/
theorem sendMessage_requests (l : Locals) :
    ∀ b ∈ (sendMessage env endpoint message l).1.requests, b ∈ l.state.requests ∧ b.refCount ≠ 0 := by
  intro b hb
  unfold sendMessage at hb
  dsimp only at hb
  obtain ⟨hb, href⟩ := List.mem_filter.mp hb
  refine ⟨?_, by simpa using href⟩
  split at hb
  · split at hb
    · exact hb
    · split at hb
      · have h := sendTransaction_requests _ _ _ _ b hb
        exact h
      · exact hb
  · exact hb
  · exact hb

/-- a buffer that has lost its reference does not come back -/
theorem sendUnref_requests (l : Locals) :
    ∀ b ∈ (sendMessage env endpoint message l.unrefRequest.unrefResponse).1.requests,
      b ∈ l.state.requests ∧ b.refCount ≠ 0 ∧ ∀ x, l.requestBuffer = some x → b.id ≠ x.id := by
  intro b hb
  obtain ⟨hb, href⟩ := sendMessage_requests env endpoint message _ b hb
  rw [requests_unrefResponse] at hb
  unfold Locals.unrefRequest at hb
  split at hb
  · rename_i hn
    exact ⟨hb, href, fun x hx => absurd (hn.symm.trans hx) (by simp)⟩
  · rename_i y hy
    rcases mem_put hb with rfl | ⟨hin, hne⟩
    · exact absurd rfl href
    · refine ⟨hin, href, fun x hx => ?_⟩
      obtain rfl : y = x := Option.some.inj (hy.symm.trans hx)
      exact hne

/-- from every label but `send_message` the request buffer is freed -/
theorem leave_requests (l : Locals) (label : Label) :
    ∀ b ∈ (leave env endpoint message l label).1.requests, b ∈ l.state.requests ∧ b.refCount ≠ 0 ∧
      (label ≠ .sendMessage → ∀ x, l.requestBuffer = some x → b.id ≠ x.id) := by
  have hreset : ∀ b ∈ (sendMessage env endpoint message
      (resetMessage endpoint message l).unrefRequest.unrefResponse).1.requests,
      b ∈ l.state.requests ∧ b.refCount ≠ 0 ∧ ∀ x, l.requestBuffer = some x → b.id ≠ x.id := by
    intro b hb
    have h := sendUnref_requests env endpoint message (resetMessage endpoint message l) b hb
    unfold resetMessage at h
    split at h
    · exact h
    · exact h
  intro b hb
  cases label with
  | requestHandler =>
    obtain ⟨h1, h2, h3⟩ := hreset b hb
    exact ⟨h1, h2, fun _ => h3⟩
  | initResetMessage =>
    obtain ⟨h1, h2, h3⟩ := hreset b hb
    exact ⟨h1, h2, fun _ => h3⟩
  | freeBlockwiseBuffers =>
    obtain ⟨h1, h2, h3⟩ := sendUnref_requests env endpoint message l b hb
    exact ⟨h1, h2, fun _ => h3⟩
  | sendMessage =>
    obtain ⟨h1, h2⟩ := sendMessage_requests env endpoint message l b hb
    exact ⟨h1, h2, fun h => absurd rfl h⟩

theorem setReply_requests (code length : Nat) (l : Locals) :
    (setReply cfg message code length l).state.requests = l.state.requests := by
  rcases setReply_cases cfg message code length l with ⟨p, e⟩ | ⟨b, p, p', _, _, e⟩ <;> rw [e] <;> rfl

theorem reachResource_requests (l : Locals) :
    (reachResource env endpoint message l).state.requests = (consumePayload l).state.requests := by
  unfold reachResource Locals.allocResponse
  dsimp only
  split
  · rcases newResponse_cases env (coapGetHeaderUriPath message) endpoint message.code .server
      (consumePayload l) with ⟨e, _⟩ | ⟨b, _, _, _, e⟩
    · rw [e]
      rfl
    · rw [e]
      rfl
  · rfl

theorem answer_requests (l : Locals) :
    (answer cfg env endpoint message (observeRequest env message l)).state.requests
      = l.state.requests := by
  have h1 : (observeRequest env message l).state.requests = l.state.requests := by
    unfold observeRequest
    dsimp only
    repeat' split
    all_goals rfl
  unfold answer
  dsimp only
  split
  · exact h1
  · split
    · exact h1
    · rw [setReply_requests]
      exact h1

/-- the entity handler frees the request buffer when it has read the payload, and no other one -/
theorem entityHandler_requests (l : Locals) :
    (ocRiInvokeCoapEntityHandler cfg env endpoint message l).2.state.requests
      = (consumePayload l).state.requests := by
  unfold ocRiInvokeCoapEntityHandler
  dsimp only
  split
  · rw [answer_requests]
    exact reachResource_requests env endpoint message l
  · rw [setReply_requests]
    exact reachResource_requests env endpoint message l

theorem consumePayload_emit (l : Locals) (e : Event) :
    consumePayload (l.emit e) = (consumePayload l).emit e := by
  have he : (l.emit e).requestBuffer = l.requestBuffer := rfl
  unfold consumePayload
  rw [he]
  cases l.requestBuffer with
  | none => rfl
  | some b =>
    dsimp only
    split <;> rfl

theorem requestHandler_requests (block2 : Option BlockOption) (l : Locals) :
    ∀ b ∈ (requestHandler cfg env endpoint message block2 l).1.state.requests,
      b.refCount = 0 ∨ b ∈ (consumePayload l).state.requests := by
  intro b hb
  have h1 := entityHandler_requests cfg env endpoint message
    (l.emit (.invoked endpoint message l.requestBuffer))
  rw [consumePayload_emit] at h1
  have h1 : _ = (consumePayload l).state.requests := h1
  unfold requestHandler at hb
  dsimp only at hb
  generalize ocRiInvokeCoapEntityHandler cfg env endpoint message
    (l.emit (.invoked endpoint message l.requestBuffer)) = r at h1 hb
  split at hb
  · refine Or.inr (h1 ▸ ?_)
    split at hb
    · exact hb
    · unfold firstBlock at hb
      dsimp only at hb
      split at hb <;> exact hb
  · rw [requests_unrefResponse] at hb
    unfold Locals.unrefRequest at hb
    split at hb
    · exact Or.inr (h1 ▸ hb)
    · rcases mem_put hb with rfl | ⟨hin, _⟩
      · exact Or.inl rfl
      · exact Or.inr (h1 ▸ hin)

/-- reading a payload frees its buffer -/
theorem consumePayload_requests (l : Locals) :
    ∀ b ∈ (consumePayload l).state.requests, b ∈ l.state.requests ∧
      ∀ x, l.requestBuffer = some x → 0 < x.payloadSize → x.payloadSize < 2^31 → b.id ≠ x.id := by
  intro b hb
  unfold consumePayload at hb
  split at hb
  · rename_i hn
    exact ⟨hb, fun x hx => absurd (hn.symm.trans hx) (by simp)⟩
  · rename_i y hy
    have hxy : ∀ x, l.requestBuffer = some x → y = x :=
      fun x hx => Option.some.inj (hy.symm.trans hx)
    split at hb
    · obtain ⟨hin, hne⟩ := mem_remove.mp hb
      exact ⟨hin, fun x hx _ _ => hxy x hx ▸ hne⟩
    · rename_i hsize
      refine ⟨hb, fun x hx h1 h2 => ?_⟩
      obtain rfl := hxy x hx
      exact absurd ⟨h1, h2⟩ hsize

/-- **Request buffers that are left** have a reference and were there when the branch was left; the
buffer of the request itself is gone if the request has failed, or if its payload has been read. -/
theorem processRequest_requests (l : Locals) {r : Locals × Label}
    (hr : requestBranch cfg env endpoint message (l.emit (.accepted endpoint message)) = r) :
    ∀ b ∈ (processRequest cfg env endpoint message l).1.requests,
      b ∈ r.1.state.requests ∧ b.refCount ≠ 0 ∧ ∀ x, r.1.requestBuffer = some x → b.id = x.id →
        r.2 = .sendMessage ∨ r.2 = .requestHandler ∧ ¬ (0 < x.payloadSize ∧ x.payloadSize < 2^31) := by
  intro b hb
  unfold processRequest at hb
  dsimp only at hb
  rw [hr] at hb
  obtain ⟨l1, label⟩ := r
  have hleave : b ∈ (leave env endpoint message l1 label).1.requests →
      b ∈ l1.state.requests ∧ b.refCount ≠ 0 ∧
        ∀ x, l1.requestBuffer = some x → b.id = x.id → label = .sendMessage := by
    intro hb
    obtain ⟨h1, h2, h3⟩ := leave_requests env endpoint message l1 label b hb
    refine ⟨h1, h2, fun x hx hid => ?_⟩
    by_contra hne
    exact h3 hne x hx hid
  cases label with
  | requestHandler =>
    have hb : b ∈ (leave env endpoint message
      (requestHandler cfg env endpoint message (coapGetHeaderBlock2 message) l1).1
      (requestHandler cfg env endpoint message (coapGetHeaderBlock2 message) l1).2).1.requests := hb
    obtain ⟨h1, h2, _⟩ := leave_requests env endpoint message _ _ b hb
    have h3 := (requestHandler_requests cfg env endpoint message _ l1 b h1).resolve_left h2
    obtain ⟨h4, h5⟩ := consumePayload_requests l1 b h3
    exact ⟨h4, h2, fun x hx hid => Or.inr ⟨rfl, fun h => h5 x hx h.1 h.2 hid⟩⟩
  | initResetMessage =>
    obtain ⟨h1, h2, h3⟩ := hleave hb
    exact ⟨h1, h2, fun x hx hid => Or.inl (h3 x hx hid)⟩
  | freeBlockwiseBuffers =>
    obtain ⟨h1, h2, h3⟩ := hleave hb
    exact ⟨h1, h2, fun x hx hid => Or.inl (h3 x hx hid)⟩
  | sendMessage =>
    obtain ⟨h1, h2, h3⟩ := hleave hb
    exact ⟨h1, h2, fun x hx hid => Or.inl (h3 x hx hid)⟩

end

end Coap
