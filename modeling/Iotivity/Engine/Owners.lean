import Iotivity.Engine.Lookup
import Iotivity.Engine.Run

/-!
# Whose a buffer is

A client makes a buffer for one callback and one endpoint.  What the engine does as a server, timers and
transactions leave these buffers, and what they hold, alone.

* `SameOwner`, `SameBytes`   what is set when a client makes a buffer, and what the buffer holds;
* `Minds s s'`               from `s` to `s'` a client has lost something at most;
* `receiveRequest_minds`     `coap_receive` with a request;
* `sendTransaction_minds`    sending, and giving up.
-/

namespace Coap
open Memory Keyed

/-- the fields that are set when a client makes a buffer -/
structure SameOwner (b b' : BlockwiseState) : Prop where
  id : b'.id = b.id
  role : b'.role = b.role
  endpoint : b'.endpoint = b.endpoint
  clientCb : b'.clientCb = b.clientCb

/-- moreover the bytes that have been received -/
structure SameBytes (b b' : BlockwiseState) : Prop where
  owner : SameOwner b b'
  nextBlockOffset : b'.nextBlockOffset = b.nextBlockOffset
  buffer : b'.buffer = b.buffer

/-- the client has the buffers and the callbacks it had, or less -/
structure Minds (s s' : State) : Prop where
  fresh : s.fresh ≤ s'.fresh
  clientCbs : ∃ p, s'.clientCbs = s.clientCbs.filter p
  requests : Descends (fun b => b.role = .server) SameOwner s.requests s'.requests
  responses : Descends (fun b => b.role = .server) SameBytes s.responses s'.responses

/-- the local variables point to buffers of a server -/
structure ServerLocals (l : Locals) : Prop where
  request : ∀ b, l.requestBuffer = some b → b.role = .server
  response : ∀ b, l.responseBuffer = some b → b.role = .server

/-- a stage of the server -/
def Serves (l l' : Locals) : Prop := ServerLocals l → ServerLocals l' ∧ Minds l.state l'.state

variable {cfg : Config} {env : Env} {endpoint : Endpoint} {message : Message} {s s' s'' : State}
  {l l' l'' : Locals} {b b' b'' : BlockwiseState}

/-! ## the relations compose -/

theorem SameOwner.refl (b : BlockwiseState) : SameOwner b b := ⟨rfl, rfl, rfl, rfl⟩

theorem SameOwner.trans (h : SameOwner b b') (h' : SameOwner b' b'') : SameOwner b b'' :=
  ⟨h'.id.trans h.id, h'.role.trans h.role, h'.endpoint.trans h.endpoint, h'.clientCb.trans h.clientCb⟩

theorem SameBytes.refl (b : BlockwiseState) : SameBytes b b := ⟨SameOwner.refl b, rfl, rfl⟩

theorem SameBytes.trans (h : SameBytes b b') (h' : SameBytes b' b'') : SameBytes b b'' :=
  ⟨h.owner.trans h'.owner, h'.nextBlockOffset.trans h.nextBlockOffset, h'.buffer.trans h.buffer⟩

theorem Minds.of_eq (hf : s'.fresh = s.fresh) (hc : s'.clientCbs = s.clientCbs)
    (hq : s'.requests = s.requests) (hr : s'.responses = s.responses) : Minds s s' := by
  refine ⟨hf.ge, ⟨fun _ => true, hc.trans (List.filter_true _).symm⟩, ?_, ?_⟩
  · rw [hq]
    exact Descends.refl SameOwner.refl _
  · rw [hr]
    exact Descends.refl SameBytes.refl _

theorem Minds.refl (s : State) : Minds s s := Minds.of_eq rfl rfl rfl rfl

theorem Minds.trans (h : Minds s s') (h' : Minds s' s'') : Minds s s'' := by
  obtain ⟨p, hp⟩ := h.clientCbs
  obtain ⟨p', hp'⟩ := h'.clientCbs
  refine ⟨h.fresh.trans h'.fresh, ⟨_, by rw [hp', hp, List.filter_filter]⟩, ?_, ?_⟩
  · refine Descends.trans ?_ ?_ h.requests h'.requests
    · exact fun x y hx hxy => hxy.role.trans hx
    · exact fun x y z hxy hyz => hxy.trans hyz
  · refine Descends.trans ?_ ?_ h.responses h'.responses
    · exact fun x y hx hxy => hxy.owner.role.trans hx
    · exact fun x y z hxy hyz => hxy.trans hyz

/-- buffers and callbacks are freed -/
theorem Shrinks.minds (h : Shrinks s s') (hc : ∃ p, s'.clientCbs = s.clientCbs.filter p) : Minds s s' :=
  ⟨h.fresh.ge, hc, Descends.of_subset SameOwner.refl fun _ => h.mem_requests,
    Descends.of_subset SameBytes.refl fun _ => h.mem_responses⟩

theorem Serves.trans (h : Serves l l') (h' : Serves l' l'') : Serves l l'' := by
  intro hl
  obtain ⟨hl', h1⟩ := h hl
  obtain ⟨hl'', h2⟩ := h' hl'
  exact ⟨hl'', h1.trans h2⟩

theorem Serves.of_eq (hs : l'.state = l.state) (hq : l'.requestBuffer = l.requestBuffer)
    (hr : l'.responseBuffer = l.responseBuffer) : Serves l l' := by
  intro hl
  refine ⟨⟨fun b hb => hl.request b (hq ▸ hb), fun b hb => hl.response b (hr ▸ hb)⟩, ?_⟩
  rw [hs]
  exact Minds.refl _

theorem Serves.refl (l : Locals) : Serves l l := Serves.of_eq rfl rfl rfl

theorem serves_emit (e : Event) (l : Locals) : Serves l (l.emit e) := Serves.of_eq rfl rfl rfl

theorem serves_withResponse (p : Message) (l : Locals) : Serves l (l.withResponse p) :=
  Serves.of_eq rfl rfl rfl

/-! ## freeing and sending -/

theorem minds_scrub (s : State) : Minds s (s.withBuffers ocBlockwiseScrubBuffers) :=
  (shrinks_scrub s).minds ⟨fun _ => true, (List.filter_true _).symm⟩

theorem minds_freeClientCb (cb : Nat) (s : State) : Minds s (freeClientCb cb s) :=
  (shrinks_freeClientCb cb s).minds ⟨_, rfl⟩

theorem minds_removeClientCbByMid (mid : UInt16) (s : State) :
    Minds s (ocRiRemoveClientCbByMid mid s) := by
  unfold ocRiRemoveClientCbByMid
  split
  · exact Minds.refl s
  · exact minds_freeClientCb _ s

theorem sameBytes_unref (b : BlockwiseState) (p : Bool) :
    SameBytes b (if p then { b with refCount := 0 } else b) := by
  cases p
  · exact SameBytes.refl b
  · exact ⟨⟨rfl, rfl, rfl, rfl⟩, rfl, rfl⟩

theorem minds_dropObservers (gone : Nat → Bool) (s : State) : Minds s (dropObservers gone s) :=
  ⟨le_refl _, ⟨fun _ => true, (List.filter_true _).symm⟩, Descends.refl SameOwner.refl _,
    Descends.map (fun b => sameBytes_unref b (gone b.id)) s.responses⟩

theorem minds_clearTransaction (id : Nat) (s : State) : Minds s (coapClearTransaction id s) :=
  Minds.of_eq rfl rfl rfl rfl

theorem minds_newTransaction {granted : Bool} {mid : UInt16} {o : Option Nat}
    (h : coapNewTransaction granted mid endpoint s = (o, s')) : Minds s s' := by
  unfold coapNewTransaction at h
  split at h
  · cases h
    exact ⟨Nat.le_succ _, ⟨fun _ => true, (List.filter_true _).symm⟩, Descends.refl SameOwner.refl _,
      Descends.refl SameBytes.refl _⟩
  · cases h
    exact Minds.refl s

theorem minds_sendTransaction (initial : Nat) (gone : Nat → Bool) (t : Transaction) (s : State) :
    Minds s (coapSendTransaction initial gone t s).1 := by
  unfold coapSendTransaction
  split
  · split
    · exact Minds.of_eq rfl rfl rfl rfl
    · exact (((minds_dropObservers gone s).trans (minds_removeClientCbByMid t.mid _)).trans
        (minds_scrub _)).trans (minds_clearTransaction t.id _)
  · exact minds_clearTransaction t.id s

/-- a transaction is stored and sent -/
theorem minds_putSend (initial : Nat) (gone : Nat → Bool) (t : Transaction) (s : State) :
    Minds s (coapSendTransaction initial gone t (putTransaction t s)).1 := by
  have hput : Minds s (putTransaction t s) := Minds.of_eq rfl rfl rfl rfl
  exact hput.trans (minds_sendTransaction initial gone t _)

theorem minds_sendMessage (l : Locals) : Minds l.state (sendMessage env endpoint message l).1 := by
  unfold sendMessage
  dsimp only
  refine Minds.trans ?_ (minds_scrub _)
  split
  · split
    · exact Minds.refl _
    · split
      · exact minds_putSend _ _ _ _
      · exact minds_clearTransaction _ _
  · exact minds_clearTransaction _ _
  · exact Minds.refl _

/-! ## stores -/

/-- a store over buffers of a server -/
theorem descends_put_server {R : BlockwiseState → BlockwiseState → Prop} (hR : ∀ x, R x x)
    (hb : b.role = .server) (bs : List BlockwiseState) :
    Descends (fun b => b.role = .server) R bs (Keyed.put BlockwiseState.id b bs) := by
  intro y hy
  rcases mem_put hy with rfl | ⟨h, _⟩
  · exact Or.inl hb
  · exact Or.inr ⟨y, h, hR y⟩

theorem serves_setRequest (hb : b.role = .server) : Serves l (l.setRequest b) := by
  intro hl
  refine ⟨⟨fun x hx => Option.some.inj hx ▸ hb, hl.response⟩, le_refl _,
    ⟨fun _ => true, (List.filter_true _).symm⟩, ?_, Descends.refl SameBytes.refl _⟩
  exact descends_put_server SameOwner.refl hb _

theorem serves_setResponse (hb : b.role = .server) : Serves l (l.setResponse b) := by
  intro hl
  refine ⟨⟨hl.request, fun x hx => Option.some.inj hx ▸ hb⟩, le_refl _,
    ⟨fun _ => true, (List.filter_true _).symm⟩, Descends.refl SameOwner.refl _, ?_⟩
  exact descends_put_server SameBytes.refl hb _

/-- a store through `request_buffer` -/
theorem serves_storeRequest (hb : l.requestBuffer = some b) (hr : b'.role = b.role) :
    Serves l (l.setRequest b') :=
  fun hl => serves_setRequest (hr.trans (hl.request b hb)) hl

/-- a store through `response_buffer` -/
theorem serves_storeResponse (hb : l.responseBuffer = some b) (hr : b'.role = b.role) :
    Serves l (l.setResponse b') :=
  fun hl => serves_setResponse (hr.trans (hl.response b hb)) hl

/-- with a packet -/
theorem serves_replyRequest (p : Message) (hb : l.requestBuffer = some b) (hr : b'.role = b.role) :
    Serves l ((l.withResponse p).setRequest b') :=
  (serves_withResponse p l).trans (serves_storeRequest hb hr)

/-- with a packet whose payload comes from a buffer -/
theorem serves_blockResponse (p : Message) (x : BlockwiseState) (hb : l.responseBuffer = some b)
    (hr : b'.role = b.role) : Serves l ((l.withBlock p x).setResponse b') := by
  have h1 : Serves l (l.withBlock p x) := Serves.of_eq rfl rfl rfl
  exact h1.trans (serves_storeResponse hb hr)

theorem serves_unref (l : Locals) : Serves l l.unrefRequest.unrefResponse := by
  have h1 : Serves l l.unrefRequest := by
    unfold Locals.unrefRequest
    split
    · exact Serves.refl l
    · rename_i b hb
      exact serves_storeRequest hb rfl
  refine h1.trans ?_
  unfold Locals.unrefResponse
  split
  · exact Serves.refl _
  · rename_i b hb
    exact serves_storeResponse hb rfl

theorem serves_pointRequest (o : Option BlockwiseState) (h : ∀ b, o = some b → b.role = .server) :
    Serves l (l.pointRequest o) :=
  fun hl => ⟨⟨h, hl.response⟩, Minds.refl _⟩

theorem serves_pointResponse (o : Option BlockwiseState) (h : ∀ b, o = some b → b.role = .server) :
    Serves l (l.pointResponse o) :=
  fun hl => ⟨⟨hl.request, h⟩, Minds.refl _⟩

theorem serves_freeRequest (b : BlockwiseState) : Serves l (l.freeRequest b) := by
  intro hl
  refine ⟨⟨fun x hx => absurd hx (by simp [Locals.freeRequest]), hl.response⟩, ?_⟩
  exact (shrinks_freeRequest b.id l.state).minds ⟨fun _ => true, (List.filter_true _).symm⟩

theorem serves_dropObservers (gone : Nat → Bool) : Serves l (l.dropObservers gone) := by
  intro hl
  refine ⟨⟨hl.request, fun b hb => ?_⟩, minds_dropObservers gone l.state⟩
  obtain ⟨x, hx, rfl⟩ := Option.map_eq_some_iff.mp hb
  exact (sameBytes_unref x (gone x.id)).owner.role.trans (hl.response x hx)

theorem serves_allocRequest (env : Env) (endpoint : Endpoint) (message : Message) (l : Locals) :
    Serves l (l.allocRequest env endpoint message) := by
  rcases allocRequest_cases env endpoint message l with ⟨_, e⟩ | ⟨_, e⟩
  · rw [e]
    exact serves_pointRequest none fun b hb => absurd hb (by simp)
  · rw [e]
    refine fun hl => ⟨⟨fun x hx => Option.some.inj hx ▸ rfl, hl.response⟩, Nat.le_succ _,
      ⟨fun _ => true, (List.filter_true _).symm⟩, ?_, Descends.refl SameBytes.refl _⟩
    exact Descends.snoc SameOwner.refl rfl

theorem serves_newResponse (env : Env) (endpoint : Endpoint) (href : List UInt8) (method : UInt8)
    (l : Locals) : Serves l (l.newResponse env href endpoint method .server) := by
  rcases newResponse_cases env href endpoint method .server l with ⟨e, _⟩ | ⟨b, _, _, hb, e⟩
  · rw [e]
    exact serves_pointResponse none fun b hb => absurd hb (by simp)
  · have hrole : b.role = .server := by rw [hb]; rfl
    rw [e]
    refine fun hl => ⟨⟨hl.request, fun x hx => Option.some.inj hx ▸ hrole⟩, Nat.le_succ _,
      ⟨fun _ => true, (List.filter_true _).symm⟩, Descends.refl SameOwner.refl _, ?_⟩
    exact Descends.snoc SameBytes.refl hrole

/-! ## the branches of a request -/

theorem role_setQuery (b : BlockwiseState) (query : List UInt8) : (setQuery b query).role = b.role := by
  unfold setQuery
  split <;> rfl

theorem role_handle (max : Nat) (b : BlockwiseState) (offset : Nat) (incoming : List UInt8) :
    (ocBlockwiseHandleBlock max b offset incoming).2.role = b.role :=
  (sameKey_handle max b offset incoming).role

theorem role_dispatch (b : BlockwiseState) (offset size : Nat) :
    (ocBlockwiseDispatchBlock b offset size).2.role = b.role :=
  (sameKey_dispatch b offset size).role

/-- a lookup of the server gives a buffer of the server -/
theorem role_findBuffer {bs : List BlockwiseState} {href query : List UInt8} {method : UInt8} {role : Role}
    (h : ocBlockwiseFindBuffer bs href endpoint method query role = some b) : b.role = role := by
  have hp := List.find?_some h
  unfold BlockwiseState.serves at hp
  simp only [Bool.and_eq_true, beq_iff_eq] at hp
  exact hp.2.1.1.2

theorem serves_storePayload (r : UInt8) (l : Locals) :
    Serves l (storePayload cfg env endpoint message r l).1 := by
  refine (serves_allocRequest env endpoint message l).trans ?_
  unfold storePayload
  dsimp only
  split
  · exact Serves.refl _
  · rename_i b hb
    split
    · exact Serves.refl _
    · rename_i b' hh
      have hr := role_handle cfg.maxAppDataSize b 0
        (message.payload.take (incomingBlockLen message % 2^16))
      rw [hh] at hr
      exact serves_storeRequest hb ((role_setQuery b' message.uriQuery).trans hr)

theorem serves_uploadBuffer (env : Env) (endpoint : Endpoint) (message : Message) (num : UInt32)
    (l : Locals) : Serves l (uploadBuffer env endpoint message num l) := by
  unfold uploadBuffer
  split
  · rename_i b hb
    refine serves_pointRequest _ fun x hx => ?_
    exact Option.some.inj hx ▸ role_findBuffer hb
  · split
    · refine (serves_allocRequest env endpoint message l).trans ?_
      dsimp only
      split
      · exact Serves.refl _
      · rename_i b hb
        exact serves_storeRequest hb (role_setQuery b message.uriQuery)
    · exact serves_pointRequest none fun x hx => absurd hx (by simp)

theorem serves_block1Request (p : BlockOption) (l : Locals) :
    Serves l (block1Request cfg env endpoint message p l).1 := by
  refine (serves_uploadBuffer env endpoint message p.num l).trans ?_
  unfold block1Request
  dsimp only
  split
  · exact Serves.refl _
  · rename_i b hb
    split
    · exact Serves.refl _
    · rename_i b' hh
      have hr := role_handle cfg.maxAppDataSize b p.offset.toNat (message.payload.take
        (min (incomingBlockLen message % 2^16) p.size.toNat))
      rw [hh] at hr
      split
      · exact serves_replyRequest _ hb hr
      · exact serves_replyRequest _ hb hr

theorem serves_dispatchResponse (p : BlockOption) (hb : l.responseBuffer = some b) :
    Serves l (dispatchResponse cfg p l b).1 := by
  unfold dispatchResponse
  have hr := role_dispatch b p.offset.toNat p.size.toNat
  split
  · exact Serves.refl l
  · rename_i payload b' hd
    rw [hd] at hr
    exact serves_blockResponse _ _ hb hr

theorem serves_openTransfer (p : BlockOption) (l : Locals) :
    Serves l (openTransfer cfg env endpoint message p l).1 := by
  unfold openTransfer
  split
  · split
    · split
      · rename_i b hb
        refine serves_pointRequest _ fun x hx => ?_
        exact Option.some.inj hx ▸ role_findBuffer hb
      · exact serves_storePayload 1 l
    · exact Serves.refl l
  · exact Serves.refl l

theorem serves_block2Request (p : BlockOption) (l : Locals) :
    Serves l (block2Request cfg env endpoint message p l).1 := by
  refine (serves_withResponse (coapSetHeaderContentFormat l.response (block2Format message)) l).trans ?_
  unfold block2Request
  dsimp only
  generalize l.withResponse (coapSetHeaderContentFormat l.response (block2Format message)) = l1
  split
  · rename_i b hb
    refine (serves_pointResponse (some b) fun x hx => ?_).trans (serves_dispatchResponse p rfl)
    exact Option.some.inj hx ▸ role_findBuffer hb
  · exact serves_openTransfer p l1

theorem serves_requestBranch (l : Locals) : Serves l (requestBranch cfg env endpoint message l).1 := by
  unfold requestBranch
  split
  · exact serves_block1Request _ l
  · exact serves_block2Request _ l
  · unfold regularRequest
    split
    · split
      · exact serves_storePayload 0 l
      · exact Serves.refl l
    · exact Serves.refl l

/-! ## the entity handler -/

section
variable (cfg env endpoint message)

theorem serves_consumePayload (l : Locals) : Serves l (consumePayload l) := by
  unfold consumePayload
  split
  · exact Serves.refl l
  · split
    · exact serves_freeRequest _
    · exact Serves.refl l

theorem serves_allocResponse (l : Locals) : Serves l (l.allocResponse env endpoint message) := by
  unfold Locals.allocResponse
  refine (serves_newResponse env endpoint (coapGetHeaderUriPath message) message.code l).trans ?_
  dsimp only
  split
  · exact Serves.refl _
  · rename_i b hb
    exact serves_storeResponse hb (role_setQuery b _)

theorem serves_reachResource (l : Locals) : Serves l (reachResource env endpoint message l) := by
  unfold reachResource
  split
  · exact (serves_consumePayload l).trans (serves_allocResponse env endpoint message _)
  · exact serves_consumePayload l

theorem serves_observeRequest (l : Locals) : Serves l (observeRequest env message l) := by
  unfold observeRequest
  split
  · exact Serves.refl l
  · refine (serves_dropObservers env.gone).trans ?_
    dsimp only
    split
    · exact Serves.of_eq rfl rfl rfl
    · exact Serves.refl _

theorem serves_setReply (code length : Nat) (l : Locals) :
    Serves l (setReply cfg message code length l) := by
  rcases setReply_cases cfg message code length l with ⟨p, e⟩ | ⟨b, p, p', hb, _, e⟩
  · rw [e]
    exact Serves.of_eq rfl rfl rfl
  · rw [e]
    have h1 := serves_withResponse p l
    have h2 : Serves (l.withResponse p) ((l.withResponse p).setResponse { b with payloadSize := length }) :=
      serves_storeResponse hb rfl
    exact (h1.trans h2).trans (Serves.of_eq rfl rfl rfl)

theorem serves_answer (l : Locals) : Serves l (answer cfg env endpoint message l) := by
  unfold answer
  split
  · exact Serves.of_eq rfl rfl rfl
  · split
    · exact Serves.of_eq rfl rfl rfl
    · exact serves_setReply cfg message _ _ l

theorem serves_entityHandler (l : Locals) :
    Serves l (ocRiInvokeCoapEntityHandler cfg env endpoint message l).2 := by
  refine (serves_reachResource env endpoint message l).trans ?_
  unfold ocRiInvokeCoapEntityHandler
  dsimp only
  split
  · rename_i b _ hb
    have hwrite : Serves (reachResource env endpoint message l)
        ((reachResource env endpoint message l).setResponse
          { b with buffer := write b.buffer 0 env.entity.representation }) :=
      serves_storeResponse hb rfl
    have hrun : Serves (reachResource env endpoint message l) (runHandler env endpoint message
        (requestPayload l) b (reachResource env endpoint message l)) :=
      hwrite.trans (Serves.of_eq rfl rfl rfl)
    refine hrun.trans ((serves_observeRequest env message _).trans ?_)
    exact serves_answer cfg env endpoint message _
  · exact serves_setReply cfg message _ _ _

theorem serves_requestHandler (block2 : Option BlockOption) (l : Locals) :
    Serves l (requestHandler cfg env endpoint message block2 l).1 := by
  unfold requestHandler
  dsimp only
  refine (serves_emit (.invoked endpoint message l.requestBuffer) l).trans ?_
  refine (serves_entityHandler cfg env endpoint message _).trans ?_
  split
  · rename_i b _ hb
    split
    · exact serves_blockResponse _ _ hb (role_dispatch b _ _)
    · unfold firstBlock
      dsimp only
      split
      · exact serves_blockResponse _ _ hb (role_dispatch b _ _)
      · exact serves_blockResponse _ _ hb (role_dispatch b _ _)
  · exact serves_unref _

/-! ## to the end -/

theorem minds_leave (hl : ServerLocals l) (label : Label) :
    Minds l.state (leave env endpoint message l label).1 := by
  have hreset : Serves l (resetMessage endpoint message l) := by
    unfold resetMessage
    split
    · exact Serves.of_eq rfl rfl rfl
    · exact Serves.of_eq rfl rfl rfl
  have hend : ∀ l' : Locals, Serves l l' →
      Minds l.state (sendMessage env endpoint message l'.unrefRequest.unrefResponse).1 := by
    intro l' h
    exact ((h.trans (serves_unref l')) hl).2.trans (minds_sendMessage _)
  cases label with
  | requestHandler => exact hend _ hreset
  | initResetMessage => exact hend _ hreset
  | freeBlockwiseBuffers => exact hend l (Serves.refl l)
  | sendMessage => exact minds_sendMessage l

theorem minds_processRequest (hl : ServerLocals l) :
    Minds l.state (processRequest cfg env endpoint message l).1 := by
  have hbranch : Serves l (requestBranch cfg env endpoint message (l.emit (.accepted endpoint message))).1 :=
    (serves_emit (.accepted endpoint message) l).trans (serves_requestBranch _)
  unfold processRequest
  dsimp only
  obtain ⟨h1, h2⟩ := hbranch hl
  generalize requestBranch cfg env endpoint message (l.emit (.accepted endpoint message)) = r at h1 h2 ⊢
  obtain ⟨l1, label⟩ := r
  refine h2.trans ?_
  cases label with
  | requestHandler =>
    obtain ⟨h3, h4⟩ := serves_requestHandler cfg env endpoint message (coapGetHeaderBlock2 message) l1 h1
    exact h4.trans (minds_leave env endpoint message h3 _)
  | initResetMessage => exact minds_leave env endpoint message h1 _
  | freeBlockwiseBuffers => exact minds_leave env endpoint message h1 _
  | sendMessage => exact minds_leave env endpoint message h1 _

theorem minds_startResponse (s : State) : Minds s (startResponse endpoint message s).2 := by
  unfold startResponse coapGetMid remember
  split
  · exact Minds.refl s
  · split
    · exact Minds.refl s
    · exact Minds.of_eq rfl rfl rfl rfl

/-- **`coap_receive` with a request** minds the client's buffers. -/
theorem receiveRequest_minds (s : State) (events : List Event) :
    Minds s (receiveRequest cfg env endpoint message s events).1 := by
  have hlocals : ∀ p t s, ServerLocals (requestLocals p t s events) :=
    fun p t s => ⟨fun b hb => absurd hb (by simp [requestLocals]),
      fun b hb => absurd hb (by simp [requestLocals])⟩
  unfold receiveRequest
  split
  · exact Minds.refl s
  · dsimp only
    refine (minds_startResponse endpoint message s).trans ?_
    split
    · rename_i s1 hn
      exact (minds_newTransaction hn).trans (minds_leave env endpoint message (hlocals _ _ _) _)
    · rename_i id s1 hn
      exact (minds_newTransaction hn).trans (minds_processRequest cfg env endpoint message (hlocals _ _ _))

theorem minds_cancelTransaction (s : State) : Minds s (cancelTransaction endpoint message s) := by
  rcases cancelTransaction_cases endpoint message s with e | ⟨t, _, _, e⟩
  · rw [e]
    exact Minds.refl s
  · rw [e]
    exact minds_clearTransaction t.id s

end

/-- the retransmission timer -/
theorem minds_checkTransactions (timers : Timers) (s : State) :
    Minds s (coapCheckTransactions timers s).1 := by
  have hfold : ∀ (ts : List Transaction) (r : State × List Event),
      Minds r.1 (ts.foldl (checkTransaction timers) r).1 := by
    intro ts
    induction ts with
    | nil => exact fun r => Minds.refl r.1
    | cons t ts ih =>
      intro r
      refine Minds.trans ?_ (ih _)
      unfold checkTransaction
      split
      · exact minds_putSend _ _ _ _
      · exact Minds.refl r.1
  exact hfold s.transactions (s, [])

end Coap
