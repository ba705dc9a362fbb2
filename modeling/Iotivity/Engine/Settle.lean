import Iotivity.Engine.Frame

/-!
# The end of `coap_receive`

`Settles o s s'`: on the way from `s` to `s'` no transaction is touched but the one with address `o`,
uploads and representations of a server are those that were there before, and addresses stay
distinct.  This holds from every label behind `request_handler` to the end of the function, with
the transaction of the message in the place of `o`, and for the whole branch of messages that are
not requests.
-/

namespace Coap
open Memory Keyed

variable {s s' s'' : State} {l l' l'' : Locals} {b b' b'' : BlockwiseState} {o : Option Nat}

structure Settles (o : Option Nat) (s s' : State) : Prop where
  wf : s.WF → s'.WF
  fresh : s.fresh ≤ s'.fresh
  requests : QuietRequests s s'
  responses : QuietResponses s s'
  kept : ∀ t ∈ s.transactions, o ≠ some t.id → t ∈ s'.transactions

theorem Settles.refl (o : Option Nat) (s : State) : Settles o s s :=
  ⟨fun h => h, le_refl _, QuietRequests.refl s, QuietResponses.refl s, fun _ ht _ => ht⟩

theorem Settles.trans (h : Settles o s s') (h' : Settles o s' s'') : Settles o s s'' :=
  ⟨fun hs => h'.wf (h.wf hs), h.fresh.trans h'.fresh, h.requests.trans h'.requests,
    h.responses.trans h'.responses, fun t ht hne => h'.kept t (h.kept t ht hne) hne⟩

theorem Shrinks.settles (h : Shrinks s s') (o : Option Nat) : Settles o s s' :=
  ⟨h.wf, h.fresh.ge, h.quietRequests, h.quietResponses, fun _ ht _ => h.transactions ▸ ht⟩

theorem settles_dropObservers (o : Option Nat) (gone : Nat → Bool) (s : State) :
    Settles o s (dropObservers gone s) :=
  ⟨dropObservers_wf gone, le_refl _, QuietRequests.refl s, quietResponses_dropObservers gone s,
    fun _ ht _ => ht⟩

/-! ## transactions -/

theorem settles_putTransaction {t : Transaction} (s : State) (ho : o = some t.id) :
    Settles o s (putTransaction t s) := by
  subst ho
  refine ⟨fun h => ⟨h.requests, h.responses, h.transactions.put t⟩, le_refl _, QuietRequests.refl s,
    QuietResponses.refl s, fun x hx hne => mem_put_other hx fun he => hne (by rw [he])⟩

theorem settles_clearTransaction (id : Nat) (s : State) :
    Settles (some id) s (coapClearTransaction id s) := by
  refine ⟨fun h => ⟨h.requests, h.responses, h.transactions.filter _⟩, le_refl _,
    QuietRequests.refl s, QuietResponses.refl s, fun x hx hne => ?_⟩
  exact mem_remove.mpr ⟨hx, fun he => hne (by rw [he])⟩

theorem settles_sendTransaction (initial : Nat) (gone : Nat → Bool) {t : Transaction} (s : State)
    (ho : o = some t.id) : Settles o s (coapSendTransaction initial gone t s).1 := by
  subst ho
  unfold coapSendTransaction
  dsimp only
  split
  · split
    · exact settles_putTransaction s rfl
    · refine (settles_dropObservers _ gone s).trans ?_
      refine ((shrinks_removeClientCbByMid t.mid _).settles _).trans ?_
      exact ((shrinks_scrub _).settles _).trans (settles_clearTransaction t.id _)
  · exact settles_clearTransaction t.id s

/-- a transaction is stored and sent -/
theorem settles_putSend (initial : Nat) (gone : Nat → Bool) {t : Transaction} (s : State)
    (ho : o = some t.id) :
    Settles o s (coapSendTransaction initial gone t (putTransaction t s)).1 :=
  (settles_putTransaction s ho).trans (settles_sendTransaction initial gone _ ho)

/-- the transaction that has just been made is the last one -/
theorem coapNewTransaction_some {granted : Bool} {mid : UInt16} {endpoint : Endpoint} {id : Nat}
    (h : coapNewTransaction granted mid endpoint s = (some id, s')) :
    granted = true ∧ id = s.fresh ∧
      s' = { s with transactions := s.transactions ++ [⟨s.fresh, mid, endpoint, 0, 0, []⟩],
                    fresh := s.fresh + 1 } := by
  unfold coapNewTransaction at h
  split at h
  · obtain ⟨h1, h2⟩ := Prod.mk.inj h
    exact ⟨‹_›, (Option.some.inj h1).symm, h2.symm⟩
  · exact absurd (Prod.mk.inj h).1 (by simp)

theorem coapNewTransaction_none {granted : Bool} {mid : UInt16} {endpoint : Endpoint}
    (h : coapNewTransaction granted mid endpoint s = (none, s')) : granted = false ∧ s' = s := by
  unfold coapNewTransaction at h
  split at h
  · exact absurd (Prod.mk.inj h).1 (by simp)
  · exact ⟨by simpa using ‹¬ granted = true›, (Prod.mk.inj h).2.symm⟩

theorem settles_newTransaction {granted : Bool} {mid : UInt16} {endpoint : Endpoint} {id : Nat}
    (o : Option Nat) (h : coapNewTransaction granted mid endpoint s = (some id, s')) :
    Settles o s s' := by
  obtain ⟨_, _, rfl⟩ := coapNewTransaction_some h
  have hle := Nat.le_succ s.fresh
  refine ⟨fun hs => ⟨hs.requests.mono hle, hs.responses.mono hle, hs.transactions.snoc rfl⟩, hle,
    QuietRequests.refl s, QuietResponses.refl s, fun t ht _ => List.mem_append_left _ ht⟩

/-! ## `send_message` and the labels in front of it -/

section
variable (env : Env) (endpoint : Endpoint) (message : Message)

theorem settles_sendMessage (l : Locals) :
    Settles l.transaction l.state (sendMessage env endpoint message l).1 := by
  unfold sendMessage
  dsimp only
  refine Settles.trans ?_ ((shrinks_scrub _).settles _)
  split
  · rename_i id _ htr
    rw [htr]
    split
    · exact Settles.refl _ _
    · rename_i t ht
      have hid : t.id = id := by simpa using List.find?_some ht
      subst hid
      split
      · exact settles_putSend env.initialInterval env.gone l.state rfl
      · exact settles_clearTransaction t.id l.state
  · rename_i id _ htr
    rw [htr]
    exact settles_clearTransaction id l.state
  · exact Settles.refl _ _

/-- a stage that leaves uploads and representations alone -/
theorem Stage.settles (h : Stage l l') (hs : l.Sound) (hq : QuietRequests l.state l'.state)
    (hr : QuietResponses l.state l'.state) (o : Option Nat) : Settles o l.state l'.state :=
  ⟨fun _ => (h.sound hs).wf, h.fresh, hq, hr, fun _ ht _ => h.transactions ▸ ht⟩

theorem settles_unref (hs : l.Sound) (o : Option Nat) :
    Settles o l.state l.unrefRequest.unrefResponse.state := by
  have hs1 := (stage_unrefRequest l).sound hs
  refine ((stage_unrefRequest l).settles hs ?_ ?_ o).trans
    ((stage_unrefResponse l.unrefRequest).settles hs1 ?_ ?_ o)
  · exact quietRequests_unrefRequest hs
  · unfold QuietResponses
    rw [responses_unrefRequest]
    exact QuietResponses.refl l.state
  · unfold QuietRequests
    rw [requests_unrefResponse]
    exact QuietRequests.refl _
  · exact quietResponses_unrefResponse hs1

theorem transaction_unref (l : Locals) :
    l.unrefRequest.unrefResponse.transaction = l.transaction :=
  ((stage_unrefRequest l).trans (stage_unrefResponse _)).transaction

theorem settles_sendUnref (hs : l.Sound) :
    Settles l.transaction l.state
      (sendMessage env endpoint message l.unrefRequest.unrefResponse).1 := by
  refine (settles_unref hs l.transaction).trans ?_
  have h := settles_sendMessage env endpoint message l.unrefRequest.unrefResponse
  rwa [transaction_unref] at h

theorem settles_leave (hs : l.Sound) (label : Label) :
    Settles l.transaction l.state (leave env endpoint message l label).1 := by
  have hreset : Settles l.transaction l.state
      (sendMessage env endpoint message
        (resetMessage endpoint message l).unrefRequest.unrefResponse).1 := by
    have h1 := stage_resetMessage endpoint message l
    have h2 : (resetMessage endpoint message l).state = l.state := by
      unfold resetMessage
      split <;> rfl
    have h3 := settles_sendUnref env endpoint message (h1.sound hs)
    rwa [h1.transaction, h2] at h3
  cases label with
  | requestHandler => exact hreset
  | initResetMessage => exact hreset
  | freeBlockwiseBuffers => exact settles_sendUnref env endpoint message hs
  | sendMessage => exact settles_sendMessage env endpoint message l

end

/-! ## messages that are not requests -/

/-- a later stage works on a transaction that was not there at the start -/
theorem Settles.thenNew (h : Settles none s s') (h' : Settles o s' s'')
    (ho : ∀ t ∈ s.transactions, o ≠ some t.id) : Settles none s s'' :=
  ⟨fun hs => h'.wf (h.wf hs), h.fresh.trans h'.fresh, h.requests.trans h'.requests,
    h.responses.trans h'.responses,
    fun t ht _ => h'.kept t (h.kept t ht (by simp)) (ho t ht)⟩

/-- the client has done nothing so far to what was there in `s` -/
structure ClientSound (s : State) (l : Locals) : Prop where
  sound : l.Sound
  settles : Settles none s l.state
  request : ∀ b, l.requestBuffer = some b → b.role = .client
  response : ∀ b, l.responseBuffer = some b → b.role = .client
  other : ∀ t ∈ s.transactions, l.transaction ≠ some t.id

/-- the same between two stages -/
def Flow.Sound (s : State) : Flow → Prop
  | .next l _ => ClientSound s l ∧ l.transaction = none
  | .jump l _ => ClientSound s l
  | .fault l => Settles none s l.state

theorem sameUpload_client (hb : b.role = .client) (hk : SameKey b b') : SameUpload b b' :=
  ⟨hk, fun h => absurd (hb.symm.trans h) (by simp)⟩

theorem sameRep_client (hb : b.role = .client) (hk : SameKey b b') : SameRep b b' :=
  ⟨hk, fun h => absurd (hb.symm.trans h) (by simp)⟩

/-- a store to a request buffer of the client -/
theorem ClientSound.setRequest (h : ClientSound s l) (hb : l.requestBuffer = some b)
    (hk : SameKey b b') : ClientSound s (l.setRequest b') := by
  have hrole := h.request b hb
  have hst := stage_setRequest l b'
  refine ⟨hst.sound h.sound, h.settles.trans (hst.settles h.sound ?_ ?_ none), ?_, h.response, h.other⟩
  · exact quietRequests_setRequest h.sound hb (sameUpload_client hrole hk)
  · exact QuietResponses.refl l.state
  · intro x hx
    rw [← Option.some.inj hx, hk.role]
    exact hrole

/-- a store to a response buffer of the client -/
theorem ClientSound.setResponse (h : ClientSound s l) (hb : l.responseBuffer = some b)
    (hk : SameKey b b') : ClientSound s (l.setResponse b') := by
  have hrole := h.response b hb
  have hst := stage_setResponse l b'
  refine ⟨hst.sound h.sound, h.settles.trans (hst.settles h.sound ?_ ?_ none), h.request, ?_, h.other⟩
  · exact QuietRequests.refl l.state
  · exact quietResponses_setResponse h.sound hb (sameRep_client hrole hk)
  · intro x hx
    rw [← Option.some.inj hx, hk.role]
    exact hrole

/-- local variables that have no part in `ClientSound` -/
theorem ClientSound.congr (h : ClientSound s l) (hs : l'.state = l.state)
    (ht : l'.transaction = l.transaction) (hq : l'.requestBuffer = l.requestBuffer)
    (hr : l'.responseBuffer = l.responseBuffer) : ClientSound s l' :=
  ⟨(Stage.of_eq hs ht hq hr).sound h.sound, hs ▸ h.settles, fun b hb => h.request b (hq ▸ hb),
    fun b hb => h.response b (hr ▸ hb), fun t hm => ht ▸ h.other t hm⟩

/-- a transaction is made for a follow-up request -/
theorem ClientSound.withTransaction {granted : Bool} {mid : UInt16} {endpoint : Endpoint} {id : Nat}
    {s1 : State} (hs : s.WF) (h : ClientSound s l)
    (hn : coapNewTransaction granted mid endpoint l.state = (some id, s1)) :
    ClientSound s (l.withTransaction id s1) := by
  have hset := settles_newTransaction none hn
  obtain ⟨_, hid, he⟩ := coapNewTransaction_some hn
  refine ⟨⟨hset.wf h.sound.wf, ?_, ?_⟩, h.settles.trans hset, h.request, h.response, ?_⟩
  · intro b hb
    rw [he]
    exact h.sound.request b hb
  · intro b hb
    rw [he]
    exact h.sound.response b hb
  · intro t ht heq
    have h1 := hs.transactions.lt t ht
    have h2 := h.settles.fresh
    have h3 : id = t.id := Option.some.inj heq
    omega

theorem sameKey_dispatch (b : BlockwiseState) (offset size : Nat) :
    SameKey b (ocBlockwiseDispatchBlock b offset size).2 := by
  unfold ocBlockwiseDispatchBlock
  split <;> exact ⟨rfl, rfl, rfl, rfl, rfl, rfl⟩

theorem sameKey_handle (max : Nat) (b : BlockwiseState) (offset : Nat) (incoming : List UInt8) :
    SameKey b (ocBlockwiseHandleBlock max b offset incoming).2 := by
  unfold ocBlockwiseHandleBlock
  split
  · exact SameKey.refl b
  · split <;> exact ⟨rfl, rfl, rfl, rfl, rfl, rfl⟩

section
variable (cfg : Config) (env : Env) (endpoint : Endpoint) (message : Message)

theorem continueRequest_sound (responseMid : UInt16) (block1 : Option BlockOption) (hs : s.WF)
    (h : ClientSound s l) (ht : l.transaction = none) (hb : l.requestBuffer = some b) :
    (continueRequest cfg env endpoint message responseMid block1 l b).Sound s := by
  unfold continueRequest
  dsimp only
  generalize (if block1.isSome = true then _ else _ : Nat) = offset
  generalize (if block1.isSome = true then _ else _ : UInt16) = size
  have hk := sameKey_dispatch b offset size.toNat
  split
  · rename_i b1 hd
    rw [hd] at hk
    exact ⟨h.setRequest hb (hk.trans ⟨rfl, rfl, rfl, rfl, rfl, rfl⟩), ht⟩
  · rename_i payload b1 hd
    rw [hd] at hk
    have hk1 : SameKey b (if block1.isSome = true then b1 else { b1 with refCount := 1 }) := by
      split
      · exact hk
      · exact hk.trans ⟨rfl, rfl, rfl, rfl, rfl, rfl⟩
    generalize (if block1.isSome = true then b1 else { b1 with refCount := 1 }) = b2 at hk1 ⊢
    split
    · exact ⟨h.setRequest hb hk1, ht⟩
    · rename_i hn _
      exact (h.withTransaction hs hn).settles
    · rename_i cb hn _
      have h1 := h.withTransaction hs hn
      refine ClientSound.setRequest (b := b) ?_ hb (hk1.trans ⟨rfl, rfl, rfl, rfl, rfl, rfl⟩)
      exact h1.congr rfl rfl rfl rfl

/-- a buffer of the client that a lookup gave -/
theorem ClientSound.pointRequest (h : ClientSound s l) {q : Option BlockwiseState}
    (hq : ∀ b, q = some b → b ∈ l.state.requests ∧ b.role = .client) :
    ClientSound s (l.pointRequest q) :=
  ⟨(stage_pointRequest l q fun b hb => (hq b hb).1).sound h.sound, h.settles,
    fun b hb => (hq b hb).2, h.response, h.other⟩

theorem ClientSound.pointResponse (h : ClientSound s l) {q : Option BlockwiseState}
    (hq : ∀ b, q = some b → b ∈ l.state.responses ∧ b.role = .client) :
    ClientSound s (l.pointResponse q) :=
  ⟨(stage_pointResponse l q fun b hb => (hq b hb).1).sound h.sound, h.settles, h.request,
    fun b hb => (hq b hb).2, h.other⟩

theorem findBufferByMid_some {bs : List BlockwiseState} {mid : UInt16}
    (h : ocBlockwiseFindBufferByMid bs mid = some b) : b ∈ bs ∧ b.role = .client := by
  have hp := List.find?_some h
  simp only [Bool.and_eq_true, beq_iff_eq] at hp
  exact ⟨List.mem_of_find?_eq_some h, hp.2⟩

theorem findBufferByClientCb_some {bs : List BlockwiseState} {cb : Nat}
    (h : ocBlockwiseFindBufferByClientCb bs endpoint cb = some b) : b ∈ bs ∧ b.role = .client := by
  have hp := List.find?_some h
  simp only [Bool.and_eq_true, beq_iff_eq] at hp
  exact ⟨List.mem_of_find?_eq_some h, hp.1.1⟩

theorem clientBuffer_some {bs : List BlockwiseState} {clientCb : Option ClientCb}
    (h : clientBuffer endpoint message bs clientCb = some b) : b ∈ bs ∧ b.role = .client := by
  cases clientCb with
  | none => exact findBufferByMid_some h
  | some cb => exact findBufferByClientCb_some endpoint h

theorem clientRequest_sound (responseMid : UInt16) (block1 : Option BlockOption)
    (clientCb : Option ClientCb) (hs : s.WF) (h : ClientSound s l) (ht : l.transaction = none) :
    (clientRequest cfg env endpoint message responseMid block1 l clientCb).Sound s := by
  unfold clientRequest
  dsimp only
  have hmem : ∀ b, clientBuffer endpoint message l.state.requests clientCb = some b →
      b ∈ l.state.requests ∧ b.role = .client := fun b => clientBuffer_some endpoint message
  generalize clientBuffer endpoint message l.state.requests clientCb = q at hmem ⊢
  have h1 := h.pointRequest hmem
  split
  · exact ⟨h1, ht⟩
  · split
    · exact continueRequest_sound cfg env endpoint message responseMid block1 hs h1 ht rfl
    · exact ⟨h1, ht⟩

theorem ClientSound.freeUnreferenced (h : ClientSound s l) : ClientSound s (freeUnreferenced l) := by
  unfold Coap.freeUnreferenced
  split
  · exact h
  · split
    · rename_i b _ _
      have hst := stage_freeRequest l b
      refine ⟨hst.sound h.sound, ?_, fun x hx => absurd hx (by simp [Locals.freeRequest]),
        h.response, h.other⟩
      exact h.settles.trans ((shrinks_freeRequest b.id l.state).settles none)
    · exact h

theorem transaction_freeUnreferenced (l : Locals) :
    (freeUnreferenced l).transaction = l.transaction := by
  unfold freeUnreferenced
  split
  · rfl
  · split <;> rfl

/-- a new response buffer of the client -/
theorem ClientSound.newResponse (h : ClientSound s l) (href : List UInt8) (method : UInt8) :
    ClientSound s (l.newResponse env href endpoint method .client) := by
  have hst := stage_newResponse env href endpoint method .client l
  rcases newResponse_cases env href endpoint method .client l with ⟨e, _⟩ | ⟨b, _, _, hb, e⟩
  · rw [e]
    exact h.pointResponse fun b hb => absurd hb (by simp)
  · have hrole : b.role = .client := by rw [hb]; rfl
    rw [e] at hst ⊢
    refine ⟨hst.sound h.sound, h.settles.trans (hst.settles h.sound ?_ ?_ none), h.request, ?_, h.other⟩
    · exact QuietRequests.refl l.state
    · exact Descends.snoc SameRep.refl hrole
    · intro x hx
      rw [← Option.some.inj hx]
      exact hrole

theorem clientResponseBuffer_sound (clientCb : Option ClientCb) (h : ClientSound s l) :
    ClientSound s (clientResponseBuffer env endpoint message l clientCb) := by
  unfold clientResponseBuffer
  dsimp only
  have h1 : ClientSound s
      (l.pointResponse (clientBuffer endpoint message l.state.responses clientCb)) :=
    h.pointResponse fun b => clientBuffer_some endpoint message
  generalize l.pointResponse (clientBuffer endpoint message l.state.responses clientCb) = l1 at h1 ⊢
  split
  · rename_i cb _
    have h2 := h1.newResponse env endpoint (cb.uri.drop 1) cb.method
    split
    · exact h2
    · rename_i b hb
      exact h2.setResponse hb ⟨rfl, rfl, rfl, rfl, rfl, rfl⟩
  · exact h1

theorem transaction_clientResponseBuffer (clientCb : Option ClientCb) (l : Locals) :
    (clientResponseBuffer env endpoint message l clientCb).transaction = l.transaction := by
  unfold clientResponseBuffer
  dsimp only
  split
  · split <;> rfl
  · rfl

theorem clientResponse_sound (responseMid : UInt16) (block2 : Option BlockOption)
    (clientCb : Option ClientCb) (hs : s.WF) (h : ClientSound s l) (ht : l.transaction = none) :
    (clientResponse cfg env endpoint message responseMid block2 l clientCb).Sound s := by
  unfold clientResponse
  split
  · exact ⟨h, ht⟩
  · rename_i b hb
    dsimp only
    have hk1 : SameKey b { b with observeSeq := (coapGetHeaderObserve message).getD b.observeSeq } :=
      ⟨rfl, rfl, rfl, rfl, rfl, rfl⟩
    have h1 := h.setResponse hb hk1
    generalize ({ b with observeSeq := (coapGetHeaderObserve message).getD b.observeSeq } :
      BlockwiseState) = b1 at hk1 h1 ⊢
    have hb1 : (l.setResponse b1).responseBuffer = some b1 := rfl
    have ht1 : (l.setResponse b1).transaction = none := ht
    generalize l.setResponse b1 = l1 at h1 hb1 ht1 ⊢
    have hk := sameKey_handle cfg.maxAppDataSize b1 (blockParams cfg block2).offset.toNat
      message.payload
    split
    · split
      · exact ⟨h1, ht1⟩
      · rename_i b2 hd
        rw [hd] at hk
        have hcomplete : ClientSound s
            (l1.setResponse { b2 with payloadSize := b2.nextBlockOffset }) :=
          h1.setResponse hb1 (hk.trans ⟨rfl, rfl, rfl, rfl, rfl, rfl⟩)
        split
        · split
          · exact ⟨hcomplete, ht1⟩
          · rename_i hn _
            exact (h1.withTransaction hs hn).settles
          · rename_i cb hn _
            have h2 := h1.withTransaction hs hn
            refine ClientSound.setResponse (b := b1) ?_ hb1
              (hk.trans ⟨rfl, rfl, rfl, rfl, rfl, rfl⟩)
            exact h2.congr rfl rfl rfl rfl
        · exact ⟨hcomplete, ht1⟩
    · exact ⟨h1, ht1⟩

theorem shrinks_dropDuplicateCb (cb : ClientCb) (s : State) :
    Shrinks s (dropDuplicateCb endpoint cb s) := by
  unfold dropDuplicateCb
  split
  · exact Shrinks.refl s
  · exact shrinks_freeClientCb _ s

theorem shrinks_invokeClientCb (b : BlockwiseState) (cb : ClientCb) (s : State) :
    Shrinks s (ocRiInvokeClientCb env endpoint message b cb s).1 := by
  unfold ocRiInvokeClientCb
  dsimp only
  split
  · exact shrinks_removeClientCbsByMid cb.mid s
  · split
    · split
      · split
        · exact shrinks_removeClientCbsByMid cb.mid s
        · exact Shrinks.refl s
      · exact shrinks_freeClientCb cb.id s
    · -- the callback itself is updated in place
      have h0 : ∀ cbs, Shrinks s { s with clientCbs := cbs } := fun cbs => by
        obtain ⟨h1, h2, h3, h4⟩ := Shrinks.refl s
        exact ⟨h1, h2, h3, h4⟩
      split
      · exact (h0 _).trans (shrinks_dropDuplicateCb endpoint cb _)
      · exact h0 _

theorem ClientSound.invokeClientCb (h : ClientSound s l) (b : BlockwiseState) (cb : ClientCb) :
    ClientSound s (invokeClientCb env endpoint message b cb l) := by
  have hsh := shrinks_invokeClientCb env endpoint message b cb l.state
  have hresp : (Coap.invokeClientCb env endpoint message b cb l).responseBuffer = l.responseBuffer ∨
      (Coap.invokeClientCb env endpoint message b cb l).responseBuffer = none := by
    unfold Coap.invokeClientCb
    dsimp only
    split
    · exact Or.inl rfl
    · exact Or.inr rfl
  have hst : Stage l (Coap.invokeClientCb env endpoint message b cb l) :=
    Shrinks.stage hsh rfl (Or.inl rfl) hresp
  refine ⟨hst.sound h.sound, h.settles.trans (hsh.settles none), h.request, fun x hx => ?_, h.other⟩
  rcases hresp with e | e
  · exact h.response x (e ▸ hx)
  · rw [e] at hx
    exact absurd hx (by simp)

/-- from a label to the end, on a client -/
theorem ClientSound.leave (h : ClientSound s l) (label : Label) :
    Settles none s (leave env endpoint message l label).1 :=
  h.settles.thenNew (settles_leave env endpoint message h.sound label) h.other

theorem clientExchange_settles (responseMid : UInt16) (clientCb : Option ClientCb) (hs : s.WF)
    (h : ClientSound s l) (ht : l.transaction = none) :
    Settles none s (clientExchange cfg env endpoint message responseMid clientCb l).1 := by
  unfold clientExchange
  dsimp only
  have h1 := clientRequest_sound cfg env endpoint message responseMid
    (coapGetHeaderBlock1 message) clientCb hs h ht
  split
  · rename_i e
    rw [e] at h1
    exact h1
  · rename_i e
    rw [e] at h1
    exact h1.leave env endpoint message _
  · rename_i l1 cb1 e
    rw [e] at h1
    obtain ⟨h1, ht1⟩ := h1
    have h2 := clientResponseBuffer_sound env endpoint message cb1 h1.freeUnreferenced
    have ht2 : (clientResponseBuffer env endpoint message (freeUnreferenced l1) cb1).transaction
        = none := by
      rw [transaction_clientResponseBuffer, transaction_freeUnreferenced, ht1]
    have h3 := clientResponse_sound cfg env endpoint message responseMid
      (coapGetHeaderBlock2 message) cb1 hs h2 ht2
    split
    · rename_i e
      rw [e] at h3
      exact h3
    · rename_i e
      rw [e] at h3
      exact h3.leave env endpoint message _
    · rename_i l2 cb2 e
      rw [e] at h3
      obtain ⟨h3, _⟩ := h3
      split
      · exact h3.leave env endpoint message _
      · exact h3.settles
      · rename_i cb b _
        exact (h3.invokeClientCb env endpoint message b cb).leave env endpoint message _

theorem receiveResponse_settles (hs : s.WF) (events : List Event) :
    Settles none s (receiveResponse cfg env endpoint message s events).1 := by
  unfold receiveResponse coapGetMid
  dsimp only
  generalize hs1 : ({ s with currentMid := s.currentMid + 1 } : State) = s1
  have h1 : Settles none s s1 := by
    rw [← hs1]
    exact ⟨fun h => ⟨h.requests, h.responses, h.transactions⟩, le_refl _, QuietRequests.refl s,
      QuietResponses.refl s, fun _ h _ => h⟩
  have h2 : Settles none s (if message.type = .rst then dropObservers env.gone s1 else s1) := by
    split
    · exact h1.trans (settles_dropObservers none env.gone s1)
    · exact h1
  generalize (if message.type = .rst then dropObservers env.gone s1 else s1) = s2 at h2 ⊢
  refine clientExchange_settles cfg env endpoint message _ _ hs ⟨⟨h2.wf hs, ?_, ?_⟩, h2, ?_, ?_, ?_⟩ rfl
  · intro b hb
    exact absurd hb (by simp [requestLocals])
  · intro b hb
    exact absurd hb (by simp [requestLocals])
  · intro b hb
    exact absurd hb (by simp [requestLocals])
  · intro b hb
    exact absurd hb (by simp [requestLocals])
  · intro t _
    simp [requestLocals]

end

/-! ## requests -/

/-- the part of `Settles` that does not speak of buffers -/
structure Keeps (o : Option Nat) (s s' : State) : Prop where
  wf : s.WF → s'.WF
  fresh : s.fresh ≤ s'.fresh
  kept : ∀ t ∈ s.transactions, o ≠ some t.id → t ∈ s'.transactions

theorem Settles.keeps (h : Settles o s s') : Keeps o s s' := ⟨h.wf, h.fresh, h.kept⟩

theorem Keeps.refl (o : Option Nat) (s : State) : Keeps o s s := (Settles.refl o s).keeps

theorem Keeps.trans (h : Keeps o s s') (h' : Keeps o s' s'') : Keeps o s s'' :=
  ⟨fun hs => h'.wf (h.wf hs), h.fresh.trans h'.fresh,
    fun t ht hne => h'.kept t (h.kept t ht hne) hne⟩

theorem Keeps.thenNew (h : Keeps none s s') (h' : Keeps o s' s'')
    (ho : ∀ t ∈ s.transactions, o ≠ some t.id) : Keeps none s s'' :=
  ⟨fun hs => h'.wf (h.wf hs), h.fresh.trans h'.fresh,
    fun t ht _ => h'.kept t (h.kept t ht (by simp)) (ho t ht)⟩

theorem Stage.keeps (h : Stage l l') (hs : l.Sound) (o : Option Nat) : Keeps o l.state l'.state :=
  ⟨fun _ => (h.sound hs).wf, h.fresh, fun _ ht _ => h.transactions ▸ ht⟩

section
variable (cfg : Config) (env : Env) (endpoint : Endpoint) (message : Message)

theorem finish_keeps (block2 : Option BlockOption) (label : Label) (hs : l.Sound) :
    Keeps l.transaction l.state (finish cfg env endpoint message block2 l label).1 := by
  cases label with
  | requestHandler =>
    have hst := stage_requestHandler cfg env endpoint message block2 l
    have h := (settles_leave env endpoint message (hst.sound hs)
      (requestHandler cfg env endpoint message block2 l).2).keeps
    rw [hst.transaction] at h
    exact (hst.keeps hs l.transaction).trans h
  | initResetMessage => exact (settles_leave env endpoint message hs _).keeps
  | freeBlockwiseBuffers => exact (settles_leave env endpoint message hs _).keeps
  | sendMessage => exact (settles_leave env endpoint message hs _).keeps

theorem stage_requestBranch (l : Locals) :
    Stage l (requestBranch cfg env endpoint message l).1 := by
  unfold requestBranch
  split
  · exact stage_block1Request _ l
  · exact stage_block2Request _ l
  · exact stage_regularRequest _ l

theorem processRequest_keeps (hs : l.Sound) :
    Keeps l.transaction l.state (processRequest cfg env endpoint message l).1 := by
  unfold processRequest
  dsimp only
  have h1 := (stage_emit l (.accepted endpoint message)).trans
    (stage_requestBranch cfg env endpoint message _)
  have h2 := finish_keeps cfg env endpoint message (coapGetHeaderBlock2 message)
    (requestBranch cfg env endpoint message (l.emit (.accepted endpoint message))).2 (h1.sound hs)
  rw [h1.transaction] at h2
  exact (h1.keeps hs l.transaction).trans h2

theorem settles_startResponse (o : Option Nat) (s : State) :
    Settles o s (startResponse endpoint message s).2 := by
  unfold startResponse
  split
  · exact Settles.refl o s
  · split
    · exact Settles.refl o s
    · exact ⟨fun h => ⟨h.requests, h.responses, h.transactions⟩, le_refl _, QuietRequests.refl s,
        QuietResponses.refl s, fun _ h _ => h⟩

/-- local variables before any buffer has been looked up -/
theorem requestLocals_sound (response : Message) (t : Option Nat) (hs : s.WF) (events : List Event) :
    (requestLocals response t s events).Sound :=
  ⟨hs, fun b hb => absurd hb (by simp [requestLocals]),
    fun b hb => absurd hb (by simp [requestLocals])⟩

theorem receiveRequest_keeps (hs : s.WF) (events : List Event) :
    Keeps none s (receiveRequest cfg env endpoint message s events).1 := by
  unfold receiveRequest
  split
  · exact Keeps.refl none s
  · dsimp only
    have h1 := settles_startResponse endpoint message none s
    generalize startResponse endpoint message s = r at h1 ⊢
    split
    · rename_i s1 hn
      obtain ⟨_, rfl⟩ := coapNewTransaction_none hn
      have hl := settles_leave env endpoint message
        (requestLocals_sound r.1 none (h1.wf hs) events) .initResetMessage
      exact h1.keeps.trans hl.keeps
    · rename_i id s1 hn
      have h2 := settles_newTransaction none hn
      obtain ⟨_, hid, _⟩ := coapNewTransaction_some hn
      have hsound := requestLocals_sound r.1 (some id) (h2.wf (h1.wf hs)) events
      refine (h1.trans h2).keeps.thenNew (processRequest_keeps cfg env endpoint message hsound) ?_
      intro t ht he
      have h3 := hs.transactions.lt t ht
      have h4 := h1.fresh
      have h5 : id = t.id := Option.some.inj he
      omega

/-! ## the whole function -/

theorem cancelTransaction_cases (s : State) :
    cancelTransaction endpoint message s = s ∨
      ∃ t, endpoint.flags.tcp = false ∧ coapGetTransactionByMid s message.mid = some t ∧
        cancelTransaction endpoint message s = coapClearTransaction t.id s := by
  unfold cancelTransaction
  split
  · exact Or.inl rfl
  · rename_i htcp
    split
    · exact Or.inl rfl
    · rename_i t ht
      exact Or.inr ⟨t, by simpa using htcp, ht, rfl⟩

/-- cancelling a transaction does not touch the buffers -/
theorem cancelTransaction_buffers (s : State) :
    (cancelTransaction endpoint message s).toBuffers = s.toBuffers := by
  rcases cancelTransaction_cases endpoint message s with e | ⟨t, _, _, e⟩ <;> rw [e]
  rfl

theorem cancelTransaction_wf (hs : s.WF) : (cancelTransaction endpoint message s).WF := by
  rcases cancelTransaction_cases endpoint message s with e | ⟨t, _, _, e⟩ <;> rw [e]
  · exact hs
  · exact (settles_clearTransaction t.id s).wf hs

/-- `coap_receive` of a parsed message: every transaction stays, but the one that is cancelled -/
theorem receiveMessage_keeps (hs : s.WF) :
    Keeps none (cancelTransaction endpoint message s) (receiveMessage cfg env endpoint message s).1 := by
  have hs1 := cancelTransaction_wf endpoint message hs
  unfold receiveMessage
  dsimp only
  split
  · exact receiveRequest_keeps cfg env endpoint message hs1 _
  · exact (receiveResponse_settles cfg env endpoint message hs1 _).keeps

end

end Coap
