import Iotivity.Engine.Client
import Iotivity.Engine.Respond

/-!
# Transactions on the list have been sent

A transaction goes on its list before its message is serialized.  It comes off again when there is
nothing to send, when the message is not confirmable, and when it goes over TCP; so at the end of a
call those on the list should be the ones that wait for an acknowledgement.

* `Sent`                 a transaction whose message went out, with its timer running;
* `AddsSent`             a call adds no other ones to the list;
* `coapReceive_addsSent`, `notifyObservers_addsSent`, `sendSeparate_addsSent`, `request_addsSent`;
* `all_sent_run`         no other ones are on the list in a run whose steps are `Clean`.
-/

namespace Coap
open Memory

/-! ## the status of a request -/

section
variable (cfg : Config) (env : Env) (endpoint : Endpoint) (message : Message)

theorem status_storePayload (refCount : UInt8) (l : Locals) :
    (storePayload cfg env endpoint message refCount l).1.status = l.status := by
  unfold storePayload
  dsimp only
  split
  · rfl
  · split
    · rfl
    · rfl

theorem status_uploadBuffer (num : UInt32) (l : Locals) :
    (uploadBuffer env endpoint message num l).status = l.status := by
  unfold uploadBuffer
  split
  · rfl
  · split
    · dsimp only
      split
      · rfl
      · rfl
    · rfl

theorem status_requestBranch (l : Locals) :
    (requestBranch cfg env endpoint message l).1.status = l.status := by
  unfold requestBranch
  split
  · rename_i block _
    rw [← status_uploadBuffer env endpoint message (blockParams cfg (some block)).num l]
    unfold block1Request
    dsimp only
    split
    · rfl
    · split
      · rfl
      · split
        · rfl
        · rfl
  · unfold block2Request
    dsimp only
    split
    · unfold dispatchResponse
      split
      · rfl
      · rfl
    · unfold openTransfer
      split
      · split
        · split
          · rfl
          · exact status_storePayload cfg env endpoint message 1 _
        · rfl
      · rfl
  · unfold regularRequest
    split
    · split
      · exact status_storePayload cfg env endpoint message 0 l
      · rfl
    · rfl

theorem status_reachResource (l : Locals) :
    (reachResource env endpoint message l).status = l.status := by
  have hc : (consumePayload l).status = l.status := by
    unfold consumePayload
    split
    · rfl
    · split
      · rfl
      · rfl
  unfold reachResource
  split
  · unfold Locals.allocResponse
    dsimp only
    split
    · exact hc
    · exact hc
  · exact hc

/-- a status that `send_message` knows what to do with -/
def Decided (l : Locals) : Prop := l.status = .noError ∨ l.status = .clearTransaction

theorem status_setReply (code length : Nat) (l : Locals) :
    (setReply cfg message code length l).status = l.status := by
  unfold setReply
  dsimp only
  split
  · rfl
  · split
    · rfl
    · rfl

theorem decided_entityHandler {l : Locals} (h : Decided l) :
    Decided (ocRiInvokeCoapEntityHandler cfg env endpoint message l).2 := by
  have hreach : Decided (reachResource env endpoint message l) := by
    unfold Decided
    rw [status_reachResource]
    exact h
  unfold ocRiInvokeCoapEntityHandler
  dsimp only
  split
  · unfold answer
    split
    · exact Or.inr rfl
    · split
      · exact Or.inr rfl
      · unfold Decided
        rw [status_setReply]
        unfold observeRequest
        split
        · exact hreach
        · dsimp only
          split
          · exact hreach
          · exact hreach
  · unfold Decided
    rw [status_setReply]
    exact hreach

theorem status_unref (l : Locals) : l.unrefRequest.unrefResponse.status = l.status := by
  unfold Locals.unrefResponse Locals.unrefRequest
  split
  · split
    · rfl
    · rfl
  · split
    · rfl
    · rfl

theorem decided_requestHandler (block2 : Option BlockOption) {l : Locals} (h : Decided l) :
    Decided (requestHandler cfg env endpoint message block2 l).1 := by
  have hr := decided_entityHandler cfg env endpoint message
    (l := l.emit (.invoked endpoint message l.requestBuffer)) h
  unfold requestHandler
  dsimp only
  split
  · split
    · exact hr
    · unfold firstBlock
      dsimp only
      split
      · exact hr
      · exact hr
  · unfold Decided
    rw [status_unref]
    exact hr

end

/-! ## transactions that went out -/

/-- the message was not empty and was handed to `coap_send_message`, it is confirmable and goes over
UDP, and the retransmission timer is running -/
structure Sent (es : List Event) (t : Transaction) : Prop where
  udp : t.endpoint.flags.tcp = false
  confirmable : t.confirmable = true
  data : t.data ≠ []
  transmitted : Event.transmitted t.endpoint t.data ∈ es
  timer : 0 < t.interval

/-- the first interval is `COAP_RESPONSE_TIMEOUT_TICKS` and a random part -/
def Env.Timed (env : Env) : Prop := 0 < env.initialInterval

/-- what is on the list was there before and is not the transaction `o`, or has been sent -/
def AddsSent (o : Option Nat) (es : List Event) (s s' : State) : Prop :=
  ∀ t ∈ s'.transactions, (t ∈ s.transactions ∧ o ≠ some t.id) ∨ Sent es t

section
variable {s s' s'' : State} {o : Option Nat} {es es' : List Event} {t : Transaction}

theorem Sent.mono (h : Sent es t) (hes : ∀ e ∈ es, e ∈ es') : Sent es' t :=
  ⟨h.udp, h.confirmable, h.data, hes _ h.transmitted, h.timer⟩

theorem addsSent_of_subset (h : ∀ t ∈ s'.transactions, t ∈ s.transactions) (es : List Event) :
    AddsSent none es s s' := fun t ht => Or.inl ⟨h t ht, Option.some_ne_none t.id |>.symm⟩

theorem AddsSent.congr (h : AddsSent o es s s') {s₁ : State} (hs : s₁.transactions = s.transactions) :
    AddsSent o es s₁ s' := by
  unfold AddsSent
  rw [hs]
  exact h

theorem AddsSent.mono (h : AddsSent o es s s') (hes : ∀ e ∈ es, e ∈ es') : AddsSent o es' s s' := by
  intro t ht
  rcases h t ht with h | h
  · exact Or.inl h
  · exact Or.inr (h.mono hes)

theorem AddsSent.trans (h : AddsSent none es s s') (h' : AddsSent none es' s' s'') :
    AddsSent none (es ++ es') s s'' := by
  intro t ht
  rcases h' t ht with ⟨hin, _⟩ | hsent
  · rcases h t hin with h | h
    · exact Or.inl h
    · exact Or.inr (h.mono fun _ he => List.mem_append_left _ he)
  · exact Or.inr (hsent.mono fun _ he => List.mem_append_right _ he)

/-- the transaction that may be unsent was made on the way -/
theorem AddsSent.fromNew (h : AddsSent (some t.id) es s' s'')
    (hs : s'.transactions = s.transactions ++ [t]) : AddsSent none es s s'' := by
  intro x hx
  rcases h x hx with ⟨hin, hne⟩ | hsent
  · rw [hs] at hin
    rcases List.mem_append.mp hin with hin | hin
    · exact Or.inl ⟨hin, (Option.some_ne_none x.id).symm⟩
    · rw [List.mem_singleton.mp hin] at hne
      exact absurd rfl hne
  · exact Or.inr hsent

theorem addsSent_clear (id : Nat) (es : List Event) (s : State) :
    AddsSent (some id) es s (coapClearTransaction id s) := by
  intro x hx
  obtain ⟨hin, hne⟩ := Keyed.mem_remove.mp hx
  exact Or.inl ⟨hin, fun h => hne (Option.some.inj h).symm⟩

/-- a transaction is stored and sent -/
theorem addsSent_sendTransaction {initial : Nat} (hi : 0 < initial) (gone : Nat → Bool)
    (hd : t.data ≠ []) (hc : t.retransCounter = 0 ∨ 0 < t.interval) (s : State) :
    AddsSent (some t.id) (coapSendTransaction initial gone t (putTransaction t s)).2 s
      (coapSendTransaction initial gone t (putTransaction t s)).1 := by
  have hput : ∀ x ∈ (putTransaction t s).transactions, x.id ≠ t.id → x ∈ s.transactions := by
    intro x hx hne
    rcases Keyed.mem_put hx with rfl | h
    · exact absurd rfl hne
    · exact h.1
  unfold coapSendTransaction
  dsimp only
  by_cases hcon : t.endpoint.flags.tcp = false ∧ t.confirmable = true
  · rw [if_pos hcon]
    by_cases hr : t.retransCounter < coapMaxRetransmit
    · rw [if_pos hr]
      intro x hx
      rcases Keyed.mem_put hx with rfl | ⟨hin, hne⟩
      · refine Or.inr ⟨hcon.1, hcon.2, hd, List.mem_singleton_self _, ?_⟩
        dsimp only
        split
        · exact hi
        · rename_i h0
          have hint := hc.resolve_left h0
          rw [Nat.shiftLeft_eq]
          omega
      · exact Or.inl ⟨hput x hin hne, fun h => hne (Option.some.inj h).symm⟩
    · rw [if_neg hr]
      intro x hx
      obtain ⟨hin, hne⟩ := Keyed.mem_remove.mp hx
      have hsub : x ∈ (putTransaction t s).transactions := by
        have hsh := (shrinks_removeClientCbByMid t.mid (dropObservers gone (putTransaction t s))).trans
          (shrinks_scrub _)
        rw [← show (dropObservers gone (putTransaction t s)).transactions =
          (putTransaction t s).transactions from rfl, ← hsh.transactions]
        exact hin
      exact Or.inl ⟨hput x hsub hne, fun h => hne (Option.some.inj h).symm⟩
  · rw [if_neg hcon]
    intro x hx
    obtain ⟨hin, hne⟩ := Keyed.mem_remove.mp hx
    exact Or.inl ⟨hput x hin hne, fun h => hne (Option.some.inj h).symm⟩

/-- a serialized packet is sent, or the transaction is cleared -/
theorem sendSerialized_addsSent {env : Env} (hi : env.Timed) (id : Nat) (mid : UInt16)
    (endpoint : Endpoint) (packet : Message) (s : State) :
    AddsSent (some id) (sendSerialized env id mid endpoint packet s).2.2 s
      (sendSerialized env id mid endpoint packet s).2.1 := by
  unfold sendSerialized
  dsimp only
  split
  · exact addsSent_clear id [] s
  · rename_i hd
    exact addsSent_sendTransaction (t := ⟨id, mid, endpoint, 0, 0, serializedBytes packet⟩) hi
      env.gone hd (Or.inl rfl) s

end

/-! ## `coap_receive` -/

section
variable {cfg : Config} {env : Env} {endpoint : Endpoint} {message : Message} {s : State}
  {l : Locals}

/-- a transaction that has been sent before has an interval -/
def Timely (s : State) : Prop := ∀ t ∈ s.transactions, t.retransCounter = 0 ∨ 0 < t.interval

theorem sendMessage_addsSent (hi : env.Timed) (h : Decided l) (hs : Timely l.state) :
    AddsSent l.transaction (sendMessage env endpoint message l).2 l.state
      (sendMessage env endpoint message l).1 := by
  unfold sendMessage
  dsimp only
  rcases h with h | h
  · rw [h]
    cases ht : l.transaction with
    | none => exact addsSent_of_subset (fun _ hx => hx) _
    | some id =>
      dsimp only
      cases hf : l.state.transactions.find? (fun t => t.id == id) with
      | none =>
        intro x hx
        refine Or.inl ⟨hx, fun hid => ?_⟩
        have hne := List.find?_eq_none.mp hf x hx
        exact hne (beq_iff_eq.mpr (Option.some.inj hid).symm)
      | some t =>
        obtain rfl : t.id = id := by simpa using List.find?_some hf
        dsimp only
        split
        · rename_i hd
          have hdel := addsSent_sendTransaction
            (t := { t with data := serializedBytes (setResponseToken env message l) }) hi env.gone
            (List.ne_nil_of_length_pos hd) (hs t (List.mem_of_find?_eq_some hf)) l.state
          exact hdel.mono fun _ he => List.mem_append_right _ he
        · exact addsSent_clear t.id l.events l.state
  · rw [h]
    cases ht : l.transaction with
    | none => exact addsSent_of_subset (fun _ hx => hx) _
    | some id => exact addsSent_clear id l.events l.state

theorem Timely.congr {s s' : State} (h : Timely s) (he : s'.transactions = s.transactions) :
    Timely s' := by
  unfold Timely
  rw [he]
  exact h

/-- a stage without a part in transactions, and the rest -/
theorem Stage.addsSent {l' : Locals} (h : Stage l l') {r : State × List Event}
    (hr : AddsSent l'.transaction r.2 l'.state r.1) : AddsSent l.transaction r.2 l.state r.1 := by
  rw [h.transaction] at hr
  exact hr.congr h.transactions.symm

variable (endpoint message) in
theorem leave_addsSent (hi : env.Timed) (h : Decided l) (hs : Timely l.state) (label : Label) :
    AddsSent l.transaction (leave env endpoint message l label).2 l.state
      (leave env endpoint message l label).1 := by
  have hunref : ∀ l : Locals, Decided l → Timely l.state →
      AddsSent l.transaction (sendMessage env endpoint message l.unrefRequest.unrefResponse).2 l.state
        (sendMessage env endpoint message l.unrefRequest.unrefResponse).1 := by
    intro l h hs
    have hst := (stage_unrefRequest l).trans (stage_unrefResponse _)
    refine hst.addsSent (sendMessage_addsSent hi ?_ (hs.congr hst.transactions))
    unfold Decided
    rw [status_unref]
    exact h
  have hreset : AddsSent l.transaction
      (sendMessage env endpoint message
        (resetMessage endpoint message l).unrefRequest.unrefResponse).2 l.state
      (sendMessage env endpoint message
        (resetMessage endpoint message l).unrefRequest.unrefResponse).1 := by
    have hst := stage_resetMessage endpoint message l
    refine hst.addsSent (hunref _ ?_ (hs.congr hst.transactions))
    unfold resetMessage
    split
    · exact h
    · exact h
  cases label with
  | requestHandler => exact hreset
  | initResetMessage => exact hreset
  | freeBlockwiseBuffers => exact hunref l h hs
  | sendMessage => exact sendMessage_addsSent hi h hs

theorem processRequest_addsSent (hi : env.Timed) (h : Decided l) (hs : Timely l.state) :
    AddsSent l.transaction (processRequest cfg env endpoint message l).2 l.state
      (processRequest cfg env endpoint message l).1 := by
  have hbranch := (stage_emit l (.accepted endpoint message)).trans
    (stage_requestBranch cfg env endpoint message _)
  have hdec := status_requestBranch cfg env endpoint message (l.emit (.accepted endpoint message))
  unfold processRequest
  dsimp only
  generalize requestBranch cfg env endpoint message (l.emit (.accepted endpoint message)) = r
    at hbranch hdec ⊢
  have hd : Decided r.1 := by
    unfold Decided
    rw [hdec]
    exact h
  have hs1 := hs.congr hbranch.transactions
  refine hbranch.addsSent ?_
  unfold finish
  split
  · have hst := stage_requestHandler cfg env endpoint message (coapGetHeaderBlock2 message) r.1
    exact hst.addsSent (leave_addsSent endpoint message hi (decided_requestHandler cfg env endpoint message _ hd)
      (hs1.congr hst.transactions) _)
  · exact leave_addsSent endpoint message hi hd hs1 _

/-- a new transaction at the end of the list -/
theorem Timely.snoc {s s' : State} {t : Transaction} (h : Timely s) (ht : t.retransCounter = 0)
    (he : s'.transactions = s.transactions ++ [t]) : Timely s' := by
  intro x hx
  rw [he] at hx
  rcases List.mem_append.mp hx with hx | hx
  · exact h x hx
  · rw [List.mem_singleton.mp hx]
    exact Or.inl ht

theorem startResponse_transactions (endpoint : Endpoint) (message : Message) (s : State) :
    (startResponse endpoint message s).2.transactions = s.transactions := by
  unfold startResponse
  split
  · rfl
  · split
    · rfl
    · rfl

theorem receiveRequest_addsSent (hi : env.Timed) (hs : Timely s) (events : List Event) :
    AddsSent none (receiveRequest cfg env endpoint message s events).2 s
      (receiveRequest cfg env endpoint message s events).1 := by
  unfold receiveRequest
  split
  · exact addsSent_of_subset (fun _ hx => hx) _
  · dsimp only
    have hstart := startResponse_transactions endpoint message s
    generalize startResponse endpoint message s = r at hstart ⊢
    have hs1 := hs.congr hstart
    split
    · rename_i s1 hn
      obtain ⟨_, rfl⟩ := coapNewTransaction_none hn
      exact (leave_addsSent (l := requestLocals r.1 none r.2 events) endpoint message hi (Or.inl rfl) hs1 _).congr
        hstart.symm
    · rename_i id s1 hn
      obtain ⟨_, rfl, rfl⟩ := coapNewTransaction_some hn
      refine AddsSent.fromNew (t := ⟨r.2.fresh, message.mid, endpoint, 0, 0, []⟩)
        (processRequest_addsSent (l := requestLocals r.1 (some r.2.fresh) _ events) hi (Or.inl rfl)
          (hs1.snoc rfl rfl)) ?_
      rw [← hstart]
      rfl

/-! ## the client side of `coap_receive` -/

/-- no transaction has been made yet -/
structure Unopened (s : State) (l : Locals) : Prop where
  transactions : l.state.transactions = s.transactions
  transaction : l.transaction = none
  decided : Decided l

/-- a stage that goes on has made no transaction, and one that jumps has made one -/
def Flow.Opens (s : State) : Flow → Prop
  | .next l _ => Unopened s l
  | .jump l _ => Decided l ∧ ∃ t : Transaction, t.retransCounter = 0 ∧ l.transaction = some t.id ∧
      l.state.transactions = s.transactions ++ [t]
  | .fault _ => True

theorem Unopened.of_eq {l' : Locals} (h : Unopened s l)
    (hs : l'.state.transactions = l.state.transactions) (ht : l'.transaction = l.transaction)
    (hd : l'.status = l.status) : Unopened s l' := by
  refine ⟨hs.trans h.transactions, ht.trans h.transaction, ?_⟩
  unfold Decided
  rw [hd]
  exact h.decided

theorem continueRequest_opens (h : Unopened s l) (responseMid : UInt16)
    (block1 : Option BlockOption) (b : BlockwiseState) :
    (continueRequest cfg env endpoint message responseMid block1 l b).Opens s := by
  unfold continueRequest
  dsimp only
  generalize (if block1.isSome = true then _ else _ : Nat) = offset
  generalize (if block1.isSome = true then _ else _ : UInt16) = size
  split
  · exact h.of_eq rfl rfl rfl
  · split
    · exact h.of_eq rfl rfl rfl
    · trivial
    · rename_i hn _
      obtain ⟨_, rfl, rfl⟩ := coapNewTransaction_some hn
      refine ⟨h.decided, ⟨l.state.fresh, responseMid, endpoint, 0, 0, []⟩, rfl, rfl, ?_⟩
      rw [← h.transactions]
      rfl

variable (cfg env endpoint message) in
theorem clientRequest_opens (h : Unopened s l) (responseMid : UInt16)
    (block1 : Option BlockOption) (clientCb : Option ClientCb) :
    (clientRequest cfg env endpoint message responseMid block1 l clientCb).Opens s := by
  have h1 : Unopened s (l.pointRequest (clientBuffer endpoint message l.state.requests clientCb)) :=
    h.of_eq rfl rfl rfl
  unfold clientRequest
  dsimp only
  split
  · exact h1
  · split
    · exact continueRequest_opens h1 responseMid block1 _
    · exact h1

theorem Unopened.freeUnreferenced (h : Unopened s l) : Unopened s (freeUnreferenced l) := by
  unfold Coap.freeUnreferenced
  split
  · exact h
  · split
    · exact h.of_eq rfl rfl rfl
    · exact h

variable (env endpoint message) in
theorem Unopened.clientResponseBuffer (h : Unopened s l) (clientCb : Option ClientCb) :
    Unopened s (clientResponseBuffer env endpoint message l clientCb) := by
  unfold Coap.clientResponseBuffer
  dsimp only
  split
  · split
    · exact h.of_eq rfl rfl rfl
    · exact h.of_eq rfl rfl rfl
  · exact h.of_eq rfl rfl rfl

variable (cfg env endpoint message) in
theorem clientResponse_opens (h : Unopened s l) (responseMid : UInt16)
    (block2 : Option BlockOption) (clientCb : Option ClientCb) :
    (clientResponse cfg env endpoint message responseMid block2 l clientCb).Opens s := by
  unfold clientResponse
  split
  · exact h
  · rename_i b _
    dsimp only
    have h1 : Unopened s (l.setResponse
      { b with observeSeq := (coapGetHeaderObserve message).getD b.observeSeq }) :=
      h.of_eq rfl rfl rfl
    generalize l.setResponse _ = l1 at h1 ⊢
    split
    · split
      · exact h1
      · split
        · split
          · exact h1.of_eq rfl rfl rfl
          · trivial
          · rename_i hn _
            obtain ⟨_, rfl, rfl⟩ := coapNewTransaction_some hn
            refine ⟨h1.decided, ⟨l1.state.fresh, responseMid, endpoint, 0, 0, []⟩, rfl, rfl, ?_⟩
            rw [← h1.transactions]
            rfl
        · exact h1.of_eq rfl rfl rfl
    · exact h1

/-- without a transaction, to the end of the function -/
theorem Unopened.leave (hi : env.Timed) (hs : Timely s) (h : Unopened s l) (label : Label) :
    AddsSent none (leave env endpoint message l label).2 s
      (Coap.leave env endpoint message l label).1 := by
  have hl := leave_addsSent endpoint message hi h.decided
    (hs.congr h.transactions) label
  rw [h.transaction] at hl
  exact hl.congr h.transactions.symm

/-- with a new one -/
theorem Flow.Opens.leave (hi : env.Timed) (hs : Timely s) {label : Label}
    (h : (Flow.jump l label).Opens s) :
    AddsSent none (leave env endpoint message l label).2 s
      (Coap.leave env endpoint message l label).1 := by
  obtain ⟨hd, t, hr, ht, he⟩ := h
  have hl := leave_addsSent endpoint message hi hd (hs.snoc hr he) label
  rw [ht] at hl
  exact hl.fromNew he

theorem clientExchange_addsSent (hi : env.Timed) (hs : Timely s) (h : Unopened s l)
    (responseMid : UInt16) (clientCb : Option ClientCb) :
    Event.fault ∈ (clientExchange cfg env endpoint message responseMid clientCb l).2 ∨
      AddsSent none (clientExchange cfg env endpoint message responseMid clientCb l).2 s
        (clientExchange cfg env endpoint message responseMid clientCb l).1 := by
  have hfault : ∀ l : Locals, Event.fault ∈ l.faulted.2 := fun l => by
    unfold Locals.faulted
    simp
  have h1 := clientRequest_opens cfg env endpoint message h responseMid
    (coapGetHeaderBlock1 message) clientCb
  unfold clientExchange
  dsimp only
  split
  · exact Or.inl (hfault _)
  · rename_i e
    rw [e] at h1
    exact Or.inr (h1.leave hi hs)
  · rename_i l1 cb1 e
    rw [e] at h1
    have h2 := (Unopened.freeUnreferenced h1).clientResponseBuffer env endpoint message cb1
    have h3 := clientResponse_opens cfg env endpoint message h2 responseMid
      (coapGetHeaderBlock2 message) cb1
    split
    · exact Or.inl (hfault _)
    · rename_i e
      rw [e] at h3
      exact Or.inr (h3.leave hi hs)
    · rename_i l2 cb2 e
      rw [e] at h3
      split
      · exact Or.inr (Unopened.leave hi hs h3 _)
      · exact Or.inl (hfault _)
      · rename_i cb b _
        have hsh := shrinks_invokeClientCb env endpoint message b cb l2.state
        have h4 : Unopened s (invokeClientCb env endpoint message b cb l2) :=
          Unopened.of_eq h3 hsh.transactions rfl rfl
        exact Or.inr (h4.leave hi hs _)

variable (cfg) in
theorem receiveResponse_addsSent (hi : env.Timed) (hs : Timely s) (events : List Event) :
    Event.fault ∈ (receiveResponse cfg env endpoint message s events).2 ∨
      AddsSent none (receiveResponse cfg env endpoint message s events).2 s
        (receiveResponse cfg env endpoint message s events).1 := by
  unfold receiveResponse coapGetMid
  dsimp only
  generalize hs2 : (if message.type = .rst then dropObservers env.gone { s with currentMid := s.currentMid + 1 }
    else { s with currentMid := s.currentMid + 1 }) = s2
  have htrans : s2.transactions = s.transactions := by
    rw [← hs2]
    split
    · rfl
    · rfl
  rcases clientExchange_addsSent hi (hs.congr htrans)
      (l := requestLocals (coapUdpInitMessage .con 0 0) none s2 _) ⟨rfl, rfl, Or.inl rfl⟩ _ _ with
    h | h
  · exact Or.inl h
  · exact Or.inr (h.congr htrans.symm)

/-- **`coap_receive`** adds no transaction that has not been sent. -/
theorem coapReceive_addsSent (hi : env.Timed) (hs : Timely s) (msg : OcMessage) :
    Event.fault ∈ (coapReceive cfg env msg s).2 ∨
      AddsSent none (coapReceive cfg env msg s).2 s (coapReceive cfg env msg s).1 := by
  unfold coapReceive
  split
  · exact Or.inr (addsSent_of_subset (fun _ hx => hx) _)
  · rename_i m _
    -- the transaction that is cancelled is one less
    have hsub : ∀ t ∈ (cancelTransaction msg.endpoint m s).transactions, t ∈ s.transactions := by
      intro t ht
      rcases cancelTransaction_cases msg.endpoint m s with e | ⟨x, _, _, e⟩
      · rwa [e] at ht
      · rw [e] at ht
        exact (Keyed.mem_remove.mp ht).1
    have hs1 : Timely (cancelTransaction msg.endpoint m s) := fun t ht => hs t (hsub t ht)
    have hcancel := addsSent_of_subset hsub []
    unfold receiveMessage
    dsimp only
    split
    · exact Or.inr (hcancel.trans (receiveRequest_addsSent hi hs1 _))
    · rcases receiveResponse_addsSent cfg hi hs1 _ with h | h
      · exact Or.inl h
      · exact Or.inr (hcancel.trans h)

end

/-! ## notifications -/

section
variable {cfg : Config} {site : Site}

theorem coapNewTransaction_transactions {granted : Bool} {mid : UInt16} {endpoint : Endpoint}
    {id : Nat} {s s' : State} (h : coapNewTransaction granted mid endpoint s = (some id, s')) :
    s'.transactions = s.transactions ++ [⟨id, mid, endpoint, 0, 0, []⟩] := by
  obtain ⟨_, rfl, rfl⟩ := coapNewTransaction_some h
  rfl

theorem sendNotification_addsSent {env : Env} (hi : env.Timed) (place : Nat) (o : Observer)
    (counted : Bool) (packet : Message) (s : Server) :
    AddsSent none (sendNotification env place o counted packet s).2.2 s.engine
      (sendNotification env place o counted packet s).2.1.engine := by
  unfold sendNotification coapGetMid
  dsimp only
  split
  · rename_i hn
    obtain ⟨_, rfl⟩ := coapNewTransaction_none hn
    exact addsSent_of_subset (fun _ hx => hx) _
  · rename_i id s1 hn
    have htrans := coapNewTransaction_transactions hn
    exact (sendSerialized_addsSent hi id _ o.endpoint _ s1).fromNew htrans

theorem notifyObserver_addsSent {env : Env} (hi : env.Timed) (format : UInt16)
    (r : Representation) (place : Nat) (o : Observer) (s : Server) :
    AddsSent none (notifyObserver cfg site env format r place o s).2.2 s.engine
      (notifyObserver cfg site env format r place o s).2.1.engine := by
  unfold notifyObserver
  split
  · exact addsSent_of_subset (fun _ hx => hx) _
  · exact addsSent_of_subset (fun _ hx => hx) _
  · exact sendNotification_addsSent hi _ _ _ _ _

/-- a loop whose rounds deliver -/
theorem notifyEach_addsSent {s : State} {select : Observer → Bool}
    {round : Nat → Nat → Observer → Server → Outcome × Server × List Event}
    (hr : ∀ k place o s, AddsSent none (round k place o s).2.2 s.engine
      (round k place o s).2.1.engine) {p : Progress}
    (hp : AddsSent none p.events s p.server.engine) :
    AddsSent none (notifyEach select round p).events s (notifyEach select round p).server.engine := by
  unfold notifyEach
  generalize p.server.list.zipIdx = l
  induction l generalizing p with
  | nil => exact hp
  | cons x l ih =>
    rw [List.foldl_cons]
    apply ih
    unfold visit
    split
    · exact hp
    · exact hp.trans (hr _ _ _ _)

theorem addsSent_start (s : Server) :
    AddsSent none (Progress.start s).events s.engine (Progress.start s).server.engine :=
  addsSent_of_subset (fun _ hx => hx) _

/-- the allocators of a loop, with their timers -/
def Supply.Timed (supply : Supply) : Prop := ∀ k, (supply.env k).Timed

theorem notifyRounds_addsSent {s : State} {supply : Supply} (hi : supply.Timed)
    (batch : Nat → Representation) (resource fuel : Nat) (l : List Nat) {p : Progress}
    (hp : AddsSent none p.events s p.server.engine) :
    AddsSent none (notifyRounds cfg site supply batch resource fuel l p).events s
      (notifyRounds cfg site supply batch resource fuel l p).server.engine := by
  induction fuel generalizing l p with
  | zero => exact hp
  | succ fuel ih =>
    cases l with
    | nil => exact hp
    | cons c l =>
      unfold notifyRounds
      split
      · exact hp
      · exact ih _ (notifyEach_addsSent (fun k _ _ _ => notifyObserver_addsSent (hi k) _ _ _ _ _) hp)

/-- **`coap_notify_observers`** adds no transaction that has not been sent. -/
theorem notifyObservers_addsSent {supply linked : Supply} (hi : supply.Timed) (hl : linked.Timed)
    (get : Answer) (batch : Nat → Representation) (resource : Nat) (given : Option Representation)
    (endpoint : Option Endpoint) (s : Server) :
    let x := coapNotifyObservers cfg site supply linked get batch resource given endpoint s
    AddsSent none (x.2.1.events ++ x.2.2.events) s.engine x.2.2.server.engine := by
  have hwith : ∀ answer, AddsSent none
      (notifyWith cfg site supply resource endpoint answer s).events s.engine
      (notifyWith cfg site supply resource endpoint answer s).server.engine := by
    intro answer
    unfold notifyWith
    split
    · exact addsSent_start s
    · exact notifyEach_addsSent (fun k _ _ _ => notifyObserver_addsSent (hi k) _ _ _ _ _)
        (addsSent_start s)
    · split
      · exact notifyEach_addsSent (fun _ _ _ _ => addsSent_of_subset (fun _ hx => hx) _)
          (addsSent_start s)
      · exact notifyEach_addsSent (fun k _ _ _ => notifyObserver_addsSent (hi k) _ _ _ _ _)
          (addsSent_start s)
  unfold coapNotifyObservers
  dsimp only
  generalize hown : (if s.numObservers resource = 0 ∨ supply.buffer = false then Progress.start s
    else _ : Progress) = own
  have h1 : AddsSent none own.events s.engine own.server.engine := by
    rw [← hown]
    split
    · exact addsSent_start s
    · exact hwith _
  refine h1.trans ?_
  split
  · exact addsSent_start own.server
  · unfold coapNotifyCollections
    split
    · exact notifyRounds_addsSent hl _ _ _ _ (addsSent_start own.server)
    · exact addsSent_start own.server

end

/-! ## separate responses -/

section
variable {cfg : Config} {site : Site} {status : OcStatus} {body : List UInt8}

/-- a response of one packet, whatever there is of buffers -/
def Short (body : List UInt8) (r : SeparateRequest) : Prop :=
  r.endpoint.flags.tcp = true ∨ body.length ≤ r.block2Size.toNat

/-- an entry that gets a transaction has room for its response, and gets the buffer that it needs -/
def HasRoom (body : List UInt8) (env : Env) (r : SeparateRequest) (s : Buffers) : Prop :=
  env.transactionGranted = true →
    Fits body r s ∧ (Short body r ∨ env.responseAlloc.granted = true)

variable (cfg site status body) in
/-- there is room for every response, when the loop gets to it -/
def LoopHasRoom (handle : Nat) (rounds : Nat → Round) : Nat → List SeparateRequest → Server → Prop
  | _, [], _ => True
  | k, r :: l, s =>
    (0 < r.observe → HasRoom body (rounds k).env r s.engine.toBuffers) ∧
      LoopHasRoom handle rounds (k + 1) l (afterRound cfg site status body handle (rounds k) r s)

variable (cfg) in
theorem separatePayload_opened {env : Env} {r : SeparateRequest} {s : Buffers} (hf : Fits body r s)
    (ha : Short body r ∨ env.responseAlloc.granted = true) (packet : Message) :
    ∃ p s', separatePayload cfg body env r packet s = .opened p s' := by
  by_cases hg : env.responseAlloc.granted = true
  · rcases separatePayload_cases hg r packet s with ⟨_, p, s', h, _⟩ | ⟨hn, _⟩
    · exact ⟨p, s', h⟩
    · exact absurd hf hn
  · have hn : ¬ (r.endpoint.flags.tcp = false ∧ r.block2Size.toNat < body.length) := by
      rintro ⟨ht, hl⟩
      rcases ha.resolve_right hg with h | h
      · rw [ht] at h
        cases h
      · omega
    unfold separatePayload
    rw [if_neg hn]
    exact ⟨_, _, rfl⟩

theorem respondTo_addsSent {env : Env} (hi : env.Timed) {r : SeparateRequest} {s : State}
    (h : HasRoom body env r s.toBuffers) :
    AddsSent none (respondTo cfg site status body env r s).2.2 s
      (respondTo cfg site status body env r s).2.1 := by
  unfold respondTo coapGetMid coapNewTransaction
  dsimp only
  by_cases ht : env.transactionGranted = true
  · rw [if_pos ht]
    dsimp only
    obtain ⟨hf, ha⟩ := h ht
    generalize s.currentMid + 1 = mid
    obtain ⟨p, s', hp⟩ := separatePayload_opened cfg
      (s := { s.toBuffers with fresh := s.fresh + 1 }) hf ha (separateHeader site status r mid)
    rw [hp]
    exact AddsSent.fromNew (t := ⟨s.fresh, mid, r.endpoint, 0, 0, []⟩)
      (sendSerialized_addsSent hi s.fresh mid r.endpoint _ _) rfl
  · rw [if_neg ht]
    exact addsSent_of_subset (fun _ hx => hx) _

/-- the allocators of a round, with their timers -/
def Round.Timed (round : Round) : Prop := round.env.Timed ∧ round.own.Timed ∧ round.linked.Timed

theorem sendRound_addsSent {round : Round} (hi : round.Timed) {r : SeparateRequest} {s : Server}
    (h : 0 < r.observe → HasRoom body round.env r s.engine.toBuffers) :
    AddsSent none (sendRound cfg site status body round r s).2.2 s.engine
      (sendRound cfg site status body round r s).2.1.engine := by
  unfold sendRound
  by_cases ho : 0 < r.observe
  · rw [if_pos ho]
    exact respondTo_addsSent hi.1 (h ho)
  · rw [if_neg ho]
    split
    · exact addsSent_of_subset (fun _ hx => hx) _
    · exact notifyObservers_addsSent hi.2.1 hi.2.2 _ _ _ _ _ s

theorem sendRounds_addsSent (handle : Nat) {rounds : Nat → Round} (hi : ∀ k, (rounds k).Timed)
    (l : List SeparateRequest) (k : Nat) (s : Server)
    (h : LoopHasRoom cfg site status body handle rounds k l s) :
    AddsSent none (sendRounds cfg site status body handle rounds k l s).2.2 s.engine
      (sendRounds cfg site status body handle rounds k l s).2.1.engine := by
  induction l generalizing k s with
  | nil => exact addsSent_of_subset (fun _ hx => hx) _
  | cons r l ih => exact (sendRound_addsSent (hi k) h.1).trans (ih (k + 1) _ h.2)

/-- **`oc_send_separate_response`** adds no transaction that has not been sent, if there is room for
every response. -/
theorem sendSeparate_addsSent (handle : Nat) {rounds : Nat → Round} (hi : ∀ k, (rounds k).Timed)
    (s : Server)
    (h : LoopHasRoom cfg site status (s.handles handle).body handle rounds 0
      (s.handles handle).requests s) :
    AddsSent none (ocSendSeparateResponse cfg site status handle rounds s).2.2 s.engine
      (ocSendSeparateResponse cfg site status handle rounds s).2.1.engine :=
  sendRounds_addsSent handle hi _ 0 s h

end

/-! ## client requests -/

section
variable {cfg : Config} {call : RequestCall} {cb : ClientCb} {s s' : Session}

/-- a request that gets a transaction gets its buffer too -/
def ClientSequence.Backed (k : ClientSequence) (call : RequestCall) : Prop :=
  call.cbGranted = true → call.env.transactionGranted = true → call.Supplied k.method

theorem prepareCoapRequest_true (h : prepareCoapRequest call cb s = (true, s')) :
    ∃ t : Transaction, s'.transaction = some t.id ∧
      s'.engine.transactions = s.engine.transactions ++ [t] := by
  unfold prepareCoapRequest at h
  split at h
  · cases (Prod.mk.inj h).1
  · rename_i id engine hn
    have htrans := coapNewTransaction_transactions hn
    dsimp only at h
    split at h
    · split at h
      · cases (Prod.mk.inj h).1
      · obtain rfl := (Prod.mk.inj h).2
        exact ⟨_, rfl, htrans⟩
    · obtain rfl := (Prod.mk.inj h).2
      exact ⟨_, rfl, htrans⟩

theorem prepareCoapRequest_false (h : prepareCoapRequest call cb s = (false, s'))
    (hb : call.env.transactionGranted = true → carriesPayload cb.method = true →
      call.env.requestAlloc.granted = true ∧ cb.uri.drop 1 ≠ []) :
    s'.engine.transactions = s.engine.transactions := by
  unfold prepareCoapRequest at h
  split at h
  · rename_i hn
    obtain ⟨_, rfl⟩ := coapNewTransaction_none hn
    obtain rfl := (Prod.mk.inj h).2
    rfl
  · rename_i id engine hn
    dsimp only at h
    split at h
    · rename_i hc
      obtain ⟨ha, hu⟩ := hb (coapNewTransaction_some hn).1 hc
      obtain ⟨b, _, _, hb⟩ := allocRequest_granted ha hu cb.endpoint cb.method .client engine.toBuffers
      rw [hb] at h
      cases (Prod.mk.inj h).1
    · cases (Prod.mk.inj h).1

theorem loadPayload_transactions (h : loadPayload cfg call cb s = some s') :
    s'.engine.transactions = s.engine.transactions := by
  unfold loadPayload at h
  split at h
  · obtain ⟨b, _, rfl⟩ := Option.map_eq_some_iff.mp h
    rfl
  · rw [Option.some.inj h]

theorem releaseBuffer_transactions (s : Session) :
    s.releaseBuffer.engine.transactions = s.engine.transactions := by
  unfold Session.releaseBuffer
  split
  · rfl
  · split
    · rfl
    · rfl

variable (cfg) in
/-- the packet goes out on its transaction, or a pointer is wrong -/
theorem dispatch_addsSent (hi : call.env.Timed) {id : Nat} (ht : s.transaction = some id) :
    Event.fault ∈ (dispatchCoapRequest cfg call s).2.2 ∨
      AddsSent (some id) (dispatchCoapRequest cfg call s).2.2 s.engine
        (dispatchCoapRequest cfg call s).2.1.engine := by
  unfold dispatchCoapRequest
  rw [ht]
  split
  · rename_i cb id' _ he
    obtain rfl := Option.some.inj he
    unfold dispatchWith
    split
    · exact Or.inl (List.mem_singleton_self _)
    · rename_i s1 hload
      refine Or.inr ?_
      unfold dispatchPacket
      dsimp only
      generalize (if call.encoded = [] then s1.request else _ : Message) = packet
      have hdel := sendSerialized_addsSent hi id cb.mid cb.endpoint packet s1.engine
      intro x hx
      rw [releaseBuffer_transactions] at hx
      dsimp only at hx
      rw [← loadPayload_transactions hload]
      split at hx
      · exact hdel x hx
      · exact hdel x hx
  · exact Or.inl (List.mem_singleton_self _)

theorem prepareWith_granted (hg : call.cbGranted = true) (method : UInt8) (observeSeq : UInt32)
    (s : Session) :
    ∃ s₁, s₁.engine.transactions = s.engine.transactions ∧
      prepareWith call method observeSeq s =
        prepareCoapRequest call (newClientCb call method observeSeq s.engine) s₁ := by
  unfold prepareWith ocRiAllocClientCb
  rw [if_pos hg]
  refine ⟨_, ?_, rfl⟩
  rfl

/-- **Client requests** add no transaction that has not been sent, if there is a buffer for the
payload. -/
theorem request_addsSent (k : ClientSequence) (hi : call.env.Timed) (hb : k.Backed call)
    (s : Session) :
    Event.fault ∈ (k.run cfg call s).2.2 ∨
      AddsSent none (k.run cfg call s).2.2 s.engine (k.run cfg call s).2.1.engine := by
  rw [k.run_eq]
  unfold requestWith
  by_cases hg : call.cbGranted = true
  · obtain ⟨s₁, htrans, he⟩ := prepareWith_granted hg k.method k.observeSeq s
    rw [he]
    split
    · rename_i s' hp
      have hsame := prepareCoapRequest_false hp fun ht => (hb hg ht).2
      refine Or.inr (addsSent_of_subset (fun x hx => ?_) _)
      rw [← htrans, ← hsame]
      exact hx
    · rename_i s' hp
      obtain ⟨t, ht, hnew⟩ := prepareCoapRequest_true hp
      rcases dispatch_addsSent cfg hi ht with h | h
      · exact Or.inl h
      · exact Or.inr (h.fromNew (hnew.trans (congrArg (· ++ [t]) htrans)))
  · have hp : prepareWith call k.method k.observeSeq s = (false, s) := by
      unfold prepareWith ocRiAllocClientCb
      rw [if_neg hg]
    rw [hp]
    exact Or.inr (addsSent_of_subset (fun _ hx => hx) _)

end

/-! ## the retransmission timer -/

section
variable {s : State} {tr : List Event}

def AllSent (tr : List Event) (s : State) : Prop := ∀ t ∈ s.transactions, Sent tr t

theorem AllSent.timely (h : AllSent tr s) : Timely s := fun t ht => Or.inr (h t ht).timer

theorem AllSent.step (h : AllSent tr s) {es : List Event} {s' : State}
    (hd : AddsSent none es s s') : AllSent (tr ++ es) s' := by
  intro t ht
  rcases hd t ht with ⟨hin, _⟩ | hsent
  · exact (h t hin).mono fun _ he => List.mem_append_left _ he
  · exact hsent.mono fun _ he => List.mem_append_right _ he

/-- the first intervals that a pass draws -/
def Timers.Timed (timers : Timers) : Prop := ∀ id, 0 < timers.initial id

/-- a pass over transactions that have been sent -/
theorem foldl_check_sent {timers : Timers} (hi : timers.Timed) (ts : List Transaction)
    (hts : ∀ t ∈ ts, Sent tr t) (r : State × List Event) (hr : AllSent (tr ++ r.2) r.1) :
    AllSent (tr ++ (ts.foldl (checkTransaction timers) r).2)
      (ts.foldl (checkTransaction timers) r).1 := by
  induction ts generalizing r with
  | nil => exact hr
  | cons t ts ih =>
    rw [List.foldl_cons]
    apply ih fun x hx => hts x (List.mem_cons_of_mem _ hx)
    have ht := hts t List.mem_cons_self
    unfold checkTransaction
    split
    · have hd := addsSent_sendTransaction (t := t.expire) (hi t.id) (timers.gone t.id) ht.data
        (Or.inr ht.timer) r.1
      intro x hx
      rw [← List.append_assoc]
      rcases hd x hx with ⟨hin, _⟩ | hsent
      · exact (hr x hin).mono fun _ he => List.mem_append_left _ he
      · exact hsent.mono fun _ he => List.mem_append_right _ he
    · exact hr

/-- what a pass hands to `coap_send_message` is not empty -/
theorem foldl_check_data (timers : Timers) (ts : List Transaction) (hts : ∀ t ∈ ts, t.data ≠ [])
    (r : State × List Event) (endpoint : Endpoint)
    (hr : Event.transmitted endpoint [] ∉ r.2) :
    Event.transmitted endpoint [] ∉ (ts.foldl (checkTransaction timers) r).2 := by
  induction ts generalizing r with
  | nil => exact hr
  | cons t ts ih =>
    rw [List.foldl_cons]
    apply ih fun x hx => hts x (List.mem_cons_of_mem _ hx)
    have ht := hts t List.mem_cons_self
    unfold checkTransaction
    split
    · intro hin
      rcases List.mem_append.mp hin with h | h
      · exact hr h
      · unfold coapSendTransaction at h
        dsimp only at h
        split at h
        · split at h
          · exact ht (Event.transmitted.inj (List.mem_singleton.mp h)).2.symm
          · cases h
        · exact ht (Event.transmitted.inj (List.mem_singleton.mp h)).2.symm
    · exact hr

end

/-! ## runs -/

/-- a server with the static variables of the client -/
structure Host where
  server : Server
  transaction : Option Nat
  clientCb : Option Nat
  requestBuffer : Option Nat
  request : Message

def Host.session (h : Host) : Session :=
  ⟨h.server.engine, h.transaction, h.clientCb, h.requestBuffer, h.request⟩

def Host.withSession (s : Session) (h : Host) : Host :=
  { server := { h.server with engine := s.engine }
    transaction := s.transaction
    clientCb := s.clientCb
    requestBuffer := s.requestBuffer
    request := s.request }

def Host.withEngine (s : State) (h : Host) : Host :=
  { h with server := { h.server with engine := s } }

/-- start-up -/
def Host.init (currentMid : UInt16) : Host where
  server :=
    { engine := State.init currentMid
      list := []
      numObservers _ := 0
      observeCounter := 3
      handles _ := ⟨false, [], []⟩ }
  transaction := none
  clientCb := none
  requestBuffer := none
  request := coapUdpInitMessage .con 0 0

/-- * `receive`, `requestTimeout`, `responseTimeout`, `checkTransactions`   as in `Step`;
* `respond`   `oc_send_separate_response`;
* `notify`    `coap_notify_observers(resource, NULL, NULL)`;
* `request`   a call of the client, or an init and a do call;
* `others`    observers come and go, and handles accept requests and get their payload. -/
inductive HostStep where
  | receive (env : Env) (msg : OcMessage)
  | requestTimeout (id : Nat)
  | responseTimeout (id : Nat)
  | checkTransactions (timers : Timers)
  | respond (site : Site) (status : OcStatus) (handle : Nat) (rounds : Nat → Round)
  | notify (site : Site) (supply linked : Supply) (get : Answer) (batch : Nat → Representation)
      (resource : Nat)
  | request (k : ClientSequence) (call : RequestCall)
  | others (list : List Observer) (numObservers : Nat → UInt8) (observeCounter : UInt32)
      (handles : Nat → SeparateResponse)

def Host.step (cfg : Config) (st : HostStep) (h : Host) : Host × List Event :=
  match st with
  | .receive env msg =>
    let x := coapReceive cfg env msg h.server.engine
    (h.withEngine x.1, x.2)
  | .requestTimeout id =>
    (h.withEngine (h.server.engine.withBuffers (ocBlockwiseFreeRequestBuffer id)), [])
  | .responseTimeout id =>
    (h.withEngine (h.server.engine.withBuffers (ocBlockwiseFreeResponseBuffer id)), [])
  | .checkTransactions timers =>
    let x := coapCheckTransactions timers h.server.engine
    (h.withEngine x.1, x.2)
  | .respond site status handle rounds =>
    let x := ocSendSeparateResponse cfg site status handle rounds h.server
    ({ h with server := x.2.1 }, x.2.2)
  | .notify site supply linked get batch resource =>
    let x := coapNotifyObservers cfg site supply linked get batch resource none none h.server
    ({ h with server := x.2.2.server }, x.2.1.events ++ x.2.2.events)
  | .request k call =>
    let x := k.run cfg call h.session
    (h.withSession x.2.1, x.2.2)
  | .others list numObservers observeCounter handles =>
    ({ h with server := ⟨h.server.engine, list, numObservers, observeCounter, handles⟩ }, [])

/-- every interval that the step draws is positive -/
def HostStep.Timed : HostStep → Prop
  | .receive env _ => env.Timed
  | .checkTransactions timers => timers.Timed
  | .respond _ _ _ rounds => ∀ k, (rounds k).Timed
  | .notify _ supply linked _ _ _ => supply.Timed ∧ linked.Timed
  | .request _ call => call.env.Timed
  | _ => True

/-- The step has what it needs once it has taken a transaction: separate responses have room, and
client requests get their buffer. -/
def HostStep.Clean (cfg : Config) (h : Host) : HostStep → Prop
  | .respond site status handle rounds =>
    LoopHasRoom cfg site status (h.server.handles handle).body handle rounds 0
      (h.server.handles handle).requests h.server
  | .request k call => k.Backed call
  | _ => True

/-- a run from start-up, all of whose steps come to their end and meet a condition -/
inductive HostRun (cfg : Config) (C : Host → HostStep → Prop) : Host → List Event → Prop where
  | init (currentMid : UInt16) : HostRun cfg C (Host.init currentMid) []
  | step {h : Host} {tr : List Event} (st : HostStep) (hr : HostRun cfg C h tr) (ht : st.Timed)
      (hc : C h st) (hf : Event.fault ∉ (h.step cfg st).2) :
      HostRun cfg C (h.step cfg st).1 (tr ++ (h.step cfg st).2)

section
variable {cfg : Config} {h : Host} {tr : List Event}

/-- what one step preserves -/
theorem AllSent.hostStep (hs : AllSent tr h.server.engine) {st : HostStep} (ht : st.Timed)
    (hc : st.Clean cfg h) (hf : Event.fault ∉ (h.step cfg st).2) :
    AllSent (tr ++ (h.step cfg st).2) (h.step cfg st).1.server.engine := by
  cases st with
  | receive env msg =>
    exact hs.step ((coapReceive_addsSent ht hs.timely msg).resolve_left hf)
  | requestTimeout id => exact hs.step (addsSent_of_subset (fun _ hx => hx) _)
  | responseTimeout id => exact hs.step (addsSent_of_subset (fun _ hx => hx) _)
  | checkTransactions timers =>
    refine foldl_check_sent ht _ hs (h.server.engine, []) ?_
    rw [List.append_nil]
    exact hs
  | respond site status handle rounds => exact hs.step (sendSeparate_addsSent handle ht h.server hc)
  | notify site supply linked get batch resource =>
    exact hs.step (notifyObservers_addsSent ht.1 ht.2 get batch resource none none h.server)
  | request k call => exact hs.step ((request_addsSent k ht hc h.session).resolve_left hf)
  | others list numObservers observeCounter handles =>
    exact hs.step (addsSent_of_subset (fun _ hx => hx) _)

end

/-- a handle with one request, and more bytes than fit into a block of 16 -/
def sampleLongHandle : SeparateResponse :=
  { acceptAll [{ sampleArrival 5683 with block2Size := 16 }] sampleHandle with
    payload := List.replicate 17 0x61 }

/-- no response buffer is free -/
def sampleExhausted : Round :=
  { sampleRound with env :=
      { sampleEnv [] length_nil_lt with responseAlloc := ⟨false, fun _ => 0⟩ } }

def sampleHost : Host := Host.init 0

/-- the handle has been filled -/
def sampleFilled : HostStep := .others [] (fun _ => 0) 3 fun _ => sampleLongHandle

/-- every transaction is due -/
def sampleTimers : Timers := ⟨fun _ => true, fun _ => 2, fun _ _ => false⟩

end Coap
