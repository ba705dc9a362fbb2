import Iotivity.Engine.Settle

/-!
# Runs of the engine

A step is a message coming in, a timer, or another module that sends or clears a transaction.
`Run cfg C s tr`: from start-up the engine has come to the state `s` with the events `tr`, and every
step on the way has met the condition `C`.
-/

namespace Coap
open Memory Keyed

/-- * `receive`             a message from the network;
* `requestTimeout`, `responseTimeout`   `OC_EXCHANGE_LIFETIME` of a buffer is over;
* `checkTransactions`   the retransmission timer;
* `send`                another module opens a transaction, serializes and sends it;
* `clear`               another module clears a transaction. -/
inductive Step where
  | receive (env : Env) (msg : OcMessage)
  | requestTimeout (id : Nat)
  | responseTimeout (id : Nat)
  | checkTransactions (timers : Timers)
  | send (env : Env) (mid : UInt16) (endpoint : Endpoint) (data : List UInt8)
  | clear (id : Nat)

/-- `coap_new_transaction`, the serialized message, `coap_send_transaction` -/
def sendNew (env : Env) (mid : UInt16) (endpoint : Endpoint) (data : List UInt8) (s : State) :
    State × List Event :=
  match coapNewTransaction env.transactionGranted mid endpoint s with
  | (none, s) => (s, [])
  | (some id, s) =>
    let t : Transaction := ⟨id, mid, endpoint, 0, 0, data⟩
    coapSendTransaction env.initialInterval env.gone t (putTransaction t s)

def step (cfg : Config) (st : Step) (s : State) : State × List Event :=
  match st with
  | .receive env msg => coapReceive cfg env msg s
  | .requestTimeout id => (s.withBuffers (ocBlockwiseFreeRequestBuffer id), [])
  | .responseTimeout id => (s.withBuffers (ocBlockwiseFreeResponseBuffer id), [])
  | .checkTransactions timers => coapCheckTransactions timers s
  | .send env mid endpoint data => sendNew env mid endpoint data s
  | .clear id => (coapClearTransaction id s, [])

inductive Run (cfg : Config) (C : State → Step → Prop) : State → List Event → Prop where
  | init (currentMid : UInt16) : Run cfg C (State.init currentMid) []
  | step {s : State} {tr : List Event} (st : Step) (h : Run cfg C s tr) (hc : C s st) :
      Run cfg C (Coap.step cfg st s).1 (tr ++ (Coap.step cfg st s).2)

variable {cfg : Config} {C : State → Step → Prop} {s : State} {tr : List Event}

/-! ## the steps that are not messages -/

theorem sendNew_settles (env : Env) (mid : UInt16) (endpoint : Endpoint) (data : List UInt8)
    (hs : s.WF) : Settles none s (sendNew env mid endpoint data s).1 := by
  unfold sendNew
  split
  · rename_i hn
    obtain ⟨_, rfl⟩ := coapNewTransaction_none hn
    exact Settles.refl none _
  · rename_i id s1 hn
    have h1 := settles_newTransaction none hn
    obtain ⟨_, hid, _⟩ := coapNewTransaction_some hn
    have h2 : Settles (some id) s1 (coapSendTransaction env.initialInterval env.gone
        ⟨id, mid, endpoint, 0, 0, data⟩ (putTransaction ⟨id, mid, endpoint, 0, 0, data⟩ s1)).1 :=
      settles_putSend env.initialInterval env.gone s1 rfl
    refine h1.thenNew h2 fun t ht he => ?_
    have h3 := hs.transactions.lt t ht
    have h4 : id = t.id := Option.some.inj he
    omega

/-- a round of `coap_check_transactions` works on its own transaction only -/
theorem checkTransaction_settles (timers : Timers) (r : State × List Event) (t : Transaction) :
    Settles (some t.id) r.1 (checkTransaction timers r t).1 := by
  unfold checkTransaction
  split
  · exact settles_putSend _ _ r.1 rfl
  · exact Settles.refl _ _

/-- buffers and addresses after a pass; transactions are another matter -/
theorem foldl_checkTransaction (timers : Timers) (ts : List Transaction) (r : State × List Event) :
    (r.1.WF → (ts.foldl (checkTransaction timers) r).1.WF) ∧
      QuietRequests r.1 (ts.foldl (checkTransaction timers) r).1 ∧
      QuietResponses r.1 (ts.foldl (checkTransaction timers) r).1 := by
  induction ts generalizing r with
  | nil => exact ⟨fun h => h, QuietRequests.refl _, QuietResponses.refl _⟩
  | cons t ts ih =>
    have h1 := checkTransaction_settles timers r t
    obtain ⟨h2, h3, h4⟩ := ih (checkTransaction timers r t)
    exact ⟨fun h => h2 (h1.wf h), h1.requests.trans h3, h1.responses.trans h4⟩

/-! ## addresses stay distinct -/

theorem State.init_wf (currentMid : UInt16) : (State.init currentMid).WF :=
  ⟨⟨List.nodup_nil, fun _ h => absurd h (by simp [State.init])⟩,
    ⟨List.nodup_nil, fun _ h => absurd h (by simp [State.init])⟩,
    ⟨List.nodup_nil, fun _ h => absurd h (by simp [State.init])⟩⟩

theorem coapReceive_wf (env : Env) (msg : OcMessage) (hs : s.WF) :
    (coapReceive cfg env msg s).1.WF := by
  unfold coapReceive
  split
  · exact (shrinks_scrub s).wf hs
  · exact (receiveMessage_keeps cfg env _ _ hs).wf (cancelTransaction_wf _ _ hs)

theorem step_wf (st : Step) (hs : s.WF) : (step cfg st s).1.WF := by
  cases st with
  | receive env msg => exact coapReceive_wf env msg hs
  | requestTimeout id => exact (shrinks_freeRequest id s).wf hs
  | responseTimeout id => exact (shrinks_freeResponse id s).wf hs
  | checkTransactions timers => exact (foldl_checkTransaction timers s.transactions (s, [])).1 hs
  | send env mid endpoint data => exact (sendNew_settles env mid endpoint data hs).wf hs
  | clear id => exact (settles_clearTransaction id s).wf hs

theorem Run.wf (h : Run cfg C s tr) : s.WF := by
  induction h with
  | init currentMid => exact State.init_wf currentMid
  | step st _ _ ih => exact step_wf st ih

/-! ## sample inputs -/

/-- nothing fails, and the resource answers `2.05` with a representation -/
def sampleEnv (representation : List UInt8) (h : representation.length < 2^16) : Env where
  requestAlloc := ⟨true, fun _ => 0⟩
  responseAlloc := ⟨true, fun _ => 0⟩
  etag := [1, 2, 3, 4, 5, 6, 7, 8]
  transactionGranted := true
  ackGranted := true
  initialInterval := 2
  randomToken := [0, 0, 0, 0, 0, 0, 0, 0]
  csmNone := false
  csmToken := []
  entity :=
    { parseRep := .ok
      resource := true
      interfaceSupported := true
      authorized := true
      implemented := true
      reply := .code content205.toNat
      representation := representation
      representation_lt := h
      separate := false
      setObserve := false }
  stopDiscovery := false
  gone := fun _ => false

theorem length_nil_lt : ([] : List UInt8).length < 2^16 := Nat.two_pow_pos 16

/-- an IPv6 host, told apart by its port -/
def sampleEndpoint (port : UInt16) : Endpoint :=
  ⟨0, ⟨false, false, false, true, false, false, false⟩, port, []⟩

/-- a datagram -/
def sampleMessage (port : UInt16) (data : List UInt8) : OcMessage :=
  ⟨sampleEndpoint port, fun i => data.getD i 0, data.length⟩

end Coap
