import Iotivity.Engine.Run
import Iotivity.Coap.Emitted
import Iotivity.Lib.RefCount

/-!
# Outgoing messages: `oc_buffer.c`

An outgoing message is shared.  The transaction that retransmits it holds it, and so does every
event that is queued for `message_buffer_handler`; `ref_count` says how many they are.  The messages
here are unsecured and go over UDP.

* `Traffic`             messages, transactions and the queue of events;
* `Traffic.step`        what the messaging layer does to them, over a queue with a capacity;
* `Traffic.Conserved`   `ref_count` is the number of holders, and a message without any has been
                        given back once;
* `Traffic.Shows.sendTransaction`   the transactions are those of the engine;
* `run_conserved`       `Conserved` holds as long as no acknowledgement meets a full queue.

The acknowledgement is the one message that no transaction holds.  When the queue is full,
`oc_send_message` takes its count to zero, and `oc_message_unref` takes it on to 255.
-/

namespace Coap

/-- `oc_message_t` as it goes out; `data` holds the `length` bytes -/
structure OutMessage where
  endpoint : Endpoint
  data : List UInt8
  unsecured : endpoint.flags.secured = false
  udp : endpoint.flags.tcp = false

/-- `coap_transaction_t`; `message` is an address -/
structure MessageTransaction where
  id : Nat
  mid : UInt16
  message : Nat
  retransCounter : Nat
  interval : Nat

/-- `other` are the events that carry no outgoing message -/
inductive QueuedEvent where
  | outbound (message : Nat)
  | other
deriving DecidableEq

structure Traffic where
  heap : RefCount.Heap
  messages : Nat → OutMessage
  transactions : List MessageTransaction
  queue : List QueuedEvent
  fresh : Nat

/-- the transaction with its message -/
def MessageTransaction.whole (messages : Nat → OutMessage) (t : MessageTransaction) : Transaction where
  id := t.id
  mid := t.mid
  endpoint := (messages t.message).endpoint
  retransCounter := t.retransCounter
  interval := t.interval
  data := (messages t.message).data

namespace Traffic

/-! ## messages -/

/-- the object behind a pointer is read or written -/
def touch (m : Nat) (s : Traffic) : Traffic := { s with heap := s.heap.touch m }

/-- `ref_count++` -/
def ocMessageAddRef (m : Nat) (s : Traffic) : Traffic := { s with heap := s.heap.retain m }

/-- `ref_count` is an unsigned byte, so `ref_count <= 0` says that it is zero -/
def ocMessageUnref (m : Nat) (s : Traffic) : Traffic := { s with heap := s.heap.release m }

/-- a new message for a destination, `ref_count = 1` -/
def allocateMessage (message : OutMessage) (s : Traffic) : Nat × Traffic :=
  (s.heap.alloc.1,
    { s with
      heap := s.heap.alloc.2
      messages := Function.update s.messages s.heap.alloc.1 message })

/-- `oc_process_post`; `none` stands for `OC_PROCESS_ERR_FULL` -/
def ocProcessPost (cap : Nat) (ev : QueuedEvent) (s : Traffic) : Option Traffic :=
  if s.queue.length = cap then none else some { s with queue := s.queue ++ [ev] }

def ocSendMessage (cap : Nat) (m : Nat) (s : Traffic) : Traffic :=
  match s.ocProcessPost cap (.outbound m) with
  | none => { s with heap := s.heap.drop m }
  | some s => s

/-- `message_buffer_handler` at an outbound event.  The message is unsecured: it goes to the network,
as a discovery request or to one host. -/
def messageBufferHandler (m : Nat) (s : Traffic) : Traffic × List Event :=
  let s := s.touch m
  (s.ocMessageUnref m, [.transmitted (s.messages m).endpoint (s.messages m).data])

/-! ## transactions -/

def coapNewTransaction (granted : Bool) (mid : UInt16) (message : OutMessage) (s : Traffic) :
    Option Nat × Traffic :=
  if granted then
    let (m, s) := s.allocateMessage message
    let t : MessageTransaction :=
      { id := s.fresh, mid, message := m, retransCounter := 0, interval := 0 }
    (some t.id, { s with transactions := s.transactions ++ [t], fresh := s.fresh + 1 })
  else (none, s)

/-- a store through a pointer to a transaction -/
def putTransaction (t : MessageTransaction) (s : Traffic) : Traffic :=
  { s with transactions := Keyed.put MessageTransaction.id t s.transactions }

def coapClearTransaction (t : MessageTransaction) (s : Traffic) : Traffic :=
  let s := s.ocMessageUnref t.message
  { s with transactions := Keyed.remove MessageTransaction.id t.id s.transactions }

def coapSendTransaction (cap initial : Nat) (t : MessageTransaction) (s : Traffic) : Traffic :=
  let s := s.touch t.message
  let w := t.whole s.messages
  if w.endpoint.flags.tcp = false ∧ w.confirmable = true then
    if t.retransCounter < coapMaxRetransmit then
      -- not timed out yet
      let interval := if t.retransCounter = 0 then initial else t.interval <<< 1
      let s := s.putTransaction { t with interval }
      (s.ocMessageAddRef t.message).ocSendMessage cap t.message
    else s.coapClearTransaction t
  else ((s.ocMessageAddRef t.message).ocSendMessage cap t.message).coapClearTransaction t

/-- the round of `coap_check_transactions` for a transaction that is due -/
def expire (cap initial : Nat) (t : MessageTransaction) (s : Traffic) : Traffic :=
  let t := { t with retransCounter := (t.retransCounter + 1) % 2^8 }
  (s.putTransaction t).coapSendTransaction cap initial t

/-! ## acknowledgements -/

/-- a message that no transaction holds is sent -/
def sendUnheld (cap : Nat) (message : OutMessage) (s : Traffic) : Traffic :=
  let (m, s) := s.allocateMessage message
  let s := if 0 < message.data.length then s.ocSendMessage cap m else s
  let s := s.touch m
  if s.heap.count m = some 0 then s.ocMessageUnref m else s

/-- `coap_send_empty_ack`; the acknowledgement of `coap_separate_accept` is sent in the same way.
`message` has the destination. -/
def coapSendEmptyAck (cap : Nat) (granted : Bool) (mid : UInt16) (message : OutMessage) (s : Traffic) :
    Traffic :=
  if granted then
    s.sendUnheld cap { message with data := serializedBytes (coapUdpInitMessage .ack 0 mid) }
  else s

end Traffic

/-! ## runs -/

/-- What happens to outgoing messages.

* `serialize`   the message of a transaction is written;
* `expire`      the timer of a transaction has expired;
* `post`        somebody posts an event that carries no outgoing message;
* `process`     `oc_process_run` delivers the first event. -/
inductive TrafficStep where
  | newTransaction (granted : Bool) (mid : UInt16) (message : OutMessage)
  | serialize (t : MessageTransaction) (data : List UInt8)
  | send (initial : Nat) (t : MessageTransaction)
  | expire (initial : Nat) (t : MessageTransaction)
  | clear (t : MessageTransaction)
  | emptyAck (granted : Bool) (mid : UInt16) (message : OutMessage)
  | post
  | process

/-- the transaction that a step works on -/
def TrafficStep.transaction : TrafficStep → Option MessageTransaction
  | .serialize t _ => some t
  | .send _ t => some t
  | .expire _ t => some t
  | .clear t => some t
  | _ => none

def Traffic.ocProcessRun (s : Traffic) : Traffic × List Event :=
  match s.queue with
  | [] => (s, [])
  | .outbound m :: queue => Traffic.messageBufferHandler m { s with queue }
  | .other :: queue => ({ s with queue }, [])

def Traffic.step (cap : Nat) (st : TrafficStep) (s : Traffic) : Traffic :=
  match st with
  | .newTransaction granted mid message => (s.coapNewTransaction granted mid message).2
  | .serialize t data =>
    let s := s.touch t.message
    { s with
      messages := Function.update s.messages t.message { s.messages t.message with data } }
  | .send initial t => s.coapSendTransaction cap initial t
  | .expire initial t => s.expire cap initial t
  | .clear t => s.coapClearTransaction t
  | .emptyAck granted mid message => s.coapSendEmptyAck cap granted mid message
  | .post => (s.ocProcessPost cap .other).getD s
  | .process => s.ocProcessRun.1

/-- a message that nobody has written -/
def blankMessage : OutMessage where
  endpoint := ⟨0, ⟨false, false, false, false, false, false, false⟩, 0, []⟩
  data := []
  unsecured := rfl
  udp := rfl

def Traffic.init : Traffic := ⟨RefCount.Heap.init, fun _ => blankMessage, [], [], 0⟩

/-- No acknowledgement meets a full queue, and a message that is sent has a holder to spare. -/
def TrafficStep.Clean (cap : Nat) (s : Traffic) : TrafficStep → Prop
  | .send _ t => s.heap.count t.message ≠ some 255
  | .expire _ t => s.heap.count t.message ≠ some 255
  | .emptyAck granted _ _ => granted = true → s.queue.length ≠ cap
  | _ => True

/-- a run from start-up, over transactions that are on the list, all of whose steps meet a
condition -/
inductive TrafficRun (cap : Nat) (C : Traffic → TrafficStep → Prop) : Traffic → Prop where
  | init : TrafficRun cap C Traffic.init
  | step {s : Traffic} (st : TrafficStep) (hr : TrafficRun cap C s)
      (ht : ∀ t, st.transaction = some t → t ∈ s.transactions) (hc : C s st) :
      TrafficRun cap C (s.step cap st)

/-! ## holders -/

/-- the number of transactions and queued events that hold a message -/
def Traffic.held (s : Traffic) (m : Nat) : Nat :=
  (s.transactions.map MessageTransaction.message).count m + s.queue.count (.outbound m)

/-- **`ref_count` is the number of holders.**  A message with a holder is there; one without has been
given back, once; and no message is used that is not there. -/
structure Traffic.Conserved (s : Traffic) : Prop where
  counted : ∀ m c, s.heap.count m = some c → c.toNat = s.held m
  kept : ∀ m, 0 < s.held m → (s.heap.count m).isSome ∧ s.heap.returned m = 0
  returned : ∀ m, m < s.heap.fresh → s.held m = 0 → s.heap.count m = none ∧ s.heap.returned m = 1
  unused : s.heap.misused = false

/-! ## what the operations do to the holders -/

namespace Traffic

/-- one more holder of `m` -/
def more (held : Nat → Nat) (m : Nat) (b : Nat) : Nat := if b = m then held b + 1 else held b

/-- the counters agree with the holders, and transactions are told apart by their address -/
structure InStep (s : Traffic) : Prop where
  balanced : RefCount.Balanced s.held s.heap
  distinct : Keyed.Distinct MessageTransaction.id s.fresh s.transactions

section
variable {cap : Nat} {s : Traffic} {m : Nat} {t : MessageTransaction}

theorem held_of_mem (ht : t ∈ s.transactions) : 0 < s.held t.message :=
  Nat.add_pos_left (List.count_pos_iff.mpr (List.mem_map_of_mem ht)) _

theorem held_queue_append (s : Traffic) (ev : QueuedEvent) (b : Nat) :
    ({ s with queue := s.queue ++ [ev] } : Traffic).held b =
      if ev = .outbound b then s.held b + 1 else s.held b := by
  unfold held
  dsimp only
  rw [List.count_append, List.count_singleton]
  by_cases h : ev = .outbound b
  · rw [if_pos h, if_pos (by simpa using h)]
    omega
  · rw [if_neg h, if_neg (by simpa using h)]
    omega

theorem held_transactions_append (s : Traffic) (t : MessageTransaction) (b : Nat) :
    ({ s with transactions := s.transactions ++ [t] } : Traffic).held b =
      more s.held t.message b := by
  unfold held more
  dsimp only
  rw [List.map_append, List.map_singleton, List.count_append, List.count_singleton]
  by_cases h : b = t.message
  · rw [if_pos h, if_pos (by simp [h])]
    omega
  · rw [if_neg h, if_neg (by simpa using Ne.symm h)]
    omega

/-- a store that leaves the message alone -/
theorem held_put (hd : Keyed.Distinct MessageTransaction.id s.fresh s.transactions)
    (ht : t ∈ s.transactions) {u : MessageTransaction} (hid : u.id = t.id)
    (hm : u.message = t.message) : (s.putTransaction u).held = s.held := by
  have hmap : (Keyed.put MessageTransaction.id u s.transactions).map MessageTransaction.message =
      s.transactions.map MessageTransaction.message := by
    unfold Keyed.put
    rw [List.map_map]
    refine List.map_congr_left fun y hy => ?_
    show MessageTransaction.message (if y.id = u.id then u else y) = y.message
    split
    · rename_i hy'
      rw [hm, hd.coherent ht y hy (hy'.trans hid)]
    · rfl
  funext b
  unfold held putTransaction
  dsimp only
  rw [hmap]

theorem held_remove (hd : Keyed.Distinct MessageTransaction.id s.fresh s.transactions)
    (ht : t ∈ s.transactions) (b : Nat) :
    ({ s with transactions := Keyed.remove MessageTransaction.id t.id s.transactions } :
      Traffic).held b = if b = t.message then s.held b - 1 else s.held b := by
  have hp := ((hd.perm_remove ht).map MessageTransaction.message).count_eq b
  rw [List.map_cons, List.count_cons] at hp
  unfold held
  dsimp only
  rw [hp]
  by_cases h : b = t.message
  · rw [if_pos h, if_pos (by simp [h])]
    omega
  · rw [if_neg h, if_neg (by simpa using Ne.symm h)]
    omega

theorem touch_held (hb : RefCount.Balanced s.held s.heap) (hm : 0 < s.held m) : s.touch m = s := by
  unfold touch
  rw [hb.touch hm]

/-- a reference is handed to the queue, or given up when the queue is full -/
theorem ocSendMessage_balanced (hb : RefCount.Balanced (more s.held m) s.heap)
    (h : 0 < s.held m ∨ s.queue.length ≠ cap) :
    RefCount.Balanced (s.ocSendMessage cap m).held (s.ocSendMessage cap m).heap := by
  unfold ocSendMessage ocProcessPost
  by_cases hfull : s.queue.length = cap
  · rw [if_pos hfull]
    have hheld : 0 < s.held m := h.resolve_right fun hne => hne hfull
    have hself : more s.held m m = s.held m + 1 := if_pos rfl
    refine hb.drop (by omega) fun b => ?_
    show s.held b = if b = m then more s.held m b - 1 else more s.held m b
    unfold more
    split <;> rfl
  · rw [if_neg hfull]
    refine hb.congr fun b => ?_
    show ({ s with queue := s.queue ++ [.outbound m] } : Traffic).held b = more s.held m b
    rw [held_queue_append]
    unfold more
    by_cases hbm : b = m
    · rw [if_pos (by rw [hbm]), if_pos hbm]
    · rw [if_neg (fun e => hbm (QueuedEvent.outbound.inj e).symm), if_neg hbm]

theorem ocSendMessage_transactions (cap m : Nat) (s : Traffic) :
    (s.ocSendMessage cap m).transactions = s.transactions ∧
      (s.ocSendMessage cap m).fresh = s.fresh := by
  unfold ocSendMessage ocProcessPost
  by_cases hfull : s.queue.length = cap
  · rw [if_pos hfull]
    exact ⟨rfl, rfl⟩
  · rw [if_neg hfull]
    exact ⟨rfl, rfl⟩

theorem ocSendMessage_messages (cap m : Nat) (s : Traffic) :
    (s.ocSendMessage cap m).messages = s.messages := by
  unfold ocSendMessage ocProcessPost
  by_cases hfull : s.queue.length = cap
  · rw [if_pos hfull]
  · rw [if_neg hfull]

/-- the transactions, each with its message, are those of the engine -/
def Shows (s : Traffic) (e : State) : Prop :=
  e.transactions = s.transactions.map fun t => t.whole s.messages

theorem Shows.sent {e : State} (h : s.Shows e) (cap m : Nat) :
    ((s.ocMessageAddRef m).ocSendMessage cap m).Shows e := by
  unfold Shows
  rw [(ocSendMessage_transactions cap m _).1, ocSendMessage_messages]
  exact h

theorem Shows.put {e : State} (h : s.Shows e) (t : MessageTransaction) :
    (s.putTransaction t).Shows (Coap.putTransaction (t.whole s.messages) e) := by
  unfold Shows putTransaction Coap.putTransaction Keyed.put
  dsimp only
  rw [h, List.map_map, List.map_map]
  refine List.map_congr_left fun y _ => ?_
  show (if y.id = t.id then t.whole s.messages else y.whole s.messages) =
    MessageTransaction.whole s.messages (if y.id = t.id then t else y)
  split <;> rfl

theorem Shows.clear {e : State} (h : s.Shows e) (t : MessageTransaction) :
    (s.coapClearTransaction t).Shows (Coap.coapClearTransaction t.id e) := by
  unfold Shows coapClearTransaction Coap.coapClearTransaction Keyed.remove
  dsimp only
  rw [h, List.filter_map]
  rfl

/-- sending a transaction does to the list what it does in the engine -/
theorem Shows.sendTransaction {e : State} (h : s.Shows e) (cap initial : Nat) (gone : Nat → Bool)
    (t : MessageTransaction) :
    (s.coapSendTransaction cap initial t).Shows
      (Coap.coapSendTransaction initial gone (t.whole s.messages) e).1 := by
  have hw : (t.whole s.messages).retransCounter = t.retransCounter := rfl
  have h' : (s.touch t.message).Shows e := h
  unfold coapSendTransaction Coap.coapSendTransaction
  dsimp only [touch]
  rw [hw]
  by_cases hc : (t.whole s.messages).endpoint.flags.tcp = false ∧
      (t.whole s.messages).confirmable = true
  · rw [if_pos hc, if_pos hc]
    by_cases hr : t.retransCounter < coapMaxRetransmit
    · rw [if_pos hr, if_pos hr]
      exact (h'.put { t with interval := _ }).sent cap t.message
    · rw [if_neg hr, if_neg hr]
      -- what is done for the observers and the clients leaves the transactions alone
      refine Shows.clear ?_ t
      unfold ocRiRemoveClientCbByMid
      split <;> exact h
  · rw [if_neg hc, if_neg hc]
    exact (h'.sent cap t.message).clear t

/-- a message that somebody holds is sent -/
theorem InStep.sendHeld (hi : s.InStep) (hm : 0 < s.held m) (hmax : s.heap.count m ≠ some 255) :
    ((s.ocMessageAddRef m).ocSendMessage cap m).InStep := by
  have hb : RefCount.Balanced (more (s.ocMessageAddRef m).held m) (s.ocMessageAddRef m).heap :=
    hi.balanced.retain hm hmax fun _ => rfl
  obtain ⟨ht, hf⟩ := ocSendMessage_transactions cap m (s.ocMessageAddRef m)
  refine ⟨ocSendMessage_balanced hb (Or.inl hm), ?_⟩
  rw [ht, hf]
  exact hi.distinct

theorem InStep.put (hi : s.InStep) (ht : t ∈ s.transactions) {u : MessageTransaction}
    (hid : u.id = t.id) (hm : u.message = t.message) : (s.putTransaction u).InStep := by
  refine ⟨?_, hi.distinct.put u⟩
  rw [held_put hi.distinct ht hid hm]
  exact hi.balanced

theorem InStep.clear (hi : s.InStep) (ht : t ∈ s.transactions) : (s.coapClearTransaction t).InStep :=
  ⟨hi.balanced.release (held_of_mem ht) (held_remove hi.distinct ht), hi.distinct.filter _⟩

theorem InStep.sendTransaction (hi : s.InStep) (ht : t ∈ s.transactions)
    (hmax : s.heap.count t.message ≠ some 255) (initial : Nat) :
    (s.coapSendTransaction cap initial t).InStep := by
  have hm := held_of_mem ht
  unfold coapSendTransaction
  rw [touch_held hi.balanced hm]
  dsimp only
  by_cases hc : (t.whole s.messages).endpoint.flags.tcp = false ∧
      (t.whole s.messages).confirmable = true
  · rw [if_pos hc]
    by_cases hr : t.retransCounter < coapMaxRetransmit
    · rw [if_pos hr]
      generalize hk : (if t.retransCounter = 0 then initial else t.interval <<< 1) = interval
      have hput := held_put hi.distinct ht (u := { t with interval }) rfl rfl
      have hi' := hi.put ht (u := { t with interval }) rfl rfl
      exact hi'.sendHeld (by rw [hput]; exact hm) hmax
    · rw [if_neg hr]
      exact hi.clear ht
  · rw [if_neg hc]
    refine (hi.sendHeld hm hmax).clear ?_
    rw [(ocSendMessage_transactions cap _ _).1]
    exact ht

theorem InStep.expire (hi : s.InStep) (ht : t ∈ s.transactions)
    (hmax : s.heap.count t.message ≠ some 255) (initial : Nat) : (s.expire cap initial t).InStep :=
  (hi.put ht (u := { t with retransCounter := (t.retransCounter + 1) % 2^8 }) rfl
    rfl).sendTransaction (Keyed.mem_put_self ht rfl) hmax initial

/-- a new message is held by whoever asked for it -/
theorem InStep.allocated (hi : s.InStep) :
    RefCount.Balanced (more s.held s.heap.fresh) s.heap.alloc.2 := by
  refine hi.balanced.alloc fun b => ?_
  unfold more
  by_cases hb : b = s.heap.fresh
  · rw [if_pos hb, if_pos hb, hi.balanced.gone b (hi.balanced.beyond b (Nat.le_of_eq hb.symm)).1]
  · rw [if_neg hb, if_neg hb]

theorem InStep.newTransaction (hi : s.InStep) (granted : Bool) (mid : UInt16) (message : OutMessage) :
    (s.coapNewTransaction granted mid message).2.InStep := by
  unfold coapNewTransaction
  by_cases hg : granted = true
  · rw [if_pos hg]
    exact ⟨hi.allocated.congr (held_transactions_append s _), hi.distinct.snoc rfl⟩
  · rw [if_neg hg]
    exact hi

/-- the queue has room, and holds the message from now on -/
theorem InStep.sendUnheld (hi : s.InStep) {message : OutMessage} (hd : 0 < message.data.length)
    (hroom : s.queue.length ≠ cap) : (s.sendUnheld cap message).InStep := by
  obtain ⟨s₁, hs₁⟩ : ∃ s₁, s₁ = (s.allocateMessage message).2 := ⟨_, rfl⟩
  have hq : s₁.queue.length ≠ cap := by rw [hs₁]; exact hroom
  have hb : RefCount.Balanced (more s₁.held s.heap.fresh) s₁.heap := by
    rw [hs₁]
    exact hi.allocated
  have hsent := ocSendMessage_balanced hb (Or.inr hq)
  have hpost : s₁.ocSendMessage cap s.heap.fresh =
      { s₁ with queue := s₁.queue ++ [.outbound s.heap.fresh] } := by
    unfold ocSendMessage ocProcessPost
    rw [if_neg hq]
  have hheld : 0 < (s₁.ocSendMessage cap s.heap.fresh).held s.heap.fresh := by
    rw [hpost, held_queue_append, if_pos rfl]
    exact Nat.succ_pos _
  have hcount : (s₁.ocSendMessage cap s.heap.fresh).heap.count s.heap.fresh = some 1 := by
    rw [hpost, hs₁]
    exact Function.update_self _ _ _
  have heq : s.sendUnheld cap message = s₁.ocSendMessage cap s.heap.fresh := by
    unfold Traffic.sendUnheld
    show (let s₂ := (if 0 < message.data.length then
          (s.allocateMessage message).2.ocSendMessage cap s.heap.fresh
        else (s.allocateMessage message).2).touch s.heap.fresh
      if s₂.heap.count s.heap.fresh = some 0 then s₂.ocMessageUnref s.heap.fresh else s₂) = _
    rw [if_pos hd, ← hs₁, touch_held hsent hheld]
    dsimp only
    rw [hcount, if_neg (by decide)]
  obtain ⟨ht, hf⟩ := ocSendMessage_transactions cap s.heap.fresh s₁
  rw [heq]
  refine ⟨hsent, ?_⟩
  rw [ht, hf, hs₁]
  exact hi.distinct

/-- an empty acknowledgement has its four bytes of header -/
theorem emptyAck_bytes (mid : UInt16) :
    0 < (serializedBytes (coapUdpInitMessage .ack 0 mid)).length := by
  have hfew : FewOptions (coapUdpInitMessage .ack 0 mid) :=
    ⟨rfl, rfl, rfl, fun n _ => decide_eq_false List.not_mem_nil⟩
  exact hfew.serialized (Nat.zero_le _)

theorem InStep.sendEmptyAck (hi : s.InStep) (granted : Bool) (mid : UInt16) (message : OutMessage)
    (hroom : granted = true → s.queue.length ≠ cap) :
    (s.coapSendEmptyAck cap granted mid message).InStep := by
  unfold coapSendEmptyAck
  by_cases hg : granted = true
  · rw [if_pos hg]
    exact hi.sendUnheld (emptyAck_bytes mid) (hroom hg)
  · rw [if_neg hg]
    exact hi

/-- the queue is full: the count goes to zero and on to 255, and nobody holds the message -/
theorem InStep.emptyAck_full (hi : s.InStep) (hfull : s.queue.length = cap) (mid : UInt16)
    (message : OutMessage) :
    (s.coapSendEmptyAck cap true mid message).heap.count s.heap.fresh = some 255 ∧
      (s.coapSendEmptyAck cap true mid message).held s.heap.fresh = 0 := by
  have hnone : s.held s.heap.fresh = 0 :=
    hi.balanced.gone _ (hi.balanced.beyond _ (Nat.le_refl _)).1
  obtain ⟨s₁, hs₁⟩ : ∃ s₁, s₁ = (s.allocateMessage
      { message with data := serializedBytes (coapUdpInitMessage .ack 0 mid) }).2 := ⟨_, rfl⟩
  have hq : s₁.queue.length = cap := by rw [hs₁]; exact hfull
  have hone : s₁.heap.count s.heap.fresh = some 1 := by
    rw [hs₁]
    exact Function.update_self _ _ _
  have hdrop : s₁.ocSendMessage cap s.heap.fresh =
      { s₁ with heap := { s₁.heap with
          count := Function.update s₁.heap.count s.heap.fresh (some 0) } } := by
    unfold ocSendMessage ocProcessPost
    rw [if_pos hq]
    unfold RefCount.Heap.drop
    rw [hone]
    rfl
  have heq : s.coapSendEmptyAck cap true mid message =
      { s₁ with heap := { s₁.heap with
          count := Function.update s₁.heap.count s.heap.fresh (some 255) } } := by
    unfold coapSendEmptyAck Traffic.sendUnheld
    rw [if_pos rfl]
    show (let s₂ := (if 0 < (serializedBytes (coapUdpInitMessage .ack 0 mid)).length then
          (s.allocateMessage _).2.ocSendMessage cap s.heap.fresh
        else (s.allocateMessage _).2).touch s.heap.fresh
      if s₂.heap.count s.heap.fresh = some 0 then s₂.ocMessageUnref s.heap.fresh else s₂) = _
    rw [if_pos (emptyAck_bytes mid), ← hs₁, hdrop]
    simp only [touch, RefCount.Heap.touch, ocMessageUnref, RefCount.Heap.release,
      Function.update_self, Function.update_idem, Option.isSome_some, if_true]
    rfl
  rw [heq]
  refine ⟨Function.update_self _ _ _, ?_⟩
  rw [hs₁]
  exact hnone

/-- an event that holds nothing is queued -/
theorem InStep.post (hi : s.InStep) : ((s.ocProcessPost cap .other).getD s).InStep := by
  unfold ocProcessPost
  by_cases hfull : s.queue.length = cap
  · rw [if_pos hfull]
    exact hi
  · rw [if_neg hfull]
    refine ⟨hi.balanced.congr fun b => ?_, hi.distinct⟩
    exact (held_queue_append s .other b).trans (if_neg fun h => QueuedEvent.noConfusion h)

theorem InStep.ocProcessRun (hi : s.InStep) : s.ocProcessRun.1.InStep := by
  have hpop : ∀ ev queue, s.queue = ev :: queue → ∀ b,
      ({ s with queue } : Traffic).held b = if ev = .outbound b then s.held b - 1 else s.held b := by
    intro ev queue hq b
    unfold held
    dsimp only
    rw [hq, List.count_cons]
    by_cases h : ev = .outbound b
    · rw [if_pos h, if_pos (by simpa using h)]
      omega
    · rw [if_neg h, if_neg (by simpa using h)]
      omega
  unfold Traffic.ocProcessRun
  cases hq : s.queue with
  | nil => exact hi
  | cons ev queue =>
    cases ev with
    | other =>
      refine ⟨hi.balanced.congr fun b => ?_, hi.distinct⟩
      exact (hpop .other queue hq b).trans (if_neg fun h => QueuedEvent.noConfusion h)
    | outbound m =>
      have hm : 0 < s.held m := by
        refine Nat.add_pos_right _ (List.count_pos_iff.mpr ?_)
        rw [hq]
        exact List.mem_cons_self
      have htouch : ({ s with queue } : Traffic).touch m = { s with queue } := by
        show ({ s with queue, heap := s.heap.touch m } : Traffic) = _
        rw [hi.balanced.touch hm]
      unfold messageBufferHandler
      dsimp only
      rw [htouch]
      refine ⟨hi.balanced.release hm fun b => ?_, hi.distinct⟩
      refine (hpop (.outbound m) queue hq b).trans ?_
      by_cases h : b = m
      · rw [if_pos (by rw [h]), if_pos h]
      · rw [if_neg (fun e => h (QueuedEvent.outbound.inj e).symm), if_neg h]

/-- what one step preserves -/
theorem InStep.step (hi : s.InStep) {st : TrafficStep}
    (ht : ∀ t, st.transaction = some t → t ∈ s.transactions) (hc : st.Clean cap s) :
    (s.step cap st).InStep := by
  cases st with
  | newTransaction granted mid message => exact hi.newTransaction granted mid message
  | serialize t data =>
    have hm := held_of_mem (ht t rfl)
    unfold Traffic.step
    dsimp only
    rw [touch_held hi.balanced hm]
    exact ⟨hi.balanced, hi.distinct⟩
  | send initial t => exact hi.sendTransaction (ht t rfl) hc initial
  | expire initial t => exact hi.expire (ht t rfl) hc initial
  | clear t => exact hi.clear (ht t rfl)
  | emptyAck granted mid message => exact hi.sendEmptyAck granted mid message hc
  | post => exact hi.post
  | process => exact hi.ocProcessRun

theorem InStep.init : Traffic.init.InStep :=
  ⟨RefCount.Balanced.init, List.nodup_nil, fun _ h => absurd h List.not_mem_nil⟩

theorem InStep.conserved (hi : s.InStep) : s.Conserved := by
  refine ⟨fun m c hc => (hi.balanced.live m c hc).1, fun m hm => ?_, fun m hlt hz => ?_,
    hi.balanced.proper⟩
  · obtain ⟨c, hc, _⟩ := hi.balanced.held_live hm
    exact ⟨Option.isSome_of_eq_some hc, (hi.balanced.live m c hc).2.2⟩
  · cases hc : s.heap.count m with
    | none => exact ⟨rfl, hi.balanced.once m hlt hc⟩
    | some c => exact absurd (hi.balanced.live m c hc).2.1 (by omega)

end

end Traffic

/-- **Outgoing messages are conserved.**  In a run in which no acknowledgement meets a full queue and
no count overflows, every message is counted by its holders, and given back when the last one is
gone. -/
theorem run_conserved (cap : Nat) (s : Traffic)
    (hr : TrafficRun cap (fun s st => st.Clean cap s) s) : s.Conserved := by
  have hi : s.InStep := by
    induction hr with
    | init => exact Traffic.InStep.init
    | step st _ ht hc ih => exact ih.step ht hc
  exact hi.conserved

/-! ## sample inputs -/

/-- a message for a host -/
def sampleOut : OutMessage := ⟨sampleEndpoint 5683, [], rfl, rfl⟩

/-- a queue with room for one event holds one, and an acknowledgement is sent: its message is left
with a count of 255, and nobody holds it -/
theorem unreturned_acknowledgement :
    ∃ s, TrafficRun 1 (fun _ _ => True) s ∧ s.heap.count 0 = some 255 ∧ s.held 0 = 0 ∧
      ¬ s.Conserved := by
  have hnone : ∀ s : Traffic, ∀ st : TrafficStep, st.transaction = none →
      ∀ t, st.transaction = some t → t ∈ s.transactions := by
    intro s st h t ht
    rw [h] at ht
    cases ht
  have h1 : TrafficRun 1 (fun _ _ => True) (Traffic.init.step 1 .post) :=
    .step .post .init (hnone _ _ rfl) trivial
  have h2 := TrafficRun.step (.emptyAck true 1 sampleOut) h1 (hnone _ _ rfl) trivial
  have hi : ((Traffic.init.ocProcessPost 1 .other).getD Traffic.init).InStep :=
    Traffic.InStep.init.post
  obtain ⟨hcount, hheld⟩ := hi.emptyAck_full rfl 1 sampleOut
  refine ⟨_, h2, hcount, hheld, fun hc => ?_⟩
  have h255 := (hc.counted 0 255 hcount).trans hheld
  exact absurd h255 (by decide)

/-- an acknowledgement that finds room -/
theorem run_conserved_ack :
    (Traffic.init.step 1 (.emptyAck true 1 sampleOut)).Conserved := by
  have hclean : TrafficStep.Clean 1 Traffic.init (.emptyAck true 1 sampleOut) :=
    fun _ h => absurd h (by decide)
  exact run_conserved 1 _
    (.step (.emptyAck true 1 sampleOut) .init (fun _ h => nomatch h) hclean)

end Coap
