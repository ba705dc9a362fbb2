import Iotivity.Engine.Run

/-!
# When a transaction leaves the list

A confirmable message stays in `transactions_list` until its peer answers it, its retransmissions are
used up, or it is cleared on purpose (`MayLeave`).

`coap_receive` looks a transaction up by the message id alone, before it looks at the type of the
message or where it comes from.  What holds in every run is therefore this: as long as the first
transaction with the message id of an incoming message is one that this message answers
(`CancelsOwn`), no transaction leaves for another reason.
-/

namespace Coap
open Memory Keyed

/-- confirmable, over UDP -/
def Transaction.Outstanding (t : Transaction) : Prop :=
  t.endpoint.flags.tcp = false ∧ t.confirmable = true

/-- the same message to the same peer, whatever the retransmission counter says -/
structure SameExchange (t t' : Transaction) : Prop where
  id : t'.id = t.id
  mid : t'.mid = t.mid
  endpoint : t'.endpoint = t.endpoint
  data : t'.data = t.data

/-- an ACK or RST from the peer of the transaction -/
def Answers (endpoint : Endpoint) (message : Message) (t : Transaction) : Prop :=
  (message.type = .ack ∨ message.type = .rst) ∧ message.mid = t.mid ∧
    ocEndpointCompare t.endpoint endpoint = true

/-- the reasons for a transaction to leave the list -/
def MayLeave (cfg : Config) (st : Step) (t : Transaction) : Prop :=
  match st with
  | .receive _ msg =>
    ∃ message, msg.parse cfg = .ok message ∧ msg.endpoint.flags.tcp = false ∧
      Answers msg.endpoint message t
  | .checkTransactions timers =>
    timers.expired t.id = true ∧ coapMaxRetransmit ≤ t.expire.retransCounter
  | .clear id => id = t.id
  | _ => False

/-- the transaction that a message cancels is one that it answers -/
def CancelsOwn (cfg : Config) (s : State) (st : Step) : Prop :=
  match st with
  | .receive _ msg =>
    ∀ message, msg.parse cfg = .ok message → msg.endpoint.flags.tcp = false →
      ∀ t, coapGetTransactionByMid s message.mid = some t → Answers msg.endpoint message t
  | _ => True

/-! ## messages -/

variable {cfg : Config} {s : State} {t t' : Transaction}

theorem SameExchange.refl (t : Transaction) : SameExchange t t := ⟨rfl, rfl, rfl, rfl⟩

theorem receive_keeps_transaction (hs : s.WF) (env : Env) (msg : OcMessage)
    (hc : CancelsOwn cfg s (.receive env msg)) (ht : t ∈ s.transactions) :
    t ∈ (coapReceive cfg env msg s).1.transactions ∨ MayLeave cfg (.receive env msg) t := by
  unfold coapReceive
  split
  · exact Or.inl ht
  · rename_i message hp
    have hk := receiveMessage_keeps cfg env msg.endpoint message hs
    rcases cancelTransaction_cases msg.endpoint message s with e | ⟨t0, htcp, hmid, e⟩
    · exact Or.inl (hk.kept t (e.symm ▸ ht) (by simp))
    · by_cases hid : t.id = t0.id
      · -- it is the transaction that is cancelled
        have hmem : t0 ∈ s.transactions := List.mem_of_find?_eq_some hmid
        obtain rfl : t = t0 := hs.transactions.coherent hmem t ht hid
        exact Or.inr ⟨message, hp, htcp, hc message hp htcp t hmid⟩
      · refine Or.inl (hk.kept t ?_ (by simp))
        rw [e]
        exact mem_remove.mpr ⟨ht, hid⟩

/-! ## the retransmission timer -/

/-- rounds for other transactions leave this one alone -/
theorem foldl_checkTransaction_other (timers : Timers) (ts : List Transaction)
    (r : State × List Event) (ht : t ∈ r.1.transactions) (hne : ∀ x ∈ ts, x.id ≠ t.id) :
    t ∈ (ts.foldl (checkTransaction timers) r).1.transactions := by
  induction ts generalizing r with
  | nil => exact ht
  | cons x ts ih =>
    refine ih _ ?_ fun y hy => hne y (List.mem_cons_of_mem _ hy)
    refine (checkTransaction_settles timers r x).kept t ht fun he => ?_
    exact hne x List.mem_cons_self (Option.some.inj he)

/-- its own round keeps it as long as retransmissions are left -/
theorem checkTransaction_self (timers : Timers) (r : State × List Event)
    (ht : t ∈ r.1.transactions) (ho : t.Outstanding)
    (hleft : ¬ (timers.expired t.id = true ∧ coapMaxRetransmit ≤ t.expire.retransCounter)) :
    ∃ t' ∈ (checkTransaction timers r t).1.transactions, SameExchange t t' := by
  unfold checkTransaction
  split
  · rename_i hexp
    dsimp only
    have hlt : t.expire.retransCounter < coapMaxRetransmit := by
      by_contra h
      exact hleft ⟨hexp, Nat.le_of_not_lt h⟩
    have hout : t.expire.endpoint.flags.tcp = false ∧ t.expire.confirmable = true := ho
    unfold coapSendTransaction
    rw [if_pos hout, if_pos hlt]
    exact ⟨_, mem_put_self (mem_put_self ht rfl) rfl, ⟨rfl, rfl, rfl, rfl⟩⟩
  · exact ⟨t, ht, SameExchange.refl t⟩

theorem checkTransactions_keep (hs : s.WF) (timers : Timers) (ht : t ∈ s.transactions)
    (ho : t.Outstanding)
    (hleft : ¬ (timers.expired t.id = true ∧ coapMaxRetransmit ≤ t.expire.retransCounter)) :
    ∃ t' ∈ (coapCheckTransactions timers s).1.transactions, SameExchange t t' := by
  -- the rounds before, of, and behind the transaction
  obtain ⟨front, back, e⟩ := List.append_of_mem ht
  have hnd := hs.transactions.nodup
  rw [e, List.map_append, List.map_cons, List.nodup_append] at hnd
  obtain ⟨_, hback, hfront⟩ := hnd
  unfold coapCheckTransactions
  rw [e, List.foldl_append, List.foldl_cons]
  have h1 : t ∈ (front.foldl (checkTransaction timers) (s, [])).1.transactions := by
    refine foldl_checkTransaction_other timers front (s, []) ht fun x hx => ?_
    exact hfront x.id (List.mem_map_of_mem hx) t.id List.mem_cons_self
  obtain ⟨t', ht', hsame⟩ := checkTransaction_self timers _ h1 ho hleft
  refine ⟨t', foldl_checkTransaction_other timers back _ ht' fun x hx he => ?_, hsame⟩
  rw [hsame.id] at he
  exact (List.nodup_cons.mp hback).1 (he ▸ List.mem_map_of_mem hx)

/-! ## the main result -/

/-- **Transactions.**  In every run in which messages cancel only what they answer, a confirmable
transaction leaves the list only for the reasons of `MayLeave`. -/
theorem transaction_leaves (cfg : Config) (s : State) (tr : List Event)
    (h : Run cfg (CancelsOwn cfg) s tr) (st : Step) (hc : CancelsOwn cfg s st) (t : Transaction)
    (ht : t ∈ s.transactions) (ho : t.Outstanding) :
    (∃ t' ∈ (step cfg st s).1.transactions, SameExchange t t') ∨ MayLeave cfg st t := by
  have hs := h.wf
  have hstay : t ∈ (step cfg st s).1.transactions →
      ∃ t' ∈ (step cfg st s).1.transactions, SameExchange t t' :=
    fun hm => ⟨t, hm, SameExchange.refl t⟩
  cases st with
  | receive env msg => exact (receive_keeps_transaction hs env msg hc ht).imp_left hstay
  | requestTimeout id => exact Or.inl (hstay ht)
  | responseTimeout id => exact Or.inl (hstay ht)
  | checkTransactions timers =>
    by_cases hleft : timers.expired t.id = true ∧ coapMaxRetransmit ≤ t.expire.retransCounter
    · exact Or.inr hleft
    · exact Or.inl (checkTransactions_keep hs timers ht ho hleft)
  | send env mid endpoint data =>
    exact Or.inl (hstay ((sendNew_settles env mid endpoint data hs).kept t ht (by simp)))
  | clear id =>
    by_cases hid : id = t.id
    · exact Or.inr hid
    · exact Or.inl (hstay (mem_remove.mpr ⟨ht, fun he => hid he.symm⟩))

/-! ## a request that takes another peer's transaction away -/

/-- a confirmable GET with message id `7` has been sent to port `1` -/
def oneOutstanding : State :=
  (step defaultConfig (.send (sampleEnv [] (by decide)) 7 (sampleEndpoint 1) [0x40, 0x01, 0x00, 0x07])
    (State.init 0)).1

def outstandingGet : Transaction :=
  ⟨0, 7, sampleEndpoint 1, 0, 2, [0x40, 0x01, 0x00, 0x07]⟩

theorem oneOutstanding_transactions : oneOutstanding.transactions = [outstandingGet] := rfl

/-- a message with another id leaves it there -/
theorem transaction_leaves_otherMid :
    (∃ t' ∈ (step defaultConfig (.receive (sampleEnv [] (by decide))
        (sampleMessage 2 [0x40, 0x01, 0x00, 0x08])) oneOutstanding).1.transactions,
      SameExchange outstandingGet t') ∨
    MayLeave defaultConfig (.receive (sampleEnv [] (by decide))
      (sampleMessage 2 [0x40, 0x01, 0x00, 0x08])) outstandingGet := by
  refine transaction_leaves defaultConfig oneOutstanding _
    (Run.step (.send (sampleEnv [] (by decide)) 7 (sampleEndpoint 1) [0x40, 0x01, 0x00, 0x07])
      (Run.init 0) trivial) _ ?_ outstandingGet (by rw [oneOutstanding_transactions]; simp)
    ⟨rfl, rfl⟩
  intro message hp _ t ht
  have hmid : ((sampleMessage 2 [0x40, 0x01, 0x00, 0x08]).parse defaultConfig).map (·.mid) = .ok 8 :=
    rfl
  rw [hp] at hmid
  have hmid : message.mid = 8 := Except.ok.inj hmid
  have hnone : coapGetTransactionByMid oneOutstanding 8 = none := rfl
  rw [hmid, hnone] at ht
  exact absurd ht (by simp)

/-- A confirmable GET from port `2` with the same message id takes it away: it is not retransmitted
any more, and its answer is not awaited. -/
theorem transaction_cancelled_by_request :
    Run defaultConfig (fun _ _ => True) oneOutstanding
        [.transmitted (sampleEndpoint 1) [0x40, 0x01, 0x00, 0x07]] ∧
      outstandingGet ∈ oneOutstanding.transactions ∧ outstandingGet.Outstanding ∧
      ¬ ((∃ t' ∈ (step defaultConfig (.receive (sampleEnv [] (by decide))
            (sampleMessage 2 [0x40, 0x01, 0x00, 0x07])) oneOutstanding).1.transactions,
          SameExchange outstandingGet t') ∨
        MayLeave defaultConfig (.receive (sampleEnv [] (by decide))
          (sampleMessage 2 [0x40, 0x01, 0x00, 0x07])) outstandingGet) := by
  refine ⟨Run.step _ (Run.init 0) trivial, by rw [oneOutstanding_transactions]; simp, ⟨rfl, rfl⟩, ?_⟩
  rintro (⟨t', ht', _⟩ | ⟨message, hp, _, htype, _⟩)
  · have hnone : (step defaultConfig (.receive (sampleEnv [] (by decide))
        (sampleMessage 2 [0x40, 0x01, 0x00, 0x07])) oneOutstanding).1.transactions = [] := rfl
    rw [hnone] at ht'
    exact absurd ht' (by simp)
  · have hcon : ((sampleMessage 2 [0x40, 0x01, 0x00, 0x07]).parse defaultConfig).map (·.type) =
        .ok .con := rfl
    rw [hp] at hcon
    have hcon : message.type = .con := Except.ok.inj hcon
    rw [hcon] at htype
    exact absurd htype (by decide)

end Coap
