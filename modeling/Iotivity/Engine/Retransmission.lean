import Iotivity.Engine.Cancel
import Iotivity.Engine.Notify
import Iotivity.Lib.Cursor

/-!
# The schedule of retransmissions: `transactions.c` with what a time-out reaches

`coap_send_transaction` and `coap_check_transactions` once more, with the observers that a time-out
takes out, and as a walk along pointers.  What happens to transactions is written down as a list of
turns.

* `Server.sendTransaction`, `Server.checkTransactions`   the two functions;
* `Scheduled`              a transaction is sent `1 + COAP_MAX_RETRANSMIT` times, at doubled intervals,
                           and given up at the expiry behind that;
* `Punctual`                 what holds in every run: one retransmission less;
* `Swept`                  observers and client callbacks go with the transactions that are given up;
* `retransmission_schedule`, `fourth_retransmission_missing`.
-/

namespace Coap
open Memory Keyed

/-! ## turns -/

/-- What becomes of a transaction.

* `opened`     it is confirmable and goes over UDP; its first interval has been drawn;
* `visited`    `coap_check_transactions` has come to it, its timer expired or not;
* `sent`       its message goes out, and its timer starts;
* `sentOnce`   its message goes out and it is cleared;
* `timedOut`   it is given up. -/
inductive Turn where
  | opened (id initial : Nat)
  | visited (id : Nat) (expired : Bool)
  | sent (id interval : Nat)
  | sentOnce (id : Nat)
  | timedOut (t : Transaction)

/-- the transaction that a turn is about -/
def Turn.transaction : Turn → Nat
  | .opened id _ => id
  | .visited id _ => id
  | .sent id _ => id
  | .sentOnce id => id
  | .timedOut t => t.id

def Turn.interval? (id : Nat) : Turn → Option Nat
  | .sent i n => if i = id then some n else none
  | _ => none

def Turn.expiredAt (id : Nat) : Turn → Bool
  | .visited i true => i == id
  | _ => false

def Turn.timedOutAt (id : Nat) : Turn → Bool
  | .timedOut t => t.id == id
  | _ => false

def Turn.lost? : Turn → Option Transaction
  | .timedOut t => some t
  | _ => none

def Turn.visit? : Turn → Option Nat
  | .visited i _ => some i
  | _ => none

/-- the intervals that the timer of a transaction has been started with -/
def intervals (id : Nat) (log : List Turn) : List Nat := log.filterMap (Turn.interval? id)

/-- how often its timer has expired -/
def expiries (id : Nat) (log : List Turn) : Nat := log.countP (Turn.expiredAt id)

/-- how often it has been given up -/
def timeouts (id : Nat) (log : List Turn) : Nat := log.countP (Turn.timedOutAt id)

/-- the transactions that have been given up -/
def lost (log : List Turn) : List Transaction := log.filterMap Turn.lost?

/-- the transactions that a pass has come to -/
def visits (log : List Turn) : List Nat := log.filterMap Turn.visit?

/-! ## functions -/

section
variable (uri : Nat → List UInt8)

/-- the response buffers that `coap_remove_observer_by_client` gives up -/
def Server.releases (endpoint : Endpoint) (s : Server) (id : Nat) : Bool :=
  s.list.any fun o => ocEndpointCompare o.endpoint endpoint &&
    (ocBlockwiseFindResponseBuffer s.engine.toBuffers ((uri o.resource).drop 1) o.endpoint coapGet []
      .server).any (·.id == id)

/-- `coap_send_transaction` -/
def Server.sendTransaction (initial : Nat) (t : Transaction) (s : Server) : Server × List Turn :=
  let engine := (coapSendTransaction initial (s.releases uri t.endpoint) t s.engine).1
  if t.endpoint.flags.tcp = false ∧ t.confirmable = true then
    if t.retransCounter < coapMaxRetransmit then
      ({ s with engine }, [.sent t.id (if t.retransCounter = 0 then initial else t.interval <<< 1)])
    else
      let x := (coapRemoveObserverByClient uri t.endpoint s.observers).2
      ({ s with engine, list := x.list, numObservers := x.numObservers }, [.timedOut t])
  else ({ s with engine }, [.sentOnce t.id])

/-- one round of `coap_check_transactions` -/
def Server.checkTransaction (τ : Timers) (r : Server × List Turn) (t : Transaction) :
    Server × List Turn :=
  if τ.expired t.id then
    let t := t.expire
    let x := Server.sendTransaction uri (τ.initial t.id) t
      { r.1 with engine := putTransaction t r.1.engine }
    (x.1, r.2 ++ .visited t.id true :: x.2)
  else (r.1, r.2 ++ [.visited t.id false])

/-- `coap_check_transactions`: `next` is read before the transaction is sent -/
def Server.checkTransactions (τ : Timers) (r : Server × List Turn) : Option (Server × List Turn) :=
  Cursor.walk Transaction.id (fun r : Server × List Turn => r.1.engine.transactions)
    (Server.checkTransaction uri τ) r.1.engine.transactions.length
    (r.1.engine.transactions.head?.map Transaction.id) r

/-- a message is sent -/
structure Submission where
  granted : Bool
  initial : Nat
  mid : UInt16
  endpoint : Endpoint
  data : List UInt8

/-- `coap_new_transaction`, the serialized message, `coap_send_transaction` -/
def Server.submit (x : Submission) (r : Server × List Turn) : Server × List Turn :=
  match coapNewTransaction x.granted x.mid x.endpoint r.1.engine with
  | (none, _) => r
  | (some id, engine) =>
    let t : Transaction := ⟨id, x.mid, x.endpoint, 0, 0, x.data⟩
    let y := Server.sendTransaction uri x.initial t { r.1 with engine := putTransaction t engine }
    (y.1, r.2 ++ (if x.endpoint.flags.tcp = false ∧ t.confirmable = true then
      .opened id x.initial :: y.2 else y.2))

/-- nobody answers: messages are sent, and timers expire -/
inductive SendStep where
  | submit (x : Submission)
  | check (τ : Timers)

/-- `none`: a pass has come to a transaction that has been freed -/
def Server.sendRun : List SendStep → Server × List Turn → Option (Server × List Turn)
  | [], r => some r
  | .submit x :: l, r => Server.sendRun l (Server.submit uri x r)
  | .check τ :: l, r =>
    match Server.checkTransactions uri τ r with
    | none => none
    | some r => Server.sendRun l r

end

/-! ## the schedule -/

/-- `n` intervals, each twice the one before -/
def doubled (initial n : Nat) : List Nat := (List.range n).map fun k => initial * 2^k

/-- A transaction that nobody answers is retransmitted `COAP_MAX_RETRANSMIT` times, and stays until
that has been in vain; then it is given up, once. -/
structure Scheduled (r : Server × List Turn) (id initial : Nat) : Prop where
  sent : intervals id r.2 = doubled initial (min (expiries id r.2) coapMaxRetransmit + 1)
  waits : expiries id r.2 ≤ coapMaxRetransmit →
    (∃ t ∈ r.1.engine.transactions, t.id = id) ∧ timeouts id r.2 = 0
  ended : coapMaxRetransmit < expiries id r.2 →
    (∀ t ∈ r.1.engine.transactions, t.id ≠ id) ∧ timeouts id r.2 = 1

/-- `oc_ri_remove_client_cb_by_mid`, as the list of client callbacks sees it -/
def withoutMid (cbs : List ClientCb) (t : Transaction) : List ClientCb :=
  match cbs.find? (·.mid == t.mid) with
  | none => cbs
  | some cb => remove ClientCb.id cb.id cbs

/-- Observers and client callbacks go with the transactions that are given up, and only with them. -/
structure Swept (s₀ : Server) (r : Server × List Turn) : Prop where
  observers : r.1.list = s₀.list.filter fun o =>
    !(lost r.2).any fun t => ocEndpointCompare o.endpoint t.endpoint
  callbacks : r.1.engine.clientCbs = (lost r.2).foldl withoutMid s₀.engine.clientCbs

/-- Where a transaction stands: the counter says how often its timer has expired, and the last expiry is
not followed by a retransmission any more. -/
inductive Standing (r : Server × List Turn) (id initial : Nat) : Prop where
  | waiting (t : Transaction) (mem : t ∈ r.1.engine.transactions) (own : t.id = id)
      (out : t.Outstanding) (left : t.retransCounter < coapMaxRetransmit)
      (current : t.interval = initial * 2^t.retransCounter)
      (sent : intervals id r.2 = doubled initial (t.retransCounter + 1))
      (expired : expiries id r.2 = t.retransCounter) (kept : timeouts id r.2 = 0)
  | ended (gone : ∀ t ∈ r.1.engine.transactions, t.id ≠ id)
      (sent : intervals id r.2 = doubled initial coapMaxRetransmit)
      (expired : expiries id r.2 = coapMaxRetransmit) (once : timeouts id r.2 = 1)

/-- what holds in every run -/
structure Punctual (r : Server × List Turn) : Prop where
  distinct : Distinct Transaction.id r.1.engine.fresh r.1.engine.transactions
  /-- addresses that have not been given out are not in the log -/
  ahead : ∀ id, r.1.engine.fresh ≤ id → intervals id r.2 = [] ∧ expiries id r.2 = 0 ∧
    timeouts id r.2 = 0 ∧ ∀ initial, Turn.opened id initial ∉ r.2
  standing : ∀ id initial, Turn.opened id initial ∈ r.2 → Standing r id initial

/-! ## logs -/

/-- turns that say nothing of a transaction -/
structure Foreign (id : Nat) (turns : List Turn) : Prop where
  sent : intervals id turns = []
  expired : expiries id turns = 0
  kept : timeouts id turns = 0

variable {id : Nat} {log turns : List Turn}

theorem intervals_append (id : Nat) (log turns : List Turn) :
    intervals id (log ++ turns) = intervals id log ++ intervals id turns := List.filterMap_append

theorem expiries_append (id : Nat) (log turns : List Turn) :
    expiries id (log ++ turns) = expiries id log + expiries id turns := List.countP_append

theorem timeouts_append (id : Nat) (log turns : List Turn) :
    timeouts id (log ++ turns) = timeouts id log + timeouts id turns := List.countP_append

theorem visits_append (log turns : List Turn) : visits (log ++ turns) = visits log ++ visits turns :=
  List.filterMap_append

theorem doubled_succ (initial n : Nat) :
    doubled initial (n + 1) = doubled initial n ++ [initial * 2^n] := by
  unfold doubled
  rw [List.range_succ, List.map_append]
  rfl

/-- what a round says of other transactions -/
theorem Foreign.round {i id : Nat} (hne : i ≠ id) {turns : List Turn}
    (h : ∀ x ∈ turns, x.transaction = i) : Foreign id turns := by
  refine ⟨List.filterMap_eq_nil_iff.mpr fun x hx => ?_, List.countP_eq_zero.mpr fun x hx => ?_,
    List.countP_eq_zero.mpr fun x hx => ?_⟩
  all_goals
    obtain rfl := h x hx
    cases x with
    | opened i n => simp [Turn.interval?, Turn.expiredAt, Turn.timedOutAt]
    | visited i e =>
      have hi : ¬ i = id := hne
      cases e <;> simp [Turn.interval?, Turn.expiredAt, Turn.timedOutAt, hi]
    | sent i n =>
      have hi : ¬ i = id := hne
      simp [Turn.interval?, Turn.expiredAt, Turn.timedOutAt, hi]
    | sentOnce i => simp [Turn.interval?, Turn.expiredAt, Turn.timedOutAt]
    | timedOut t =>
      have hi : ¬ t.id = id := hne
      simp [Turn.interval?, Turn.expiredAt, Turn.timedOutAt, hi]

/-- a transaction that a round is not about stands where it stood -/
theorem Standing.other {r : Server × List Turn} {initial : Nat} (h : Standing r id initial)
    {s : Server} {turns : List Turn} (hf : Foreign id turns)
    (hs : ∀ t, t.id = id → (t ∈ s.engine.transactions ↔ t ∈ r.1.engine.transactions)) :
    Standing (s, r.2 ++ turns) id initial := by
  have h1 : intervals id (r.2 ++ turns) = intervals id r.2 := by
    rw [intervals_append, hf.sent, List.append_nil]
  have h2 : expiries id (r.2 ++ turns) = expiries id r.2 := by
    rw [expiries_append, hf.expired, Nat.add_zero]
  have h3 : timeouts id (r.2 ++ turns) = timeouts id r.2 := by
    rw [timeouts_append, hf.kept, Nat.add_zero]
  cases h with
  | waiting t mem own out left current sent expired kept =>
    exact .waiting t ((hs t own).mpr mem) own out left current (h1.trans sent) (h2.trans expired)
      (h3.trans kept)
  | ended gone sent expired once =>
    exact .ended (fun t ht he => gone t ((hs t he).mp ht) he) (h1.trans sent) (h2.trans expired)
      (h3.trans once)

/-! ## sending -/

variable {uri : Nat → List UInt8} {s : Server} {t : Transaction}

theorem ocRiRemoveClientCbByMid_frame (mid : UInt16) (s : State) :
    (ocRiRemoveClientCbByMid mid s).transactions = s.transactions ∧
      (ocRiRemoveClientCbByMid mid s).fresh = s.fresh := by
  unfold ocRiRemoveClientCbByMid
  split <;> exact ⟨rfl, rfl⟩

/-- retransmissions are left -/
theorem sendTransaction_left (initial : Nat) (ho : t.Outstanding)
    (hl : t.retransCounter < coapMaxRetransmit) {i : Nat}
    (hi : i = if t.retransCounter = 0 then initial else t.interval <<< 1) :
    s.sendTransaction uri initial t =
      ({ s with engine := putTransaction { t with interval := i } s.engine }, [.sent t.id i]) := by
  have ho : t.endpoint.flags.tcp = false ∧ t.confirmable = true := ho
  unfold Server.sendTransaction coapSendTransaction
  rw [if_pos ho, if_pos ho, if_pos hl, if_pos hl, hi]

/-- none is left, or there is no retransmission at all: the transaction leaves the list -/
theorem sendTransaction_leaves (initial : Nat)
    (h : ¬ (t.Outstanding ∧ t.retransCounter < coapMaxRetransmit)) :
    (s.sendTransaction uri initial t).1.engine.transactions
        = remove Transaction.id t.id s.engine.transactions ∧
      (s.sendTransaction uri initial t).1.engine.fresh = s.engine.fresh ∧
      (t.Outstanding → (s.sendTransaction uri initial t).2 = [.timedOut t]) ∧
      (¬ t.Outstanding → (s.sendTransaction uri initial t).2 = [.sentOnce t.id]) := by
  unfold Server.sendTransaction coapSendTransaction
  by_cases ho : t.Outstanding
  · have ho' : t.endpoint.flags.tcp = false ∧ t.confirmable = true := ho
    have hl : ¬ t.retransCounter < coapMaxRetransmit := fun hl => h ⟨ho, hl⟩
    rw [if_pos ho', if_pos ho', if_neg hl, if_neg hl]
    obtain ⟨h1, h2⟩ := ocRiRemoveClientCbByMid_frame t.mid
      (dropObservers (s.releases uri t.endpoint) s.engine)
    refine ⟨?_, ?_, fun _ => rfl, fun hn => absurd ho hn⟩
    · show remove Transaction.id t.id (ocRiRemoveClientCbByMid t.mid _).transactions = _
      rw [h1]
      rfl
    · show (ocRiRemoveClientCbByMid t.mid _).fresh = _
      rw [h2]
      rfl
  · have ho' : ¬ (t.endpoint.flags.tcp = false ∧ t.confirmable = true) := ho
    rw [if_neg ho', if_neg ho']
    exact ⟨rfl, rfl, fun hc => absurd hc ho, fun _ => rfl⟩

theorem sendTransaction_once (initial : Nat) (ho : ¬ t.Outstanding) :
    s.sendTransaction uri initial t =
      ({ s with engine := coapClearTransaction t.id s.engine }, [.sentOnce t.id]) := by
  have ho' : ¬ (t.endpoint.flags.tcp = false ∧ t.confirmable = true) := ho
  unfold Server.sendTransaction coapSendTransaction
  rw [if_neg ho', if_neg ho']

/-- what a time-out drops -/
theorem sendTransaction_drops (initial : Nat) (ho : t.Outstanding)
    (hl : ¬ t.retransCounter < coapMaxRetransmit) :
    (s.sendTransaction uri initial t).1.list
        = s.list.filter (fun o => !ocEndpointCompare o.endpoint t.endpoint) ∧
      (s.sendTransaction uri initial t).1.engine.clientCbs = withoutMid s.engine.clientCbs t := by
  have ho' : t.endpoint.flags.tcp = false ∧ t.confirmable = true := ho
  unfold Server.sendTransaction coapSendTransaction
  rw [if_pos ho', if_pos ho', if_neg hl, if_neg hl]
  refine ⟨rfl, ?_⟩
  show (ocRiRemoveClientCbByMid t.mid _).clientCbs = _
  unfold ocRiRemoveClientCbByMid withoutMid
  show State.clientCbs (match s.engine.clientCbs.find? (·.mid == t.mid) with
    | none => _
    | some cb => _) = _
  split <;> rfl

/-- the turns of a transmission are those of its transaction -/
theorem sendTransaction_turns (initial : Nat) : ∀ x ∈ (s.sendTransaction uri initial t).2,
    x.transaction = t.id ∧ x.visit? = none ∧ ∀ n, x ≠ .opened t.id n := by
  intro x hx
  by_cases h : t.Outstanding ∧ t.retransCounter < coapMaxRetransmit
  · rw [sendTransaction_left initial h.1 h.2 rfl] at hx
    rw [List.mem_singleton.mp hx]
    exact ⟨rfl, rfl, fun _ => Turn.noConfusion⟩
  · obtain ⟨_, _, h3, h4⟩ := @sendTransaction_leaves uri s t initial h
    by_cases ho : t.Outstanding
    · rw [h3 ho] at hx
      rw [List.mem_singleton.mp hx]
      exact ⟨rfl, rfl, fun _ => Turn.noConfusion⟩
    · rw [h4 ho] at hx
      rw [List.mem_singleton.mp hx]
      exact ⟨rfl, rfl, fun _ => Turn.noConfusion⟩

/-! ## a round -/

variable {τ : Timers} {r : Server × List Turn}

/-- the transaction with its next count -/
def Server.counted (r : Server × List Turn) (t : Transaction) : Server :=
  { r.1 with engine := putTransaction t.expire r.1.engine }

theorem checkTransaction_expired (h : τ.expired t.id = true) :
    Server.checkTransaction uri τ r t =
      (((Server.counted r t).sendTransaction uri (τ.initial t.id) t.expire).1,
        r.2 ++ .visited t.id true ::
          ((Server.counted r t).sendTransaction uri (τ.initial t.id) t.expire).2) := by
  unfold Server.checkTransaction
  rw [if_pos h]
  rfl

theorem checkTransaction_running (h : τ.expired t.id ≠ true) :
    Server.checkTransaction uri τ r t = (r.1, r.2 ++ [.visited t.id false]) := by
  unfold Server.checkTransaction
  rw [if_neg h]

/-- a round changes its own transaction, or takes it out -/
theorem checkTransaction_local (uri : Nat → List UInt8) (τ : Timers) :
    Cursor.Local Transaction.id (fun r : Server × List Turn => r.1.engine.transactions)
      (Server.checkTransaction uri τ) := by
  intro r pre t suf hr hn
  have hr : r.1.engine.transactions = pre ++ t :: suf := hr
  have hn : (r.1.engine.transactions.map Transaction.id).Nodup := hn
  rw [hr] at hn
  by_cases hexp : τ.expired t.id = true
  · rw [checkTransaction_expired hexp]
    have hput : (Server.counted r t).engine.transactions = pre ++ t.expire :: suf := by
      show put Transaction.id t.expire r.1.engine.transactions = _
      rw [hr, put_middle (y := t.expire) hn rfl]
    have hn' : ((pre ++ t.expire :: suf).map Transaction.id).Nodup := by
      rw [List.map_append, List.map_cons] at hn ⊢
      exact hn
    by_cases h : t.expire.Outstanding ∧ t.expire.retransCounter < coapMaxRetransmit
    · right
      rw [sendTransaction_left (τ.initial t.id) h.1 h.2 rfl]
      refine ⟨{ t.expire with
        interval := if t.expire.retransCounter = 0 then τ.initial t.id else t.expire.interval <<< 1 },
        rfl, ?_⟩
      show put Transaction.id _ (Server.counted r t).engine.transactions = _
      rw [hput]
      exact put_middle hn' rfl
    · left
      show ((Server.counted r t).sendTransaction uri (τ.initial t.id)
        t.expire).1.engine.transactions = _
      rw [(sendTransaction_leaves (τ.initial t.id) h).1, hput]
      exact remove_middle hn'
  · rw [checkTransaction_running hexp]
    exact Or.inr ⟨t, rfl, hr⟩

theorem checkTransaction_fresh (uri : Nat → List UInt8) (τ : Timers) (r : Server × List Turn)
    (t : Transaction) : (Server.checkTransaction uri τ r t).1.engine.fresh = r.1.engine.fresh := by
  by_cases hexp : τ.expired t.id = true
  · rw [checkTransaction_expired hexp]
    by_cases h : t.expire.Outstanding ∧ t.expire.retransCounter < coapMaxRetransmit
    · rw [sendTransaction_left (τ.initial t.id) h.1 h.2 rfl]
      rfl
    · exact (sendTransaction_leaves (τ.initial t.id) h).2.1
  · rw [checkTransaction_running hexp]

/-- a round adds turns of its transaction to the log -/
theorem checkTransaction_log (uri : Nat → List UInt8) (τ : Timers) (r : Server × List Turn)
    (t : Transaction) : ∃ turns, (Server.checkTransaction uri τ r t).2 = r.2 ++ turns ∧
      visits turns = [t.id] ∧ ∀ x ∈ turns, x.transaction = t.id ∧ ∀ n, x ≠ .opened t.id n := by
  by_cases hexp : τ.expired t.id = true
  · rw [checkTransaction_expired hexp]
    have hturns := @sendTransaction_turns uri (Server.counted r t) t.expire (τ.initial t.id)
    refine ⟨_, rfl, ?_, ?_⟩
    · show t.id :: visits _ = _
      rw [show visits _ = [] from List.filterMap_eq_nil_iff.mpr fun x hx => (hturns x hx).2.1]
    · intro x hx
      rcases List.mem_cons.mp hx with rfl | hx
      · exact ⟨rfl, fun _ => Turn.noConfusion⟩
      · exact ⟨(hturns x hx).1, (hturns x hx).2.2⟩
  · rw [checkTransaction_running hexp]
    refine ⟨_, rfl, rfl, ?_⟩
    intro x hx
    rw [List.mem_singleton.mp hx]
    exact ⟨rfl, fun _ => Turn.noConfusion⟩

/-! ## what a round leaves -/

/-- turns of one transaction, and the list changed at this transaction only -/
theorem Punctual.extend (h : Punctual r) {i : Nat}
    (hd : Distinct Transaction.id s.engine.fresh s.engine.transactions)
    (hfresh : r.1.engine.fresh ≤ s.engine.fresh) (hi : i < s.engine.fresh)
    (hturns : ∀ x ∈ turns, x.transaction = i)
    (hlist : ∀ t, t.id ≠ i → (t ∈ s.engine.transactions ↔ t ∈ r.1.engine.transactions))
    (hown : ∀ initial, Turn.opened i initial ∈ r.2 ++ turns → Standing (s, r.2 ++ turns) i initial) :
    Punctual (s, r.2 ++ turns) where
  distinct := hd
  ahead := by
    intro id hid
    have hid : s.engine.fresh ≤ id := hid
    obtain ⟨h1, h2, h3, h4⟩ := h.ahead id (Nat.le_trans hfresh hid)
    have hne : i ≠ id := by omega
    have hf := Foreign.round hne hturns
    refine ⟨?_, ?_, ?_, ?_⟩
    · rw [intervals_append, h1, hf.sent]
      rfl
    · rw [expiries_append, h2, hf.expired]
    · rw [timeouts_append, h3, hf.kept]
    · intro initial hmem
      rcases List.mem_append.mp hmem with hmem | hmem
      · exact h4 initial hmem
      · exact hne (hturns _ hmem).symm
  standing := by
    intro id initial hopen
    by_cases hid : id = i
    · rw [hid] at hopen ⊢
      exact hown initial hopen
    · have hopen : Turn.opened id initial ∈ r.2 := by
        rcases List.mem_append.mp hopen with hmem | hmem
        · exact hmem
        · exact absurd (hturns _ hmem) hid
      refine (h.standing id initial hopen).other (Foreign.round (Ne.symm hid) hturns) fun t ht => ?_
      exact hlist t (ht ▸ hid)

theorem expire_counter (h : t.retransCounter < coapMaxRetransmit) :
    t.expire.retransCounter = t.retransCounter + 1 := by
  have : coapMaxRetransmit = 4 := rfl
  show (t.retransCounter + 1) % 2^8 = _
  omega

/-- the transaction of a round: one more expiry, and a retransmission if one is left -/
theorem Standing.own (hd : Distinct Transaction.id r.1.engine.fresh r.1.engine.transactions)
    (ht : t ∈ r.1.engine.transactions) {initial : Nat} (h : Standing r t.id initial) :
    Standing (Server.checkTransaction uri τ r t) t.id initial := by
  cases h with
  | ended gone => exact absurd rfl (gone t ht)
  | waiting t' mem own out left current sent expired kept =>
    obtain rfl : t' = t := hd.coherent ht t' mem own
    by_cases hexp : τ.expired t'.id = true
    · have hcount := expire_counter left
      rw [checkTransaction_expired hexp]
      by_cases hl : t'.retransCounter + 1 < coapMaxRetransmit
      · -- twice the interval before
        have hdouble : t'.expire.interval <<< 1 = initial * 2^(t'.retransCounter + 1) := by
          show t'.interval <<< 1 = _
          rw [current, Nat.shiftLeft_eq, Nat.pow_one, Nat.pow_succ, Nat.mul_assoc]
        have hsend := @sendTransaction_left uri (Server.counted r t') t'.expire (τ.initial t'.id) out
          (by rw [hcount]; exact hl) (t'.expire.interval <<< 1) (by rw [if_neg (by rw [hcount]; omega)])
        rw [hsend]
        refine .waiting { t'.expire with interval := t'.expire.interval <<< 1 }
          (mem_put_self (mem_put_self ht rfl) rfl) rfl out ?_ ?_ ?_ ?_ ?_
        · exact hcount ▸ hl
        · show _ = initial * 2^t'.expire.retransCounter
          rw [hcount]
          exact hdouble
        · show intervals _ _ = doubled initial (t'.expire.retransCounter + 1)
          rw [hcount, doubled_succ, intervals_append, sent, ← hdouble]
          have hsent : intervals t'.id [.visited t'.id true, .sent t'.id (t'.interval <<< 1)]
              = [t'.interval <<< 1] := by
            simp [intervals, Turn.interval?, List.filterMap_cons]
          exact congrArg _ hsent
        · show expiries _ _ = t'.expire.retransCounter
          rw [hcount, expiries_append, expired]
          simp [expiries, Turn.expiredAt]
        · rw [timeouts_append, kept]
          simp [timeouts, Turn.timedOutAt]
      · -- the last expiry
        have hc : t'.retransCounter + 1 = coapMaxRetransmit := by omega
        obtain ⟨h1, _, h3, _⟩ := @sendTransaction_leaves uri (Server.counted r t') t'.expire
          (τ.initial t'.id) (fun hh => hl (hcount ▸ hh.2))
        rw [h3 out]
        refine .ended ?_ ?_ ?_ ?_
        · intro x hx
          have hx : x ∈ ((Server.counted r t').sendTransaction uri (τ.initial t'.id)
            t'.expire).1.engine.transactions := hx
          rw [h1] at hx
          exact (mem_remove.mp hx).2
        · rw [intervals_append, sent, hc]
          simp [intervals, Turn.interval?]
        · rw [expiries_append, expired, ← hc]
          simp [expiries, Turn.expiredAt]
        · rw [timeouts_append, kept]
          simp [timeouts, Turn.timedOutAt, Transaction.expire]
    · rw [checkTransaction_running hexp]
      refine Standing.other (.waiting t' mem own out left current sent expired kept) ⟨rfl, ?_, rfl⟩
        fun _ _ => Iff.rfl
      simp [expiries, Turn.expiredAt]

theorem Punctual.round (h : Punctual r) (ht : t ∈ r.1.engine.transactions) :
    Punctual (Server.checkTransaction uri τ r t) := by
  obtain ⟨turns, hlog, -, hturns⟩ := checkTransaction_log uri τ r t
  have hfresh := checkTransaction_fresh uri τ r t
  have hown : ∀ initial, Turn.opened t.id initial ∈ r.2 ++ turns →
      Standing ((Server.checkTransaction uri τ r t).1, r.2 ++ turns) t.id initial := by
    intro initial hopen
    have hopen : Turn.opened t.id initial ∈ r.2 := by
      rcases List.mem_append.mp hopen with hmem | hmem
      · exact hmem
      · exact absurd rfl ((hturns _ hmem).2 initial)
    rw [← hlog]
    exact (h.standing t.id initial hopen).own h.distinct ht
  have hl := checkTransaction_local uri τ
  have hdist : Distinct Transaction.id (Server.checkTransaction uri τ r t).1.engine.fresh
      (Server.checkTransaction uri τ r t).1.engine.transactions := by
    refine ⟨hl.nodup ht h.distinct.nodup, fun x hx => ?_⟩
    obtain ⟨y, hy, he⟩ := hl.keys ht h.distinct.nodup x hx
    rw [hfresh, ← he]
    exact h.distinct.lt y hy
  have := h.extend hdist hfresh.ge (by rw [hfresh]; exact h.distinct.lt t ht)
    (fun x hx => (hturns x hx).1) (fun x hx => hl.other ht h.distinct.nodup hx) hown
  rw [← hlog] at this
  exact this

theorem checkTransactions_rounds (h : (r.1.engine.transactions.map Transaction.id).Nodup) :
    Server.checkTransactions uri τ r = some
      (r.1.engine.transactions.foldl (Server.checkTransaction uri τ) r) :=
  Cursor.walk_all (checkTransaction_local uri τ) r h

/-- a pass comes to every transaction on the list once, in order, and to none that has been freed -/
theorem Punctual.pass (h : Punctual r) : ∃ turns s,
    Server.checkTransactions uri τ r = some (s, r.2 ++ turns) ∧
      visits turns = r.1.engine.transactions.map Transaction.id ∧ Punctual (s, r.2 ++ turns) := by
  have hl := checkTransaction_local uri τ
  have hkeep : Punctual (r.1.engine.transactions.foldl (Server.checkTransaction uri τ) r) :=
    Cursor.foldl_keeps hl (fun _ _ hr ht => Punctual.round hr ht) _ r [] rfl h.distinct.nodup h
  have hlog : ∀ (l : List Transaction) (r : Server × List Turn), ∃ turns,
      (l.foldl (Server.checkTransaction uri τ) r).2 = r.2 ++ turns ∧
        visits turns = l.map Transaction.id := by
    intro l
    induction l with
    | nil => exact fun r => ⟨[], (List.append_nil _).symm, rfl⟩
    | cons t l ih =>
      intro r
      obtain ⟨first, hfirst, hvisit, _⟩ := checkTransaction_log uri τ r t
      obtain ⟨rest, hrest, hvisits⟩ := ih (Server.checkTransaction uri τ r t)
      refine ⟨first ++ rest, ?_, ?_⟩
      · rw [List.foldl_cons, hrest, hfirst, List.append_assoc]
      · rw [visits_append, hvisit, hvisits]
        rfl
  obtain ⟨turns, hturns, hvisits⟩ := hlog r.1.engine.transactions r
  refine ⟨turns, (r.1.engine.transactions.foldl (Server.checkTransaction uri τ) r).1, ?_, hvisits, ?_⟩
  · rw [checkTransactions_rounds h.distinct.nodup, ← hturns]
  · rw [← hturns]
    exact hkeep

/-! ## a new message -/

/-- the transaction of a submission, at the next address -/
def Submission.transaction (x : Submission) (id : Nat) : Transaction :=
  ⟨id, x.mid, x.endpoint, 0, 0, x.data⟩

theorem submit_refused {x : Submission} (h : x.granted = false) : Server.submit uri x r = r := by
  unfold Server.submit coapNewTransaction
  rw [h]
  rfl

/-- the state that a submission is sent in -/
def Server.opening (x : Submission) (s : Server) : Server :=
  { s with
    engine := putTransaction (x.transaction s.engine.fresh)
      { s.engine with
        transactions := s.engine.transactions ++
          [⟨s.engine.fresh, x.mid, x.endpoint, 0, 0, []⟩]
        fresh := s.engine.fresh + 1 } }

theorem submit_granted {x : Submission} (hg : x.granted = true) : Server.submit uri x r =
    (((r.1.opening x).sendTransaction uri x.initial (x.transaction r.1.engine.fresh)).1,
      r.2 ++ (if (x.transaction r.1.engine.fresh).endpoint.flags.tcp = false ∧
          (x.transaction r.1.engine.fresh).confirmable = true then
        .opened r.1.engine.fresh x.initial ::
          ((r.1.opening x).sendTransaction uri x.initial (x.transaction r.1.engine.fresh)).2
      else ((r.1.opening x).sendTransaction uri x.initial (x.transaction r.1.engine.fresh)).2)) := by
  unfold Server.submit coapNewTransaction
  rw [hg, if_pos rfl]
  rfl

theorem opening_transactions {x : Submission}
    (hd : Distinct Transaction.id s.engine.fresh s.engine.transactions) :
    (s.opening x).engine.transactions
      = s.engine.transactions ++ [x.transaction s.engine.fresh] :=
  put_snoc (fun t ht => Nat.ne_of_lt (hd.lt t ht)) rfl

/-- a confirmable message over UDP -/
theorem submit_confirmable {x : Submission} (hg : x.granted = true)
    (ho : (x.transaction r.1.engine.fresh).Outstanding)
    (hd : Distinct Transaction.id r.1.engine.fresh r.1.engine.transactions) :
    ∃ s, Server.submit uri x r = (s, r.2 ++
        [.opened r.1.engine.fresh x.initial, .sent r.1.engine.fresh x.initial]) ∧
      s.engine.fresh = r.1.engine.fresh + 1 ∧
      s.engine.transactions = r.1.engine.transactions ++
        [{ x.transaction r.1.engine.fresh with interval := x.initial }] := by
  have hsend := @sendTransaction_left uri (r.1.opening x) (x.transaction r.1.engine.fresh) x.initial ho
    (show 0 < coapMaxRetransmit by decide) x.initial (if_pos rfl).symm
  have ho' : (x.transaction r.1.engine.fresh).endpoint.flags.tcp = false ∧
      (x.transaction r.1.engine.fresh).confirmable = true := ho
  rw [submit_granted hg, if_pos ho', hsend]
  refine ⟨_, rfl, rfl, ?_⟩
  show put Transaction.id _ (r.1.opening x).engine.transactions = _
  rw [opening_transactions hd]
  exact put_snoc (fun t ht => Nat.ne_of_lt (hd.lt t ht)) rfl

/-- any other message -/
theorem submit_once {x : Submission} (hg : x.granted = true)
    (ho : ¬ (x.transaction r.1.engine.fresh).Outstanding)
    (hd : Distinct Transaction.id r.1.engine.fresh r.1.engine.transactions) :
    ∃ s, Server.submit uri x r = (s, r.2 ++ [.sentOnce r.1.engine.fresh]) ∧
      s.engine.fresh = r.1.engine.fresh + 1 ∧ s.engine.transactions = r.1.engine.transactions := by
  obtain ⟨h1, h2, _, h4⟩ := @sendTransaction_leaves uri (r.1.opening x)
    (x.transaction r.1.engine.fresh) x.initial fun h => ho h.1
  have ho' : ¬ ((x.transaction r.1.engine.fresh).endpoint.flags.tcp = false ∧
      (x.transaction r.1.engine.fresh).confirmable = true) := ho
  rw [submit_granted hg, if_neg ho', h4 ho]
  refine ⟨_, rfl, h2, ?_⟩
  rw [h1, opening_transactions hd]
  exact remove_snoc (fun t ht => Nat.ne_of_lt (hd.lt t ht)) rfl

theorem Punctual.submit (h : Punctual r) (x : Submission) : Punctual (Server.submit uri x r) := by
  cases hg : x.granted with
  | false => exact (submit_refused hg).symm ▸ h
  | true =>
    have hlt : ∀ t ∈ r.1.engine.transactions, t.id ≠ r.1.engine.fresh := fun t ht =>
      Nat.ne_of_lt (h.distinct.lt t ht)
    obtain ⟨h1, h2, h3, h4⟩ := h.ahead r.1.engine.fresh (Nat.le_refl _)
    by_cases ho : (x.transaction r.1.engine.fresh).Outstanding
    · obtain ⟨s, he, hfresh, hs⟩ := submit_confirmable (r := r) hg ho h.distinct
      rw [he]
      refine h.extend (i := r.1.engine.fresh) ?_ (by omega) (by omega) ?_ ?_ ?_
      · rw [hs, hfresh]
        exact h.distinct.snoc rfl
      · intro y hy
        simp at hy
        rcases hy with rfl | rfl <;> rfl
      · intro t ht
        rw [hs, List.mem_append, List.mem_singleton]
        refine or_iff_left fun hc => ht ?_
        rw [hc]
        rfl
      · -- the first transmission
        intro initial hopen
        have hinit : initial = x.initial := by
          rcases List.mem_append.mp hopen with hmem | hmem
          · exact absurd hmem (h4 initial)
          · rcases List.mem_cons.mp hmem with hmem | hmem
            · exact (Turn.opened.inj hmem).2
            · cases List.mem_singleton.mp hmem
        refine .waiting { x.transaction r.1.engine.fresh with interval := x.initial } ?_ rfl ho
          (show 0 < coapMaxRetransmit by decide) ?_ ?_ ?_ ?_
        · show _ ∈ s.engine.transactions
          rw [hs]
          exact List.mem_append_right _ (List.mem_singleton_self _)
        · rw [hinit]
          exact (Nat.mul_one _).symm
        · rw [intervals_append, h1, hinit]
          simp [intervals, Turn.interval?, List.filterMap_cons, doubled, Submission.transaction]
        · rw [expiries_append, h2]
          rfl
        · rw [timeouts_append, h3]
          rfl
    · obtain ⟨s, he, hfresh, hs⟩ := submit_once (r := r) hg ho h.distinct
      rw [he]
      refine h.extend (i := r.1.engine.fresh) ?_ (by omega) (by omega) ?_ ?_ ?_
      · rw [hs, hfresh]
        exact h.distinct.mono (by omega)
      · intro y hy
        rw [List.mem_singleton.mp hy]
        rfl
      · intro t _
        rw [hs]
      · intro initial hopen
        rcases List.mem_append.mp hopen with hmem | hmem
        · exact absurd hmem (h4 initial)
        · cases List.mem_singleton.mp hmem

/-! ## observers and client callbacks -/

theorem lost_append (log turns : List Turn) : lost (log ++ turns) = lost log ++ lost turns :=
  List.filterMap_append

theorem Swept.keep {s₀ s' : Server} (h : Swept s₀ r) (hlist : s'.list = r.1.list)
    (hcbs : s'.engine.clientCbs = r.1.engine.clientCbs) (hlost : lost turns = []) :
    Swept s₀ (s', r.2 ++ turns) := by
  have hlog : lost (r.2 ++ turns) = lost r.2 := by rw [lost_append, hlost, List.append_nil]
  refine ⟨?_, ?_⟩
  · show s'.list = _
    rw [hlog, hlist]
    exact h.observers
  · show s'.engine.clientCbs = _
    rw [hlog, hcbs]
    exact h.callbacks

/-- a transmission, behind turns that give nothing up -/
theorem Swept.send {s₀ : Server} (h : Swept s₀ r) (hlist : s.list = r.1.list)
    (hcbs : s.engine.clientCbs = r.1.engine.clientCbs) (hlost : lost turns = []) (initial : Nat) :
    Swept s₀ ((s.sendTransaction uri initial t).1,
      r.2 ++ (turns ++ (s.sendTransaction uri initial t).2)) := by
  by_cases hl : t.Outstanding ∧ t.retransCounter < coapMaxRetransmit
  · rw [sendTransaction_left initial hl.1 hl.2 rfl]
    refine h.keep hlist hcbs ?_
    rw [lost_append, hlost]
    rfl
  · by_cases ho : t.Outstanding
    · have hlog : lost (r.2 ++ (turns ++ [.timedOut t])) = lost r.2 ++ [t] := by
        rw [lost_append, lost_append, hlost]
        rfl
      rw [(sendTransaction_leaves initial hl).2.2.1 ho]
      refine ⟨?_, ?_⟩
      · show (s.sendTransaction uri initial t).1.list = _
        rw [hlog, (sendTransaction_drops initial ho fun hc => hl ⟨ho, hc⟩).1, hlist, h.observers,
          List.filter_filter]
        refine List.filter_congr fun o _ => ?_
        simp [Bool.and_comm]
      · show (s.sendTransaction uri initial t).1.engine.clientCbs = _
        rw [hlog, (sendTransaction_drops initial ho fun hc => hl ⟨ho, hc⟩).2, hcbs, h.callbacks,
          List.foldl_append]
        rfl
    · rw [sendTransaction_once initial ho]
      refine h.keep hlist hcbs ?_
      rw [lost_append, hlost]
      rfl

theorem Swept.round {s₀ : Server} (h : Swept s₀ r) (t : Transaction) :
    Swept s₀ (Server.checkTransaction uri τ r t) := by
  by_cases hexp : τ.expired t.id = true
  · rw [checkTransaction_expired hexp]
    exact @Swept.send [.visited t.id true] uri (Server.counted r t) t.expire r s₀ h rfl rfl rfl _
  · rw [checkTransaction_running hexp]
    exact h.keep rfl rfl rfl

theorem Swept.submit {s₀ : Server} (h : Swept s₀ r) (x : Submission) :
    Swept s₀ (Server.submit uri x r) := by
  cases hg : x.granted with
  | false => exact (submit_refused hg).symm ▸ h
  | true =>
    rw [submit_granted hg]
    split
    · exact @Swept.send [.opened r.1.engine.fresh x.initial] uri (r.1.opening x) _ r s₀ h rfl rfl rfl _
    · exact @Swept.send [] uri (r.1.opening x) _ r s₀ h rfl rfl rfl _

theorem Swept.rounds {s₀ : Server} (l : List Transaction) : ∀ {r : Server × List Turn}, Swept s₀ r →
    Swept s₀ (l.foldl (Server.checkTransaction uri τ) r) := by
  induction l with
  | nil => exact id
  | cons t l ih => exact fun h => ih (h.round t)

/-! ## runs -/

theorem Punctual.run {s₀ : Server} (steps : List SendStep) : ∀ {r : Server × List Turn}, Punctual r →
    Swept s₀ r → ∃ r', Server.sendRun uri steps r = some r' ∧ Punctual r' ∧ Swept s₀ r' := by
  induction steps with
  | nil => exact fun h hw => ⟨_, rfl, h, hw⟩
  | cons st steps ih =>
    intro r h hw
    cases st with
    | submit x => exact ih (h.submit x) (hw.submit x)
    | check τ =>
      obtain ⟨turns, s, hs, _, hnext⟩ := @Punctual.pass uri τ r h
      have hrounds := hs
      rw [checkTransactions_rounds h.distinct.nodup] at hrounds
      unfold Server.sendRun
      rw [hs]
      refine ih hnext ?_
      rw [← Option.some.inj hrounds]
      exact hw.rounds _

/-- the code's schedule is the one that is wanted as long as the last retransmission is not due -/
theorem Standing.scheduled_iff {initial : Nat} (h : Standing r id initial) :
    Scheduled r id initial ↔ expiries id r.2 < coapMaxRetransmit := by
  cases h with
  | waiting t mem own out left current sent expired kept =>
    refine iff_of_true ⟨?_, fun _ => ⟨⟨t, mem, own⟩, kept⟩, fun hlt => by omega⟩ (by omega)
    rw [sent, expired, Nat.min_eq_left (by omega)]
  | ended gone sent expired once =>
    refine iff_of_false (fun hs => ?_) (by omega)
    obtain ⟨⟨t, ht, he⟩, _⟩ := hs.waits (by omega)
    exact gone t ht he

/-- **Retransmissions.**  However messages are sent and timers expire, no pass comes to a transaction
that has been freed or leaves one out, and observers and client callbacks go with the transactions
that are given up; but a confirmable message over UDP is retransmitted as it should be only as long
as its timer has expired fewer than `COAP_MAX_RETRANSMIT` times. -/
theorem retransmission_schedule (uri : Nat → List UInt8) (steps : List SendStep) (s₀ : Server)
    (h₀ : s₀.engine.transactions = []) :
    ∃ r, Server.sendRun uri steps (s₀, []) = some r ∧
      (∀ τ, ∃ turns s, Server.checkTransactions uri τ r = some (s, r.2 ++ turns) ∧
        visits turns = r.1.engine.transactions.map Transaction.id) ∧
      Swept s₀ r ∧
      ∀ id initial, Turn.opened id initial ∈ r.2 →
        timeouts id r.2 ≤ 1 ∧ (Scheduled r id initial ↔ expiries id r.2 < coapMaxRetransmit) := by
  have hstart : Punctual (s₀, []) := by
    refine ⟨?_, fun _ _ => ⟨rfl, rfl, rfl, fun _ => List.not_mem_nil⟩, ?_⟩
    · show Distinct Transaction.id s₀.engine.fresh s₀.engine.transactions
      rw [h₀]
      exact ⟨List.nodup_nil, fun _ h => absurd h List.not_mem_nil⟩
    · intro id initial hopen
      cases hopen
  have hswept : Swept s₀ (s₀, []) := ⟨(List.filter_eq_self.mpr fun _ _ => rfl).symm, rfl⟩
  obtain ⟨r, hr, hrun, hw⟩ := @Punctual.run uri s₀ steps _ hstart hswept
  refine ⟨r, hr, fun τ => ?_, hw, fun id initial hopen => ⟨?_, ?_⟩⟩
  · obtain ⟨turns, s, hs, hvisits, _⟩ := @Punctual.pass uri τ r hrun
    exact ⟨turns, s, hs, hvisits⟩
  · cases hrun.standing id initial hopen with
    | waiting _ _ _ _ _ _ _ _ kept => omega
    | ended _ _ _ once => omega
  · exact (hrun.standing id initial hopen).scheduled_iff

/-! ## one message -/

/-- a server with an observer and a client callback at the same peer -/
def waitingServer : Server where
  engine := { State.init 7 with
    clientCbs := [⟨0, [], [], sampleEndpoint 5683, 0, 1, 7, [1], false, false, false⟩], fresh := 1 }
  list := [⟨0, [], sampleEndpoint 5683, [], 0, 1024, 0⟩, ⟨0, [], sampleEndpoint 5684, [], 0, 1024, 0⟩]
  numObservers _ := 2
  observeCounter := 3
  handles _ := ⟨false, [], []⟩

/-- a confirmable `GET` goes out, and every timer expires in each of `n` passes -/
def unanswered (n : Nat) : List SendStep :=
  .submit ⟨true, 2, 7, sampleEndpoint 5683, [0x40, 1, 0, 7]⟩ ::
    List.replicate n (.check ⟨fun _ => true, fun _ => 2, fun _ _ => false⟩)

/-- after three retransmissions, the fourth expiry gives the message up -/
theorem fourth_retransmission_missing : ∃ r,
    Server.sendRun (fun _ => [0x2F]) (unanswered 4) (waitingServer, []) = some r ∧
      .opened 1 2 ∈ r.2 ∧ intervals 1 r.2 = [2, 4, 8, 16] ∧ expiries 1 r.2 = 4 ∧
      timeouts 1 r.2 = 1 ∧ r.1.list.length = 1 ∧ r.1.engine.clientCbs.length = 0 ∧
      ¬ Scheduled r 1 2 := by
  refine ⟨_, rfl, List.mem_cons_self, rfl, rfl, rfl, rfl, rfl, fun h => ?_⟩
  exact absurd h.sent (by decide)

theorem retransmission_schedule_three : ∃ r,
    Server.sendRun (fun _ => [0x2F]) (unanswered 3) (waitingServer, []) = some r ∧
      (∀ τ, ∃ turns s, Server.checkTransactions (fun _ => [0x2F]) τ r = some (s, r.2 ++ turns) ∧
        visits turns = r.1.engine.transactions.map Transaction.id) ∧
      Swept waitingServer r ∧
      ∀ id initial, Turn.opened id initial ∈ r.2 →
        timeouts id r.2 ≤ 1 ∧ (Scheduled r id initial ↔ expiries id r.2 < coapMaxRetransmit) :=
  retransmission_schedule (fun _ => [0x2F]) (unanswered 3) waitingServer rfl

end Coap
