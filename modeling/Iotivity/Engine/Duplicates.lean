import Iotivity.Engine.Trace
import Iotivity.Lib.Ring

/-!
# Duplicate suppression

A request over UDP that is not confirmable is looked up in a history of 250 message ids, each kept with
the low eight bits of the local device, and dropped if it is found.  Otherwise it is recorded.

* `Recorded cfg s rs`   from start-up the engine has come to `s`, and `rs` are the requests that it has
                        recorded on the way;
* `SuppressesExactly`   a request is dropped if and only if its sender is one of the last 250 recorded
                        with its message id and device;
* `Distinguishable`     the entries of the history that look like the request are its own;
* `suppresses_iff`      the two are the same, in every state that is reached.
-/

namespace Coap
open Memory Keyed

/-! ## the history is left alone -/

/-- the part of the state that duplicates are looked up in -/
def State.past (s : State) : List (UInt16 × UInt8) × Nat := (s.history, s.idx)

section
variable (cfg : Config) (env : Env) (endpoint : Endpoint) (message : Message)

theorem past_foldl_freeClientCb (cbs : List ClientCb) (s : State) :
    (cbs.foldl (fun s cb => freeClientCb cb.id s) s).past = s.past := by
  induction cbs generalizing s with
  | nil => rfl
  | cons cb cbs ih => exact ih (freeClientCb cb.id s)

theorem past_sendTransaction (initial : Nat) (gone : Nat → Bool) (t : Transaction) (s : State) :
    (coapSendTransaction initial gone t s).1.past = s.past := by
  unfold coapSendTransaction ocRiRemoveClientCbByMid
  dsimp only
  repeat' split
  all_goals rfl

theorem past_sendMessage (l : Locals) : (sendMessage env endpoint message l).1.past = l.state.past := by
  unfold sendMessage
  dsimp only
  split
  · split
    · rfl
    · split
      · exact past_sendTransaction _ _ _ _
      · rfl
  · rfl
  · rfl

theorem past_unref (l : Locals) : l.unrefRequest.unrefResponse.state.past = l.state.past := by
  unfold Locals.unrefRequest Locals.unrefResponse
  repeat' split
  all_goals rfl

theorem past_leave (l : Locals) (label : Label) :
    (leave env endpoint message l label).1.past = l.state.past := by
  have hreset : (resetMessage endpoint message l).state.past = l.state.past := by
    unfold resetMessage
    split <;> rfl
  unfold leave
  split
  · exact past_sendMessage env endpoint message l
  · rw [past_sendMessage, past_unref]
  · rw [past_sendMessage, past_unref, hreset]

theorem past_storePayload (r : UInt8) (l : Locals) :
    (storePayload cfg env endpoint message r l).1.state.past = l.state.past := by
  unfold storePayload
  dsimp only
  repeat' split
  all_goals rfl

theorem past_requestBranch (l : Locals) :
    (requestBranch cfg env endpoint message l).1.state.past = l.state.past := by
  unfold requestBranch block1Request uploadBuffer block2Request dispatchResponse openTransfer
    regularRequest
  dsimp only
  repeat' split
  all_goals first | rfl | exact past_storePayload cfg env endpoint message _ _

theorem past_setReply (code length : Nat) (l : Locals) :
    (setReply cfg message code length l).state.past = l.state.past := by
  unfold setReply
  dsimp only
  repeat' split
  all_goals rfl

theorem past_reachResource (l : Locals) :
    (reachResource env endpoint message l).state.past = l.state.past := by
  unfold reachResource Locals.allocResponse consumePayload
  dsimp only
  repeat' split
  all_goals rfl

theorem past_entityHandler (l : Locals) :
    (ocRiInvokeCoapEntityHandler cfg env endpoint message l).2.state.past = l.state.past := by
  have h1 := past_reachResource env endpoint message l
  have h2 : ∀ l1 : Locals, (answer cfg env endpoint message (observeRequest env message l1)).state.past
      = l1.state.past := by
    intro l1
    have h3 : (observeRequest env message l1).state.past = l1.state.past := by
      unfold observeRequest
      dsimp only
      repeat' split
      all_goals rfl
    unfold answer
    dsimp only
    split
    · exact h3
    · split
      · exact h3
      · rw [past_setReply, h3]
  unfold ocRiInvokeCoapEntityHandler
  dsimp only
  split
  · rw [h2]
    exact h1
  · rw [past_setReply]
    exact h1

theorem past_requestHandler (block2 : Option BlockOption) (l : Locals) :
    (requestHandler cfg env endpoint message block2 l).1.state.past = l.state.past := by
  have h1 := past_entityHandler cfg env endpoint message
      (l.emit (.invoked endpoint message l.requestBuffer))
  unfold requestHandler
  dsimp only
  split
  · split
    · exact h1
    · unfold firstBlock
      dsimp only
      split
      · exact h1
      · exact h1
  · rw [past_unref]
    exact h1

theorem past_processRequest (l : Locals) :
    (processRequest cfg env endpoint message l).1.past = l.state.past := by
  unfold processRequest finish
  dsimp only
  have h1 := past_requestBranch cfg env endpoint message (l.emit (.accepted endpoint message))
  split
  · rw [past_leave, past_requestHandler]
    exact h1
  · rw [past_leave]
    exact h1

theorem past_newTransaction {granted : Bool} {mid : UInt16} {endpoint : Endpoint} {id : Nat}
    {s s1 : State} (h : coapNewTransaction granted mid endpoint s = (some id, s1)) :
    s1.past = s.past := by
  obtain ⟨_, _, rfl⟩ := coapNewTransaction_some h
  rfl

theorem past_clientRequest (responseMid : UInt16) (block1 : Option BlockOption) (l : Locals)
    (cb : Option ClientCb) :
    (clientRequest cfg env endpoint message responseMid block1 l cb).locals.state.past
      = l.state.past := by
  unfold clientRequest continueRequest
  dsimp only
  split
  · rfl
  · split
    · split
      · rfl
      · split
        · rfl
        · rename_i hn _
          have h := past_newTransaction hn
          exact h
        · rename_i hn _
          have h := past_newTransaction hn
          exact h
    · rfl

theorem past_clientResponse (responseMid : UInt16) (block2 : Option BlockOption) (l : Locals)
    (cb : Option ClientCb) :
    (clientResponse cfg env endpoint message responseMid block2 l cb).locals.state.past
      = l.state.past := by
  unfold clientResponse
  dsimp only
  split
  · rfl
  · split
    · split
      · rfl
      · split
        · split
          · rfl
          · rename_i hn _
            have h := past_newTransaction hn
            exact h
          · rename_i hn _
            have h := past_newTransaction hn
            exact h
        · rfl
    · rfl

theorem past_clientResponseBuffer (l : Locals) (cb : Option ClientCb) :
    (clientResponseBuffer env endpoint message l cb).state.past = l.state.past := by
  unfold clientResponseBuffer
  dsimp only
  repeat' split
  all_goals rfl

theorem past_freeUnreferenced (l : Locals) : (freeUnreferenced l).state.past = l.state.past := by
  unfold freeUnreferenced
  repeat' split
  all_goals rfl

theorem past_invokeClientCb (b : BlockwiseState) (cb : ClientCb) (l : Locals) :
    (invokeClientCb env endpoint message b cb l).state.past = l.state.past := by
  have hremove : ∀ (mid : UInt16) (s : State), (removeClientCbsByMid mid s).past = s.past :=
    fun mid s => past_foldl_freeClientCb _ s
  have hdrop : ∀ s : State, (dropDuplicateCb endpoint cb s).past = s.past := by
    intro s
    unfold dropDuplicateCb
    split <;> rfl
  show (ocRiInvokeClientCb env endpoint message b cb l.state).1.past = l.state.past
  unfold ocRiInvokeClientCb
  dsimp only
  split
  · exact hremove _ _
  · split
    · split
      · show (if _ then _ else _ : State).past = _
        split
        · exact hremove _ _
        · rfl
      · rfl
    · show (if _ then _ else _ : State).past = _
      split
      · exact hdrop _
      · rfl

theorem past_clientExchange (responseMid : UInt16) (cb : Option ClientCb) (l : Locals) :
    (clientExchange cfg env endpoint message responseMid cb l).1.past = l.state.past := by
  have h1 := past_clientRequest cfg env endpoint message responseMid (coapGetHeaderBlock1 message) l cb
  unfold clientExchange
  dsimp only
  split
  · rename_i e
    rw [e] at h1
    exact h1
  · rename_i e
    rw [e] at h1
    rw [past_leave]
    exact h1
  · rename_i l1 cb1 e
    rw [e] at h1
    have h2 : (clientResponseBuffer env endpoint message (freeUnreferenced l1) cb1).state.past
        = l.state.past := by
      rw [past_clientResponseBuffer, past_freeUnreferenced]
      exact h1
    have h3 := past_clientResponse cfg env endpoint message responseMid (coapGetHeaderBlock2 message)
      (clientResponseBuffer env endpoint message (freeUnreferenced l1) cb1) cb1
    rw [h2] at h3
    split
    · rename_i e
      rw [e] at h3
      exact h3
    · rename_i e
      rw [e] at h3
      rw [past_leave]
      exact h3
    · rename_i e
      rw [e] at h3
      split
      · rw [past_leave]
        exact h3
      · exact h3
      · rw [past_leave, past_invokeClientCb]
        exact h3

theorem past_receiveResponse (s : State) (events : List Event) :
    (receiveResponse cfg env endpoint message s events).1.past = s.past := by
  unfold receiveResponse
  dsimp only
  rw [past_clientExchange]
  show State.past (if message.type = .rst then _ else _) = s.past
  split <;> rfl

theorem past_cancelTransaction (s : State) : (cancelTransaction endpoint message s).past = s.past := by
  rcases cancelTransaction_cases endpoint message s with e | ⟨t, _, _, e⟩ <;> rw [e]
  rfl

end

/-! ## recorded requests -/

instance (m : Message) : Decidable m.IsRequest := inferInstanceAs (Decidable (_ ∧ _))

/-- a request that has been recorded; the endpoint holds the local device as well -/
structure NonRequest where
  endpoint : Endpoint
  mid : UInt16

/-- a request over UDP that is not confirmable -/
def IsNonRequest (endpoint : Endpoint) (m : Message) : Prop :=
  m.IsRequest ∧ endpoint.flags.tcp = false ∧ m.type ≠ .con

instance (endpoint : Endpoint) (m : Message) : Decidable (IsNonRequest endpoint m) :=
  inferInstanceAs (Decidable (_ ∧ _ ∧ _))

/-- the request that a message is recorded as -/
def recordedMessage (endpoint : Endpoint) (m : Message) (s : State) : List NonRequest :=
  if IsNonRequest endpoint m ∧ dropsDuplicate endpoint m s = false then [⟨endpoint, m.mid⟩] else []

/-- the request that a step records -/
def recordedBy (cfg : Config) (st : Step) (s : State) : List NonRequest :=
  match st with
  | .receive _ msg =>
    match msg.parse cfg with
    | .ok m => recordedMessage msg.endpoint m s
    | .error _ => []
  | _ => []

inductive Recorded (cfg : Config) : State → List NonRequest → Prop where
  | init (currentMid : UInt16) : Recorded cfg (State.init currentMid) []
  | step {s : State} {rs : List NonRequest} (st : Step) (h : Recorded cfg s rs) :
      Recorded cfg (step cfg st s).1 (rs ++ recordedBy cfg st s)

/-- what is kept of a request -/
def NonRequest.entry (r : NonRequest) : UInt16 × UInt8 := (r.mid, UInt8.ofNat r.endpoint.device)

/-! ## the history is a window on them -/

/-- the history after a message -/
def pastAfter (endpoint : Endpoint) (m : Message) (s : State) : List (UInt16 × UInt8) × Nat :=
  if IsNonRequest endpoint m ∧ dropsDuplicate endpoint m s = false then
    (remember s m.mid (UInt8.ofNat endpoint.device)).past
  else s.past

theorem dropsDuplicate_congr {s s' : State} (h : s'.past = s.past) (endpoint : Endpoint) (m : Message) :
    dropsDuplicate endpoint m s' = dropsDuplicate endpoint m s := by
  have hh : s'.history = s.history := congrArg Prod.fst h
  unfold dropsDuplicate checkIfDuplicate
  rw [hh]

theorem remember_congr {s s' : State} (h : s'.past = s.past) (mid : UInt16) (device : UInt8) :
    (remember s' mid device).past = (remember s mid device).past := by
  have hh : s'.history = s.history := congrArg Prod.fst h
  have hi : s'.idx = s.idx := congrArg Prod.snd h
  unfold remember State.past
  dsimp only
  rw [hh, hi]

theorem past_startResponse {endpoint : Endpoint} {m : Message} (hm : m.IsRequest) {s : State}
    (hd : dropsDuplicate endpoint m s = false) :
    (startResponse endpoint m s).2.past = pastAfter endpoint m s := by
  unfold startResponse pastAfter IsNonRequest
  rw [hd]
  by_cases htcp : endpoint.flags.tcp = true
  · rw [if_pos htcp, if_neg (by simp [htcp])]
  · by_cases hcon : m.type = .con
    · rw [if_neg htcp, if_pos hcon, if_neg (by simp [hcon])]
    · rw [if_neg htcp, if_neg hcon, if_pos ⟨⟨hm, by simpa using htcp, hcon⟩, rfl⟩]
      rfl

theorem past_receiveMessage (cfg : Config) (env : Env) (endpoint : Endpoint) (m : Message) (s : State) :
    (receiveMessage cfg env endpoint m s).1.past = pastAfter endpoint m s := by
  have hcancel := past_cancelTransaction endpoint m s
  have hdrop := dropsDuplicate_congr hcancel endpoint m
  by_cases hm : m.IsRequest
  · rw [receiveMessage_request cfg env endpoint hm]
    unfold receiveRequest
    by_cases hd : dropsDuplicate endpoint m s = true
    · rw [if_pos (hdrop.trans hd)]
      unfold pastAfter
      rw [if_neg (by simp [hd])]
      exact hcancel
    · have hd : dropsDuplicate endpoint m s = false := by simpa using hd
      rw [if_neg (by rw [hdrop, hd]; decide)]
      dsimp only
      have hstart : (startResponse endpoint m (cancelTransaction endpoint m s)).2.past
          = pastAfter endpoint m s := by
        rw [past_startResponse hm (hdrop.trans hd)]
        unfold pastAfter
        rw [hdrop, remember_congr hcancel, hcancel]
      rw [← hstart]
      generalize startResponse endpoint m (cancelTransaction endpoint m s) = r
      split
      · rename_i hn
        obtain ⟨_, rfl⟩ := coapNewTransaction_none hn
        exact past_leave env endpoint m _ _
      · rename_i hn
        rw [past_processRequest]
        have h := past_newTransaction hn
        exact h
  · have hafter : pastAfter endpoint m s = s.past := if_neg fun h => hm h.1.1
    unfold receiveMessage
    dsimp only
    rw [if_neg (show ¬ (coapGet ≤ m.code ∧ m.code ≤ coapDelete) from hm), past_receiveResponse, hcancel,
      hafter]

theorem past_checkTransactions (timers : Timers) (ts : List Transaction) (r : State × List Event) :
    (ts.foldl (checkTransaction timers) r).1.past = r.1.past := by
  induction ts generalizing r with
  | nil => rfl
  | cons t ts ih =>
    rw [List.foldl_cons, ih]
    unfold checkTransaction
    split
    · exact past_sendTransaction _ _ _ _
    · rfl

theorem past_sendNew (env : Env) (mid : UInt16) (endpoint : Endpoint) (data : List UInt8) (s : State) :
    (sendNew env mid endpoint data s).1.past = s.past := by
  unfold sendNew
  split
  · rename_i hn
    obtain ⟨_, rfl⟩ := coapNewTransaction_none hn
    rfl
  · rename_i hn
    rw [past_sendTransaction]
    have h := past_newTransaction hn
    exact h

theorem past_step (cfg : Config) (st : Step) (s : State) :
    (step cfg st s).1.past = (recordedBy cfg st s).foldl
      (fun h r => (h.1.set h.2 r.entry, (h.2 + 1) % ocRequestHistorySize)) s.past := by
  cases st with
  | receive env msg =>
    show (coapReceive cfg env msg s).1.past = _
    unfold coapReceive recordedBy
    dsimp only
    cases msg.parse cfg with
    | error e => rfl
    | ok m =>
      dsimp only
      rw [past_receiveMessage]
      unfold pastAfter recordedMessage
      split <;> rfl
  | requestTimeout id => rfl
  | responseTimeout id => rfl
  | checkTransactions timers => exact past_checkTransactions timers s.transactions (s, [])
  | send env mid endpoint data => exact past_sendNew env mid endpoint data s
  | clear id => rfl

/-- the history holds the last of the recorded requests -/
structure Remembers (s : State) (rs : List NonRequest) : Prop where
  length : s.history.length = ocRequestHistorySize
  window : Ring.Window ((0, 0) : UInt16 × UInt8) s.history s.idx (rs.map NonRequest.entry)

theorem Remembers.push {s s' : State} {rs : List NonRequest} (h : Remembers s rs) (r : NonRequest)
    (hs : s'.past = (s.history.set s.idx r.entry, (s.idx + 1) % ocRequestHistorySize)) :
    Remembers s' (rs ++ [r]) := by
  have hh : s'.history = s.history.set s.idx r.entry := congrArg Prod.fst hs
  have hi : s'.idx = (s.idx + 1) % ocRequestHistorySize := congrArg Prod.snd hs
  have hw := h.window.push r.entry
  rw [h.length] at hw
  refine ⟨by rw [hh, List.length_set, h.length], ?_⟩
  rw [hh, hi, List.map_append]
  exact hw

theorem Recorded.remembers {cfg : Config} {s : State} {rs : List NonRequest} (h : Recorded cfg s rs) :
    Remembers s rs := by
  induction h with
  | init currentMid =>
    exact ⟨List.length_replicate, Ring.Window.empty _ (by decide)⟩
  | @step s rs st _ ih =>
    have hp := past_step cfg st s
    have hone : recordedBy cfg st s = [] ∨ ∃ r, recordedBy cfg st s = [r] := by
      unfold recordedBy recordedMessage
      split
      · split
        · split
          · exact Or.inr ⟨_, rfl⟩
          · exact Or.inl rfl
        · exact Or.inl rfl
      · exact Or.inl rfl
    rcases hone with e | ⟨r, e⟩
    · rw [e, List.append_nil]
      rw [e] at hp
      have hh : (Coap.step cfg st s).1.history = s.history := congrArg Prod.fst hp
      have hi : (Coap.step cfg st s).1.idx = s.idx := congrArg Prod.snd hp
      exact ⟨hh ▸ ih.length, by rw [hh, hi]; exact ih.window⟩
    · rw [e] at hp ⊢
      exact ih.push r hp

/-! ## the main result -/

/-- the same host, or what lookups take for the same -/
def SameEndpoint (a b : Endpoint) : Prop := a = b ∨ ocEndpointCompare a b = true

/-- the last requests that were recorded -/
def recent (rs : List NonRequest) : List NonRequest := rs.drop (rs.length - ocRequestHistorySize)

/-- the sender of this message id has been recorded with it -/
def Repeats (rs : List NonRequest) (endpoint : Endpoint) (mid : UInt16) : Prop :=
  ∃ r ∈ recent rs, SameEndpoint r.endpoint endpoint ∧ r.mid = mid

/-- `coap_receive` returns at the lookup in the history -/
def Drops (endpoint : Endpoint) (m : Message) (s : State) : Prop :=
  m.IsRequest ∧ dropsDuplicate endpoint m s = true

/-- dropped if and only if repeated, and never the first request of an endpoint -/
def SuppressesExactly (endpoint : Endpoint) (m : Message) (s : State) (rs : List NonRequest) : Prop :=
  (Drops endpoint m s ↔ Repeats rs endpoint m.mid) ∧
    ((∀ r ∈ rs, ¬ SameEndpoint r.endpoint endpoint) → ¬ Drops endpoint m s)

/-- No request that has been recorded looks like this one, and neither does an entry that has not been
written yet; or the request is a repetition anyway. -/
def Distinguishable (rs : List NonRequest) (endpoint : Endpoint) (mid : UInt16) : Prop :=
  Repeats rs endpoint mid ∨
    (∀ r ∈ recent rs, ¬ (r.mid = mid ∧ r.endpoint.device % 256 = endpoint.device % 256)) ∧
      (rs.length < ocRequestHistorySize → ¬ (mid = 0 ∧ endpoint.device % 256 = 0))

theorem ofNat_eq_iff (a b : Nat) : UInt8.ofNat a = UInt8.ofNat b ↔ a % 256 = b % 256 := by
  rw [← UInt8.toNat_inj, UInt8.toNat_ofNat', UInt8.toNat_ofNat']

theorem SameEndpoint.device {a b : Endpoint} (h : SameEndpoint a b) : a.device = b.device := by
  rcases h with rfl | h
  · rfl
  · exact ((ocEndpointCompare_iff a b).mp h).2.1

/-- a dropped message changes nothing but the transaction it cancels -/
theorem coapReceive_of_drops {cfg : Config} {msg : OcMessage} {m : Message} {s : State}
    (hp : msg.parse cfg = .ok m) (hd : Drops msg.endpoint m s) (env : Env) :
    coapReceive cfg env msg s = (cancelTransaction msg.endpoint m s, []) := by
  unfold coapReceive
  rw [hp]
  dsimp only
  rw [receiveMessage_request cfg env msg.endpoint hd.1]
  exact if_pos ((dropsDuplicate_congr (past_cancelTransaction msg.endpoint m s) _ _).trans hd.2)

theorem drops_iff {endpoint : Endpoint} {m : Message} {s : State} {rs : List NonRequest}
    (hr : Remembers s rs) (hm : IsNonRequest endpoint m) :
    Drops endpoint m s ↔
      (∃ r ∈ recent rs, r.mid = m.mid ∧ r.endpoint.device % 256 = endpoint.device % 256) ∨
        rs.length < ocRequestHistorySize ∧ m.mid = 0 ∧ endpoint.device % 256 = 0 := by
  have hdrop : Drops endpoint m s ↔ (m.mid, UInt8.ofNat endpoint.device) ∈ s.history := by
    have hne : (m.type != MessageType.con) = true := bne_iff_ne.mpr hm.2.2
    unfold Drops dropsDuplicate checkIfDuplicate
    rw [hm.2.1, hne, Bool.not_false, Bool.true_and, Bool.true_and, List.any_eq_true]
    refine Iff.trans (and_iff_right hm.1) ⟨?_, fun h => ⟨_, h, by simp⟩⟩
    rintro ⟨⟨mid, device⟩, hin, he⟩
    simp only [Bool.and_eq_true, beq_iff_eq] at he
    rw [← he.1, ← he.2]
    exact hin
  rw [hdrop, hr.window.mem_iff, hr.length, List.length_map, ← List.map_drop, List.mem_map]
  refine or_congr ?_ (and_congr_right fun _ => ?_)
  · refine exists_congr fun r => and_congr_right fun _ => ?_
    unfold NonRequest.entry
    rw [Prod.mk.injEq, ofNat_eq_iff]
  · rw [Prod.mk.injEq]
    refine and_congr_right fun _ => ?_
    exact ofNat_eq_iff endpoint.device 0

/-- **Duplicates.**  In every state that is reached from start-up, a request that is not confirmable is
treated as it should if and only if its message id can be told from the others in the history. -/
theorem suppresses_iff (cfg : Config) (s : State) (rs : List NonRequest) (h : Recorded cfg s rs)
    (endpoint : Endpoint) (m : Message) (hm : IsNonRequest endpoint m) :
    SuppressesExactly endpoint m s rs ↔ Distinguishable rs endpoint m.mid := by
  have hd := drops_iff h.remembers hm
  have hrep : Repeats rs endpoint m.mid → Drops endpoint m s := by
    rintro ⟨r, hr, he, hmid⟩
    exact hd.mpr (Or.inl ⟨r, hr, hmid, by rw [he.device]⟩)
  constructor
  · rintro ⟨hiff, _⟩
    by_cases hr : Repeats rs endpoint m.mid
    · exact Or.inl hr
    · have hno : ¬ Drops endpoint m s := fun hx => hr (hiff.mp hx)
      rw [hd, not_or, not_exists] at hno
      exact Or.inr ⟨fun r hr' hx => hno.1 r ⟨hr', hx⟩, fun hlt hx => hno.2 ⟨hlt, hx⟩⟩
  · intro hdist
    have hiff : Drops endpoint m s ↔ Repeats rs endpoint m.mid := by
      refine ⟨fun hx => ?_, hrep⟩
      rcases hdist with hr | ⟨h1, h2⟩
      · exact hr
      · rcases hd.mp hx with ⟨r, hr, hrm⟩ | ⟨hlt, h0⟩
        · exact absurd hrm (h1 r hr)
        · exact absurd h0 (h2 hlt)
    refine ⟨hiff, fun hnone hx => ?_⟩
    obtain ⟨r, hr, he, _⟩ := hiff.mp hx
    exact hnone r (List.mem_of_mem_drop hr) he

/-- NON GET with message id `7` -/
def nonGet (port : UInt16) : OcMessage := sampleMessage port [0x50, 0x01, 0x00, 0x07]

/-- NON GET with message id `0` -/
def nonGetZero : OcMessage := sampleMessage 1 [0x50, 0x01, 0x00, 0x00]

/-- the request with message id `7` has come from port `1` -/
def nonGetSeen : State :=
  (step defaultConfig (.receive (sampleEnv [] length_nil_lt) (nonGet 1)) (State.init 0)).1

theorem nonGet_parsed (port : UInt16) : ∃ m, (nonGet port).parse defaultConfig = .ok m ∧
    m.type = .non ∧ m.mid = 7 ∧ IsNonRequest (sampleEndpoint port) m := by
  have h : ∃ m, (nonGet 1).parse defaultConfig = .ok m ∧ m.type = .non ∧ m.mid = 7 ∧
      m.code = coapGet := ⟨_, rfl, rfl, rfl, rfl⟩
  obtain ⟨m, hp, ht, hmid, hcode⟩ := h
  refine ⟨m, hp, ht, hmid, ⟨?_, ?_⟩, rfl, ?_⟩
  · rw [hcode]
    decide
  · rw [hcode]
    decide
  · rw [ht]
    decide

theorem nonGetZero_parsed : ∃ m, nonGetZero.parse defaultConfig = .ok m ∧
    m.type = .non ∧ m.mid = 0 ∧ IsNonRequest (sampleEndpoint 1) m :=
  ⟨_, rfl, rfl, rfl, ⟨by decide, by decide⟩, rfl, by decide⟩

theorem nonGetSeen_recorded : Recorded defaultConfig nonGetSeen [⟨sampleEndpoint 1, 7⟩] := by
  have h := Recorded.step (.receive (sampleEnv [] (by decide)) (nonGet 1))
    (Recorded.init 0 : Recorded defaultConfig _ _)
  obtain ⟨m, hp, _, hmid, hm⟩ := nonGet_parsed 1
  have hno : ¬ Drops (sampleEndpoint 1) m (State.init 0) := by
    rw [drops_iff (Recorded.init 0 : Recorded defaultConfig _ _).remembers hm, hmid]
    rintro (⟨r, hr, _⟩ | ⟨_, h0, _⟩)
    · exact absurd hr List.not_mem_nil
    · exact absurd h0 (by decide)
  have hrec : recordedBy defaultConfig (.receive (sampleEnv [] (by decide)) (nonGet 1)) (State.init 0)
      = [⟨sampleEndpoint 1, 7⟩] := by
    unfold recordedBy
    dsimp only
    rw [hp]
    dsimp only
    unfold recordedMessage
    rw [if_pos ⟨hm, Bool.eq_false_iff.mpr fun hd => hno ⟨hm.1, hd⟩⟩, hmid]
    rfl
  rw [hrec] at h
  exact h

theorem suppresses_nonGet : ∃ m, (nonGet 1).parse defaultConfig = .ok m ∧
    SuppressesExactly (sampleEndpoint 1) m nonGetSeen [⟨sampleEndpoint 1, 7⟩] := by
  obtain ⟨m, hp, _, hmid, hm⟩ := nonGet_parsed 1
  refine ⟨m, hp, (suppresses_iff defaultConfig nonGetSeen _ nonGetSeen_recorded (sampleEndpoint 1) m
    hm).mpr (Or.inl ?_)⟩
  exact ⟨⟨sampleEndpoint 1, 7⟩, List.mem_singleton_self _, Or.inl rfl, hmid.symm⟩

/-- The first request of port `2` is dropped because port `1` has used its message id; message id `0` is
dropped right after start-up. -/
theorem not_suppresses :
    (∃ m, (nonGet 2).parse defaultConfig = .ok m ∧ m.type = .non ∧
      Recorded defaultConfig nonGetSeen [⟨sampleEndpoint 1, 7⟩] ∧
      Drops (sampleEndpoint 2) m nonGetSeen ∧
      ¬ SuppressesExactly (sampleEndpoint 2) m nonGetSeen [⟨sampleEndpoint 1, 7⟩]) ∧
    ∃ m, nonGetZero.parse defaultConfig = .ok m ∧ m.type = .non ∧
      Drops (sampleEndpoint 1) m (State.init 0) ∧
      ¬ SuppressesExactly (sampleEndpoint 1) m (State.init 0) [] := by
  constructor
  · obtain ⟨m, hp, ht, hmid, hm⟩ := nonGet_parsed 2
    have hdrop : Drops (sampleEndpoint 2) m nonGetSeen :=
      (drops_iff nonGetSeen_recorded.remembers hm).mpr
        (Or.inl ⟨⟨sampleEndpoint 1, 7⟩, List.mem_singleton_self _, hmid.symm, rfl⟩)
    refine ⟨m, hp, ht, nonGetSeen_recorded, hdrop, fun h => h.2 (fun r hr => ?_) hdrop⟩
    rw [List.mem_singleton.mp hr]
    rintro (he | he)
    · exact absurd he (by decide)
    · exact absurd he (by decide)
  · obtain ⟨m, hp, ht, hmid, hm⟩ := nonGetZero_parsed
    have hdrop : Drops (sampleEndpoint 1) m (State.init 0) :=
      (drops_iff (Recorded.init 0 : Recorded defaultConfig _ _).remembers hm).mpr
        (Or.inr ⟨by decide, hmid, rfl⟩)
    exact ⟨m, hp, ht, hdrop, fun h => h.2 (fun r hr => absurd hr List.not_mem_nil) hdrop⟩

end Coap
