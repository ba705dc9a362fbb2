import Iotivity.Engine.Trace

/-!
# The payload that reaches the entity handler

A request without block options, or one that opens a Block2 transfer, hands its payload to
`oc_ri_invoke_coap_entity_handler` in a request buffer.  On the way its length passes a `uint16_t`,
the UDP parser cuts it to `OC_BLOCK_SIZE`, and a request with Block2 takes any request buffer that it
finds.

* `Delivers`       the buffer holds the payload that the peer has sent;
* `Deliverable`    nothing of the above happens, or it does no harm;
* `delivers_iff`   the two are the same, for every message that reaches the entity handler.
-/

namespace Coap
open Memory DeltaCode

/-- the entity handler is called -/
def Invokes (es : List Event) : Prop := ∃ e m b, Event.invoked e m b ∈ es

/-- the buffer holds the payload and nothing else -/
def HoldsPayload (payload : List UInt8) : Option BlockwiseState → Prop
  | none => payload = []
  | some b => b.payloadSize = payload.length ∧ read b.buffer 0 payload.length = payload

/-- whenever the entity handler is called, it is with the payload -/
def Delivers (payload : List UInt8) (es : List Event) : Prop :=
  ∀ e m b, Event.invoked e m b ∈ es → HoldsPayload payload b

/-- the request buffer that a request with Block2 and a payload takes over -/
def leftover (msg : OcMessage) (m : Message) (s : State) : Option BlockwiseState :=
  if (coapGetHeaderBlock2 m).isSome ∧ msg.payload ≠ [] then findServerRequest msg.endpoint m s
  else none

def Deliverable (cfg : Config) (msg : OcMessage) (m : Message) (s : State) : Prop :=
  match leftover msg m s with
  | some b => b.payloadSize = msg.payload.length ∧ read b.buffer 0 msg.payload.length = msg.payload
  | none =>
    if msg.endpoint.flags.tcp then msg.payload.length < 2^16
    else msg.payload.length ≤ cfg.blockSize

/-! ## the branches without Block1 -/

section
variable (cfg : Config) (endpoint : Endpoint) (message : Message)

/-- how a request without Block1 goes on, whatever the environment is -/
inductive PlainBranch (l : Locals) : Prop where
  | store (r : UInt8) (l1 : Locals) (hs : l1.state = l.state) (hlen : 0 < incomingBlockLen message)
      (hfind : (coapGetHeaderBlock2 message).isSome → findServerRequest endpoint message l.state = none)
      (h : ∀ env, requestBranch cfg env endpoint message l
        = storePayload cfg env endpoint message r l1)
  | take (b : BlockwiseState) (l1 : Locals) (hb : l1.requestBuffer = some b)
      (hlen : 0 < incomingBlockLen message) (hblock2 : (coapGetHeaderBlock2 message).isSome)
      (hfind : findServerRequest endpoint message l.state = some b)
      (h : ∀ env, requestBranch cfg env endpoint message l = (l1, .requestHandler))
  | empty (l1 : Locals) (hb : l1.requestBuffer = l.requestBuffer) (hlen : incomingBlockLen message = 0)
      (h : ∀ env, requestBranch cfg env endpoint message l = (l1, .requestHandler))
  | stop (h : ∀ env, (requestBranch cfg env endpoint message l).2 ≠ .requestHandler)

theorem plainBranch (hb1 : coapGetHeaderBlock1 message = none) (l : Locals) :
    PlainBranch cfg endpoint message l := by
  have hlen0 : ¬ 0 < incomingBlockLen message → incomingBlockLen message = 0 := by omega
  cases hb2 : coapGetHeaderBlock2 message with
  | none =>
    have hr : ∀ env, requestBranch cfg env endpoint message l
        = regularRequest cfg env endpoint message (blockParams cfg none) l := by
      intro env
      unfold requestBranch
      rw [hb1, hb2]
    simp only [regularRequest] at hr
    split at hr
    · split at hr
      · exact .store 0 l rfl ‹_› (by simp [hb2]) hr
      · exact .empty l rfl (hlen0 ‹_›) hr
    · exact .stop fun env => by rw [hr env]; simp
  | some b2 =>
    have hr : ∀ env, requestBranch cfg env endpoint message l
        = block2Request cfg env endpoint message (blockParams cfg (some b2)) l := by
      intro env
      unfold requestBranch
      rw [hb1, hb2]
    simp only [block2Request] at hr
    generalize hl1 : l.withResponse (coapSetHeaderContentFormat l.response (block2Format message))
      = l1 at hr
    have hs : l1.state = l.state := by rw [← hl1]; rfl
    split at hr
    · refine .stop fun env => ?_
      rw [hr env]
      unfold dispatchResponse
      split <;> simp
    · simp only [openTransfer] at hr
      split at hr
      · split at hr
        · split at hr
          · rename_i b hf
            rw [hs] at hf
            exact .take b _ rfl ‹_› (by rw [hb2]; rfl) hf hr
          · rename_i hf
            rw [hs] at hf
            exact .store 1 l1 hs ‹_› (fun _ => hf) hr
        · exact .empty l1 (by rw [← hl1]; rfl) (hlen0 ‹_›) hr
      · exact .stop fun env => by rw [hr env]; simp

end

/-! ## the call of the entity handler -/

theorem EndsWith.not_invoked {endpoint e : Endpoint} {message m response : Message}
    {source b : Option BlockwiseState} {es : List Event}
    (h : EndsWith endpoint message response source es) : Event.invoked e m b ∉ es := by
  intro hin
  rcases h _ hin with h | ⟨p, hp, _⟩
  · exact h
  · exact absurd hp (by simp)

theorem HandlerEvents.not_invoked {env : Env} {endpoint e : Endpoint} {message m : Message}
    {b : Option BlockwiseState} {payload : List UInt8} {es : List Event}
    (h : HandlerEvents env endpoint message payload es) : Event.invoked e m b ∉ es := by
  rcases h with rfl | ⟨acks, ha, rfl⟩
  · exact List.not_mem_nil
  · intro hin
    rcases List.mem_cons.mp hin with h | h
    · exact absurd h (by simp)
    · exact ha _ h

/-- the entity handler is called at `request_handler`, with the request buffer of that moment -/
theorem invoked_mem_iff (cfg : Config) (env : Env) (endpoint : Endpoint) (message : Message)
    {l : Locals} (hl : ∀ e ∈ l.events, e.Silent) {e : Endpoint} {m : Message}
    {b : Option BlockwiseState} {r : Locals × Label}
    (hr : requestBranch cfg env endpoint message (l.emit (.accepted endpoint message)) = r) :
    Event.invoked e m b ∈ (processRequest cfg env endpoint message l).2 ↔
      r.2 = .requestHandler ∧ e = endpoint ∧ m = message ∧ b = r.1.requestBuffer := by
  have hnot : Event.invoked e m b ∉ l.events := fun hin => hl _ hin
  rcases processRequest_events cfg env endpoint message l hr with
    ⟨hlabel, es, he, hes⟩ | ⟨hlabel, hs, es, he, hh, hes⟩
  · rw [he]
    constructor
    · intro hin
      rcases List.mem_append.mp hin with h | h
      · exact absurd h hnot
      · rcases List.mem_cons.mp h with h | h
        · exact absurd h (by simp)
        · exact absurd h hes.not_invoked
    · exact fun h => absurd h.1 hlabel
  · rw [he]
    constructor
    · intro hin
      rcases List.mem_append.mp hin with h | h
      · exact absurd h hnot
      · rcases List.mem_cons.mp h with h | h
        · exact absurd h (by simp)
        · rcases List.mem_cons.mp h with h | h
          · obtain ⟨h1, h2, h3⟩ := Event.invoked.inj h
            exact ⟨hlabel, h1, h2, h3⟩
          · rcases List.mem_append.mp h with h | h
            · exact absurd h hh.not_invoked
            · exact absurd h hes.not_invoked
    · rintro ⟨_, rfl, rfl, rfl⟩
      simp

theorem Idle.not_invoked {s : State} {r : State × List Event} (h : Idle s r) : ¬ Invokes r.2 := by
  rintro ⟨e, m, b, hin⟩
  rcases h.events _ hin with h | ⟨_, _, _, _, hp, _⟩
  · exact h
  · exact absurd hp (by simp)

/-! ## the payload in the buffer -/

section
variable {cfg : Config} {env : Env} {endpoint : Endpoint} {m : Message} {W : List UInt8} {r : UInt8}
  {id : Nat}

theorem filledRequest_buffer : (filledRequest env endpoint m r id).buffer
    = write env.requestAlloc.mem 0 (storedPayload m) := by
  unfold filledRequest setQuery
  split <;> rfl

theorem filledRequest_payloadSize : (filledRequest env endpoint m r id).payloadSize
    = incomingBlockLen m := rfl

/-- a payload that has come through as it is and is shorter than `2^16` bytes is there -/
theorem filledRequest_holds (hm : m.payload = W) (hlt : W.length < 2^16) :
    HoldsPayload W (some (filledRequest env endpoint m r id)) := by
  have hlen : incomingBlockLen m = W.length := by
    unfold incomingBlockLen
    rw [hm, Nat.mod_eq_of_lt (by omega)]
  have hst : storedPayload m = W := by
    unfold storedPayload
    rw [hlen, hm, Nat.mod_eq_of_lt hlt, List.take_length]
  refine ⟨by rw [filledRequest_payloadSize, hlen], ?_⟩
  rw [filledRequest_buffer, hst]
  exact read_write_self _ _ _

theorem byte_ne_succ (b : UInt8) : b ≠ b + 1 := by
  intro h
  have h1 : b.toNat = (b.toNat + 1) % 2^8 := by
    have h2 := congrArg UInt8.toNat h
    rwa [UInt8.toNat_add] at h2
  omega

/-- fresh memory that differs from the first byte that is not stored -/
def spoiltMemory (W : List UInt8) : Nat → UInt8 := fun _ => W.getD (W.length % 2^16) 0 + 1

/-- a longer payload is not there, if the fresh memory does not happen to hold the rest of it -/
theorem filledRequest_spoilt (hm : m.payload = W) (hlt : W.length < 2^32)
    (hmem : env.requestAlloc.mem = spoiltMemory W)
    (h : HoldsPayload W (some (filledRequest env endpoint m r id))) : W.length < 2^16 := by
  by_contra hge
  have hlen : incomingBlockLen m = W.length := by
    unfold incomingBlockLen
    rw [hm, Nat.mod_eq_of_lt hlt]
  have hst : (storedPayload m).length = W.length % 2^16 := by
    unfold storedPayload
    rw [hlen, hm, List.length_take]
    omega
  have hi : W.length % 2^16 < W.length := by omega
  have h1 := getElem?_read (filledRequest env endpoint m r id).buffer 0 W.length _ hi
  rw [h.2, filledRequest_buffer, hmem, Nat.zero_add, write_apply_ge _ _ _ _ (by omega),
    List.getElem?_eq_getElem hi] at h1
  have h2 : W[W.length % 2^16] = W[W.length % 2^16] + 1 := by
    have h3 := Option.some.inj h1
    unfold spoiltMemory at h3
    rwa [List.getD_eq_getElem _ _ hi] at h3
  exact byte_ne_succ _ h2

end

theorem findServerRequest_congr {s s' : State} (h : s'.requests = s.requests) (endpoint : Endpoint)
    (m : Message) : findServerRequest endpoint m s' = findServerRequest endpoint m s := by
  unfold findServerRequest ocBlockwiseFindRequestBuffer
  rw [h]

section
variable {cfg : Config} {msg : OcMessage} {m : Message} {s : State} {l : Locals}

theorem incomingBlockLen_parsed (hp : msg.parse cfg = .ok m) :
    incomingBlockLen m = m.payload.length := by
  have hW := msg.length_payload_lt
  unfold incomingBlockLen
  refine Nat.mod_eq_of_lt ?_
  rw [(OcMessage.parse_received hp).2]
  split
  · exact hW
  · rw [List.length_take]
    omega

theorem incomingBlockLen_eq_zero_iff (hp : msg.parse cfg = .ok m) :
    incomingBlockLen m = 0 ↔ msg.payload = [] := by
  have hbs := cfg.le_blockSize
  rw [incomingBlockLen_parsed hp, List.length_eq_zero_iff, (OcMessage.parse_received hp).2]
  split
  · exact Iff.rfl
  · rw [List.take_eq_nil_iff]
    exact or_iff_right (by omega)

/-- how an admitted request hands its payload over, whatever the environment is -/
inductive HandOver (cfg : Config) (msg : OcMessage) (m : Message) (s : State) (l : Locals) :
    Prop where
  | store (r : UInt8) (l1 : Locals) (hleft : leftover msg m s = none)
      (h : ∀ env, requestBranch cfg env msg.endpoint m (l.emit (.accepted msg.endpoint m))
        = storePayload cfg env msg.endpoint m r l1)
  | take (b : BlockwiseState) (l1 : Locals) (hleft : leftover msg m s = some b)
      (hb : l1.requestBuffer = some b)
      (h : ∀ env, requestBranch cfg env msg.endpoint m (l.emit (.accepted msg.endpoint m))
        = (l1, .requestHandler))
  | empty (l1 : Locals) (hnil : msg.payload = []) (hb : l1.requestBuffer = none)
      (h : ∀ env, requestBranch cfg env msg.endpoint m (l.emit (.accepted msg.endpoint m))
        = (l1, .requestHandler))
  | stop (h : ∀ env, (requestBranch cfg env msg.endpoint m
      (l.emit (.accepted msg.endpoint m))).2 ≠ .requestHandler)

theorem handOver (hp : msg.parse cfg = .ok m) (hb1 : coapGetHeaderBlock1 m = none)
    (ha : Admitted s l) : HandOver cfg msg m s l := by
  have hfind := findServerRequest_congr ha.requests msg.endpoint m
  have hempty := incomingBlockLen_eq_zero_iff hp
  cases plainBranch cfg msg.endpoint m hb1 (l.emit (.accepted msg.endpoint m)) with
  | store r l1 _ _ hnone h =>
    refine .store r l1 ?_ h
    unfold leftover
    split
    · rename_i hc
      rw [← hfind]
      exact hnone hc.1
    · rfl
  | take b l1 hb hlen hblock2 hf h =>
    refine .take b l1 ?_ hb h
    have hne : msg.payload ≠ [] := fun h0 => by
      have := hempty.mpr h0
      omega
    unfold leftover
    rw [if_pos ⟨hblock2, hne⟩, ← hfind]
    exact hf
  | empty l1 hb hlen h => exact .empty l1 (hempty.mp hlen) (hb.trans ha.requestBuffer) h
  | stop h => exact .stop h

/-- what is handed over is the payload -/
theorem delivers_of_deliverable (hp : msg.parse cfg = .ok m) (hb1 : coapGetHeaderBlock1 m = none)
    (hd : Deliverable cfg msg m s) (env : Env) :
    Delivers msg.payload (coapReceive cfg env msg s).2 := by
  intro e m1 b hin
  rcases coapReceive_cases cfg env msg s with ⟨m', l, hp', _, ha, hrun⟩ | ⟨hi, _⟩
  · obtain rfl : m = m' := Except.ok.inj (hp.symm.trans hp')
    rw [hrun env rfl] at hin
    obtain ⟨hlabel, _, _, rfl⟩ := (invoked_mem_iff cfg env msg.endpoint m ha.events rfl).mp hin
    unfold Deliverable at hd
    cases handOver hp hb1 ha with
    | store r l1 hleft h =>
      rw [hleft] at hd
      rcases storePayload_cases cfg env msg.endpoint m r l1 with ⟨_, _, e⟩ | ⟨_, e⟩
      · rw [h env, e]
        have hpay := (OcMessage.parse_received hp).2
        have hd : if msg.endpoint.flags.tcp then _ else _ := hd
        split at hd
        · exact filledRequest_holds (hpay.trans (if_pos ‹_›)) hd
        · rw [if_neg ‹_›, List.take_of_length_le hd] at hpay
          have := cfg.blockSize_le
          exact filledRequest_holds hpay (by omega)
      · rw [h env, e] at hlabel
        exact absurd hlabel (by simp)
    | take b l1 hleft hb h =>
      rw [hleft] at hd
      rw [h env, hb]
      exact hd
    | empty l1 hnil hb h =>
      rw [h env, hb]
      exact hnil
    | stop h => exact absurd hlabel (h env)
  · exact absurd ⟨e, m1, b, hin⟩ hi.not_invoked

/-- a payload that is stored in every environment fits -/
theorem fits_of_stored (hp : msg.parse cfg = .ok m) {env : Env} {r : UInt8} {id : Nat}
    (hmem : env.requestAlloc.mem = spoiltMemory msg.payload)
    (h : HoldsPayload msg.payload (some (filledRequest env msg.endpoint m r id))) :
    if msg.endpoint.flags.tcp then msg.payload.length < 2^16
    else msg.payload.length ≤ cfg.blockSize := by
  have hpay := (OcMessage.parse_received hp).2
  split
  · exact filledRequest_spoilt (hpay.trans (if_pos ‹_›)) msg.length_payload_lt hmem h
  · have hsize : incomingBlockLen m = msg.payload.length := h.1
    rw [incomingBlockLen_parsed hp, hpay, if_neg ‹_›, List.length_take] at hsize
    omega

theorem deliverable_of_delivers (hp : msg.parse cfg = .ok m) (hb1 : coapGetHeaderBlock1 m = none)
    {env : Env} (hinv : Invokes (coapReceive cfg env msg s).2)
    (h : ∀ env, Delivers msg.payload (coapReceive cfg env msg s).2) : Deliverable cfg msg m s := by
  rcases coapReceive_cases cfg env msg s with ⟨m', l, hp', _, ha, hrun⟩ | ⟨hi, _⟩
  · obtain rfl : m = m' := Except.ok.inj (hp.symm.trans hp')
    -- what is handed over in any environment with the same transaction pool
    have hall : ∀ env' : Env, env'.transactionGranted = env.transactionGranted → ∀ r,
        requestBranch cfg env' msg.endpoint m (l.emit (.accepted msg.endpoint m)) = r →
        r.2 = .requestHandler → HoldsPayload msg.payload r.1.requestBuffer := by
      intro env' he r hr hlabel
      refine h env' msg.endpoint m _ ?_
      rw [hrun env' he]
      exact (invoked_mem_iff cfg env' msg.endpoint m ha.events hr).mpr ⟨hlabel, rfl, rfl, rfl⟩
    rw [hrun env rfl] at hinv
    obtain ⟨e, m1, b, hin⟩ := hinv
    obtain ⟨hlabel, _, _, _⟩ := (invoked_mem_iff cfg env msg.endpoint m ha.events rfl).mp hin
    unfold Deliverable
    cases handOver hp hb1 ha with
    | store r l1 hleft hb =>
      rw [hleft]
      have hcan : CanAlloc env m ∧ Storable cfg (storedPayload m).length := by
        rcases storePayload_cases cfg env msg.endpoint m r l1 with ⟨h1, h2, _⟩ | ⟨_, e⟩
        · exact ⟨h1, h2⟩
        · rw [hb env, e] at hlabel
          exact absurd hlabel (by simp)
      -- the same with fresh memory that does not hold the payload by chance
      let env' : Env :=
        { env with requestAlloc := ⟨env.requestAlloc.granted, spoiltMemory msg.payload⟩ }
      rcases storePayload_cases cfg env' msg.endpoint m r l1 with ⟨_, _, e⟩ | ⟨hn, _⟩
      · exact fits_of_stored hp rfl (hall env' rfl _ ((hb env').trans e) rfl)
      · exact absurd hcan hn
    | take b l1 hleft hb hr =>
      rw [hleft]
      have hh := hall env rfl _ (hr env) rfl
      rw [hb] at hh
      exact hh
    | empty l1 hnil hb hr =>
      unfold leftover
      rw [if_neg (by simp [hnil]), hnil]
      show if msg.endpoint.flags.tcp then _ else _
      split
      · decide
      · exact Nat.zero_le _
    | stop hr => exact absurd hlabel (hr env)
  · exact absurd hinv hi.not_invoked

end

/-! ## the main result -/

/-- **Delivery.**  A message without Block1 that can reach the entity handler at all reaches it with
its payload, in every environment, if and only if it is `Deliverable`. -/
theorem delivers_iff (cfg : Config) (msg : OcMessage) (s : State) (m : Message)
    (hp : msg.parse cfg = .ok m) (hb1 : coapGetHeaderBlock1 m = none)
    (hacc : ∃ env, Invokes (coapReceive cfg env msg s).2) :
    (∀ env, Delivers msg.payload (coapReceive cfg env msg s).2) ↔ Deliverable cfg msg m s := by
  obtain ⟨env, hinv⟩ := hacc
  exact ⟨deliverable_of_delivers hp hb1 hinv, delivers_of_deliverable hp hb1⟩

/-- POST `a` with a payload of three bytes -/
def threeBytesPost : OcMessage :=
  sampleMessage 1 [0x40, 0x02, 0x00, 0x02, 0xB1, 0x61, 0xFF, 1, 2, 3]

theorem threeBytesPost_payload : threeBytesPost.payload = [1, 2, 3] := by
  have h : threeBytesPost.body = [0xB1, 0x61, 0xFF, 1, 2, 3] := rfl
  unfold OcMessage.payload
  rw [h]
  simp [decode, takeHeader, takeField, endingPayload]

theorem threeBytesPost_invoked : ∃ m b, Event.invoked threeBytesPost.endpoint m (some b) ∈
    (coapReceive defaultConfig (sampleEnv [] (by decide)) threeBytesPost (State.init 0)).2 :=
  ⟨_, _, List.mem_of_getElem? (i := 1) rfl⟩

/-- three bytes get through -/
theorem delivers_threeBytes : Delivers [1, 2, 3]
    (coapReceive defaultConfig (sampleEnv [] (by decide)) threeBytesPost (State.init 0)).2 := by
  obtain ⟨m, hp, hb1, hb2⟩ : ∃ m, threeBytesPost.parse defaultConfig = .ok m ∧
      coapGetHeaderBlock1 m = none ∧ coapGetHeaderBlock2 m = none := ⟨_, rfl, rfl, rfl⟩
  obtain ⟨m', b, hin⟩ := threeBytesPost_invoked
  have h := (delivers_iff defaultConfig threeBytesPost (State.init 0) m hp hb1
    ⟨_, _, m', some b, hin⟩).mpr
  rw [threeBytesPost_payload] at h
  refine h ?_ _
  unfold Deliverable leftover
  rw [if_neg (by simp [hb2]), threeBytesPost_payload]
  decide

/-! ## a request that gets the buffer of another one -/

/-- POST `a` with Block1: block `0`, more to come -/
def firstUpload : OcMessage :=
  sampleMessage 1
    ([0x40, 0x02, 0x00, 0x01, 0xB1, 0x61, 0xD1, 0x03, 0x08, 0xFF] ++ List.replicate 16 7)

/-- POST `a` with Block2: block `0`, and a payload of three bytes -/
def openingPost : OcMessage :=
  sampleMessage 1 [0x40, 0x02, 0x00, 0x02, 0xB1, 0x61, 0xC1, 0x00, 0xFF, 1, 2, 3]

def uploadStarted : State × List Event :=
  step defaultConfig (.receive (sampleEnv [] length_nil_lt) firstUpload) (State.init 0)

theorem openingPost_payload : openingPost.payload = [1, 2, 3] := by
  have h : openingPost.body = [0xB1, 0x61, 0xC1, 0x00, 0xFF, 1, 2, 3] := rfl
  unfold OcMessage.payload
  rw [h]
  simp [decode, takeHeader, takeField, endingPayload]

theorem openingPost_invoked : ∃ m b, Event.invoked openingPost.endpoint m (some b) ∈
    (coapReceive defaultConfig (sampleEnv [] (by decide)) openingPost uploadStarted.1).2 ∧
      b.payloadSize = 0 :=
  ⟨_, _, List.mem_of_getElem? (i := 1) rfl, rfl⟩

/-- While an upload to `a` is going on, a POST to `a` that opens a Block2 transfer gets the buffer of
the upload, with `payload_size` zero. -/
theorem not_delivers :
    Run defaultConfig (fun _ _ => True) uploadStarted.1 uploadStarted.2 ∧
      openingPost.payload.length ≤ defaultConfig.maxAppDataSize ∧
      (∃ m b, openingPost.parse defaultConfig = .ok m ∧ m.IsRequest ∧
        coapGetHeaderBlock1 m = none ∧ coapGetHeaderBlock2 m = some b ∧ b.num = 0) ∧
      ¬ Delivers openingPost.payload
        (coapReceive defaultConfig (sampleEnv [] (by decide)) openingPost uploadStarted.1).2 := by
  refine ⟨Run.step _ (Run.init 0) trivial, ?_, ⟨_, _, rfl, ⟨by decide, by decide⟩, rfl, rfl, rfl⟩,
    fun h => ?_⟩
  · rw [openingPost_payload]
    decide
  · obtain ⟨m, b, hin, hb⟩ := openingPost_invoked
    have h1 := (h _ _ _ hin).1
    rw [hb, openingPost_payload] at h1
    exact absurd h1 (by decide)

end Coap
