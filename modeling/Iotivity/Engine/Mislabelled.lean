import Iotivity.Engine.Labels

/-!
# Where labels and contents part

The converse of `Labels`: a message that is not `Labelable` is answered with a wrong label in some
state of the engine.

* `sendMessage_sending`     a packet that can be serialized is sent;
* `servingState`, `waitingState`   a server in the middle of a transfer, a client in the middle of one;
* `labelsMatch_iff`         labels match in every state if and only if the message is `Labelable`.
-/

namespace Coap
open Memory Keyed

/-! ## packets that are sent -/

/-- the message has its transaction, and nothing has gone wrong so far -/
structure CanSend (l : Locals) : Prop where
  status : l.status = .noError
  transaction : ∃ t ∈ l.state.transactions, l.transaction = some t.id

theorem sendMessage_sending (env : Env) (endpoint : Endpoint) (message : Message) {l : Locals}
    (h : CanSend l) (hpos : 0 < (serializedBytes (setResponseToken env message l)).length) :
    Event.sending endpoint message (setResponseToken env message l) l.source ∈
      (sendMessage env endpoint message l).2 := by
  obtain ⟨hst, t, ht, htr⟩ := h
  unfold sendMessage
  rw [hst, htr]
  dsimp only
  cases hf : l.state.transactions.find? (fun x => x.id == t.id) with
  | none => exact absurd (List.find?_eq_none.mp hf t ht) (by simp)
  | some t' =>
    dsimp only
    rw [if_pos hpos]
    refine List.mem_append_left _ (List.mem_append_right _ ?_)
    exact List.mem_singleton_self _

/-- the token of a packet fits its header -/
theorem length_setResponseToken (env : Env) (message : Message) {l : Locals}
    (h : l.response.token = []) :
    (setResponseToken env message l).token.length ≤ coapTokenLen := by
  have htake : ∀ token : List UInt8, (token.take coapTokenLen).length ≤ coapTokenLen := by
    intro token
    rw [List.length_take]
    exact Nat.min_le_left _ _
  unfold setResponseToken
  split
  · split
    · exact htake _
    · split
      · split
        · exact htake _
        · exact htake _
      · exact htake _
  · rw [h]
    exact Nat.zero_le _

theorem FewOptions.sameBody {p q : Message} (h : FewOptions p) (hq : SameBody p q) :
    FewOptions q := by
  obtain ⟨token, rfl⟩ := hq
  exact ⟨h.ordinary, h.etag, h.uriPath, h.unset⟩

/-- a packet with few options is sent as it is, up to its token -/
theorem FewOptions.sending (env : Env) (endpoint : Endpoint) (message : Message) {l : Locals}
    (h : FewOptions l.response) (ht : l.response.token = []) (hl : CanSend l) :
    ∃ p, SameBody l.response p ∧
      Event.sending endpoint message p l.source ∈ (sendMessage env endpoint message l).2 := by
  have hbody := setResponseToken_sameBody env message l
  refine ⟨_, hbody, sendMessage_sending env endpoint message hl ?_⟩
  exact (h.sameBody hbody).serialized (length_setResponseToken env message ht)

/-- a payload that is shorter than the announced part -/
theorem not_labelMatches {o : BlockOption} {payload P : List UInt8} (hn : o.num.toNat < 2^28)
    (hs : o.size.toNat ≤ 2048)
    (h : payload.length ≠ min (16 * 2^szx o.size.toNat)
      (P.length - o.num.toNat * (16 * 2^szx o.size.toNat))) : ¬ LabelMatches o payload P := by
  rintro ⟨hpay, _⟩
  obtain ⟨h1, _, h3⟩ := decoded_label o hn hs
  rw [h1, h3] at hpay
  apply h
  rw [hpay, List.length_take, List.length_drop]

/-- an option that is not a string is set -/
theorem FewOptions.set {p q : Message} (h : FewOptions p) {n : Nat}
    (hn : n ∉ [coapOptionObserve, coapOptionUriPort, coapOptionUriQuery, coapOptionAccept])
    (ho : q.options = insert n p.options) (hc : q.code = p.code) (he : q.etag = p.etag)
    (hu : q.uriPath = p.uriPath) : FewOptions q := by
  refine ⟨?_, he.trans h.etag, hu.trans h.uriPath, fun k hk => ?_⟩
  · unfold coapCheckSignalMessage
    rw [hc]
    exact h.ordinary
  · have hp : k ∉ p.options := of_decide_eq_false (h.unset k hk)
    refine decide_eq_false ?_
    rw [ho, Finset.mem_insert]
    rintro (rfl | hin)
    · exact hn hk
    · exact hp hin

theorem FewOptions.payload {p : Message} (h : FewOptions p) (cfg : Config) (payload : List UInt8) :
    FewOptions (coapSetPayload cfg p payload) := by
  unfold coapSetPayload
  split <;> exact ⟨h.ordinary, h.etag, h.uriPath, h.unset⟩

theorem FewOptions.block2 {p : Message} (h : FewOptions p) (num : UInt32) (more : UInt8)
    (size : UInt16) : FewOptions (coapSetHeaderBlock2 p num more size) := by
  unfold coapSetHeaderBlock2
  split
  · exact h
  · exact h.set (n := coapOptionBlock2) (by decide) rfl rfl rfl rfl

theorem FewOptions.block1 {p : Message} (h : FewOptions p) (num : UInt32) (more : UInt8)
    (size : UInt16) : FewOptions (coapSetHeaderBlock1 p num more size) := by
  unfold coapSetHeaderBlock1
  split
  · exact h
  · exact h.set (n := coapOptionBlock1) (by decide) rfl rfl rfl rfl

/-! ## a request that is admitted -/

/-- what the lookup of a Block2 request gives, and how the packet starts -/
structure Opened (s : State) (l : Locals) : Prop where
  responses : l.state.responses = s.responses
  few : FewOptions l.response
  token : l.response.token = []
  plain : Plain l.response
  send : CanSend l

theorem startResponse_few (endpoint : Endpoint) (m : Message) (s : State) :
    FewOptions (startResponse endpoint m s).1 ∧ (startResponse endpoint m s).1.token = [] := by
  unfold startResponse
  dsimp only
  split
  · exact ⟨⟨rfl, rfl, rfl, fun _ _ => rfl⟩, rfl⟩
  · split
    · exact ⟨⟨rfl, rfl, rfl, fun _ _ => rfl⟩, rfl⟩
    · exact ⟨⟨rfl, rfl, rfl, fun _ _ => rfl⟩, rfl⟩

theorem coapReceive_opened (cfg : Config) (env : Env) {msg : OcMessage} {m : Message} {s : State}
    (hp : msg.parse cfg = .ok m) (hm : m.IsRequest) (hg : env.transactionGranted = true)
    (ht : s.transactions = [])
    (hd : checkIfDuplicate s m.mid (UInt8.ofNat msg.endpoint.device) = false) :
    ∃ l, Opened s l ∧ coapReceive cfg env msg s = processRequest cfg env msg.endpoint m l := by
  have hcancel : cancelTransaction msg.endpoint m s = s := by
    unfold cancelTransaction coapGetTransactionByMid
    rw [ht]
    split <;> rfl
  have hdrop : dropsDuplicate msg.endpoint m s = false := by
    unfold dropsDuplicate
    rw [hd, Bool.and_false]
  unfold coapReceive
  rw [hp]
  dsimp only
  rw [receiveMessage_request cfg env msg.endpoint hm, hcancel]
  unfold receiveRequest
  rw [if_neg (by rw [hdrop]; decide)]
  dsimp only
  obtain ⟨hfew, htok⟩ := startResponse_few msg.endpoint m s
  have hplain := startResponse_plain msg.endpoint m s
  have hbuf := startResponse_buffers msg.endpoint m s
  generalize startResponse msg.endpoint m s = r at hfew htok hplain hbuf ⊢
  rcases hn : coapNewTransaction env.transactionGranted m.mid msg.endpoint r.2 with ⟨_ | id, s1⟩
  · rw [(coapNewTransaction_none hn).1] at hg
    exact absurd hg (by decide)
  · obtain ⟨_, rfl, rfl⟩ := coapNewTransaction_some hn
    refine ⟨_, ⟨?_, hfew, htok, hplain, rfl, ⟨r.2.fresh, m.mid, msg.endpoint, 0, 0, []⟩, ?_, rfl⟩, rfl⟩
    · show r.2.responses = s.responses
      exact congrArg Buffers.responses hbuf
    · exact List.mem_append_right _ (List.mem_singleton_self _)

/-! ## a server -/

/-- a representation of `n` bytes that is being served to this very request -/
def servingBuffer (endpoint : Endpoint) (m : Message) (n : Nat) : BlockwiseState :=
  { freshBuffer with
    href := coapGetHeaderUriPath m
    endpoint := endpoint
    method := m.code
    uriQuery := m.uriQuery
    payloadSize := n }

/-- a server with this buffer, which has not seen the message id yet -/
def servingState (endpoint : Endpoint) (m : Message) (n : Nat) : State :=
  { State.init 0 with
    responses := [servingBuffer endpoint m n]
    fresh := 1
    history := List.replicate ocRequestHistorySize (m.mid + 1, 0) }

theorem mid_ne_succ (mid : UInt16) : mid + 1 ≠ mid := by
  intro h
  have h1 : (mid.toNat + 1) % 2^16 = mid.toNat := by
    have h2 := congrArg UInt16.toNat h
    rwa [UInt16.toNat_add] at h2
  omega

theorem servingState_fresh (endpoint : Endpoint) (m : Message) (n : Nat) (device : UInt8) :
    checkIfDuplicate (servingState endpoint m n) m.mid device = false := by
  unfold checkIfDuplicate
  rw [List.any_eq_false]
  intro h hin
  have he : h = (m.mid + 1, 0) := List.eq_of_mem_replicate hin
  rw [he]
  have hne : (m.mid + 1 == m.mid) = false := beq_eq_false_iff_ne.mpr (mid_ne_succ m.mid)
  simp only [hne, Bool.false_and, Bool.false_eq_true, not_false_eq_true]

theorem servingState_find {endpoint : Endpoint} {m : Message} {n : Nat} {s : State}
    (he : ocEndpointCompare endpoint endpoint = true)
    (hs : s.responses = (servingState endpoint m n).responses) :
    findServerResponse endpoint m s = some (servingBuffer endpoint m n) := by
  have hfind : ∀ b : Buffers, b.responses = [servingBuffer endpoint m n] →
      (requestLookup endpoint m).findResponse b = some (servingBuffer endpoint m n) := by
    intro b hb
    unfold Lookup.findResponse ocBlockwiseFindResponseBuffer
    rw [hb]
    refine findBuffer_some.mpr ⟨⟨?_, rfl, he, rfl, rfl⟩, [], [], rfl, fun x hx => ?_⟩
    · exact strncmpFrom_self _ _ _
    · exact absurd hx List.not_mem_nil
  rw [findServerResponse_eq]
  exact hfind s.toBuffers hs

/-- the last byte of a representation -/
theorem dispatch_last {b : BlockwiseState} {off size : Nat} (hb : b.payloadSize = off + 1)
    (hsize : 0 < size) (hle : size ≤ off) :
    ocBlockwiseDispatchBlock b off size
      = (some (read b.buffer off 1), { b with nextBlockOffset := (off + 1) % 2^32 }) := by
  unfold ocBlockwiseDispatchBlock
  rw [if_pos (by omega), if_neg (by omega), show min size (b.payloadSize - off) = 1 by omega]

/-- a size that is larger than `OC_BLOCK_SIZE` is not the one the offset is computed with -/
theorem blockParams_large {cfg : Config} {o : BlockOption} (ho : o.Parsed)
    (hsize : cfg.blockSize < o.size.toNat) (hmax : o.num.toNat ≤ 0xFFFFF) :
    (blockParams cfg (some o)).size.toNat = cfg.blockSize ∧
      (blockParams cfg (some o)).offset.toNat = o.num.toNat * o.size.toNat ∧
      o.num.toNat * o.size.toNat ≤ 0xFFFFF * 2048 := by
  obtain ⟨hoff, hzero⟩ := ho.fields
  have hs : o.size.toNat ≤ 2048 := by
    rcases hzero with rfl | ⟨k, hk, hk'⟩
    · decide
    · have : 2^k ≤ 2^7 := Nat.pow_le_pow_right (by decide) (by omega)
      omega
  have hmul : o.num.toNat * o.size.toNat ≤ 0xFFFFF * 2048 := Nat.mul_le_mul hmax hs
  refine ⟨?_, ?_, hmul⟩
  · rw [(blockParams_size cfg ho).1]
    omega
  · show o.offset.toNat = _
    rw [hoff, Nat.mod_eq_of_lt (by omega)]

/-- `OC_BLOCK_SIZE` is announced as it is -/
theorem blockSize_announced (cfg : Config) : 16 * 2^szx cfg.blockSize = cfg.blockSize := by
  obtain ⟨e, he⟩ := cfg.blockSize_sixteen
  exact szx_of_pow he

theorem block_accepted {num : UInt32} {size : UInt16} (h16 : 16 ≤ size.toNat)
    (hsize : size.toNat ≤ 2048) (hnum : num.toNat ≤ 0xFFFFF) : blockRefused num size = false := by
  unfold blockRefused
  have h3 : ¬ size.toNat < (16 : UInt16).toNat := by
    show ¬ size.toNat < 16
    omega
  have h4 : ¬ (2048 : UInt16).toNat < size.toNat := by
    show ¬ 2048 < size.toNat
    omega
  have h5 : ¬ (0x0FFFFF : UInt32).toNat < num.toNat := by
    show ¬ 0xFFFFF < num.toNat
    omega
  simp only [Bool.or_eq_false_iff, decide_eq_false_iff_not]
  exact ⟨⟨h3, h4⟩, h5⟩

/-- with a larger size, the part behind the announced offset is longer than the one byte that is
left behind the real one -/
theorem gap_of_large {n size z : Nat} (hn : 0 < n) (h : z < size) (hz : 2 ≤ z) :
    1 ≠ min z (n * size + 1 - n * z) := by
  have h1 : n * z + 1 ≤ n * size := by
    calc n * z + 1 ≤ n * z + n := by omega
      _ = n * (z + 1) := by rw [Nat.mul_succ]
      _ ≤ n * size := Nat.mul_le_mul_left n h
  omega

/-- the fields of a packet with a part of a representation -/
theorem block2_fields {cfg : Config} (p : Message) (more : UInt8) (etag : List UInt8)
    {payload : List UInt8} {num : UInt32} {size : UInt16} (hr : blockRefused num size = false)
    (hlen : payload.length ≤ cfg.blockSize) :
    let q := coapSetHeaderEtag (coapSetHeaderBlock2 (coapSetPayload cfg p payload) num more size) etag
    coapOptionBlock2 ∈ q.options ∧ q.block2.num = num ∧ q.block2.size = size ∧
      q.payload = payload := by
  unfold coapSetHeaderBlock2
  rw [if_neg (by rw [hr]; decide), coapSetPayload_eq cfg p hlen]
  refine ⟨?_, rfl, rfl, rfl⟩
  exact Finset.mem_insert_of_mem (Finset.mem_insert_self _ _)

/-- a part of a representation is sent with the number and the size of the option -/
theorem dispatchResponse_sends (cfg : Config) (env : Env) (endpoint : Endpoint) (m : Message)
    {q : BlockOption} {l : Locals} {b b' : BlockwiseState} {payload : List UInt8}
    (hd : ocBlockwiseDispatchBlock b q.offset.toNat q.size.toNat = (some payload, b'))
    (hr : blockRefused q.num q.size = false) (hlen : payload.length ≤ cfg.blockSize)
    (hetag : b'.etag = []) (hfew : FewOptions l.response) (htok : l.response.token = [])
    (hsend : CanSend l) :
    ∃ lr, dispatchResponse cfg q l b = (lr, .sendMessage) ∧
      ∃ p source, source.payload = b'.payload ∧
        Event.sending endpoint m p (some source) ∈ (sendMessage env endpoint m lr).2 ∧
        coapOptionBlock2 ∈ p.options ∧ p.block2.num = q.num ∧ p.block2.size = q.size ∧
        p.payload = payload := by
  unfold dispatchResponse
  rw [hd]
  refine ⟨_, rfl, ?_⟩
  generalize (if b'.nextBlockOffset < b'.payloadSize then 1 else 0 : UInt8) = more
  obtain ⟨h1, h2, h3, h4⟩ := block2_fields l.response more b'.etag hr hlen
  have hfew2 : FewOptions (coapSetHeaderEtag
      (coapSetHeaderBlock2 (coapSetPayload cfg l.response payload) q.num more q.size) b'.etag) := by
    have hblock := (hfew.payload cfg payload).block2 q.num more q.size
    refine hblock.set (n := coapOptionEtag) (by decide) rfl rfl ?_ rfl
    rw [hblock.etag, hetag]
    rfl
  have htok2 : (coapSetHeaderEtag (coapSetHeaderBlock2 (coapSetPayload cfg l.response payload)
      q.num more q.size) b'.etag).token = [] := by
    rw [coapSetPayload_eq cfg _ hlen]
    unfold coapSetHeaderBlock2
    split <;> exact htok
  obtain ⟨p, ⟨token, rfl⟩, hin⟩ := FewOptions.sending env endpoint m (l := Locals.setResponse
    (l.withBlock _ { b' with refCount := more }) { b' with refCount := more }) hfew2 htok2
    ⟨hsend.status, hsend.transaction⟩
  exact ⟨_, { b' with refCount := more }, rfl, hin, h1, h2, h3, h4⟩

theorem serving_mislabelled {cfg : Config} {msg : OcMessage} {m : Message} {o : BlockOption}
    (hp : msg.parse cfg = .ok m) (hm : m.IsRequest) (hb1 : coapGetHeaderBlock1 m = none)
    (hb2 : coapGetHeaderBlock2 m = some o)
    (he : ocEndpointCompare msg.endpoint msg.endpoint = true) (hnum : o.num ≠ 0)
    (hsize : cfg.blockSize < o.size.toNat) (hmax : o.num.toNat ≤ 0xFFFFF) :
    ¬ LabelsMatch (coapReceive cfg (sampleEnv [] (by decide)) msg
      (servingState msg.endpoint m (o.num.toNat * o.size.toNat + 1))).2 := by
  have ho : o.Parsed := (OcMessage.parse_received hp).1.getBlock2 hb2
  have hpos : 0 < o.num.toNat :=
    Nat.pos_of_ne_zero fun h => hnum (UInt32.toNat_inj.mp h)
  obtain ⟨hz, hoff, hlt⟩ := blockParams_large ho hsize hmax
  have h16 := cfg.le_blockSize
  have hle := cfg.blockSize_le
  have hone : cfg.blockSize ≤ o.num.toNat * o.size.toNat :=
    hsize.le.trans (Nat.le_mul_of_pos_left _ hpos)
  obtain ⟨l, hl, e⟩ := coapReceive_opened cfg (sampleEnv [] (by decide)) hp hm rfl rfl
    (servingState_fresh msg.endpoint m (o.num.toNat * o.size.toNat + 1) _)
  have hfind := servingState_find (n := o.num.toNat * o.size.toNat + 1) he hl.responses
  have hdisp := dispatch_last (b := servingBuffer msg.endpoint m (o.num.toNat * o.size.toNat + 1)) rfl
    (show 0 < cfg.blockSize by omega) hone
  have hr : blockRefused (blockParams cfg (some o)).num (blockParams cfg (some o)).size = false :=
    block_accepted (by omega) (by omega) hmax
  have hdisp := (congrArg₂ (ocBlockwiseDispatchBlock (servingBuffer msg.endpoint m
    (o.num.toNat * o.size.toNat + 1))) hoff hz).trans hdisp
  have hfew1 := hl.few.set (q := coapSetHeaderContentFormat l.response (block2Format m))
    (n := coapOptionContentFormat) (by decide) rfl rfl rfl rfl
  obtain ⟨lr, hlr, p, source, hsrc, hin, h1, h2, h3, h4⟩ := dispatchResponse_sends cfg
    (sampleEnv [] (by decide)) msg.endpoint m
    (l := ((l.emit (.accepted msg.endpoint m)).withResponse
      (coapSetHeaderContentFormat l.response (block2Format m))).pointResponse
        (some (servingBuffer msg.endpoint m (o.num.toNat * o.size.toNat + 1))))
    hdisp hr (by rw [length_read]; omega) rfl hfew1 hl.token ⟨hl.send.status, hl.send.transaction⟩
  have hbranch : requestBranch cfg (sampleEnv [] (by decide)) msg.endpoint m
      (l.emit (.accepted msg.endpoint m)) = (lr, .sendMessage) := by
    rw [← hlr]
    unfold requestBranch
    rw [hb1, hb2]
    show block2Request cfg _ msg.endpoint m _ _ = _
    unfold block2Request
    dsimp only
    rw [show findServerResponse msg.endpoint m ((l.emit (.accepted msg.endpoint m)).withResponse
      (coapSetHeaderContentFormat _ (block2Format m))).state = _ from hfind]
    rfl
  intro hmatch
  rw [e] at hmatch
  unfold processRequest at hmatch
  rw [hbranch] at hmatch
  obtain ⟨b, hb, hlabel⟩ := (hmatch _ _ _ _ hin).1 hm h1
  obtain rfl := Option.some.inj hb
  -- one byte is left behind the offset, but the label says that there are more
  refine not_labelMatches ?_ ?_ ?_ hlabel
  · rw [h2]
    show o.num.toNat < 2^28
    omega
  · rw [h3, hz]
    exact hle
  · have hP : source.payload.length = o.num.toNat * o.size.toNat + 1 := by
      rw [hsrc, length_payload]
      rfl
    rw [h2, h3, hz, blockSize_announced, h4, length_read, hP]
    exact gap_of_large hpos hsize (by omega)

/-! ## a client -/

/-- a callback that no token leads to -/
def waitingCb (m : Message) : ClientCb where
  id := 0
  uri := []
  query := []
  endpoint := freshBuffer.endpoint
  observeSeq := 0
  method := coapPost
  mid := 0
  token := 0 :: m.token
  discovery := false
  multicast := false
  stopMulticastReceive := false

/-- a request of `n` bytes that this very response is the answer to -/
def waitingBuffer (m : Message) (n : Nat) : BlockwiseState :=
  { freshBuffer with role := .client, mid := m.mid, clientCb := some 0, payloadSize := n }

def waitingState (m : Message) (n : Nat) : State :=
  { State.init 0 with requests := [waitingBuffer m n], fresh := 1, clientCbs := [waitingCb m] }

/-- number and size of the block that a client sends next -/
def nextNum (cfg : Config) (block1 : Option BlockOption) : UInt32 :=
  if block1.isSome then (blockParams cfg block1).num + 1 else 0

def nextSize (cfg : Config) (m : Message) (block1 : Option BlockOption) : UInt16 :=
  if block1.isSome then (blockParams cfg block1).size else mtuSize cfg m

def nextOffset (cfg : Config) (block1 : Option BlockOption) : Nat :=
  if block1.isSome then
    ((blockParams cfg block1).offset.toNat + (blockParams cfg block1).size.toNat) % 2^32
  else 0

/-- the request of a client, without Size1 -/
theorem block1_packet (cfg : Config) (mid : UInt16) (more : UInt8) {payload : List UInt8}
    {num : UInt32} {size : UInt16} (hr : blockRefused num size = false)
    (hlen : payload.length ≤ cfg.blockSize) :
    let q := coapSetHeaderBlock1 (coapSetPayload cfg (coapSetHeaderUriPath
      (coapUdpInitMessage .con coapPost mid) []) payload) num more size
    FewOptions q ∧ q.token = [] ∧ coapOptionBlock1 ∈ q.options ∧ q.block1.num = num ∧
      q.block1.size = size ∧ q.payload = payload := by
  have h0 : FewOptions (coapUdpInitMessage .con coapPost mid) := ⟨rfl, rfl, rfl, fun _ _ => rfl⟩
  have h1 : FewOptions (coapSetHeaderUriPath (coapUdpInitMessage .con coapPost mid) []) :=
    h0.set (n := coapOptionUriPath) (by decide) rfl rfl rfl rfl
  have h2 := (h1.payload cfg payload).block1 num more size
  refine ⟨h2, ?_⟩
  unfold coapSetHeaderBlock1
  rw [if_neg (by rw [hr]; decide), coapSetPayload_eq cfg _ hlen]
  exact ⟨rfl, Finset.mem_insert_self _ _, rfl, rfl, rfl⟩

/-- the next block is sent with its number and size -/
theorem continueRequest_sends (cfg : Config) {env : Env} (endpoint : Endpoint) (m : Message)
    (responseMid : UInt16) (block1 : Option BlockOption) {l : Locals} {b b' : BlockwiseState}
    {payload : List UInt8}
    (hd : ocBlockwiseDispatchBlock b (nextOffset cfg block1) (nextSize cfg m block1).toNat
      = (some payload, b'))
    (hr : blockRefused (nextNum cfg block1) (nextSize cfg m block1) = false)
    (hlen : payload.length ≤ cfg.blockSize) (hcb : bufferClientCb l.state b = some (waitingCb m))
    (hg : env.transactionGranted = true) (hst : l.status = .noError) :
    ∃ lr, continueRequest cfg env endpoint m responseMid block1 l b = .jump lr .sendMessage ∧
      ∃ p source, source.payload = b'.payload ∧
        Event.sending endpoint m p (some source) ∈ (sendMessage env endpoint m lr).2 ∧
        coapOptionBlock1 ∈ p.options ∧ p.block1.num = nextNum cfg block1 ∧
        p.block1.size = nextSize cfg m block1 ∧ p.payload = payload := by
  have hpacket := fun more => block1_packet cfg responseMid more hr hlen
  unfold nextOffset nextSize at hd
  unfold continueRequest
  dsimp only
  rw [hd, hcb]
  rcases hn : coapNewTransaction env.transactionGranted responseMid endpoint l.state with ⟨_ | id, s1⟩
  · rw [(coapNewTransaction_none hn).1] at hg
    exact absurd hg (by decide)
  · obtain ⟨_, rfl, rfl⟩ := coapNewTransaction_some hn
    have hcan : ∀ (q : Message) (c : BlockwiseState), CanSend (Locals.setRequest
        ((l.withTransaction l.state.fresh { l.state with
          transactions := l.state.transactions ++ [⟨l.state.fresh, responseMid, endpoint, 0, 0, []⟩]
          fresh := l.state.fresh + 1 }).withBlock q c) c) := by
      intro q c
      refine ⟨hst, ⟨l.state.fresh, responseMid, endpoint, 0, 0, []⟩, ?_, rfl⟩
      exact List.mem_append_right _ (List.mem_singleton_self _)
    obtain ⟨hfew, htok, h1, h2, h3, h4⟩ :=
      hpacket (if b'.nextBlockOffset < b'.payloadSize then 1 else 0)
    cases block1 with
    | some o =>
      refine ⟨_, rfl, ?_⟩
      obtain ⟨p, ⟨token, rfl⟩, hin⟩ := FewOptions.sending env endpoint m hfew htok
        (hcan _ { b' with mid := responseMid })
      exact ⟨_, { b' with mid := responseMid }, rfl, hin, h1, h2, h3, h4⟩
    | none =>
      refine ⟨_, rfl, ?_⟩
      have hfew2 := hfew.set (n := coapOptionSize1) (q := coapSetHeaderSize1 _
        (UInt32.ofNat b'.payloadSize)) (by decide) rfl rfl rfl rfl
      obtain ⟨p, ⟨token, rfl⟩, hin⟩ := FewOptions.sending env endpoint m hfew2 htok
        (hcan _ { b' with refCount := 1, mid := responseMid })
      exact ⟨_, { b' with refCount := 1, mid := responseMid }, rfl, hin,
        Finset.mem_insert_of_mem h1, h2, h3, h4⟩

theorem waitingCb_unknown (m : Message) {s : State} (hs : s.clientCbs = [waitingCb m]) :
    ocRiFindClientCbByToken s m.token = none := by
  unfold ocRiFindClientCbByToken
  rw [hs, List.find?_eq_none]
  intro cb hcb
  rw [List.mem_singleton.mp hcb]
  simp [waitingCb]

theorem waitingBuffer_found (m : Message) (n : Nat) {bs : List BlockwiseState}
    (hb : bs = [waitingBuffer m n]) (endpoint : Endpoint) :
    clientBuffer endpoint m bs none = some (waitingBuffer m n) := by
  unfold clientBuffer ocBlockwiseFindBufferByMid
  rw [hb]
  simp [waitingBuffer]

/-- the client goes on with its request -/
theorem waiting_sends (cfg : Config) (env : Env) {msg : OcMessage} {m : Message} (n : Nat)
    (hp : msg.parse cfg = .ok m) (hm : ¬ m.IsRequest) {b' : BlockwiseState} {payload : List UInt8}
    (hcode : (coapGetHeaderBlock1 m).isSome ∨ m.code = requestEntityTooLarge413)
    (hd : ocBlockwiseDispatchBlock (waitingBuffer m n) (nextOffset cfg (coapGetHeaderBlock1 m))
      (nextSize cfg m (coapGetHeaderBlock1 m)).toNat = (some payload, b'))
    (hr : blockRefused (nextNum cfg (coapGetHeaderBlock1 m))
      (nextSize cfg m (coapGetHeaderBlock1 m)) = false)
    (hlen : payload.length ≤ cfg.blockSize) (hg : env.transactionGranted = true) :
    ∃ p source, source.payload = b'.payload ∧
      Event.sending msg.endpoint m p (some source) ∈ (coapReceive cfg env msg (waitingState m n)).2 ∧
      coapOptionBlock1 ∈ p.options ∧ p.block1.num = nextNum cfg (coapGetHeaderBlock1 m) ∧
      p.block1.size = nextSize cfg m (coapGetHeaderBlock1 m) ∧ p.payload = payload := by
  have hcancel : cancelTransaction msg.endpoint m (waitingState m n) = waitingState m n := by
    unfold cancelTransaction
    split <;> rfl
  unfold coapReceive
  rw [hp]
  dsimp only
  unfold receiveMessage
  dsimp only
  rw [if_neg (show ¬ (coapGet ≤ m.code ∧ m.code ≤ coapDelete) from hm), hcancel]
  generalize (if coapCheckSignalMessage m = true then _ else _ : List Event) = events
  unfold receiveResponse coapGetMid
  dsimp only
  have hcb : (if m.type ≠ .rst then ocRiFindClientCbByToken
      { waitingState m n with currentMid := (waitingState m n).currentMid + 1 } m.token else none)
        = none := by
    split
    · exact waitingCb_unknown m rfl
    · rfl
  rw [hcb]
  generalize (waitingState m n).currentMid + 1 = mid
  generalize hs : (if m.type = .rst then
      dropObservers env.gone { waitingState m n with currentMid := mid }
    else { waitingState m n with currentMid := mid }) = s
  have hreq : s.requests = [waitingBuffer m n] := by
    rw [← hs]
    split <;> rfl
  have hcbs : s.clientCbs = [waitingCb m] := by
    rw [← hs]
    split <;> rfl
  have hbcb : bufferClientCb s (waitingBuffer m n) = some (waitingCb m) := by
    unfold bufferClientCb
    rw [hcbs]
    rfl
  generalize (if m.type = .con then _ else _ : List Event) = events'
  obtain ⟨lr, hlr, hsends⟩ := continueRequest_sends cfg msg.endpoint m mid (coapGetHeaderBlock1 m)
    (l := (requestLocals (coapUdpInitMessage .con 0 0) none s events').pointRequest
      (some (waitingBuffer m n))) hd hr hlen hbcb hg rfl
  unfold clientExchange clientRequest
  dsimp only
  rw [waitingBuffer_found m n (show (requestLocals _ none s events').state.requests = _ from hreq)]
  dsimp only
  rw [if_pos hcode, hlr]
  exact hsends

/-- a client that is told to go on in larger blocks than it sends -/
theorem waiting_mislabelled {cfg : Config} {msg : OcMessage} {m : Message} {o : BlockOption}
    (hp : msg.parse cfg = .ok m) (hm : ¬ m.IsRequest) (hb1 : coapGetHeaderBlock1 m = some o)
    (hnum : o.num ≠ 0) (hsize : cfg.blockSize < o.size.toNat) (hmax : o.num.toNat + 1 ≤ 0xFFFFF) :
    ¬ LabelsMatch (coapReceive cfg (sampleEnv [] (by decide)) msg
      (waitingState m (o.num.toNat * o.size.toNat + cfg.blockSize + 1))).2 := by
  have ho : o.Parsed := (OcMessage.parse_received hp).1.getBlock1 hb1
  have hpos : 0 < o.num.toNat :=
    Nat.pos_of_ne_zero fun h => hnum (UInt32.toNat_inj.mp h)
  obtain ⟨hz, hoff, hlt⟩ := blockParams_large ho hsize (by omega)
  have h16 := cfg.le_blockSize
  have hle := cfg.blockSize_le
  have hnext : (o.num + 1).toNat = o.num.toNat + 1 := by
    rw [UInt32.toNat_add]
    show (o.num.toNat + 1) % 2^32 = _
    omega
  have hN : nextNum cfg (some o) = o.num + 1 := rfl
  have hS : nextSize cfg m (some o) = (blockParams cfg (some o)).size := rfl
  have hO : nextOffset cfg (some o) = o.num.toNat * o.size.toNat + cfg.blockSize := by
    show ((blockParams cfg (some o)).offset.toNat + (blockParams cfg (some o)).size.toNat) % 2^32 = _
    rw [hoff, hz, Nat.mod_eq_of_lt (by omega)]
  have hr : blockRefused (nextNum cfg (some o)) (nextSize cfg m (some o)) = false := by
    rw [hN, hS]
    exact block_accepted (by omega) (by omega) (by omega)
  have hdisp := (congrArg₂ (ocBlockwiseDispatchBlock (waitingBuffer m (o.num.toNat * o.size.toNat +
    cfg.blockSize + 1))) hO ((congrArg UInt16.toNat hS).trans hz)).trans
      (dispatch_last rfl (by omega) (Nat.le_add_left _ _))
  intro hmatch
  obtain ⟨p, source, hsrc, hin, h1, h2, h3, h4⟩ := waiting_sends cfg (sampleEnv [] (by decide))
    (o.num.toNat * o.size.toNat + cfg.blockSize + 1) hp hm (Or.inl (by rw [hb1]; rfl))
    (by rw [hb1]; exact hdisp) (by rw [hb1]; exact hr) (by rw [length_read]; omega) rfl
  obtain ⟨b, hb, hlabel⟩ := (hmatch _ _ _ _ hin).2 hm h1
  obtain rfl := Option.some.inj hb
  rw [hb1, hN] at h2
  rw [hb1, hS] at h3
  refine not_labelMatches ?_ ?_ ?_ hlabel
  · rw [h2]
    omega
  · rw [h3, hz]
    exact hle
  · have hP : source.payload.length = o.num.toNat * o.size.toNat + cfg.blockSize + 1 := by
      rw [hsrc, length_payload]
      rfl
    have hgap := gap_of_large hpos hsize (by omega)
    rw [h2, hnext, h3, hz, blockSize_announced, h4, length_read, hP, Nat.succ_mul]
    omega

/-- a client that is told a size that no Block option can express -/
theorem waiting_mislabelled_size1 {cfg : Config} {msg : OcMessage} {m : Message}
    (hp : msg.parse cfg = .ok m) (hm : ¬ m.IsRequest) (hb1 : coapGetHeaderBlock1 m = none)
    (hcode : m.code = requestEntityTooLarge413) (h16 : 16 ≤ (mtuSize cfg m).toNat)
    (hpow : ∀ e, (mtuSize cfg m).toNat ≠ 2^e) :
    ¬ LabelsMatch (coapReceive cfg (sampleEnv [] (by decide)) msg
      (waitingState m (mtuSize cfg m).toNat)).2 := by
  have hle := mtuSize_le cfg m
  have hbs := cfg.blockSize_le
  have hr : blockRefused (nextNum cfg none) (nextSize cfg m none) = false :=
    block_accepted h16 (hle.trans hbs) (Nat.zero_le _)
  have hdisp : ocBlockwiseDispatchBlock (waitingBuffer m (mtuSize cfg m).toNat) (nextOffset cfg none)
      (nextSize cfg m none).toNat = (some (read freshBuffer.buffer 0 (mtuSize cfg m).toNat),
        { waitingBuffer m (mtuSize cfg m).toNat with
          nextBlockOffset := (0 + (mtuSize cfg m).toNat) % 2^32 }) := by
    show ocBlockwiseDispatchBlock (waitingBuffer m (mtuSize cfg m).toNat) 0 (mtuSize cfg m).toNat = _
    unfold ocBlockwiseDispatchBlock waitingBuffer
    dsimp only
    rw [if_pos (by omega), if_neg (lt_irrefl _), Nat.sub_zero, Nat.min_self]
  intro hmatch
  obtain ⟨p, source, hsrc, hin, h1, h2, h3, h4⟩ := waiting_sends cfg (sampleEnv [] (by decide))
    (mtuSize cfg m).toNat hp hm (Or.inr hcode) (by rw [hb1]; exact hdisp) (by rw [hb1]; exact hr)
    (by rw [length_read]; exact hle) rfl
  obtain ⟨b, hb, hlabel⟩ := (hmatch _ _ _ _ hin).2 hm h1
  obtain rfl := Option.some.inj hb
  rw [hb1] at h2 h3
  have h3 : p.block1.size = mtuSize cfg m := h3
  -- the size is rounded down
  have hlt : 16 * 2^szx (mtuSize cfg m).toNat < (mtuSize cfg m).toNat := by
    refine lt_of_le_of_ne (szx_le h16) fun h => hpow (4 + szx (mtuSize cfg m).toNat) ?_
    rw [Nat.pow_add]
    exact h.symm
  refine not_labelMatches ?_ ?_ ?_ hlabel
  · rw [h2]
    show 0 < 2^28
    decide
  · rw [h3]
    omega
  · rw [h3, h4, length_read]
    omega

/-! ## the main result -/

theorem labelsMatch_of_silent {es : List Event} (h : ∀ e ∈ es, e.Silent) : LabelsMatch es :=
  fun _ _ _ _ hin => (h _ hin).elim

theorem labelsMatch_of_labelable {cfg : Config} {msg : OcMessage} {m : Message}
    (hp : msg.parse cfg = .ok m) (h : Labelable cfg msg.endpoint m) (env : Env) {s : State}
    (hs : s.Fits) : LabelsMatch (coapReceive cfg env msg s).2 := by
  have hg := (OcMessage.parse_received hp).1
  by_cases hm : m.IsRequest
  · rcases coapReceive_cases cfg env msg s with ⟨m', l, hp', _, ha, hrun⟩ | ⟨_, hsilent⟩
    · obtain rfl : m = m' := Except.ok.inj (hp.symm.trans hp')
      rw [hrun env rfl]
      refine processRequest_labels hg hm (h.1 hm) ?_ ha.response ha.events
      rw [ha.responses]
      exact hs.2
    · exact labelsMatch_of_silent (hsilent m hp hm)
  · have hfits : (cancelTransaction msg.endpoint m s).Fits := by
      unfold State.Fits
      rw [cancelTransaction_buffers]
      exact hs
    unfold coapReceive
    rw [hp]
    dsimp only
    unfold receiveMessage
    dsimp only
    rw [if_neg (show ¬ (coapGet ≤ m.code ∧ m.code ≤ coapDelete) from hm)]
    refine receiveResponse_labels hg hm (h.2 hm) hfits fun e he => ?_
    split at he
    · exact handleCoapSignalMessage_silent _ _ _ _ e he
    · exact absurd he List.not_mem_nil

theorem servingState_fits (endpoint : Endpoint) (m : Message) {n : Nat} (h : n < 2^32) :
    (servingState endpoint m n).Fits := by
  refine ⟨fun b hb => absurd hb List.not_mem_nil, fun b hb => ?_⟩
  rw [List.mem_singleton.mp hb]
  exact h

theorem waitingState_fits (m : Message) {n : Nat} (h : n < 2^32) : (waitingState m n).Fits := by
  refine ⟨fun b hb => ?_, fun b hb => absurd hb List.not_mem_nil⟩
  rw [List.mem_singleton.mp hb]
  exact h

theorem labelable_of_labelsMatch {cfg : Config} {msg : OcMessage} {m : Message}
    (hp : msg.parse cfg = .ok m)
    (h : ∀ env s, s.Fits → LabelsMatch (coapReceive cfg env msg s).2) :
    Labelable cfg msg.endpoint m := by
  have hg := (OcMessage.parse_received hp).1
  have hbs := cfg.blockSize_le
  refine ⟨fun hm => ?_, fun hm => ?_⟩
  · unfold ServerLabelable
    split
    · rename_i o hb1 hb2
      by_contra hcon
      simp only [not_or, Bool.not_eq_false, not_le, not_lt] at hcon
      obtain ⟨he, hnum, hsize, hmax⟩ := hcon
      obtain ⟨_, _, hlt⟩ := blockParams_large (hg.getBlock2 hb2) hsize hmax
      exact serving_mislabelled hp hm hb1 hb2 he hnum hsize hmax
        (h _ _ (servingState_fits _ m (by omega)))
    · trivial
  · unfold ClientLabelable
    split
    · rename_i o hb1
      by_contra hcon
      simp only [not_or, not_le, not_lt] at hcon
      obtain ⟨hnum, hsize, hmax⟩ := hcon
      obtain ⟨_, _, hlt⟩ := blockParams_large (hg.getBlock1 hb1) hsize (by omega)
      exact waiting_mislabelled hp hm hb1 hnum hsize hmax
        (h _ _ (waitingState_fits m (by omega)))
    · rename_i hb1
      intro hcode
      by_contra hcon
      simp only [not_or, not_lt, not_exists] at hcon
      have hle := mtuSize_le cfg m
      exact waiting_mislabelled_size1 hp hm hb1 hcode hcon.1 hcon.2
        (h _ _ (waitingState_fits m (by omega)))

/-- **Labels.**  Whatever the state is, every block that is sent in answer to a message is the one its
label says, if and only if number and size of the message are `Labelable`. -/
theorem labelsMatch_iff (cfg : Config) (msg : OcMessage) (m : Message)
    (hp : msg.parse cfg = .ok m) :
    (∀ env s, s.Fits → LabelsMatch (coapReceive cfg env msg s).2) ↔
      Labelable cfg msg.endpoint m :=
  ⟨labelable_of_labelsMatch hp, fun h env _ hs => labelsMatch_of_labelable hp h env hs⟩

/-- `OC_BLOCK_SIZE` of 16 bytes -/
def smallConfig : Config := ⟨16, 8192, 4, by decide, by decide, rfl⟩

/-- GET `a` -/
def firstGet : OcMessage := sampleMessage 1 [0x40, 0x01, 0x00, 0x01, 0xB1, 0x61]

/-- GET `a` with Block2: block `1` of 16 bytes -/
def nextGet : OcMessage := sampleMessage 1 [0x40, 0x01, 0x00, 0x02, 0xB1, 0x61, 0xC1, 0x10]

/-- GET `a` with Block2: block `1` of 32 bytes -/
def largeGet : OcMessage := sampleMessage 1 [0x40, 0x01, 0x00, 0x02, 0xB1, 0x61, 0xC1, 0x11]

theorem labelsMatch_nextGet : ∃ m o, nextGet.parse smallConfig = .ok m ∧
    coapGetHeaderBlock2 m = some o ∧ o.num = 1 ∧
    ∀ env s, s.Fits → LabelsMatch (coapReceive smallConfig env nextGet s).2 := by
  refine ⟨_, _, rfl, rfl, rfl, ?_⟩
  refine (labelsMatch_iff smallConfig nextGet _ rfl).mpr ⟨fun _ => ?_, fun h => ?_⟩
  · exact Or.inr (Or.inr (Or.inl (by decide)))
  · exact absurd ⟨by decide, by decide⟩ h

/-- the first block of 40 bytes has been served -/
def getStarted : State × List Event :=
  step smallConfig (.receive (sampleEnv (List.replicate 40 7) (by decide)) firstGet) (State.init 0)

theorem getStarted_responses : ∃ b, getStarted.1.responses = [b] ∧ b.payloadSize = 40 :=
  ⟨_, rfl, rfl⟩

theorem largeGet_sending : ∃ m p b, Event.sending largeGet.endpoint m p (some b) ∈
    (coapReceive smallConfig (sampleEnv [] (by decide)) largeGet getStarted.1).2 ∧
      m.IsRequest ∧ isOption p coapOptionBlock2 = true ∧ p.block2.num = 1 ∧ p.block2.size = 16 ∧
      p.payload.length = 8 ∧ b.payloadSize = 40 :=
  ⟨_, _, _, List.mem_of_getElem? (i := 1) rfl, ⟨by decide, by decide⟩, rfl, rfl, rfl, rfl, rfl⟩

/-- With `OC_BLOCK_SIZE` 16, block `1` of 32 bytes of a representation of 40 bytes is answered with
the last eight bytes, labelled as block `1` of 16 bytes. -/
theorem not_labelsMatch :
    Run smallConfig (fun _ _ => True) getStarted.1 getStarted.2 ∧ getStarted.1.Fits ∧
      ¬ LabelsMatch (coapReceive smallConfig (sampleEnv [] (by decide)) largeGet getStarted.1).2 := by
  refine ⟨Run.step _ (Run.init 0) trivial, ⟨fun b hb => absurd hb List.not_mem_nil, fun b hb => ?_⟩,
    fun h => ?_⟩
  · obtain ⟨b0, h1, h2⟩ := getStarted_responses
    rw [h1] at hb
    rw [List.mem_singleton.mp hb, h2]
    decide
  · obtain ⟨m, p, b, hin, hm, hopt, hnum, hsize, hlen, hb⟩ := largeGet_sending
    obtain ⟨b', hb', hlabel⟩ := (h _ _ _ _ hin).1 hm (of_decide_eq_true hopt)
    obtain rfl := Option.some.inj hb'
    refine not_labelMatches ?_ ?_ ?_ hlabel
    · rw [hnum]
      decide
    · rw [hsize]
      decide
    · rw [hnum, hsize, hlen, length_payload, hb]
      decide

end Coap
