import Iotivity.Engine.Polling
import Iotivity.Engine.Respond
import Iotivity.Lib.History

/-!
# What observers have been told last

A representation that is too long for one packet is told by blocks: the first one is the
notification, and the client gets the rest from a response buffer.  While there is such a buffer
for its resource and endpoint, an observer is skipped.

* `conveyed`       the representation that a notification lets its observer have;
* `Pass`           a pass of a loop through the observers, for a resource and a representation;
* `Bulletin`       a server, with everything that observers have been told and the passes so far;
* `Pass.Skips`     an observer that a pass finds a buffer for;
* `told_latest_run`  in every run, the observers that the latest pass for their resource does not
                   skip have been told its representation last.
-/

namespace Coap
open Memory Keyed History

/-- an observer by what requests know it by -/
structure Mark where
  resource : Nat
  endpoint : Endpoint
  url : List UInt8
  token : List UInt8
deriving DecidableEq

def Observer.mark (o : Observer) : Mark := ⟨o.resource, o.endpoint, o.url, o.token⟩

/-- the key of the response buffer with the blocks for an observer -/
def Site.lookup (site : Site) (resource : Nat) (endpoint : Endpoint) : Lookup where
  href := (site.uri resource).drop 1
  endpoint
  method := coapGet
  query := []
  role := .server

/-- What a notification lets its observer have.  One with Size2 is the first block of a
representation, and the requests for the other blocks find the rest in a response buffer. -/
def conveyed (site : Site) (m : Mark) (packet : Message) (s : Buffers) : Representation where
  code := packet.code.toNat
  body :=
    if isOption packet coapOptionSize2 then
      (((site.lookup m.resource m.endpoint).findResponse s).map BlockwiseState.payload).getD []
    else packet.payload

structure Told where
  observer : Mark
  representation : Representation

def Notice.told (site : Site) (list : List Observer) (s : Buffers) (n : Notice) : Option Told :=
  match list[n.place]?, n.outcome with
  | some o, .sent packet => some ⟨o.mark, conveyed site o.mark packet s⟩
  | _, _ => none

/-- what observers have been told when a loop has come to its end -/
def Progress.told (site : Site) (p : Progress) : List Told :=
  p.notices.filterMap (Notice.told site p.server.list p.server.engine.toBuffers)

/-! ## passes -/

/-- a pass through `observers_list` to send a representation to the observers of a resource;
`server` is where it begins -/
structure Pass where
  resource : Nat
  representation : Representation
  server : Server
  env : Nat → Env

section
variable (cfg : Config) (site : Site)

/-- the rounds of a pass -/
def Pass.run (P : Pass) (format : Endpoint → UInt16) (p : Progress) : Progress :=
  notifyEach (fun o => o.resource == P.resource)
    (fun k place o =>
      notifyObserver cfg site (P.env k) (format o.endpoint) P.representation place o) p

/-- the pass of `coap_notify_observers` -/
def ownPass (supply : Supply) (resource : Nat) (get : Answer) (s : Server) : Option Pass :=
  if s.numObservers resource = 0 ∨ supply.buffer = false then none
  else
    match get with
    | .ignore => none
    | .representation r => some ⟨resource, r, s, supply.env⟩
    | .separate _ r => if r.code = content205.toNat then none else some ⟨resource, r, s, supply.env⟩

/-- the passes of `coap_notify_collections`: one for each round of its outer loop -/
def linkedPasses (supply : Supply) (batch : Nat → Representation) (resource : Nat) :
    Nat → List Nat → Progress → List Pass
  | 0, _, _ => []
  | _, [], _ => []
  | fuel + 1, c :: l, p =>
    if p.left ∨ p.server.numObservers c = 0 then []
    else
      let P : Pass := ⟨c, batch c, p.server, supply.env⟩
      P :: linkedPasses supply batch resource fuel
        (ocGetNextCollectionWithLink site resource (c :: l))
        (P.run cfg site (fun _ => applicationVndOcfCbor) p)

/-- the passes of a call, one after another -/
def callPasses (supply linked : Supply) (get : Answer) (batch : Nat → Representation)
    (resource : Nat) (s : Server) : List Pass :=
  let own := (coapNotifyObservers cfg site supply linked get batch resource none none s).2.1
  (ownPass supply resource get s).toList ++
    if site.numLinks resource = 0 ∨ linked.buffer = false then []
    else
      linkedPasses cfg site linked batch resource site.collections.length
        (ocGetNextCollectionWithLink site resource []) (.start own.server)

end

/-! ## runs -/

/-- a server, what its observers have been told, and the passes that there were -/
structure Bulletin where
  server : Server
  log : List Told
  passes : List Pass

/-- * `notify`     `coap_notify_observers(resource, NULL, NULL)`;
* `engine`     a message comes in, a timer expires, or a transaction of another module;
* `observers`  an observer is registered or removed;
* `handles`    what the application does to its handles. -/
inductive BulletinStep where
  | notify (supply linked : Supply) (get : Answer) (batch : Nat → Representation) (resource : Nat)
  | engine (st : Step)
  | observers (op : ObserveOp)
  | handles (handles : Nat → SeparateResponse)

def Server.withObservers (x : Observers) (s : Server) : Server :=
  { s with
    engine := s.engine.withBuffers fun _ => x.buffers
    list := x.list
    numObservers := x.numObservers
    observeCounter := x.observeCounter }

def Bulletin.step (cfg : Config) (site : Site) (st : BulletinStep) (b : Bulletin) : Bulletin :=
  match st with
  | .notify supply linked get batch resource =>
    let x := coapNotifyObservers cfg site supply linked get batch resource none none b.server
    { server := x.2.2.server
      log := b.log ++ (x.2.1.told site ++ x.2.2.told site)
      passes := b.passes ++ callPasses cfg site supply linked get batch resource b.server }
  | .engine st =>
    { b with server := { b.server with engine := (Coap.step cfg st b.server.engine).1 } }
  | .observers op =>
    { b with server := b.server.withObservers (op.apply site.uri b.server.observers) }
  | .handles handles => { b with server := { b.server with handles } }

/-- start-up -/
def Bulletin.init (currentMid : UInt16) (handles : Nat → SeparateResponse) : Bulletin :=
  ⟨⟨State.init currentMid, [], fun _ => 0, 3, handles⟩, [], []⟩

inductive BulletinRun (cfg : Config) (site : Site) : Bulletin → Prop where
  | init (currentMid : UInt16) (handles : Nat → SeparateResponse) :
      BulletinRun cfg site (.init currentMid handles)
  | step {b : Bulletin} (st : BulletinStep) (h : BulletinRun cfg site b) :
      BulletinRun cfg site (b.step cfg site st)

/-- the latest pass for a resource -/
def Bulletin.latest (b : Bulletin) (resource : Nat) : Option Pass :=
  lastOf Pass.resource resource b.passes

/-- the representation that an observer has been told last -/
def Bulletin.lastTold (b : Bulletin) (o : Observer) : Option Representation :=
  (lastOf Told.observer o.mark b.log).map Told.representation

/-! ## the conditions -/

/-- the representation does not fit into one packet to the observer -/
def Observer.Long (body : List UInt8) (o : Observer) : Prop :=
  o.endpoint.flags.tcp = false ∧ o.block2Size.toNat < body.length

instance (body : List UInt8) (o : Observer) : Decidable (o.Long body) :=
  inferInstanceAs (Decidable (_ ∧ _))

/-- The observer has to be served by blocks, and there is a response buffer in the way: it was there
before the pass, or it comes from a round for another observer at the endpoint. -/
def Pass.Skips (site : Site) (P : Pass) (i : Nat) (o : Observer) : Prop :=
  o.Long P.representation.body ∧
    ((site.lookup o.resource o.endpoint).findResponse P.server.engine.toBuffers ≠ none ∨
      ∃ a ∈ P.server.list.take i, a.resource = o.resource ∧ a.Long P.representation.body ∧
        ocEndpointCompare a.endpoint o.endpoint = true)

/-- as registrations make observers: of an IP endpoint, and with blocks that fit into a packet -/
structure Observer.Regular (cfg : Config) (o : Observer) : Prop where
  host : ocEndpointCompare o.endpoint o.endpoint = true
  block : o.block2Size.toNat ≤ cfg.blockSize

/-- The pass gets what it asks for, and has a representation from a handler: its code is a status
code, and its length one of 16 bits. -/
structure Pass.Supplied (cfg : Config) (site : Site) (P : Pass) : Prop where
  transaction : ∀ k, (P.env k).transactionGranted = true
  alloc : ∀ k, (P.env k).responseAlloc.granted = true
  path : (site.uri P.resource).drop 1 ≠ []
  code : ∃ status, P.representation.code = ocStatusCode status
  length : P.representation.body.length < 2^16
  regular : ∀ o ∈ P.server.list, o.resource = P.resource → o.Regular cfg

/-! ## the first block -/

/-- a response buffer with a representation, under a key -/
structure BlocksFor (r : Lookup) (body : List UInt8) (b : BlockwiseState) : Prop where
  href : b.href = r.href
  endpoint : b.endpoint = r.endpoint
  method : b.method = r.method
  role : b.role = r.role
  query : b.uriQuery = []
  payload : b.payload = body

section
variable {cfg : Config} {site : Site} {env : Env} {body : List UInt8}

/-- the packet and the buffer of a first block -/
theorem openBlocks_opened {r : Lookup} (hr : r.role = .server) {s s' : Buffers}
    (hd : Distinct BlockwiseState.id s.fresh s.responses) {block2Size : UInt16} {packet p : Message}
    (h : openBlocks cfg env r.href r.endpoint r.method block2Size body packet s = .opened p s') :
    (∃ b, BlocksFor r body b ∧ b.id = s.fresh ∧
      s' = { s with responses := s.responses ++ [b], fresh := s.fresh + 1 }) ∧
      (0 < body.length → isOption p coapOptionSize2 = true) := by
  unfold openBlocks ocBlockwiseAllocResponseBuffer at h
  split at h
  · cases h
  · cases hi : ocBlockwiseInitBuffer env.responseAlloc s.fresh r.href r.endpoint r.method
      .server with
    | none =>
      rw [hi] at h
      cases h
    | some b =>
      obtain ⟨_, _, rfl⟩ := ocBlockwiseInitBuffer_some hi
      rw [hi] at h
      dsimp only at h
      obtain ⟨rfl, rfl⟩ := Opening.opened.inj h
      have hpayload : read (write env.responseAlloc.mem 0 body) 0 body.length = body :=
        read_write_self _ _ _
      -- the store goes to the buffer that has just been made, at the end of the list
      have hstored : ∀ y z : BlockwiseState, y.id = s.fresh → z.id = s.fresh →
          BlocksFor r body z → ∃ b, BlocksFor r body b ∧ b.id = s.fresh ∧
            Buffers.putResponse { s with responses := s.responses ++ [y], fresh := s.fresh + 1 } z =
              { s with responses := s.responses ++ [b], fresh := s.fresh + 1 } := by
        intro y z hy hz hb
        refine ⟨z, hb, hz, ?_⟩
        unfold Buffers.putResponse
        rw [put_snoc (fun x hx => ?_) (hy.trans hz.symm)]
        rw [hz]
        exact Nat.ne_of_lt (hd.lt x hx)
      unfold ocBlockwiseDispatchBlock
      by_cases hbody : 0 < body.length
      · rw [if_pos hbody]
        refine ⟨hstored _ _ rfl rfl ⟨rfl, rfl, rfl, hr.symm, rfl, hpayload⟩, fun _ => ?_⟩
        simp [isOption, coapSetHeaderEtag, coapSetHeaderSize2, setOption]
      · rw [if_neg hbody]
        exact ⟨hstored _ _ rfl rfl ⟨rfl, rfl, rfl, hr.symm, rfl, hpayload⟩,
          fun h => absurd h hbody⟩

/-! ## what a round leaves alone -/

/-- response buffers are only added, at the end -/
def Grew (s s' : State) : Prop := s.WF → s'.WF ∧ s.responses <+: s'.responses

theorem Grew.refl (s : State) : Grew s s := fun h => ⟨h, List.prefix_rfl⟩

theorem Grew.trans {s s' s'' : State} (h : Grew s s') (h' : Grew s' s'') : Grew s s'' := by
  intro hs
  obtain ⟨h1, h2⟩ := h hs
  obtain ⟨h3, h4⟩ := h' h1
  exact ⟨h3, h2.trans h4⟩

/-- a new transaction has not been sent too often, so sending it leaves the buffers -/
theorem sendSerialized_kept (env : Env) (id : Nat) (mid : UInt16) (endpoint : Endpoint)
    (packet : Message) (s : State) :
    (s.WF → (sendSerialized env id mid endpoint packet s).2.1.WF) ∧
      (sendSerialized env id mid endpoint packet s).2.1.toBuffers = s.toBuffers := by
  unfold sendSerialized
  dsimp only
  split
  · exact ⟨(settles_clearTransaction id s).wf, rfl⟩
  · refine ⟨(settles_putSend env.initialInterval env.gone s rfl).wf, ?_⟩
    unfold coapSendTransaction
    dsimp only
    split
    · rw [if_pos (by decide)]
      rfl
    · rfl

theorem sendNotification_kept (env : Env) (place : Nat) (o : Observer) (counted : Bool)
    (packet : Message) (s : Server) :
    (s.engine.WF → (sendNotification env place o counted packet s).2.1.engine.WF) ∧
      (sendNotification env place o counted packet s).2.1.engine.responses =
        s.engine.responses := by
  unfold sendNotification coapGetMid
  dsimp only
  have hmid : s.engine.WF → { s.engine with currentMid := s.engine.currentMid + 1 }.WF :=
    fun h => ⟨h.requests, h.responses, h.transactions⟩
  split
  · rename_i hn
    obtain ⟨_, rfl⟩ := coapNewTransaction_none hn
    exact ⟨hmid, rfl⟩
  · rename_i id t hn
    obtain ⟨hwf, hbuffers⟩ := sendSerialized_kept env id (s.engine.currentMid + 1) o.endpoint
      { packet with mid := s.engine.currentMid + 1 } t
    refine ⟨fun h => hwf ((settles_newTransaction none hn).wf (hmid h)), ?_⟩
    refine (congrArg Buffers.responses hbuffers).trans ?_
    obtain ⟨_, _, rfl⟩ := coapNewTransaction_some hn
    rfl

theorem State.WF.opened {s : State} (h : s.WF) {b : BlockwiseState} (hb : b.id = s.fresh) :
    (s.withBuffers fun s => { s with responses := s.responses ++ [b], fresh := s.fresh + 1 }).WF :=
  ⟨h.requests.mono (Nat.le_succ _), h.responses.snoc hb, h.transactions.mono (Nat.le_succ _)⟩

/-- the packet of a notification before it gets its payload -/
structure Blank (o : Observer) (packet : Message) : Prop where
  options : ReplyOptions packet
  size2 : isOption packet coapOptionSize2 = false
  transport : packet.transportType = if o.endpoint.flags.tcp then .tcp else .udp

/-- a representation that is too long, and one that is not -/
theorem notificationPayload_cases (cfg : Config) (site : Site) (env : Env) (o : Observer)
    (body : List UInt8) (s : Buffers) :
    ∃ packet, Blank o packet ∧ notificationPayload cfg site env o body s =
      if o.Long body then
        openBlocks cfg env (site.lookup o.resource o.endpoint).href o.endpoint coapGet o.block2Size
          body packet s
      else .opened (coapSetPayload cfg packet body) s := by
  have hudp : ∀ type, ReplyOptions (coapUdpInitMessage type content205 0) :=
    fun _ => ⟨rfl, Nat.zero_le _, fun _ _ => rfl⟩
  have htcp : ReplyOptions (coapTcpInitMessage content205) := ⟨rfl, Nat.zero_le _, fun _ _ => rfl⟩
  unfold notificationPayload
  dsimp only
  cases ht : o.endpoint.flags.tcp with
  | true =>
    have hl : ¬ o.Long body := fun h => absurd h.1 (by simp [ht])
    refine ⟨coapTcpInitMessage content205, ⟨htcp, rfl, by rw [ht]; rfl⟩, ?_⟩
    rw [if_neg hl]
    rfl
  | false =>
    by_cases hl : o.Long body
    · refine ⟨coapUdpInitMessage .con content205 0, ⟨hudp _, rfl, by rw [ht]; rfl⟩, ?_⟩
      rw [if_pos hl, if_pos ⟨rfl, hl.2⟩]
      rfl
    · have hn : ¬ (false = false ∧ o.block2Size.toNat < body.length) := fun h => hl ⟨ht, h.2⟩
      by_cases hr : o.refreshes = true
      · refine ⟨coapUdpInitMessage .con content205 0, ⟨hudp _, rfl, by rw [ht]; rfl⟩, ?_⟩
        rw [if_neg hl, if_neg hn, if_pos ⟨rfl, hr⟩]
        rfl
      · refine ⟨coapUdpInitMessage .non content205 0, ⟨hudp _, rfl, by rw [ht]; rfl⟩, ?_⟩
        rw [if_neg hl, if_neg hn, if_neg fun h => hr h.2]
        rfl

/-- the packet and the buffers of a notification -/
theorem notificationPayload_opened {o : Observer} {s s' : Buffers} {p : Message}
    (hd : Distinct BlockwiseState.id s.fresh s.responses)
    (h : notificationPayload cfg site env o body s = .opened p s') :
    (¬ o.Long body ∧ s' = s) ∨
      o.Long body ∧ isOption p coapOptionSize2 = true ∧
        ∃ b, BlocksFor (site.lookup o.resource o.endpoint) body b ∧ b.id = s.fresh ∧
          s' = { s with responses := s.responses ++ [b], fresh := s.fresh + 1 } := by
  obtain ⟨packet, _, hn⟩ := notificationPayload_cases cfg site env o body s
  rw [hn] at h
  by_cases hl : o.Long body
  · rw [if_pos hl] at h
    obtain ⟨hb, hsize⟩ := openBlocks_opened (r := site.lookup o.resource o.endpoint) rfl hd h
    exact Or.inr ⟨hl, hsize (Nat.zero_lt_of_lt hl.2), hb⟩
  · rw [if_neg hl] at h
    obtain ⟨_, rfl⟩ := Opening.opened.inj h
    exact Or.inl ⟨hl, rfl⟩

variable (cfg site env) in
theorem notifyObserver_grew (format : UInt16) (r : Representation) (place : Nat) (o : Observer)
    (s : Server) : Grew s.engine (notifyObserver cfg site env format r place o s).2.1.engine := by
  intro hs
  unfold notifyObserver
  split
  · exact ⟨hs, List.prefix_rfl⟩
  · exact ⟨hs, List.prefix_rfl⟩
  · rename_i p buffers hp
    obtain ⟨hwf, hresponses⟩ := sendNotification_kept env place o
      (finishNotification format r.code (s.numObservers o.resource ≠ 0) o p).1
      (finishNotification format r.code (s.numObservers o.resource ≠ 0) o p).2
      { s with engine := s.engine.withBuffers fun _ => buffers }
    dsimp only
    rw [hresponses]
    rcases notificationPayload_opened hs.responses hp with ⟨_, rfl⟩ | ⟨_, _, b, _, hid, rfl⟩
    · exact ⟨hwf hs, List.prefix_rfl⟩
    · exact ⟨hwf (hs.opened hid), List.prefix_append _ _⟩

/-! ## one round -/

theorem BlocksFor.owns {r r' : Lookup} {b : BlockwiseState} (h : BlocksFor r body b)
    (hh : r.href = r'.href) (hm : r.method = r'.method) (hr : r.role = r'.role) (hq : r'.query = [])
    (he : ocEndpointCompare r.endpoint r'.endpoint = true) : r'.Owns b := by
  refine ⟨h.href.trans hh, h.query.trans hq.symm, ?_, h.method.trans hm, h.role.trans hr⟩
  rw [h.endpoint]
  exact he

/-- the buffer that has been made is found, also later on -/
theorem findResponse_opened {r : Lookup} (hq : r.query = [])
    (he : ocEndpointCompare r.endpoint r.endpoint = true) {s t : Buffers} {b : BlockwiseState}
    (hn : r.findResponse s = none) (hb : BlocksFor r body b)
    (ht : s.responses ++ [b] <+: t.responses) : r.findResponse t = some b := by
  obtain ⟨more, hmore⟩ := ht
  have hown := hb.owns rfl rfl rfl hq he
  refine findBuffer_some.mpr
    ⟨⟨hown.looksAlike, hown.2⟩, s.responses, more, ?_, findBuffer_none.mp hn⟩
  rw [← hmore, List.append_assoc]
  rfl

theorem ocStatusCode_lt (status : OcStatus) : ocStatusCode status < 2^8 := by
  cases status <;> decide

/-- the setters behind the payload -/
theorem finishNotification_packet {p : Message} (hp : ReplyOptions p) (format : UInt16)
    (status : OcStatus) (observed : Bool) (o : Observer) :
    let q := (finishNotification format (ocStatusCode status) observed o p).2
    ReplyOptions q ∧ q.token.length ≤ coapTokenLen ∧ q.code.toNat = ocStatusCode status ∧
      q.payload = p.payload ∧ isOption q coapOptionSize2 = isOption p coapOptionSize2 := by
  have hle : ocStatusCode status ≤ 0xFF := Nat.le_of_lt_succ (ocStatusCode_lt status)
  have hstatus := hp.status (ocStatusCode_ordinary status)
  have hset : coapSetStatusCode p (ocStatusCode status) =
      { p with code := UInt8.ofNat (ocStatusCode status) } := if_pos hle
  unfold finishNotification
  rw [hset] at hstatus ⊢
  dsimp only
  refine ⟨((hstatus.observe _).contentFormat _).token _, List.length_take_le _ _, ?_, rfl, ?_⟩
  · show (UInt8.ofNat (ocStatusCode status)).toNat = _
    rw [UInt8.toNat_ofNat', Nat.mod_eq_of_lt (ocStatusCode_lt status)]
  · simp [isOption, coapSetToken, coapSetHeaderContentFormat, coapSetHeaderObserve, setOption,
      coapOptionSize2, coapOptionContentFormat, coapOptionObserve]

/-- a packet that has its transaction is sent as it is, up to the message id -/
theorem sendNotification_sent {env : Env} (ht : env.transactionGranted = true) (place : Nat)
    (o : Observer) (counted : Bool) {packet : Message} (hp : ReplyOptions packet)
    (htoken : packet.token.length ≤ coapTokenLen) (s : Server) :
    ∃ mid, (sendNotification env place o counted packet s).1 = .sent { packet with mid } := by
  have hp' : ReplyOptions { packet with mid := s.engine.currentMid + 1 } :=
    ⟨hp.ordinary, hp.etag, hp.unset⟩
  refine ⟨s.engine.currentMid + 1, ?_⟩
  unfold sendNotification coapGetMid coapNewTransaction
  dsimp only
  rw [if_pos ht]
  dsimp only
  rw [sendSerialized_sent hp' htoken, if_pos rfl]

/-- a representation that fits is all in the packet -/
theorem Blank.payload {o : Observer} {packet : Message} (h : Blank o packet) (hn : ¬ o.Long body)
    (ho : o.Regular cfg) (hl : body.length < 2^16) :
    (coapSetPayload cfg packet body).payload = body := by
  have htransport := h.transport
  unfold coapSetPayload
  cases ht : o.endpoint.flags.tcp with
  | true =>
    rw [ht] at htransport
    rw [htransport]
    refine List.take_of_length_le ?_
    rw [Nat.mod_eq_of_lt (by omega)]
  | false =>
    rw [ht] at htransport
    rw [htransport]
    have hfits : body.length ≤ cfg.blockSize :=
      (Nat.le_of_not_lt fun h => hn ⟨ht, h⟩).trans ho.block
    refine List.take_of_length_le ?_
    rw [Nat.min_eq_right hfits, Nat.mod_eq_of_lt hl]

/-- a round that has got its packet -/
theorem notifyObserver_opened {r : Representation} {o : Observer} {s : Server} {p : Message}
    {buffers : Buffers} (h : notificationPayload cfg site env o r.body s.engine.toBuffers =
      .opened p buffers) (hp : ReplyOptions p) {status : OcStatus}
    (hc : r.code = ocStatusCode status) (ht : env.transactionGranted = true) (format : UInt16)
    (place : Nat) :
    let x := notifyObserver cfg site env format r place o s
    (∃ packet, x.1 = .sent packet ∧ packet.code.toNat = r.code ∧ packet.payload = p.payload ∧
        isOption packet coapOptionSize2 = isOption p coapOptionSize2) ∧
      x.2.1.engine.responses = buffers.responses := by
  obtain ⟨h1, h2, h3, h4, h5⟩ := finishNotification_packet hp format status
    (s.numObservers o.resource ≠ 0) o
  rw [← hc] at h1 h2 h3 h4 h5
  unfold notifyObserver
  rw [h]
  dsimp only
  obtain ⟨mid, hmid⟩ := sendNotification_sent ht place o
    (finishNotification format r.code (s.numObservers o.resource ≠ 0) o p).1 h1 h2
    { s with engine := s.engine.withBuffers fun _ => buffers }
  exact ⟨⟨_, hmid, h3, h4, h5⟩, (sendNotification_kept _ _ _ _ _ _).2⟩

/-- what a round does when it gets what it asks for: there is a buffer in the way; or the
observer is told, with a new buffer if the representation is too long -/
theorem notifyObserver_tells {r : Representation} {o : Observer} {s : Server} (format : UInt16)
    (place : Nat) (hs : s.engine.WF) (ht : env.transactionGranted = true)
    (ha : env.responseAlloc.granted = true) (hu : (site.uri o.resource).drop 1 ≠ [])
    (hc : ∃ status, r.code = ocStatusCode status) (hl : r.body.length < 2^16)
    (ho : o.Regular cfg) :
    let x := notifyObserver cfg site env format r place o s
    let found := (site.lookup o.resource o.endpoint).findResponse s.engine.toBuffers
    (o.Long r.body ∧ found ≠ none ∧ x.1 = .busy ∧
        x.2.1.engine.responses = s.engine.responses) ∨
      (∃ packet, x.1 = .sent packet ∧ ∀ t : Buffers, x.2.1.engine.responses <+: t.responses →
        conveyed site o.mark packet t = r) ∧
        (¬ o.Long r.body ∧ x.2.1.engine.responses = s.engine.responses ∨
          o.Long r.body ∧ found = none ∧
            ∃ b, BlocksFor (site.lookup o.resource o.endpoint) r.body b ∧
              x.2.1.engine.responses = s.engine.responses ++ [b]) := by
  intro x found
  obtain ⟨status, hstatus⟩ := hc
  obtain ⟨packet, hblank, hpayload⟩ := notificationPayload_cases cfg site env o r.body
    s.engine.toBuffers
  by_cases hlong : o.Long r.body
  · rw [if_pos hlong] at hpayload
    by_cases hf : found = none
    · rcases openBlocks_cases cfg r.body ha (site.lookup o.resource o.endpoint).href o.endpoint
        coapGet o.block2Size packet s.engine.toBuffers with ⟨_, _, p, s', hopen, hbuilt⟩ | ⟨hn, _⟩
      · rw [hopen] at hpayload
        obtain ⟨⟨q, hsent, hcode, _, hsize⟩, hresponses⟩ := notifyObserver_opened hpayload
          (hbuilt.options hblank.options) hstatus ht format place
        rcases notificationPayload_opened hs.responses hpayload with
          ⟨hno, _⟩ | ⟨_, h2, b, hb, _, rfl⟩
        · exact absurd hlong hno
        · refine Or.inr ⟨⟨q, hsent, fun t htail => ?_⟩, Or.inr ⟨hlong, hf, b, hb, hresponses⟩⟩
          rw [hresponses] at htail
          unfold conveyed
          rw [hsize, h2, if_pos rfl, hcode]
          have hfound : (site.lookup o.mark.resource o.mark.endpoint).findResponse t = some b :=
            findResponse_opened rfl ho.host hf hb htail
          rw [hfound]
          show (⟨r.code, b.payload⟩ : Representation) = r
          rw [hb.payload]
      · exact absurd ⟨hu, hf⟩ hn
    · have hbusy : notificationPayload cfg site env o r.body s.engine.toBuffers = .busy := by
        obtain ⟨b, hb⟩ := Option.ne_none_iff_exists'.mp hf
        have hb' : ocBlockwiseFindResponseBuffer s.engine.toBuffers
            (site.lookup o.resource o.endpoint).href o.endpoint coapGet [] .server = some b := hb
        rw [hpayload]
        unfold openBlocks
        rw [hb']
      refine Or.inl ⟨hlong, hf, ?_⟩
      show (notifyObserver cfg site env format r place o s).1 = _ ∧
        (notifyObserver cfg site env format r place o s).2.1.engine.responses = _
      unfold notifyObserver
      rw [hbusy]
      exact ⟨rfl, rfl⟩
  · rw [if_neg hlong] at hpayload
    obtain ⟨⟨q, hsent, hcode, hbody, hsize⟩, hresponses⟩ := notifyObserver_opened hpayload
      (hblank.options.payload cfg r.body) hstatus ht format place
    refine Or.inr ⟨⟨q, hsent, fun t _ => ?_⟩, Or.inl ⟨hlong, hresponses⟩⟩
    have hsize2 : isOption q coapOptionSize2 = false := by
      rw [hsize, ← hblank.size2]
      unfold coapSetPayload
      split <;> rfl
    unfold conveyed
    rw [hsize2, if_neg Bool.false_ne_true, hcode, hbody, hblank.payload hlong ho hl]

end

/-! ## one pass -/

/-- what a pass does for an observer: it is skipped, or told the representation, and the buffer that
this takes stays where it is found -/
structure Tells (site : Site) (P : Pass) (s : State) (x : Observer × Nat) (n : Notice) : Prop where
  place : n.place = x.2
  skipped : P.Skips site x.2 x.1 → n.outcome = .busy
  told : ¬ P.Skips site x.2 x.1 → ∃ packet, n.outcome = .sent packet ∧
    ∀ t : Buffers, s.responses <+: t.responses → conveyed site x.1.mark packet t = P.representation

/-- A pass on its way, behind the observers `pre`.  The new buffers belong to rounds that it has
made, and the rounds that needed a buffer still find one. -/
structure Telling (site : Site) (P : Pass) (base : List Notice) (pre : List Observer)
    (q : Progress) : Prop where
  left : q.left = false
  wf : q.server.engine.WF
  old : P.server.engine.responses <+: q.server.engine.responses
  blocks : ∀ b ∈ q.server.engine.responses, b ∈ P.server.engine.responses ∨
    ∃ a ∈ pre, a.resource = P.resource ∧ a.Long P.representation.body ∧
      BlocksFor (site.lookup a.resource a.endpoint) P.representation.body b
  found : ∀ a ∈ pre, a.resource = P.resource → a.Long P.representation.body →
    (site.lookup a.resource a.endpoint).findResponse q.server.engine.toBuffers ≠ none
  notices : ∃ news, q.notices = base ++ news ∧
    (∀ x ∈ pre.zipIdx, x.1.resource = P.resource → ∃ n ∈ news, Tells site P q.server.engine x n) ∧
    ∀ n ∈ news, ∃ x ∈ pre.zipIdx, x.1.resource = P.resource ∧ Tells site P q.server.engine x n

section
variable {cfg : Config} {site : Site} {P : Pass} {base : List Notice} {pre : List Observer}
  {q : Progress} {o : Observer}

theorem Tells.mono {s s' : State} {x : Observer × Nat} {n : Notice} (h : Tells site P s x n)
    (hs : s.responses <+: s'.responses) : Tells site P s' x n := by
  refine ⟨h.place, h.skipped, fun hn => ?_⟩
  obtain ⟨packet, hsent, hconveyed⟩ := h.told hn
  exact ⟨packet, hsent, fun t ht => hconveyed t (hs.trans ht)⟩

/-- a buffer that is found is also found in a longer list -/
theorem findResponse_mono {r : Lookup} {s t : Buffers} (hst : s.responses <+: t.responses)
    (h : r.findResponse s ≠ none) : r.findResponse t ≠ none := by
  intro hn
  refine h (findBuffer_none.mpr fun x hx => ?_)
  exact findBuffer_none.mp hn x (hst.subset hx)

/-- when a round for an observer that needs a buffer finds one -/
theorem Telling.found_iff (h : Telling site P base pre q) (ho : o.resource = P.resource) :
    (site.lookup o.resource o.endpoint).findResponse q.server.engine.toBuffers ≠ none ↔
      (site.lookup o.resource o.endpoint).findResponse P.server.engine.toBuffers ≠ none ∨
        ∃ a ∈ pre, a.resource = o.resource ∧ a.Long P.representation.body ∧
          ocEndpointCompare a.endpoint o.endpoint = true := by
  constructor
  · intro hf
    obtain ⟨b, hb⟩ := Option.ne_none_iff_exists'.mp hf
    obtain ⟨⟨hlike, hserves⟩, front, back, hl, _⟩ := findBuffer_some.mp hb
    have hin : b ∈ q.server.engine.responses := by
      show b ∈ q.server.engine.toBuffers.responses
      rw [hl]
      exact List.mem_append_right _ List.mem_cons_self
    rcases h.blocks b hin with hold | ⟨a, ha, hres, hlong, hblocks⟩
    · exact Or.inl fun hn => findBuffer_none.mp hn b hold ⟨hlike, hserves⟩
    · refine Or.inr ⟨a, ha, hres.trans ho.symm, hlong, ?_⟩
      have he := hserves.2.1
      rw [hblocks.endpoint] at he
      exact he
  · rintro (hold | ⟨a, ha, hres, hlong, he⟩)
    · exact findResponse_mono h.old hold
    · obtain ⟨b, hb⟩ := Option.ne_none_iff_exists'.mp (h.found a ha (hres.trans ho) hlong)
      obtain ⟨⟨hlike, hserves⟩, front, back, hl, _⟩ := findBuffer_some.mp hb
      have hin : b ∈ q.server.engine.toBuffers.responses := by
        rw [hl]
        exact List.mem_append_right _ List.mem_cons_self
      rw [hres] at hlike hserves
      intro hn
      refine findBuffer_none.mp hn b hin ⟨hlike, hserves.1, ?_, hserves.2.2⟩
      exact ocEndpointCompare_trans hserves.2.1 he

theorem zipIdx_concat (l : List Observer) (o : Observer) :
    (l ++ [o]).zipIdx = l.zipIdx ++ [(o, l.length)] := by
  rw [List.zipIdx_append, Nat.zero_add]
  rfl

/-- an observer of another resource -/
theorem Telling.pass (h : Telling site P base pre q) (ho : o.resource ≠ P.resource) :
    Telling site P base (pre ++ [o]) q := by
  obtain ⟨news, hnews, hall, hright⟩ := h.notices
  refine ⟨h.left, h.wf, h.old, fun b hb => ?_, fun a ha hres => ?_, news, hnews, ?_, ?_⟩
  · refine (h.blocks b hb).imp_right fun ⟨a, ha, hrest⟩ => ?_
    exact ⟨a, List.mem_append_left _ ha, hrest⟩
  · rcases List.mem_append.mp ha with ha | ha
    · exact h.found a ha hres
    · rw [List.mem_singleton.mp ha] at hres
      exact absurd hres ho
  · intro x hx hres
    rw [zipIdx_concat] at hx
    rcases List.mem_append.mp hx with hx | hx
    · exact hall x hx hres
    · rw [List.mem_singleton.mp hx] at hres
      exact absurd hres ho
  · intro n hn
    obtain ⟨x, hx, htells⟩ := hright n hn
    refine ⟨x, ?_, htells⟩
    rw [zipIdx_concat]
    exact List.mem_append_left _ hx

/-- an observer that has had its round -/
theorem Telling.snoc {q' : Progress} {n : Notice} (h : Telling site P base pre q)
    (ho : o.resource = P.resource) (hleft : q'.left = false) (hwf : q'.server.engine.WF)
    (hgrew : q.server.engine.responses <+: q'.server.engine.responses)
    (hblocks : ∀ b ∈ q'.server.engine.responses, b ∈ q.server.engine.responses ∨
      o.Long P.representation.body ∧
        BlocksFor (site.lookup o.resource o.endpoint) P.representation.body b)
    (hfound : o.Long P.representation.body →
      (site.lookup o.resource o.endpoint).findResponse q'.server.engine.toBuffers ≠ none)
    (hn : q'.notices = q.notices ++ [n])
    (htells : Tells site P q'.server.engine (o, pre.length) n) :
    Telling site P base (pre ++ [o]) q' := by
  obtain ⟨news, hnews, hall, hright⟩ := h.notices
  refine ⟨hleft, hwf, h.old.trans hgrew, fun b hb => ?_, fun a ha hres hlong => ?_,
    news ++ [n], ?_, ?_, ?_⟩
  · rcases hblocks b hb with hb | ⟨hlong, hb⟩
    · refine (h.blocks b hb).imp_right fun ⟨a, ha, hrest⟩ => ?_
      exact ⟨a, List.mem_append_left _ ha, hrest⟩
    · exact Or.inr ⟨o, List.mem_append_right _ (List.mem_singleton_self o), ho, hlong, hb⟩
  · rcases List.mem_append.mp ha with ha | ha
    · exact findResponse_mono hgrew (h.found a ha hres hlong)
    · obtain rfl := List.mem_singleton.mp ha
      exact hfound hlong
  · rw [hn, hnews, List.append_assoc]
  · intro x hx hres
    rw [zipIdx_concat] at hx
    rcases List.mem_append.mp hx with hx | hx
    · obtain ⟨m, hm, ht⟩ := hall x hx hres
      exact ⟨m, List.mem_append_left _ hm, ht.mono hgrew⟩
    · rw [List.mem_singleton.mp hx]
      exact ⟨n, List.mem_append_right _ (List.mem_singleton_self n), htells⟩
  · intro m hm
    rw [zipIdx_concat]
    rcases List.mem_append.mp hm with hm | hm
    · obtain ⟨x, hx, hres, ht⟩ := hright m hm
      exact ⟨x, List.mem_append_left _ hx, hres, ht.mono hgrew⟩
    · rw [List.mem_singleton.mp hm]
      exact ⟨_, List.mem_append_right _ (List.mem_singleton_self _), ho, htells⟩

/-- one round of a pass that gets what it asks for -/
theorem Telling.visit (h : Telling site P base pre q) (hs : P.Supplied cfg site)
    (format : Endpoint → UInt16) {rest : List Observer} (hl : P.server.list = pre ++ o :: rest) :
    Telling site P base (pre ++ [o])
      (Coap.visit (fun o => o.resource == P.resource)
        (fun k place o => notifyObserver cfg site (P.env k) (format o.endpoint) P.representation
          place o) q (o, pre.length)) := by
  unfold Coap.visit
  dsimp only
  by_cases ho : o.resource = P.resource
  · have hsel : ¬ (q.left = true ∨ (o.resource == P.resource) = false) := by simp [h.left, ho]
    rw [if_neg hsel]
    have hin : o ∈ P.server.list := by
      rw [hl]
      exact List.mem_append_right _ List.mem_cons_self
    have hpre : P.server.list.take pre.length = pre := by
      rw [hl, List.take_left]
    have hskips : P.Skips site pre.length o ↔ o.Long P.representation.body ∧
        (site.lookup o.resource o.endpoint).findResponse q.server.engine.toBuffers ≠ none := by
      unfold Pass.Skips
      rw [h.found_iff ho, hpre]
    have hpath : (site.uri o.resource).drop 1 ≠ [] := by
      rw [ho]
      exact hs.path
    have hround := notifyObserver_tells (format o.endpoint) pre.length h.wf
      (hs.transaction q.notices.length) (hs.alloc q.notices.length) hpath hs.code hs.length
      (hs.regular o hin ho)
    obtain ⟨hwf, hgrew⟩ := notifyObserver_grew cfg site (P.env q.notices.length)
      (format o.endpoint) P.representation pre.length o q.server h.wf
    dsimp only at hround
    generalize notifyObserver cfg site (P.env q.notices.length) (format o.endpoint) P.representation
      pre.length o q.server = y at hround hwf hgrew ⊢
    rcases hround with ⟨hlong, hf, hbusy, hsame⟩ | ⟨⟨packet, hsent, hconveyed⟩, hcases⟩
    · -- a buffer is in the way
      refine h.snoc ho (by rw [hbusy]; rfl) hwf hgrew (fun b hb => Or.inl (hsame ▸ hb))
        (fun _ => findResponse_mono hgrew hf) rfl ⟨rfl, fun _ => hbusy, fun hn => ?_⟩
      exact absurd (hskips.mpr ⟨hlong, hf⟩) hn
    · have hnot : ¬ P.Skips site pre.length o := by
        rw [hskips]
        rintro ⟨hlong, hf⟩
        rcases hcases with ⟨hshort, _⟩ | ⟨_, hnone, _⟩
        · exact hshort hlong
        · exact hf hnone
      refine h.snoc ho (by rw [hsent]; rfl) hwf hgrew (fun b hb => ?_) (fun hlong => ?_) rfl
        ⟨rfl, fun hskip => absurd hskip hnot, fun _ => ⟨packet, hsent, hconveyed⟩⟩
      · rcases hcases with ⟨_, hsame⟩ | ⟨hlong, _, c, hc, hresponses⟩
        · exact Or.inl (hsame ▸ hb)
        · rw [hresponses] at hb
          rcases List.mem_append.mp hb with hb | hb
          · exact Or.inl hb
          · rw [List.mem_singleton.mp hb]
            exact Or.inr ⟨hlong, hc⟩
      · rcases hcases with ⟨hshort, _⟩ | ⟨_, hnone, c, hc, hresponses⟩
        · exact absurd hlong hshort
        · have hfound : (site.lookup o.resource o.endpoint).findResponse y.2.1.engine.toBuffers =
              some c :=
            findResponse_opened rfl (hs.regular o hin ho).host hnone hc (by rw [hresponses])
          rw [hfound]
          exact Option.some_ne_none c
  · have hsel : q.left = true ∨ (o.resource == P.resource) = false := Or.inr (by simp [ho])
    rw [if_pos hsel]
    exact h.pass ho

theorem foldl_telling (hs : P.Supplied cfg site) (format : Endpoint → UInt16)
    (rest : List Observer) (h : Telling site P base pre q) (hl : P.server.list = pre ++ rest) :
    Telling site P base (pre ++ rest)
      ((rest.zipIdx pre.length).foldl (Coap.visit (fun o => o.resource == P.resource)
        (fun k place o => notifyObserver cfg site (P.env k) (format o.endpoint) P.representation
          place o)) q) := by
  induction rest generalizing pre q with
  | nil =>
    rw [List.append_nil]
    exact h
  | cons o rest ih =>
    rw [List.zipIdx_cons, List.foldl_cons]
    have hsplit : pre ++ o :: rest = (pre ++ [o]) ++ rest := by
      rw [List.append_assoc]
      rfl
    have hlen : pre.length + 1 = (pre ++ [o]).length := by
      rw [List.length_append]
      rfl
    rw [hsplit, hlen]
    exact ih (h.visit hs format hl) (hl.trans hsplit)

/-- **One pass.**  A pass that gets what it asks for tells the representation to all observers of
its resource that it does not skip. -/
theorem Pass.run_telling (hs : P.Supplied cfg site) (format : Endpoint → UInt16)
    (hq : q.left = false) (hwf : q.server.engine.WF) (hserver : P.server = q.server) :
    Telling site P q.notices P.server.list (P.run cfg site format q) := by
  have hstart : Telling site P q.notices [] q := by
    refine ⟨hq, hwf, by rw [hserver], fun b hb => Or.inl (by rw [hserver]; exact hb), ?_, [],
      ?_, ?_, ?_⟩
    · exact fun a ha => absurd ha List.not_mem_nil
    · rw [List.append_nil]
    · exact fun x hx => absurd hx List.not_mem_nil
    · exact fun n hn => absurd hn List.not_mem_nil
  have h := foldl_telling hs format P.server.list hstart rfl
  unfold Pass.run notifyEach
  rw [← hserver]
  exact h

/-! ## what any pass leaves alone -/

theorem foldl_visit_grew (select : Observer → Bool)
    {round : Nat → Nat → Observer → Server → Outcome × Server × List Event}
    (hr : ∀ k place o s, Grew s.engine (round k place o s).2.1.engine)
    (l : List (Observer × Nat)) (p : Progress) :
    Grew p.server.engine (l.foldl (Coap.visit select round) p).server.engine ∧
      ∃ news, (l.foldl (Coap.visit select round) p).notices = p.notices ++ news ∧
        ∀ n ∈ news, ∃ x ∈ l, x.2 = n.place ∧ select x.1 = true := by
  induction l generalizing p with
  | nil => exact ⟨Grew.refl _, [], (List.append_nil _).symm, fun n hn => absurd hn List.not_mem_nil⟩
  | cons x l ih =>
    rw [List.foldl_cons]
    obtain ⟨hgrew, news, hnews, hsel⟩ := ih (Coap.visit select round p x)
    have hlater : ∀ n ∈ news, ∃ y ∈ x :: l, y.2 = n.place ∧ select y.1 = true := by
      intro n hn
      obtain ⟨y, hy, h⟩ := hsel n hn
      exact ⟨y, List.mem_cons_of_mem _ hy, h⟩
    by_cases hx : p.left = true ∨ select x.1 = false
    · have hv : Coap.visit select round p x = p := if_pos hx
      rw [hv] at hgrew hnews ⊢
      exact ⟨hgrew, news, hnews, hlater⟩
    · obtain ⟨hv1, hv2⟩ : Grew p.server.engine (Coap.visit select round p x).server.engine ∧
          ∃ outcome, (Coap.visit select round p x).notices = p.notices ++ [⟨x.2, outcome⟩] := by
        unfold Coap.visit
        rw [if_neg hx]
        exact ⟨hr _ _ _ _, _, rfl⟩
      obtain ⟨outcome, hout⟩ := hv2
      refine ⟨hv1.trans hgrew, ⟨x.2, outcome⟩ :: news, ?_, ?_⟩
      · rw [hnews, hout, List.append_assoc]
        rfl
      · intro n hn
        rcases List.mem_cons.mp hn with rfl | hn
        · exact ⟨x, List.mem_cons_self, rfl, by simpa using (not_or.mp hx).2⟩
        · exact hlater n hn

/-- what a pass does, whether it gets what it asks for or not -/
structure Passes (P : Pass) (q q' : Progress) : Prop where
  grew : Grew q.server.engine q'.server.engine
  ledger : q'.server.ledger = q.server.ledger
  notices : ∃ news, q'.notices = q.notices ++ news ∧
    ∀ n ∈ news, ∃ o, q.server.list[n.place]? = some o ∧ o.resource = P.resource

theorem Pass.run_passes (cfg : Config) (site : Site) (P : Pass) (format : Endpoint → UInt16)
    (q : Progress) : Passes P q (P.run cfg site format q) := by
  obtain ⟨hgrew, news, hnews, hsel⟩ := foldl_visit_grew (fun o => o.resource == P.resource)
    (fun k place o s => notifyObserver_grew cfg site (P.env k) (format o.endpoint) P.representation
      place o s) q.server.list.zipIdx q
  refine ⟨hgrew, ?_, news, hnews, fun n hn => ?_⟩
  · exact ledger_notifyEach (fun k place o s => ledger_notifyObserver _ _ _ place o) q
  · obtain ⟨x, hx, hplace, hres⟩ := hsel n hn
    rw [← hplace]
    exact ⟨x.1, List.mem_zipIdx_iff_getElem?.mp hx, eq_of_beq hres⟩

end

/-! ## what has been told -/

section
variable (cfg : Config) (site : Site)

/-- The log agrees with the passes: the observers that the last pass for their resource does not
skip have been told its representation last. -/
structure Current (passes : List Pass) (log : List Told) : Prop where
  silent : ∀ r, lastOf Pass.resource r passes = none → ∀ e ∈ log, e.observer.resource ≠ r
  told : ∀ r P, lastOf Pass.resource r passes = some P → P.Supplied cfg site →
    ∀ i o, P.server.list[i]? = some o → o.resource = r → ¬ P.Skips site i o →
      ∃ e, lastOf Told.observer o.mark log = some e ∧ e.representation = P.representation

/-- passes one after another -/
inductive PassRun (format : Endpoint → UInt16) : Progress → List Pass → Progress → Prop where
  | nil (q : Progress) : PassRun format q [] q
  | cons {q q' : Progress} {P : Pass} {l : List Pass} (hs : P.server = q.server)
      (hl : q.left = false) (h : PassRun format (P.run cfg site format q) l q') :
      PassRun format q (P :: l) q'

end

section
variable {cfg : Config} {site : Site} {P : Pass} {format : Endpoint → UInt16} {q q' : Progress}
  {passes passes' : List Pass} {log log' : List Told}

theorem current_nil (cfg : Config) (site : Site) : Current cfg site [] [] :=
  ⟨fun _ _ e he => absurd he List.not_mem_nil, fun r P h => by cases h⟩

theorem Current.append (h : Current cfg site passes log) (h' : Current cfg site passes' log') :
    Current cfg site (passes ++ passes') (log ++ log') := by
  constructor
  · intro r hr e he
    rw [lastOf_append, Option.or_eq_none_iff] at hr
    rcases List.mem_append.mp he with he | he
    · exact h.silent r hr.2 e he
    · exact h'.silent r hr.1 e he
  · intro r P hr hs i o ho hres hskip
    rw [lastOf_append] at hr ⊢
    cases hlast : lastOf Pass.resource r passes' with
    | none =>
      rw [hlast, Option.none_or] at hr
      have hother : lastOf Told.observer o.mark log' = none := by
        rw [lastOf_eq_none]
        intro e he hmark
        refine h'.silent r hlast e he ?_
        rw [hmark]
        exact hres
      rw [hother, Option.none_or]
      exact h.told r P hr hs i o ho hres hskip
    | some P' =>
      rw [hlast, Option.some_or] at hr
      obtain rfl := Option.some.inj hr
      obtain ⟨e, he, hrep⟩ := h'.told r P' hlast hs i o ho hres hskip
      exact ⟨e, by rw [he, Option.some_or], hrep⟩

/-- what a notice has told -/
theorem told_some {list : List Observer} {t : Buffers} {n : Notice} {e : Told}
    (h : n.told site list t = some e) :
    ∃ o packet, list[n.place]? = some o ∧ n.outcome = .sent packet ∧
      e = ⟨o.mark, conveyed site o.mark packet t⟩ := by
  unfold Notice.told at h
  split at h
  · rename_i o packet ho hp
    exact ⟨o, packet, ho, hp, (Option.some.inj h).symm⟩
  · cases h

/-- the observer at a place, in lists that differ in what notifications store -/
theorem mark_at {l l' : List Observer} (h : l.map Observer.mark = l'.map Observer.mark) {i : Nat}
    {o o' : Observer} (ho : l[i]? = some o) (ho' : l'[i]? = some o') : o.mark = o'.mark := by
  have hi := congrArg (fun l => l[i]?) h
  simp only [List.getElem?_map, ho, ho', Option.map_some, Option.some.injEq] at hi
  exact hi

theorem exists_at {l l' : List Observer} (h : l.map Observer.mark = l'.map Observer.mark) {i : Nat}
    {o' : Observer} (ho' : l'[i]? = some o') : ∃ o, l[i]? = some o := by
  have hi := congrArg (fun l => l[i]?) h
  simp only [List.getElem?_map, ho', Option.map_some] at hi
  obtain ⟨o, ho, _⟩ := Option.map_eq_some_iff.mp hi
  exact ⟨o, ho⟩

theorem marks_of_ledger {s s' : Server} (h : s'.ledger = s.ledger) :
    s'.list.map Observer.mark = s.list.map Observer.mark := by
  have hmap : ∀ s : Server, s.list.map Observer.mark =
      s.ledger.1.map fun x => ⟨x.1, x.2.1, x.2.2.1, x.2.2.2⟩ := by
    intro s
    unfold Server.ledger
    rw [List.map_map]
    rfl
  rw [hmap, hmap, h]

variable (cfg site P) in
/-- what one pass adds to the log -/
theorem Pass.run_current (format : Endpoint → UInt16) (hl : q.left = false)
    (hwf : q.server.engine.WF) (hs : P.server = q.server) :
    ∃ news, (P.run cfg site format q).notices = q.notices ++ news ∧
      ∀ (list : List Observer) (t : Buffers),
        list.map Observer.mark = q.server.list.map Observer.mark →
        (P.run cfg site format q).server.engine.responses <+: t.responses →
        Current cfg site [P] (news.filterMap (Notice.told site list t)) := by
  obtain ⟨news, hnews, hplaces⟩ := (P.run_passes cfg site format q).notices
  refine ⟨news, hnews, fun list t hmarks ht => ⟨?_, ?_⟩⟩
  · intro r hr e he
    have hne : P.resource ≠ r := lastOf_eq_none.mp hr P (List.mem_singleton_self P)
    obtain ⟨n, hn, hsome⟩ := List.mem_filterMap.mp he
    obtain ⟨o, packet, ho, _, rfl⟩ := told_some hsome
    obtain ⟨o', ho', hres⟩ := hplaces n hn
    have hmark := mark_at hmarks ho ho'
    have hres' : o.mark.resource = P.resource := by
      rw [hmark]
      exact hres
    exact fun h => hne (hres'.symm.trans h)
  · intro r P' hr hsupplied i o ho hres hskip
    obtain ⟨hin, hkey⟩ := lastOf_some hr
    obtain rfl := List.mem_singleton.mp hin
    obtain ⟨news', hnews', hall, hright⟩ := (P'.run_telling hsupplied format hl hwf hs).notices
    obtain rfl := List.append_cancel_left (hnews.symm.trans hnews')
    have hat : ∀ x ∈ P'.server.list.zipIdx, ∃ a, list[x.2]? = some a ∧ a.mark = x.1.mark := by
      intro x hx
      have hx' := List.mem_zipIdx_iff_getElem?.mp hx
      rw [hs] at hx'
      obtain ⟨a, ha⟩ := exists_at hmarks hx'
      exact ⟨a, ha, mark_at hmarks ha hx'⟩
    -- the observer has been told the representation
    have hx : (o, i) ∈ P'.server.list.zipIdx := List.mem_zipIdx_iff_getElem?.mpr ho
    obtain ⟨n, hn, htells⟩ := hall (o, i) hx (hres.trans hkey.symm)
    obtain ⟨packet, hsent, _⟩ := htells.told hskip
    obtain ⟨a, ha, hmark⟩ := hat (o, i) hx
    have htold : n.told site list t = some ⟨a.mark, conveyed site a.mark packet t⟩ := by
      unfold Notice.told
      rw [htells.place, ha, hsent]
    have hobserver : Told.observer ⟨a.mark, conveyed site a.mark packet t⟩ = o.mark := hmark
    obtain ⟨e, he⟩ := exists_lastOf (List.mem_filterMap.mpr ⟨n, hn, htold⟩) hobserver
    refine ⟨e, he, ?_⟩
    -- whatever the pass has told is the representation
    obtain ⟨hein, _⟩ := lastOf_some he
    obtain ⟨m, hm, hsome⟩ := List.mem_filterMap.mp hein
    obtain ⟨b, packet', hb, hsent', rfl⟩ := told_some hsome
    obtain ⟨y, hy, _, htells'⟩ := hright m hm
    have hnot : ¬ P'.Skips site y.2 y.1 := by
      intro h
      rw [htells'.skipped h] at hsent'
      cases hsent'
    obtain ⟨packet'', hsent'', hconveyed⟩ := htells'.told hnot
    rw [hsent'] at hsent''
    obtain rfl := Outcome.sent.inj hsent''
    obtain ⟨c, hc, hmark'⟩ := hat y hy
    rw [htells'.place, hc] at hb
    obtain rfl := Option.some.inj hb
    show conveyed site c.mark packet' t = _
    rw [hmark']
    exact hconveyed t ht

/-- what passes add to the log, one after another -/
theorem PassRun.current (h : PassRun cfg site format q passes q') (hwf : q.server.engine.WF) :
    Grew q.server.engine q'.server.engine ∧ q'.server.ledger = q.server.ledger ∧
      ∃ news, q'.notices = q.notices ++ news ∧
        ∀ (list : List Observer) (t : Buffers),
          list.map Observer.mark = q.server.list.map Observer.mark →
          q'.server.engine.responses <+: t.responses →
          Current cfg site passes (news.filterMap (Notice.told site list t)) := by
  induction h with
  | nil q =>
    exact ⟨Grew.refl _, rfl, [], (List.append_nil _).symm, fun _ _ _ _ => current_nil cfg site⟩
  | @cons q q' P l hs hl h ih =>
    have hpass := P.run_passes cfg site format q
    have hwf1 := (hpass.grew hwf).1
    obtain ⟨hgrew, hledger, news', hnews', hcurrent'⟩ := ih hwf1
    obtain ⟨news, hnews, hcurrent⟩ := P.run_current cfg site format hl hwf hs
    refine ⟨hpass.grew.trans hgrew, hledger.trans hpass.ledger, news ++ news', ?_, ?_⟩
    · rw [hnews', hnews, List.append_assoc]
    · intro list t hmarks ht
      rw [List.filterMap_append]
      have hmarks' := hmarks.trans (marks_of_ledger hpass.ledger).symm
      exact (hcurrent list t hmarks ((hgrew hwf1).2.trans ht)).append (hcurrent' list t hmarks' ht)

variable (cfg site) in
/-- the loop over the collections goes by passes -/
theorem notifyRounds_passes (supply : Supply) (batch : Nat → Representation) (resource fuel : Nat)
    (l : List Nat) (p : Progress) :
    PassRun cfg site (fun _ => applicationVndOcfCbor) p
      (linkedPasses cfg site supply batch resource fuel l p)
      (notifyRounds cfg site supply batch resource fuel l p) := by
  induction fuel generalizing l p with
  | zero => exact .nil p
  | succ fuel ih =>
    cases l with
    | nil => exact .nil p
    | cons c l =>
      unfold linkedPasses notifyRounds
      split
      · exact .nil p
      · rename_i hn
        refine .cons rfl ?_ (ih _ _)
        simpa using (not_or.mp hn).1

theorem foldl_deferred (supply : Supply) (handle : Nat) (select : Observer → Bool)
    (l : List (Observer × Nat)) (p : Progress) (hp : ∀ n ∈ p.notices, n.outcome = .deferred) :
    let p' := l.foldl (visit select fun k _ o => deferNotification site (supply.env k)
      (supply.granted k) handle o) p
    p'.server.engine = p.server.engine ∧ p'.server.ledger = p.server.ledger ∧
      ∀ n ∈ p'.notices, n.outcome = .deferred := by
  induction l generalizing p with
  | nil => exact ⟨rfl, rfl, hp⟩
  | cons x l ih =>
    rw [List.foldl_cons]
    unfold visit
    split
    · exact ih p hp
    · refine ih _ fun n hn => ?_
      rcases List.mem_append.mp hn with hn | hn
      · exact hp n hn
      · rw [List.mem_singleton.mp hn]
        rfl

variable (cfg site) in
/-- the loop of `coap_notify_observers` is its pass, or nothing is told -/
theorem notifyWith_passes (supply : Supply) (resource : Nat) (get : Answer) (s : Server)
    (hn : s.numObservers resource ≠ 0) (hb : supply.buffer = true) :
    let p := notifyWith cfg site supply resource none get s
    (PassRun cfg site site.format (.start s) (ownPass supply resource get s).toList p) ∨
      (ownPass supply resource get s = none ∧ p.server.engine = s.engine ∧
        p.server.ledger = s.ledger ∧ ∀ n ∈ p.notices, n.outcome = .deferred) := by
  have hnot : ¬ (s.numObservers resource = 0 ∨ supply.buffer = false) := by simp [hn, hb]
  have hselect : addressed resource none = fun o => o.resource == resource := by
    funext o
    exact Bool.and_true _
  have htells : ∀ r : Representation, PassRun cfg site site.format (.start s)
      [⟨resource, r, s, supply.env⟩] (notifyEach (addressed resource none)
        (fun k place o => notifyObserver cfg site (supply.env k) (site.format o.endpoint) r place o)
        (.start s)) := by
    intro r
    rw [hselect]
    exact .cons rfl rfl (.nil _)
  unfold notifyWith ownPass
  rw [if_neg hnot]
  cases get with
  | ignore => exact Or.inl (.nil _)
  | representation r => exact Or.inl (htells r)
  | separate handle r =>
    dsimp only
    by_cases hc : r.code = content205.toNat
    · rw [if_pos hc, if_pos hc]
      refine Or.inr ⟨rfl, foldl_deferred supply handle _ _ _ fun n hn => absurd hn List.not_mem_nil⟩
    · rw [if_neg hc, if_neg hc]
      exact Or.inl (htells r)

/-- passes from the beginning of a loop -/
theorem PassRun.told {s : Server} (h : PassRun cfg site format (.start s) passes q)
    (hwf : s.engine.WF) : q.server.engine.WF ∧ Current cfg site passes (q.told site) := by
  obtain ⟨hgrew, hledger, news, hnews, hcurrent⟩ := h.current hwf
  obtain rfl : q.notices = news := hnews
  exact ⟨(hgrew hwf).1, hcurrent _ _ (marks_of_ledger hledger) List.prefix_rfl⟩

section
variable (cfg site) (supply linked : Supply) (get : Answer) (batch : Nat → Representation)
  (resource : Nat) {s : Server}

/-- what is told to the observers of the resource -/
theorem ownPass_current (hwf : s.engine.WF) :
    let x := coapNotifyObservers cfg site supply linked get batch resource none none s
    x.2.1.server.engine.WF ∧
      Current cfg site (ownPass supply resource get s).toList (x.2.1.told site) := by
  unfold coapNotifyObservers
  dsimp only
  by_cases hn : s.numObservers resource = 0 ∨ supply.buffer = false
  · have hnone : ownPass supply resource get s = none := if_pos hn
    rw [if_pos hn, hnone]
    exact ⟨hwf, current_nil cfg site⟩
  · rw [if_neg hn]
    obtain ⟨hnum, hbuffer⟩ := not_or.mp hn
    have hpasses := notifyWith_passes cfg site supply resource get s hnum (by simpa using hbuffer)
    dsimp only at hpasses
    generalize notifyWith cfg site supply resource none get s = p at hpasses ⊢
    rcases hpasses with h | ⟨hnone, hengine, _, hdeferred⟩
    · exact h.told hwf
    · have htold : p.told site = [] := by
        refine List.filterMap_eq_nil_iff.mpr fun n hn => ?_
        unfold Notice.told
        rw [hdeferred n hn]
        split
        · rename_i h
          cases h
        · rfl
      rw [hnone, htold]
      exact ⟨by rw [hengine]; exact hwf, current_nil cfg site⟩

/-- **One call.**  What a call tells agrees with its passes. -/
theorem notifyObservers_current (hwf : s.engine.WF) :
    let x := coapNotifyObservers cfg site supply linked get batch resource none none s
    x.2.2.server.engine.WF ∧
      Current cfg site (callPasses cfg site supply linked get batch resource s)
        (x.2.1.told site ++ x.2.2.told site) := by
  intro x
  obtain ⟨hwf1, hown⟩ := ownPass_current cfg site supply linked get batch resource hwf
  have hx : x.2.2 = if site.numLinks resource = 0 then .start x.2.1.server
      else (coapNotifyCollections cfg site linked batch resource x.2.1.server).2 := rfl
  have hstart : ∀ t : Server, (Progress.start t).told site = [] := fun _ => rfl
  unfold callPasses
  dsimp only
  rw [hx]
  by_cases hn : site.numLinks resource = 0
  · rw [if_pos hn, if_pos (Or.inl hn), hstart]
    exact ⟨hwf1, hown.append (current_nil cfg site)⟩
  · rw [if_neg hn]
    unfold coapNotifyCollections
    by_cases hb : linked.buffer = true
    · rw [if_pos hb, if_neg (by simp [hn, hb])]
      have hrounds := notifyRounds_passes cfg site linked batch resource site.collections.length
        (ocGetNextCollectionWithLink site resource []) (.start x.2.1.server)
      obtain ⟨hwf2, hlinked⟩ := hrounds.told hwf1
      exact ⟨hwf2, hown.append hlinked⟩
    · rw [if_neg hb, if_pos (Or.inr (by simpa using hb)), hstart]
      exact ⟨hwf1, hown.append (current_nil cfg site)⟩

end

end

/-! ## removals -/

/-- buffers are given up, and stay where they are -/
structure GivenUp (s s' : Buffers) : Prop where
  requests : s'.requests = s.requests
  fresh : s'.fresh = s.fresh
  responses : ∀ n, Distinct BlockwiseState.id n s.responses →
    Distinct BlockwiseState.id n s'.responses

theorem GivenUp.refl (s : Buffers) : GivenUp s s := ⟨rfl, rfl, fun _ h => h⟩

theorem GivenUp.trans {s s' s'' : Buffers} (h : GivenUp s s') (h' : GivenUp s' s'') :
    GivenUp s s'' :=
  ⟨h'.requests.trans h.requests, h'.fresh.trans h.fresh,
    fun n hn => h'.responses n (h.responses n hn)⟩

section
variable (uri : Nat → List UInt8)

theorem givenUp_dismiss (s : Observers) (o : Observer) :
    GivenUp s.buffers (dismiss uri s o).buffers := by
  show GivenUp s.buffers (releaseResponse uri o s.buffers)
  unfold releaseResponse
  split
  · exact GivenUp.refl _
  · exact ⟨rfl, rfl, fun n h => h.put _⟩

theorem givenUp_removeFirst (p : Observer → Bool) (s : Observers) :
    GivenUp s.buffers (removeFirst uri p s).2.buffers := by
  unfold removeFirst
  split
  · exact GivenUp.refl _
  · exact givenUp_dismiss uri s _

theorem givenUp_removeAll (p : Observer → Bool) (s : Observers) :
    GivenUp s.buffers (removeAll uri p s).2.buffers := by
  show GivenUp s.buffers ((s.list.filter p).foldl (dismiss uri) s).buffers
  generalize s.list.filter p = l
  induction l generalizing s with
  | nil => exact GivenUp.refl _
  | cons o l ih =>
    rw [List.foldl_cons]
    exact (givenUp_dismiss uri s o).trans (ih _)

theorem givenUp_apply (op : ObserveOp) (s : Observers) :
    GivenUp s.buffers (op.apply uri s).buffers := by
  have huri : ∀ endpoint path,
      (coapRemoveObserverHandleByUri endpoint path s).2.buffers = s.buffers := by
    intro endpoint path
    unfold coapRemoveObserverHandleByUri
    split <;> rfl
  cases op with
  | register x =>
    show GivenUp s.buffers (addObserver x s).2.buffers
    have h : (addObserver x s).2.buffers = s.buffers := by
      unfold addObserver
      dsimp only
      split <;> exact huri _ _
    rw [h]
    exact GivenUp.refl _
  | removeByUri endpoint path =>
    show GivenUp s.buffers (coapRemoveObserverHandleByUri endpoint path s).2.buffers
    rw [huri]
    exact GivenUp.refl _
  | removeByClient endpoint => exact givenUp_removeAll uri _ s
  | removeByToken endpoint token => exact givenUp_removeFirst uri _ s
  | removeByMid endpoint mid => exact givenUp_removeFirst uri _ s
  | removeByResource resource => exact givenUp_removeAll uri _ s
  | notify i mid counted => exact GivenUp.refl _

end

/-! ## runs -/

section
variable {cfg : Config} {site : Site} {b : Bulletin}

/-- the log of a run agrees with its passes -/
theorem BulletinRun.current (h : BulletinRun cfg site b) :
    b.server.engine.WF ∧ Current cfg site b.passes b.log := by
  induction h with
  | init currentMid handles => exact ⟨State.init_wf currentMid, current_nil cfg site⟩
  | @step b st _ ih =>
    obtain ⟨hwf, hcurrent⟩ := ih
    cases st with
    | notify supply linked get batch resource =>
      obtain ⟨hwf', hcall⟩ := notifyObservers_current cfg site supply linked get batch resource hwf
      exact ⟨hwf', hcurrent.append hcall⟩
    | engine st => exact ⟨step_wf st hwf, hcurrent⟩
    | observers op =>
      have h := givenUp_apply site.uri op b.server.observers
      refine ⟨⟨?_, ?_, ?_⟩, hcurrent⟩
      · show Distinct BlockwiseState.id (op.apply site.uri b.server.observers).buffers.fresh
          (op.apply site.uri b.server.observers).buffers.requests
        rw [h.fresh, h.requests]
        exact hwf.requests
      · show Distinct BlockwiseState.id (op.apply site.uri b.server.observers).buffers.fresh
          (op.apply site.uri b.server.observers).buffers.responses
        rw [h.fresh]
        exact h.responses _ hwf.responses
      · show Distinct Transaction.id (op.apply site.uri b.server.observers).buffers.fresh
          b.server.engine.transactions
        rw [h.fresh]
        exact hwf.transactions
    | handles handles => exact ⟨hwf, hcurrent⟩

/-- **What observers know.**  In every run, if the latest pass for a resource got what it asked for,
the observers that it found for the resource and did not skip have been told its representation
last. -/
theorem told_latest_run (cfg : Config) (site : Site) (b : Bulletin) (hr : BulletinRun cfg site b)
    (resource : Nat) (P : Pass) (hp : b.latest resource = some P) (hs : P.Supplied cfg site)
    (i : Nat) (o : Observer) (ho : P.server.list[i]? = some o) (hres : o.resource = resource)
    (hskip : ¬ P.Skips site i o) : b.lastTold o = some P.representation := by
  obtain ⟨e, he, hrep⟩ := hr.current.2.told resource P hp hs i o ho hres hskip
  unfold Bulletin.lastTold
  rw [he, Option.map_some, hrep]

end

/-! ## sample inputs -/

/-- an observer of resource `0` that takes blocks of sixteen bytes -/
def sampleRegistered : Bulletin :=
  Bulletin.step defaultConfig (sampleSite [])
    (.observers (.register ⟨0, 16, sampleEndpoint 5683, [1], [0x61], true⟩))
    (.init 0 fun _ => ⟨false, [], []⟩)

/-- seventeen bytes, one more than a block has -/
def sampleChange (byte : UInt8) : Representation := ⟨69, List.replicate 17 byte⟩

def sampleNotify (byte : UInt8) (b : Bulletin) : Bulletin :=
  b.step defaultConfig (sampleSite [])
    (.notify sampleSupply sampleSupply (.representation (sampleChange byte)) (fun _ => ⟨69, []⟩) 0)

/-- the client asks for block `1`, which is the last one -/
def sampleFetch (b : Bulletin) : Bulletin :=
  b.step defaultConfig (sampleSite [])
    (.engine (.receive (sampleEnv [] length_nil_lt)
      (sampleMessage 5683 [0x40, 0x01, 0x00, 0x07, 0xB1, 0x61, 0xC1, 0x10])))

def samplePass (byte : UInt8) (b : Bulletin) : Pass :=
  ⟨0, sampleChange byte, b.server, sampleSupply.env⟩

theorem samplePass_supplied {b : Bulletin} (byte : UInt8)
    (h : b.server.list.map (fun o => (o.endpoint, o.block2Size)) = [(sampleEndpoint 5683, 16)]) :
    (samplePass byte b).Supplied defaultConfig (sampleSite []) := by
  refine ⟨fun _ => rfl, fun _ => rfl, List.cons_ne_nil _ _, ⟨.ok, rfl⟩,
    by simp [samplePass, sampleChange], fun o ho _ => ?_⟩
  have hin : (o.endpoint, o.block2Size) ∈ b.server.list.map (fun o => (o.endpoint, o.block2Size)) :=
    List.mem_map_of_mem ho
  rw [h, List.mem_singleton, Prod.mk.injEq] at hin
  obtain ⟨he, hb⟩ := hin
  exact ⟨by rw [he]; decide, by rw [hb]; decide⟩

theorem latest_sampleNotify {b : Bulletin} (byte : UInt8) (h : b.server.numObservers 0 ≠ 0) :
    (sampleNotify byte b).latest 0 = some (samplePass byte b) := by
  have hown : ownPass sampleSupply 0 (.representation (sampleChange byte)) b.server =
      some (samplePass byte b) := if_neg (by simp [h, sampleSupply])
  show lastOf Pass.resource 0 (b.passes ++ ((ownPass sampleSupply 0
    (.representation (sampleChange byte)) b.server).toList ++ [])) = _
  rw [hown, lastOf_append]
  rfl

/-- a second notification finds the buffer of the first one; when the client has fetched all blocks,
the first one is still what it has been told last -/
theorem stale_observer :
    ∃ b P, BulletinRun defaultConfig (sampleSite []) b ∧ b.server.engine.responses = [] ∧
      b.latest 0 = some P ∧ P.Supplied defaultConfig (sampleSite []) ∧
        ∃ o ∈ b.server.list, o.resource = 0 ∧ (∃ a ∈ P.server.list, a.mark = o.mark) ∧
          b.lastTold o ≠ some P.representation := by
  have hrun : BulletinRun defaultConfig (sampleSite [])
      (sampleFetch (sampleNotify 2 (sampleNotify 1 sampleRegistered))) :=
    .step _ (.step _ (.step _ (.step _ (.init 0 fun _ => ⟨false, [], []⟩))))
  have hlatest := latest_sampleNotify (b := sampleNotify 1 sampleRegistered) 2 (by decide)
  have hsupplied := samplePass_supplied (b := sampleNotify 1 sampleRegistered) 2 (by decide)
  have hresponses : (sampleFetch (sampleNotify 2 (sampleNotify 1
      sampleRegistered))).server.engine.responses.length = 0 := by decide
  have hsame : (sampleFetch (sampleNotify 2 (sampleNotify 1 sampleRegistered))).server.list.map
      Observer.mark = (sampleNotify 1 sampleRegistered).server.list.map Observer.mark := by
    decide
  have hlist : (sampleFetch (sampleNotify 2 (sampleNotify 1 sampleRegistered))).server.list.map
      (fun o => (o.resource, ((sampleFetch (sampleNotify 2 (sampleNotify 1
        sampleRegistered))).lastTold o).map Representation.body)) =
      [(0, some (List.replicate 17 1))] := by decide
  have hlatest' : (sampleFetch (sampleNotify 2 (sampleNotify 1 sampleRegistered))).latest 0 =
      some (samplePass 2 (sampleNotify 1 sampleRegistered)) := hlatest
  generalize sampleFetch (sampleNotify 2 (sampleNotify 1 sampleRegistered)) = b
    at hrun hlatest' hresponses hsame hlist
  obtain ⟨o, ho, hboth⟩ := List.map_eq_singleton_iff.mp hlist
  obtain ⟨hres, htold⟩ := Prod.mk.inj hboth
  have hin : o ∈ b.server.list := by
    rw [ho]
    exact List.mem_singleton_self o
  have hmark : o.mark ∈ b.server.list.map Observer.mark := List.mem_map_of_mem hin
  rw [hsame] at hmark
  refine ⟨b, _, hrun, List.length_eq_zero_iff.mp hresponses, hlatest', hsupplied, o, hin, hres,
    List.mem_map.mp hmark, fun h => ?_⟩
  rw [h] at htold
  revert htold
  decide

/-- the first notification -/
theorem told_latest_run_one :
    ∃ o ∈ (sampleNotify 1 sampleRegistered).server.list,
      (sampleNotify 1 sampleRegistered).lastTold o = some (sampleChange 1) := by
  have hrun : BulletinRun defaultConfig (sampleSite []) (sampleNotify 1 sampleRegistered) :=
    .step _ (.step _ (.init 0 fun _ => ⟨false, [], []⟩))
  have hlatest := latest_sampleNotify (b := sampleRegistered) 1 (by decide)
  have hsupplied := samplePass_supplied (b := sampleRegistered) 1 (by decide)
  have hskip : ¬ (samplePass 1 sampleRegistered).Skips (sampleSite []) 0
      ⟨0, [0x61], sampleEndpoint 5683, [1], 0, 16, 3⟩ := by
    rintro ⟨_, hfound | ⟨a, ha, _⟩⟩
    · exact hfound rfl
    · exact absurd ha List.not_mem_nil
  have htold := told_latest_run defaultConfig (sampleSite []) _ hrun 0 _ hlatest hsupplied 0
    ⟨0, [0x61], sampleEndpoint 5683, [1], 0, 16, 3⟩ rfl rfl hskip
  have hlist : (sampleNotify 1 sampleRegistered).server.list.map Observer.mark =
      [⟨0, sampleEndpoint 5683, [0x61], [1]⟩] := by decide
  obtain ⟨o, ho, hmark⟩ := List.map_eq_singleton_iff.mp hlist
  refine ⟨o, by rw [ho]; exact List.mem_singleton_self o, ?_⟩
  unfold Bulletin.lastTold at htold ⊢
  rw [hmark]
  exact htold

end Coap
