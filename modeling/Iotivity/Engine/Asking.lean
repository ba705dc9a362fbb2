import Iotivity.Engine.Client
import Iotivity.Engine.Owners

/-!
# What requests do to a client

A request makes a callback, and a `PUT` or a `POST` makes a request buffer for it.  Nothing else that a client
has is changed.

* `Asking s s'`   callbacks and request buffers may have been made between `s` and `s'`;
* `run_asks`      a call of the client, or an init and a do call.
-/

namespace Coap
open Memory Keyed

/-- a callback that has kept its endpoint and its token -/
structure SameCb (cb cb' : ClientCb) : Prop where
  id : cb'.id = cb.id
  endpoint : cb'.endpoint = cb.endpoint
  token : cb'.token = cb.token

/-- a request buffer that has been made for a callback, with its endpoint -/
structure MadeSince (s s' : State) (b : BlockwiseState) (cb : Nat) : Prop where
  id : s.fresh ≤ b.id
  owner : b.clientCb = some cb
  lt : cb < s'.fresh
  endpoint : ∀ c ∈ s'.clientCbs, c.id = cb → b.endpoint = c.endpoint

/-- Requests may have been made; their callbacks and buffers have new addresses.  Otherwise a client has
what it had, or less. -/
structure Asking (s s' : State) : Prop where
  fresh : s.fresh ≤ s'.fresh
  wf : s.WF → s'.WF
  distinct : Distinct ClientCb.id s.fresh s.clientCbs → Distinct ClientCb.id s'.fresh s'.clientCbs
  clientCbs : Descends (fun cb => s.fresh ≤ cb.id) SameCb s.clientCbs s'.clientCbs
  requests : ∀ b' ∈ s'.requests, b'.role = .client →
    (∃ b ∈ s.requests, SameOwner b b') ∨ ∃ cb, MadeSince s s' b' cb
  responses : ∀ b' ∈ s'.responses, b'.role = .client → ∃ b ∈ s.responses, SameBytes b b'

/-! ## the relation composes -/

theorem SameCb.refl (cb : ClientCb) : SameCb cb cb := ⟨rfl, rfl, rfl⟩

theorem SameCb.trans {a b c : ClientCb} (h : SameCb a b) (h' : SameCb b c) : SameCb a c :=
  ⟨h'.id.trans h.id, h'.endpoint.trans h.endpoint, h'.token.trans h.token⟩

/-- steps that mind the client's buffers -/
theorem Minds.asks {s s' : State} (h : Minds s s') (hwf : s.WF → s'.WF) : Asking s s' := by
  obtain ⟨p, hp⟩ := h.clientCbs
  refine ⟨h.fresh, hwf, fun hd => ?_, ?_, fun b' hb' hr => ?_, fun b' hb' hr => ?_⟩
  · rw [hp]
    exact (hd.filter p).mono h.fresh
  · refine Descends.of_subset SameCb.refl fun cb hcb => ?_
    rw [hp] at hcb
    exact List.mem_of_mem_filter hcb
  · rcases h.requests b' hb' with hs | hb
    · exact absurd (hr.symm.trans hs) (by simp)
    · exact Or.inl hb
  · rcases h.responses b' hb' with hs | hb
    · exact absurd (hr.symm.trans hs) (by simp)
    · exact hb

theorem Asking.trans {s s' s'' : State} (h : Asking s s') (h' : Asking s' s'') : Asking s s'' := by
  refine ⟨h.fresh.trans h'.fresh, fun hs => h'.wf (h.wf hs), fun hd => h'.distinct (h.distinct hd),
    fun cb hcb => ?_, fun b hb hr => ?_, fun b hb hr => ?_⟩
  · rcases h'.clientCbs cb hcb with hn | ⟨c, hc, hcc⟩
    · exact Or.inl (h.fresh.trans hn)
    · rcases h.clientCbs c hc with hn | ⟨d, hd, hdc⟩
      · exact Or.inl (hn.trans_eq hcc.id.symm)
      · exact Or.inr ⟨d, hd, hdc.trans hcc⟩
  · rcases h'.requests b hb hr with ⟨c, hc, hcb⟩ | ⟨cb, hm⟩
    · rcases h.requests c hc (hcb.role.symm.trans hr) with ⟨d, hd, hdc⟩ | ⟨cb, hm⟩
      · exact Or.inl ⟨d, hd, hdc.trans hcb⟩
      · -- its callback is one of those in between
        refine Or.inr ⟨cb, hcb.id ▸ hm.id, hcb.clientCb.trans hm.owner,
          hm.lt.trans_le h'.fresh, fun c hc hid => ?_⟩
        rcases h'.clientCbs c hc with hn | ⟨d, hd, hdc⟩
        · have := hm.lt
          omega
        · rw [hcb.endpoint, hdc.endpoint]
          exact hm.endpoint d hd (hdc.id.symm.trans hid)
    · exact Or.inr ⟨cb, h.fresh.trans hm.id, hm.owner, hm.lt, hm.endpoint⟩
  · obtain ⟨c, hc, hcb⟩ := h'.responses b hb hr
    obtain ⟨d, hd, hdc⟩ := h.responses c hc (hcb.owner.role.symm.trans hr)
    exact ⟨d, hd, hdc.trans hcb⟩

/-! ## what a request takes -/

section
variable {cfg : Config} {call : RequestCall} {cb cb' : ClientCb} {b b' : BlockwiseState} {s s' : State}

theorem Asking.refl (s : State) : Asking s s := (Minds.refl s).asks fun h => h

/-- buffers and callbacks are freed -/
theorem Shrinks.asks (h : Shrinks s s') (hc : ∃ p, s'.clientCbs = s.clientCbs.filter p) : Asking s s' :=
  (h.minds hc).asks h.wf

/-- a callback with a new address, which is then filled -/
theorem asks_newCb (hid : cb.id = s.fresh) (hid' : cb'.id = s.fresh) (mid : UInt16) :
    Asking s { s with
      clientCbs := Keyed.put ClientCb.id cb' (s.clientCbs ++ [cb])
      currentMid := mid
      fresh := s.fresh + 1 } := by
  have hle := Nat.le_succ s.fresh
  refine ⟨hle, fun h => ⟨h.requests.mono hle, h.responses.mono hle, h.transactions.mono hle⟩,
    fun h => (h.snoc hid).put cb', fun c hc => ?_, fun x hx _ => Or.inl ⟨x, hx, SameOwner.refl x⟩,
    fun x hx _ => ⟨x, hx, SameBytes.refl x⟩⟩
  rcases mem_put hc with rfl | ⟨hc, _⟩
  · exact Or.inl hid'.ge
  · rcases List.mem_append.mp hc with hc | hc
    · exact Or.inr ⟨c, hc, SameCb.refl c⟩
    · rw [List.mem_singleton.mp hc]
      exact Or.inl hid.ge

theorem asks_newTransaction {granted : Bool} {mid : UInt16} {endpoint : Endpoint} {o : Option Nat}
    (h : coapNewTransaction granted mid endpoint s = (o, s')) : Asking s s' := by
  refine (minds_newTransaction h).asks ?_
  cases o with
  | none =>
    obtain ⟨_, rfl⟩ := coapNewTransaction_none h
    exact fun hs => hs
  | some id => exact (settles_newTransaction none h).wf

/-- a request buffer is made for a callback -/
theorem asks_newRequest {a : Alloc} {href : List UInt8} {method : UInt8} {buffers : Buffers}
    (hlt : cb.id < s.fresh) (hcb : ∀ c ∈ s.clientCbs, c.id = cb.id → c.endpoint = cb.endpoint)
    (h : ocBlockwiseAllocRequestBuffer a href cb.endpoint method .client s.toBuffers
      = (some b, buffers)) (mid : UInt16) :
    Asking s (s.withBuffers fun _ => buffers.putRequest { b with mid, clientCb := some cb.id }) := by
  obtain ⟨rfl, hid, he⟩ : { s.toBuffers with requests := s.requests ++ [b], fresh := s.fresh + 1 } = buffers ∧
      b.id = s.fresh ∧ b.endpoint = cb.endpoint := by
    unfold ocBlockwiseAllocRequestBuffer ocBlockwiseInitBuffer at h
    split at h
    · exact absurd (Prod.mk.inj h).1 (by simp)
    · rename_i x hx
      obtain ⟨h1, h2⟩ := Prod.mk.inj h
      obtain rfl := Option.some.inj h1
      split at hx
      · exact absurd hx (by simp)
      · split at hx
        · obtain rfl := Option.some.inj hx
          exact ⟨h2, rfl, rfl⟩
        · exact absurd hx (by simp)
  have hle := Nat.le_succ s.fresh
  refine ⟨hle, fun h => ⟨(h.requests.snoc hid).put _, h.responses.mono hle, h.transactions.mono hle⟩,
    fun h => h.mono hle, Descends.refl SameCb.refl _, fun x hx _ => ?_,
    fun x hx _ => ⟨x, hx, SameBytes.refl x⟩⟩
  rcases mem_put hx with rfl | ⟨hx, hne⟩
  · refine Or.inr ⟨cb.id, hid.ge, rfl, hlt.trans_le hle, fun c hc hceq => ?_⟩
    exact he.trans (hcb c hc hceq).symm
  · rcases List.mem_append.mp hx with hx | hx
    · exact Or.inl ⟨x, hx, SameOwner.refl x⟩
    · exact absurd (congrArg BlockwiseState.id (List.mem_singleton.mp hx)) hne

/-- a store to a request buffer -/
theorem asks_putRequest (hb : b ∈ s.requests) (h : SameOwner b b') :
    Asking s (s.withBuffers (·.putRequest b')) := by
  refine ⟨le_refl _, fun hs => ⟨hs.requests.put b', hs.responses, hs.transactions⟩, fun hd => hd,
    Descends.refl SameCb.refl _, fun x hx _ => Or.inl ?_, fun x hx _ => ⟨x, hx, SameBytes.refl x⟩⟩
  rcases mem_put hx with rfl | ⟨hx, _⟩
  · exact ⟨b, hb, h⟩
  · exact ⟨x, hx, SameOwner.refl x⟩

theorem fillRequest_owner (cfg : Config) (call : RequestCall) (tcp : Bool) (b : BlockwiseState)
    (p : Message) : SameOwner b (fillRequest cfg call tcp b p).1 := by
  unfold fillRequest ocBlockwiseDispatchBlock
  dsimp only
  repeat' split
  all_goals exact ⟨rfl, rfl, rfl, rfl⟩

theorem asks_sendSerialized (env : Env) (id : Nat) (mid : UInt16) (endpoint : Endpoint) (packet : Message)
    (s : State) : Asking s (sendSerialized env id mid endpoint packet s).2.1 := by
  unfold sendSerialized
  dsimp only
  split
  · exact (minds_clearTransaction id s).asks (settles_clearTransaction id s).wf
  · exact (minds_putSend _ _ _ s).asks (settles_putSend _ _ s rfl).wf

/-! ## calls -/

theorem prepareCoapRequest_asks {s : Session} (hlt : cb.id < s.engine.fresh)
    (hcb : ∀ c ∈ s.engine.clientCbs, c.id = cb.id → c.endpoint = cb.endpoint) :
    Asking s.engine (prepareCoapRequest call cb s).2.engine := by
  unfold prepareCoapRequest
  split
  · rename_i e hn
    exact asks_newTransaction hn
  · rename_i id e hn
    have h1 := asks_newTransaction hn
    obtain ⟨_, _, he⟩ := coapNewTransaction_some hn
    dsimp only
    split
    · split
      · exact h1
      · rename_i b buffers ha
        refine h1.trans (asks_newRequest ?_ ?_ ha cb.mid)
        · exact hlt.trans_le h1.fresh
        · rw [he]
          exact hcb
    · exact h1

theorem prepareWith_asks (call : RequestCall) (method : UInt8) (observeSeq : UInt32) (s : Session) :
    Asking s.engine (prepareWith call method observeSeq s).2.engine := by
  unfold prepareWith ocRiAllocClientCb coapGetMid
  by_cases hg : call.cbGranted = true
  · rw [if_pos hg]
    dsimp only
    refine Asking.trans ?_ (prepareCoapRequest_asks ?_ ?_)
    · exact asks_newCb rfl rfl (s.engine.currentMid + 1)
    · exact Nat.lt_succ_self s.engine.fresh
    · -- every callback with the new address has been replaced
      intro c hc hid
      rcases mem_put hc with rfl | ⟨_, hne⟩
      · rfl
      · exact absurd hid hne
  · rw [if_neg hg]
    exact Asking.refl s.engine

theorem loadPayload_asks {s s' : Session} (h : loadPayload cfg call cb s = some s') :
    Asking s.engine s'.engine := by
  unfold loadPayload at h
  split at h
  · obtain ⟨b, hb, rfl⟩ := Option.map_eq_some_iff.mp h
    exact asks_putRequest (List.mem_of_find?_eq_some hb) (fillRequest_owner _ _ _ _ _)
  · obtain rfl := Option.some.inj h
    exact Asking.refl s.engine

theorem releaseBuffer_asks (s : Session) : Asking s.engine s.releaseBuffer.engine := by
  unfold Session.releaseBuffer
  split
  · exact Asking.refl s.engine
  · rename_i b _
    split
    · exact (shrinks_freeRequest b.id s.engine).asks ⟨fun _ => true, (List.filter_true _).symm⟩
    · exact Asking.refl s.engine

theorem dispatchPacket_asks (call : RequestCall) (cb : ClientCb) (id : Nat) (s : Session) :
    Asking s.engine (dispatchPacket call cb id s).2.1.engine := by
  unfold dispatchPacket
  dsimp only
  refine Asking.trans ?_ (releaseBuffer_asks _)
  generalize (if call.encoded = [] then s.request else _ : Message) = packet
  have h1 := asks_sendSerialized call.env id cb.mid cb.endpoint packet s.engine
  split
  · exact h1
  · exact h1.trans ((shrinks_freeClientCb cb.id _).asks ⟨_, rfl⟩)

theorem dispatchCoapRequest_asks (cfg : Config) (call : RequestCall) (s : Session) :
    Asking s.engine (dispatchCoapRequest cfg call s).2.1.engine := by
  unfold dispatchCoapRequest
  split
  · rename_i cb id _ _
    unfold dispatchWith
    split
    · exact Asking.refl s.engine
    · rename_i s' hl
      exact (loadPayload_asks hl).trans (dispatchPacket_asks call cb id s')
  · exact Asking.refl s.engine

/-- **A request** makes a callback and a buffer for it, and changes nothing else that a client has. -/
theorem ClientSequence.run_asks (k : ClientSequence) (cfg : Config) (call : RequestCall) (s : Session) :
    Asking s.engine (k.run cfg call s).2.1.engine := by
  rw [k.run_eq]
  have h1 := prepareWith_asks call k.method k.observeSeq s
  unfold requestWith
  generalize prepareWith call k.method k.observeSeq s = r at h1 ⊢
  obtain ⟨ok, s'⟩ := r
  cases ok with
  | false => exact h1
  | true => exact h1.trans (dispatchCoapRequest_asks cfg call s')

end

end Coap
