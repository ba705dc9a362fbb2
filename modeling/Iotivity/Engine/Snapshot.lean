import Iotivity.Engine.Exchange
import Iotivity.Engine.Labels

/-!
# Representations in blocks

A representation that is longer than a block stays in a response buffer, and requests with Block2 and a
number above zero get the rest of it.  They find the buffer by the key of the exchange.

* `latest e m tr`     what the handler has produced for the last request of the exchange that asked for
                      a representation;
* `Consistent tr`     every payload that was sent for a block number above zero is a part of it, and has
                      its ETag;
* `Unstale`           a request that asks for a representation finds no buffer of its exchange with an
                      older one, and one that goes on finds a buffer with its path;
* `consistent_run`    a run of such steps is consistent.

A buffer stays in front of the one that is made for a later request of the exchange, and a request
with block number zero is served from it without asking the handler: `not_consistent`.
-/

namespace Coap
open Memory Keyed History

/-! ## definitions -/

/-- the request goes to the handler: no Block option, the first block of a response, or the last block
of an upload -/
def asks (m : Message) : Bool :=
  match coapGetHeaderBlock1 m, coapGetHeaderBlock2 m with
  | some o, _ => o.more == 0
  | none, some o => o.num == 0
  | none, none => true

/-- Block2 with a number above zero -/
def Continues (m : Message) : Prop := ∃ o, coapGetHeaderBlock2 m = some o ∧ o.num ≠ 0

/-- a representation, with the ETag it goes by -/
structure Snapshot where
  content : List UInt8
  etag : List UInt8

def snapshotStep (e : Endpoint) (m : Message) (cur : Option Snapshot) : Event → Option Snapshot
  | .accepted e' m' => if Akin e m e' m' ∧ asks m' then none else cur
  | .produced e' m' _ rep etag => if Akin e m e' m' then some ⟨rep, etag⟩ else cur
  | _ => cur

/-- what has been produced for the last request of the exchange that asked -/
def latest (e : Endpoint) (m : Message) (tr : List Event) : Option Snapshot :=
  tr.foldl (snapshotStep e m) none

/-- a packet with a part of a representation -/
structure CutFrom (r : Snapshot) (p : Message) : Prop where
  payload : p.payload <:+: r.content
  option : coapOptionEtag ∈ p.options
  etag : p.etag = r.etag

def Consistent (tr : List Event) : Prop :=
  Always (fun before ev =>
    match ev with
    | .sending e m p _ => m.IsRequest → Continues m → p.payload ≠ [] →
      ∃ r, latest e m before = some r ∧ CutFrom r p
    | _ => True) tr

/-- A request with both Block options is answered by the handler, and over TCP without an ETag. -/
def Unstale (cfg : Config) (s : State) : Step → Prop
  | .receive env msg => ∀ m, Handles cfg env msg s m →
    (asks m → ∀ b ∈ s.responses, (requestLookup msg.endpoint m).Owns b → b.payloadSize = 0) ∧
      (Continues m →
        match coapGetHeaderBlock1 m with
        | none => ∀ b, findServerResponse msg.endpoint m s = some b → b.href = coapGetHeaderUriPath m
        | some _ => msg.endpoint.flags.tcp = false)
  | _ => True

/-! ## new buffers -/

/-- a buffer that has been made for a request: empty, or with the representation -/
structure MadeFor (endpoint : Endpoint) (m : Message) (r : Option Snapshot) (b : BlockwiseState) :
    Prop where
  endpoint : b.endpoint = endpoint
  href : b.href = coapGetHeaderUriPath m
  query : b.uriQuery = coapGetHeaderUriQuery m
  method : b.method = m.code
  role : b.role = .server
  content : b.payloadSize = 0 ∨ r = some ⟨b.payload, b.etag⟩ ∧ b.etag.length ≤ coapEtagLen

/-- what a server may find in its list after a request -/
def Renewed (endpoint : Endpoint) (m : Message) (r : Option Snapshot) (s s' : State) : Prop :=
  Descends (fun b => b.role = .client ∨ MadeFor endpoint m r b) SameRep s.responses s'.responses

section
variable {cfg : Config} {env : Env} {endpoint : Endpoint} {m : Message} {r : Option Snapshot}
  {s s' s'' : State} {l l' : Locals} {b b' : BlockwiseState}

theorem MadeFor.same (h : MadeFor endpoint m r b) (hs : SameRep b b') : MadeFor endpoint m r b' := by
  obtain ⟨h1, h2, h3⟩ := hs.content h.role
  refine ⟨hs.key.endpoint.trans h.endpoint, hs.key.href.trans h.href, hs.key.uriQuery.trans h.query,
    hs.key.method.trans h.method, hs.key.role.trans h.role, ?_⟩
  unfold BlockwiseState.payload
  rw [h1, h2, h3]
  exact h.content

theorem Renewed.refl (s : State) : Renewed endpoint m r s s := Descends.refl SameRep.refl _

theorem Renewed.trans (h : Renewed endpoint m r s s') (h' : Renewed endpoint m r s' s'') :
    Renewed endpoint m r s s'' := by
  refine Descends.trans (fun x y hx hxy => ?_) (fun _ _ _ h1 h2 => h1.trans h2) h h'
  exact hx.imp (fun hc => hxy.key.role.trans hc) (fun hn => hn.same hxy)

theorem QuietResponses.renewed (h : QuietResponses s s') : Renewed endpoint m r s s' :=
  fun b hb => (h b hb).imp_left Or.inl

theorem Renewed.of_eq (h : s'.responses = s.responses) : Renewed endpoint m r s s' := by
  unfold Renewed
  rw [h]
  exact Renewed.refl s

/-- a store to a buffer that has been made for the request -/
theorem Renewed.setResponse (h : MadeFor endpoint m r b) :
    Renewed endpoint m r l.state (l.setResponse b).state := by
  intro y hy
  rcases mem_put hy with rfl | ⟨hin, _⟩
  · exact Or.inl (Or.inr h)
  · exact Or.inr ⟨y, hin, SameRep.refl y⟩

/-- the empty buffer for a response -/
theorem allocResponse_made (r : Option Snapshot)
    (h : (l.allocResponse env endpoint m).responseBuffer = some b) : MadeFor endpoint m r b := by
  obtain ⟨_, _, rfl⟩ := allocResponse_some env endpoint m h
  rw [setQuery_eq _ _ rfl]
  exact ⟨rfl, rfl, rfl, rfl, rfl, Or.inl rfl⟩

theorem allocResponse_renewed (l : Locals) :
    Renewed endpoint m r l.state (l.allocResponse env endpoint m).state := by
  cases hb : (l.allocResponse env endpoint m).responseBuffer with
  | none =>
    refine Renewed.of_eq ?_
    unfold Locals.allocResponse at hb ⊢
    dsimp only at hb ⊢
    rcases newResponse_cases env (coapGetHeaderUriPath m) endpoint m.code .server l with
      ⟨e, _⟩ | ⟨b0, _, _, _, e⟩
    · rw [e]
      rfl
    · rw [e] at hb
      exact absurd hb (by simp [Locals.setResponse])
  | some b =>
    have hmade := allocResponse_made r hb
    unfold Locals.allocResponse at hb ⊢
    dsimp only at hb ⊢
    rcases newResponse_cases env (coapGetHeaderUriPath m) endpoint m.code .server l with
      ⟨e, _⟩ | ⟨b0, _, _, _, e⟩
    · rw [e] at hb
      exact absurd hb (by simp [Locals.pointResponse])
    · rw [e] at hb ⊢
      obtain rfl := Option.some.inj hb
      intro y hy
      rcases mem_put hy with rfl | ⟨hin, hne⟩
      · exact Or.inl (Or.inr hmade)
      · rcases List.mem_append.mp hin with hin | hin
        · exact Or.inr ⟨y, hin, SameRep.refl y⟩
        · -- the buffer without its query is the one that has been stored over
          rw [List.mem_singleton.mp hin] at hne
          refine absurd ?_ hne
          unfold setQuery
          split <;> rfl

/-! ## the entity handler -/

theorem consumePayload_responses (l : Locals) :
    (consumePayload l).state.responses = l.state.responses := by
  unfold consumePayload
  repeat' split
  all_goals rfl

theorem reachResource_renewed (l : Locals) :
    Renewed endpoint m r l.state (reachResource env endpoint m l).state := by
  have h1 : Renewed endpoint m r l.state (consumePayload l).state :=
    Renewed.of_eq (consumePayload_responses l)
  unfold reachResource
  split
  · exact h1.trans (allocResponse_renewed _)
  · exact h1

/-- the buffer of the response while the handler is at work: the representation is in it -/
structure Written (env : Env) (endpoint : Endpoint) (m : Message) (b : BlockwiseState) : Prop where
  made : MadeFor endpoint m (some ⟨env.entity.representation, env.etag.take coapEtagLen⟩) b
  buffer : read b.buffer 0 env.entity.representation.length = env.entity.representation
  etag : b.etag = env.etag.take coapEtagLen

theorem Written.same (h : Written env endpoint m b) (hs : SameRep b b') :
    Written env endpoint m b' := by
  obtain ⟨_, h2, h3⟩ := hs.content h.made.role
  exact ⟨h.made.same hs, by rw [h2]; exact h.buffer, h3.trans h.etag⟩

theorem Written.sized (h : Written env endpoint m b) :
    Written env endpoint m { b with payloadSize := env.entity.representation.length } := by
  refine ⟨⟨h.made.endpoint, h.made.href, h.made.query, h.made.method, h.made.role, Or.inr ⟨?_, ?_⟩⟩,
    h.buffer, h.etag⟩
  · show _ = some (Snapshot.mk (read b.buffer 0 env.entity.representation.length) b.etag)
    rw [h.buffer, h.etag]
  · show b.etag.length ≤ coapEtagLen
    rw [h.etag, List.length_take]
    exact Nat.min_le_left _ _

/-- a stage that works on the buffer of the response -/
structure Writes (env : Env) (endpoint : Endpoint) (m : Message) (l l' : Locals) : Prop where
  renewed : Renewed endpoint m (some ⟨env.entity.representation, env.etag.take coapEtagLen⟩)
    l.state l'.state
  written : ∃ b, l'.responseBuffer = some b ∧ Written env endpoint m b

theorem runHandler_writes (payload : List UInt8) (l' : Locals)
    (hb : (l.allocResponse env endpoint m).responseBuffer = some b) :
    Writes env endpoint m l' (runHandler env endpoint m payload b l') := by
  have hmade := allocResponse_made (some ⟨env.entity.representation, env.etag.take coapEtagLen⟩) hb
  obtain ⟨_, _, hb⟩ := allocResponse_some env endpoint m hb
  have hsize : b.payloadSize = 0 := by
    rw [hb, setQuery_eq _ _ rfl]
    rfl
  have hetag : b.etag = env.etag.take coapEtagLen := by
    rw [hb, setQuery_etag]
    rfl
  have hw : Written env endpoint m { b with buffer := write b.buffer 0 env.entity.representation } :=
    ⟨⟨hmade.endpoint, hmade.href, hmade.query, hmade.method, hmade.role, Or.inl hsize⟩,
      read_write_self b.buffer 0 env.entity.representation, hetag⟩
  exact ⟨Renewed.setResponse hw.made, _, rfl, hw⟩

theorem observeRequest_writes (hb : l.responseBuffer = some b) (hw : Written env endpoint m b) :
    Writes env endpoint m l (observeRequest env m l) := by
  have hdrop : Writes env endpoint m l (l.dropObservers env.gone) := by
    refine ⟨(quietResponses_dropObservers env.gone l.state).renewed, _, ?_,
      hw.same (sameRep_unref b (env.gone b.id))⟩
    show l.responseBuffer.map _ = _
    rw [hb]
    rfl
  unfold observeRequest
  split
  · exact ⟨Renewed.refl _, b, hb, hw⟩
  · dsimp only
    split
    · exact ⟨hdrop.renewed, hdrop.written⟩
    · exact hdrop

theorem answer_writes (cfg : Config) (hb : l.responseBuffer = some b) (hw : Written env endpoint m b) :
    Writes env endpoint m l (answer cfg env endpoint m l) := by
  unfold answer
  dsimp only
  split
  · exact ⟨Renewed.refl _, b, hb, hw⟩
  · split
    · exact ⟨Renewed.refl _, b, hb, hw⟩
    · rename_i c _
      rcases setReply_cases cfg m c env.entity.representation.length l with
        ⟨p, e⟩ | ⟨b', p, p', hb', _, e⟩
      · rw [e]
        exact ⟨Renewed.refl _, b, hb, hw⟩
      · rw [e]
        obtain rfl : b = b' := Option.some.inj (hb.symm.trans hb')
        exact ⟨Renewed.setResponse (l := l.withResponse p) hw.sized.made, _, rfl, hw.sized⟩

/-- without a representation the buffers are left alone -/
theorem setReply_empty (code : Nat) (l : Locals) : (setReply cfg m code 0 l).state = l.state := by
  rcases setReply_cases cfg m code 0 l with ⟨p, e⟩ | ⟨b', p, p', _, hpos, _⟩
  · rw [e]
    rfl
  · exact absurd hpos (by omega)

theorem Writes.trans {l'' : Locals} (h : Writes env endpoint m l l')
    (h' : Writes env endpoint m l' l'') : Writes env endpoint m l l'' :=
  ⟨h.renewed.trans h'.renewed, h'.written⟩

/-- **The entity handler.**  Either the handler of the resource has run, and what it has produced is in
the buffer of the response; or the buffers are as they were, up to an empty one. -/
theorem entityHandler_cases (cfg : Config) (env : Env) (endpoint : Endpoint) (m : Message)
    (l : Locals) :
    ((ocRiInvokeCoapEntityHandler cfg env endpoint m l).1 = false ∧
        (ocRiInvokeCoapEntityHandler cfg env endpoint m l).2.events = l.events ∧
        Renewed endpoint m none l.state
          (ocRiInvokeCoapEntityHandler cfg env endpoint m l).2.state) ∨
      ((ocRiInvokeCoapEntityHandler cfg env endpoint m l).1 = true ∧
        (∃ acks, (∀ ev ∈ acks, ev.Silent) ∧
          (ocRiInvokeCoapEntityHandler cfg env endpoint m l).2.events = l.events ++
            .produced endpoint m (requestPayload l) env.entity.representation
              (env.etag.take coapEtagLen) :: acks) ∧
        Writes env endpoint m l (ocRiInvokeCoapEntityHandler cfg env endpoint m l).2) := by
  unfold ocRiInvokeCoapEntityHandler
  dsimp only
  split
  · rename_i b href hb
    have he := reachResource_of_refusal env endpoint m href
    have hreach : Renewed endpoint m (some ⟨env.entity.representation, env.etag.take coapEtagLen⟩)
        l.state (reachResource env endpoint m l).state := reachResource_renewed l
    rw [he] at hb
    have hetag : b.etag = env.etag.take coapEtagLen := by
      obtain ⟨_, _, hb⟩ := allocResponse_some env endpoint m hb
      rw [hb, setQuery_etag]
      rfl
    have h1 := runHandler_writes (requestPayload l) (reachResource env endpoint m l) hb
    obtain ⟨b1, hb1, hw1⟩ := h1.written
    have h2 := observeRequest_writes hb1 hw1
    obtain ⟨b2, hb2, hw2⟩ := h2.written
    have h3 := answer_writes cfg hb2 hw2
    obtain ⟨acks, ha, hs⟩ := answer_events cfg env endpoint m (observeRequest env m
      (runHandler env endpoint m (requestPayload l) b (reachResource env endpoint m l)))
    refine Or.inr ⟨rfl, ⟨acks, hs, ?_⟩, hreach.trans ((h1.trans h2).trans h3).renewed, h3.written⟩
    rw [ha, observeRequest_events]
    show (reachResource env endpoint m l).events ++ [_] ++ acks = _
    rw [reachResource_events, hetag, List.append_assoc]
    rfl
  · refine Or.inl ⟨rfl, by rw [setReply_events, reachResource_events], ?_⟩
    dsimp only
    rw [setReply_empty]
    exact reachResource_renewed l

/-! ## the first block -/

theorem sameRep_dispatch (b : BlockwiseState) (offset size : Nat) :
    SameRep b (ocBlockwiseDispatchBlock b offset size).2 := by
  unfold ocBlockwiseDispatchBlock
  split <;> exact ⟨⟨rfl, rfl, rfl, rfl, rfl, rfl⟩, fun _ => ⟨rfl, rfl, rfl⟩⟩

theorem sameRep_refCount (b : BlockwiseState) (n : UInt8) : SameRep b { b with refCount := n } :=
  ⟨⟨rfl, rfl, rfl, rfl, rfl, rfl⟩, fun _ => ⟨rfl, rfl, rfl⟩⟩

theorem coapSetPayload_prefix (cfg : Config) (p : Message) (payload : List UInt8) :
    (coapSetPayload cfg p payload).payload <+: payload := by
  unfold coapSetPayload
  split <;> exact List.take_prefix _ _

theorem coapSetHeaderBlock2_payload (p : Message) (num : UInt32) (more : UInt8) (size : UInt16) :
    (coapSetHeaderBlock2 p num more size).payload = p.payload := by
  unfold coapSetHeaderBlock2
  split <;> rfl

/-- a packet with an ETag, and a payload that was cut from the buffer -/
theorem cutFrom_etag {p : Message} (part : List UInt8) (hp : p.payload <+: part)
    (hpart : part <:+: b.payload) (hlen : b.etag.length ≤ coapEtagLen) :
    CutFrom ⟨b.payload, b.etag⟩ (coapSetHeaderEtag p b.etag) :=
  ⟨hp.isInfix.trans hpart, Finset.mem_insert_self _ _, List.take_of_length_le hlen⟩

/-- the representation in the buffer, once its length is there -/
theorem Written.snapshot (h : Written env endpoint m b) (hsize : b.payloadSize ≠ 0) :
    (⟨env.entity.representation, env.etag.take coapEtagLen⟩ : Snapshot) = ⟨b.payload, b.etag⟩ ∧
      b.etag.length ≤ coapEtagLen := by
  obtain ⟨h1, h2⟩ := h.made.content.resolve_left hsize
  exact ⟨Option.some.inj h1, h2⟩

theorem wholeResponse_renewed (hw : Written env endpoint m b) :
    Renewed endpoint m (some ⟨env.entity.representation, env.etag.take coapEtagLen⟩) l.state
      (wholeResponse cfg l b).state :=
  Renewed.setResponse ((hw.same (sameRep_dispatch b _ _)).same (sameRep_refCount _ 0)).made

theorem firstBlock_renewed (block2 : Option BlockOption) (hw : Written env endpoint m b) :
    Renewed endpoint m (some ⟨env.entity.representation, env.etag.take coapEtagLen⟩) l.state
      (firstBlock cfg block2 l b).state := by
  have hw1 := hw.same (sameRep_dispatch b 0 (blockParams cfg block2).size.toNat)
  unfold firstBlock
  dsimp only
  split
  · exact Renewed.setResponse hw1.made
  · exact Renewed.setResponse (hw1.same (sameRep_refCount _ 0)).made

theorem firstBlock_cut {block2 : Option BlockOption} (hw : Written env endpoint m b)
    (h2 : block2.isSome) (hl : l.response.payload = [])
    (hne : (firstBlock cfg block2 l b).response.payload ≠ []) :
    CutFrom ⟨env.entity.representation, env.etag.take coapEtagLen⟩
      (firstBlock cfg block2 l b).response := by
  unfold firstBlock at hne ⊢
  dsimp only at hne ⊢
  generalize (blockParams cfg block2).size = z at hne ⊢
  rw [if_pos (Or.inl h2)] at hne ⊢
  rcases hd : ocBlockwiseDispatchBlock b 0 z.toNat with ⟨_ | part, b'⟩
  · -- nothing to send
    rw [hd] at hne
    refine absurd ?_ hne
    show (coapSetHeaderBlock2 l.response 0 _ z).payload = []
    rw [coapSetHeaderBlock2_payload, hl]
  · obtain ⟨hpos, hpart, rfl⟩ := dispatch_slice (Or.inl rfl) hd
    obtain ⟨hsnap, hlen⟩ := hw.snapshot (by omega)
    rw [hsnap]
    refine cutFrom_etag (b := b) part ?_ ?_ hlen
    · show (coapSetHeaderBlock2 (coapSetPayload cfg l.response part) 0 _ z).payload <+: part
      rw [coapSetHeaderBlock2_payload]
      exact coapSetPayload_prefix cfg l.response part
    · rw [hpart, List.drop_zero]
      exact (List.take_prefix _ _).isInfix

/-- **The request handler.**  Either nothing has been produced, and the response is empty; or what has
been produced is in a buffer, and the first block of it in the response. -/
theorem requestHandler_cases (cfg : Config) (env : Env) (endpoint : Endpoint) (m : Message)
    (block2 : Option BlockOption) (hs : l.Sound) (hl : NoBlock2 l.response) :
    ((requestHandler cfg env endpoint m block2 l).1.events
          = l.events ++ [.invoked endpoint m l.requestBuffer] ∧
        Renewed endpoint m none l.state (requestHandler cfg env endpoint m block2 l).1.state ∧
        (requestHandler cfg env endpoint m block2 l).1.response.payload = []) ∨
      ((∃ acks, (∀ ev ∈ acks, ev.Silent) ∧
          (requestHandler cfg env endpoint m block2 l).1.events
            = l.events ++ .invoked endpoint m l.requestBuffer ::
              .produced endpoint m (requestPayload l) env.entity.representation
                (env.etag.take coapEtagLen) :: acks) ∧
        Renewed endpoint m (some ⟨env.entity.representation, env.etag.take coapEtagLen⟩) l.state
          (requestHandler cfg env endpoint m block2 l).1.state ∧
        (block2.isSome → endpoint.flags.tcp = false →
          (requestHandler cfg env endpoint m block2 l).1.response.payload ≠ [] →
          CutFrom ⟨env.entity.representation, env.etag.take coapEtagLen⟩
            (requestHandler cfg env endpoint m block2 l).1.response)) := by
  have hsound := (stage_entityHandler cfg env endpoint m
    (l.emit (.invoked endpoint m l.requestBuffer))).sound ((stage_emit l _).sound hs)
  have hempty : NoBlock2 (ocRiInvokeCoapEntityHandler cfg env endpoint m
    (l.emit (.invoked endpoint m l.requestBuffer))).2.response := entityHandler_noBlock2 hl
  have hcases := entityHandler_cases cfg env endpoint m (l.emit (.invoked endpoint m l.requestBuffer))
  unfold requestHandler
  dsimp only
  generalize ocRiInvokeCoapEntityHandler cfg env endpoint m
    (l.emit (.invoked endpoint m l.requestBuffer)) = r at hsound hempty hcases ⊢
  rcases hcases with ⟨h1, hev, hren⟩ | ⟨h1, ⟨acks, hacks, hev⟩, hren, b, hb, hw⟩
  · refine Or.inl ?_
    rw [h1]
    dsimp only
    obtain ⟨h2, h3, _⟩ := unref_packet r.2
    rw [h2, h3]
    refine ⟨hev, hren.trans ?_, hempty.2⟩
    exact (settles_unref hsound none).responses.renewed
  · refine Or.inr ?_
    rw [h1, hb]
    dsimp only
    refine ⟨⟨acks, hacks, ?_⟩, ?_, fun h2 htcp hne => ?_⟩
    · rw [show l.events ++ Event.invoked endpoint m l.requestBuffer ::
        Event.produced endpoint m (requestPayload l) env.entity.representation
          (env.etag.take coapEtagLen) :: acks = (l.emit (.invoked endpoint m l.requestBuffer)).events ++
            .produced endpoint m (requestPayload l) env.entity.representation
              (env.etag.take coapEtagLen) :: acks from by simp [Locals.emit]]
      refine Eq.trans ?_ hev
      split
      · rfl
      · unfold firstBlock
        dsimp only
        split <;> rfl
    · refine Renewed.trans hren ?_
      split
      · exact wholeResponse_renewed hw
      · exact firstBlock_renewed block2 hw
    · simp only [htcp, Bool.false_eq_true, if_false] at hne ⊢
      exact firstBlock_cut hw h2 hempty.2 hne

/-! ## the branches -/

theorem storePayload_responses (n : UInt8) (l : Locals) :
    (storePayload cfg env endpoint m n l).1.state.responses = l.state.responses := by
  rcases storePayload_cases cfg env endpoint m n l with ⟨_, _, e⟩ | ⟨_, e⟩ <;> rw [e] <;>
    rcases allocRequest_cases env endpoint m l with ⟨_, e'⟩ | ⟨_, e'⟩ <;> rw [e'] <;> rfl

theorem block1Request_responses (p : BlockOption) (l : Locals) :
    (block1Request cfg env endpoint m p l).1.state.responses = l.state.responses := by
  have hup : (uploadBuffer env endpoint m p.num l).state.responses = l.state.responses := by
    unfold uploadBuffer
    split
    · rfl
    · split
      · rcases allocRequest_cases env endpoint m l with ⟨_, e⟩ | ⟨_, e⟩ <;> rw [e] <;> rfl
      · rfl
  unfold block1Request
  dsimp only
  generalize uploadBuffer env endpoint m p.num l = l1 at hup ⊢
  rw [← hup]
  repeat' split
  all_goals rfl

/-- a response that is served leaves the representation as it is -/
theorem requestBranch_quiet (hs : l.Sound) :
    QuietResponses l.state (requestBranch cfg env endpoint m l).1.state := by
  have hsame : ∀ l' : Locals, l'.state.responses = l.state.responses →
      QuietResponses l.state l'.state := by
    intro l' h
    unfold QuietResponses
    rw [h]
    exact QuietResponses.refl l.state
  unfold requestBranch
  split
  · exact hsame _ (block1Request_responses _ l)
  · unfold block2Request
    dsimp only
    split
    · rename_i b hf
      unfold dispatchResponse
      split
      · exact QuietResponses.refl _
      · rename_i part b' hd
        have hb' : _ = b' := congrArg Prod.snd hd
        have hrep : SameRep b b' := hb' ▸ sameRep_dispatch b _ _
        refine quietResponses_setResponse (l := (l.withResponse (coapSetHeaderContentFormat l.response
          (block2Format m))).pointResponse (some b)) ?_ rfl (hrep.trans (sameRep_refCount b' _))
        exact (stage_foundResponse (l := l.withResponse (coapSetHeaderContentFormat l.response
          (block2Format m))) (findServerResponse_mem hf)).sound ((stage_withResponse l _).sound hs)
    · unfold openTransfer
      repeat' split
      all_goals first | exact QuietResponses.refl _ | exact hsame _ (storePayload_responses 1 _)
  · unfold regularRequest
    repeat' split
    all_goals first | exact QuietResponses.refl _ | exact hsame _ (storePayload_responses 0 _)

/-- only a request that asks for a representation gets as far as the entity handler -/
theorem requestBranch_asks (h : (requestBranch cfg env endpoint m l).2 = .requestHandler) :
    asks m = true := by
  unfold requestBranch at h
  unfold asks
  cases hb1 : coapGetHeaderBlock1 m with
  | some o =>
    rw [hb1] at h
    have h : (block1Request cfg env endpoint m (blockParams cfg (some o)) l).2 = _ := h
    have hmore : (blockParams cfg (some o)).more = o.more := rfl
    unfold block1Request at h
    dsimp only at h
    rw [hmore] at h
    split at h
    · exact absurd h (by simp)
    · split at h
      · exact absurd h (by simp)
      · split at h
        · exact absurd h (by simp)
        · rename_i hm
          exact beq_iff_eq.mpr (not_not.mp hm)
  | none =>
    cases hb2 : coapGetHeaderBlock2 m with
    | none => rfl
    | some o =>
      rw [hb1, hb2] at h
      have h : (block2Request cfg env endpoint m (blockParams cfg (some o)) l).2 = _ := h
      have hnum : (blockParams cfg (some o)).num = o.num := rfl
      unfold block2Request at h
      dsimp only at h
      split at h
      · unfold dispatchResponse at h
        split at h <;> exact absurd h (by simp)
      · unfold openTransfer at h
        rw [hnum] at h
        split at h
        · rename_i h0
          exact beq_iff_eq.mpr h0
        · exact absurd h (by simp)

/-- the offset of a block is zero or a block away from it -/
theorem blockParams_offset (cfg : Config) {o : BlockOption} (ho : o.Parsed) :
    (blockParams cfg (some o)).offset.toNat = 0 ∨
      (blockParams cfg (some o)).size.toNat ≤ (blockParams cfg (some o)).offset.toNat := by
  have hsize := (blockParams_size cfg ho).1
  show o.offset.toNat = 0 ∨ _ ≤ o.offset.toNat
  rcases ho.fields.2 with rfl | ⟨e, he, hz⟩
  · exact Or.inl rfl
  · rcases Nat.eq_zero_or_pos o.offset.toNat with h0 | h0
    · exact Or.inl h0
    · have := Nat.le_of_dvd h0 (ho.aligned he hz).2
      exact Or.inr (by omega)

/-- a block above zero is cut from the buffer that is found -/
theorem dispatchResponse_cut {o : BlockOption} (ho : o.Parsed) (hl : l.response.payload = [])
    (hne : (dispatchResponse cfg (blockParams cfg (some o)) l b).1.response.payload ≠ []) :
    b.payloadSize ≠ 0 ∧ (b.etag.length ≤ coapEtagLen → CutFrom ⟨b.payload, b.etag⟩
      (dispatchResponse cfg (blockParams cfg (some o)) l b).1.response) := by
  have hoff := blockParams_offset cfg ho
  generalize blockParams cfg (some o) = p at hoff hne ⊢
  unfold dispatchResponse at hne ⊢
  rcases hd : ocBlockwiseDispatchBlock b p.offset.toNat p.size.toNat with ⟨_ | part, b'⟩
  · rw [hd] at hne
    exact absurd hl hne
  · obtain ⟨hpos, hpart, rfl⟩ := dispatch_slice hoff hd
    refine ⟨by omega, cutFrom_etag (b := b) part ?_ ?_⟩
    · rw [coapSetHeaderBlock2_payload]
      exact coapSetPayload_prefix cfg l.response part
    · rw [hpart]
      exact (List.take_prefix _ _).isInfix.trans (List.drop_suffix _ _).isInfix

/-! ## a request, and what it has got -/

/-- What a request that has been processed leaves behind: events in front of the packet, the packet, and
the representation that has been produced, if any. -/
structure Answered (endpoint : Endpoint) (m : Message) (l : Locals) (lead : List Event) (p : Message)
    (r : Option Snapshot) (res : State × List Event) : Prop where
  events : ∃ source es, res.2 = l.events ++ .accepted endpoint m :: (lead ++ es) ∧
    EndsWith endpoint m p source es
  unsent : ∀ e' m' p' source, Event.sending e' m' p' source ∉ lead
  noticed : ∀ e1 m1 cur, lead.foldl (snapshotStep e1 m1) cur
    = if Akin e1 m1 endpoint m then r.or cur else cur
  asked : r ≠ none → asks m = true
  renewed : Renewed endpoint m r l.state res.1
  packet : Continues m → p.payload ≠ [] →
    (coapGetHeaderBlock1 m = none ∧ ∃ b, findServerResponse endpoint m l.state = some b ∧
      b.payloadSize ≠ 0 ∧ (b.etag.length ≤ coapEtagLen → CutFrom ⟨b.payload, b.etag⟩ p)) ∨
    ((coapGetHeaderBlock1 m).isSome ∧ ∃ c, r = some c ∧ (endpoint.flags.tcp = false → CutFrom c p))

/-- the packet of the branch that a request with a block number above zero takes -/
theorem requestBranch_packet (hg : Genuine m) (hl : NoBlock2 l.response) (hc : Continues m)
    (hne : (requestBranch cfg env endpoint m l).1.response.payload ≠ []) :
    coapGetHeaderBlock1 m = none ∧ ∃ b, findServerResponse endpoint m l.state = some b ∧
      b.payloadSize ≠ 0 ∧ (b.etag.length ≤ coapEtagLen →
        CutFrom ⟨b.payload, b.etag⟩ (requestBranch cfg env endpoint m l).1.response) := by
  obtain ⟨o, hb2, hnum⟩ := hc
  unfold requestBranch at hne ⊢
  cases hb1 : coapGetHeaderBlock1 m with
  | some o1 =>
    rw [hb1] at hne
    exact absurd (block1Request_noBlock2 hl).2 hne
  | none =>
    rw [hb1, hb2] at hne
    rw [hb2]
    refine ⟨rfl, ?_⟩
    have hne : (block2Request cfg env endpoint m (blockParams cfg (some o)) l).1.response.payload ≠ [] :=
      hne
    show ∃ b, _ ∧ _ ∧ (_ → CutFrom _
      (block2Request cfg env endpoint m (blockParams cfg (some o)) l).1.response)
    unfold block2Request at hne ⊢
    dsimp only at hne ⊢
    have hl1 : (l.withResponse (coapSetHeaderContentFormat l.response
        (block2Format m))).response.payload = [] := hl.2
    have hfind : findServerResponse endpoint m (l.withResponse (coapSetHeaderContentFormat l.response
        (block2Format m))).state = findServerResponse endpoint m l.state := rfl
    rw [hfind] at hne ⊢
    generalize l.withResponse (coapSetHeaderContentFormat l.response (block2Format m)) = l1
      at hne hl1 ⊢
    cases hf : findServerResponse endpoint m l.state with
    | some b =>
      rw [hf] at hne
      exact ⟨b, rfl, dispatchResponse_cut (hg.getBlock2 hb2) hl1 hne⟩
    | none =>
      rw [hf] at hne
      refine absurd ?_ hne
      have hnum : (blockParams cfg (some o)).num ≠ 0 := hnum
      unfold openTransfer
      dsimp only
      rw [if_neg hnum]
      exact hl1

/-- nothing is in the response when the entity handler is called -/
theorem requestBranch_empty (hl : NoBlock2 l.response)
    (h : (requestBranch cfg env endpoint m l).2 = .requestHandler) :
    NoBlock2 (requestBranch cfg env endpoint m l).1.response := by
  unfold requestBranch at h ⊢
  split at h
  · exact block1Request_noBlock2 hl
  · have h1 : NoBlock2 (l.withResponse
        (coapSetHeaderContentFormat l.response (block2Format m))).response :=
      hl.set (n := coapOptionContentFormat) (by decide) rfl rfl
    unfold block2Request at h ⊢
    dsimp only at h ⊢
    split at h
    · unfold dispatchResponse at h
      split at h <;> exact absurd h (by simp)
    · unfold openTransfer
      repeat' split
      · exact h1
      · rw [storePayload_response]
        exact h1
      · exact h1
      · exact h1
  · unfold regularRequest
    repeat' split
    · rw [storePayload_response]
      exact hl
    · exact hl
    · exact hl

/-- events of a request that has been answered from `l'` -/
theorem leave_answered {lead : List Event} (label : Label)
    (he : l'.events = l.events ++ .accepted endpoint m :: lead) :
    ∃ source es, (leave env endpoint m l' label).2
      = l.events ++ .accepted endpoint m :: (lead ++ es) ∧
        EndsWith endpoint m l'.response source es := by
  obtain ⟨es, hes, hends⟩ := leave_events env endpoint m l' label
  refine ⟨l'.source, es, ?_, hends⟩
  rw [hes, he, List.append_assoc]
  rfl

/-- a response is sent without the entity handler -/
theorem answered_branch (env : Env) (hs : l'.Sound) (hq : QuietResponses l.state l'.state)
    (he : l'.events = l.events ++ [.accepted endpoint m]) (label : Label)
    (hp : Continues m → l'.response.payload ≠ [] → coapGetHeaderBlock1 m = none ∧
      ∃ b, findServerResponse endpoint m l.state = some b ∧ b.payloadSize ≠ 0 ∧
        (b.etag.length ≤ coapEtagLen → CutFrom ⟨b.payload, b.etag⟩ l'.response)) :
    Answered endpoint m l [] l'.response none (leave env endpoint m l' label) where
  events := leave_answered label he
  unsent := fun _ _ _ _ => List.not_mem_nil
  noticed := fun _ _ cur => (ite_self cur).symm
  asked := fun h => absurd rfl h
  renewed := (hq.trans (settles_leave env endpoint m hs label).responses).renewed
  packet := fun hc hne => Or.inl (hp hc hne)

/-- a response is sent behind the entity handler -/
theorem answered_handler (cfg : Config) (env : Env) (hs : l'.Sound)
    (hq : QuietResponses l.state l'.state)
    (he : l'.events = l.events ++ [.accepted endpoint m]) (hl : NoBlock2 l'.response)
    (hasks : asks m = true) :
    ∃ lead r, Answered endpoint m l lead
      (requestHandler cfg env endpoint m (coapGetHeaderBlock2 m) l').1.response r
      (leave env endpoint m (requestHandler cfg env endpoint m (coapGetHeaderBlock2 m) l').1
        (requestHandler cfg env endpoint m (coapGetHeaderBlock2 m) l').2) := by
  have hs2 := (stage_requestHandler cfg env endpoint m (coapGetHeaderBlock2 m) l').sound hs
  -- with a block number above zero it is an upload that has asked
  have hboth : Continues m → (coapGetHeaderBlock1 m).isSome := by
    rintro ⟨o, hb2, hnum⟩
    unfold asks at hasks
    cases hb1 : coapGetHeaderBlock1 m with
    | some o1 => rfl
    | none =>
      rw [hb1, hb2] at hasks
      exact absurd (beq_iff_eq.mp hasks) hnum
  have hcases := requestHandler_cases cfg env endpoint m (coapGetHeaderBlock2 m) hs hl
  generalize requestHandler cfg env endpoint m (coapGetHeaderBlock2 m) l' = q at hs2 hcases ⊢
  have hleave : ∀ r, Renewed endpoint m r l'.state q.1.state →
      Renewed endpoint m r l.state (leave env endpoint m q.1 q.2).1 := fun r h =>
    (hq.renewed.trans h).trans (settles_leave env endpoint m hs2 q.2).responses.renewed
  rcases hcases with ⟨hev, hren, hnil⟩ | ⟨⟨acks, hacks, hev⟩, hren, hcut⟩
  · refine ⟨[.invoked endpoint m l'.requestBuffer], none, leave_answered q.2 ?_, ?_, ?_,
      fun h => absurd rfl h, hleave _ hren, fun _ hne => absurd hnil hne⟩
    · rw [hev, he, List.append_assoc]
      rfl
    · intro e' m' p' source hin
      exact absurd (List.mem_singleton.mp hin) (by simp)
    · exact fun _ _ cur => (ite_self cur).symm
  · refine ⟨.invoked endpoint m l'.requestBuffer :: .produced endpoint m (requestPayload l')
      env.entity.representation (env.etag.take coapEtagLen) :: acks, _, leave_answered q.2 ?_, ?_, ?_,
      fun _ => hasks, hleave _ hren, fun hc hne => Or.inr ⟨hboth hc, _, rfl, fun htcp => ?_⟩⟩
    · rw [hev, he, List.append_assoc]
      rfl
    · intro e' m' p' source hin
      rcases List.mem_cons.mp hin with h | h
      · exact absurd h (by simp)
      · rcases List.mem_cons.mp h with h | h
        · exact absurd h (by simp)
        · exact hacks _ h
    · intro e1 m1 cur
      rw [List.foldl_cons, List.foldl_cons]
      rw [foldl_idle (fun ev hin c => ?_)]
      · rfl
      · cases ev with
        | transmitted => rfl
        | fault => rfl
        | _ => exact absurd (hacks _ hin) (fun h => h)
    · obtain ⟨o, hb2, _⟩ := hc
      exact hcut (by rw [hb2]; rfl) htcp hne

theorem processRequest_answered (cfg : Config) (env : Env) (endpoint : Endpoint) {m : Message}
    (hg : Genuine m) (hs : l.Sound) (hl : Plain l.response) :
    ∃ lead p r, Answered endpoint m l lead p r (processRequest cfg env endpoint m l) := by
  have hno : NoBlock2 (l.emit (.accepted endpoint m)).response :=
    ⟨hl.1 ▸ Finset.notMem_empty _, hl.2⟩
  have hs1 : (l.emit (.accepted endpoint m)).Sound := (stage_emit l _).sound hs
  have hs2 := (stage_requestBranch cfg env endpoint m (l.emit (.accepted endpoint m))).sound hs1
  have hev : (requestBranch cfg env endpoint m (l.emit (.accepted endpoint m))).1.events
      = l.events ++ [.accepted endpoint m] := requestBranch_events cfg env endpoint m _
  have hquiet : QuietResponses l.state
      (requestBranch cfg env endpoint m (l.emit (.accepted endpoint m))).1.state :=
    requestBranch_quiet hs1
  by_cases hlabel : (requestBranch cfg env endpoint m (l.emit (.accepted endpoint m))).2
      = .requestHandler
  · obtain ⟨lead, r, h⟩ := answered_handler cfg env hs2 hquiet hev (requestBranch_empty hno hlabel)
      (requestBranch_asks hlabel)
    unfold processRequest finish
    dsimp only
    rw [hlabel]
    exact ⟨lead, _, r, h⟩
  · have h := answered_branch env hs2 hquiet hev
      (requestBranch cfg env endpoint m (l.emit (.accepted endpoint m))).2
      (requestBranch_packet hg hno)
    unfold processRequest finish
    dsimp only
    split
    · exact absurd ‹_› hlabel
    · exact ⟨[], _, none, h⟩

end

/-! ## the invariant -/

/-- a representation in a response buffer is the latest one of its exchange -/
structure Snapshots (s : State) (tr : List Event) : Prop where
  current : ∀ b ∈ s.responses, b.payloadSize ≠ 0 → ∀ e m, (requestLookup e m).Owns b →
    latest e m tr = some ⟨b.payload, b.etag⟩ ∧ b.etag.length ≤ coapEtagLen

section
variable {cfg : Config} {endpoint : Endpoint} {m : Message} {s s' : State} {l : Locals}
  {tr tr' es lead : List Event} {p : Message} {r : Option Snapshot} {res : State × List Event}

theorem latest_append (e : Endpoint) (m : Message) (tr es : List Event) :
    latest e m (tr ++ es) = es.foldl (snapshotStep e m) (latest e m tr) :=
  List.foldl_append

/-- events that no representation notices -/
theorem snapshot_idle (h : ∀ ev ∈ es, ev.Silent ∨ ∃ e m p source, ev = .sending e m p source)
    (e : Endpoint) (m : Message) (cur : Option Snapshot) :
    es.foldl (snapshotStep e m) cur = cur := by
  refine foldl_idle (fun ev hin c => ?_) cur
  rcases h ev hin with hs | ⟨_, _, _, _, rfl⟩
  · cases ev with
    | transmitted => rfl
    | fault => rfl
    | _ => exact absurd hs (fun h => h)
  · rfl

theorem snapshots_init (currentMid : UInt16) : Snapshots (State.init currentMid) [] :=
  ⟨fun _ hb => absurd hb List.not_mem_nil⟩

/-- a buffer that comes from one that was there -/
theorem Snapshots.same (h : Snapshots s tr) {x b : BlockwiseState} (hx : x ∈ s.responses)
    (hsame : SameRep x b) (hsize : b.payloadSize ≠ 0) {e : Endpoint}
    (hown : (requestLookup e m).Owns b) :
    latest e m tr = some ⟨b.payload, b.etag⟩ ∧ b.etag.length ≤ coapEtagLen := by
  have hx1 := hsame.key.owns hown
  obtain ⟨h1, h2, h3⟩ := hsame.content hx1.2.2.2.2
  unfold BlockwiseState.payload
  rw [h1, h2, h3]
  exact h.current x hx (h1 ▸ hsize) e m hx1

theorem Snapshots.quiet (h : Snapshots s tr) (hq : QuietResponses s s')
    (ht : ∀ e m, latest e m tr' = latest e m tr) : Snapshots s' tr' := by
  refine ⟨fun b hb hsize e m hown => ?_⟩
  rw [ht]
  rcases hq b hb with hc | ⟨x, hx, hsame⟩
  · exact absurd (hc.symm.trans hown.2.2.2.2) (by simp [requestLookup])
  · exact h.same hx hsame hsize hown

/-- the latest representation while a request is answered -/
theorem Answered.latest_eq (h : Answered endpoint m l lead p r res)
    (hl : ∀ ev ∈ l.events, ev.Silent)
    (hes : ∀ ev ∈ es, ev.Silent ∨ ∃ e m p source, ev = .sending e m p source) (tr : List Event)
    (e1 : Endpoint) (m1 : Message) :
    latest e1 m1 (tr ++ (l.events ++ .accepted endpoint m :: (lead ++ es)))
      = if Akin e1 m1 endpoint m ∧ asks m then r else latest e1 m1 tr := by
  rw [latest_append, List.foldl_append, snapshot_idle (fun ev hin => Or.inl (hl ev hin)),
    List.foldl_cons, List.foldl_append, snapshot_idle hes, h.noticed]
  have hstep : snapshotStep e1 m1 (latest e1 m1 tr) (.accepted endpoint m)
      = if Akin e1 m1 endpoint m ∧ asks m then none else latest e1 m1 tr := rfl
  rw [hstep]
  by_cases hsame : Akin e1 m1 endpoint m
  · rw [if_pos hsame]
    cases hasks : asks m with
    | true =>
      rw [if_pos ⟨hsame, rfl⟩, if_pos ⟨hsame, rfl⟩]
      exact Option.or_none
    | false =>
      rw [if_neg (by simp), if_neg (by simp)]
      -- nothing has been produced
      have hr : r = none := by
        by_contra hne
        rw [h.asked hne] at hasks
        exact absurd hasks (by simp)
      rw [hr]
      rfl
  · rw [if_neg hsame, if_neg (fun hc => hsame hc.1), if_neg (fun hc => hsame hc.1)]

theorem CutFrom.sameBody {c : Snapshot} {q : Message} (h : CutFrom c p) (hq : SameBody p q) :
    CutFrom c q := by
  obtain ⟨token, rfl⟩ := hq
  exact ⟨h.payload, h.option, h.etag⟩

theorem Genuine.uriQuery (hg : Genuine m) : coapGetHeaderUriQuery m = m.uriQuery := by
  unfold coapGetHeaderUriQuery isOption
  by_cases hq : m.uriQuery = []
  · rw [hq]
    exact ite_self _
  · rw [if_pos (decide_eq_true (hg.query hq))]

/-- the invariant behind a request -/
theorem Snapshots.answered (h : Snapshots s tr) (ha : Admitted s l) (hg : Genuine m)
    (hans : Answered endpoint m l lead p r res)
    (hask : asks m → ∀ b ∈ s.responses, (requestLookup endpoint m).Owns b → b.payloadSize = 0) :
    Snapshots res.1 (tr ++ res.2) := by
  obtain ⟨source, es, he, hends⟩ := hans.events
  have hsent : ∀ ev ∈ es, ev.Silent ∨ ∃ e m p source, ev = .sending e m p source :=
    fun ev hin => (hends ev hin).imp_right fun ⟨p', hp, _⟩ => ⟨_, _, p', source, hp⟩
  have hlatest := hans.latest_eq ha.events hsent tr
  refine ⟨fun b hb hsize e1 m1 hown => ?_⟩
  rw [he, hlatest]
  rcases hans.renewed b hb with (hc | hmade) | ⟨x, hx, hsame⟩
  · exact absurd (hc.symm.trans hown.2.2.2.2) (by simp [requestLookup])
  · -- the buffer of this request
    obtain ⟨hr, hlen⟩ := hmade.content.resolve_left hsize
    have hkey := akin_of_made hown hmade.endpoint hmade.href
      (hmade.query.trans hg.uriQuery) hmade.method
    rw [if_pos ⟨hkey, hans.asked (by rw [hr]; simp)⟩]
    exact ⟨hr, hlen⟩
  · -- a buffer that was there, of another exchange unless the request has not asked
    rw [ha.responses] at hx
    have hx1 := hsame.key.owns hown
    by_cases hc : Akin e1 m1 endpoint m ∧ asks m = true
    · have h0 := hask hc.2 x hx (hc.1.owns hx1)
      have hs := (hsame.content hx1.2.2.2.2).1
      exact absurd (hs.trans h0) hsize
    · rw [if_neg hc]
      exact h.same hx hsame hsize hown

theorem consistent_idle (h : Consistent tr) (hes : ∀ ev ∈ es, ev.Silent ∨ ∃ e m p source,
    ev = .sending e m p source ∧ ¬ m.IsRequest) : Consistent (tr ++ es) := by
  refine always_append.mpr ⟨h, always_of_mem fun ev hin before _ => ?_⟩
  rcases hes ev hin with hs | ⟨_, _, _, _, rfl, hm⟩
  · cases ev with
    | sending e m p source => exact absurd hs (fun h => h)
    | _ => trivial
  · exact fun h => absurd h hm

/-- the packet of a request with a block number above zero -/
theorem Snapshots.cut (h : Snapshots s tr) (ha : Admitted s l)
    (hans : Answered endpoint m l lead p r res) (hc : Continues m) (hne : p.payload ≠ [])
    (hcond : match coapGetHeaderBlock1 m with
      | none => ∀ b, findServerResponse endpoint m s = some b → b.href = coapGetHeaderUriPath m
      | some _ => endpoint.flags.tcp = false) :
    ∃ c, (if Akin endpoint m endpoint m ∧ asks m then r else latest endpoint m tr) = some c ∧
      CutFrom c p := by
  rcases hans.packet hc hne with ⟨hb1, b, hf, hsize, hcut⟩ | ⟨hb1, c, hr, hcut⟩
  · -- from a buffer that was there
    rw [hb1] at hcond
    have hf : findServerResponse endpoint m s = some b := by
      rw [← hf]
      unfold findServerResponse ocBlockwiseFindResponseBuffer
      rw [ha.responses]
    have hown : (requestLookup endpoint m).Owns b := found_owns hf (hcond b hf)
    obtain ⟨hlat, hlen⟩ := h.current b (findServerResponse_mem hf) hsize endpoint m hown
    have hnot : asks m = false := by
      obtain ⟨o, hb2, hnum⟩ := hc
      unfold asks
      rw [hb1, hb2]
      exact beq_eq_false_iff_ne.mpr hnum
    rw [hnot, if_neg (by simp)]
    exact ⟨_, hlat, hcut hlen⟩
  · -- from the one that has just been made
    obtain ⟨o, ho⟩ := Option.isSome_iff_exists.mp hb1
    rw [ho] at hcond
    rw [if_pos ⟨Akin.refl endpoint m, hans.asked (by rw [hr]; simp)⟩]
    exact ⟨c, hr, hcut hcond⟩

theorem Snapshots.consistent (h : Snapshots s tr) (hcons : Consistent tr) (ha : Admitted s l)
    (hans : Answered endpoint m l lead p r res)
    (hcond : Continues m → match coapGetHeaderBlock1 m with
      | none => ∀ b, findServerResponse endpoint m s = some b → b.href = coapGetHeaderUriPath m
      | some _ => endpoint.flags.tcp = false) : Consistent (tr ++ res.2) := by
  obtain ⟨source, es, he, hends⟩ := hans.events
  have hsent : ∀ ev ∈ es, ev.Silent ∨ ∃ e m p source, ev = .sending e m p source :=
    fun ev hin => (hends ev hin).imp_right fun ⟨p', hp, _⟩ => ⟨_, _, p', source, hp⟩
  have hquiet := consistent_idle hcons fun ev hin => Or.inl (ha.events ev hin)
  rw [he, ← List.append_assoc]
  refine always_append.mpr ⟨hquiet, always_cons.mpr ⟨trivial, always_append.mpr ⟨?_, ?_⟩⟩⟩
  · refine always_of_mem fun ev hin before _ => ?_
    cases ev with
    | sending e' m' p' source' => exact absurd hin (hans.unsent e' m' p' source')
    | _ => trivial
  · refine always_of_mem fun ev hin before hsub => ?_
    cases ev with
    | sending e' m' p' source' =>
      rcases hends _ hin with hs | ⟨q, hq, hbody⟩
      · exact absurd hs (fun h => h)
      · obtain ⟨rfl, rfl, rfl, _⟩ := Event.sending.inj hq
        intro _ hc hne
        have hbody := hbody.resolve_right fun hplain => hne hplain.2
        have hpay : p.payload ≠ [] := by
          obtain ⟨token, rfl⟩ := hbody
          exact hne
        obtain ⟨c, hlat, hcut⟩ := h.cut ha hans hc hpay (hcond hc)
        refine ⟨c, ?_, hcut.sameBody hbody⟩
        rw [← hlat, List.append_assoc]
        exact hans.latest_eq ha.events (fun ev hin => hsent ev (hsub ev hin)) tr e' m'
    | _ => trivial

theorem Snapshots.step (h : Snapshots s tr) (hcons : Consistent tr) (hs : s.WF) (st : Step)
    (hc : Unstale cfg s st) :
    Snapshots (step cfg st s).1 (tr ++ (step cfg st s).2) ∧
      Consistent (tr ++ (step cfg st s).2) := by
  have hidle : ∀ {q : State × List Event}, Idle s q →
      Snapshots q.1 (tr ++ q.2) ∧ Consistent (tr ++ q.2) := by
    intro q hq
    refine ⟨h.quiet (hq.responses hs) fun e m => ?_, consistent_idle hcons hq.events⟩
    rw [latest_append]
    exact snapshot_idle (fun ev hin => (hq.events ev hin).imp_right fun ⟨_, _, _, _, he, _⟩ =>
      ⟨_, _, _, _, he⟩) e m _
  by_cases hst : ∃ env msg, st = .receive env msg
  · obtain ⟨env, msg, rfl⟩ := hst
    show Snapshots (coapReceive cfg env msg s).1 (tr ++ (coapReceive cfg env msg s).2) ∧
      Consistent (tr ++ (coapReceive cfg env msg s).2)
    rcases coapReceive_handles cfg env msg s with ⟨m, l, hm, hg, ha, hrun⟩ | hq
    · obtain ⟨hask, hgo⟩ := hc m hm
      obtain ⟨lead, p, r, hans⟩ := processRequest_answered cfg env msg.endpoint hg (ha.sound hs)
        ha.response
      rw [hrun]
      exact ⟨h.answered ha hg hans hask, h.consistent hcons ha hans hgo⟩
    · exact hidle hq
  · exact hidle (step_idle cfg st s fun env msg h => hst ⟨env, msg, h⟩)

theorem snapshots_run (h : Run cfg (Unstale cfg) s tr) : Snapshots s tr ∧ Consistent tr := by
  induction h with
  | init currentMid => exact ⟨snapshots_init currentMid, always_nil _⟩
  | step st hrun hc ih => exact ih.1.step ih.2 hrun.wf st hc

end

/-! ## the main result -/

/-- **Representations.**  In every run whose steps are `Unstale`, what is sent for a block number above
zero is a part of the latest representation of the exchange, with the ETag of that representation. -/
theorem consistent_run (cfg : Config) (s : State) (tr : List Event)
    (h : Run cfg (Unstale cfg) s tr) : Consistent tr := (snapshots_run h).2

/-! ## two blocks -/

/-- a representation of forty bytes -/
def fortyBytes (byte : UInt8) : Env := sampleEnv (List.replicate 40 byte) (by simp)

/-- GET `a` with Block2, blocks of sixteen bytes -/
def blockGet (mid block : UInt8) : OcMessage :=
  sampleMessage 1 [0x40, 0x01, 0x00, mid, 0xB1, 0x61, 0xC1, block]

/-- GET `a` -/
def plainGet (mid : UInt8) : OcMessage := sampleMessage 1 [0x40, 0x01, 0x00, mid, 0xB1, 0x61]

/-- block zero -/
def opened : State × List Event :=
  step defaultConfig (.receive (fortyBytes 1) (blockGet 1 0x00)) (State.init 0)

/-- block one -/
def continued : State × List Event :=
  step defaultConfig (.receive (fortyBytes 1) (blockGet 2 0x10)) opened.1

theorem opened_unstale :
    Unstale defaultConfig (State.init 0) (.receive (fortyBytes 1) (blockGet 1 0x00)) := by
  obtain ⟨m0, hp, hb2⟩ : ∃ m0, (blockGet 1 0x00).parse defaultConfig = .ok m0 ∧
      coapGetHeaderBlock2 m0 = some (parseBlockOption 0) := ⟨_, rfl, rfl⟩
  intro m hm
  obtain rfl : m0 = m := Except.ok.inj (hp.symm.trans hm.parsed)
  refine ⟨fun _ b hb => absurd hb List.not_mem_nil, ?_⟩
  rintro ⟨o, ho, hnum⟩
  obtain rfl := Option.some.inj (hb2.symm.trans ho)
  exact absurd rfl hnum

theorem continued_unstale :
    Unstale defaultConfig opened.1 (.receive (fortyBytes 1) (blockGet 2 0x10)) := by
  obtain ⟨m0, hp, hasks, hb1, hpath⟩ : ∃ m0, (blockGet 2 0x10).parse defaultConfig = .ok m0 ∧
      asks m0 = false ∧ coapGetHeaderBlock1 m0 = none ∧ coapGetHeaderUriPath m0 = [0x61] :=
    ⟨_, rfl, rfl, rfl, rfl⟩
  obtain ⟨x0, hresp, hhref⟩ : ∃ x0, opened.1.responses = [x0] ∧ x0.href = [0x61] := ⟨_, rfl, rfl⟩
  intro m hm
  obtain rfl : m0 = m := Except.ok.inj (hp.symm.trans hm.parsed)
  refine ⟨fun h => absurd (hasks.symm.trans h) (by simp), fun _ => ?_⟩
  rw [hb1]
  intro b hb
  have hin := findServerResponse_mem hb
  rw [hresp] at hin
  rw [List.mem_singleton.mp hin, hhref, hpath]

/-- the second block of a representation -/
theorem consistent_twoBlocks : Consistent ([] ++ opened.2 ++ continued.2) ∧
    ∃ e m p source, Event.sending e m p source ∈ continued.2 ∧ p.payload = List.replicate 16 1 :=
  ⟨consistent_run defaultConfig continued.1 _
    (.step _ (.step _ (.init 0) opened_unstale) continued_unstale),
    _, _, _, _, List.mem_of_getElem? (i := 1) rfl, rfl⟩

/-! ## a representation that has changed -/

/-- another GET, and the representation is a new one -/
def renewed : State × List Event :=
  step defaultConfig (.receive (fortyBytes 2) (plainGet 2)) opened.1

/-- block one -/
def stale : State × List Event :=
  step defaultConfig (.receive (fortyBytes 2) (blockGet 3 0x10)) renewed.1

/-- The handler has been asked again and has produced another representation, but block one comes from
the buffer of the first one. -/
theorem not_consistent :
    Run defaultConfig (fun _ _ => True) stale.1 ([] ++ opened.2 ++ renewed.2 ++ stale.2) ∧
      ¬ Consistent ([] ++ opened.2 ++ renewed.2 ++ stale.2) := by
  refine ⟨.step _ (.step _ (.step _ (.init 0) trivial) trivial) trivial, fun h => ?_⟩
  obtain ⟨e, m, p, source, r, he, hm, hc, hp, hlat, hr⟩ : ∃ e m p source r,
      stale.2 = stale.2.take 1 ++ .sending e m p source :: stale.2.drop 2 ∧ m.IsRequest ∧
      Continues m ∧ p.payload = List.replicate 16 1 ∧
      latest e m ([] ++ opened.2 ++ renewed.2 ++ stale.2.take 1) = some r ∧
      r.content = List.replicate 40 2 :=
    ⟨_, _, _, _, _, rfl, ⟨by decide, by decide⟩, ⟨_, rfl, by decide⟩, rfl, rfl, rfl⟩
  obtain ⟨c, hc1, hcut⟩ := (always_append.mp h).2 _ _ _ he hm hc (by rw [hp]; simp)
  obtain rfl : r = c := Option.some.inj (hlat.symm.trans hc1)
  -- the byte `1` is not in the new representation
  have h1 : (1 : UInt8) ∈ r.content := hcut.payload.subset (by rw [hp]; decide)
  rw [hr] at h1
  exact absurd h1 (by decide)

end Coap
