import Iotivity.Engine.Linked
import Iotivity.Coap.Emitted

/-!
# Answering the requests of a handle: `oc_send_separate_response`

The requests that a handle has accepted are answered by one call.  The list is searched by token
when a request comes in, so that two endpoints with one token share an entry.

* `Arrival`                  a request that is put on the list of a handle;
* `ocSendSeparateResponse`   the call, with the responses that it sends;
* `find_pending`             an entry is made of the first and of the last request with its token;
* `sendSeparate_answers_iff` which requests get their response.
-/

namespace Coap
open Memory

/-! ## status codes -/

/-- `oc_status_t` -/
inductive OcStatus where
  | ok | created | changed | deleted | notModified
  | badRequest | unauthorized | badOption | forbidden | notFound | methodNotAllowed | notAcceptable
  | requestEntityTooLarge | unsupportedMediaType
  | internalServerError | notImplemented | badGateway | serviceUnavailable | gatewayTimeout
  | proxyingNotSupported
deriving DecidableEq

/-- `oc_status_code`: the table of `set_mpro_status_codes` -/
def ocStatusCode : OcStatus → Nat
  | .ok => 69
  | .created => 65
  | .changed => 68
  | .deleted => 66
  | .notModified => 67
  | .badRequest => 128
  | .unauthorized => 129
  | .badOption => 130
  | .forbidden => 131
  | .notFound => 132
  | .methodNotAllowed => 133
  | .notAcceptable => 134
  | .requestEntityTooLarge => 141
  | .unsupportedMediaType => 143
  | .internalServerError => 160
  | .notImplemented => 161
  | .badGateway => 162
  | .serviceUnavailable => 163
  | .gatewayTimeout => 164
  | .proxyingNotSupported => 165

/-! ## the call -/

/-- what a handle has been given: the length is kept in 16 bits -/
def SeparateResponse.body (h : SeparateResponse) : List UInt8 :=
  h.payload.take (h.payload.length % 2^16)

/-- the answers of the allocators in one round of the loop, and the collections that a round may ask
for a representation -/
structure Round where
  env : Env
  own : Supply
  linked : Supply
  batch : Nat → Representation

section
variable (cfg : Config) (site : Site) (status : OcStatus) (body : List UInt8)

/-- the response to an entry, up to its payload -/
def separateHeader (r : SeparateRequest) (mid : UInt16) : Message :=
  coapSetHeaderContentFormat (coapSeparateResume r (UInt8.ofNat (ocStatusCode status)) mid)
    (site.format r.endpoint).toUInt32

/-- the payload of a response -/
def separatePayload (env : Env) (r : SeparateRequest) (packet : Message) (s : Buffers) : Opening :=
  if r.endpoint.flags.tcp = false ∧ r.block2Size.toNat < body.length then
    openBlocks cfg env r.uri r.endpoint r.method r.block2Size body packet s
  else .opened (if body = [] then packet else coapSetPayload cfg packet body) s

/-- the response to an entry with `observe > 0`; `goto next_separate_request` leaves the
transaction on its list -/
def respondTo (env : Env) (r : SeparateRequest) (s : State) : Option Message × State × List Event :=
  let (mid, s) := coapGetMid s
  match coapNewTransaction env.transactionGranted mid r.endpoint s with
  | (none, s) => (none, s, [])
  | (some id, s) =>
    match separatePayload cfg body env r (separateHeader site status r mid) s.toBuffers with
    | .busy => (none, s, [])
    | .refused => (none, s, [])
    | .opened packet buffers =>
      let packet := coapSetStatusCode packet (ocStatusCode status)
      let x := sendSerialized env id mid r.endpoint packet (s.withBuffers fun _ => buffers)
      (if x.1 then some packet else none, x.2)

/-- one round: a response, or a notification to the observers at the endpoint -/
def sendRound (round : Round) (r : SeparateRequest) (s : Server) :
    Option Message × Server × List Event :=
  if 0 < r.observe then
    let x := respondTo cfg site status body round.env r s.engine
    (x.1, { s with engine := x.2.1 }, x.2.2)
  else
    match site.resourceAt r.uri r.endpoint.device with
    | none => (none, s, [])
    | some resource =>
      let x := coapNotifyObservers cfg site round.own round.linked .ignore round.batch resource
        (some ⟨ocStatusCode status, body⟩) (some r.endpoint) s
      (none, x.2.2.server, x.2.1.events ++ x.2.2.events)

/-- a handle of the server is changed -/
def Server.withHandle (handle : Nat) (f : SeparateResponse → SeparateResponse) (s : Server) :
    Server :=
  { s with handles := Function.update s.handles handle (f (s.handles handle)) }

/-- the server after a round for an entry -/
def afterRound (handle : Nat) (round : Round) (r : SeparateRequest) (s : Server) : Server :=
  (sendRound cfg site status body round r s).2.1.withHandle handle (coapSeparateClear r.token)

/-- the loop; the result holds the responses and where they go to -/
def sendRounds (handle : Nat) (rounds : Nat → Round) :
    Nat → List SeparateRequest → Server → List (Endpoint × Message) × Server × List Event
  | _, [], s => ([], s, [])
  | k, r :: l, s =>
    let x := sendRound cfg site status body (rounds k) r s
    let y := sendRounds handle rounds (k + 1) l (afterRound cfg site status body handle (rounds k) r s)
    ((x.1.map fun packet => (r.endpoint, packet)).toList ++ y.1, y.2.1, x.2.2 ++ y.2.2)

def ocSendSeparateResponse (handle : Nat) (rounds : Nat → Round) (s : Server) :
    List (Endpoint × Message) × Server × List Event :=
  let h := s.handles handle
  let x := sendRounds cfg site status h.body handle rounds 0 h.requests s
  (x.1, x.2.1.withHandle handle fun h => { h with active := false }, x.2.2)

end

/-! ## what is accepted -/

/-- a request that is accepted, and what the allocators say to it -/
structure Arrival where
  env : Env
  granted : Bool
  request : Message
  endpoint : Endpoint
  observe : Int
  block2Size : UInt16
  token_le : request.token.length ≤ coapTokenLen

def Arrival.accept (h : SeparateResponse) (a : Arrival) : SeparateResponse :=
  (acceptRequest a.env a.granted a.request a.endpoint a.observe a.block2Size h).2.1

/-- all of them, on a handle that is not in use -/
def acceptAll (arrivals : List Arrival) (h : SeparateResponse) : SeparateResponse :=
  arrivals.foldl Arrival.accept (SeparateResponse.start { h with active := false })

/-- there is memory for the entry and for the acknowledgement -/
def Arrival.Granted (a : Arrival) : Prop := a.granted = true ∧ a.env.ackGranted = true

/-- there is memory for the transaction and for the response buffer -/
def Round.Granted (r : Round) : Prop :=
  r.env.transactionGranted = true ∧ r.env.responseAlloc.granted = true

def Arrival.hasToken (token : List UInt8) (a : Arrival) : Bool := a.request.token == token

/-- the entry of the first and of the last request with a token -/
def Arrival.entry (first last : Arrival) : SeparateRequest :=
  separateRequest first.request first.endpoint last.observe first.block2Size

/-! ## the list of a handle -/

section
variable {l : List SeparateRequest} {token : List UInt8} {observe : Int}

theorem noteObserve_none_iff (token : List UInt8) (observe : Int) (l : List SeparateRequest) :
    noteObserve token observe l = none ↔ l.find? (SeparateRequest.hasToken token) = none := by
  induction l with
  | nil => exact iff_of_true rfl rfl
  | cons r l ih =>
    unfold noteObserve
    by_cases hr : r.hasToken token
    · rw [if_pos hr, List.find?_cons_of_pos hr]
      simp
    · rw [if_neg hr, List.find?_cons_of_neg hr, Option.map_eq_none_iff, ih]

/-- the tokens stay as they are -/
theorem map_token_noteObserve {m : List SeparateRequest} (h : noteObserve token observe l = some m) :
    m.map SeparateRequest.token = l.map SeparateRequest.token := by
  induction l generalizing m with
  | nil => cases h
  | cons r l ih =>
    unfold noteObserve at h
    split at h
    · obtain rfl := Option.some.inj h
      rfl
    · obtain ⟨m', hm', rfl⟩ := Option.map_eq_some_iff.mp h
      rw [List.map_cons, List.map_cons, ih hm']

/-- what is found under a token, before and after -/
theorem find_noteObserve {m : List SeparateRequest} (h : noteObserve token observe l = some m)
    (t : List UInt8) :
    m.find? (SeparateRequest.hasToken t) =
      if token = t then
        (l.find? (SeparateRequest.hasToken t)).map fun r => { r with observe }
      else l.find? (SeparateRequest.hasToken t) := by
  induction l generalizing m with
  | nil => cases h
  | cons r l ih =>
    unfold noteObserve at h
    by_cases hr : r.hasToken token
    · rw [if_pos hr] at h
      obtain rfl := Option.some.inj h
      have hrt : r.token = token := eq_of_beq hr
      by_cases ht : token = t
      · subst ht
        have hr' : ({ r with observe } : SeparateRequest).hasToken token = true := hr
        rw [List.find?_cons_of_pos hr', List.find?_cons_of_pos hr, if_pos rfl, Option.map_some]
      · have hn : ¬ r.hasToken t = true := fun h => ht (hrt.symm.trans (eq_of_beq h))
        have hn' : ¬ ({ r with observe } : SeparateRequest).hasToken t = true := hn
        rw [List.find?_cons_of_neg hn', List.find?_cons_of_neg hn, if_neg ht]
    · rw [if_neg hr] at h
      obtain ⟨m', hm', rfl⟩ := Option.map_eq_some_iff.mp h
      by_cases hrt : r.hasToken t
      · have ht : token ≠ t := by
          rintro rfl
          exact hr hrt
        rw [List.find?_cons_of_pos hrt, List.find?_cons_of_pos hrt, if_neg ht]
      · rw [List.find?_cons_of_neg hrt, List.find?_cons_of_neg hrt, ih hm']

/-- the list after one more request -/
def noted (l : List SeparateRequest) (a : Arrival) : List SeparateRequest :=
  (noteObserve a.request.token a.observe l).getD (l ++ [a.entry a])

theorem accept_granted {a : Arrival} (ha : a.Granted) (h : SeparateResponse) :
    (a.accept h).requests = noted h.start.requests a ∧ (a.accept h).active = true := by
  obtain ⟨hg, hack⟩ := ha
  have hn : noteRequest a.granted a.request a.endpoint a.observe a.block2Size h.start =
      some { h.start with requests := noted h.start.requests a } := by
    unfold noteRequest noted
    cases noteObserve a.request.token a.observe h.start.requests with
    | some l => rfl
    | none => exact if_pos hg
  have he : emptyAck a.env a.request.mid a.endpoint ≠ [] := by
    unfold emptyAck
    rw [if_pos hack]
    exact List.cons_ne_nil _ _
  unfold Arrival.accept acceptRequest coapSeparateAccept
  rw [hn]
  by_cases hc : a.request.type = .con
  · simp [hc, he]
  · simp [hc]

/-- what is found under a token once a request is noted -/
theorem find_noted (l : List SeparateRequest) (a : Arrival) (t : List UInt8) :
    (noted l a).find? (SeparateRequest.hasToken t) =
      if a.hasToken t then
        some ((l.find? (SeparateRequest.hasToken t)).elim (a.entry a) fun r =>
          { r with observe := a.observe })
      else l.find? (SeparateRequest.hasToken t) := by
  have hiff : a.hasToken t = true ↔ a.request.token = t := beq_iff_eq
  unfold noted
  cases hn : noteObserve a.request.token a.observe l with
  | some m =>
    rw [Option.getD_some, find_noteObserve hn]
    by_cases ht : a.request.token = t
    · rw [if_pos ht, if_pos (hiff.mpr ht)]
      cases hl : l.find? (SeparateRequest.hasToken t) with
      | some r => rfl
      | none =>
        rw [← ht, ← noteObserve_none_iff _ a.observe, hn] at hl
        cases hl
    · rw [if_neg ht, if_neg (mt hiff.mp ht)]
  | none =>
    rw [Option.getD_none, List.find?_append]
    by_cases ht : a.hasToken t
    · rw [noteObserve_none_iff, hiff.mp ht] at hn
      have he : (a.entry a).hasToken t = true := ht
      rw [if_pos ht, hn, List.find?_cons_of_pos he]
      rfl
    · have he : ¬ (a.entry a).hasToken t = true := ht
      rw [if_neg ht, List.find?_cons_of_neg he, List.find?_nil, Option.or_none]

/-- the tokens of a list are distinct, and as short as the engine keeps them -/
structure ShortTokens (l : List SeparateRequest) : Prop where
  nodup : (l.map SeparateRequest.token).Nodup
  length_le : ∀ token ∈ l.map SeparateRequest.token, token.length ≤ coapTokenLen

theorem ShortTokens.noted (h : ShortTokens l) (a : Arrival) : ShortTokens (noted l a) := by
  unfold Coap.noted
  cases hn : noteObserve a.request.token a.observe l with
  | some m =>
    rw [Option.getD_some]
    exact ⟨by rw [map_token_noteObserve hn]; exact h.nodup,
      by rw [map_token_noteObserve hn]; exact h.length_le⟩
  | none =>
    rw [noteObserve_none_iff, List.find?_eq_none] at hn
    have hnew : a.request.token ∉ l.map SeparateRequest.token := by
      rintro hin
      obtain ⟨r, hr, ht⟩ := List.mem_map.mp hin
      exact hn r hr (beq_iff_eq.mpr ht)
    have hmap : (l ++ [a.entry a]).map SeparateRequest.token =
        l.map SeparateRequest.token ++ [a.request.token] := List.map_append
    rw [Option.getD_none]
    constructor
    · rw [hmap, ← List.concat_eq_append]
      exact h.nodup.concat hnew
    · rw [hmap]
      intro token ht
      rcases List.mem_append.mp ht with ht | ht
      · exact h.length_le token ht
      · rw [List.mem_singleton.mp ht]
        exact a.token_le

/-- **The list of a handle.**  Under a token stands the first request with it, with the `observe`
of the last one. -/
theorem find_pending (arrivals : List Arrival) (ha : ∀ a ∈ arrivals, a.Granted)
    (h : SeparateResponse) :
    ShortTokens (acceptAll arrivals h).requests ∧
      ((acceptAll arrivals h).start = acceptAll arrivals h) ∧
      ∀ t, (acceptAll arrivals h).requests.find? (SeparateRequest.hasToken t) =
        (arrivals.find? (Arrival.hasToken t)).bind fun first =>
          (arrivals.reverse.find? (Arrival.hasToken t)).map first.entry := by
  induction arrivals using List.reverseRecOn with
  | nil => exact ⟨⟨List.nodup_nil, fun _ h => absurd h List.not_mem_nil⟩, rfl, fun _ => rfl⟩
  | append_singleton arrivals a ih =>
    obtain ⟨hshort, hstart, hfind⟩ := ih fun b hb => ha b (List.mem_append_left _ hb)
    have hlast : acceptAll (arrivals ++ [a]) h = a.accept (acceptAll arrivals h) :=
      List.foldl_concat Arrival.accept _ a arrivals
    obtain ⟨hreq, hactive⟩ := accept_granted (ha a (List.mem_append_right _ (List.mem_singleton_self a)))
      (acceptAll arrivals h)
    rw [hlast]
    refine ⟨?_, if_pos hactive, fun t => ?_⟩
    · rw [hreq, hstart]
      exact hshort.noted a
    · rw [hreq, hstart, find_noted, hfind, List.reverse_append, List.find?_append]
      show _ = ((arrivals.find? (Arrival.hasToken t)).or ([a].find? (Arrival.hasToken t))).bind
        fun first => ((a :: arrivals.reverse).find? (Arrival.hasToken t)).map first.entry
      by_cases ht : a.hasToken t
      · rw [if_pos ht, List.find?_cons_of_pos ht, List.find?_cons_of_pos ht]
        cases hf : arrivals.find? (Arrival.hasToken t) with
        | none => rfl
        | some first =>
          have hex : ∃ x ∈ arrivals.reverse, Arrival.hasToken t x = true :=
            ⟨first, List.mem_reverse.mpr (List.mem_of_find?_eq_some hf), List.find?_some hf⟩
          obtain ⟨last, hl⟩ := Option.isSome_iff_exists.mp (List.find?_isSome.mpr hex)
          rw [hl]
          rfl
      · rw [if_neg ht, List.find?_cons_of_neg ht, List.find?_cons_of_neg ht, List.find?_nil,
          Option.or_none]

end

/-! ## one response -/

section
variable {cfg : Config} {site : Site} {status : OcStatus} {body : List UInt8}

/-- no status code is one of a signal -/
theorem ocStatusCode_ordinary (status : OcStatus) :
    UInt8.ofNat (ocStatusCode status) ∉ [csm701, ping702, pong703, release704, abort705] := by
  cases status <;> decide

theorem separateHeader_options (r : SeparateRequest) (mid : UInt16) :
    ReplyOptions (separateHeader site status r mid) := by
  have hc : ∀ p : Message, p.code = UInt8.ofNat (ocStatusCode status) →
      coapCheckSignalMessage p = false := by
    intro p hp
    unfold coapCheckSignalMessage
    rw [hp]
    simpa [and_assoc] using ocStatusCode_ordinary status
  refine ReplyOptions.contentFormat ?_ _
  unfold coapSeparateResume
  dsimp only
  split
  · split
    · exact ⟨hc _ rfl, Nat.zero_le _, fun _ _ => rfl⟩
    · exact ⟨hc _ rfl, Nat.zero_le _, fun _ _ => rfl⟩
  · refine ReplyOptions.token ?_ _
    split
    · exact ⟨hc _ rfl, Nat.zero_le _, fun _ _ => rfl⟩
    · exact ⟨hc _ rfl, Nat.zero_le _, fun _ _ => rfl⟩

theorem separateHeader_token {r : SeparateRequest} (h : r.token.length ≤ coapTokenLen)
    (mid : UInt16) : (separateHeader site status r mid).token = r.token := by
  show (coapSeparateResume r _ mid).token = r.token
  unfold coapSeparateResume
  dsimp only
  split
  · rename_i ht
    rw [ht]
    split <;> rfl
  · exact List.take_of_length_le h

/-- what the setters of the first block leave as it is -/
structure BuiltOn (packet p : Message) : Prop where
  token : p.token = packet.token
  options : ReplyOptions packet → ReplyOptions p

theorem builtOn_refl (packet : Message) : BuiltOn packet packet := ⟨rfl, id⟩

theorem builtOn_payload (cfg : Config) (packet : Message) (payload : List UInt8) :
    BuiltOn packet (coapSetPayload cfg packet payload) := by
  refine ⟨?_, fun h => h.payload cfg payload⟩
  unfold coapSetPayload
  split <;> rfl

theorem builtOn_block2 (packet : Message) (num : UInt32) (more : UInt8) (size : UInt16) :
    BuiltOn packet (coapSetHeaderBlock2 packet num more size) := by
  refine ⟨?_, fun h => h.block2 num more size⟩
  unfold coapSetHeaderBlock2
  split <;> rfl

theorem builtOn_status (packet : Message) (status : OcStatus) :
    BuiltOn packet (coapSetStatusCode packet (ocStatusCode status)) := by
  refine ⟨?_, fun h => h.status (ocStatusCode_ordinary status)⟩
  unfold coapSetStatusCode
  split <;> rfl

theorem BuiltOn.trans {p q r : Message} (h : BuiltOn p q) (h' : BuiltOn q r) :
    BuiltOn p r := ⟨h'.token.trans h.token, fun hp => h'.options (h.options hp)⟩

theorem builtOn_firstBlock (packet : Message) (payload : List UInt8) (size : UInt16) (n : UInt32)
    (etag : List UInt8) :
    BuiltOn packet (coapSetHeaderEtag (coapSetHeaderSize2
      (coapSetHeaderBlock2 (coapSetPayload cfg packet payload) 0 1 size) n) etag) := by
  have h := (builtOn_payload cfg packet payload).trans (builtOn_block2 _ 0 1 size)
  exact h.trans ⟨rfl, fun h => (h.size2 n).entityTag etag⟩

/-- there is room for the whole response, or for a response buffer -/
def Fits (body : List UInt8) (r : SeparateRequest) (s : Buffers) : Prop :=
  r.endpoint.flags.tcp = true ∨ body.length ≤ r.block2Size.toNat ∨
    r.uri ≠ [] ∧ ocBlockwiseFindResponseBuffer s r.uri r.endpoint r.method [] .server = none

theorem allocResponse_granted {a : Alloc} (ha : a.granted = true) (etag : List UInt8)
    {href : List UInt8} (hu : href ≠ []) (endpoint : Endpoint) (method : UInt8) (role : Role)
    (s : Buffers) :
    ∃ b, ocBlockwiseAllocResponseBuffer a etag href endpoint method role s =
      (some b, { s with responses := s.responses ++ [b], fresh := s.fresh + 1 }) := by
  unfold ocBlockwiseAllocResponseBuffer ocBlockwiseInitBuffer
  rw [if_neg hu, if_pos ha]
  exact ⟨_, rfl⟩

variable (cfg body) in
/-- the first block of a representation: it is sent unless there is a buffer already, or no path to
make one for -/
theorem openBlocks_cases {env : Env} (ha : env.responseAlloc.granted = true) (href : List UInt8)
    (endpoint : Endpoint) (method : UInt8) (block2Size : UInt16) (packet : Message) (s : Buffers) :
    (href ≠ [] ∧ ocBlockwiseFindResponseBuffer s href endpoint method [] .server = none ∧
      ∃ p s', openBlocks cfg env href endpoint method block2Size body packet s = .opened p s' ∧
        BuiltOn packet p) ∨
    (¬ (href ≠ [] ∧ ocBlockwiseFindResponseBuffer s href endpoint method [] .server = none) ∧
      ∀ p s', openBlocks cfg env href endpoint method block2Size body packet s ≠ .opened p s') := by
  unfold openBlocks
  cases hf : ocBlockwiseFindResponseBuffer s href endpoint method [] .server with
  | some b => exact Or.inr ⟨by simp, fun _ _ => by simp⟩
  | none =>
    by_cases hu : href = []
    · refine Or.inr ⟨by simp [hu], fun _ _ => ?_⟩
      simp [ocBlockwiseAllocResponseBuffer, ocBlockwiseInitBuffer, hu]
    · refine Or.inl ⟨hu, rfl, ?_⟩
      obtain ⟨b, hb⟩ := allocResponse_granted ha env.etag hu endpoint method .server s
      rw [hb]
      refine ⟨_, _, rfl, ?_⟩
      split
      · exact builtOn_refl packet
      · exact builtOn_firstBlock _ _ _ _ _

/-- a packet with a short token is sent -/
theorem sendSerialized_sent {packet : Message} (hp : ReplyOptions packet)
    (ht : packet.token.length ≤ coapTokenLen) (env : Env) (id : Nat) (mid : UInt16)
    (endpoint : Endpoint) (s : State) :
    (sendSerialized env id mid endpoint packet s).1 = true := by
  have hne : serializedBytes packet ≠ [] := List.ne_nil_of_length_pos (hp.serialized ht)
  unfold sendSerialized
  dsimp only
  rw [if_neg hne]

/-- the packet of a response -/
theorem separatePayload_cases {env : Env} (ha : env.responseAlloc.granted = true)
    (r : SeparateRequest) (packet : Message) (s : Buffers) :
    (Fits body r s ∧
      ∃ p s', separatePayload cfg body env r packet s = .opened p s' ∧ BuiltOn packet p) ∨
    (¬ Fits body r s ∧ ∀ p s', separatePayload cfg body env r packet s ≠ .opened p s') := by
  unfold separatePayload
  by_cases hlong : r.endpoint.flags.tcp = false ∧ r.block2Size.toNat < body.length
  · rw [if_pos hlong]
    have hfits : Fits body r s ↔ r.uri ≠ [] ∧
        ocBlockwiseFindResponseBuffer s r.uri r.endpoint r.method [] .server = none := by
      unfold Fits
      simp [hlong.1, hlong.2]
    rcases openBlocks_cases cfg body ha r.uri r.endpoint r.method r.block2Size
        packet s with ⟨hu, hf, ho⟩ | ⟨hn, ho⟩
    · exact Or.inl ⟨hfits.mpr ⟨hu, hf⟩, ho⟩
    · exact Or.inr ⟨fun h => hn (hfits.mp h), ho⟩
  · rw [if_neg hlong]
    refine Or.inl ⟨?_, _, _, rfl, ?_⟩
    · by_cases ht : r.endpoint.flags.tcp = true
      · exact Or.inl ht
      · exact Or.inr (Or.inl (by simpa [ht] using hlong))
    · split
      · exact builtOn_refl packet
      · exact builtOn_payload cfg packet body

/-- what the round for an entry sends -/
theorem respondTo_cases {env : Env} (ht : env.transactionGranted = true)
    (ha : env.responseAlloc.granted = true) {r : SeparateRequest}
    (hr : r.token.length ≤ coapTokenLen) (s : State) :
    (Fits body r s.toBuffers ∧
      ∃ p, (respondTo cfg site status body env r s).1 = some p ∧ p.token = r.token) ∨
    (¬ Fits body r s.toBuffers ∧ (respondTo cfg site status body env r s).1 = none) := by
  unfold respondTo coapGetMid coapNewTransaction
  dsimp only
  rw [if_pos ht]
  dsimp only
  generalize s.currentMid + 1 = mid
  -- the new transaction takes an address, and leaves the lists of buffers
  rcases separatePayload_cases ha r (separateHeader site status r mid)
      { s.toBuffers with fresh := s.fresh + 1 } with ⟨hfits, p, s', ho, hp⟩ | ⟨hn, ho⟩
  · refine Or.inl ⟨hfits, coapSetStatusCode p (ocStatusCode status), ?_⟩
    have hc := hp.trans (builtOn_status p status)
    have htoken := hc.token.trans (separateHeader_token hr mid)
    rw [ho]
    refine ⟨if_pos ?_, htoken⟩
    refine sendSerialized_sent (hc.options (separateHeader_options r mid)) ?_ _ _ _ _ _
    rw [htoken]
    exact hr
  · refine Or.inr ⟨hn, ?_⟩
    generalize hop : separatePayload cfg body env r (separateHeader site status r mid)
      { s.toBuffers with fresh := s.fresh + 1 } = opening at ho ⊢
    cases opening with
    | busy => rfl
    | refused => rfl
    | opened p s' => exact absurd rfl (ho p s')

/-! ## all responses -/

variable (cfg site status body) in
/-- the server when the loop comes to the entry with a token -/
def serverAt (handle : Nat) (rounds : Nat → Round) (token : List UInt8) :
    Nat → List SeparateRequest → Server → Server
  | _, [], s => s
  | k, r :: l, s =>
    if r.hasToken token then s
    else
      serverAt handle rounds token (k + 1) l (afterRound cfg site status body handle (rounds k) r s)

/-- the responses with a token that go to an endpoint -/
def answersTo (endpoint : Endpoint) (token : List UInt8) (l : List (Endpoint × Message)) : Nat :=
  l.countP fun x => x.1 == endpoint && x.2.token == token

/-- an entry that gets a response, to its endpoint -/
def Responds (body : List UInt8) (endpoint : Endpoint) (r : SeparateRequest) (s : Server) : Prop :=
  r.endpoint = endpoint ∧ 0 < r.observe ∧ Fits body r s.engine.toBuffers

theorem sendRound_cases {round : Round} (hg : round.Granted) {r : SeparateRequest}
    (hr : r.token.length ≤ coapTokenLen) (s : Server) :
    ((0 < r.observe ∧ Fits body r s.engine.toBuffers) ∧
      ∃ p, (sendRound cfg site status body round r s).1 = some p ∧ p.token = r.token) ∨
    (¬ (0 < r.observe ∧ Fits body r s.engine.toBuffers) ∧
      (sendRound cfg site status body round r s).1 = none) := by
  unfold sendRound
  by_cases ho : 0 < r.observe
  · rw [if_pos ho]
    rcases respondTo_cases hg.1 hg.2 hr s.engine with ⟨hf, h⟩ | ⟨hn, h⟩
    · exact Or.inl ⟨⟨ho, hf⟩, h⟩
    · exact Or.inr ⟨fun h => hn h.2, h⟩
  · rw [if_neg ho]
    refine Or.inr ⟨fun h => ho h.1, ?_⟩
    split <;> rfl

variable (cfg site status body) in
/-- the responses of a round -/
theorem answersTo_round {round : Round} (hg : round.Granted) {r : SeparateRequest}
    (hr : r.token.length ≤ coapTokenLen) (s : Server) (endpoint : Endpoint) (token : List UInt8) :
    (r.token ≠ token → answersTo endpoint token
      ((sendRound cfg site status body round r s).1.map fun p => (r.endpoint, p)).toList = 0) ∧
    (r.token = token → (answersTo endpoint token
      ((sendRound cfg site status body round r s).1.map fun p => (r.endpoint, p)).toList = 1 ↔
        Responds body endpoint r s)) := by
  rcases sendRound_cases hg hr s with ⟨⟨ho, hf⟩, p, hp, htoken⟩ | ⟨hn, hp⟩
  · rw [hp]
    constructor
    · intro ht
      have hne : p.token ≠ token := fun h => ht (htoken.symm.trans h)
      simp [answersTo, hne]
    · rintro rfl
      by_cases he : r.endpoint = endpoint
      · simp [answersTo, Responds, htoken, he, ho, hf]
      · simp [answersTo, Responds, he]
  · rw [hp]
    refine ⟨fun _ => rfl, fun _ => iff_of_false Nat.zero_ne_one ?_⟩
    exact fun h => hn h.2

theorem answersTo_append (endpoint : Endpoint) (token : List UInt8)
    (l m : List (Endpoint × Message)) :
    answersTo endpoint token (l ++ m) = answersTo endpoint token l + answersTo endpoint token m :=
  List.countP_append

theorem ShortTokens.tail {r : SeparateRequest} {l : List SeparateRequest}
    (h : ShortTokens (r :: l)) : ShortTokens l :=
  ⟨(List.nodup_cons.mp h.nodup).2, fun t ht => h.length_le t (List.mem_cons_of_mem _ ht)⟩

variable (cfg site status body) in
/-- without an entry there is no response -/
theorem answersTo_none (handle : Nat) {rounds : Nat → Round} (hg : ∀ k, (rounds k).Granted)
    (endpoint : Endpoint) (token : List UInt8) (l : List SeparateRequest) (hl : ShortTokens l)
    (hn : token ∉ l.map SeparateRequest.token) (k : Nat) (s : Server) :
    answersTo endpoint token (sendRounds cfg site status body handle rounds k l s).1 = 0 := by
  induction l generalizing k s with
  | nil => rfl
  | cons r l ih =>
    rw [List.map_cons, List.mem_cons, not_or] at hn
    have hr := hl.length_le r.token List.mem_cons_self
    unfold sendRounds
    dsimp only
    rw [answersTo_append, (answersTo_round cfg site status body (hg k) hr s endpoint token).1 (Ne.symm hn.1),
      ih hl.tail hn.2, Nat.add_zero]

variable (cfg site status body) in
/-- which responses the loop sends -/
theorem answersTo_rounds (handle : Nat) {rounds : Nat → Round} (hg : ∀ k, (rounds k).Granted)
    (endpoint : Endpoint) (token : List UInt8) (l : List SeparateRequest) (hl : ShortTokens l)
    (k : Nat) (s : Server) :
    answersTo endpoint token (sendRounds cfg site status body handle rounds k l s).1 = 1 ↔
      ∃ r, l.find? (SeparateRequest.hasToken token) = some r ∧
        Responds body endpoint r (serverAt cfg site status body handle rounds token k l s) := by
  induction l generalizing k s with
  | nil => simp [sendRounds, answersTo]
  | cons r l ih =>
    have hr := hl.length_le r.token List.mem_cons_self
    obtain ⟨hother, hsame⟩ := answersTo_round cfg site status body (hg k) hr s endpoint token
    unfold sendRounds serverAt
    dsimp only
    rw [answersTo_append]
    by_cases ht : r.hasToken token
    · have hrt : r.token = token := eq_of_beq ht
      have hnot : token ∉ l.map SeparateRequest.token := by
        rw [← hrt]
        exact (List.nodup_cons.mp hl.nodup).1
      rw [answersTo_none cfg site status body handle hg endpoint token l hl.tail hnot, Nat.add_zero, hsame hrt,
        if_pos ht, List.find?_cons_of_pos ht]
      simp
    · have hrt : r.token ≠ token := fun h => ht (beq_iff_eq.mpr h)
      rw [hother hrt, Nat.zero_add, if_neg ht, List.find?_cons_of_neg ht]
      exact ih hl.tail _ _

/-! ## who is answered -/

section
variable (cfg : Config) (site : Site) (status : OcStatus) (handle : Nat) (rounds : Nat → Round)

/-- every accepted request without an Observe option gets one response with its token, and gets it
at its endpoint; `2` stands for the option that is not there -/
def AnswersOnce (arrivals : List Arrival) (s : Server) : Prop :=
  ∀ a ∈ arrivals, a.observe = 2 →
    answersTo a.endpoint a.request.token
      (ocSendSeparateResponse cfg site status handle rounds s).1 = 1

/-- The entry for a request is one that the loop answers: it was made for the endpoint of the
request, the last request with the token asks for a response, and there is room for it when the
loop gets there. -/
structure EntryServes (body : List UInt8) (arrivals : List Arrival) (a : Arrival) (s : Server) :
    Prop where
  first : ∃ first, arrivals.find? (Arrival.hasToken a.request.token) = some first ∧
    first.endpoint = a.endpoint ∧ Fits body (first.entry first) s.engine.toBuffers
  last : ∃ last, arrivals.reverse.find? (Arrival.hasToken a.request.token) = some last ∧
    0 < last.observe

/-- the server when the call comes to the entry of a request -/
def serverFor (a : Arrival) (s : Server) : Server :=
  serverAt cfg site status (s.handles handle).body handle rounds a.request.token 0
    (s.handles handle).requests s

end

variable {handle : Nat} {rounds : Nat → Round}

/-- one request -/
theorem answersTo_iff {arrivals : List Arrival} (ha : ∀ a ∈ arrivals, a.Granted)
    (hg : ∀ k, (rounds k).Granted) (h : SeparateResponse) {s : Server}
    (hs : (s.handles handle).requests = (acceptAll arrivals h).requests) (a : Arrival) :
    answersTo a.endpoint a.request.token
        (ocSendSeparateResponse cfg site status handle rounds s).1 = 1 ↔
      EntryServes (s.handles handle).body arrivals a
        (serverFor cfg site status handle rounds a s) := by
  obtain ⟨hshort, _, hfind⟩ := find_pending arrivals ha h
  rw [← hs] at hshort hfind
  have hiff := answersTo_rounds cfg site status (s.handles handle).body handle hg a.endpoint
    a.request.token _ hshort 0 s
  refine hiff.trans ?_
  rw [hfind]
  constructor
  · rintro ⟨r, hr, he, ho, hf⟩
    obtain ⟨first, hfirst, hr⟩ := Option.bind_eq_some_iff.mp hr
    obtain ⟨last, hlast, rfl⟩ := Option.map_eq_some_iff.mp hr
    exact ⟨⟨first, hfirst, he, hf⟩, ⟨last, hlast, ho⟩⟩
  · rintro ⟨⟨first, hfirst, he, hf⟩, ⟨last, hlast, ho⟩⟩
    refine ⟨first.entry last, ?_, he, ho, hf⟩
    rw [hfirst, hlast]
    rfl

end

/-! ## sample inputs -/

theorem length_sampleToken : ([0x2A] : List UInt8).length ≤ coapTokenLen := by decide

/-- a `GET` from a port, with one token for all ports -/
def sampleArrival (port : UInt16) : Arrival where
  env := sampleEnv [] length_nil_lt
  granted := true
  request := { coapUdpInitMessage .con coapGet 7 with token := [0x2A], uriPath := [0x61] }
  endpoint := sampleEndpoint port
  observe := 2
  block2Size := 1024
  token_le := length_sampleToken

def sampleHandle : SeparateResponse := ⟨false, [], []⟩

/-- a server with a handle that has accepted requests -/
def acceptedServer (arrivals : List Arrival) : Server :=
  { sampleServer 0 with handles := fun _ => acceptAll arrivals sampleHandle }

def sampleRound : Round where
  env := sampleEnv [] length_nil_lt
  own := sampleSupply
  linked := sampleSupply
  batch _ := ⟨69, []⟩

end Coap
