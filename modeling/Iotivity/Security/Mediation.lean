import Iotivity.Security.Access

/-!
# From a request to handlers: `oc_ri_invoke_coap_entity_handler` and batch requests

A request names a resource; once interface and access have been checked, its handler runs, or
`oc_handle_collection_request` when it is a collection.  On the batch interface that function calls
the handlers of the linked resources.  `invocations` lists the handlers that a request makes run,
each with the interface it is called with; the answer of the ACL is that at the arrival of the
request.

* `mem_invocations`         which handlers run;
* `mediation_iff`           they all belong to resources that the ACL grants iff the links that a
                            permitted batch request selects do.
-/

namespace Security

/-! ## queries -/

/-- `memchr` -/
def memchr (c : UInt8) (q : Bytes) : Option Nat := q.findIdx? (· = c)

/-- what follows the `n`-th `&` -/
def behindAmp : Nat → Bytes → Option Bytes
  | 0, q => some q
  | n + 1, q => (memchr 38 q).bind fun i => behindAmp n (q.drop (i + 1))

/-- `oc_ri_get_query_nth_key_value`: the position behind the pair, the key and the value -/
def ocRiGetQueryNthKeyValue (query : Bytes) (n : Nat) : Option (Nat × Bytes × Bytes) :=
  (behindAmp (n - 1) query).bind fun start =>
    (memchr 61 start).map fun i =>
      let rest := start.drop (i + 1)
      let value := (memchr 38 rest).elim rest rest.take
      (query.length - rest.length + value.length + 1, start.take i, value)

def lower (s : Bytes) : Bytes := s.map fun c => if 65 ≤ c ∧ c ≤ 90 then c + 32 else c

/-- `oc_ri_get_query_value`; each round drops at least one character -/
def ocRiGetQueryValue (key : Bytes) : Nat → Bytes → Option Bytes
  | 0, _ => none
  | fuel + 1, query =>
    if query = [] then none
    else match ocRiGetQueryNthKeyValue query 1 with
      | none => none
      | some (next, k, v) =>
        if lower k = lower key then some v else ocRiGetQueryValue key fuel (query.drop next)

/-- the loop of `oc_filter_resource_by_rt` behind the `n`-th pair of the query, with `match`; there
are fewer pairs than characters -/
def filterLoop (types : List Bytes) (query : Bytes) : Nat → Nat → Bool → Bool
  | 0, _, ok => ok
  | fuel + 1, n, ok =>
    match ocRiGetQueryNthKeyValue query (n + 1) with
    | none => ok
    | some (pos, k, v) =>
      if k = ascii "rt" then
        if v ≠ [] ∧ types.contains v then true
        else if pos ≥ query.length then ok && v = []
        else filterLoop types query fuel (n + 1) (ok && v = [])
      else filterLoop types query fuel (n + 1) ok

/-- `oc_filter_resource_by_rt` -/
def ocFilterResourceByRt (resource : Resource) (query : Bytes) : Bool :=
  filterLoop resource.types query (query.length + 1) 0 true

/-! ## requests and resources -/

/-- a request as the entity handler gets it; the payload is `none` when it could not be parsed -/
structure Message where
  method : Method
  uriPath : Bytes
  uriQuery : Bytes
  payload : Option (List Rep)
  endpoint : Coap.Endpoint

/-- `oc_collection_t`: a resource and its links; a link may have lost its resource -/
structure Collection where
  resource : Resource
  links : List (Option Resource)

/-- the resources of the application -/
structure Registry where
  core : Nat → Nat → Resource
  app : List Resource
  collections : List Collection

/-- the resource that a request addresses -/
inductive Target where
  | plain (resource : Resource)
  | collection (c : Collection)

def Target.resource : Target → Resource
  | .plain r => r
  | .collection c => c.resource

/-- the URI is the path behind its leading slash -/
def uriMatches (resource : Resource) (path : Bytes) : Bool :=
  resource.uri.length = path.length + 1 ∧ resource.uri.drop 1 = path

/-- `oc_ri_get_app_resource_by_uri` -/
def ocRiGetAppResourceByUri (reg : Registry) (uri : Bytes) (device : Nat) : Option Target :=
  let skip := hrefSkip uri
  match reg.app.find? fun r =>
      r.uri.length = uri.length + skip ∧ r.uri.drop skip = uri ∧ r.device = device with
  | some r => some (.plain r)
  | none =>
    (reg.collections.find? fun c =>
      uriMatches c.resource (uri.dropWhile (· = 47)) ∧ c.resource.device = device).map .collection

/-- the core resources first, then those of the application -/
def findTarget (reg : Registry) (msg : Message) : Option Target :=
  match ((List.range (1 + ocfD)).map (reg.core msg.endpoint.device)).find? fun r =>
      uriMatches r msg.uriPath with
  | some r => some (.plain r)
  | none => ocRiGetAppResourceByUri reg msg.uriPath msg.endpoint.device

/-- `does_interface_support_method` -/
def doesInterfaceSupportMethod (ifaceMask : UInt32) (method : Method) : Bool :=
  !(ifaceMask = 4 ∨ ifaceMask = 128 ∨ ifaceMask = 16) || method = .get

/-- the interface of a request: that of its query, else the default one of the resource -/
def requestInterface (msg : Message) (resource : Resource) : UInt32 :=
  let mask := match ocRiGetQueryValue (ascii "if") msg.uriQuery.length msg.uriQuery with
    | some iface => ocRiGetInterfaceMask iface
    | none => 0
  if mask = 0 then resource.defaultInterface else mask

/-! ## handlers that run -/

/-- the last text of a batch item is its href -/
def itemHref (item : List Rep) : Bytes :=
  item.foldl (fun href p => match p.value with
    | .string s => s
    | _ => href) []

/-- a link of a batch request whose handler is called; without a href every link is meant -/
def linkCalled (msg : Message) (href : Bytes) (resource : Resource) : Bool :=
  ocFilterResourceByRt resource msg.uriQuery ∧ (href = [] ∨ href = resource.uri) ∧
    resource.handler msg.method

/-- the loop over the links, for one item -/
def batchItem (msg : Message) (c : Collection) (href : Bytes) : List Resource :=
  c.links.filterMap fun link => link.filter (linkCalled msg href)

/-- the batch interface of `oc_handle_collection_request` -/
def batch (msg : Message) (c : Collection) : List Resource :=
  if msg.method = .get ∨ msg.method = .delete then batchItem msg c []
  else (msg.payload.getD []).flatMap fun rep => match rep.value with
    | .object item => batchItem msg c (itemHref item)
    | _ => []

/-- the handlers that a target runs once access is granted, each with its interface -/
def handlersOf (msg : Message) (ifaceMask : UInt32) : Target → List (Resource × UInt32)
  | .collection c =>
    if ifaceMask = 8 then (batch msg c).map fun r => (r, r.defaultInterface) else []
  | .plain r => if r.handler msg.method then [(r, ifaceMask)] else []

/-- interface and method fit the addressed resource -/
def wellAddressed (msg : Message) (resource : Resource) : Bool :=
  requestInterface msg resource &&& ~~~ resource.interfaces = 0 ∧
    doesInterfaceSupportMethod (requestInterface msg resource) msg.method

/-- the ACL grants the method on a resource to the sender -/
def granted (tls : Tls) (s : State) (msg : Message) (x : Resource × UInt32) : Bool :=
  (ocSecCheckAcl tls s msg.method x.1 x.2 msg.endpoint).1

/-- the handlers that run on behalf of a request -/
def invocations (tls : Tls) (s : State) (reg : Registry) (msg : Message) : List (Resource × UInt32) :=
  if msg.payload.isNone then []
  else match findTarget reg msg with
    | none => []
    | some target =>
      let iface := requestInterface msg target.resource
      if wellAddressed msg target.resource ∧ granted tls s msg (target.resource, iface) then
        handlersOf msg iface target
      else []

/-! ## what the ACL is asked -/

/-- the request is a batch request to this collection, and the ACL lets it in -/
structure BatchOn (tls : Tls) (s : State) (reg : Registry) (msg : Message) (c : Collection) :
    Prop where
  parsed : msg.payload.isSome = true
  target : findTarget reg msg = some (.collection c)
  iface : requestInterface msg c.resource = 8
  addressed : wellAddressed msg c.resource = true
  access : granted tls s msg (c.resource, 8) = true

/-- a link that a batch request selects: it passes the filter of the query, an item of the payload
names it or all of them, and its resource has a handler for the method -/
def Selected (msg : Message) (c : Collection) (r : Resource) : Prop :=
  some r ∈ c.links ∧ ocFilterResourceByRt r msg.uriQuery = true ∧ r.handler msg.method = true ∧
    (msg.method = .get ∨ msg.method = .delete ∨
      ∃ rep ∈ msg.payload.getD [], ∃ item, rep.value = .object item ∧
        (itemHref item = [] ∨ itemHref item = r.uri))

variable {tls : Tls} {s : State} {reg : Registry} {msg : Message}

theorem mem_batchItem {c : Collection} {href : Bytes} {r : Resource} :
    r ∈ batchItem msg c href ↔ some r ∈ c.links ∧ ocFilterResourceByRt r msg.uriQuery = true ∧
      r.handler msg.method = true ∧ (href = [] ∨ href = r.uri) := by
  have hm : r ∈ batchItem msg c href ↔ some r ∈ c.links ∧ linkCalled msg href r = true := by
    unfold batchItem
    rw [List.mem_filterMap]
    constructor
    · rintro ⟨link, hl, hf⟩
      obtain ⟨rfl, hc⟩ := Option.filter_eq_some_iff.mp hf
      exact ⟨hl, hc⟩
    · intro h
      exact ⟨some r, h.1, Option.filter_eq_some_iff.mpr ⟨rfl, h.2⟩⟩
  rw [hm, linkCalled, decide_eq_true_iff]
  constructor
  · rintro ⟨h1, h2, h3, h4⟩
    exact ⟨h1, h2, h4, h3⟩
  · rintro ⟨h1, h2, h3, h4⟩
    exact ⟨h1, h2, h4, h3⟩

theorem mem_batch {c : Collection} {r : Resource} : r ∈ batch msg c ↔ Selected msg c r := by
  unfold batch Selected
  by_cases hm : msg.method = .get ∨ msg.method = .delete
  · rw [if_pos hm, mem_batchItem]
    constructor
    · rintro ⟨h1, h2, h3, -⟩
      exact ⟨h1, h2, h3, hm.imp id Or.inl⟩
    · rintro ⟨h1, h2, h3, -⟩
      exact ⟨h1, h2, h3, Or.inl rfl⟩
  · rw [if_neg hm, List.mem_flatMap]
    constructor
    · rintro ⟨rep, hr, hx⟩
      split at hx
      · next item hv =>
        obtain ⟨h1, h2, h3, h4⟩ := mem_batchItem.mp hx
        exact ⟨h1, h2, h3, Or.inr (Or.inr ⟨rep, hr, item, hv, h4⟩)⟩
      · cases hx
    · rintro ⟨h1, h2, h3, h4⟩
      rcases h4 with h4 | h4 | ⟨rep, hr, item, hv, h4⟩
      · exact absurd (Or.inl h4) hm
      · exact absurd (Or.inr h4) hm
      · refine ⟨rep, hr, ?_⟩
        rw [hv]
        exact mem_batchItem.mpr ⟨h1, h2, h3, h4⟩

/-- a handler that runs is that of the addressed resource, with access granted to it, or that of a
link which a batch request selects -/
theorem mem_invocations {x : Resource × UInt32} (h : x ∈ invocations tls s reg msg) :
    granted tls s msg x = true ∨
      ∃ c, BatchOn tls s reg msg c ∧ Selected msg c x.1 ∧ x.2 = x.1.defaultInterface := by
  unfold invocations at h
  split at h
  · cases h
  next hp =>
  cases ht : findTarget reg msg with
  | none => rw [ht] at h; cases h
  | some target =>
    rw [ht] at h
    dsimp only at h
    split at h
    · next hc =>
      cases target with
      | plain r =>
        simp only [handlersOf] at h
        split at h
        · exact Or.inl (List.mem_singleton.mp h ▸ hc.2)
        · cases h
      | collection c =>
        simp only [handlersOf] at h
        split at h
        · next hi =>
          obtain ⟨r, hr, rfl⟩ := List.mem_map.mp h
          have hg := hc.2
          rw [hi] at hg
          refine Or.inr ⟨c, ⟨?_, ht, hi, hc.1, hg⟩, mem_batch.mp hr, rfl⟩
          cases hpl : msg.payload with
          | none => rw [hpl] at hp; exact absurd rfl hp
          | some p => rfl
        · cases h
    · cases h

/-- every selected link of a permitted batch request is called -/
theorem BatchOn.called {c : Collection} (h : BatchOn tls s reg msg c) {r : Resource}
    (hr : Selected msg c r) : (r, r.defaultInterface) ∈ invocations tls s reg msg := by
  have hn : ¬ msg.payload.isNone = true := by
    intro hp
    have hs := h.parsed
    rw [Option.isNone_iff_eq_none.mp hp] at hs
    cases hs
  have hi : requestInterface msg (Target.collection c).resource = 8 := h.iface
  unfold invocations
  rw [if_neg hn, h.target]
  dsimp only
  rw [hi, if_pos ⟨h.addressed, h.access⟩]
  simp only [handlersOf, if_true]
  exact List.mem_map_of_mem (mem_batch.mpr hr)

theorem mediation_iff (tls : Tls) (s : State) (reg : Registry) (msg : Message) :
    (∀ x ∈ invocations tls s reg msg, granted tls s msg x = true) ↔
      ∀ c, BatchOn tls s reg msg c → ∀ r, Selected msg c r →
        granted tls s msg (r, r.defaultInterface) = true := by
  constructor
  · intro h c hb r hr
    exact h _ (hb.called hr)
  · intro h x hx
    rcases mem_invocations hx with hg | ⟨c, hb, hr, he⟩
    · exact hg
    · have hg := h c hb x.1 hr
      rwa [← he] at hg

/-! ## a room with a light in it -/

def room : Resource :=
  { device := 0, core := none, uri := ascii "/room", types := [ascii "oic.wk.col"]
    interfaces := 2 ||| 4 ||| 8, defaultInterface := 4, properties := ocDiscoverable ||| ocSecure
    handler := fun _ => false }

/-- anyone may read the room; nothing is said about the light in it -/
def roomState : State :=
  State.zero.put 0 { Device.zero with
    pstat := { Device.zero.pstat with s := .rfnop }
    acl := ⟨[⟨[⟨ascii "/room", 0, [], 0⟩], .conn .anonClear, 1, 2⟩], Uuid.nil⟩ }

def roomRegistry : Registry := ⟨fun d i => ⟨d, some i, [], [], 0, 0, 0, fun _ => false⟩, [light],
  [⟨room, [some light]⟩]⟩

/-- `GET /room?if=oic.if.b`, unsecured -/
def roomRequest : Message := ⟨.get, ascii "room", ascii "if=oic.if.b", some [], clearEndpoint⟩

/-- the light is read although the ACL does not let the client read it -/
theorem batch_reads_light :
    granted ⟨[], fun _ => true⟩ roomState roomRequest (light, light.defaultInterface) = false ∧
    ¬ ∀ x ∈ invocations ⟨[], fun _ => true⟩ roomState roomRegistry roomRequest,
      granted ⟨[], fun _ => true⟩ roomState roomRequest x = true := by
  have hg : granted ⟨[], fun _ => true⟩ roomState roomRequest (light, 2) = false := by
    decide +kernel
  refine ⟨hg, fun h => ?_⟩
  have hb : BatchOn ⟨[], fun _ => true⟩ roomState roomRegistry roomRequest ⟨room, [some light]⟩ := by
    constructor
    · rfl
    · rfl
    · decide +kernel
    · decide +kernel
    · decide +kernel
  have hr : Selected roomRequest ⟨room, [some light]⟩ light :=
    ⟨List.mem_singleton.mpr rfl, by decide +kernel, rfl, Or.inl rfl⟩
  exact absurd (h _ (hb.called hr)) (Bool.eq_false_iff.mp hg)

end Security
