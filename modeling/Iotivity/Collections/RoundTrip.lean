import Iotivity.Collections.Listing

/-!
# Collections, there and back

The answer of a collection is parsed by the one who has asked.

* `linkObject`              the object of a link in the answer of a batch request;
* `batch_round_trip_iff`    what is read back of its values;
* `links_round_trip`        and of the links themselves.
-/

namespace Collections
open Payload
open Discovery (Server key text policyBits epMembers)
open Security (Resource)

/-- the object of a link, with what its handler has written -/
def linkObject (r : Resource) (ms : Members) : Members :=
  membersOf [(key "href", .textString (text r.uri)), (key "rep", .object ms)]

/-- one object for each visit that leaves one, in their order -/
def told (content : Served → Members) (l : List Served) : List Members :=
  (l.filter Served.kept).map fun s => linkObject s.visit.resource (content s)

/-- a handler has written this object, or nothing, and this one is empty -/
def Served.Writes (s : Served) (ms : Members) : Prop := s.rep = [(.map, view ms.items)]

section
variable {d : Bool} {content : Served → Members} {l : List Served}

theorem object_eq {s : Served} {ms : Members} (h : s.Writes ms) :
    s.object = (.map, view (linkObject s.visit.resource ms).items) := by
  show (CborItem.map, view (front s.visit.resource ++ s.rep)) = _
  rw [h]
  rfl

theorem answerOf_told (h : ∀ s ∈ l, s.kept → s.Writes (content s)) :
    view (answerOf l) = payloadOf (Payload.objectsOf (told content l)) := by
  have hobjects : objectsOf l = (Payload.objectsOf (told content l)).items := by
    unfold objectsOf told
    rw [objectsOf_items, List.map_map]
    refine List.map_congr_left fun s hs => ?_
    obtain ⟨hl, hk⟩ := List.mem_filter.mp hs
    exact object_eq (h s hl hk)
  show view [(.array none, view (objectsOf l))] = _
  rw [hobjects]
  rfl

theorem href_ne_rep : key "href" ≠ key "rep" := fun h => by
  have hbytes : (key "href").bytes = (key "rep").bytes := congrArg CString.bytes h
  revert hbytes
  decide

theorem linkObject_valid {r : Resource} {ms : Members} (h : ms.Valid d) : (linkObject r ms).Valid d :=
  ⟨fun hmem => href_ne_rep (List.mem_singleton.mp hmem), trivial, List.not_mem_nil, h, trivial⟩

theorem mem_arrays {ms : List Members} {a : Bool × Elements} :
    a ∈ (Payload.objectsOf ms).arrays ↔ ∃ m ∈ ms, a ∈ m.arrays := by
  induction ms with
  | nil => exact iff_of_false List.not_mem_nil fun ⟨_, h, _⟩ => List.not_mem_nil h
  | cons m ms ih =>
    show a ∈ m.arrays ++ (Payload.objectsOf ms).arrays ↔ _
    rw [List.mem_append, ih, List.exists_mem_cons_iff]

theorem told_arrays {a : Bool × Elements} : a ∈ (Payload.objectsOf (told content l)).arrays ↔
    ∃ s ∈ l, s.kept ∧ a ∈ (content s).arrays := by
  have harrays (s : Served) : (linkObject s.visit.resource (content s)).arrays = (content s).arrays :=
    List.append_nil _
  rw [mem_arrays]
  constructor
  · rintro ⟨m, hm, ha⟩
    obtain ⟨s, hs, rfl⟩ := List.mem_map.mp hm
    rw [harrays] at ha
    exact ⟨s, (List.mem_filter.mp hs).1, (List.mem_filter.mp hs).2, ha⟩
  · rintro ⟨s, hs, hk, ha⟩
    refine ⟨_, List.mem_map_of_mem (List.mem_filter.mpr ⟨hs, hk⟩), ?_⟩
    rwa [harrays]

end

theorem batch_room : batch lightCallbacks getAll none room () =
    ([⟨⟨light, [], []⟩, some ⟨Coap.ocStatusCode .ok, [(.map, view lightState.items)]⟩⟩,
      ⟨⟨fan, [], []⟩, none⟩], ()) := rfl

/-- the strings of the link fit into the slots of arrays, and there are no more of them than a `uint8_t`
counts -/
structure Tagged (d : Bool) (link : Link) : Prop extends Discovery.Slotted d link.resource where
  rels : ∀ t ∈ (link.rel.map text).filter (·.bytes.length > 0), t.bytes.length < stringArrayItemMaxLen d
  relCount : link.rel.length ≤ 255

section
variable {c : Encoder} {d : Bool} {server : Server} {request : Request} {link : Link} {links : List Link}

theorem read_strings {l : List Security.Bytes} (hcount : l.length ≤ 255)
    (hfit : ∀ t ∈ (l.map text).filter (·.bytes.length > 0), t.bytes.length < stringArrayItemMaxLen d) :
    Read d (.array true (.texts (l.map text))) := by
  have hlen : (l.map text).length ≤ 255 := by rwa [List.length_map]
  refine Discovery.read_whole (Nat.lt_of_le_of_lt hlen (by decide)) (Discovery.read_texts ?_ ?_)
  · exact fun t ht => ⟨List.ne_nil_of_length_pos (of_decide_eq_true (List.mem_filter.mp ht).2), hfit t ht⟩
  · exact Nat.le_trans (List.length_filter_le _ _) hlen

theorem linkMembers_keys : ((linkMembers server request link).map Prod.fst).Nodup := by
  refine List.Nodup.of_map CString.bytes ?_
  unfold linkMembers optional
  by_cases h : link.ins.length > 0
  · rw [if_pos h]
    show ([key "href", key "rt", key "if", key "rel", key "ins", key "p", key "eps"].map
      CString.bytes).Nodup
    decide
  · rw [if_neg h]
    show ([key "href", key "rt", key "if", key "rel", key "p", key "eps"].map CString.bytes).Nodup
    decide

theorem forall_optional {p : Prop} [Decidable p] {m : CString × Value} {P : CString × Value → Prop}
    (h : P m) : ∀ x ∈ optional p m, P x := by
  unfold optional
  split
  · exact List.forall_mem_singleton.mpr h
  · exact fun x hx => absurd hx List.not_mem_nil

theorem read_linkMembers (h : Tagged d link)
    (hcost : c.cost (view (membersOf (linkMembers server request link)).items) < 2^31) :
    ReadMembers d (membersOf (linkMembers server request link)) := by
  refine readMembers_of_cost hcost ?_
  unfold linkMembers
  rw [List.forall_mem_cons, List.forall_mem_cons, List.forall_mem_cons, List.forall_mem_cons,
    List.forall_mem_append, List.forall_mem_cons, List.forall_mem_singleton]
  have hnone {a : Bool × Elements} (ha : a ∈ []) : Survives d a := absurd ha List.not_mem_nil
  refine ⟨fun hvalue => read_valid trivial hvalue fun _ => hnone, fun _ => read_strings h.count h.fitting,
    fun _ => Discovery.read_interfaces link.resource.interfaces, fun _ => read_strings h.relCount h.rels,
    forall_optional fun hvalue => read_valid trivial hvalue fun _ => hnone, fun hvalue => ?_,
    fun hvalue => ?_⟩
  · have hbits : policyBits link.resource < 256 := Nat.mod_lt _ (by decide)
    refine read_valid ⟨List.not_mem_nil, ⟨?_, ?_⟩, trivial⟩ hvalue fun _ => hnone
    all_goals omega
  · refine read_objects_of_cost hvalue fun ms hms hms' => ?_
    obtain ⟨ep, -, rfl⟩ := List.mem_map.mp hms
    exact Discovery.read_endpoint hms'

theorem endpoints_arrays (eps : List Discovery.Port) :
    ∀ a ∈ (objects (eps.map (epMembers server.build))).arrays, a.2.Counted a.1 := by
  cases eps with
  | nil => exact List.forall_mem_singleton.mpr trivial
  | cons ep eps =>
    intro a ha
    obtain ⟨m, hm, ha⟩ := mem_arrays.mp ha
    obtain ⟨ep, -, rfl⟩ := (List.mem_map (l := ep :: eps)).mp hm
    unfold epMembers at ha
    cases h : EndpointString.ocEndpointToString server.build ep.endpoint with
    | none =>
      rw [h] at ha
      exact absurd ha List.not_mem_nil
    | some s =>
      rw [h] at ha
      exact absurd ha List.not_mem_nil

theorem linkMembers_counted (h : Tagged d link) :
    ∀ m ∈ linkMembers server request link, ∀ a ∈ m.2.arrays, a.2.Counted a.1 := by
  have hnone (a : Bool × Elements) (ha : a ∈ []) : a.2.Counted a.1 := absurd ha List.not_mem_nil
  have hstrings (l : List Security.Bytes) (hl : l.length ≤ 255) :
      ∀ a ∈ (Value.array true (.texts (l.map text))).arrays, a.2.Counted a.1 := by
    refine List.forall_mem_singleton.mpr (show (l.map text).length < 2^31 from ?_)
    rw [List.length_map]
    exact Nat.lt_of_le_of_lt hl (by decide)
  unfold linkMembers
  rw [List.forall_mem_cons, List.forall_mem_cons, List.forall_mem_cons, List.forall_mem_cons,
    List.forall_mem_append, List.forall_mem_cons, List.forall_mem_singleton]
  exact ⟨hnone, hstrings _ h.count, List.forall_mem_singleton.mpr trivial, hstrings _ h.relCount,
    forall_optional hnone, hnone, endpoints_arrays _⟩

end

/-- The links of a collection, there and back.  If they fit, the one who has asked finds the links that the
query selects, in their order, with every member but an array that is empty or has an empty string. -/
theorem links_round_trip {σ : Type} (c : Encoder) (call : Callbacks σ) (request : Request)
    (notify : Option Nat) (server : Server) (collection : Collection) (app : σ) (d : Bool) (pools : Pools)
    (hfits : c.cost (payloadOf (Payload.objectsOf (linkList server request collection.links))) ≤ c.size)
    (htagged : ∀ link ∈ linksOffered request collection.links, Tagged d link)
    (hroom : Room ((Payload.objectsOf (linkList server request collection.links)).allocs d) pools) :
    let r := ocHandleCollectionRequest c call request notify server collection 4 app
    ∃ objects p, parse d 0 (view r.encoding.items) pools = .ok (linkObjects objects) p ∧
      List.Forall₂ (fun link object => Reads d (linkMembers server request link) object)
        (linksOffered request collection.links) objects := by
  intro r
  have hitems : view r.encoding.items =
      payloadOf (Payload.objectsOf (linkList server request collection.links)) := by
    have hr : r = _ := links_eq
    have hlisted := answer_listed (c := c) request app (builds_setLinks server request collection.links)
      (.array none)
    rw [hr, (hlisted.content hfits).1]
    rfl
  have hlinks : c.cost (view (Payload.objectsOf (linkList server request collection.links)).items) < 2^31 :=
    Nat.lt_of_le_of_lt content_le_cost (Nat.lt_of_le_of_lt hfits c.size_lt)
  have hcost (link : Link) (hlink : link ∈ linksOffered request collection.links) :
      c.cost (view (membersOf (linkMembers server request link)).items) < 2^31 := by
    have hmem : membersOf (linkMembers server request link) ∈ linkList server request collection.links :=
      List.mem_map.mpr ⟨link, hlink, rfl⟩
    exact Nat.lt_of_le_of_lt (Payload.cost_object hmem) hlinks
  have hread : ∀ ms ∈ linkList server request collection.links, ReadMembers d ms := by
    intro ms hms
    obtain ⟨link, hlink, rfl⟩ := List.mem_map.mp hms
    exact read_linkMembers (htagged link hlink) (hcost link hlink)
  obtain ⟨p, hp⟩ := parse_objects hread hroom
  rw [hitems]
  refine ⟨_, p, hp, ?_⟩
  unfold linkList
  rw [Discovery.list_objectsOf, List.map_map, List.forall₂_map_right_iff]
  exact List.forall₂_same.mpr fun link hlink =>
    reads_members linkMembers_keys (hcost link hlink) (linkMembers_counted (htagged link hlink))

/-- both links come back, with their uris -/
theorem links_round_trip_room : ∃ o o' p,
    parse true 0 (view (ocHandleCollectionRequest cborEncoder lightCallbacks getAll none roomServer room
      4 ()).encoding.items) dynamicPools = .ok (linkObjects [o, o']) p ∧
        (∃ n, ocRepGetString o (key "href") = some (Security.ascii "/light", n)) ∧
        ∃ n, ocRepGetString o' (key "href") = some (Security.ascii "/fan", n) := by
  have htagged : ∀ link ∈ room.links, Tagged true link := by
    have htag (link : Link) (htypes : link.resource.types = []) (hrel : link.rel = []) :
        Tagged true link := by
      refine ⟨⟨?_, ?_⟩, ?_, ?_⟩
      all_goals simp [Discovery.typesOffered, htypes, hrel]
    exact List.forall_mem_cons.mpr ⟨htag _ rfl rfl, List.forall_mem_singleton.mpr (htag _ rfl rfl)⟩
  obtain ⟨objects, p, hparse, hreads⟩ := links_round_trip cborEncoder lightCallbacks getAll none
    roomServer room () true dynamicPools (by decide) htagged (room_of_unbounded _ unbounded_dynamicPools)
  rw [show linksOffered getAll room.links = room.links from rfl] at hreads
  cases hreads with
  | cons hlight hreads =>
    cases hreads with
    | cons hfan hreads =>
      cases hreads
      exact ⟨_, _, p, hparse, ⟨_, hlight _ List.mem_cons_self trivial⟩,
        ⟨_, hfan _ List.mem_cons_self trivial⟩⟩

end Collections
