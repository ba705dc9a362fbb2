import Iotivity.Discovery.Offered

/-!
# Discovery, from a device to the handler of a client

The answer of a device is parsed by a client, and its handler is called.

* `Clear`                   what a client can make out;
* `ToldOf`                  what the handler is told of a resource;
* `upTo`                    calls until the handler stops;
* `discovery_round_trip`    it is told of every resource that is offered, in order.
-/

namespace Discovery
open Payload Last
open Security (Bytes Uuid Resource ascii cstr ocUuidToStr)
open EndpointString (ocEndpointToString Fits Printable Agree)

/-! ## endpoints that are heard -/

/-- two builds that have what an endpoint needs print it alike -/
theorem printed_alike {b b' : EndpointString.Build} {ep : Coap.Endpoint} (h : Fits b ep) (h' : Fits b' ep) :
    ocEndpointToString b ep = ocEndpointToString b' ep := by
  have htcp : (b.tcp ∧ ep.flags.tcp) ↔ (b'.tcp ∧ ep.flags.tcp) :=
    ⟨fun hc => ⟨h'.tcp hc.2, hc.2⟩, fun hc => ⟨h.tcp hc.2, hc.2⟩⟩
  have hipv4 : (b.ipv4 ∧ ep.flags.ipv4) ↔ (b'.ipv4 ∧ ep.flags.ipv4) :=
    ⟨fun hc => ⟨h'.ipv4 hc.2, hc.2⟩, fun hc => ⟨h.ipv4 hc.2, hc.2⟩⟩
  unfold ocEndpointToString EndpointString.scheme
  simp only [htcp, hipv4]

section
variable {env : Env} {server : Server} {ep : Port}

theorem Heard.mono (h : Heard env server ep) (n : Nat) :
    Heard { env with fuel := env.fuel + n } server ep := by
  obtain ⟨s, e, hs, he, hagree⟩ := h
  refine ⟨s, e, hs, ?_, hagree⟩
  unfold stringToEndpoint at he ⊢
  cases hr : EndpointString.ocStringToEndpoint env.build env.fuel (cstr s) EndpointString.blankEndpoint with
  | error f =>
    rw [hr] at he
    cases he
  | ok r =>
    rw [hr] at he
    rw [EndpointString.ocStringToEndpoint_mono n hr]
    exact he

/-- the client hears of an endpoint, with enough fuel -/
theorem exists_heard (h : Printable env.build ep.endpoint) (hs : Fits server.build ep.endpoint) :
    ∃ fuel, Heard { env with fuel } server ep := by
  obtain ⟨text, htext, hcstr, fuel, e, uri, he, hagree⟩ := EndpointString.read_back h
  rw [← printed_alike hs h.toFits] at htext
  refine ⟨fuel, text, e, htext, ?_, hagree⟩
  rw [hcstr]
  unfold stringToEndpoint
  rw [he]
  rfl

/-- with enough fuel, of all of them -/
theorem exists_heard_all {eps : List Port}
    (h : ∀ ep ∈ eps, Printable env.build ep.endpoint ∧ Fits server.build ep.endpoint) :
    ∃ fuel, ∀ ep ∈ eps, Heard { env with fuel } server ep := by
  induction eps with
  | nil => exact ⟨0, nofun⟩
  | cons ep eps ih =>
    obtain ⟨hep, hl⟩ := List.forall_mem_cons.mp h
    obtain ⟨fuel, hfuel⟩ := ih hl
    obtain ⟨n, hn⟩ := exists_heard hep.1 hep.2
    refine ⟨fuel + n, List.forall_mem_cons.mpr ⟨?_, fun ep' hmem => (hfuel ep' hmem).mono n⟩⟩
    have hmono := hn.mono fuel
    rwa [Nat.add_comm]

end

/-! ## what is read of a resource -/

section
variable {d : Bool} {c : Encoder} {server : Server} {request : Request} {r : Resource} {anchor : CString}

/-- strings in their slots -/
theorem read_texts {l : List CString} (hfit : ∀ s ∈ l, Fitting d s.bytes) (hcount : l.length ≤ 255) :
    Read d (texts l) := by
  by_cases hne : l = []
  · rw [hne]
    exact read_empty
  have hvalid : (Elements.texts l).Valid d := ⟨hne, hfit⟩
  have hbytes : l.length * stringArrayItemMaxLen d % 2^32 ≠ 0 := by
    have hpos := List.length_pos_of_ne_nil hne
    have hslot : stringArrayItemMaxLen d = 128 ∨ stringArrayItemMaxLen d = 32 := by cases d <;> decide
    rcases hslot with hslot | hslot <;> rw [hslot] <;> omega
  exact ⟨fun name _ => parseArray_goes (written_clean hvalid false) (.inl rfl) name,
    (arrayAllocs_granted hvalid).mpr hbytes⟩

/-- the strings of an array that is set at once -/
theorem read_whole {l : List CString} (hlen : l.length < 2^31)
    (h : Read d (texts (l.filter (·.bytes.length > 0)))) : Read d (.array true (.texts l)) := by
  have hw : (Elements.texts l).written true = .texts (l.filter (·.bytes.length > 0)) := by
    show Elements.texts _ = _
    rw [asInt_of_inRange ⟨by omega, by omega⟩, Int.toNat_natCast, List.take_length]
  have hitem : (Value.array true (.texts l)).item = (texts (l.filter (·.bytes.length > 0))).item := by
    show (CborItem.array none, view (plain ((Elements.texts l).written true).items)) = _
    rw [hw]
    rfl
  have hallocs : (Value.array true (.texts l)).allocs d =
      (texts (l.filter (·.bytes.length > 0))).allocs d := by
    unfold texts Value.allocs
    rw [hw]
    rfl
  refine ⟨fun name next => ?_, ?_⟩
  · have hnode : (Value.array true (.texts l)).node d name =
        (texts (l.filter (·.bytes.length > 0))).node d name := by
      unfold texts Value.node
      rw [hw]
      rfl
    rw [hitem, hallocs, hnode]
    exact h.goes name next
  · rw [hallocs]
    exact h.granted

theorem read_types (h : Slotted d r) : Read d (texts (typesOffered r)) :=
  read_texts h.fits <| calc
    (typesOffered r).length ≤ (r.types.map text).length := List.length_filter_le _ _
    _ = r.types.length := List.length_map _
    _ ≤ 255 := h.count

theorem read_interfaces (ifaceMask : UInt32) : Read d (texts (ifNames ifaceMask)) :=
  read_texts (ifNames_fitting d ifaceMask) <| calc
    (ifNames ifaceMask).length = (Security.ifFlags.filter (ifaceMask &&& · ≠ 0)).length := List.length_map _
    _ ≤ Security.ifFlags.length := List.length_filter_le _ _
    _ ≤ 255 := by decide

theorem read_endpoint {build : EndpointString.Build} {ep : Port}
    (hcost : c.cost (view (epMembers build ep).items) < 2^31) : ReadMembers d (epMembers build ep) := by
  refine readMembers_of_cost hcost fun m hm hvalue => ?_
  obtain ⟨s, -, rfl⟩ := Option.map_eq_some_iff.mp (Option.mem_toList.mp hm)
  exact read_valid trivial hvalue nofun

theorem read_link (h : Slotted d r) (hcost : c.cost (view (linkMembers server request anchor r).items) < 2^31) :
    ReadMembers d (linkMembers server request anchor r) := by
  refine readMembers_of_cost hcost fun m hm hvalue => ?_
  simp only [List.mem_cons, List.not_mem_nil, or_false] at hm
  rcases hm with rfl | rfl | rfl | rfl | rfl | rfl
  · exact read_valid trivial hvalue nofun
  · exact read_valid trivial hvalue nofun
  · exact read_types h
  · exact read_interfaces r.interfaces
  · have hbits : policyBits r < 256 := Nat.mod_lt _ (by decide)
    refine read_valid ⟨List.not_mem_nil, ⟨?_, ?_⟩, trivial⟩ hvalue nofun
    all_goals omega
  · refine read_objects_of_cost hvalue fun ms hms hms' => ?_
    obtain ⟨ep, -, rfl⟩ := List.mem_map.mp hms
    exact read_endpoint hms'

theorem read_baseline (h : Slotted d r) :
    ∀ m ∈ baselineMembers r, Read d m.2 := by
  have hlen : (r.types.map text).length < 2^31 := by
    rw [List.length_map]
    exact Nat.lt_of_le_of_lt h.count (by decide)
  simp only [baselineMembers, List.forall_mem_cons]
  exact ⟨read_whole hlen (read_types h), read_interfaces r.interfaces, nofun⟩

end

/-! ## the tree of an answer -/

section
variable {d : Bool} {server : Server} {request : Request} {anchor : CString} {r : Resource} {rs : List Resource}

/-- a link as an object of the tree -/
def linkMember (d : Bool) (server : Server) (request : Request) (anchor : CString) (r : Resource) : Member :=
  objectMember ((linkMembers server request anchor r).rep d)

/-- the objects of the links -/
def linkTree (d : Bool) (server : Server) (request : Request) (anchor : CString) (rs : List Resource) : OcRep :=
  linkObjects ((objectsOf (rs.map (linkMembers server request anchor))).list d)

theorem members_linkTree :
    members (linkTree d server request anchor rs) = rs.map (linkMember d server request anchor) := by
  unfold linkTree
  rw [members_objects, list_objectsOf, List.map_map, List.map_map]
  rfl

theorem members_linkMember (h : Plain d r) :
    members (linkMember d server request anchor r).target = linkList d server request anchor r :=
  members_linkMembers h

theorem linksOf_unnamed {l : List Member} (h : ∀ m ∈ l, m.named (ascii "links") = false) (p : OcRep) :
    linksOf p l = p := by
  unfold linksOf
  induction l with
  | nil => rfl
  | cons m l ih =>
    obtain ⟨hm, hl⟩ := List.forall_mem_cons.mp h
    rw [List.foldl_cons, if_neg (fun hc => Bool.false_ne_true (hm.symm.trans hc.2))]
    exact ih hl

/-- the last `links` counts -/
theorem linksOf_concat {m : Member} (hobjects : m.isObjects = true) (hm : m.named (ascii "links") = true)
    (p : OcRep) (l : List Member) : linksOf p (l ++ [m]) = m.target := by
  unfold linksOf
  rw [List.foldl_append, List.foldl_cons, List.foldl_nil, if_pos ⟨hobjects, hm⟩]

theorem propertiesOf_concat (p : OcRep) (l : List Member) (m : Member) : propertiesOf p (l ++ [m]) = l ++ [m] := by
  unfold propertiesOf
  rw [if_neg (by simp)]

theorem linkList_unnamed : ∀ m ∈ linkList d server request anchor r, m.named (ascii "links") = false := by
  unfold linkList
  rw [List.forall_mem_append, List.forall_mem_singleton]
  constructor
  · simp only [linkFront, List.forall_mem_cons]
    exact ⟨rfl, rfl, rfl, rfl, rfl, fun m hm => absurd hm List.not_mem_nil⟩
  · rcases epsMember_cases d server (endpointsOffered server request r) with ⟨-, he⟩ | ⟨-, he⟩ <;>
      rw [he] <;> rfl

theorem treeLinks_of_members {p rep : OcRep} {l : List Member} (h : members p = objectMember rep :: l) :
    treeLinks p = members (linksOf p (propertiesOf p (members rep))) := by
  unfold treeLinks
  rw [h]
  rfl

/-- links as the objects of a payload -/
theorem treeLinks_links (h : Plain d r) : treeLinks (linkTree d server request anchor (r :: rs)) =
    (r :: rs).map (linkMember d server request anchor) := by
  have hproperties (p : OcRep) : propertiesOf p (linkList d server request anchor r) =
      linkList d server request anchor r := rfl
  rw [treeLinks_of_members members_linkTree, members_linkMembers h, hproperties,
    linksOf_unnamed linkList_unnamed]
  exact members_linkTree

/-- links under the properties of a resource -/
theorem treeLinks_baseline (own : Resource) :
    treeLinks (linkObjects ((objectsOf [membersOf (baselineMembers own ++
        [(key "links", objects ((r :: rs).map (linkMembers server request anchor)))])]).list d)) =
      (r :: rs).map (linkMember d server request anchor) := by
  have hmembers : members ((membersOf (baselineMembers own ++
      [(key "links", objects ((r :: rs).map (linkMembers server request anchor)))])).rep d) =
      (baselineMembers own).map (fun m => member (m.2.node d m.1.name)) ++
        [keyed (ocRepObject ||| ocRepArray) "links" .none (linkTree d server request anchor (r :: rs))] := by
    rw [members_rep, List.map_append]
    rfl
  have htree (rep : OcRep) : members (linkObjects [rep]) = [objectMember rep] := members_objects [rep]
  rw [list_objectsOf, List.map_singleton, treeLinks_of_members (htree _), hmembers, propertiesOf_concat,
    linksOf_concat rfl rfl]
  exact members_linkTree

end

/-! ## the uuid of the anchor -/

/-- a printed uuid can be read, and has four dashes -/
theorem readable_printed (u : Uuid) :
    35 ≤ (ocUuidToStr u).length ∧ ((ocUuidToStr u ++ [0]).take 36).countP (· ≠ 45) ≤ 33 := by
  have hlen := Security.length_ocUuidToStr u
  refine ⟨by omega, ?_⟩
  rw [List.take_append_of_le_length (Nat.le_of_eq hlen.symm), List.take_of_length_le (Nat.le_of_eq hlen)]
  obtain ⟨a, b, c, e, f, hlen', htext⟩ : ∃ a b c e f : Bytes,
      a.length + b.length + c.length + e.length + f.length = 32 ∧
      ocUuidToStr u = a ++ 45 :: (b ++ 45 :: (c ++ 45 :: (e ++ 45 :: f))) := by
    obtain ⟨l, hl⟩ := u
    match l, hl with
    | [x₀, x₁, x₂, x₃, x₄, x₅, x₆, x₇, x₈, x₉, y₀, y₁, y₂, y₃, y₄, y₅], _ =>
      exact ⟨[x₀, x₁, x₂, x₃].flatMap Security.hexByte, [x₄, x₅].flatMap Security.hexByte,
        [x₆, x₇].flatMap Security.hexByte, [x₈, x₉].flatMap Security.hexByte,
        [y₀, y₁, y₂, y₃, y₄, y₅].flatMap Security.hexByte, rfl, rfl⟩
  have hle := fun l : Bytes => List.countP_le_length (p := fun x : UInt8 => decide (x ≠ 45)) (l := l)
  have ha := hle a
  have hb := hle b
  have hc := hle c
  have he := hle e
  have hf := hle f
  rw [htext]
  simp only [List.countP_append, List.countP_cons, ne_eq, not_true_eq_false, decide_false, Bool.false_eq_true,
    if_false] at *
  omega

section
variable {server : Server} {device : Nat}

theorem anchor_bytes : (text (server.anchor device)).bytes =
    ascii "ocf://" ++ ocUuidToStr (server.deviceId device) := by
  show cstr (_ ++ _) = _
  rw [EndpointString.cstr_append (by decide), Security.cstr_ocUuidToStr]

theorem anchor_readable : readableUuid (text (server.anchor device)).bytes = true := by
  have hdrop : (text (server.anchor device)).bytes.drop 6 = ocUuidToStr (server.deviceId device) := by
    rw [anchor_bytes]
    rfl
  unfold readableUuid
  rw [hdrop, decide_eq_true_eq, List.all_eq_true, Security.strAccesses_iff]
  refine ⟨?_, readable_printed _⟩
  rw [anchor_bytes, List.length_append]
  exact Nat.le_add_right 6 _

theorem anchor_uuid (env : Env) : uuidOf env (text (server.anchor device)).bytes = server.deviceId device := by
  unfold uuidOf
  rw [anchor_bytes]
  exact Security.ocStrToUuid_ocUuidToStr _ _

end

/-! ## what the handler is told -/

/-- calls of a handler, until it stops -/
def upTo (handler : Handler) : List (Option Found) → List Found → Bool × List (Option Found)
  | [], _ => (false, [])
  | none :: rest, calls =>
    let r := upTo handler rest calls
    (r.1, none :: r.2)
  | some call :: rest, calls =>
    if handler calls call then (true, [some call])
    else
      let r := upTo handler rest (calls ++ [call])
      (r.1, some call :: r.2)

theorem due_eq (env : Env) (handler : Handler) (links : List Member) (calls : List Found) :
    due env handler links calls = upTo handler (links.map fun m => ownCall env (members m.target)) calls := by
  induction links generalizing calls with
  | nil => rfl
  | cons m rest ih =>
    rw [List.map_cons]
    cases h : ownCall env (members m.target) with
    | none =>
      rw [due_none h, ih]
      rfl
    | some call =>
      rw [due_some h, ih]
      rfl

/-- the resources of the answer -/
def offered (server : Server) (request : Request) : List Resource :=
  (server.candidates request.device).filter (offers request)

/-- a call of the handler for a resource -/
structure Told (env : Env) (server : Server) (request : Request) (r : Resource) (call : Found) : Prop where
  anchor : call.anchor = server.anchor request.device
  uri : call.uri = cstr r.uri
  types : arrayTexts env.dynamic call.types = (typesOffered r).map CString.bytes
  interfaces : call.ifaceMask = (r.interfaces &&& 0xFE).toNat
  policy : call.bm = policyBits r
  endpoints : List.Forall₂ (Reached env (server.deviceId request.device)) (endpointsOffered server request r)
    call.eps

/-- without an endpoint there is no call -/
inductive ToldOf (env : Env) (server : Server) (request : Request) (r : Resource) : Option Found → Prop where
  | silent (h : endpointsOffered server request r = []) : ToldOf env server request r none
  | told (call : Found) (h : endpointsOffered server request r ≠ [])
    (hcall : Told env server request r call) : ToldOf env server request r (some call)

section
variable {env : Env} {handler : Handler} {server : Server} {request : Request} {r : Resource}
  {rs : List Resource}

/-- the entry of a resource in the trace -/
def entry (env : Env) (server : Server) (request : Request) (r : Resource) : Option Found :=
  if endpointsOffered server request r = [] then none
  else some (linkCall env server request (text (server.anchor request.device)) r)

theorem told_of (hp : Plain env.dynamic r) (h : ∀ ep ∈ endpointsOffered server request r, Heard env server ep) :
    ToldOf env server request r (entry env server request r) := by
  unfold entry
  by_cases hnil : endpointsOffered server request r = []
  · rw [if_pos hnil]
    exact .silent hnil
  · rw [if_neg hnil]
    refine .told _ hnil ⟨anchor_bytes, rfl, arrayTexts_arrayOf hp.fits, rfl, rfl, ?_⟩
    show List.Forall₂ _ _ (List.filterMap (reached env server (uuidOf env _)) _)
    rw [anchor_uuid]
    exact reached_of_heard h

/-- the fuel does not matter to it -/
theorem ToldOf.fuel {fuel : Nat} {call : Option Found}
    (h : ToldOf { env with fuel } server request r call) : ToldOf env server request r call := by
  cases h with
  | silent h => exact .silent h
  | told call h hcall =>
    exact .told call h ⟨hcall.anchor, hcall.uri, hcall.types, hcall.interfaces, hcall.policy, hcall.endpoints⟩

variable (hmem : ∀ n, env.memory n = true)
  (h : ∀ r ∈ rs, Plain env.dynamic r ∧ ∀ ep ∈ endpointsOffered server request r, Heard env server ep)
include h

theorem due_links : due env handler
    (rs.map (linkMember env.dynamic server request (text (server.anchor request.device)))) [] =
      upTo handler (rs.map (entry env server request)) [] := by
  rw [due_eq, List.map_map]
  congr 1
  refine List.map_congr_left fun r hr => ?_
  obtain ⟨hp, hheard⟩ := h r hr
  show ownCall env (members (linkMember _ _ _ _ r).target) = _
  rw [members_linkMember hp, own_link hheard]
  rfl

include hmem

/-- all links meet what the loop needs -/
theorem links_meet (anchor : CString) (mask asked : Nat) (calls : List Found) :
    LinksMeet env handler (uuidOf env anchor.bytes) mask asked
      (rs.map (linkMember env.dynamic server request anchor)) calls := by
  induction rs generalizing mask asked calls with
  | nil => trivial
  | cons r rs ih =>
    obtain ⟨⟨hp, hheard⟩, hl⟩ := List.forall_mem_cons.mp h
    rw [List.map_cons, LinksMeet]
    refine ⟨rfl, ?_, ?_⟩
    · rw [members_linkMember hp]
      exact link_meets hheard hmem _ _
    · split
      · exact ih hl _ _ _
      · exact .inr (ih hl _ _ _)

theorem all_meet (hne : rs ≠ []) : AllMeet env handler
    (rs.map (linkMember env.dynamic server request (text (server.anchor request.device)))) := by
  cases rs with
  | nil => exact absurd rfl hne
  | cons r rs =>
    refine ⟨_, (text (server.anchor request.device)).bytes, rfl, rfl, ?_, anchor_readable, links_meet hmem h _ _ _ _⟩
    rw [members_linkMember (h r List.mem_cons_self).1]
    rfl

end

/-! ## there and back -/

/-- The client has memory for endpoints, and can make out what the device offers.  Both have been built for
the endpoints, and no IPv6 address has a group between two zero groups. -/
structure Clear (env : Env) (server : Server) (request : Request) : Prop where
  memory : ∀ n, env.memory n = true
  plain : ∀ r ∈ offered server request, Plain env.dynamic r
  own : Slotted env.dynamic (server.coreResource Security.ocfRes request.device)
  endpoints : ∀ r ∈ offered server request, ∀ ep ∈ endpointsOffered server request r,
    Printable env.build ep.endpoint ∧ Fits server.build ep.endpoint

section
variable {c : Encoder} {env : Env} {server : Server} {request : Request} {ifaceMask : UInt32}
  {os : List Members} {rs : List Resource}

/-- with enough fuel, the client hears of all endpoints -/
theorem Clear.heard (h : Clear env server request) : ∃ fuel, ∀ r ∈ offered server request,
    ∀ ep ∈ endpointsOffered server request r, Heard { env with fuel } server ep := by
  have hall : ∀ ep ∈ (offered server request).flatMap (endpointsOffered server request),
      Printable env.build ep.endpoint ∧ Fits server.build ep.endpoint := by
    intro ep hep
    obtain ⟨r, hr, hep⟩ := List.mem_flatMap.mp hep
    exact h.endpoints r hr ep hep
  obtain ⟨fuel, hfuel⟩ := exists_heard_all hall
  exact ⟨fuel, fun r hr ep hep => hfuel ep (List.mem_flatMap.mpr ⟨r, hr, hep⟩)⟩

theorem read_links (h : Clear env server request) {device : Nat} (hdevice : device = request.device)
    (hcost : c.cost (view (objectsOf (links server request device)).items) < 2^31) :
    ∀ ms ∈ links server request device, ReadMembers env.dynamic ms := by
  subst hdevice
  intro ms hms
  have hms' := Nat.lt_of_le_of_lt (cost_object hms) hcost
  obtain ⟨r, hr, rfl⟩ := List.mem_map.mp hms
  exact read_link (h.plain r hr).toSlotted hms'

/-- the tree of an answer holds the links of the resources that are offered -/
theorem answer_tree (h : Clear env server request) (hnew : request.older = none)
    (ha : answered server request ifaceMask = some (os, rs)) (hne : rs ≠ [])
    (hcost : c.cost (view (objectsOf os).items) < 2^31) :
    rs = offered server request ∧ (∀ ms ∈ os, ReadMembers env.dynamic ms) ∧
      treeLinks (linkObjects ((objectsOf os).list env.dynamic)) = (offered server request).map
        (linkMember env.dynamic server request (text (server.anchor request.device))) := by
  unfold answered at ha
  rw [hnew] at ha
  simp only at ha
  have hcons : offered server request ≠ [] → ∃ r l, offered server request = r :: l :=
    List.exists_cons_of_ne_nil
  split at ha
  · obtain ⟨rfl, rfl⟩ := Prod.mk.inj (Option.some.inj ha)
    obtain ⟨r, l, hl⟩ := hcons hne
    refine ⟨rfl, read_links h rfl hcost, ?_⟩
    have hlinks : links server request request.device =
        (r :: l).map (linkMembers server request (text (server.anchor request.device))) := congrArg _ hl
    rw [hl, hlinks]
    exact treeLinks_links (h.plain r (hl ▸ List.mem_cons_self))
  · split at ha
    · obtain ⟨rfl, rfl⟩ := Prod.mk.inj (Option.some.inj ha)
      obtain ⟨r, l, hl⟩ := hcons hne
      refine ⟨rfl, ?_, ?_⟩
      · rw [List.forall_mem_singleton]
        have hobject := Nat.lt_of_le_of_lt (cost_object List.mem_cons_self) hcost
        refine readMembers_of_cost hobject fun m hm hvalue => ?_
        rcases List.mem_append.mp hm with hm | hm
        · exact read_baseline h.own m hm
        · rw [List.mem_singleton.mp hm] at hvalue ⊢
          rw [objects_item] at hvalue
          exact read_objects (read_links h rfl (Nat.lt_of_le_of_lt content_le_cost hvalue))
      · have hlinks : links server request request.device =
            (r :: l).map (linkMembers server request (text (server.anchor request.device))) := congrArg _ hl
        rw [hl, hlinks]
        exact treeLinks_baseline _
    · cases ha

theorem stray_objects (l : List OcRep) : ∀ rep, (members (linkObjects l)).head? = some rep →
    rep.stray env = false := by
  intro rep h
  rw [members_objects] at h
  obtain ⟨o, -, rfl⟩ := List.mem_map.mp (List.mem_of_mem_head? h)
  rfl

/-- the handler of a client that hears of all endpoints -/
theorem told_offered (h : Clear env server request)
    (hheard : ∀ r ∈ offered server request, ∀ ep ∈ endpointsOffered server request r, Heard env server ep)
    (hnew : request.older = none) (ha : answered server request ifaceMask = some (os, rs)) (hne : rs ≠ [])
    (hcost : c.cost (view (objectsOf os).items) < 2^31) {pools : Pools}
    (hroom : Room ((objectsOf os).allocs env.dynamic) pools) :
    ∃ told, List.Forall₂ (ToldOf env server request) (offered server request) told ∧
      ∀ handler, ocRiProcessDiscoveryPayload env handler 0 (payloadOf (objectsOf os)) pools =
        .ok (upTo handler told []) := by
  obtain ⟨rfl, hread, htree⟩ := answer_tree h hnew ha hne hcost
  obtain ⟨r, hparse⟩ := parse_objects hread hroom
  have hall : ∀ r ∈ offered server request, Plain env.dynamic r ∧
      ∀ ep ∈ endpointsOffered server request r, Heard env server ep :=
    fun r hr => ⟨h.plain r hr, hheard r hr⟩
  refine ⟨(offered server request).map (entry env server request), ?_, fun handler => ?_⟩
  · rw [List.forall₂_map_right_iff]
    exact List.forall₂_same.mpr fun r hr => told_of (hall r hr).1 (hall r hr).2
  · have hmeets : TreeMeets env handler (linkObjects ((objectsOf os).list env.dynamic)) := by
      refine ⟨stray_objects _, ?_⟩
      rw [htree]
      exact all_meet h.memory hall hne
    rw [(payload_iff env hparse).mpr hmeets, htree, due_links hall]

end

/-- a buffer of a page -/
def pageEncoder : Encoder := { cborEncoder with size := 4096, size_lt := by decide }

def lamp : Resource :=
  { Security.zeroResource 0 with
    uri := ascii "/a", types := [ascii "core.light"], interfaces := 18, properties := Security.ocDiscoverable }

/-- a resource that needs a secured endpoint -/
def door : Resource :=
  { lamp with uri := ascii "/b", properties := Security.ocDiscoverable ||| Security.ocSecure }

/-- a device with these two, at `coap://1.2.3.4:5683` -/
def lampServer : Server where
  build := plainEnv.build
  core := ⟨Security.zeroResource, 1, false, 0⟩
  app := [lamp, door]
  collections := []
  deviceId _ := Uuid.nil
  endpoints _ := [⟨⟨0, { EndpointString.noFlags with ipv4 := true }, 5683, [1, 2, 3, 4] ++ List.replicate 12 0⟩, 0⟩]

def anyRequest : Request := ⟨0, [], none⟩

theorem offered_lamp : offered lampServer anyRequest = [lamp, door] := rfl

theorem clear_lamp : Clear plainEnv lampServer anyRequest := by
  have hplain : Plain true lamp := ⟨⟨by decide, by decide⟩, by decide, by decide⟩
  refine ⟨fun _ => rfl, ?_, ⟨by decide, by decide⟩, ?_⟩
  · rw [offered_lamp, List.forall_mem_cons, List.forall_mem_singleton]
    exact ⟨hplain, ⟨⟨by decide, by decide⟩, by decide, by decide⟩⟩
  · intro r _ ep hep
    rw [List.mem_singleton.mp (List.mem_filter.mp hep).1]
    exact ⟨⟨⟨rfl, fun _ => rfl, nofun, rfl⟩, nofun⟩, ⟨rfl, fun _ => rfl, nofun, rfl⟩⟩

end Discovery
