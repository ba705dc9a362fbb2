import Iotivity.Discovery.Answer
import Iotivity.Endpoint.ReadBack

/-!
# Links, as they are read

A link that has been written is a list of members with the data of its resource.

* `Plain`          resources that can be read back;
* `linkList`       the members of a link;
* `own_link`       the call that is due for it;
* `link_meets`     the call is made.
-/

namespace Discovery
open Payload Last
open Coap (Endpoint TransportFlags OcStatus)
open Security (Bytes Uuid Resource CoreState ascii cstr ocUuidToStr)
open EndpointString (ocEndpointToString blankEndpoint Fits Printable Agree)

/-! ## the members of a tree -/

/-- a node without its `next` -/
def member : OcRep → Member
  | .null => ⟨ocRepNil, .none, .none, .null⟩
  | .node type name value object _ => ⟨type, name, value, object⟩

section
variable (d : Bool)

theorem members_link {rep : OcRep} (h : rep ≠ .null) (next : OcRep) :
    members (rep.link next) = member rep :: members next := by
  cases rep with
  | null => exact absurd rfl h
  | node => rfl

theorem members_rep (l : List (CString × Value)) :
    members ((membersOf l).rep d) = l.map fun m => member (m.2.node d m.1.name) := by
  induction l with
  | nil => rfl
  | cons m l ih =>
    show members ((m.2.node d m.1.name).link ((membersOf l).rep d)) = _
    rw [members_link (node_ne_null m.1.name m.2), ih]
    rfl

/-- an object of an array -/
def objectMember (members : OcRep) : Member := ⟨ocRepObject, .none, .none, members⟩

theorem members_objects (l : List OcRep) : members (linkObjects l) = l.map objectMember := by
  induction l with
  | nil => rfl
  | cons rep l ih =>
    show ⟨ocRepObject, .none, .none, rep⟩ :: members (linkObjects l) = _
    rw [ih]
    rfl

theorem list_objectsOf (l : List Members) : (objectsOf l).list d = l.map (Members.rep d) := by
  induction l with
  | nil => rfl
  | cons ms l ih =>
    show ms.rep d :: (objectsOf l).list d = _
    rw [ih]
    rfl

/-! ## arrays of strings -/

/-- what is read of an array of strings -/
def arrayTexts (array : RepValue) : List Bytes :=
  (List.range (array.size / stringArrayItemMaxLen d)).map fun i => cstr ((textAt d array i).getD [])

/-- the array that strings are parsed to -/
def arrayOf (l : List CString) : RepValue :=
  .array .byte (l.length * stringArrayItemMaxLen d) (indexed 0 (l.map fun s => textItem s.bytes))

variable {d}

theorem arrayTexts_arrayOf {l : List CString} (h : ∀ s ∈ l, Fitting d s.bytes) :
    arrayTexts d (arrayOf d l) = l.map CString.bytes := by
  have hpos : 0 < stringArrayItemMaxLen d := by cases d <;> decide
  have hsize : (arrayOf d l).size / stringArrayItemMaxLen d = l.length := Nat.mul_div_cancel _ hpos
  unfold arrayTexts
  rw [hsize]
  refine List.ext_getElem (by rw [List.length_map, List.length_map, List.length_range]) fun i hi _ => ?_
  rw [List.length_map, List.length_range] at hi
  rw [List.getElem_map, List.getElem_range, List.getElem_map]
  have helement : (arrayOf d l).element i = some (textItem l[i].bytes) :=
    element_indexed (by rw [List.getElem?_map, List.getElem?_eq_getElem hi]; rfl)
  rw [text_read (h _ (List.getElem_mem hi)) helement]
  exact (Security.cstr_eq_self_iff _).mpr l[i].noNul

theorem texts_node {l : List CString} (h : l ≠ []) (name : OcString) :
    member ((texts l).node d name) = ⟨ocRepString ||| ocRepArray, name, arrayOf d l, .null⟩ := by
  cases l with
  | nil => exact absurd rfl h
  | cons s l =>
    have hlen : (l.map fun s => textItem s.bytes).length + 1 = (s :: l).length :=
      congrArg (· + 1) (List.length_map _)
    show Member.mk _ name (.array .byte (((l.map fun s => textItem s.bytes).length + 1) *
      stringArrayItemMaxLen d) _) .null = _
    rw [hlen]
    rfl

end

/-! ## interfaces -/

theorem interface_eq (iface : Bytes) :
    ocRiGetInterfaceMask iface = (Security.ocRiGetInterfaceMask iface).toNat := by
  unfold ocRiGetInterfaceMask Security.ocRiGetInterfaceMask
  simp only [UInt32.toNat_or, apply_ite UInt32.toNat]
  rfl

theorem foldl_interfaces (l : List Bytes) (m : UInt32) :
    l.foldl (fun mask s => mask ||| ocRiGetInterfaceMask s) m.toNat =
      (l.foldl (fun mask s => mask ||| Security.ocRiGetInterfaceMask s) m).toNat := by
  induction l generalizing m with
  | nil => rfl
  | cons s l ih => rw [List.foldl_cons, List.foldl_cons, ← ih, UInt32.toNat_or, interface_eq]

/-- the names of interfaces are strings that fit, and stand for their flags -/
theorem ifName_read (d : Bool) : ∀ f ∈ Security.ifFlags, cstr (Security.ifName f) = Security.ifName f ∧
    Fitting d (Security.ifName f) ∧ Security.ocRiGetInterfaceMask (Security.ifName f) = f := by
  have hall : (Security.ifFlags.all fun f => cstr (Security.ifName f) = Security.ifName f ∧
      Fitting d (Security.ifName f) ∧ Security.ocRiGetInterfaceMask (Security.ifName f) = f) = true := by
    cases d <;> decide
  exact fun f hf => of_decide_eq_true (List.all_eq_true.mp hall f hf)

theorem ifNames_eq (ifaceMask : UInt32) : (ifNames ifaceMask).map CString.bytes =
    Flags.names Security.ifName Security.ifFlags ifaceMask := by
  unfold ifNames Flags.names
  rw [List.map_map]
  exact List.map_congr_left fun f hf => (ifName_read true f (List.mem_filter.mp hf).1).1

theorem ifNames_fitting (d : Bool) (ifaceMask : UInt32) : ∀ s ∈ ifNames ifaceMask, Fitting d s.bytes := by
  intro s hs
  obtain ⟨f, hf, rfl⟩ := List.mem_map.mp hs
  obtain ⟨hcstr, hfit, -⟩ := ifName_read d f (List.mem_filter.mp hf).1
  show Fitting d (cstr _)
  rwa [hcstr]

/-- a mask of interfaces is read back as far as it has names -/
theorem mask_read (env : Env) (ifaceMask : UInt32) :
    interfaceMask env (arrayOf env.dynamic (ifNames ifaceMask)) = (ifaceMask &&& 0xFE).toNat := by
  have hfold (array : RepValue) : interfaceMask env array =
      (arrayTexts env.dynamic array).foldl (fun mask s => mask ||| ocRiGetInterfaceMask s) 0 := by
    unfold interfaceMask arrayTexts
    rw [List.foldl_map]
  have hv : ∀ f ∈ Security.ifFlags, Security.ocRiGetInterfaceMask (Security.ifName f) = f :=
    fun f hf => (ifName_read true f hf).2.2
  have hmask : 0 ||| (ifaceMask &&& Flags.join Security.ifFlags) = ifaceMask &&& 0xFE := UInt32.zero_or
  rw [hfold, arrayTexts_arrayOf (ifNames_fitting _ _), ifNames_eq, ← hmask,
    ← Flags.foldl_names Security.ifName Security.isFlag_if hv]
  exact foldl_interfaces _ 0

theorem ifNames_ne_nil {ifaceMask : UInt32} (h : ifaceMask &&& 0xFE ≠ 0) : ifNames ifaceMask ≠ [] := by
  intro hn
  have hv : ∀ f ∈ Security.ifFlags, Security.ocRiGetInterfaceMask (Security.ifName f) = f :=
    fun f hf => (ifName_read true f hf).2.2
  have hfold := Flags.foldl_names Security.ifName Security.isFlag_if hv ifaceMask 0
  rw [← ifNames_eq, hn, UInt32.zero_or] at hfold
  exact h hfold.symm

/-! ## a link -/

/-- the types fit into the slots of an array, and there are no more of them than a `uint8_t` counts -/
structure Slotted (d : Bool) (r : Resource) : Prop where
  fitting : ∀ t ∈ typesOffered r, t.bytes.length < stringArrayItemMaxLen d
  count : r.types.length ≤ 255

/-- the resource can be read back: it has a type and an interface too -/
structure Plain (d : Bool) (r : Resource) : Prop extends Slotted d r where
  types : typesOffered r ≠ []
  interfaces : r.interfaces &&& 0xFE ≠ 0

theorem Slotted.fits {d : Bool} {r : Resource} (h : Slotted d r) : ∀ t ∈ typesOffered r, Fitting d t.bytes :=
  fun t ht => ⟨List.ne_nil_of_length_pos (of_decide_eq_true (List.mem_filter.mp ht).2), h.fitting t ht⟩

section
variable {env : Env} {d : Bool} {server : Server} {request : Request} {r : Resource} {anchor : CString}

def keyed (type : Nat) (k : String) (value : RepValue) (object : OcRep) : Member :=
  ⟨type, (key k).name, value, object⟩

def textMember (k : String) (s : CString) : Member :=
  keyed ocRepString k (.string (s.bytes.length + 1) s.bytes) .null

def textsMember (d : Bool) (k : String) (l : List CString) : Member :=
  keyed (ocRepString ||| ocRepArray) k (arrayOf d l) .null

/-- the member with the endpoints -/
def epsMember (d : Bool) (server : Server) (eps : List Port) : Member :=
  member ((objects (eps.map (epMembers server.build))).node d (key "eps").name)

/-- the members in front of it -/
def linkFront (d : Bool) (anchor : CString) (r : Resource) : List Member := [
  textMember "anchor" anchor, textMember "href" (text r.uri), textsMember d "rt" (typesOffered r),
  textsMember d "if" (ifNames r.interfaces),
  keyed ocRepObject "p" .none ((membersOf [(key "bm", .uint (policyBits r))]).rep d)]

/-- the members of a link -/
def linkList (d : Bool) (server : Server) (request : Request) (anchor : CString) (r : Resource) :
    List Member := linkFront d anchor r ++ [epsMember d server (endpointsOffered server request r)]

theorem members_linkMembers (h : Plain d r) :
    members ((linkMembers server request anchor r).rep d) = linkList d server request anchor r := by
  unfold linkMembers
  rw [members_rep]
  simp only [List.map_cons, List.map_nil]
  rw [texts_node h.types, texts_node (ifNames_ne_nil h.interfaces)]
  rfl

/-! ### what the members say -/

/-- an array of endpoints is of no other kind -/
theorem epsMember_cases (d : Bool) (server : Server) (eps : List Port) :
    eps = [] ∧ epsMember d server eps = keyed ocRepNil "eps" .none .null ∨
      eps ≠ [] ∧ epsMember d server eps = keyed (ocRepObject ||| ocRepArray) "eps" .none
        (linkObjects ((objectsOf (eps.map (epMembers server.build))).list d)) := by
  cases eps with
  | nil => exact .inl ⟨rfl, rfl⟩
  | cons ep eps => exact .inr ⟨List.cons_ne_nil _ _, rfl⟩

/-- what the endpoints say nothing of -/
theorem last_front {β : Type} {f : Member → Option β} (hnil : f (keyed ocRepNil "eps" .none .null) = none)
    (heps : ∀ o, f (keyed (ocRepObject ||| ocRepArray) "eps" .none o) = none) :
    last f (linkList d server request anchor r) = last f (linkFront d anchor r) := by
  unfold linkList
  rw [last_concat]
  rcases epsMember_cases d server (endpointsOffered server request r) with ⟨-, he⟩ | ⟨-, he⟩
  · rw [he, hnil, Option.none_or]
  · rw [he, heps, Option.none_or]

theorem last_anchor : last anchorOf (linkList d server request anchor r) = some anchor.bytes :=
  (last_front rfl fun _ => rfl).trans rfl

theorem last_href : last hrefOf (linkList d server request anchor r) = some (cstr r.uri) :=
  (last_front rfl fun _ => rfl).trans rfl

theorem last_types :
    last typesOf (linkList d server request anchor r) = some (arrayOf d (typesOffered r)) :=
  (last_front rfl fun _ => rfl).trans rfl

theorem last_mask : last (maskOf env) (linkList d server request anchor r) =
    some (interfaceMask env (arrayOf d (ifNames r.interfaces))) :=
  (last_front rfl fun _ => rfl).trans rfl

theorem last_maskTaken : last (maskTaken env) (linkList d server request anchor r) =
    some (interfaceMask env (arrayOf d (ifNames r.interfaces))) :=
  (last_front rfl fun _ => rfl).trans rfl

/-- the eight bits fit into an `int` -/
theorem policyBits_read (r : Resource) : ocResourceProperties (asInt (policyBits r)) = policyBits r := by
  have hlt : policyBits r < 256 := Nat.mod_lt _ (by decide)
  rw [asInt_of_inRange ⟨by omega, by omega⟩]
  unfold ocResourceProperties
  omega

theorem last_bm : last bmOf (linkList d server request anchor r) = some (policyBits r) := by
  rw [last_front rfl fun _ => rfl, ← policyBits_read]
  rfl

theorem last_bmTaken : last bmTaken (linkList d server request anchor r) = some (policyBits r) := by
  rw [last_front rfl fun _ => rfl, ← policyBits_read]
  rfl

/-! ### endpoints -/

/-- the client makes something of the endpoint -/
def Heard (env : Env) (server : Server) (ep : Port) : Prop :=
  ∃ s e, ocEndpointToString server.build ep.endpoint = some s ∧
    stringToEndpoint env (cstr s) = .ok (some e) ∧ Agree ep.endpoint e

/-- the endpoint as the client has it -/
def Reached (env : Env) (di : Uuid) (ep : Port) (peer : Peer) : Prop :=
  ∃ e, Agree ep.endpoint e ∧ peer = completed env di e

def reached (env : Env) (server : Server) (di : Uuid) (ep : Port) : Option Peer :=
  (ocEndpointToString server.build ep.endpoint).bind fun s => (valid env (cstr s)).map (completed env di)

variable {di : Uuid} {eps : List Port}

theorem epTexts_object (ep : Port) : epTexts (objectMember ((epMembers server.build ep).rep d)) =
    ((ocEndpointToString server.build ep.endpoint).map cstr).toList := by
  unfold epMembers
  cases ocEndpointToString server.build ep.endpoint <;> rfl

theorem endpointsOf_eps (hne : eps ≠ []) :
    endpointsOf env di (epsMember d server eps) = eps.filterMap (reached env server di) := by
  rcases epsMember_cases d server eps with ⟨h, -⟩ | ⟨-, he⟩
  · exact absurd h hne
  · rw [he]
    show (members (linkObjects _)).flatMap _ = _
    rw [members_objects, list_objectsOf, List.map_map, List.map_map, List.flatMap_map,
      List.filterMap_eq_flatMap_toList]
    congr 1
    funext ep
    show (epTexts (objectMember ((epMembers server.build ep).rep d))).filterMap _ = _
    rw [epTexts_object]
    unfold reached
    cases ocEndpointToString server.build ep.endpoint with
    | none => rfl
    | some s => cases hv : valid env (cstr s) <;> simp [hv]

/-- the endpoints that the loop takes -/
theorem peersOf_eps (eps : List Port) :
    peersOf env di (epsMember d server eps) = eps.filterMap (reached env server di) := by
  rcases epsMember_cases d server eps with ⟨rfl, he⟩ | ⟨hne, he⟩
  · rfl
  · rw [← endpointsOf_eps (d := d) hne, he]
    rfl

theorem reached_of_heard (h : ∀ ep ∈ eps, Heard env server ep) :
    List.Forall₂ (Reached env di) eps (eps.filterMap (reached env server di)) := by
  induction eps with
  | nil => exact .nil
  | cons ep eps ih =>
    obtain ⟨⟨s, e, hs, he, hagree⟩, hl⟩ := List.forall_mem_cons.mp h
    have hep : reached env server di ep = some (completed env di e) := by
      unfold reached valid
      rw [hs, Option.bind_some, he]
      rfl
    rw [List.filterMap_cons, hep]
    exact .cons ⟨e, hagree, rfl⟩ (ih hl)

theorem readable_link (h : ∀ ep ∈ endpointsOffered server request r, Heard env server ep) :
    ∀ m ∈ linkList d server request anchor r, Readable env m := by
  unfold linkList
  rw [List.forall_mem_append, List.forall_mem_singleton]
  refine ⟨fun m hm hobjects => ?_, ?_⟩
  · have hfront : ∀ m ∈ linkFront d anchor r, m.isObjects = false := by
      simp [linkFront, textMember, textsMember, keyed, Member.isObjects, ocRepString, ocRepObject, ocRepArray]
    rw [hfront m hm] at hobjects
    cases hobjects
  · rcases epsMember_cases d server (endpointsOffered server request r) with ⟨-, he⟩ | ⟨-, he⟩
    · rw [he]
      exact fun hobjects => absurd hobjects Bool.false_ne_true
    · rw [he]
      intro _ e hmem
      replace hmem : e ∈ members (linkObjects _) := hmem
      rw [members_objects, list_objectsOf, List.map_map, List.map_map] at hmem
      obtain ⟨ep, hep, rfl⟩ := List.mem_map.mp hmem
      refine ⟨rfl, fun s hs => ?_⟩
      replace hs : s ∈ epTexts (objectMember ((epMembers server.build ep).rep d)) := hs
      obtain ⟨t, e, ht, he, -⟩ := h ep hep
      rw [epTexts_object, ht] at hs
      rw [List.mem_singleton.mp hs]
      exact ⟨_, he⟩

/-! ### the call -/

/-- the call for a resource -/
def linkCall (env : Env) (server : Server) (request : Request) (anchor : CString) (r : Resource) : Found where
  anchor := anchor.bytes
  uri := cstr r.uri
  types := arrayOf env.dynamic (typesOffered r)
  ifaceMask := (r.interfaces &&& 0xFE).toNat
  eps := (endpointsOffered server request r).filterMap (reached env server (uuidOf env anchor.bytes))
  bm := policyBits r

theorem last_eps : (last (epsOf env di) (linkList d server request anchor r)).getD [] =
    (endpointsOffered server request r).filterMap (reached env server di) := by
  have hfront : last (epsOf env di) (linkFront d anchor r) = none := rfl
  unfold linkList
  rw [last_concat, hfront, Option.or_none]
  rcases epsMember_cases d server (endpointsOffered server request r) with ⟨h, he⟩ | ⟨hne, he⟩
  · rw [he, h]
    rfl
  · rw [← endpointsOf_eps (d := d) hne, he]
    rfl

theorem gathered_link (hmem : ∀ n, env.memory n = true) (asked : Nat) :
    (gathered env di asked (linkList d server request anchor r)).1 =
      (endpointsOffered server request r).filterMap (reached env server di) := by
  have hfront : last (epsTaken env di) (linkFront d anchor r) = none := rfl
  rw [gathered_eq hmem]
  unfold linkList
  rw [last_concat, hfront, Option.or_none]
  unfold epsTaken
  rw [peersOf_eps]
  split
  next h => rw [h]; rfl
  next => rfl

section
variable (h : ∀ ep ∈ endpointsOffered server request r, Heard env server ep)
include h

/-- some endpoint is reached if there is one -/
theorem reached_eq_nil : (endpointsOffered server request r).filterMap (reached env server di) = [] ↔
    endpointsOffered server request r = [] := by
  rw [← List.length_eq_zero_iff, ← (reached_of_heard h).length_eq, List.length_eq_zero_iff]

theorem own_link : ownCall env (linkList env.dynamic server request anchor r) =
    if endpointsOffered server request r = [] then none else some (linkCall env server request anchor r) := by
  unfold ownCall
  rw [last_anchor, last_href, last_types, last_mask, last_bm, mask_read]
  simp only [Option.bind_eq_bind, Option.bind_some, Option.getD_some, last_eps, List.isEmpty_iff]
  exact if_congr (reached_eq_nil h) rfl rfl

theorem link_meets (hmem : ∀ n, env.memory n = true) (mask asked : Nat) :
    LinkMeets env (uuidOf env anchor.bytes) mask asked (linkList env.dynamic server request anchor r) := by
  refine ⟨readable_link h, ?_⟩
  rw [gathered_link hmem, ne_eq, reached_eq_nil h]
  by_cases hnil : endpointsOffered server request r = []
  · exact .inl ⟨hnil, (own_link h).trans (if_pos hnil)⟩
  · refine .inr ⟨hnil, ?_, ?_, ?_, ?_, ?_, fun anchor' ha => ?_⟩
    · exact fun hn => nomatch last_anchor.symm.trans hn
    · exact fun hn => nomatch last_href.symm.trans hn
    · exact fun hn => nomatch last_types.symm.trans hn
    · rw [last_maskTaken, last_mask, Option.getD_some, Option.getD_some]
    · rw [last_bmTaken, last_bm]
    · rw [last_anchor, Option.some_inj] at ha
      rw [gathered_link hmem, last_eps, ha]

end

end

end Discovery
