import Iotivity.Collections.Batch
import Iotivity.Discovery.RoundTrip

/-!
# The links of a collection

On the interface of links, a collection answers with its links; on the baseline interface, with its own
properties and its links.

* `linkMembers`, `collectionMembers`   what is written;
* `listing_answered`                   the answer, on every interface but the batch one.
-/

namespace Collections
open Payload
open Discovery (Server key text policyBits epMembers endpointsOffered baselineMembers ifNames)
open Coap (OcStatus ocStatusCode)
open Security (Resource Method ocFilterResourceByRt)

/-! ## what is written -/

section
variable (server : Server) (request : Request)

/-- a member that is left out when there is nothing to say -/
def optional (p : Prop) [Decidable p] (m : CString × Value) : List (CString × Value) := if p then [m] else []

def linkMembers (link : Link) : List (CString × Value) :=
  (key "href", .textString (text link.resource.uri)) ::
  (key "rt", .array true (.texts (link.resource.types.map text))) ::
  (key "if", texts (ifNames link.resource.interfaces)) ::
  (key "rel", .array true (.texts (link.rel.map text))) ::
  (optional (link.ins.length > 0) (key "ins", .textString (text link.ins)) ++
    [(key "p", .object (membersOf [(key "bm", .uint (policyBits link.resource))])),
      (key "eps", objects ((endpointsOffered server request.toRequest link.resource).map
        (epMembers server.build)))])

/-- the links that the query selects -/
def linksOffered (links : List Link) : List Link :=
  links.filter fun link => ocFilterResourceByRt link.resource request.query

def linkList (links : List Link) : List Members :=
  (linksOffered request links).map fun link => membersOf (linkMembers server request link)

def collectionMembers (collection : Collection) : List (CString × Value) :=
  optional (collection.name.length > 0) (key "n", .textString (text collection.name)) ++
  (baselineMembers collection.resource ++
  (optional (collection.supportedRts.length > 0)
    (key "rts", .array true (.texts (collection.supportedRts.map text))) ++
  (optional (collection.mandatoryRts.length > 0) (key "rts-m", texts (collection.mandatoryRts.map text)) ++
    [(key "links", objects (linkList server request collection.links))])))

end

/-! ## the builders write it -/

section
variable {c : Encoder} {server : Server} {request : Request}

/-- a member that may be left out, in front of others -/
theorem Builds.optional {p : Prop} [Decidable p] {m : CString × Value} {l : List (CString × Value)}
    {b : Builder Unit} {b' : Unit → Builder Unit} (h : Builds c b [(textItem m.1.bytes, .atEnd), m.2.item])
    (h' : Builds c (b' ()) (membersOf l).items) :
    Builds c (if p then do b' (← b) else b' ()) (membersOf (optional p m ++ l)).items := by
  unfold Collections.optional
  by_cases hp : p
  · rw [if_pos hp, if_pos hp]
    exact Builds.member h h'
  · rw [if_neg hp, if_neg hp]
    exact h'

variable (server request) in
theorem builds_setLink (link : Link) :
    Builds c (setLink c server request link) (membersOf (linkMembers server request link)).items := by
  have heps := builds_filter (c := c)
    (p := fun ep => Discovery.fits request.toRequest link.resource ep = true)
    (Discovery.builds_addEndpoint server.build) (server.endpoints link.resource.device)
  have hitems : (Payload.objectsOf ((endpointsOffered server request.toRequest link.resource).map
      (epMembers server.build))).items =
        ((server.endpoints link.resource.device).filter fun ep =>
          decide (Discovery.fits request.toRequest link.resource ep = true)).map
            fun ep => (.map, view (epMembers server.build ep).items) := by
    simp only [Bool.decide_eq_true]
    rw [objectsOf_items, List.map_map]
    rfl
  rw [← hitems] at heps
  unfold setLink linkMembers
  refine Builds.member (builds_setItem (key "href") rfl) ?_
  refine Builds.member (builds_setStringArray (key "rt") (link.resource.types.map text)) ?_
  refine Builds.member (Discovery.builds_interfaces link.resource.interfaces) ?_
  refine Builds.member (builds_setStringArray (key "rel") (link.rel.map text)) ?_
  refine Builds.optional (builds_setItem (key "ins") rfl) ?_
  refine Builds.member ((builds_setItem (key "bm") rfl).setContainer (key "p") _) ?_
  exact Builds.lastMember (Builds.objectArray heps)

variable (server request) in
theorem builds_setLinks (links : List Link) :
    Builds c (setLinks c server request links) (Payload.objectsOf (linkList server request links)).items := by
  have h := builds_filter (c := c)
    (p := fun link : Link => ocFilterResourceByRt link.resource request.query = true)
    (fun link => (builds_setLink server request link).container .map) links
  unfold linkList linksOffered
  rw [objectsOf_items, List.map_map]
  simp only [Bool.decide_eq_true] at h
  exact h

theorem builds_mandatory (rts : List Security.Bytes) :
    Builds c (ocRepOpenArray c (key "rts-m") (rts.forM fun rt => ocRepAddTextString c (some (text rt))))
      [(textItem (key "rts-m").bytes, .atEnd), (texts (rts.map text)).item] := by
  have hitems : (Elements.texts (rts.map text)).items = rts.map fun rt => textItem (text rt).bytes :=
    List.map_map
  have h := builds_forM (c := c) (f := fun rt => ocRepAddTextString c (some (text rt)))
    (g := fun rt => textItem (text rt).bytes) (fun rt => builds_item rfl) rts
  rw [← hitems] at h
  exact h.setContainer (key "rts-m") (.array none)

theorem builds_properties (collection : Collection) : Builds c (ocProcessBaselineInterface c collection)
    (membersOf (optional (collection.name.length > 0) (key "n", .textString (text collection.name)) ++
      baselineMembers collection.resource)).items := by
  unfold ocProcessBaselineInterface
  exact Builds.optional (builds_setItem (key "n") rfl) (Discovery.builds_baseline collection.resource)

theorem builds_setBaseline (collection : Collection) : Builds c (setBaseline c server request collection)
    (membersOf (collectionMembers server request collection)).items := by
  unfold setBaseline collectionMembers
  rw [← List.append_assoc, membersOf_append]
  refine (builds_properties collection).seq ?_
  refine Builds.optional (builds_setStringArray (key "rts") (collection.supportedRts.map text)) ?_
  refine Builds.optional (builds_mandatory collection.mandatoryRts) ?_
  exact Builds.lastMember (Builds.objectArray (builds_setLinks server request collection.links))

end

/-! ## the answer -/

/-- what is written on an interface that is not the batch one, if anything is -/
def listing (server : Server) (request : Request) (collection : Collection) (ifaceMask : UInt32) :
    Option (CborItem × CborValue) :=
  if ifaceMask = 2 then
    if request.method = .get then
      some (.map, view (membersOf (collectionMembers server request collection)).items)
    else none
  else if ifaceMask = 4 then
    some (.array none, view (Payload.objectsOf (linkList server request collection.links)).items)
  else none

/-- what is set for a listing that consists of one item -/
structure Listed (c : Encoder) {σ : Type} (method : Method) (i : CborItem × CborValue) (r : Answer σ) :
    Prop where
  success : r.code = successCode method
  content : c.cost (view [i]) ≤ c.size → r.encoding = c.state (c.cost (view [i])) [i] ∧
    r.length = (if c.cost (view [i]) ≤ 2 then 0 else c.cost (view [i])) % 65536
  /-- nothing is sent, whatever the code says -/
  overflow : ¬ c.cost (view [i]) ≤ c.size → r.length = 0

/-- the answer to a listing, or to a request that gets none -/
def Lists (c : Encoder) {σ : Type} (method : Method) (r : Answer σ) : Option (CborItem × CborValue) → Prop
  | some i => Listed c method i r
  | none => r.code = .badRequest ∧ r.length = 0

section
variable {c : Encoder} {σ : Type} {request : Request} {app : σ}

variable (request app) in
theorem answer_listed {b : Builder Unit} {items : List (CborItem × CborValue)} (h : Builds c b items)
    (i : CborItem) : Listed c request.method (i, view items)
      (answer request (cborContainer c i b ⟨0, 0, []⟩).2 app (ocStatusCode .ok) (ocStatusCode .ok)) := by
  have hnew : (⟨0, 0, []⟩ : Encoding) = c.state 0 [] := rfl
  have hok : ocStatusCode .ok < badRequest := by decide
  have hsuccess (e : Encoding) : (answer request e app (ocStatusCode .ok) (ocStatusCode .ok)).code =
      successCode request.method := by rw [answer_status, if_pos ⟨hok, hok⟩]
  rw [hnew, h.container i, Nat.zero_add, List.nil_append]
  refine ⟨hsuccess _, fun hfit => ⟨rfl, answer_length_le hfit _⟩, fun hfull => ?_⟩
  exact answer_length_err fun he => hfull ((error_eq_zero _).mp he)

theorem links_eq {call : Callbacks σ} {notify : Option Nat} {server : Server} {collection : Collection} :
    ocHandleCollectionRequest c call request notify server collection 4 app =
      answer request (cborContainer c (.array none) (setLinks c server request collection.links) ⟨0, 0, []⟩).2
        app (ocStatusCode .ok) (ocStatusCode .ok) := by
  unfold ocHandleCollectionRequest
  rw [if_neg (by decide), if_pos rfl]

theorem answer_nothing : Lists c request.method
    (answer request ⟨0, 0, []⟩ app (ocStatusCode .ok) badRequest) none := by
  refine ⟨?_, rfl⟩
  rw [answer_status]
  exact if_neg fun h => Nat.lt_irrefl _ h.2

end

/-- On every interface but the batch one, a collection is answered without its handlers.  The interface of
links takes every method. -/
theorem listing_answered {σ : Type} (c : Encoder) (call : Callbacks σ) (request : Request)
    (notify : Option Nat) (server : Server) (collection : Collection) (ifaceMask : UInt32) (app : σ)
    (h : ifaceMask ≠ 8) :
    let r := ocHandleCollectionRequest c call request notify server collection ifaceMask app
    r.app = app ∧ Lists c request.method r (listing server request collection ifaceMask) := by
  dsimp only
  unfold ocHandleCollectionRequest listing
  by_cases h2 : ifaceMask = 2
  · rw [if_pos h2, if_pos h2]
    by_cases hget : request.method = .get
    · rw [if_pos hget, if_pos hget]
      exact ⟨rfl, answer_listed request app (builds_setBaseline collection) .map⟩
    · rw [if_neg hget, if_neg hget]
      exact ⟨rfl, answer_nothing⟩
  · rw [if_neg h2, if_neg h2]
    by_cases h4 : ifaceMask = 4
    · rw [if_pos h4, if_pos h4]
      exact ⟨rfl, answer_listed request app (builds_setLinks server request collection.links) (.array none)⟩
    · rw [if_neg h4, if_neg h4, if_neg h]
      exact ⟨rfl, answer_nothing⟩

/-! ## a room -/

/-- `{"on": true, "range": [0, 100]}` -/
def lightState : Members := membersOf [(key "on", .boolean true), (key "range", .array true (.ints [0, 100]))]

def light : Resource :=
  { Security.zeroResource 0 with core := none, uri := Security.ascii "/light", handler := fun m => m = .get }

def fan : Resource := { light with uri := Security.ascii "/fan", handler := fun _ => false }

def room : Collection := ⟨Security.zeroResource 0, [], [], [], [⟨1, light, [], []⟩, ⟨2, fan, [], []⟩]⟩

/-- the handlers of the light -/
def lightCallbacks : Callbacks Unit := fun _ _ _ app =>
  (⟨Coap.ocStatusCode .ok, [(.map, view lightState.items)]⟩, app)

def getAll : Request := { device := 0, query := [], origin := none, method := .get, payload := [] }

def roomServer : Server where
  build := ⟨false, true, none, false⟩
  core := ⟨Security.zeroResource, 1, false, 0⟩
  app := [light, fan]
  collections := [room.resource]
  deviceId _ := Security.Uuid.nil
  endpoints _ := []

/-- the room tells of its links -/
theorem listing_answered_room :
    Listed cborEncoder .get
      (.array none, view (Payload.objectsOf (linkList roomServer getAll room.links)).items)
      (ocHandleCollectionRequest cborEncoder lightCallbacks getAll none roomServer room 4 ()) :=
  (listing_answered cborEncoder lightCallbacks getAll none roomServer room 4 () (by decide)).2

end Collections
