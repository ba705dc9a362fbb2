import Iotivity.Discovery.Answer
import Iotivity.Security.Batch

/-!
# The answer of a collection: `oc_handle_collection_request`

A collection answers with its links, on the baseline interface behind its own properties, or, on the batch
interface, with what the handlers of its links answer.  These write to the buffer of the answer one behind
the other; what a handler has written is taken back when its link is named and the handler refuses.

* `setLinks`                      the links;
* `visit`, `batchLoop`            the batch interface;
* `ocHandleCollectionRequest`     the answer.
-/

namespace Collections
open Payload
open Discovery (Server key text policyBits fits ocCoreEncodeInterfacesMask addEndpoint)
open Coap (OcStatus ocStatusCode)
open Security (Bytes Resource Rep Method itemHref itemPayload ocFilterResourceByRt)

/-! ## collections and requests -/

/-- `oc_link_t`; `address` is that of the resource -/
structure Link where
  address : Nat
  resource : Resource
  rel : List Bytes
  ins : Bytes

/-- `oc_collection_t` -/
structure Collection where
  resource : Resource
  name : Bytes
  supportedRts : List Bytes
  mandatoryRts : List Bytes
  links : List Link

structure Request extends Discovery.Request where
  method : Method
  payload : List Rep

/-- what a handler leaves: the code in the response buffer, and what it has written -/
structure Reply where
  code : Nat
  items : List (CborItem × CborValue)

/-- the callbacks of the application, with its state -/
abbrev Callbacks (σ : Type) := Method → Resource → List Rep → σ → Reply × σ

def badRequest : Nat := ocStatusCode .badRequest

/-! ## links -/

section
variable (c : Encoder) (server : Server) (request : Request)

/-- what is written of a link, on both interfaces -/
def setLink (link : Link) : Builder Unit := do
  ocRepSetTextString c (key "href") (some (text link.resource.uri))
  ocRepSetStringArray c (key "rt") (link.resource.types.map text)
  ocCoreEncodeInterfacesMask c link.resource.interfaces
  ocRepSetStringArray c (key "rel") (link.rel.map text)
  if link.ins.length > 0 then ocRepSetTextString c (key "ins") (some (text link.ins))
  ocRepOpenObject c (key "p") (ocRepSetUint c (key "bm") (policyBits link.resource))
  ocRepOpenArray c (key "eps") <| (server.endpoints link.resource.device).forM fun ep =>
    if fits request.toRequest link.resource ep then addEndpoint c server.build ep else pure ()

/-- the loop over the links -/
def setLinks (links : List Link) : Builder Unit := links.forM fun link =>
  if ocFilterResourceByRt link.resource request.query then
    ocRepObjectArrayItem c (setLink c server request link)
  else pure ()

/-- `oc_process_baseline_interface` -/
def ocProcessBaselineInterface (collection : Collection) : Builder Unit := do
  if collection.name.length > 0 then ocRepSetTextString c (key "n") (some (text collection.name))
  ocRepSetStringArray c (key "rt") (collection.resource.types.map text)
  ocCoreEncodeInterfacesMask c collection.resource.interfaces

/-- the properties of the collection and its links -/
def setBaseline (collection : Collection) : Builder Unit := do
  ocProcessBaselineInterface c collection
  if collection.supportedRts.length > 0 then
    ocRepSetStringArray c (key "rts") (collection.supportedRts.map text)
  if collection.mandatoryRts.length > 0 then
    ocRepOpenArray c (key "rts-m") <| collection.mandatoryRts.forM fun rt =>
      ocRepAddTextString c (some (text rt))
  ocRepOpenArray c (key "links") (setLinks c server request collection.links)

end

/-! ## batch requests -/

/-- `links_array` with `g_err`, the state of the application, `ecode` and `pcode` -/
structure Loop (σ : Type) where
  array : Encoding
  app : σ
  ecode : Nat
  pcode : Nat

section
variable {σ : Type} (c : Encoder) (call : Callbacks σ)

/-- the object of a link is opened, up to the key of the rep -/
def openItem (r : Resource) : Builder Unit := do
  c.write (c.bytes .map)
  modify fun e => { e with items := [] }
  ocRepSetTextString c (key "href") (some (text r.uri))
  cborEncode c (textItem (key "rep").bytes)

/-- whole items, as a handler writes them -/
def writeItems (items : List (CborItem × CborValue)) : Builder Unit := do
  c.write (c.cost (view items))
  modify fun e => { e with items := e.items ++ items }

/-- a link that is selected: its handler is called, or there is none -/
def visit (method : Method) (href : Bytes) (payload : List Rep) (s : Loop σ) (r : Resource) : Loop σ :=
  let opened := (openItem c r s.array).2
  let sizeBefore := Discovery.ocRepGetEncodedPayloadSize opened
  if r.handler method then
    let (reply, app) := call method r payload s.app
    let written := (writeItems c reply.items opened).2
    if href.length > 0 ∧ badRequest ≤ reply.code then
      -- `links_array` is set back, `g_err` is not
      { array := { s.array with err := written.err }, app, ecode := reply.code, pcode := s.pcode }
    else
      let sizeAfter := Discovery.ocRepGetEncodedPayloadSize written
      let rep := if sizeBefore = sizeAfter then (ocRepRootObject c (pure ()) written).2 else written
      let closed := (c.write CborItem.map.breakBytes rep).2
      { array := { closed with items := s.array.items ++ [(.map, view closed.items)] }
        app
        ecode := s.ecode
        pcode := if reply.code < badRequest then reply.code else s.pcode }
  else { s with array := { s.array with err := opened.err }, ecode := 0 }

/-- the link is one that an object with this `href` is for -/
def selected (request : Request) (notify : Option Nat) (href : Bytes) (link : Link) : Bool :=
  (notify.isNone || notify = some link.address) && ocFilterResourceByRt link.resource request.query &&
    (href.length = 0 || href = link.resource.uri)

variable (request : Request) (notify : Option Nat)

/-- the loop over the links -/
def visitLinks (links : List Link) (href : Bytes) (payload : List Rep) (s : Loop σ) : Loop σ :=
  links.foldl (fun s link =>
    if selected request notify href link then visit c call request.method href payload s link.resource
    else s) s

/-- the loop over the objects of the payload, with the `rest_request.request_payload` it has come to -/
def batchLoop (links : List Link) : List Rep → List Rep → Loop σ → Loop σ
  | _, [], s => s
  | payload, rep :: rest, s =>
    match rep.value with
    | .object item =>
      let payload := itemPayload payload item
      batchLoop links payload rest (visitLinks c call request notify links (itemHref item) payload s)
    | _ => batchLoop links payload rest s

/-- the loops; GET and DELETE go to the links at once -/
def visitAll (links : List Link) (s : Loop σ) : Loop σ :=
  if request.method = .get ∨ request.method = .delete then visitLinks c call request notify links [] [] s
  else batchLoop c call request notify links [] request.payload s

/-! ## the answer -/

/-- what is set in the response buffer, with what is in it, and the state of the application -/
structure Answer (σ : Type) where
  code : OcStatus
  length : Nat
  encoding : Encoding
  app : σ

/-- the code of a success -/
def successCode : Method → OcStatus
  | .get => .ok
  | .post => .changed
  | .put => .created
  | .delete => .deleted

/-- the end of the function -/
def answer (encoding : Encoding) (app : σ) (ecode pcode : Nat) : Answer σ :=
  let size := Discovery.ocRepGetEncodedPayloadSize encoding
  let size := if size ≤ 2 then 0 else size
  { code := if ecode < badRequest ∧ pcode < badRequest then successCode request.method else .badRequest
    length := (size % 65536).toNat
    encoding
    app }

/-- `oc_handle_collection_request`, behind `oc_rep_new` -/
def ocHandleCollectionRequest (server : Server) (collection : Collection) (ifaceMask : UInt32) (app : σ) :
    Answer σ :=
  let ok := ocStatusCode .ok
  if ifaceMask = 2 then
    if request.method = .get then
      answer request (ocRepRootObject c (setBaseline c server request collection) ⟨0, 0, []⟩).2 app ok ok
    else answer request ⟨0, 0, []⟩ app ok badRequest
  else if ifaceMask = 4 then
    answer request (cborContainer c (.array none) (setLinks c server request collection.links) ⟨0, 0, []⟩).2
      app ok ok
  else if ifaceMask = 8 then
    let array := (c.write (c.bytes (.array none)) ⟨0, 0, []⟩).2
    let s := visitAll c call request notify collection.links ⟨array, app, ok, badRequest⟩
    let closed := (c.write (CborItem.array none).breakBytes s.array).2
    answer request { closed with items := [(.array none, view closed.items)] } s.app s.ecode s.pcode
  else answer request ⟨0, 0, []⟩ app ok badRequest

end

end Collections
