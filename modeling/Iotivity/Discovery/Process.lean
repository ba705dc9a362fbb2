import Iotivity.Endpoint.Bounds
import Iotivity.Payload.Getters
import Iotivity.Payload.Release
import Iotivity.Security.UuidText

/-!
# Discovery payloads: `oc_ri_process_discovery_payload`

A payload is parsed into a tree, and a loop goes over its links.  What a link says is collected in
variables; `uri`, `anchor`, `types` and `iface_mask` live as long as the loop.

The trace has one entry for each link that the loop comes to: the call of the handler, if there is one.
-/

namespace Discovery
open Payload
open Coap (Endpoint)
open Security (Bytes Uuid ascii cstr ocStrToUuid strAccesses textMem)

/-! ## the tree -/

/-- * `null`       a null pointer is dereferenced;
* `stray`      what is dereferenced is a value that is no pointer;
* `uuid`       `oc_str_to_uuid` leaves the text or the uuid. -/
inductive Fault where
  | null
  | stray
  | uuid
  | endpoint (f : EndpointString.Fault)
  | parse (f : Payload.Fault)

abbrev Checked := Except Fault

/-- an `oc_endpoint_t` -/
structure Peer where
  endpoint : Endpoint
  di : Uuid
  interfaceIndex : Nat
  scope : Nat
  version : Nat
deriving DecidableEq

/-- The surroundings of a call: the build, where the payload comes from, what `di` holds before it is
written, which values are not `NULL` when they are read as a pointer, and which of its calls
`oc_new_endpoint` has memory for. -/
structure Env where
  build : EndpointString.Build
  dynamic : Bool
  fuel : Nat
  source : Peer
  di : Uuid
  stray : RepValue → Bool
  memory : Nat → Bool

/-- a node of a list, without its `next` -/
structure Member where
  type : Nat
  name : OcString
  value : RepValue
  object : OcRep

def members : OcRep → List Member
  | .null => []
  | .node type name value object next => ⟨type, name, value, object⟩ :: members next

namespace Member

/-- `oc_string_len(name) == strlen(text) && memcmp(oc_string(name), text, strlen(text)) == 0` -/
def named (m : Member) (text : Bytes) : Bool :=
  m.name.len == text.length && m.name.data.take text.length == text

def isString (m : Member) : Bool := m.type == ocRepString
def isStrings (m : Member) : Bool := m.type == ocRepString ||| ocRepArray
def isObject (m : Member) : Bool := m.type == ocRepObject
def isObjects (m : Member) : Bool := m.type == ocRepObject ||| ocRepArray

/-- `value.object`, or `value.object_array`, where the value is a pointer or reads as `NULL` -/
def target (m : Member) : OcRep :=
  if m.isObject || m.isObjects then m.object
  else match m.value with
    | .none => m.object
    | _ => .null

/-- there is another value in the union, and it does not read as `NULL` -/
def stray (env : Env) (m : Member) : Bool :=
  !(m.isObject || m.isObjects) && (match m.value with | .none => false | v => env.stray v)

/-- the list at `value.object` -/
def list (env : Env) (m : Member) : Checked (List Member) :=
  if m.stray env then .error .stray else .ok (members m.target)

/-- the bytes of `value.string` -/
def text (m : Member) : Bytes :=
  match m.value with
  | .string _ data => data
  | _ => []

end Member

/-! ## interfaces -/

/-- `oc_ri_get_interface_mask` -/
def ocRiGetInterfaceMask (iface : Bytes) : Nat :=
  (if iface = ascii "oic.if.baseline" then 2 else 0) ||| (if iface = ascii "oic.if.ll" then 4 else 0) |||
    (if iface = ascii "oic.if.b" then 8 else 0) ||| (if iface = ascii "oic.if.r" then 16 else 0) |||
    (if iface = ascii "oic.if.rw" then 32 else 0) ||| (if iface = ascii "oic.if.a" then 64 else 0) |||
    (if iface = ascii "oic.if.s" then 128 else 0)

/-- the mask of an array of strings -/
def interfaceMask (env : Env) (array : RepValue) : Nat :=
  (List.range (array.size / stringArrayItemMaxLen env.dynamic)).foldl
    (fun mask i => mask ||| ocRiGetInterfaceMask (cstr ((textAt env.dynamic array i).getD []))) 0

/-! ## endpoints -/

/-- `oc_ipv6_endpoint_is_link_local(endpoint) == 0` -/
def ocIpv6EndpointIsLinkLocal (endpoint : Endpoint) : Bool :=
  endpoint.flags.ipv6 && endpoint.address.getD 0 0 == 0xfe && endpoint.address.getD 1 0 == 0x80

/-- the endpoint of a link, from what its text says, its `di`, and where the payload comes from -/
def completed (env : Env) (di : Uuid) (temp : Endpoint) : Peer where
  endpoint := temp
  di := di
  interfaceIndex := env.source.interfaceIndex
  scope :=
    if ocIpv6EndpointIsLinkLocal temp && ocIpv6EndpointIsLinkLocal env.source.endpoint then env.source.scope
    else 0
  version := env.source.version

/-- `oc_string_to_endpoint(&ep->value.string, &temp_ep, NULL)` -/
def stringToEndpoint (env : Env) (s : Bytes) : Checked (Option Endpoint) :=
  match EndpointString.ocStringToEndpoint env.build env.fuel s EndpointString.blankEndpoint with
  | .error f => .error (.endpoint f)
  | .ok r => .ok (r.map Prod.fst)

/-- `eps_list`, whether `eps_cur` is set, and the calls of `oc_new_endpoint` so far -/
structure Chain where
  list : List Peer
  cur : Bool
  asked : Nat

/-- a new endpoint, behind `eps_cur` or as a new `eps_list` -/
def Chain.add (env : Env) (eps : Chain) (ep : Peer) : Chain :=
  let kept := if eps.cur then eps.list else []
  if env.memory eps.asked then ⟨kept ++ [ep], true, eps.asked + 1⟩ else ⟨kept, false, eps.asked + 1⟩

/-- a member of an object of the array -/
def epMember (env : Env) (di : Uuid) (eps : Chain) (ep : Member) : Checked Chain :=
  if ep.isString ∧ ep.named (ascii "ep") then do
    match ← stringToEndpoint env ep.text with
    | none => return eps
    | some temp => return eps.add env (completed env di temp)
  else return eps

/-- an object of the array -/
def epObject (env : Env) (di : Uuid) (eps : Chain) (object : Member) : Checked Chain := do
  let object ← object.list env
  object.foldlM (epMember env di) eps

/-! ## links -/

/-- the variables of the loop; a pointer into the tree is what it points to -/
structure Locals where
  uri : Option Bytes
  anchor : Option Bytes
  types : Option RepValue
  ifaceMask : Nat
  bm : Nat
  eps : List Peer
  asked : Nat

/-- an integer in an `oc_resource_properties_t` -/
def ocResourceProperties (v : Int) : Nat := (v % 4294967296).toNat

/-- the first member of an object is its `bm` -/
def policyOf (m : Member) : Option Nat :=
  match members m.target with
  | [] => none
  | policy :: _ =>
    if policy.type = ocRepInt ∧ policy.named (ascii "bm") then
      match policy.value with
      | .integer v => some (ocResourceProperties v)
      | _ => none
    else none

/-- the `switch` over the type of a member of a link -/
def memberStep (env : Env) (di : Uuid) (l : Locals) (link : Member) : Checked Locals :=
  if link.isString then
    if link.named (ascii "anchor") then .ok { l with anchor := some link.text }
    else if link.named (ascii "href") then .ok { l with uri := some link.text }
    else .ok l
  else if link.isStrings then
    if link.named (ascii "rt") then .ok { l with types := some link.value }
    else .ok { l with ifaceMask := interfaceMask env link.value }
  else if link.isObjects then do
    let eps ← (members link.target).foldlM (epObject env di) ⟨l.eps, false, l.asked⟩
    return { l with eps := eps.list, asked := eps.asked }
  else if link.isObject then
    if link.named (ascii "p") then .ok { l with bm := (policyOf link).getD l.bm } else .ok l
  else .ok l

/-- what the handler is given -/
structure Found where
  anchor : Bytes
  uri : Bytes
  types : RepValue
  ifaceMask : Nat
  eps : List Peer
  bm : Nat

/-- the handler, after the calls it has had: `true` for `OC_STOP_DISCOVERY` -/
abbrev Handler := List Found → Found → Bool

/-- `*p` -/
def deref {α : Type} : Option α → Checked α
  | none => .error .null
  | some a => .ok a

/-- the loop over the links: whether the handler has stopped it, and the trace -/
def linkLoop (env : Env) (handler : Handler) (di : Uuid) :
    List Member → Locals → List Found → Checked (Bool × List (Option Found))
  | [], _, _ => .ok (false, [])
  | links :: rest, l, calls => do
    let link ← links.list env
    let l ← link.foldlM (memberStep env di) { l with bm := 0, eps := [] }
    if l.eps.isEmpty then do
      let r ← linkLoop env handler di rest l calls
      return (r.1, none :: r.2)
    else do
      let anchor ← deref l.anchor
      let uri ← deref l.uri
      let types ← deref l.types
      let call : Found := ⟨anchor, uri, types, l.ifaceMask, l.eps, l.bm⟩
      if handler calls call then return (true, [some call])
      else do
        let r ← linkLoop env handler di rest l (calls ++ [call])
        return (r.1, some call :: r.2)

/-! ## the payload -/

/-- the list in which `links` is looked for: the first object, or the tree itself -/
def propertiesOf (p : OcRep) (object : List Member) : List Member :=
  if object.isEmpty then members p else object

/-- `links`, at the end of the loop over the properties -/
def linksOf (p : OcRep) (properties : List Member) : OcRep :=
  properties.foldl (fun links rep =>
    if rep.isObjects ∧ rep.named (ascii "links") then rep.target else links) p

/-- the anchor that the first loop over a link stops at -/
def firstAnchor (link : List Member) : Option Bytes :=
  (link.find? fun m => m.isString && m.named (ascii "anchor")).map Member.text

/-- `oc_str_to_uuid(oc_string(*anchor) + 6, &di)` stays in the text and in the uuid -/
def readableUuid (anchor : Bytes) : Bool :=
  6 ≤ anchor.length ∧
    (strAccesses (textMem (anchor.drop 6) fun _ => 0) Uuid.nil).all (·.within (anchor.drop 6))

def uuidOf (env : Env) (anchor : Bytes) : Uuid := ocStrToUuid (anchor.drop 6) env.di

/-- the links: `di` comes from an anchor of the first one -/
def processLinks (env : Env) (handler : Handler) :
    List Member → Checked (Bool × List (Option Found))
  | [] => .error .null
  | first :: rest => do
    let link ← first.list env
    let anchor ← deref (firstAnchor link)
    if readableUuid anchor then
      linkLoop env handler (uuidOf env anchor) (first :: rest) ⟨none, some anchor, none, 0, 0, [], 0⟩ []
    else .error .uuid

/-- `oc_ri_process_discovery_payload`, behind `oc_parse_rep` -/
def processTree (env : Env) (handler : Handler) (p : OcRep) : Checked (Bool × List (Option Found)) := do
  let object ← match members p with
    | [] => .ok []
    | rep :: _ => rep.list env
  processLinks env handler (members (linksOf p (propertiesOf p object)))

/-- `oc_ri_process_discovery_payload` -/
def ocRiProcessDiscoveryPayload (env : Env) (handler : Handler) (init : CborError) (root : CborValue)
    (pools : Pools) : Checked (Bool × List (Option Found)) :=
  match parse env.dynamic init root pools with
  | .error f _ => .error (.parse f)
  | .ok p _ => processTree env handler p

end Discovery
