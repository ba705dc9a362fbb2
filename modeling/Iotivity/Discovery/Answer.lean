import Iotivity.Discovery.Links
import Iotivity.Engine.Respond
import Iotivity.Payload.ObjectArrays
import Iotivity.Security.CoreLookup
import Iotivity.Security.Readback

/-!
# The answer to a discovery request: `oc_core_discovery_handler`

The resources that are discoverable, and of a type that is asked for, are written as links, with those
endpoints of their device that fit the request.  A request of the older version gets one object for each
device, with ports in the place of endpoints.

* `ocCoreDiscoveryHandler`       the handler;
* `linkMembers`, `resMembers`    what a link is made of, in both versions;
* `wrote_links`, `wrote_older`   what is written, and how many resources are counted;
* `discovery_answer_iff`         the code and the length of the answer.
-/

namespace Discovery
open Payload
open Coap (Endpoint TransportFlags OcStatus)
open Security (Bytes Uuid Resource CoreState ascii cstr ocUuidToStr zero_not_mem_cstr)
open EndpointString (ocEndpointToString)

/-! ## the device and the request -/

/-- an endpoint of the device -/
structure Port where
  endpoint : Endpoint
  interfaceIndex : Int

/-- `request->origin` -/
structure Origin where
  flags : TransportFlags
  interfaceIndex : Int
  /-- its version is `OIC_VER_1_1_0` -/
  older : Bool

/-- `endpoints` is `oc_connectivity_get_endpoints` -/
structure Server where
  build : EndpointString.Build
  core : CoreState
  app : List Resource
  collections : List Resource
  deviceId : Nat → Uuid
  endpoints : Nat → List Port

/-- `device` is that of the resource -/
structure Request where
  device : Nat
  query : Bytes
  origin : Option Origin

/-- a text of the device, as far as `strlen` goes -/
def text (s : Bytes) : CString := ⟨cstr s, zero_not_mem_cstr s⟩

def key (s : String) : CString := text (ascii s)

def ocPeriodic : UInt32 := 64

def hasProperty (r : Resource) (p : UInt32) : Bool := r.properties &&& p ≠ 0

def discoverable (r : Resource) : Bool := hasProperty r Security.ocDiscoverable

/-- `(uint8_t)(properties & ~(OC_PERIODIC | OC_SECURE))` -/
def policyBits (r : Resource) : Nat := (r.properties &&& ~~~(ocPeriodic ||| Security.ocSecure)).toNat % 256

/-- the resource is secure, and the endpoint is not -/
def unsecured (r : Resource) (ep : Port) : Bool :=
  hasProperty r Security.ocSecure && !ep.endpoint.flags.secured

/-- the request has come in through another interface -/
def elsewhere (request : Request) (ep : Port) : Bool :=
  match request.origin with
  | none => false
  | some origin => origin.interfaceIndex ≠ -1 && origin.interfaceIndex ≠ ep.interfaceIndex

/-- the endpoint is one for the link of the resource -/
def fits (request : Request) (r : Resource) (ep : Port) : Bool := !(unsecured r ep || elsewhere request ep)

/-! ## links -/

section
variable (c : Encoder)

/-- the loop over `resource->types` -/
def addTypes (types : List Bytes) : Builder Unit := types.forM fun t =>
  if (cstr t).length > 0 then ocRepAddTextString c (some (text t)) else pure ()

/-- `oc_core_encode_interfaces_mask` -/
def ocCoreEncodeInterfacesMask (ifaceMask : UInt32) : Builder Unit :=
  ocRepOpenArray c (key "if") <| Security.ifFlags.forM fun f =>
    if ifaceMask &&& f ≠ 0 then ocRepAddTextString c (some (text (Security.ifName f))) else pure ()

/-- an element of `eps` -/
def addEndpoint (build : EndpointString.Build) (ep : Port) : Builder Unit := ocRepObjectArrayItem c <|
  match ocEndpointToString build ep.endpoint with
  | none => pure ()
  | some s => ocRepSetTextString c (key "ep") (some (text s))

variable (server : Server) (request : Request)

/-- what `filter_resource` writes of a resource -/
def setLink (anchor : CString) (r : Resource) : Builder Unit := do
  ocRepSetTextString c (key "anchor") (some anchor)
  ocRepSetTextString c (key "href") (some (text r.uri))
  ocRepOpenArray c (key "rt") (addTypes c r.types)
  ocCoreEncodeInterfacesMask c r.interfaces
  ocRepOpenObject c (key "p") (ocRepSetUint c (key "bm") (policyBits r))
  ocRepOpenArray c (key "eps") <| (server.endpoints r.device).forM fun ep =>
    if fits request r ep then addEndpoint c server.build ep else pure ()

def filterResource (anchor : CString) (r : Resource) : Builder Bool :=
  if !Security.ocFilterResourceByRt r request.query then return false
  else if !discoverable r then return false
  else do
    ocRepObjectArrayItem c (setLink c server request anchor r)
    return true

/-- `if (filter_resource(…)) matches++`, for one resource after the other -/
def countMatches (filter : Resource → Builder Bool) (rs : List Resource) : Builder Nat :=
  rs.foldlM (fun n r => do if ← filter r then return n + 1 else return n) 0

/-- `oc_core_get_resource_by_index` -/
def Server.coreResource (type device : Nat) : Resource :=
  server.core.resources (Security.ocCoreGetResourceByIndex type device)

/-- the discoverable ones of a device among the resources of the application or the collections -/
def ofDevice (device : Nat) (rs : List Resource) : List Resource :=
  rs.filter fun r => r.device = device && discoverable r

def Server.con (device : Nat) : List Resource :=
  if server.core.announceConRes then [server.coreResource Security.ocfCon device] else []

/-- the resources that `process_device_resources` goes through -/
def Server.candidates (device : Nat) : List Resource :=
  [server.coreResource Security.ocfP 0, server.coreResource Security.ocfD device,
    server.coreResource Security.ocfIntrospectionWk device] ++ server.con device ++
  [server.coreResource Security.ocfSecDoxm device, server.coreResource Security.ocfSecPstat device,
    server.coreResource Security.ocfSecAcl device, server.coreResource Security.ocfSecCred device,
    server.coreResource Security.ocfSecSp device, server.coreResource Security.ocfSecCsr device,
    server.coreResource Security.ocfSecRoles device] ++
  ofDevice device server.app ++ ofDevice device server.collections

/-- the text of the anchor -/
def Server.anchor (device : Nat) : Bytes := ascii "ocf://" ++ ocUuidToStr (server.deviceId device)

def processDeviceResources (device : Nat) : Builder Nat :=
  countMatches (filterResource c server request (text (server.anchor device))) (server.candidates device)

/-! ## the older version -/

/-- the key for the port of an endpoint -/
def portKey (build : EndpointString.Build) (flags : TransportFlags) : Option CString :=
  if build.tcp && flags.tcp then
    some (if flags.secured then key "x.org.iotivity.tls" else key "x.org.iotivity.tcp")
  else if flags.secured then some (key "port") else none

/-- the endpoint and the request have an IP version in common -/
def sameVersion (build : EndpointString.Build) (origin ep : TransportFlags) : Bool :=
  origin.ipv6 && ep.ipv6 || build.ipv4 && origin.ipv4 && ep.ipv4

/-- the key and the port that an endpoint is written as -/
def portOf (build : EndpointString.Build) (origin : Origin) (r : Resource) (ep : Port) :
    Option (CString × Nat) :=
  if unsecured r ep then none
  else if sameVersion build origin.flags ep.endpoint.flags then
    (portKey build ep.endpoint.flags).map (·, ep.endpoint.port.toNat)
  else none

def setPort (origin : Origin) (r : Resource) (ep : Port) : Builder Unit :=
  match portOf server.build origin r ep with
  | none => pure ()
  | some (k, port) => ocRepSetUint c k port

/-- what `filter_oic_1_1_resource` writes of a resource -/
def setRes (origin : Origin) (r : Resource) : Builder Unit := do
  ocRepSetTextString c (key "href") (some (text r.uri))
  ocRepOpenArray c (key "rt") (addTypes c r.types)
  ocCoreEncodeInterfacesMask c r.interfaces
  ocRepOpenObject c (key "p") do
    ocRepSetUint c (key "bm") (policyBits r)
    ocRepSetBoolean c (key "sec") true
    (server.endpoints r.device).forM (setPort c server origin r)

def filterOic11Resource (origin : Origin) (r : Resource) : Builder Bool :=
  if !Security.ocFilterResourceByRt r request.query then return false
  else if !discoverable r then return false
  else do
    ocRepObjectArrayItem c (setRes c server origin r)
    return true

/-- the resources that `process_oic_1_1_device_object` goes through -/
def Server.candidates11 (device : Nat) : List Resource :=
  [server.coreResource Security.ocfP device, server.coreResource Security.ocfD device] ++
  server.con device ++ ofDevice device server.app ++ ofDevice device server.collections ++
  [server.coreResource Security.ocfSecDoxm device, server.coreResource Security.ocfSecPstat device,
    server.coreResource Security.ocfSecCred device, server.coreResource Security.ocfSecAcl device,
    server.coreResource Security.ocfSecSp device, server.coreResource Security.ocfSecCsr device,
    server.coreResource Security.ocfSecRoles device,
    server.coreResource Security.ocfIntrospectionWk device]

/-- `oc_process_baseline_interface` on a resource of the core, which has no name -/
def ocProcessBaselineInterface (r : Resource) : Builder Unit := do
  ocRepSetStringArray c (key "rt") (r.types.map text)
  ocCoreEncodeInterfacesMask c r.interfaces

def processOic11DeviceObject (origin : Origin) (baseline : Bool) (device : Nat) : Builder Nat :=
  returning c .map do
    ocRepSetTextString c (key "di") (some (text (ocUuidToStr (server.deviceId device))))
    if baseline then ocProcessBaselineInterface c (server.coreResource Security.ocfRes device)
    cborEncode c (textItem (key "links").bytes)
    returning c (.array none) <|
      countMatches (filterOic11Resource c server request origin) (server.candidates11 device)

/-- the objects of all devices -/
def processDevices (origin : Origin) (baseline : Bool) : Builder Nat :=
  (List.range server.core.deviceCount).foldlM (fun n device => do
    let m ← processOic11DeviceObject c server request origin baseline device
    return n + m) 0

/-! ## the handler -/

/-- what is set in `response_buffer`; there is no code for `OC_IGNORE` -/
structure Response where
  code : Option OcStatus
  length : Nat

def ocRepGetEncodedPayloadSize (e : Encoding) : Int := if e.err ≠ 0 then -1 else e.used

/-- the end of both handlers -/
def respond (ok : Bool) (responseLength : Int) : Response :=
  if ok then ⟨some .ok, (responseLength % 65536).toNat⟩
  else match request.origin with
    | some origin => if origin.flags.multicast then ⟨none, 0⟩ else ⟨some .badRequest, 0⟩
    | none => ⟨none, 0⟩

/-- `oc_rep_start_links_array` and `oc_rep_end_links_array`, behind `oc_rep_new` -/
def linksArray (content : Builder Nat) : Nat × Encoding := returning c (.array none) content ⟨0, 0, []⟩

/-- the `switch` of `oc_core_1_1_discovery_handler` -/
def encode11 (origin : Origin) (ifaceMask : UInt32) : Nat × Encoding :=
  if ifaceMask = 4 then linksArray c (processDevices c server request origin false)
  else if ifaceMask = 2 then linksArray c (processDevices c server request origin true)
  else (0, ⟨0, 0, []⟩)

def ocCore11DiscoveryHandler (origin : Origin) (ifaceMask : UInt32) : Response × Encoding :=
  let r := encode11 c server request origin ifaceMask
  let responseLength := ocRepGetEncodedPayloadSize r.2
  (respond request (r.1 ≠ 0 && responseLength ≠ 0) responseLength, r.2)

/-- the `switch` of `oc_core_discovery_handler` -/
def encodeLinks (ifaceMask : UInt32) : Nat × Encoding :=
  let device := request.device
  if ifaceMask = 4 then linksArray c (processDeviceResources c server request device)
  else if ifaceMask = 2 then
    linksArray c <| returning c .map do
      ocProcessBaselineInterface c (server.coreResource Security.ocfRes device)
      cborEncode c (textItem (key "links").bytes)
      returning c (.array none) (processDeviceResources c server request device)
  else (0, ⟨0, 0, []⟩)

/-- `request->origin && request->origin->version == OIC_VER_1_1_0` -/
def Request.older : Option Origin := request.origin.filter Origin.older

/-- `oc_core_discovery_handler`: the response and what is in its buffer -/
def ocCoreDiscoveryHandler (ifaceMask : UInt32) : Response × Encoding :=
  match request.older with
  | some origin => ocCore11DiscoveryHandler c server request origin ifaceMask
  | none =>
    let r := encodeLinks c server request ifaceMask
    let responseLength := ocRepGetEncodedPayloadSize r.2
    (respond request (r.1 ≠ 0 && responseLength > 0) responseLength, r.2)

end

/-! ## what is written -/

/-- the types that are not empty -/
def typesOffered (r : Resource) : List CString := (r.types.map text).filter (·.bytes.length > 0)

def ifNames (ifaceMask : UInt32) : List CString :=
  (Security.ifFlags.filter (ifaceMask &&& · ≠ 0)).map fun f => text (Security.ifName f)

def epMembers (build : EndpointString.Build) (ep : Port) : Members :=
  membersOf (((ocEndpointToString build ep.endpoint).map fun s => (key "ep", .textString (text s))).toList)

section
variable (server : Server) (request : Request)

/-- the resource is of a type that is asked for, and discoverable -/
def offers (r : Resource) : Bool := Security.ocFilterResourceByRt r request.query && discoverable r

/-- the endpoints of a link -/
def endpointsOffered (r : Resource) : List Port := (server.endpoints r.device).filter (fits request r)

def linkMembers (anchor : CString) (r : Resource) : Members := membersOf [
  (key "anchor", .textString anchor), (key "href", .textString (text r.uri)),
  (key "rt", texts (typesOffered r)), (key "if", texts (ifNames r.interfaces)),
  (key "p", .object (membersOf [(key "bm", .uint (policyBits r))])),
  (key "eps", objects ((endpointsOffered server request r).map (epMembers server.build)))]

/-- the links of a device -/
def links (device : Nat) : List Members := ((server.candidates device).filter (offers request)).map
  (linkMembers server request (text (server.anchor device)))

def baselineMembers (r : Resource) : List (CString × Value) :=
  [(key "rt", .array true (.texts (r.types.map text))), (key "if", texts (ifNames r.interfaces))]

/-- a resource for the older version -/
def resMembers (origin : Origin) (r : Resource) : Members := membersOf [
  (key "href", .textString (text r.uri)),
  (key "rt", texts (typesOffered r)), (key "if", texts (ifNames r.interfaces)),
  (key "p", .object (membersOf ((key "bm", .uint (policyBits r)) :: (key "sec", .boolean true) ::
    ((server.endpoints r.device).filterMap (portOf server.build origin r)).map fun p => (p.1, .uint p.2))))]

/-- the object of a device -/
def deviceMembers (origin : Origin) (baseline : Bool) (device : Nat) : Members := membersOf <|
  (key "di", .textString (text (ocUuidToStr (server.deviceId device)))) ::
    (if baseline then baselineMembers (server.coreResource Security.ocfRes device) else []) ++
    [(key "links", objects <| ((server.candidates11 device).filter (offers request)).map
      (resMembers server origin))]

/-- the objects of an answer, and the resources that are counted -/
def answered (ifaceMask : UInt32) : Option (List Members × List Resource) :=
  match request.older with
  | some origin =>
    if ifaceMask = 4 ∨ ifaceMask = 2 then
      some ((List.range server.core.deviceCount).map (deviceMembers server request origin (ifaceMask = 2)),
        (List.range server.core.deviceCount).flatMap fun device =>
          (server.candidates11 device).filter (offers request))
    else none
  | none =>
    let offered := (server.candidates request.device).filter (offers request)
    if ifaceMask = 4 then some (links server request request.device, offered)
    else if ifaceMask = 2 then
      some ([membersOf (baselineMembers (server.coreResource Security.ocfRes request.device) ++
        [(key "links", objects (links server request request.device))])], offered)
    else none

end

/-! ## the builders write it -/

section
variable {c : Encoder}

theorem builds_addTypes (r : Resource) :
    Builds c (addTypes c r.types) (plain (Elements.texts (typesOffered r)).items) := by
  have h := builds_filter (c := c) (f := fun t => ocRepAddTextString c (some (text t)))
    (p := fun t => (cstr t).length > 0) (fun t => builds_item rfl) r.types
  have hitems : plain (Elements.texts (typesOffered r)).items =
      (r.types.filter fun t => decide ((cstr t).length > 0)).map
        fun t => (textItem (text t).bytes, .atEnd) := by
    unfold typesOffered
    rw [List.filter_map]
    show List.map _ (List.map _ (List.map _ _)) = _
    rw [List.map_map, List.map_map]
    rfl
  rw [hitems]
  exact h

theorem builds_interfaces (ifaceMask : UInt32) : Builds c (ocCoreEncodeInterfacesMask c ifaceMask)
    [(textItem (key "if").bytes, .atEnd), (texts (ifNames ifaceMask)).item] := by
  refine Builds.setContainer ?_ (key "if") (.array none)
  have h := builds_filter (c := c) (f := fun f => ocRepAddTextString c (some (text (Security.ifName f))))
    (p := fun f => ifaceMask &&& f ≠ 0) (fun f => builds_item rfl) Security.ifFlags
  have hitems : plain (Elements.texts (ifNames ifaceMask)).items =
      (Security.ifFlags.filter fun f => decide (ifaceMask &&& f ≠ 0)).map
        fun f => (textItem (text (Security.ifName f)).bytes, .atEnd) := by
    show List.map _ (List.map _ (List.map _ _)) = _
    rw [List.map_map, List.map_map]
    rfl
  show Builds c _ (plain (Elements.texts (ifNames ifaceMask)).items)
  rw [hitems]
  exact h

theorem builds_addEndpoint (build : EndpointString.Build) (ep : Port) :
    Builds c (addEndpoint c build ep) [(.map, view (epMembers build ep).items)] := by
  refine Builds.container ?_ .map
  unfold epMembers
  cases ocEndpointToString build ep.endpoint with
  | none => exact builds_pure
  | some s => exact builds_setItem (key "ep") rfl

section
variable (server : Server) (request : Request)

theorem builds_link (anchor : CString) (r : Resource) :
    Builds c (setLink c server request anchor r) (linkMembers server request anchor r).items := by
  have heps := builds_filter (c := c) (p := fun ep => fits request r ep = true)
    (builds_addEndpoint server.build) (server.endpoints r.device)
  have hitems : (objectsOf ((endpointsOffered server request r).map (epMembers server.build))).items =
      ((server.endpoints r.device).filter fun ep => decide (fits request r ep = true)).map
        fun ep => (.map, view (epMembers server.build ep).items) := by
    simp only [Bool.decide_eq_true]
    rw [objectsOf_items, List.map_map]
    rfl
  rw [← hitems] at heps
  unfold setLink linkMembers
  refine Builds.member (builds_setItem (key "anchor") rfl) ?_
  refine Builds.member (builds_setItem (key "href") rfl) ?_
  refine Builds.member ((builds_addTypes r).setContainer (key "rt") _) ?_
  refine Builds.member (builds_interfaces r.interfaces) ?_
  refine Builds.member ((builds_setItem (key "bm") rfl).setContainer (key "p") _) ?_
  exact Builds.lastMember (Builds.objectArray heps)

/-- what a filter writes of a resource -/
theorem returns_filterResource (anchor : CString) (r : Resource) :
    Returns c (filterResource c server request anchor r) (offers request r)
      (if offers request r then [(.map, view (linkMembers server request anchor r).items)] else []) := by
  unfold filterResource offers
  cases Security.ocFilterResourceByRt r request.query with
  | false => exact returns_pure false
  | true =>
    cases discoverable r with
    | false => exact returns_pure false
    | true =>
      exact Returns.behind ((builds_link server request anchor r).container .map) (returns_pure true)

theorem builds_setPorts (origin : Origin) (r : Resource) (eps : List Port) :
    Builds c (eps.forM (setPort c server origin r))
      (membersOf ((eps.filterMap (portOf server.build origin r)).map fun p => (p.1, .uint p.2))).items := by
  induction eps with
  | nil => exact builds_pure
  | cons ep eps ih =>
    rw [List.filterMap_cons]
    cases hp : portOf server.build origin r ep with
    | none =>
      have hstep : Builds c (setPort c server origin r ep) [] := by
        unfold setPort
        rw [hp]
        exact builds_pure
      exact hstep.seq ih
    | some p =>
      have hstep : Builds c (setPort c server origin r ep)
          [(textItem p.1.bytes, .atEnd), (Value.uint p.2).item] := by
        unfold setPort
        rw [hp]
        exact builds_setItem p.1 rfl
      exact Builds.member hstep ih

theorem builds_res (origin : Origin) (r : Resource) :
    Builds c (setRes c server origin r) (resMembers server origin r).items := by
  unfold setRes resMembers
  refine Builds.member (builds_setItem (key "href") rfl) ?_
  refine Builds.member ((builds_addTypes r).setContainer (key "rt") _) ?_
  refine Builds.member (builds_interfaces r.interfaces) ?_
  refine Builds.lastMember (Builds.setContainer ?_ (key "p") .map)
  refine Builds.member (builds_setItem (key "bm") rfl) ?_
  exact Builds.member (builds_setItem (key "sec") rfl) (builds_setPorts server origin r _)

theorem returns_filterOic11Resource (origin : Origin) (r : Resource) :
    Returns c (filterOic11Resource c server request origin r) (offers request r)
      (if offers request r then [(.map, view (resMembers server origin r).items)] else []) := by
  unfold filterOic11Resource offers
  cases Security.ocFilterResourceByRt r request.query with
  | false => exact returns_pure false
  | true =>
    cases discoverable r with
    | false => exact returns_pure false
    | true => exact Returns.behind ((builds_res server origin r).container .map) (returns_pure true)

/-- one resource after the other -/
theorem returns_countMatches {filter : Resource → Builder Bool} {ms : Resource → Members}
    (h : ∀ r, Returns c (filter r) (offers request r)
      (if offers request r then [(.map, view (ms r).items)] else [])) (rs : List Resource) :
    Returns c (countMatches filter rs) (rs.filter (offers request)).length
      (objectsOf ((rs.filter (offers request)).map ms)).items := by
  have hfrom (n : Nat) : Returns c (rs.foldlM (fun n r => do if ← filter r then return n + 1 else return n) n)
      (n + (rs.filter (offers request)).length) (objectsOf ((rs.filter (offers request)).map ms)).items := by
    induction rs generalizing n with
    | nil => exact returns_pure n
    | cons r rs ih =>
      have hr := h r
      cases ho : offers request r with
      | false =>
        rw [ho, if_neg Bool.false_ne_true] at hr
        rw [List.filter_cons_of_neg (by rw [ho]; exact Bool.false_ne_true), List.foldlM_cons]
        refine Returns.bind (a := n) (l := []) ?_ (ih n)
        exact Returns.bind (a := false) (f := fun b => if b = true then pure (n + 1) else pure n) hr
          (returns_pure n)
      | true =>
        rw [ho, if_pos rfl] at hr
        have hn : n + ((rs.filter (offers request)).length + 1) =
            n + 1 + (rs.filter (offers request)).length := by omega
        rw [List.filter_cons_of_pos ho, List.foldlM_cons, List.length_cons, List.map_cons, hn]
        refine Returns.bind (a := n + 1) (l := [(.map, view (ms r).items)]) ?_ (ih (n + 1))
        exact Returns.bind (a := true) (f := fun b => if b = true then pure (n + 1) else pure n) hr
          (returns_pure (n + 1))
  have h0 := hfrom 0
  rwa [Nat.zero_add] at h0

theorem builds_baseline (r : Resource) :
    Builds c (ocProcessBaselineInterface c r) (membersOf (baselineMembers r)).items :=
  Builds.member (builds_setStringArray (key "rt") (r.types.map text))
    (Builds.lastMember (builds_interfaces r.interfaces))

theorem returns_deviceObject (origin : Origin) (baseline : Bool) (device : Nat) :
    Returns c (processOic11DeviceObject c server request origin baseline device)
      ((server.candidates11 device).filter (offers request)).length
      [(.map, view (deviceMembers server request origin baseline device).items)] := by
  have hlinks := Returns.objectArray (k := key "links") (returns_countMatches request
    (returns_filterOic11Resource (c := c) server request origin) (server.candidates11 device))
  refine Returns.container ?_ .map
  unfold deviceMembers
  rw [List.cons_append]
  refine Returns.bind (a := ()) (builds_setItem (key "di") rfl) ?_
  cases baseline with
  | false => exact hlinks
  | true =>
    show Returns c _ _ (membersOf (baselineMembers _ ++ _)).items
    rw [membersOf_append]
    exact Returns.bind (a := ()) (builds_baseline _) hlinks

theorem returns_processDevices (origin : Origin) (baseline : Bool) :
    Returns c (processDevices c server request origin baseline)
      ((List.range server.core.deviceCount).flatMap fun device =>
        (server.candidates11 device).filter (offers request)).length
      (objectsOf ((List.range server.core.deviceCount).map
        (deviceMembers server request origin baseline))).items := by
  have hfrom (devices : List Nat) (n : Nat) : Returns c
      (devices.foldlM (fun n device => do
        let m ← processOic11DeviceObject c server request origin baseline device
        return n + m) n)
      (n + (devices.flatMap fun device => (server.candidates11 device).filter (offers request)).length)
      (objectsOf (devices.map (deviceMembers server request origin baseline))).items := by
    induction devices generalizing n with
    | nil => exact returns_pure n
    | cons device devices ih =>
      rw [List.foldlM_cons, List.flatMap_cons, List.length_append, List.map_cons, ← Nat.add_assoc]
      refine Returns.bind (l := [(.map, view (deviceMembers server request origin baseline device).items)])
        ?_ (ih _)
      exact Returns.bind (f := fun m => pure (n + m))
        (returns_deviceObject server request origin baseline device) (returns_pure _)
  have h0 := hfrom (List.range server.core.deviceCount) 0
  rwa [Nat.zero_add] at h0

/-! ## the answer -/

theorem linksArray_eq {b : Builder Nat} {n : Nat} {os : List Members} (h : Returns c b n (objectsOf os).items) :
    linksArray c b = (n, c.state (c.cost (payloadOf (objectsOf os))) [(.array none, view (objectsOf os).items)]) := by
  have hnew : (⟨0, 0, []⟩ : Encoding) = c.state 0 [] := rfl
  have hcount := h.container (.array none) 0 []
  rw [Nat.zero_add] at hcount
  unfold linksArray
  rw [hnew, hcount]
  rfl

theorem payloadOf_pos (os : List Members) : 0 < c.cost (payloadOf (objectsOf os)) := by
  have hdata := c.data_lt (.array none)
  show 0 < c.bytes (.array none) + c.cost (view (objectsOf os).items) + 1 + 0
  omega

theorem payloadSize_state (os : List Members) :
    ocRepGetEncodedPayloadSize (c.state (c.cost (payloadOf (objectsOf os))) [(.array none, view (objectsOf os).items)]) =
      if c.cost (payloadOf (objectsOf os)) ≤ c.size then (c.cost (payloadOf (objectsOf os)) : Int) else -1 := by
  unfold ocRepGetEncodedPayloadSize Encoder.state Encoder.error
  by_cases h : c.size < c.cost (payloadOf (objectsOf os))
  · rw [if_pos h, if_neg (Nat.not_le_of_lt h)]
    rfl
  · rw [if_neg h, if_pos (Nat.not_lt.mp h)]
    rfl

/-- what the `switch` of either handler leaves -/
def Wrote (c : Encoder) (r : Nat × Encoding) : Option (List Members × List Resource) → Prop
  | none => r = (0, ⟨0, 0, []⟩)
  | some (os, rs) => r = (rs.length, c.state (c.cost (payloadOf (objectsOf os))) [(.array none, view (objectsOf os).items)])

theorem wrote_links (h : request.older = none) (ifaceMask : UInt32) :
    Wrote c (encodeLinks c server request ifaceMask) (answered server request ifaceMask) := by
  have hlinks : Returns c (processDeviceResources c server request request.device) _
      (objectsOf (links server request request.device)).items := returns_countMatches request
    (returns_filterResource (c := c) server request (text (server.anchor request.device)))
    (server.candidates request.device)
  unfold encodeLinks answered
  rw [h]
  by_cases h4 : ifaceMask = 4
  · simp only [if_pos h4]
    exact linksArray_eq hlinks
  · by_cases h2 : ifaceMask = 2
    · simp only [if_neg h4, if_pos h2]
      refine linksArray_eq ?_
      refine Returns.container ?_ .map
      show Returns c _ _ (membersOf (_ ++ _)).items
      rw [membersOf_append]
      exact Returns.behind (builds_baseline _) (Returns.objectArray hlinks)
    · simp only [if_neg h4, if_neg h2]
      rfl

theorem wrote_older {origin : Origin} (h : request.older = some origin) (ifaceMask : UInt32) :
    Wrote c (encode11 c server request origin ifaceMask) (answered server request ifaceMask) := by
  unfold encode11 answered
  rw [h]
  by_cases h4 : ifaceMask = 4
  · simp only [if_pos h4, if_pos (show ifaceMask = 4 ∨ ifaceMask = 2 from .inl h4)]
    rw [show decide (ifaceMask = 2) = false by rw [h4]; rfl]
    exact linksArray_eq (returns_processDevices server request origin false)
  · by_cases h2 : ifaceMask = 2
    · simp only [if_neg h4, if_pos h2, if_pos (show ifaceMask = 4 ∨ ifaceMask = 2 from .inr h2)]
      rw [show decide (ifaceMask = 2) = true from decide_eq_true h2]
      exact linksArray_eq (returns_processDevices server request origin true)
    · simp only [if_neg h4, if_neg h2, if_neg (show ¬ (ifaceMask = 4 ∨ ifaceMask = 2) from not_or.mpr ⟨h4, h2⟩)]
      rfl

/-- what is in the buffer -/
theorem handler_items {os : List Members} {rs : List Resource} {ifaceMask : UInt32}
    (h : answered server request ifaceMask = some (os, rs)) :
    (ocCoreDiscoveryHandler c server request ifaceMask).2.items = [(.array none, view (objectsOf os).items)] := by
  unfold ocCoreDiscoveryHandler
  cases ho : request.older with
  | none =>
    have hw := wrote_links (c := c) server request ho ifaceMask
    rw [h] at hw
    show (encodeLinks c server request ifaceMask).2.items = _
    rw [show encodeLinks c server request ifaceMask = _ from hw]
    rfl
  | some origin =>
    have hw := wrote_older (c := c) server request ho ifaceMask
    rw [h] at hw
    show (encode11 c server request origin ifaceMask).2.items = _
    rw [show encode11 c server request origin ifaceMask = _ from hw]
    rfl

theorem respond_iff (ok : Bool) (responseLength : Int) (n : Nat) :
    respond request ok responseLength = ⟨some .ok, n⟩ ↔ ok = true ∧ n = (responseLength % 65536).toNat := by
  unfold respond
  cases ok with
  | true =>
    rw [if_pos rfl, and_iff_right rfl]
    exact ⟨fun h => (congrArg Response.length h).symm, fun h => h ▸ rfl⟩
  | false =>
    rw [if_neg Bool.false_ne_true]
    refine ⟨fun h => ?_, fun h => absurd h.1 Bool.false_ne_true⟩
    have hcode := congrArg Response.code h
    split at hcode
    · split at hcode <;> cases hcode
    · cases hcode

/-- `t` is how a handler looks at the length of the payload -/
theorem respond_wrote {r : Nat × Encoding} {a : Option (List Members × List Resource)} (hw : Wrote c r a)
    {t : Int → Bool} (ht : ∀ k : Nat, 0 < k → t k = true) {P : Prop} (hP : t (-1) = true ↔ P)
    (n : Nat) :
    respond request (r.1 ≠ 0 && t (ocRepGetEncodedPayloadSize r.2)) (ocRepGetEncodedPayloadSize r.2) =
        ⟨some .ok, n⟩ ↔
      ∃ os rs, a = some (os, rs) ∧ rs ≠ [] ∧
        (c.cost (payloadOf (objectsOf os)) ≤ c.size ∧ n = c.cost (payloadOf (objectsOf os)) % 65536 ∨
          c.size < c.cost (payloadOf (objectsOf os)) ∧ P ∧ n = 65535) := by
  rw [← hP, respond_iff, Bool.and_eq_true, decide_eq_true_eq]
  cases a with
  | none =>
    rw [show r = _ from hw]
    exact iff_of_false (fun h => h.1.1 rfl) fun ⟨_, _, h, _⟩ => nomatch h
  | some a =>
    obtain ⟨os, rs⟩ := a
    rw [show r = _ from hw]
    show (rs.length ≠ 0 ∧ t (ocRepGetEncodedPayloadSize _) = true) ∧ _ ↔ _
    rw [payloadSize_state, ne_eq, List.length_eq_zero_iff]
    by_cases hfit : c.cost (payloadOf (objectsOf os)) ≤ c.size
    · rw [if_pos hfit, ht _ (payloadOf_pos os)]
      constructor
      · rintro ⟨⟨hne, -⟩, hn⟩
        exact ⟨os, rs, rfl, hne, .inl ⟨hfit, by omega⟩⟩
      · rintro ⟨_, _, ⟨rfl, rfl⟩, hne, ⟨-, hn⟩ | ⟨hlt, -, -⟩⟩
        · exact ⟨⟨hne, rfl⟩, by omega⟩
        · exact absurd hfit (Nat.not_le_of_lt hlt)
    · rw [if_neg hfit]
      constructor
      · rintro ⟨⟨hne, hneg⟩, hn⟩
        exact ⟨os, rs, rfl, hne, .inr ⟨Nat.not_le.mp hfit, hneg, hn⟩⟩
      · rintro ⟨_, _, ⟨rfl, rfl⟩, hne, ⟨h, -⟩ | ⟨-, hneg, hn⟩⟩
        · exact absurd h hfit
        · exact ⟨⟨hne, hneg⟩, hn⟩

/-- a request of the newer version -/
theorem links_answer_iff (h : request.older = none) (ifaceMask : UInt32) (n : Nat) :
    (ocCoreDiscoveryHandler c server request ifaceMask).1 = ⟨some .ok, n⟩ ↔
      ∃ os rs, answered server request ifaceMask = some (os, rs) ∧ rs ≠ [] ∧
        c.cost (payloadOf (objectsOf os)) ≤ c.size ∧ n = c.cost (payloadOf (objectsOf os)) % 65536 := by
  have hiff := respond_wrote request (wrote_links (c := c) server request h ifaceMask) (t := fun k => k > 0)
    (fun k hk => decide_eq_true (Int.natCast_pos.mpr hk)) (iff_of_false (by decide) id) n
  simp only [false_and, and_false, or_false] at hiff
  unfold ocCoreDiscoveryHandler
  rw [h]
  exact hiff

/-- a request of the older one -/
theorem older_answer_iff {origin : Origin} (h : request.older = some origin) (ifaceMask : UInt32) (n : Nat) :
    (ocCoreDiscoveryHandler c server request ifaceMask).1 = ⟨some .ok, n⟩ ↔
      ∃ os rs, answered server request ifaceMask = some (os, rs) ∧ rs ≠ [] ∧
        (c.cost (payloadOf (objectsOf os)) ≤ c.size ∧ n = c.cost (payloadOf (objectsOf os)) % 65536 ∨
          c.size < c.cost (payloadOf (objectsOf os)) ∧ n = 65535) := by
  have hiff := respond_wrote request (wrote_older (c := c) server request h ifaceMask) (t := fun k => k ≠ 0)
    (fun k hk => decide_eq_true (Int.natCast_ne_zero.mpr hk.ne')) (iff_of_true (by decide) trivial) n
  simp only [true_and] at hiff
  unfold ocCoreDiscoveryHandler
  rw [h]
  exact hiff

/-- **Answers to discovery requests.**  The answer is OK if and only if a resource is of a type that is asked
for and discoverable, and all objects fit in the buffer.  A request of the older version gets that answer
also when they do not fit, with a length of 65535. -/
theorem discovery_answer_iff (ifaceMask : UInt32) (n : Nat) :
    (ocCoreDiscoveryHandler c server request ifaceMask).1 = ⟨some .ok, n⟩ ↔
      ∃ os rs, answered server request ifaceMask = some (os, rs) ∧ rs ≠ [] ∧
        (c.cost (payloadOf (objectsOf os)) ≤ c.size ∧ n = c.cost (payloadOf (objectsOf os)) % 65536 ∨
          c.size < c.cost (payloadOf (objectsOf os)) ∧ request.older ≠ none ∧ n = 65535) := by
  cases h : request.older with
  | none =>
    simp only [ne_eq, not_true_eq_false, false_and, and_false, or_false]
    exact links_answer_iff server request h ifaceMask n
  | some origin =>
    simp only [ne_eq, reduceCtorEq, not_false_eq_true, true_and]
    exact older_answer_iff server request h ifaceMask n

end

end

end Discovery
