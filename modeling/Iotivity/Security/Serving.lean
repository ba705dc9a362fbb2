import Iotivity.Security.CoreLookup
import Iotivity.Security.Readback
import Iotivity.Engine.Respond

/-!
# Requests to doxm, pstat, acl2 and cred, and their answers

The security resources as a client sees them: a request is let in by the ACL, its handler runs, and the
answer has a status and, for a GET, the properties of the resource.

* `createSvr_resource`   the core resources that `oc_sec_create_svr` sets up are these;
* `served`               what a request comes to: it is not let in, it reads, or it is a `step`.
-/

namespace Security

/-! ## resources -/

/-- the security resources that every device has -/
inductive Svr where
  | doxm | pstat | acl2 | cred
deriving DecidableEq

namespace Svr

/-- the place in the core resources of a device -/
def place : Svr → Nat
  | doxm => ocfSecDoxm
  | pstat => ocfSecPstat
  | acl2 => ocfSecAcl
  | cred => ocfSecCred

def uri : Svr → Bytes
  | doxm => ascii "/oic/sec/doxm"
  | pstat => ascii "/oic/sec/pstat"
  | acl2 => ascii "/oic/sec/acl2"
  | cred => ascii "/oic/sec/cred"

def type : Svr → Bytes
  | doxm => ascii "oic.r.doxm"
  | pstat => ascii "oic.r.pstat"
  | acl2 => ascii "oic.r.acl2"
  | cred => ascii "oic.r.cred"

/-- acl2 and cred are secure, and entries of theirs can be deleted -/
def lists : Svr → Bool
  | doxm => false
  | pstat => false
  | acl2 => true
  | cred => true

/-- the resource of a device -/
def resource (device : Nat) (r : Svr) : Resource where
  device := device
  core := some (ocCoreGetResourceByIndex r.place device)
  uri := r.uri
  types := [r.type]
  interfaces := 2
  defaultInterface := 2
  properties := if r.lists then ocDiscoverable ||| ocSecure else ocDiscoverable
  handler := handlers true false true r.lists

end Svr

/-- the core resources of a device are populated -/
def Platform.Populated (pf : Platform) (device : Nat) : Prop :=
  ∀ r : Svr, pf.core device r.place = r.resource device

/-- a platform to run requests on -/
def servedPlatform (n : Nat) : Platform :=
  { plainPlatform n with
    core := fun device i =>
      match [Svr.doxm, Svr.pstat, Svr.acl2, Svr.cred].find? (·.place = i) with
      | some r => r.resource device
      | none => (plainPlatform n).core device i }

theorem servedPlatform_populated (n device : Nat) : (servedPlatform n).Populated device := by
  intro r
  cases r with
  | doxm => rfl
  | pstat => rfl
  | acl2 => rfl
  | cred => rfl

theorem createSvr_resource (st : CoreState) (i : Nat) (r : Svr) :
    (createSvr st i).resources (ocCoreGetResourceByIndex r.place i) = r.resource i := by
  have hne : ∀ {a b : Nat}, a ≠ b → 0 < a → 0 < b →
      ocCoreGetResourceByIndex a i ≠ ocCoreGetResourceByIndex b i := by
    intro a b h ha hb
    unfold ocCoreGetResourceByIndex ocfP
    rw [if_neg (Nat.ne_of_gt ha), if_neg (Nat.ne_of_gt hb)]
    omega
  unfold createSvr
  simp only [ocCorePopulateResource]
  cases r with
  | doxm =>
    rw [Function.update_of_ne (hne (by decide) (by decide) (by decide)),
      Function.update_of_ne (hne (by decide) (by decide) (by decide)),
      Function.update_of_ne (hne (by decide) (by decide) (by decide)),
      Function.update_of_ne (hne (by decide) (by decide) (by decide)),
      Function.update_of_ne (hne (by decide) (by decide) (by decide)),
      Function.update_of_ne (hne (by decide) (by decide) (by decide))]
    exact Function.update_self ..
  | pstat =>
    rw [Function.update_of_ne (hne (by decide) (by decide) (by decide)),
      Function.update_of_ne (hne (by decide) (by decide) (by decide)),
      Function.update_of_ne (hne (by decide) (by decide) (by decide)),
      Function.update_of_ne (hne (by decide) (by decide) (by decide)),
      Function.update_of_ne (hne (by decide) (by decide) (by decide))]
    exact Function.update_self ..
  | acl2 =>
    rw [Function.update_of_ne (hne (by decide) (by decide) (by decide)),
      Function.update_of_ne (hne (by decide) (by decide) (by decide)),
      Function.update_of_ne (hne (by decide) (by decide) (by decide)),
      Function.update_of_ne (hne (by decide) (by decide) (by decide))]
    exact Function.update_self ..
  | cred =>
    rw [Function.update_of_ne (hne (by decide) (by decide) (by decide)),
      Function.update_of_ne (hne (by decide) (by decide) (by decide)),
      Function.update_of_ne (hne (by decide) (by decide) (by decide))]
    exact Function.update_self ..

/-! ## answers -/

/-- a response: its status and the properties it shows -/
structure Answer where
  status : Coap.OcStatus
  payload : List Rep

/-- the number of a status in `oc_status_t` -/
def statusNumber : Coap.OcStatus → Nat
  | .ok => 0 | .created => 1 | .changed => 2 | .deleted => 3 | .notModified => 4
  | .badRequest => 5 | .unauthorized => 6 | .badOption => 7 | .forbidden => 8 | .notFound => 9
  | .methodNotAllowed => 10 | .notAcceptable => 11 | .requestEntityTooLarge => 12
  | .unsupportedMediaType => 13 | .internalServerError => 14 | .notImplemented => 15
  | .badGateway => 16 | .serviceUnavailable => 17 | .gatewayTimeout => 18
  | .proxyingNotSupported => 19

/-- `data->code >= OC_STATUS_BAD_REQUEST` -/
def Answer.failed (a : Answer) : Bool := statusNumber .badRequest ≤ statusNumber a.status

/-- the response to a POST -/
def postAnswer (ok : Bool) : Answer := ⟨if ok then .changed else .badRequest, []⟩

/-- `oc_sec_encode_doxm` -/
def ocSecEncodeDoxm (doxm : Doxm) : List Rep :=
  baselineProps "oic.r.doxm" ++
  [.mk (ascii "oxms") (.intArray [0, 2]), .mk (ascii "oxmsel") (.int doxm.oxmsel),
    .mk (ascii "sct") (.int doxm.sct), .mk (ascii "owned") (.bool doxm.owned),
    textProp "devowneruuid" (ocUuidToStr doxm.devowneruuid),
    textProp "deviceuuid" (ocUuidToStr doxm.deviceuuid),
    textProp "rowneruuid" (ocUuidToStr doxm.rowneruuid)]

/-- the query is for devices of the other kind; `owned` is the query from the value of `owned` on -/
def otherKind (doxm : Doxm) (owned : Option Bytes) : Bool :=
  owned.any fun q => (doxm.owned ∧ lower (q.take 5) = ascii "false") ∨
    (¬ doxm.owned ∧ lower (q.take 4) = ascii "true")

/-- `get_doxm`; a multicast request for devices of the other kind is ignored -/
def getDoxm (doxm : Doxm) (owned : Option Bytes) (multicast : Bool) : Option Answer :=
  if otherKind doxm owned then if multicast then none else some ⟨.badRequest, []⟩
  else some ⟨.ok, ocSecEncodeDoxm doxm⟩

/-- whether `post_cred` succeeds -/
def postCredOk (pf : Platform) (s : State) (device : Nat) (client : Option Peer) (rep : List Rep) :
    Bool :=
  let x := ocSecDecodeCred pf s rep false client device
  let creds := (x.2.2.device device).creds
  x.1 && match x.2.1.bind fun id => creds.creds.find? (·.credid = id) with
    | none => true
    | some owner =>
      if client = none ∧ owner.subjectuuid = creds.rowneruuid then
        (ownerPsk pf (x.2.2.device device).doxm owner).isSome
      else true

/-! ## requests -/

/-- a request to a security resource, without a query -/
inductive SvrRequest where
  | get (r : Svr)
  | post (r : Svr) (payload : List Rep)

namespace SvrRequest

def svr : SvrRequest → Svr
  | get r => r
  | post r _ => r

def method : SvrRequest → Method
  | get _ => .get
  | post _ _ => .post

/-- what a request does to the device it goes to -/
def request (device : Nat) : SvrRequest → Option Request
  | get _ => none
  | post .doxm rep => some (.postDoxm device rep)
  | post .pstat rep => some (.postPstat device rep)
  | post .acl2 rep => some (.postAcl device rep)
  | post .cred rep => some (.postCred device rep)

/-- the response of the handler of a resource: `get_doxm`, `post_doxm` and so on -/
def answer (pf : Platform) (s : State) (device : Nat) : SvrRequest → Answer
  | get .doxm => (getDoxm (s.device device).doxm none false).getD ⟨.ok, []⟩
  | get .pstat => ⟨.ok, ocSecEncodePstat (s.device device).pstat⟩
  | get .acl2 => ⟨.ok, ocSecEncodeAcl (s.device device).acl⟩
  | get .cred => ⟨.ok, baselineProps "oic.r.cred" ++ getCred s device none⟩
  | post .doxm rep => postAnswer (ocSecDecodeDoxm pf s rep false device).1
  | post .pstat rep => postAnswer (ocSecDecodePstat pf s rep false device).1
  | post .acl2 rep => postAnswer (ocSecDecodeAcl pf s rep false device).1
  | post .cred rep => postAnswer (postCredOk pf s device none rep)

end SvrRequest

/-- a request from an endpoint: the ACL first, then the handler -/
def serve (pf : Platform) (tls : Tls) (s : State) (endpoint : Coap.Endpoint) (q : SvrRequest) :
    Answer × State :=
  let device := endpoint.device
  let resource := pf.core device q.svr.place
  let x := ocSecCheckAcl tls s q.method resource resource.defaultInterface endpoint
  if x.1 then
    (q.answer pf x.2 device, match q.request device with
      | none => x.2
      | some r => step pf x.2 r)
  else (⟨.unauthorized, []⟩, x.2)

/-- all that the ACL may change is which roles the peers hold -/
theorem peerRoles_frame (tls : Tls) (s : State) (dev : Device) (resource : Resource)
    (ifaceMask : UInt32) (peer : Peer) (p : UInt16) :
    ∃ clients, (peerRoles tls s dev resource ifaceMask peer p).2 = { s with clients := clients } := by
  unfold peerRoles
  split
  · split
    · split
      · exact ⟨_, rfl⟩
      · exact ⟨_, rfl⟩
    · exact ⟨_, rfl⟩
  · exact ⟨_, rfl⟩

theorem check_frame (tls : Tls) (s : State) (method : Method) (resource : Resource)
    (ifaceMask : UInt32) (endpoint : Coap.Endpoint) :
    ∃ clients, (ocSecCheckAcl tls s method resource ifaceMask endpoint).2 =
      { s with clients := clients } := by
  unfold ocSecCheckAcl
  dsimp only
  split
  · exact ⟨_, rfl⟩
  split
  · exact ⟨_, rfl⟩
  · cases ocTlsGetPeer tls.peers endpoint with
    | none => exact ⟨_, rfl⟩
    | some peer => exact peerRoles_frame tls s _ resource ifaceMask peer _

/-- the state behind a request that is let in -/
def stateAfter (pf : Platform) (s : State) (device : Nat) (q : SvrRequest) : State :=
  match q.request device with
  | none => s
  | some r => step pf s r

/-- the ACL lets a request in -/
def LetIn (pf : Platform) (tls : Tls) (s : State) (endpoint : Coap.Endpoint) (q : SvrRequest) : Prop :=
  (ocSecCheckAcl tls s q.method (pf.core endpoint.device q.svr.place)
    (pf.core endpoint.device q.svr.place).defaultInterface endpoint).1 = true

theorem serve_letIn {pf : Platform} {tls : Tls} {s : State} {endpoint : Coap.Endpoint}
    {q : SvrRequest} (h : LetIn pf tls s endpoint q) :
    ∃ clients, serve pf tls s endpoint q =
      (q.answer pf { s with clients := clients } endpoint.device,
        stateAfter pf { s with clients := clients } endpoint.device q) := by
  obtain ⟨clients, hc⟩ := check_frame tls s q.method (pf.core endpoint.device q.svr.place)
    (pf.core endpoint.device q.svr.place).defaultInterface endpoint
  refine ⟨clients, ?_⟩
  unfold LetIn at h
  unfold serve
  dsimp only
  rw [if_pos h, hc]
  rfl

/-- what a request comes to -/
inductive Served (pf : Platform) (s : State) (device : Nat) (q : SvrRequest) : Answer × State → Prop
  | refused (clients : List Roles) :
    Served pf s device q (⟨.unauthorized, []⟩, { s with clients := clients })
  | read (clients : List Roles) (r : Svr) (h : q = .get r) :
    Served pf s device q
      (q.answer pf { s with clients := clients } device, { s with clients := clients })
  | wrote (clients : List Roles) (r : Request) (h : q.request device = some r) :
    Served pf s device q
      (q.answer pf { s with clients := clients } device, step pf { s with clients := clients } r)

theorem served (pf : Platform) (tls : Tls) (s : State) (endpoint : Coap.Endpoint) (q : SvrRequest) :
    Served pf s endpoint.device q (serve pf tls s endpoint q) := by
  unfold serve
  dsimp only
  obtain ⟨clients, hc⟩ := check_frame tls s q.method (pf.core endpoint.device q.svr.place)
    (pf.core endpoint.device q.svr.place).defaultInterface endpoint
  rw [hc]
  split
  · cases q with
    | get r => exact .read clients r rfl
    | post r rep =>
      cases r with
      | doxm => exact .wrote clients (.postDoxm endpoint.device rep) rfl
      | pstat => exact .wrote clients (.postPstat endpoint.device rep) rfl
      | acl2 => exact .wrote clients (.postAcl endpoint.device rep) rfl
      | cred => exact .wrote clients (.postCred endpoint.device rep) rfl
  · exact .refused clients

end Security
