import Iotivity.Lib.Scan
import Iotivity.Security.State

/-!
# Access control lists: `oc_acl.c`

The searches through an ACL, the access check `oc_sec_check_acl`, and what changes a list: the
default ACL, the clean-up after the ownership transfer, `oc_sec_decode_acl` and the DELETE handler.

A pointer into a list of ACEs or of resource entries is the rest of that list (`Lib/Scan.lean`), and
every `match` cursor of the access check is carried from one search to the next as in the source.
-/

namespace Security
open Scan

/-! ## `oc_sec_ace_find_resource` -/

/-- the flags `positive` and `match` of the loop body -/
structure Verdict where
  positive : Bool
  ok : Bool

def Verdict.accept (v : Verdict) : Verdict := { v with positive := true }
def Verdict.refuse (v : Verdict) : Verdict := { v with ok := false }

/-- the leading slash that a href may leave out -/
def hrefSkip (href : Bytes) : Nat := if href.head? = some 47 then 0 else 1

def hrefTest (href : Option Bytes) (res : AceRes) (v : Verdict) : Verdict :=
  match href with
  | none => v
  | some h =>
    if res.href = [] then v
    else if h.length + hrefSkip h ≠ res.href.length ∨ res.href.drop (hrefSkip h) ≠ h then v.refuse
    else v.accept

/-- the inner loop over the types of an entry; a type `*` ends it -/
def typeTest (t : Bytes) : List Bytes → Bool
  | [] => false
  | u :: us => if u = ascii "*" then false else if t = u then true else typeTest t us

def rtTest (rt : Option (List Bytes)) (res : AceRes) (v : Verdict) : Verdict :=
  match rt with
  | none => v
  | some rt =>
    if v.ok ∧ res.types ≠ [] then
      if rt.any (typeTest · res.types) then v.accept else v.refuse
    else v

def ifTest (ifaceMask : UInt32) (res : AceRes) (v : Verdict) : Verdict :=
  if v.ok ∧ ifaceMask ≠ 0 ∧ res.interfaces ≠ 0 then
    if ifaceMask &&& res.interfaces = 0 then v.refuse else v.accept
  else v

def wcTest (wildcard : UInt32) (res : AceRes) (v : Verdict) : Verdict :=
  if v.ok ∧ wildcard ≠ 0 ∧ res.wildcard ≠ 0 then
    if wildcard ≠ wcAll ∧ wildcard &&& res.wildcard ≠ 0 then v.accept
    else if wildcard = wcAll ∧ res.wildcard = wcAll then v.accept
    else v.refuse
  else v

/-- the test of the loop on one entry -/
def aceResTest (href : Option Bytes) (rt : Option (List Bytes)) (ifaceMask wildcard : UInt32)
    (res : AceRes) : Bool :=
  let v := wcTest wildcard res (ifTest ifaceMask res (rtTest rt res (hrefTest href res ⟨false, true⟩)))
  v.ok && v.positive

def ocSecAceFindResource (start : List AceRes) (ace : Ace) (href : Option Bytes)
    (rt : Option (List Bytes)) (ifaceMask wildcard : UInt32) : List AceRes :=
  next (aceResTest href rt ifaceMask wildcard) ace.resources start

/-! ## `oc_sec_acl_find_subject` -/

/-- the test of the loop on one ACE; `-1` and `0` stand for any id and any permission -/
def subjectTest (subject : Subject) (aceid : Int) (permission : UInt16) (ace : Ace) : Bool :=
  (aceid = -1 ∨ ace.aceid = aceid) ∧ (permission = 0 ∨ ace.permission = permission) ∧
    ace.subject = subject

def ocSecAclFindSubject (start : List Ace) (subject : Subject) (aceid : Int) (permission : UInt16)
    (aces : List Ace) : List Ace :=
  next (subjectTest subject aceid permission) aces start

/-! ## permissions -/

/-- `is_public` -/
def isPublic (resource : Resource) : Bool := resource.properties &&& ocSecure = 0

/-- `wc` of `oc_ace_get_permission` -/
def resourceWc (resource : Resource) : UInt32 :=
  if ocCoreIsDCR resource resource.device then 0
  else if resource.properties &&& ocDiscoverable ≠ 0 then
    if isPublic resource then wcAllPublic ||| wcAllSecured else wcAllSecured
  else wcAll

/-- the per-entry test for a request to a resource -/
def resourceTest (resource : Resource) (ifaceMask : UInt32) : AceRes → Bool :=
  aceResTest (some resource.uri) (some resource.types) ifaceMask (resourceWc resource)

/-- `oc_ace_get_permission` -/
def ocAceGetPermission (ace : Ace) (resource : Resource) (ifaceMask : UInt32) : UInt16 :=
  (sweep (resourceTest resource ifaceMask) (fun p _ => p ||| ace.permission) ace.resources [] 0).1

/-- one of the five `do … while (match)` loops, from the cursor that the loop before has left -/
def subjectLoop (subject : Subject) (resource : Resource) (ifaceMask : UInt32) (aces : List Ace)
    (x : UInt16 × List Ace) : UInt16 × List Ace :=
  sweep (subjectTest subject (-1) 0) (fun p ace => p ||| ocAceGetPermission ace resource ifaceMask)
    aces x.2 x.1

/-- `get_role_permissions` -/
def getRolePermissions (role : Cred) (resource : Resource) (ifaceMask : UInt32) (aces : List Ace) :
    UInt16 :=
  (subjectLoop (.role role.role role.authority) resource ifaceMask aces (0, [])).1

/-- `oc_sec_find_cred` -/
def ocSecFindCred (subject : Uuid) (credtype : Int) (credusage : CredUsage) (creds : List Cred) :
    Option Cred :=
  creds.find? fun c => c.credtype = credtype ∧ c.credusage = credusage ∧ c.subjectuuid = subject

/-! ## `oc_sec_check_acl` -/

/-- what the TLS layer and the certificate code answer: the connected peers, and
`oc_certs_validate_role_cert` on the certificate of a role -/
structure Tls where
  peers : List Peer
  validateRoleCert : Cred → Bool

/-- the loop over the roles of a peer: the permissions found, and the roles it has not freed -/
def rolesLoop (valid : Cred → Bool) (resource : Resource) (ifaceMask : UInt32) (aces : List Ace) :
    List Cred → UInt16 → UInt16 × List Cred
  | [], p => (p, [])
  | role :: rest, p =>
    if valid role then
      let r := rolesLoop valid resource ifaceMask aces rest
        (p ||| getRolePermissions role resource ifaceMask aces)
      (r.1, role :: r.2)
    else rolesLoop valid resource ifaceMask aces rest p

/-- the roles of a client replaced -/
def setRoles (clients : List Roles) (client : Nat) (roles : List Cred) : List Roles :=
  clients.map fun r => if r.client = client then { r with roles := roles } else r

/-- the peer owns the addressed resource -/
def isRowner (dev : Device) (resource : Resource) (uuid : Uuid) : Bool :=
  (uuid = dev.acl.rowneruuid ∧ resource.uri = ascii "/oic/sec/acl2") ∨
  (uuid = dev.doxm.rowneruuid ∧ resource.uri = ascii "/oic/sec/doxm") ∨
  (uuid = dev.pstat.rowneruuid ∧ resource.uri = ascii "/oic/sec/pstat") ∨
  (uuid = dev.creds.rowneruuid ∧ resource.uri = ascii "/oic/sec/cred")

/-- `permission` after the roles of a peer: that of its PSK, or those it has asserted -/
def peerRoles (tls : Tls) (s : State) (dev : Device) (resource : Resource) (ifaceMask : UInt32)
    (peer : Peer) (p : UInt16) : UInt16 × State :=
  if peer.psk then
    match ocSecFindCred peer.uuid credtypePsk .null dev.creds.creds with
    | some role =>
      if role.role = [] then (p, s)
      else (p ||| getRolePermissions role resource ifaceMask dev.acl.subjects, s)
    | none => (p, s)
  else
    let r := rolesLoop tls.validateRoleCert resource ifaceMask dev.acl.subjects
      (ocSecGetRoles s.clients peer.addr) p
    (r.1, { s with clients := setRoles s.clients peer.addr r.2 })

/-- the bits of `oc_ace_permissions_t` that a method needs one of -/
def methodBits : Method → UInt16
  | .get => 2 ||| 16
  | .post => 1 ||| 4
  | .put => 1 ||| 4
  | .delete => 8

/-- `oc_sec_check_acl`: its answer, and the state without the roles it has found invalid -/
def ocSecCheckAcl (tls : Tls) (s : State) (method : Method) (resource : Resource)
    (ifaceMask : UInt32) (endpoint : Coap.Endpoint) : Bool × State :=
  let dev := s.device endpoint.device
  let aces := dev.acl.subjects
  if ¬ ocCoreIsDCR resource resource.device ∧ dev.pstat.s ≠ .rfnop then (false, s)
  else
    let peer := ocTlsGetPeer tls.peers endpoint
    if peer.any fun p => isRowner dev resource p.uuid then (true, s)
    else
      let (x, s) := match peer with
        | none => (((0 : UInt16), ([] : List Ace)), s)
        | some peer =>
          let x := subjectLoop (.uuid peer.uuid) resource ifaceMask aces (0, [])
          let r := peerRoles tls s dev resource ifaceMask peer x.1
          ((r.1, x.2), r.2)
      let x := if endpoint.flags.secured then
          subjectLoop (.conn .authCrypt) resource ifaceMask aces x
        else x
      let x := subjectLoop (.conn .anonClear) resource ifaceMask aces x
      (x.1 ≠ 0 ∧ x.1 &&& methodBits method ≠ 0, s)

/-! ## `oc_sec_ace_update_res` -/

/-- a copy of a string array by `oc_string_array_add_item`, which takes the first place that holds an
empty text: empty texts end up behind the others -/
def addItems (ss : List Bytes) : List Bytes := ss.filter (· ≠ []) ++ ss.filter (· = [])

/-- the entry that `oc_sec_ace_get_res` allocates -/
def newAceRes (href : Option Bytes) (wildcard : UInt32) (rt : Option (List Bytes))
    (ifaceMask : UInt32) : AceRes :=
  ⟨href.getD [], ifaceMask, addItems (rt.getD []), if wildcard ≠ noWc then wildcard else 0⟩

/-- an entry added to an ACE that has none like it -/
def Ace.addRes (ace : Ace) (href : Option Bytes) (wildcard : UInt32) (rt : Option (List Bytes))
    (ifaceMask : UInt32) : Ace :=
  if ocSecAceFindResource [] ace href rt ifaceMask wildcard = [] then
    { ace with resources := ace.resources ++ [newAceRes href wildcard rt ifaceMask] }
  else ace

/-- `oc_sec_ace_update_res`: the entry goes to the first ACE with that subject, id and permission, or
to a new one at the end of the list.  Returns the list and the number of draws. -/
def ocSecAceUpdateRes (pf : Platform) (subject : Subject) (aceid : Int) (permission : UInt16)
    (href : Option Bytes) (wildcard : UInt32) (rt : Option (List Bytes)) (ifaceMask : UInt32)
    (x : List Ace × Nat) : List Ace × Nat :=
  match x.1.findIdx? (subjectTest subject aceid permission) with
  | some i => (x.1.modify i (·.addRes href wildcard rt ifaceMask), x.2)
  | none =>
    let ace (id : Int) : Ace := ⟨[newAceRes href wildcard rt ifaceMask], subject, id, permission⟩
    if aceid = -1 then (x.1 ++ [ace (pf.newId x.2 (x.1.map Ace.aceid))], x.2 + 1)
    else (x.1 ++ [ace aceid], x.2)

/-! ## default ACL and clean-up -/

/-- the body of the loop of `oc_sec_acl_default` on core resource `i` -/
def defaultAce (pf : Platform) (device : Nat) (x : List Ace × Nat) (i : Nat) : List Ace × Nat :=
  let resource := pf.core device i
  let add (aceid : Int) (permission : UInt16) :=
    ocSecAceUpdateRes pf (.conn .anonClear) aceid permission (some resource.uri) noWc
      (some resource.types) resource.interfaces
  if resource.uri = [] then x
  else
    let x := if i < ocfSecDoxm ∨ i > ocfSecCred then add 1 2 x else x
    if i ≥ ocfSecDoxm ∧ i < ocfD then add 2 14 x else x

/-- the ACEs of `oc_sec_acl_default` -/
def defaultAces (pf : Platform) (device : Nat) : List Ace :=
  ((List.range (1 + ocfD)).foldl (defaultAce pf device) ([], 0)).1

/-- `oc_sec_acl_default` -/
def ocSecAclDefault (pf : Platform) (device : Nat) : Acl := ⟨defaultAces pf device, Uuid.nil⟩

/-- the test of `oc_ace_free_resources` -/
def hasHref (href : Bytes) (res : AceRes) : Bool := res.href = href

/-- `oc_sec_set_post_otm_acl`, from the cursor on.  `oc_ace_free_resources` frees an ACE that is left
without entries and sets the cursor to null, which ends the loop. -/
def ocSecSetPostOtmAcl : List Ace → List Ace
  | [] => []
  | ace :: rest =>
    if subjectTest (.conn .anonClear) (-1) 14 ace then
      let r := ace.resources.filter fun res => !hasHref (ascii "/oic/sec/acl2") res
      if r = [] then rest
      else
        let r := r.filter fun res => !hasHref (ascii "/oic/sec/cred") res
        if r = [] then rest else { ace with resources := r } :: ocSecSetPostOtmAcl rest
    else ace :: ocSecSetPostOtmAcl rest

/-! ## `oc_sec_decode_acl` -/

/-- `oc_ri_get_interface_mask` -/
def ocRiGetInterfaceMask (iface : Bytes) : UInt32 :=
  (if iface = ascii "oic.if.baseline" then 2 else 0) |||
  (if iface = ascii "oic.if.ll" then 4 else 0) |||
  (if iface = ascii "oic.if.b" then 8 else 0) |||
  (if iface = ascii "oic.if.r" then 16 else 0) |||
  (if iface = ascii "oic.if.rw" then 32 else 0) |||
  (if iface = ascii "oic.if.a" then 64 else 0) |||
  (if iface = ascii "oic.if.s" then 128 else 0)

/-- the subject under construction: the members of the union, and which of them is meant -/
structure SubjectDraft where
  uuid : Uuid
  role : Bytes
  authority : Bytes
  conn : Conn
  kind : Fin 3

def SubjectDraft.empty : SubjectDraft := ⟨Uuid.nil, [], [], .authCrypt, 0⟩

def SubjectDraft.subject (d : SubjectDraft) : Subject :=
  if d.kind = 0 then .uuid d.uuid
  else if d.kind = 1 then .role d.role d.authority
  else .conn d.conn

def decodeSubject (d : SubjectDraft) (sub : Rep) : SubjectDraft :=
  if sub.named "uuid" then { d with uuid := ocStrToUuid sub.string d.uuid, kind := 0 }
  else if sub.named "role" then { d with role := sub.string, kind := 1 }
  else if sub.named "authority" then { d with authority := sub.string, kind := 1 }
  else if sub.named "conntype" then
    { d with
      conn := if sub.string = ascii "auth-crypt" then .authCrypt
        else if sub.string = ascii "anon-clear" then .anonClear else d.conn
      kind := 2 }
  else d

/-- the locals of the loop over an element of `aclist2` -/
structure AceDraft where
  subject : SubjectDraft
  permission : UInt16
  aceid : Int
  resources : List (List Rep)

def AceDraft.empty : AceDraft := ⟨SubjectDraft.empty, 0, -1, []⟩

def decodeAce (d : AceDraft) (ace : Rep) : AceDraft :=
  match ace.value with
  | .int n =>
    if ace.named "permission" then { d with permission := UInt16.ofInt n }
    else if ace.named "aceid" then { d with aceid := n }
    else d
  | .objectArray objs => if ace.named "resources" then { d with resources := objs } else d
  | .object subs => { d with subject := subs.foldl decodeSubject d.subject }
  | _ => d

/-- the locals of the loop over an element of `resources` -/
structure ResDraft where
  href : Option Bytes
  wildcard : UInt32
  ifaceMask : UInt32
  rt : Option (List Bytes)

def ResDraft.empty : ResDraft := ⟨none, noWc, 0, none⟩

/-- the loop over the interfaces of an entry; an interface `*` ends it -/
def decodeInterfaces (mask : UInt32) : List Bytes → UInt32
  | [] => mask
  | f :: fs =>
    if f = ascii "*" then mask ||| 0xFE else decodeInterfaces (mask ||| ocRiGetInterfaceMask f) fs

def decodeWildcard (s : Bytes) (wc : UInt32) : UInt32 :=
  if s.head? = some 42 then wcAll
  else if s.head? = some 43 then wcAllSecured
  else if s.head? = some 45 then wcAllPublic
  else wc

/-- `strncasecmp(oc_string(resource->name), "rt", 2) == 0` for a name of two characters -/
def isRtAnyCase (name : Bytes) : Bool :=
  name.map (fun c => if 65 ≤ c ∧ c ≤ 90 then c + 32 else c) = ascii "rt"

def decodeAceRes (d : ResDraft) (resource : Rep) : ResDraft :=
  match resource.value with
  | .string s =>
    if resource.named "href" then { d with href := some (cstr s) }
    else if resource.named "wc" then { d with wildcard := decodeWildcard s d.wildcard }
    else d
  | .stringArray ss =>
    if resource.named "if" then { d with ifaceMask := decodeInterfaces d.ifaceMask ss }
    else if isRtAnyCase resource.name then { d with rt := some ss }
    else d
  | _ => d

/-- `oc_acl_remove_ace` -/
def ocAclRemoveAce (aceid : Int) (aces : List Ace) : List Ace :=
  aces.eraseP fun ace => ace.aceid = aceid

/-- one element of `aclist2` -/
def decodeAclEntry (pf : Platform) (x : List Ace × Nat) (entry : List Rep) : List Ace × Nat :=
  let d := entry.foldl decodeAce AceDraft.empty
  let aces := if d.aceid ≠ -1 then ocAclRemoveAce d.aceid x.1 else x.1
  d.resources.foldl (fun x resource =>
    let r := resource.foldl decodeAceRes ResDraft.empty
    ocSecAceUpdateRes pf d.subject.subject d.aceid d.permission r.href r.wildcard r.rt r.ifaceMask x)
    (aces, x.2)

/-- the first pass: may this property be set now? -/
def aclPropOk (fromStorage : Bool) (s : Dos) (t : Rep) : Bool :=
  match t.value with
  | .string _ => !(t.named "rowneruuid" && !fromStorage && (s = .rfnop ∨ s = .rfpro))
  | .objectArray _ => !(!fromStorage && s = .rfnop)
  | _ => true

/-- the second pass on one property -/
def applyAclProp (pf : Platform) (x : Acl × Nat) (rep : Rep) : Acl × Nat :=
  match rep.value with
  | .string s =>
    if rep.named "rowneruuid" then
      ({ x.1 with rowneruuid := ocStrToUuid s x.1.rowneruuid }, x.2)
    else x
  | .objectArray objs =>
    let y := objs.foldl (decodeAclEntry pf) (x.1.subjects, x.2)
    ({ x.1 with subjects := y.1 }, y.2)
  | _ => x

/-- `oc_sec_decode_acl` -/
def ocSecDecodeAcl (pf : Platform) (s : State) (rep : List Rep) (fromStorage : Bool)
    (device : Nat) : Bool × State :=
  let dev := s.device device
  if rep.all (aclPropOk fromStorage dev.pstat.s) then
    let x := rep.foldl (applyAclProp pf) (dev.acl, s.draws)
    (true, { s.put device { dev with acl := x.1 } with draws := x.2 })
  else (false, s)

/-- `delete_acl`; the query parameter `aceid`, if there is one, is a number -/
def deleteAcl (s : State) (device : Nat) (aceid : Option Int) : State :=
  let dev := s.device device
  if dev.pstat.s = .rfnop then s
  else match aceid with
    | some id =>
      if id = 0 then s
      else s.put device { dev with acl :=
        { dev.acl with subjects := ocAclRemoveAce id dev.acl.subjects } }
    | none => s.put device { dev with acl := { dev.acl with subjects := [] } }

end Security
