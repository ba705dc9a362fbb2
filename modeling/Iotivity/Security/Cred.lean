import Iotivity.Security.Acl

/-!
# Credentials: `oc_cred.c` and the server side of `oc_roles.c`

`oc_sec_add_new_cred` works on the credentials of a device or, for `/oic/sec/roles`, on the roles of
a peer: `client` is that peer, and `none` for `/oic/sec/cred`.  It returns the id of the credential,
or `-1` after a failure that may have changed the lists already.

`oc_sec_decode_cred` goes through a payload and stops at the first credential that is refused; the
lists are left as they are at that point.
-/

namespace Security

/-! ## looking up and removing -/

/-- `oc_sec_find_creds_for_subject` from the head of the list -/
def ocSecFindCredsForSubject (subject : Uuid) (creds : List Cred) : Option Cred :=
  creds.find? (·.subjectuuid = subject)

/-- `unique_credid` -/
def uniqueCredid (credid : Int) (creds : List Cred) : Bool := !creds.any (·.credid = credid)

/-- `oc_sec_remove_cred_by_credid` -/
def ocSecRemoveCredByCredid (credid : Int) (creds : List Cred) : List Cred :=
  creds.eraseP (·.credid = credid)

/-- `oc_sec_clear_creds`: all but the manufacturer's -/
def ocSecClearCreds (creds : List Cred) : List Cred :=
  creds.filter fun c => c.credusage = .mfgTrustca ∨ c.credusage = .mfgCert

/-! ## `oc_sec_add_new_cred` -/

/-- the arguments of `oc_sec_add_new_cred`; data without bytes is data not given -/
structure CredDraft where
  credid : Int
  credtype : Int
  credusage : CredUsage
  subjectuuid : Option Bytes
  privatedata : CredData
  publicdata : CredData
  role : Option Bytes
  authority : Option Bytes

def CredDraft.empty : CredDraft := ⟨-1, 0, .null, none, CredData.none, CredData.none, none, none⟩

namespace CredDraft

/-- the subject of the new credential -/
def subject (d : CredDraft) : Option Uuid :=
  match d.subjectuuid with
  | none => if d.credusage = .roleCert then some Uuid.wildcard else none
  | some s => some (if s.head? = some 42 then Uuid.wildcard else ocStrToUuid s Uuid.nil)

/-- an identity certificate without a key of its own takes that of the device -/
def needsKeypair (d : CredDraft) : Bool := d.credusage = .identityCert ∧ d.privatedata.data = []

/-- the private data to store; `none` when a Base64 key is not one of sixteen bytes -/
def storedPrivate (d : CredDraft) (kp : Option Bytes) : Option CredData :=
  if d.privatedata.data = [] then
    match kp with
    | some key => some ⟨key, .raw⟩
    | none => some CredData.none
  else if d.credtype = credtypePsk ∧ d.privatedata.encoding = .base64 then
    if d.privatedata.data.length ≠ 24 then none
    else (ocBase64Decode d.privatedata.data).map (⟨·, .raw⟩)
  else some d.privatedata

/-- the public data to store -/
def storedPublic (d : CredDraft) : CredData :=
  if d.publicdata.data = [] then CredData.none else d.publicdata

end CredDraft

/-- what the search through the credentials of the subject comes to -/
inductive Search where
  | fresh
  /-- the credential at this place has the id and the type, and is removed -/
  | replaced (i : Nat)
  /-- the certificate chain is there already, under this id -/
  | duplicate (credid : Int)
  /-- the credential at this place belongs to the same certificate chain -/
  | chain (i : Nat) (cred : Cred)

/-- the `do … while (cred)` loop; `i` is the place of the head of the list -/
def searchCreds (d : CredDraft) (subject : Uuid) : Nat → List Cred → Search
  | _, [] => .fresh
  | i, cred :: rest =>
    if cred.subjectuuid = subject ∧ cred.credtype = d.credtype then
      if cred.credid = d.credid then .replaced i
      else if d.credtype = credtypeCert ∧ cred.credusage = d.credusage then
        if d.publicdata.data ≠ [] ∧ d.publicdata.data = cred.publicdata.data then
          .duplicate cred.credid
        else if cred.credusage ≠ .trustca ∧ cred.credusage ≠ .mfgTrustca then .chain i cred
        else searchCreds d subject (i + 1) rest
      else searchCreds d subject (i + 1) rest
    else searchCreds d subject (i + 1) rest

/-- the credential that `d` describes -/
def newCred (d : CredDraft) (subject : Uuid) (priv : CredData) (credid : Int)
    (chain child : Option Int) : Cred :=
  { role := (d.role.map cstr).getD []
    authority := if d.role = none then [] else (d.authority.map cstr).getD []
    privatedata := priv
    publicdata := d.storedPublic
    credusage := d.credusage
    chain := chain
    child := child
    credid := credid
    credtype := d.credtype
    subjectuuid := subject }

/-- `if (credid == -1) credid = get_new_credid(…)`; the new entry is in the list already, with id 0 -/
def chooseCredid (pf : Platform) (credid : Int) (creds : List Cred) (draws : Nat) : Int × Nat :=
  if credid = -1 then (pf.newId draws (creds.map Cred.credid ++ [0]), draws + 1) else (credid, draws)

/-- from the allocation on, without a chain -/
def storeCred (pf : Platform) (d : CredDraft) (subject : Uuid) (kp : Option Bytes)
    (creds : List Cred) (draws : Nat) : Int × List Cred × Nat :=
  let id := chooseCredid pf d.credid creds draws
  match d.storedPrivate kp with
  | none => (-1, creds, id.2)
  | some priv => (id.1, creds ++ [newCred d subject priv id.1 none none], id.2)

/-- from the allocation on, linked to the credential `chain` at place `i`: whichever of the two has
a private key is the leaf.  The key of a certificate is never refused. -/
def storeInChain (pf : Platform) (d : CredDraft) (subject : Uuid) (kp : Option Bytes)
    (i : Nat) (chain : Cred) (creds : List Cred) (draws : Nat) : Int × List Cred × Nat :=
  let id := chooseCredid pf d.credid creds draws
  match d.storedPrivate kp with
  | none => (-1, creds, draws)
  | some priv =>
    if chain.privatedata.data ≠ [] then
      (id.1, creds.modify i (fun c => { c with chain := some id.1 }) ++
        [newCred d subject priv id.1 none (some chain.credid)], id.2)
    else if d.privatedata.data ≠ [] then
      (id.1, creds.modify i (fun c => { c with child := some id.1 }) ++
        [newCred d subject priv id.1 (some chain.credid) none], id.2)
    else (-1, creds, draws)

/-- `oc_sec_add_new_cred` for `/oic/sec/cred`: the id or `-1`, the credentials, the draws -/
def addDeviceCred (pf : Platform) (device : Nat) (di : Uuid) (d : CredDraft) (creds : List Cred)
    (draws : Nat) : Int × List Cred × Nat :=
  match d.subject with
  | none => (-1, creds, draws)
  | some subject =>
    if d.needsKeypair ∧ (di ≠ subject ∨ pf.keypair device = none) then (-1, creds, draws)
    else
      let kp := if d.needsKeypair then pf.keypair device else none
      let creds := ocSecRemoveCredByCredid d.credid creds
      match searchCreds d subject 0 creds with
      | .fresh => storeCred pf d subject kp creds draws
      | .replaced i => storeCred pf d subject kp (creds.eraseIdx i) draws
      | .duplicate id => (id, creds, draws)
      | .chain i chain => storeInChain pf d subject kp i chain creds draws

/-- `oc_sec_add_new_cred` for `/oic/sec/roles`: the id or `-1`, the roles of the peer, the draws.
When the key is refused the new role is freed as a credential of the device, and stays in the list
of roles. -/
def addRole (pf : Platform) (client : Peer) (d : CredDraft) (roles : List Cred) (draws : Nat) :
    Int × List Cred × Nat :=
  if d.credusage ≠ .roleCert then (-1, roles, draws)
  else if pf.parsePublicKey d.publicdata.data ≠ some client.publicKey then (-1, roles, draws)
  else match roles.find? (·.publicdata.data = d.publicdata.data) with
    | some role => (role.credid, roles, draws)
    | none =>
      match pf.parseRoleCertificate d.publicdata.data with
      | none => (-1, roles, draws)
      | some (role, authority) =>
        let id := chooseCredid pf (if uniqueCredid d.credid roles then d.credid else -1) roles draws
        let cred : Cred :=
          { role := role, authority := authority, privatedata := CredData.none
            publicdata := CredData.none, credusage := .null, chain := none, child := none
            credid := id.1, credtype := d.credtype, subjectuuid := Uuid.nil }
        match d.storedPrivate none with
        | none => (-1, roles ++ [{ cred with role := [], authority := [] }], id.2)
        | some priv =>
          (id.1, roles ++ [{ cred with
            privatedata := priv, publicdata := d.storedPublic, credusage := d.credusage }], id.2)

/-! ## `oc_sec_decode_cred` -/

/-- `parse_credusage_property` -/
def parseCredusageProperty (s : Bytes) : CredUsage :=
  if s = ascii "oic.sec.cred.trustca" then .trustca
  else if s = ascii "oic.sec.cred.cert" then .identityCert
  else if s = ascii "oic.sec.cred.rolecert" then .roleCert
  else if s = ascii "oic.sec.cred.mfgtrustca" then .mfgTrustca
  else if s = ascii "oic.sec.cred.mfgcert" then .mfgCert
  else .null

/-- `parse_encoding_property` -/
def parseEncodingProperty (s : Bytes) : Encoding :=
  if s = ascii "oic.sec.encoding.base64" then .base64
  else if s = ascii "oic.sec.encoding.raw" then .raw
  else if s = ascii "oic.sec.encoding.pem" then .pem
  else if s = ascii "oic.sec.encoding.der" then .der
  else .unsupported

/-- a property of `privatedata` or `publicdata`; an unsupported encoding ends the whole decoding -/
def decodeData (x : CredData) (data : Rep) : Option CredData :=
  match data.value with
  | .string s =>
    if data.named "encoding" then
      if parseEncodingProperty s = .unsupported then none
      else some { x with encoding := parseEncodingProperty s }
    else if data.named "data" then some { x with data := s }
    else some x
  | .byteString s => if data.named "data" then some { x with data := s } else some x
  | _ => some x

def decodeRoleid (d : CredDraft) (data : Rep) : CredDraft :=
  if data.named "role" then { d with role := some data.string }
  else if data.named "authority" then { d with authority := some data.string }
  else d

/-- a property of a credential -/
def decodeCredProp (d : CredDraft) (cred : Rep) : Option CredDraft :=
  match cred.value with
  | .int n =>
    if cred.named "credid" then some { d with credid := n }
    else if cred.named "credtype" then some { d with credtype := n }
    else some d
  | .string s =>
    if cred.named "subjectuuid" then some { d with subjectuuid := some s }
    else if cred.named "credusage" then some { d with credusage := parseCredusageProperty s }
    else some d
  | .object props =>
    if cred.named "privatedata" then
      (props.foldlM decodeData d.privatedata).map fun x => { d with privatedata := x }
    else if cred.named "publicdata" then
      (props.foldlM decodeData d.publicdata).map fun x => { d with publicdata := x }
    else if cred.named "roleid" then some (props.foldl decodeRoleid d)
    else some d
  | _ => some d

/-- what `oc_sec_decode_cred` changes: the credentials and the owner of the resource, the roles of
the peer, the draws, and `*owner`, by its id -/
structure CredRun where
  creds : List Cred
  rowneruuid : Uuid
  roles : List Cred
  draws : Nat
  owner : Option Int
deriving DecidableEq

/-- `oc_sec_add_new_cred` -/
def ocSecAddNewCred (pf : Platform) (device : Nat) (di : Uuid) (client : Option Peer) (d : CredDraft)
    (r : CredRun) : Int × CredRun :=
  match client with
  | none =>
    let x := addDeviceCred pf device di d r.creds r.draws
    (x.1, { r with creds := x.2.1, draws := x.2.2 })
  | some client =>
    let x := addRole pf client d r.roles r.draws
    (x.1, { r with roles := x.2.1, draws := x.2.2 })

/-- an element of `creds` or `roles`; an object without properties is skipped -/
def decodeCredEntry (pf : Platform) (device : Nat) (di : Uuid) (client : Option Peer)
    (entry : List Rep) (r : CredRun) : Bool × CredRun :=
  match entry.foldlM decodeCredProp CredDraft.empty with
  | none => (false, r)
  | some d =>
    if entry.isEmpty then (true, r)
    else
      let x := ocSecAddNewCred pf device di client d r
      if x.1 = -1 then (false, x.2)
      else if d.credtype = credtypePsk ∧ d.privatedata.data = [] then
        (true, { x.2 with owner :=
          (x.2.creds.find? (·.credid = x.1)).map Cred.credid })
      else (true, x.2)

/-- a chain of steps that ends at the first failure -/
def runUntil {α β : Type} (f : α → β → Bool × β) : List α → β → Bool × β
  | [], b => (true, b)
  | a :: t, b => if (f a b).1 then runUntil f t (f a b).2 else (false, (f a b).2)

section
variable {α β : Type} {f : α → β → Bool × β}

/-- what every step of a chain keeps, the chain keeps -/
theorem runUntil_inv (P : β → Prop) {l : List α}
    (h : ∀ a ∈ l, ∀ b, P b → P (f a b).2) {b : β} (hb : P b) : P (runUntil f l b).2 := by
  induction l generalizing b with
  | nil => exact hb
  | cons a t ih =>
    have ha := h a List.mem_cons_self b hb
    unfold runUntil
    split
    · exact ih (fun a ha => h a (List.mem_cons_of_mem _ ha)) ha
    · exact ha

theorem runUntil_idle {l : List α} {b : β}
    (h : ∀ a ∈ l, f a b = (true, b)) : runUntil f l b = (true, b) := by
  induction l with
  | nil => rfl
  | cons a t ih =>
    rw [runUntil, h a List.mem_cons_self]
    exact ih fun a ha => h a (List.mem_cons_of_mem _ ha)

theorem runUntil_append (f : α → β → Bool × β) (l m : List α) (b : β) :
    runUntil f (l ++ m) b =
      if (runUntil f l b).1 then runUntil f m (runUntil f l b).2 else runUntil f l b := by
  induction l generalizing b with
  | nil => rfl
  | cons a l ih =>
    rw [List.cons_append, runUntil, runUntil]
    split
    · exact ih _
    · rfl

theorem runUntil_singleton (f : α → β → Bool × β) (a : α) (b : β) : runUntil f [a] b = f a b := by
  rw [runUntil, runUntil]
  cases h : f a b with
  | mk ok b' =>
    cases ok with
    | false => rfl
    | true => rfl

/-- a step that is a chain of its own -/
theorem runUntil_flatMap {δ : Type} {h : δ → List α} {k : δ → β → Bool × β}
    (hk : ∀ x b, k x b = runUntil f (h x) b) (l : List δ) (b : β) :
    runUntil k l b = runUntil f (l.flatMap h) b := by
  induction l generalizing b with
  | nil => rfl
  | cons x l ih =>
    rw [List.flatMap_cons, runUntil_append, runUntil, hk]
    split
    · exact ih _
    · next hf =>
      have h1 : (runUntil f (h x) b).1 = false := Bool.eq_false_iff.mpr hf
      rw [← h1]

end

/-- a property of the payload -/
def decodeCredRep (pf : Platform) (device : Nat) (di : Uuid) (client : Option Peer)
    (rep : Rep) (r : CredRun) : Bool × CredRun :=
  match rep.value with
  | .string s =>
    if rep.named "rowneruuid" then (true, { r with rowneruuid := ocStrToUuid s r.rowneruuid })
    else (true, r)
  | .objectArray objs =>
    if rep.named "creds" ∨ rep.named "roles" then
      runUntil (decodeCredEntry pf device di client) objs r
    else (true, r)
  | _ => (true, r)

/-- the first pass, for `/oic/sec/cred` only: may this property be set now? -/
def credPropOk (fromStorage : Bool) (s : Dos) (t : Rep) : Bool :=
  match t.value with
  | .string _ => !(t.named "rowneruuid" && !fromStorage && (s ≠ .rfotm ∧ s ≠ .sreset))
  | .objectArray _ => !(!fromStorage && (s ≠ .rfotm ∧ s ≠ .sreset ∧ s ≠ .rfpro))
  | _ => true

/-- what a request to a device finds -/
def State.credRun (s : State) (device : Nat) (client : Option Peer) : CredRun :=
  { creds := (s.device device).creds.creds
    rowneruuid := (s.device device).creds.rowneruuid
    roles := match client with
      | none => []
      | some p => ocSecGetRoles s.clients p.addr
    draws := s.draws
    owner := none }

/-- the roles of a peer stored back, in a new `oc_sec_roles_t` if it has had none -/
def putRoles (clients : List Roles) (client device : Nat) (roles : List Cred) : List Roles :=
  if clients.any (·.client = client) then setRoles clients client roles
  else if roles = [] then clients
  else clients ++ [⟨client, device, roles⟩]

/-- the state after a run -/
def State.afterRun (s : State) (device : Nat) (client : Option Peer) (r : CredRun) : State :=
  { s.put device { s.device device with creds := ⟨r.creds, r.rowneruuid⟩ } with
    clients := match client with
      | none => s.clients
      | some p => putRoles s.clients p.addr device r.roles
    draws := r.draws }

/-- `oc_sec_decode_cred`: its answer, `*owner` and the state -/
def ocSecDecodeCred (pf : Platform) (s : State) (rep : List Rep) (fromStorage : Bool)
    (client : Option Peer) (device : Nat) : Bool × Option Int × State :=
  let dev := s.device device
  if client.isSome || rep.all (credPropOk fromStorage dev.pstat.s) then
    let x := runUntil (decodeCredRep pf device dev.di client) rep (s.credRun device client)
    (x.1, x.2.owner, s.afterRun device client x.2)
  else (false, none, s)

/-! ## the handlers -/

/-- `OC_OXMTYPE_JW`, `OC_OXMTYPE_RDP`, `OC_OXMTYPE_MFG_CERT` by name -/
def oxmName (oxmsel : Int) : Option Bytes :=
  if oxmsel = 0 then some (ascii "oic.sec.doxm.jw")
  else if oxmsel = 1 then some (ascii "oic.sec.doxm.rdp")
  else if oxmsel = 2 then some (ascii "oic.sec.doxm.mfgcert")
  else none

/-- the key of the owner credential; it is left as allocated for an unknown transfer method -/
def ownerPsk (pf : Platform) (doxm : Doxm) (owner : Cred) : Option Bytes :=
  match oxmName doxm.oxmsel with
  | some oxm => pf.deriveOwnerPsk oxm doxm.deviceuuid owner.subjectuuid
  | none => some (List.replicate 16 0)

/-- the credentials of a device replaced -/
def State.withCreds (s : State) (device : Nat) (creds : List Cred) : State :=
  s.put device { s.device device with creds := { (s.device device).creds with creds := creds } }

/-- `post_cred`, for `/oic/sec/cred` and, with a client, for `/oic/sec/roles` -/
def postCred (pf : Platform) (s : State) (device : Nat) (client : Option Peer) (rep : List Rep) :
    State :=
  let x := ocSecDecodeCred pf s rep false client device
  let s := x.2.2
  let creds := (s.device device).creds
  match x.2.1.bind fun id => creds.creds.find? (·.credid = id) with
  | none => s
  | some owner =>
    if ¬ x.1 then s.withCreds device (ocSecRemoveCredByCredid owner.credid creds.creds)
    else if client = none ∧ owner.subjectuuid = creds.rowneruuid then
      match ownerPsk pf (s.device device).doxm owner with
      | none => s.withCreds device (ocSecRemoveCredByCredid owner.credid creds.creds)
      | some key => s.withCreds device (creds.creds.map fun c =>
          if c.credid = owner.credid then { c with privatedata := ⟨key, .raw⟩ } else c)
    else s

/-- `delete_cred` on `/oic/sec/cred`; the query parameter `credid`, if there is one, is a number -/
def deleteCred (s : State) (device : Nat) (credid : Option Int) : State :=
  if (s.device device).pstat.s = .rfnop then s
  else match credid with
    | some id =>
      if id = 0 then s
      else s.withCreds device (ocSecRemoveCredByCredid id (s.device device).creds.creds)
    | none => s.withCreds device []

/-- `delete_cred` on `/oic/sec/roles`: `oc_sec_free_role_by_credid` and `oc_sec_free_roles` -/
def deleteRoles (s : State) (client : Nat) (credid : Option Int) : State :=
  match credid with
  | some id =>
    let roles := ocSecRemoveCredByCredid id (ocSecGetRoles s.clients client)
    if id = 0 then s else { s with clients := setRoles s.clients client roles }
  | none => { s with clients := s.clients.eraseP (·.client = client) }

/-- `oc_sec_free_roles_for_device` -/
def ocSecFreeRolesForDevice (clients : List Roles) (device : Nat) : List Roles :=
  clients.filter (·.device ≠ device)

/-! ## `oc_sec_encode_cred` -/

/-- `return_credusage_string` -/
def returnCredusageString : CredUsage → Option Bytes
  | .trustca => some (ascii "oic.sec.cred.trustca")
  | .identityCert => some (ascii "oic.sec.cred.cert")
  | .roleCert => some (ascii "oic.sec.cred.rolecert")
  | .mfgTrustca => some (ascii "oic.sec.cred.mfgtrustca")
  | .mfgCert => some (ascii "oic.sec.cred.mfgcert")
  | .null => none

/-- `return_encoding_string` -/
def returnEncodingString : Encoding → Option Bytes
  | .base64 => some (ascii "oic.sec.encoding.base64")
  | .raw => some (ascii "oic.sec.encoding.raw")
  | .pem => some (ascii "oic.sec.encoding.pem")
  | .der => some (ascii "oic.sec.encoding.der")
  | .unsupported => none

def textProp (name : String) (s : Bytes) : Rep := .mk (ascii name) (.string (cstr s))

/-- the object `privatedata`; the data is shown only to storage, and a text that was never allocated
is not written -/
def encodePrivate (persist : Bool) (x : CredData) : List Rep :=
  let data := if persist then x.data else []
  (if x.encoding = .raw ∨ x.encoding = .der then [.mk (ascii "data") (.byteString data)]
    else if persist ∧ x.data = [] then []
    else [textProp "data" data]) ++
  [textProp "encoding" ((returnEncodingString x.encoding).getD (ascii "oic.sec.encoding.raw"))]

/-- the object `publicdata` -/
def encodePublic (x : CredData) : List Rep :=
  (if x.encoding = .pem then textProp "data" x.data else .mk (ascii "data") (.byteString x.data)) ::
    ((returnEncodingString x.encoding).map (textProp "encoding")).toList

/-- the object `roleid` -/
def encodeRoleid (c : Cred) : List Rep :=
  textProp "role" c.role :: if c.authority = [] then [] else [textProp "authority" c.authority]

/-- an element of `creds` -/
def encodeCredEntry (persist : Bool) (c : Cred) : List Rep :=
  [.mk (ascii "credid") (.int c.credid), .mk (ascii "credtype") (.int c.credtype),
    textProp "subjectuuid"
      (if c.subjectuuid.head = 42 then ascii "*" else ocUuidToStr c.subjectuuid)] ++
  (if c.role = [] then [] else [.mk (ascii "roleid") (.object (encodeRoleid c))]) ++
  [.mk (ascii "privatedata") (.object (encodePrivate persist c.privatedata))] ++
  ((returnCredusageString c.credusage).map (textProp "credusage")).toList ++
  (if c.publicdata.data = [] then []
    else [.mk (ascii "publicdata") (.object (encodePublic c.publicdata))])

/-- `oc_sec_encode_cred` behind the properties of the baseline interface -/
def ocSecEncodeCred (persist : Bool) (creds : Creds) : List Rep :=
  [.mk (ascii "creds") (.objectArray (creds.creds.map (encodeCredEntry persist))),
    textProp "rowneruuid" (ocUuidToStr creds.rowneruuid)]

/-! ## what a GET shows -/

/-- an element of `roles` -/
def encodeRoleEntry (c : Cred) : List Rep :=
  [.mk (ascii "credid") (.int c.credid), .mk (ascii "credtype") (.int c.credtype)] ++
  (if c.role = [] then [] else [.mk (ascii "roleid") (.object (encodeRoleid c))]) ++
  ((returnCredusageString c.credusage).map (textProp "credusage")).toList ++
  (if c.publicdata.data = [] then []
    else [.mk (ascii "publicdata") (.object (encodePublic c.publicdata))])

/-- `oc_sec_encode_roles` behind the properties of the baseline interface -/
def ocSecEncodeRoles (roles : List Cred) : List Rep :=
  [.mk (ascii "roles") (.objectArray (roles.map encodeRoleEntry))]

/-- `get_cred`, on `/oic/sec/cred` and, with a client, on `/oic/sec/roles` -/
def getCred (s : State) (device : Nat) (client : Option Peer) : List Rep :=
  match client with
  | none => ocSecEncodeCred false (s.device device).creds
  | some p => ocSecEncodeRoles (ocSecGetRoles s.clients p.addr)

/-- a credential without the bytes of its private data -/
def Cred.hidden (c : Cred) : Cred := { c with privatedata := { c.privatedata with data := [] } }

/-- a store without the bytes of its private data -/
def Creds.hidden (cs : Creds) : Creds := { cs with creds := cs.creds.map Cred.hidden }

theorem encodePrivate_hidden (x : CredData) :
    encodePrivate false { x with data := [] } = encodePrivate false x := by
  unfold encodePrivate
  simp only [Bool.false_eq_true, false_and, if_false]

theorem encodeCredEntry_hidden (c : Cred) :
    encodeCredEntry false c.hidden = encodeCredEntry false c := by
  have h := encodePrivate_hidden c.privatedata
  unfold encodeCredEntry
  rw [show c.hidden.privatedata = { c.privatedata with data := [] } from rfl, h]
  rfl

/-- a GET shows what the store without the private data would show -/
theorem encodeCred_hidden (cs : Creds) :
    ocSecEncodeCred false cs.hidden = ocSecEncodeCred false cs := by
  have h : cs.hidden.creds.map (encodeCredEntry false) = cs.creds.map (encodeCredEntry false) := by
    show (cs.creds.map Cred.hidden).map (encodeCredEntry false) = _
    rw [List.map_map]
    exact List.map_congr_left fun c _ => encodeCredEntry_hidden c
  unfold ocSecEncodeCred
  rw [h]
  rfl

theorem getCred_hides {s s' : State} {device : Nat}
    (h : (s.device device).creds.hidden = (s'.device device).creds.hidden) :
    ocSecEncodeCred false (s.device device).creds = ocSecEncodeCred false (s'.device device).creds ∧
      getCred s device none = getCred s' device none := by
  have he : ocSecEncodeCred false (s.device device).creds =
      ocSecEncodeCred false (s'.device device).creds := by
    rw [← encodeCred_hidden, h, encodeCred_hidden]
  exact ⟨he, he⟩

/-- a device with a key for one peer and a certificate with its own key -/
def keyedState (psk key : Bytes) : State :=
  State.zero.put 0 { Device.zero with creds := ⟨[
    { role := [], authority := [], privatedata := ⟨psk, .raw⟩, publicdata := CredData.none
      credusage := .null, chain := none, child := none, credid := 1, credtype := credtypePsk
      subjectuuid := Uuid.wildcard },
    { role := [], authority := [], privatedata := ⟨key, .der⟩, publicdata := ⟨[48, 1], .der⟩
      credusage := .identityCert, chain := none, child := none, credid := 2
      credtype := credtypeCert, subjectuuid := Uuid.wildcard }], Uuid.nil⟩ }

theorem getCred_hides_keys :
    ((keyedState [1, 2] [3]).device 0).creds.hidden = ((keyedState [4] [5, 6]).device 0).creds.hidden ∧
      getCred (keyedState [1, 2] [3]) 0 none = getCred (keyedState [4] [5, 6]) 0 none := by
  have h : ((keyedState [1, 2] [3]).device 0).creds.hidden =
      ((keyedState [4] [5, 6]).device 0).creds.hidden := rfl
  exact ⟨h, (getCred_hides h).2⟩

end Security
