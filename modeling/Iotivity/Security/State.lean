import Iotivity.Security.Text
import Iotivity.Engine.Blockwise

/-!
# Security resources: payload trees and the state of the stack

The records behind `/oic/sec/doxm`, `pstat`, `acl2`, `cred`, `roles` and `sp`, one of each for every
logical device, with the state they share: the roles of connected peers and the flag
`set_post_otm_acl`.  The stack is built with `OC_SECURITY`, `OC_PKI` and `OC_DYNAMIC_ALLOCATION`:
lists have no bound and an allocation succeeds.

A `struct` is a structure, a linked list a list in list order, a bit mask a fixed-width word.  The
`chain` and `child` pointers of a credential are the ids of the credentials they point at.  The union
`oc_ace_subject_t` and its tag are one inductive type.
-/

namespace Security

/-! ## payloads -/

mutual

/-- `oc_rep_t` -/
inductive Rep where
  | mk (name : Bytes) (value : RepValue)

/-- the value of a property by `oc_rep_value_type_t`; an object array is a list of objects -/
inductive RepValue where
  | nil
  | int (n : Int)
  | double
  | bool (b : Bool)
  | byteString (s : Bytes)
  | string (s : Bytes)
  | object (props : List Rep)
  | intArray (ns : List Int)
  | doubleArray
  | boolArray (bs : List Bool)
  | byteStringArray (ss : List Bytes)
  | stringArray (ss : List Bytes)
  | objectArray (objs : List (List Rep))

end

namespace Rep

def name : Rep → Bytes
  | mk n _ => n

def value : Rep → RepValue
  | mk _ v => v

/-- `rep->value.string` where the code reads it without a look at the type -/
def string (r : Rep) : Bytes :=
  match r.value with
  | .string s => s
  | .byteString s => s
  | _ => []

/-- `oc_string_len(rep->name) == strlen(key) && memcmp(oc_string(rep->name), key, …) == 0` -/
def named (r : Rep) (key : String) : Bool := r.name == ascii key

end Rep

/-! ## pstat and doxm -/

/-- `oc_dostype_t`; a payload may hold any number -/
inductive Dos where
  | reset | rfotm | rfpro | rfnop | sreset
  | other (n : Int)
deriving DecidableEq

def Dos.ofInt (n : Int) : Dos :=
  if n = 0 then .reset
  else if n = 1 then .rfotm
  else if n = 2 then .rfpro
  else if n = 3 then .rfnop
  else if n = 4 then .sreset
  else .other n

/-- `oc_sec_pstat_t` -/
structure Pstat where
  s : Dos
  p : Bool
  isop : Bool
  cm : Int
  tm : Int
  om : Int
  sm : Int
  rowneruuid : Uuid
deriving DecidableEq

/-- `oc_sec_doxm_t` -/
structure Doxm where
  oxmsel : Int
  sct : Int
  owned : Bool
  deviceuuid : Uuid
  devowneruuid : Uuid
  rowneruuid : Uuid
deriving DecidableEq

/-! ## acl2 -/

/-- `oc_ace_connection_type_t` -/
inductive Conn where
  | authCrypt | anonClear
deriving DecidableEq

/-- `oc_ace_subject_t` -/
inductive Subject where
  | uuid (u : Uuid)
  | role (role authority : Bytes)
  | conn (c : Conn)
deriving DecidableEq

/-- `oc_ace_wildcard_t`: `OC_ACE_NO_WC`, and what a resource entry without one holds -/
def noWc : UInt32 := 0xFFFFFFFF
def wcAll : UInt32 := 0x111
def wcAllSecured : UInt32 := 0x01
def wcAllPublic : UInt32 := 0x10

/-- `oc_ace_res_t` -/
structure AceRes where
  href : Bytes
  interfaces : UInt32
  types : List Bytes
  wildcard : UInt32
deriving DecidableEq

/-- `oc_sec_ace_t` -/
structure Ace where
  resources : List AceRes
  subject : Subject
  aceid : Int
  permission : UInt16
deriving DecidableEq

/-- `oc_sec_acl_t` -/
structure Acl where
  subjects : List Ace
  rowneruuid : Uuid
deriving DecidableEq

/-! ## cred, roles and sp -/

/-- `oc_sec_credusage_t` -/
inductive CredUsage where
  | null | trustca | identityCert | roleCert | mfgTrustca | mfgCert
deriving DecidableEq

/-- `oc_sec_encoding_t` -/
inductive Encoding where
  | unsupported | base64 | raw | pem | der
deriving DecidableEq

/-- `oc_cred_data_t` -/
structure CredData where
  data : Bytes
  encoding : Encoding
deriving DecidableEq

def CredData.none : CredData := ⟨[], .unsupported⟩

/-- `OC_CREDTYPE_PSK` and `OC_CREDTYPE_CERT`; the type of a credential is any number of a payload -/
def credtypePsk : Int := 1
def credtypeCert : Int := 8

/-- `oc_sec_cred_t` -/
structure Cred where
  role : Bytes
  authority : Bytes
  privatedata : CredData
  publicdata : CredData
  credusage : CredUsage
  chain : Option Int
  child : Option Int
  credid : Int
  credtype : Int
  subjectuuid : Uuid
deriving DecidableEq

/-- the credential without its links -/
def Cred.data (c : Cred) : Cred := { c with chain := none, child := none }

/-- `oc_sec_creds_t` -/
structure Creds where
  creds : List Cred
  rowneruuid : Uuid
deriving DecidableEq

/-- `oc_sec_sp_t` -/
structure Sp where
  supportedProfiles : UInt32
  currentProfile : UInt32
  credid : Int
deriving DecidableEq

/-! ## the state -/

/-- what the stack keeps for one logical device; `di` is the id in `oc_device_info` -/
structure Device where
  pstat : Pstat
  doxm : Doxm
  acl : Acl
  creds : Creds
  sp : Sp
  di : Uuid
deriving DecidableEq

/-- the records of a device as the `init` functions allocate them, all bytes zero -/
def Device.zero : Device :=
  { pstat := ⟨.reset, false, false, 0, 0, 0, 0, Uuid.nil⟩
    doxm := ⟨0, 0, false, Uuid.nil, Uuid.nil, Uuid.nil⟩
    acl := ⟨[], Uuid.nil⟩
    creds := ⟨[], Uuid.nil⟩
    sp := ⟨0, 0, 0⟩
    di := Uuid.nil }

/-- `oc_sec_roles_t`: the roles asserted by one peer -/
structure Roles where
  client : Nat
  device : Nat
  roles : List Cred
deriving DecidableEq

/-- the security state of the stack; `draws` counts the random values taken -/
structure State where
  device : Nat → Device
  clients : List Roles
  setPostOtmAcl : Bool
  draws : Nat

/-- the state before any device is loaded; `set_post_otm_acl` starts out true -/
def State.zero : State := ⟨fun _ => Device.zero, [], true, 0⟩

/-- the state with device `d` replaced -/
def State.put (s : State) (d : Nat) (x : Device) : State :=
  { s with device := Function.update s.device d x }

@[simp] theorem State.put_device (s : State) (d : Nat) (x : Device) :
    (s.put d x).device d = x := Function.update_self ..

@[simp] theorem State.put_device_ne (s : State) {d k : Nat} (x : Device) (h : k ≠ d) :
    (s.put d x).device k = s.device k := Function.update_of_ne h ..

@[simp] theorem State.put_clients (s : State) (d : Nat) (x : Device) :
    (s.put d x).clients = s.clients := rfl

@[simp] theorem State.put_setPostOtmAcl (s : State) (d : Nat) (x : Device) :
    (s.put d x).setPostOtmAcl = s.setPostOtmAcl := rfl

/-! ## peers -/

/-- `oc_tls_peer_t`: a peer at address `addr`; `psk` is `oc_tls_uses_psk_cred` -/
structure Peer where
  addr : Nat
  endpoint : Coap.Endpoint
  uuid : Uuid
  publicKey : Bytes
  psk : Bool

/-- `oc_tls_get_peer` -/
def ocTlsGetPeer (peers : List Peer) (endpoint : Coap.Endpoint) : Option Peer :=
  peers.find? fun p => Coap.ocEndpointCompare p.endpoint endpoint

/-- `get_roles_for_client` and `oc_sec_get_roles` -/
def ocSecGetRoles (clients : List Roles) (client : Nat) : List Cred :=
  match clients.find? (·.client = client) with
  | some r => r.roles
  | none => []

/-! ## resources -/

/-- `oc_core_resource_t` with `OC_PKI` -/
def ocfRes : Nat := 4
def ocfSecDoxm : Nat := 5
def ocfSecCred : Nat := 8
def ocfD : Nat := 12

/-- `OC_DISCOVERABLE`, `OC_SECURE` -/
def ocDiscoverable : UInt32 := 1
def ocSecure : UInt32 := 16

/-- `oc_method_t` -/
inductive Method where
  | get | post | put | delete
deriving DecidableEq

/-- `oc_resource_t`; `core` is its place in `core_resources`, and `handler` tells for which methods
the application has set a callback -/
structure Resource where
  device : Nat
  core : Option Nat
  uri : Bytes
  types : List Bytes
  interfaces : UInt32
  defaultInterface : UInt32
  properties : UInt32
  handler : Method → Bool

/-! ## the platform -/

/-- what the stack gets from elsewhere: the resources of the application and of the core, random
values, the manufacturer's security profile, key pairs, and the certificate code on top of mbedTLS.

`newId n used` is what `get_new_aceid` and `get_new_credid` find with the random values from the
`n`-th on: they draw until the value is not in use, and shift the sign bit out.  `random n` are the
sixteen bytes of four draws. -/
structure Platform where
  numDevices : Nat
  core : Nat → Nat → Resource
  newId : Nat → List Int → Int
  newId_not_mem : ∀ n used, newId n used ∉ used
  newId_nonneg : ∀ n used, 0 ≤ newId n used
  random : Nat → Uuid
  spMfgDefault : Nat → Sp
  /-- the private key of `oc_sec_get_ecdsa_keypair` -/
  keypair : Nat → Option Bytes
  /-- `oc_certs_parse_public_key` -/
  parsePublicKey : Bytes → Option Bytes
  /-- `oc_certs_parse_role_certificate`: the role and the authority -/
  parseRoleCertificate : Bytes → Option (Bytes × Bytes)
  /-- `oc_sec_derive_owner_psk` for an ownership transfer method, a device and an owner -/
  deriveOwnerPsk : Bytes → Uuid → Uuid → Option Bytes

/-- the URIs of the resources that `oc_sec_create_svr` populates, by their place -/
def svrUri (i : Nat) : Bytes :=
  if i = 5 then ascii "/oic/sec/doxm"
  else if i = 6 then ascii "/oic/sec/pstat"
  else if i = 7 then ascii "/oic/sec/acl2"
  else if i = 8 then ascii "/oic/sec/cred"
  else if i = 9 then ascii "/oic/sec/sp"
  else if i = 10 then ascii "/oic/sec/csr"
  else if i = 11 then ascii "/oic/sec/roles"
  else []

theorem le_foldl_max (l : List Int) (a : Int) :
    a ≤ l.foldl max a ∧ ∀ b ∈ l, b ≤ l.foldl max a := by
  induction l generalizing a with
  | nil => exact ⟨le_refl a, fun b hb => by cases hb⟩
  | cons x t ih =>
    obtain ⟨h1, h2⟩ := ih (max a x)
    refine ⟨le_trans (le_max_left a x) h1, fun b hb => ?_⟩
    rcases List.mem_cons.mp hb with rfl | hb
    · exact le_trans (le_max_right a b) h1
    · exact h2 b hb

/-- a platform to run the model on: `n` devices with the security resources only, ids counted up,
and no certificates -/
def plainPlatform (n : Nat) : Platform where
  numDevices := n
  core device i :=
    { device := device, core := some (ocfD * device + i), uri := svrUri i, types := []
      interfaces := 2, defaultInterface := 2, properties := ocDiscoverable, handler := fun _ => true }
  newId _ used := used.foldl max (-1) + 1
  newId_not_mem _ used h := by
    have := (le_foldl_max used (-1)).2 _ h
    omega
  newId_nonneg _ used := by
    have := (le_foldl_max used (-1)).1
    omega
  random n := Uuid.nil.set 0 (UInt8.ofNat (n + 1))
  spMfgDefault _ := ⟨2, 2, -1⟩
  keypair _ := some [1, 2, 3]
  parsePublicKey _ := none
  parseRoleCertificate _ := none
  deriveOwnerPsk _ _ _ := some (List.replicate 16 7)

/-- `oc_core_is_DCR` -/
def ocCoreIsDCR (resource : Resource) (device : Nat) : Bool :=
  match resource.core with
  | none => false
  | some i => i = 0 ∨ (ocfD * device + ocfRes ≤ i ∧ i ≤ ocfD * device + ocfD)

end Security
