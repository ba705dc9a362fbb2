import Iotivity.Lib.Runs
import Iotivity.Security.Serving

/-!
# Ownership transfer: the just-works sequence of `oc_obt.c`

The onboarding tool sends one request after another to a device; the response to each is handled by a
callback, `obt_jw_2` to `obt_jw_13`, which sends the next.  A response with an error, or a request that
cannot be sent, ends the attempt, and so does a timer.  Requests and responses may be lost, arrive in
any order and any number of times: a `Net` keeps all that have been sent, and a step may take any of
them.

Objects on the heap have an address.  A step that would use an object that has been freed, or that
puts one on a list which has it already, has no result.  The memory of an attempt may be used again
for another one, and a late response is then taken for one to that other attempt.
-/

namespace Obt
open Security

/-! ## requests -/

/-- `oc_rep_set_object(root, dos)` with the property `s` -/
def dosRep (s : Int) : List Rep :=
  [.mk (ascii "dos") (.object [.mk (ascii "s") (.int s)])]

def rownerRep (u : Uuid) : List Rep := [textProp "rowneruuid" (ocUuidToStr u)]

/-- the properties that make the tool the owner of doxm and of the device -/
def ownerRep (u : Uuid) : List Rep :=
  [.mk (ascii "oxmsel") (.int 0), textProp "rowneruuid" (ocUuidToStr u),
    textProp "devowneruuid" (ocUuidToStr u)]

def ownedRep : List Rep := [.mk (ascii "owned") (.bool true)]

/-- a pre-shared key without its bytes, for the owner of cred -/
def ownerCredRep (u : Uuid) : List Rep :=
  [.mk (ascii "creds") (.objectArray [[.mk (ascii "credtype") (.int 1),
      textProp "subjectuuid" (ocUuidToStr u),
      .mk (ascii "privatedata") (.object [textProp "encoding" (ascii "oic.sec.encoding.raw")])]]),
    textProp "rowneruuid" (ocUuidToStr u)]

/-- `OXM_JUST_WORKS` -/
def oxmJustWorks : Bytes := ascii "oic.sec.doxm.jw"

/-! ## responses -/

/-- a property of `dos`; the enumeration has 32 bits -/
def parseDosProp (s : Dos) (dos : Rep) : Dos :=
  match dos.value with
  | .int n => if dos.named "s" then Dos.ofInt (n % 2 ^ 32) else s
  | _ => s

/-- `parse_dos` -/
def parseDos (rep : List Rep) : Dos :=
  rep.foldl (fun s r => match r.value with
    | .object props => if r.named "dos" then props.foldl parseDosProp s else s
    | _ => s) .reset

/-- the property `deviceuuid` of a doxm; `junk` is what a variable holds that is not set -/
def parseDeviceuuid (junk : Uuid) (rep : List Rep) : Uuid :=
  rep.foldl (fun v r => match r.value with
    | .string s => if r.named "deviceuuid" then ocStrToUuid s v else v
    | _ => v) junk

/-- the property `owned` of a doxm -/
def parseOwned (rep : List Rep) : Option Bool :=
  rep.foldl (fun v r => match r.value with
    | .bool b => if r.named "owned" then some b else v
    | _ => v) none

/-! ## the state of the tool -/

/-- `oc_device_t`; its endpoints all lead to the device -/
structure OcDevice where
  addr : Nat
  uuid : Uuid
deriving DecidableEq

/-- `oc_otm_ctx_t`; `cb` is the callback of the application with its data -/
structure OtmCtx where
  addr : Nat
  cb : Nat
  device : Nat
deriving DecidableEq

/-- the callbacks of the sequence -/
inductive Callback where
  | obtJw2 | obtJw3 | obtJw4 | obtJw5 | obtJw6 | obtJw7 | obtJw8 | obtJw9 | obtJw10 | obtJw11
  | obtJw12 | obtJw13
deriving DecidableEq

/-- a request that has been sent, with its callback and the address it hands to it -/
structure Sent where
  request : SvrRequest
  callback : Callback
  userData : Nat

/-- a call of the application -/
structure Report where
  cb : Nat
  uuid : Uuid
  status : Int
deriving DecidableEq

/-- what `oc_obt.c` keeps: `oc_cache`, `oc_devices`, `oc_otm_ctx_l` and `id`, the data of the timers with
`otm_request_timeout_cb`, the credentials of device 0, and what it has sent and reported -/
structure Tool where
  cache : List OcDevice
  devices : List OcDevice
  otms : List OtmCtx
  timers : List Nat
  creds : List Cred
  id : Int
  sent : List Sent
  reports : List Report

/-- what becomes of a request: `oc_init_post` fails, `oc_do_post` fails, or it is sent -/
inductive Sending where
  | notBegun | notSent | sent
deriving DecidableEq

/-! ## utility functions -/

/-- `owned_device` -/
def ownedDevice (uuid : Uuid) (creds : List Cred) : Bool := creds.any (·.subjectuuid = uuid)

/-- `get_device_handle` -/
def getDeviceHandle (uuid : Uuid) (list : List OcDevice) : Option OcDevice :=
  list.find? (·.uuid = uuid)

/-- `cache_device_if_not_known` with a new object at `addr` -/
def cacheDeviceIfNotKnown (list : List OcDevice) (uuid : Uuid) (addr : Nat) : List OcDevice :=
  if (getDeviceHandle uuid list).isSome then list else list ++ [⟨addr, uuid⟩]

/-- `oc_sec_allocate_cred`: a new object, all bytes zero -/
def ocSecAllocateCred (subjectuuid : Uuid) (credtype : Int) (credusage : CredUsage) : Cred where
  role := []
  authority := []
  privatedata := CredData.none
  publicdata := CredData.none
  credusage := credusage
  chain := none
  child := none
  credid := 0
  credtype := credtype
  subjectuuid := subjectuuid

/-- `oc_cred_remove_subject` -/
def ocCredRemoveSubject (subjectuuid : Bytes) (creds : List Cred) : List Cred :=
  let u := if subjectuuid.head? = some 42 then Uuid.wildcard else ocStrToUuid subjectuuid Uuid.nil
  creds.eraseP (·.subjectuuid = u)

namespace Tool

/-- the device at an address, as long as it has not been freed -/
def device? (t : Tool) (addr : Nat) : Option OcDevice := (t.cache ++ t.devices).find? (·.addr = addr)

/-- `memcpy(device->uuid.id, peer.id, 16)` -/
def setUuid (t : Tool) (addr : Nat) (uuid : Uuid) : Tool :=
  let set (d : OcDevice) : OcDevice := if d.addr = addr then { d with uuid := uuid } else d
  { t with cache := t.cache.map set, devices := t.devices.map set }

/-- `free_device` -/
def freeDevice (t : Tool) (addr : Nat) : Tool :=
  { t with cache := t.cache.filter (·.addr ≠ addr), devices := t.devices.filter (·.addr ≠ addr) }

/-- the device moves from `oc_cache` to `oc_devices`; a list that has an item cannot get it again -/
def keepDevice (t : Tool) (dev : OcDevice) : Option Tool :=
  if t.devices.any (·.addr = dev.addr) then none
  else some { t with
    cache := t.cache.filter (·.addr ≠ dev.addr), devices := t.devices ++ [dev] }

/-- the context is taken from `oc_otm_ctx_l` and freed -/
def freeOtm (t : Tool) (addr : Nat) : Tool := { t with otms := t.otms.filter (·.addr ≠ addr) }

end Tool

/-- `free_otm_state` -/
def freeOtmState (t : Tool) (o : OtmCtx) (status : Int) : Option Tool :=
  (t.device? o.device).bind fun dev =>
    let t : Tool := { t with reports := t.reports ++ [⟨o.cb, dev.uuid, status⟩] }
    if status = -1 then
      let t : Tool := { t with creds := ocCredRemoveSubject (ocUuidToStr dev.uuid) t.creds }
      some ((t.freeDevice dev.addr).freeOtm o.addr)
    else (t.keepDevice dev).map fun t => t.freeOtm o.addr

/-- `free_otm_ctx` -/
def freeOtmCtx (t : Tool) (o : OtmCtx) (status : Int) : Option Tool :=
  freeOtmState { t with timers := t.timers.erase o.addr } o status

/-- `otm_request_timeout_cb`, which is given the address of a context -/
def otmRequestTimeoutCb (t : Tool) (data : Nat) : Option Tool :=
  (t.otms.find? (·.addr = data)).bind fun o =>
    freeOtmState { t with timers := t.timers.erase data } o (-1)

/-! ## the callbacks -/

section
variable (u junk : Uuid) (derive : Bytes → Uuid → Uuid → Option Bytes)
variable (t : Tool) (userData : Nat) (a : Answer) (go : Sending)

/-- how every callback begins: a context that is not on the list is not looked at, and an error ends
the attempt -/
def obtJw (next : OtmCtx → Option Tool) : Option Tool :=
  match t.otms.find? (·.addr = userData) with
  | none => some t
  | some o => if a.failed then freeOtmCtx t o (-1) else next o

/-- the next request, or the end of the attempt -/
def request (o : OtmCtx) (q : SvrRequest) (callback : Callback) : Option Tool :=
  (t.device? o.device).bind fun _ =>
    if go = .sent then some { t with sent := t.sent ++ [⟨q, callback, o.addr⟩] }
    else freeOtmCtx t o (-1)

/-- get pstat s=rfotm? -/
def obtJw2 : Option Tool := obtJw t userData a fun o => request t go o (.get .pstat) .obtJw3

/-- post doxm oxmsel=0, rowneruuid, devowneruuid -/
def obtJw3 : Option Tool :=
  obtJw t userData a fun o =>
    if parseDos a.payload = .rfotm then request t go o (.post .doxm (ownerRep u)) .obtJw4
    else freeOtmCtx t o (-1)

/-- get doxm -/
def obtJw4 : Option Tool := obtJw t userData a fun o => request t go o (.get .doxm) .obtJw5

/-- store the uuid of the device; post acl rowneruuid -/
def obtJw5 : Option Tool :=
  obtJw t userData a fun o =>
    (t.device? o.device).bind fun _ =>
      let t := t.setUuid o.device (parseDeviceuuid junk a.payload)
      request t go o (.post .acl2 (rownerRep u)) .obtJw6

/-- post cred rowneruuid, cred.  The key has been stored when the request is sent; a key that could not
be derived leaves the bytes of the allocator, zero here. -/
def obtJw6 : Option Tool :=
  obtJw t userData a fun o =>
    (t.device? o.device).bind fun dev =>
      let c := ocSecAllocateCred dev.uuid credtypePsk .null
      match derive oxmJustWorks dev.uuid u with
      | none => freeOtmCtx { t with creds := t.creds ++
          [{ c with privatedata := ⟨List.replicate 16 0, .unsupported⟩ }] } o (-1)
      | some key =>
        let c := { c with
          privatedata := ⟨key, .unsupported⟩
          credid := if go = .notBegun then 0 else t.id + 1 }
        let t : Tool := { t with creds := t.creds ++ [c], id := t.id + 1 }
        request t go o (.post .cred (ownerCredRep u)) .obtJw7

/-- post pstat rowneruuid -/
def obtJw7 : Option Tool :=
  obtJw t userData a fun o => request t go o (.post .pstat (rownerRep u)) .obtJw8

/-- post doxm owned = true -/
def obtJw8 : Option Tool :=
  obtJw t userData a fun o => request t go o (.post .doxm ownedRep) .obtJw9

/-- post pstat s=rfpro -/
def obtJw9 : Option Tool :=
  obtJw t userData a fun o => request t go o (.post .pstat (dosRep 2)) .obtJw10

/-- get pstat s=rfpro? -/
def obtJw10 : Option Tool := obtJw t userData a fun o => request t go o (.get .pstat) .obtJw11

/-- post pstat s=rfnop -/
def obtJw11 : Option Tool :=
  obtJw t userData a fun o =>
    if parseDos a.payload = .rfpro then request t go o (.post .pstat (dosRep 3)) .obtJw12
    else freeOtmCtx t o (-1)

/-- close the session; get pstat s=rfnop? -/
def obtJw12 : Option Tool := obtJw t userData a fun o => request t go o (.get .pstat) .obtJw13

/-- the end -/
def obtJw13 : Option Tool :=
  obtJw t userData a fun o =>
    if parseDos a.payload = .rfnop then freeOtmCtx t o 0 else freeOtmCtx t o (-1)

/-- the response to a request is handed to its callback -/
def respond : Callback → Option Tool
  | .obtJw2 => obtJw2 t userData a go
  | .obtJw3 => obtJw3 u t userData a go
  | .obtJw4 => obtJw4 t userData a go
  | .obtJw5 => obtJw5 u junk t userData a go
  | .obtJw6 => obtJw6 u derive t userData a go
  | .obtJw7 => obtJw7 u t userData a go
  | .obtJw8 => obtJw8 t userData a go
  | .obtJw9 => obtJw9 t userData a go
  | .obtJw10 => obtJw10 t userData a go
  | .obtJw11 => obtJw11 t userData a go
  | .obtJw12 => obtJw12 t userData a go
  | .obtJw13 => obtJw13 t userData a

end

/-- `oc_obt_perform_just_works_otm`, which has been given the memory at `addr` -/
def ocObtPerformJustWorksOtm (t : Tool) (uuid : Uuid) (cb addr : Nat) (go : Sending) : Int × Tool :=
  if ownedDevice uuid t.creds then (-1, t)
  else match getDeviceHandle uuid t.cache with
    | none => (-1, t)
    | some dev =>
      if go = .sent then
        (0, { t with
          sent := t.sent ++ [⟨.post .pstat (dosRep 0), .obtJw2, addr⟩]
          otms := t.otms ++ [⟨addr, cb, dev.addr⟩]
          timers := t.timers ++ [addr] })
      else (-1, t)

/-- `obt_check_owned`, up to the request for the endpoints; a new device goes to `addr` -/
def obtCheckOwned (u junk : Uuid) (t : Tool) (a : Answer) (addr : Nat) : Tool :=
  let uuid := parseDeviceuuid junk a.payload
  if a.failed then t
  else match parseOwned a.payload with
    | none => t
    | some owned =>
      if u = uuid then t
      else if ¬ owned then { t with cache := cacheDeviceIfNotKnown t.cache uuid addr }
      else if ¬ ownedDevice uuid t.creds then t
      else { t with devices := cacheDeviceIfNotKnown t.devices uuid addr }

/-! ## the tool and its devices -/

/-- the tool, the stack it talks to, and the responses given so far -/
structure Net where
  tool : Tool
  stack : State
  answers : List (Sent × Answer)

/-- what may happen next.  `serve` and `respond` take any request and any response there has been, `fail`
hands over an error that does not come from the stack. -/
inductive Step where
  | found (a : Answer) (junk : Uuid) (addr : Nat)
  | start (uuid : Uuid) (cb addr : Nat) (go : Sending)
  | serve (i : Nat) (tls : Tls) (endpoint : Coap.Endpoint)
  | fail (i : Nat) (a : Answer)
  | respond (i : Nat) (derive : Bytes → Uuid → Uuid → Option Bytes) (junk : Uuid) (go : Sending)
  | expire (addr : Nat)

/-- a step of the tool with id `u`, or of the stack; memory that is in use is not handed out -/
def Net.step (pf : Platform) (u : Uuid) (n : Net) : Step → Option Net
  | .found a junk addr =>
    if (n.tool.device? addr).isSome then some n
    else some { n with tool := obtCheckOwned u junk n.tool a addr }
  | .start uuid cb addr go =>
    if n.tool.otms.any (·.addr = addr) then some n
    else some { n with tool := (ocObtPerformJustWorksOtm n.tool uuid cb addr go).2 }
  | .serve i tls endpoint =>
    match n.tool.sent[i]? with
    | none => some n
    | some m =>
      let r := serve pf tls n.stack endpoint m.request
      some { n with stack := r.2, answers := n.answers ++ [(m, r.1)] }
  | .fail i a =>
    match n.tool.sent[i]? with
    | none => some n
    | some m => if a.failed then some { n with answers := n.answers ++ [(m, a)] } else some n
  | .respond i derive junk go =>
    match n.answers[i]? with
    | none => some n
    | some x => (respond u junk derive n.tool x.1.userData x.2 go x.1.callback).map fun t =>
        { n with tool := t }
  | .expire addr =>
    if addr ∈ n.tool.timers then
      (otmRequestTimeoutCb n.tool addr).map fun t => { n with tool := t }
    else some n

/-- before anything has been sent -/
def Tool.fresh (creds : List Cred) (id : Int) : Tool := ⟨[], [], [], [], creds, id, [], []⟩

/-- the state of a tool that has sent nothing, and of devices that have just been initialized -/
def Net.initial (pf : Platform) (creds : List Cred) (id : Int) : Net :=
  ⟨Tool.fresh creds id, initState pf, []⟩

/-! ## attempts without losses -/

/-- the steps of an exchange -/
def exchange (tls : Tls) (endpoint : Coap.Endpoint) (derive : Bytes → Uuid → Uuid → Option Bytes)
    (junk : Uuid) (i j : Nat) : List Step :=
  [.serve i tls endpoint, .respond j derive junk .sent]

/-- exchanges one after another -/
def exchanges (tls : Tls) (endpoint : Coap.Endpoint) (derive : Bytes → Uuid → Uuid → Option Bytes)
    (junk : Uuid) (i j : Nat) : Nat → List Step
  | 0 => []
  | m + 1 => exchange tls endpoint derive junk i j ++ exchanges tls endpoint derive junk (i + 1) (j + 1) m

/-- an attempt whose requests and responses all arrive at once -/
def attempt (tls : Tls) (endpoint : Coap.Endpoint) (derive : Bytes → Uuid → Uuid → Option Bytes)
    (junk uuid : Uuid) (cb addr i j : Nat) : List Step :=
  .start uuid cb addr .sent :: exchanges tls endpoint derive junk i j 12

/-! ## a network to run steps on -/

def demoPlatform : Platform := servedPlatform 1

def demoUuid : Uuid := Uuid.nil.set 0 0xA0

def demoTls : Tls := ⟨[], fun _ => true⟩

def demoEndpoint : Coap.Endpoint := ⟨0, ⟨false, true, true, false, false, false, false⟩, 5684, [10, 0, 0, 2]⟩

def demoDevice : Uuid := ((initState demoPlatform).device 0).doxm.deviceuuid

/-- the device is found -/
def demoFound : Step := .found ⟨.ok, ocSecEncodeDoxm ((initState demoPlatform).device 0).doxm⟩ Uuid.nil 5

/-- an attempt for it -/
def demoSteps : List Step := demoFound ::
  attempt demoTls demoEndpoint demoPlatform.deriveOwnerPsk Uuid.nil demoDevice 77 1 0 0

end Obt
