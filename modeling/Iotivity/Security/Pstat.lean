import Iotivity.Security.Cred

/-!
# Ownership, provisioning status and security profile: `oc_doxm.c`, `oc_pstat.c`, `oc_sp.c`

`oc_pstat_handle_state` gets a pointer to a `pstat` record, changes the record as it goes, and stores
it as the status of the device at the end; the record it leaves is part of its result here, since
`oc_sec_reset` passes the same one on to the next device.

`Request` are the POST and DELETE requests to the security resources, `step` their handlers.
-/

namespace Security

/-! ## doxm -/

/-- `oc_core_regen_unique_ids`; the other two ids it draws are not kept -/
def ocCoreRegenUniqueIds (pf : Platform) (dev : Device) (draws : Nat) : Device × Nat :=
  let id := ocGenUuid (pf.random draws)
  ({ dev with doxm := { dev.doxm with deviceuuid := id }, di := id }, draws + 3)

/-- `oc_sec_doxm_default` -/
def ocSecDoxmDefault (pf : Platform) (dev : Device) (draws : Nat) : Device × Nat :=
  ocCoreRegenUniqueIds pf { dev with
    doxm := ⟨0, 9, false, dev.doxm.deviceuuid, Uuid.nil, Uuid.nil⟩ } draws

/-- the first pass of `oc_sec_decode_doxm` -/
def doxmPropOk (fromStorage : Bool) (s : Dos) (t : Rep) : Bool :=
  match t.value with
  | .bool _ => t.named "owned" ∧ (fromStorage ∨ s = .rfotm)
  | .int _ =>
    (t.named "oxmsel" ∧ (fromStorage ∨ s = .rfotm)) ∨
      (¬ t.named "oxmsel" ∧ fromStorage ∧ t.named "sct")
  | .string _ =>
    if t.named "deviceuuid" then fromStorage ∨ s = .rfotm
    else if t.named "devowneruuid" then fromStorage ∨ s = .rfotm
    else if t.named "rowneruuid" then fromStorage ∨ s = .rfotm ∨ s = .sreset
    else false
  | .intArray _ => ¬ (¬ fromStorage ∧ t.named "oxms")
  | _ => t.named "rt" ∨ t.named "if" ∨ t.named "oxms"

/-- the second pass on one property -/
def applyDoxmProp (pf : Platform) (fromStorage : Bool) (x : Device × Nat) (rep : Rep) :
    Device × Nat :=
  let dev := x.1
  let doxm := dev.doxm
  match rep.value with
  | .bool b => if rep.named "owned" then ({ dev with doxm := { doxm with owned := b } }, x.2) else x
  | .int n =>
    if rep.named "oxmsel" then ({ dev with doxm := { doxm with oxmsel := n } }, x.2)
    else if fromStorage ∧ rep.named "sct" then ({ dev with doxm := { doxm with sct := n } }, x.2)
    else x
  | .string s =>
    if rep.named "deviceuuid" then
      let id := ocStrToUuid s doxm.deviceuuid
      ({ dev with doxm := { doxm with deviceuuid := id }, di := id }, x.2)
    else if rep.named "devowneruuid" then
      let id := ocStrToUuid s doxm.devowneruuid
      let dev := { dev with doxm := { doxm with devowneruuid := id } }
      if ¬ fromStorage ∧ ¬ nilUuid id then ocCoreRegenUniqueIds pf dev x.2 else (dev, x.2)
    else if rep.named "rowneruuid" then
      ({ dev with doxm := { doxm with rowneruuid := ocStrToUuid s doxm.rowneruuid } }, x.2)
    else x
  | _ => x

/-- `oc_sec_decode_doxm` -/
def ocSecDecodeDoxm (pf : Platform) (s : State) (rep : List Rep) (fromStorage : Bool)
    (device : Nat) : Bool × State :=
  let dev := s.device device
  if rep.all (doxmPropOk fromStorage dev.pstat.s) then
    let x := rep.foldl (applyDoxmProp pf fromStorage) (dev, s.draws)
    (true, { s.put device x.1 with draws := x.2 })
  else (false, s)

/-- the doxm and the device id are all that a doxm payload changes -/
theorem applyDoxmProp_frame (pf : Platform) (fromStorage : Bool) (x : Device × Nat) (rep : Rep) :
    ∃ doxm di, (applyDoxmProp pf fromStorage x rep).1 = { x.1 with doxm := doxm, di := di } := by
  unfold applyDoxmProp
  dsimp only
  split
  · split
    · exact ⟨_, _, rfl⟩
    · exact ⟨_, _, rfl⟩
  · split
    · exact ⟨_, _, rfl⟩
    · split
      · exact ⟨_, _, rfl⟩
      · exact ⟨_, _, rfl⟩
  · split
    · exact ⟨_, _, rfl⟩
    · split
      · split
        · exact ⟨_, _, rfl⟩
        · exact ⟨_, _, rfl⟩
      · split
        · exact ⟨_, _, rfl⟩
        · exact ⟨_, _, rfl⟩
  · exact ⟨_, _, rfl⟩

theorem foldl_doxm_frame (pf : Platform) (fromStorage : Bool) (rep : List Rep) (x : Device × Nat) :
    ∃ doxm di, (rep.foldl (applyDoxmProp pf fromStorage) x).1 =
      { x.1 with doxm := doxm, di := di } := by
  induction rep generalizing x with
  | nil => exact ⟨_, _, rfl⟩
  | cons t rep ih =>
    obtain ⟨doxm, di, h⟩ := ih (applyDoxmProp pf fromStorage x t)
    obtain ⟨_, _, ht⟩ := applyDoxmProp_frame pf fromStorage x t
    rw [ht] at h
    exact ⟨doxm, di, h⟩

/-! ## `oc_pstat_handle_state` -/

/-- `valid_transition` -/
def validTransition : Dos → Dos → Bool
  | .reset, state => state = .reset ∨ state = .rfotm
  | .rfotm, state => state ≠ .sreset
  | .rfpro, state => state ≠ .rfotm
  | .rfnop, state => state ≠ .rfotm
  | .sreset, state => state ≠ .rfotm ∧ state ≠ .rfnop
  | .other _, _ => true

/-- the test of RFPRO, RFNOP and SRESET; `cm`, `tm` and `isop` have just been set to what the source
then asks of them -/
def provisioned (dev : Device) (ps : Pstat) : Bool :=
  dev.doxm.owned ∧ ¬ nilUuid dev.doxm.devowneruuid ∧ ¬ nilUuid dev.doxm.deviceuuid ∧
  ¬ nilUuid ps.rowneruuid ∧ ¬ nilUuid dev.doxm.rowneruuid ∧
  ¬ nilUuid dev.acl.rowneruuid ∧ ¬ nilUuid dev.creds.rowneruuid ∧
  (ocSecFindCredsForSubject ps.rowneruuid dev.creds.creds).isSome ∧
  (ocSecFindCredsForSubject dev.doxm.rowneruuid dev.creds.creds).isSome ∧
  (ocSecFindCredsForSubject dev.acl.rowneruuid dev.creds.creds).isSome ∧
  (ocSecFindCredsForSubject dev.creds.rowneruuid dev.creds.creds).isSome

/-- the device after the part of RESET that clears its resources -/
def resetDevice (pf : Platform) (device : Nat) (dev : Device) (draws : Nat) : Device × Nat :=
  let x := ocSecDoxmDefault pf dev draws
  ({ x.1 with
    creds := ⟨ocSecClearCreds x.1.creds.creds, Uuid.nil⟩
    acl := ocSecAclDefault pf device
    sp := pf.spMfgDefault device }, x.2)

/-- the state after that part -/
def resetState (pf : Platform) (s : State) (device : Nat) : State :=
  let x := resetDevice pf device (s.device device) s.draws
  { s.put device x.1 with
    clients := ocSecFreeRolesForDevice s.clients device
    setPostOtmAcl := true
    draws := x.2 }

/-- the status stored, at the end -/
def storePstat (s : State) (device : Nat) (ps : Pstat) : Bool × Pstat × State :=
  (true, ps, s.put device { s.device device with pstat := ps })

/-- the case RFOTM -/
def handleRfotm (s : State) (device : Nat) (ps : Pstat) : Bool × Pstat × State :=
  let ps := { ps with p := true, s := .rfotm, cm := 2, tm := 0 }
  let doxm := (s.device device).doxm
  if doxm.owned ∨ ¬ nilUuid doxm.devowneruuid ∨ ps.isop then (false, ps, s)
  else storePstat s device { ps with p := false }

/-- the cases RFPRO, RFNOP and SRESET, which differ in `cm` and `isop` -/
def handleOwned (s : State) (device : Nat) (ps : Pstat) (cm : Int) (isop : Bool) :
    Bool × Pstat × State :=
  let ps := { ps with p := true, cm := cm, tm := 0, isop := isop }
  if provisioned (s.device device) ps then storePstat s device { ps with p := false }
  else (false, ps, s)

/-- `oc_pstat_handle_state`: its answer, `*ps` and the state -/
def ocPstatHandleState (pf : Platform) (s : State) (device : Nat) (ps : Pstat) :
    Bool × Pstat × State :=
  match ps.s with
  | .reset =>
    -- falls through to RFOTM
    handleRfotm (resetState pf s device) device
      { ps with p := false, isop := false, cm := 1, tm := 2, om := 3, sm := 4, rowneruuid := Uuid.nil }
  | .rfotm => handleRfotm s device ps
  | .rfpro => handleOwned s device ps 0 false
  | .rfnop => handleOwned s device ps 0 true
  | .sreset => handleOwned s device ps 1 false
  | .other _ => (false, ps, s)

/-- `oc_sec_pstat_default` -/
def ocSecPstatDefault (pf : Platform) (s : State) (device : Nat) : State :=
  (ocPstatHandleState pf s device { (s.device device).pstat with s := .reset }).2.2

/-- `oc_sec_reset`: one record for all devices -/
def ocSecReset (pf : Platform) (s : State) : State :=
  ((List.range pf.numDevices).foldl (fun x device =>
    let r := ocPstatHandleState pf x.2 device x.1
    (r.2.1, r.2.2)) (Device.zero.pstat, s)).2

/-! ## `oc_sec_decode_pstat` -/

/-- the copy of the status and `transition_state` -/
structure PstatDraft where
  ps : Pstat
  transition : Bool

/-- a property of `dos` -/
def decodeDos (fromStorage : Bool) (x : PstatDraft) (dos : Rep) : Option PstatDraft :=
  match dos.value with
  | .int n => if dos.named "s" then some ⟨{ x.ps with s := Dos.ofInt n }, true⟩ else none
  | _ => if ¬ fromStorage ∧ dos.named "p" then none else some x

/-- `memcmp(oc_string(rep->name), key, 2) == 0`: the first two characters -/
def startsWith (rep : Rep) (key : String) : Bool := rep.name.take 2 = ascii key

/-- a property of the payload -/
def decodePstatProp (fromStorage : Bool) (x : PstatDraft) (rep : Rep) : Option PstatDraft :=
  match rep.value with
  | .object dos => if rep.named "dos" then dos.foldlM (decodeDos fromStorage) x else none
  | .bool b =>
    if fromStorage ∧ rep.named "isop" then some { x with ps := { x.ps with isop := b } } else none
  | .int n =>
    if fromStorage ∧ startsWith rep "cm" then some { x with ps := { x.ps with cm := n } }
    else if startsWith rep "tm" then some { x with ps := { x.ps with tm := n } }
    else if startsWith rep "om" then some { x with ps := { x.ps with om := n } }
    else if fromStorage ∧ startsWith rep "sm" then some { x with ps := { x.ps with sm := n } }
    else none
  | .string s =>
    if (fromStorage ∨ (x.ps.s ≠ .rfpro ∧ x.ps.s ≠ .rfnop)) ∧ rep.named "rowneruuid" then
      some { x with ps := { x.ps with rowneruuid := ocStrToUuid s x.ps.rowneruuid } }
    else none
  | _ => if rep.named "rt" ∨ rep.named "if" then some x else none

/-- the clean-up after the first RFNOP -/
def postOtm (s : State) (device : Nat) : State :=
  let dev := s.device device
  { s.put device { dev with acl :=
      { dev.acl with subjects := ocSecSetPostOtmAcl dev.acl.subjects } } with
    setPostOtmAcl := false }

/-- `oc_sec_decode_pstat` -/
def ocSecDecodePstat (pf : Platform) (s : State) (rep : List Rep) (fromStorage : Bool)
    (device : Nat) : Bool × State :=
  match rep.foldlM (decodePstatProp fromStorage) ⟨(s.device device).pstat, false⟩ with
  | none => (false, s)
  | some x =>
    if fromStorage ∨ validTransition (s.device device).pstat.s x.ps.s then
      if ¬ fromStorage ∧ x.transition then
        let r := ocPstatHandleState pf s device x.ps
        if r.1 ∧ r.2.1.s = .rfnop ∧ r.2.2.setPostOtmAcl then (r.1, postOtm r.2.2 device)
        else (r.1, r.2.2)
      else (true, s.put device { s.device device with pstat := x.ps })
    else (false, s)

/-! ## `oc_sec_decode_sp` -/

/-- `string_to_sp` -/
def stringToSp (s : Bytes) : UInt32 :=
  if cstr s = ascii "1.3.6.1.4.1.51414.0.0.1.0" then 2
  else if cstr s = ascii "1.3.6.1.4.1.51414.0.0.2.0" then 4
  else if cstr s = ascii "1.3.6.1.4.1.51414.0.0.3.0" then 8
  else if cstr s = ascii "1.3.6.1.4.1.51414.0.0.4.0" then 16
  else 0

/-- a property of the payload, stored at once -/
def decodeSpProp (rep : Rep) (sp : Sp) : Bool × Sp :=
  match rep.value with
  | .string s =>
    if rep.named "currentprofile" then
      if stringToSp s &&& sp.supportedProfiles = 0 then (false, sp)
      else (true, { sp with currentProfile := stringToSp s })
    else (true, sp)
  | .stringArray ss =>
    if rep.named "supportedprofiles" then
      (true, { sp with supportedProfiles := ss.foldl (fun p s => p ||| stringToSp s) 0 })
    else (true, sp)
  | .int n => if rep.named "credid" then (true, { sp with credid := n }) else (true, sp)
  | _ => (false, sp)

/-- `oc_sec_decode_sp` -/
def ocSecDecodeSp (s : State) (rep : List Rep) (device : Nat) : Bool × State :=
  let dev := s.device device
  if dev.pstat.s = .rfnop then (false, s)
  else
    let x := runUntil decodeSpProp rep dev.sp
    (x.1, s.put device { dev with sp := x.2 })

/-! ## requests -/

/-- the POST and DELETE requests to the security resources of a device -/
inductive Request where
  | postPstat (device : Nat) (rep : List Rep)
  | postDoxm (device : Nat) (rep : List Rep)
  | postAcl (device : Nat) (rep : List Rep)
  | deleteAcl (device : Nat) (aceid : Option Int)
  | postCred (device : Nat) (rep : List Rep)
  | deleteCred (device : Nat) (credid : Option Int)
  | postRoles (device : Nat) (client : Peer) (rep : List Rep)
  | deleteRoles (device : Nat) (client : Nat) (credid : Option Int)
  | postSp (device : Nat) (rep : List Rep)

/-- the handler of a request -/
def step (pf : Platform) (s : State) : Request → State
  | .postPstat device rep => (ocSecDecodePstat pf s rep false device).2
  | .postDoxm device rep => (ocSecDecodeDoxm pf s rep false device).2
  | .postAcl device rep => (ocSecDecodeAcl pf s rep false device).2
  | .deleteAcl device aceid => deleteAcl s device aceid
  | .postCred device rep => postCred pf s device none rep
  | .deleteCred device credid => deleteCred s device credid
  | .postRoles device client rep => postCred pf s device (some client) rep
  | .deleteRoles _ client credid => deleteRoles s client credid
  | .postSp device rep => (ocSecDecodeSp s rep device).2

/-- the handlers of a sequence of requests -/
def run (pf : Platform) (s : State) (reqs : List Request) : State := reqs.foldl (step pf) s

/-- `oc_main_init` with nothing stored: every device takes its defaults -/
def initState (pf : Platform) : State :=
  (List.range pf.numDevices).foldl (ocSecPstatDefault pf) State.zero

end Security
