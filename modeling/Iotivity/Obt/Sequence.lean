import Iotivity.Obt.Transfer
import Iotivity.Security.Defaults

/-!
# The requests of the sequence, one after another, on a device

What each request does to a device that has had those before it, in the order of the sequence.

* `At`                        one device of the stack;
* `reset_at`, `owner_at`, …   the state behind each request.
-/

namespace Obt
open Security

/-- one device of a stack, with the flag set and the number of draws -/
structure At (s : State) (d : Nat) (dev : Device) (draws : Nat) : Prop where
  dev : s.device d = dev
  flag : s.setPostOtmAcl = true
  draws : s.draws = draws

variable {pf : Platform} {s : State} {d : Nat} {dev : Device} {k : Nat} {u : Uuid}

/-- the texts of the tool's uuid are read back -/
theorem read_uuid (u v : Uuid) : ocStrToUuid (cstr (ocUuidToStr u)) v = u := by
  rw [cstr_ocUuidToStr, ocStrToUuid_ocUuidToStr]

/-- a random id has its version -/
theorem ocGenUuid_ne_nil (r : Uuid) : ocGenUuid r ≠ Uuid.nil := by
  intro h
  have h6 : (ocGenUuid r).id.getD 6 0 = (r.id.getD 6 0 &&& 0x0f) ||| 0x40 := by
    show (List.set _ 6 _).getD 6 0 = _
    rw [List.getD_eq_getElem?_getD, List.getElem?_set_self (by rw [Uuid.length_id]; decide)]
    rfl
  rw [h] at h6
  have h0 : (0 : UInt8) = (r.id.getD 6 0 &&& 0x0f) ||| 0x40 := h6
  exact absurd (UInt8.or_eq_zero_iff.mp h0.symm).2 (by decide)

theorem At.put (h : At s d dev k) (dev' : Device) : At (s.put d dev') d dev' k :=
  ⟨State.put_device s d dev', h.flag, h.draws⟩

/-! ## doxm -/

/-- a text that reads as an owner of the resource -/
theorem applyDoxm_rowner (x : Device × Nat) :
    applyDoxmProp pf false x (textProp "rowneruuid" (ocUuidToStr u)) =
      ({ x.1 with doxm := { x.1.doxm with rowneruuid := u } }, x.2) := by
  have h : applyDoxmProp pf false x (textProp "rowneruuid" (ocUuidToStr u)) =
      ({ x.1 with doxm := { x.1.doxm with
        rowneruuid := ocStrToUuid (cstr (ocUuidToStr u)) x.1.doxm.rowneruuid } }, x.2) := rfl
  rw [h, read_uuid]

/-- a text that reads as an owner of the device: it gets new ids -/
theorem applyDoxm_devowner (hu : u ≠ Uuid.nil) (x : Device × Nat) :
    applyDoxmProp pf false x (textProp "devowneruuid" (ocUuidToStr u)) =
      ({ x.1 with
          doxm := { x.1.doxm with devowneruuid := u, deviceuuid := ocGenUuid (pf.random x.2) }
          di := ocGenUuid (pf.random x.2) }, x.2 + 3) := by
  have h : applyDoxmProp pf false x (textProp "devowneruuid" (ocUuidToStr u)) =
      (let id := ocStrToUuid (cstr (ocUuidToStr u)) x.1.doxm.devowneruuid
        let dev := { x.1 with doxm := { x.1.doxm with devowneruuid := id } }
        if ¬ false ∧ ¬ nilUuid id then ocCoreRegenUniqueIds pf dev x.2 else (dev, x.2)) := rfl
  rw [h, read_uuid]
  dsimp only
  rw [if_pos ⟨Bool.false_ne_true, fun hc => hu ((nilUuid_iff u).mp hc)⟩]
  rfl

variable (pf) in
theorem owner_at (hu : u ≠ Uuid.nil) (h : At s d dev k) (hs : dev.pstat.s = .rfotm) :
    (ocSecDecodeDoxm pf s (ownerRep u) false d).1 = true ∧
      At (ocSecDecodeDoxm pf s (ownerRep u) false d).2 d
        { dev with
          doxm := { dev.doxm with
            oxmsel := 0, rowneruuid := u, devowneruuid := u
            deviceuuid := ocGenUuid (pf.random k) }
          di := ocGenUuid (pf.random k) } (k + 3) := by
  have hok : (ownerRep u).all (doxmPropOk false (s.device d).pstat.s) = true := by
    rw [h.dev, hs]
    rfl
  unfold ocSecDecodeDoxm
  dsimp only
  rw [if_pos hok, h.dev, h.draws]
  unfold ownerRep
  rw [List.foldl_cons, List.foldl_cons, List.foldl_cons, List.foldl_nil, applyDoxm_rowner,
    applyDoxm_devowner hu]
  exact ⟨rfl, State.put_device s d _, h.flag, rfl⟩

variable (pf) in
theorem owned_at (h : At s d dev k) (hs : dev.pstat.s = .rfotm) :
    (ocSecDecodeDoxm pf s ownedRep false d).1 = true ∧
      At (ocSecDecodeDoxm pf s ownedRep false d).2 d
        { dev with doxm := { dev.doxm with owned := true } } k := by
  have hok : ownedRep.all (doxmPropOk false (s.device d).pstat.s) = true := by
    rw [h.dev, hs]
    rfl
  unfold ocSecDecodeDoxm
  dsimp only
  rw [if_pos hok, h.dev, h.draws]
  exact ⟨rfl, State.put_device s d _, h.flag, rfl⟩

/-! ## acl2 -/

variable (pf u) in
theorem acl_at (h : At s d dev k) (hs : dev.pstat.s = .rfotm) :
    (ocSecDecodeAcl pf s (rownerRep u) false d).1 = true ∧
      At (ocSecDecodeAcl pf s (rownerRep u) false d).2 d
        { dev with acl := { dev.acl with rowneruuid := u } } k := by
  have hok : (rownerRep u).all (aclPropOk false (s.device d).pstat.s) = true := by
    rw [h.dev, hs]
    rfl
  have hx : (rownerRep u).foldl (applyAclProp pf) (dev.acl, k) =
      ({ dev.acl with rowneruuid := ocStrToUuid (cstr (ocUuidToStr u)) dev.acl.rowneruuid }, k) := rfl
  unfold ocSecDecodeAcl
  dsimp only
  rw [if_pos hok, h.dev, h.draws, hx, read_uuid]
  exact ⟨rfl, State.put_device s d _, h.flag, rfl⟩

/-! ## pstat -/

variable (pf u) in
theorem rowner_at (h : At s d dev k) (hs : dev.pstat.s = .rfotm) :
    (ocSecDecodePstat pf s (rownerRep u) false d).1 = true ∧
      At (ocSecDecodePstat pf s (rownerRep u) false d).2 d
        (dev.withPstat { dev.pstat with rowneruuid := u }) k := by
  have hg : (false = true ∨ (s.device d).pstat.s ≠ .rfpro ∧ (s.device d).pstat.s ≠ .rfnop) := by
    rw [h.dev, hs]
    exact Or.inr ⟨Dos.noConfusion, Dos.noConfusion⟩
  have hx : (rownerRep u).foldlM (decodePstatProp false) ⟨(s.device d).pstat, false⟩ =
      some ⟨{ (s.device d).pstat with rowneruuid := u }, false⟩ := by
    have hp : decodePstatProp false ⟨(s.device d).pstat, false⟩ (textProp "rowneruuid" (ocUuidToStr u)) =
        some ⟨{ (s.device d).pstat with
          rowneruuid := ocStrToUuid (cstr (ocUuidToStr u)) (s.device d).pstat.rowneruuid }, false⟩ :=
      if_pos ⟨hg, rfl⟩
    rw [read_uuid] at hp
    unfold rownerRep
    rw [List.foldlM_cons, hp]
    rfl
  have hv : validTransition (s.device d).pstat.s (s.device d).pstat.s = true := by
    rw [h.dev, hs]
    rfl
  unfold ocSecDecodePstat
  rw [hx]
  dsimp only
  rw [if_pos (Or.inr hv), if_neg fun hc => Bool.false_ne_true hc.2, h.dev]
  exact ⟨rfl, h.put _⟩

/-- a request for a state: the handler is called -/
theorem dos_at (n : Int) (hv : validTransition (s.device d).pstat.s (Dos.ofInt n) = true) :
    ocSecDecodePstat pf s (dosRep n) false d =
      (let r := ocPstatHandleState pf s d { (s.device d).pstat with s := Dos.ofInt n }
        if r.1 ∧ r.2.1.s = .rfnop ∧ r.2.2.setPostOtmAcl then (r.1, postOtm r.2.2 d)
        else (r.1, r.2.2)) := by
  have hx : (dosRep n).foldlM (decodePstatProp false) ⟨(s.device d).pstat, false⟩ =
      some ⟨{ (s.device d).pstat with s := Dos.ofInt n }, true⟩ := rfl
  unfold ocSecDecodePstat
  rw [hx]
  dsimp only
  rw [if_pos (Or.inr hv), if_pos ⟨Bool.false_ne_true, rfl⟩]

/-- the device behind a RESET -/
def resetDev (pf : Platform) (d : Nat) (dev : Device) (draws : Nat) : Device :=
  (resetDevice pf d dev draws).1.withPstat rfotmPstat

theorem reset_at (pf : Platform) (s : State) (d : Nat) :
    (ocSecDecodePstat pf s (dosRep 0) false d).1 = true ∧
      At (ocSecDecodePstat pf s (dosRep 0) false d).2 d (resetDev pf d (s.device d) s.draws)
        (s.draws + 3) := by
  have hv : validTransition (s.device d).pstat.s (Dos.ofInt 0) = true := by
    cases (s.device d).pstat.s <;> rfl
  rw [dos_at 0 hv, handle_reset rfl]
  dsimp only
  rw [if_neg fun hc => Dos.noConfusion hc.2.1]
  refine ⟨rfl, ?_, rfl, rfl⟩
  rw [State.put_device]
  show ((s.put d (resetDevice pf d (s.device d) s.draws).1).device d).withPstat rfotmPstat = _
  rw [State.put_device]
  rfl

/-- what the handler asks for, of a device whose owner is `u` everywhere -/
structure Ready (u : Uuid) (dev : Device) : Prop where
  owned : dev.doxm.owned = true
  devowneruuid : dev.doxm.devowneruuid = u
  deviceuuid : dev.doxm.deviceuuid ≠ Uuid.nil
  doxm : dev.doxm.rowneruuid = u
  pstat : dev.pstat.rowneruuid = u
  acl : dev.acl.rowneruuid = u
  creds : dev.creds.rowneruuid = u
  known : dev.Knows u

theorem Ready.provisioned (hu : u ≠ Uuid.nil) (h : Ready u dev) {ps : Pstat}
    (hp : ps.rowneruuid = dev.pstat.rowneruuid) : provisioned dev ps = true := by
  have hn : ∀ {v : Uuid}, v ≠ Uuid.nil → ¬ nilUuid v = true := fun hv hc => hv ((nilUuid_iff _).mp hc)
  have hk : (ocSecFindCredsForSubject u dev.creds.creds).isSome = true := by
    obtain ⟨c, hc, hs⟩ := h.known
    exact List.find?_isSome.mpr ⟨c, hc, decide_eq_true hs⟩
  unfold Security.provisioned
  rw [hp, h.pstat, h.doxm, h.acl, h.creds, h.devowneruuid, hk]
  exact decide_eq_true ⟨h.owned, hn hu, hn h.deviceuuid, hn hu, hn hu, hn hu, hn hu, rfl, rfl, rfl, rfl⟩

/-- the status in a state that needs an owner -/
def ownedPstat (ps : Pstat) (st : Dos) (isop : Bool) : Pstat :=
  { ps with s := st, p := false, cm := 0, tm := 0, isop := isop }

variable (pf) in
theorem rfpro_at (hu : u ≠ Uuid.nil) (h : At s d dev k) (hs : dev.pstat.s = .rfotm)
    (hr : Ready u dev) :
    (ocSecDecodePstat pf s (dosRep 2) false d).1 = true ∧
      At (ocSecDecodePstat pf s (dosRep 2) false d).2 d
        (dev.withPstat (ownedPstat dev.pstat .rfpro false)) k := by
  have hv : validTransition (s.device d).pstat.s (Dos.ofInt 2) = true := by
    rw [h.dev, hs]
    rfl
  have hh : ocPstatHandleState pf s d { (s.device d).pstat with s := Dos.ofInt 2 } =
      storePstat s d (ownedPstat dev.pstat .rfpro false) := by
    show (if _ then _ else _) = _
    rw [h.dev]
    exact if_pos (hr.provisioned hu rfl)
  rw [dos_at 2 hv, hh]
  unfold storePstat
  dsimp only
  rw [if_neg fun hc => Dos.noConfusion hc.2.1, h.dev]
  exact ⟨rfl, h.put _⟩

variable (pf) in
theorem rfnop_at (hu : u ≠ Uuid.nil) (h : At s d dev k) (hs : dev.pstat.s = .rfpro)
    (hr : Ready u dev) :
    (ocSecDecodePstat pf s (dosRep 3) false d).1 = true ∧
      (ocSecDecodePstat pf s (dosRep 3) false d).2.device d =
        { dev with
          pstat := ownedPstat dev.pstat .rfnop true
          acl := { dev.acl with subjects := ocSecSetPostOtmAcl dev.acl.subjects } } := by
  have hv : validTransition (s.device d).pstat.s (Dos.ofInt 3) = true := by
    rw [h.dev, hs]
    rfl
  have hh : ocPstatHandleState pf s d { (s.device d).pstat with s := Dos.ofInt 3 } =
      storePstat s d (ownedPstat dev.pstat .rfnop true) := by
    show (if _ then _ else _) = _
    rw [h.dev]
    exact if_pos (hr.provisioned hu rfl)
  rw [dos_at 3 hv, hh]
  unfold storePstat
  dsimp only
  rw [if_pos ⟨rfl, rfl, h.flag⟩, h.dev]
  refine ⟨rfl, ?_⟩
  show ((s.put d _).put d _).device d = _
  rw [State.put_device, State.put_device]

/-! ## cred -/

/-- the credential of the owner as the device stores it -/
def ownerCred (u : Uuid) (credid : Int) (key : CredData) : Cred where
  role := []
  authority := []
  privatedata := key
  publicdata := CredData.none
  credusage := .null
  chain := none
  child := none
  credid := credid
  credtype := credtypePsk
  subjectuuid := u

/-- the draft that the payload makes -/
def ownerDraft (u : Uuid) : CredDraft :=
  { CredDraft.empty with
    credtype := credtypePsk
    subjectuuid := some (cstr (ocUuidToStr u))
    privatedata := ⟨[], .raw⟩ }

theorem ownerDraft_subject (u : Uuid) : (ownerDraft u).subject = some u := by
  show some (if (cstr (ocUuidToStr u)).head? = some 42 then Uuid.wildcard
    else ocStrToUuid (cstr (ocUuidToStr u)) Uuid.nil) = _
  rw [read_uuid, cstr_ocUuidToStr, if_neg (head_ocUuidToStr u)]

/-- the search for a key finds nothing, or one that it replaces -/
theorem searchCreds_key {dr : CredDraft} (h : dr.credtype ≠ credtypeCert) (subject : Uuid) (i : Nat)
    (l : List Cred) :
    searchCreds dr subject i l = .fresh ∨ ∃ j, searchCreds dr subject i l = .replaced j := by
  induction l generalizing i with
  | nil => exact Or.inl rfl
  | cons c l ih =>
    unfold searchCreds
    split
    · split
      · exact Or.inr ⟨i, rfl⟩
      · rw [if_neg fun hc => h hc.1]
        exact ih (i + 1)
    · exact ih (i + 1)

variable (pf u) in
/-- a new key goes to the end of the list, under an id of its own -/
theorem addOwner (device : Nat) (di : Uuid) (creds : List Cred) (draws : Nat) :
    ∃ l id, l.Sublist creds ∧ 0 ≤ id ∧ (∀ c ∈ l, c.credid ≠ id) ∧
      addDeviceCred pf device di (ownerDraft u) creds draws =
        (id, l ++ [ownerCred u id CredData.none], draws + 1) := by
  have hstore : ∀ l : List Cred, l.Sublist creds →
      ∃ l' id, l'.Sublist creds ∧ 0 ≤ id ∧ (∀ c ∈ l', c.credid ≠ id) ∧
        storeCred pf (ownerDraft u) u none l draws = (id, l' ++ [ownerCred u id CredData.none], draws + 1) := by
    intro l hl
    refine ⟨l, pf.newId draws (l.map Cred.credid ++ [0]), hl, pf.newId_nonneg _ _, fun c hc he => ?_, rfl⟩
    exact pf.newId_not_mem draws _ (List.mem_append_left _ (List.mem_map.mpr ⟨c, hc, he⟩))
  unfold addDeviceCred
  rw [ownerDraft_subject]
  dsimp only
  rw [if_neg fun hc => Bool.false_ne_true hc.1]
  have hr : (ocSecRemoveCredByCredid (ownerDraft u).credid creds).Sublist creds := List.eraseP_sublist
  rcases searchCreds_key (show (ownerDraft u).credtype ≠ credtypeCert from
      show credtypePsk ≠ credtypeCert by decide) u 0
    (ocSecRemoveCredByCredid (ownerDraft u).credid creds) with hx | ⟨j, hx⟩
  · rw [hx]
    exact hstore _ hr
  · rw [hx]
    exact hstore _ ((List.eraseIdx_sublist _ _).trans hr)

theorem cred_at (h : At s d dev k) (hs : dev.pstat.s = .rfotm) (ho : dev.doxm.oxmsel = 0) {key : Bytes}
    (hk : pf.deriveOwnerPsk oxmJustWorks dev.doxm.deviceuuid u = some key) :
    ∃ l id, l.Sublist dev.creds.creds ∧ postCredOk pf s d none (ownerCredRep u) = true ∧
      At (postCred pf s d none (ownerCredRep u)) d
        { dev with creds := ⟨l ++ [ownerCred u id ⟨key, .raw⟩], u⟩ } (k + 1) := by
  obtain ⟨l, id, hl, h0, hne, hadd⟩ := addOwner pf u d dev.di dev.creds.creds k
  have hfind : (l ++ [ownerCred u id CredData.none]).find? (·.credid = id) =
      some (ownerCred u id CredData.none) := by
    rw [List.find?_append, List.find?_eq_none.mpr fun c hc => by simpa using hne c hc]
    simp [ownerCred]
  -- the decoder: the credential, and the owner behind it
  have hentry : decodeCredEntry pf d dev.di none
      [.mk (ascii "credtype") (.int 1), textProp "subjectuuid" (ocUuidToStr u),
        .mk (ascii "privatedata") (.object [textProp "encoding" (ascii "oic.sec.encoding.raw")])]
      ⟨dev.creds.creds, dev.creds.rowneruuid, [], k, none⟩ =
      (true, ⟨l ++ [ownerCred u id CredData.none], dev.creds.rowneruuid, [], k + 1, some id⟩) := by
    unfold decodeCredEntry
    rw [show List.foldlM decodeCredProp CredDraft.empty _ = some (ownerDraft u) from rfl]
    dsimp only
    rw [if_neg (by simp)]
    unfold ocSecAddNewCred
    dsimp only
    rw [hadd]
    dsimp only
    rw [if_neg (by omega), hfind]
    rfl
  have hrun : s.credRun d none = ⟨dev.creds.creds, dev.creds.rowneruuid, [], k, none⟩ := by
    unfold State.credRun
    rw [h.dev, h.draws]
  have hcreds : decodeCredRep pf d dev.di none
      (.mk (ascii "creds") (.objectArray [[.mk (ascii "credtype") (.int 1),
        textProp "subjectuuid" (ocUuidToStr u),
        .mk (ascii "privatedata") (.object [textProp "encoding" (ascii "oic.sec.encoding.raw")])]]))
      ⟨dev.creds.creds, dev.creds.rowneruuid, [], k, none⟩ =
      (true, ⟨l ++ [ownerCred u id CredData.none], dev.creds.rowneruuid, [], k + 1, some id⟩) := by
    refine Eq.trans (b := runUntil (decodeCredEntry pf d dev.di none) [[_, _, _]] _) rfl ?_
    rw [runUntil_singleton]
    exact hentry
  have hrow : ∀ r : CredRun, decodeCredRep pf d dev.di none (textProp "rowneruuid" (ocUuidToStr u)) r =
      (true, { r with rowneruuid := u }) := by
    intro r
    have h1 : decodeCredRep pf d dev.di none (textProp "rowneruuid" (ocUuidToStr u)) r =
        (true, { r with rowneruuid := ocStrToUuid (cstr (ocUuidToStr u)) r.rowneruuid }) := rfl
    rw [h1, read_uuid]
  have hrun : s.credRun d none = ⟨dev.creds.creds, dev.creds.rowneruuid, [], k, none⟩ := by
    unfold State.credRun
    rw [h.dev, h.draws]
  have hdec : ocSecDecodeCred pf s (ownerCredRep u) false none d =
      (true, some id, s.afterRun d none
        ⟨l ++ [ownerCred u id CredData.none], u, [], k + 1, some id⟩) := by
    have hok : ((none : Option Peer).isSome ||
        (ownerCredRep u).all (credPropOk false (s.device d).pstat.s)) = true := by
      rw [h.dev, hs]
      rfl
    unfold ocSecDecodeCred
    dsimp only
    rw [if_pos hok, hrun, h.dev]
    unfold ownerCredRep
    rw [runUntil, hcreds, if_pos rfl, runUntil_singleton, hrow]
  -- the key
  have hdev : (s.afterRun d none ⟨l ++ [ownerCred u id CredData.none], u, [], k + 1, some id⟩).device d =
      { dev with creds := ⟨l ++ [ownerCred u id CredData.none], u⟩ } := by
    show (s.put d _).device d = _
    rw [State.put_device, h.dev]
  have hpsk : ownerPsk pf dev.doxm (ownerCred u id CredData.none) = some key := by
    unfold ownerPsk
    rw [ho]
    exact hk
  have hmap : (l ++ [ownerCred u id CredData.none]).map (fun c =>
      if c.credid = id then { c with privatedata := ⟨key, .raw⟩ } else c) =
      l ++ [ownerCred u id ⟨key, .raw⟩] := by
    rw [List.map_append, List.map_congr_left fun c hc => if_neg (hne c hc), List.map_id']
    simp [ownerCred]
  refine ⟨l, id, hl, ?_, ?_⟩
  · unfold postCredOk
    rw [hdec]
    dsimp only
    rw [hdev]
    dsimp only
    rw [Option.bind_some, hfind]
    dsimp only
    rw [if_pos ⟨rfl, rfl⟩, hpsk]
    rfl
  · have hpost : postCred pf s d none (ownerCredRep u) =
        (s.afterRun d none ⟨l ++ [ownerCred u id CredData.none], u, [], k + 1, some id⟩).withCreds d
          (l ++ [ownerCred u id ⟨key, .raw⟩]) := by
      unfold postCred
      rw [hdec]
      dsimp only
      rw [hdev]
      dsimp only
      rw [Option.bind_some, hfind]
      dsimp only
      rw [if_neg (by simp), if_pos ⟨rfl, rfl⟩, hpsk]
      dsimp only
      rw [show (ownerCred u id CredData.none).credid = id from rfl, hmap]
    rw [hpost]
    refine ⟨?_, h.flag, rfl⟩
    unfold State.withCreds
    rw [State.put_device, hdev]

end Obt
