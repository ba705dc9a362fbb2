import Iotivity.Security.Operational

/-!
# Devices of one owner

Requests whose payloads name no owner but `u`, neither of the device nor of a resource, and what a
device comes to that gets no others.

* `step_ownedBy_self`   every owner that the device has is `u`;
* `step_kept`           and in normal operation it has one everywhere, and is operational.
-/

namespace Security

/-- an owner that a payload names is `u` -/
def Names (u : Uuid) (rep : List Rep) : Prop :=
  ∀ r ∈ rep, ∀ t, r.value = .string t → r.named "rowneruuid" = true ∨ r.named "devowneruuid" = true →
    ∀ v, ocStrToUuid t v = u

/-- a request to doxm, pstat, acl2, cred or sp that names no other owner than `u` -/
def Request.Names (u : Uuid) : Request → Prop
  | .postPstat _ rep | .postDoxm _ rep | .postAcl _ rep | .postCred _ rep => Security.Names u rep
  | .postRoles _ _ _ => False
  | _ => True

/-- nobody or `u` -/
def AtMost (u v : Uuid) : Prop := v = Uuid.nil ∨ v = u

/-- the owner of a device and of its resources, wherever there is one, is `u` -/
structure Device.OwnedBy (u : Uuid) (dev : Device) : Prop where
  devowneruuid : AtMost u dev.doxm.devowneruuid
  doxm : AtMost u dev.doxm.rowneruuid
  pstat : AtMost u dev.pstat.rowneruuid
  acl : AtMost u dev.acl.rowneruuid
  creds : AtMost u dev.creds.rowneruuid

variable {pf : Platform} {s : State} {d : Nat} {u : Uuid}

theorem Device.OwnedBy.rowners {dev : Device} (h : dev.OwnedBy u) : ∀ v ∈ dev.rowners, AtMost u v := by
  intro v hv
  simp only [Device.rowners, List.mem_cons, List.not_mem_nil, or_false] at hv
  rcases hv with rfl | rfl | rfl | rfl
  · exact h.doxm
  · exact h.pstat
  · exact h.acl
  · exact h.creds

/-- an operational device that is nobody else's is `u`'s -/
theorem Device.Operational.owner {dev : Device} (h : dev.Operational) (ho : dev.OwnedBy u) :
    dev.doxm.devowneruuid = u ∧ ∀ v ∈ dev.rowners, v = u :=
  ⟨ho.devowneruuid.resolve_left h.devowneruuid,
    fun v hv => (ho.rowners v hv).resolve_left (h.rowners v hv).1⟩

/-! ## one resource at a time -/

theorem applyDoxmProp_ownedBy {x : Device × Nat} {rep : List Rep} (hn : Names u rep) {r : Rep}
    (hr : r ∈ rep) (h : x.1.OwnedBy u) : (applyDoxmProp pf false x r).1.OwnedBy u := by
  have hdev := h.devowneruuid
  have hrow := h.doxm
  unfold applyDoxmProp
  dsimp only
  split
  · split
    · exact ⟨hdev, hrow, h.pstat, h.acl, h.creds⟩
    · exact h
  · split
    · exact ⟨hdev, hrow, h.pstat, h.acl, h.creds⟩
    · split
      · exact ⟨hdev, hrow, h.pstat, h.acl, h.creds⟩
      · exact h
  · next t ht =>
    split
    · exact ⟨hdev, hrow, h.pstat, h.acl, h.creds⟩
    split
    · next hk =>
      have hu : ocStrToUuid t x.1.doxm.devowneruuid = u := hn r hr t ht (Or.inr hk) _
      rw [hu]
      split
      · exact ⟨Or.inr rfl, hrow, h.pstat, h.acl, h.creds⟩
      · exact ⟨Or.inr rfl, hrow, h.pstat, h.acl, h.creds⟩
    split
    · next hk =>
      have hu : ocStrToUuid t x.1.doxm.rowneruuid = u := hn r hr t ht (Or.inl hk) _
      rw [hu]
      exact ⟨hdev, Or.inr rfl, h.pstat, h.acl, h.creds⟩
    · exact h
  · exact h

theorem foldl_doxm_ownedBy {rep l : List Rep} (hn : Names u rep) (hl : ∀ r ∈ l, r ∈ rep)
    {x : Device × Nat} (h : x.1.OwnedBy u) : (l.foldl (applyDoxmProp pf false) x).1.OwnedBy u := by
  induction l generalizing x with
  | nil => exact h
  | cons r l ih =>
    exact ih (fun r hr => hl r (List.mem_cons_of_mem _ hr))
      (applyDoxmProp_ownedBy hn (hl r List.mem_cons_self) h)

theorem applyAclProp_rowner {x : Acl × Nat} {rep : List Rep} (hn : Names u rep) {r : Rep}
    (hr : r ∈ rep) (h : AtMost u x.1.rowneruuid) :
    AtMost u (applyAclProp pf x r).1.rowneruuid := by
  unfold applyAclProp
  split
  · next t ht =>
    split
    · next hk => exact Or.inr (hn r hr t ht (Or.inl hk) _)
    · exact h
  · exact h
  · exact h

theorem foldl_acl_rowner {rep l : List Rep} (hn : Names u rep) (hl : ∀ r ∈ l, r ∈ rep)
    {x : Acl × Nat} (h : AtMost u x.1.rowneruuid) :
    AtMost u (l.foldl (applyAclProp pf) x).1.rowneruuid := by
  induction l generalizing x with
  | nil => exact h
  | cons r l ih =>
    exact ih (fun r hr => hl r (List.mem_cons_of_mem _ hr))
      (applyAclProp_rowner hn (hl r List.mem_cons_self) h)

theorem decodePstatProp_rowner {rep : List Rep} (hn : Names u rep) {r : Rep} (hr : r ∈ rep)
    {y y' : PstatDraft} (h : AtMost u y.ps.rowneruuid)
    (hd : decodePstatProp false y r = some y') : AtMost u y'.ps.rowneruuid := by
  unfold decodePstatProp at hd
  split at hd
  · split at hd
    · refine foldlM_inv (fun y => AtMost u y.ps.rowneruuid) (fun dos _ b b' hb hf => ?_) h hd
      unfold decodeDos at hf
      split at hf
      · split at hf
        · cases hf; exact hb
        · cases hf
      · split at hf
        · cases hf
        · cases hf; exact hb
    · cases hd
  · split at hd
    · cases hd; exact h
    · cases hd
  · split at hd
    · cases hd; exact h
    split at hd
    · cases hd; exact h
    split at hd
    · cases hd; exact h
    split at hd
    · cases hd; exact h
    · cases hd
  · next t ht =>
    split at hd
    · next hc =>
      cases hd
      exact Or.inr (hn r hr t ht (Or.inl hc.2) _)
    · cases hd
  · split at hd
    · cases hd; exact h
    · cases hd

/-- what the decoder of cred leaves of the rest of the record -/
theorem decodeCredEntry_rowner (device : Nat) (di : Uuid) (entry : List Rep) (r : CredRun) :
    (decodeCredEntry pf device di none entry r).2.rowneruuid = r.rowneruuid := by
  unfold decodeCredEntry
  split
  · rfl
  · dsimp only
    split
    · rfl
    · split
      · rfl
      · split
        · rfl
        · rfl

theorem decodeCredRep_rowner {rep : List Rep} (hn : Names u rep) (device : Nat) (di : Uuid) {r : Rep}
    (hr : r ∈ rep) {x : CredRun} (h : AtMost u x.rowneruuid) :
    AtMost u (decodeCredRep pf device di none r x).2.rowneruuid := by
  unfold decodeCredRep
  split
  · next t ht =>
    split
    · next hk => exact Or.inr (hn r hr t ht (Or.inl hk) _)
    · exact h
  · split
    · refine runUntil_inv (fun x : CredRun => AtMost u x.rowneruuid) (fun entry _ b hb => ?_) h
      rw [decodeCredEntry_rowner]
      exact hb
    · exact h
  · exact h

theorem postCred_rowner {rep : List Rep} (hn : Names u rep) (h : AtMost u (s.device d).creds.rowneruuid) :
    AtMost u ((postCred pf s d none rep).device d).creds.rowneruuid := by
  have hd : AtMost u (((ocSecDecodeCred pf s rep false none d).2.2).device d).creds.rowneruuid := by
    unfold ocSecDecodeCred
    dsimp only
    split
    · show AtMost u ((s.put d _).device d).creds.rowneruuid
      rw [State.put_device]
      exact runUntil_inv (fun x : CredRun => AtMost u x.rowneruuid)
        (fun r hr x hx => decodeCredRep_rowner hn d _ hr hx) h
    · exact h
  have hw : ∀ (t : State) (l : List Cred), AtMost u (t.device d).creds.rowneruuid →
      AtMost u ((t.withCreds d l).device d).creds.rowneruuid := by
    intro t l ht
    unfold State.withCreds
    rw [State.put_device]
    exact ht
  unfold postCred
  dsimp only
  split
  · exact hd
  · split
    · exact hw _ _ hd
    · split
      · split
        · exact hw _ _ hd
        · exact hw _ _ hd
      · exact hd

variable (pf) in
/-- the rest of the device, for a request that does not reach it -/
theorem postCred_rest (rep : List Rep) :
    ((postCred pf s d none rep).device d).doxm = (s.device d).doxm ∧
      ((postCred pf s d none rep).device d).pstat = (s.device d).pstat ∧
      ((postCred pf s d none rep).device d).acl = (s.device d).acl := by
  have hd : ∀ t : State, t = (ocSecDecodeCred pf s rep false none d).2.2 →
      (t.device d).doxm = (s.device d).doxm ∧ (t.device d).pstat = (s.device d).pstat ∧
        (t.device d).acl = (s.device d).acl := by
    rintro t rfl
    unfold ocSecDecodeCred
    dsimp only
    split
    · show ((s.put d _).device d).doxm = _ ∧ ((s.put d _).device d).pstat = _ ∧
        ((s.put d _).device d).acl = _
      rw [State.put_device]
      exact ⟨rfl, rfl, rfl⟩
    · exact ⟨rfl, rfl, rfl⟩
  have hw : ∀ (l : List Cred),
      let t := ((ocSecDecodeCred pf s rep false none d).2.2).withCreds d l
      (t.device d).doxm = (s.device d).doxm ∧ (t.device d).pstat = (s.device d).pstat ∧
        (t.device d).acl = (s.device d).acl := by
    intro l
    have h0 := hd _ rfl
    dsimp only
    unfold State.withCreds
    rw [State.put_device]
    exact h0
  unfold postCred
  dsimp only
  split
  · exact hd _ rfl
  · split
    · exact hw _
    · split
      · split
        · exact hw _
        · exact hw _
      · exact hd _ rfl

/-! ## every request -/

theorem ownedBy_of_rest {dev dev' : Device} (h : dev.OwnedBy u) (h1 : dev'.doxm = dev.doxm)
    (h2 : dev'.pstat.rowneruuid = dev.pstat.rowneruuid) (h3 : dev'.acl.rowneruuid = dev.acl.rowneruuid)
    (h4 : AtMost u dev'.creds.rowneruuid) : dev'.OwnedBy u :=
  ⟨h1 ▸ h.devowneruuid, h1 ▸ h.doxm, h2 ▸ h.pstat, h3 ▸ h.acl, h4⟩

theorem Handled.ownedBy {ps ps' : Pstat} {s' : State} (hh : Handled pf s d ps (true, ps', s'))
    (h : (s.device d).OwnedBy u) (hp : AtMost u ps.rowneruuid) : (s'.device d).OwnedBy u := by
  cases hh with
  | reset hz =>
    rw [State.put_device]
    show (((s.put d (resetDevice pf d (s.device d) s.draws).1).device d).withPstat rfotmPstat).OwnedBy u
    rw [State.put_device]
    exact ⟨Or.inl rfl, Or.inl rfl, Or.inl rfl, Or.inl rfl, Or.inl rfl⟩
  | rfotm hz hu hi =>
    rw [State.put_device]
    exact ⟨h.devowneruuid, h.doxm, hp, h.acl, h.creds⟩
  | owned cm ho hq =>
    rw [State.put_device]
    exact ⟨h.devowneruuid, h.doxm, hp, h.acl, h.creds⟩

theorem postOtm_ownedBy (h : (s.device d).OwnedBy u) : ((postOtm s d).device d).OwnedBy u := by
  show ((s.put d _).device d).OwnedBy u
  rw [State.put_device]
  exact ⟨h.devowneruuid, h.doxm, h.pstat, h.acl, h.creds⟩

theorem decodePstat_ownedBy {rep : List Rep} (hn : Names u rep) (h : (s.device d).OwnedBy u) :
    ((ocSecDecodePstat pf s rep false d).2.device d).OwnedBy u := by
  have hx : ∀ x : PstatDraft, rep.foldlM (decodePstatProp false) ⟨(s.device d).pstat, false⟩ = some x →
      AtMost u x.ps.rowneruuid := fun x hx =>
    foldlM_inv (fun y => AtMost u y.ps.rowneruuid)
      (fun r hr b b' hb hf => decodePstatProp_rowner hn hr hb hf) h.pstat hx
  have hd := decoded pf s d rep
  generalize ocSecDecodePstat pf s rep false d = r at hd ⊢
  cases hd with
  | refused => exact h
  | stored x hxs ht =>
    show ((s.put d _).device d).OwnedBy u
    rw [State.put_device]
    exact ⟨h.devowneruuid, h.doxm, hx x hxs, h.acl, h.creds⟩
  | moved x ps' s' hxs hv ht hh =>
    show ((if _ then postOtm s' d else s').device d).OwnedBy u
    split
    · exact postOtm_ownedBy (hh.ownedBy h (hx x hxs))
    · exact hh.ownedBy h (hx x hxs)

/-- the request goes to the device -/
theorem step_ownedBy_self {r : Request} (hn : r.Names u) (h : (s.device r.device).OwnedBy u) :
    ((step pf s r).device r.device).OwnedBy u := by
  cases r with
  | postPstat d rep => exact decodePstat_ownedBy hn h
  | postDoxm d rep =>
    show ((ocSecDecodeDoxm pf s rep false d).2.device d).OwnedBy u
    unfold ocSecDecodeDoxm
    dsimp only
    split
    · show ((s.put d _).device d).OwnedBy u
      rw [State.put_device]
      exact foldl_doxm_ownedBy hn (fun r hr => hr) h
    · exact h
  | postAcl d rep =>
    show ((ocSecDecodeAcl pf s rep false d).2.device d).OwnedBy u
    unfold ocSecDecodeAcl
    dsimp only
    split
    · show ((s.put d _).device d).OwnedBy u
      rw [State.put_device]
      exact ⟨h.devowneruuid, h.doxm, h.pstat, foldl_acl_rowner hn (fun r hr => hr) h.acl, h.creds⟩
    · exact h
  | deleteAcl d id =>
    show ((deleteAcl s d id).device d).OwnedBy u
    have hp : ∀ aces : List Ace, ((s.put d { s.device d with
        acl := { (s.device d).acl with subjects := aces } }).device d).OwnedBy u := by
      intro aces
      rw [State.put_device]
      exact ⟨h.devowneruuid, h.doxm, h.pstat, h.acl, h.creds⟩
    unfold deleteAcl
    dsimp only
    split
    · exact h
    · split
      · split
        · exact h
        · exact hp _
      · exact hp _
  | postCred d rep =>
    obtain ⟨h1, h2, h3⟩ := postCred_rest pf (s := s) (d := d) rep
    exact ownedBy_of_rest h h1 (congrArg Pstat.rowneruuid h2) (congrArg Acl.rowneruuid h3)
      (postCred_rowner hn h.creds)
  | deleteCred d id =>
    show ((deleteCred s d id).device d).OwnedBy u
    have hp : ∀ l : List Cred, ((s.withCreds d l).device d).OwnedBy u := by
      intro l
      unfold State.withCreds
      rw [State.put_device]
      exact ⟨h.devowneruuid, h.doxm, h.pstat, h.acl, h.creds⟩
    unfold deleteCred
    split
    · exact h
    · split
      · split
        · exact h
        · exact hp _
      · exact hp _
  | postRoles d client rep => exact hn.elim
  | deleteRoles d client id =>
    show ((deleteRoles s client id).device d).OwnedBy u
    unfold deleteRoles
    split
    · dsimp only
      split
      · exact h
      · exact h
    · exact h
  | postSp d rep =>
    show ((ocSecDecodeSp s rep d).2.device d).OwnedBy u
    unfold ocSecDecodeSp
    dsimp only
    split
    · exact h
    · rw [State.put_device]
      exact ⟨h.devowneruuid, h.doxm, h.pstat, h.acl, h.creds⟩

/-- what a device of one owner keeps -/
structure Device.Kept (u : Uuid) (dev : Device) : Prop where
  owner : dev.OwnedBy u
  operational : dev.pstat.s = .rfnop → dev.Operational
  known : ∀ n, dev.pstat.s ≠ .other n

/-- in normal operation `u` is the owner already, so that naming it again does no harm -/
theorem harmless_of_names {r : Request} (hn : r.Names u) (h : (s.device r.device).Kept u) :
    Harmless pf s r := by
  cases r with
  | postPstat d rep =>
    intro hs x hx hr t ht v hv hk
    have ho := ((h.operational hs).owner h.owner).2 (s.device d).pstat.rowneruuid
      (List.mem_of_getElem? (i := 1) rfl)
    rw [ho]
    exact hn t ht v hv (Or.inl hk) _
  | postRoles d client rep => exact hn.elim
  | _ => exact trivial

theorem Handled.known {ps ps' : Pstat} {s' : State} (hh : Handled pf s d ps (true, ps', s')) (n : Int) :
    (s'.device d).pstat.s ≠ .other n := by
  cases hh with
  | reset hz =>
    rw [State.put_device]
    exact Dos.noConfusion
  | rfotm hz hu hi =>
    rw [State.put_device]
    show ps.s ≠ .other n
    rw [hz]
    exact Dos.noConfusion
  | owned cm ho hq =>
    rw [State.put_device]
    show ps.s ≠ .other n
    rcases ho with h | h | h
    · rw [h]; exact Dos.noConfusion
    · rw [h]; exact Dos.noConfusion
    · rw [h]; exact Dos.noConfusion

/-- no request brings a device to a state without a name -/
theorem step_known {r : Request} (h : ∀ n, (s.device r.device).pstat.s ≠ .other n) (n : Int) :
    ((step pf s r).device r.device).pstat.s ≠ .other n := by
  by_cases hp : ∃ rep, r = .postPstat r.device rep
  · obtain ⟨rep, he⟩ := hp
    generalize r.device = d at he h ⊢
    subst he
    show ((ocSecDecodePstat pf s rep false d).2.device d).pstat.s ≠ _
    have hd := decoded pf s d rep
    generalize ocSecDecodePstat pf s rep false d = r at hd ⊢
    cases hd with
    | refused => exact h n
    | stored x hx ht =>
      have hdr : Draft (s.device d).pstat x :=
        foldlM_inv (Draft _) (fun rep _ b b' hb hf => decodePstatProp_draft rep hb hf)
          ⟨rfl, fun _ => rfl, fun _ _ => rfl⟩ hx
      show ((s.put d _).device d).pstat.s ≠ _
      rw [State.put_device]
      show x.ps.s ≠ _
      rw [hdr.s ht]
      exact h n
    | moved x ps' s' hx hv ht hh =>
      show ((if _ then postOtm s' d else s').device d).pstat.s ≠ _
      split
      · show ((s'.put d _).device d).pstat.s ≠ _
        rw [State.put_device]
        exact hh.known n
      · exact hh.known n
  · rw [step_pstat fun rep he => hp ⟨rep, he⟩]
    exact h n

theorem step_kept {r : Request} (hn : r.Names u) (h : ∀ d, (s.device d).Kept u) (d : Nat) :
    ((step pf s r).device d).Kept u := by
  by_cases hd : d = r.device
  · subst hd
    refine ⟨step_ownedBy_self hn (h _).owner, fun hs => ?_, step_known (h _).known⟩
    exact (step_operational (h _).operational (harmless_of_names hn (h _)) hs).1
  · rw [step_device_ne hd]
    exact h d

/-! ## the start -/

/-- what a fresh device is like -/
theorem resetState_kept (pf : Platform) (s : State) (d : Nat) (u : Uuid) :
    ((((resetState pf s d).device d).withPstat rfotmPstat)).Kept u := by
  show (((s.put d (resetDevice pf d (s.device d) s.draws).1).device d).withPstat rfotmPstat).Kept u
  rw [State.put_device]
  exact ⟨⟨Or.inl rfl, Or.inl rfl, Or.inl rfl, Or.inl rfl, Or.inl rfl⟩, fun h => Dos.noConfusion h,
    fun n => Dos.noConfusion⟩

theorem initState_kept (pf : Platform) (u : Uuid) (d : Nat) : ((initState pf).device d).Kept u := by
  unfold initState
  induction pf.numDevices with
  | zero =>
    exact ⟨⟨Or.inl rfl, Or.inl rfl, Or.inl rfl, Or.inl rfl, Or.inl rfl⟩, fun h => Dos.noConfusion h,
      fun n => Dos.noConfusion⟩
  | succ n ih =>
    rw [List.range_succ, List.foldl_append, List.foldl_cons, List.foldl_nil]
    unfold ocSecPstatDefault at ih ⊢
    rw [handle_reset rfl]
    by_cases hd : d = n
    · subst hd
      rw [State.put_device]
      exact resetState_kept pf _ d u
    · rw [State.put_device_ne _ _ hd, resetState_device_ne hd]
      exact ih

end Security
