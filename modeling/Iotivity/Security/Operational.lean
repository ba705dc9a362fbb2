import Iotivity.Security.Onboarding

/-!
# Devices in normal operation

What holds of a device while its status is RFNOP, along every run of requests to the security
resources.  The status enters RFNOP through the handler only, which checks it all; in RFNOP each
decoder guards its own resource.  Two requests get around the guards: a POST to `/oic/sec/roles` runs
the decoder of `/oic/sec/cred` with its guard off, and a POST to `/oic/sec/pstat` guards `rowneruuid`
by the state that an earlier `dos` of the same payload asks for.

* `step_device_ne`         a request changes one device only;
* `rfnop_step`             in RFNOP a harmless request changes nothing that matters;
* `operational_run`        the invariant, along every run of harmless requests.
-/

namespace Security

/-! ## the invariant -/

/-- the subject of some stored credential -/
def Device.Knows (dev : Device) (u : Uuid) : Prop := ∃ c ∈ dev.creds.creds, c.subjectuuid = u

/-- the rowneruuids of doxm, pstat, acl2 and cred -/
def Device.rowners (dev : Device) : List Uuid :=
  [dev.doxm.rowneruuid, dev.pstat.rowneruuid, dev.acl.rowneruuid, dev.creds.rowneruuid]

/-- what normal operation asks of a device -/
structure Device.Operational (dev : Device) : Prop where
  owned : dev.doxm.owned = true
  devowneruuid : dev.doxm.devowneruuid ≠ Uuid.nil
  deviceuuid : dev.doxm.deviceuuid ≠ Uuid.nil
  rowners : ∀ u ∈ dev.rowners, u ≠ Uuid.nil ∧ dev.Knows u
  isop : dev.pstat.isop = true

/-- the device is in normal operation -/
def State.Rfnop (s : State) (d : Nat) : Prop := (s.device d).pstat.s = .rfnop

/-- in every state of the run a device in RFNOP is operational, and its rowneruuids stay the same as
long as it is in RFNOP -/
structure OperationalRun (pf : Platform) (reqs : List Request) : Prop where
  operational : ∀ pre post d, reqs = pre ++ post → (run pf (initState pf) pre).Rfnop d →
    ((run pf (initState pf) pre).device d).Operational
  rowners : ∀ pre mid post d, reqs = pre ++ mid ++ post →
    (∀ k, k ≤ mid.length → (run pf (initState pf) (pre ++ mid.take k)).Rfnop d) →
    ((run pf (initState pf) (pre ++ mid)).device d).rowners =
      ((run pf (initState pf) pre).device d).rowners

/-! ## harmless requests -/

/-- every `rowneruuid` of the payload is the present one -/
def Keeps (u : Uuid) (rep : List Rep) : Prop :=
  ∀ r ∈ rep, ∀ t, r.value = .string t → r.named "rowneruuid" = true → ocStrToUuid t u = u

/-- a credential of type PSK without private data -/
def CredDraft.Bare (d : CredDraft) : Prop := d.credtype = credtypePsk ∧ d.privatedata.data = []

/-- an element of `creds` or `roles` with a credential of type PSK and without private data -/
def HasBare (rep : List Rep) : Prop :=
  ∃ r ∈ rep, ∃ objs, r.value = .objectArray objs ∧ ∃ entry ∈ objs, ∃ d,
    entry.foldlM decodeCredProp CredDraft.empty = some d ∧ d.Bare

/-- a request that does not reach one of the two gaps.  In RFNOP: a POST to `/oic/sec/pstat` that asks
for RFNOP again keeps the rowneruuid; a POST to `/oic/sec/roles` keeps the rowneruuid of
`/oic/sec/cred`, and is accepted or has no PSK without private data. -/
def Harmless (pf : Platform) (s : State) : Request → Prop
  | .postPstat d rep => s.Rfnop d →
    ∀ x, rep.foldlM (decodePstatProp false) ⟨(s.device d).pstat, false⟩ = some x →
      x.ps.s = .rfnop → Keeps (s.device d).pstat.rowneruuid rep
  | .postRoles d client rep => s.Rfnop d →
    Keeps (s.device d).creds.rowneruuid rep ∧
      ((ocSecDecodeCred pf s rep false (some client) d).1 = true ∨ ¬ HasBare rep)
  | _ => True

/-- every request of a run is harmless where it is handled -/
def AllHarmless (pf : Platform) (s : State) : List Request → Prop
  | [] => True
  | r :: rs => Harmless pf s r ∧ AllHarmless pf (step pf s r) rs

/-! ## one device per request -/

variable {pf : Platform} {s : State} {d : Nat}

theorem decodePstat_device_ne {k : Nat} (rep : List Rep) (h : k ≠ d) :
    (ocSecDecodePstat pf s rep false d).2.device k = s.device k := by
  have hd := decoded pf s d rep
  generalize ocSecDecodePstat pf s rep false d = r at hd
  cases hd with
  | refused => rfl
  | stored x hx ht => exact State.put_device_ne s _ h
  | moved x ps' s' hx hv ht hh =>
    show (if _ then postOtm s' d else s').device k = _
    split
    · exact (State.put_device_ne s' _ h).trans (hh.frame h)
    · exact hh.frame h

theorem step_device_ne {r : Request} {k : Nat} (h : k ≠ r.device) :
    (step pf s r).device k = s.device k := by
  cases r with
  | postPstat d rep => exact decodePstat_device_ne rep h
  | _ => exact (step_framed fun d rep he => by cases he).others k h

/-! ## the guards in RFNOP -/

/-- folding over properties that change nothing -/
theorem foldl_idle {α β : Type} {f : β → α → β} {l : List α} (h : ∀ a ∈ l, ∀ b, f b a = b) (b : β) :
    l.foldl f b = b := by
  induction l with
  | nil => rfl
  | cons a t ih =>
    rw [List.foldl_cons, h a List.mem_cons_self]
    exact ih fun a ha => h a (List.mem_cons_of_mem _ ha)

theorem applyDoxmProp_idle {t : Rep} (h : doxmPropOk false .rfnop t = true) (x : Device × Nat) :
    applyDoxmProp pf false x t = x := by
  obtain ⟨name, value⟩ := t
  unfold doxmPropOk at h
  unfold applyDoxmProp
  cases value with
  | bool b => simp [Rep.value] at h
  | int n => simp [Rep.value] at h
  | string u => simp [Rep.value] at h
  | _ => rfl

theorem applyAclProp_idle {t : Rep} (h : aclPropOk false .rfnop t = true) (x : Acl × Nat) :
    applyAclProp pf x t = x := by
  obtain ⟨name, value⟩ := t
  unfold aclPropOk at h
  unfold applyAclProp
  cases value with
  | string u =>
    have hn : (Rep.mk name (.string u)).named "rowneruuid" = false := by simpa [Rep.value] using h
    dsimp only [Rep.value]
    rw [hn]
    rfl
  | objectArray objs => simp [Rep.value] at h
  | _ => rfl

theorem decodeCredRep_idle {t : Rep} (h : credPropOk false .rfnop t = true) (di : Uuid) (r : CredRun) :
    decodeCredRep pf d di none t r = (true, r) := by
  obtain ⟨name, value⟩ := t
  unfold credPropOk at h
  unfold decodeCredRep
  cases value with
  | string u =>
    have hn : (Rep.mk name (.string u)).named "rowneruuid" = false := by simpa [Rep.value] using h
    dsimp only [Rep.value]
    rw [hn]
    rfl
  | objectArray objs => simp [Rep.value] at h
  | _ => rfl

/-- the run that has changed nothing -/
theorem afterRun_device (client : Option Peer) {r : CredRun}
    (hc : r.creds = (s.device d).creds.creds) (hr : r.rowneruuid = (s.device d).creds.rowneruuid) :
    (s.afterRun d client r).device d = s.device d := by
  refine (State.put_device s d _).trans ?_
  rw [hc, hr]

/-! ## roles -/

/-- asserting a role leaves the credentials of the device alone -/
theorem decodeCredEntry_roles (pf : Platform) (d : Nat) (di : Uuid) (client : Peer)
    (entry : List Rep) (r : CredRun) :
    (decodeCredEntry pf d di (some client) entry r).2.creds = r.creds ∧
      (decodeCredEntry pf d di (some client) entry r).2.rowneruuid = r.rowneruuid ∧
      ((∀ x, entry.foldlM decodeCredProp CredDraft.empty = some x → ¬ x.Bare) →
        (decodeCredEntry pf d di (some client) entry r).2.owner = r.owner) := by
  unfold decodeCredEntry
  cases hx : entry.foldlM decodeCredProp CredDraft.empty with
  | none => exact ⟨rfl, rfl, fun _ => rfl⟩
  | some x =>
    dsimp only
    split
    · exact ⟨rfl, rfl, fun _ => rfl⟩
    split
    · exact ⟨rfl, rfl, fun _ => rfl⟩
    split
    · next hb => exact ⟨rfl, rfl, fun h => absurd hb (h x rfl)⟩
    · exact ⟨rfl, rfl, fun _ => rfl⟩

theorem decodeCredRep_roles (di : Uuid) (client : Peer) {u : Uuid} {rep : List Rep} (hk : Keeps u rep)
    (c : List Cred) {t : Rep} (ht : t ∈ rep) (r : CredRun) (h : r.creds = c ∧ r.rowneruuid = u) :
    (decodeCredRep pf d di (some client) t r).2.creds = c ∧
      (decodeCredRep pf d di (some client) t r).2.rowneruuid = u := by
  unfold decodeCredRep
  split
  · next u' hv =>
    split
    · next hn =>
      refine ⟨h.1, ?_⟩
      dsimp only
      rw [h.2]
      exact hk t ht u' hv hn
    · exact h
  · split
    · refine runUntil_inv (fun r : CredRun => r.creds = c ∧ r.rowneruuid = u) (fun entry _ r hr => ?_) h
      obtain ⟨h1, h2, -⟩ := decodeCredEntry_roles pf d di client entry r
      exact ⟨h1.trans hr.1, h2.trans hr.2⟩
    · exact h
  · exact h

theorem decodeCredRep_owner (di : Uuid) (client : Peer) {rep : List Rep} (hb : ¬ HasBare rep)
    {t : Rep} (ht : t ∈ rep) (r : CredRun) (h : r.owner = none) :
    (decodeCredRep pf d di (some client) t r).2.owner = none := by
  unfold decodeCredRep
  split
  · split
    · exact h
    · exact h
  · next objs hv =>
    split
    · refine runUntil_inv (fun r : CredRun => r.owner = none) (fun entry he r hr => ?_) h
      refine ((decodeCredEntry_roles pf d di client entry r).2.2 fun x hx hbare => ?_).trans hr
      exact hb ⟨t, ht, objs, hv, entry, he, x, hx, hbare⟩
    · exact h
  · exact h

theorem postRoles_device {client : Peer} {rep : List Rep}
    (hk : Keeps (s.device d).creds.rowneruuid rep)
    (ha : (ocSecDecodeCred pf s rep false (some client) d).1 = true ∨ ¬ HasBare rep) :
    (postCred pf s d (some client) rep).device d = s.device d := by
  have he : ocSecDecodeCred pf s rep false (some client) d =
      ((runUntil (decodeCredRep pf d (s.device d).di (some client)) rep
          (s.credRun d (some client))).1,
        (runUntil (decodeCredRep pf d (s.device d).di (some client)) rep
          (s.credRun d (some client))).2.owner,
        s.afterRun d (some client)
          (runUntil (decodeCredRep pf d (s.device d).di (some client)) rep
            (s.credRun d (some client))).2) := rfl
  have hi := runUntil_inv (f := decodeCredRep pf d (s.device d).di (some client))
    (fun r => r.creds = (s.device d).creds.creds ∧ r.rowneruuid = (s.device d).creds.rowneruuid)
    (fun t ht r h => decodeCredRep_roles _ client hk _ ht r h)
    (b := s.credRun d (some client)) ⟨rfl, rfl⟩
  have hdev := afterRun_device (some client) hi.1 hi.2
  unfold postCred
  dsimp only
  rw [he] at ha ⊢
  rcases ha with ha | hb
  · split
    · exact hdev
    · rw [if_neg fun h => h ha, if_neg fun h => by cases h.1]
      exact hdev
  · have ho := runUntil_inv (f := decodeCredRep pf d (s.device d).di (some client))
      (fun r => r.owner = none) (fun t ht r h => decodeCredRep_owner _ client hb ht r h)
      (b := s.credRun d (some client)) rfl
    dsimp only
    rw [ho]
    exact hdev

/-! ## requests in RFNOP -/

theorem postCred_rfnop (hs : s.Rfnop d) (rep : List Rep) :
    (postCred pf s d none rep).device d = s.device d := by
  by_cases hok : rep.all (credPropOk false (s.device d).pstat.s) = true
  · have hr : runUntil (decodeCredRep pf d (s.device d).di none) rep (s.credRun d none) =
        (true, s.credRun d none) := by
      refine runUntil_idle fun t ht => decodeCredRep_idle ?_ _ _
      rw [← show (s.device d).pstat.s = .rfnop from hs]
      exact List.all_eq_true.mp hok t ht
    have he : ocSecDecodeCred pf s rep false none d =
        (true, none, s.afterRun d none (s.credRun d none)) := by
      unfold ocSecDecodeCred
      dsimp only
      rw [if_pos (by rw [hok]; rfl), hr]
      rfl
    unfold postCred
    dsimp only
    rw [he]
    exact afterRun_device none rfl rfl
  · have he : ocSecDecodeCred pf s rep false none d = (false, none, s) := by
      unfold ocSecDecodeCred
      dsimp only
      rw [if_neg (by rw [Bool.eq_false_iff.mpr hok]; exact Bool.false_ne_true)]
    unfold postCred
    dsimp only
    rw [he]
    rfl

/-- in RFNOP a harmless request to another resource than pstat changes nothing on the device -/
theorem rfnop_other {r : Request} (hs : s.Rfnop d) (hd : r.device = d) (hh : Harmless pf s r)
    (hr : ∀ rep, r ≠ .postPstat d rep) : (step pf s r).device d = s.device d := by
  subst hd
  cases r with
  | postPstat d rep => exact absurd rfl (hr rep)
  | postDoxm d rep =>
    show (ocSecDecodeDoxm pf s rep false d).2.device d = _
    unfold ocSecDecodeDoxm
    dsimp only
    split
    · next hok =>
      refine (State.put_device s d _).trans ?_
      rw [show (s.device d).pstat.s = .rfnop from hs] at hok
      rw [foldl_idle fun t ht x => applyDoxmProp_idle (List.all_eq_true.mp hok t ht) x]
      rfl
    · rfl
  | postAcl d rep =>
    show (ocSecDecodeAcl pf s rep false d).2.device d = _
    unfold ocSecDecodeAcl
    dsimp only
    split
    · next hok =>
      refine (State.put_device s d _).trans ?_
      rw [show (s.device d).pstat.s = .rfnop from hs] at hok
      rw [foldl_idle fun t ht x => applyAclProp_idle (List.all_eq_true.mp hok t ht) x]
      rfl
    · rfl
  | deleteAcl d id =>
    show (deleteAcl s d id).device d = _
    unfold deleteAcl
    dsimp only
    rw [if_pos (show (s.device d).pstat.s = .rfnop from hs)]
    rfl
  | postCred d rep => exact postCred_rfnop hs rep
  | deleteCred d id =>
    show (deleteCred s d id).device d = _
    unfold deleteCred
    rw [if_pos (show (s.device d).pstat.s = .rfnop from hs)]
    rfl
  | postRoles d client rep => exact postRoles_device (hh hs).1 (hh hs).2
  | deleteRoles d client id =>
    show (deleteRoles s client id).device d = _
    unfold deleteRoles
    split
    · dsimp only
      split <;> rfl
    · rfl
  | postSp d rep =>
    show (ocSecDecodeSp s rep d).2.device d = _
    unfold ocSecDecodeSp
    dsimp only
    rw [if_pos (show (s.device d).pstat.s = .rfnop from hs)]
    rfl

/-! ## the copy of the status -/

/-- only a POST to `/oic/sec/pstat` changes the status of its device -/
theorem step_pstat {r : Request} (hr : ∀ rep, r ≠ .postPstat r.device rep) :
    ((step pf s r).device r.device).pstat = (s.device r.device).pstat := by
  apply Framed.pstat
  apply step_framed
  intro d rep he
  rw [he] at hr
  exact hr rep rfl

theorem foldlM_inv {α β : Type} {f : β → α → Option β} (P : β → Prop) {l : List α}
    (h : ∀ a ∈ l, ∀ b b', P b → f b a = some b' → P b') {b b' : β} (hb : P b)
    (hf : l.foldlM f b = some b') : P b' := by
  induction l generalizing b with
  | nil =>
    cases hf
    exact hb
  | cons a t ih =>
    rw [List.foldlM_cons] at hf
    obtain ⟨c, hc, hf⟩ := Option.bind_eq_some_iff.mp hf
    exact ih (fun a ha => h a (List.mem_cons_of_mem _ ha)) (h a List.mem_cons_self b c hb hc) hf

/-- a payload without `dos` cannot change the state, nor the rowneruuid in RFNOP; none changes `isop` -/
structure Draft (ps : Pstat) (y : PstatDraft) : Prop where
  isop : y.ps.isop = ps.isop
  s : y.transition = false → y.ps.s = ps.s
  rowner : y.transition = false → ps.s = .rfnop → y.ps.rowneruuid = ps.rowneruuid

theorem decodeDos_draft {ps : Pstat} {y y' : PstatDraft} (dos : Rep) (h : Draft ps y)
    (hd : decodeDos false y dos = some y') : Draft ps y' := by
  unfold decodeDos at hd
  split at hd
  · split at hd
    · cases hd
      exact ⟨h.isop, fun ht => (Bool.noConfusion ht), fun ht => (Bool.noConfusion ht)⟩
    · cases hd
  · split at hd
    · cases hd
    · cases hd
      exact h

theorem decodePstatProp_draft {ps : Pstat} {y y' : PstatDraft} (rep : Rep) (h : Draft ps y)
    (hd : decodePstatProp false y rep = some y') : Draft ps y' := by
  unfold decodePstatProp at hd
  split at hd
  · split at hd
    · exact foldlM_inv (Draft ps) (fun dos _ b b' hb hf => decodeDos_draft dos hb hf) h hd
    · cases hd
  · split at hd
    · next hc => exact absurd hc.1 Bool.false_ne_true
    · cases hd
  · split at hd
    · next hc => exact absurd hc.1 Bool.false_ne_true
    split at hd
    · cases hd; exact ⟨h.isop, h.s, h.rowner⟩
    split at hd
    · cases hd; exact ⟨h.isop, h.s, h.rowner⟩
    split at hd
    · next hc => exact absurd hc.1 Bool.false_ne_true
    · cases hd
  · split at hd
    · next hc =>
      cases hd
      refine ⟨h.isop, h.s, fun ht hs => ?_⟩
      -- the guard has read the state of the copy, which is still RFNOP
      rcases hc.1 with hf | hg
      · exact absurd hf Bool.false_ne_true
      · exact absurd ((h.s ht).trans hs) hg.2
    · cases hd
  · split at hd
    · cases hd; exact h
    · cases hd

theorem decodePstatProp_keeps {u : Uuid} {reps : List Rep} (hk : Keeps u reps) {rep : Rep}
    (hr : rep ∈ reps) {y y' : PstatDraft} (h : y.ps.rowneruuid = u)
    (hd : decodePstatProp false y rep = some y') : y'.ps.rowneruuid = u := by
  unfold decodePstatProp at hd
  split at hd
  · split at hd
    · refine foldlM_inv (fun y => y.ps.rowneruuid = u) (fun dos _ b b' hb hf => ?_) h hd
      unfold decodeDos at hf
      split at hf
      · split at hf
        · cases hf; exact hb
        · cases hf
      · split at hf
        · cases hf
        · cases hf; exact hb
    · cases hd
  · split at hd
    · cases hd; exact h
    · cases hd
  · split at hd
    · cases hd; exact h
    split at hd
    · cases hd; exact h
    split at hd
    · cases hd; exact h
    split at hd
    · cases hd; exact h
    · cases hd
  · next t ht =>
    split at hd
    · next hc =>
      cases hd
      dsimp only
      rw [h]
      exact hk rep hr t ht hc.2
    · cases hd
  · split at hd
    · cases hd; exact h
    · cases hd

/-! ## the step lemma -/

theorem knows_of_find {dev : Device} {u : Uuid}
    (h : (ocSecFindCredsForSubject u dev.creds.creds).isSome = true) : dev.Knows u := by
  obtain ⟨c, hc⟩ := Option.isSome_iff_exists.mp h
  have hs := List.find?_some hc
  exact ⟨c, List.mem_of_find?_eq_some hc, of_decide_eq_true hs⟩

theorem ne_nil_of_not {u : Uuid} (h : ¬ nilUuid u = true) : u ≠ Uuid.nil :=
  fun he => h ((nilUuid_iff u).mpr he)

/-- what the handler asks for is what normal operation needs -/
theorem provisioned_operational {dev : Device} {ps ps' : Pstat} (h : provisioned dev ps = true)
    (hr : ps'.rowneruuid = ps.rowneruuid) (hi : ps'.isop = true) :
    (dev.withPstat ps').Operational := by
  obtain ⟨h1, h2, h3, h4, h5, h6, h7, h8, h9, h10, h11⟩ := of_decide_eq_true h
  refine ⟨h1, ne_nil_of_not h2, ne_nil_of_not h3, fun u hu => ?_, hi⟩
  change u ∈ [dev.doxm.rowneruuid, ps'.rowneruuid, dev.acl.rowneruuid, dev.creds.rowneruuid] at hu
  rw [hr] at hu
  simp only [List.mem_cons, List.not_mem_nil, or_false] at hu
  rcases hu with rfl | rfl | rfl | rfl
  · exact ⟨ne_nil_of_not h5, knows_of_find h9⟩
  · exact ⟨ne_nil_of_not h4, knows_of_find h8⟩
  · exact ⟨ne_nil_of_not h6, knows_of_find h10⟩
  · exact ⟨ne_nil_of_not h7, knows_of_find h11⟩

/-- a device that differs in the ACEs only -/
theorem Device.Operational.withAces {dev : Device} (h : dev.Operational) (aces : List Ace) :
    Device.Operational { dev with acl := { dev.acl with subjects := aces } } :=
  ⟨h.owned, h.devowneruuid, h.deviceuuid, h.rowners, h.isop⟩

theorem postOtm_operational (h : (s.device d).Operational) :
    ((postOtm s d).device d).Operational ∧
      ((postOtm s d).device d).rowners = (s.device d).rowners := by
  show ((s.put d _).device d).Operational ∧ ((s.put d _).device d).rowners = _
  rw [State.put_device]
  exact ⟨h.withAces _, rfl⟩

/-- the device before the clean-up, which leaves everything but the ACEs -/
theorem handled_operational {rep : List Rep} {x : PstatDraft} {ps' : Pstat} {s' : State}
    (hh : Harmless pf s (.postPstat d rep))
    (hx : rep.foldlM (decodePstatProp false) ⟨(s.device d).pstat, false⟩ = some x)
    (hm : Handled pf s d x.ps (true, ps', s')) (hs' : s'.Rfnop d) :
    (s'.device d).Operational ∧ (s.Rfnop d → (s'.device d).rowners = (s.device d).rowners) := by
  unfold State.Rfnop at hs'
  cases hm with
  | reset hz =>
    rw [State.put_device] at hs'
    cases hs'
  | rfotm hz hu hi =>
    rw [State.put_device] at hs'
    exact absurd (hz.symm.trans hs') Dos.noConfusion
  | owned cm ho hp =>
    rw [State.put_device] at hs' ⊢
    have hs'' : x.ps.s = .rfnop := hs'
    refine ⟨provisioned_operational hp rfl (decide_eq_true hs''), fun hs => ?_⟩
    have hk := foldlM_inv (fun y => y.ps.rowneruuid = (s.device d).pstat.rowneruuid)
      (fun rep hr b b' hb hf => decodePstatProp_keeps (hh hs x hx hs'') hr hb hf) rfl hx
    show [_, x.ps.rowneruuid, _, _] = _
    rw [hk]
    rfl

theorem postOtm_rfnop (h : (postOtm s d).Rfnop d) : s.Rfnop d := by
  unfold State.Rfnop postOtm at h
  dsimp only at h
  rw [State.put_device] at h
  exact h

theorem pstat_step {rep : List Rep} (h : s.Rfnop d → (s.device d).Operational)
    (hh : Harmless pf s (.postPstat d rep)) (hr : (step pf s (.postPstat d rep)).Rfnop d) :
    ((step pf s (.postPstat d rep)).device d).Operational ∧
      (s.Rfnop d → ((step pf s (.postPstat d rep)).device d).rowners = (s.device d).rowners) := by
  change (ocSecDecodePstat pf s rep false d).2.Rfnop d at hr
  show ((ocSecDecodePstat pf s rep false d).2.device d).Operational ∧
    (_ → ((ocSecDecodePstat pf s rep false d).2.device d).rowners = _)
  have hd := decoded pf s d rep
  generalize ocSecDecodePstat pf s rep false d = r at hd hr ⊢
  cases hd with
  | refused => exact ⟨h hr, fun _ => rfl⟩
  | stored x hx ht =>
    have hdr : Draft (s.device d).pstat x :=
      foldlM_inv (Draft _) (fun rep _ b b' hb hf => decodePstatProp_draft rep hb hf)
        ⟨rfl, fun _ => rfl, fun _ _ => rfl⟩ hx
    unfold State.Rfnop at hr
    dsimp only at hr ⊢
    rw [State.put_device] at hr ⊢
    have hs : s.Rfnop d := (hdr.s ht).symm.trans hr
    have hrow := hdr.rowner ht hs
    have ho := h hs
    have hrs : ((s.device d).withPstat x.ps).rowners = (s.device d).rowners := by
      show [_, x.ps.rowneruuid, _, _] = _
      rw [hrow]
      rfl
    exact ⟨⟨ho.owned, ho.devowneruuid, ho.deviceuuid, by rw [hrs]; exact ho.rowners,
      hdr.isop.trans ho.isop⟩, fun _ => hrs⟩
  | moved x ps' s' hx hv ht hm =>
    change (if _ then postOtm s' d else s').Rfnop d at hr
    show ((if _ then postOtm s' d else s').device d).Operational ∧
      (_ → ((if _ then postOtm s' d else s').device d).rowners = _)
    split at hr
    · next hc =>
      rw [if_pos hc]
      obtain ⟨h1, h2⟩ := handled_operational hh hx hm (postOtm_rfnop hr)
      obtain ⟨h3, h4⟩ := postOtm_operational h1
      exact ⟨h3, fun hs => h4.trans (h2 hs)⟩
    · next hc =>
      rw [if_neg hc]
      exact handled_operational hh hx hm hr

theorem step_operational {r : Request} (h : s.Rfnop d → (s.device d).Operational)
    (hh : Harmless pf s r) (hr : (step pf s r).Rfnop d) :
    ((step pf s r).device d).Operational ∧
      (s.Rfnop d → ((step pf s r).device d).rowners = (s.device d).rowners) := by
  by_cases hd : d = r.device
  · by_cases hp : ∃ rep, r = .postPstat d rep
    · obtain ⟨rep, rfl⟩ := hp
      exact pstat_step h hh hr
    · have hn : ∀ rep, r ≠ .postPstat d rep := fun rep he => hp ⟨rep, he⟩
      have hs : s.Rfnop d := by
        unfold State.Rfnop at hr ⊢
        rw [hd] at hr ⊢
        rwa [step_pstat (hd ▸ hn)] at hr
      rw [rfnop_other hs hd.symm hh hn]
      exact ⟨h hs, fun _ => rfl⟩
  · unfold State.Rfnop at hr
    rw [step_device_ne hd] at hr ⊢
    exact ⟨h hr, fun _ => rfl⟩

/-! ## runs -/

/-- a freshly initialised device waits for its owner -/
theorem initState_not_rfnop (pf : Platform) (d : Nat) : ¬ (initState pf).Rfnop d := by
  unfold initState State.Rfnop
  induction pf.numDevices with
  | zero => exact Dos.noConfusion
  | succ n ih =>
    rw [List.range_succ, List.foldl_append, List.foldl_cons, List.foldl_nil]
    unfold ocSecPstatDefault at ih ⊢
    rw [handle_reset rfl]
    by_cases hd : d = n
    · subst hd
      rw [State.put_device]
      exact Dos.noConfusion
    · rw [State.put_device_ne _ _ hd, resetState_device_ne hd]
      exact ih

theorem allHarmless_append (pre post : List Request) (s : State) :
    AllHarmless pf s (pre ++ post) ↔ AllHarmless pf s pre ∧ AllHarmless pf (run pf s pre) post := by
  induction pre generalizing s with
  | nil => exact ⟨fun h => ⟨trivial, h⟩, fun h => h.2⟩
  | cons r pre ih =>
    rw [List.cons_append, AllHarmless, AllHarmless, ih, and_assoc]
    rfl

/-- the run lemma: the invariant of one device along harmless requests -/
theorem run_operational {reqs : List Request} (hh : AllHarmless pf s reqs)
    (h : s.Rfnop d → (s.device d).Operational) :
    (run pf s reqs).Rfnop d → ((run pf s reqs).device d).Operational := by
  induction reqs generalizing s with
  | nil => exact h
  | cons r reqs ih => exact ih hh.2 fun hr => (step_operational h hh.1 hr).1

theorem run_rowners {mid : List Request} (hh : AllHarmless pf s mid)
    (h : s.Rfnop d → (s.device d).Operational)
    (hr : ∀ k, k ≤ mid.length → (run pf s (mid.take k)).Rfnop d) :
    ((run pf s mid).device d).rowners = (s.device d).rowners := by
  induction mid generalizing s with
  | nil => rfl
  | cons r mid ih =>
    have h0 : s.Rfnop d := hr 0 (Nat.zero_le _)
    have h1 : (step pf s r).Rfnop d := hr 1 (Nat.succ_le_succ (Nat.zero_le _))
    obtain ⟨ho, hrow⟩ := step_operational h hh.1 h1
    have hrest := ih hh.2 (fun _ => ho) fun k hk => hr (k + 1) (Nat.succ_le_succ hk)
    exact hrest.trans (hrow h0)

theorem run_append_list (pf : Platform) (s : State) (a b : List Request) :
    run pf s (a ++ b) = run pf (run pf s a) b := List.foldl_append

theorem operational_run (pf : Platform) (reqs : List Request)
    (h : AllHarmless pf (initState pf) reqs) : OperationalRun pf reqs where
  operational pre post d he hr := by
    rw [he, allHarmless_append] at h
    exact run_operational h.1 (fun hr => absurd hr (initState_not_rfnop pf d)) hr
  rowners pre mid post d he hr := by
    rw [he, allHarmless_append, allHarmless_append] at h
    have hpre := run_operational (d := d) h.1.1 fun hr => absurd hr (initState_not_rfnop pf d)
    rw [run_append_list]
    refine run_rowners h.1.2 hpre fun k hk => ?_
    rw [← run_append_list]
    exact hr k hk

/-! ## a device and a peer that asserts a role -/

/-- a peer of device 0 -/
def rolePeer : Peer :=
  ⟨1, ⟨0, ⟨false, true, true, false, false, false, false⟩, 5684, [10, 0, 0, 2]⟩, Uuid.nil.set 0 0xB0, [],
    false⟩

/-- device 0 is onboarded, and the peer posts to its roles -/
def rolesRun (rep : List Rep) : List Request :=
  provision 0 ++ [operate 0, .postRoles 0 rolePeer rep]

theorem operational_run_roles :
    AllHarmless (plainPlatform 1) (initState (plainPlatform 1)) (rolesRun []) ∧
      OperationalRun (plainPlatform 1) (rolesRun []) := by
  have h : AllHarmless (plainPlatform 1) (initState (plainPlatform 1)) (rolesRun []) := by
    refine ⟨trivial, trivial, trivial, fun hs => ?_, fun _ => ⟨fun r hr => ?_, Or.inr ?_⟩, trivial⟩
    · exact absurd hs (by unfold State.Rfnop; decide +kernel)
    · cases hr
    · rintro ⟨r, hr, -⟩
      cases hr
  exact ⟨h, operational_run _ _ h⟩

/-- a rowneruuid that no credential of the device knows -/
def strangerText : Rep :=
  .mk (ascii "rowneruuid") (.string (ascii "b0000000-0000-0000-0000-000000000000"))

theorem roles_change_rowner :
    ¬ OperationalRun (plainPlatform 1) (rolesRun [strangerText]) := by
  intro h
  have ho := h.operational (rolesRun [strangerText]) [] 0 (List.append_nil _).symm
    (by unfold State.Rfnop; decide +kernel)
  have hu : ((run (plainPlatform 1) (initState (plainPlatform 1))
      (rolesRun [strangerText])).device 0).creds.rowneruuid = Uuid.nil.set 0 0xB0 := by
    decide +kernel
  have hk := (ho.rowners _ (List.mem_of_getElem? (i := 3) rfl)).2
  rw [hu] at hk
  revert hk
  unfold Device.Knows
  decide +kernel

end Security
