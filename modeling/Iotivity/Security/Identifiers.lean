import Iotivity.Security.Operational
import Iotivity.Security.Persist
import Iotivity.Security.Reset

/-!
# Ids of ACEs and credentials

An ACE or a credential gets its id from a payload or from the random generator.  Before an explicit
id is used the entry that has it is removed, and a random one is drawn until it is not in use; so no
id is given twice, whatever the operations on a device and their order.

* `Held`           the ACEs with a given id are those a payload means by it;
* `Event`          the operations on the lists of a device;
* `distinct_run`   no two ACEs and no two credentials of a device share an id, in every run.
-/

namespace Security

/-! ## the ids of a list of ACEs -/

/-- the ids of a list of ACEs -/
def aceids (aces : List Ace) : List Int := aces.map Ace.aceid

/-- an ACE with this id has this subject and this permission -/
def Held (subject : Subject) (aceid : Int) (permission : UInt16) (aces : List Ace) : Prop :=
  ∀ ace ∈ aces, ace.aceid = aceid → ace.subject = subject ∧ ace.permission = permission

theorem held_of_not_mem {subject : Subject} {aceid : Int} {permission : UInt16} {aces : List Ace}
    (h : aceid ∉ aceids aces) : Held subject aceid permission aces := by
  intro ace ha he
  exact absurd (he ▸ List.mem_map_of_mem ha) h

section
variable {pf : Platform} {subject : Subject} {aceid : Int} {permission : UInt16}
  {href : Option Bytes} {wildcard : UInt32} {rt : Option (List Bytes)} {ifaceMask : UInt32}

/-- adding an entry changes neither the subject nor the id nor the permission of an ACE -/
theorem addRes_head (ace : Ace) :
    (ace.addRes href wildcard rt ifaceMask).subject = ace.subject ∧
      (ace.addRes href wildcard rt ifaceMask).aceid = ace.aceid ∧
      (ace.addRes href wildcard rt ifaceMask).permission = ace.permission := by
  unfold Ace.addRes
  split
  · exact ⟨rfl, rfl, rfl⟩
  · exact ⟨rfl, rfl, rfl⟩

theorem modify_addRes {aces : List Ace} {i : Nat} {ace : Ace}
    (h : ace ∈ aces.modify i (·.addRes href wildcard rt ifaceMask)) :
    ∃ ace' ∈ aces, ace.subject = ace'.subject ∧ ace.aceid = ace'.aceid ∧
      ace.permission = ace'.permission := by
  obtain ⟨j, hj⟩ := List.mem_iff_getElem?.mp h
  rw [List.getElem?_modify] at hj
  obtain ⟨ace', ha, he⟩ := Option.map_eq_some_iff.mp hj
  refine ⟨ace', List.mem_of_getElem? ha, ?_⟩
  split at he
  · rw [← he]
    exact addRes_head ace'
  · rw [← he]
    exact ⟨rfl, rfl, rfl⟩

theorem aceids_modify (aces : List Ace) (i : Nat) :
    aceids (aces.modify i (·.addRes href wildcard rt ifaceMask)) = aceids aces := by
  exact Scan.map_modify_same (fun ace => (addRes_head ace).2.1) aces i

theorem subjectTest_held {aces : List Ace} (hh : Held subject aceid permission aces) {ace : Ace}
    (ha : ace ∈ aces) (he : ace.aceid = aceid) : subjectTest subject aceid permission ace = true := by
  obtain ⟨h1, h2⟩ := hh ace ha he
  exact decide_eq_true ⟨Or.inr he, Or.inr h2, h1⟩

/-- where no ACE fits, none has the id -/
theorem not_mem_of_findIdx? {aces : List Ace} (hh : Held subject aceid permission aces)
    (hn : aces.findIdx? (subjectTest subject aceid permission) = none) : aceid ∉ aceids aces := by
  intro hm
  obtain ⟨ace, ha, he⟩ := List.mem_map.mp hm
  have hf := List.findIdx?_eq_none_iff.mp hn ace ha
  rw [subjectTest_held hh ha he] at hf
  cases hf

theorem nodup_snoc {l : List Int} {a : Int} (hl : l.Nodup) (ha : a ∉ l) : (l ++ [a]).Nodup := by
  rw [List.nodup_append]
  refine ⟨hl, List.nodup_singleton a, ?_⟩
  intro x hx y hy he
  cases List.mem_singleton.mp hy
  exact ha (he ▸ hx)

variable (pf href wildcard rt ifaceMask)

/-- an update keeps the ids apart, and the ACEs with its own id are those it means -/
theorem updateRes_distinct {x : List Ace × Nat} (hn : (aceids x.1).Nodup)
    (hh : aceid = -1 ∨ Held subject aceid permission x.1) :
    (aceids (ocSecAceUpdateRes pf subject aceid permission href wildcard rt ifaceMask x).1).Nodup ∧
      (aceid = -1 ∨ Held subject aceid permission
        (ocSecAceUpdateRes pf subject aceid permission href wildcard rt ifaceMask x).1) := by
  unfold ocSecAceUpdateRes
  cases hf : x.1.findIdx? (subjectTest subject aceid permission) with
  | some i =>
    dsimp only
    rw [aceids_modify]
    refine ⟨hn, hh.imp id fun hh ace ha he => ?_⟩
    obtain ⟨ace', ha', h1, h2, h3⟩ := modify_addRes ha
    rw [h1, h3]
    exact hh ace' ha' (h2 ▸ he)
  | none =>
    dsimp only
    split
    · next hc =>
      refine ⟨?_, Or.inl hc⟩
      dsimp only
      unfold aceids
      rw [List.map_append]
      exact nodup_snoc hn (pf.newId_not_mem _ _)
    · next hc =>
      have hh := hh.resolve_left hc
      refine ⟨?_, Or.inr fun ace ha he => ?_⟩
      · dsimp only
        unfold aceids
        rw [List.map_append]
        exact nodup_snoc hn (not_mem_of_findIdx? hh hf)
      · rcases List.mem_append.mp ha with ha | ha
        · exact hh ace ha he
        · cases List.mem_singleton.mp ha
          exact ⟨rfl, rfl⟩

/-- an update under one id says nothing about another -/
theorem updateRes_held_ne {x : List Ace × Nat} {subject' : Subject} {aceid' : Int}
    {permission' : UInt16} (hne : aceid ≠ aceid') (hc : aceid ≠ -1)
    (hh : Held subject' aceid' permission' x.1) :
    Held subject' aceid' permission'
      (ocSecAceUpdateRes pf subject aceid permission href wildcard rt ifaceMask x).1 := by
  unfold ocSecAceUpdateRes
  cases hf : x.1.findIdx? (subjectTest subject aceid permission) with
  | some i =>
    intro ace ha he
    obtain ⟨ace', ha', h1, h2, h3⟩ := modify_addRes ha
    rw [h1, h3]
    exact hh ace' ha' (h2 ▸ he)
  | none =>
    dsimp only
    rw [if_neg hc]
    intro ace ha he
    rcases List.mem_append.mp ha with ha | ha
    · exact hh ace ha he
    · cases List.mem_singleton.mp ha
      exact absurd he hne

end

/-! ## what makes a list of ACEs -/

section
variable (pf : Platform) (d : Nat)

/-- the default ACL as it is built: the ACEs 1 and 2 are those for everyone -/
structure DefaultIds (aces : List Ace) : Prop where
  nodup : (aceids aces).Nodup
  read : Held (.conn .anonClear) 1 2 aces
  write : Held (.conn .anonClear) 2 14 aces

theorem defaultAce_ids {x : List Ace × Nat} (i : Nat) (h : DefaultIds x.1) :
    DefaultIds (defaultAce pf d x i).1 := by
  have h1 {x : List Ace × Nat} (h : DefaultIds x.1) : DefaultIds (ocSecAceUpdateRes pf
      (.conn .anonClear) 1 2 (some (pf.core d i).uri) noWc (some (pf.core d i).types)
      (pf.core d i).interfaces x).1 := by
    obtain ⟨hn, hh⟩ := updateRes_distinct pf (some (pf.core d i).uri) noWc
      (some (pf.core d i).types) (pf.core d i).interfaces h.nodup (Or.inr h.read)
    exact ⟨hn, hh.resolve_left (by decide), updateRes_held_ne _ _ _ _ _ (by decide) (by decide) h.write⟩
  have h2 {x : List Ace × Nat} (h : DefaultIds x.1) : DefaultIds (ocSecAceUpdateRes pf
      (.conn .anonClear) 2 14 (some (pf.core d i).uri) noWc (some (pf.core d i).types)
      (pf.core d i).interfaces x).1 := by
    obtain ⟨hn, hh⟩ := updateRes_distinct pf (some (pf.core d i).uri) noWc
      (some (pf.core d i).types) (pf.core d i).interfaces h.nodup (Or.inr h.write)
    exact ⟨hn, updateRes_held_ne _ _ _ _ _ (by decide) (by decide) h.read, hh.resolve_left (by decide)⟩
  unfold defaultAce
  dsimp only
  split
  · exact h
  · split
    · split
      · exact h2 (h1 h)
      · exact h2 h
    · split
      · exact h1 h
      · exact h

theorem foldl_defaultAce_ids (l : List Nat) {x : List Ace × Nat} (h : DefaultIds x.1) :
    DefaultIds (l.foldl (defaultAce pf d) x).1 := by
  induction l generalizing x with
  | nil => exact h
  | cons i l ih => exact ih (defaultAce_ids pf d i h)

theorem defaultAces_nodup : (aceids (defaultAces pf d)).Nodup := by
  have h0 : DefaultIds [] := ⟨List.nodup_nil, List.forall_mem_nil _, List.forall_mem_nil _⟩
  exact (foldl_defaultAce_ids pf d (List.range (1 + ocfD)) (x := ([], 0)) h0).nodup

/-- after the removal no ACE has the id -/
theorem not_mem_removeAce {aces : List Ace} (h : (aceids aces).Nodup) (id : Int) :
    id ∉ aceids (ocAclRemoveAce id aces) := by
  unfold ocAclRemoveAce
  induction aces with
  | nil => exact List.not_mem_nil
  | cons a aces ih =>
    obtain ⟨h1, h2⟩ := List.nodup_cons.mp h
    by_cases ha : a.aceid = id
    · rw [List.eraseP_cons_of_pos (by simpa using ha), ← ha]
      exact h1
    · rw [List.eraseP_cons_of_neg (by simpa using ha)]
      intro hm
      rcases List.mem_cons.mp hm with he | hm
      · exact ha he.symm
      · exact ih h2 hm

theorem nodup_sublist {l m : List Ace} (hs : l.Sublist m) (hm : (aceids m).Nodup) :
    (aceids l).Nodup :=
  hm.sublist (hs.map _)

theorem decodeAclEntry_nodup {x : List Ace × Nat} (entry : List Rep) (h : (aceids x.1).Nodup) :
    (aceids (decodeAclEntry pf x entry).1).Nodup := by
  unfold decodeAclEntry
  dsimp only
  generalize entry.foldl decodeAce AceDraft.empty = a
  -- the ACEs under the id of the payload are gone
  have h0 : (aceids (if a.aceid ≠ -1 then ocAclRemoveAce a.aceid x.1 else x.1)).Nodup ∧
      (a.aceid = -1 ∨ Held a.subject.subject a.aceid a.permission
        (if a.aceid ≠ -1 then ocAclRemoveAce a.aceid x.1 else x.1)) := by
    by_cases hc : a.aceid = -1
    · rw [if_neg (not_not.mpr hc)]
      exact ⟨h, Or.inl hc⟩
    · rw [if_pos hc]
      exact ⟨nodup_sublist List.eraseP_sublist h, Or.inr (held_of_not_mem (not_mem_removeAce h _))⟩
  generalize (if a.aceid ≠ -1 then ocAclRemoveAce a.aceid x.1 else x.1) = aces at h0
  suffices hs : ∀ (l : List (List Rep)) (y : List Ace × Nat), (aceids y.1).Nodup ∧
      (a.aceid = -1 ∨ Held a.subject.subject a.aceid a.permission y.1) →
      (aceids (l.foldl (fun x resource =>
        let r := resource.foldl decodeAceRes ResDraft.empty
        ocSecAceUpdateRes pf a.subject.subject a.aceid a.permission r.href r.wildcard r.rt r.ifaceMask
          x) y).1).Nodup from hs a.resources (aces, x.2) h0
  intro l
  induction l with
  | nil =>
    intro y hy
    exact hy.1
  | cons r l ih =>
    intro y hy
    exact ih _ (updateRes_distinct _ _ _ _ _ hy.1 hy.2)

theorem applyAclProp_nodup {x : Acl × Nat} (rep : Rep) (h : (aceids x.1.subjects).Nodup) :
    (aceids (applyAclProp pf x rep).1.subjects).Nodup := by
  unfold applyAclProp
  split
  · split
    · exact h
    · exact h
  · next objs _ =>
    suffices hs : ∀ (l : List (List Rep)) (y : List Ace × Nat), (aceids y.1).Nodup →
        (aceids (l.foldl (decodeAclEntry pf) y).1).Nodup from hs objs (x.1.subjects, x.2) h
    intro l
    induction l with
    | nil =>
      intro y hy
      exact hy
    | cons e l ih =>
      intro y hy
      exact ih _ (decodeAclEntry_nodup pf e hy)
  · exact h

theorem foldl_applyAclProp_nodup (rep : List Rep) {x : Acl × Nat} (h : (aceids x.1.subjects).Nodup) :
    (aceids (rep.foldl (applyAclProp pf) x).1.subjects).Nodup := by
  induction rep generalizing x with
  | nil => exact h
  | cons r rep ih => exact ih (applyAclProp_nodup pf r h)

end

/-- the clean-up removes ACEs, and entries of those it keeps -/
theorem postOtmAcl_ids (aces : List Ace) :
    (aceids (ocSecSetPostOtmAcl aces)).Sublist (aceids aces) := by
  induction aces with
  | nil => exact List.Sublist.slnil
  | cons ace rest ih =>
    unfold ocSecSetPostOtmAcl
    split
    · dsimp only
      split
      · exact List.sublist_cons_self _ _
      · split
        · exact List.sublist_cons_self _ _
        · exact ih.cons_cons ace.aceid
    · exact ih.cons_cons ace.aceid

/-! ## the operations -/

/-- no two ACEs and no two credentials of a device share an id -/
structure Device.Distinct (dev : Device) : Prop where
  aces : (aceids dev.acl.subjects).Nodup
  creds : (dev.creds.creds.map Cred.credid).Nodup

/-- the operations on the ACEs and the credentials of the devices: requests, defaults, a factory
reset, what is loaded from storage, and the credentials that the application adds and removes -/
inductive Event where
  | request (r : Request)
  | pstatDefault (device : Nat)
  | reset
  | aclDefault (device : Nat)
  | credDefault (device : Nat)
  | loadAcl (device : Nat) (rep : List Rep)
  | loadCred (device : Nat) (rep : List Rep)
  | addCred (device : Nat) (d : CredDraft)
  | removeCred (device : Nat) (i : Nat)

/-- `oc_sec_cred_default` -/
def ocSecCredDefault (creds : Creds) : Creds := ⟨ocSecClearCreds creds.creds, Uuid.nil⟩

/-- one operation; `removeCred` is `oc_sec_remove_cred` on the credential at a place of the list -/
def Event.apply (pf : Platform) (s : State) : Event → State
  | .request r => step pf s r
  | .pstatDefault d => ocSecPstatDefault pf s d
  | .reset => ocSecReset pf s
  | .aclDefault d => s.put d { s.device d with acl := ocSecAclDefault pf d }
  | .credDefault d => s.put d { s.device d with creds := ocSecCredDefault (s.device d).creds }
  | .loadAcl d rep => (ocSecDecodeAcl pf s rep true d).2
  | .loadCred d rep => (ocSecDecodeCred pf s rep true none d).2.2
  | .addCred d x =>
    let r := addDeviceCred pf d (s.device d).di x (s.device d).creds.creds s.draws
    { s.withCreds d r.2.1 with draws := r.2.2 }
  | .removeCred d i => s.withCreds d ((s.device d).creds.creds.eraseIdx i)

/-- a sequence of operations -/
def Event.run (pf : Platform) (s : State) (events : List Event) : State :=
  events.foldl (Event.apply pf) s

/-! ## what one operation keeps -/

/-- the ids are distinct, and the credentials are well kept -/
structure Device.Orderly (dev : Device) : Prop where
  aces : (aceids dev.acl.subjects).Nodup
  creds : WellKept dev.creds.creds

/-- so are all devices -/
def State.Orderly (s : State) : Prop := ∀ d, (s.device d).Orderly

section
variable {pf : Platform} {s : State} {d : Nat}

theorem State.Orderly.put (h : s.Orderly) {x : Device} (hx : x.Orderly) : (s.put d x).Orderly := by
  intro k
  by_cases hk : k = d
  · subst hk
    rw [State.put_device]
    exact hx
  · rw [State.put_device_ne s x hk]
    exact h k

theorem State.Orderly.withCreds (h : s.Orderly) {creds : List Cred} (hc : WellKept creds) :
    (s.withCreds d creds).Orderly :=
  h.put ⟨(h d).aces, hc⟩

theorem decodeAcl_orderly (h : s.Orderly) (rep : List Rep) (fromStorage : Bool) :
    (ocSecDecodeAcl pf s rep fromStorage d).2.Orderly := by
  unfold ocSecDecodeAcl
  dsimp only
  split
  · have hx := foldl_applyAclProp_nodup pf rep (x := ((s.device d).acl, s.draws)) (h d).aces
    exact h.put ⟨hx, (h d).creds⟩
  · exact h

theorem deleteAcl_orderly (h : s.Orderly) (aceid : Option Int) : (deleteAcl s d aceid).Orderly := by
  unfold deleteAcl
  dsimp only
  split
  · exact h
  · split
    · split
      · exact h
      · exact h.put ⟨nodup_sublist List.eraseP_sublist (h d).aces, (h d).creds⟩
    · exact h.put ⟨List.nodup_nil, (h d).creds⟩

/-! ### credentials -/

/-- the ACL is not what `oc_sec_decode_cred` works on -/
theorem decodeCred_acl (rep : List Rep) (fromStorage : Bool) (client : Option Peer) :
    ((ocSecDecodeCred pf s rep fromStorage client d).2.2.device d).acl = (s.device d).acl := by
  unfold ocSecDecodeCred
  dsimp only
  split
  · show ((s.put d _).device d).acl = _
    rw [State.put_device]
  · rfl

/-- roles are not credentials of the device -/
theorem decodeCred_roles (rep : List Rep) (fromStorage : Bool) (client : Peer) :
    ((ocSecDecodeCred pf s rep fromStorage (some client) d).2.2.device d).creds.creds =
      (s.device d).creds.creds := by
  have hi := runUntil_inv (f := decodeCredRep pf d (s.device d).di (some client)) (l := rep)
    (fun r => r.creds = (s.device d).creds.creds) (fun t _ r hr => by
      unfold decodeCredRep
      split
      · split
        · exact hr
        · exact hr
      · split
        · refine runUntil_inv (fun r : CredRun => r.creds = _) (fun entry _ r hr => ?_) hr
          exact (decodeCredEntry_roles pf d _ client entry r).1.trans hr
        · exact hr
      · exact hr) (b := s.credRun d (some client)) rfl
  show ((s.put d _).device d).creds.creds = _
  rw [State.put_device]
  exact hi

theorem decodeCred_orderly (h : s.Orderly) (rep : List Rep) (fromStorage : Bool)
    (client : Option Peer) : (ocSecDecodeCred pf s rep fromStorage client d).2.2.Orderly := by
  intro k
  by_cases hk : k = d
  · subst hk
    refine ⟨?_, ?_⟩
    · rw [decodeCred_acl]
      exact (h k).aces
    · cases client with
      | none => exact ocSecDecodeCred_wellKept s rep fromStorage (h k).creds
      | some client =>
        rw [decodeCred_roles]
        exact (h k).creds
  · rw [(decodeCred_framed pf s d fromStorage client rep).others k hk]
    exact h k

/-- the key of the owner takes the place of the private data -/
theorem WellKept.withKey {creds : List Cred} (h : WellKept creds) (id : Int) (key : Bytes) :
    WellKept (creds.map fun c =>
      if c.credid = id then { c with privatedata := ⟨key, .raw⟩ } else c) where
  nodup := by
    have he : (creds.map fun c =>
        if c.credid = id then { c with privatedata := ⟨key, .raw⟩ } else c).map
        Cred.credid = creds.map Cred.credid := by
      rw [List.map_map]
      refine List.map_congr_left fun c _ => ?_
      show Cred.credid (if c.credid = id then _ else c) = _
      split
      · rfl
      · rfl
    rw [he]
    exact h.nodup
  proper c hc := by
    obtain ⟨c', hc', rfl⟩ := List.mem_map.mp hc
    have hp := h.proper c' hc'
    split
    · exact ⟨hp.credid, hp.role, hp.authority, fun _ => Encoding.noConfusion, hp.publicdata⟩
    · exact hp

theorem postCred_orderly (h : s.Orderly) (client : Option Peer) (rep : List Rep) :
    (postCred pf s d client rep).Orderly := by
  have hd : (ocSecDecodeCred pf s rep false client d).2.2.Orderly :=
    decodeCred_orderly h rep false client
  have hr (id : Int) : WellKept (ocSecRemoveCredByCredid id
      ((ocSecDecodeCred pf s rep false client d).2.2.device d).creds.creds) :=
    (hd d).creds.sub List.eraseP_sublist
  unfold postCred
  dsimp only
  split
  · exact hd
  split
  · exact hd.withCreds (hr _)
  split
  · split
    · exact hd.withCreds (hr _)
    · exact hd.withCreds ((hd d).creds.withKey _ _)
  · exact hd

theorem deleteCred_orderly (h : s.Orderly) (credid : Option Int) : (deleteCred s d credid).Orderly := by
  unfold deleteCred
  split
  · exact h
  · split
    · split
      · exact h
      · exact h.withCreds ((h d).creds.sub List.eraseP_sublist)
    · exact h.withCreds ⟨List.nodup_nil, List.forall_mem_nil _⟩

/-! ### status and ownership -/

theorem resetState_orderly (h : s.Orderly) : (resetState pf s d).Orderly :=
  h.put ⟨defaultAces_nodup pf d, (h d).creds.sub List.filter_sublist⟩

theorem Handled.orderly {ps : Pstat} {r : Bool × Pstat × State} (hh : Handled pf s d ps r)
    (h : s.Orderly) : r.2.2.Orderly := by
  cases hh with
  | refused => exact h
  | reset _ =>
    have hr : (resetState pf s d).Orderly := resetState_orderly h
    exact hr.put ⟨(hr d).aces, (hr d).creds⟩
  | rfotm => exact h.put ⟨(h d).aces, (h d).creds⟩
  | owned => exact h.put ⟨(h d).aces, (h d).creds⟩

theorem decodePstat_orderly (h : s.Orderly) (rep : List Rep) :
    (ocSecDecodePstat pf s rep false d).2.Orderly := by
  have hd := decoded pf s d rep
  generalize ocSecDecodePstat pf s rep false d = r at hd
  cases hd with
  | refused => exact h
  | stored x => exact h.put ⟨(h d).aces, (h d).creds⟩
  | moved x ps' s' _ _ _ hh =>
    have hs : s'.Orderly := hh.orderly h
    dsimp only
    split
    · exact hs.put ⟨(hs d).aces.sublist (postOtmAcl_ids _), (hs d).creds⟩
    · exact hs

theorem decodeDoxm_orderly (h : s.Orderly) (rep : List Rep) :
    (ocSecDecodeDoxm pf s rep false d).2.Orderly := by
  unfold ocSecDecodeDoxm
  dsimp only
  split
  · obtain ⟨doxm, di, hx⟩ := foldl_doxm_frame pf false rep (s.device d, s.draws)
    rw [hx]
    exact h.put ⟨(h d).aces, (h d).creds⟩
  · exact h

theorem deleteRoles_device (client : Nat) (credid : Option Int) :
    (deleteRoles s client credid).device = s.device := by
  unfold deleteRoles
  split
  · dsimp only
    split
    · rfl
    · rfl
  · rfl

theorem step_orderly (h : s.Orderly) (r : Request) : (step pf s r).Orderly := by
  cases r with
  | postPstat d rep => exact decodePstat_orderly h rep
  | postDoxm d rep => exact decodeDoxm_orderly h rep
  | postAcl d rep => exact decodeAcl_orderly h rep false
  | deleteAcl d id => exact deleteAcl_orderly h id
  | postCred d rep => exact postCred_orderly h none rep
  | deleteCred d id => exact deleteCred_orderly h id
  | postRoles d client rep => exact postCred_orderly h (some client) rep
  | deleteRoles d client id =>
    intro k
    show ((deleteRoles s client id).device k).Orderly
    rw [deleteRoles_device]
    exact h k
  | postSp d rep =>
    show (ocSecDecodeSp s rep d).2.Orderly
    unfold ocSecDecodeSp
    dsimp only
    split
    · exact h
    · exact h.put ⟨(h d).aces, (h d).creds⟩

theorem resetLoop_orderly (h : s.Orderly) (n : Nat) : (resetLoop pf s n).2.Orderly := by
  induction n with
  | zero => exact h
  | succ n ih =>
    rw [resetLoop_succ]
    exact (handled pf (resetLoop pf s n).2 n (resetLoop pf s n).1).orderly ih

theorem apply_orderly (h : s.Orderly) (e : Event) : (e.apply pf s).Orderly := by
  cases e with
  | request r => exact step_orderly h r
  | pstatDefault d => exact (handled pf s d _).orderly h
  | reset => exact resetLoop_orderly h pf.numDevices
  | aclDefault d => exact h.put ⟨defaultAces_nodup pf d, (h d).creds⟩
  | credDefault d => exact h.put ⟨(h d).aces, (h d).creds.sub List.filter_sublist⟩
  | loadAcl d rep => exact decodeAcl_orderly h rep true
  | loadCred d rep => exact decodeCred_orderly h rep true none
  | addCred d x =>
    exact h.withCreds
      ((addDeviceCred_outcome pf d (s.device d).di x (s.device d).creds.creds s.draws).wellKept
        (h d).creds)
  | removeCred d i => exact h.withCreds ((h d).creds.sub (List.eraseIdx_sublist _ _))

theorem run_orderly (h : s.Orderly) (events : List Event) : (Event.run pf s events).Orderly := by
  induction events generalizing s with
  | nil => exact h
  | cons e events ih => exact ih (apply_orderly h e)

theorem zero_orderly : State.zero.Orderly := by
  intro d
  exact ⟨List.nodup_nil, List.nodup_nil, List.forall_mem_nil _⟩

end

end Security
