import Iotivity.Security.CredStore

/-!
# Requests as calls on the store

`State` holds the credentials of a device as a list, with links by id.  `Pki.Shows` says that a store
holds the same credentials, links apart.  Every call shows the step that `addDeviceCred`,
`ocSecRemoveCredByCredid` or `ocSecClearCreds` make on the lists, and a request to `/oic/sec/cred` is
a sequence of calls (`postCred_calls`, `deleteCred_calls`).
-/

namespace Security
open Links

/-! ## credentials without their links -/

def Search.data : Search → Search
  | .chain i c => .chain i c.data
  | s => s

theorem searchCreds_data (d : CredDraft) (subject : Uuid) (k : Nat) (l : List Cred) :
    searchCreds d subject k (l.map Cred.data) = (searchCreds d subject k l).data := by
  induction l generalizing k with
  | nil => rfl
  | cons c l ih =>
    rw [List.map_cons]
    unfold searchCreds
    rw [ih]
    show (if c.subjectuuid = subject ∧ c.credtype = d.credtype then
        if c.credid = d.credid then Search.replaced k
        else if d.credtype = credtypeCert ∧ c.credusage = d.credusage then
          if d.publicdata.data ≠ [] ∧ d.publicdata.data = c.publicdata.data then
            Search.duplicate c.credid
          else if c.credusage ≠ .trustca ∧ c.credusage ≠ .mfgTrustca then Search.chain k c.data
          else (searchCreds d subject (k + 1) l).data
        else (searchCreds d subject (k + 1) l).data
      else (searchCreds d subject (k + 1) l).data) = _
    repeat' split
    all_goals rfl

theorem chooseCredid_data (pf : Platform) (credid : Int) (l : List Cred) (draws : Nat) :
    chooseCredid pf credid (l.map Cred.data) draws = chooseCredid pf credid l draws := by
  unfold chooseCredid
  rw [List.map_map]
  rfl

theorem eraseP_data (credid : Int) (l : List Cred) :
    (ocSecRemoveCredByCredid credid l).map Cred.data =
      (l.map Cred.data).eraseP (·.credid = credid) := by
  rw [List.eraseP_map]
  rfl

/-- `oc_sec_add_new_cred` after its first checks -/
theorem addDeviceCred_admits (pf : Platform) (device : Nat) (di : Uuid) (d : CredDraft)
    (creds : List Cred) (draws : Nat) : addDeviceCred pf device di d creds draws =
      match d.admit pf device di with
      | none => (-1, creds, draws)
      | some (subject, kp) =>
        let creds := ocSecRemoveCredByCredid d.credid creds
        match searchCreds d subject 0 creds with
        | .fresh => storeCred pf d subject kp creds draws
        | .replaced i => storeCred pf d subject kp (creds.eraseIdx i) draws
        | .duplicate id => (id, creds, draws)
        | .chain i chain => storeInChain pf d subject kp i chain creds draws := by
  unfold addDeviceCred CredDraft.admit
  cases d.subject with
  | none => rfl
  | some subject =>
    dsimp only
    split
    · rfl
    · rfl

namespace Pki
variable {n : Nat} {x : X509} {pf : Platform} {d : Fin n} {di : Uuid} {dr : CredDraft}
  {subject : Uuid} {kp : Option Bytes} {draws : Nat} {p : Pki n} {l : List Cred}

/-- a device has these credentials -/
def ShowsAt (p : Pki n) (d : Fin n) (l : List Cred) : Prop :=
  (p.creds d).map Node.val = l.map Cred.data

/-! ## removing -/

theorem eraseP_eq_filter {α β : Type} [DecidableEq β] {f : α → β} {l : List α}
    (h : (l.map f).Nodup) (b : β) : l.eraseP (fun a => f a = b) = l.filter (fun a => f a ≠ b) := by
  induction l with
  | nil => rfl
  | cons a l ih =>
    obtain ⟨ha, hl⟩ := List.nodup_cons.mp h
    by_cases hb : f a = b
    · rw [List.eraseP_cons_of_pos (by simpa using hb), List.filter_cons_of_neg (by simpa using hb),
        List.filter_eq_self.mpr]
      intro c hc
      apply decide_eq_true
      intro hcb
      exact ha (List.mem_map.mpr ⟨c, hc, hcb.trans hb.symm⟩)
    · rw [List.eraseP_cons_of_neg (by simpa using hb), List.filter_cons_of_pos (by simpa using hb),
        ih hl]

theorem removeCredByCredid_shows (h : p.Wf) (hl : p.ShowsAt d l) (credid : Int) :
    (p.removeCredByCredid d credid).ShowsAt d (ocSecRemoveCredByCredid credid l) := by
  unfold ShowsAt
  rw [(removeCredByCredid_creds h credid).1, put_self, eraseP_data, ← hl, List.eraseP_map,
    ← eraseP_eq_filter (h.credids d)]
  rfl

theorem clearCreds_shows (h : p.Wf) (hl : p.ShowsAt d l) :
    (p.clearCreds d).ShowsAt d (ocSecClearCreds l) := by
  unfold ShowsAt
  have hd : (ocSecClearCreds l).map Cred.data = (l.map Cred.data).filter fun c =>
      c.credusage = .mfgTrustca ∨ c.credusage = .mfgCert := by
    rw [List.filter_map]
    rfl
  rw [(clearCreds_creds h).1, put_self, hd, ← hl, List.filter_map]
  rfl

theorem freeCreds_shows (h : p.Wf) : (p.freeCreds d).ShowsAt d [] := by
  unfold ShowsAt
  rw [(freeCreds_creds h).1, put_self, List.filter_eq_nil_iff.mpr (by simp)]
  rfl

/-! ## adding -/

theorem newCredid_shows (hl : p.ShowsAt d l) :
    p.newCredid pf d dr draws = (chooseCredid pf dr.credid l draws).1 := by
  rw [newCredid, hl, chooseCredid_data]

theorem storeCred_shows (hl : p.ShowsAt d l) :
    (p.storeCred x pf d dr subject kp draws).1 = (Security.storeCred pf dr subject kp l draws).1 ∧
      (p.storeCred x pf d dr subject kp draws).2.ShowsAt d
        (Security.storeCred pf dr subject kp l draws).2.1 := by
  unfold storeCred Security.storeCred
  rw [newCredid_shows hl]
  cases dr.storedPrivate kp with
  | none => exact ⟨rfl, hl⟩
  | some priv =>
    refine ⟨rfl, ?_⟩
    show ((settle x dr _).creds d).map Node.val = _
    rw [(settle_creds (x := x) dr _).1]
    show (Function.update p.creds d _ d).map Node.val = _
    rw [Function.update_self, List.map_append, List.map_append, hl]
    rfl

theorem storeInChain_shows (hl : p.ShowsAt d l) {e : Entry} {c : Cred} (hc : e.val = c.data)
    (i : Nat) :
    (p.storeInChain x pf d dr subject kp e draws).1 =
        (Security.storeInChain pf dr subject kp i c l draws).1 ∧
      (p.storeInChain x pf d dr subject kp e draws).2.ShowsAt d
        (Security.storeInChain pf dr subject kp i c l draws).2.1 := by
  have hk : e.val.privatedata = c.privatedata := by rw [hc]; rfl
  unfold storeInChain Security.storeInChain
  rw [newCredid_shows hl, hk]
  cases dr.storedPrivate kp with
  | none => exact ⟨rfl, hl⟩
  | some priv =>
    dsimp only
    split
    · refine ⟨rfl, ?_⟩
      show ((settle x dr _).creds d).map Node.val = _
      rw [(settle_creds (x := x) dr _).1]
      show (Function.update p.creds d _ d).map Node.val = _
      rw [Function.update_self, List.map_append, List.map_append,
        map_val_update (f := Node.withNext _) (fun _ => rfl), hl,
        Scan.map_modify_same (g := fun c : Cred =>
          { c with chain := some (chooseCredid pf dr.credid l draws).1 }) (fun _ => rfl)]
      rfl
    · split
      · refine ⟨rfl, ?_⟩
        show ((settle x dr _).creds d).map Node.val = _
        rw [(settle_creds (x := x) dr _).1]
        show (Function.update p.creds d _ d).map Node.val = _
        rw [Function.update_self, List.map_append, List.map_append,
          map_val_update (f := Node.withPrev _) (fun _ => rfl), hl,
          Scan.map_modify_same (g := fun c : Cred =>
            { c with child := some (chooseCredid pf dr.credid l draws).1 }) (fun _ => rfl)]
        rfl
      · exact ⟨rfl, hl⟩

/-- `oc_sec_add_new_cred` on the store and on the list -/
theorem add_shows (h : p.Wf) (hl : p.ShowsAt d l) :
    (p.add x pf d di dr draws).1 = (addDeviceCred pf d di dr l draws).1 ∧
      (p.add x pf d di dr draws).2.ShowsAt d (addDeviceCred pf d di dr l draws).2.1 := by
  have hr := removeCredByCredid_shows h hl dr.credid
  have hw := h.removeCredByCredid (d := d) dr.credid
  have hgone := (removeCredByCredid_creds (d := d) h dr.credid).1
  rw [addDeviceCred_admits]
  unfold add
  cases dr.admit pf d di with
  | none => exact ⟨rfl, hl⟩
  | some a =>
    obtain ⟨subject, kp⟩ := a
    generalize p.removeCredByCredid d dr.credid = q at hr hw hgone
    generalize ocSecRemoveCredByCredid dr.credid l = m at hr
    have hs : q.search d dr subject = (searchCreds dr subject 0 m).data := by
      rw [search, hr, searchCreds_data]
    dsimp only
    rw [hs]
    cases hm : searchCreds dr subject 0 m with
    | fresh => exact storeCred_shows hr
    | duplicate credid => exact ⟨rfl, hr⟩
    | replaced i =>
      -- the credential with the id has been removed
      rw [hm] at hs
      obtain ⟨-, c, hc, hid⟩ := searchCreds_replaced hs
      obtain ⟨e, he, rfl⟩ := List.mem_map.mp (List.mem_of_getElem? hc)
      rw [hgone, put_self] at he
      exact absurd hid (of_decide_eq_true (List.mem_filter.mp he).2)
    | chain i c =>
      rw [hm] at hs
      obtain ⟨-, hc, -⟩ := searchCreds_chain hs
      rw [List.getElem?_map, Nat.sub_zero] at hc
      dsimp only [Search.data]
      cases hi : (q.creds d)[i]? with
      | none =>
        rw [hi] at hc
        cases hc
      | some e =>
        rw [hi] at hc
        exact storeInChain_shows hr (Option.some.inj hc) i

/-- the other devices are not touched -/
theorem add_other (h : p.Wf) {d' : Fin n} (hd : d' ≠ d) :
    (p.add x pf d di dr draws).2.creds d' = p.creds d' := by
  have ha := add_added h x pf d di dr draws
  have hr : (p.removeCredByCredid d dr.credid).creds d' = p.creds d' := by
    rw [(removeCredByCredid_creds h dr.credid).1, put_ne _ hd]
  generalize (p.add x pf d di dr draws).2 = q at ha
  cases ha with
  | refused ha => rfl
  | dropped ha h1 h2 hk => exact hr
  | alone ha h1 h2 hr' hp =>
    subst hr'
    rw [(settle_creds (x := x) dr _).1, ← hr]
    exact Function.update_of_ne hd ..
  | after ha h1 h2 hr' he hu hn =>
    subst hr'
    rw [← hr]
    exact Function.update_of_ne hd ..
  | before ha h1 h2 hr' he hu hn =>
    subst hr'
    rw [← hr]
    exact Function.update_of_ne hd ..

/-! ## requests -/

/-- calls on one device lead to these credentials, and leave the other devices -/
def Leads (x : X509) (pf : Platform) (p : Pki n) (d : Fin n) (l : List Cred) : Prop :=
  ∃ ops, (p.run x pf ops).Wf ∧ (p.run x pf ops).ShowsAt d l ∧
    ∀ d', d' ≠ d → (p.run x pf ops).creds d' = p.creds d'

theorem run_snoc (ops : List (CredOp n)) (op : CredOp n) :
    p.run x pf (ops ++ [op]) = op.apply x pf (p.run x pf ops) := by
  rw [run, List.foldl_append]
  rfl

theorem Leads.refl (h : p.Wf) (hl : p.ShowsAt d l) : Leads x pf p d l := ⟨[], h, hl, fun _ _ => rfl⟩

theorem Leads.add (h : Leads x pf p d l) (di : Uuid) (dr : CredDraft) (draws : Nat) :
    Leads x pf p d (addDeviceCred pf d di dr l draws).2.1 := by
  obtain ⟨ops, hw, hl, ho⟩ := h
  refine ⟨ops ++ [.add d di dr draws], ?_, ?_, ?_⟩
  · rw [run_snoc]
    exact hw.apply _
  · rw [run_snoc]
    exact (add_shows hw hl).2
  · intro d' hd
    rw [run_snoc, ← ho d' hd]
    exact add_other hw hd

theorem Leads.remove (h : Leads x pf p d l) (credid : Int) :
    Leads x pf p d (ocSecRemoveCredByCredid credid l) := by
  obtain ⟨ops, hw, hl, ho⟩ := h
  generalize hq : p.run x pf ops = q at hw hl ho
  have hs := removeCredByCredid_shows hw hl credid
  cases hf : (q.creds d).find? (·.val.credid = credid) with
  | none =>
    refine ⟨ops, hq ▸ hw, ?_, hq ▸ ho⟩
    rw [removeCredByCredid, hf] at hs
    exact hq ▸ hs
  | some e =>
    rw [removeCredByCredid, hf] at hs
    have he := List.mem_of_find?_eq_some hf
    have hc := (removeAt_creds d e.addr q).1
    refine ⟨ops ++ [.remove d e.addr], ?_, ?_, ?_⟩
    · rw [run_snoc, hq]
      exact hw.apply _
    · rw [run_snoc, hq]
      show ((q.removeAt d e.addr).creds d).map Node.val = _
      rw [hc]
      exact hs
    · intro d' hd
      rw [run_snoc, hq, ← ho d' hd]
      show (q.removeAt d e.addr).creds d' = _
      rw [hc, put_ne _ hd]

theorem Leads.clear (h : Leads x pf p d l) : Leads x pf p d (ocSecClearCreds l) := by
  obtain ⟨ops, hw, hl, ho⟩ := h
  refine ⟨ops ++ [.clear d], ?_, ?_, ?_⟩
  · rw [run_snoc]
    exact hw.apply _
  · rw [run_snoc]
    exact clearCreds_shows hw hl
  · intro d' hd
    rw [run_snoc, ← ho d' hd]
    show ((p.run x pf ops).clearCreds d).creds d' = _
    rw [(clearCreds_creds hw).1, put_ne _ hd]

theorem Leads.free (h : Leads x pf p d l) : Leads x pf p d [] := by
  obtain ⟨ops, hw, hl, ho⟩ := h
  refine ⟨ops ++ [.free d], ?_, ?_, ?_⟩
  · rw [run_snoc]
    exact hw.apply _
  · rw [run_snoc]
    exact freeCreds_shows hw
  · intro d' hd
    rw [run_snoc, ← ho d' hd]
    show ((p.run x pf ops).freeCreds d).creds d' = _
    rw [(freeCreds_creds hw).1, put_ne _ hd]

theorem Leads.setKey (h : Leads x pf p d l) (credid : Int) (key : Bytes) :
    Leads x pf p d (l.map fun c =>
      if c.credid = credid then { c with privatedata := ⟨key, .raw⟩ } else c) := by
  obtain ⟨ops, hw, hl, ho⟩ := h
  refine ⟨ops ++ [.setKey d credid key], ?_, ?_, ?_⟩
  · rw [run_snoc]
    exact hw.apply _
  · rw [run_snoc]
    show ((p.run x pf ops).setKey d credid key).ShowsAt d _
    unfold ShowsAt at hl ⊢
    rw [setKey_creds, put_self, List.map_map]
    have hk : Node.val ∘ keyed credid key = (fun c : Cred =>
        if c.credid = credid then { c with privatedata := ⟨key, .raw⟩ } else c) ∘ Node.val := by
      funext e
      show (keyed credid key e).val = if e.val.credid = credid then _ else _
      unfold keyed
      split
      · rfl
      · rfl
    rw [hk, ← List.map_map, hl, List.map_map, List.map_map]
    apply List.map_congr_left
    intro c _
    show (if c.credid = credid then _ else _) = Cred.data (if c.credid = credid then _ else _)
    split
    · rfl
    · rfl
  · intro d' hd
    rw [run_snoc, ← ho d' hd]
    show ((p.run x pf ops).setKey d credid key).creds d' = _
    rw [setKey_creds, put_ne _ hd]

theorem decodeCredEntry_leads {client : Option Peer} (entry : List Rep) {r : CredRun}
    (h : Leads x pf p d r.creds) :
    Leads x pf p d (decodeCredEntry pf d di client entry r).2.creds := by
  have hadd : ∀ dr : CredDraft, Leads x pf p d (ocSecAddNewCred pf d di client dr r).2.creds := by
    intro dr
    cases client with
    | none => exact h.add di dr r.draws
    | some client => exact h
  unfold decodeCredEntry
  cases entry.foldlM decodeCredProp CredDraft.empty with
  | none => exact h
  | some dr =>
    dsimp only
    split
    · exact h
    · split
      · exact hadd dr
      · split
        · exact hadd dr
        · exact hadd dr

theorem decodeCredRep_leads {client : Option Peer} (rep : Rep) {r : CredRun}
    (h : Leads x pf p d r.creds) :
    Leads x pf p d (decodeCredRep pf d di client rep r).2.creds := by
  unfold decodeCredRep
  split
  · split
    · exact h
    · exact h
  · split
    · exact runUntil_inv (fun r : CredRun => Leads x pf p d r.creds)
        (fun entry _ _ hr => decodeCredEntry_leads entry hr) h
    · exact h
  · exact h

/-- a store holds the credentials of all devices -/
def Shows (p : Pki n) (s : State) : Prop := ∀ d : Fin n, p.ShowsAt d (s.device d).creds.creds

/-- calls that lead to the credentials of one device lead to the state -/
theorem Leads.shows {s t : State} (hs : p.Shows s)
    (h : Leads x pf p d (t.device d).creds.creds)
    (ho : ∀ i, i ≠ (d : Nat) → (t.device i).creds.creds = (s.device i).creds.creds) :
    ∃ ops, (p.run x pf ops).Wf ∧ (p.run x pf ops).Shows t := by
  obtain ⟨ops, hw, hl, hother⟩ := h
  refine ⟨ops, hw, ?_⟩
  intro d'
  by_cases hd : d' = d
  · rw [hd]
    exact hl
  · unfold ShowsAt
    rw [hother d' hd, ho d' (fun hc => hd (Fin.ext hc))]
    exact hs d'

end Pki

section
variable {n : Nat} {x : X509} {pf : Platform} {p : Pki n} {s : State}

/-- calls that lead to new credentials of a device -/
theorem Pki.Leads.withCreds (hs : p.Shows s) {d : Fin n} {t : State}
    (ho : ∀ i, i ≠ (d : Nat) → (t.device i).creds.creds = (s.device i).creds.creds)
    {creds : List Cred} (h : Leads x pf p d creds) :
    ∃ ops, (p.run x pf ops).Wf ∧ (p.run x pf ops).Shows (t.withCreds d creds) := by
  apply Leads.shows (d := d) hs
  · rw [State.withCreds, State.put_device]
    exact h
  · intro i hi
    rw [State.withCreds, State.put_device_ne _ _ hi]
    exact ho i hi

/-- decoding a payload is a sequence of additions -/
theorem decodeCred_leads (x : X509) (pf : Platform) (hw : p.Wf) (hs : p.Shows s) (d : Fin n)
    (client : Option Peer) (rep : List Rep) :
    Pki.Leads x pf p d ((ocSecDecodeCred pf s rep false client d).2.2.device d).creds.creds ∧
      ∀ i, i ≠ (d : Nat) → ((ocSecDecodeCred pf s rep false client d).2.2.device i).creds.creds =
        (s.device i).creds.creds := by
  have hstart : Pki.Leads x pf p d (s.credRun d client).creds := .refl hw (hs d)
  unfold ocSecDecodeCred
  dsimp only
  split
  · constructor
    · show Pki.Leads x pf p d ((s.put d _).device d).creds.creds
      rw [State.put_device]
      apply runUntil_inv (fun r : CredRun => Pki.Leads x pf p d r.creds) ?_ hstart
      intro t _ r hr
      exact Pki.decodeCredRep_leads t hr
    · intro i hi
      show ((s.put d _).device i).creds.creds = _
      rw [State.put_device_ne _ _ hi]
  · exact ⟨hstart, fun _ _ => rfl⟩

/-- a POST to `/oic/sec/cred`, or to `/oic/sec/roles`, is a sequence of calls -/
theorem postCred_calls (hw : p.Wf) (hs : p.Shows s) (d : Fin n) (client : Option Peer)
    (rep : List Rep) : ∃ ops, (p.run x pf ops).Wf ∧
      (p.run x pf ops).Shows (postCred pf s d client rep) := by
  obtain ⟨hl, ho⟩ := decodeCred_leads x pf hw hs d client rep
  unfold postCred
  generalize ocSecDecodeCred pf s rep false client d = y at hl ho
  obtain ⟨ok, owner, t⟩ := y
  dsimp only
  split
  · exact hl.shows hs ho
  · split
    · exact (hl.remove _).withCreds hs ho
    · split
      · split
        · exact (hl.remove _).withCreds hs ho
        · exact (hl.setKey _ _).withCreds hs ho
      · exact hl.shows hs ho

/-- a DELETE on `/oic/sec/cred` is a sequence of calls -/
theorem deleteCred_calls (hw : p.Wf) (hs : p.Shows s) (d : Fin n) (credid : Option Int) :
    ∃ ops, (p.run x pf ops).Wf ∧ (p.run x pf ops).Shows (deleteCred s d credid) := by
  have hl : Pki.Leads x pf p d (s.device d).creds.creds := .refl hw (hs d)
  unfold deleteCred
  split
  · exact ⟨[], hw, hs⟩
  · cases credid with
    | none => exact hl.free.withCreds hs fun _ _ => rfl
    | some id =>
      dsimp only
      split
      · exact ⟨[], hw, hs⟩
      · exact (hl.remove id).withCreds hs fun _ _ => rfl

/-- so is what a reset does to the credentials -/
theorem clearCreds_calls (hw : p.Wf) (hs : p.Shows s) (d : Fin n) :
    ∃ ops, (p.run x pf ops).Wf ∧
      (p.run x pf ops).Shows (s.withCreds d (ocSecClearCreds (s.device d).creds.creds)) := by
  have hl : Pki.Leads x pf p d (s.device d).creds.creds := .refl hw (hs d)
  exact hl.clear.withCreds hs fun _ _ => rfl

end

end Security
