import Iotivity.Lib.Links
import Iotivity.Security.Cred
import Mathlib.Data.List.FinRange

/-!
# Credentials at their addresses

`oc_cred.c` keeps a credential in a block of its own, and `chain` and `child` hold the addresses of
such blocks; `ca_certs` in `oc_tls.c` holds them too.  `Pki` is this picture of the credentials of
all devices: an `Entry` is a credential at its address, with `chain` as its forward and `child` as
its backward link, and blocks that have been freed are not used again.

* `Pki.add`              `oc_sec_add_new_cred` for `/oic/sec/cred`;
* `Pki.removeCred`       `oc_sec_remove_cred`, with `oc_tls_remove_trust_anchor`;
* `Pki.refresh`          `oc_tls_refresh_trust_anchors`;
* `CredOp`               the calls by which requests, loading and a reset change the store;
* `postCred_calls`       a request to `/oic/sec/cred` is a sequence of such calls.
-/

namespace Security
open Links

/-! ## the store -/

/-- a credential at its address; the link fields of the credential itself are not used -/
abbrev Entry := Node Cred

/-- `oc_x509_cacrt_t`: the address of a credential, and the place of a certificate in the chain
`trust_anchors` -/
structure CaEntry (n : Nat) where
  device : Fin n
  cred : Nat
  cert : Nat
deriving DecidableEq

/-- the credentials of `n` devices, the tracked CA certificates, the chain `trust_anchors`, and the
address of the next block -/
structure Pki (n : Nat) where
  creds : Fin n → List Entry
  caCerts : List (CaEntry n)
  trustAnchors : List Bytes
  next : Nat

/-- `mbedtls_x509_crt_parse`: the certificates that it appends to the chain, and whether it returns
zero, which takes at least one -/
structure X509 where
  parse : Bytes → List Bytes × Bool
  parse_ne_nil : ∀ b, (parse b).2 = true → (parse b).1 ≠ []

/-- every text is one certificate -/
def plainX509 : X509 where
  parse b := ([b], true)
  parse_ne_nil b _ := List.cons_ne_nil b []

/-- `OC_CREDUSAGE_TRUSTCA` or `OC_CREDUSAGE_MFG_TRUSTCA` -/
def CredUsage.isAnchor (u : CredUsage) : Bool := u = .trustca ∨ u = .mfgTrustca

/-- the certificates of a credential -/
def X509.certs (x : X509) (e : Entry) : List Bytes := (x.parse e.val.publicdata.data).1

namespace Pki
variable {n : Nat}

/-- nothing stored yet -/
def init : Pki n := ⟨fun _ => [], [], [], 0⟩

/-- the credentials of one device replaced -/
def put (p : Pki n) (d : Fin n) (es : List Entry) : Pki n :=
  { p with creds := Function.update p.creds d es }

@[simp] theorem put_self (p : Pki n) (d : Fin n) (es : List Entry) : (p.put d es).creds d = es :=
  Function.update_self ..

theorem put_ne (p : Pki n) {d d' : Fin n} (h : d' ≠ d) (es : List Entry) :
    (p.put d es).creds d' = p.creds d' := Function.update_of_ne h ..

/-- `oc_sec_remove_cred` -/
def removeCred (d : Fin n) (e : Entry) (p : Pki n) : Pki n :=
  { p.put d ((p.creds d).filter (·.addr ≠ e.addr)) with
    caCerts := if e.val.credtype = credtypeCert ∧ e.val.credusage.isAnchor then
      p.caCerts.eraseP (·.cred = e.addr) else p.caCerts }

/-- `oc_sec_remove_cred` on the credential at an address, if there is one -/
def removeAt (d : Fin n) (addr : Nat) (p : Pki n) : Pki n :=
  match (p.creds d).find? (·.addr = addr) with
  | none => p
  | some e => p.removeCred d e

/-- `oc_sec_remove_cred_by_credid` -/
def removeCredByCredid (d : Fin n) (credid : Int) (p : Pki n) : Pki n :=
  match (p.creds d).find? (·.val.credid = credid) with
  | none => p
  | some e => p.removeCred d e

/-- `oc_sec_clear_creds` -/
def clearCreds (d : Fin n) (p : Pki n) : Pki n :=
  ((p.creds d).filter fun e => e.val.credusage ≠ .mfgTrustca ∧ e.val.credusage ≠ .mfgCert).foldl
    (fun p e => p.removeCred d e) p

/-- `oc_sec_free_creds` -/
def freeCreds (d : Fin n) (p : Pki n) : Pki n :=
  (p.creds d).foldl (fun p e => p.removeCred d e) p

/-! ## trust anchors -/

/-- `is_known_trust_anchor` -/
def isKnownTrustAnchor (p : Pki n) (e : Entry) : Bool := p.caCerts.any (·.cred = e.addr)

/-- `add_new_trust_anchor`; the entry points to the tail of the chain -/
def addNewTrustAnchor (x : X509) (d : Fin n) (e : Entry) (p : Pki n) : Pki n :=
  let chain := p.trustAnchors ++ x.certs e
  if (x.parse e.val.publicdata.data).2 then
    { p with trustAnchors := chain, caCerts := p.caCerts ++ [⟨d, e.addr, chain.length - 1⟩] }
  else { p with trustAnchors := chain }

/-- all credentials with their devices -/
def entries (p : Pki n) : List (Fin n × Entry) :=
  (List.finRange n).flatMap fun d => (p.creds d).map (d, ·)

/-- the body of the loop in `oc_tls_refresh_certs` -/
def refreshCert (x : X509) (p : Pki n) (t : Fin n × Entry) : Pki n :=
  if t.2.val.credusage.isAnchor ∧ t.2.prev = none then
    if p.isKnownTrustAnchor t.2 then p else p.addNewTrustAnchor x t.1 t.2
  else p

/-- `oc_tls_refresh_trust_anchors` -/
def refresh (x : X509) (p : Pki n) : Pki n := p.entries.foldl (refreshCert x) p

end Pki

/-! ## `oc_sec_add_new_cred` -/

/-- the checks before anything is changed: the subject and the key pair, if one is to be used -/
def CredDraft.admit (pf : Platform) (device : Nat) (di : Uuid) (d : CredDraft) :
    Option (Uuid × Option Bytes) :=
  match d.subject with
  | none => none
  | some subject =>
    if d.needsKeypair ∧ (di ≠ subject ∨ pf.keypair device = none) then none
    else some (subject, if d.needsKeypair then pf.keypair device else none)

/-- the new credential is to be a trust anchor, and the anchors are refreshed -/
def CredDraft.refreshes (d : CredDraft) : Bool :=
  d.credtype = credtypeCert ∧ d.credusage.isAnchor

namespace Pki
variable {n : Nat} (x : X509) (pf : Platform)

/-- the end of `oc_sec_add_new_cred` -/
def settle (dr : CredDraft) (p : Pki n) : Pki n := if dr.refreshes then p.refresh x else p

/-- the credential in a new block, at the end of a list -/
def insert (d : Fin n) (es : List Entry) (c : Cred) (chain child : Option Nat) (p : Pki n) :
    Pki n :=
  { p.put d (es ++ [⟨p.next, c, chain, child⟩]) with next := p.next + 1 }

/-- the id of the new credential -/
def newCredid (d : Fin n) (dr : CredDraft) (draws : Nat) (p : Pki n) : Int :=
  (chooseCredid pf dr.credid ((p.creds d).map Node.val) draws).1

/-- from the allocation on, without a chain -/
def storeCred (d : Fin n) (dr : CredDraft) (subject : Uuid) (kp : Option Bytes) (draws : Nat)
    (p : Pki n) : Int × Pki n :=
  let credid := p.newCredid pf d dr draws
  match dr.storedPrivate kp with
  | none => (-1, { p with next := p.next + 1 })
  | some priv =>
    let cred := newCred dr subject priv credid none none
    (credid, (p.insert d (p.creds d) cred none none).settle x dr)

/-- from the allocation on, linked to the credential `chain` -/
def storeInChain (d : Fin n) (dr : CredDraft) (subject : Uuid) (kp : Option Bytes) (chain : Entry)
    (draws : Nat) (p : Pki n) : Int × Pki n :=
  let credid := p.newCredid pf d dr draws
  match dr.storedPrivate kp with
  | none => (-1, { p with next := p.next + 1 })
  | some priv =>
    let cred := newCred dr subject priv credid none none
    if chain.val.privatedata.data ≠ [] then
      (credid, (p.insert d (update chain.addr (Node.withNext (some p.next)) (p.creds d)) cred
        none (some chain.addr)).settle x dr)
    else if dr.privatedata.data ≠ [] then
      (credid, (p.insert d (update chain.addr (Node.withPrev (some p.next)) (p.creds d)) cred
        (some chain.addr) none).settle x dr)
    else (-1, { p with next := p.next + 1 })

/-- what the search through the credentials of the subject comes to -/
def search (d : Fin n) (dr : CredDraft) (subject : Uuid) (p : Pki n) : Search :=
  searchCreds dr subject 0 ((p.creds d).map Node.val)

/-- `oc_sec_add_new_cred` for `/oic/sec/cred`: the id or `-1`, and the store -/
def add (d : Fin n) (di : Uuid) (dr : CredDraft) (draws : Nat) (p : Pki n) : Int × Pki n :=
  match dr.admit pf d di with
  | none => (-1, p)
  | some (subject, kp) =>
    let p := p.removeCredByCredid d dr.credid
    match p.search d dr subject with
    | .fresh => p.storeCred x pf d dr subject kp draws
    | .replaced i =>
      match (p.creds d)[i]? with
      | none => (-1, p)
      | some e => (p.removeCred d e).storeCred x pf d dr subject kp draws
    | .duplicate credid => (credid, p)
    | .chain i _ =>
      match (p.creds d)[i]? with
      | none => (-1, p)
      | some e => p.storeInChain x pf d dr subject kp e draws

/-- the key of the owner credential set, at the end of `post_cred` -/
def setKey (d : Fin n) (credid : Int) (key : Bytes) (p : Pki n) : Pki n :=
  p.put d ((p.creds d).map fun e =>
    if e.val.credid = credid then { e with val := { e.val with privatedata := ⟨key, .raw⟩ } } else e)

end Pki

/-! ## runs -/

/-- the calls that change the store.  `remove` is `oc_sec_remove_cred` on any stored credential,
whether it has been found by its id, by its subject or otherwise. -/
inductive CredOp (n : Nat) where
  | add (d : Fin n) (di : Uuid) (dr : CredDraft) (draws : Nat)
  | remove (d : Fin n) (addr : Nat)
  | clear (d : Fin n)
  | free (d : Fin n)
  | setKey (d : Fin n) (credid : Int) (key : Bytes)

def CredOp.apply {n : Nat} (x : X509) (pf : Platform) : CredOp n → Pki n → Pki n
  | .add d di dr draws, p => (p.add x pf d di dr draws).2
  | .remove d addr, p => p.removeAt d addr
  | .clear d, p => p.clearCreds d
  | .free d, p => p.freeCreds d
  | .setKey d credid key, p => p.setKey d credid key

/-- the store after a sequence of calls -/
def Pki.run {n : Nat} (x : X509) (pf : Platform) (p : Pki n) (ops : List (CredOp n)) : Pki n :=
  ops.foldl (fun p op => op.apply x pf p) p

/-! ## what a search finds -/

section
variable {d : CredDraft} {subject : Uuid}

/-- a credential that is replaced has the id of the new one -/
theorem searchCreds_replaced {l : List Cred} {k i : Nat}
    (h : searchCreds d subject k l = .replaced i) :
    k ≤ i ∧ ∃ c, l[i - k]? = some c ∧ c.credid = d.credid := by
  induction l generalizing k with
  | nil => cases h
  | cons cred rest ih =>
    have hrest : searchCreds d subject (k + 1) rest = .replaced i →
        k ≤ i ∧ ∃ c, (cred :: rest)[i - k]? = some c ∧ c.credid = d.credid := by
      intro h
      obtain ⟨hle, c, hc, hid⟩ := ih h
      refine ⟨by omega, c, ?_, hid⟩
      rw [show i - k = (i - (k + 1)) + 1 by omega, List.getElem?_cons_succ]
      exact hc
    unfold searchCreds at h
    split at h
    · split at h
      · next hid =>
        cases h
        exact ⟨Nat.le_refl _, cred, by rw [Nat.sub_self]; rfl, hid⟩
      · split at h
        · split at h
          · cases h
          · split at h
            · cases h
            · exact hrest h
        · exact hrest h
    · exact hrest h

/-- a credential that the new one is linked to is a certificate of the same use, and not a trust
anchor -/
theorem searchCreds_chain {l : List Cred} {k i : Nat} {c : Cred}
    (h : searchCreds d subject k l = .chain i c) :
    k ≤ i ∧ l[i - k]? = some c ∧ c.credusage = d.credusage ∧ d.credusage.isAnchor = false ∧
      d.credtype = credtypeCert := by
  induction l generalizing k with
  | nil => cases h
  | cons cred rest ih =>
    have hrest : searchCreds d subject (k + 1) rest = .chain i c →
        k ≤ i ∧ (cred :: rest)[i - k]? = some c ∧ c.credusage = d.credusage ∧
          d.credusage.isAnchor = false ∧ d.credtype = credtypeCert := by
      intro h
      obtain ⟨hle, hc, hu⟩ := ih h
      refine ⟨by omega, ?_, hu⟩
      rw [show i - k = (i - (k + 1)) + 1 by omega, List.getElem?_cons_succ]
      exact hc
    unfold searchCreds at h
    split at h
    · split at h
      · cases h
      · split at h
        · next hu =>
          split at h
          · cases h
          · split at h
            · next ha =>
              cases h
              refine ⟨Nat.le_refl _, by rw [Nat.sub_self]; rfl, hu.2, ?_, hu.1⟩
              rw [← hu.2, CredUsage.isAnchor]
              exact decide_eq_false (not_or.mpr ha)
            · exact hrest h
        · exact hrest h
    · exact hrest h

end

/-- the key of a certificate is never refused -/
theorem storedPrivate_cert {d : CredDraft} (h : d.credtype = credtypeCert) (kp : Option Bytes) :
    d.storedPrivate kp ≠ none := by
  unfold CredDraft.storedPrivate
  split
  · cases kp with
    | none => exact Option.some_ne_none _
    | some key => exact Option.some_ne_none _
  · rw [h, if_neg (fun hc => absurd hc.1 (by decide))]
    exact Option.some_ne_none _

namespace Pki
variable {n : Nat} {x : X509} {pf : Platform} {d : Fin n} {di : Uuid} {dr : CredDraft}
  {subject : Uuid} {kp : Option Bytes} {draws : Nat} {p : Pki n}

/-! ## addresses and ids -/

/-- no two credentials share an address, and no two of a device an id; new blocks are at new
addresses -/
structure Wf (p : Pki n) : Prop where
  addrs : ∀ d, ((p.creds d).map Node.addr).Nodup
  apart : ∀ d d' e e', e ∈ p.creds d → e' ∈ p.creds d' → e.addr = e'.addr → d = d'
  fresh : ∀ d, ∀ e ∈ p.creds d, e.addr < p.next
  credids : ∀ d, ((p.creds d).map (·.val.credid)).Nodup

theorem init_wf : (init : Pki n).Wf where
  addrs _ := List.nodup_nil
  apart _ _ _ _ he := by cases he
  fresh _ := List.forall_mem_nil _
  credids _ := List.nodup_nil

/-- the list of one device replaced by one at old or new addresses -/
theorem wf_put {es : List Entry} (h : p.Wf) {k : Nat} (hk : p.next ≤ k)
    (ha : (es.map Node.addr).Nodup) (hi : (es.map (·.val.credid)).Nodup)
    (hf : ∀ e ∈ es, (∃ m ∈ p.creds d, m.addr = e.addr) ∨ p.next ≤ e.addr ∧ e.addr < k)
    {q : Pki n} (hq : q.creds = (p.put d es).creds) (hn : q.next = k) : q.Wf := by
  have hfar : ∀ e ∈ es, ∀ d', d' ≠ d → ∀ e' ∈ p.creds d', e.addr ≠ e'.addr := by
    intro e he d' hd e' he' heq
    rcases hf e he with ⟨m, hm, hma⟩ | ⟨hle, -⟩
    · exact hd (h.apart d d' m e' hm he' (hma.trans heq)).symm
    · have := h.fresh d' e' he'
      omega
  constructor
  · intro d'
    rw [hq]
    by_cases hd : d' = d
    · rw [hd, put_self]
      exact ha
    · rw [put_ne p hd]
      exact h.addrs d'
  · intro d1 d2 e1 e2 h1 h2 heq
    rw [hq] at h1 h2
    by_cases hd1 : d1 = d
    · by_cases hd2 : d2 = d
      · rw [hd1, hd2]
      · rw [hd1, put_self] at h1
        rw [put_ne p hd2] at h2
        exact absurd heq (hfar e1 h1 d2 hd2 e2 h2)
    · rw [put_ne p hd1] at h1
      by_cases hd2 : d2 = d
      · rw [hd2, put_self] at h2
        exact absurd heq.symm (hfar e2 h2 d1 hd1 e1 h1)
      · rw [put_ne p hd2] at h2
        exact h.apart d1 d2 e1 e2 h1 h2 heq
  · intro d' e he
    rw [hq] at he
    rw [hn]
    by_cases hd : d' = d
    · rw [hd, put_self] at he
      rcases hf e he with ⟨m, hm, hma⟩ | ⟨-, hlt⟩
      · have := h.fresh d m hm
        omega
      · exact hlt
    · rw [put_ne p hd] at he
      exact Nat.lt_of_lt_of_le (h.fresh d' e he) hk
  · intro d'
    rw [hq]
    by_cases hd : d' = d
    · rw [hd, put_self]
      exact hi
    · rw [put_ne p hd]
      exact h.credids d'

/-- credentials of a device go -/
theorem Wf.filter (h : p.Wf) {f : Entry → Bool} {q : Pki n}
    (hq : q.creds = (p.put d ((p.creds d).filter f)).creds) (hn : q.next = p.next) : q.Wf := by
  refine wf_put h (Nat.le_refl _) ?_ ?_ ?_ hq hn
  · exact (h.addrs d).sublist (List.filter_sublist.map _)
  · exact (h.credids d).sublist (List.filter_sublist.map _)
  · intro e he
    exact Or.inl ⟨e, List.mem_of_mem_filter he, rfl⟩

theorem Wf.bump (h : p.Wf) {k : Nat} (hk : p.next ≤ k) : { p with next := k }.Wf where
  addrs := h.addrs
  apart := h.apart
  fresh d e he := Nat.lt_of_lt_of_le (h.fresh d e he) hk
  credids := h.credids

/-- a new block is at an address of its own -/
theorem Wf.next_notMem (h : p.Wf) (d : Fin n) : p.next ∉ (p.creds d).map Node.addr := by
  intro hm
  obtain ⟨e, he, ha⟩ := List.mem_map.mp hm
  have := h.fresh d e he
  omega

/-! ## removing -/

theorem removeCred_creds (d : Fin n) (e : Entry) (p : Pki n) :
    (p.removeCred d e).creds = (p.put d ((p.creds d).filter (·.addr ≠ e.addr))).creds := rfl

theorem removeAt_creds (d : Fin n) (addr : Nat) (p : Pki n) :
    (p.removeAt d addr).creds = (p.put d ((p.creds d).filter (·.addr ≠ addr))).creds ∧
      (p.removeAt d addr).next = p.next := by
  unfold removeAt
  cases hf : (p.creds d).find? (·.addr = addr) with
  | none =>
    refine ⟨?_, rfl⟩
    rw [List.filter_eq_self.mpr]
    · show p.creds = Function.update p.creds d (p.creds d)
      rw [Function.update_eq_self]
    · intro e he
      have := List.find?_eq_none.mp hf e he
      simpa using this
  | some e =>
    refine ⟨?_, rfl⟩
    have ha : e.addr = addr := by simpa using List.find?_some hf
    rw [← ha]
    rfl

/-- credentials with different ids are all but one of them -/
theorem filter_credid {es : List Entry} (ha : (es.map Node.addr).Nodup)
    (hi : (es.map (·.val.credid)).Nodup) {e : Entry} (he : e ∈ es) :
    es.filter (·.addr ≠ e.addr) = es.filter (·.val.credid ≠ e.val.credid) := by
  apply List.filter_congr
  intro m hm
  rw [decide_eq_decide, not_iff_not]
  constructor
  · intro h
    rw [eq_of_addr ha hm he h]
  · intro h
    have : m = e := List.inj_on_of_nodup_map hi hm he h
    rw [this]

/-- `oc_sec_remove_cred_by_credid` leaves the credentials with other ids -/
theorem removeCredByCredid_creds (h : p.Wf) (credid : Int) :
    (p.removeCredByCredid d credid).creds =
        (p.put d ((p.creds d).filter (·.val.credid ≠ credid))).creds ∧
      (p.removeCredByCredid d credid).next = p.next := by
  unfold removeCredByCredid
  cases hf : (p.creds d).find? (·.val.credid = credid) with
  | none =>
    refine ⟨?_, rfl⟩
    rw [List.filter_eq_self.mpr]
    · show p.creds = Function.update p.creds d (p.creds d)
      rw [Function.update_eq_self]
    · intro e he
      have := List.find?_eq_none.mp hf e he
      simpa using this
  | some e =>
    refine ⟨?_, rfl⟩
    have hid : e.val.credid = credid := by simpa using List.find?_some hf
    rw [removeCred_creds, filter_credid (h.addrs d) (h.credids d) (List.mem_of_find?_eq_some hf),
      hid]

theorem Wf.removeCredByCredid (h : p.Wf) (credid : Int) : (p.removeCredByCredid d credid).Wf :=
  h.filter (removeCredByCredid_creds h credid).1 (removeCredByCredid_creds h credid).2

/-- the list of a device after several credentials are removed -/
theorem foldl_removeCred (l : List Entry) (p : Pki n) :
    (l.foldl (fun p e => p.removeCred d e) p).creds =
        (p.put d ((p.creds d).filter fun m => l.all fun e => m.addr ≠ e.addr)).creds ∧
      (l.foldl (fun p e => p.removeCred d e) p).next = p.next := by
  induction l generalizing p with
  | nil =>
    refine ⟨?_, rfl⟩
    show p.creds = (p.put d _).creds
    rw [put]
    simp
  | cons e l ih =>
    obtain ⟨h1, h2⟩ := ih (p.removeCred d e)
    refine ⟨?_, h2⟩
    rw [List.foldl_cons, h1]
    funext d'
    by_cases hd : d' = d
    · rw [hd, put_self, put_self, removeCred_creds, put_self, List.filter_filter]
      apply List.filter_congr
      intro m _
      rw [List.all_cons, Bool.and_comm]
    · rw [put_ne _ hd, put_ne _ hd, removeCred_creds, put_ne _ hd]

/-- removing the credentials that a test picks leaves the others -/
theorem filter_all_ne {es : List Entry} (hs : (es.map Node.addr).Nodup) (f : Entry → Bool) :
    (es.filter fun m => (es.filter f).all fun e => m.addr ≠ e.addr) = es.filter fun m => !f m := by
  apply List.filter_congr
  intro m hm
  cases hf : f m with
  | true =>
    rw [Bool.not_true, List.all_eq_false]
    exact ⟨m, List.mem_filter.mpr ⟨hm, hf⟩, by simp⟩
  | false =>
    rw [Bool.not_false, List.all_eq_true]
    intro e he
    apply decide_eq_true
    intro ha
    obtain ⟨he, hfe⟩ := List.mem_filter.mp he
    rw [← eq_of_addr hs hm he ha, hf] at hfe
    cases hfe

/-- `oc_sec_clear_creds` leaves the manufacturer's credentials -/
theorem clearCreds_creds (h : p.Wf) :
    (p.clearCreds d).creds = (p.put d ((p.creds d).filter fun e =>
        e.val.credusage = .mfgTrustca ∨ e.val.credusage = .mfgCert)).creds ∧
      (p.clearCreds d).next = p.next := by
  obtain ⟨h1, h2⟩ := foldl_removeCred (d := d) ((p.creds d).filter fun e =>
    e.val.credusage ≠ .mfgTrustca ∧ e.val.credusage ≠ .mfgCert) p
  refine ⟨?_, h2⟩
  rw [clearCreds, h1, filter_all_ne (h.addrs d)]
  congr 2
  apply List.filter_congr
  intro e _
  rw [← decide_not, decide_eq_decide]
  tauto

/-- `oc_sec_free_creds` leaves none -/
theorem freeCreds_creds (h : p.Wf) :
    (p.freeCreds d).creds = (p.put d ((p.creds d).filter fun _ => false)).creds ∧
      (p.freeCreds d).next = p.next := by
  obtain ⟨h1, h2⟩ := foldl_removeCred (d := d) ((p.creds d).filter fun _ => true) p
  rw [filter_all_ne (h.addrs d), List.filter_true] at h1
  rw [List.filter_true] at h2
  exact ⟨h1, h2⟩

/-! ## what `oc_sec_add_new_cred` can do -/

/-- the credential that a new one would be linked to -/
def chainTarget (d : Fin n) (dr : CredDraft) (subject : Uuid) (p : Pki n) : Option Entry :=
  match (p.removeCredByCredid d dr.credid).search d dr subject with
  | .chain i _ => ((p.removeCredByCredid d dr.credid).creds d)[i]?
  | _ => none

/-- the credential whose field `chain` is set: it has a private key, and the new one comes after -/
def chainOf (d : Fin n) (dr : CredDraft) (subject : Uuid) (p : Pki n) : Option Entry :=
  (p.chainTarget d dr subject).filter fun e => e.val.privatedata.data ≠ []

/-- the credential whose field `child` is set: it has no private key, and the new one has -/
def childOf (d : Fin n) (dr : CredDraft) (subject : Uuid) (p : Pki n) : Option Entry :=
  (p.chainTarget d dr subject).filter fun e =>
    e.val.privatedata.data = [] ∧ dr.privatedata.data ≠ []

/-- the new credential -/
def newEntry (pf : Platform) (d : Fin n) (dr : CredDraft) (subject : Uuid) (priv : CredData)
    (draws : Nat) (r : Pki n) : Cred :=
  newCred dr subject priv (r.newCredid pf d dr draws) none none

/-- the outcomes of `oc_sec_add_new_cred`: nothing is done; or the credential with the id is removed,
and the new one is not stored, stored alone, or stored after or before another in a chain -/
inductive Added (x : X509) (pf : Platform) (d : Fin n) (di : Uuid) (dr : CredDraft) (draws : Nat)
    (p : Pki n) : Pki n → Prop
  | refused (ha : dr.admit pf d di = none) : Added x pf d di dr draws p p
  | dropped {subject : Uuid} {kp : Option Bytes} (ha : dr.admit pf d di = some (subject, kp))
      (h1 : p.chainOf d dr subject = none) (h2 : p.childOf d dr subject = none)
      {k : Nat} (hk : p.next ≤ k) :
      Added x pf d di dr draws p { p.removeCredByCredid d dr.credid with next := k }
  | alone {subject : Uuid} {kp : Option Bytes} (ha : dr.admit pf d di = some (subject, kp))
      (h1 : p.chainOf d dr subject = none) (h2 : p.childOf d dr subject = none)
      {r : Pki n} (hr : r = p.removeCredByCredid d dr.credid)
      {priv : CredData} (hp : dr.storedPrivate kp = some priv) :
      Added x pf d di dr draws p
        ((r.insert d (r.creds d) (r.newEntry pf d dr subject priv draws) none none).settle x dr)
  | after {subject : Uuid} {kp : Option Bytes} (ha : dr.admit pf d di = some (subject, kp))
      {e : Entry} (h1 : p.chainOf d dr subject = some e) (h2 : p.childOf d dr subject = none)
      {r : Pki n} (hr : r = p.removeCredByCredid d dr.credid) (he : e ∈ r.creds d)
      (hu : e.val.credusage = dr.credusage) (hn : dr.credusage.isAnchor = false)
      {priv : CredData} :
      Added x pf d di dr draws p
        (r.insert d (update e.addr (Node.withNext (some r.next)) (r.creds d))
          (r.newEntry pf d dr subject priv draws) none (some e.addr))
  | before {subject : Uuid} {kp : Option Bytes} (ha : dr.admit pf d di = some (subject, kp))
      {e : Entry} (h1 : p.chainOf d dr subject = none) (h2 : p.childOf d dr subject = some e)
      {r : Pki n} (hr : r = p.removeCredByCredid d dr.credid) (he : e ∈ r.creds d)
      (hu : e.val.credusage = dr.credusage) (hn : dr.credusage.isAnchor = false)
      {priv : CredData} :
      Added x pf d di dr draws p
        (r.insert d (update e.addr (Node.withPrev (some r.next)) (r.creds d))
          (r.newEntry pf d dr subject priv draws) (some e.addr) none)

theorem chainOf_none (h : p.chainTarget d dr subject = none) :
    p.chainOf d dr subject = none ∧ p.childOf d dr subject = none := by
  rw [chainOf, childOf, h]
  exact ⟨rfl, rfl⟩

theorem storeCred_added (h : p.Wf) (ha : dr.admit pf d di = some (subject, kp))
    (ht : p.chainTarget d dr subject = none) :
    Added x pf d di dr draws p
      ((p.removeCredByCredid d dr.credid).storeCred x pf d dr subject kp draws).2 := by
  have hn := (removeCredByCredid_creds (d := d) h dr.credid).2
  obtain ⟨h1, h2⟩ := chainOf_none ht
  unfold storeCred
  cases hp : dr.storedPrivate kp with
  | none =>
    refine .dropped ha h1 h2 ?_
    rw [hn]
    exact Nat.le_succ _
  | some priv => exact .alone ha h1 h2 rfl hp

theorem storeInChain_added (h : p.Wf) (ha : dr.admit pf d di = some (subject, kp)) {e : Entry}
    (he : e ∈ (p.removeCredByCredid d dr.credid).creds d)
    (ht : p.chainTarget d dr subject = some e) (hu : e.val.credusage = dr.credusage)
    (hn : dr.credusage.isAnchor = false) (hp : dr.storedPrivate kp ≠ none) :
    Added x pf d di dr draws p
      ((p.removeCredByCredid d dr.credid).storeInChain x pf d dr subject kp e draws).2 := by
  have hs : ∀ q : Pki n, q.settle x dr = q := by
    intro q
    rw [settle, CredDraft.refreshes, hn]
    simp
  unfold storeInChain
  cases hp' : dr.storedPrivate kp with
  | none => exact absurd hp' hp
  | some priv =>
    show Added x pf d di dr draws p (ite _ _ _ : Int × Pki n).2
    split
    · next hk =>
      rw [hs]
      refine .after ha ?_ ?_ rfl he hu hn
      · rw [chainOf, ht]
        exact Option.filter_some_pos (decide_eq_true hk)
      · rw [childOf, ht]
        exact Option.filter_some_neg (by simp [hk])
    · next hk =>
      have h1 : p.chainOf d dr subject = none := by
        rw [chainOf, ht]
        exact Option.filter_some_neg (by simp [not_not.mp hk])
      split
      · next hd =>
        rw [hs]
        refine .before ha h1 ?_ rfl he hu hn
        rw [childOf, ht]
        exact Option.filter_some_pos (decide_eq_true ⟨not_not.mp hk, hd⟩)
      · next hd =>
        have h2 : p.childOf d dr subject = none := by
          rw [childOf, ht]
          exact Option.filter_some_neg (by simp [not_not.mp hd])
        refine .dropped ha h1 h2 ?_
        rw [(removeCredByCredid_creds (d := d) h dr.credid).2]
        exact Nat.le_succ _

/-- `oc_sec_add_new_cred` has no other outcomes: once the credential with the id is removed, there is
none to be replaced -/
theorem add_added (h : p.Wf) (x : X509) (pf : Platform) (d : Fin n) (di : Uuid) (dr : CredDraft)
    (draws : Nat) : Added x pf d di dr draws p (p.add x pf d di dr draws).2 := by
  have hcreds := (removeCredByCredid_creds (d := d) h dr.credid).1
  unfold add
  cases ha : dr.admit pf d di with
  | none => exact .refused ha
  | some a =>
    obtain ⟨subject, kp⟩ := a
    show Added x pf d di dr draws p (Prod.snd (match
      (p.removeCredByCredid d dr.credid).search d dr subject with
      | .fresh => _ | .replaced i => _ | .duplicate credid => _ | .chain i _ => _))
    cases hs : (p.removeCredByCredid d dr.credid).search d dr subject with
    | fresh => exact storeCred_added h ha (by rw [chainTarget, hs])
    | duplicate credid =>
      have ht : p.chainTarget d dr subject = none := by rw [chainTarget, hs]
      obtain ⟨h1, h2⟩ := chainOf_none ht
      exact .dropped ha h1 h2 (removeCredByCredid_creds (d := d) h dr.credid).2.ge
    | replaced i =>
      obtain ⟨-, c, hc, hid⟩ := searchCreds_replaced hs
      obtain ⟨e, he, rfl⟩ := List.mem_map.mp (List.mem_of_getElem? hc)
      rw [hcreds, put_self] at he
      exact absurd hid (of_decide_eq_true (List.mem_filter.mp he).2)
    | chain i c =>
      obtain ⟨-, hc, hu, hn, ht⟩ := searchCreds_chain hs
      dsimp only
      rw [List.getElem?_map, Nat.sub_zero] at hc
      cases hi : ((p.removeCredByCredid d dr.credid).creds d)[i]? with
      | none =>
        rw [hi] at hc
        cases hc
      | some e =>
        rw [hi] at hc
        cases hc
        refine storeInChain_added h ha (List.mem_of_getElem? hi) ?_ hu hn (storedPrivate_cert ht kp)
        rw [chainTarget, hs]
        exact hi

/-! ## every call keeps addresses and ids -/

/-- refreshing the trust anchors does not touch the credentials -/
theorem refreshCert_creds (p : Pki n) (t : Fin n × Entry) :
    (p.refreshCert x t).creds = p.creds ∧ (p.refreshCert x t).next = p.next := by
  unfold refreshCert addNewTrustAnchor
  repeat' split
  all_goals exact ⟨rfl, rfl⟩

theorem foldl_refreshCert_creds (l : List (Fin n × Entry)) (p : Pki n) :
    (l.foldl (refreshCert x) p).creds = p.creds ∧ (l.foldl (refreshCert x) p).next = p.next := by
  induction l generalizing p with
  | nil => exact ⟨rfl, rfl⟩
  | cons t l ih =>
    obtain ⟨h1, h2⟩ := ih (p.refreshCert x t)
    obtain ⟨h3, h4⟩ := refreshCert_creds (x := x) p t
    exact ⟨h1.trans h3, h2.trans h4⟩

theorem settle_creds (dr : CredDraft) (p : Pki n) :
    (p.settle x dr).creds = p.creds ∧ (p.settle x dr).next = p.next := by
  unfold settle
  split
  · exact foldl_refreshCert_creds _ p
  · exact ⟨rfl, rfl⟩

/-- the id of the new credential is not in use once the old one is gone -/
theorem newCredid_notMem {r : Pki n} (hr : ∀ e ∈ r.creds d, e.val.credid ≠ dr.credid) :
    r.newCredid pf d dr draws ∉ (r.creds d).map (·.val.credid) := by
  unfold newCredid chooseCredid
  split
  · intro hm
    apply pf.newId_not_mem draws (((r.creds d).map Node.val).map Cred.credid ++ [0])
    apply List.mem_append_left
    rw [List.map_map]
    rw [List.map_map] at hm
    exact hm
  · intro hm
    obtain ⟨e, he, hid⟩ := List.mem_map.mp hm
    exact hr e he hid

/-- a new credential, with changed links on the others -/
theorem Wf.insert (h : p.Wf) {es : List Entry} (ha : es.map Node.addr = (p.creds d).map Node.addr)
    (hv : es.map Node.val = (p.creds d).map Node.val) {c : Cred} {chain child : Option Nat}
    (hc : c.credid ∉ (p.creds d).map (·.val.credid)) {q : Pki n}
    (hq : q.creds = (p.insert d es c chain child).creds) (hn : q.next = p.next + 1) : q.Wf := by
  refine wf_put h (Nat.le_succ _) ?_ ?_ ?_ hq hn
  · apply nodup_addr_snoc
    · rw [ha]
      exact h.addrs d
    · rw [ha]
      exact h.next_notMem d
  · have hi : es.map (·.val.credid) = (p.creds d).map (·.val.credid) := by
      have := congrArg (List.map Cred.credid) hv
      rw [List.map_map, List.map_map] at this
      exact this
    rw [List.map_append, hi, List.nodup_append]
    refine ⟨h.credids d, List.nodup_singleton _, ?_⟩
    intro a ha' b hb hab
    cases List.mem_singleton.mp hb
    apply hc
    rw [← show a = c.credid from hab]
    exact ha'
  · intro e he
    rcases List.mem_append.mp he with he | he
    · have hm := List.mem_map_of_mem (f := Node.addr) he
      rw [ha] at hm
      obtain ⟨m, hm, hma⟩ := List.mem_map.mp hm
      exact Or.inl ⟨m, hm, hma⟩
    · cases List.mem_singleton.mp he
      exact Or.inr ⟨Nat.le_refl _, Nat.lt_succ_self _⟩

theorem Wf.add (h : p.Wf) : (p.add x pf d di dr draws).2.Wf := by
  have ha := add_added h x pf d di dr draws
  have hwf := h.removeCredByCredid (d := d) dr.credid
  have hid : ∀ e ∈ (p.removeCredByCredid d dr.credid).creds d, e.val.credid ≠ dr.credid := by
    intro e he
    rw [(removeCredByCredid_creds h dr.credid).1, put_self] at he
    exact of_decide_eq_true (List.mem_filter.mp he).2
  generalize (p.add x pf d di dr draws).2 = q at ha
  cases ha with
  | refused ha => exact h
  | dropped ha h1 h2 hk =>
    apply hwf.bump
    rw [(removeCredByCredid_creds (d := d) h dr.credid).2]
    exact hk
  | alone ha h1 h2 hr hp =>
    subst hr
    obtain ⟨hs1, hs2⟩ := settle_creds (x := x) dr _
    exact hwf.insert rfl rfl (newCredid_notMem hid) hs1 hs2
  | after ha h1 h2 hr he hu hn =>
    subst hr
    exact hwf.insert (map_addr_update (f := Node.withNext _) (fun _ => rfl) _)
      (map_val_update (f := Node.withNext _) (fun _ => rfl) _) (newCredid_notMem hid) rfl rfl
  | before ha h1 h2 hr he hu hn =>
    subst hr
    exact hwf.insert (map_addr_update (f := Node.withPrev _) (fun _ => rfl) _)
      (map_val_update (f := Node.withPrev _) (fun _ => rfl) _) (newCredid_notMem hid) rfl rfl

/-- an entry with the key set -/
def keyed (credid : Int) (key : Bytes) (e : Entry) : Entry :=
  if e.val.credid = credid then { e with val := { e.val with privatedata := ⟨key, .raw⟩ } } else e

/-- setting a key leaves the rest -/
theorem keyed_fields (credid : Int) (key : Bytes) (e : Entry) :
    (keyed credid key e).addr = e.addr ∧ (keyed credid key e).next = e.next ∧
      (keyed credid key e).prev = e.prev ∧ (keyed credid key e).val.credid = e.val.credid ∧
      (keyed credid key e).val.credusage = e.val.credusage ∧
      (keyed credid key e).val.publicdata = e.val.publicdata := by
  unfold keyed
  split
  · exact ⟨rfl, rfl, rfl, rfl, rfl, rfl⟩
  · exact ⟨rfl, rfl, rfl, rfl, rfl, rfl⟩

theorem setKey_creds (d : Fin n) (credid : Int) (key : Bytes) (p : Pki n) :
    (p.setKey d credid key).creds = (p.put d ((p.creds d).map (keyed credid key))).creds := rfl

theorem Wf.setKey (h : p.Wf) (credid : Int) (key : Bytes) : (p.setKey d credid key).Wf := by
  refine wf_put h (Nat.le_refl _) ?_ ?_ ?_ (setKey_creds d credid key p) rfl
  · rw [List.map_map]
    exact (List.map_congr_left fun e _ => (keyed_fields credid key e).1) ▸ h.addrs d
  · rw [List.map_map]
    exact (List.map_congr_left fun e _ => (keyed_fields credid key e).2.2.2.1) ▸ h.credids d
  · intro e he
    obtain ⟨m, hm, rfl⟩ := List.mem_map.mp he
    exact Or.inl ⟨m, hm, (keyed_fields credid key m).1.symm⟩

theorem Wf.apply (h : p.Wf) (op : CredOp n) : (op.apply x pf p).Wf := by
  cases op with
  | add d di dr draws => exact h.add
  | remove d addr =>
    exact h.filter (removeAt_creds d addr p).1 (removeAt_creds d addr p).2
  | clear d => exact h.filter (clearCreds_creds h).1 (clearCreds_creds h).2
  | free d => exact h.filter (freeCreds_creds h).1 (freeCreds_creds h).2
  | setKey d credid key => exact h.setKey credid key

end Pki

end Security
