import Iotivity.Security.CredStore
import Mathlib.Data.List.Perm.Basic

/-!
# Trust anchors in the store and in mbedTLS

The certificates of trust anchors are in the store, in the chain `trust_anchors` that mbedTLS takes
peers' certificates against, and, by their addresses, in `ca_certs`.  Adding a credential of the type
of certificates brings the three in step; removing one takes the entry out of `ca_certs` and leaves
the certificate in the chain.

`Pki.Tracked` says that the three agree.  It holds in every state of a run in which no trust anchor is
removed and each one that is added is a certificate that mbedTLS can parse (`anchors_tracked_run`).
-/

namespace Security
open Links

/-! ## the three views -/

/-- a trust anchor in the store: its device, its address and its certificates -/
structure Anchor (n : Nat) where
  device : Fin n
  cred : Nat
  certs : List Bytes

def Entry.anchor {n : Nat} (x : X509) (d : Fin n) (e : Entry) : Anchor n := ⟨d, e.addr, x.certs e⟩

/-- the trust anchors of one device -/
def anchorsOf {n : Nat} (x : X509) (d : Fin n) (es : List Entry) : List (Anchor n) :=
  (es.filter (·.val.credusage.isAnchor)).map (Entry.anchor x d)

/-- the trust anchors of all devices -/
def Pki.anchors {n : Nat} (x : X509) (p : Pki n) : List (Anchor n) :=
  (List.finRange n).flatMap fun d => anchorsOf x d (p.creds d)

/-- the chain of mbedTLS holds the certificates of the stored trust anchors, `ca_certs` has one entry
for each of them, and an entry points to the last certificate of its credential -/
structure Pki.Tracked {n : Nat} (x : X509) (p : Pki n) : Prop where
  chain : p.trustAnchors.Perm ((p.anchors x).flatMap Anchor.certs)
  entries : (p.caCerts.map fun c => (c.device, c.cred)).Perm
    ((p.anchors x).map fun a => (a.device, a.cred))
  cert : ∀ c ∈ p.caCerts, ∃ a ∈ p.anchors x, a.device = c.device ∧ a.cred = c.cred ∧
    ∃ b, a.certs.getLast? = some b ∧ p.trustAnchors[c.cert]? = some b

/-! ## the condition -/

/-- a call that removes no trust anchor, and adds none that is not a certificate or that mbedTLS does
not parse -/
def CredOp.Keeps {n : Nat} (x : X509) (pf : Platform) (p : Pki n) : CredOp n → Prop
  | .add d di dr _ => ∀ y ∈ dr.admit pf d di,
      (∀ e ∈ p.creds d, e.val.credid = dr.credid → e.val.credusage.isAnchor = false) ∧
      (dr.credusage.isAnchor = true → dr.storedPrivate y.2 ≠ none →
        dr.credtype = credtypeCert ∧ (x.parse dr.publicdata.data).2 = true)
  | .remove d addr => ∀ e ∈ p.creds d, e.addr = addr → e.val.credusage.isAnchor = false
  | .clear d => ∀ e ∈ p.creds d, e.val.credusage ≠ .trustca
  | .free d => ∀ e ∈ p.creds d, e.val.credusage.isAnchor = false
  | .setKey _ _ _ => True

instance {n : Nat} (x : X509) (pf : Platform) (p : Pki n) (op : CredOp n) :
    Decidable (op.Keeps x pf p) :=
  match op with
  | .add d di dr _ => inferInstanceAs (Decidable (∀ y ∈ dr.admit pf d di,
      (∀ e ∈ p.creds d, e.val.credid = dr.credid → e.val.credusage.isAnchor = false) ∧
      (dr.credusage.isAnchor = true → dr.storedPrivate y.2 ≠ none →
        dr.credtype = credtypeCert ∧ (x.parse dr.publicdata.data).2 = true)))
  | .remove d addr => inferInstanceAs
      (Decidable (∀ e ∈ p.creds d, e.addr = addr → e.val.credusage.isAnchor = false))
  | .clear d => inferInstanceAs (Decidable (∀ e ∈ p.creds d, e.val.credusage ≠ .trustca))
  | .free d => inferInstanceAs (Decidable (∀ e ∈ p.creds d, e.val.credusage.isAnchor = false))
  | .setKey _ _ _ => inferInstanceAs (Decidable True)

/-- every call of a run does -/
def KeepsRun {n : Nat} (x : X509) (pf : Platform) : Pki n → List (CredOp n) → Prop
  | _, [] => True
  | p, op :: ops => op.Keeps x pf p ∧ KeepsRun x pf (op.apply x pf p) ops

instance keepsRunDecidable {n : Nat} (x : X509) (pf : Platform) :
    (p : Pki n) → (ops : List (CredOp n)) → Decidable (KeepsRun x pf p ops)
  | _, [] => isTrue trivial
  | p, op :: ops =>
    have := keepsRunDecidable x pf (op.apply x pf p) ops
    inferInstanceAs (Decidable (op.Keeps x pf p ∧ KeepsRun x pf (op.apply x pf p) ops))

/-! ## the invariant -/

/-- the views agree, and no trust anchor is above another certificate -/
structure Pki.Anchored {n : Nat} (x : X509) (p : Pki n) : Prop where
  wf : p.Wf
  tracked : p.Tracked x
  heads : ∀ d, ∀ e ∈ p.creds d, e.val.credusage.isAnchor = true → e.prev = none

namespace Pki
variable {n : Nat} {x : X509} {pf : Platform} {d : Fin n} {p q : Pki n}

theorem anchors_init : (init : Pki n).anchors x = [] := List.flatMap_eq_nil_iff.mpr fun _ _ => rfl

theorem init_anchored : (init : Pki n).Anchored x where
  wf := init_wf
  tracked := by
    constructor
    · rw [anchors_init]
      exact List.Perm.refl []
    · rw [anchors_init]
      exact List.Perm.refl []
    · intro c hc
      cases hc
  heads _ := List.forall_mem_nil _

/-- the views agree as long as none of them changes -/
theorem Tracked.congr (h : Tracked x p) (ha : q.anchors x = p.anchors x)
    (hc : q.caCerts = p.caCerts) (ht : q.trustAnchors = p.trustAnchors) : Tracked x q where
  chain := by
    rw [ha, ht]
    exact h.chain
  entries := by
    rw [ha, hc]
    exact h.entries
  cert := by
    rw [ha, hc, ht]
    exact h.cert

/-- the trust anchors of one device -/
theorem anchors_put {es : List Entry} (hq : q.creds = (p.put d es).creds)
    (he : anchorsOf x d es = anchorsOf x d (p.creds d)) : q.anchors x = p.anchors x := by
  apply congrArg (fun f => (List.finRange n).flatMap f)
  funext d'
  rw [hq]
  by_cases hd : d' = d
  · rw [hd, put_self, he]
  · rw [put_ne p hd]

theorem mem_anchors {d : Fin n} {e : Entry} (he : e ∈ p.creds d)
    (ha : e.val.credusage.isAnchor = true) : Entry.anchor x d e ∈ p.anchors x :=
  List.mem_flatMap.mpr ⟨d, List.mem_finRange d,
    List.mem_map_of_mem (List.mem_filter.mpr ⟨he, ha⟩)⟩

/-- every anchor is that of a credential -/
theorem exists_of_mem_anchors {a : Anchor n} (h : a ∈ p.anchors x) :
    ∃ e ∈ p.creds a.device, e.addr = a.cred := by
  obtain ⟨d, -, h⟩ := List.mem_flatMap.mp h
  obtain ⟨e, he, rfl⟩ := List.mem_map.mp h
  exact ⟨e, List.mem_of_mem_filter he, rfl⟩

/-! ## calls that leave the trust anchors -/

/-- credentials go, but no trust anchors -/
theorem Anchored.filter (h : p.Anchored x) {f : Entry → Bool}
    (hf : ∀ e ∈ p.creds d, e.val.credusage.isAnchor = true → f e = true)
    (hq : q.creds = (p.put d ((p.creds d).filter f)).creds) (hn : q.next = p.next)
    (hc : q.caCerts = p.caCerts) (ht : q.trustAnchors = p.trustAnchors) : q.Anchored x where
  wf := h.wf.filter hq hn
  tracked := by
    refine h.tracked.congr (anchors_put hq ?_) hc ht
    rw [anchorsOf, anchorsOf, List.filter_filter]
    congr 1
    apply List.filter_congr
    intro e he
    cases ha : e.val.credusage.isAnchor with
    | true => rw [hf e he ha, Bool.and_self]
    | false => rw [Bool.false_and]
  heads d' e he := by
    rw [hq] at he
    by_cases hd : d' = d
    · rw [hd, put_self] at he
      exact h.heads d e (List.mem_of_mem_filter he)
    · rw [put_ne p hd] at he
      exact h.heads d' e he

/-- removing a credential that is no trust anchor -/
theorem removeCred_caCerts {e : Entry} (he : e.val.credusage.isAnchor = false) :
    (p.removeCred d e).caCerts = p.caCerts := by
  show (if e.val.credtype = credtypeCert ∧ e.val.credusage.isAnchor = true then _ else _) = _
  rw [he]
  exact if_neg fun hc => Bool.false_ne_true hc.2

theorem foldl_removeCred_caCerts {l : List Entry}
    (hl : ∀ e ∈ l, e.val.credusage.isAnchor = false) (p : Pki n) :
    (l.foldl (fun p e => p.removeCred d e) p).caCerts = p.caCerts ∧
      (l.foldl (fun p e => p.removeCred d e) p).trustAnchors = p.trustAnchors := by
  induction l generalizing p with
  | nil => exact ⟨rfl, rfl⟩
  | cons e l ih =>
    obtain ⟨h1, h2⟩ := ih (fun m hm => hl m (List.mem_cons_of_mem _ hm)) (p.removeCred d e)
    exact ⟨h1.trans (removeCred_caCerts (hl e List.mem_cons_self)), h2⟩

theorem removeCredByCredid_caCerts {credid : Int}
    (hf : ∀ e ∈ p.creds d, e.val.credid = credid → e.val.credusage.isAnchor = false) :
    (p.removeCredByCredid d credid).caCerts = p.caCerts ∧
      (p.removeCredByCredid d credid).trustAnchors = p.trustAnchors := by
  unfold removeCredByCredid
  cases he : (p.creds d).find? (·.val.credid = credid) with
  | none => exact ⟨rfl, rfl⟩
  | some e =>
    have hid : e.val.credid = credid := by simpa using List.find?_some he
    exact ⟨removeCred_caCerts (hf e (List.mem_of_find?_eq_some he) hid), rfl⟩

theorem Anchored.removeCredByCredid (h : p.Anchored x) {credid : Int}
    (hf : ∀ e ∈ p.creds d, e.val.credid = credid → e.val.credusage.isAnchor = false) :
    (p.removeCredByCredid d credid).Anchored x := by
  obtain ⟨h1, h2⟩ := removeCredByCredid_creds (d := d) h.wf credid
  obtain ⟨h3, h4⟩ := removeCredByCredid_caCerts hf
  refine h.filter ?_ h1 h2 h3 h4
  intro e he ha
  apply decide_eq_true
  intro hc
  rw [hf e he hc] at ha
  cases ha

theorem Anchored.removeAt (h : p.Anchored x) {addr : Nat}
    (hf : ∀ e ∈ p.creds d, e.addr = addr → e.val.credusage.isAnchor = false) :
    (p.removeAt d addr).Anchored x := by
  obtain ⟨h1, h2⟩ := removeAt_creds d addr p
  have h3 : (p.removeAt d addr).caCerts = p.caCerts ∧
      (p.removeAt d addr).trustAnchors = p.trustAnchors := by
    unfold Pki.removeAt
    cases he : (p.creds d).find? (·.addr = addr) with
    | none => exact ⟨rfl, rfl⟩
    | some e =>
      have ha : e.addr = addr := by simpa using List.find?_some he
      exact ⟨removeCred_caCerts (hf e (List.mem_of_find?_eq_some he) ha), rfl⟩
  refine h.filter ?_ h1 h2 h3.1 h3.2
  intro e he ha
  apply decide_eq_true
  intro hc
  rw [hf e he hc] at ha
  cases ha

theorem Anchored.clearCreds (h : p.Anchored x) (hf : ∀ e ∈ p.creds d, e.val.credusage ≠ .trustca) :
    (p.clearCreds d).Anchored x := by
  obtain ⟨h1, h2⟩ := clearCreds_creds (d := d) h.wf
  have hkeep : ∀ e ∈ p.creds d, e.val.credusage.isAnchor = true → e.val.credusage = .mfgTrustca :=
    fun e he ha => (of_decide_eq_true ha).resolve_left (hf e he)
  have h3 : (p.clearCreds d).caCerts = p.caCerts ∧ (p.clearCreds d).trustAnchors = p.trustAnchors := by
    apply foldl_removeCred_caCerts
    intro e he
    obtain ⟨he, hu⟩ := List.mem_filter.mp he
    cases ha : e.val.credusage.isAnchor with
    | false => rfl
    | true => exact absurd (hkeep e he ha) (of_decide_eq_true hu).1
  refine h.filter ?_ h1 h2 h3.1 h3.2
  intro e he ha
  exact decide_eq_true (Or.inl (hkeep e he ha))

theorem Anchored.freeCreds (h : p.Anchored x)
    (hf : ∀ e ∈ p.creds d, e.val.credusage.isAnchor = false) : (p.freeCreds d).Anchored x := by
  obtain ⟨h1, h2⟩ := freeCreds_creds (d := d) h.wf
  obtain ⟨h3, h4⟩ := foldl_removeCred_caCerts (d := d) hf p
  refine h.filter ?_ h1 h2 h3 h4
  intro e he ha
  rw [hf e he] at ha
  cases ha

theorem Anchored.setKey (h : p.Anchored x) (credid : Int) (key : Bytes) :
    (p.setKey d credid key).Anchored x where
  wf := h.wf.setKey credid key
  tracked := by
    have hk := keyed_fields credid key
    refine h.tracked.congr (anchors_put (setKey_creds d credid key p) ?_) rfl rfl
    rw [anchorsOf, anchorsOf, List.filter_map, List.map_map]
    have hp : (fun e : Entry => e.val.credusage.isAnchor) ∘ keyed credid key =
        fun e => e.val.credusage.isAnchor := by
      funext e
      show (keyed credid key e).val.credusage.isAnchor = _
      rw [(hk e).2.2.2.2.1]
    rw [hp]
    apply List.map_congr_left
    intro e _
    show Anchor.mk d (keyed credid key e).addr
      (x.parse (keyed credid key e).val.publicdata.data).1 = _
    rw [(hk e).1, (hk e).2.2.2.2.2]
    rfl
  heads d' e he := by
    have hk := keyed_fields credid key
    rw [setKey_creds] at he
    by_cases hd : d' = d
    · rw [hd, put_self] at he
      obtain ⟨m, hm, rfl⟩ := List.mem_map.mp he
      rw [(hk m).2.2.2.2.1, (hk m).2.2.1]
      exact h.heads d m hm
    · rw [put_ne p hd] at he
      exact h.heads d' e he

/-! ## a new credential that is no trust anchor -/

theorem anchorsOf_append (es fs : List Entry) :
    anchorsOf x d (es ++ fs) = anchorsOf x d es ++ anchorsOf x d fs := by
  rw [anchorsOf, List.filter_append, List.map_append]
  rfl

theorem anchorsOf_pos {e : Entry} (h : e.val.credusage.isAnchor = true) :
    anchorsOf x d [e] = [Entry.anchor x d e] := by
  simp [anchorsOf, h]

theorem anchorsOf_neg {e : Entry} (h : e.val.credusage.isAnchor = false) :
    anchorsOf x d [e] = [] := by
  simp [anchorsOf, h]

/-- a changed link on a credential that is no trust anchor does not show -/
theorem anchorsOf_update {a : Nat} {g : Entry → Entry} {es : List Entry}
    (hg : ∀ e, (g e).val = e.val)
    (ha : ∀ e ∈ es, e.addr = a → e.val.credusage.isAnchor = false) :
    anchorsOf x d (update a g es) = anchorsOf x d es := by
  induction es with
  | nil => rfl
  | cons e es ih =>
    have ih := ih fun m hm => ha m (List.mem_cons_of_mem _ hm)
    show anchorsOf x d ([if e.addr = a then g e else e] ++ update a g es) =
      anchorsOf x d ([e] ++ es)
    rw [anchorsOf_append, anchorsOf_append, ih]
    by_cases he : e.addr = a
    · have hu := ha e List.mem_cons_self he
      rw [if_pos he, anchorsOf_neg hu, anchorsOf_neg (by rw [hg, hu])]
    · rw [if_neg he]

/-- the list of a device after an insertion -/
theorem mem_insert {es : List Entry} {c : Cred} {chain child : Option Nat} {d' : Fin n} {m : Entry}
    (hm : m ∈ (p.insert d es c chain child).creds d') :
    (d' = d ∧ (m ∈ es ∨ m = ⟨p.next, c, chain, child⟩)) ∨ (d' ≠ d ∧ m ∈ p.creds d') := by
  by_cases hd : d' = d
  · have he : (p.insert d es c chain child).creds d' = es ++ [⟨p.next, c, chain, child⟩] := by
      rw [hd]
      exact Function.update_self ..
    rw [he, List.mem_append, List.mem_singleton] at hm
    exact Or.inl ⟨hd, hm⟩
  · have he : (p.insert d es c chain child).creds d' = p.creds d' := Function.update_of_ne hd ..
    rw [he] at hm
    exact Or.inr ⟨hd, hm⟩

/-- a new credential that is no trust anchor, with changed links on others -/
theorem Anchored.insertOther (h : p.Anchored x) {es : List Entry}
    (hes : anchorsOf x d es = anchorsOf x d (p.creds d))
    (hh : ∀ m ∈ es, m.val.credusage.isAnchor = true → m.prev = none) {c : Cred}
    (hc : c.credusage.isAnchor = false) {chain child : Option Nat}
    (hw : (p.insert d es c chain child).Wf) : (p.insert d es c chain child).Anchored x where
  wf := hw
  tracked := by
    refine h.tracked.congr (anchors_put (d := d) rfl ?_) rfl rfl
    rw [anchorsOf_append, hes, anchorsOf_neg hc, List.append_nil]
  heads d' m hm ha := by
    rcases mem_insert hm with ⟨-, hm | rfl⟩ | ⟨-, hm⟩
    · exact hh m hm ha
    · have ha : c.credusage.isAnchor = true := ha
      rw [hc] at ha
      cases ha
    · exact h.heads d' m hm ha

/-- a credential in a chain is no trust anchor, and neither is the one that it is linked to -/
theorem Anchored.insertLinked (h : p.Anchored x) {e : Entry} (he : e ∈ p.creds d)
    (hu : e.val.credusage.isAnchor = false) {g : Entry → Entry}
    (hg : ∀ m, (g m).val = m.val) {c : Cred} (hc : c.credusage.isAnchor = false)
    {chain child : Option Nat} (hw : (p.insert d (update e.addr g (p.creds d)) c chain child).Wf) :
    (p.insert d (update e.addr g (p.creds d)) c chain child).Anchored x := by
  have hsame : ∀ m ∈ p.creds d, m.addr = e.addr → m.val.credusage.isAnchor = false := by
    intro m hm ha
    rw [eq_of_addr (h.wf.addrs d) hm he ha]
    exact hu
  refine h.insertOther (anchorsOf_update hg hsame) ?_ hc hw
  intro m hm ha
  obtain ⟨k, hk, ⟨hka, rfl⟩ | ⟨_, rfl⟩⟩ := mem_update.mp hm
  · rw [hg, hsame k hk hka] at ha
    cases ha
  · exact h.heads d m hk ha

/-! ## a new trust anchor -/

/-- nothing is done where every trust anchor is known -/
theorem foldl_refreshCert_known {l : List (Fin n × Entry)}
    (hl : ∀ t ∈ l, t.2.val.credusage.isAnchor = true → q.isKnownTrustAnchor t.2 = true) :
    l.foldl (refreshCert x) q = q := by
  induction l with
  | nil => rfl
  | cons t l ih =>
    have hstep : q.refreshCert x t = q := by
      unfold refreshCert
      split
      · next ha =>
        exact if_pos (hl t List.mem_cons_self ha.1)
      · rfl
    rw [List.foldl_cons, hstep]
    exact ih fun t ht => hl t (List.mem_cons_of_mem _ ht)

/-- the one trust anchor that is not known yet is added -/
theorem foldl_refreshCert_new {l : List (Fin n × Entry)} {e : Entry}
    (ha : e.val.credusage.isAnchor = true) (hp : e.prev = none)
    (hn : q.isKnownTrustAnchor e = false) (hx : (x.parse e.val.publicdata.data).2 = true)
    (hl : ∀ t ∈ l, t.2.val.credusage.isAnchor = true →
      t = (d, e) ∨ q.isKnownTrustAnchor t.2 = true)
    (he : (d, e) ∈ l) : l.foldl (refreshCert x) q = q.addNewTrustAnchor x d e := by
  have hadd : (q.addNewTrustAnchor x d e).caCerts =
      q.caCerts ++ [⟨d, e.addr, (q.trustAnchors ++ x.certs e).length - 1⟩] := by
    show (if _ then _ else _ : Pki n).caCerts = _
    rw [if_pos hx]
  have hknown : ∀ m : Entry, q.isKnownTrustAnchor m = true ∨ m = e →
      (q.addNewTrustAnchor x d e).isKnownTrustAnchor m = true := by
    intro m hm
    rw [isKnownTrustAnchor, hadd, List.any_append, Bool.or_eq_true]
    rcases hm with hm | rfl
    · exact Or.inl hm
    · exact Or.inr (by simp)
  induction l with
  | nil => cases he
  | cons t l ih =>
    have hrest := fun t ht => hl t (List.mem_cons_of_mem _ ht)
    by_cases ht : t = (d, e)
    · have hstep : q.refreshCert x t = q.addNewTrustAnchor x d e := by
        rw [ht]
        unfold refreshCert
        rw [if_pos ⟨ha, hp⟩, if_neg (by rw [hn]; exact Bool.false_ne_true)]
      rw [List.foldl_cons, hstep]
      apply foldl_refreshCert_known
      intro t ht ha
      rcases hrest t ht ha with rfl | hk
      · exact hknown e (Or.inr rfl)
      · exact hknown t.2 (Or.inl hk)
    · have hstep : q.refreshCert x t = q := by
        unfold refreshCert
        split
        · next hta =>
          rcases hl t List.mem_cons_self hta.1 with hc | hk
          · exact absurd hc ht
          · exact if_pos hk
        · rfl
      rw [List.foldl_cons, hstep]
      exact ih hrest ((List.mem_cons.mp he).resolve_left fun hc => ht hc.symm)

/-- a trust anchor of the store is known -/
theorem Anchored.known (h : p.Anchored x) {e : Entry} (he : e ∈ p.creds d)
    (ha : e.val.credusage.isAnchor = true) : p.isKnownTrustAnchor e = true := by
  have hm : (d, e.addr) ∈ p.caCerts.map fun c => (c.device, c.cred) := by
    rw [h.tracked.entries.mem_iff]
    exact List.mem_map.mpr ⟨_, mem_anchors he ha, rfl⟩
  obtain ⟨c, hc, heq⟩ := List.mem_map.mp hm
  apply List.any_eq_true.mpr
  exact ⟨c, hc, decide_eq_true (congrArg Prod.snd heq)⟩

/-- a new block is not known -/
theorem Anchored.unknown (h : p.Anchored x) {e : Entry} (he : e.addr = p.next) :
    p.isKnownTrustAnchor e = false := by
  apply List.any_eq_false.mpr
  intro c hc
  obtain ⟨a, ha, hd, hac, -⟩ := h.tracked.cert c hc
  obtain ⟨m, hm, hma⟩ := exists_of_mem_anchors ha
  have := h.wf.fresh _ m hm
  rw [decide_eq_true_eq]
  omega

/-- one element at one place of a list without repetitions -/
theorem flatMap_single {α β : Type} [DecidableEq α] {l : List α} (hl : l.Nodup) {a : α} (ha : a ∈ l)
    (b : β) : (l.flatMap fun c => if c = a then [b] else []) = [b] := by
  induction l with
  | nil => cases ha
  | cons c l ih =>
    obtain ⟨hc, hl⟩ := List.nodup_cons.mp hl
    rw [List.flatMap_cons]
    by_cases he : c = a
    · have hnil : (l.flatMap fun c => if c = a then [b] else []) = [] := by
        apply List.flatMap_eq_nil_iff.mpr
        intro c' hc'
        exact if_neg fun h => hc (by rw [he, ← h]; exact hc')
      rw [if_pos he, hnil]
      rfl
    · rw [if_neg he, List.nil_append]
      exact ih hl ((List.mem_cons.mp ha).resolve_left fun h => he h.symm)

/-- the anchors with one more at the end of one device -/
theorem anchors_snoc {e : Entry} (ha : e.val.credusage.isAnchor = true)
    (hq : q.creds = (p.put d (p.creds d ++ [e])).creds) :
    (q.anchors x).Perm (p.anchors x ++ [Entry.anchor x d e]) := by
  have hsplit : q.anchors x = (List.finRange n).flatMap fun d' =>
      anchorsOf x d' (p.creds d') ++ if d' = d then [Entry.anchor x d e] else [] := by
    apply congrArg (fun f => (List.finRange n).flatMap f)
    funext d'
    rw [hq]
    by_cases hd : d' = d
    · rw [hd, put_self, anchorsOf_append, anchorsOf_pos ha, if_pos rfl]
    · rw [put_ne p hd, if_neg hd, List.append_nil]
  have hperm := (List.flatMap_append_perm (List.finRange n)
    (fun d' => anchorsOf x d' (p.creds d'))
    (fun d' => if d' = d then [Entry.anchor x d e] else [])).symm
  rw [flatMap_single (List.nodup_finRange n) (List.mem_finRange d)] at hperm
  rw [hsplit]
  exact hperm

/-- the tail of a chain after certificates are appended to it -/
theorem getElem?_append_last {l m : List Bytes} (hm : m ≠ []) :
    ∃ b, m.getLast? = some b ∧ (l ++ m)[(l ++ m).length - 1]? = some b := by
  refine ⟨m.getLast hm, List.getLast?_eq_some_getLast hm, ?_⟩
  rw [← List.getLast?_eq_getElem?, List.getLast?_append_of_ne_nil _ hm,
    List.getLast?_eq_some_getLast hm]

/-- the three views after a trust anchor is added to the store and to mbedTLS -/
theorem Tracked.snoc (h : p.Tracked x) {e : Entry} (ha : e.val.credusage.isAnchor = true)
    (hx : (x.parse e.val.publicdata.data).2 = true)
    (hq : q.creds = (p.put d (p.creds d ++ [e])).creds)
    (ht : q.trustAnchors = p.trustAnchors ++ x.certs e)
    (hc : q.caCerts = p.caCerts ++ [⟨d, e.addr, q.trustAnchors.length - 1⟩]) : q.Tracked x where
  chain := by
    have hp := (anchors_snoc (x := x) ha hq).flatMap_right Anchor.certs
    rw [List.flatMap_append, List.flatMap_singleton] at hp
    rw [ht]
    exact (h.chain.append_right _).trans hp.symm
  entries := by
    have hp := (anchors_snoc (x := x) ha hq).map fun a => (a.device, a.cred)
    rw [List.map_append] at hp
    rw [hc, List.map_append]
    exact (h.entries.append_right _).trans hp.symm
  cert c hcm := by
    have hmem : ∀ a, a ∈ p.anchors x ∨ a = Entry.anchor x d e → a ∈ q.anchors x := by
      intro a hma
      rw [(anchors_snoc ha hq).mem_iff, List.mem_append, List.mem_singleton]
      exact hma
    rw [hc] at hcm
    rcases List.mem_append.mp hcm with hcm | hcm
    · obtain ⟨a, ham, hd, hac, b, hb, hcb⟩ := h.cert c hcm
      refine ⟨a, hmem a (Or.inl ham), hd, hac, b, hb, ?_⟩
      rw [ht]
      exact List.getElem?_append_left (List.getElem?_eq_some_iff.mp hcb).1 ▸ hcb
    · cases List.mem_singleton.mp hcm
      obtain ⟨b, hb, hcb⟩ := getElem?_append_last (l := p.trustAnchors) (x.parse_ne_nil _ hx)
      refine ⟨_, hmem _ (Or.inr rfl), rfl, rfl, b, hb, ?_⟩
      rw [ht]
      exact hcb

/-- a new trust anchor in the store, and the refresh that follows -/
theorem Anchored.insertAnchor (h : p.Anchored x) {c : Cred} (hc : c.credusage.isAnchor = true)
    (hx : (x.parse c.publicdata.data).2 = true)
    (hw : ((p.insert d (p.creds d) c none none).refresh x).Wf) :
    ((p.insert d (p.creds d) c none none).refresh x).Anchored x := by
  generalize hq : p.insert d (p.creds d) c none none = q at hw
  let e : Entry := ⟨p.next, c, none, none⟩
  have hcreds : q.creds = (p.put d (p.creds d ++ [e])).creds := by
    rw [← hq]
    rfl
  have hcas : q.caCerts = p.caCerts ∧ q.trustAnchors = p.trustAnchors := by
    rw [← hq]
    exact ⟨rfl, rfl⟩
  have hall : ∀ d' m, m ∈ q.creds d' → m.val.credusage.isAnchor = true →
      (d', m) = (d, e) ∨ m ∈ p.creds d' := by
    intro d' m hm _
    rw [← hq] at hm
    rcases mem_insert hm with ⟨rfl, hm | rfl⟩ | ⟨-, hm⟩
    · exact Or.inr hm
    · exact Or.inl rfl
    · exact Or.inr hm
  have hnew : q.refresh x = q.addNewTrustAnchor x d e := by
    apply foldl_refreshCert_new hc rfl ?_ hx
    · intro t ht ha
      obtain ⟨d', -, ht⟩ := List.mem_flatMap.mp ht
      obtain ⟨m, hm, rfl⟩ := List.mem_map.mp ht
      rcases hall d' m hm ha with heq | hm
      · exact Or.inl heq
      · refine Or.inr ?_
        rw [isKnownTrustAnchor, hcas.1]
        exact h.known hm ha
    · apply List.mem_flatMap.mpr
      refine ⟨d, List.mem_finRange d, List.mem_map_of_mem ?_⟩
      rw [hcreds, put_self]
      exact List.mem_append_right _ (List.mem_singleton.mpr rfl)
    · rw [isKnownTrustAnchor, hcas.1]
      exact h.unknown rfl
  have hadd : q.addNewTrustAnchor x d e = { q with
      trustAnchors := q.trustAnchors ++ x.certs e
      caCerts := q.caCerts ++ [⟨d, e.addr, (q.trustAnchors ++ x.certs e).length - 1⟩] } :=
    if_pos hx
  rw [hnew, hadd] at hw ⊢
  refine ⟨hw, ?_, ?_⟩
  · refine h.tracked.snoc (d := d) (e := e) hc hx hcreds ?_ ?_
    · show q.trustAnchors ++ x.certs e = _
      rw [hcas.2]
    · show q.caCerts ++ [_] = _
      rw [hcas.1]
  · intro d' m hm ha
    rcases hall d' m hm ha with heq | hm
    · cases heq
      rfl
    · exact h.heads d' m hm ha

theorem storedPublic_data (dr : CredDraft) : dr.storedPublic.data = dr.publicdata.data := by
  unfold CredDraft.storedPublic
  split
  · next h =>
    rw [h]
    rfl
  · rfl

/-! ## runs -/

theorem Anchored.add {di : Uuid} {dr : CredDraft} {draws : Nat} (h : p.Anchored x)
    (hk : (CredOp.add d di dr draws).Keeps x pf p) : (p.add x pf d di dr draws).2.Anchored x := by
  have ha := add_added h.wf x pf d di dr draws
  have hw : (p.add x pf d di dr draws).2.Wf := h.wf.add
  generalize (p.add x pf d di dr draws).2 = q at ha hw
  cases ha with
  | refused ha => exact h
  | dropped ha h1 h2 hk' =>
    have hr := h.removeCredByCredid (hk _ ha).1
    exact ⟨hw, hr.tracked.congr rfl rfl rfl, hr.heads⟩
  | @alone subject kp ha h1 h2 r hr priv hp =>
    have hr' : r.Anchored x := by
      rw [hr]
      exact h.removeCredByCredid (hk _ ha).1
    unfold settle at hw ⊢
    cases hu : dr.credusage.isAnchor with
    | true =>
      obtain ⟨ht, hx⟩ := (hk _ ha).2 hu (by rw [hp]; exact Option.some_ne_none _)
      have hrefresh : dr.refreshes = true := decide_eq_true ⟨ht, hu⟩
      rw [if_pos hrefresh] at hw ⊢
      refine hr'.insertAnchor hu ?_ hw
      show (x.parse dr.storedPublic.data).2 = true
      rw [storedPublic_data]
      exact hx
    | false =>
      have hrefresh : dr.refreshes = false := by
        rw [CredDraft.refreshes, hu]
        simp
      rw [if_neg (by rw [hrefresh]; exact Bool.false_ne_true)] at hw ⊢
      exact hr'.insertOther rfl (hr'.heads d) hu hw
  | after ha h1 h2 hr he hu hn =>
    subst hr
    refine (h.removeCredByCredid (hk _ ha).1).insertLinked he (by rw [hu, hn]) ?_ ?_ hw
    · exact fun _ => rfl
    · exact hn
  | before ha h1 h2 hr he hu hn =>
    subst hr
    refine (h.removeCredByCredid (hk _ ha).1).insertLinked he (by rw [hu, hn]) ?_ ?_ hw
    · exact fun _ => rfl
    · exact hn

/-- what one call leaves -/
theorem Anchored.apply (h : p.Anchored x) (op : CredOp n) (hk : op.Keeps x pf p) :
    (op.apply x pf p).Anchored x := by
  cases op with
  | add d di dr draws => exact h.add hk
  | remove d addr => exact h.removeAt hk
  | clear d => exact h.clearCreds hk
  | free d => exact h.freeCreds hk
  | setKey d credid key => exact h.setKey credid key

/-- what a run leaves -/
theorem Anchored.run (h : p.Anchored x) (ops : List (CredOp n)) (hk : KeepsRun x pf p ops) :
    (p.run x pf ops).Anchored x := by
  induction ops generalizing p with
  | nil => exact h
  | cons op ops ih => exact ih (h.apply op hk.1) hk.2

end Pki

theorem KeepsRun.take {n : Nat} {x : X509} {pf : Platform} {pre post : List (CredOp n)} {p : Pki n}
    (h : KeepsRun x pf p (pre ++ post)) : KeepsRun x pf p pre := by
  induction pre generalizing p with
  | nil => trivial
  | cons op pre ih => exact ⟨h.1, ih h.2⟩

/-- in a run that removes no trust anchor and adds only ones that can be parsed, the store, the chain
of mbedTLS and `ca_certs` agree at all times -/
theorem anchors_tracked_run {n : Nat} (x : X509) (pf : Platform) (ops : List (CredOp n))
    (hk : KeepsRun x pf Pki.init ops) :
    ∀ pre, pre <+: ops → (Pki.init.run x pf pre).Tracked x := by
  intro pre hpre
  obtain ⟨post, rfl⟩ := hpre
  exact (Pki.init_anchored.run pre hk.take).tracked

/-- a trust anchor of a device -/
def anchorDraft : CredDraft :=
  { CredDraft.empty with credid := 1, credtype := credtypeCert, credusage := .trustca
                         subjectuuid := some (ascii "*"), publicdata := ⟨[48, 1], .der⟩ }

/-- two devices with trust anchors, and a shared key that comes and goes -/
def anchorOps : List (CredOp 2) :=
  let first : Fin 2 := ⟨0, Nat.two_pos⟩
  let second : Fin 2 := ⟨1, Nat.one_lt_two⟩
  [.add first Uuid.nil anchorDraft 0,
    .add first Uuid.nil { anchorDraft with credid := 2, credtype := credtypePsk, credusage := .null } 0,
    .add second Uuid.nil { anchorDraft with credusage := .mfgTrustca } 0, .clear second, .remove first 1]

theorem anchors_tracked_two : KeepsRun plainX509 (plainPlatform 2) Pki.init anchorOps ∧
    (Pki.init.run plainX509 (plainPlatform 2) anchorOps).Tracked plainX509 := by
  have hk : KeepsRun plainX509 (plainPlatform 2) Pki.init anchorOps := by decide +kernel
  exact ⟨hk, anchors_tracked_run plainX509 (plainPlatform 2) anchorOps hk _ (List.prefix_refl _)⟩

/-- a trust anchor that is removed stays in the chain -/
theorem revoked_anchor_stays :
    ¬ ∀ (x : X509) (pf : Platform) (ops : List (CredOp 1)), (Pki.init.run x pf ops).Tracked x := by
  intro h
  have ht := h plainX509 (plainPlatform 1) [.add 0 Uuid.nil anchorDraft 0, .remove 0 0]
  replace ht := ht.chain.length_eq
  revert ht
  decide +kernel

end Security
