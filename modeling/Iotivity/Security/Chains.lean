import Iotivity.Security.CredStore

/-!
# Certificate chains in the store

`oc_sec_add_new_cred` links a new certificate to one that it finds, and `oc_sec_remove_cred` does not
look at the links at all.  `Pki.Linked` holds in every state of a run in which no linked credential
is removed on its own and no link is overwritten (`links_sound_run`).
-/

namespace Security
open Links

/-! ## the condition -/

/-- an addition that keeps the links.  The credential that is removed has none, except where the new
one takes its place in the same call; and a link that is set was null, or led to that credential. -/
def Pki.Fits {n : Nat} (d : Fin n) (dr : CredDraft) (subject : Uuid) (p : Pki n) : Prop :=
  (∀ e ∈ p.creds d, e.val.credid = dr.credid →
    (∀ a ∈ e.next, ∃ t ∈ p.childOf d dr subject, t.addr = a) ∧
    (∀ a ∈ e.prev, ∃ t ∈ p.chainOf d dr subject, t.addr = a)) ∧
  (∀ t ∈ p.chainOf d dr subject, ∀ a ∈ t.next,
    ∃ e ∈ p.creds d, e.val.credid = dr.credid ∧ e.addr = a) ∧
  (∀ t ∈ p.childOf d dr subject, ∀ a ∈ t.prev,
    ∃ e ∈ p.creds d, e.val.credid = dr.credid ∧ e.addr = a)

instance {n : Nat} (d : Fin n) (dr : CredDraft) (subject : Uuid) (p : Pki n) :
    Decidable (p.Fits d dr subject) := inferInstanceAs (Decidable (_ ∧ _ ∧ _))

/-- a call that keeps the links; a credential that is removed alone has none -/
def CredOp.Clean {n : Nat} (pf : Platform) (p : Pki n) : CredOp n → Prop
  | .add d di dr _ => ∀ y ∈ dr.admit pf d di, p.Fits d dr y.1
  | .remove d addr => ∀ e ∈ p.creds d, e.addr = addr → e.Free
  | .clear _ => True
  | .free _ => True
  | .setKey _ _ _ => True

instance {n : Nat} (pf : Platform) (p : Pki n) (op : CredOp n) : Decidable (op.Clean pf p) :=
  match op with
  | .add d di dr _ => inferInstanceAs (Decidable (∀ y ∈ dr.admit pf d di, p.Fits d dr y.1))
  | .remove d addr => inferInstanceAs (Decidable (∀ e ∈ p.creds d, e.addr = addr → e.Free))
  | .clear _ => inferInstanceAs (Decidable True)
  | .free _ => inferInstanceAs (Decidable True)
  | .setKey _ _ _ => inferInstanceAs (Decidable True)

/-- every call of a run keeps the links -/
def CleanRun {n : Nat} (x : X509) (pf : Platform) : Pki n → List (CredOp n) → Prop
  | _, [] => True
  | p, op :: ops => op.Clean pf p ∧ CleanRun x pf (op.apply x pf p) ops

instance cleanRunDecidable {n : Nat} (x : X509) (pf : Platform) :
    (p : Pki n) → (ops : List (CredOp n)) → Decidable (CleanRun x pf p ops)
  | _, [] => isTrue trivial
  | p, op :: ops =>
    have := cleanRunDecidable x pf (op.apply x pf p) ops
    inferInstanceAs (Decidable (op.Clean pf p ∧ CleanRun x pf (op.apply x pf p) ops))

/-! ## the invariant -/

/-- the links of every device are sound, and linked credentials have the same use -/
structure Pki.Linked {n : Nat} (p : Pki n) : Prop where
  wf : p.Wf
  sound : ∀ d, Sound (p.creds d)
  usage : ∀ d, ∀ e ∈ p.creds d, ∀ f ∈ p.creds d, e.next = some f.addr →
    e.val.credusage = f.val.credusage

namespace Pki
variable {n : Nat} {x : X509} {pf : Platform} {d : Fin n} {p : Pki n}

theorem init_linked : (init : Pki n).Linked where
  wf := init_wf
  sound _ := sound_nil
  usage _ := List.forall_mem_nil _

/-- the invariant is one of each device -/
theorem linked_put {es : List Entry} (h : p.Linked) {q : Pki n} (hw : q.Wf) (hs : Sound es)
    (hu : ∀ e ∈ es, ∀ f ∈ es, e.next = some f.addr → e.val.credusage = f.val.credusage)
    (hq : q.creds = (p.put d es).creds) : q.Linked where
  wf := hw
  sound d' := by
    rw [hq]
    by_cases hd : d' = d
    · rw [hd, put_self]
      exact hs
    · rw [put_ne p hd]
      exact h.sound d'
  usage d' := by
    rw [hq]
    by_cases hd : d' = d
    · rw [hd, put_self]
      exact hu
    · rw [put_ne p hd]
      exact h.usage d'

/-! ## removing -/

theorem Linked.filter (h : p.Linked) {f : Entry → Bool} (hs : Sound ((p.creds d).filter f))
    {q : Pki n} (hq : q.creds = (p.put d ((p.creds d).filter f)).creds) (hn : q.next = p.next) :
    q.Linked := by
  refine linked_put h (h.wf.filter hq hn) hs ?_ hq
  intro e he g hg
  exact h.usage d e (List.mem_of_mem_filter he) g (List.mem_of_mem_filter hg)

/-- a device keeps its manufacturer's credentials with their chains -/
theorem Linked.clearCreds (h : p.Linked) : (p.clearCreds d).Linked := by
  obtain ⟨h1, h2⟩ := clearCreds_creds (d := d) h.wf
  refine h.filter ?_ h1 h2
  apply (h.sound d).filter
  -- the two ends of a link have the same use, and both stay
  intro e he hk a ha
  rcases ha with ha | ha
  · obtain ⟨m, hm, hma, hmp⟩ := (h.sound d).next e he a ha
    refine ⟨m, hm, hma, ?_⟩
    rw [← h.usage d e he m hm (by rw [ha, hma])]
    exact hk
  · obtain ⟨m, hm, hma, hmn⟩ := (h.sound d).prev e he a ha
    refine ⟨m, hm, hma, ?_⟩
    rw [h.usage d m hm e he hmn]
    exact hk

theorem Linked.freeCreds (h : p.Linked) : (p.freeCreds d).Linked := by
  obtain ⟨h1, h2⟩ := freeCreds_creds (d := d) h.wf
  refine h.filter ?_ h1 h2
  rw [List.filter_eq_nil_iff.mpr (by simp)]
  exact sound_nil

/-! ## adding -/

/-- a new credential without links -/
theorem Linked.insert (h : p.Linked) {c : Cred} {q : Pki n} (hw : q.Wf)
    (hq : q.creds = (p.insert d (p.creds d) c none none).creds) : q.Linked := by
  refine linked_put h hw ((h.sound d).snoc ⟨rfl, rfl⟩ (h.wf.next_notMem d)) ?_ hq
  intro e he f hf hef
  rcases List.mem_append.mp he with he | he
  · obtain ⟨m, hm, hma, -⟩ := (h.sound d).next e he _ hef
    rcases List.mem_append.mp hf with hf | hf
    · exact h.usage d e he f hf hef
    · -- no link leads to the new block
      cases List.mem_singleton.mp hf
      have := h.wf.fresh d m hm
      have hma : m.addr = p.next := hma
      omega
  · cases List.mem_singleton.mp he
    cases hef

/-- a changed link leaves the credential and its address -/
theorem mem_update_val {a : Nat} {g : Entry → Entry} {es : List Entry} {e : Entry}
    (hg : ∀ e, (g e).addr = e.addr ∧ (g e).val = e.val) (he : e ∈ update a g es) :
    ∃ k ∈ es, k.addr = e.addr ∧ k.val = e.val := by
  obtain ⟨k, hk, ⟨_, rfl⟩ | ⟨_, rfl⟩⟩ := mem_update.mp he
  · exact ⟨k, hk, (hg k).1.symm, (hg k).2.symm⟩
  · exact ⟨e, hk, rfl, rfl⟩

/-- a new credential after one that has no next -/
theorem Linked.insertAfter (h : p.Linked) {e : Entry} (he : e ∈ p.creds d) (hf : e.next = none)
    {c : Cred} (hu : e.val.credusage = c.credusage)
    {q : Pki n} (hw : q.Wf)
    (hq : q.creds = (p.insert d (update e.addr (Node.withNext (some p.next)) (p.creds d)) c none
      (some e.addr)).creds) :
    q.Linked := by
  have hg : ∀ m : Entry, (m.withNext (some p.next)).addr = m.addr ∧
      (m.withNext (some p.next)).val = m.val := fun _ => ⟨rfl, rfl⟩
  refine linked_put h hw ((h.sound d).linkNext he hf (h.wf.next_notMem d)) ?_ hq
  intro a ha b hb hab
  rcases List.mem_append.mp ha with ha | ha
  · obtain ⟨k, hk, ⟨hka, rfl⟩ | ⟨hka, rfl⟩⟩ := mem_update.mp ha
    · -- the link that is set: its other end is the new block
      have hb' : b.addr = p.next := (Option.some.inj hab).symm
      rcases List.mem_append.mp hb with hb | hb
      · obtain ⟨m, hm, hma, -⟩ := mem_update_val hg hb
        have := h.wf.fresh d m hm
        omega
      · cases List.mem_singleton.mp hb
        rw [eq_of_addr (h.sound d).nodup hk he hka]
        exact hu
    · obtain ⟨m, hm, hma, -⟩ := (h.sound d).next a hk _ hab
      rcases List.mem_append.mp hb with hb | hb
      · obtain ⟨k, hk', hka', hkv⟩ := mem_update_val hg hb
        rw [← hkv]
        exact h.usage d a hk k hk' (by rw [hab, hka'])
      · cases List.mem_singleton.mp hb
        have := h.wf.fresh d m hm
        have hma : m.addr = p.next := hma
        omega
  · cases List.mem_singleton.mp ha
    cases hab

/-- a new credential before one that has no previous -/
theorem Linked.insertBefore (h : p.Linked) {e : Entry} (he : e ∈ p.creds d) (hf : e.prev = none)
    {c : Cred} (hu : e.val.credusage = c.credusage)
    {q : Pki n} (hw : q.Wf)
    (hq : q.creds = (p.insert d (update e.addr (Node.withPrev (some p.next)) (p.creds d)) c (some e.addr)
      none).creds) :
    q.Linked := by
  have hg : ∀ m : Entry, (m.withPrev (some p.next)).addr = m.addr ∧
      (m.withPrev (some p.next)).val = m.val := fun _ => ⟨rfl, rfl⟩
  refine linked_put h hw ((h.sound d).linkPrev he hf (h.wf.next_notMem d)) ?_ hq
  intro a ha b hb hab
  rcases List.mem_append.mp ha with ha | ha
  · have hk : ∃ k ∈ p.creds d, k.val = a.val ∧ k.next = a.next := by
      obtain ⟨k, hk, ⟨_, rfl⟩ | ⟨_, rfl⟩⟩ := mem_update.mp ha
      · exact ⟨k, hk, rfl, rfl⟩
      · exact ⟨a, hk, rfl, rfl⟩
    obtain ⟨k, hk, hkv, hkn⟩ := hk
    obtain ⟨m, hm, hma, -⟩ := (h.sound d).next k hk _ (hkn.trans hab)
    rcases List.mem_append.mp hb with hb | hb
    · obtain ⟨j, hj, hja, hjv⟩ := mem_update_val hg hb
      rw [← hkv, ← hjv]
      exact h.usage d k hk j hj (by rw [hkn, hab, hja])
    · cases List.mem_singleton.mp hb
      have := h.wf.fresh d m hm
      have hma : m.addr = p.next := hma
      omega
  · cases List.mem_singleton.mp ha
    have hb' : b.addr = e.addr := (Option.some.inj hab).symm
    rcases List.mem_append.mp hb with hb | hb
    · obtain ⟨j, hj, hja, hjv⟩ := mem_update_val hg hb
      rw [← hjv, eq_of_addr (h.sound d).nodup hj he (hja.trans hb')]
      exact hu.symm
    · cases List.mem_singleton.mp hb
      have := h.wf.fresh d e he
      have hb' : p.next = e.addr := hb'
      omega

/-! ## the outcomes of an addition -/

section
variable {di : Uuid} {dr : CredDraft} {subject : Uuid} {kp : Option Bytes} {draws : Nat}

/-- credentials without links are removed by their id -/
theorem Linked.removeFree (h : p.Linked)
    (hf : ∀ e ∈ p.creds d, e.val.credid = dr.credid → e.Free) :
    (p.removeCredByCredid d dr.credid).Linked := by
  obtain ⟨h1, h2⟩ := removeCredByCredid_creds (d := d) h.wf dr.credid
  refine h.filter ?_ h1 h2
  apply (h.sound d).filterFree
  intro e he hfe
  exact hf e he (not_not.mp (of_decide_eq_false hfe))

/-- the credential with the id is removed, and a link taken away -/
theorem Linked.cut (h : p.Linked) {a : Nat} {g : Entry → Entry}
    (hg : ∀ m, (g m).addr = m.addr ∧ (g m).val = m.val)
    (hl : ∀ m, (g m).next = none ∨ (g m).next = m.next)
    (hs : Sound (update a g ((p.creds d).filter (·.val.credid ≠ dr.credid)))) :
    ((p.removeCredByCredid d dr.credid).put d
      (update a g ((p.removeCredByCredid d dr.credid).creds d))).Linked := by
  have hc := (removeCredByCredid_creds (d := d) h.wf dr.credid).1
  have hr := h.wf.removeCredByCredid (d := d) dr.credid
  have hall : (p.removeCredByCredid d dr.credid).creds d =
      (p.creds d).filter (·.val.credid ≠ dr.credid) := by rw [hc, put_self]
  rw [hall]
  refine linked_put (d := d) h ?_ hs ?_ (by rw [put, hc, put, put, Function.update_idem])
  · refine wf_put (d := d) hr (Nat.le_refl _) hs.nodup ?_ ?_ rfl rfl
    · have hv := congrArg (List.map Cred.credid) (map_val_update (a := a) (fun m => (hg m).2)
        ((p.creds d).filter (·.val.credid ≠ dr.credid)))
      rw [List.map_map, List.map_map] at hv
      have hid := hr.credids d
      rw [hall] at hid
      exact hv ▸ hid
    · intro m hm
      obtain ⟨k, hk, hka, -⟩ := mem_update_val hg hm
      rw [hall]
      exact Or.inl ⟨k, hk, hka⟩
  · intro m hm b hb hmb
    obtain ⟨j, hj, hja, hjv⟩ := mem_update_val hg hb
    have hk : ∃ k ∈ p.creds d, k.val = m.val ∧ k.next = some b.addr := by
      obtain ⟨k, hk, ⟨_, rfl⟩ | ⟨_, rfl⟩⟩ := mem_update.mp hm
      · rcases hl k with hl | hl
        · rw [hl] at hmb
          cases hmb
        · exact ⟨k, List.mem_of_mem_filter hk, (hg k).2.symm, hl.symm.trans hmb⟩
      · exact ⟨m, List.mem_of_mem_filter hk, rfl, hmb⟩
    obtain ⟨k, hk, hkv, hkn⟩ := hk
    rw [← hjv, ← hkv]
    exact h.usage d k hk j (List.mem_of_mem_filter hj) (by rw [hkn, hja])

/-- the forward link of `e` led to the credential that is removed -/
theorem Linked.cutNext (h : p.Linked) {e : Entry}
    (he : e ∈ (p.removeCredByCredid d dr.credid).creds d)
    (h1 : ∀ m ∈ p.creds d, m.val.credid = dr.credid →
      m.next = none ∧ ∀ a, m.prev = some a → e.addr = a)
    (h2 : ∀ a, e.next = some a → ∃ m ∈ p.creds d, m.val.credid = dr.credid ∧ m.addr = a) :
    ((p.removeCredByCredid d dr.credid).put d (update e.addr (Node.withNext none)
      ((p.removeCredByCredid d dr.credid).creds d))).Linked := by
  rw [(removeCredByCredid_creds (d := d) h.wf dr.credid).1, put_self] at he
  have hgone : ∀ m : Entry, decide (m.val.credid ≠ dr.credid) = false → m.val.credid = dr.credid :=
    fun m hm => not_not.mp (of_decide_eq_false hm)
  refine h.cut (fun _ => ⟨rfl, rfl⟩) (fun _ => Or.inl rfl) ?_
  apply (h.sound d).filterNext (List.mem_of_mem_filter he)
  · intro m hm _ hne a ha
    obtain ⟨x, hx, hxa, hxp⟩ := (h.sound d).next m hm a ha
    refine ⟨x, hx, hxa, Bool.not_eq_false _ ▸ ?_⟩
    intro hx'
    exact hne ((h1 x hx (hgone x hx')).2 _ hxp).symm
  · intro m hm _ a ha
    obtain ⟨x, hx, hxa, hxn⟩ := (h.sound d).prev m hm a ha
    refine ⟨x, hx, hxa, Bool.not_eq_false _ ▸ ?_⟩
    intro hx'
    rw [(h1 x hx (hgone x hx')).1] at hxn
    cases hxn
  · intro m hm hmf ha
    obtain ⟨x, hx, hxc, hxa⟩ := h2 _ ha
    rw [eq_of_addr (h.sound d).nodup hx hm hxa] at hxc
    exact of_decide_eq_true hmf hxc

/-- the backward link of `e` led to the credential that is removed -/
theorem Linked.cutPrev (h : p.Linked) {e : Entry}
    (he : e ∈ (p.removeCredByCredid d dr.credid).creds d)
    (h1 : ∀ m ∈ p.creds d, m.val.credid = dr.credid →
      m.prev = none ∧ ∀ a, m.next = some a → e.addr = a)
    (h2 : ∀ a, e.prev = some a → ∃ m ∈ p.creds d, m.val.credid = dr.credid ∧ m.addr = a) :
    ((p.removeCredByCredid d dr.credid).put d (update e.addr (Node.withPrev none)
      ((p.removeCredByCredid d dr.credid).creds d))).Linked := by
  rw [(removeCredByCredid_creds (d := d) h.wf dr.credid).1, put_self] at he
  have hgone : ∀ m : Entry, decide (m.val.credid ≠ dr.credid) = false → m.val.credid = dr.credid :=
    fun m hm => not_not.mp (of_decide_eq_false hm)
  refine h.cut (fun _ => ⟨rfl, rfl⟩) (fun _ => Or.inr rfl) ?_
  apply (h.sound d).filterPrev (List.mem_of_mem_filter he)
  · intro m hm _ a ha
    obtain ⟨x, hx, hxa, hxp⟩ := (h.sound d).next m hm a ha
    refine ⟨x, hx, hxa, Bool.not_eq_false _ ▸ ?_⟩
    intro hx'
    rw [(h1 x hx (hgone x hx')).1] at hxp
    cases hxp
  · intro m hm _ hne a ha
    obtain ⟨x, hx, hxa, hxn⟩ := (h.sound d).prev m hm a ha
    refine ⟨x, hx, hxa, Bool.not_eq_false _ ▸ ?_⟩
    intro hx'
    exact hne ((h1 x hx (hgone x hx')).2 _ hxn).symm
  · intro m hm hmf ha
    obtain ⟨x, hx, hxc, hxa⟩ := h2 _ ha
    rw [eq_of_addr (h.sound d).nodup hx hm hxa] at hxc
    exact of_decide_eq_true hmf hxc

/-- a link set over one that was taken away -/
theorem insert_update (r : Pki n) {a : Nat} {c : Cred} {chain child : Option Nat}
    {g k : Entry → Entry} (hk : ∀ m, (k m).addr = m.addr) (hgk : ∀ m, g (k m) = g m) :
    (r.insert d (update a g (r.creds d)) c chain child).creds =
      ((r.put d (update a k (r.creds d))).insert d
        (update a g ((r.put d (update a k (r.creds d))).creds d)) c chain child).creds := by
  have hu : update a g (update a k (r.creds d)) = update a g (r.creds d) := by
    rw [update_update hk]
    exact congrArg (fun f => update a f (r.creds d)) (funext hgk)
  rw [put_self, hu, insert, insert]
  show Function.update r.creds d _ = Function.update (Function.update r.creds d _) d _
  rw [Function.update_idem]
  rfl

/-- there are no links to a credential that is not there -/
theorem none_of_links {o : Option Nat} {t : Option Entry} (ht : t = none)
    (h : ∀ a, o = some a → ∃ e, t = some e ∧ e.addr = a) : o = none := by
  apply Option.eq_none_iff_forall_ne_some.mpr
  intro a ha
  obtain ⟨e, he, -⟩ := h a ha
  cases ht.symm.trans he

/-- what a clean addition leaves -/
theorem Linked.add (h : p.Linked) (hc : (CredOp.add d di dr draws).Clean pf p) :
    (p.add x pf d di dr draws).2.Linked := by
  have ha := add_added h.wf x pf d di dr draws
  have hw : (p.add x pf d di dr draws).2.Wf := h.wf.add
  have hfree : ∀ {subject kp}, dr.admit pf d di = some (subject, kp) →
      p.chainOf d dr subject = none → p.childOf d dr subject = none →
      (p.removeCredByCredid d dr.credid).Linked := by
    intro subject kp ha h1 h2
    apply h.removeFree
    intro e he hid
    obtain ⟨hn, hp⟩ := (hc _ ha).1 e he hid
    exact ⟨none_of_links h2 hn, none_of_links h1 hp⟩
  generalize (p.add x pf d di dr draws).2 = q at ha hw
  cases ha with
  | refused ha => exact h
  | dropped ha h1 h2 hk =>
    have hl := hfree ha h1 h2
    exact ⟨hw, hl.sound, hl.usage⟩
  | alone ha h1 h2 hr hp =>
    subst hr
    exact (hfree ha h1 h2).insert hw (settle_creds (x := x) dr _).1
  | @after subject kp ha e h1 h2 r hr he hu hn priv =>
    subst hr
    obtain ⟨hc1, hc2, -⟩ := hc _ ha
    refine (h.cutNext he ?_ (hc2 e h1)).insertAfter (d := d) (e := e.withNext none)
      (c := (p.removeCredByCredid d dr.credid).newEntry pf d dr subject priv draws) ?_ rfl hu hw ?_
    · intro m hm hid
      obtain ⟨hmn, hmp⟩ := hc1 m hm hid
      refine ⟨none_of_links h2 hmn, ?_⟩
      intro a hma
      obtain ⟨t, ht, hta⟩ := hmp a hma
      cases h1.symm.trans ht
      exact hta
    · rw [put_self]
      exact mem_update.mpr ⟨e, he, Or.inl ⟨rfl, rfl⟩⟩
    · exact insert_update _ (fun _ => rfl) fun _ => rfl
  | @before subject kp ha e h1 h2 r hr he hu hn priv =>
    subst hr
    obtain ⟨hc1, -, hc3⟩ := hc _ ha
    refine (h.cutPrev he ?_ (hc3 e h2)).insertBefore (d := d) (e := e.withPrev none)
      (c := (p.removeCredByCredid d dr.credid).newEntry pf d dr subject priv draws) ?_ rfl hu hw ?_
    · intro m hm hid
      obtain ⟨hmn, hmp⟩ := hc1 m hm hid
      refine ⟨none_of_links h1 hmp, ?_⟩
      intro a hma
      obtain ⟨t, ht, hta⟩ := hmn a hma
      cases h2.symm.trans ht
      exact hta
    · rw [put_self]
      exact mem_update.mpr ⟨e, he, Or.inl ⟨rfl, rfl⟩⟩
    · exact insert_update _ (fun _ => rfl) fun _ => rfl

end

/-! ## runs -/

theorem Linked.setKey (h : p.Linked) (credid : Int) (key : Bytes) :
    (p.setKey d credid key).Linked := by
  have hk := keyed_fields credid key
  refine linked_put h (h.wf.setKey credid key) ?_ ?_ (setKey_creds d credid key p)
  · exact (h.sound d).mapVal (fun e => (hk e).1) (fun e => (hk e).2.1) fun e => (hk e).2.2.1
  · intro e he f hf hef
    obtain ⟨e', he', rfl⟩ := List.mem_map.mp he
    obtain ⟨f', hf', rfl⟩ := List.mem_map.mp hf
    rw [(hk e').2.1, (hk f').1] at hef
    rw [(hk e').2.2.2.2.1, (hk f').2.2.2.2.1]
    exact h.usage d e' he' f' hf' hef

theorem Linked.removeAt (h : p.Linked) {addr : Nat}
    (hf : ∀ e ∈ p.creds d, e.addr = addr → e.Free) : (p.removeAt d addr).Linked := by
  refine h.filter ?_ (removeAt_creds d addr p).1 (removeAt_creds d addr p).2
  apply (h.sound d).filterFree
  intro e he hfe
  exact hf e he (not_not.mp (of_decide_eq_false hfe))

/-- what one clean call leaves -/
theorem Linked.apply (h : p.Linked) (op : CredOp n) (hc : op.Clean pf p) :
    (op.apply x pf p).Linked := by
  cases op with
  | add d di dr draws => exact h.add hc
  | remove d addr => exact h.removeAt hc
  | clear d => exact h.clearCreds
  | free d => exact h.freeCreds
  | setKey d credid key => exact h.setKey credid key

/-- what a clean run leaves -/
theorem Linked.run (h : p.Linked) (ops : List (CredOp n)) (hc : CleanRun x pf p ops) :
    (p.run x pf ops).Linked := by
  induction ops generalizing p with
  | nil => exact h
  | cons op ops ih => exact ih (h.apply op hc.1) hc.2

end Pki

theorem CleanRun.take {n : Nat} {x : X509} {pf : Platform} {pre post : List (CredOp n)} {p : Pki n}
    (h : CleanRun x pf p (pre ++ post)) : CleanRun x pf p pre := by
  induction pre generalizing p with
  | nil => trivial
  | cons op pre ih => exact ⟨h.1, ih h.2⟩

/-- in a run whose calls remove no linked credential on its own and overwrite no link, the links of
every device are sound at all times -/
theorem links_sound_run {n : Nat} (x : X509) (pf : Platform) (ops : List (CredOp n))
    (hc : CleanRun x pf Pki.init ops) :
    ∀ pre, pre <+: ops → ∀ d, Sound ((Pki.init.run x pf pre).creds d) := by
  intro pre hpre d
  obtain ⟨post, rfl⟩ := hpre
  exact (Pki.init_linked.run pre hc.take).sound d

/-- a certificate of device 0 with its private key, and the one above it -/
def leafDraft : CredDraft :=
  { CredDraft.empty with credid := 1, credtype := credtypeCert, credusage := .mfgCert
                         subjectuuid := some (ascii "*"), privatedata := ⟨[7], .der⟩
                         publicdata := ⟨[48, 1], .der⟩ }

def intermediateDraft : CredDraft :=
  { leafDraft with credid := 2, privatedata := CredData.none, publicdata := ⟨[48, 2], .der⟩ }

def chainOps : List (CredOp 1) :=
  [.add 0 Uuid.nil leafDraft 0, .add 0 Uuid.nil intermediateDraft 0]

/-- the intermediate certificate may be added and replaced -/
def replaceOps : List (CredOp 1) := chainOps ++ [.add 0 Uuid.nil intermediateDraft 0]

theorem links_sound_chain : CleanRun plainX509 (plainPlatform 1) Pki.init replaceOps ∧
    Sound ((Pki.init.run plainX509 (plainPlatform 1) replaceOps).creds 0) := by
  have hc : CleanRun plainX509 (plainPlatform 1) Pki.init replaceOps := by decide +kernel
  exact ⟨hc, links_sound_run plainX509 (plainPlatform 1) replaceOps hc _ (List.prefix_refl _) 0⟩

/-- the leaf removed alone: the intermediate certificate still points to it -/
theorem leaf_removed_dangles :
    ¬ ∀ (x : X509) (pf : Platform) (ops : List (CredOp 1)) (d : Fin 1),
      Sound ((Pki.init.run x pf ops).creds d) := by
  intro h
  have hs := h plainX509 (plainPlatform 1) (chainOps ++ [.remove 0 0]) 0
  have hall : ∀ e ∈ (Pki.init.run plainX509 (plainPlatform 1) (chainOps ++ [.remove 0 0])).creds 0,
      e.addr = 1 ∧ e.prev = some 0 := by decide +kernel
  have hne : (Pki.init.run plainX509 (plainPlatform 1) (chainOps ++ [.remove 0 0])).creds 0 ≠ [] := by
    decide +kernel
  obtain ⟨e, he⟩ := List.exists_mem_of_ne_nil _ hne
  obtain ⟨m, hm, hma, -⟩ := hs.prev e he 0 (hall e he).2
  rw [(hall m hm).1] at hma
  cases hma

end Security
