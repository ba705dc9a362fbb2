import Iotivity.Security.Serving
import Iotivity.Security.Onboarding

/-!
# Access to the security resources before and after the ownership transfer

* `defaultAces_open`   in the default ACL doxm, pstat, acl2 and cred are open to everyone;
* `postOtmAcl_open`    behind the clean-up doxm and pstat still are;
* `open_granted`       then the ACL lets everyone read and update them.
-/

namespace Security

/-! ## entries of the default ACL -/

/-- the wildcard of a request does not matter for an entry without one -/
theorem aceResTest_wildcard {res : AceRes} (h : res.wildcard = 0) (href : Option Bytes)
    (rt : Option (List Bytes)) (ifaceMask w w' : UInt32) :
    aceResTest href rt ifaceMask w res = aceResTest href rt ifaceMask w' res := by
  have hw : ∀ (x : UInt32) (v : Verdict), wcTest x res v = v := by
    intro x v
    unfold wcTest
    rw [if_neg fun hc => hc.2.2 h]
  unfold aceResTest
  rw [hw, hw]

/-- no entry has a wildcard -/
def Plain (aces : List Ace) : Prop := ∀ a ∈ aces, ∀ res ∈ a.resources, res.wildcard = 0

section
variable {pf : Platform} {subject : Subject} {aceid : Int} {permission : UInt16} {href : Option Bytes}
variable {rt : Option (List Bytes)} {ifaceMask : UInt32} {x : List Ace × Nat}

theorem mem_modify {aces : List Ace} {i : Nat} {f : Ace → Ace} {b : Ace} (h : b ∈ aces.modify i f) :
    b ∈ aces ∨ ∃ a, aces[i]? = some a ∧ b = f a := by
  obtain ⟨k, hk⟩ := List.mem_iff_getElem?.mp h
  rw [List.getElem?_modify] at hk
  obtain ⟨a, ha, rfl⟩ := Option.map_eq_some_iff.mp hk
  split
  · next he =>
    subst he
    exact Or.inr ⟨a, ha, rfl⟩
  · exact Or.inl (List.mem_of_getElem? ha)

theorem addRes_resources (ace : Ace) (href : Option Bytes) (wildcard : UInt32)
    (rt : Option (List Bytes)) (ifaceMask : UInt32) :
    (ace.addRes href wildcard rt ifaceMask).subject = ace.subject ∧
      (ace.addRes href wildcard rt ifaceMask).permission = ace.permission ∧
      ∀ res, res ∈ (ace.addRes href wildcard rt ifaceMask).resources →
        res ∈ ace.resources ∨ res = newAceRes href wildcard rt ifaceMask := by
  unfold Ace.addRes
  split
  · refine ⟨rfl, rfl, fun res h => ?_⟩
    rcases List.mem_append.mp h with h | h
    · exact Or.inl h
    · exact Or.inr (List.mem_singleton.mp h)
  · exact ⟨rfl, rfl, fun res h => Or.inl h⟩

theorem addRes_keeps (ace : Ace) (href : Option Bytes) (wildcard : UInt32)
    (rt : Option (List Bytes)) (ifaceMask : UInt32) {res : AceRes} (h : res ∈ ace.resources) :
    res ∈ (ace.addRes href wildcard rt ifaceMask).resources := by
  unfold Ace.addRes
  split
  · exact List.mem_append_left _ h
  · exact h

theorem updateRes_plain (h : Plain x.1) :
    Plain (ocSecAceUpdateRes pf subject aceid permission href noWc rt ifaceMask x).1 := by
  have hnew : (newAceRes href noWc rt ifaceMask).wildcard = 0 := rfl
  unfold ocSecAceUpdateRes
  split
  · intro b hb res hres
    rcases mem_modify hb with hb | ⟨a, ha, rfl⟩
    · exact h b hb res hres
    · rcases (addRes_resources a href noWc rt ifaceMask).2.2 res hres with hr | rfl
      · exact h a (List.mem_of_getElem? ha) res hr
      · exact hnew
  · have hs : ∀ id, Plain (x.1 ++ [⟨[newAceRes href noWc rt ifaceMask], subject, id, permission⟩]) := by
      intro id b hb res hres
      rcases List.mem_append.mp hb with hb | hb
      · exact h b hb res hres
      · cases List.mem_singleton.mp hb
        cases List.mem_singleton.mp hres
        exact hnew
    dsimp only
    split
    · exact hs _
    · exact hs _

theorem updateRes_covered :
    Covered x.1 (ocSecAceUpdateRes pf subject aceid permission href noWc rt ifaceMask x).1 := by
  unfold ocSecAceUpdateRes
  split
  · next i hi =>
    intro a ha
    obtain ⟨k, hk⟩ := List.mem_iff_getElem?.mp ha
    have hm := List.getElem?_modify (fun ace : Ace => ace.addRes href noWc rt ifaceMask) i x.1 k
    rw [hk, Option.map_eq_map, Option.map_some] at hm
    refine ⟨_, List.mem_of_getElem? hm, ?_⟩
    split
    · obtain ⟨h1, h2, -⟩ := addRes_resources a href noWc rt ifaceMask
      exact ⟨h1, h2, fun res hr => addRes_keeps a href noWc rt ifaceMask hr⟩
    · exact ⟨rfl, rfl, fun res hr => hr⟩
  · dsimp only
    split
    · exact fun a ha => ⟨a, List.mem_append_left _ ha, rfl, rfl, fun res hr => hr⟩
    · exact fun a ha => ⟨a, List.mem_append_left _ ha, rfl, rfl, fun res hr => hr⟩

variable (pf subject aceid) in
/-- the entry is there behind the update, or one that does as well -/
theorem updateRes_entry (hp : permission ≠ 0)
    (hnew : aceResTest href rt ifaceMask noWc (newAceRes href noWc rt ifaceMask) = true) :
    ∃ a ∈ (ocSecAceUpdateRes pf subject aceid permission href noWc rt ifaceMask x).1,
      a.subject = subject ∧ a.permission = permission ∧
        ∃ res ∈ a.resources, aceResTest href rt ifaceMask noWc res = true := by
  unfold ocSecAceUpdateRes
  split
  · next i hi =>
    obtain ⟨hlt, htest, -⟩ := List.findIdx?_eq_some_iff_getElem.mp hi
    unfold subjectTest at htest
    obtain ⟨-, hperm, hsub⟩ := of_decide_eq_true htest
    have hm := List.getElem?_modify (fun ace : Ace => ace.addRes href noWc rt ifaceMask) i x.1 i
    rw [List.getElem?_eq_getElem hlt, Option.map_eq_map, Option.map_some, if_pos rfl] at hm
    obtain ⟨h1, h2, -⟩ := addRes_resources x.1[i] href noWc rt ifaceMask
    refine ⟨_, List.mem_of_getElem? hm, h1.trans hsub, h2.trans (hperm.resolve_left hp), ?_⟩
    unfold Ace.addRes
    split
    · exact ⟨_, List.mem_append_right _ (List.mem_singleton.mpr rfl), hnew⟩
    · next hf =>
      have ha : x.1[i].resources.any (aceResTest href rt ifaceMask noWc) = true := by
        by_contra hc
        exact hf ((find_eq_nil _ _).mpr (Bool.eq_false_iff.mpr hc))
      obtain ⟨res, hr, ht⟩ := List.any_eq_true.mp ha
      exact ⟨res, hr, ht⟩
  · dsimp only
    split
    · exact ⟨_, List.mem_append_right _ (List.mem_singleton.mpr rfl), rfl, rfl, _,
        List.mem_singleton.mpr rfl, hnew⟩
    · exact ⟨_, List.mem_append_right _ (List.mem_singleton.mpr rfl), rfl, rfl, _,
        List.mem_singleton.mpr rfl, hnew⟩

end

/-! ## the default ACL -/

section
variable {pf : Platform} {d : Nat}

/-- a new entry for a security resource lets anyone have it -/
theorem newAceRes_test (r : Svr) :
    aceResTest (some r.uri) (some [r.type]) 2 noWc (newAceRes (some r.uri) noWc (some [r.type]) 2) =
      true := by
  cases r <;> decide +kernel

/-- anyone has access to a security resource, by an entry without a wildcard -/
def Open (d : Nat) (r : Svr) (aces : List Ace) : Prop :=
  ∃ a ∈ aces, a.Onboarding ∧ ∃ res ∈ a.resources, resourceTest (r.resource d) 2 res = true

theorem Open.covered {r : Svr} {aces aces' : List Ace} (h : Open d r aces) (hc : Covered aces aces') :
    Open d r aces' := by
  obtain ⟨a, ha, ⟨h1, h2⟩, res, hr, ht⟩ := h
  obtain ⟨b, hb, hs, hp, hres⟩ := hc a ha
  exact ⟨b, hb, ⟨hs.trans h1, hp.trans h2⟩, res, hres res hr, ht⟩

theorem defaultAce_plain {x : List Ace × Nat} (i : Nat) (h : Plain x.1) :
    Plain (defaultAce pf d x i).1 := by
  unfold defaultAce
  dsimp only
  split
  · exact h
  · split
    · split
      · exact updateRes_plain (updateRes_plain h)
      · exact updateRes_plain h
    · split
      · exact updateRes_plain h
      · exact h

theorem covered_refl (aces : List Ace) : Covered aces aces :=
  fun a ha => ⟨a, ha, rfl, rfl, fun _ hr => hr⟩

theorem Covered.trans {l m n : List Ace} (h : Covered l m) (h' : Covered m n) : Covered l n := by
  intro a ha
  obtain ⟨b, hb, h1, h2, h3⟩ := h a ha
  obtain ⟨c, hc, h4, h5, h6⟩ := h' b hb
  exact ⟨c, hc, h4.trans h1, h5.trans h2, fun res hr => h6 res (h3 res hr)⟩

theorem defaultAce_covered (x : List Ace × Nat) (i : Nat) : Covered x.1 (defaultAce pf d x i).1 := by
  unfold defaultAce
  dsimp only
  split
  · exact covered_refl _
  · split
    · split
      · exact updateRes_covered.trans updateRes_covered
      · exact updateRes_covered
    · split
      · exact updateRes_covered
      · exact covered_refl _

/-- the turn of a security resource -/
theorem defaultAce_open {x : List Ace × Nat} {r : Svr} (hp : pf.core d r.place = r.resource d)
    (h : Plain x.1) : Open d r (defaultAce pf d x r.place).1 := by
  have hx : ∀ y : List Ace × Nat, Plain y.1 → Open d r (ocSecAceUpdateRes pf (.conn .anonClear) 2 14
      (some r.uri) noWc (some [r.type]) 2 y).1 := by
    intro y hy
    obtain ⟨a, ha, h1, h2, res, hr, ht⟩ := updateRes_entry pf (.conn .anonClear) 2 (x := y)
      (show (14 : UInt16) ≠ 0 by decide) (newAceRes_test r)
    refine ⟨a, ha, ⟨h1, h2⟩, res, hr, ?_⟩
    rw [aceResTest_wildcard (updateRes_plain hy a ha res hr) _ _ _ _ (resourceWc (r.resource d))] at ht
    exact ht
  unfold defaultAce
  dsimp only
  rw [hp]
  have hu : r.uri ≠ [] := by
    cases r <;> decide +kernel
  have hin : ¬ (r.place < ocfSecDoxm ∨ r.place > ocfSecCred) ∧
      (r.place ≥ ocfSecDoxm ∧ r.place < ocfD) := by
    cases r <;> decide
  rw [if_neg (show ¬ (r.resource d).uri = [] from hu), if_neg hin.1, if_pos hin.2]
  exact hx x h

theorem foldl_defaultAce_open {r : Svr} (hp : pf.core d r.place = r.resource d) {l : List Nat}
    {x : List Ace × Nat} (h : Plain x.1) (ho : Open d r x.1 ∨ r.place ∈ l) :
    Open d r (l.foldl (defaultAce pf d) x).1 := by
  induction l generalizing x with
  | nil => exact ho.resolve_right List.not_mem_nil
  | cons i l ih =>
    refine ih (defaultAce_plain i h) ?_
    rcases ho with ho | ho
    · exact Or.inl (ho.covered (defaultAce_covered x i))
    rcases List.mem_cons.mp ho with rfl | ho
    · exact Or.inl (defaultAce_open hp h)
    · exact Or.inr ho

theorem defaultAces_open (hp : pf.Populated d) (r : Svr) : Open d r (defaultAces pf d) := by
  have hm : r.place ∈ List.range (1 + ocfD) := by
    cases r <;> decide
  exact foldl_defaultAce_open (x := ([], 0)) (hp r) (fun a ha => absurd ha List.not_mem_nil) (Or.inr hm)

/-! ## access -/

/-- an open resource is granted to everyone -/
theorem open_granted {s : State} {r : Svr} (hp : pf.core d r.place = r.resource d)
    (ho : Open d r (s.device d).acl.subjects) (tls : Tls) {endpoint : Coap.Endpoint}
    (he : endpoint.device = d) {method : Method} (hm : method = .get ∨ method = .post) :
    (ocSecCheckAcl tls s method (pf.core d r.place) (pf.core d r.place).defaultInterface endpoint).1 =
      true := by
  subst he
  rw [check_iff, hp]
  have hdcr : ocCoreIsDCR (r.resource endpoint.device) (r.resource endpoint.device).device = true := by
    show decide _ = true
    refine decide_eq_true (Or.inr ?_)
    show ocfD * endpoint.device + ocfRes ≤ ocCoreGetResourceByIndex r.place endpoint.device ∧
      ocCoreGetResourceByIndex r.place endpoint.device ≤ ocfD * endpoint.device + ocfD
    have hplace : 5 ≤ r.place ∧ r.place ≤ 8 := by
      cases r <;> decide
    unfold ocCoreGetResourceByIndex ocfP ocfRes ocfD
    rw [if_neg (by omega)]
    omega
  unfold early
  rw [if_neg fun hc => hc.1 hdcr]
  split
  · exact Or.inl rfl
  · refine Or.inr ⟨rfl, .conn .anonClear, ?_, ?_⟩
    · unfold requestSubjects
      exact List.mem_append_right _ (List.mem_append_right _ (List.mem_singleton.mpr rfl))
    · obtain ⟨a, ha, ⟨h1, h2⟩, res, hr, ht⟩ := ho
      refine ⟨a, ha, h1, ⟨res, hr, ht⟩, ?_⟩
      rw [h2]
      rcases hm with rfl | rfl
      · decide
      · decide

/-- the tests behind that of the href do not make up for it -/
theorem test_ok {rt : Option (List Bytes)} {ifaceMask w : UInt32} {res : AceRes} {v : Verdict}
    (h : (wcTest w res (ifTest ifaceMask res (rtTest rt res v))).ok = true) : v.ok = true := by
  cases hv : v.ok with
  | true => rfl
  | false =>
    have h1 : rtTest rt res v = v := by
      unfold rtTest
      cases rt with
      | none => rfl
      | some t => exact if_neg fun hc => absurd hc.1 (by rw [hv]; exact Bool.false_ne_true)
    have h2 : ifTest ifaceMask res v = v :=
      if_neg fun hc => absurd hc.1 (by rw [hv]; exact Bool.false_ne_true)
    have h3 : wcTest w res v = v :=
      if_neg fun hc => absurd hc.1 (by rw [hv]; exact Bool.false_ne_true)
    rw [h1, h2, h3, hv] at h
    exact h

/-- an entry for a resource has its href, or none -/
theorem href_of_test {r : Svr} {res : AceRes} (h : resourceTest (r.resource d) 2 res = true) :
    res.href = [] ∨ res.href = r.uri := by
  unfold resourceTest aceResTest at h
  have hok := test_ok (Bool.and_eq_true_iff.mp h).1
  unfold hrefTest at hok
  dsimp only at hok
  split at hok
  · next he => exact Or.inl he
  split at hok
  · cases hok
  · next hne =>
    have hskip : hrefSkip r.uri = 0 := by
      cases r <;> decide +kernel
    have hd := not_not.mp (not_or.mp hne).2
    rw [show (r.resource d).uri = r.uri from rfl, hskip] at hd
    exact Or.inr hd

/-- the clean-up leaves doxm and pstat open -/
theorem postOtmAcl_open {r : Svr} (hr : r.lists = false) {aces : List Ace} (h : Open d r aces) :
    Open d r (ocSecSetPostOtmAcl aces) := by
  have hguard : ∀ res : AceRes, resourceTest (r.resource d) 2 res = true → ¬ res.Guarded := by
    intro res ht hg
    have hne : r.uri ≠ ascii "/oic/sec/acl2" ∧ r.uri ≠ ascii "/oic/sec/cred" := by
      cases r <;> first | (exact absurd hr (by decide)) | decide +kernel
    rcases href_of_test ht with he | he
    · unfold AceRes.Guarded at hg
      rw [he] at hg
      exact absurd hg (by decide +kernel)
    · unfold AceRes.Guarded at hg
      rw [he] at hg
      exact hg.elim hne.1 hne.2
  obtain ⟨a, ha, hon, res, hres, ht⟩ := h
  induction aces with
  | nil => exact absurd ha List.not_mem_nil
  | cons b rest ih =>
    by_cases hb : b.Onboarding
    · rw [setPostOtmAcl_cons b rest hb]
      rcases List.mem_cons.mp ha with rfl | ha
      · have hu : res ∈ unguarded a.resources := mem_unguarded.mpr ⟨hres, hguard res ht⟩
        rw [if_neg (List.ne_nil_of_mem hu)]
        exact ⟨_, List.mem_cons_self, hon, res, hu, ht⟩
      · split
        · exact ⟨a, ha, hon, res, hres, ht⟩
        · obtain ⟨c, hc, hrest⟩ := ih ha
          exact ⟨c, List.mem_cons_of_mem _ hc, hrest⟩
    · have hs : subjectTest (.conn .anonClear) (-1) 14 b = false :=
        Bool.eq_false_iff.mpr fun h => hb ((subjectTest_onboarding b).mp h)
      rw [ocSecSetPostOtmAcl, if_neg (by rw [hs]; exact Bool.false_ne_true)]
      rcases List.mem_cons.mp ha with rfl | ha
      · exact absurd hon hb
      · obtain ⟨c, hc, hrest⟩ := ih ha
        exact ⟨c, List.mem_cons_of_mem _ hc, hrest⟩

end

end Security
