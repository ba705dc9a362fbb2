import Iotivity.Security.Handle

/-!
# Withdrawing the onboarding privileges

Until a device is operational anyone may write its ACL and its credentials: the default ACL has an
anon-clear ACE with permission 14 for `/oic/sec/acl2` and `/oic/sec/cred`.  The first transition to
RFNOP after a RESET is to take these entries out.  Two things keep it from doing so: the flag
`set_post_otm_acl` is one for all devices, and the clean-up stops at the first ACE that it empties.

* `clean_postOtm_iff`         what the clean-up of one list leaves behind;
* `run_flag`                  the flag is set iff no device has become operational since the last RESET
                              of any device;
* `onboarding_withdrawn_iff`  in a run every first RFNOP finds a clean ACL iff each of them comes with
                              the flag set and a list whose clean-up is not cut short.
-/

namespace Security

/-! ## the clean-up of one list -/

/-- an entry for `/oic/sec/acl2` or `/oic/sec/cred` -/
def AceRes.Guarded (res : AceRes) : Prop :=
  res.href = ascii "/oic/sec/acl2" ∨ res.href = ascii "/oic/sec/cred"

/-- an anon-clear ACE with permission 14 -/
def Ace.Onboarding (ace : Ace) : Prop := ace.subject = .conn .anonClear ∧ ace.permission = 14

/-- such an ACE with a guarded entry -/
def Ace.Exposed (ace : Ace) : Prop := ace.Onboarding ∧ ∃ res ∈ ace.resources, res.Guarded

/-- such an ACE that the clean-up empties -/
def Ace.Emptied (ace : Ace) : Prop := ace.Onboarding ∧ ∀ res ∈ ace.resources, res.Guarded

/-- nobody may write the ACL or the credentials through an onboarding ACE -/
def Clean (aces : List Ace) : Prop := ∀ ace ∈ aces, ¬ ace.Exposed

/-- no ACE that the clean-up empties, and so ends at, comes before an exposed one -/
def NotCutShort (aces : List Ace) : Prop := aces.Pairwise fun a b => a.Emptied → ¬ b.Exposed

theorem subjectTest_onboarding (ace : Ace) :
    subjectTest (.conn .anonClear) (-1) 14 ace = true ↔ ace.Onboarding := by
  unfold subjectTest Ace.Onboarding
  rw [decide_eq_true_iff]
  constructor
  · rintro ⟨-, h | h, hs⟩
    · cases h
    · exact ⟨hs, h⟩
  · rintro ⟨hs, h⟩
    exact ⟨Or.inl rfl, Or.inr h, hs⟩

/-- what `oc_ace_free_resources` leaves of an ACE -/
def unguarded (resources : List AceRes) : List AceRes :=
  (resources.filter fun res => !hasHref (ascii "/oic/sec/acl2") res).filter
    fun res => !hasHref (ascii "/oic/sec/cred") res

theorem mem_unguarded {resources : List AceRes} {res : AceRes} :
    res ∈ unguarded resources ↔ res ∈ resources ∧ ¬ res.Guarded := by
  simp only [unguarded, hasHref, List.mem_filter, AceRes.Guarded, Bool.not_eq_true',
    decide_eq_false_iff_not, not_or, and_assoc]

theorem unguarded_eq_nil {ace : Ace} (h : ace.Onboarding) :
    unguarded ace.resources = [] ↔ ace.Emptied := by
  rw [List.eq_nil_iff_forall_not_mem]
  constructor
  · intro hn
    refine ⟨h, fun res hr => ?_⟩
    by_contra hg
    exact hn res (mem_unguarded.mpr ⟨hr, hg⟩)
  · intro he res hr
    exact (mem_unguarded.mp hr).2 (he.2 res (mem_unguarded.mp hr).1)

/-- the clean-up on the ACE at the cursor -/
theorem setPostOtmAcl_cons (ace : Ace) (rest : List Ace) (h : ace.Onboarding) :
    ocSecSetPostOtmAcl (ace :: rest) =
      if unguarded ace.resources = [] then rest
      else { ace with resources := unguarded ace.resources } :: ocSecSetPostOtmAcl rest := by
  rw [ocSecSetPostOtmAcl, if_pos ((subjectTest_onboarding ace).mpr h)]
  dsimp only
  split
  · next h1 =>
    have hn : unguarded ace.resources = [] := by
      unfold unguarded
      rw [h1]
      rfl
    rw [if_pos hn]
  · rfl

theorem clean_postOtm_iff (aces : List Ace) :
    Clean (ocSecSetPostOtmAcl aces) ↔ NotCutShort aces := by
  induction aces with
  | nil => exact ⟨fun _ => List.Pairwise.nil, fun _ ace h => by cases h⟩
  | cons ace rest ih =>
    rw [NotCutShort, List.pairwise_cons]
    by_cases ho : ace.Onboarding
    · rw [setPostOtmAcl_cons ace rest ho]
      split
      · next he =>
        have hem := (unguarded_eq_nil ho).mp he
        constructor
        · intro hc
          refine ⟨fun b hb _ => hc b hb, ?_⟩
          exact List.pairwise_of_forall_mem_list fun a _ b hb _ => hc b hb
        · intro h b hb
          exact h.1 b hb hem
      · next he =>
        have hne : ¬ ace.Emptied := fun h => he ((unguarded_eq_nil ho).mpr h)
        have ha : ¬ Ace.Exposed { ace with resources := unguarded ace.resources } := by
          rintro ⟨-, res, hr, hg⟩
          exact (mem_unguarded.mp hr).2 hg
        constructor
        · intro hc
          refine ⟨fun b _ h => absurd h hne, ih.mp fun b hb => hc b (List.mem_cons_of_mem _ hb)⟩
        · intro h b hb
          rcases List.mem_cons.mp hb with rfl | hb
          · exact ha
          · exact ih.mpr h.2 b hb
    · have hs : subjectTest (.conn .anonClear) (-1) 14 ace = false :=
        Bool.eq_false_iff.mpr fun h => ho ((subjectTest_onboarding ace).mp h)
      rw [ocSecSetPostOtmAcl, if_neg (by rw [hs]; exact Bool.false_ne_true)]
      constructor
      · intro hc
        exact ⟨fun b _ h => absurd h.1 ho, ih.mp fun b hb => hc b (List.mem_cons_of_mem _ hb)⟩
      · intro h b hb
        rcases List.mem_cons.mp hb with rfl | hb
        · exact fun he => ho he.1
        · exact ih.mpr h.2 b hb

/-! ## what a request changes -/

/-- the device a request goes to -/
def Request.device : Request → Nat
  | .postPstat d _ | .postDoxm d _ | .postAcl d _ | .deleteAcl d _ | .postCred d _ | .deleteCred d _
  | .postRoles d _ _ | .deleteRoles d _ _ | .postSp d _ => d

/-- one device has changed, but not its status, and the flag has not -/
structure Framed (d : Nat) (s s' : State) : Prop where
  flag : s'.setPostOtmAcl = s.setPostOtmAcl
  pstat : (s'.device d).pstat = (s.device d).pstat
  others : ∀ k, k ≠ d → s'.device k = s.device k

theorem Framed.refl (d : Nat) (s : State) : Framed d s s := ⟨rfl, rfl, fun _ _ => rfl⟩

theorem Framed.put {d : Nat} {s t : State} (h : Framed d s t) {x : Device}
    (hx : x.pstat = (t.device d).pstat) : Framed d s (t.put d x) where
  flag := h.flag
  pstat := by rw [State.put_device, hx, h.pstat]
  others k hk := by rw [State.put_device_ne t x hk, h.others k hk]

/-- the roles of the clients and the number of draws do not matter -/
theorem Framed.congr {d : Nat} {s t u : State} (h : Framed d s t) (hd : u.device = t.device)
    (hf : u.setPostOtmAcl = t.setPostOtmAcl) : Framed d s u where
  flag := hf.trans h.flag
  pstat := by rw [hd, h.pstat]
  others k hk := by rw [hd, h.others k hk]

section
variable (pf : Platform) (s : State) (d : Nat)

theorem decodeDoxm_framed (fromStorage : Bool) (rep : List Rep) :
    Framed d s (ocSecDecodeDoxm pf s rep fromStorage d).2 := by
  unfold ocSecDecodeDoxm
  dsimp only
  split
  · obtain ⟨doxm, di, h⟩ := foldl_doxm_frame pf fromStorage rep (s.device d, s.draws)
    rw [h]
    exact Framed.congr (t := s.put d _) ((Framed.refl d s).put (by rfl)) rfl rfl
  · exact Framed.refl d s

theorem decodeAcl_framed (fromStorage : Bool) (rep : List Rep) :
    Framed d s (ocSecDecodeAcl pf s rep fromStorage d).2 := by
  unfold ocSecDecodeAcl
  dsimp only
  split
  · exact Framed.congr (t := s.put d _) ((Framed.refl d s).put (by rfl)) rfl rfl
  · exact Framed.refl d s

theorem deleteAcl_framed (aceid : Option Int) : Framed d s (deleteAcl s d aceid) := by
  unfold deleteAcl
  dsimp only
  split
  · exact Framed.refl d s
  · cases aceid with
    | none => exact (Framed.refl d s).put rfl
    | some id =>
      dsimp only
      split
      · exact Framed.refl d s
      · exact (Framed.refl d s).put rfl

theorem decodeCred_framed (fromStorage : Bool) (client : Option Peer) (rep : List Rep) :
    Framed d s (ocSecDecodeCred pf s rep fromStorage client d).2.2 := by
  unfold ocSecDecodeCred
  dsimp only
  split
  · exact Framed.congr (t := s.put d _) ((Framed.refl d s).put (by rfl)) rfl rfl
  · exact Framed.refl d s

theorem postCred_framed (client : Option Peer) (rep : List Rep) :
    Framed d s (postCred pf s d client rep) := by
  have h := decodeCred_framed pf s d false client rep
  unfold postCred
  dsimp only
  split
  · exact h
  · split
    · exact h.put rfl
    · split
      · split
        · exact h.put rfl
        · exact h.put rfl
      · exact h

theorem deleteCred_framed (credid : Option Int) : Framed d s (deleteCred s d credid) := by
  unfold deleteCred
  split
  · exact Framed.refl d s
  · cases credid with
    | none => exact (Framed.refl d s).put rfl
    | some id =>
      dsimp only
      split
      · exact Framed.refl d s
      · exact (Framed.refl d s).put rfl

theorem deleteRoles_framed (client : Nat) (credid : Option Int) :
    Framed d s (deleteRoles s client credid) := by
  unfold deleteRoles
  cases credid with
  | none => exact (Framed.refl d s).congr rfl rfl
  | some id =>
    dsimp only
    split
    · exact Framed.refl d s
    · exact (Framed.refl d s).congr rfl rfl

theorem decodeSp_framed (rep : List Rep) : Framed d s (ocSecDecodeSp s rep d).2 := by
  unfold ocSecDecodeSp
  dsimp only
  split
  · exact Framed.refl d s
  · exact (Framed.refl d s).put rfl

end

/-- only a POST to `/oic/sec/pstat` changes the status of its device, or the flag -/
theorem step_framed {pf : Platform} {s : State} {r : Request} (h : ∀ d rep, r ≠ .postPstat d rep) :
    Framed r.device s (step pf s r) := by
  cases r with
  | postPstat d rep => exact absurd rfl (h d rep)
  | postDoxm d rep => exact decodeDoxm_framed pf s d false rep
  | postAcl d rep => exact decodeAcl_framed pf s d false rep
  | deleteAcl d id => exact deleteAcl_framed s d id
  | postCred d rep => exact postCred_framed pf s d none rep
  | deleteCred d id => exact deleteCred_framed s d id
  | postRoles d client rep => exact postCred_framed pf s d (some client) rep
  | deleteRoles d client id => exact deleteRoles_framed s d client id
  | postSp d rep => exact decodeSp_framed s d rep

/-! ## transitions along a run -/

/-- the state that an accepted payload has moved its device to, if it asks for one -/
def pstatTransition (pf : Platform) (s : State) (d : Nat) (rep : List Rep) : Option Dos :=
  match rep.foldlM (decodePstatProp false) ⟨(s.device d).pstat, false⟩ with
  | some x => if x.transition ∧ (ocSecDecodePstat pf s rep false d).1 then some x.ps.s else none
  | none => none

/-- the transition that a request makes: its device and the state it asks for -/
def transition (pf : Platform) (s : State) : Request → Option (Nat × Dos)
  | .postPstat d rep => (pstatTransition pf s d rep).map (d, ·)
  | _ => none

/-- the transitions of a run, in order -/
def transitions (pf : Platform) (s : State) : List Request → List (Nat × Dos)
  | [] => []
  | r :: rs => (transition pf s r).toList ++ transitions pf (step pf s r) rs

/-- the device has not become operational since its most recent RESET -/
def pending (d : Nat) (tr : List (Nat × Dos)) : Bool :=
  tr.foldl (fun b t => if t = (d, .reset) then true else if t = (d, .rfnop) then false else b) true

/-- no device has become operational since the most recent RESET of any device -/
def noneSince (tr : List (Nat × Dos)) : Bool :=
  tr.foldl (fun b t => if t.2 = .reset then true else if t.2 = .rfnop then false else b) true

/-- the flag after one more transition -/
def flagStep (b : Bool) (t : Option (Nat × Dos)) : Bool :=
  t.elim b fun t => if t.2 = .reset then true else if t.2 = .rfnop then false else b

theorem noneSince_append (tr : List (Nat × Dos)) (t : Option (Nat × Dos)) :
    noneSince (tr ++ t.toList) = flagStep (noneSince tr) t := by
  cases t with
  | none => simp [flagStep]
  | some t => simp [noneSince, flagStep, List.foldl_append]

theorem transitions_append (pf : Platform) (s : State) (rs : List Request) (r : Request) :
    transitions pf s (rs ++ [r]) = transitions pf s rs ++ (transition pf (run pf s rs) r).toList := by
  induction rs generalizing s with
  | nil => simp [transitions, run]
  | cons q rs ih =>
    rw [List.cons_append, transitions, ih, transitions, List.append_assoc]
    rfl

theorem run_append (pf : Platform) (s : State) (rs : List Request) (r : Request) :
    run pf s (rs ++ [r]) = step pf (run pf s rs) r := by
  unfold run
  rw [List.foldl_append, List.foldl_cons, List.foldl_nil]

variable {pf : Platform} {s : State}

/-- requests other than those to `/oic/sec/pstat` leave the flag alone -/
theorem step_flag_other {r : Request} (h : ∀ d rep, r ≠ .postPstat d rep) :
    (step pf s r).setPostOtmAcl = s.setPostOtmAcl := (step_framed h).flag

/-- a transition is a call of the handler that has succeeded, with the clean-up behind it -/
theorem pstatTransition_some {d : Nat} {rep : List Rep} {st : Dos}
    (h : pstatTransition pf s d rep = some st) :
    ∃ ps ps' s', ps.s = st ∧ Handled pf s d ps (true, ps', s') ∧
      (ocSecDecodePstat pf s rep false d).2 =
        if ps'.s = .rfnop ∧ s'.setPostOtmAcl = true then postOtm s' d else s' := by
  unfold pstatTransition at h
  have hd := decoded pf s d rep
  generalize ocSecDecodePstat pf s rep false d = r at h hd
  cases hd with
  | refused =>
    split at h
    · rw [if_neg fun hc => Bool.false_ne_true hc.2] at h
      cases h
    · cases h
  | stored x hx ht =>
    rw [hx] at h
    dsimp only at h
    rw [if_neg fun hc => Bool.eq_false_iff.mp ht hc.1] at h
    cases h
  | moved x ps' s' hx hv ht hh =>
    rw [hx] at h
    dsimp only at h
    rw [if_pos ⟨ht, rfl⟩] at h
    exact ⟨x.ps, ps', s', Option.some.inj h, hh, rfl⟩

/-- without a transition only the status of the device may change -/
theorem pstatTransition_none {d : Nat} {rep : List Rep} (h : pstatTransition pf s d rep = none) :
    (ocSecDecodePstat pf s rep false d).2 = s ∨
      ∃ ps, (ocSecDecodePstat pf s rep false d).2 = s.put d ((s.device d).withPstat ps) := by
  unfold pstatTransition at h
  have hd := decoded pf s d rep
  generalize ocSecDecodePstat pf s rep false d = r at h hd
  cases hd with
  | refused => exact Or.inl rfl
  | stored x hx ht => exact Or.inr ⟨x.ps, rfl⟩
  | moved x ps' s' hx hv ht hh =>
    rw [hx] at h
    dsimp only at h
    rw [if_pos ⟨ht, rfl⟩] at h
    cases h

/-- a transition leaves its target in the record, RFOTM after a RESET -/
theorem Handled.target {d : Nat} {ps ps' : Pstat} {s' : State} (h : Handled pf s d ps (true, ps', s')) :
    ps'.s = (if ps.s = .reset then .rfotm else ps.s) ∧
      s'.setPostOtmAcl = (decide (ps.s = .reset) || s.setPostOtmAcl) := by
  cases h with
  | reset h => rw [h]; exact ⟨rfl, rfl⟩
  | rfotm h hu hi =>
    have hz : ps.s ≠ .reset := by rw [h]; exact Dos.noConfusion
    rw [if_neg hz, decide_eq_false hz]
    exact ⟨rfl, rfl⟩
  | owned cm ho hp =>
    have hz : ps.s ≠ .reset := by
      rcases ho with h | h | h <;> rw [h] <;> exact Dos.noConfusion
    rw [if_neg hz, decide_eq_false hz]
    exact ⟨rfl, rfl⟩

/-- the flag follows the transitions -/
theorem step_flag (r : Request) :
    (step pf s r).setPostOtmAcl = flagStep s.setPostOtmAcl (transition pf s r) := by
  cases r with
  | postPstat d rep =>
    show (ocSecDecodePstat pf s rep false d).2.setPostOtmAcl =
      flagStep s.setPostOtmAcl ((pstatTransition pf s d rep).map (d, ·))
    cases ht : pstatTransition pf s d rep with
    | none =>
      rcases pstatTransition_none ht with h | ⟨ps, h⟩ <;> rw [h] <;> rfl
    | some st =>
      obtain ⟨ps, ps', s', rfl, hh, he⟩ := pstatTransition_some ht
      obtain ⟨h1, h2⟩ := hh.target
      rw [he]
      show _ = if ps.s = .reset then true else if ps.s = .rfnop then false else s.setPostOtmAcl
      by_cases hz : ps.s = .reset
      · rw [if_pos hz] at h1 ⊢
        rw [decide_eq_true hz, Bool.true_or] at h2
        rw [h1, if_neg fun hc => Dos.noConfusion hc.1]
        exact h2
      · rw [if_neg hz] at h1 ⊢
        rw [decide_eq_false hz, Bool.false_or] at h2
        rw [h1, h2]
        by_cases hn : ps.s = .rfnop
        · rw [if_pos hn]
          by_cases hf : s.setPostOtmAcl = true
          · rw [if_pos ⟨hn, hf⟩]
            rfl
          · rw [if_neg fun hc => hf hc.2, h2]
            exact Bool.eq_false_iff.mpr hf
        · rw [if_neg hn, if_neg fun hc => hn hc.1, h2]
  | _ => exact step_flag_other fun d rep h => by cases h

theorem run_flag (hs : s.setPostOtmAcl = true) (rs : List Request) :
    (run pf s rs).setPostOtmAcl = noneSince (transitions pf s rs) := by
  induction rs using List.reverseRecOn with
  | nil => exact hs
  | append_singleton rs r ih =>
    rw [run_append, step_flag, transitions_append, noneSince_append, ih]

theorem initState_flag (pf : Platform) : (initState pf).setPostOtmAcl = true := by
  unfold initState
  induction pf.numDevices with
  | zero => rfl
  | succ n ih =>
    rw [List.range_succ, List.foldl_append, List.foldl_cons, List.foldl_nil]
    unfold ocSecPstatDefault
    rw [handle_reset rfl]
    rfl

/-! ## the first RFNOP after a RESET -/

/-- after the requests `pre` the request `r` makes device `d` operational for the first time since its
most recent RESET -/
def FirstRfnop (pf : Platform) (pre : List Request) (r : Request) (d : Nat) : Prop :=
  pending d (transitions pf (initState pf) pre) = true ∧
    transition pf (run pf (initState pf) pre) r = some (d, .rfnop)

/-- the ACEs of device `d` after some requests -/
def acesAfter (pf : Platform) (reqs : List Request) (d : Nat) : List Ace :=
  ((run pf (initState pf) reqs).device d).acl.subjects

/-- the clean-up takes place and is not cut short, or there is nothing to clean up -/
def Ready (pf : Platform) (pre : List Request) (d : Nat) : Prop :=
  if noneSince (transitions pf (initState pf) pre) then NotCutShort (acesAfter pf pre d)
  else Clean (acesAfter pf pre d)

/-- the transition to RFNOP: its device keeps its ACL but for the clean-up -/
theorem aces_of_rfnop {d : Nat} {r : Request} (h : transition pf s r = some (d, .rfnop)) :
    ((step pf s r).device d).acl.subjects =
      if s.setPostOtmAcl = true then ocSecSetPostOtmAcl (s.device d).acl.subjects
      else (s.device d).acl.subjects := by
  cases r with
  | postPstat k rep =>
    obtain ⟨st, hst, he⟩ := Option.map_eq_some_iff.mp h
    cases he
    obtain ⟨ps, ps', s', hps, hh, hs⟩ := pstatTransition_some hst
    obtain ⟨h1, h2⟩ := hh.target
    have hz : ps.s ≠ .reset := by rw [hps]; exact Dos.noConfusion
    rw [if_neg hz, hps] at h1
    rw [decide_eq_false hz, Bool.false_or] at h2
    have ha : (s'.device d).acl = (s.device d).acl := by
      cases hh with
      | reset h => exact absurd h hz
      | rfotm h hu hi => rw [State.put_device]; rfl
      | owned cm ho hp => rw [State.put_device]; rfl
    show ((ocSecDecodePstat pf s rep false d).2.device d).acl.subjects = _
    rw [hs, h1, h2]
    by_cases hf : s.setPostOtmAcl = true
    · rw [if_pos ⟨rfl, hf⟩, if_pos hf, ← ha]
      show ((s'.put d _).device d).acl.subjects = _
      rw [State.put_device]
    · rw [if_neg fun hc => hf hc.2, if_neg hf, ha]
  | _ => cases h

theorem firstRfnop_iff {pre : List Request} {r : Request} {d : Nat} (h : FirstRfnop pf pre r d) :
    Clean (acesAfter pf (pre ++ [r]) d) ↔ Ready pf pre d := by
  unfold acesAfter Ready
  rw [run_append, aces_of_rfnop h.2, run_flag (initState_flag pf)]
  split
  · exact clean_postOtm_iff _
  · rfl

theorem onboarding_withdrawn_iff (pf : Platform) (reqs : List Request) :
    (∀ pre r post d, reqs = pre ++ r :: post → FirstRfnop pf pre r d →
      Clean (acesAfter pf (pre ++ [r]) d)) ↔
    ∀ pre r post d, reqs = pre ++ r :: post → FirstRfnop pf pre r d → Ready pf pre d := by
  constructor
  · intro h pre r post d he hf
    exact (firstRfnop_iff hf).mp (h pre r post d he hf)
  · intro h pre r post d he hf
    exact (firstRfnop_iff hf).mpr (h pre r post d he hf)

/-! ## two devices whose onboarding overlaps -/

def ownerText : Rep := .mk (ascii "rowneruuid") (.string (ascii "a0000000-0000-0000-0000-000000000000"))

/-- what an onboarding tool sends to an unowned device before it makes it operational -/
def provision (d : Nat) : List Request :=
  [.postDoxm d [.mk (ascii "devowneruuid") ownerText.value, ownerText, .mk (ascii "owned") (.bool true)],
    .postAcl d [ownerText],
    .postCred d [ownerText, .mk (ascii "creds") (.objectArray
      [[.mk (ascii "credid") (.int 1), .mk (ascii "credtype") (.int 1),
        .mk (ascii "subjectuuid") ownerText.value]])]]

/-- the transition from RFOTM to RFNOP -/
def operate (d : Nat) : Request :=
  .postPstat d [ownerText, .mk (ascii "dos") (.object [.mk (ascii "s") (.int 3)])]

/-- device 0 is onboarded, then device 1, with no RESET in between -/
def overlapping : List Request := provision 0 ++ operate 0 :: provision 1

/-- the ACE of the default list that gives write access to everyone -/
def exposedAce : Ace :=
  ⟨[5, 6, 7, 8, 9, 10, 11].map fun i => ⟨svrUri i, 2, [], 0⟩, .conn .anonClear, 2, 14⟩

theorem second_device_exposed :
    ¬ ∀ pre r post d, overlapping ++ [operate 1] = pre ++ r :: post →
      FirstRfnop (plainPlatform 2) pre r d → Clean (acesAfter (plainPlatform 2) (pre ++ [r]) d) := by
  intro h
  have hf : FirstRfnop (plainPlatform 2) overlapping (operate 1) 1 :=
    ⟨by decide +kernel, by decide +kernel⟩
  have hc := h overlapping (operate 1) [] 1 rfl hf
  have hm : (acesAfter (plainPlatform 2) (overlapping ++ [operate 1]) 1)[0]? = some exposedAce := by
    decide +kernel
  exact hc _ (List.mem_of_getElem? hm) ⟨⟨rfl, rfl⟩, _, List.mem_of_getElem? (i := 2) rfl, Or.inl rfl⟩

end Security
