import Iotivity.Security.Pstat

/-!
# What a transition can do

`Handled` says once what `oc_pstat_handle_state` comes to: a refusal that changes nothing, a reset,
or a new status for a device whose ownership fits it.  `Decoded` does the same for a POST to
`/oic/sec/pstat`.

* `handled`                   every call of the handler is one of these;
* `decoded`                   every POST to `/oic/sec/pstat` is one of these;
* `rejected_leaves_state`     a payload that pstat, doxm or acl2 refuses has no effect at all.
-/

namespace Security

variable {pf : Platform} {s : State} {d : Nat}

/-! ## the handler -/

/-- the status after a reset -/
def rfotmPstat : Pstat := ⟨.rfotm, false, false, 2, 0, 3, 4, Uuid.nil⟩

/-- a device with another status -/
def Device.withPstat (dev : Device) (ps : Pstat) : Device := { dev with pstat := ps }

/-- nobody owns the device -/
def Device.Unowned (dev : Device) : Prop :=
  dev.doxm.owned = false ∧ dev.doxm.devowneruuid = Uuid.nil

instance (dev : Device) : Decidable dev.Unowned := inferInstanceAs (Decidable (_ ∧ _))

/-- the answer, the record and the state that `oc_pstat_handle_state` leaves -/
inductive Handled (pf : Platform) (s : State) (d : Nat) (ps : Pstat) :
    Bool × Pstat × State → Prop
  | refused (ps' : Pstat) : Handled pf s d ps (false, ps', s)
  | reset (h : ps.s = .reset) :
    Handled pf s d ps
      (true, rfotmPstat, (resetState pf s d).put d
        (((resetState pf s d).device d).withPstat rfotmPstat))
  | rfotm (h : ps.s = .rfotm) (hu : (s.device d).Unowned) (hi : ps.isop = false) :
    Handled pf s d ps
      (true, { ps with p := false, cm := 2, tm := 0 }, s.put d
        ((s.device d).withPstat { ps with p := false, cm := 2, tm := 0 }))
  | owned (cm : Int) (h : ps.s = .rfpro ∨ ps.s = .rfnop ∨ ps.s = .sreset)
      (hp : provisioned (s.device d) ps = true) :
    Handled pf s d ps
      (true, { ps with p := false, cm := cm, tm := 0, isop := ps.s = .rfnop }, s.put d
        ((s.device d).withPstat { ps with p := false, cm := cm, tm := 0, isop := ps.s = .rfnop }))

theorem handleRfotm_ok {s : State} {d : Nat} {ps : Pstat} (hu : (s.device d).Unowned)
    (hi : ps.isop = false) :
    handleRfotm s d ps = storePstat s d { ps with p := false, s := .rfotm, cm := 2, tm := 0 } := by
  unfold handleRfotm
  dsimp only
  rw [if_neg]
  rintro (h | h | h)
  · rw [hu.1] at h; cases h
  · exact h ((nilUuid_iff _).mpr hu.2)
  · rw [hi] at h; cases h

theorem resetState_unowned (pf : Platform) (s : State) (d : Nat) :
    ((resetState pf s d).device d).Unowned := by
  show ((s.put d (resetDevice pf d (s.device d) s.draws).1).device d).Unowned
  rw [State.put_device]
  exact ⟨rfl, rfl⟩

theorem handleRfotm_handled (ps : Pstat) (h : ps.s = .rfotm) :
    Handled pf s d ps (handleRfotm s d ps) := by
  obtain ⟨st, p, isop, cm, tm, om, sm, row⟩ := ps
  cases h
  by_cases hc : (s.device d).doxm.owned ∨ ¬ nilUuid (s.device d).doxm.devowneruuid ∨ isop
  · unfold handleRfotm
    dsimp only
    rw [if_pos hc]
    exact Handled.refused _
  · obtain ⟨h1, h2, h3⟩ := by simpa only [not_or, Decidable.not_not] using hc
    have hu : (s.device d).Unowned :=
      ⟨Bool.eq_false_iff.mpr h1, (nilUuid_iff _).mp h2⟩
    rw [handleRfotm_ok hu (Bool.eq_false_iff.mpr h3)]
    exact Handled.rfotm rfl hu (Bool.eq_false_iff.mpr h3)

theorem handleOwned_handled (ps : Pstat) (cm : Int) (isop : Bool)
    (h : ps.s = .rfpro ∨ ps.s = .rfnop ∨ ps.s = .sreset) (hi : isop = decide (ps.s = .rfnop)) :
    Handled pf s d ps (handleOwned s d ps cm isop) := by
  subst hi
  unfold handleOwned
  dsimp only
  split
  · next hp => exact Handled.owned cm h hp
  · exact Handled.refused _

/-- a RESET is never refused -/
theorem handle_reset {ps : Pstat} (hs : ps.s = .reset) :
    ocPstatHandleState pf s d ps =
      (true, rfotmPstat, (resetState pf s d).put d
        (((resetState pf s d).device d).withPstat rfotmPstat)) := by
  unfold ocPstatHandleState
  rw [hs]
  dsimp only
  rw [handleRfotm_ok (resetState_unowned pf s d) rfl]
  rfl

theorem handled (pf : Platform) (s : State) (d : Nat) (ps : Pstat) :
    Handled pf s d ps (ocPstatHandleState pf s d ps) := by
  by_cases hr : ps.s = .reset
  · rw [handle_reset hr]
    exact Handled.reset hr
  unfold ocPstatHandleState
  cases hs : ps.s with
  | reset => exact absurd hs hr
  | rfotm => exact handleRfotm_handled ps hs
  | rfpro => exact handleOwned_handled ps 0 false (Or.inl hs) (by rw [hs]; rfl)
  | rfnop => exact handleOwned_handled ps 0 true (Or.inr (Or.inl hs)) (by rw [hs]; rfl)
  | sreset => exact handleOwned_handled ps 1 false (Or.inr (Or.inr hs)) (by rw [hs]; rfl)
  | other n => exact Handled.refused ps

theorem resetState_device_ne {k : Nat} (h : k ≠ d) :
    (resetState pf s d).device k = s.device k :=
  State.put_device_ne s _ h

/-- a transition of one device leaves the others alone -/
theorem Handled.frame {ps : Pstat} {r : Bool × Pstat × State} (h : Handled pf s d ps r) {k : Nat}
    (hk : k ≠ d) : r.2.2.device k = s.device k := by
  cases h with
  | refused ps' => rfl
  | reset h => exact (State.put_device_ne _ _ hk).trans (resetState_device_ne hk)
  | rfotm h hu hi => exact State.put_device_ne _ _ hk
  | owned cm h hp => exact State.put_device_ne _ _ hk

/-! ## a POST to `/oic/sec/pstat` -/

/-- what such a request comes to -/
inductive Decoded (pf : Platform) (s : State) (d : Nat) (rep : List Rep) : Bool × State → Prop
  | refused : Decoded pf s d rep (false, s)
  /-- no `dos` in the payload: the copy is stored -/
  | stored (x : PstatDraft)
      (h : rep.foldlM (decodePstatProp false) ⟨(s.device d).pstat, false⟩ = some x)
      (ht : x.transition = false) :
    Decoded pf s d rep (true, s.put d ((s.device d).withPstat x.ps))
  /-- a transition that the handler has made -/
  | moved (x : PstatDraft) (ps' : Pstat) (s' : State)
      (h : rep.foldlM (decodePstatProp false) ⟨(s.device d).pstat, false⟩ = some x)
      (hv : validTransition (s.device d).pstat.s x.ps.s = true) (ht : x.transition = true)
      (hh : Handled pf s d x.ps (true, ps', s')) :
    Decoded pf s d rep
      (true, if ps'.s = .rfnop ∧ s'.setPostOtmAcl = true then postOtm s' d else s')

theorem decoded (pf : Platform) (s : State) (d : Nat) (rep : List Rep) :
    Decoded pf s d rep (ocSecDecodePstat pf s rep false d) := by
  unfold ocSecDecodePstat
  cases hx : rep.foldlM (decodePstatProp false) ⟨(s.device d).pstat, false⟩ with
  | none => exact Decoded.refused
  | some x =>
    dsimp only
    by_cases hv : validTransition (s.device d).pstat.s x.ps.s = true
    · rw [if_pos (Or.inr hv)]
      by_cases ht : x.transition = true
      · rw [if_pos ⟨Bool.false_ne_true, ht⟩]
        have hh := handled pf s d x.ps
        generalize ocPstatHandleState pf s d x.ps = r at hh
        obtain ⟨ok, ps', s'⟩ := r
        cases ok with
        | false =>
          cases hh
          rw [if_neg fun hc => Bool.false_ne_true hc.1]
          exact Decoded.refused
        | true =>
          have hd := Decoded.moved x ps' s' hx hv ht hh
          by_cases hc : ps'.s = .rfnop ∧ s'.setPostOtmAcl = true
          · rw [if_pos hc] at hd
            rw [if_pos ⟨rfl, hc⟩]
            exact hd
          · rw [if_neg hc] at hd
            rw [if_neg fun h => hc h.2]
            exact hd
      · rw [if_neg fun hc => ht hc.2]
        exact Decoded.stored x hx (Bool.eq_false_iff.mpr ht)
    · rw [if_neg fun hc => hc.elim Bool.false_ne_true hv]
      exact Decoded.refused

/-! ## refused payloads -/

theorem decodePstat_rejected {rep : List Rep} (h : (ocSecDecodePstat pf s rep false d).1 = false) :
    (ocSecDecodePstat pf s rep false d).2 = s := by
  have hd := decoded pf s d rep
  generalize ocSecDecodePstat pf s rep false d = r at h hd
  cases hd with
  | refused => rfl
  | stored => cases h
  | moved => cases h

theorem decodeDoxm_rejected {rep : List Rep} (h : (ocSecDecodeDoxm pf s rep false d).1 = false) :
    (ocSecDecodeDoxm pf s rep false d).2 = s := by
  unfold ocSecDecodeDoxm at h ⊢
  dsimp only at h ⊢
  split at h
  · cases h
  · next hc => rw [if_neg hc]

theorem decodeAcl_rejected {rep : List Rep} (h : (ocSecDecodeAcl pf s rep false d).1 = false) :
    (ocSecDecodeAcl pf s rep false d).2 = s := by
  unfold ocSecDecodeAcl at h ⊢
  dsimp only at h ⊢
  split at h
  · cases h
  · next hc => rw [if_neg hc]

theorem rejected_leaves_state (pf : Platform) (s : State) (rep : List Rep) (d : Nat) :
    ((ocSecDecodePstat pf s rep false d).1 = false → (ocSecDecodePstat pf s rep false d).2 = s) ∧
    ((ocSecDecodeDoxm pf s rep false d).1 = false → (ocSecDecodeDoxm pf s rep false d).2 = s) ∧
    ((ocSecDecodeAcl pf s rep false d).1 = false → (ocSecDecodeAcl pf s rep false d).2 = s) :=
  ⟨decodePstat_rejected, decodeDoxm_rejected, decodeAcl_rejected⟩

/-- device 0 in normal operation, with zeros for the rest -/
def rfnopState : State :=
  State.zero.put 0 (Device.zero.withPstat { Device.zero.pstat with s := .rfnop })

/-- a payload that none of the three accepts there -/
def unwelcome : List Rep :=
  [.mk (ascii "dos") (.object [.mk (ascii "s") (.int 2)]), .mk (ascii "owned") (.bool false),
    .mk (ascii "aclist2") (.objectArray [])]

theorem rejected_leaves_state_rfnop :
    ((ocSecDecodePstat (plainPlatform 1) rfnopState unwelcome false 0).1 = false ∧
      (ocSecDecodePstat (plainPlatform 1) rfnopState unwelcome false 0).2 = rfnopState) ∧
    ((ocSecDecodeDoxm (plainPlatform 1) rfnopState unwelcome false 0).1 = false ∧
      (ocSecDecodeDoxm (plainPlatform 1) rfnopState unwelcome false 0).2 = rfnopState) ∧
    (ocSecDecodeAcl (plainPlatform 1) rfnopState unwelcome false 0).1 = false ∧
      (ocSecDecodeAcl (plainPlatform 1) rfnopState unwelcome false 0).2 = rfnopState := by
  obtain ⟨h1, h2, h3⟩ := rejected_leaves_state (plainPlatform 1) rfnopState unwelcome 0
  have e1 : (ocSecDecodePstat (plainPlatform 1) rfnopState unwelcome false 0).1 = false := rfl
  have e2 : (ocSecDecodeDoxm (plainPlatform 1) rfnopState unwelcome false 0).1 = false := rfl
  have e3 : (ocSecDecodeAcl (plainPlatform 1) rfnopState unwelcome false 0).1 = false := rfl
  exact ⟨⟨e1, h1 e1⟩, ⟨e2, h2 e2⟩, e3, h3 e3⟩

end Security
