import Iotivity.Security.Handle

/-!
# Factory reset: `oc_sec_reset`

One `pstat` record goes through the handler for all devices in turn.  For device 0 it asks for RESET,
and the handler leaves RFOTM in it; so every other device gets the RFOTM transition only, which
clears nothing and is refused for a device that has an owner.

* `reset_device`      what becomes of each device;
* `ocSecReset_iff`    the reset reaches every device exactly when all but the first are clear already.
-/

namespace Security

/-! ## what is asked of a reset -/

/-- the credential came with the device: a manufacturer certificate or trust anchor -/
def Cred.Factory (c : Cred) : Prop := c.credusage = .mfgTrustca ∨ c.credusage = .mfgCert

instance (c : Cred) : Decidable c.Factory := inferInstanceAs (Decidable (_ ∨ _))

/-- nothing of an owner is left, in the records other than the status: no owner, no rowneruuid, the
default ACL, no credentials but the manufacturer's -/
structure Device.Clear (pf : Platform) (d : Nat) (dev : Device) : Prop where
  owned : dev.doxm.owned = false
  devowneruuid : dev.doxm.devowneruuid = Uuid.nil
  doxmRowner : dev.doxm.rowneruuid = Uuid.nil
  aclRowner : dev.acl.rowneruuid = Uuid.nil
  credRowner : dev.creds.rowneruuid = Uuid.nil
  aces : dev.acl.subjects = defaultAces pf d
  creds : ∀ c ∈ dev.creds.creds, c.Factory

/-- a device after a factory reset -/
structure Device.FactoryReset (pf : Platform) (d : Nat) (dev : Device) : Prop where
  rfotm : dev.pstat.s = .rfotm
  isop : dev.pstat.isop = false
  pstatRowner : dev.pstat.rowneruuid = Uuid.nil
  clear : dev.Clear pf d

/-! ## device by device -/

variable {pf : Platform} {s : State}

/-- what becomes of device `d` -/
def afterReset (pf : Platform) (s : State) (d : Nat) : Device :=
  if d = 0 then (resetDevice pf 0 (s.device 0) s.draws).1.withPstat rfotmPstat
  else if (s.device d).Unowned then (s.device d).withPstat rfotmPstat
  else s.device d

/-- the loop of `oc_sec_reset` -/
def resetLoop (pf : Platform) (s : State) (n : Nat) : Pstat × State :=
  (List.range n).foldl (fun x device =>
    let r := ocPstatHandleState pf x.2 device x.1
    (r.2.1, r.2.2)) (Device.zero.pstat, s)

theorem resetLoop_succ (n : Nat) : resetLoop pf s (n + 1) =
    ((ocPstatHandleState pf (resetLoop pf s n).2 n (resetLoop pf s n).1).2.1,
      (ocPstatHandleState pf (resetLoop pf s n).2 n (resetLoop pf s n).1).2.2) := by
  unfold resetLoop
  rw [List.range_succ, List.foldl_append, List.foldl_cons, List.foldl_nil]

/-- a later device: the record stays the same but for the flag `p` -/
theorem handle_rfotmPstat (pf : Platform) (s : State) (d : Nat) (p : Bool) :
    (∃ p', (ocPstatHandleState pf s d { rfotmPstat with p := p }).2.1 = { rfotmPstat with p := p' }) ∧
      (ocPstatHandleState pf s d { rfotmPstat with p := p }).2.2.device d =
        (if (s.device d).Unowned then (s.device d).withPstat rfotmPstat else s.device d) := by
  show (∃ p', (handleRfotm s d { rfotmPstat with p := p }).2.1 = { rfotmPstat with p := p' }) ∧
    (handleRfotm s d { rfotmPstat with p := p }).2.2.device d = _
  by_cases hu : (s.device d).Unowned
  · rw [handleRfotm_ok hu rfl, if_pos hu]
    exact ⟨⟨false, rfl⟩, State.put_device _ _ _⟩
  · have hc : (s.device d).doxm.owned ∨ ¬ nilUuid (s.device d).doxm.devowneruuid := by
      by_contra hn
      rw [not_or, Decidable.not_not, nilUuid_iff] at hn
      exact hu ⟨Bool.eq_false_iff.mpr hn.1, hn.2⟩
    have hr : handleRfotm s d { rfotmPstat with p := p } =
        (false, { rfotmPstat with p := true }, s) := by
      unfold handleRfotm
      exact if_pos (hc.imp id Or.inl)
    rw [hr, if_neg hu]
    exact ⟨⟨true, rfl⟩, rfl⟩

theorem resetLoop_one (pf : Platform) (s : State) : (resetLoop pf s 1).1 = rfotmPstat ∧
    (resetLoop pf s 1).2.device 0 = afterReset pf s 0 ∧
    ∀ k, k ≠ 0 → (resetLoop pf s 1).2.device k = s.device k := by
  rw [resetLoop_succ]
  show (handleRfotm (resetState pf s 0) 0 _).2.1 = _ ∧
    (handleRfotm (resetState pf s 0) 0 _).2.2.device 0 = _ ∧
    ∀ k, k ≠ 0 → (handleRfotm (resetState pf s 0) 0 _).2.2.device k = _
  rw [handleRfotm_ok (resetState_unowned pf s 0) rfl]
  refine ⟨rfl, ?_, fun k hk => ?_⟩
  · refine (State.put_device _ _ _).trans ?_
    show Device.withPstat ((s.put 0 (resetDevice pf 0 (s.device 0) s.draws).1).device 0) _ = _
    rw [State.put_device]
    rfl
  · exact (State.put_device_ne _ _ hk).trans (resetState_device_ne hk)

theorem resetLoop_spec (n : Nat) :
    (∃ p, (resetLoop pf s (n + 1)).1 = { rfotmPstat with p := p }) ∧
    (∀ k, k < n + 1 → (resetLoop pf s (n + 1)).2.device k = afterReset pf s k) ∧
    ∀ k, n + 1 ≤ k → (resetLoop pf s (n + 1)).2.device k = s.device k := by
  induction n with
  | zero =>
    obtain ⟨h1, h2, h3⟩ := resetLoop_one pf s
    refine ⟨⟨false, h1⟩, fun k hk => ?_, fun k hk => h3 k (by omega)⟩
    cases Nat.lt_one_iff.mp hk
    exact h2
  | succ n ih =>
    obtain ⟨⟨p, hp⟩, hlt, hge⟩ := ih
    obtain ⟨h1, h2⟩ := handle_rfotmPstat pf (resetLoop pf s (n + 1)).2 (n + 1) p
    have hf := handled pf (resetLoop pf s (n + 1)).2 (n + 1) { rfotmPstat with p := p }
    rw [resetLoop_succ, hp]
    refine ⟨h1, fun k hk => ?_, fun k hk => ?_⟩
    · by_cases he : k = n + 1
      · subst he
        rw [h2, hge _ (Nat.le_refl _)]
        exact (if_neg (Nat.succ_ne_zero n)).symm
      · exact (hf.frame he).trans (hlt k (by omega))
    · exact (hf.frame (by omega)).trans (hge k (by omega))

theorem reset_device {d : Nat} (h : d < pf.numDevices) :
    (ocSecReset pf s).device d = afterReset pf s d := by
  obtain ⟨n, hn⟩ : ∃ n, pf.numDevices = n + 1 := ⟨pf.numDevices - 1, by omega⟩
  show (resetLoop pf s pf.numDevices).2.device d = _
  rw [hn]
  exact (resetLoop_spec n).2.1 d (by omega)

/-! ## the reset as a whole -/

theorem resetDevice_clear (pf : Platform) (dev : Device) (draws : Nat) (d : Nat) :
    (resetDevice pf d dev draws).1.Clear pf d where
  owned := rfl
  devowneruuid := rfl
  doxmRowner := rfl
  aclRowner := rfl
  credRowner := rfl
  aces := rfl
  creds c hc := by
    have h := List.of_mem_filter hc
    exact of_decide_eq_true h

theorem afterReset_zero : (afterReset pf s 0).FactoryReset pf 0 := by
  have h := resetDevice_clear pf (s.device 0) s.draws 0
  exact ⟨rfl, rfl, rfl, ⟨h.1, h.2, h.3, h.4, h.5, h.6, h.7⟩⟩

theorem afterReset_iff {d : Nat} (hd : d ≠ 0) :
    (afterReset pf s d).FactoryReset pf d ↔ (s.device d).Clear pf d := by
  unfold afterReset
  rw [if_neg hd]
  constructor
  · intro h
    split at h
    · exact ⟨h.clear.1, h.clear.2, h.clear.3, h.clear.4, h.clear.5, h.clear.6, h.clear.7⟩
    · exact h.clear
  · intro h
    rw [if_pos ⟨h.owned, h.devowneruuid⟩]
    exact ⟨rfl, rfl, rfl, ⟨h.1, h.2, h.3, h.4, h.5, h.6, h.7⟩⟩

theorem ocSecReset_iff (pf : Platform) (s : State) :
    (∀ d, d < pf.numDevices → ((ocSecReset pf s).device d).FactoryReset pf d) ↔
      ∀ d, d < pf.numDevices → d ≠ 0 → (s.device d).Clear pf d := by
  constructor
  · intro h d hd hz
    have hr := h d hd
    rw [reset_device hd] at hr
    exact (afterReset_iff hz).mp hr
  · intro h d hd
    rw [reset_device hd]
    by_cases hz : d = 0
    · subst hz
      exact afterReset_zero
    · exact (afterReset_iff hz).mpr (h d hd hz)

/-- an owner -/
def ownerUuid : Uuid := Uuid.nil.set 0 0xA0

/-- two devices, the second one owned and in normal operation -/
def ownedSecond : State :=
  State.zero.put 1 { Device.zero with
    pstat := { Device.zero.pstat with s := .rfnop, isop := true, rowneruuid := ownerUuid }
    doxm := { Device.zero.doxm with owned := true, devowneruuid := ownerUuid } }

theorem ocSecReset_misses_second :
    ¬ ∀ d, d < (plainPlatform 2).numDevices →
      ((ocSecReset (plainPlatform 2) ownedSecond).device d).FactoryReset (plainPlatform 2) d := by
  intro h
  have h1 := (h 1 (by decide)).rfotm
  exact absurd h1 (by decide)

end Security
