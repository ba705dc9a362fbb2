import Iotivity.Obt.Transfer
import Iotivity.Security.Owners

/-!
# Who owns a device that the tool talks to

What holds in every state of the tool and its devices, whatever is lost, delayed or repeated, and
however many attempts there are at once.

* `responded`       a response to an attempt ends it or brings the next request;
* `owned_run`       a device in normal operation is operational, and the tool owns all of it;
* `reported_run`    success is reported after some device has answered from normal operation;
* `accounted_run`   every attempt that was begun is reported once, or is still under way with its timer set.
-/

namespace Obt
open Security Runs

/-- the request whose response a callback is for -/
def Callback.request (u : Uuid) : Callback → SvrRequest
  | obtJw2 => .post .pstat (dosRep 0)
  | obtJw3 => .get .pstat
  | obtJw4 => .post .doxm (ownerRep u)
  | obtJw5 => .get .doxm
  | obtJw6 => .post .acl2 (rownerRep u)
  | obtJw7 => .post .cred (ownerCredRep u)
  | obtJw8 => .post .pstat (rownerRep u)
  | obtJw9 => .post .doxm ownedRep
  | obtJw10 => .post .pstat (dosRep 2)
  | obtJw11 => .get .pstat
  | obtJw12 => .post .pstat (dosRep 3)
  | obtJw13 => .get .pstat

/-! ## what a callback does -/

/-- the tool before the next request: it may have stored a uuid and a credential -/
structure Prepared (t t' : Tool) : Prop where
  sent : t'.sent = t.sent
  reports : t'.reports = t.reports
  otms : t'.otms = t.otms
  timers : t'.timers = t.timers

/-- the end of an attempt -/
structure Ended (t : Tool) (o : OtmCtx) (status : Int) (t' : Tool) : Prop where
  sent : t'.sent = t.sent
  reports : ∃ v, t'.reports = t.reports ++ [⟨o.cb, v, status⟩]
  otms : t'.otms = t.otms.filter (·.addr ≠ o.addr)
  timers : t'.timers = t.timers.erase o.addr

/-- what a response to the attempt `o` comes to; it may succeed only if `good` -/
inductive Outcome (u : Uuid) (t : Tool) (o : OtmCtx) (good : Prop) (t' : Tool) : Prop
  | ended (status : Int) (hs : status = -1 ∨ status = 0 ∧ good) (h : Ended t o status t') : Outcome u t o good t'
  | went (p : Tool) (cb : Callback) (hp : Prepared t p)
    (h : t' = { p with sent := p.sent ++ [⟨cb.request u, cb, o.addr⟩] }) : Outcome u t o good t'

theorem Prepared.refl (t : Tool) : Prepared t t := ⟨rfl, rfl, rfl, rfl⟩

theorem Ended.of_prepared {t p t' : Tool} {o : OtmCtx} {status : Int} (hp : Prepared t p)
    (h : Ended p o status t') : Ended t o status t' where
  sent := h.sent.trans hp.sent
  reports := hp.reports ▸ h.reports
  otms := hp.otms ▸ h.otms
  timers := hp.timers ▸ h.timers

/-- `free_otm_state` on a tool whose timer is gone already -/
theorem freeOtmState_ended {t r t' : Tool} {o : OtmCtx} {status : Int} (hs : r.sent = t.sent)
    (hr : r.reports = t.reports) (ho : r.otms = t.otms) (ht : r.timers = t.timers.erase o.addr)
    (h : freeOtmState r o status = some t') : Ended t o status t' := by
  obtain ⟨dev, -, h⟩ := Option.bind_eq_some_iff.mp h
  dsimp only at h
  split at h
  · cases h
    exact ⟨hs, ⟨dev.uuid, by rw [← hr]; rfl⟩, by rw [← ho]; rfl, ht⟩
  · obtain ⟨k, hk, rfl⟩ := Option.map_eq_some_iff.mp h
    unfold Tool.keepDevice at hk
    split at hk
    · cases hk
    · cases hk
      exact ⟨hs, ⟨dev.uuid, by rw [← hr]; rfl⟩, by rw [← ho]; rfl, ht⟩

theorem freeOtmCtx_ended {t t' : Tool} {o : OtmCtx} {status : Int}
    (h : freeOtmCtx t o status = some t') : Ended t o status t' :=
  freeOtmState_ended (r := { t with timers := t.timers.erase o.addr }) rfl rfl rfl rfl h

section
variable {u : Uuid} {t p t' : Tool} {o : OtmCtx} {good : Prop} {go : Sending}

theorem failed_outcome (hp : Prepared t p) (h : freeOtmCtx p o (-1) = some t') :
    Outcome u t o good t' :=
  .ended (-1) (Or.inl rfl) ((freeOtmCtx_ended h).of_prepared hp)

theorem request_outcome (hp : Prepared t p) (cb : Callback)
    (h : request p go o (cb.request u) cb = some t') : Outcome u t o good t' := by
  obtain ⟨dev, -, h⟩ := Option.bind_eq_some_iff.mp h
  split at h
  · exact .went p cb hp (Option.some.inj h).symm
  · exact failed_outcome hp h

end

/-- a response has an effect only if it is for an attempt that is under way -/
theorem responded {u junk : Uuid} {derive : Bytes → Uuid → Uuid → Option Bytes} {t t' : Tool}
    {userData : Nat} {a : Answer} {go : Sending} {cb : Callback}
    (h : respond u junk derive t userData a go cb = some t') :
    t.otms.find? (·.addr = userData) = none ∧ t' = t ∨
      ∃ o, t.otms.find? (·.addr = userData) = some o ∧
        Outcome u t o (cb = .obtJw13 ∧ a.failed = false ∧ parseDos a.payload = .rfnop) t' := by
  suffices hs : ∀ next : OtmCtx → Option Tool, obtJw t userData a next = some t' →
      (∀ o, a.failed = false → next o = some t' → Outcome u t o
        (cb = .obtJw13 ∧ a.failed = false ∧ parseDos a.payload = .rfnop) t') →
      t.otms.find? (·.addr = userData) = none ∧ t' = t ∨
        ∃ o, t.otms.find? (·.addr = userData) = some o ∧
          Outcome u t o (cb = .obtJw13 ∧ a.failed = false ∧ parseDos a.payload = .rfnop) t' by
    have hr := Prepared.refl t
    cases cb with
    | obtJw2 => exact hs _ h fun o _ h => request_outcome hr .obtJw3 h
    | obtJw3 =>
      refine hs _ h fun o _ h => ?_
      split at h
      · exact request_outcome hr .obtJw4 h
      · exact failed_outcome hr h
    | obtJw4 => exact hs _ h fun o _ h => request_outcome hr .obtJw5 h
    | obtJw5 =>
      refine hs _ h fun o _ h => ?_
      obtain ⟨dev, -, h⟩ := Option.bind_eq_some_iff.mp h
      exact request_outcome (p := t.setUuid o.device _) ⟨rfl, rfl, rfl, rfl⟩ .obtJw6 h
    | obtJw6 =>
      refine hs _ h fun o _ h => ?_
      obtain ⟨dev, -, h⟩ := Option.bind_eq_some_iff.mp h
      dsimp only at h
      split at h
      · exact failed_outcome (by exact ⟨rfl, rfl, rfl, rfl⟩) h
      · exact request_outcome (by exact ⟨rfl, rfl, rfl, rfl⟩) .obtJw7 h
    | obtJw7 => exact hs _ h fun o _ h => request_outcome hr .obtJw8 h
    | obtJw8 => exact hs _ h fun o _ h => request_outcome hr .obtJw9 h
    | obtJw9 => exact hs _ h fun o _ h => request_outcome hr .obtJw10 h
    | obtJw10 => exact hs _ h fun o _ h => request_outcome hr .obtJw11 h
    | obtJw11 =>
      refine hs _ h fun o _ h => ?_
      split at h
      · exact request_outcome hr .obtJw12 h
      · exact failed_outcome hr h
    | obtJw12 => exact hs _ h fun o _ h => request_outcome hr .obtJw13 h
    | obtJw13 =>
      refine hs _ h fun o hf h => ?_
      split at h
      · next hd => exact .ended 0 (Or.inr ⟨rfl, rfl, hf, hd⟩) (freeOtmCtx_ended h)
      · exact failed_outcome hr h
  intro next h hn
  unfold obtJw at h
  cases ho : t.otms.find? (·.addr = userData) with
  | none =>
    rw [ho] at h
    exact Or.inl ⟨rfl, (Option.some.inj h).symm⟩
  | some o =>
    rw [ho] at h
    refine Or.inr ⟨o, rfl, ?_⟩
    dsimp only at h
    split at h
    · exact failed_outcome (Prepared.refl t) h
    · next hf => exact hn o (Bool.eq_false_iff.mpr hf) h

/-! ## the invariant -/

/-- what holds of the tool and its devices: a request is the one of its callback, and nobody but the
tool owns anything -/
structure Net.Kept (u : Uuid) (n : Net) : Prop where
  sent : ∀ m ∈ n.tool.sent, m.request = m.callback.request u
  stack : ∀ d, (n.stack.device d).Kept u

/-- the requests of the sequence name no other owner -/
theorem names_request (u : Uuid) (cb : Callback) (d : Nat) {r : Request}
    (h : (cb.request u).request d = some r) : r.Names u := by
  have hu : ∀ v, ocStrToUuid (cstr (ocUuidToStr u)) v = u := by
    intro v
    rw [cstr_ocUuidToStr, ocStrToUuid_ocUuidToStr]
  have hrow : Names u (rownerRep u) := by
    intro r hr t ht hk
    cases List.mem_singleton.mp hr
    cases ht
    exact hu
  have hdos : ∀ s, Names u (dosRep s) := by
    intro s r hr t ht hk
    cases List.mem_singleton.mp hr
    cases ht
  cases cb with
  | obtJw2 => cases h; exact hdos 0
  | obtJw3 => cases h
  | obtJw4 =>
    cases h
    intro r hr t ht hk
    simp only [ownerRep, List.mem_cons, List.not_mem_nil, or_false] at hr
    rcases hr with rfl | rfl | rfl
    · cases ht
    · cases ht; exact hu
    · cases ht; exact hu
  | obtJw5 => cases h
  | obtJw6 => cases h; exact hrow
  | obtJw7 =>
    cases h
    intro r hr t ht hk
    simp only [ownerCredRep, List.mem_cons, List.not_mem_nil, or_false] at hr
    rcases hr with rfl | rfl
    · cases ht
    · cases ht; exact hu
  | obtJw8 => cases h; exact hrow
  | obtJw9 =>
    cases h
    intro r hr t ht hk
    cases List.mem_singleton.mp hr
    cases ht
  | obtJw10 => cases h; exact hdos 2
  | obtJw11 => cases h
  | obtJw12 => cases h; exact hdos 3
  | obtJw13 => cases h

variable {pf : Platform} {u : Uuid}

/-- a device that gets a request of the sequence -/
theorem serve_kept {s : State} (cb : Callback) (tls : Tls) (endpoint : Coap.Endpoint)
    (h : ∀ d, (s.device d).Kept u) (d : Nat) :
    ((serve pf tls s endpoint (cb.request u)).2.device d).Kept u := by
  have hs := served pf tls s endpoint (cb.request u)
  generalize serve pf tls s endpoint (cb.request u) = r at hs
  cases hs with
  | refused clients => exact h d
  | read clients r hr => exact h d
  | wrote clients r hr =>
    exact step_kept (s := { s with clients := clients }) (names_request u cb _ hr) h d

/-- what the tool has sent after a response -/
theorem Outcome.sent {t t' : Tool} {o : OtmCtx} {good : Prop} (h : Outcome u t o good t')
    (hs : ∀ m ∈ t.sent, m.request = m.callback.request u) :
    ∀ m ∈ t'.sent, m.request = m.callback.request u := by
  cases h with
  | ended status _ he => rwa [he.sent]
  | went p cb hp he =>
    subst he
    intro m hm
    rcases List.mem_append.mp hm with hm | hm
    · exact hs m (hp.sent ▸ hm)
    · cases List.mem_singleton.mp hm
      rfl

theorem obtCheckOwned_sent (u junk : Uuid) (t : Tool) (a : Answer) (addr : Nat) :
    (obtCheckOwned u junk t a addr).sent = t.sent ∧
      (obtCheckOwned u junk t a addr).reports = t.reports ∧
      (obtCheckOwned u junk t a addr).otms = t.otms ∧
      (obtCheckOwned u junk t a addr).timers = t.timers := by
  unfold obtCheckOwned
  dsimp only
  split
  · exact ⟨rfl, rfl, rfl, rfl⟩
  split
  · exact ⟨rfl, rfl, rfl, rfl⟩
  split
  · exact ⟨rfl, rfl, rfl, rfl⟩
  split
  · exact ⟨rfl, rfl, rfl, rfl⟩
  split
  · exact ⟨rfl, rfl, rfl, rfl⟩
  · exact ⟨rfl, rfl, rfl, rfl⟩

/-- an attempt is not begun, or it is, with its first request and its timer -/
theorem perform_cases (t : Tool) (uuid : Uuid) (cb addr : Nat) (go : Sending) :
    ocObtPerformJustWorksOtm t uuid cb addr go = (-1, t) ∨
      ∃ dev, getDeviceHandle uuid t.cache = some dev ∧
        ocObtPerformJustWorksOtm t uuid cb addr go =
          (0, { t with
            sent := t.sent ++ [⟨Callback.obtJw2.request u, .obtJw2, addr⟩]
            otms := t.otms ++ [⟨addr, cb, dev.addr⟩]
            timers := t.timers ++ [addr] }) := by
  unfold ocObtPerformJustWorksOtm
  split
  · exact Or.inl rfl
  split
  · exact Or.inl rfl
  · next dev hd =>
    split
    · exact Or.inr ⟨dev, hd, rfl⟩
    · exact Or.inl rfl

/-- what a step comes to, with all that it may do to the tool and to the stack -/
theorem step_kept {n n' : Net} {e : Step} (h : n.Kept u) (hs : n.step pf u e = some n') :
    n'.Kept u := by
  cases e with
  | found a junk addr =>
    simp only [Net.step] at hs
    split at hs
    · cases hs; exact h
    · cases hs
      refine ⟨fun m hm => h.sent m ?_, h.stack⟩
      rwa [← (obtCheckOwned_sent u junk n.tool a addr).1]
  | start uuid cb addr go =>
    simp only [Net.step] at hs
    split at hs
    · cases hs; exact h
    · cases hs
      refine ⟨fun m hm => ?_, h.stack⟩
      rcases perform_cases (u := u) n.tool uuid cb addr go with he | ⟨dev, -, he⟩
      · rw [he] at hm
        exact h.sent m hm
      · rw [he] at hm
        rcases List.mem_append.mp hm with hm | hm
        · exact h.sent m hm
        · cases List.mem_singleton.mp hm
          rfl
  | serve i tls endpoint =>
    simp only [Net.step] at hs
    split at hs
    · cases hs; exact h
    · next m hm =>
      cases hs
      refine ⟨h.sent, fun d => ?_⟩
      show ((serve pf tls n.stack endpoint m.request).2.device d).Kept u
      rw [h.sent m (List.mem_of_getElem? hm)]
      exact serve_kept m.callback tls endpoint h.stack d
  | fail i a =>
    simp only [Net.step] at hs
    split at hs
    · cases hs; exact h
    · split at hs
      · cases hs; exact ⟨h.sent, h.stack⟩
      · cases hs; exact h
  | respond i derive junk go =>
    simp only [Net.step] at hs
    split at hs
    · cases hs; exact h
    · obtain ⟨t, ht, rfl⟩ := Option.map_eq_some_iff.mp hs
      refine ⟨?_, h.stack⟩
      rcases responded ht with ⟨-, rfl⟩ | ⟨o, -, ho⟩
      · exact h.sent
      · exact ho.sent h.sent
  | expire addr =>
    simp only [Net.step] at hs
    split at hs
    · obtain ⟨t, ht, rfl⟩ := Option.map_eq_some_iff.mp hs
      obtain ⟨o, ho, ht⟩ := Option.bind_eq_some_iff.mp ht
      have ha : o.addr = addr := by simpa using List.find?_some ho
      have he := freeOtmState_ended (t := n.tool) (r := { n.tool with timers := n.tool.timers.erase addr })
        rfl rfl rfl (by rw [ha]) ht
      refine ⟨fun m hm => h.sent m ?_, h.stack⟩
      rwa [← he.sent]
    · cases hs; exact h

/-! ## runs -/

theorem initial_kept (pf : Platform) (u : Uuid) (creds : List Cred) (id : Int) :
    (Net.initial pf creds id).Kept u :=
  ⟨fun _ hm => absurd hm List.not_mem_nil, initState_kept pf u⟩

theorem run_kept {n n' : Net} {steps : List Step} (h : n.Kept u)
    (hr : run (Net.step pf u) n steps = some n') : n'.Kept u :=
  run_inv (P := Net.Kept u) (fun _ _ _ h hs => step_kept h hs) h hr

/-- the device is in normal operation, and the tool owns it and its resources -/
structure Device.OperatedBy (u : Uuid) (dev : Device) : Prop where
  operational : dev.Operational
  devowneruuid : dev.doxm.devowneruuid = u
  rowners : ∀ v ∈ dev.rowners, v = u

theorem Net.Kept.operated {n : Net} (h : n.Kept u) {d : Nat} (hs : n.stack.Rfnop d) :
    Device.OperatedBy u (n.stack.device d) := by
  have ho := (h.stack d).operational hs
  obtain ⟨h1, h2⟩ := ho.owner (h.stack d).owner
  exact ⟨ho, h1, h2⟩

theorem owned_run (pf : Platform) (u : Uuid) (creds : List Cred) (id : Int) {steps : List Step}
    {n : Net} (h : run (Net.step pf u) (Net.initial pf creds id) steps = some n) (d : Nat)
    (hs : n.stack.Rfnop d) : Device.OperatedBy u (n.stack.device d) :=
  (run_kept (initial_kept pf u creds id) h).operated hs

/-- what the run of the demo comes to -/
theorem demo_ends :
    (run (Net.step demoPlatform demoUuid) (Net.initial demoPlatform [] 1000) demoSteps).map
      (fun n => ((n.stack.device 0).pstat.s, n.tool.reports.map Report.status)) = some (.rfnop, [0]) := by
  decide +kernel

theorem owned_run_demo : ∃ n, run (Net.step demoPlatform demoUuid) (Net.initial demoPlatform [] 1000)
    demoSteps = some n ∧ Device.OperatedBy demoUuid (n.stack.device 0) := by
  obtain ⟨n, hn, hx⟩ := Option.map_eq_some_iff.mp demo_ends
  exact ⟨n, hn, owned_run demoPlatform demoUuid [] 1000 hn 0 (congrArg Prod.fst hx)⟩

/-! ## success -/

/-- the tool has been told that some device is in normal operation -/
def Net.Told (n : Net) : Prop :=
  ∃ x ∈ n.answers, x.1.callback = .obtJw13 ∧ x.2.failed = false ∧ parseDos x.2.payload = .rfnop

/-- a response in which a device says so -/
def Tells (n : Net) (e : Step) : Prop :=
  ∃ i tls endpoint, e = .serve i tls endpoint ∧ n.stack.Rfnop endpoint.device

/-- what `oc_sec_encode_pstat` writes, `parse_dos` reads -/
theorem parseDos_encodePstat (ps : Pstat) (h : ∀ n, ps.s ≠ .other n) :
    parseDos (ocSecEncodePstat ps) = ps.s := by
  obtain ⟨st, p, isop, cm, tm, om, sm, row⟩ := ps
  cases st with
  | other n => exact absurd rfl (h n)
  | _ => rfl

/-- a status in the response to the last request is that of the device -/
theorem answer_pstat {s : State} {tls : Tls} {endpoint : Coap.Endpoint}
    (hk : ∀ n, (s.device endpoint.device).pstat.s ≠ .other n)
    (hf : (serve pf tls s endpoint (.get .pstat)).1.failed = false) :
    parseDos (serve pf tls s endpoint (.get .pstat)).1.payload = (s.device endpoint.device).pstat.s := by
  have hs := served pf tls s endpoint (.get .pstat)
  generalize serve pf tls s endpoint (.get .pstat) = r at hs hf
  cases hs with
  | refused clients => cases hf
  | read clients r hr => exact parseDos_encodePstat (s.device endpoint.device).pstat hk
  | wrote clients r hr => cases hr

theorem obtCheckOwned_reports (t : Tool) (u junk : Uuid) (a : Answer) (addr : Nat) :
    (obtCheckOwned u junk t a addr).reports = t.reports := (obtCheckOwned_sent u junk t a addr).2.1

theorem perform_reports (t : Tool) (u uuid : Uuid) (cb addr : Nat) (go : Sending) :
    (ocObtPerformJustWorksOtm t uuid cb addr go).2.reports = t.reports := by
  rcases perform_cases (u := u) t uuid cb addr go with he | ⟨dev, -, he⟩
  · rw [he]
  · rw [he]

/-- a report of success -/
def Net.Succeeded (n : Net) : Prop := ∃ r ∈ n.tool.reports, r.status ≠ -1

/-- the tool has been told before it reports, and a device has told it -/
theorem step_told {n n' : Net} {e : Step} (h : n.Kept u) (hd : n.Succeeded → n.Told)
    (hs : n.step pf u e = some n') :
    (n'.Succeeded → n'.Told) ∧ (n'.Told → n.Told ∨ Tells n e) := by
  cases e with
  | found a junk addr =>
    simp only [Net.step] at hs
    split at hs
    · cases hs; exact ⟨hd, Or.inl⟩
    · cases hs
      refine ⟨fun hr => hd ?_, Or.inl⟩
      obtain ⟨r, hr, h0⟩ := hr
      exact ⟨r, obtCheckOwned_reports n.tool u junk a addr ▸ hr, h0⟩
  | start uuid cb addr go =>
    simp only [Net.step] at hs
    split at hs
    · cases hs; exact ⟨hd, Or.inl⟩
    · cases hs
      refine ⟨fun hr => hd ?_, Or.inl⟩
      obtain ⟨r, hr, h0⟩ := hr
      exact ⟨r, perform_reports n.tool u uuid cb addr go ▸ hr, h0⟩
  | serve i tls endpoint =>
    simp only [Net.step] at hs
    split at hs
    · cases hs; exact ⟨hd, Or.inl⟩
    · next m hm =>
      cases hs
      refine ⟨fun hr => ?_, fun ht => ?_⟩
      · obtain ⟨x, hx, hrest⟩ := hd hr
        exact ⟨x, List.mem_append_left _ hx, hrest⟩
      · obtain ⟨x, hx, h1, h2, h3⟩ := ht
        rcases List.mem_append.mp hx with hx | hx
        · exact Or.inl ⟨x, hx, h1, h2, h3⟩
        · cases List.mem_singleton.mp hx
          have hq : m.request = .get .pstat := by
            rw [h.sent m (List.mem_of_getElem? hm), show m.callback = .obtJw13 from h1]
            rfl
          rw [hq] at h2 h3
          rw [answer_pstat (h.stack _).known h2] at h3
          exact Or.inr ⟨i, tls, endpoint, rfl, h3⟩
  | fail i a =>
    simp only [Net.step] at hs
    split at hs
    · cases hs; exact ⟨hd, Or.inl⟩
    · split at hs
      · next hf =>
        cases hs
        refine ⟨fun hr => ?_, fun ht => ?_⟩
        · obtain ⟨x, hx, hrest⟩ := hd hr
          exact ⟨x, List.mem_append_left _ hx, hrest⟩
        · obtain ⟨x, hx, h1, h2, h3⟩ := ht
          rcases List.mem_append.mp hx with hx | hx
          · exact Or.inl ⟨x, hx, h1, h2, h3⟩
          · cases List.mem_singleton.mp hx
            exact absurd hf (Bool.eq_false_iff.mp h2)
      · cases hs; exact ⟨hd, Or.inl⟩
  | respond i derive junk go =>
    simp only [Net.step] at hs
    split at hs
    · cases hs; exact ⟨hd, Or.inl⟩
    · next x hx =>
      obtain ⟨t, ht, rfl⟩ := Option.map_eq_some_iff.mp hs
      refine ⟨fun hr => ?_, Or.inl⟩
      rcases responded ht with ⟨-, rfl⟩ | ⟨o, -, ho⟩
      · exact hd hr
      obtain ⟨r, hr, h0⟩ := hr
      cases ho with
      | ended status hst he =>
        obtain ⟨v, hv⟩ := he.reports
        rcases List.mem_append.mp (hv ▸ hr) with hr | hr
        · exact hd ⟨r, hr, h0⟩
        · cases List.mem_singleton.mp hr
          obtain ⟨-, hg⟩ := hst.resolve_left h0
          exact ⟨x, List.mem_of_getElem? hx, hg⟩
      | went p cb hp he =>
        subst he
        exact hd ⟨r, hp.reports ▸ hr, h0⟩
  | expire addr =>
    simp only [Net.step] at hs
    split at hs
    · obtain ⟨t, ht, rfl⟩ := Option.map_eq_some_iff.mp hs
      obtain ⟨o, ho, ht⟩ := Option.bind_eq_some_iff.mp ht
      have ha : o.addr = addr := by simpa using List.find?_some ho
      have he := freeOtmState_ended (t := n.tool) (r := { n.tool with timers := n.tool.timers.erase addr })
        rfl rfl rfl (by rw [ha]) ht
      refine ⟨fun hr => ?_, Or.inl⟩
      obtain ⟨r, hr, h0⟩ := hr
      obtain ⟨v, hv⟩ := he.reports
      rcases List.mem_append.mp (hv ▸ hr) with hr | hr
      · exact hd ⟨r, hr, h0⟩
      · cases List.mem_singleton.mp hr
        exact absurd rfl h0
    · cases hs; exact ⟨hd, Or.inl⟩

theorem reported_run (pf : Platform) (u : Uuid) (creds : List Cred) (id : Int) {steps : List Step}
    {n : Net} (h : run (Net.step pf u) (Net.initial pf creds id) steps = some n) {r : Report}
    (hr : r ∈ n.tool.reports) (h0 : r.status ≠ -1) :
    ∃ pre i tls endpoint post m, steps = pre ++ .serve i tls endpoint :: post ∧
      run (Net.step pf u) (Net.initial pf creds id) pre = some m ∧
      m.stack.Rfnop endpoint.device ∧ Device.OperatedBy u (m.stack.device endpoint.device) := by
  have h1 : ∀ {steps n}, run (Net.step pf u) (Net.initial pf creds id) steps = some n →
      n.Kept u ∧ (n.Succeeded → n.Told) := by
    intro steps n h
    refine run_inv (P := fun n => n.Kept u ∧ (n.Succeeded → n.Told))
      (fun s e t hp hs => ⟨step_kept hp.1 hs, (step_told hp.1 hp.2 hs).1⟩) ?_ h
    refine ⟨initial_kept pf u creds id, fun hr => ?_⟩
    obtain ⟨r, hr, -⟩ := hr
    exact absurd hr List.not_mem_nil
  have hn : ¬ (Net.initial pf creds id).Told := fun ⟨x, hx, _⟩ => absurd hx List.not_mem_nil
  -- the invariant along the run, as a part of what is looked at
  obtain ⟨pre, e, post, m, rfl, hm, i, tls, endpoint, rfl, hs⟩ :=
    first_cause (I := fun n => n.Kept u ∧ (n.Succeeded → n.Told)) (Q := Net.Told) (C := Tells)
      (fun s e t hp hs => ⟨step_kept hp.1 hs, (step_told hp.1 hp.2 hs).1⟩)
      (fun s e t hp hs hq => (step_told hp.1 hp.2 hs).2 hq) (h1 (run_nil _)) hn h ((h1 h).2 ⟨r, hr, h0⟩)
  exact ⟨pre, i, tls, endpoint, post, m, rfl, hm, hs, (h1 hm).1.operated hs⟩

theorem reported_run_demo : ∃ pre i tls endpoint post m,
    demoSteps = pre ++ .serve i tls endpoint :: post ∧
    run (Net.step demoPlatform demoUuid) (Net.initial demoPlatform [] 1000) pre = some m ∧
    Device.OperatedBy demoUuid (m.stack.device endpoint.device) := by
  obtain ⟨n, hn, hx⟩ := Option.map_eq_some_iff.mp demo_ends
  have hs : n.tool.reports.map Report.status = [0] := congrArg Prod.snd hx
  have h0 : (0 : Int) ∈ n.tool.reports.map Report.status := by
    rw [hs]
    exact List.mem_singleton.mpr rfl
  obtain ⟨r, hr, hr0⟩ := List.mem_map.mp h0
  obtain ⟨pre, i, tls, endpoint, post, m, he, hm, -, ho⟩ :=
    reported_run demoPlatform demoUuid [] 1000 hn hr (by rw [hr0]; decide)
  exact ⟨pre, i, tls, endpoint, post, m, he, hm, ho⟩

/-! ## one report for each attempt -/

/-- the attempt that a step begins -/
def begins (n : Net) : Step → List Nat
  | .start uuid cb addr go =>
    if n.tool.otms.any (·.addr = addr) then []
    else if (ocObtPerformJustWorksOtm n.tool uuid cb addr go).1 = 0 then [cb] else []
  | _ => []

/-- the attempts that a run begins, by their callbacks -/
def begun (pf : Platform) (u : Uuid) (n : Net) : List Step → List Nat
  | [] => []
  | e :: l => begins n e ++ ((n.step pf u e).elim [] fun m => begun pf u m l)

/-- the attempts that are under way or have been reported -/
def Tool.accounted (t : Tool) : List Nat := t.otms.map OtmCtx.cb ++ t.reports.map Report.cb

/-- contexts have different addresses, and each its timer -/
structure Tool.Timed (t : Tool) : Prop where
  nodup : (t.otms.map OtmCtx.addr).Nodup
  timers : t.timers.Perm (t.otms.map OtmCtx.addr)

theorem Tool.Timed.congr {t t' : Tool} (h : t.Timed) (ho : t'.otms = t.otms)
    (ht : t'.timers = t.timers) : t'.Timed := ⟨ho ▸ h.nodup, by rw [ho, ht]; exact h.timers⟩

/-- an attempt that ends is reported -/
theorem Ended.accounted {t t' : Tool} {o : OtmCtx} {status : Int} (h : Ended t o status t')
    (ht : t.Timed) (ho : o ∈ t.otms) : t'.Timed ∧ t'.accounted.Perm t.accounted := by
  obtain ⟨pre, suf, hl⟩ := List.append_of_mem ho
  have hn := ht.nodup
  rw [hl] at hn
  have hr : t'.otms = pre ++ suf := by
    rw [h.otms, hl]
    exact Keyed.remove_middle hn
  obtain ⟨v, hv⟩ := h.reports
  have hp : ((pre ++ o :: suf).map OtmCtx.addr).Perm (o.addr :: (pre ++ suf).map OtmCtx.addr) :=
    (List.perm_middle).map OtmCtx.addr
  refine ⟨⟨?_, ?_⟩, ?_⟩
  · rw [hr]
    exact (List.nodup_cons.mp (hp.nodup_iff.mp hn)).2
  · rw [h.timers, hr]
    have he := (hl ▸ ht.timers).trans hp |>.erase o.addr
    rwa [List.erase_cons_head] at he
  · unfold Tool.accounted
    rw [hr, hl, hv]
    simp only [List.map_append, List.map_cons, List.map_nil, List.append_assoc]
    refine List.Perm.append_left _ ?_
    show (_ ++ (_ ++ [o.cb])).Perm (o.cb :: _)
    rw [← List.append_assoc]
    exact List.perm_append_singleton _ _

theorem step_accounted {n n' : Net} {e : Step} (h : n.tool.Timed) (hs : n.step pf u e = some n') :
    n'.tool.Timed ∧ n'.tool.accounted.Perm (begins n e ++ n.tool.accounted) := by
  cases e with
  | found a junk addr =>
    simp only [Net.step] at hs
    split at hs
    · cases hs; exact ⟨h, List.Perm.refl _⟩
    · cases hs
      obtain ⟨-, h2, h3, h4⟩ := obtCheckOwned_sent u junk n.tool a addr
      refine ⟨h.congr h3 h4, ?_⟩
      unfold Tool.accounted
      rw [h2, h3]
      exact List.Perm.refl _
  | start uuid cb addr go =>
    simp only [Net.step] at hs
    split at hs
    · next hc =>
      cases hs
      rw [begins, if_pos hc]
      exact ⟨h, List.Perm.refl _⟩
    · next hc =>
      cases hs
      rw [begins, if_neg hc]
      rcases perform_cases (u := u) n.tool uuid cb addr go with he | ⟨dev, -, he⟩
      · rw [he, if_neg (show ¬ (-1 : Int) = 0 by decide)]
        exact ⟨h, List.Perm.refl _⟩
      · rw [he, if_pos rfl]
        have hnew : addr ∉ n.tool.otms.map OtmCtx.addr := by
          intro hm
          obtain ⟨o, ho, hoa⟩ := List.mem_map.mp hm
          exact hc (List.any_eq_true.mpr ⟨o, ho, decide_eq_true hoa⟩)
        refine ⟨⟨?_, ?_⟩, ?_⟩
        · show ((n.tool.otms ++ [(⟨addr, cb, dev.addr⟩ : OtmCtx)]).map OtmCtx.addr).Nodup
          rw [List.map_append]
          exact h.nodup.append (List.nodup_singleton addr) (List.disjoint_singleton.mpr hnew)
        · show (n.tool.timers ++ [addr]).Perm _
          rw [List.map_append]
          exact h.timers.append_right [addr]
        · show ((n.tool.otms ++ [(⟨addr, cb, dev.addr⟩ : OtmCtx)]).map OtmCtx.cb ++ _).Perm _
          rw [List.map_append, List.append_assoc]
          exact List.perm_middle
  | serve i tls endpoint =>
    simp only [Net.step] at hs
    split at hs
    · cases hs; exact ⟨h, List.Perm.refl _⟩
    · cases hs; exact ⟨h, List.Perm.refl _⟩
  | fail i a =>
    simp only [Net.step] at hs
    split at hs
    · cases hs; exact ⟨h, List.Perm.refl _⟩
    · split at hs
      · cases hs; exact ⟨h, List.Perm.refl _⟩
      · cases hs; exact ⟨h, List.Perm.refl _⟩
  | respond i derive junk go =>
    simp only [Net.step] at hs
    split at hs
    · cases hs; exact ⟨h, List.Perm.refl _⟩
    · obtain ⟨t, ht, rfl⟩ := Option.map_eq_some_iff.mp hs
      rcases responded ht with ⟨-, rfl⟩ | ⟨o, ho, hout⟩
      · exact ⟨h, List.Perm.refl _⟩
      cases hout with
      | ended status hst he => exact he.accounted h (List.mem_of_find?_eq_some ho)
      | went p cb hp he =>
        subst he
        refine ⟨h.congr hp.otms hp.timers, ?_⟩
        show (p.otms.map OtmCtx.cb ++ p.reports.map Report.cb).Perm _
        rw [hp.otms, hp.reports]
        exact List.Perm.refl _
  | expire addr =>
    simp only [Net.step] at hs
    split at hs
    · obtain ⟨t, ht, rfl⟩ := Option.map_eq_some_iff.mp hs
      obtain ⟨o, ho, ht⟩ := Option.bind_eq_some_iff.mp ht
      have ha : o.addr = addr := by simpa using List.find?_some ho
      have he := freeOtmState_ended (t := n.tool) (r := { n.tool with timers := n.tool.timers.erase addr })
        rfl rfl rfl (by rw [ha]) ht
      exact he.accounted h (List.mem_of_find?_eq_some ho)
    · cases hs; exact ⟨h, List.Perm.refl _⟩

theorem run_accounted {n n' : Net} {steps : List Step} (h : n.tool.Timed)
    (hr : run (Net.step pf u) n steps = some n') :
    n'.tool.Timed ∧ n'.tool.accounted.Perm (begun pf u n steps ++ n.tool.accounted) := by
  induction steps generalizing n with
  | nil =>
    cases hr
    exact ⟨h, List.Perm.refl _⟩
  | cons e l ih =>
    rw [run_cons] at hr
    obtain ⟨m, hm, hr⟩ := Option.bind_eq_some_iff.mp hr
    obtain ⟨hm1, hm2⟩ := step_accounted h hm
    obtain ⟨h1, h2⟩ := ih hm1 hr
    refine ⟨h1, h2.trans ?_⟩
    have hb : begun pf u n (e :: l) = begins n e ++ begun pf u m l := by
      rw [begun, hm]
      rfl
    rw [hb]
    refine (hm2.append_left _).trans ?_
    rw [← List.append_assoc]
    exact List.perm_append_comm.append_right _

theorem accounted_run (pf : Platform) (u : Uuid) (creds : List Cred) (id : Int) {steps : List Step}
    {n : Net} (h : run (Net.step pf u) (Net.initial pf creds id) steps = some n) :
    (n.tool.otms.map OtmCtx.cb ++ n.tool.reports.map Report.cb).Perm
        (begun pf u (Net.initial pf creds id) steps) ∧
      n.tool.timers.Perm (n.tool.otms.map OtmCtx.addr) ∧ (n.tool.otms.map OtmCtx.addr).Nodup := by
  have h0 : (Net.initial pf creds id).tool.Timed := ⟨List.nodup_nil, List.Perm.refl _⟩
  obtain ⟨ht, hp⟩ := run_accounted h0 h
  refine ⟨?_, ht.timers, ht.nodup⟩
  rw [show (Net.initial pf creds id).tool.accounted = [] from rfl, List.append_nil] at hp
  exact hp

theorem accounted_run_demo : ∃ n, run (Net.step demoPlatform demoUuid) (Net.initial demoPlatform [] 1000)
      demoSteps = some n ∧
    (n.tool.otms.map OtmCtx.cb ++ n.tool.reports.map Report.cb).Perm
      (begun demoPlatform demoUuid (Net.initial demoPlatform [] 1000) demoSteps) := by
  obtain ⟨n, hn, -⟩ := Option.map_eq_some_iff.mp demo_ends
  exact ⟨n, hn, (accounted_run demoPlatform demoUuid [] 1000 hn).1⟩

end Obt
