import Iotivity.Obt.Safety
import Iotivity.Obt.Sequence

/-!
# An attempt without losses

One attempt whose requests and responses all arrive, on a device in any state whose ACL lets the first
request in.

* `Mid`                 the attempt between two exchanges;
* `attempt_succeeds`    it ends with success: the device is in normal operation and the tool's, and both
                        hold the same key for each other.
-/

namespace Obt
open Security Runs

/-! ## one exchange -/

/-- the context and the device of an attempt, as the callbacks find them -/
structure Going (t : Tool) (o : OtmCtx) (v : Uuid) : Prop where
  found : t.otms.find? (·.addr = o.addr) = some o
  device : t.device? o.device = some ⟨o.device, v⟩
  apart : t.devices.any (·.addr = o.device) = false

/-- the attempt `o` between two exchanges: the request for `cb` is on its way -/
structure Mid (u : Uuid) (i j : Nat) (o : OtmCtx) (cb : Callback) (v : Uuid) (creds : List Cred)
    (reports : List Report) (stack : State → Prop) (n : Net) : Prop where
  length : n.tool.sent.length = i + 1
  last : n.tool.sent[i]? = some ⟨cb.request u, cb, o.addr⟩
  answers : n.answers.length = j
  going : Going n.tool o v
  creds : n.tool.creds = creds
  reports : n.tool.reports = reports
  stack : stack n.stack

section
variable {pf : Platform} {u junk : Uuid} {derive : Bytes → Uuid → Uuid → Option Bytes}
variable {d i j : Nat} {o : OtmCtx} {cb cb' : Callback} {v v' : Uuid} {creds creds' : List Cred}
variable {reports : List Report} {P Q : State → Prop} {n : Net}
variable {tls : Tls} {endpoint : Coap.Endpoint}

variable (u junk derive) in
theorem run_exchange {m : Sent} {a : Answer} {s' : State}
    {t' : Tool} (hm : n.tool.sent[i]? = some m) (hj : n.answers.length = j)
    (hs : serve pf tls n.stack endpoint m.request = (a, s'))
    (hr : respond u junk derive n.tool m.userData a .sent m.callback = some t') :
    run (Net.step pf u) n (exchange tls endpoint derive junk i j) =
      some ⟨t', s', n.answers ++ [(m, a)]⟩ := by
  have h1 : n.step pf u (.serve i tls endpoint) =
      some { n with stack := s', answers := n.answers ++ [(m, a)] } := by
    simp only [Net.step]
    rw [hm]
    dsimp only
    rw [hs]
  have h2 : (n.answers ++ [(m, a)])[j]? = some (m, a) := by
    rw [← hj]
    exact List.getElem?_concat_length
  unfold exchange
  rw [run_cons, h1, Option.bind_some, run_cons]
  simp only [Net.step]
  rw [h2]
  dsimp only
  rw [hr]
  rfl

theorem run_exchanges {m : Nat} {n₁ n₂ : Net}
    (h : run (Net.step pf u) n (exchange tls endpoint derive junk i j) = some n₁)
    (hr : run (Net.step pf u) n₁ (exchanges tls endpoint derive junk (i + 1) (j + 1) m) = some n₂) :
    run (Net.step pf u) n (exchanges tls endpoint derive junk i j (m + 1)) = some n₂ := by
  rw [exchanges, Runs.run_append, h, Option.bind_some, hr]

theorem exchanges_add (a b : Nat) : exchanges tls endpoint derive junk i j (a + b) =
    exchanges tls endpoint derive junk i j a ++ exchanges tls endpoint derive junk (i + a) (j + a) b := by
  induction a generalizing i j with
  | zero => rw [Nat.zero_add]; rfl
  | succ a ih =>
    rw [Nat.succ_add, exchanges, exchanges, ih, List.append_assoc, Nat.succ_add_eq_add_succ,
      Nat.succ_add_eq_add_succ]

variable (derive junk cb') in
/-- an exchange that leads to the next request -/
theorem Mid.next {p : Tool} (h : Mid u i j o cb v creds reports P n)
    (hg : LetIn pf tls n.stack endpoint (cb.request u))
    (hs : ∀ clients, Q (stateAfter pf { n.stack with clients := clients } endpoint.device (cb.request u)) ∧
      respond u junk derive n.tool o.addr
        ((cb.request u).answer pf { n.stack with clients := clients } endpoint.device) .sent cb =
        some { p with sent := p.sent ++ [⟨cb'.request u, cb', o.addr⟩] })
    (hp : Prepared n.tool p) (ho : Going p o v') (hc : p.creds = creds') :
    ∃ n', run (Net.step pf u) n (exchange tls endpoint derive junk i j) = some n' ∧
      Mid u (i + 1) (j + 1) o cb' v' creds' reports Q n' := by
  obtain ⟨clients, hx⟩ := serve_letIn hg
  obtain ⟨hq, hr⟩ := hs clients
  refine ⟨_, run_exchange u junk derive h.last h.answers hx hr, ?_⟩
  have hlen : p.sent.length = i + 1 := by rw [hp.sent, h.length]
  constructor
  · show (p.sent ++ [_]).length = _
    rw [List.length_append, hlen]
    rfl
  · show (p.sent ++ [_])[i + 1]? = _
    rw [← hlen]
    exact List.getElem?_concat_length
  · show (n.answers ++ [_]).length = _
    rw [List.length_append, h.answers]
    rfl
  · exact ⟨ho.found, ho.device, ho.apart⟩
  · exact hc
  · show p.reports = _
    rw [hp.reports, h.reports]
  · exact hq

end

/-! ## the tool -/

section
variable {u : Uuid} {t : Tool} {o : OtmCtx} {v : Uuid} {a : Answer}

/-- a response without an error, to an attempt that is under way -/
theorem Going.obtJw (h : Going t o v) (ha : a.failed = false) (next : OtmCtx → Option Tool) :
    obtJw t o.addr a next = next o := by
  unfold Obt.obtJw
  rw [h.found]
  dsimp only
  rw [ha, if_neg Bool.false_ne_true]

theorem Going.request (h : Going t o v) (q : SvrRequest) (cb : Callback) :
    request t .sent o q cb = some { t with sent := t.sent ++ [⟨q, cb, o.addr⟩] } := by
  unfold Obt.request
  rw [h.device, Option.bind_some, if_pos rfl]

/-- the uuid of the device is stored -/
theorem Going.setUuid (h : Going t o v) (w : Uuid) : Going (t.setUuid o.device w) o w := by
  have hmap : ∀ l : List OcDevice, (l.map fun d => if d.addr = o.device then { d with uuid := w } else d).find?
      (·.addr = o.device) = (l.find? (·.addr = o.device)).map fun d => { d with uuid := w } := by
    intro l
    induction l with
    | nil => rfl
    | cons x l ih =>
      rw [List.map_cons]
      by_cases hx : x.addr = o.device
      · rw [if_pos hx, List.find?_cons_of_pos (by simpa using hx), List.find?_cons_of_pos (by simpa using hx)]
        rfl
      · rw [if_neg hx, List.find?_cons_of_neg (by simpa using hx), List.find?_cons_of_neg (by simpa using hx)]
        exact ih
  refine ⟨h.found, ?_, ?_⟩
  · have hd := h.device
    unfold Tool.device? at hd ⊢
    show (List.map _ t.cache ++ List.map _ t.devices).find? _ = _
    rw [← List.map_append, hmap, hd]
    rfl
  · rw [Bool.eq_false_iff]
    intro hc
    obtain ⟨x, hx, hxa⟩ := List.any_eq_true.mp hc
    obtain ⟨y, hy, rfl⟩ := List.mem_map.mp hx
    refine Bool.eq_false_iff.mp h.apart (List.any_eq_true.mpr ⟨y, hy, ?_⟩)
    split at hxa
    · next he => exact decide_eq_true he
    · exact hxa

/-- a response whose status the tool asks for -/
theorem Going.asked (h : Going t o v) (ha : a.failed = false) {x : Dos} (hx : parseDos a.payload = x)
    (q : SvrRequest) (cb : Callback) :
    (Obt.obtJw t o.addr a fun o => if parseDos a.payload = x then Obt.request t .sent o q cb
      else freeOtmCtx t o (-1)) = some { t with sent := t.sent ++ [⟨q, cb, o.addr⟩] } := by
  rw [h.obtJw ha, if_pos hx, h.request]

theorem Going.sends (h : Going t o v) (ha : a.failed = false) (q : SvrRequest) (cb : Callback) :
    (Obt.obtJw t o.addr a fun o => Obt.request t .sent o q cb) =
      some { t with sent := t.sent ++ [⟨q, cb, o.addr⟩] } := by
  rw [h.obtJw ha, h.request]

/-- the uuid in a doxm that has been read -/
theorem parseDeviceuuid_encodeDoxm (junk : Uuid) (doxm : Doxm) :
    parseDeviceuuid junk (ocSecEncodeDoxm doxm) = doxm.deviceuuid := by
  have h : parseDeviceuuid junk (ocSecEncodeDoxm doxm) =
      ocStrToUuid (cstr (ocUuidToStr doxm.deviceuuid)) junk := rfl
  rw [h, read_uuid]

/-- the uuid of the device is stored, and the next request is sent -/
theorem Going.stores {u junk : Uuid} (h : Going t o v) {doxm : Doxm} :
    obtJw5 u junk t o.addr ⟨.ok, ocSecEncodeDoxm doxm⟩ .sent =
      some { t.setUuid o.device doxm.deviceuuid with
        sent := (t.setUuid o.device doxm.deviceuuid).sent ++ [⟨.post .acl2 (rownerRep u), .obtJw6, o.addr⟩] } := by
  unfold obtJw5
  rw [h.obtJw rfl, h.device, Option.bind_some]
  dsimp only
  rw [parseDeviceuuid_encodeDoxm]
  exact (h.setUuid _).request _ _

/-- the credential of the tool for the device -/
def deviceCred (v : Uuid) (credid : Int) (key : Bytes) : Cred :=
  { ocSecAllocateCred v credtypePsk .null with privatedata := ⟨key, .unsupported⟩, credid := credid }

theorem Going.derives {u : Uuid} {derive : Bytes → Uuid → Uuid → Option Bytes} {key : Bytes}
    (h : Going t o v) (ha : a.failed = false) (hk : derive oxmJustWorks v u = some key) :
    obtJw6 u derive t o.addr a .sent =
      some { t with
        creds := t.creds ++ [deviceCred v (t.id + 1) key], id := t.id + 1
        sent := t.sent ++ [⟨.post .cred (ownerCredRep u), .obtJw7, o.addr⟩] } := by
  unfold obtJw6
  rw [h.obtJw ha, h.device, Option.bind_some]
  dsimp only
  rw [hk]
  have hg : Going { t with creds := t.creds ++ [deviceCred v (t.id + 1) key], id := t.id + 1 } o v :=
    ⟨h.found, h.device, h.apart⟩
  exact hg.request _ _

/-- success -/
theorem Going.ends (h : Going t o v) (ha : a.failed = false) (hx : parseDos a.payload = .rfnop) :
    ∃ t', obtJw13 t o.addr a = some t' ∧ t'.reports = t.reports ++ [⟨o.cb, v, 0⟩] ∧
      t'.creds = t.creds ∧ t'.otms = t.otms.filter (·.addr ≠ o.addr) ∧
      t'.devices = t.devices ++ [⟨o.device, v⟩] := by
  unfold obtJw13
  rw [h.obtJw ha, if_pos hx]
  unfold freeOtmCtx freeOtmState
  rw [show ({ t with timers := t.timers.erase o.addr } : Tool).device? o.device = some ⟨o.device, v⟩
    from h.device, Option.bind_some]
  dsimp only
  rw [if_neg (by decide)]
  unfold Tool.keepDevice
  dsimp only
  rw [h.apart, if_neg Bool.false_ne_true]
  exact ⟨_, rfl, rfl, rfl, rfl, rfl⟩

end

/-! ## the device -/

section
variable {pf : Platform} {u junk : Uuid} {derive : Bytes → Uuid → Uuid → Option Bytes}
variable {d i j k k' : Nat} {o : OtmCtx} {cb cb' : Callback} {v v' : Uuid} {creds creds' : List Cred}
variable {reports : List Report} {dev dev' : Device} {n : Net}
variable {tls : Tls} {endpoint : Coap.Endpoint}

theorem At.clients {s : State} (h : At s d dev k) (clients : List Roles) :
    At { s with clients := clients } d dev k := ⟨h.dev, h.flag, h.draws⟩

variable (tls derive junk cb') in
/-- an exchange with an open resource of a device that is known -/
theorem Mid.through {p : Tool} {Q : State → Prop}
    (h : Mid u i j o cb v creds reports (fun s => At s d dev k) n)
    (hp : pf.Populated d) (hd : endpoint.device = d)
    (ho : Open d (cb.request u).svr dev.acl.subjects)
    (hs : ∀ s, At s d dev k → Q (stateAfter pf s d (cb.request u)) ∧
      respond u junk derive n.tool o.addr ((cb.request u).answer pf s d) .sent cb =
        some { p with sent := p.sent ++ [⟨cb'.request u, cb', o.addr⟩] })
    (hpr : Prepared n.tool p) (hg : Going p o v') (hc : p.creds = creds') :
    ∃ n', run (Net.step pf u) n (exchange tls endpoint derive junk i j) = some n' ∧
      Mid u (i + 1) (j + 1) o cb' v' creds' reports Q n' := by
  subst hd
  have hin : LetIn pf tls n.stack endpoint (cb.request u) := by
    refine open_granted (hp _) ?_ tls rfl ?_
    · rw [h.stack.dev]
      exact ho
    · cases cb with
      | obtJw3 => exact Or.inl rfl
      | obtJw5 => exact Or.inl rfl
      | obtJw11 => exact Or.inl rfl
      | obtJw13 => exact Or.inl rfl
      | _ => exact Or.inr rfl
  exact h.next junk derive cb' hin (fun clients => hs _ (h.stack.clients clients)) hpr hg hc

variable (tls derive junk cb') in
theorem Mid.over {p : Tool} (h : Mid u i j o cb v creds reports (fun s => At s d dev k) n)
    (hp : pf.Populated d) (hd : endpoint.device = d)
    (ho : Open d (cb.request u).svr dev.acl.subjects)
    (hs : ∀ s, At s d dev k → At (stateAfter pf s d (cb.request u)) d dev' k' ∧
      respond u junk derive n.tool o.addr ((cb.request u).answer pf s d) .sent cb =
        some { p with sent := p.sent ++ [⟨cb'.request u, cb', o.addr⟩] })
    (hpr : Prepared n.tool p) (hg : Going p o v') (hc : p.creds = creds') :
    ∃ n', run (Net.step pf u) n (exchange tls endpoint derive junk i j) = some n' ∧
      Mid u (i + 1) (j + 1) o cb' v' creds' reports (fun s => At s d dev' k') n' :=
  h.through junk derive cb' tls hp hd ho hs hpr hg hc

/-- the device when it has the tool for its owner -/
def takenDev (pf : Platform) (u : Uuid) (dev : Device) (draws : Nat) : Device :=
  { dev with
    doxm := { dev.doxm with
      oxmsel := 0, rowneruuid := u, devowneruuid := u, deviceuuid := ocGenUuid (pf.random draws) }
    di := ocGenUuid (pf.random draws)
    acl := { dev.acl with rowneruuid := u } }

variable (derive junk) in
/-- from RESET to the owner of acl2 -/
theorem first_half {s₀ : State} {key : Bytes} (h : Mid u i j o .obtJw2 v creds reports (fun s => s = s₀) n)
    (hp : pf.Populated d) (hd : endpoint.device = d) (hu : u ≠ Uuid.nil)
    (hin : LetIn pf tls s₀ endpoint (.post .pstat (dosRep 0)))
    (hk : derive oxmJustWorks (ocGenUuid (pf.random (s₀.draws + 3))) u = some key) :
    ∃ id n', run (Net.step pf u) n (exchanges tls endpoint derive junk i j 5) = some n' ∧
      Mid u (i + 5) (j + 5) o .obtJw7 (ocGenUuid (pf.random (s₀.draws + 3)))
        (creds ++ [deviceCred (ocGenUuid (pf.random (s₀.draws + 3))) id key]) reports
        (fun s => At s d (takenDev pf u (resetDev pf d (s₀.device d) s₀.draws) (s₀.draws + 3))
          (s₀.draws + 6)) n' := by
  have hopen : ∀ r, Open d r (resetDev pf d (s₀.device d) s₀.draws).acl.subjects := defaultAces_open hp
  have hs₀ := h.stack
  obtain ⟨n₁, r₁, m₁⟩ := h.next junk derive .obtJw3
    (Q := fun s => At s d (resetDev pf d (s₀.device d) s₀.draws) (s₀.draws + 3))
    (hs₀ ▸ hin) (fun clients => by
      subst hs₀ hd
      have hr := reset_at pf { n.stack with clients := clients } endpoint.device
      refine ⟨hr.2, ?_⟩
      show obtJw2 n.tool o.addr (postAnswer _) .sent = _
      rw [hr.1]
      exact h.going.sends rfl _ _) (Prepared.refl _) h.going h.creds
  obtain ⟨n₂, r₂, m₂⟩ := m₁.over junk derive .obtJw4 tls hp hd
    (hopen _) (fun s hs => by
      refine ⟨hs, m₁.going.asked (a := ⟨.ok, ocSecEncodePstat (s.device d).pstat⟩) rfl ?_ _ _⟩
      rw [hs.dev]
      rfl) (Prepared.refl _) m₁.going m₁.creds
  obtain ⟨n₃, r₃, m₃⟩ := m₂.over junk derive .obtJw5 tls hp hd
    (hopen _) (fun s hs => by
      have hr := owner_at pf hu hs rfl
      refine ⟨hr.2, ?_⟩
      show obtJw4 n₂.tool o.addr (postAnswer _) .sent = _
      rw [hr.1]
      exact m₂.going.sends rfl _ _) (Prepared.refl _) m₂.going m₂.creds
  obtain ⟨n₄, r₄, m₄⟩ := m₃.over junk derive .obtJw6 tls
    (p := n₃.tool.setUuid o.device (ocGenUuid (pf.random (s₀.draws + 3)))) hp hd
    (hopen _) (fun s hs => by
      refine ⟨hs, ?_⟩
      show obtJw5 u junk n₃.tool o.addr ⟨.ok, ocSecEncodeDoxm (s.device d).doxm⟩ .sent = _
      rw [m₃.going.stores, hs.dev]
      rfl) ⟨rfl, rfl, rfl, rfl⟩ (m₃.going.setUuid _) m₃.creds
  obtain ⟨n₅, r₅, m₅⟩ := m₄.over junk derive .obtJw7 tls
    (p := { n₄.tool with
      creds := n₄.tool.creds ++ [deviceCred (ocGenUuid (pf.random (s₀.draws + 3))) (n₄.tool.id + 1) key]
      id := n₄.tool.id + 1 }) hp hd
    (hopen _) (fun s hs => by
      have hr := acl_at pf u hs rfl
      refine ⟨hr.2, ?_⟩
      show obtJw6 u derive n₄.tool o.addr (postAnswer _) .sent = _
      rw [hr.1]
      exact m₄.going.derives rfl hk) ⟨rfl, rfl, rfl, rfl⟩
    ⟨m₄.going.found, m₄.going.device, m₄.going.apart⟩ (by rw [m₄.creds])
  exact ⟨_, n₅, run_exchanges r₁ (run_exchanges r₂ (run_exchanges r₃ (run_exchanges r₄
    (run_exchanges r₅ rfl)))), m₅⟩

/-- the device with all that the tool gives it -/
def givenDev (u : Uuid) (dev : Device) (creds : List Cred) : Device :=
  { dev with
    creds := ⟨creds, u⟩
    pstat := { dev.pstat with rowneruuid := u }
    doxm := { dev.doxm with owned := true } }

variable (pf u k) in
theorem given_ready {D : Device} {l : List Cred} {c : Cred} (hc : c.subjectuuid = u) :
    Ready u (givenDev u (takenDev pf u D k) (l ++ [c])) where
  owned := rfl
  devowneruuid := rfl
  deviceuuid := ocGenUuid_ne_nil _
  doxm := rfl
  pstat := rfl
  acl := rfl
  creds := rfl
  known := ⟨c, List.mem_append_right _ (List.mem_singleton.mpr rfl), hc⟩

variable (tls derive junk) in
/-- from the credential to the end -/
theorem second_half {D : Device} {key : Bytes}
    (h : Mid u i j o .obtJw7 v creds reports (fun s => At s d (takenDev pf u D k) k') n)
    (hp : pf.Populated d) (hd : endpoint.device = d) (hu : u ≠ Uuid.nil) (hD : D.pstat.s = .rfotm)
    (hopen : ∀ r, Open d r D.acl.subjects)
    (hk : pf.deriveOwnerPsk oxmJustWorks (ocGenUuid (pf.random k)) u = some key) :
    ∃ l id n', run (Net.step pf u) n (exchanges tls endpoint derive junk i j 7) = some n' ∧
      l.Sublist D.creds.creds ∧
      n'.stack.device d = { givenDev u (takenDev pf u D k) (l ++ [ownerCred u id ⟨key, .raw⟩]) with
        pstat := ownedPstat { D.pstat with rowneruuid := u } .rfnop true
        acl := { D.acl with rowneruuid := u, subjects := ocSecSetPostOtmAcl D.acl.subjects } } ∧
      n'.tool.reports = reports ++ [⟨o.cb, v, 0⟩] ∧ n'.tool.creds = creds ∧
      n'.tool.devices.any (fun x => x.addr = o.device ∧ x.uuid = v) = true := by
  have hT : (takenDev pf u D k).pstat.s = .rfotm := hD
  obtain ⟨n₁, r₁, m₁⟩ := h.through junk derive .obtJw8 tls
    (Q := fun s => ∃ l id, l.Sublist D.creds.creds ∧
      At s d { takenDev pf u D k with creds := ⟨l ++ [ownerCred u id ⟨key, .raw⟩], u⟩ } (k' + 1))
    hp hd (hopen _) (fun s hs => by
      obtain ⟨l, id, hl, hok, hat⟩ := cred_at hs hT rfl hk
      refine ⟨⟨l, id, hl, hat⟩, ?_⟩
      show obtJw7 u n.tool o.addr (postAnswer _) .sent = _
      rw [hok]
      exact h.going.sends rfl _ _) (Prepared.refl _) h.going h.creds
  obtain ⟨l, id, hl, hat₁⟩ := m₁.stack
  have hr : Ready u (givenDev u (takenDev pf u D k) (l ++ [ownerCred u id ⟨key, .raw⟩])) :=
    given_ready pf u k rfl
  obtain ⟨n₂, r₂, m₂⟩ := Mid.over junk derive .obtJw9 tls { m₁ with stack := hat₁ } hp hd (hopen _) (fun s hs => by
      have hx := rowner_at pf (u := u) hs hT
      refine ⟨hx.2, ?_⟩
      show obtJw8 n₁.tool o.addr (postAnswer _) .sent = _
      rw [hx.1]
      exact m₁.going.sends rfl _ _) (Prepared.refl _) m₁.going m₁.creds
  obtain ⟨n₃, r₃, m₃⟩ := m₂.through junk derive .obtJw10 tls
    (Q := fun s => At s d (givenDev u (takenDev pf u D k) (l ++ [ownerCred u id ⟨key, .raw⟩])) (k' + 1)) hp hd
    (hopen _) (fun s hs => by
      have hx := owned_at pf hs hT
      refine ⟨hx.2, ?_⟩
      show obtJw9 n₂.tool o.addr (postAnswer _) .sent = _
      rw [hx.1]
      exact m₂.going.sends rfl _ _) (Prepared.refl _) m₂.going m₂.creds
  obtain ⟨n₄, r₄, m₄⟩ := m₃.over junk derive .obtJw11 tls hp hd
    (hopen _) (fun s hs => by
      have hx := rfpro_at pf hu hs hT hr
      refine ⟨hx.2, ?_⟩
      show obtJw10 n₃.tool o.addr (postAnswer _) .sent = _
      rw [hx.1]
      exact m₃.going.sends rfl _ _) (Prepared.refl _) m₃.going m₃.creds
  obtain ⟨n₅, r₅, m₅⟩ := m₄.over junk derive .obtJw12 tls hp hd
    (hopen _) (fun s hs => by
      refine ⟨hs, m₄.going.asked (a := ⟨.ok, ocSecEncodePstat (s.device d).pstat⟩) rfl ?_ _ _⟩
      rw [hs.dev]
      rfl) (Prepared.refl _) m₄.going m₄.creds
  obtain ⟨n₆, r₆, m₆⟩ := m₅.through junk derive .obtJw13 tls
    (Q := fun s => s.device d =
      { givenDev u (takenDev pf u D k) (l ++ [ownerCred u id ⟨key, .raw⟩]) with
        pstat := ownedPstat { D.pstat with rowneruuid := u } .rfnop true
        acl := { D.acl with rowneruuid := u, subjects := ocSecSetPostOtmAcl D.acl.subjects } })
    hp hd (hopen _) (fun s hs => by
      have hx := rfnop_at pf hu hs rfl ⟨hr.owned, hr.devowneruuid, hr.deviceuuid, hr.doxm,
        hr.pstat, hr.acl, hr.creds, hr.known⟩
      refine ⟨hx.2, ?_⟩
      show obtJw12 n₅.tool o.addr (postAnswer _) .sent = _
      rw [hx.1]
      exact m₅.going.sends rfl _ _) (Prepared.refl _) m₅.going m₅.creds
  -- the last response
  have hin : LetIn pf tls n₆.stack endpoint (.get .pstat) := by
    subst hd
    refine open_granted (r := .pstat) (hp _) ?_ tls rfl (Or.inl rfl)
    rw [m₆.stack]
    exact postOtmAcl_open rfl (hopen .pstat)
  obtain ⟨clients, hx⟩ := serve_letIn hin
  obtain ⟨t', ht', hrep, hcr, -, hdv⟩ := m₆.going.ends
    (a := ⟨.ok, ocSecEncodePstat (n₆.stack.device d).pstat⟩) rfl (by rw [m₆.stack]; rfl)
  subst hd
  have r₇ := run_exchange u junk derive m₆.last m₆.answers hx ht'
  refine ⟨l, id, _, run_exchanges r₁ (run_exchanges r₂ (run_exchanges r₃ (run_exchanges r₄
    (run_exchanges r₅ (run_exchanges r₆ (run_exchanges r₇ rfl)))))), hl, m₆.stack, ?_, ?_, ?_⟩
  · show t'.reports = _
    rw [hrep, m₆.reports]
  · show t'.creds = _
    rw [hcr, m₆.creds]
  · show t'.devices.any _ = true
    rw [hdv, List.any_append]
    simp

variable (pf u) in
/-- an attempt begins with a device of the cache -/
theorem start_mid (cb : Nat) {uuid : Uuid} {addr : Nat} {x : OcDevice} (hn : n.tool.Sound)
    (ho : ownedDevice uuid n.tool.creds = false) (hx : getDeviceHandle uuid n.tool.cache = some x)
    (hf : n.tool.otms.any (·.addr = addr) = false) :
    ∃ n', n.step pf u (.start uuid cb addr .sent) = some n' ∧
      Mid u n.tool.sent.length n.answers.length ⟨addr, cb, x.addr⟩ .obtJw2 x.uuid n.tool.creds
        n.tool.reports (fun s => s = n.stack) n' := by
  have hmem : x ∈ n.tool.cache := List.mem_of_find?_eq_some hx
  have hdev : n.tool.device? x.addr = some x := by
    unfold Tool.device?
    exact Keyed.find_key hn.nodup (List.mem_append_left _ hmem)
  have happ : n.tool.devices.any (·.addr = x.addr) = false := by
    rw [Bool.eq_false_iff]
    intro hc
    obtain ⟨y, hy, hya⟩ := List.any_eq_true.mp hc
    have hnd := hn.nodup
    rw [List.map_append] at hnd
    exact List.disjoint_of_nodup_append hnd (List.mem_map_of_mem hmem)
      (of_decide_eq_true hya ▸ List.mem_map_of_mem hy)
  have hnew : n.tool.otms.find? (·.addr = addr) = none := by
    rw [List.find?_eq_none]
    intro o ho hc
    exact Bool.eq_false_iff.mp hf (List.any_eq_true.mpr ⟨o, ho, hc⟩)
  simp only [Net.step]
  rw [hf, if_neg Bool.false_ne_true]
  unfold ocObtPerformJustWorksOtm
  rw [ho, if_neg Bool.false_ne_true, hx]
  refine ⟨_, rfl, ?_, ?_, rfl, ⟨?_, hdev, happ⟩, rfl, rfl, rfl⟩
  · show (n.tool.sent ++ [_]).length = _
    rw [List.length_append]
    rfl
  · show (n.tool.sent ++ [_])[n.tool.sent.length]? = _
    exact List.getElem?_concat_length
  · show (n.tool.otms ++ [_]).find? _ = _
    rw [List.find?_append, hnew]
    simp

theorem attempt_succeeds (junk uuid : Uuid) (cb addr : Nat) (tls : Tls) (endpoint : Coap.Endpoint)
    (derive : Bytes → Uuid → Uuid → Option Bytes) (key : Bytes) {steps : List Step} {id : Int}
    (hr : run (Net.step pf u) (Net.initial pf creds id) steps = some n)
    (ha : AllAlone pf u (Net.initial pf creds id) steps) (hp : pf.Populated d) (hu : u ≠ Uuid.nil)
    (hd : endpoint.device = d) (hin : LetIn pf tls n.stack endpoint (.post .pstat (dosRep 0)))
    (hown : ownedDevice uuid n.tool.creds = false)
    (hdev : (getDeviceHandle uuid n.tool.cache).isSome)
    (hfree : n.tool.otms.any (·.addr = addr) = false)
    (hv : v = ocGenUuid (pf.random (n.stack.draws + 3))) (hnew : ownedDevice v n.tool.creds = false)
    (hkd : pf.deriveOwnerPsk oxmJustWorks v u = some key) (hkt : derive oxmJustWorks v u = some key) :
    ∃ n', run (Net.step pf u) n
        (attempt tls endpoint derive junk uuid cb addr n.tool.sent.length n.answers.length) = some n' ∧
      n'.tool.reports = n.tool.reports ++ [⟨cb, v, 0⟩] ∧
      (n'.stack.device d).pstat.s = .rfnop ∧ Ready u (n'.stack.device d) ∧
      (n'.stack.device d).doxm.deviceuuid = v ∧
      (∃ c, ocSecFindCred u credtypePsk .null (n'.stack.device d).creds.creds = some c ∧
        c.privatedata = ⟨key, .raw⟩) ∧
      ∃ c, ocSecFindCred v credtypePsk .null n'.tool.creds = some c ∧ c.privatedata.data = key := by
  obtain ⟨x, hx⟩ := Option.isSome_iff_exists.mp hdev
  have hsound : n.tool.Sound := by
    obtain ⟨m, hm, hs⟩ := run_sound (initial_sound pf creds id) ha
    cases hr.symm.trans hm
    exact hs
  obtain ⟨n₁, r₁, m₁⟩ := start_mid pf u cb hsound hown hx hfree
  obtain ⟨credid, n₂, r₂, m₂⟩ := first_half junk derive m₁ hp hd hu hin (hv ▸ hkt)
  obtain ⟨l, cid, n₃, r₃, hl, hst, hrep, hcr, -⟩ := second_half junk derive tls m₂ hp hd hu rfl (defaultAces_open hp) (hv ▸ hkd)
  subst hv
  refine ⟨n₃, ?_, hrep, ?_, ?_, ?_, ?_, ?_⟩
  · unfold attempt
    rw [run_cons, r₁, Option.bind_some, show 12 = 5 + 7 from rfl, exchanges_add, Runs.run_append, r₂,
      Option.bind_some, r₃]
  · rw [hst]
    rfl
  · rw [hst]
    have hready := given_ready pf u (n.stack.draws + 3)
      (D := resetDev pf d (n.stack.device d) n.stack.draws) (l := l) (c := ownerCred u cid ⟨key, .raw⟩) rfl
    exact ⟨hready.owned, hready.devowneruuid, hready.deviceuuid, hready.doxm, hready.pstat, hready.acl,
      hready.creds, hready.known⟩
  · rw [hst]
    rfl
  · rw [hst]
    refine ⟨ownerCred u cid ⟨key, .raw⟩, ?_, rfl⟩
    show (l ++ [_]).find? _ = _
    rw [List.find?_append, List.find?_eq_none.mpr]
    · simp [ownerCred]
    · intro c hc hd
      have hm := of_decide_eq_true (List.mem_filter.mp (hl.subset hc)).2
      have hq := (of_decide_eq_true hd).2.1
      rw [hq] at hm
      rcases hm with hm | hm <;> cases hm
  · rw [hcr]
    refine ⟨deviceCred (ocGenUuid (pf.random (n.stack.draws + 3))) credid key, ?_, rfl⟩
    unfold ocSecFindCred
    rw [List.find?_append, List.find?_eq_none.mpr]
    · simp [deviceCred, ocSecAllocateCred]
    · intro c hc hd
      exact Bool.eq_false_iff.mp hnew (List.any_eq_true.mpr ⟨c, hc, decide_eq_true (of_decide_eq_true hd).2.2⟩)

end

theorem attempt_succeeds_demo : ∃ n n', run (Net.step demoPlatform demoUuid)
      (Net.initial demoPlatform [] 1000) [demoFound] = some n ∧
    run (Net.step demoPlatform demoUuid) n (attempt demoTls demoEndpoint demoPlatform.deriveOwnerPsk
      Uuid.nil demoDevice 77 1 n.tool.sent.length n.answers.length) = some n' ∧
    (n'.stack.device 0).pstat.s = .rfnop := by
  have h0 : run (Net.step demoPlatform demoUuid) (Net.initial demoPlatform [] 1000) [demoFound] =
      some ⟨obtCheckOwned demoUuid Uuid.nil (Tool.fresh [] 1000)
        ⟨.ok, ocSecEncodeDoxm ((initState demoPlatform).device 0).doxm⟩ 5,
        initState demoPlatform, []⟩ := rfl
  obtain ⟨n', hr, -, hs, -⟩ := attempt_succeeds Uuid.nil demoDevice 77 1 demoTls demoEndpoint
    demoPlatform.deriveOwnerPsk (List.replicate 16 7) h0
    ⟨trivial, fun _ _ => trivial⟩ (servedPlatform_populated 1 0) (by decide +kernel) rfl
    (by unfold LetIn; decide +kernel) (by decide +kernel) (by decide +kernel) (by decide +kernel) rfl
    (by decide +kernel) rfl rfl
  exact ⟨_, n', h0, hr, hs⟩

end Obt
