import Iotivity.Obt.Ownership

/-!
# The memory of the attempts

The callbacks check that their context is still on the list, but a context refers to its device, and
the device is freed with the attempt that fails.  Late responses and timers do no harm as long as no
two attempts for one device are under way.

* `step_sound`   a step keeps every device that an attempt refers to, and has a result;
* `safe_run`     so does a run that begins no second attempt for a device, and one that does may go on
                 to use a device that has been freed.
-/

namespace Obt
open Security Runs

/-- no attempt for the device that a step begins one for is under way -/
def Alone (n : Net) : Step → Prop
  | .start uuid _ _ _ => ∀ dev, getDeviceHandle uuid n.tool.cache = some dev →
    ∀ o ∈ n.tool.otms, o.device ≠ dev.addr
  | _ => True

/-- every attempt of a run is the only one for its device -/
def AllAlone (pf : Platform) (u : Uuid) (n : Net) : List Step → Prop
  | [] => True
  | e :: l => Alone n e ∧ ∀ m, n.step pf u e = some m → AllAlone pf u m l

/-- every attempt has a device of its own, which is in the cache -/
structure Tool.Sound (t : Tool) : Prop where
  nodup : ((t.cache ++ t.devices).map OcDevice.addr).Nodup
  held : ∀ o ∈ t.otms, ∃ dev ∈ t.cache, dev.addr = o.device
  alone : (t.otms.map OtmCtx.device).Nodup
  timed : t.Timed

variable {pf : Platform} {u : Uuid} {t : Tool} {o : OtmCtx}

namespace Tool.Sound

/-- credentials, requests and reports do not matter -/
theorem congr {t' : Tool} (h : t.Sound) (hc : t'.cache = t.cache) (hd : t'.devices = t.devices)
    (ho : t'.otms = t.otms) (ht : t'.timers = t.timers) : t'.Sound where
  nodup := by rw [hc, hd]; exact h.nodup
  held := by rw [ho, hc]; exact h.held
  alone := by rw [ho]; exact h.alone
  timed := h.timed.congr ho ht

theorem device (h : t.Sound) (ho : o ∈ t.otms) :
    ∃ dev ∈ t.cache, dev.addr = o.device ∧ t.device? o.device = some dev := by
  obtain ⟨dev, hd, ha⟩ := h.held o ho
  have hf : (t.cache.find? (·.addr = o.device)).isSome = true :=
    List.find?_isSome.mpr ⟨dev, hd, decide_eq_true ha⟩
  obtain ⟨x, hx⟩ := Option.isSome_iff_exists.mp hf
  refine ⟨x, List.mem_of_find?_eq_some hx, by simpa using List.find?_some hx, ?_⟩
  unfold Tool.device?
  rw [List.find?_append, hx]
  rfl

/-- another attempt has another device -/
theorem device_ne (h : t.Sound) (ho : o ∈ t.otms) {o' : OtmCtx} (ho' : o' ∈ t.otms)
    (hne : o'.addr ≠ o.addr) : o'.device ≠ o.device := by
  intro he
  exact hne (congrArg OtmCtx.addr (List.inj_on_of_nodup_map h.alone ho' ho he))

/-- the contexts that are left -/
theorem alone_filter (h : t.Sound) (p : OtmCtx → Bool) :
    ((t.otms.filter p).map OtmCtx.device).Nodup :=
  h.alone.sublist (List.filter_sublist.map _)

end Tool.Sound

/-- an attempt can always be ended -/
theorem freeOtmCtx_sound (h : t.Sound) (ho : o ∈ t.otms) (status : Int) :
    ∃ t', freeOtmCtx t o status = some t' ∧ t'.Sound := by
  obtain ⟨dev, hd, ha, hdev⟩ := h.device ho
  have hheld : ∀ o' ∈ t.otms.filter (·.addr ≠ o.addr),
      ∃ x ∈ t.cache.filter (·.addr ≠ dev.addr), x.addr = o'.device := by
    intro o' ho'
    obtain ⟨hm, hne⟩ := List.mem_filter.mp ho'
    obtain ⟨x, hx, hxa⟩ := h.held o' hm
    refine ⟨x, List.mem_filter.mpr ⟨hx, decide_eq_true ?_⟩, hxa⟩
    rw [hxa, ha]
    exact h.device_ne ho hm (of_decide_eq_true hne)
  suffices hs : ∃ t', freeOtmCtx t o status = some t' ∧
      ((t'.cache ++ t'.devices).map OcDevice.addr).Nodup ∧
      t'.cache = t.cache.filter (·.addr ≠ dev.addr) ∧ t'.otms = t.otms.filter (·.addr ≠ o.addr) by
    obtain ⟨t', ht', h1, h2, h3⟩ := hs
    refine ⟨t', ht', h1, ?_, ?_, ((freeOtmCtx_ended ht').accounted h.timed ho).1⟩
    · rw [h2, h3]
      exact hheld
    · rw [h3]
      exact h.alone_filter _
  have hd' : ({ t with timers := t.timers.erase o.addr } : Tool).device? o.device = some dev := hdev
  unfold freeOtmCtx freeOtmState
  rw [hd', Option.bind_some]
  dsimp only
  split
  · refine ⟨_, rfl, ?_, rfl, rfl⟩
    refine h.nodup.sublist (List.Sublist.map _ ?_)
    exact List.filter_sublist.append List.filter_sublist
  · have hn : t.devices.any (·.addr = dev.addr) = false := by
      rw [Bool.eq_false_iff]
      intro hc
      obtain ⟨x, hx, hxa⟩ := List.any_eq_true.mp hc
      have hnd := h.nodup
      rw [List.map_append] at hnd
      exact List.disjoint_of_nodup_append hnd (List.mem_map_of_mem hd)
        (of_decide_eq_true hxa ▸ List.mem_map_of_mem hx)
    unfold Tool.keepDevice
    dsimp only
    rw [hn, if_neg Bool.false_ne_true]
    refine ⟨_, rfl, ?_, rfl, rfl⟩
    obtain ⟨pre, suf, hl⟩ := List.append_of_mem hd
    have hnd := h.nodup
    have hc : t.cache.filter (·.addr ≠ dev.addr) = pre ++ suf := by
      rw [hl]
      have hl' : ((pre ++ dev :: suf).map OcDevice.addr).Nodup := by
        rw [← hl]
        rw [List.map_append] at hnd
        exact hnd.of_append_left
      exact Keyed.remove_middle hl'
    show ((t.cache.filter (·.addr ≠ dev.addr) ++ (t.devices ++ [dev])).map OcDevice.addr).Nodup
    rw [hc]
    rw [hl] at hnd
    refine ((List.Perm.map OcDevice.addr ?_).nodup_iff).mp hnd
    rw [← List.append_assoc]
    refine List.Perm.trans ?_ (List.perm_append_singleton _ _).symm
    rw [List.append_assoc, List.cons_append]
    exact List.perm_middle.trans (List.Perm.of_eq (by rw [List.append_assoc]))

theorem request_sound (h : t.Sound) (ho : o ∈ t.otms) (go : Sending) (q : SvrRequest) (cb : Callback) :
    ∃ t', request t go o q cb = some t' ∧ t'.Sound := by
  obtain ⟨dev, -, -, hdev⟩ := h.device ho
  unfold request
  rw [hdev, Option.bind_some]
  split
  · exact ⟨_, rfl, h.congr rfl rfl rfl rfl⟩
  · exact freeOtmCtx_sound h ho (-1)

theorem setUuid_sound (h : t.Sound) (addr : Nat) (v : Uuid) : (t.setUuid addr v).Sound := by
  have hm : ∀ l : List OcDevice, (l.map fun d => if d.addr = addr then { d with uuid := v } else d).map
      OcDevice.addr = l.map OcDevice.addr := by
    intro l
    rw [List.map_map]
    refine List.map_congr_left fun d _ => ?_
    show OcDevice.addr (if d.addr = addr then _ else _) = d.addr
    split
    · rfl
    · rfl
  refine ⟨?_, fun o ho => ?_, h.alone, h.timed.congr rfl rfl⟩
  · show ((t.cache.map _ ++ t.devices.map _).map OcDevice.addr).Nodup
    rw [← List.map_append, hm]
    exact h.nodup
  · obtain ⟨dev, hd, ha⟩ := h.held o ho
    refine ⟨_, List.mem_map_of_mem hd, ?_⟩
    split
    · exact ha
    · exact ha

theorem respond_sound (u junk : Uuid) (derive : Bytes → Uuid → Uuid → Option Bytes) (h : t.Sound)
    (userData : Nat) (a : Answer) (go : Sending) (cb : Callback) :
    ∃ t', respond u junk derive t userData a go cb = some t' ∧ t'.Sound := by
  suffices hs : ∀ next : OtmCtx → Option Tool,
      (∀ o ∈ t.otms, ∃ t', next o = some t' ∧ t'.Sound) →
      ∃ t', obtJw t userData a next = some t' ∧ t'.Sound by
    have hr : ∀ (q : SvrRequest) (cb : Callback), ∀ o ∈ t.otms,
        ∃ t', request t go o q cb = some t' ∧ t'.Sound := fun q cb o ho => request_sound h ho go q cb
    cases cb with
    | obtJw2 => exact hs _ (hr _ _)
    | obtJw3 =>
      refine hs _ fun o ho => ?_
      split
      · exact hr _ _ o ho
      · exact freeOtmCtx_sound h ho (-1)
    | obtJw4 => exact hs _ (hr _ _)
    | obtJw5 =>
      refine hs _ fun o ho => ?_
      obtain ⟨dev, -, -, hdev⟩ := h.device ho
      rw [hdev, Option.bind_some]
      exact request_sound (setUuid_sound h _ _) ho go _ _
    | obtJw6 =>
      refine hs _ fun o ho => ?_
      obtain ⟨dev, -, -, hdev⟩ := h.device ho
      rw [hdev, Option.bind_some]
      dsimp only
      split
      · refine freeOtmCtx_sound ?_ ?_ (-1)
        · exact h.congr rfl rfl rfl rfl
        · exact ho
      · refine request_sound ?_ ?_ go _ _
        · exact h.congr rfl rfl rfl rfl
        · exact ho
    | obtJw7 => exact hs _ (hr _ _)
    | obtJw8 => exact hs _ (hr _ _)
    | obtJw9 => exact hs _ (hr _ _)
    | obtJw10 => exact hs _ (hr _ _)
    | obtJw11 =>
      refine hs _ fun o ho => ?_
      split
      · exact hr _ _ o ho
      · exact freeOtmCtx_sound h ho (-1)
    | obtJw12 => exact hs _ (hr _ _)
    | obtJw13 =>
      refine hs _ fun o ho => ?_
      split
      · exact freeOtmCtx_sound h ho 0
      · exact freeOtmCtx_sound h ho (-1)
  intro next hn
  unfold obtJw
  cases hf : t.otms.find? (·.addr = userData) with
  | none => exact ⟨t, rfl, h⟩
  | some o =>
    have ho := List.mem_of_find?_eq_some hf
    dsimp only
    split
    · exact freeOtmCtx_sound h ho (-1)
    · exact hn o ho

/-- a device in memory that is not in use -/
theorem cacheDevice_sound (h : t.Sound) {addr : Nat} (ha : t.device? addr = none) (v : Uuid) :
    ({ t with cache := cacheDeviceIfNotKnown t.cache v addr } : Tool).Sound ∧
      ({ t with devices := cacheDeviceIfNotKnown t.devices v addr } : Tool).Sound := by
  have hnew : addr ∉ (t.cache ++ t.devices).map OcDevice.addr := by
    intro hm
    obtain ⟨dev, hd, he⟩ := List.mem_map.mp hm
    exact absurd (decide_eq_true he) (List.find?_eq_none.mp ha dev hd)
  have hnd : (addr :: (t.cache ++ t.devices).map OcDevice.addr).Nodup :=
    List.nodup_cons.mpr ⟨hnew, h.nodup⟩
  have h0 : t.Sound := h.congr rfl rfl rfl rfl
  unfold cacheDeviceIfNotKnown
  constructor
  · split
    · exact h0
    · refine ⟨?_, fun o ho => ?_, h.alone, h.timed.congr rfl rfl⟩
      · refine (List.Perm.nodup_iff ?_).mp hnd
        show (List.map OcDevice.addr ((⟨addr, v⟩ : OcDevice) :: (t.cache ++ t.devices))).Perm
          (List.map _ ((t.cache ++ [⟨addr, v⟩]) ++ t.devices))
        rw [List.append_assoc]
        exact List.Perm.map _ List.perm_middle.symm
      · obtain ⟨dev, hd, he⟩ := h.held o ho
        exact ⟨dev, List.mem_append_left _ hd, he⟩
  · split
    · exact h0
    · refine ⟨?_, h.held, h.alone, h.timed.congr rfl rfl⟩
      refine (List.Perm.nodup_iff ?_).mp hnd
      show (List.map OcDevice.addr ((⟨addr, v⟩ : OcDevice) :: (t.cache ++ t.devices))).Perm
        (List.map _ (t.cache ++ (t.devices ++ [⟨addr, v⟩])))
      rw [← List.append_assoc]
      exact List.Perm.map _ (List.perm_append_singleton _ _).symm

variable (pf u) in
theorem step_sound {n : Net} {e : Step} (h : n.tool.Sound) (ha : Alone n e) :
    ∃ n', n.step pf u e = some n' ∧ n'.tool.Sound := by
  have timed : ∀ n', n.step pf u e = some n' → n'.tool.Timed := fun n' hs =>
    (step_accounted h.timed hs).1
  cases e with
  | found a junk addr =>
    simp only [Net.step]
    split
    · exact ⟨n, rfl, h⟩
    · next hc =>
      refine ⟨_, rfl, ?_⟩
      have hn : n.tool.device? addr = none := by
        rw [← Option.not_isSome_iff_eq_none]
        exact hc
      show (obtCheckOwned u junk n.tool a addr).Sound
      unfold obtCheckOwned
      dsimp only
      split
      · exact h
      split
      · exact h
      split
      · exact h
      split
      · exact (cacheDevice_sound h hn _).1
      split
      · exact h
      · exact (cacheDevice_sound h hn _).2
  | start uuid cb addr go =>
    cases hs : n.step pf u (.start uuid cb addr go) with
    | none =>
      simp only [Net.step] at hs
      split at hs <;> cases hs
    | some n' =>
      refine ⟨n', rfl, ?_⟩
      have ht := timed n' hs
      simp only [Net.step] at hs
      split at hs
      · cases hs; exact h
      · rcases perform_cases (u := u) n.tool uuid cb addr go with he | ⟨dev, hdev, he⟩
        · rw [he] at hs
          cases hs
          exact h
        · rw [he] at hs
          cases hs
          refine ⟨h.nodup, fun o ho => ?_, ?_, ht⟩
          · rcases List.mem_append.mp ho with ho | ho
            · exact h.held o ho
            · cases List.mem_singleton.mp ho
              exact ⟨dev, List.mem_of_find?_eq_some hdev, rfl⟩
          · show ((n.tool.otms ++ [(⟨addr, cb, dev.addr⟩ : OtmCtx)]).map OtmCtx.device).Nodup
            rw [List.map_append]
            refine h.alone.append (List.nodup_singleton _) (List.disjoint_singleton.mpr fun hm => ?_)
            obtain ⟨o, ho, hoa⟩ := List.mem_map.mp hm
            exact ha dev hdev o ho hoa
  | serve i tls endpoint =>
    simp only [Net.step]
    split
    · exact ⟨n, rfl, h⟩
    · exact ⟨_, rfl, h⟩
  | fail i a =>
    simp only [Net.step]
    split
    · exact ⟨n, rfl, h⟩
    · split
      · exact ⟨_, rfl, h⟩
      · exact ⟨n, rfl, h⟩
  | respond i derive junk go =>
    simp only [Net.step]
    split
    · exact ⟨n, rfl, h⟩
    · next x hx =>
      obtain ⟨t', ht', hs⟩ := respond_sound u junk derive h x.1.userData
        x.2 go x.1.callback
      rw [ht']
      exact ⟨_, rfl, hs⟩
  | expire addr =>
    simp only [Net.step]
    split
    · next hm =>
      obtain ⟨o, ho, hoa⟩ := List.mem_map.mp (h.timed.timers.mem_iff.mp hm)
      have hf := Keyed.find_key h.timed.nodup ho
      rw [hoa] at hf
      obtain ⟨t', ht', hs⟩ := freeOtmCtx_sound h ho (-1)
      unfold freeOtmCtx at ht'
      rw [hoa] at ht'
      unfold otmRequestTimeoutCb
      rw [hf, Option.bind_some, ht']
      exact ⟨_, rfl, hs⟩
    · exact ⟨n, rfl, h⟩

theorem run_sound {n : Net} {steps : List Step} (h : n.tool.Sound) (ha : AllAlone pf u n steps) :
    ∃ n', run (Net.step pf u) n steps = some n' ∧ n'.tool.Sound := by
  induction steps generalizing n with
  | nil => exact ⟨n, rfl, h⟩
  | cons e l ih =>
    obtain ⟨m, hm, hs⟩ := step_sound pf u h ha.1
    obtain ⟨n', hr, hn⟩ := ih hs (ha.2 m hm)
    refine ⟨n', ?_, hn⟩
    rw [run_cons, hm]
    exact hr

variable (pf u) in
/-- the timer of an attempt: its device is freed -/
theorem step_expire {n : Net} (h : n.tool.Timed) (ho : o ∈ n.tool.otms) {dev : OcDevice}
    (hd : n.tool.device? o.device = some dev) : ∃ n', n.step pf u (.expire o.addr) = some n' ∧
      n'.tool.Timed ∧ n'.tool.device? o.device = none ∧
      n'.tool.otms = n.tool.otms.filter (·.addr ≠ o.addr) := by
  have hm : o.addr ∈ n.tool.timers := h.timers.mem_iff.mpr (List.mem_map_of_mem ho)
  have hda : dev.addr = o.device := by simpa using List.find?_some hd
  have hd' : ({ n.tool with timers := n.tool.timers.erase o.addr } : Tool).device? o.device =
      some dev := hd
  have he : ∃ t', freeOtmCtx n.tool o (-1) = some t' ∧ t'.device? o.device = none := by
    unfold freeOtmCtx freeOtmState
    rw [hd', Option.bind_some]
    refine ⟨_, rfl, ?_⟩
    refine List.find?_eq_none.mpr fun x hx => ?_
    have hne : x.addr ≠ dev.addr := by
      rcases List.mem_append.mp hx with hx | hx
      · exact of_decide_eq_true (List.mem_filter.mp hx).2
      · exact of_decide_eq_true (List.mem_filter.mp hx).2
    simpa [hda] using hne
  obtain ⟨t', ht', hnone⟩ := he
  have hend := freeOtmCtx_ended ht'
  refine ⟨{ n with tool := t' }, ?_, (hend.accounted h ho).1, hnone, hend.otms⟩
  simp only [Net.step]
  rw [if_pos hm]
  unfold otmRequestTimeoutCb
  rw [Keyed.find_key h.nodup ho, Option.bind_some]
  rw [show freeOtmState { n.tool with timers := n.tool.timers.erase o.addr } o (-1) = some t' from ht']
  rfl

variable (pf u) in
/-- the timer of an attempt whose device has been freed -/
theorem step_expire_none {n : Net} (h : n.tool.Timed) (ho : o ∈ n.tool.otms)
    (hd : n.tool.device? o.device = none) : n.step pf u (.expire o.addr) = none := by
  have hm : o.addr ∈ n.tool.timers := h.timers.mem_iff.mpr (List.mem_map_of_mem ho)
  simp only [Net.step]
  rw [if_pos hm]
  unfold otmRequestTimeoutCb freeOtmState
  rw [Keyed.find_key h.nodup ho, Option.bind_some]
  rw [show ({ n.tool with timers := n.tool.timers.erase o.addr } : Tool).device? o.device = none from hd]
  rfl

/-- two attempts for one device, and then two timers -/
theorem shared_fault {n n' : Net} {e : Step} (h : n.tool.Sound) (ha : ¬ Alone n e)
    (hb : begins n e ≠ []) (hs : n.step pf u e = some n') :
    ∃ l, run (Net.step pf u) n (e :: l) = none := by
  have ht := (step_accounted h.timed hs).1
  cases e with
  | start uuid cb addr go =>
    have hna := not_forall.mp ha
    obtain ⟨dev, hna⟩ := hna
    obtain ⟨hdev, hna⟩ := Classical.not_imp.mp hna
    obtain ⟨o, hna⟩ := not_forall.mp hna
    obtain ⟨ho, hoe⟩ := Classical.not_imp.mp hna
    have hoe : o.device = dev.addr := not_not.mp hoe
    have hfree : ¬ n.tool.otms.any (·.addr = addr) = true := by
      intro hc
      rw [begins, if_pos hc] at hb
      exact hb rfl
    simp only [Net.step] at hs
    rw [if_neg hfree] at hs
    rcases perform_cases (u := u) n.tool uuid cb addr go with he | ⟨dev', hdev', he⟩
    · rw [begins, if_neg hfree, he, if_neg (show ¬ (-1 : Int) = 0 by decide)] at hb
      exact absurd rfl hb
    cases hdev.symm.trans hdev'
    have hn' := hs
    rw [he] at hs
    cases hs
    -- the new attempt and the old one, with the device of both
    obtain ⟨x, -, -, hx⟩ := h.device ho
    have ho1 : o ∈ n.tool.otms ++ [(⟨addr, cb, dev.addr⟩ : OtmCtx)] := List.mem_append_left _ ho
    obtain ⟨m, hm, hmt, hmd, hmo⟩ := step_expire pf u (n := _) ht ho1 hx
    have ho2 : (⟨addr, cb, dev.addr⟩ : OtmCtx) ∈ m.tool.otms := by
      rw [hmo]
      refine List.mem_filter.mpr ⟨List.mem_append_right _ (List.mem_singleton.mpr rfl), ?_⟩
      refine decide_eq_true fun hc => hfree (List.any_eq_true.mpr ⟨o, ho, decide_eq_true hc.symm⟩)
    have hf := step_expire_none pf u hmt ho2 (hoe ▸ hmd)
    refine ⟨[.expire o.addr, .expire addr], ?_⟩
    rw [run_cons]
    simp only [Net.step]
    rw [if_neg hfree, hn', Option.bind_some, run_cons, hm, Option.bind_some, run_cons]
    rw [show m.step pf u (.expire addr) = none from hf]
    rfl
  | _ => exact absurd trivial ha

theorem initial_sound (pf : Platform) (creds : List Cred) (id : Int) :
    (Net.initial pf creds id).tool.Sound :=
  ⟨List.nodup_nil, fun _ ho => absurd ho List.not_mem_nil, List.nodup_nil, List.nodup_nil,
    List.Perm.refl _⟩

end Obt
