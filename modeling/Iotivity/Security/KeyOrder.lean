import Iotivity.Lib.Last
import Iotivity.Security.Handle

/-!
# The order of the keys of a pstat payload

`oc_sec_decode_pstat` applies a property after the other to a copy of the status.  Three things make
the order count: whether `rowneruuid` may be set is decided by the state of the copy, which a `dos` in
front of it has changed; and `tm` and `om` are compared by their first two characters, so several keys
may set one of them and the last one wins.

* `decodePstat_eq`             what a payload comes to: refused, or the draft of its properties;
* `decodePstat_orderFree_iff`  every order of a payload has the same effect iff the payload is
                               refused anyway, or these three cannot be told apart.
-/

namespace Security
open Last

variable {pf : Platform} {s : State} {d : Nat}

/-! ## orders -/

/-- the same property, but for the order of the members of an object -/
def SameProp (a b : Rep) : Prop :=
  a = b ∨ ∃ name o o', a = .mk name (.object o) ∧ b = .mk name (.object o') ∧ o.Perm o'

/-- the same properties in another order, at top level and inside an object -/
def Reordered (p q : List Rep) : Prop := ∃ p', p.Perm p' ∧ List.Forall₂ SameProp p' q

/-- no key twice, at top level and inside an object -/
def DistinctKeys (p : List Rep) : Prop :=
  (p.map Rep.name).Nodup ∧ ∀ rep ∈ p, ∀ o, rep.value = .object o → (o.map Rep.name).Nodup

/-! ## what a property brings -/

/-- the state that a member of `dos` asks for -/
def dosState (dos : Rep) : Option Dos :=
  match dos.value with
  | .int n => if dos.named "s" then some (Dos.ofInt n) else none
  | _ => none

/-- a member of `dos` that is refused -/
def dosRefused (dos : Rep) : Bool :=
  match dos.value with
  | .int _ => !dos.named "s"
  | _ => dos.named "p"

def propState (rep : Rep) : Option Dos :=
  match rep.value with
  | .object dos => if rep.named "dos" then last dosState dos else none
  | _ => none

def propTm (rep : Rep) : Option Int :=
  match rep.value with
  | .int n => if startsWith rep "tm" then some n else none
  | _ => none

def propOm (rep : Rep) : Option Int :=
  match rep.value with
  | .int n => if startsWith rep "om" then some n else none
  | _ => none

def propOwner (rep : Rep) : Option Bytes :=
  match rep.value with
  | .string u => if rep.named "rowneruuid" then some u else none
  | _ => none

/-- a property that is refused wherever it stands -/
def propRefused (rep : Rep) : Bool :=
  match rep.value with
  | .object dos => !rep.named "dos" || dos.any dosRefused
  | .bool _ => true
  | .int _ => !(startsWith rep "tm" || startsWith rep "om")
  | .string _ => !rep.named "rowneruuid"
  | _ => !(rep.named "rt" || rep.named "if")

/-- the states in which `rowneruuid` is refused -/
def Dos.busy (n : Dos) : Bool := n = .rfpro ∨ n = .rfnop

/-- a draft with the state that is asked for -/
def PstatDraft.ask (x : PstatDraft) (n : Option Dos) : PstatDraft :=
  ⟨{ x.ps with s := n.getD x.ps.s }, x.transition || n.isSome⟩

/-- a draft after a property that is not refused -/
def PstatDraft.apply (x : PstatDraft) (rep : Rep) : PstatDraft :=
  ⟨{ x.ps with
      s := (propState rep).getD x.ps.s
      tm := (propTm rep).getD x.ps.tm
      om := (propOm rep).getD x.ps.om
      rowneruuid := (propOwner rep).elim x.ps.rowneruuid (ocStrToUuid · x.ps.rowneruuid) },
    x.transition || (propState rep).isSome⟩

theorem decodeDos_eq (x : PstatDraft) (dos : Rep) :
    decodeDos false x dos = if dosRefused dos then none else some (x.ask (dosState dos)) := by
  unfold decodeDos dosRefused dosState
  cases dos.value with
  | int n => cases hn : dos.named "s" <;> simp [PstatDraft.ask]
  | _ => cases hn : dos.named "p" <;> simp [PstatDraft.ask]

theorem foldlM_dos (x : PstatDraft) (o : List Rep) :
    o.foldlM (decodeDos false) x =
      if o.any dosRefused then none else some (x.ask (last dosState o)) := by
  induction o generalizing x with
  | nil => simp [PstatDraft.ask, last]
  | cons dos o ih =>
    rw [List.foldlM_cons, decodeDos_eq, List.any_cons]
    cases dosRefused dos with
    | true => rfl
    | false =>
      refine (ih (x.ask (dosState dos))).trans ?_
      rw [Bool.false_or]
      refine if_congr Iff.rfl rfl (congrArg some ?_)
      rw [last_cons]
      unfold PstatDraft.ask
      rw [or_getD]
      cases last dosState o <;> cases dosState dos <;> simp

theorem startsWith_tm_om {rep : Rep} (h : startsWith rep "tm" = true) : startsWith rep "om" = false := by
  have ht : rep.name.take 2 = ascii "tm" := of_decide_eq_true h
  unfold startsWith
  rw [ht]
  decide

theorem decodePstatProp_eq (x : PstatDraft) (rep : Rep) :
    decodePstatProp false x rep =
      if propRefused rep ∨ ((propOwner rep).isSome ∧ x.ps.s.busy) then none
      else some (x.apply rep) := by
  unfold decodePstatProp propRefused PstatDraft.apply propState propTm propOm propOwner
  cases rep.value with
  | object dos =>
    cases hn : rep.named "dos" with
    | false => simp
    | true =>
      dsimp only
      rw [if_pos rfl, foldlM_dos]
      by_cases hd : dos.any dosRefused = true
      · simp [hd]
      · simp [hd, PstatDraft.ask]
  | int n =>
    cases ht : startsWith rep "tm" with
    | true => simp [startsWith_tm_om ht]
    | false => cases ho : startsWith rep "om" <;> simp
  | string u =>
    cases hn : rep.named "rowneruuid" with
    | false => simp
    | true => cases hs : x.ps.s <;> simp [Dos.busy, hs]
  | bool b => simp
  | _ => cases h₁ : rep.named "rt" <;> cases h₂ : rep.named "if" <;> simp

/-! ## what a payload brings -/

/-- a `rowneruuid` meets a state of the copy in which it is refused -/
def blocked : Dos → List Rep → Bool
  | _, [] => false
  | n, rep :: l => (propOwner rep).isSome && n.busy || blocked ((propState rep).getD n) l

/-- the state that a payload asks for -/
def asked (p : List Rep) : Option Dos := last propState p

/-- the owner that a payload brings -/
def owner (p : List Rep) : Option Bytes := last propOwner p

/-- `rowneruuid` after a payload -/
def newOwner (p : List Rep) (u : Uuid) : Uuid := (owner p).elim u (ocStrToUuid · u)

/-- the draft of a payload that is not refused -/
def draft (ps : Pstat) (p : List Rep) : PstatDraft :=
  ⟨{ ps with
      s := (asked p).getD ps.s
      tm := (last propTm p).getD ps.tm
      om := (last propOm p).getD ps.om
      rowneruuid := newOwner p ps.rowneruuid }, (asked p).isSome⟩

theorem foldlM_props (x : PstatDraft) (p : List Rep) :
    p.foldlM (decodePstatProp false) x =
      if p.any propRefused || blocked x.ps.s p then none else some (p.foldl PstatDraft.apply x) := by
  induction p generalizing x with
  | nil => simp [blocked]
  | cons rep p ih =>
    rw [List.foldlM_cons, decodePstatProp_eq, List.any_cons, List.foldl_cons, blocked]
    cases hr : propRefused rep with
    | true => simp
    | false =>
      cases ho : (propOwner rep).isSome && x.ps.s.busy with
      | true => simp_all
      | false =>
        rw [if_neg (by simpa using ho)]
        refine (ih (x.apply rep)).trans ?_
        simp [PstatDraft.apply]

/-- what is found only under a key -/
theorem name_of_ite {β : Type} {rep : Rep} {key : String} {x : Option β} {y : β}
    (h : (if rep.named key then x else none) = some y) : rep.name = ascii key := by
  split at h
  · next hn => exact eq_of_beq hn
  · cases h

theorem propOwner_name {rep : Rep} {u : Bytes} (h : propOwner rep = some u) :
    rep.name = ascii "rowneruuid" := by
  unfold propOwner at h
  split at h
  · exact name_of_ite h
  · cases h

theorem propState_name {rep : Rep} {n : Dos} (h : propState rep = some n) :
    rep.name = ascii "dos" := by
  unfold propState at h
  split at h
  · exact name_of_ite h
  · cases h

theorem dosState_name {rep : Rep} {n : Dos} (h : dosState rep = some n) : rep.name = ascii "s" := by
  unfold dosState at h
  split at h
  · exact name_of_ite h
  · cases h

/-- there is one `rowneruuid` at most, so its text is read on top of the stored one -/
theorem foldl_owner {p : List Rep} (hn : (p.map Rep.name).Nodup) (u : Uuid) :
    p.foldl (fun u rep => (propOwner rep).elim u (ocStrToUuid · u)) u = newOwner p u := by
  induction p generalizing u with
  | nil => rfl
  | cons rep p ih =>
    obtain ⟨hnot, hn⟩ := List.nodup_cons.mp hn
    rw [List.foldl_cons, ih hn]
    unfold newOwner owner
    rw [last_cons]
    cases ho : propOwner rep with
    | none => rw [Option.or_none]; rfl
    | some t =>
      have hrest : last propOwner p = none := by
        rw [last_eq_none]
        intro a ha
        by_contra hne
        obtain ⟨v, hv⟩ := Option.ne_none_iff_exists'.mp hne
        exact hnot (List.mem_map.mpr ⟨a, ha, (propOwner_name hv).trans (propOwner_name ho).symm⟩)
      rw [hrest]
      rfl

theorem foldl_apply (x : PstatDraft) (p : List Rep) :
    p.foldl PstatDraft.apply x =
      ⟨{ x.ps with
          s := (asked p).getD x.ps.s
          tm := (last propTm p).getD x.ps.tm
          om := (last propOm p).getD x.ps.om
          rowneruuid :=
            p.foldl (fun u rep => (propOwner rep).elim u (ocStrToUuid · u)) x.ps.rowneruuid },
        x.transition || (asked p).isSome⟩ := by
  induction p generalizing x with
  | nil => simp [asked, last]
  | cons rep p ih =>
    rw [List.foldl_cons, ih, List.foldl_cons]
    unfold PstatDraft.apply asked
    rw [last_cons, last_cons, last_cons, or_getD, or_getD, or_getD]
    cases last propState p <;> cases propState rep <;> simp

/-! ## what follows the loop -/

/-- `oc_sec_decode_pstat` behind its loop -/
def finish (pf : Platform) (s : State) (device : Nat) (x : PstatDraft) : Bool × State :=
  if validTransition (s.device device).pstat.s x.ps.s then
    if x.transition then
      let r := ocPstatHandleState pf s device x.ps
      if r.1 ∧ r.2.1.s = .rfnop ∧ r.2.2.setPostOtmAcl then (r.1, postOtm r.2.2 device) else (r.1, r.2.2)
    else (true, s.put device { s.device device with pstat := x.ps })
  else (false, s)

/-- what a payload comes to -/
theorem decodePstat_eq (pf : Platform) (s : State) (d : Nat) {p : List Rep}
    (hn : (p.map Rep.name).Nodup) :
    ocSecDecodePstat pf s p false d =
      if p.any propRefused || blocked (s.device d).pstat.s p then (false, s)
      else finish pf s d (draft (s.device d).pstat p) := by
  unfold ocSecDecodePstat
  rw [foldlM_props, foldl_apply, foldl_owner hn]
  split
  · next h =>
    split at h
    · next hc => rw [if_pos hc]
    · cases h
  · next x h =>
    split at h
    · cases h
    · next hc =>
      rw [if_neg hc, ← Option.some.inj h]
      simp only [Bool.false_eq_true, false_or, not_false_eq_true, true_and, Bool.false_or]
      rfl

/-- the transition to a state is carried out, with this `rowneruuid` of pstat -/
def Carried (dev : Device) (rowneruuid : Uuid) : Dos → Prop
  | .reset => True
  | .rfotm => dev.Unowned ∧ dev.pstat.isop = false
  | .other _ => False
  | .rfpro | .rfnop | .sreset => provisioned dev { dev.pstat with rowneruuid := rowneruuid } = true

/-- what the handler makes of a status that differs from the stored one in these fields -/
theorem handle_carried (pf : Platform) (tm om : Int) {n : Dos} {u : Uuid} (h : Carried (s.device d) u n) :
    ∃ ps s', ocPstatHandleState pf s d
        { (s.device d).pstat with s := n, tm := tm, om := om, rowneruuid := u } = (true, ps, s') ∧
      (n ≠ .reset → (s'.device d).pstat.om = om) := by
  cases n with
  | reset => exact ⟨_, _, handle_reset rfl, fun hn => absurd rfl hn⟩
  | rfotm =>
    refine ⟨_, _, handleRfotm_ok h.1 h.2, fun _ => ?_⟩
    rw [State.put_device]
  | other n => exact absurd h id
  | rfpro | rfnop | sreset =>
    refine ⟨_, _, if_pos h, fun _ => ?_⟩
    rw [State.put_device]

theorem handle_refused (pf : Platform) (tm om : Int) {n : Dos} {u : Uuid} (h : ¬ Carried (s.device d) u n) :
    ∃ ps, ocPstatHandleState pf s d
      { (s.device d).pstat with s := n, tm := tm, om := om, rowneruuid := u } = (false, ps, s) := by
  cases n with
  | reset => exact absurd trivial h
  | rfotm =>
    refine ⟨_, if_pos ?_⟩
    by_contra hc
    obtain ⟨h1, h2, h3⟩ := by simpa only [not_or, Decidable.not_not] using hc
    exact h ⟨⟨Bool.eq_false_iff.mpr h1, (nilUuid_iff _).mp h2⟩, Bool.eq_false_iff.mpr h3⟩
  | other n => exact ⟨_, rfl⟩
  | rfpro | rfnop | sreset => exact ⟨_, if_neg h⟩

/-- no transition forgets to set `tm`, and a RESET sets `om` -/
theorem handle_blind (pf : Platform) (tm tm' : Int) {om om' : Int} {n : Dos} {u : Uuid}
    (h : Carried (s.device d) u n) (ho : n = .reset ∨ om = om') :
    ocPstatHandleState pf s d { (s.device d).pstat with s := n, tm := tm, om := om, rowneruuid := u } =
      ocPstatHandleState pf s d
        { (s.device d).pstat with s := n, tm := tm', om := om', rowneruuid := u } := by
  cases n with
  | reset => rfl
  | rfotm =>
    rw [ho.resolve_left (fun e => nomatch e)]
    rfl
  | other n => exact absurd h id
  | rfpro | rfnop | sreset =>
    rw [ho.resolve_left (fun e => nomatch e)]
    rfl

section
variable {x : PstatDraft} {n : Dos} {tm om : Int} {u : Uuid}
  (hx : x = ⟨{ (s.device d).pstat with s := n, tm := tm, om := om, rowneruuid := u }, true⟩)
include hx

theorem finish_carried (hv : validTransition (s.device d).pstat.s n = true)
    (h : Carried (s.device d) u n) :
    ∃ s', finish pf s d x = (true, s') ∧ (n ≠ .reset → (s'.device d).pstat.om = om) := by
  obtain ⟨ps, s', hh, ho⟩ := handle_carried pf tm om h
  subst hx
  rw [finish, if_pos hv, if_pos rfl, hh]
  dsimp only
  split
  · refine ⟨_, rfl, fun hn => ?_⟩
    rw [postOtm]
    show ((s'.put d _).device d).pstat.om = om
    rw [State.put_device]
    exact ho hn
  · exact ⟨_, rfl, ho⟩

theorem finish_refused (h : ¬ (validTransition (s.device d).pstat.s n = true ∧ Carried (s.device d) u n)) :
    finish pf s d x = (false, s) := by
  subst hx
  rw [finish]
  split
  · next hv =>
    obtain ⟨ps, hh⟩ := handle_refused pf tm om fun hc => h ⟨hv, hc⟩
    rw [if_pos rfl, hh]
    rfl
  · rfl

theorem finish_blind (tm' : Int) {om' : Int} (h : Carried (s.device d) u n)
    (ho : n = .reset ∨ om = om') :
    finish pf s d x = finish pf s d
      ⟨{ (s.device d).pstat with s := n, tm := tm', om := om', rowneruuid := u }, true⟩ := by
  subst hx
  unfold finish
  dsimp only
  rw [if_pos rfl, if_pos rfl, handle_blind pf tm tm' h ho]

end

theorem validTransition_self (n : Dos) : validTransition n n = true := by
  cases n <;> rfl

/-- without a `dos` the copy is stored -/
theorem finish_stored {x : PstatDraft} (hs : x.ps.s = (s.device d).pstat.s) (ht : x.transition = false) :
    finish pf s d x = (true, s.put d { s.device d with pstat := x.ps }) := by
  rw [finish, hs, if_pos (validTransition_self _), ht, if_neg Bool.false_ne_true]

/-! ## where a `rowneruuid` is refused -/

theorem blocked_of_no_owner {p : List Rep} (h : owner p = none) (n : Dos) : blocked n p = false := by
  induction p generalizing n with
  | nil => rfl
  | cons rep p ih =>
    have hall := (last_eq_none propOwner).mp h
    rw [blocked, hall rep List.mem_cons_self]
    exact ih ((last_eq_none propOwner).mpr fun a ha => hall a (List.mem_cons_of_mem rep ha)) _

/-- where the states that are asked for are all busy, or all are not, the order does not count -/
theorem blocked_const {p : List Rep} {n : Dos}
    (h : ∀ rep ∈ p, ∀ m, propState rep = some m → m.busy = n.busy) :
    blocked n p = ((owner p).isSome && n.busy) := by
  induction p generalizing n with
  | nil => rfl
  | cons rep p ih =>
    have hn : ((propState rep).getD n).busy = n.busy := by
      cases hs : propState rep with
      | none => rfl
      | some m => exact h rep List.mem_cons_self m hs
    have hrest := ih (n := (propState rep).getD n) fun a ha m hm =>
      (h a (List.mem_cons_of_mem rep ha) m hm).trans hn.symm
    rw [blocked, hrest, hn]
    unfold owner
    rw [last_cons]
    cases last propOwner p <;> cases propOwner rep <;> simp

section
variable {p p' : List Rep} (hn : (p.map Rep.name).Nodup)
include hn

theorem agree_state : Agree propState p :=
  agree_of_key Rep.name hn fun _ _ h => propState_name h

theorem agree_owner : Agree propOwner p :=
  agree_of_key Rep.name hn fun _ _ h => propOwner_name h

/-- a payload that asks for one state -/
theorem asked_unique {n : Dos} (ha : asked p = some n) :
    ∀ rep ∈ p, ∀ m, propState rep = some m → m = n := fun rep hr m hm => by
  have hl : asked p = some m := (agree_state hn).last hr hm
  rw [ha] at hl
  exact (Option.some.inj hl).symm

variable (hp : p.Perm p')
include hp

theorem asked_perm : asked p' = asked p := last_perm hp (agree_state hn)

theorem owner_perm : owner p' = owner p := last_perm hp (agree_owner hn)

theorem newOwner_perm (u : Uuid) : newOwner p' u = newOwner p u := by
  unfold newOwner
  rw [owner_perm hn hp]

end

theorem any_perm {α : Type} {f : α → Bool} {p p' : List α} (hp : p.Perm p') : p'.any f = p.any f := by
  rw [Bool.eq_iff_iff, List.any_eq_true, List.any_eq_true]
  exact exists_congr fun a => and_congr_left fun _ => hp.mem_iff.symm

/-- `rowneruuid` in front of `dos`, and the other way round -/
theorem exists_orders {p : List Rep} {n : Dos} (ho : owner p ≠ none) (ha : asked p = some n) :
    ∃ o t rest, p.Perm (o :: t :: rest) ∧ propOwner o ≠ none ∧ propState t = some n := by
  obtain ⟨u, hu⟩ := Option.ne_none_iff_exists'.mp ho
  obtain ⟨o, hm, hou⟩ := exists_of_last hu
  obtain ⟨t, ht, htn⟩ := exists_of_last ha
  obtain ⟨l, r, rfl⟩ := List.append_of_mem hm
  have hp₁ : (l ++ o :: r).Perm (o :: (l ++ r)) := List.perm_middle
  have hne : t ≠ o := by
    rintro rfl
    exact absurd ((propOwner_name hou).symm.trans (propState_name htn)) (by decide)
  have ht' : t ∈ l ++ r := (List.mem_cons.mp (hp₁.mem_iff.mp ht)).resolve_left hne
  obtain ⟨l₂, r₂, he⟩ := List.append_of_mem ht'
  refine ⟨o, t, l₂ ++ r₂, hp₁.trans ?_, by rw [hou]; exact Option.some_ne_none u, htn⟩
  rw [he]
  exact List.Perm.cons o List.perm_middle

/-- a `rowneruuid` that the stored state refuses and the new one does not, or the other way round, is
refused in one order and not in another -/
theorem exists_blocked {p : List Rep} (hn : (p.map Rep.name).Nodup) {n m : Dos} (ho : owner p ≠ none)
    (ha : asked p = some n) (hb : m.busy ≠ n.busy) :
    (∃ p', p.Perm p' ∧ blocked m p' = true) ∧ ∃ p', p.Perm p' ∧ blocked m p' = false := by
  obtain ⟨o, t, rest, hp, hoo, htn⟩ := exists_orders ho ha
  have hswap : p.Perm (t :: o :: rest) := hp.trans (List.Perm.swap t o rest)
  obtain ⟨u, hu⟩ := Option.ne_none_iff_exists'.mp hoo
  have hto : propOwner t = none := by
    by_contra hne
    obtain ⟨v, hv⟩ := Option.ne_none_iff_exists'.mp hne
    exact absurd ((propOwner_name hv).symm.trans (propState_name htn)) (by decide)
  have hos : propState o = none := by
    by_contra hne
    obtain ⟨v, hv⟩ := Option.ne_none_iff_exists'.mp hne
    exact absurd ((propOwner_name hu).symm.trans (propState_name hv)) (by decide)
  have hfirst : blocked m (o :: t :: rest) = (m.busy || blocked m (t :: rest)) := by
    rw [blocked, hu, hos]
    rfl
  have hlast : blocked m (t :: o :: rest) = (n.busy || blocked n rest) := by
    rw [blocked, hto, htn, blocked, hu, hos]
    rfl
  have hnd : ((o :: t :: rest).map Rep.name).Nodup := (hp.map Rep.name).nodup_iff.mp hn
  cases hm : m.busy with
  | true =>
    have hnb : n.busy = false := by
      rw [hm] at hb
      exact Bool.eq_false_iff.mpr (Ne.symm hb)
    refine ⟨⟨_, hp, by rw [hfirst, hm]; rfl⟩, _, hswap, ?_⟩
    have hidle : blocked n rest = ((owner rest).isSome && n.busy) :=
      blocked_const fun rep hr k hk => by
        rw [asked_unique hnd ((asked_perm hn hp).trans ha) rep
          (List.mem_cons_of_mem o (List.mem_cons_of_mem t hr)) k hk]
    rw [hlast, hidle, hnb, Bool.and_false]
    rfl
  | false =>
    have hnb : n.busy = true := by
      rw [hm] at hb
      exact Bool.eq_true_of_not_eq_false (Ne.symm hb)
    refine ⟨⟨_, hswap, by rw [hlast, hnb]; rfl⟩, _, hp, ?_⟩
    have hrest : owner (t :: rest) = none := by
      rw [owner, last_eq_none]
      intro a haa
      by_contra hne
      obtain ⟨v, hv⟩ := Option.ne_none_iff_exists'.mp hne
      refine (List.nodup_cons.mp hnd).1 (List.mem_map.mpr ⟨a, haa, ?_⟩)
      exact (propOwner_name hv).trans (propOwner_name hu).symm
    rw [hfirst, hm, blocked_of_no_owner hrest]
    rfl

/-! ## the payloads whose order does not count -/

/-- every order of a payload has the same effect on a device: it is refused anyway, because of a
property or because `rowneruuid` may be set in neither state; or it brings no two values for what it
changes, and may bring `rowneruuid` in both states -/
def OrderFree (dev : Device) (p : List Rep) : Prop :=
  p.any propRefused = true ∨
  (owner p ≠ none ∧ dev.pstat.s.busy = true ∧ ((asked p).getD dev.pstat.s).busy = true) ∨
  match asked p with
  | none => Agree propTm p ∧ Agree propOm p
  | some n =>
    ¬ (validTransition dev.pstat.s n = true ∧ Carried dev (newOwner p dev.pstat.rowneruuid) n) ∨
      (owner p = none ∨ dev.pstat.s.busy = false ∧ n.busy = false) ∧ (n = .reset ∨ Agree propOm p)

theorem draft_of_asked {ps : Pstat} {p : List Rep} {n : Dos} (ha : asked p = some n) :
    draft ps p = ⟨{ ps with
      s := n
      tm := (last propTm p).getD ps.tm
      om := (last propOm p).getD ps.om
      rowneruuid := newOwner p ps.rowneruuid }, true⟩ := by
  rw [draft, ha]
  rfl

section
variable {p : List Rep} (hn : (p.map Rep.name).Nodup)
include hn

/-- a `rowneruuid` that is refused in both states is refused in every order -/
theorem blocked_iff_of_same {m n : Dos} (hs : n.busy = m.busy) (ha : (asked p).getD m = n)
    {p' : List Rep} (hp : p.Perm p') : blocked m p' = ((owner p).isSome && m.busy) := by
  have hn' : (p'.map Rep.name).Nodup := (hp.map Rep.name).nodup_iff.mp hn
  rw [← owner_perm hn hp]
  refine blocked_const fun rep hr k hk => ?_
  have hl : asked p = some k := (asked_perm hn hp).symm.trans ((agree_state hn').last hr hk)
  rw [hl] at ha
  rw [← hs, ← ha]
  rfl

/-- no order is refused for a `rowneruuid` that may be set in both states -/
theorem unblocked {m n : Dos} (ha : asked p = some n)
    (hfree : owner p = none ∨ m.busy = false ∧ n.busy = false) {p' : List Rep} (hp : p.Perm p') :
    blocked m p' = false := by
  rcases hfree with ho | ⟨hs, hnb⟩
  · exact blocked_of_no_owner ((owner_perm hn hp).trans ho) _
  · rw [blocked_iff_of_same hn (hnb.trans hs.symm) (by rw [ha]; rfl) hp, hs, Bool.and_false]

section
variable (hr : p.any propRefused = false)
include hr

/-- what an order comes to when `rowneruuid` is not refused in it -/
theorem decode_unblocked {p' : List Rep} (hp : p.Perm p')
    (hbl : blocked (s.device d).pstat.s p' = false) :
    ocSecDecodePstat pf s p' false d = finish pf s d (draft (s.device d).pstat p') := by
  have hn' := (hp.map Rep.name).nodup_iff.mp hn
  rw [decodePstat_eq pf s d hn', any_perm hp, hbl, hr, Bool.or_false, if_neg Bool.false_ne_true]

/-- without a `dos` an order is refused only if all are -/
theorem decode_stored (ha : asked p = none)
    (hb : ¬ (owner p ≠ none ∧ (s.device d).pstat.s.busy = true)) {p' : List Rep} (hp : p.Perm p') :
    ocSecDecodePstat pf s p' false d =
      (true, s.put d { s.device d with pstat := (draft (s.device d).pstat p').ps }) := by
  have ha' := (asked_perm hn hp).trans ha
  have hbl : blocked (s.device d).pstat.s p' = false := by
    rw [blocked_iff_of_same hn rfl (by rw [ha]; rfl) hp]
    by_contra hne
    obtain ⟨ho, hs⟩ := (Bool.and_eq_true _ _).mp (Bool.eq_true_of_not_eq_false hne)
    exact hb ⟨Option.isSome_iff_ne_none.mp ho, hs⟩
  rw [decode_unblocked hn hr hp hbl]
  exact finish_stored (by simp [draft, ha']) (by simp [draft, ha'])

theorem agree_of_stored (ha : asked p = none)
    (hb : ¬ (owner p ≠ none ∧ (s.device d).pstat.s.busy = true))
    (h : ∀ p', p.Perm p' → ocSecDecodePstat pf s p' false d = ocSecDecodePstat pf s p false d) :
    Agree propTm p ∧ Agree propOm p := by
  have hps : ∀ p', p.Perm p' →
      (draft (s.device d).pstat p').ps = (draft (s.device d).pstat p).ps := by
    intro p' hp
    have he := congrArg (fun r => (r.2.device d).pstat) (h p' hp)
    rw [decode_stored hn hr ha hb hp, decode_stored hn hr ha hb (List.Perm.refl p)] at he
    simpa only [State.put_device] using he
  exact ⟨agree_of_getD _ fun p' hp => congrArg Pstat.tm (hps p' hp),
    agree_of_getD _ fun p' hp => congrArg Pstat.om (hps p' hp)⟩

variable {n : Dos} (ha : asked p = some n) (hv : validTransition (s.device d).pstat.s n = true)
  (hc : Carried (s.device d) (newOwner p (s.device d).pstat.rowneruuid) n)
include ha hv hc

theorem decode_carried {p' : List Rep} (hp : p.Perm p')
    (hbl : blocked (s.device d).pstat.s p' = false) :
    ∃ s', ocSecDecodePstat pf s p' false d = (true, s') ∧
      (n ≠ .reset → (s'.device d).pstat.om = (last propOm p').getD (s.device d).pstat.om) := by
  rw [decode_unblocked hn hr hp hbl, draft_of_asked ((asked_perm hn hp).trans ha),
    newOwner_perm hn hp]
  exact finish_carried rfl hv hc

/-- a `rowneruuid` that only one of the two states refuses is refused in one order, and accepted in
another -/
theorem free_of_carried (hb : ¬ (owner p ≠ none ∧ (s.device d).pstat.s.busy = true ∧ n.busy = true))
    (h : ∀ p', p.Perm p' → ocSecDecodePstat pf s p' false d = ocSecDecodePstat pf s p false d) :
    owner p = none ∨ (s.device d).pstat.s.busy = false ∧ n.busy = false := by
  by_contra hno
  obtain ⟨ho, hbusy⟩ := not_or.mp hno
  have hne : (s.device d).pstat.s.busy ≠ n.busy := by
    intro he
    cases hn : n.busy with
    | true => exact hb ⟨ho, he.trans hn, hn⟩
    | false => exact hbusy ⟨he.trans hn, hn⟩
  obtain ⟨⟨p₁, hp₁, hb₁⟩, p₂, hp₂, hb₂⟩ := exists_blocked hn ho ha hne
  have h₁ : ocSecDecodePstat pf s p₁ false d = (false, s) := by
    rw [decodePstat_eq pf s d ((hp₁.map Rep.name).nodup_iff.mp hn), hb₁, Bool.or_true, if_pos rfl]
  obtain ⟨s', h₂, -⟩ := decode_carried hn hr ha hv hc hp₂ hb₂
  have he := congrArg Prod.fst ((h p₁ hp₁).trans (h p₂ hp₂).symm)
  rw [h₁, h₂] at he
  cases he

/-- the stored `om` is that of the last key for it -/
theorem agree_of_carried (hfree : owner p = none ∨ (s.device d).pstat.s.busy = false ∧ n.busy = false)
    (hreset : n ≠ .reset)
    (h : ∀ p', p.Perm p' → ocSecDecodePstat pf s p' false d = ocSecDecodePstat pf s p false d) :
    Agree propOm p := by
  refine agree_of_getD (s.device d).pstat.om fun p' hp => ?_
  obtain ⟨s₁, hs₁, ho₁⟩ := decode_carried hn hr ha hv hc hp (unblocked hn ha hfree hp)
  have hp₀ := List.Perm.refl p
  obtain ⟨s₂, hs₂, ho₂⟩ := decode_carried hn hr ha hv hc hp₀ (unblocked hn ha hfree hp₀)
  have he := h p' hp
  rw [hs₁, hs₂] at he
  rw [← ho₁ hreset, ← ho₂ hreset, (Prod.mk.inj he).2]

end

theorem orderFree_of_perm (h : ∀ p', p.Perm p' →
      ocSecDecodePstat pf s p' false d = ocSecDecodePstat pf s p false d) :
    OrderFree (s.device d) p := by
  by_cases hr : p.any propRefused = true
  · exact Or.inl hr
  by_cases hb : owner p ≠ none ∧ (s.device d).pstat.s.busy = true ∧
      ((asked p).getD (s.device d).pstat.s).busy = true
  · exact Or.inr (Or.inl hb)
  refine Or.inr (Or.inr ?_)
  have hr := Bool.eq_false_iff.mpr hr
  cases ha : asked p with
  | none =>
    rw [ha] at hb
    exact agree_of_stored hn hr ha (fun hc => hb ⟨hc.1, hc.2, hc.2⟩) h
  | some n =>
    rw [ha] at hb
    by_cases hvc : validTransition (s.device d).pstat.s n = true ∧
        Carried (s.device d) (newOwner p (s.device d).pstat.rowneruuid) n
    · have hfree := free_of_carried hn hr ha hvc.1 hvc.2 hb h
      refine Or.inr ⟨hfree, ?_⟩
      by_cases hreset : n = .reset
      · exact Or.inl hreset
      · exact Or.inr (agree_of_carried hn hr ha hvc.1 hvc.2 hfree hreset h)
    · exact Or.inl hvc

theorem perm_of_orderFree (h : OrderFree (s.device d) p) {p' : List Rep} (hp : p.Perm p') :
    ocSecDecodePstat pf s p' false d = ocSecDecodePstat pf s p false d := by
  have hn' := (hp.map Rep.name).nodup_iff.mp hn
  rw [decodePstat_eq pf s d hn', decodePstat_eq pf s d hn, any_perm hp]
  rcases h with hr | ⟨ho, hs, hb⟩ | h
  · rw [hr]
    rfl
  · have hbl : ∀ p', p.Perm p' → blocked (s.device d).pstat.s p' = true := by
      intro p' hp
      rw [blocked_iff_of_same hn (hb.trans hs.symm) rfl hp, hs, Bool.and_true]
      exact Option.isSome_iff_ne_none.mpr ho
    rw [hbl p' hp, hbl p (List.Perm.refl p), Bool.or_true]
    rfl
  · cases ha : asked p with
    | none =>
      rw [ha] at h
      have hbl : ∀ p', p.Perm p' → blocked (s.device d).pstat.s p' =
          ((owner p).isSome && (s.device d).pstat.s.busy) := fun p' hp =>
        blocked_iff_of_same hn rfl (by rw [ha]; rfl) hp
      have hdraft : draft (s.device d).pstat p' = draft (s.device d).pstat p := by
        unfold draft
        rw [asked_perm hn hp, newOwner_perm hn hp, last_perm hp h.1, last_perm hp h.2]
      rw [hbl p' hp, hbl p (List.Perm.refl p), hdraft]
    | some n =>
      rw [ha] at h
      rw [draft_of_asked ((asked_perm hn hp).trans ha), draft_of_asked ha, newOwner_perm hn hp]
      by_cases hvc : validTransition (s.device d).pstat.s n = true ∧
          Carried (s.device d) (newOwner p (s.device d).pstat.rowneruuid) n
      · obtain ⟨hfree, hom⟩ := h.resolve_left fun hc => hc hvc
        rw [unblocked hn ha hfree hp, unblocked hn ha hfree (List.Perm.refl p)]
        rw [finish_blind rfl _ hvc.2 (hom.imp id fun hg => by rw [last_perm hp hg])]
      · rw [finish_refused rfl hvc, finish_refused rfl hvc]
        simp

end

/-! ## the order inside an object -/

theorem decodePstatProp_same {a b : Rep} (h : SameProp a b)
    (hn : ∀ o, a.value = .object o → (o.map Rep.name).Nodup) (x : PstatDraft) :
    decodePstatProp false x b = decodePstatProp false x a := by
  rcases h with rfl | ⟨name, o, o', rfl, rfl, hp⟩
  · rfl
  · have ha : Agree dosState o := agree_of_key Rep.name (hn o rfl) fun _ _ h => dosState_name h
    show (if _ then o'.foldlM (decodeDos false) x else none) =
      if _ then o.foldlM (decodeDos false) x else none
    rw [foldlM_dos, foldlM_dos, any_perm hp, last_perm hp ha]
    rfl

theorem foldlM_same {p q : List Rep} (h : List.Forall₂ SameProp p q)
    (hn : ∀ rep ∈ p, ∀ o, rep.value = .object o → (o.map Rep.name).Nodup) (x : PstatDraft) :
    q.foldlM (decodePstatProp false) x = p.foldlM (decodePstatProp false) x := by
  induction h generalizing x with
  | nil => rfl
  | cons hab _ ih =>
    rw [List.foldlM_cons, List.foldlM_cons,
      decodePstatProp_same hab (hn _ List.mem_cons_self)]
    refine congrArg _ (funext fun y => ?_)
    exact ih (fun rep hr => hn rep (List.mem_cons_of_mem _ hr)) y

def omTm : List Rep := [.mk (ascii "om") (.int 4), .mk (ascii "tm") (.int 1)]

end Security
