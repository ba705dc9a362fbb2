import Iotivity.Security.Pstat

/-!
# Refused requests to `/oic/sec/cred`, `/oic/sec/roles` and `/oic/sec/sp`

`oc_sec_decode_cred` and `oc_sec_decode_sp` apply a payload piece by piece, and stop at the first
piece that is refused: what was applied before stays.  Moreover `oc_sec_add_new_cred` removes the
credential that has the id of the new one before it looks at the new key.

* `Item`                 the pieces of a payload: texts for `rowneruuid`, and credentials;
* `stages`               the stores that a call goes through, the last of them the one it leaves;
* `Idle`, `Spared`       pieces that are accepted, or refused, without any change to the stores;
* `rejected_untouched_iff`  a refused request changes nothing at any stage iff it begins with idle
                         pieces, followed by one that is refused and spared.
-/

namespace Security

/-! ## chains that end at the first failure -/

section
variable {α β γ : Type} {f : α → β → Bool × β} {g : α → β → List β} (φ : β → γ)

/-- what a chain goes through: `g` tells what there is inside a step -/
def passes (f : α → β → Bool × β) (g : α → β → List β) : List α → β → List β
  | [], _ => []
  | a :: l, b => g a b ++ (f a b).2 :: if (f a b).1 then passes f g l (f a b).2 else []

/-- a step that changes nothing that `φ` sees -/
def Quiet (f : α → β → Bool × β) (g : α → β → List β) (φ : β → γ) (a : α) (b : β) : Prop :=
  (∀ x ∈ g a b, φ x = φ b) ∧ φ (f a b).2 = φ b

theorem passes_end (l : List α) (b : β) (h : ∀ x ∈ passes f g l b, φ x = φ b) :
    φ (runUntil f l b).2 = φ b := by
  induction l generalizing b with
  | nil => rfl
  | cons a l ih =>
    have ha : φ (f a b).2 = φ b := h _ (List.mem_append_right _ List.mem_cons_self)
    rw [runUntil]
    split
    · next hf =>
      refine (ih _ fun x hx => ?_).trans ha
      rw [ha]
      refine h x (List.mem_append_right _ (List.mem_cons_of_mem _ ?_))
      rw [if_pos hf]
      exact hx
    · exact ha

/-- a refused chain is quiet throughout iff it begins with steps that are accepted and quiet, and
then comes one that is refused and quiet; `I` and `S` tell these from what `φ` sees at the start -/
theorem passes_iff {I S : α → γ → Prop}
    (hI : ∀ a b, I a (φ b) ↔ (f a b).1 = true ∧ Quiet f g φ a b)
    (hS : ∀ a b, S a (φ b) ↔ (f a b).1 = false ∧ Quiet f g φ a b)
    (l : List α) (b : β) (hr : (runUntil f l b).1 = false) :
    (∀ x ∈ passes f g l b, φ x = φ b) ↔
      ∃ pre a post, l = pre ++ a :: post ∧ (∀ i ∈ pre, I i (φ b)) ∧ S a (φ b) := by
  induction l generalizing b with
  | nil => cases hr
  | cons a l ih =>
    have hq : (∀ x ∈ passes f g (a :: l) b, φ x = φ b) ↔ Quiet f g φ a b ∧
        ((f a b).1 = true → ∀ x ∈ passes f g l (f a b).2, φ x = φ b) := by
      rw [passes, List.forall_mem_append, List.forall_mem_cons, ← and_assoc]
      refine and_congr Iff.rfl ?_
      cases (f a b).1 with
      | false => simp
      | true => simp
    rw [hq]
    cases hf : (f a b).1 with
    | false =>
      constructor
      · rintro ⟨h, -⟩
        exact ⟨[], a, l, rfl, List.forall_mem_nil _, (hS a b).mpr ⟨hf, h⟩⟩
      · rintro ⟨pre, i, post, he, hp, hs⟩
        refine ⟨?_, fun h => absurd h Bool.false_ne_true⟩
        cases pre with
        | nil =>
          cases he
          exact ((hS a b).mp hs).2
        | cons j pre =>
          cases he
          have ha := ((hI a b).mp (hp a List.mem_cons_self)).1
          rw [hf] at ha
          cases ha
    | true =>
      rw [runUntil, if_pos hf] at hr
      constructor
      · rintro ⟨h, ht⟩
        have ht' := ht rfl
        rw [← h.2] at ht'
        obtain ⟨pre, i, post, he, hp, hs⟩ := (ih _ hr).mp ht'
        rw [h.2] at hp hs
        exact ⟨a :: pre, i, post, by rw [he, List.cons_append],
          List.forall_mem_cons.mpr ⟨(hI a b).mpr ⟨hf, h⟩, hp⟩, hs⟩
      · rintro ⟨pre, i, post, he, hp, hs⟩
        cases pre with
        | nil =>
          cases he
          have ha := ((hS a b).mp hs).1
          rw [hf] at ha
          cases ha
        | cons j pre =>
          cases he
          have h := ((hI a b).mp (hp a List.mem_cons_self)).2
          refine ⟨h, fun _ => ?_⟩
          rw [← h.2]
          refine (ih _ hr).mpr ⟨pre, i, post, rfl, ?_, ?_⟩
          · rw [h.2]
            exact fun j hj => hp j (List.mem_cons_of_mem _ hj)
          · rw [h.2]
            exact hs

end

/-! ## the pieces of a payload -/

/-- what a payload makes `oc_sec_decode_cred` do, one after the other -/
inductive Item where
  | owner (text : Bytes)
  | entry (props : List Rep)

def Rep.items (rep : Rep) : List Item :=
  match rep.value with
  | .string s => if rep.named "rowneruuid" then [.owner s] else []
  | .objectArray objs => if rep.named "creds" ∨ rep.named "roles" then objs.map .entry else []
  | _ => []

def decodeItem (pf : Platform) (device : Nat) (di : Uuid) (client : Option Peer) :
    Item → CredRun → Bool × CredRun
  | .owner t, r => (true, { r with rowneruuid := ocStrToUuid t r.rowneruuid })
  | .entry props, r => decodeCredEntry pf device di client props r

/-- the stores that a request may change -/
structure Stores where
  creds : List Cred
  rowneruuid : Uuid
  roles : List Cred

def CredRun.stores (r : CredRun) : Stores := ⟨r.creds, r.rowneruuid, r.roles⟩

variable (pf : Platform) (device : Nat) (di : Uuid)

theorem runUntil_items (client : Option Peer) (rep : List Rep) (r : CredRun) :
    runUntil (decodeCredRep pf device di client) rep r =
      runUntil (decodeItem pf device di client) (rep.flatMap Rep.items) r := by
  refine runUntil_flatMap (fun x b => ?_) rep r
  have hm (objs : List (List Rep)) (b : CredRun) :
      runUntil (decodeCredEntry pf device di client) objs b =
        runUntil (decodeItem pf device di client) (objs.map .entry) b := by
    induction objs generalizing b with
    | nil => rfl
    | cons o objs ih =>
      rw [List.map_cons, runUntil, runUntil]
      show (if (decodeCredEntry pf device di client o b).1 then _ else _) =
        if (decodeCredEntry pf device di client o b).1 then _ else _
      rw [ih]
      rfl
  unfold decodeCredRep Rep.items
  cases x.value with
  | string s =>
    dsimp only
    split
    · rfl
    · rfl
  | objectArray objs =>
    dsimp only
    split
    · exact hm objs b
    · rfl
  | _ => rfl

/-! ## credentials of the device -/

/-- refused before the store is looked at: no subject, or an identity certificate without a key that
is not for the device or finds no key pair -/
def CredDraft.unsuited (d : CredDraft) : Bool :=
  match d.subject with
  | none => true
  | some subject => d.needsKeypair ∧ (di ≠ subject ∨ pf.keypair device = none)

/-- a Base64 key of a PSK that is not one of sixteen bytes -/
def CredDraft.BadKey (d : CredDraft) : Prop := d.storedPrivate none = none

/-- the certificate is stored already under the id `id`, and the id that it brings is not in use -/
def CredDraft.StoredAs (d : CredDraft) (creds : List Cred) (id : Int) : Prop :=
  uniqueCredid d.credid creds = true ∧
    ∃ subject, d.subject = some subject ∧ searchCreds d subject 0 creds = .duplicate id

/-- refused with an id that is not in use: for its key, or because it would be the second
certificate of a chain that has no private key -/
def CredDraft.Strange (d : CredDraft) (creds : List Cred) : Prop :=
  uniqueCredid d.credid creds = true ∧ ∃ subject, d.subject = some subject ∧
    (searchCreds d subject 0 creds = .fresh ∧ d.BadKey ∨
      ∃ i c, searchCreds d subject 0 creds = .chain i c ∧
        (d.BadKey ∨ c.privatedata.data = [] ∧ d.privatedata.data = []))

theorem storedPrivate_none_iff (d : CredDraft) (kp : Option Bytes) :
    d.storedPrivate kp = none ↔ d.BadKey := by
  unfold CredDraft.BadKey CredDraft.storedPrivate
  split
  · cases kp with
    | none => exact Iff.rfl
    | some key => simp
  · exact Iff.rfl

theorem not_replaced {d : CredDraft} {subject : Uuid} {creds : List Cred} {i j : Nat}
    (h : uniqueCredid d.credid creds = true) : searchCreds d subject i creds ≠ .replaced j := by
  induction creds generalizing i with
  | nil => exact Search.noConfusion
  | cons c creds ih =>
    rw [uniqueCredid, List.any_cons, Bool.not_or, Bool.and_eq_true] at h
    have hc : ¬ c.credid = d.credid := by simpa using h.1
    have ht := ih (i := i + 1) h.2
    unfold searchCreds
    rw [if_neg hc]
    split
    · split
      · split
        · exact Search.noConfusion
        · split
          · exact Search.noConfusion
          · exact ht
      · exact ht
    · exact ht

theorem removeCred_iff (id : Int) (creds : List Cred) :
    ocSecRemoveCredByCredid id creds = creds ↔ uniqueCredid id creds = true := by
  unfold ocSecRemoveCredByCredid uniqueCredid
  rw [List.eraseP_eq_self_iff]
  simp

theorem ne_snoc {l m : List Cred} {c : Cred} (h : m.length = l.length) : m ++ [c] ≠ l := by
  intro he
  have hl := congrArg List.length he
  rw [List.length_append, List.length_singleton] at hl
  omega

section
variable {d : CredDraft} {creds : List Cred} {subject : Uuid} (hd : d.subject = some subject)
  (hu : uniqueCredid d.credid creds = true)
include hd hu

/-- what the search of the store says -/
theorem storedAs_iff {id : Int} : d.StoredAs creds id ↔ searchCreds d subject 0 creds = .duplicate id := by
  constructor
  · rintro ⟨-, u, hd', hx⟩
    cases hd.symm.trans hd'
    exact hx
  · exact fun hx => ⟨hu, subject, hd, hx⟩

theorem strange_iff : d.Strange creds ↔
    searchCreds d subject 0 creds = .fresh ∧ d.BadKey ∨
      ∃ i c, searchCreds d subject 0 creds = .chain i c ∧
        (d.BadKey ∨ c.privatedata.data = [] ∧ d.privatedata.data = []) := by
  constructor
  · rintro ⟨-, u, hd', hx⟩
    cases hd.symm.trans hd'
    exact hx
  · exact fun hx => ⟨hu, subject, hd, hx⟩

end

/-- a certificate is stored under one id -/
theorem CredDraft.StoredAs.unique {d : CredDraft} {creds : List Cred} {i j : Int}
    (hi : d.StoredAs creds i) (hj : d.StoredAs creds j) : i = j := by
  obtain ⟨hu, subject, hd, hx⟩ := hi
  exact Search.duplicate.inj (hx.symm.trans ((storedAs_iff hd hu).mp hj))

theorem CredDraft.StoredAs.not_strange {d : CredDraft} {creds : List Cred} {i : Int}
    (hi : d.StoredAs creds i) : ¬ d.Strange creds := by
  obtain ⟨hu, subject, hd, hx⟩ := hi
  rw [strange_iff hd hu, hx]
  rintro (⟨hn, -⟩ | ⟨_, _, hn, -⟩)
  · cases hn
  · cases hn

/-- a credential with an id that is not in use: known already, refused, or added to the list -/
theorem addDeviceCred_cases {d : CredDraft} {creds : List Cred}
    (hs : d.unsuited pf device di = false) (hu : uniqueCredid d.credid creds = true) (draws : Nat) :
    (∃ id, d.StoredAs creds id ∧ addDeviceCred pf device di d creds draws = (id, creds, draws)) ∨
    (d.Strange creds ∧ (addDeviceCred pf device di d creds draws).1 = -1 ∧
      (addDeviceCred pf device di d creds draws).2.1 = creds) ∨
    ((∀ id, ¬ d.StoredAs creds id) ∧ ¬ d.Strange creds ∧
      (addDeviceCred pf device di d creds draws).2.1 ≠ creds) := by
  unfold CredDraft.unsuited at hs
  cases hd : d.subject with
  | none => rw [hd] at hs; cases hs
  | some subject =>
    rw [hd] at hs
    have hk : ¬ (d.needsKeypair ∧ (di ≠ subject ∨ pf.keypair device = none)) := by simpa using hs
    have he : ocSecRemoveCredByCredid d.credid creds = creds := (removeCred_iff _ _).mpr hu
    unfold addDeviceCred
    rw [hd]
    dsimp only
    rw [if_neg hk, he, strange_iff hd hu]
    simp only [storedAs_iff hd hu]
    generalize (if d.needsKeypair = true then pf.keypair device else none) = kp
    have hbad {priv : CredData} (hp : d.storedPrivate kp = some priv) : ¬ d.BadKey := fun hb => by
      rw [(storedPrivate_none_iff d kp).mpr hb] at hp
      cases hp
    -- what the search finds decides between the three cases
    cases hf : searchCreds d subject 0 creds with
    | replaced j => exact absurd hf (not_replaced hu)
    | duplicate id => exact Or.inl ⟨id, rfl, rfl⟩
    | fresh =>
      dsimp only
      unfold storeCred
      cases hp : d.storedPrivate kp with
      | none => exact Or.inr (Or.inl ⟨Or.inl ⟨rfl, (storedPrivate_none_iff d kp).mp hp⟩, rfl, rfl⟩)
      | some priv =>
        refine Or.inr (Or.inr ⟨nofun, ?_, ne_snoc rfl⟩)
        rintro (⟨-, hb⟩ | ⟨_, _, hx, -⟩)
        · exact hbad hp hb
        · cases hx
    | chain i c =>
      dsimp only
      unfold storeInChain
      cases hp : d.storedPrivate kp with
      | none =>
        exact Or.inr (Or.inl ⟨Or.inr ⟨i, c, rfl, Or.inl ((storedPrivate_none_iff d kp).mp hp)⟩, rfl, rfl⟩)
      | some priv =>
        have hno (hl : ¬ (c.privatedata.data = [] ∧ d.privatedata.data = [])) :
            ¬ (Search.chain i c = .fresh ∧ d.BadKey ∨ ∃ j c', Search.chain i c = .chain j c' ∧
              (d.BadKey ∨ c'.privatedata.data = [] ∧ d.privatedata.data = [])) := by
          rintro (⟨hx, -⟩ | ⟨_, _, hx, hb⟩)
          · cases hx
          · cases hx
            exact hb.elim (hbad hp) hl
        dsimp only
        split
        · next hc =>
          exact Or.inr (Or.inr ⟨nofun, hno fun h => hc h.1, ne_snoc (List.length_modify ..)⟩)
        · next hc =>
          split
          · next hc' =>
            exact Or.inr (Or.inr ⟨nofun, hno fun h => hc' h.2, ne_snoc (List.length_modify ..)⟩)
          · next hc' =>
            exact Or.inr (Or.inl ⟨Or.inr ⟨i, c, rfl, Or.inr ⟨not_not.mp hc, not_not.mp hc'⟩⟩,
              rfl, rfl⟩)

theorem addDeviceCred_unsuited {d : CredDraft} (hs : d.unsuited pf device di = true)
    (creds : List Cred) (draws : Nat) :
    addDeviceCred pf device di d creds draws = (-1, creds, draws) := by
  unfold CredDraft.unsuited at hs
  unfold addDeviceCred
  cases hd : d.subject with
  | none => rfl
  | some subject =>
    rw [hd] at hs
    exact if_pos (of_decide_eq_true hs)

/-! ## roles of a peer -/

/-- a role certificate for the key of the peer -/
def CredDraft.Entitled (client : Peer) (d : CredDraft) : Prop :=
  d.credusage = .roleCert ∧ pf.parsePublicKey d.publicdata.data = some client.publicKey

/-- the certificate has been asserted already, under the id `id` -/
def CredDraft.AssertedAs (d : CredDraft) (roles : List Cred) (id : Int) : Prop :=
  ∃ role, roles.find? (·.publicdata.data = d.publicdata.data) = some role ∧ role.credid = id

/-- not a certificate of a role -/
def CredDraft.NoRole (d : CredDraft) (roles : List Cred) : Prop :=
  roles.find? (·.publicdata.data = d.publicdata.data) = none ∧
    pf.parseRoleCertificate d.publicdata.data = none

theorem addRole_not_entitled {client : Peer} {d : CredDraft} (h : ¬ d.Entitled pf client)
    (roles : List Cred) (draws : Nat) : addRole pf client d roles draws = (-1, roles, draws) := by
  unfold addRole
  split
  · rfl
  · next hu =>
    exact if_pos fun hk => h ⟨not_not.mp hu, hk⟩

theorem addRole_cases {client : Peer} {d : CredDraft} (h : d.Entitled pf client)
    (roles : List Cred) (draws : Nat) :
    (∃ id, d.AssertedAs roles id ∧ addRole pf client d roles draws = (id, roles, draws)) ∨
    (d.NoRole pf roles ∧ addRole pf client d roles draws = (-1, roles, draws)) ∨
    ((∀ id, ¬ d.AssertedAs roles id) ∧ ¬ d.NoRole pf roles ∧
      (addRole pf client d roles draws).2.1 ≠ roles) := by
  unfold addRole
  rw [if_neg (not_not.mpr h.1), if_neg (not_not.mpr h.2)]
  cases hf : roles.find? (·.publicdata.data = d.publicdata.data) with
  | some role => exact Or.inl ⟨role.credid, ⟨role, hf, rfl⟩, rfl⟩
  | none =>
    have hno : ∀ id, ¬ d.AssertedAs roles id := by
      rintro id ⟨role, hr, -⟩
      rw [hf] at hr
      cases hr
    cases hp : pf.parseRoleCertificate d.publicdata.data with
    | none => exact Or.inr (Or.inl ⟨⟨hf, hp⟩, rfl⟩)
    | some ra =>
      have hnr : ¬ d.NoRole pf roles := by
        rintro ⟨-, hn⟩
        rw [hp] at hn
        cases hn
      refine Or.inr (Or.inr ⟨hno, hnr, ?_⟩)
      dsimp only
      cases d.storedPrivate none with
      | none => exact ne_snoc rfl
      | some priv => exact ne_snoc rfl

/-! ## pieces that leave the stores alone -/

/-- inside `oc_sec_add_new_cred`: the credential with the same id is gone, the new one not there yet -/
def between (client : Option Peer) : Item → CredRun → List CredRun
  | .owner _, _ => []
  | .entry props, r =>
    match client, props.foldlM decodeCredProp CredDraft.empty with
    | none, some d =>
      if d.unsuited pf device di then []
      else [{ r with creds := ocSecRemoveCredByCredid d.credid r.creds }]
    | _, _ => []

/-- accepted without a change: the present `rowneruuid`, an object without properties, or a
certificate that is there already -/
def Item.Idle (client : Option Peer) : Item → Stores → Prop
  | .owner t, x => ocStrToUuid t x.rowneruuid = x.rowneruuid
  | .entry props, x => props = [] ∨
    ∃ d, props.foldlM decodeCredProp CredDraft.empty = some d ∧ match client with
      | none => d.unsuited pf device di = false ∧ ∃ id, id ≠ -1 ∧ d.StoredAs x.creds id
      | some p => d.Entitled pf p ∧ ∃ id, id ≠ -1 ∧ d.AssertedAs x.roles id

/-- refused without a change: for an encoding, before the store is looked at, or with an id that is
not in use; a role for its key, or as no certificate of a role.  No credential has the id -1, which
would make one that is there already count as refused. -/
def Item.Spared (client : Option Peer) : Item → Stores → Prop
  | .owner _, _ => False
  | .entry props, x =>
    ∀ d, props.foldlM decodeCredProp CredDraft.empty = some d → props ≠ [] ∧ match client with
      | none => d.unsuited pf device di = true ∨ d.Strange x.creds ∨ d.StoredAs x.creds (-1)
      | some p => ¬ d.Entitled pf p ∨ d.NoRole pf x.roles ∨ d.AssertedAs x.roles (-1)

/-- a credential is refused iff `oc_sec_add_new_cred` answers -1, and nothing else is stored -/
theorem decodeCredEntry_some {c : Option Peer} {props : List Rep} {d : CredDraft}
    (hd : props.foldlM decodeCredProp CredDraft.empty = some d) (hn : props ≠ []) (r : CredRun) :
    (decodeCredEntry pf device di c props r).1 =
      decide ((ocSecAddNewCred pf device di c d r).1 ≠ -1) ∧
    (decodeCredEntry pf device di c props r).2.stores =
      (ocSecAddNewCred pf device di c d r).2.stores := by
  have he : ¬ props.isEmpty = true := fun h => hn (List.isEmpty_iff.mp h)
  unfold decodeCredEntry
  rw [hd]
  dsimp only
  rw [if_neg he]
  split
  · next hx => exact ⟨(decide_eq_false (not_not.mpr hx)).symm, rfl⟩
  · next hx =>
    split
    · exact ⟨(decide_eq_true hx).symm, rfl⟩
    · exact ⟨(decide_eq_true hx).symm, rfl⟩

section
variable {pf device di}

/-- the steps of a credential of the device -/
theorem quiet_device {props : List Rep} {d : CredDraft} {r : CredRun}
    (hd : props.foldlM decodeCredProp CredDraft.empty = some d) (hn : props ≠ []) :
    Quiet (decodeItem pf device di none) (between pf device di none) CredRun.stores (.entry props) r ↔
      (d.unsuited pf device di = true ∨ uniqueCredid d.credid r.creds = true) ∧
        (addDeviceCred pf device di d r.creds r.draws).2.1 = r.creds := by
  have hb : between pf device di none (.entry props) r = if d.unsuited pf device di then []
      else [{ r with creds := ocSecRemoveCredByCredid d.credid r.creds }] := by
    simp only [between, hd]
  have hs : (decodeItem pf device di none (.entry props) r).2.stores = r.stores ↔
      (addDeviceCred pf device di d r.creds r.draws).2.1 = r.creds := by
    rw [show decodeItem pf device di none (.entry props) r =
      decodeCredEntry pf device di none props r from rfl, (decodeCredEntry_some pf device di hd hn r).2]
    constructor
    · intro h
      exact congrArg Stores.creds h
    · intro h
      show Stores.mk (addDeviceCred pf device di d r.creds r.draws).2.1 _ _ = _
      rw [h]
      rfl
  unfold Quiet
  rw [hb, hs]
  refine and_congr ?_ Iff.rfl
  cases hu : d.unsuited pf device di with
  | true => simp
  | false =>
    rw [if_neg Bool.false_ne_true, List.forall_mem_singleton]
    constructor
    · intro h
      exact Or.inr ((removeCred_iff _ _).mp (congrArg Stores.creds h))
    · rintro (h | h)
      · cases h
      · show Stores.mk (ocSecRemoveCredByCredid d.credid r.creds) _ _ = _
        rw [(removeCred_iff _ _).mpr h]
        rfl

theorem quiet_role {client : Peer} {props : List Rep} {d : CredDraft} {r : CredRun}
    (hd : props.foldlM decodeCredProp CredDraft.empty = some d) (hn : props ≠ []) :
    Quiet (decodeItem pf device di (some client)) (between pf device di (some client))
      CredRun.stores (.entry props) r ↔ (addRole pf client d r.roles r.draws).2.1 = r.roles := by
  have hb : between pf device di (some client) (.entry props) r = [] := by
    simp only [between]
  unfold Quiet
  rw [hb, show decodeItem pf device di (some client) (.entry props) r =
    decodeCredEntry pf device di (some client) props r from rfl,
    (decodeCredEntry_some pf device di hd hn r).2]
  constructor
  · rintro ⟨-, h⟩
    exact congrArg Stores.roles h
  · intro h
    refine ⟨List.forall_mem_nil _, ?_⟩
    show Stores.mk _ _ (addRole pf client d r.roles r.draws).2.1 = _
    rw [h]
    rfl

/-- an object without properties is skipped, one with an unknown encoding is refused at once -/
theorem quiet_trivial {client : Option Peer} {props : List Rep} {r : CredRun}
    (h : props = [] ∨ props.foldlM decodeCredProp CredDraft.empty = none) :
    Quiet (decodeItem pf device di client) (between pf device di client) CredRun.stores
      (.entry props) r := by
  rcases h with rfl | h
  · have hb : between pf device di client (.entry []) r = [] := by
      cases client with
      | none => rfl
      | some p => rfl
    exact ⟨hb ▸ List.forall_mem_nil _, rfl⟩
  · have hb : between pf device di client (.entry props) r = [] := by
      cases client with
      | none => simp only [between, h]
      | some p => simp only [between]
    have hd : (decodeCredEntry pf device di client props r).2 = r := by
      unfold decodeCredEntry
      rw [h]
    exact ⟨hb ▸ List.forall_mem_nil _, congrArg CredRun.stores hd⟩

/-- What an answer of -1 means, and another one, where nothing is stored: a credential that is known is
known under one id, the answer, and is not refused. -/
theorem answer_iff {known : Int → Prop} {refused kept : Prop} {answer : Int}
    (hone : ∀ i j, known i → known j → i = j) (hnot : ∀ i, known i → ¬ refused)
    (h : known answer ∧ kept ∨ refused ∧ answer = -1 ∧ kept ∨
      (∀ i, ¬ known i) ∧ ¬ refused ∧ ¬ kept) :
    ((∃ id, id ≠ -1 ∧ known id) ↔ answer ≠ -1 ∧ kept) ∧
      (refused ∨ known (-1) ↔ answer = -1 ∧ kept) := by
  rcases h with ⟨ha, hk⟩ | ⟨hr, ha, hk⟩ | ⟨hno, hr, hk⟩
  · refine ⟨⟨?_, fun h => ⟨answer, h.1, ha⟩⟩, fun h => ?_, fun h => Or.inr (h.1 ▸ ha)⟩
    · rintro ⟨i, hi, h⟩
      exact ⟨hone i answer h ha ▸ hi, hk⟩
    · exact ⟨hone _ _ ha (h.resolve_left (hnot _ ha)), hk⟩
  · refine ⟨⟨?_, fun h => absurd ha h.1⟩, fun _ => ⟨ha, hk⟩, fun _ => Or.inl hr⟩
    rintro ⟨i, -, h⟩
    exact absurd hr (hnot i h)
  · refine ⟨⟨?_, fun h => absurd h.2 hk⟩, fun h => ?_, fun h => absurd h.2 hk⟩
    · rintro ⟨i, -, h⟩
      exact absurd h (hno i)
    · exact absurd h (not_or.mpr ⟨hr, hno _⟩)

/-- a credential of the device that changes nothing: which are accepted, which are refused -/
theorem device_iff (d : CredDraft) (creds : List Cred) (draws : Nat) :
    ((d.unsuited pf device di = false ∧ ∃ id, id ≠ -1 ∧ d.StoredAs creds id) ↔
      (addDeviceCred pf device di d creds draws).1 ≠ -1 ∧
      (d.unsuited pf device di = true ∨ uniqueCredid d.credid creds = true) ∧
      (addDeviceCred pf device di d creds draws).2.1 = creds) ∧
    ((d.unsuited pf device di = true ∨ d.Strange creds ∨ d.StoredAs creds (-1)) ↔
      (addDeviceCred pf device di d creds draws).1 = -1 ∧
      (d.unsuited pf device di = true ∨ uniqueCredid d.credid creds = true) ∧
      (addDeviceCred pf device di d creds draws).2.1 = creds) := by
  cases hs : d.unsuited pf device di with
  | true =>
    rw [addDeviceCred_unsuited pf device di hs]
    simp
  | false =>
    by_cases hu : uniqueCredid d.credid creds = true
    · have hanswer := answer_iff (fun i j hi hj => CredDraft.StoredAs.unique hi hj)
        (fun i (hi : d.StoredAs creds i) => hi.not_strange)
        ((addDeviceCred_cases pf device di hs hu draws).imp_left fun ⟨id, hi, he⟩ => by
          rw [he]
          exact ⟨hi, rfl⟩)
      simpa [hu] using hanswer
    · -- the credential with the same id is removed
      have hr : ¬ (false = true ∨ uniqueCredid d.credid creds = true) := by simpa using hu
      refine ⟨⟨fun h => ?_, fun h => absurd h.2.1 hr⟩, fun h => ?_, fun h => absurd h.2.1 hr⟩
      · obtain ⟨-, x, -, hx⟩ := h
        exact absurd hx.1 hu
      · rcases h with h | h | h
        · cases h
        · exact absurd h.1 hu
        · exact absurd h.1 hu

/-- a role that changes nothing: which are accepted, which are refused -/
theorem role_iff (client : Peer) (d : CredDraft) (roles : List Cred) (draws : Nat) :
    ((d.Entitled pf client ∧ ∃ id, id ≠ -1 ∧ d.AssertedAs roles id) ↔
      (addRole pf client d roles draws).1 ≠ -1 ∧ (addRole pf client d roles draws).2.1 = roles) ∧
    ((¬ d.Entitled pf client ∨ d.NoRole pf roles ∨ d.AssertedAs roles (-1)) ↔
      (addRole pf client d roles draws).1 = -1 ∧ (addRole pf client d roles draws).2.1 = roles) := by
  by_cases he : d.Entitled pf client
  · have hone : ∀ i j, d.AssertedAs roles i → d.AssertedAs roles j → i = j := by
      rintro _ _ ⟨role, h, rfl⟩ ⟨role', h', rfl⟩
      rw [Option.some.inj (h.symm.trans h')]
    have hnot : ∀ i, d.AssertedAs roles i → ¬ d.NoRole pf roles := by
      rintro _ ⟨role, h, -⟩ ⟨hn, -⟩
      cases hn.symm.trans h
    have hcases : d.AssertedAs roles (addRole pf client d roles draws).1 ∧
        (addRole pf client d roles draws).2.1 = roles ∨
        d.NoRole pf roles ∧ (addRole pf client d roles draws).1 = -1 ∧
          (addRole pf client d roles draws).2.1 = roles ∨
        (∀ id, ¬ d.AssertedAs roles id) ∧ ¬ d.NoRole pf roles ∧
          ¬ (addRole pf client d roles draws).2.1 = roles := by
      rcases addRole_cases pf he roles draws with ⟨id, hi, hr⟩ | ⟨hn, hr⟩ | h
      · rw [hr]
        exact Or.inl ⟨hi, rfl⟩
      · rw [hr]
        exact Or.inr (Or.inl ⟨hn, rfl, rfl⟩)
      · exact Or.inr (Or.inr h)
    have hanswer := answer_iff hone hnot hcases
    simpa [he] using hanswer
  · rw [addRole_not_entitled pf he]
    exact ⟨⟨fun h => absurd h.1 he, fun h => absurd rfl h.1⟩, fun _ => ⟨rfl, rfl⟩, fun _ => Or.inl he⟩

theorem item_iff (client : Option Peer) (i : Item) (r : CredRun) :
    (i.Idle pf device di client r.stores ↔ (decodeItem pf device di client i r).1 = true ∧
      Quiet (decodeItem pf device di client) (between pf device di client) CredRun.stores i r) ∧
    (i.Spared pf device di client r.stores ↔ (decodeItem pf device di client i r).1 = false ∧
      Quiet (decodeItem pf device di client) (between pf device di client) CredRun.stores i r) := by
  cases i with
  | owner t =>
    refine ⟨⟨fun h => ⟨rfl, List.forall_mem_nil _, ?_⟩, fun h => congrArg Stores.rowneruuid h.2.2⟩,
      fun h => h.elim, fun h => absurd h.1 (Bool.noConfusion)⟩
    show Stores.mk _ (ocStrToUuid t r.rowneruuid) _ = _
    rw [show ocStrToUuid t r.rowneruuid = r.rowneruuid from h]
    rfl
  | entry props =>
    by_cases hn : props = []
    · subst hn
      exact ⟨⟨fun _ => ⟨rfl, quiet_trivial (Or.inl rfl)⟩, fun _ => Or.inl rfl⟩,
        fun h => absurd rfl (h CredDraft.empty rfl).1, fun h => absurd h.1 (Bool.noConfusion)⟩
    · cases hd : props.foldlM decodeCredProp CredDraft.empty with
      | none =>
        have hf : (decodeItem pf device di client (.entry props) r).1 = false := by
          show (decodeCredEntry pf device di client props r).1 = false
          unfold decodeCredEntry
          rw [hd]
        rw [hf]
        refine ⟨⟨fun h => ?_, fun h => absurd h.1 Bool.noConfusion⟩,
          fun _ => ⟨rfl, quiet_trivial (Or.inr hd)⟩, fun _ d h => ?_⟩
        · rcases h with h | ⟨d, h, -⟩
          · exact absurd h hn
          · cases hd.symm.trans h
        · cases hd.symm.trans h
      | some d =>
        have hi {P : CredDraft → Prop} : (props = [] ∨
            ∃ d', props.foldlM decodeCredProp CredDraft.empty = some d' ∧ P d') ↔ P d := by
          refine ⟨fun h => ?_, fun h => Or.inr ⟨d, hd, h⟩⟩
          rcases h with h | ⟨d', h, hp⟩
          · exact absurd h hn
          · cases hd.symm.trans h
            exact hp
        have hsp {P : CredDraft → Prop} : (∀ d', props.foldlM decodeCredProp CredDraft.empty =
            some d' → props ≠ [] ∧ P d') ↔ P d := by
          refine ⟨fun h => (h d hd).2, fun h d' h' => ?_⟩
          cases hd.symm.trans h'
          exact ⟨hn, h⟩
        have ha := (decodeCredEntry_some pf device di (c := client) hd hn r).1
        show ((props = [] ∨ _) ↔ (decodeCredEntry pf device di client props r).1 = true ∧ _) ∧
          ((∀ d', _ → props ≠ [] ∧ _) ↔ (decodeCredEntry pf device di client props r).1 = false ∧ _)
        rw [hi, hsp, ha, decide_eq_true_iff, decide_eq_false_iff_not, not_not]
        cases client with
        | none =>
          rw [quiet_device hd hn]
          exact device_iff d r.creds r.draws
        | some p =>
          rw [quiet_role hd hn]
          exact role_iff p d r.roles r.draws

end

/-! ## requests to `/oic/sec/cred` and `/oic/sec/roles` -/

/-- the stores that a request goes through -/
def stages (s : State) (rep : List Rep) (fromStorage : Bool) (client : Option Peer) (d : Nat) :
    List Stores :=
  if client.isSome || rep.all (credPropOk fromStorage (s.device d).pstat.s) then
    (passes (decodeItem pf d (s.device d).di client) (between pf d (s.device d).di client)
      (rep.flatMap Rep.items) (s.credRun d client)).map CredRun.stores
  else []

/-- the credentials of the device with their links, the rowneruuid and the roles of the peer -/
def CredsKept (s s' : State) (client : Option Peer) (d : Nat) : Prop :=
  (s'.device d).creds = (s.device d).creds ∧
    ∀ p, client = some p → ocSecGetRoles s'.clients p.addr = ocSecGetRoles s.clients p.addr

/-- the request leaves the stores as they were, and they are so all the time -/
def CredsUntouched (s : State) (rep : List Rep) (fromStorage : Bool) (client : Option Peer) (d : Nat) :
    Prop :=
  CredsKept s (ocSecDecodeCred pf s rep fromStorage client d).2.2 client d ∧
    ∀ x ∈ stages pf s rep fromStorage client d, x = (s.credRun d client).stores

/-- a property that may not be set now, or idle pieces followed by one that is spared -/
def CredsSpared (s : State) (rep : List Rep) (fromStorage : Bool) (client : Option Peer) (d : Nat) :
    Prop :=
  (client.isSome || rep.all (credPropOk fromStorage (s.device d).pstat.s)) = false ∨
    ∃ pre i post, rep.flatMap Rep.items = pre ++ i :: post ∧
      (∀ j ∈ pre, j.Idle pf d (s.device d).di client (s.credRun d client).stores) ∧
      i.Spared pf d (s.device d).di client (s.credRun d client).stores

theorem find_setRoles (clients : List Roles) (client : Nat) (roles : List Cred) :
    (setRoles clients client roles).find? (·.client = client) =
      (clients.find? (·.client = client)).map fun r => { r with roles := roles } := by
  induction clients with
  | nil => rfl
  | cons r clients ih =>
    show (((if r.client = client then { r with roles := roles } else r) ::
      setRoles clients client roles).find? fun r => decide (r.client = client)) = _
    by_cases hc : r.client = client
    · rw [if_pos hc]
      simp [hc]
    · rw [if_neg hc]
      simpa [hc] using ih

theorem getRoles_putRoles (clients : List Roles) (client d : Nat) (roles : List Cred) :
    ocSecGetRoles (putRoles clients client d roles) client = roles := by
  unfold putRoles
  by_cases h : clients.any (·.client = client) = true
  · rw [if_pos h]
    obtain ⟨r, hr, hc⟩ := List.any_eq_true.mp h
    unfold ocSecGetRoles
    rw [find_setRoles]
    cases hx : clients.find? fun r => decide (r.client = client) with
    | none => exact absurd hc (List.find?_eq_none.mp hx r hr)
    | some x => rfl
  · have hn : clients.find? (fun r => decide (r.client = client)) = none :=
      List.find?_eq_none.mpr fun r hr hc => h (List.any_eq_true.mpr ⟨r, hr, hc⟩)
    rw [if_neg h]
    by_cases he : roles = []
    · rw [if_pos he, ocSecGetRoles, hn, he]
    · rw [if_neg he, ocSecGetRoles, List.find?_append, hn]
      simp

theorem afterRun_kept {s : State} {client : Option Peer} {d : Nat} {r : CredRun}
    (h : r.stores = (s.credRun d client).stores) : CredsKept s (s.afterRun d client r) client d := by
  refine ⟨?_, ?_⟩
  · show ((s.put d _).device d).creds = _
    rw [State.put_device]
    show Creds.mk r.creds r.rowneruuid = _
    rw [show r.creds = (s.device d).creds.creds from congrArg Stores.creds h,
      show r.rowneruuid = (s.device d).creds.rowneruuid from congrArg Stores.rowneruuid h]
  · rintro p rfl
    show ocSecGetRoles (putRoles s.clients p.addr d r.roles) p.addr = _
    rw [getRoles_putRoles]
    exact congrArg Stores.roles h

theorem credsUntouched_iff {s : State} {rep : List Rep} {fromStorage : Bool} {client : Option Peer}
    {d : Nat} (h : (ocSecDecodeCred pf s rep fromStorage client d).1 = false) :
    CredsUntouched pf s rep fromStorage client d ↔ CredsSpared pf s rep fromStorage client d := by
  unfold CredsUntouched CredsSpared stages
  unfold ocSecDecodeCred at h ⊢
  dsimp only at h ⊢
  cases hp : client.isSome || rep.all (credPropOk fromStorage (s.device d).pstat.s) with
  | false =>
    rw [if_neg Bool.false_ne_true]
    exact ⟨fun _ => Or.inl rfl, fun _ => ⟨⟨rfl, fun _ _ => rfl⟩, List.forall_mem_nil _⟩⟩
  | true =>
    rw [hp, if_pos rfl, runUntil_items] at h
    rw [if_pos rfl, if_pos rfl, runUntil_items, List.forall_mem_map]
    have hi := passes_iff CredRun.stores (fun i r => (item_iff client i r).1)
      (fun i r => (item_iff client i r).2)
      (rep.flatMap Rep.items) (s.credRun d client) h
    rw [or_iff_right Bool.noConfusion, ← hi]
    constructor
    · intro h
      exact h.2
    · intro h
      exact ⟨afterRun_kept (passes_end CredRun.stores _ _ h), h⟩

/-! ## requests to `/oic/sec/sp` -/

/-- accepted without a change -/
def SpIdle (rep : Rep) (sp : Sp) : Prop :=
  match rep.value with
  | .string s => rep.named "currentprofile" = true →
    stringToSp s &&& sp.supportedProfiles ≠ 0 ∧ stringToSp s = sp.currentProfile
  | .stringArray ss => rep.named "supportedprofiles" = true →
    ss.foldl (fun p s => p ||| stringToSp s) 0 = sp.supportedProfiles
  | .int n => rep.named "credid" = true → n = sp.credid
  | _ => False

/-- refused: a profile that is not supported, or a property of another type -/
def SpRefused (rep : Rep) (sp : Sp) : Prop :=
  match rep.value with
  | .string s => rep.named "currentprofile" = true ∧ stringToSp s &&& sp.supportedProfiles = 0
  | .stringArray _ | .int _ => False
  | _ => True

theorem sp_iff (rep : Rep) (sp : Sp) :
    (SpIdle rep sp ↔ (decodeSpProp rep sp).1 = true ∧ (decodeSpProp rep sp).2 = sp) ∧
    (SpRefused rep sp ↔ (decodeSpProp rep sp).1 = false ∧ (decodeSpProp rep sp).2 = sp) := by
  unfold SpIdle SpRefused decodeSpProp
  obtain ⟨sup, cur, credid⟩ := sp
  cases rep.value with
  | string s =>
    dsimp only
    by_cases hn : rep.named "currentprofile" = true
    · by_cases hz : stringToSp s &&& sup = 0
      · simp [hn, hz]
      · simp [hn, hz]
    · simp [hn]
  | stringArray ss =>
    by_cases hn : rep.named "supportedprofiles" = true
    · simp [hn]
    · simp [hn]
  | int n =>
    by_cases hn : rep.named "credid" = true
    · simp [hn]
    · simp [hn]
  | _ => simp

/-- the request leaves the security profile as it was, and it is so all the time -/
def SpUntouched (s : State) (rep : List Rep) (d : Nat) : Prop :=
  ((ocSecDecodeSp s rep d).2.device d).sp = (s.device d).sp ∧
    ((s.device d).pstat.s ≠ .rfnop →
      ∀ x ∈ passes decodeSpProp (fun _ _ => []) rep (s.device d).sp, x = (s.device d).sp)

/-- the device is in RFNOP, or idle properties are followed by one that is refused -/
def SpSpared (s : State) (rep : List Rep) (d : Nat) : Prop :=
  (s.device d).pstat.s = .rfnop ∨ ∃ pre r post, rep = pre ++ r :: post ∧
    (∀ p ∈ pre, SpIdle p (s.device d).sp) ∧ SpRefused r (s.device d).sp

theorem spUntouched_iff {s : State} {rep : List Rep} {d : Nat}
    (h : (ocSecDecodeSp s rep d).1 = false) : SpUntouched s rep d ↔ SpSpared s rep d := by
  unfold SpUntouched SpSpared
  unfold ocSecDecodeSp at h ⊢
  dsimp only at h ⊢
  by_cases hs : (s.device d).pstat.s = .rfnop
  · rw [if_pos hs]
    exact ⟨fun _ => Or.inl hs, fun _ => ⟨rfl, fun hn => absurd hs hn⟩⟩
  · rw [if_neg hs] at h ⊢
    have hq (r : Rep) (sp : Sp) :
        Quiet decodeSpProp (fun _ _ => []) id r sp ↔ (decodeSpProp r sp).2 = sp := by
      unfold Quiet
      simp
    have hidle (r : Rep) (sp : Sp) : SpIdle r (id sp) ↔
        (decodeSpProp r sp).1 = true ∧ Quiet decodeSpProp (fun _ _ => []) id r sp := by
      rw [hq]
      exact (sp_iff r sp).1
    have hrefused (r : Rep) (sp : Sp) : SpRefused r (id sp) ↔
        (decodeSpProp r sp).1 = false ∧ Quiet decodeSpProp (fun _ _ => []) id r sp := by
      rw [hq]
      exact (sp_iff r sp).2
    have hi := passes_iff id hidle hrefused rep (s.device d).sp h
    rw [or_iff_right hs]
    refine Iff.trans ?_ hi
    constructor
    · intro h
      exact h.2 hs
    · intro h
      refine ⟨?_, fun _ => h⟩
      show ((s.put d _).device d).sp = _
      rw [State.put_device]
      exact passes_end id rep _ h

/-! ## refused requests -/

theorem rejected_untouched_iff (s : State) (rep : List Rep) (fromStorage : Bool)
    (client : Option Peer) (d : Nat) :
    ((ocSecDecodeCred pf s rep fromStorage client d).1 = false →
      (CredsUntouched pf s rep fromStorage client d ↔ CredsSpared pf s rep fromStorage client d)) ∧
    ((ocSecDecodeSp s rep d).1 = false → (SpUntouched s rep d ↔ SpSpared s rep d)) :=
  ⟨credsUntouched_iff pf, spUntouched_iff⟩

/-! ## a key that is refused -/

/-- a credential of the device: a key for one peer -/
def pskCred : Cred :=
  { role := [], authority := [], privatedata := ⟨List.replicate 16 7, .raw⟩
    publicdata := CredData.none, credusage := .null, chain := none, child := none, credid := 1
    credtype := credtypePsk, subjectuuid := Uuid.nil.set 0 0xB0 }

/-- device 0 in RFOTM with that credential -/
def pskState : State :=
  State.zero.put 0 { Device.zero with
    pstat := { Device.zero.pstat with s := .rfotm }, creds := ⟨[pskCred], Uuid.nil⟩ }

/-- a key for another peer that is no Base64 text of sixteen bytes, under the id `id` -/
def badEntry (id : Int) : List Rep :=
  [.mk (ascii "credid") (.int id), .mk (ascii "credtype") (.int 1),
    .mk (ascii "subjectuuid") (.string (ascii "a0000000-0000-0000-0000-000000000000")),
    .mk (ascii "privatedata") (.object [.mk (ascii "data") (.string (ascii "key")),
      .mk (ascii "encoding") (.string (ascii "oic.sec.encoding.base64"))])]

def badPost (id : Int) : List Rep := [.mk (ascii "creds") (.objectArray [badEntry id])]

def badDraft : CredDraft :=
  { CredDraft.empty with
    credid := 2, credtype := 1, privatedata := ⟨ascii "key", .base64⟩
    subjectuuid := some (ascii "a0000000-0000-0000-0000-000000000000") }

theorem rejected_untouched_second :
    ((ocSecDecodeCred (plainPlatform 1) pskState (badPost 2) false none 0).1 = false ∧
      CredsUntouched (plainPlatform 1) pskState (badPost 2) false none 0) ∧
    (ocSecDecodeSp pskState (badPost 2) 0).1 = false ∧ SpUntouched pskState (badPost 2) 0 := by
  have h1 : (ocSecDecodeCred (plainPlatform 1) pskState (badPost 2) false none 0).1 = false := by
    decide +kernel
  have h2 : (ocSecDecodeSp pskState (badPost 2) 0).1 = false := by decide +kernel
  obtain ⟨hc, hs⟩ := rejected_untouched_iff (plainPlatform 1) pskState (badPost 2) false none 0
  have hd : (badEntry 2).foldlM decodeCredProp CredDraft.empty = some badDraft := rfl
  refine ⟨⟨h1, (hc h1).mpr (Or.inr ⟨[], .entry (badEntry 2), [], rfl, List.forall_mem_nil _, ?_⟩)⟩,
    h2, (hs h2).mpr (Or.inr ⟨[], _, [], rfl, List.forall_mem_nil _, trivial⟩)⟩
  intro d h
  cases hd.symm.trans h
  have hb : badDraft.storedPrivate none = none := by decide +kernel
  have hu : badDraft.subject = some (Uuid.nil.set 0 0xA0) := by decide +kernel
  exact ⟨List.cons_ne_nil _ _, Or.inr (Or.inl ⟨by decide +kernel, _, hu, Or.inl ⟨rfl, hb⟩⟩)⟩

/-- the same key under the id of the stored credential: the request is refused, the credential gone -/
theorem refused_key_displaces :
    ¬ ((ocSecDecodeCred (plainPlatform 1) pskState (badPost 1) false none 0).1 = false →
      CredsKept pskState (ocSecDecodeCred (plainPlatform 1) pskState (badPost 1) false none 0).2.2
        none 0) := by
  intro h
  have hr : (ocSecDecodeCred (plainPlatform 1) pskState (badPost 1) false none 0).1 = false := by
    decide +kernel
  have hk := congrArg Creds.creds (h hr).1
  revert hk
  decide +kernel

end Security
