import Iotivity.Security.Readback

/-!
# What an ACL holds after an acl2 payload

The ACEs of a payload are taken one after the other.  One with an id replaces what has that id; one
without goes to the first ACE with its subject and permission, whichever that is, and only makes an
ACE of its own when there is none.

* `joined`              the entries that ACEs without an id bring to an ACE;
* `foldl_kept`          an ACE whose id does not come again ends up with those entries added;
* `StoresSent`          the ACL holds what was sent, and comes back from its own payload;
* `Provisionable`       what the payload and the ACL have to be like for that.
-/

namespace Security
open Gather

/-! ## ACEs without an id -/

/-- the ACE that an ACE of a payload finds when it has no id -/
def AceDraft.host (d : AceDraft) (aces : List Ace) : Option Ace :=
  aces.find? (subjectTest d.subject.subject (-1) d.permission)

section
variable (pf : Platform) {x : List Ace × Nat} {entry : List Rep}

/-- the first ACE with the subject and the permission gets the entries -/
theorem decodeAclEntry_host (hid : (aceDraft entry).aceid = -1) {ace : Ace}
    (h : (aceDraft entry).host x.1 = some ace) : ∃ l m, x.1 = l ++ ace :: m ∧
      decodeAclEntry pf x entry = (l ++ ace.extend (aceDraft entry).drafts :: m, x.2) := by
  obtain ⟨ha, l, m, hx, hl⟩ := List.find?_eq_some_iff_append.mp h
  refine ⟨l, m, hx, ?_⟩
  rw [decodeAclEntry_eq, if_neg (not_not.mpr hid), hx]
  apply foldl_update_found
  · intro a hm
    rw [hid]
    simpa using hl a hm
  · rw [hid]
    exact ha

/-- an ACE of its own, under a new id -/
theorem decodeAclEntry_new (hid : (aceDraft entry).aceid = -1)
    (h : (aceDraft entry).host x.1 = none) : ∃ n, decodeAclEntry pf x entry =
      (x.1 ++ (aceDraft entry).made (pf.newId x.2 (x.1.map Ace.aceid)), n) := by
  have hf : ∀ a ∈ x.1, subjectTest (aceDraft entry).subject.subject (aceDraft entry).aceid
      (aceDraft entry).permission a = false := by
    intro a ha
    rw [hid]
    simpa using List.find?_eq_none.mp h a ha
  rw [decodeAclEntry_eq, if_neg (not_not.mpr hid)]
  by_cases hd : (aceDraft entry).drafts = []
  · refine ⟨x.2, ?_⟩
    rw [hd, AceDraft.made, if_pos hd, List.append_nil]
    rfl
  · refine ⟨x.2 + 1, foldl_update_made hf (Or.inl hid) ?_ hd⟩
    intro r
    unfold AceDraft.update ocSecAceUpdateRes
    rw [List.findIdx?_eq_none_iff.mpr hf]
    exact if_pos hid

/-! ## an ACE whose id does not come again -/

/-- no ACE of the payload replaces the one with this id -/
def Spared (id : Int) (es : List (List Rep)) : Prop :=
  ∀ e ∈ es, (aceDraft e).aceid ≠ -1 → (aceDraft e).aceid ≠ id

/-- the entries that an ACE of a payload brings to the ACE with this id -/
def joinedBy (id : Int) (aces : List Ace) (e : List Rep) : List ResDraft :=
  if (aceDraft e).aceid = -1 ∧ ((aceDraft e).host aces).map Ace.aceid = some id then
    (aceDraft e).drafts
  else []

/-- the entries that the rest of a payload brings to the ACE with this id -/
def joined (pf : Platform) (id : Int) : List Ace × Nat → List (List Rep) → List ResDraft
  | _, [] => []
  | x, e :: es => joinedBy id x.1 e ++ joined pf id (decodeAclEntry pf x e) es

theorem extend_nil (ace : Ace) : ace.extend [] = ace := rfl

theorem extend_append (ace : Ace) (rs ss : List ResDraft) :
    ace.extend (rs ++ ss) = (ace.extend rs).extend ss := by
  unfold Ace.extend
  rw [gather_append]

theorem decodeAclEntry_kept (hn : (aceids x.1).Nodup) {ace : Ace} (hm : ace ∈ x.1)
    (hs : (aceDraft entry).aceid ≠ -1 → (aceDraft entry).aceid ≠ ace.aceid) :
    ace.extend (joinedBy ace.aceid x.1 entry) ∈ (decodeAclEntry pf x entry).1 := by
  by_cases hid : (aceDraft entry).aceid = -1
  · cases hh : (aceDraft entry).host x.1 with
    | some b =>
      obtain ⟨l, m, hx, hd⟩ := decodeAclEntry_host pf hid hh
      unfold joinedBy
      rw [hd, hh]
      by_cases hab : ace = b
      · rw [hab, if_pos ⟨hid, rfl⟩]
        exact List.mem_append_right l List.mem_cons_self
      · have hb : b ∈ x.1 := List.mem_of_find?_eq_some hh
        have hne : ¬ ((aceDraft entry).aceid = -1 ∧ (some b).map Ace.aceid = some ace.aceid) := by
          intro h
          exact hab (eq_of_aceid hn hm hb (Option.some.inj h.2).symm)
        rw [if_neg hne, extend_nil]
        rw [hx] at hm
        rcases List.mem_append.mp hm with hm | hm
        · exact List.mem_append_left _ hm
        · exact List.mem_append_right l
            (List.mem_cons_of_mem _ ((List.mem_cons.mp hm).resolve_left hab))
    | none =>
      obtain ⟨n, hd⟩ := decodeAclEntry_new pf hid hh
      unfold joinedBy
      rw [hd, hh, if_neg (by simp), extend_nil]
      exact List.mem_append_left _ hm
  · have hj : joinedBy ace.aceid x.1 entry = [] := if_neg fun h => hid h.1
    rw [decodeAclEntry_id hid hn, hj, extend_nil]
    apply List.mem_append_left
    apply (List.mem_eraseP_of_neg _).mpr hm
    simpa using Ne.symm (hs hid)

theorem foldl_decodeAclEntry_nodup (es : List (List Rep)) {x : List Ace × Nat}
    (hn : (aceids x.1).Nodup) : (aceids (es.foldl (decodeAclEntry pf) x).1).Nodup := by
  induction es generalizing x with
  | nil => exact hn
  | cons e es ih => exact ih (decodeAclEntry_nodup pf e hn)

/-- an ACE whose id does not come again stays, with the entries that were brought to it -/
theorem foldl_kept {es : List (List Rep)} (hn : (aceids x.1).Nodup) {ace : Ace} (hm : ace ∈ x.1)
    (hs : Spared ace.aceid es) :
    ace.extend (joined pf ace.aceid x es) ∈ (es.foldl (decodeAclEntry pf) x).1 := by
  induction es generalizing x ace with
  | nil => exact hm
  | cons e es ih =>
    obtain ⟨hs1, hs2⟩ := List.forall_mem_cons.mp hs
    have hm' := decodeAclEntry_kept pf hn hm hs1
    rw [joined, extend_append]
    exact ih (decodeAclEntry_nodup pf e hn) hm' hs2

/-- and it is the only one with its id -/
theorem filter_aceid {aces : List Ace} (hn : (aceids aces).Nodup) {ace : Ace} (hm : ace ∈ aces) :
    aces.filter (·.aceid = ace.aceid) = [ace] := by
  have hnd : (aces.filter (·.aceid = ace.aceid)).Nodup := (List.Nodup.of_map _ hn).filter _
  apply List.perm_singleton.mp
  apply (List.perm_ext_iff_of_nodup hnd (List.nodup_singleton ace)).mpr
  intro b
  rw [List.mem_filter, List.mem_singleton, decide_eq_true_eq]
  constructor
  · intro h
    exact eq_of_aceid hn h.1 hm h.2
  · intro h
    rw [h]
    exact ⟨hm, rfl⟩

end

/-! ## entries as they are given -/

/-- an entry as a payload gives it -/
def ResDraft.given (r : ResDraft) : AceRes :=
  ⟨r.href.getD [], r.ifaceMask, r.rt.getD [], if r.wildcard = noWc then 0 else r.wildcard⟩

/-- what `oc_sec_decode_acl` makes of any element of `resources` -/
structure ResDraft.Sound (r : ResDraft) : Prop where
  href : 0 ∉ r.href.getD []
  wildcard : r.wildcard ∈ [noWc, wcAll, wcAllSecured, wcAllPublic]
  ifaceMask : r.ifaceMask &&& ifMask = r.ifaceMask

/-- no text of the entry is empty, and there is no empty array -/
def ResDraft.Filled (r : ResDraft) : Prop :=
  r.href ≠ some [] ∧ r.rt ≠ some [] ∧ [] ∉ r.rt.getD []

instance (r : ResDraft) : Decidable r.Filled :=
  inferInstanceAs (Decidable (r.href ≠ some [] ∧ r.rt ≠ some [] ∧ [] ∉ r.rt.getD []))

/-- it has a href or a wildcard, not both -/
def ResDraft.Plain (r : ResDraft) : Prop := r.Filled ∧ (r.href = none ∨ r.wildcard = noWc)

instance (r : ResDraft) : Decidable r.Plain :=
  inferInstanceAs (Decidable (r.Filled ∧ (r.href = none ∨ r.wildcard = noWc)))

theorem mem_addItems {ss : List Bytes} {s : Bytes} : s ∈ addItems ss ↔ s ∈ ss := by
  unfold addItems
  rw [List.mem_append, List.mem_filter, List.mem_filter, decide_eq_true_eq, decide_eq_true_eq,
    ← and_or_left]
  exact and_iff_left (ne_or_eq s [])

theorem ResDraft.entry_eq_given {r : ResDraft} (h : [] ∉ r.rt.getD []) : r.entry = r.given := by
  unfold ResDraft.entry ResDraft.given newAceRes
  rw [addItems_of_not_mem h, ite_not]

theorem and_or_of_eq {a b m : UInt32} (ha : a &&& m = a) (hb : b &&& m = b) :
    (a ||| b) &&& m = a ||| b := by
  rw [UInt32.and_comm, Flags.and_or, UInt32.and_comm m a, UInt32.and_comm m b, ha, hb]

theorem getInterfaceMask_sound (f : Bytes) :
    ocRiGetInterfaceMask f &&& ifMask = ocRiGetInterfaceMask f := by
  have h : ∀ (p : Prop) [Decidable p] (v : UInt32), v &&& ifMask = v →
      (if p then v else 0) &&& ifMask = if p then v else 0 := by
    intro p _ v hv
    split
    · exact hv
    · exact UInt32.zero_and
  unfold ocRiGetInterfaceMask
  repeat' apply and_or_of_eq
  all_goals exact h _ _ (by decide)

theorem decodeInterfaces_sound {m : UInt32} (h : m &&& ifMask = m) (ss : List Bytes) :
    decodeInterfaces m ss &&& ifMask = decodeInterfaces m ss := by
  induction ss generalizing m with
  | nil => exact h
  | cons f ss ih =>
    unfold decodeInterfaces
    split
    · exact and_or_of_eq h (by decide)
    · exact ih (and_or_of_eq h (getInterfaceMask_sound f))

theorem decodeAceRes_sound {r : ResDraft} (h : r.Sound) (p : Rep) : (decodeAceRes r p).Sound := by
  unfold decodeAceRes
  split
  · next s _ =>
    split
    · refine ⟨?_, h.wildcard, h.ifaceMask⟩
      rw [← cstr_eq_self_iff]
      exact cstr_cstr s
    · split
      · refine ⟨h.href, ?_, h.ifaceMask⟩
        have hw := h.wildcard
        unfold decodeWildcard
        split
        · simp
        · split
          · simp
          · split
            · simp
            · exact hw
      · exact h
  · next ss _ =>
    split
    · exact ⟨h.href, h.wildcard, decodeInterfaces_sound h.ifaceMask ss⟩
    · split
      · exact ⟨h.href, h.wildcard, h.ifaceMask⟩
      · exact h
  · exact h

theorem resDraft_sound (resource : List Rep) : (resDraft resource).Sound := by
  have h0 : ResDraft.empty.Sound := ⟨List.not_mem_nil, List.mem_cons_self, UInt32.zero_and⟩
  unfold resDraft
  generalize ResDraft.empty = r at h0
  induction resource generalizing r with
  | nil => exact h0
  | cons p resource ih => exact ih _ (decodeAceRes_sound h0 p)

theorem drafts_sound {d : AceDraft} {r : ResDraft} (h : r ∈ d.drafts) : r.Sound := by
  obtain ⟨resource, _, rfl⟩ := List.mem_map.mp h
  exact resDraft_sound resource

theorem ResDraft.Sound.wildcard_ne_zero {r : ResDraft} (h : r.Sound) : r.wildcard ≠ 0 := by
  intro h0
  have := h.wildcard
  rw [h0] at this
  exact absurd this (by decide)

/-- the criteria of an entry are what it was given by -/
theorem ResDraft.Filled.query_entry {r : ResDraft} (h : r.Filled) (hs : r.Sound) :
    r.entry.query = r := by
  obtain ⟨href, wildcard, ifaceMask, rt⟩ := r
  obtain ⟨h1, h2, h3⟩ := h
  have hw := hs.wildcard_ne_zero
  rw [ResDraft.entry_eq_given h3]
  unfold ResDraft.given AceRes.query
  dsimp only at h1 h2 h3 hw ⊢
  congr 1
  · cases href with
    | none => rfl
    | some href => exact if_neg fun he => h1 (congrArg some he)
  · by_cases hn : wildcard = noWc
    · rw [if_pos hn, if_pos rfl, hn]
    · rw [if_neg hn, if_neg hw]
  · cases rt with
    | none => rfl
    | some rt => exact if_neg fun he => h2 (congrArg some he)

theorem ResDraft.Plain.lasting {r : ResDraft} (h : r.Plain) (hs : r.Sound) : r.entry.Lasting := by
  rw [ResDraft.entry_eq_given h.1.2.2]
  refine ⟨?_, hs.href, ?_, hs.ifaceMask, h.1.2.2⟩
  · rcases h.2 with he | he
    · exact Or.inl (congrArg (·.getD []) he)
    · exact Or.inr (if_pos he)
  · have hw := hs.wildcard
    show (if r.wildcard = noWc then 0 else r.wildcard) ∈ _
    split
    · exact List.mem_cons_self
    · next hn => exact List.mem_cons_of_mem 0 ((List.mem_cons.mp hw).resolve_left hn)

/-! ## the property -/

/-- the ACE of a payload gives an id of its own -/
def Explicit (e : List Rep) : Prop :=
  ∃ p ∈ e, p.named "aceid" = true ∧ ∃ n, p.value = .int n

/-- no later ACE gives the id again -/
def Last (e : List Rep) (post : List (List Rep)) : Prop :=
  ∀ f ∈ post, Explicit f → (aceDraft f).aceid ≠ (aceDraft e).aceid

/-- exactly one ACE has the id, and it is the one that was sent -/
def Sent (aces : List Ace) (d : AceDraft) : Prop :=
  ∃ ace, aces.filter (·.aceid = d.aceid) = [ace] ∧ ace.subject = d.subject.subject ∧
    ace.permission = d.permission ∧ ace.resources.Perm (d.drafts.map ResDraft.given)

/-- every ACE of the payload with an id that does not come again is in the ACL as it was sent, and the
ACL comes back from its own payload -/
def StoresSent (pf : Platform) (rep : List Rep) (acl : Acl) : Prop :=
  (∀ pre e post, payloadAces rep = pre ++ e :: post → Explicit e → Last e post →
    Sent acl.subjects (aceDraft e)) ∧ ReadsBack pf acl

/-! ## the condition -/

/-- no entry of the ACE is found in one before it, and they come back as they are -/
structure AceDraft.Whole (d : AceDraft) : Prop where
  subject : d.subject.subject.Lasting
  some : d.drafts ≠ []
  apart : d.drafts.Pairwise fun a b => b.finds a.entry = false
  lasting : LastingEntries (d.drafts.map ResDraft.entry)

/-- the texts of the ACE are such that any part of it comes back -/
def AceDraft.Plain (d : AceDraft) : Prop := d.subject.subject.Lasting ∧ ∀ r ∈ d.drafts, r.Plain

/-- what the payload and the ACEs before have to be like: an ACE with an id is whole, and what ACEs
without an id bring to it later is found there already; ACEs without an id are plain; and the ACEs that
stay come back as they are -/
structure Provisionable (pf : Platform) (x : List Ace × Nat) (es : List (List Rep)) : Prop where
  sent : ∀ pre e post, es = pre ++ e :: post → Explicit e → Last e post →
    (aceDraft e).aceid ≠ -1 ∧ (aceDraft e).Whole ∧
      ∀ r ∈ joined pf (aceDraft e).aceid ((pre ++ [e]).foldl (decodeAclEntry pf) x) post,
        ((aceDraft e).drafts.map ResDraft.entry).any r.finds = true
  plain : ∀ e ∈ es, (aceDraft e).aceid = -1 → (aceDraft e).Plain
  lasting : ∀ ace ∈ x.1, Spared ace.aceid es → ace.Lasting

section
variable {pf : Platform} {x : List Ace × Nat} {e : List Rep} {es post : List (List Rep)}

theorem explicit_of_aceid (h : (aceDraft e).aceid ≠ -1) : Explicit e := by
  suffices hs : ∀ d : AceDraft, (e.foldl decodeAce d).aceid ≠ d.aceid → Explicit e from
    hs AceDraft.empty h
  clear h
  induction e with
  | nil => exact fun d hd => absurd rfl hd
  | cons p e ih =>
    intro d hd
    by_cases hp : (decodeAce d p).aceid = d.aceid
    · rw [List.foldl_cons, ← hp] at hd
      obtain ⟨q, hq, hn⟩ := ih _ hd
      exact ⟨q, List.mem_cons_of_mem p hq, hn⟩
    · refine ⟨p, List.mem_cons_self, ?_⟩
      unfold decodeAce at hp
      split at hp
      · next n hv =>
        split at hp
        · exact absurd rfl hp
        · split at hp
          · next hn => exact ⟨hn, n, hv⟩
          · exact absurd rfl hp
      · split at hp
        · exact absurd rfl hp
        · exact absurd rfl hp
      · exact absurd rfl hp
      · exact absurd rfl hp

theorem spared_of_last (h : Last e post) : Spared (aceDraft e).aceid post :=
  fun f hf hne => h f hf (explicit_of_aceid hne)

theorem last_of_spared (hid : (aceDraft e).aceid ≠ -1) (h : Spared (aceDraft e).aceid post) :
    Last e post := by
  intro f hf _ he
  exact h f hf (he ▸ hid) he

theorem LastingEntries.gather {l : List AceRes} (h : LastingEntries l) {rs : List ResDraft}
    (hr : ∀ r ∈ rs, r.Plain ∧ r.Sound) :
    LastingEntries (gather ResDraft.finds ResDraft.entry l rs) := by
  constructor
  · intro res hm
    rcases mem_gather hm with hl | ⟨r, hrs, rfl⟩
    · exact h.each res hl
    · exact (hr r hrs).1.lasting (hr r hrs).2
  · refine gather_pairwise ?_ h.apart
    intro r hrs res
    rw [(hr r hrs).1.1.query_entry (hr r hrs).2]

theorem AceDraft.gathered_ne_nil {d : AceDraft} (h : d.drafts ≠ []) : d.gathered ≠ [] := by
  unfold AceDraft.gathered
  cases hd : d.drafts with
  | nil => exact absurd hd h
  | cons r rs =>
    intro hn
    have hpre : [r.entry].IsPrefix (Gather.gather ResDraft.finds ResDraft.entry [r.entry] rs) :=
      isPrefix_gather
    have hnil : Gather.gather ResDraft.finds ResDraft.entry [r.entry] rs = [] := hn
    rw [hnil] at hpre
    exact List.cons_ne_nil _ _ (List.prefix_nil.mp hpre)

/-- plain entries can be added to an ACE that comes back -/
theorem Ace.Lasting.extend {ace : Ace} (h : ace.Lasting) {rs : List ResDraft}
    (hr : ∀ r ∈ rs, r.Plain ∧ r.Sound) : (ace.extend rs).Lasting := by
  refine ⟨h.aceid, h.subject, ?_, h.entries.gather hr⟩
  have hpre : ace.resources.IsPrefix (ace.extend rs).resources := isPrefix_gather
  intro hn
  rw [hn] at hpre
  exact h.resources (List.prefix_nil.mp hpre)

/-- and one that has come back had to begin with, if it had entries -/
theorem Ace.Lasting.of_extend {ace : Ace} {rs : List ResDraft} (h : (ace.extend rs).Lasting)
    (hne : ace.resources ≠ []) : ace.Lasting := by
  have hpre : ace.resources.IsPrefix (ace.extend rs).resources := isPrefix_gather
  refine ⟨h.aceid, h.subject, hne, ?_, ?_⟩
  · intro res hm
    exact h.entries.each res (hpre.subset hm)
  · exact h.entries.apart.sublist hpre.sublist

theorem AceDraft.Plain.made_lasting {d : AceDraft} (h : d.Plain) {id : Int} (hid : id ≠ -1) :
    ∀ ace ∈ d.made id, ace.Lasting := by
  intro ace hm
  unfold AceDraft.made at hm
  split at hm
  · exact absurd hm List.not_mem_nil
  · next hd =>
    rw [List.mem_singleton.mp hm]
    have h0 : LastingEntries [] := ⟨List.forall_mem_nil _, List.Pairwise.nil⟩
    exact ⟨hid, h.1, AceDraft.gathered_ne_nil hd, h0.gather fun r hr => ⟨h.2 r hr, drafts_sound hr⟩⟩

theorem AceDraft.Whole.gathered_eq {d : AceDraft} (h : d.Whole) :
    d.gathered = d.drafts.map ResDraft.entry :=
  gather_of_apart ⟨fun _ _ => rfl, h.apart⟩

theorem AceDraft.Whole.built_eq {d : AceDraft} (h : d.Whole) :
    built d = [⟨d.drafts.map ResDraft.entry, d.subject.subject, d.aceid, d.permission⟩] := by
  unfold built AceDraft.made
  rw [if_neg h.some, h.gathered_eq]

theorem AceDraft.Whole.built_lasting {d : AceDraft} (h : d.Whole) (hid : d.aceid ≠ -1) :
    ∀ ace ∈ built d, ace.Lasting := by
  intro ace hm
  rw [h.built_eq] at hm
  rw [List.mem_singleton.mp hm]
  exact ⟨hid, h.subject, fun hn => h.some (List.map_eq_nil_iff.mp hn), h.lasting⟩

theorem aceid_of_mem_made {d : AceDraft} {id : Int} {ace : Ace} (h : ace ∈ d.made id) :
    ace.aceid = id := by
  unfold AceDraft.made at h
  split at h
  · exact absurd h List.not_mem_nil
  · rw [List.mem_singleton.mp h]

/-! ## the condition is enough -/

theorem decodeAclEntry_lasting (pf : Platform) (hn : (aceids x.1).Nodup)
    (hplain : (aceDraft e).aceid = -1 → (aceDraft e).Plain)
    (hbuilt : (aceDraft e).aceid ≠ -1 → Spared (aceDraft e).aceid post →
      ∀ ace ∈ built (aceDraft e), ace.Lasting)
    (hx : ∀ ace ∈ x.1, Spared ace.aceid (e :: post) → ace.Lasting) :
    ∀ ace ∈ (decodeAclEntry pf x e).1, Spared ace.aceid post → ace.Lasting := by
  intro ace hm hs
  by_cases hid : (aceDraft e).aceid = -1
  · have hstay : ∀ b ∈ x.1, Spared b.aceid post → b.Lasting := by
      intro b hb hbs
      exact hx b hb (List.forall_mem_cons.mpr ⟨fun hne => absurd hid hne, hbs⟩)
    cases hh : (aceDraft e).host x.1 with
    | some b =>
      obtain ⟨l, m, hxl, hd⟩ := decodeAclEntry_host pf hid hh
      rw [hxl] at hstay
      rw [hd] at hm
      rcases List.mem_append.mp hm with hm | hm
      · exact hstay ace (List.mem_append_left _ hm) hs
      · rcases List.mem_cons.mp hm with rfl | hm
        · have hb := hstay b (List.mem_append_right l List.mem_cons_self) hs
          exact hb.extend fun r hr => ⟨(hplain hid).2 r hr, drafts_sound hr⟩
        · exact hstay ace (List.mem_append_right l (List.mem_cons_of_mem b hm)) hs
    | none =>
      obtain ⟨n, hd⟩ := decodeAclEntry_new pf hid hh
      rw [hd] at hm
      rcases List.mem_append.mp hm with hm | hm
      · exact hstay ace hm hs
      · refine (hplain hid).made_lasting ?_ ace hm
        have := pf.newId_nonneg x.2 (x.1.map Ace.aceid)
        omega
  · rw [decodeAclEntry_id hid hn] at hm
    rcases List.mem_append.mp hm with hm | hm
    · have hne : (aceDraft e).aceid ≠ ace.aceid := by
        intro he
        exact not_mem_removeAce hn _ (he ▸ List.mem_map_of_mem hm)
      exact hx ace (List.eraseP_subset hm) (List.forall_mem_cons.mpr ⟨fun _ => hne, hs⟩)
    · exact hbuilt hid (aceid_of_mem_made hm ▸ hs) ace hm

theorem foldl_lasting (hn : (aceids x.1).Nodup)
    (hplain : ∀ e ∈ es, (aceDraft e).aceid = -1 → (aceDraft e).Plain)
    (hbuilt : ∀ pre e post, es = pre ++ e :: post → (aceDraft e).aceid ≠ -1 →
      Spared (aceDraft e).aceid post → ∀ ace ∈ built (aceDraft e), ace.Lasting)
    (hx : ∀ ace ∈ x.1, Spared ace.aceid es → ace.Lasting) :
    ∀ ace ∈ (es.foldl (decodeAclEntry pf) x).1, ace.Lasting := by
  induction es generalizing x with
  | nil => exact fun ace hm => hx ace hm (List.forall_mem_nil _)
  | cons e es ih =>
    obtain ⟨hp, hps⟩ := List.forall_mem_cons.mp hplain
    have hx' := decodeAclEntry_lasting pf hn hp (hbuilt [] e es rfl) hx
    refine ih (decodeAclEntry_nodup pf e hn) hps ?_ hx'
    intro pre f post hs
    exact hbuilt (e :: pre) f post (congrArg (e :: ·) hs)

/-- the ACE of a payload whose id does not come again -/
theorem mem_foldl_built (pf : Platform) {pre : List (List Rep)} (hn : (aceids x.1).Nodup)
    (hid : (aceDraft e).aceid ≠ -1) {ace : Ace} (hm : ace ∈ built (aceDraft e))
    (hs : es = pre ++ e :: post) (hl : Last e post) :
    ace.extend (joined pf (aceDraft e).aceid ((pre ++ [e]).foldl (decodeAclEntry pf) x) post) ∈
      (es.foldl (decodeAclEntry pf) x).1 := by
  have hin : ace ∈ ((pre ++ [e]).foldl (decodeAclEntry pf) x).1 := by
    rw [List.foldl_append, List.foldl_cons, List.foldl_nil,
      decodeAclEntry_id hid (foldl_decodeAclEntry_nodup pf pre hn)]
    exact List.mem_append_right _ hm
  have ha : ace.aceid = (aceDraft e).aceid := aceid_of_mem_made hm
  have hsp : Spared ace.aceid post := ha ▸ spared_of_last hl
  have hk := foldl_kept pf (foldl_decodeAclEntry_nodup pf (pre ++ [e]) hn) hin hsp
  rw [← ha, hs, List.append_cons, List.foldl_append]
  exact hk

theorem Provisionable.holds_sent (h : Provisionable pf x es) (hn : (aceids x.1).Nodup)
    {pre : List (List Rep)} (hs : es = pre ++ e :: post) (he : Explicit e) (hl : Last e post) :
    Sent (es.foldl (decodeAclEntry pf) x).1 (aceDraft e) := by
  obtain ⟨hid, hw, hj⟩ := h.sent pre e post hs he hl
  have hm : ⟨(aceDraft e).drafts.map ResDraft.entry, (aceDraft e).subject.subject,
      (aceDraft e).aceid, (aceDraft e).permission⟩ ∈ built (aceDraft e) := by
    rw [hw.built_eq]
    exact List.mem_singleton_self _
  have hk := mem_foldl_built pf hn hid hm hs hl
  -- what is brought to it later is there already
  unfold Ace.extend at hk
  rw [gather_of_found hj] at hk
  refine ⟨_, filter_aceid (foldl_decodeAclEntry_nodup pf es hn) hk, rfl, rfl, ?_⟩
  have hgiven : (aceDraft e).drafts.map ResDraft.entry =
      (aceDraft e).drafts.map ResDraft.given := by
    apply List.map_congr_left
    intro r hr
    apply ResDraft.entry_eq_given
    intro hnil
    exact (hw.lasting.each _ (List.mem_map_of_mem hr)).types (mem_addItems.mpr hnil)
  exact List.Perm.of_eq hgiven

theorem Provisionable.holds_lasting (h : Provisionable pf x es) (hn : (aceids x.1).Nodup) :
    ∀ ace ∈ (es.foldl (decodeAclEntry pf) x).1, ace.Lasting := by
  refine foldl_lasting hn h.plain ?_ h.lasting
  intro pre e post hs hid hsp
  have hw := (h.sent pre e post hs (explicit_of_aceid hid) (last_of_spared hid hsp)).2.1
  exact hw.built_lasting hid

/-! ## and it is needed -/

/-- payloads in which every ACE has an id, or no text is empty -/
def Regular (es : List (List Rep)) : Prop :=
  (∀ e ∈ es, (aceDraft e).aceid ≠ -1) ∨
    ∀ e ∈ es, (∀ r ∈ (aceDraft e).drafts, r.Filled) ∧
      ((aceDraft e).aceid = -1 → (aceDraft e).Plain)

theorem joined_of_ids {id : Int} (h : ∀ e ∈ es, (aceDraft e).aceid ≠ -1) :
    joined pf id x es = [] := by
  induction es generalizing x with
  | nil => rfl
  | cons e es ih =>
    obtain ⟨he, hes⟩ := List.forall_mem_cons.mp h
    have hj : joinedBy id x.1 e = [] := if_neg fun hc => he hc.1
    rw [joined, hj, ih hes]
    rfl

theorem mem_joined {id : Int} {r : ResDraft} (h : r ∈ joined pf id x es) :
    ∃ e ∈ es, r ∈ (aceDraft e).drafts := by
  induction es generalizing x with
  | nil => exact absurd h List.not_mem_nil
  | cons e es ih =>
    rcases List.mem_append.mp h with h | h
    · unfold joinedBy at h
      split at h
      · exact ⟨e, List.mem_cons_self, h⟩
      · exact absurd h List.not_mem_nil
    · obtain ⟨f, hf, hr⟩ := ih h
      exact ⟨f, List.mem_cons_of_mem e hf, hr⟩

/-- entries that are kept alike are found alike -/
theorem Regular.alike {pre : List (List Rep)} (h : Regular es) (hs : es = pre ++ e :: post)
    {id : Int} {y : List Ace × Nat} : joined pf id y post = [] ∨
      ∀ a ∈ (aceDraft e).drafts, ∀ c ∈ (aceDraft e).drafts ++ joined pf id y post,
        c.entry = a.entry → c.finds = a.finds := by
  have he : e ∈ es := hs ▸ List.mem_append_right pre List.mem_cons_self
  have hpost : ∀ f ∈ post, f ∈ es := fun f hf =>
    hs ▸ List.mem_append_right pre (List.mem_cons_of_mem e hf)
  rcases h with h | h
  · exact Or.inl (joined_of_ids fun f hf => h f (hpost f hf))
  · right
    have hquery : ∀ c ∈ (aceDraft e).drafts ++ joined pf id y post, c.entry.query = c := by
      intro c hc
      rcases List.mem_append.mp hc with hc | hc
      · exact ((h e he).1 c hc).query_entry (drafts_sound hc)
      · obtain ⟨f, hf, hr⟩ := mem_joined hc
        exact ((h f (hpost f hf)).1 c hr).query_entry (drafts_sound hr)
    intro a ha c hc hac
    have hca : c = a := by
      rw [← hquery c hc, hac, hquery a (List.mem_append_left _ ha)]
    rw [hca]

theorem sent_needed {pre : List (List Rep)} (hn : (aceids x.1).Nodup) (hreg : Regular es)
    (hs : es = pre ++ e :: post) (hl : Last e post)
    (hsent : Sent (es.foldl (decodeAclEntry pf) x).1 (aceDraft e))
    (hlast : ∀ ace ∈ (es.foldl (decodeAclEntry pf) x).1, ace.Lasting) :
    (aceDraft e).aceid ≠ -1 ∧ (aceDraft e).Whole ∧
      ∀ r ∈ joined pf (aceDraft e).aceid ((pre ++ [e]).foldl (decodeAclEntry pf) x) post,
        ((aceDraft e).drafts.map ResDraft.entry).any r.finds = true := by
  obtain ⟨ace, hf, hsub, -, hres⟩ := hsent
  have hin : ace ∈ (es.foldl (decodeAclEntry pf) x).1 ∧ ace.aceid = (aceDraft e).aceid := by
    have hmem : ace ∈ (es.foldl (decodeAclEntry pf) x).1.filter (·.aceid = (aceDraft e).aceid) :=
      hf ▸ List.mem_singleton_self ace
    exact ⟨(List.mem_filter.mp hmem).1, of_decide_eq_true (List.mem_filter.mp hmem).2⟩
  have hace := hlast ace hin.1
  have hid : (aceDraft e).aceid ≠ -1 := hin.2 ▸ hace.aceid
  have hd : (aceDraft e).drafts ≠ [] := by
    intro hd
    rw [hd] at hres
    exact hace.resources hres.eq_nil
  -- the ACE that the payload has made, and what it has become
  have hm : ⟨(aceDraft e).gathered, (aceDraft e).subject.subject, (aceDraft e).aceid,
      (aceDraft e).permission⟩ ∈ built (aceDraft e) := by
    unfold built AceDraft.made
    rw [if_neg hd]
    exact List.mem_singleton_self _
  have hk := mem_foldl_built pf hn hid hm hs hl
  have hkl := hlast _ hk
  have heq := eq_of_aceid (foldl_decodeAclEntry_nodup pf es hn) hin.1 hk hin.2
  have hgiven : (aceDraft e).drafts.map ResDraft.given =
      (aceDraft e).drafts.map ResDraft.entry := by
    apply List.map_congr_left
    intro r hr
    have hr' := hace.entries.each _ (hres.mem_iff.mpr (List.mem_map_of_mem hr))
    exact (ResDraft.entry_eq_given hr'.types).symm
  rw [heq, hgiven] at hres
  have hall : (gather ResDraft.finds ResDraft.entry [] ((aceDraft e).drafts ++ joined pf
      (aceDraft e).aceid ((pre ++ [e]).foldl (decodeAclEntry pf) x) post)).Perm
        ((aceDraft e).drafts.map ResDraft.entry) := by
    rw [gather_append]
    exact hres
  have hapart := apart_of_perm (hreg.alike hs) hall
  have hgath : (aceDraft e).gathered = (aceDraft e).drafts.map ResDraft.entry :=
    gather_of_apart hapart
  have hown := Ace.Lasting.of_extend hkl (AceDraft.gathered_ne_nil hd)
  refine ⟨hid, ⟨hsub ▸ hace.subject, hd, hapart.2, hgath ▸ hown.entries⟩, ?_⟩
  apply found_of_length
  have hlen := hres.length_eq
  unfold Ace.extend at hlen
  dsimp only at hlen
  rw [hgath] at hlen
  exact hlen

/-- the payload and the ACL have to be like that -/
theorem provisionable_of_stored (hn : (aceids x.1).Nodup) (hreg : Regular es)
    (hne : ∀ ace ∈ x.1, ace.resources ≠ [])
    (hsent : ∀ pre e post, es = pre ++ e :: post → Explicit e → Last e post →
      Sent (es.foldl (decodeAclEntry pf) x).1 (aceDraft e))
    (hlast : ∀ ace ∈ (es.foldl (decodeAclEntry pf) x).1, ace.Lasting) :
    Provisionable pf x es := by
  constructor
  · intro pre e post hs he hl
    exact sent_needed hn hreg hs hl (hsent pre e post hs he hl) hlast
  · intro e he hid
    rcases hreg with h | h
    · exact absurd hid (h e he)
    · exact (h e he).2 hid
  · intro ace ha hsp
    exact Ace.Lasting.of_extend (hlast _ (foldl_kept pf hn ha hsp)) (hne ace ha)

end

/-! ## `oc_sec_decode_acl` -/

/-- an ACE with an id for authenticated connections -/
def connAce (resources : List (List Rep)) : List Rep :=
  [.mk (ascii "aceid") (.int 5), .mk (ascii "permission") (.int 6),
    .mk (ascii "subject") (.object [textProp "conntype" (ascii "auth-crypt")]),
    .mk (ascii "resources") (.objectArray resources)]

/-- a payload with that ACE -/
def connPayload (resources : List (List Rep)) : List Rep :=
  [.mk (ascii "aclist2") (.objectArray [connAce resources])]

/-- two resources by their hrefs -/
def hrefPayload : List Rep :=
  connPayload [[textProp "href" (ascii "/a")], [textProp "href" (ascii "/b")]]

/-- all secured resources, and one by its href -/
def wcPayload : List Rep := connPayload [[textProp "wc" (ascii "+")], [textProp "href" (ascii "/x")]]

theorem provisionable_single {pf : Platform} {n : Nat} {e : List Rep} (hid : (aceDraft e).aceid ≠ -1)
    (hw : (aceDraft e).Whole) : Provisionable pf ([], n) [e] := by
  constructor
  · intro pre f post hs _ _
    obtain ⟨-, h⟩ | ⟨-, h⟩ := List.append_eq_singleton_iff.mp hs.symm
    · rw [(List.cons.inj h).1, (List.cons.inj h).2]
      exact ⟨hid, hw, List.forall_mem_nil _⟩
    · exact absurd h (List.cons_ne_nil f post)
  · intro f hf h
    rw [List.mem_singleton.mp hf] at h
    exact absurd h hid
  · exact List.forall_mem_nil _

end Security
