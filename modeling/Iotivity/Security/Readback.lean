import Iotivity.Lib.Gather
import Iotivity.Security.Boot
import Iotivity.Security.Identifiers

/-!
# Writing an ACL and reading it back: `oc_sec_encode_acl`

An ACE of a payload that has an id takes the place of the ACE with that id, and its entries go in one
after the other (`built`).  An entry that the matcher of the access check finds among those before it
is left out.

* `ocSecEncodeAcl`     the ACL as a payload;
* `Ace.Lasting`        what an ACE has to be like to come back from its payload;
* `readsBack_iff`      an ACL comes back exactly when all of its ACEs are like that.
-/

namespace Security
open Gather

/-! ## the payload -/

/-- the interfaces in the order of `oc_core_encode_interfaces_mask` -/
def ifFlags : List UInt32 := [4, 8, 16, 32, 64, 128, 2]

def ifName (f : UInt32) : Bytes :=
  if f = 4 then ascii "oic.if.ll"
  else if f = 8 then ascii "oic.if.b"
  else if f = 16 then ascii "oic.if.r"
  else if f = 32 then ascii "oic.if.rw"
  else if f = 64 then ascii "oic.if.a"
  else if f = 128 then ascii "oic.if.s"
  else ascii "oic.if.baseline"

/-- `oc_core_encode_interfaces_mask` -/
def ocCoreEncodeInterfacesMask (mask : UInt32) : Rep := arrayProp "if" (Flags.names ifName ifFlags mask)

/-- the text of a wildcard, if it has one -/
def wcText (wildcard : UInt32) : Option Bytes :=
  if wildcard = wcAllSecured then some (ascii "+")
  else if wildcard = wcAllPublic then some (ascii "-")
  else if wildcard = wcAll then some (ascii "*")
  else none

/-- an element of `resources`; empty texts are left out of the types, and a wildcard is written for an
entry without a href only -/
def encodeAceRes (res : AceRes) : List Rep :=
  (if res.interfaces ≠ 0 then [ocCoreEncodeInterfacesMask res.interfaces] else []) ++
  (if res.types ≠ [] then [arrayProp "rt" (res.types.filter (· ≠ []))] else []) ++
  if res.href ≠ [] then [textProp "href" res.href]
  else ((wcText res.wildcard).map (textProp "wc")).toList

def encodeSubject : Subject → List Rep
  | .uuid u => [textProp "uuid" (ocUuidToStr u)]
  | .role role authority =>
    textProp "role" role :: if authority ≠ [] then [textProp "authority" authority] else []
  | .conn .authCrypt => [textProp "conntype" (ascii "auth-crypt")]
  | .conn .anonClear => [textProp "conntype" (ascii "anon-clear")]

/-- an array of objects; the parser takes an empty array for a value of no type -/
def objectsProp (name : String) (objs : List (List Rep)) : Rep :=
  .mk (ascii name) (if objs = [] then .nil else .objectArray objs)

/-- an element of `aclist2` -/
def encodeAce (ace : Ace) : List Rep :=
  [.mk (ascii "subject") (.object (encodeSubject ace.subject)),
    objectsProp "resources" (ace.resources.map encodeAceRes),
    .mk (ascii "permission") (.int ace.permission.toNat), .mk (ascii "aceid") (.int ace.aceid)]

/-- `oc_sec_encode_acl` -/
def ocSecEncodeAcl (acl : Acl) : List Rep :=
  baselineProps "oic.r.acl2" ++ [objectsProp "aclist2" (acl.subjects.map encodeAce),
    textProp "rowneruuid" (ocUuidToStr acl.rowneruuid)]

/-! ## an ACE with an id -/

/-- what an element of `aclist2` says -/
def aceDraft (entry : List Rep) : AceDraft := entry.foldl decodeAce AceDraft.empty

/-- what an element of `resources` says -/
def resDraft (resource : List Rep) : ResDraft := resource.foldl decodeAceRes ResDraft.empty

/-- the entries of an ACE of a payload -/
def AceDraft.drafts (d : AceDraft) : List ResDraft := d.resources.map resDraft

/-- an entry that is there already, as `oc_sec_ace_find_resource` sees it -/
def ResDraft.finds (d : ResDraft) (res : AceRes) : Bool :=
  aceResTest d.href d.rt d.ifaceMask d.wildcard res

/-- the entry that is added -/
def ResDraft.entry (d : ResDraft) : AceRes := newAceRes d.href d.wildcard d.rt d.ifaceMask

/-- the entries that an ACE ends up with -/
def AceDraft.gathered (d : AceDraft) : List AceRes :=
  gather ResDraft.finds ResDraft.entry [] d.drafts

/-- the ACE that a payload makes under an id, if it has entries -/
def AceDraft.made (d : AceDraft) (id : Int) : List Ace :=
  if d.drafts = [] then [] else [⟨d.gathered, d.subject.subject, id, d.permission⟩]

/-- the ACE that a payload makes under its own id -/
def built (d : AceDraft) : List Ace := d.made d.aceid

/-- an ACE after more entries -/
def Ace.extend (ace : Ace) (rs : List ResDraft) : Ace :=
  { ace with resources := gather ResDraft.finds ResDraft.entry ace.resources rs }

/-- `oc_sec_ace_update_res` for an entry of an ACE of a payload -/
def AceDraft.update (pf : Platform) (d : AceDraft) (x : List Ace × Nat) (r : ResDraft) :
    List Ace × Nat :=
  ocSecAceUpdateRes pf d.subject.subject d.aceid d.permission r.href r.wildcard r.rt r.ifaceMask x

section
variable {pf : Platform} {x : List Ace × Nat} {entry : List Rep}

theorem decodeAclEntry_eq (pf : Platform) (x : List Ace × Nat) (entry : List Rep) :
    decodeAclEntry pf x entry = (aceDraft entry).drafts.foldl ((aceDraft entry).update pf)
      (if (aceDraft entry).aceid ≠ -1 then ocAclRemoveAce (aceDraft entry).aceid x.1 else x.1,
        x.2) := by
  unfold AceDraft.drafts
  rw [List.foldl_map]
  rfl

theorem find_eq_nil {α : Type} (p : α → Bool) (l : List α) :
    Scan.find p l = [] ↔ l.any p = false := by
  induction l with
  | nil => exact ⟨fun _ => rfl, fun _ => rfl⟩
  | cons a l ih =>
    unfold Scan.find
    rw [List.any_cons]
    cases hp : p a with
    | true =>
      rw [if_pos rfl]
      exact iff_of_false (by simp) (by simp)
    | false =>
      rw [if_neg Bool.false_ne_true, Bool.false_or]
      exact ih

theorem addRes_eq (ace : Ace) (r : ResDraft) : ace.addRes r.href r.wildcard r.rt r.ifaceMask =
    { ace with resources := Gather.add ResDraft.finds ResDraft.entry ace.resources r } := by
  have h : ocSecAceFindResource [] ace r.href r.rt r.ifaceMask r.wildcard = [] ↔
      ace.resources.any r.finds = false := find_eq_nil r.finds ace.resources
  unfold Ace.addRes Gather.add
  cases ha : ace.resources.any r.finds with
  | true =>
    rw [if_neg (by rw [h, ha]; simp), if_pos rfl]
  | false =>
    rw [if_pos (h.mpr ha), if_neg Bool.false_ne_true]
    rfl

theorem modify_length {α : Type} (l m : List α) (a : α) (f : α → α) :
    (l ++ a :: m).modify l.length f = l ++ f a :: m := by
  induction l with
  | nil => rfl
  | cons b l ih =>
    rw [List.cons_append, List.length_cons, List.modify_succ_cons, ih]
    rfl

/-- entries go to the first ACE that is found -/
theorem update_found {d : AceDraft} {l m : List Ace} {ace : Ace}
    (hl : ∀ a ∈ l, subjectTest d.subject.subject d.aceid d.permission a = false)
    (ha : subjectTest d.subject.subject d.aceid d.permission ace = true) (n : Nat) (r : ResDraft) :
    d.update pf (l ++ ace :: m, n) r = (l ++ ace.extend [r] :: m, n) := by
  have hidx : (l ++ ace :: m).findIdx? (subjectTest d.subject.subject d.aceid d.permission) =
      some l.length := by
    rw [List.findIdx?_append, List.findIdx?_eq_none_iff.mpr hl, List.findIdx?_cons, ha]
    simp
  unfold AceDraft.update ocSecAceUpdateRes
  rw [hidx]
  dsimp only
  rw [modify_length, addRes_eq]
  rfl

theorem foldl_update_found {d : AceDraft} {l m : List Ace} {ace : Ace}
    (hl : ∀ a ∈ l, subjectTest d.subject.subject d.aceid d.permission a = false)
    (ha : subjectTest d.subject.subject d.aceid d.permission ace = true) (n : Nat)
    (rs : List ResDraft) :
    rs.foldl (d.update pf) (l ++ ace :: m, n) = (l ++ ace.extend rs :: m, n) := by
  induction rs generalizing ace with
  | nil => rfl
  | cons r rs ih =>
    -- the entry does not change what the ACE is found by
    have hr : subjectTest d.subject.subject d.aceid d.permission (ace.extend [r]) = true := ha
    rw [List.foldl_cons, update_found hl ha, ih hr]
    rfl

/-- ACEs with other ids are not found -/
theorem subjectTest_other {d : AceDraft} (hid : d.aceid ≠ -1) {aces : List Ace}
    (hn : d.aceid ∉ aceids aces) :
    ∀ ace ∈ aces, subjectTest d.subject.subject d.aceid d.permission ace = false := by
  intro ace ha
  have hne : ace.aceid ≠ d.aceid := fun he => hn (he ▸ List.mem_map_of_mem ha)
  simp [subjectTest, hid, hne]

/-- the ACE of a payload that finds none: it is made with its first entry, and then found -/
theorem foldl_update_made {d : AceDraft} {aces : List Ace} {id : Int} {k n : Nat}
    (hf : ∀ a ∈ aces, subjectTest d.subject.subject d.aceid d.permission a = false)
    (hid : d.aceid = -1 ∨ id = d.aceid)
    (hfirst : ∀ r, d.update pf (aces, n) r =
      (aces ++ [⟨[r.entry], d.subject.subject, id, d.permission⟩], k))
    (hd : d.drafts ≠ []) :
    d.drafts.foldl (d.update pf) (aces, n) = (aces ++ d.made id, k) := by
  unfold AceDraft.made AceDraft.gathered
  cases hr : d.drafts with
  | nil => exact absurd hr hd
  | cons r rs =>
    have hself : subjectTest d.subject.subject d.aceid d.permission
        ⟨[r.entry], d.subject.subject, id, d.permission⟩ = true := by
      simp [subjectTest, hid]
    rw [List.foldl_cons, hfirst, foldl_update_found hf hself, if_neg (List.cons_ne_nil r rs)]
    rfl

/-- an ACE with an id takes the place of the one with that id -/
theorem decodeAclEntry_id (hid : (aceDraft entry).aceid ≠ -1) (hn : (aceids x.1).Nodup) :
    decodeAclEntry pf x entry =
      (ocAclRemoveAce (aceDraft entry).aceid x.1 ++ built (aceDraft entry), x.2) := by
  have hf := subjectTest_other hid (not_mem_removeAce hn (aceDraft entry).aceid)
  rw [decodeAclEntry_eq, if_pos hid]
  unfold built
  by_cases hd : (aceDraft entry).drafts = []
  · rw [hd, AceDraft.made, if_pos hd, List.append_nil]
    rfl
  · apply foldl_update_made hf (Or.inr rfl) _ hd
    intro r
    unfold AceDraft.update ocSecAceUpdateRes
    rw [List.findIdx?_eq_none_iff.mpr hf]
    exact if_neg hid

end

/-! ## what is read back -/

/-- the interfaces that have names -/
def ifMask : UInt32 := Flags.join ifFlags

theorem isFlag_if : ∀ f ∈ ifFlags, Flags.IsFlag f := by
  intro f hf
  simp only [ifFlags, List.mem_cons, List.not_mem_nil, or_false] at hf
  rcases hf with rfl | rfl | rfl | rfl | rfl | rfl | rfl
  · exact Flags.isFlag_of_twoPow 2 (by decide)
  · exact Flags.isFlag_of_twoPow 3 (by decide)
  · exact Flags.isFlag_of_twoPow 4 (by decide)
  · exact Flags.isFlag_of_twoPow 5 (by decide)
  · exact Flags.isFlag_of_twoPow 6 (by decide)
  · exact Flags.isFlag_of_twoPow 7 (by decide)
  · exact Flags.isFlag_of_twoPow 1 (by decide)

theorem decodeInterfaces_eq_foldl {ss : List Bytes} (h : ascii "*" ∉ ss) (m : UInt32) :
    decodeInterfaces m ss = ss.foldl (fun p s => p ||| ocRiGetInterfaceMask s) m := by
  induction ss generalizing m with
  | nil => rfl
  | cons f ss ih =>
    obtain ⟨hf, hs⟩ := not_or.mp (mt List.mem_cons.mpr h)
    unfold decodeInterfaces
    rw [if_neg (Ne.symm hf), ih hs]
    rfl

/-- a mask of interfaces comes back as far as it has names -/
theorem decode_interfaces (m : UInt32) :
    decodeInterfaces 0 (Flags.names ifName ifFlags m) = m &&& ifMask := by
  have hstar : ascii "*" ∉ Flags.names ifName ifFlags m := by
    unfold Flags.names
    intro h
    obtain ⟨f, hf, he⟩ := List.mem_map.mp h
    have hall : (ifFlags.all fun f => ifName f ≠ ascii "*") = true := by decide
    exact of_decide_eq_true (List.all_eq_true.mp hall f (List.mem_filter.mp hf).1) he
  have hall : (ifFlags.all fun f => ocRiGetInterfaceMask (ifName f) = f) = true := by decide
  have hv : ∀ f ∈ ifFlags, ocRiGetInterfaceMask (ifName f) = f :=
    fun f hf => of_decide_eq_true (List.all_eq_true.mp hall f hf)
  have h := Flags.foldl_names ifName isFlag_if hv m 0
  rw [UInt32.zero_or] at h
  rw [decodeInterfaces_eq_foldl hstar]
  exact h

/-- an entry as its element of `resources` is read -/
def AceRes.readBack (res : AceRes) : ResDraft where
  href := if res.href = [] then none else some (cstr res.href)
  wildcard := if res.href = [] then (if (wcText res.wildcard).isSome then res.wildcard else noWc)
    else noWc
  ifaceMask := res.interfaces &&& ifMask
  rt := if res.types.filter (· ≠ []) = [] then none else some (res.types.filter (· ≠ []))

theorem resDraft_encodeIf (mask : UInt32) (d : ResDraft) (hd : d.ifaceMask = 0) :
    (if mask ≠ 0 then [ocCoreEncodeInterfacesMask mask] else []).foldl decodeAceRes d =
      { d with ifaceMask := mask &&& ifMask } := by
  by_cases h : mask = 0
  · rw [if_neg (not_not.mpr h), h, UInt32.zero_and, ← hd]
    rfl
  · rw [if_pos h]
    show decodeAceRes d (ocCoreEncodeInterfacesMask mask) = _
    unfold ocCoreEncodeInterfacesMask arrayProp
    by_cases hn : Flags.names ifName ifFlags mask = []
    · rw [if_pos hn, ← decode_interfaces, hn]
      show d = { d with ifaceMask := 0 }
      rw [← hd]
    · rw [if_neg hn, ← decode_interfaces, ← hd]
      rfl

theorem resDraft_encodeRt (types : List Bytes) (d : ResDraft) (hd : d.rt = none) :
    (if types ≠ [] then [arrayProp "rt" (types.filter (· ≠ []))] else []).foldl decodeAceRes d =
      { d with rt := if types.filter (· ≠ []) = [] then none else some (types.filter (· ≠ [])) } := by
  by_cases h : types = []
  · rw [if_neg (not_not.mpr h), h]
    show d = { d with rt := none }
    rw [← hd]
  · rw [if_pos h]
    show decodeAceRes d (arrayProp "rt" (types.filter (· ≠ []))) = _
    unfold arrayProp
    by_cases hn : types.filter (· ≠ []) = []
    · rw [if_pos hn, if_pos hn, ← hd]
      rfl
    · rw [if_neg hn, if_neg hn]
      rfl

theorem resDraft_encodeWc (wildcard : UInt32) (d : ResDraft) (hd : d.wildcard = noWc) :
    ((wcText wildcard).map (textProp "wc")).toList.foldl decodeAceRes d =
      { d with wildcard := if (wcText wildcard).isSome then wildcard else noWc } := by
  unfold wcText
  split
  · next h =>
    rw [h]
    rfl
  · split
    · next h =>
      rw [h]
      rfl
    · split
      · next h =>
        rw [h]
        rfl
      · show d = { d with wildcard := noWc }
        rw [← hd]

theorem cstr_cstr (b : Bytes) : cstr (cstr b) = cstr b := by
  rw [cstr_eq_self_iff]
  intro h
  simpa using List.mem_takeWhile_imp h

/-- an entry as its element of `resources` is read -/
theorem resDraft_encode (res : AceRes) : resDraft (encodeAceRes res) = res.readBack := by
  unfold resDraft encodeAceRes
  rw [List.foldl_append, List.foldl_append, resDraft_encodeIf _ _ rfl, resDraft_encodeRt _ _ rfl]
  unfold AceRes.readBack
  by_cases h : res.href = []
  · rw [if_neg (not_not.mpr h), if_pos h, if_pos h, resDraft_encodeWc _ _ rfl]
    rfl
  · rw [if_pos h, if_neg h, if_neg h, ← cstr_cstr]
    rfl

/-- an entry that comes back as it is -/
structure AceRes.Lasting (res : AceRes) : Prop where
  href_or_wc : res.href = [] ∨ res.wildcard = 0
  href : 0 ∉ res.href
  wildcard : res.wildcard ∈ [0, wcAll, wcAllSecured, wcAllPublic]
  interfaces : res.interfaces &&& ifMask = res.interfaces
  types : [] ∉ res.types

instance (res : AceRes) : Decidable res.Lasting :=
  decidable_of_iff ((res.href = [] ∨ res.wildcard = 0) ∧ 0 ∉ res.href ∧
      res.wildcard ∈ [0, wcAll, wcAllSecured, wcAllPublic] ∧
      res.interfaces &&& ifMask = res.interfaces ∧ [] ∉ res.types)
    ⟨fun h => ⟨h.1, h.2.1, h.2.2.1, h.2.2.2.1, h.2.2.2.2⟩,
      fun h => ⟨h.href_or_wc, h.href, h.wildcard, h.interfaces, h.types⟩⟩

theorem wcText_isSome (w : UInt32) :
    (wcText w).isSome = true ↔ w = wcAllSecured ∨ w = wcAllPublic ∨ w = wcAll := by
  unfold wcText
  split
  · next h => exact iff_of_true rfl (Or.inl h)
  · next h1 =>
    split
    · next h => exact iff_of_true rfl (Or.inr (Or.inl h))
    · next h2 =>
      split
      · next h => exact iff_of_true rfl (Or.inr (Or.inr h))
      · next h3 => exact iff_of_false (by simp) (by simp [h1, h2, h3])

theorem addItems_of_not_mem {ss : List Bytes} (h : [] ∉ ss) : addItems ss = ss := by
  have h1 : ss.filter (· ≠ []) = ss := by
    apply List.filter_eq_self.mpr
    intro s hs
    exact decide_eq_true fun he => h (he ▸ hs)
  have h2 : ss.filter (· = []) = [] := by
    apply List.filter_eq_nil_iff.mpr
    intro s hs he
    rw [of_decide_eq_true he] at hs
    exact h hs
  rw [addItems, h1, h2, List.append_nil]

theorem nil_not_mem_filter (ss : List Bytes) : [] ∉ ss.filter (· ≠ []) := by
  intro h
  simpa using (List.mem_filter.mp h).2

/-- the entry that is read back -/
theorem readBack_entry (res : AceRes) : res.readBack.entry =
    ⟨cstr res.href, res.interfaces &&& ifMask, res.types.filter (· ≠ []),
      if res.href = [] ∧ (wcText res.wildcard).isSome then res.wildcard else 0⟩ := by
  unfold ResDraft.entry newAceRes AceRes.readBack
  dsimp only
  congr 1
  · by_cases h : res.href = []
    · rw [if_pos h, h]
      rfl
    · rw [if_neg h]
      rfl
  · by_cases h : res.types.filter (· ≠ []) = []
    · rw [if_pos h, h]
      rfl
    · rw [if_neg h]
      exact addItems_of_not_mem (nil_not_mem_filter res.types)
  · by_cases h : res.href = []
    · rw [if_pos h]
      cases hw : (wcText res.wildcard).isSome with
      | true =>
        have hne : res.wildcard ≠ noWc := by
          rcases (wcText_isSome _).mp hw with he | he | he
          all_goals rw [he]; decide
        rw [if_pos rfl, if_pos hne, if_pos ⟨h, rfl⟩]
      | false => simp
    · have hn : ¬ (res.href = [] ∧ (wcText res.wildcard).isSome = true) := fun hc => h hc.1
      rw [if_neg h, if_neg hn]
      rfl

theorem readBack_entry_iff (res : AceRes) : res.readBack.entry = res ↔ res.Lasting := by
  have hwc : (if res.href = [] ∧ (wcText res.wildcard).isSome then res.wildcard else 0) =
      res.wildcard ↔ (res.href = [] ∨ res.wildcard = 0) ∧
        res.wildcard ∈ [0, wcAll, wcAllSecured, wcAllPublic] := by
    have hmem : res.wildcard ∈ [0, wcAll, wcAllSecured, wcAllPublic] ↔
        res.wildcard = 0 ∨ (wcText res.wildcard).isSome = true := by
      rw [wcText_isSome]
      simp only [List.mem_cons, List.not_mem_nil, or_false]
      tauto
    rw [hmem]
    split
    · next h => exact iff_of_true rfl ⟨Or.inl h.1, Or.inr h.2⟩
    · next h =>
      constructor
      · intro he
        exact ⟨Or.inr he.symm, Or.inl he.symm⟩
      · rintro ⟨h1 | h1, h2 | h2⟩
        · exact h2.symm
        · exact absurd ⟨h1, h2⟩ h
        · exact h1.symm
        · exact h1.symm
  have htypes : res.types.filter (· ≠ []) = res.types ↔ [] ∉ res.types := by
    rw [List.filter_eq_self]
    constructor
    · intro h hn
      simpa using h [] hn
    · intro h s hs
      exact decide_eq_true fun he => h (he ▸ hs)
  rw [readBack_entry]
  constructor
  · intro h
    have h1 := congrArg AceRes.href h
    have h2 := congrArg AceRes.interfaces h
    have h3 := congrArg AceRes.types h
    have h4 := hwc.mp (congrArg AceRes.wildcard h)
    exact ⟨h4.1, (cstr_eq_self_iff _).mp h1, h4.2, h2, htypes.mp h3⟩
  · intro h
    rw [(cstr_eq_self_iff _).mpr h.href, h.interfaces, htypes.mpr h.types,
      hwc.mpr ⟨h.href_or_wc, h.wildcard⟩]

/-- the criteria of an entry -/
def AceRes.query (res : AceRes) : ResDraft where
  href := if res.href = [] then none else some res.href
  wildcard := if res.wildcard = 0 then noWc else res.wildcard
  ifaceMask := res.interfaces
  rt := if res.types = [] then none else some res.types

theorem AceRes.Lasting.readBack_eq {res : AceRes} (h : res.Lasting) : res.readBack = res.query := by
  have htypes : res.types.filter (· ≠ []) = res.types := by
    apply List.filter_eq_self.mpr
    intro s hs
    exact decide_eq_true fun he => h.types (he ▸ hs)
  unfold AceRes.readBack AceRes.query
  rw [(cstr_eq_self_iff _).mpr h.href, h.interfaces, htypes]
  congr 1
  by_cases h0 : res.wildcard = 0
  · rw [if_pos h0, h0]
    split
    · rfl
    · rfl
  · have hw : (wcText res.wildcard).isSome = true := by
      have := h.wildcard
      simp only [List.mem_cons, List.not_mem_nil, or_false] at this
      rw [wcText_isSome]
      tauto
    rw [if_neg h0, if_pos (h.href_or_wc.resolve_right h0), if_pos hw]

/-! ## ACEs -/

/-- a subject as it is read -/
def Subject.readBack : Subject → Subject
  | .role r a => .role (cstr r) (cstr a)
  | s => s

/-- the texts of a role hold no NUL -/
def Subject.Lasting : Subject → Prop
  | .role r a => 0 ∉ r ∧ 0 ∉ a
  | _ => True

instance (s : Subject) : Decidable s.Lasting :=
  match s with
  | .role r a => inferInstanceAs (Decidable (0 ∉ r ∧ 0 ∉ a))
  | .uuid _ => inferInstanceAs (Decidable True)
  | .conn _ => inferInstanceAs (Decidable True)

theorem subject_readBack_iff (s : Subject) : s.readBack = s ↔ s.Lasting := by
  cases s with
  | uuid u => exact iff_of_true rfl trivial
  | conn c => exact iff_of_true rfl trivial
  | role r a =>
    show Subject.role (cstr r) (cstr a) = _ ↔ _
    rw [Subject.role.injEq, cstr_eq_self_iff, cstr_eq_self_iff]
    rfl

theorem decodeSubject_encode (s : Subject) :
    ((encodeSubject s).foldl decodeSubject SubjectDraft.empty).subject = s.readBack := by
  cases s with
  | uuid u =>
    show Subject.uuid (ocStrToUuid (cstr (ocUuidToStr u)) Uuid.nil) = _
    rw [cstr_ocUuidToStr, ocStrToUuid_ocUuidToStr]
    rfl
  | role r a =>
    show ((textProp "role" r :: if a ≠ [] then [textProp "authority" a] else []).foldl decodeSubject
      SubjectDraft.empty).subject = _
    by_cases h : a = []
    · rw [if_neg (not_not.mpr h), h]
      rfl
    · rw [if_pos h]
      rfl
  | conn c => cases c <;> rfl

/-- an ACE as its element of `aclist2` is read -/
theorem aceDraft_encode (ace : Ace) :
    (aceDraft (encodeAce ace)).subject.subject = ace.subject.readBack ∧
      (aceDraft (encodeAce ace)).permission = ace.permission ∧
      (aceDraft (encodeAce ace)).aceid = ace.aceid ∧
      (aceDraft (encodeAce ace)).drafts = ace.resources.map AceRes.readBack := by
  have hperm : UInt16.ofInt ace.permission.toNat = ace.permission := by
    show UInt16.ofNat ((ace.permission.toNat : Int) % 2 ^ 16).toNat = ace.permission
    have hlt := ace.permission.toNat_lt
    have he : ((ace.permission.toNat : Int) % 2 ^ 16).toNat = ace.permission.toNat := by omega
    rw [he, UInt16.ofNat_toNat]
  have hd : aceDraft (encodeAce ace) = ⟨(encodeSubject ace.subject).foldl decodeSubject
      SubjectDraft.empty, UInt16.ofInt ace.permission.toNat, ace.aceid,
        ace.resources.map encodeAceRes⟩ := by
    unfold aceDraft encodeAce objectsProp
    by_cases h : ace.resources.map encodeAceRes = []
    · rw [if_pos h, h]
      rfl
    · rw [if_neg h]
      rfl
  rw [hd]
  refine ⟨decodeSubject_encode ace.subject, hperm, rfl, ?_⟩
  show (ace.resources.map encodeAceRes).map resDraft = _
  rw [List.map_map]
  exact List.map_congr_left fun res _ => resDraft_encode res

/-- entries that come back as they are, all of them -/
structure LastingEntries (l : List AceRes) : Prop where
  each : ∀ res ∈ l, res.Lasting
  apart : l.Pairwise fun a b => b.query.finds a = false

instance (l : List AceRes) : Decidable (LastingEntries l) :=
  decidable_of_iff ((∀ res ∈ l, res.Lasting) ∧ l.Pairwise fun a b => b.query.finds a = false)
    ⟨fun h => ⟨h.1, h.2⟩, fun h => ⟨h.each, h.apart⟩⟩

theorem map_readBack_iff (l : List AceRes) :
    l.map (ResDraft.entry ∘ AceRes.readBack) = l ↔ ∀ res ∈ l, res.Lasting := by
  have h : l.map (ResDraft.entry ∘ AceRes.readBack) = l.map id ↔
      ∀ res ∈ l, res.readBack.entry = res := List.map_inj_left
  rw [List.map_id] at h
  rw [h]
  exact forall₂_congr fun res _ => readBack_entry_iff res

theorem gather_readBack_iff (l : List AceRes) :
    gather ResDraft.finds ResDraft.entry [] (l.map AceRes.readBack) = l ↔ LastingEntries l := by
  have hpair : (∀ res ∈ l, res.Lasting) →
      ((l.map AceRes.readBack).Pairwise (fun a b => b.finds a.entry = false) ↔
        l.Pairwise fun a b => b.query.finds a = false) := by
    intro hl
    rw [List.pairwise_map]
    apply List.Pairwise.iff_of_mem
    intro a b ha hb
    rw [(readBack_entry_iff a).mpr (hl a ha), (hl b hb).readBack_eq]
  constructor
  · intro h
    have hlen : (gather ResDraft.finds ResDraft.entry [] (l.map AceRes.readBack)).length =
        ([] : List AceRes).length + (l.map AceRes.readBack).length := by
      rw [h, List.length_map, List.length_nil, Nat.zero_add]
    have hapart := apart_of_length hlen
    rw [gather_of_apart hapart, List.nil_append, List.map_map] at h
    have hl := (map_readBack_iff l).mp h
    exact ⟨hl, (hpair hl).mp hapart.2⟩
  · intro h
    rw [gather_of_apart ⟨fun _ _ => rfl, (hpair h.each).mpr h.apart⟩, List.nil_append, List.map_map]
    exact (map_readBack_iff l).mpr h.each

/-- an ACE that comes back as it is -/
structure Ace.Lasting (ace : Ace) : Prop where
  aceid : ace.aceid ≠ -1
  subject : ace.subject.Lasting
  resources : ace.resources ≠ []
  entries : LastingEntries ace.resources

instance (ace : Ace) : Decidable ace.Lasting :=
  decidable_of_iff (ace.aceid ≠ -1 ∧ ace.subject.Lasting ∧ ace.resources ≠ [] ∧
      LastingEntries ace.resources)
    ⟨fun h => ⟨h.1, h.2.1, h.2.2.1, h.2.2.2⟩, fun h => ⟨h.aceid, h.subject, h.resources, h.entries⟩⟩

/-- the ACE that the payload of an ACE makes -/
theorem built_encode (ace : Ace) : built (aceDraft (encodeAce ace)) =
    if ace.resources = [] then [] else
      [⟨gather ResDraft.finds ResDraft.entry [] (ace.resources.map AceRes.readBack),
        ace.subject.readBack, ace.aceid, ace.permission⟩] := by
  obtain ⟨hs, hp, hi, hd⟩ := aceDraft_encode ace
  unfold built AceDraft.made AceDraft.gathered
  rw [hs, hp, hi, hd]
  simp only [List.map_eq_nil_iff]

theorem mem_built_encode {ace : Ace} (hid : ace.aceid ≠ -1) :
    ace ∈ built (aceDraft (encodeAce ace)) ↔ ace.Lasting := by
  rw [built_encode]
  by_cases hr : ace.resources = []
  · rw [if_pos hr]
    exact iff_of_false List.not_mem_nil fun h => h.resources hr
  · rw [if_neg hr, List.mem_singleton]
    constructor
    · intro h
      have h1 := congrArg Ace.resources h
      have h2 := congrArg Ace.subject h
      exact ⟨hid, (subject_readBack_iff _).mp h2.symm, hr, (gather_readBack_iff _).mp h1.symm⟩
    · intro h
      rw [(gather_readBack_iff _).mpr h.entries, (subject_readBack_iff _).mpr h.subject]

/-- an ACE that comes back is all that its payload makes -/
theorem Ace.Lasting.built_eq {ace : Ace} (h : ace.Lasting) :
    built (aceDraft (encodeAce ace)) = [ace] := by
  have hm := (mem_built_encode h.aceid).mpr h
  rw [built_encode, if_neg h.resources] at hm
  rw [built_encode, if_neg h.resources, ← List.mem_singleton.mp hm]

/-! ## ACLs -/

section
variable {pf : Platform}

theorem updateRes_ids {d : AceDraft} {x : List Ace × Nat} (r : ResDraft) (h : -1 ∉ aceids x.1) :
    -1 ∉ aceids (d.update pf x r).1 := by
  unfold AceDraft.update ocSecAceUpdateRes
  split
  · rw [aceids_modify]
    exact h
  · have hsnoc : ∀ ace : Ace, ace.aceid ≠ -1 → -1 ∉ aceids (x.1 ++ [ace]) := by
      intro ace ha
      unfold aceids
      rw [List.map_append, List.mem_append, List.map_singleton, List.mem_singleton]
      exact not_or.mpr ⟨h, Ne.symm ha⟩
    split
    · apply hsnoc
      have := pf.newId_nonneg x.2 (x.1.map Ace.aceid)
      show pf.newId x.2 (x.1.map Ace.aceid) ≠ -1
      omega
    · next hid => exact hsnoc _ hid

/-- no ACE comes to have the id -1 -/
theorem decodeAclEntry_ids {x : List Ace × Nat} (entry : List Rep) (h : -1 ∉ aceids x.1) :
    -1 ∉ aceids (decodeAclEntry pf x entry).1 := by
  have h0 : -1 ∉ aceids (if (aceDraft entry).aceid ≠ -1 then
      ocAclRemoveAce (aceDraft entry).aceid x.1 else x.1) := by
    split
    · exact fun hm => h ((List.eraseP_sublist.map Ace.aceid).subset hm)
    · exact h
  rw [decodeAclEntry_eq]
  generalize (if (aceDraft entry).aceid ≠ -1 then ocAclRemoveAce (aceDraft entry).aceid x.1
    else x.1) = aces at h0
  suffices hs : ∀ (rs : List ResDraft) (y : List Ace × Nat), -1 ∉ aceids y.1 →
      -1 ∉ aceids (rs.foldl ((aceDraft entry).update pf) y).1 from hs _ (aces, x.2) h0
  intro rs
  induction rs with
  | nil => exact fun _ hy => hy
  | cons r rs ih => exact fun y hy => ih _ (updateRes_ids r hy)

theorem foldl_decodeAclEntry_ids (pf : Platform) (es : List (List Rep)) {x : List Ace × Nat}
    (h : -1 ∉ aceids x.1) : -1 ∉ aceids (es.foldl (decodeAclEntry pf) x).1 := by
  induction es generalizing x with
  | nil => exact h
  | cons e es ih => exact ih (decodeAclEntry_ids e h)

theorem removeAce_of_not_mem {id : Int} {aces : List Ace} (h : id ∉ aceids aces) :
    ocAclRemoveAce id aces = aces := by
  apply List.eraseP_of_forall_not
  intro ace ha he
  exact h (of_decide_eq_true he ▸ List.mem_map_of_mem ha)

theorem aceids_built_sublist (ace : Ace) :
    (aceids (built (aceDraft (encodeAce ace)))).Sublist [ace.aceid] := by
  rw [built_encode]
  split
  · exact List.nil_sublist _
  · exact List.Sublist.refl _

/-- the ACEs of a list are made one after the other -/
theorem foldl_encode {aces : List Ace} (hid : ∀ ace ∈ aces, ace.aceid ≠ -1) {made : List Ace}
    (hn : (aceids made ++ aceids aces).Nodup) (n : Nat) :
    (aces.map encodeAce).foldl (decodeAclEntry pf) (made, n) =
      (made ++ aces.flatMap fun ace => built (aceDraft (encodeAce ace)), n) := by
  induction aces generalizing made with
  | nil => exact congrArg (·, n) (List.append_nil made).symm
  | cons ace aces ih =>
    have hi := (aceDraft_encode ace).2.2.1
    have hne : (aceDraft (encodeAce ace)).aceid ≠ -1 := hi ▸ hid ace List.mem_cons_self
    have hnew : ace.aceid ∉ aceids made := by
      intro hm
      exact (List.nodup_append.mp hn).2.2 _ hm _ List.mem_cons_self rfl
    have hstep : decodeAclEntry pf (made, n) (encodeAce ace) =
        (made ++ built (aceDraft (encodeAce ace)), n) := by
      rw [decodeAclEntry_id hne (hn.sublist (List.sublist_append_left _ _)), hi,
        removeAce_of_not_mem hnew]
    have hn' : (aceids (made ++ built (aceDraft (encodeAce ace))) ++ aceids aces).Nodup := by
      refine List.Nodup.sublist ?_ hn
      unfold aceids
      rw [List.map_append, List.append_assoc]
      exact (List.Sublist.refl _).append ((aceids_built_sublist ace).append (List.Sublist.refl _))
    rw [List.map_cons, List.foldl_cons, hstep,
      ih (fun b hb => hid b (List.mem_cons_of_mem ace hb)) hn', List.flatMap_cons,
      List.append_assoc]

/-- ACEs with one id are one -/
theorem eq_of_aceid {aces : List Ace} (hn : (aceids aces).Nodup) {a b : Ace} (ha : a ∈ aces)
    (hb : b ∈ aces) (h : a.aceid = b.aceid) : a = b :=
  List.inj_on_of_nodup_map hn ha hb h

/-- the ACEs of a list come back exactly when each of them does -/
theorem foldl_encode_iff {aces : List Ace} (hn : (aceids aces).Nodup) (n : Nat) :
    ((aces.map encodeAce).foldl (decodeAclEntry pf) ([], n)).1 = aces ↔
      ∀ ace ∈ aces, ace.Lasting := by
  constructor
  · intro h
    have hid : ∀ ace ∈ aces, ace.aceid ≠ -1 := by
      intro ace ha he
      have h0 : -1 ∉ aceids (([], n) : List Ace × Nat).1 := List.not_mem_nil
      apply foldl_decodeAclEntry_ids pf (aces.map encodeAce) h0
      rw [h, ← he]
      exact List.mem_map_of_mem ha
    have hn0 : (aceids [] ++ aceids aces).Nodup := hn
    rw [foldl_encode hid hn0, List.nil_append] at h
    intro ace ha
    rw [← h] at ha
    obtain ⟨b, hb, hm⟩ := List.mem_flatMap.mp ha
    have hab : ace.aceid = b.aceid :=
      List.mem_singleton.mp ((aceids_built_sublist b).subset (List.mem_map_of_mem hm))
    have he := eq_of_aceid hn (h ▸ ha) hb hab
    rw [← he] at hm
    exact (mem_built_encode (hid ace (h ▸ ha))).mp hm
  · intro h
    have hn0 : (aceids [] ++ aceids aces).Nodup := hn
    rw [foldl_encode (fun ace ha => (h ace ha).aceid) hn0, List.nil_append]
    have hb : ∀ ace ∈ aces, built (aceDraft (encodeAce ace)) = [ace] :=
      fun ace ha => (h ace ha).built_eq
    rw [List.flatMap_congr hb]
    exact List.flatMap_singleton' aces

/-- the ACL comes back when its payload is read from storage into an empty one -/
def ReadsBack (pf : Platform) (acl : Acl) : Prop :=
  ∀ (s : State) (d : Nat), (s.device d).acl = ⟨[], Uuid.nil⟩ →
    (ocSecDecodeAcl pf s (ocSecEncodeAcl acl) true d).1 = true ∧
      ((ocSecDecodeAcl pf s (ocSecEncodeAcl acl) true d).2.device d).acl = acl

/-- the ACEs of a payload -/
def payloadAces (rep : List Rep) : List (List Rep) :=
  rep.flatMap fun p => match p.value with
    | .objectArray objs => objs
    | _ => []

theorem foldl_applyAclProp (rep : List Rep) (x : Acl × Nat) :
    ((rep.foldl (applyAclProp pf) x).1.subjects, (rep.foldl (applyAclProp pf) x).2) =
      (payloadAces rep).foldl (decodeAclEntry pf) (x.1.subjects, x.2) := by
  induction rep generalizing x with
  | nil => rfl
  | cons p rep ih =>
    have hp : ((applyAclProp pf x p).1.subjects, (applyAclProp pf x p).2) =
        (payloadAces [p]).foldl (decodeAclEntry pf) (x.1.subjects, x.2) := by
      unfold applyAclProp payloadAces
      rw [List.flatMap_singleton]
      cases p.value with
      | string s => dsimp only; split <;> rfl
      | _ => rfl
    have hcons : payloadAces (p :: rep) = payloadAces [p] ++ payloadAces rep := by
      unfold payloadAces
      rw [List.flatMap_cons, List.flatMap_singleton]
    rw [List.foldl_cons, ih, hp, hcons, List.foldl_append]

/-- the ACEs after an accepted payload -/
theorem decodeAcl_subjects {s : State} {rep : List Rep} {fromStorage : Bool} {d : Nat}
    (h : (ocSecDecodeAcl pf s rep fromStorage d).1 = true) :
    ((ocSecDecodeAcl pf s rep fromStorage d).2.device d).acl.subjects =
      ((payloadAces rep).foldl (decodeAclEntry pf) ((s.device d).acl.subjects, s.draws)).1 := by
  rw [← foldl_applyAclProp rep ((s.device d).acl, s.draws)]
  unfold ocSecDecodeAcl at h ⊢
  dsimp only at h ⊢
  split
  · show ((s.put d _).device d).acl.subjects = _
    rw [State.put_device]
  · next hn =>
    rw [if_neg hn] at h
    exact absurd h Bool.false_ne_true

theorem payloadAces_encode (acl : Acl) :
    payloadAces (ocSecEncodeAcl acl) = acl.subjects.map encodeAce := by
  show (match (objectsProp "aclist2" (acl.subjects.map encodeAce)).value with
    | .objectArray objs => objs
    | _ => []) ++ [] = _
  rw [List.append_nil]
  unfold objectsProp
  by_cases h : acl.subjects.map encodeAce = []
  · rw [if_pos h, h]
    rfl
  · rw [if_neg h]
    rfl

/-- what an empty ACL becomes -/
theorem decode_encode {s : State} {d : Nat} (h : (s.device d).acl = ⟨[], Uuid.nil⟩) (acl : Acl) :
    (ocSecDecodeAcl pf s (ocSecEncodeAcl acl) true d).1 = true ∧
      ((ocSecDecodeAcl pf s (ocSecEncodeAcl acl) true d).2.device d).acl =
        ⟨((acl.subjects.map encodeAce).foldl (decodeAclEntry pf) ([], s.draws)).1,
          acl.rowneruuid⟩ := by
  have hall : (ocSecEncodeAcl acl).all (aclPropOk true (s.device d).pstat.s) = true := by
    apply List.all_eq_true.mpr
    intro t _
    unfold aclPropOk
    split
    · simp
    · rfl
    · rfl
  have hok : (ocSecDecodeAcl pf s (ocSecEncodeAcl acl) true d).1 = true := by
    unfold ocSecDecodeAcl
    dsimp only
    rw [if_pos hall]
  have howner : ((ocSecDecodeAcl pf s (ocSecEncodeAcl acl) true d).2.device d).acl.rowneruuid =
      acl.rowneruuid := by
    unfold ocSecDecodeAcl
    dsimp only
    rw [if_pos hall]
    show ((s.put d _).device d).acl.rowneruuid = _
    rw [State.put_device]
    show ((ocSecEncodeAcl acl).foldl (applyAclProp pf) ((s.device d).acl, s.draws)).1.rowneruuid = _
    have hlast : ocSecEncodeAcl acl = (baselineProps "oic.r.acl2" ++
        [objectsProp "aclist2" (acl.subjects.map encodeAce)]) ++
          [textProp "rowneruuid" (ocUuidToStr acl.rowneruuid)] := rfl
    rw [hlast, List.foldl_append]
    show ocStrToUuid (cstr (ocUuidToStr acl.rowneruuid)) _ = _
    rw [cstr_ocUuidToStr, ocStrToUuid_ocUuidToStr]
  have hsub := decodeAcl_subjects hok
  rw [payloadAces_encode, h] at hsub
  refine ⟨hok, ?_⟩
  rw [← hsub, ← howner]

/-- an ACL comes back exactly when each of its ACEs does -/
theorem readsBack_iff {acl : Acl} (hn : (aceids acl.subjects).Nodup) :
    ReadsBack pf acl ↔ ∀ ace ∈ acl.subjects, ace.Lasting := by
  have h : ∀ (s : State) (d : Nat), (s.device d).acl = ⟨[], Uuid.nil⟩ →
      (((ocSecDecodeAcl pf s (ocSecEncodeAcl acl) true d).1 = true ∧
        ((ocSecDecodeAcl pf s (ocSecEncodeAcl acl) true d).2.device d).acl = acl) ↔
          ∀ ace ∈ acl.subjects, ace.Lasting) := by
    intro s d he
    obtain ⟨h1, h2⟩ := decode_encode he acl
    rw [h1, h2, ← foldl_encode_iff hn s.draws]
    constructor
    · intro h
      exact congrArg Acl.subjects h.2
    · intro h
      rw [h]
      exact ⟨rfl, rfl⟩
  constructor
  · intro hr
    exact (h State.zero 0 rfl).mp (hr State.zero 0 rfl)
  · intro hl s d he
    exact (h s d he).mpr hl

end

end Security
