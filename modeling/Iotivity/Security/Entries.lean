import Iotivity.Security.Onboarding
import Mathlib.Data.List.TakeWhile

/-!
# Entries of an ACL that are found and removed

The criterion on types of `oc_sec_ace_find_resource` leaves the loop over the types of an entry at a
type `*` without a match, and the loop of `oc_sec_set_post_otm_acl` ends at an ACE it has freed.

* `findResource_types_iff`   the search is that of the intended criterion iff every entry with a type
                             `*` shares a type in front of it with the resource;
* `postOtmAcl_tidied_iff`    the clean-up leaves the tidied list iff the first ACE it empties had an
                             entry and no ACE behind it has one to be removed.
-/

namespace Security
open Scan

/-! ## the criterion on types -/

/-- the criterion as it is meant: the entry is for any type, or for one of the types -/
def RtMeets (rt types : List Bytes) : Prop := ascii "*" ∈ types ∨ ∃ t ∈ rt, t ∈ types

instance (rt types : List Bytes) : Decidable (RtMeets rt types) :=
  inferInstanceAs (Decidable (_ ∨ _))

/-- the part of the loop body on types, with that criterion -/
def rtMeant (rt : List Bytes) (res : AceRes) (v : Verdict) : Verdict :=
  if v.ok ∧ res.types ≠ [] then if RtMeets rt res.types then v.accept else v.refuse else v

/-- the test on one entry, with that criterion -/
def aceResMeant (href : Option Bytes) (rt : List Bytes) (ifaceMask wildcard : UInt32)
    (res : AceRes) : Bool :=
  let v := wcTest wildcard res (ifTest ifaceMask res (rtMeant rt res (hrefTest href res ⟨false, true⟩)))
  v.ok && v.positive

/-- a shared type stands in front of the first `*` -/
def SharedBefore (rt types : List Bytes) : Prop :=
  ∃ t ∈ rt, t ∈ types.takeWhile (· ≠ ascii "*")

theorem typeTest_iff (t : Bytes) (types : List Bytes) :
    typeTest t types = true ↔ t ∈ types.takeWhile (· ≠ ascii "*") := by
  induction types with
  | nil => simp [typeTest]
  | cons u us ih =>
    unfold typeTest
    by_cases hu : u = ascii "*"
    · rw [if_pos hu, List.takeWhile_cons_of_neg (by simp [hu])]
      simp
    · rw [if_neg hu, List.takeWhile_cons_of_pos (by simp [hu]), List.mem_cons]
      by_cases ht : t = u
      · simp [ht]
      · rw [if_neg ht, ih, or_iff_right ht]

theorem anyType_iff (rt types : List Bytes) :
    rt.any (typeTest · types) = true ↔ SharedBefore rt types := by
  rw [List.any_eq_true]
  exact exists_congr fun t => and_congr_right fun _ => typeTest_iff t types

theorem sharedBefore_meets {rt types : List Bytes} (h : SharedBefore rt types) : RtMeets rt types := by
  obtain ⟨t, ht, hm⟩ := h
  exact Or.inr ⟨t, ht, (List.takeWhile_prefix _).subset hm⟩

/-- where the loops decide the criterion -/
theorem meets_iff_sharedBefore (rt types : List Bytes) :
    (RtMeets rt types ↔ SharedBefore rt types) ↔ ascii "*" ∉ types ∨ SharedBefore rt types := by
  constructor
  · intro h
    by_cases hs : ascii "*" ∈ types
    · exact Or.inr (h.mp (Or.inl hs))
    · exact Or.inl hs
  · rintro (hs | h)
    · refine ⟨fun hm => ?_, sharedBefore_meets⟩
      obtain ⟨t, ht, hu⟩ := hm.resolve_left hs
      refine ⟨t, ht, ?_⟩
      have hall : types.takeWhile (· ≠ ascii "*") = types :=
        List.takeWhile_eq_self_iff.mpr fun u hu => decide_eq_true fun he => hs (he ▸ hu)
      rw [hall]
      exact hu
    · exact iff_of_true (sharedBefore_meets h) h

theorem rtTest_eq_meant {rt : List Bytes} {res : AceRes} (v : Verdict)
    (h : RtMeets rt res.types ↔ SharedBefore rt res.types) :
    rtTest (some rt) res v = rtMeant rt res v := by
  have ha : rt.any (typeTest · res.types) = true ↔ RtMeets rt res.types :=
    (anyType_iff rt res.types).trans h.symm
  unfold rtTest rtMeant
  exact if_congr Iff.rfl (if_congr ha rfl rfl) rfl

/-- with no other criterion the test is the criterion on types -/
theorem aceResTest_types {rt : List Bytes} {res : AceRes} (h : res.types ≠ []) :
    (aceResTest none (some rt) 0 0 res = true ↔ SharedBefore rt res.types) ∧
      (aceResMeant none rt 0 0 res = true ↔ RtMeets rt res.types) := by
  have hv : ∀ v, wcTest 0 res (ifTest 0 res v) = v := fun v => by simp [wcTest, ifTest]
  constructor
  · rw [← anyType_iff]
    cases ha : rt.any (typeTest · res.types) <;>
      simp [aceResTest, hv, hrefTest, rtTest, h, ha, Verdict.accept, Verdict.refuse]
  · by_cases hm : RtMeets rt res.types <;>
      simp [aceResMeant, hv, hrefTest, rtMeant, h, hm, Verdict.accept, Verdict.refuse]

theorem findResource_types_iff (ace : Ace) (rt : List Bytes) :
    (∀ href ifaceMask wildcard start, start <:+ ace.resources →
        ocSecAceFindResource start ace href (some rt) ifaceMask wildcard =
          next (aceResMeant href rt ifaceMask wildcard) ace.resources start) ↔
      ∀ res ∈ ace.resources, ascii "*" ∉ res.types ∨
        ∃ t ∈ rt, t ∈ res.types.takeWhile (· ≠ ascii "*") := by
  constructor
  · intro h res hr
    refine (meets_iff_sharedBefore rt res.types).mp ?_
    by_cases ht : res.types = []
    · simp [ht, RtMeets, SharedBefore]
    · have he := (next_eq_iff _ _ ace.resources).mp (h none 0 0) res hr
      obtain ⟨h₁, h₂⟩ : _ ∧ _ := @aceResTest_types rt res ht
      rw [← h₁, ← h₂, he]
  · intro h href ifaceMask wildcard
    refine (next_eq_iff _ _ ace.resources).mpr fun res hr => ?_
    unfold aceResTest aceResMeant
    rw [rtTest_eq_meant _ ((meets_iff_sharedBefore rt res.types).mpr (h res hr))]

/-- an entry for every type is not found for a light -/
theorem star_not_found :
    let res : AceRes := ⟨ascii "/light", 0, [ascii "*"], 0⟩
    let ace : Ace := ⟨[res], .conn .authCrypt, 5, 6⟩
    RtMeets [ascii "oic.r.light"] res.types ∧
      next (aceResMeant (some (ascii "/light")) [ascii "oic.r.light"] 0 0) ace.resources [] = [res] ∧
      ocSecAceFindResource [] ace (some (ascii "/light")) (some [ascii "oic.r.light"]) 0 0 = [] := by
  decide

/-! ## the clean-up after the ownership transfer -/

instance (res : AceRes) : Decidable res.Guarded := inferInstanceAs (Decidable (_ ∨ _))
instance (ace : Ace) : Decidable ace.Onboarding := inferInstanceAs (Decidable (_ ∧ _))
instance (ace : Ace) : Decidable ace.Exposed := inferInstanceAs (Decidable (_ ∧ _))

/-- what is to become of an ACE: an exposed one loses its guarded entries, and goes if it has no
others; every other one stays as it is -/
def Ace.tidied (ace : Ace) : Option Ace :=
  if ace.Exposed then
    match ace.resources.filter (¬ ·.Guarded) with
    | [] => none
    | r :: rs => some { ace with resources := r :: rs }
  else some ace

theorem unguarded_eq_filter (resources : List AceRes) :
    unguarded resources = resources.filter (¬ ·.Guarded) := by
  rw [unguarded, List.filter_filter]
  refine List.filter_congr fun res _ => ?_
  rw [Bool.eq_iff_iff]
  simp [hasHref, AceRes.Guarded, and_comm]

theorem tidied_of_not_exposed {ace : Ace} (h : ¬ ace.Exposed) : ace.tidied = some ace := if_neg h

theorem tidied_of_exposed {ace : Ace} (h : ace.Exposed) :
    ace.tidied = if unguarded ace.resources = [] then none
      else some { ace with resources := unguarded ace.resources } := by
  rw [Ace.tidied, if_pos h, unguarded_eq_filter]
  split
  · next he => rw [if_pos he]
  · next r rs he => rw [he, if_neg (List.cons_ne_nil r rs)]

/-- an exposed ACE does not stay as it is -/
theorem tidied_eq_self {ace : Ace} : ace.tidied = some ace ↔ ¬ ace.Exposed := by
  refine ⟨fun ht he => ?_, tidied_of_not_exposed⟩
  rw [tidied_of_exposed he] at ht
  split at ht
  · cases ht
  · obtain ⟨-, res, hr, hg⟩ := he
    rw [← congrArg Ace.resources (Option.some.inj ht)] at hr
    exact (mem_unguarded.mp hr).2 hg

/-- an onboarding ACE that is not exposed has nothing to lose -/
theorem unguarded_of_not_exposed {ace : Ace} (ho : ace.Onboarding) (h : ¬ ace.Exposed) :
    unguarded ace.resources = ace.resources := by
  rw [unguarded_eq_filter]
  exact List.filter_eq_self.mpr fun res hr => decide_eq_true fun hg => h ⟨ho, res, hr, hg⟩

theorem filterMap_tidied_eq_self {aces : List Ace} :
    aces.filterMap Ace.tidied = aces ↔ ∀ ace ∈ aces, ¬ ace.Exposed := by
  induction aces with
  | nil => simp
  | cons ace rest ih =>
    rw [List.forall_mem_cons, ← ih, ← tidied_eq_self]
    cases ht : ace.tidied with
    | none =>
      rw [List.filterMap_cons_none ht]
      refine ⟨fun h => ?_, fun h => nomatch h.1⟩
      have hl := List.length_filterMap_le Ace.tidied rest
      rw [h] at hl
      exact absurd hl (Nat.not_succ_le_self _)
    | some a => rw [List.filterMap_cons_some ht, List.cons.injEq, Option.some.injEq]

/-- an ACE without entries is not to go, so a list that has lost it is not the tidied one -/
theorem lost_ne_tidied {ace : Ace} (h : ¬ ace.Exposed) (rest : List Ace) :
    rest ≠ ace :: rest.filterMap Ace.tidied := by
  induction rest with
  | nil => exact (List.cons_ne_nil _ _).symm
  | cons b rest ih =>
    intro he
    obtain ⟨rfl, hr⟩ := List.cons.inj he
    rw [List.filterMap_cons_some (tidied_of_not_exposed h)] at hr
    exact ih hr

/-- the first ACE that the clean-up empties, and with which it ends, had an entry, and no ACE behind
it is exposed -/
def EndsWell : List Ace → Prop
  | [] => True
  | ace :: rest =>
    (ace.Emptied → ace.resources ≠ [] ∧ ∀ b ∈ rest, ¬ b.Exposed) ∧ (¬ ace.Emptied → EndsWell rest)

theorem setPostOtmAcl_other {ace : Ace} (rest : List Ace) (h : ¬ ace.Onboarding) :
    ocSecSetPostOtmAcl (ace :: rest) = ace :: ocSecSetPostOtmAcl rest := by
  rw [ocSecSetPostOtmAcl, if_neg (mt (subjectTest_onboarding ace).mp h)]

/-- an ACE that is not emptied ends up as it is to be -/
theorem setPostOtmAcl_kept {ace : Ace} (rest : List Ace) (h : ¬ ace.Emptied) :
    ∃ a, ace.tidied = some a ∧ ocSecSetPostOtmAcl (ace :: rest) = a :: ocSecSetPostOtmAcl rest := by
  by_cases ho : ace.Onboarding
  · have hu : unguarded ace.resources ≠ [] := mt (unguarded_eq_nil ho).mp h
    refine ⟨{ ace with resources := unguarded ace.resources }, ?_, ?_⟩
    · by_cases he : ace.Exposed
      · rw [tidied_of_exposed he, if_neg hu]
      · rw [tidied_of_not_exposed he, unguarded_of_not_exposed ho he]
    · rw [setPostOtmAcl_cons ace rest ho, if_neg hu]
  · exact ⟨ace, tidied_of_not_exposed fun he => ho he.1, setPostOtmAcl_other rest ho⟩

theorem setPostOtmAcl_emptied {ace : Ace} (rest : List Ace) (h : ace.Emptied) :
    ocSecSetPostOtmAcl (ace :: rest) = rest := by
  rw [setPostOtmAcl_cons ace rest h.1, if_pos ((unguarded_eq_nil h.1).mpr h)]

/-- an ACE that is emptied is to go unless it had no entries -/
theorem tidied_emptied {ace : Ace} (h : ace.Emptied) (hr : ace.resources ≠ []) : ace.tidied = none := by
  obtain ⟨res, hm⟩ := List.exists_mem_of_ne_nil _ hr
  rw [tidied_of_exposed ⟨h.1, res, hm, h.2 res hm⟩, if_pos ((unguarded_eq_nil h.1).mpr h)]

theorem postOtmAcl_tidied_iff (aces : List Ace) :
    ocSecSetPostOtmAcl aces = aces.filterMap Ace.tidied ↔ EndsWell aces := by
  induction aces with
  | nil => exact iff_of_true rfl trivial
  | cons ace rest ih =>
    unfold EndsWell
    by_cases he : ace.Emptied
    · rw [imp_iff_right he, and_iff_left fun hn => absurd he hn, setPostOtmAcl_emptied rest he]
      by_cases hr : ace.resources = []
      · have hx : ¬ ace.Exposed := by
          rintro ⟨-, res, hm, -⟩
          rw [hr] at hm
          cases hm
        rw [List.filterMap_cons_some (tidied_of_not_exposed hx)]
        exact iff_of_false (lost_ne_tidied hx rest) fun h => h.1 hr
      · rw [List.filterMap_cons_none (tidied_emptied he hr), and_iff_right hr, eq_comm]
        exact filterMap_tidied_eq_self
    · obtain ⟨a, ht, hc⟩ := setPostOtmAcl_kept rest he
      rw [imp_iff_right he, and_iff_right fun h => absurd h he, hc, List.filterMap_cons_some ht,
        List.cons.injEq, and_iff_right rfl]
      exact ih

/-- two onboarding ACEs, one for `/oic/sec/acl2` and one for `/oic/sec/cred`: the second one stays -/
theorem second_ace_exposed :
    let ace (href : String) : Ace := ⟨[⟨ascii href, 0, [], 0⟩], .conn .anonClear, 2, 14⟩
    let aces := [ace "/oic/sec/acl2", ace "/oic/sec/cred"]
    ocSecSetPostOtmAcl aces = [ace "/oic/sec/cred"] ∧ aces.filterMap Ace.tidied = [] := by
  decide

end Security
