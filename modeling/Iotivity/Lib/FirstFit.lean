import Mathlib.Data.List.Nodup
import Mathlib.Data.List.Range
import Mathlib.Logic.Function.Basic

/-!
# First fit among slots that keep their keys

Of `n` slots some are in use, and each has a key.  A key is put into the first slot that is not in use; it
is looked for in all of them, and a slot that is no longer in use still has its key.

* `Holds`              the keys that are held, each with its slot;
* `Holds.lookup`       a key that is held is found in its own slot: no slot in front of it has the key;
* `Holds.put`, `Holds.release`   what the operations do to the keys that are held;
* `Holds.full_iff`     there is no slot left when `n` keys are held.
-/

namespace FirstFit
open Function

variable {κ : Type}

/-- the first slot that is not in use -/
def firstFree (n : Nat) (used : Nat → Bool) : Option Nat := (List.range n).find? fun i => !used i

/-- the first slot with a key -/
def lookup [DecidableEq κ] (n : Nat) (key : Nat → κ) (k : κ) : Option Nat :=
  (List.range n).find? fun i => key i == k

/-- the slots in use -/
def inUse (n : Nat) (used : Nat → Bool) : List Nat := (List.range n).filter used

/-- The slots in use hold these keys, and no slot in front of one of them has its key. -/
structure Holds (n : Nat) (used : Nat → Bool) (key : Nat → κ) (held : List (Nat × κ)) : Prop where
  mem_iff : ∀ i k, (i, k) ∈ held ↔ i < n ∧ used i = true ∧ key i = k
  nodup : held.Nodup
  ordered : ∀ i < n, used i = true → ∀ j < i, key j ≠ key i

variable {n : Nat} {used : Nat → Bool} {key : Nat → κ} {held : List (Nat × κ)} {i : Nat} {k : κ}

theorem firstFree_eq_some (h : firstFree n used = some i) :
    i < n ∧ used i = false ∧ ∀ j < i, used j = true := by
  obtain ⟨hi, hn, hlt⟩ := List.find?_range_eq_some.mp h
  refine ⟨List.mem_range.mp hn, by simpa using hi, fun j hj => by simpa using hlt j hj⟩

theorem firstFree_eq_none : firstFree n used = none ↔ ∀ i < n, used i = true := by
  rw [firstFree, List.find?_range_eq_none]
  exact forall₂_congr fun i _ => by simp

theorem Holds.nil (h : ∀ i < n, used i = false) : Holds n used key [] where
  mem_iff i k := by
    refine ⟨fun hm => absurd hm List.not_mem_nil, fun ⟨hi, hu, _⟩ => ?_⟩
    rw [h i hi] at hu
    cases hu
  nodup := List.nodup_nil
  ordered i hi hu := by
    rw [h i hi] at hu
    cases hu

/-- distinct slots hold distinct keys -/
theorem Holds.slot_inj (h : Holds n used key held) {j : Nat} (hi : (i, k) ∈ held) (hj : (j, k) ∈ held) :
    i = j := by
  obtain ⟨hin, hiu, hik⟩ := (h.mem_iff i k).mp hi
  obtain ⟨hjn, hju, hjk⟩ := (h.mem_iff j k).mp hj
  rcases Nat.lt_trichotomy i j with hlt | heq | hlt
  · exact absurd (hik.trans hjk.symm) (h.ordered j hjn hju i hlt)
  · exact heq
  · exact absurd (hjk.trans hik.symm) (h.ordered i hin hiu j hlt)

theorem Holds.lookup [DecidableEq κ] (h : Holds n used key held) (hm : (i, k) ∈ held) :
    lookup n key k = some i := by
  obtain ⟨hin, hiu, hik⟩ := (h.mem_iff i k).mp hm
  refine List.find?_range_eq_some.mpr ⟨beq_iff_eq.mpr hik, List.mem_range.mpr hin, fun j hj => ?_⟩
  have hne := h.ordered i hin hiu j hj
  rw [hik] at hne
  simpa using hne

/-- A new key goes to the first slot that is not in use.  The slots in front of it are in use, so that none
of them has the key. -/
theorem Holds.put (h : Holds n used key held) (hf : firstFree n used = some i)
    (hk : ∀ j, (j, k) ∉ held) : Holds n (update used i true) (update key i k) ((i, k) :: held) := by
  obtain ⟨hin, hiu, hlt⟩ := firstFree_eq_some hf
  have hfresh : ∀ j < n, used j = true → key j ≠ k :=
    fun j hj hu he => hk j ((h.mem_iff j k).mpr ⟨hj, hu, he⟩)
  have hnot : ∀ c, (i, c) ∉ held := by
    intro c hc
    obtain ⟨-, hu, -⟩ := (h.mem_iff i c).mp hc
    rw [hiu] at hu
    cases hu
  refine ⟨fun j c => ?_, List.nodup_cons.mpr ⟨hnot k, h.nodup⟩, fun a ha hu j hj => ?_⟩
  · rw [List.mem_cons, Prod.mk.injEq]
    by_cases hji : j = i
    · subst hji
      rw [update_self, update_self, or_iff_left (hnot c)]
      exact ⟨fun hc => ⟨hin, rfl, hc.2.symm⟩, fun hc => ⟨rfl, hc.2.2.symm⟩⟩
    · rw [update_of_ne hji, update_of_ne hji, or_iff_right fun hc => hji hc.1]
      exact h.mem_iff j c
  · by_cases hai : a = i
    · subst hai
      rw [update_self, update_of_ne (Nat.ne_of_lt hj)]
      exact hfresh j (hj.trans ha) (hlt j hj)
    · rw [update_of_ne hai] at hu ⊢
      by_cases hji : j = i
      · subst hji
        rw [update_self]
        exact (hfresh a ha hu).symm
      · rw [update_of_ne hji]
        exact h.ordered a ha hu j hj

/-- a slot that is no longer in use keeps its key -/
theorem Holds.release [DecidableEq κ] (h : Holds n used key held) (hm : (i, k) ∈ held) :
    Holds n (update used i false) key (held.filter fun b => b.2 ≠ k) := by
  have hused : ∀ {j : Nat}, update used i false j = true ↔ j ≠ i ∧ used j = true := by
    intro j
    by_cases hji : j = i
    · subst hji
      rw [update_self]
      exact ⟨nofun, fun hc => absurd rfl hc.1⟩
    · rw [update_of_ne hji, and_iff_right hji]
  refine ⟨fun j c => ?_, h.nodup.filter _, fun a ha hu => h.ordered a ha (hused.mp hu).2⟩
  rw [List.mem_filter, h.mem_iff, hused, decide_eq_true_iff]
  constructor
  · rintro ⟨⟨hj, hu, hc⟩, hne⟩
    refine ⟨hj, ⟨fun hji => hne ?_, hu⟩, hc⟩
    obtain ⟨-, -, hik⟩ := (h.mem_iff i k).mp hm
    rw [← hc, hji, hik]
  · rintro ⟨hj, ⟨hji, hu⟩, hc⟩
    refine ⟨⟨hj, hu, hc⟩, fun hck => hji (h.slot_inj ?_ hm)⟩
    exact (h.mem_iff j k).mpr ⟨hj, hu, hc.trans hck⟩

/-- the slots are those in use -/
theorem Holds.slots (h : Holds n used key held) : (held.map Prod.fst).Perm (inUse n used) := by
  have hnodup : (held.map Prod.fst).Nodup := by
    refine List.Nodup.map_on (fun a ha b hb hab => Prod.ext hab ?_) h.nodup
    obtain ⟨-, -, hak⟩ := (h.mem_iff a.1 a.2).mp ha
    obtain ⟨-, -, hbk⟩ := (h.mem_iff b.1 b.2).mp hb
    rw [← hak, ← hbk, hab]
  refine (List.perm_ext_iff_of_nodup hnodup (List.nodup_range.filter _)).mpr fun j => ?_
  rw [List.mem_filter, List.mem_range, List.mem_map]
  constructor
  · rintro ⟨a, ha, rfl⟩
    obtain ⟨hj, hu, -⟩ := (h.mem_iff a.1 a.2).mp ha
    exact ⟨hj, hu⟩
  · exact fun ⟨hj, hu⟩ => ⟨(j, key j), (h.mem_iff j (key j)).mpr ⟨hj, hu, rfl⟩, rfl⟩

theorem Holds.length (h : Holds n used key held) : held.length = (inUse n used).length := by
  rw [← h.slots.length_eq, List.length_map]

theorem Holds.full_iff (h : Holds n used key held) : firstFree n used = none ↔ held.length = n := by
  rw [firstFree_eq_none, h.length, inUse]
  have hiff := @List.length_filter_eq_length_iff _ used (List.range n)
  rw [List.length_range] at hiff
  rw [hiff]
  exact forall_congr' fun i => by rw [List.mem_range]

/-- the slots that are left -/
theorem Holds.free (h : Holds n used key held) :
    ((List.range n).countP fun i => !used i) + held.length = n := by
  have hcount := @List.length_eq_countP_add_countP _ used (List.range n)
  have hnot : ((List.range n).countP fun i => !used i) = (List.range n).countP fun i => ¬ used i = true :=
    List.countP_congr fun i _ => by simp
  rw [List.length_range, List.countP_eq_length_filter, ← hnot] at hcount
  rw [h.length, inUse]
  omega

end FirstFit
