import Mathlib.Data.List.Nodup
import Mathlib.Data.List.Perm.Basic

/-!
# The last element that says something

Elements of a list may each bring a value for one variable, and the last one wins.

* `foldl_last`     the variable after the list;
* `agree_iff`      every order of the list gives the same value iff no two elements bring different
                   ones;
* `agree_of_key`   so it is when only elements with one key bring one, and keys are distinct.
-/

namespace Last

section
variable {α β : Type} (f : α → Option β)

/-- the value of the last element that brings one -/
def last (l : List α) : Option β := l.reverse.findSome? f

theorem last_cons (a : α) (l : List α) : last f (a :: l) = (last f l).or (f a) := by
  unfold last
  rw [List.reverse_cons, List.findSome?_append, List.findSome?_singleton]

theorem last_concat (l : List α) (a : α) : last f (l ++ [a]) = (f a).or (last f l) := by
  unfold last
  rw [List.reverse_append, List.findSome?_append, List.reverse_singleton, List.findSome?_singleton]

theorem or_getD (x y : Option β) (b : β) : (x.or y).getD b = x.getD (y.getD b) := by
  cases x <;> rfl

theorem foldl_last (l : List α) (b : β) : l.foldl (fun b a => (f a).getD b) b = (last f l).getD b := by
  induction l generalizing b with
  | nil => rfl
  | cons a l ih => rw [List.foldl_cons, ih, last_cons, or_getD]

theorem last_map {γ : Type} (g : β → γ) (l : List α) : last (fun a => (f a).map g) l = (last f l).map g :=
  (List.map_findSome? ..).symm

theorem last_eq_none {l : List α} : last f l = none ↔ ∀ a ∈ l, f a = none := by
  unfold last
  rw [List.findSome?_eq_none_iff]
  exact ⟨fun h a ha => h a (List.mem_reverse.mpr ha), fun h a ha => h a (List.mem_reverse.mp ha)⟩

variable {f}

theorem exists_of_last {l : List α} {b : β} (h : last f l = some b) : ∃ a ∈ l, f a = some b := by
  obtain ⟨a, ha, hf⟩ := List.exists_of_findSome?_eq_some h
  exact ⟨a, List.mem_reverse.mp ha, hf⟩

theorem last_isSome {l : List α} {a : α} {b : β} (ha : a ∈ l) (hf : f a = some b) :
    last f l ≠ none := fun h => by
  rw [(last_eq_none f).mp h a ha] at hf
  cases hf

variable (f)

/-- no two elements bring different values -/
def Agree (l : List α) : Prop := ∀ a ∈ l, ∀ b ∈ l, ∀ v w, f a = some v → f b = some w → v = w

variable {f}

theorem Agree.last {l : List α} (h : Agree f l) {a : α} {b : β} (ha : a ∈ l) (hf : f a = some b) :
    last f l = some b := by
  obtain ⟨v, hv⟩ := Option.ne_none_iff_exists'.mp (last_isSome ha hf)
  obtain ⟨c, hc, hcv⟩ := exists_of_last hv
  rw [hv, h c hc a ha v b hcv hf]

theorem last_perm {l l' : List α} (hp : l.Perm l') (h : Agree f l) : last f l' = last f l := by
  cases hl : last f l with
  | none =>
    rw [last_eq_none] at hl ⊢
    exact fun a ha => hl a (hp.mem_iff.mpr ha)
  | some b =>
    obtain ⟨a, ha, hf⟩ := exists_of_last hl
    have h' : Agree f l' := fun a ha b hb => h a (hp.mem_iff.mpr ha) b (hp.mem_iff.mpr hb)
    exact h'.last (hp.mem_iff.mp ha) hf

/-- any element that brings a value can be put last -/
theorem exists_perm_last {l : List α} {a : α} {b : β} (ha : a ∈ l) (hf : f a = some b) :
    ∃ l', l.Perm l' ∧ last f l' = some b := by
  obtain ⟨s, t, rfl⟩ := List.append_of_mem ha
  refine ⟨s ++ t ++ [a], ?_, by rw [last_concat, hf, Option.some_or]⟩
  rw [List.append_assoc]
  exact List.Perm.append_left s (List.perm_append_singleton a t).symm

theorem agree_iff (l : List α) : Agree f l ↔ ∀ l', l.Perm l' → last f l' = last f l := by
  constructor
  · exact fun h l' hp => last_perm hp h
  · intro h a ha b hb v w hv hw
    obtain ⟨l₁, hp₁, h₁⟩ := exists_perm_last ha hv
    obtain ⟨l₂, hp₂, h₂⟩ := exists_perm_last hb hw
    rw [h l₁ hp₁] at h₁
    rw [h l₂ hp₂, h₁] at h₂
    exact Option.some.inj h₂

/-- the same where the variable has a value already -/
theorem agree_of_getD {l : List α} (b : β)
    (h : ∀ l', l.Perm l' → (last f l').getD b = (last f l).getD b) : Agree f l := by
  rw [agree_iff]
  intro l' hp
  have hb := h l' hp
  cases hl : last f l with
  | none => rw [last_eq_none] at hl ⊢; exact fun a ha => hl a (hp.mem_iff.mpr ha)
  | some v =>
    obtain ⟨a, ha, hf⟩ := exists_of_last hl
    obtain ⟨w, hw⟩ := Option.ne_none_iff_exists'.mp (last_isSome (hp.mem_iff.mp ha) hf)
    rw [hl, hw] at hb
    rw [hw]
    exact congrArg some hb

theorem agree_of_key {κ : Type} (key : α → κ) {k : κ} {l : List α} (hn : (l.map key).Nodup)
    (hk : ∀ a b, f a = some b → key a = k) : Agree f l := by
  intro a ha b hb v w hv hw
  have hab : a = b := List.inj_on_of_nodup_map hn ha hb ((hk a v hv).trans (hk b w hw).symm)
  rw [hab, hw] at hv
  exact (Option.some.inj hv).symm

end

end Last
