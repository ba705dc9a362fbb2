import Mathlib.Data.List.Basic

/-!
# Adding to a list what a matcher does not find in it

Elements come one after the other, and each is put at the end of a list unless a matcher finds it
there.  The matcher need not be an equality: then elements are lost that are not in the list.

* `gather`              the list that they leave;
* `gather_of_apart`     nothing is lost when no element is found in one before it;
* `apart_of_perm`       later elements do not make up for what is lost;
* `gather_pairwise`     in the list that is left, none is found in one before it.
-/

namespace Gather

section
variable {α β : Type} (hit : α → β → Bool) (keep : α → β)

/-- one element -/
def add (l : List β) (a : α) : List β := if l.any (hit a) then l else l ++ [keep a]

/-- all of them, on top of a list -/
def gather (l : List β) (as : List α) : List β := as.foldl (add hit keep) l

/-- no element is found in the list, and none in one before it -/
def Apart (l : List β) (as : List α) : Prop :=
  (∀ a ∈ as, l.any (hit a) = false) ∧ as.Pairwise fun a b => hit b (keep a) = false

variable {hit keep} {l : List β} {as : List α} {a : α}

theorem apart_cons : Apart hit keep l (a :: as) ↔
    l.any (hit a) = false ∧ Apart hit keep (l ++ [keep a]) as := by
  unfold Apart
  rw [List.forall_mem_cons, List.pairwise_cons]
  have hany : ∀ b, (l ++ [keep a]).any (hit b) = false ↔
      l.any (hit b) = false ∧ hit b (keep a) = false := by
    intro b
    rw [List.any_append, Bool.or_eq_false_iff]
    simp
  simp only [hany, forall_and]
  constructor
  · intro h
    exact ⟨h.1.1, ⟨h.1.2, h.2.1⟩, h.2.2⟩
  · intro h
    exact ⟨⟨h.1, h.2.1.1⟩, h.2.1.2, h.2.2⟩

/-- nothing is lost -/
theorem gather_of_apart (h : Apart hit keep l as) : gather hit keep l as = l ++ as.map keep := by
  induction as generalizing l with
  | nil => exact (List.append_nil l).symm
  | cons a as ih =>
    obtain ⟨ha, has⟩ := apart_cons.mp h
    have hadd : add hit keep l a = l ++ [keep a] := if_neg (by simp [ha])
    show gather hit keep (add hit keep l a) as = _
    rw [hadd, ih has, List.append_assoc]
    rfl

theorem length_gather_le : (gather hit keep l as).length ≤ l.length + as.length := by
  induction as generalizing l with
  | nil => exact Nat.le_refl _
  | cons a as ih =>
    have h := ih (l := add hit keep l a)
    have hadd : (add hit keep l a).length ≤ l.length + 1 := by
      unfold add
      split
      · exact Nat.le_succ _
      · exact Nat.le_of_eq List.length_append
    show (gather hit keep (add hit keep l a) as).length ≤ _
    rw [List.length_cons]
    omega

/-- something is lost -/
theorem length_gather_lt (h : ¬ Apart hit keep l as) :
    (gather hit keep l as).length < l.length + as.length := by
  induction as generalizing l with
  | nil => exact absurd ⟨List.forall_mem_nil _, List.Pairwise.nil⟩ h
  | cons a as ih =>
    show (gather hit keep (add hit keep l a) as).length < _
    cases ha : l.any (hit a) with
    | true =>
      have hadd : add hit keep l a = l := if_pos ha
      have hle : (gather hit keep l as).length ≤ l.length + as.length := length_gather_le
      rw [hadd, List.length_cons]
      omega
    | false =>
      have hadd : add hit keep l a = l ++ [keep a] := if_neg (by simp [ha])
      have hlt := ih fun has => h (apart_cons.mpr ⟨ha, has⟩)
      rw [hadd, List.length_cons]
      rw [List.length_append, List.length_singleton] at hlt
      omega

/-- a list as long as what was to be added has lost nothing -/
theorem apart_of_length (h : (gather hit keep l as).length = l.length + as.length) :
    Apart hit keep l as := by
  by_contra hn
  have := length_gather_lt hn
  omega

/-- the elements of the list that is left -/
theorem mem_gather {b : β} (h : b ∈ gather hit keep l as) : b ∈ l ∨ ∃ a ∈ as, b = keep a := by
  induction as generalizing l with
  | nil => exact Or.inl h
  | cons a as ih =>
    rcases ih h with hb | ⟨c, hc, hb⟩
    · unfold add at hb
      split at hb
      · exact Or.inl hb
      · rcases List.mem_append.mp hb with hb | hb
        · exact Or.inl hb
        · exact Or.inr ⟨a, List.mem_cons_self, List.mem_singleton.mp hb⟩
    · exact Or.inr ⟨c, List.mem_cons_of_mem a hc, hb⟩

theorem gather_append (bs : List α) :
    gather hit keep l (as ++ bs) = gather hit keep (gather hit keep l as) bs := List.foldl_append

theorem isPrefix_gather : l.IsPrefix (gather hit keep l as) := by
  induction as generalizing l with
  | nil => exact List.prefix_refl l
  | cons a as ih =>
    have hadd : l.IsPrefix (add hit keep l a) := by
      unfold add
      split
      · exact List.prefix_refl l
      · exact List.prefix_append l _
    exact hadd.trans ih

theorem gather_of_found (h : ∀ a ∈ as, l.any (hit a) = true) : gather hit keep l as = l := by
  induction as with
  | nil => rfl
  | cons a as ih =>
    have hadd : add hit keep l a = l := if_pos (h a List.mem_cons_self)
    show gather hit keep (add hit keep l a) as = l
    rw [hadd]
    exact ih fun b hb => h b (List.mem_cons_of_mem a hb)

/-- a list that has not grown has found them all -/
theorem found_of_length (h : (gather hit keep l as).length = l.length) :
    ∀ a ∈ as, l.any (hit a) = true := by
  induction as with
  | nil => exact List.forall_mem_nil _
  | cons a as ih =>
    have h' : (gather hit keep (add hit keep l a) as).length = l.length := h
    cases ha : l.any (hit a) with
    | true =>
      have hadd : add hit keep l a = l := if_pos ha
      rw [hadd] at h'
      exact List.forall_mem_cons.mpr ⟨ha, ih h'⟩
    | false =>
      have hadd : add hit keep l a = l ++ [keep a] := if_neg (by simp [ha])
      have hle : (l ++ [keep a]).length ≤ (gather hit keep (l ++ [keep a]) as).length :=
        isPrefix_gather.length_le
      rw [hadd] at h'
      rw [List.length_append, List.length_singleton] at hle
      omega

variable [DecidableEq β]

theorem count_gather {b : β} (h : ∀ a ∈ as, keep a = b → l.any (hit a) = true) :
    (gather hit keep l as).count b = l.count b := by
  induction as generalizing l with
  | nil => rfl
  | cons a as ih =>
    show (gather hit keep (add hit keep l a) as).count b = _
    obtain ⟨h1, h2⟩ := List.forall_mem_cons.mp h
    cases ha : l.any (hit a) with
    | true =>
      have hadd : add hit keep l a = l := if_pos ha
      rw [hadd, ih h2]
    | false =>
      have hadd : add hit keep l a = l ++ [keep a] := if_neg (by simp [ha])
      have hne : keep a ≠ b := fun he => Bool.false_ne_true (ha.symm.trans (h1 he))
      rw [hadd, ih, List.count_append, List.count_singleton, if_neg (by simpa using hne), Nat.add_zero]
      intro c hc he
      rw [List.any_append, h2 c hc he, Bool.true_or]

/-- what is lost is not made up for by later elements, if elements that are kept alike are found
alike -/
theorem apart_of_perm {bs : List α}
    (hb : bs = [] ∨ ∀ a ∈ as, ∀ c ∈ as ++ bs, keep c = keep a → hit c = hit a)
    (h : (gather hit keep l (as ++ bs)).Perm (l ++ as.map keep)) : Apart hit keep l as := by
  rcases hb with rfl | hb
  · have hl := h.length_eq
    rw [List.append_nil, List.length_append, List.length_map] at hl
    exact apart_of_length hl
  · induction as generalizing l with
    | nil => exact ⟨List.forall_mem_nil _, List.Pairwise.nil⟩
    | cons a as ih =>
      cases ha : l.any (hit a) with
      | true =>
        have hc : (gather hit keep l (a :: as ++ bs)).count (keep a) = l.count (keep a) := by
          apply count_gather
          intro c hc he
          rw [hb a List.mem_cons_self c hc he, ha]
        have hp := h.count_eq (keep a)
        rw [hc, List.count_append, List.map_cons, List.count_cons_self] at hp
        omega
      | false =>
        have hadd : add hit keep l a = l ++ [keep a] := if_neg (by simp [ha])
        have h' : (gather hit keep (add hit keep l a) (as ++ bs)).Perm
            (l ++ ([keep a] ++ as.map keep)) := h
        rw [hadd, ← List.append_assoc] at h'
        refine apart_cons.mpr ⟨ha, ih h' ?_⟩
        intro b hbs c hc
        exact hb b (List.mem_cons_of_mem a hbs) c (List.mem_cons_of_mem a hc)

end

section
variable {α β : Type} {hit : α → β → Bool} {keep : α → β} {back : β → β → Bool} {l : List β}
  {as : List α}

/-- in the list that is left, none is found in one before it; `back` is the matcher as the elements
of the list see it -/
theorem gather_pairwise (hb : ∀ a ∈ as, ∀ b, back (keep a) b = hit a b)
    (hl : l.Pairwise fun x y => back y x = false) :
    (gather hit keep l as).Pairwise fun x y => back y x = false := by
  induction as generalizing l with
  | nil => exact hl
  | cons a as ih =>
    apply ih fun c hc => hb c (List.mem_cons_of_mem a hc)
    unfold add
    split
    · exact hl
    · next ha =>
      refine List.pairwise_append.mpr ⟨hl, List.pairwise_singleton _ _, ?_⟩
      intro x hx y hy
      rw [List.mem_singleton.mp hy, hb a List.mem_cons_self]
      exact Bool.eq_false_iff.mpr fun hc => ha (List.any_eq_true.mpr ⟨x, hx, hc⟩)

end

end Gather
