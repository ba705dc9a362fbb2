import Mathlib.Data.List.Basic

/-!
# Resumable search in a linked list

A pointer into a linked list is the rest of the list from the element it points at on, and the null
pointer is `[]`.  `next p l cur` finds the next element with `p` behind the cursor `cur`, from the
head of `l` when the cursor is null; `sweep` calls it again and again until it comes back null.

* `sweep_eq`          a sweep visits the elements with `p` behind its cursor, each once and in list
                      order, and leaves the cursor null;
* `next_eq_iff`       two tests find the same from every cursor iff they agree on every element;
* `map_modify_comm`   an element that is found and changed, seen through a map of the list.
-/

namespace Scan

variable {α β : Type} (p : α → Bool)

/-- the first element with `p`, as a pointer -/
def find : List α → List α
  | [] => []
  | a :: t => if p a then a :: t else find t

/-- what lies behind a cursor -/
def behind (l : List α) : List α → List α
  | [] => l
  | _ :: t => t

/-- the search resumed behind a cursor -/
def next (l cur : List α) : List α := find p (behind l cur)

theorem length_find (l : List α) : (find p l).length ≤ l.length := by
  induction l with
  | nil => exact Nat.le_refl _
  | cons a t ih =>
    unfold find
    split
    · exact Nat.le_refl _
    · exact Nat.le_succ_of_le ih

/-- steps a sweep still has before it -/
def ahead (l cur : List α) : Nat := if cur = [] then l.length + 1 else cur.length

theorem length_next (l cur : List α) : (next p l cur).length < ahead l cur := by
  have h := length_find p (behind l cur)
  cases cur with
  | nil => exact Nat.lt_succ_of_le h
  | cons a t => exact Nat.lt_succ_of_le h

/-- `do { cur = next(cur); if (cur) acc = f(acc, *cur); } while (cur);` -/
def sweep (f : β → α → β) (l cur : List α) (acc : β) : β × List α :=
  match _h : next p l cur with
  | [] => (acc, [])
  | a :: t => sweep f l (a :: t) (f acc a)
termination_by ahead l cur
decreasing_by
  have hl := length_next p l cur
  rw [_h] at hl
  exact hl

/-! ## what a sweep visits -/

theorem filter_find (l : List α) : (find p l).filter p = l.filter p := by
  induction l with
  | nil => rfl
  | cons a t ih =>
    unfold find
    cases h : p a
    · rw [if_neg Bool.false_ne_true, List.filter_cons_of_neg (by rw [h]; exact Bool.false_ne_true)]
      exact ih
    · rw [if_pos rfl]

theorem find_cons {l t : List α} {a : α} (h : find p l = a :: t) : p a = true := by
  induction l with
  | nil => cases h
  | cons b s ih =>
    unfold find at h
    split at h
    · next hb => exact (List.cons.inj h).1 ▸ hb
    · exact ih h

theorem filter_behind {l cur : List α} : (next p l cur).filter p = (behind l cur).filter p :=
  filter_find p _

theorem sweep_eq (f : β → α → β) (l cur : List α) (acc : β) :
    sweep p f l cur acc = (((behind l cur).filter p).foldl f acc, []) := by
  induction cur, acc using sweep.induct p f l with
  | case1 cur acc h =>
    rw [sweep, ← filter_behind, h]
    split
    · rfl
    · next h' => cases h'
  | case2 cur acc a t h ih =>
    have ha : p a = true := find_cons p h
    rw [sweep, ← filter_behind, h, List.filter_cons_of_pos ha]
    split
    · next h' => cases h'
    · next h' =>
      cases h'
      exact ih

/-! ## two tests -/

theorem find_congr {q : α → Bool} {l : List α} (h : ∀ a ∈ l, p a = q a) : find p l = find q l := by
  induction l with
  | nil => rfl
  | cons a t ih =>
    unfold find
    rw [h a List.mem_cons_self, ih fun b hb => h b (List.mem_cons_of_mem _ hb)]

theorem find_ne {t : List α} {a : α} (h : p a = false) : find p (a :: t) ≠ a :: t := by
  intro he
  have hl := length_find p t
  rw [find, h, if_neg Bool.false_ne_true] at he
  rw [he, List.length_cons] at hl
  exact Nat.not_succ_le_self _ hl

/-- a cursor just in front of an element -/
theorem exists_cursor {l : List α} {a : α} (h : a ∈ l) :
    ∃ cur t, cur <:+ l ∧ behind l cur = a :: t := by
  obtain ⟨s, t, rfl⟩ := List.append_of_mem h
  rcases List.eq_nil_or_concat s with rfl | ⟨s, b, rfl⟩
  · exact ⟨[], t, List.nil_suffix, rfl⟩
  · exact ⟨b :: a :: t, t, ⟨s, by simp⟩, rfl⟩

theorem next_eq_iff (q : α → Bool) (l : List α) :
    (∀ cur, cur <:+ l → next p l cur = next q l cur) ↔ ∀ a ∈ l, p a = q a := by
  constructor
  · intro h a ha
    obtain ⟨cur, t, hc, hb⟩ := exists_cursor ha
    have hf := h cur hc
    unfold next at hf
    rw [hb] at hf
    cases hp : p a <;> cases hq : q a
    · rfl
    · rw [show find q (a :: t) = a :: t by rw [find, hq, if_pos rfl]] at hf
      exact absurd hf (find_ne p hp)
    · rw [show find p (a :: t) = a :: t by rw [find, hp, if_pos rfl]] at hf
      exact absurd hf.symm (find_ne q hq)
    · rfl
  · intro h cur hc
    refine find_congr p fun a ha => h a ?_
    cases cur with
    | nil => exact ha
    | cons b t => exact hc.subset (List.mem_cons_of_mem b ha)

/-! ## an element changed in place -/

theorem map_modify_comm {f : α → β} {g : α → α} {k : β → β} (h : ∀ a, f (g a) = k (f a)) (l : List α)
    (i : Nat) : (l.modify i g).map f = (l.map f).modify i k := by
  induction l generalizing i with
  | nil => rw [List.modify_nil, List.map_nil, List.modify_nil]
  | cons a l ih =>
    cases i with
    | zero => rw [List.modify_zero_cons, List.map_cons, List.map_cons, List.modify_zero_cons, h]
    | succ i => rw [List.modify_succ_cons, List.map_cons, List.map_cons, List.modify_succ_cons, ih]

/-- what the change leaves alone -/
theorem map_modify_same {f : α → β} {g : α → α} (h : ∀ a, f (g a) = f a) (l : List α) (i : Nat) :
    (l.modify i g).map f = l.map f := by
  rw [map_modify_comm (k := id) h, List.modify_id]

end Scan
