import Mathlib.Data.List.Nodup

/-!
# Walks with a saved successor

A loop over a linked list that reads the successor of an element before it works on the element.  The
element may be freed meanwhile, its successor must not be.

* `after`     the successor of an element, by its address;
* `walk`      the loop; it fails at an address that is not on the list any more;
* `Local`     work on an element that changes or removes this element only;
* `walk_all`  such a loop comes to every element of the list it starts with, once and in order.
-/

namespace Cursor

variable {α σ : Type} (key : α → Nat)

/-- the address behind the element at `k` -/
def after (k : Nat) : List α → Option Nat
  | [] => none
  | a :: l => if key a = k then l.head?.map key else after k l

/-- `none`: the address is not on the list, or the rounds are used up -/
def walk (items : σ → List α) (visit : σ → α → σ) : Nat → Option Nat → σ → Option σ
  | _, none, s => some s
  | 0, some _, _ => none
  | fuel+1, some k, s =>
    match (items s).find? fun a => key a == k with
    | none => none
    | some a => walk items visit fuel (after key k (items s)) (visit s a)

variable {key}

theorem after_append {pre : List α} {x : α} (h : key x ∉ pre.map key) (suf : List α) :
    after key (key x) (pre ++ x :: suf) = suf.head?.map key := by
  induction pre with
  | nil =>
    show (if key x = key x then _ else _) = _
    rw [if_pos rfl]
  | cons a pre ih =>
    rw [List.map_cons, List.mem_cons, not_or] at h
    show (if key a = key x then _ else _) = _
    rw [if_neg (Ne.symm h.1)]
    exact ih h.2

theorem find?_append {pre : List α} {x : α} (h : key x ∉ pre.map key) (suf : List α) :
    (pre ++ x :: suf).find? (fun a => key a == key x) = some x := by
  rw [List.find?_append, List.find?_eq_none.mpr, Option.none_or, List.find?_cons_of_pos (by simp)]
  intro a ha he
  exact h (beq_iff_eq.mp he ▸ List.mem_map_of_mem ha)

/-- what the work on one element does to the list: it stays, changed or not, or it goes -/
def Local (key : α → Nat) (items : σ → List α) (visit : σ → α → σ) : Prop :=
  ∀ s pre x suf, items s = pre ++ x :: suf → ((items s).map key).Nodup →
    items (visit s x) = pre ++ suf ∨ ∃ y, key y = key x ∧ items (visit s x) = pre ++ y :: suf

variable {items : σ → List α} {visit : σ → α → σ}

/-- behind the element the list is as it was -/
theorem Local.next (hl : Local key items visit) {s : σ} {pre suf : List α} {x : α}
    (hs : items s = pre ++ x :: suf) (hn : ((items s).map key).Nodup) :
    ∃ pre', items (visit s x) = pre' ++ suf ∧ ((items (visit s x)).map key).Nodup := by
  have hv := hl s pre x suf hs hn
  rw [hs] at hn
  rcases hv with hv | ⟨y, hy, hv⟩
  · refine ⟨pre, hv, ?_⟩
    rw [hv]
    exact hn.sublist ((List.Sublist.refl pre).append (List.sublist_cons_self x suf) |>.map key)
  · refine ⟨pre ++ [y], by rw [hv, List.append_assoc]; rfl, ?_⟩
    rw [hv]
    simpa [hy] using hn

/-- other elements are left alone -/
theorem Local.other (hl : Local key items visit) {s : σ} {t x : α} (ht : t ∈ items s)
    (hn : ((items s).map key).Nodup) (hx : key x ≠ key t) :
    x ∈ items (visit s t) ↔ x ∈ items s := by
  obtain ⟨pre, suf, hs⟩ := List.append_of_mem ht
  have ht : x ≠ t := fun h => hx (h ▸ rfl)
  rcases hl s pre t suf hs hn with hv | ⟨y, hy, hv⟩
  · rw [hv, hs]
    simp [ht]
  · have hy : x ≠ y := fun h => hx (h ▸ hy)
    rw [hv, hs]
    simp [ht, hy]

/-- no address is new -/
theorem Local.keys (hl : Local key items visit) {s : σ} {t : α} (ht : t ∈ items s)
    (hn : ((items s).map key).Nodup) : ∀ x ∈ items (visit s t), ∃ y ∈ items s, key y = key x := by
  intro x hx
  by_cases hk : key x = key t
  · exact ⟨t, ht, hk.symm⟩
  · exact ⟨x, (hl.other ht hn hk).mp hx, rfl⟩

theorem Local.nodup (hl : Local key items visit) {s : σ} {t : α} (ht : t ∈ items s)
    (hn : ((items s).map key).Nodup) : ((items (visit s t)).map key).Nodup := by
  obtain ⟨pre, suf, hs⟩ := List.append_of_mem ht
  obtain ⟨_, _, h⟩ := hl.next hs hn
  exact h

theorem walk_eq (hl : Local key items visit) (suf : List α) : ∀ (fuel : Nat) (s : σ) (pre : List α),
    items s = pre ++ suf → ((items s).map key).Nodup → suf.length ≤ fuel →
    walk key items visit fuel (suf.head?.map key) s = some (suf.foldl visit s) := by
  induction suf with
  | nil =>
    intro fuel s pre _ _ _
    cases fuel <;> rfl
  | cons x suf ih =>
    intro fuel s pre hs hn hf
    obtain ⟨fuel, rfl⟩ : ∃ f, fuel = f + 1 := ⟨fuel - 1, by rw [List.length_cons] at hf; omega⟩
    obtain ⟨pre', hs', hn'⟩ := hl.next hs hn
    have hx : key x ∉ pre.map key := by
      rw [hs, List.map_append, List.map_cons] at hn
      intro hmem
      exact (List.nodup_append.mp hn).2.2 _ hmem _ List.mem_cons_self rfl
    show walk key items visit (fuel + 1) (some (key x)) s = some (suf.foldl visit (visit s x))
    unfold walk
    rw [hs, find?_append hx, after_append hx]
    exact ih fuel (visit s x) pre' hs' hn' (by rw [List.length_cons] at hf; omega)

/-- what every visit preserves, the loop preserves -/
theorem foldl_keeps (hl : Local key items visit) {P : σ → Prop}
    (hP : ∀ s x, P s → x ∈ items s → P (visit s x)) (suf : List α) : ∀ (s : σ) (pre : List α),
    items s = pre ++ suf → ((items s).map key).Nodup → P s → P (suf.foldl visit s) := by
  induction suf with
  | nil =>
    intro s pre _ _ h
    exact h
  | cons x suf ih =>
    intro s pre hs hn h
    obtain ⟨pre', hs', hn'⟩ := hl.next hs hn
    exact ih (visit s x) pre' hs' hn' (hP s x h (by rw [hs]; simp))

/-- the whole list -/
theorem walk_all (hl : Local key items visit) (s : σ) (hn : ((items s).map key).Nodup) :
    walk key items visit (items s).length ((items s).head?.map key) s
      = some ((items s).foldl visit s) :=
  walk_eq hl (items s) _ s [] rfl hn (Nat.le_refl _)

end Cursor
