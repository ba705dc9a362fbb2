import Mathlib.Data.List.Basic

/-!
# Events in the light of what came before

* `Always P l`   every event of `l` has the property `P`, which may look at the events in front of it;
* `foldl_idle`   a fold over events that it does not notice;
* `lastOf key k l`   the last event with a key.
-/

namespace History

variable {α β : Type} {P Q : List α → α → Prop} {l l' : List α}

def Always (P : List α → α → Prop) (l : List α) : Prop :=
  ∀ before x after, l = before ++ x :: after → P before x

theorem always_nil (P : List α → α → Prop) : Always P [] := by
  intro before x after h
  exact absurd h.symm (by simp)

/-- an event further on may also look at the whole first part -/
theorem always_append :
    Always P (l ++ l') ↔ Always P l ∧ Always (fun before => P (l ++ before)) l' := by
  constructor
  · intro h
    refine ⟨fun before x after e => ?_, fun before x after e => ?_⟩
    · exact h before x (after ++ l') (by rw [e, List.append_assoc]; rfl)
    · exact h (l ++ before) x after (by rw [e, List.append_assoc])
  · rintro ⟨h, h'⟩ before x after e
    rcases List.append_eq_append_iff.mp e with ⟨c, rfl, hc⟩ | ⟨c, rfl, hc⟩
    · exact h' c x after hc
    · cases c with
      | nil =>
        have hx := h' [] x after hc.symm
        rwa [List.append_nil, List.append_nil] at hx
      | cons y c =>
        obtain ⟨rfl, _⟩ := List.cons.inj hc
        exact h before x c rfl

theorem always_singleton {x : α} : Always P [x] ↔ P [] x := by
  constructor
  · intro h
    exact h [] x [] rfl
  · intro h before y after e
    cases before with
    | nil =>
      obtain ⟨rfl, _⟩ := List.cons.inj e
      exact h
    | cons z before =>
      obtain ⟨_, h0⟩ := List.cons.inj e
      exact absurd h0.symm (by simp)

theorem always_cons {x : α} :
    Always P (x :: l) ↔ P [] x ∧ Always (fun before => P (x :: before)) l := by
  have h : Always P ([x] ++ l) ↔ Always P [x] ∧ Always (fun before => P ([x] ++ before)) l :=
    always_append
  rw [always_singleton] at h
  exact h

/-- what holds of an event wherever it stands in the list -/
theorem always_of_mem (h : ∀ x ∈ l, ∀ before, (∀ y ∈ before, y ∈ l) → P before x) : Always P l := by
  rintro before x after rfl
  exact h x (by simp) before fun y hy => List.mem_append_left _ hy

theorem foldl_idle {f : β → α → β} (h : ∀ x ∈ l, ∀ b, f b x = b) (b : β) : l.foldl f b = b := by
  induction l with
  | nil => rfl
  | cons x l ih =>
    rw [List.foldl_cons, h x List.mem_cons_self]
    exact ih fun y hy => h y (List.mem_cons_of_mem _ hy)

/-! ## the last event with a key -/

section
variable {κ : Type} [DecidableEq κ] {key : α → κ} {k : κ}

def lastOf (key : α → κ) (k : κ) (l : List α) : Option α := l.reverse.find? fun x => key x = k

theorem lastOf_append (key : α → κ) (k : κ) (l l' : List α) :
    lastOf key k (l ++ l') = (lastOf key k l').or (lastOf key k l) := by
  unfold lastOf
  rw [List.reverse_append, List.find?_append]

theorem lastOf_eq_none : lastOf key k l = none ↔ ∀ x ∈ l, key x ≠ k := by
  unfold lastOf
  simp

theorem lastOf_some {x : α} (h : lastOf key k l = some x) : x ∈ l ∧ key x = k := by
  unfold lastOf at h
  have hk := List.find?_some h
  exact ⟨List.mem_reverse.mp (List.mem_of_find?_eq_some h), of_decide_eq_true hk⟩

/-- there is a last event as soon as there is one -/
theorem exists_lastOf {x : α} (hx : x ∈ l) (hk : key x = k) : ∃ y, lastOf key k l = some y := by
  cases h : lastOf key k l with
  | some y => exact ⟨y, rfl⟩
  | none => exact absurd hk (lastOf_eq_none.mp h x hx)

end

end History
