import Mathlib.Data.List.Basic

/-!
# Folds whose steps can fail

Whether a step succeeds depends on the element alone, and then it changes the state as a function does.

* `foldlM_iff`     such a fold succeeds when all its steps do, with the state of the plain fold.
-/

namespace Guarded

variable {α σ ε : Type}

/-- a step succeeds on the elements of `G`, and is `g` there -/
def Guards (f : σ → α → Except ε σ) (G : α → Prop) (g : σ → α → σ) : Prop :=
  ∀ s a s', f s a = .ok s' ↔ G a ∧ s' = g s a

theorem foldlM_iff {f : σ → α → Except ε σ} {G : α → Prop} {g : σ → α → σ} (h : Guards f G g) (l : List α)
    (s s' : σ) : l.foldlM f s = .ok s' ↔ (∀ a ∈ l, G a) ∧ s' = l.foldl g s := by
  induction l generalizing s with
  | nil =>
    constructor
    · exact fun he => ⟨fun _ ha => (nomatch ha), (Except.ok.inj he).symm⟩
    · exact fun he => congrArg _ he.2.symm
  | cons a l ih =>
    rw [List.foldlM_cons, List.forall_mem_cons, List.foldl_cons]
    cases hf : f s a with
    | error e =>
      refine ⟨fun he => (nomatch he), fun ⟨⟨ha, _⟩, _⟩ => ?_⟩
      rw [(h s a (g s a)).mpr ⟨ha, rfl⟩] at hf
      cases hf
    | ok t =>
      obtain ⟨ha, rfl⟩ := (h s a t).mp hf
      refine (ih (g s a)).trans ?_
      rw [and_iff_right ha]

end Guarded
