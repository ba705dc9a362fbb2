import Mathlib.Data.List.Induction

/-!
# Runs of a partial step function

A system takes one step after another; a step that must not be taken has no result.

* `run_append`    a run in two parts;
* `run_inv`       what every step keeps, a run keeps;
* `first_cause`   what holds at the end of a run, and did not at its beginning, was brought about by
                  a step of it; an invariant may help to see that.
-/

namespace Runs

variable {σ ε : Type} {step : σ → ε → Option σ}

/-- the steps of a list, one after another -/
def run (step : σ → ε → Option σ) (s : σ) (l : List ε) : Option σ := l.foldlM step s

theorem run_nil (s : σ) : run step s [] = some s := rfl

theorem run_cons (s : σ) (e : ε) (l : List ε) :
    run step s (e :: l) = (step s e).bind fun t => run step t l := rfl

theorem run_append (s : σ) (l m : List ε) :
    run step s (l ++ m) = (run step s l).bind fun t => run step t m := by
  unfold run
  rw [List.foldlM_append]
  rfl

/-- a run that ends with a step -/
theorem run_snoc {s t : σ} {l : List ε} {e : ε} :
    run step s (l ++ [e]) = some t ↔ ∃ r, run step s l = some r ∧ step r e = some t := by
  rw [run_append, Option.bind_eq_some_iff]
  simp only [run_cons, run_nil, Option.bind_fun_some]

theorem run_inv {P : σ → Prop} (h : ∀ s e t, P s → step s e = some t → P t) {s t : σ} {l : List ε}
    (hs : P s) (hr : run step s l = some t) : P t := by
  induction l using List.reverseRecOn generalizing t with
  | nil =>
    cases hr
    exact hs
  | append_singleton l e ih =>
    obtain ⟨r, hl, he⟩ := run_snoc.mp hr
    exact h r e t (ih hl) he

/-- every first part of a run is a run -/
theorem run_prefix {s t : σ} {l m : List ε} (h : run step s (l ++ m) = some t) :
    ∃ r, run step s l = some r ∧ run step r m = some t := by
  rw [run_append] at h
  exact Option.bind_eq_some_iff.mp h

theorem first_cause {I Q : σ → Prop} {C : σ → ε → Prop}
    (hI : ∀ s e t, I s → step s e = some t → I t)
    (h : ∀ s e t, I s → step s e = some t → Q t → Q s ∨ C s e) {s t : σ} {l : List ε} (hi : I s)
    (hs : ¬ Q s) (hr : run step s l = some t) (hq : Q t) :
    ∃ pre e post r, l = pre ++ e :: post ∧ run step s pre = some r ∧ C r e := by
  induction l using List.reverseRecOn generalizing t with
  | nil =>
    cases hr
    exact absurd hq hs
  | append_singleton l e ih =>
    obtain ⟨r, hl, he⟩ := run_snoc.mp hr
    rcases h r e t (run_inv hI hi hl) he hq with hqr | hc
    · obtain ⟨pre, f, post, r', rfl, h1, h2⟩ := ih hl hqr
      exact ⟨pre, f, post ++ [e], r', by rw [List.append_assoc]; rfl, h1, h2⟩
    · exact ⟨l, e, [], r, rfl, hl, hc⟩

end Runs
