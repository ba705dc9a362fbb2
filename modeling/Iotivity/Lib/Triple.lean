/-!
# Rules for programs with a state and with faults

`EStateM ε σ` runs until it returns or until a fault stops it; either way there is a state.

* `Sat`   what holds when a program has run from a given state;
* one rule for each way to put programs together.
-/

namespace Triple

variable {ε σ α β : Type}

/-- from `s` the program returns with `Q`, or is stopped with `E` -/
def Sat (m : EStateM ε σ α) (s : σ) (Q : α → σ → Prop) (E : ε → σ → Prop) : Prop :=
  match m s with
  | .ok a s' => Q a s'
  | .error e s' => E e s'

variable {m : EStateM ε σ α} {f : α → EStateM ε σ β} {s : σ} {Q : α → σ → Prop} {R : β → σ → Prop}
  {E : ε → σ → Prop}

theorem Sat.pure {a : α} (h : Q a s) : Sat (Pure.pure a : EStateM ε σ α) s Q E := h

theorem Sat.throw {e : ε} (h : E e s) : Sat (EStateM.throw e : EStateM ε σ α) s Q E := h

theorem Sat.modify {g : σ → σ} {Q : Unit → σ → Prop} (h : Q () (g s)) :
    Sat (modify g : EStateM ε σ Unit) s Q E := h

theorem Sat.get {Q : σ → σ → Prop} (h : Q s s) : Sat (get : EStateM ε σ σ) s Q E := h

/-- one program after the other -/
theorem Sat.bind (hm : Sat m s Q E) (hf : ∀ a s', Q a s' → Sat (f a) s' R E) :
    Sat (m >>= f) s R E := by
  have hbind : (m >>= f) s = match m s with
      | .ok a s' => f a s'
      | .error e s' => .error e s' := rfl
  unfold Sat at hm ⊢
  rw [hbind]
  cases hs : m s with
  | ok a s' =>
    rw [hs] at hm
    exact hf a s' hm
  | error e s' =>
    rw [hs] at hm
    exact hm

/-- behind a program whose result is known -/
theorem Sat.bind_ok {a : α} {s' : σ} (hm : m s = .ok a s') (hf : Sat (f a) s' R E) :
    Sat (m >>= f) s R E := by
  refine Sat.bind (Q := fun b t => b = a ∧ t = s') ?_ fun b t h => ?_
  · unfold Sat
    rw [hm]
    exact ⟨rfl, rfl⟩
  · rw [h.1, h.2]
    exact hf

theorem Sat.bind_error {e : ε} {s' : σ} (hm : m s = .error e s') (he : E e s') :
    Sat (m >>= f) s R E := by
  refine Sat.bind (Q := fun _ _ => False) ?_ fun _ _ h => h.elim
  unfold Sat
  rw [hm]
  exact he

theorem Sat.ite {c : Prop} [Decidable c] {m' : EStateM ε σ α} (ht : c → Sat m s Q E)
    (hf : ¬ c → Sat m' s Q E) : Sat (if c then m else m') s Q E := by
  split
  · rename_i h; exact ht h
  · rename_i h; exact hf h

/-- what follows from what holds -/
theorem Sat.imp {Q' : α → σ → Prop} {E' : ε → σ → Prop} (h : Sat m s Q E)
    (hq : ∀ a s', Q a s' → Q' a s') (he : ∀ e s', E e s' → E' e s') : Sat m s Q' E' := by
  unfold Sat at h ⊢
  split
  · rename_i hs; rw [hs] at h; exact hq _ _ h
  · rename_i hs; rw [hs] at h; exact he _ _ h

end Triple
