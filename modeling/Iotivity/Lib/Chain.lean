import Mathlib.Data.List.Nodup
import Mathlib.Logic.Function.Basic

/-!
# Intrusive singly linked lists

The elements of a list hold the links themselves, so that a list is a head and a map `next`.  The
operations walk along the links; a walk that has not come to its end after `fuel` steps is given up,
and with as much fuel as there are elements that means that it never ends.

* `Chain.Holds`         the list is this one, without repetition;
* `Chain.add_holds`     an element that is not in the list goes to its end;
* `Chain.remove_holds`  an element is taken out;
* `Chain.walk_holds`    a walk from an element of the list comes to its end;
* `Path.follow`         a path under other links, as far as these are the old ones;
* `Ends`                what an operation comes to, with any fuel from some amount on.
-/

namespace Intrusive
open Function

/-- a list as it stands in memory -/
structure Chain (α : Type) where
  head : Option α
  next : α → Option α

section
variable {α : Type}

/-- the last element of the walk from `a` -/
def walk (next : α → Option α) : Nat → α → Option α
  | 0, _ => none
  | fuel + 1, a =>
    match next a with
    | none => some a
    | some b => walk next fuel b

/-- the links lead from `x` through the elements of a list, and end there -/
def Path (next : α → Option α) : Option α → List α → Prop
  | x, [] => x = none
  | x, a :: l => x = some a ∧ Path next (next a) l

/-- a list holds these elements, each once -/
structure Chain.Holds (c : Chain α) (l : List α) : Prop where
  path : Path c.next c.head l
  nodup : l.Nodup

variable {next : α → Option α} {x : Option α} {l : List α} {a : α}

theorem Path.congr {next' : α → Option α} (h : Path next x l) (he : ∀ a ∈ l, next' a = next a) :
    Path next' x l := by
  induction l generalizing x with
  | nil => exact h
  | cons a l ih =>
    refine ⟨h.1, ?_⟩
    rw [he a List.mem_cons_self]
    exact ih h.2 fun b hb => he b (List.mem_cons_of_mem a hb)

/-- there is one list behind the links -/
theorem Path.unique {m : List α} (h : Path next x l) (h' : Path next x m) : l = m := by
  induction l generalizing x m with
  | nil =>
    cases m with
    | nil => rfl
    | cons b m =>
      cases h.symm.trans h'.1
  | cons a l ih =>
    cases m with
    | nil => cases h'.symm.trans h.1
    | cons b m =>
      cases h.1.symm.trans h'.1
      rw [ih h.2 h'.2]

/-- a link from an element to itself is on no path -/
theorem Path.not_loop (h : Path next (some a) l) : next a ≠ some a := by
  intro hn
  cases l with
  | nil => cases h
  | cons b l =>
    obtain rfl : a = b := Option.some.inj h.1
    have hp := h.2
    rw [hn] at hp
    have hlen := congrArg List.length (h.unique hp)
    rw [List.length_cons] at hlen
    omega

/-- the walk along a path ends at its last element -/
theorem Path.walk (h : Path next (some a) l) {fuel : Nat} (hf : l.length ≤ fuel) :
    ∃ z, walk next fuel a = some z ∧ l.getLast? = some z := by
  induction l generalizing a fuel with
  | nil => cases h
  | cons b l ih =>
    obtain rfl : a = b := Option.some.inj h.1
    cases fuel with
    | zero => exact absurd hf (by simp)
    | succ fuel =>
      have hl : l.length ≤ fuel := by simpa using hf
      unfold Intrusive.walk
      cases hn : next a with
      | none =>
        have hp := h.2
        rw [hn] at hp
        cases l with
        | nil => exact ⟨a, rfl, rfl⟩
        | cons c l => cases hp.1
      | some c =>
        have hp := h.2
        rw [hn] at hp
        obtain ⟨z, hz, hlast⟩ := ih hp hl
        refine ⟨z, hz, ?_⟩
        cases l with
        | nil => cases hlast
        | cons d l => rw [List.getLast?_cons_cons, hlast]

/-- the rest of a path, from one of its elements -/
theorem Path.suffix (h : Path next x l) (ha : a ∈ l) :
    ∃ m, Path next (some a) m ∧ m.length ≤ l.length := by
  induction l generalizing x with
  | nil => cases ha
  | cons b l ih =>
    rcases List.mem_cons.mp ha with rfl | ha
    · exact ⟨a :: l, ⟨rfl, h.2⟩, Nat.le_refl _⟩
    · obtain ⟨m, hm, hle⟩ := ih h.2 ha
      exact ⟨m, hm, Nat.le_succ_of_le hle⟩

/-- what comes behind an element of a path -/
theorem Path.behind {m : List α} (h : Path next x (l ++ a :: m)) : Path next (next a) m := by
  induction l generalizing x with
  | nil => exact h.2
  | cons b l ih => exact ih h.2

/-- a link of a path stays on it -/
theorem Path.next_mem {b : α} (h : Path next x l) (ha : a ∈ l) (hn : next a = some b) : b ∈ l := by
  induction l generalizing x with
  | nil => cases ha
  | cons c l ih =>
    rcases List.mem_cons.mp ha with rfl | ha
    · have hp := h.2
      rw [hn] at hp
      cases l with
      | nil => cases hp
      | cons d l =>
        cases hp.1
        exact List.mem_cons_of_mem _ List.mem_cons_self
    · exact List.mem_cons_of_mem _ (ih h.2 ha)

theorem Path.head (h : Path next x l) : x = l.head? := by
  cases l with
  | nil => exact h
  | cons a l => exact h.1

/-- a path under other links is the old one as far as the links are -/
theorem Path.follow {next' : α → Option α} {l' m : List α} (h : Path next x (l ++ m))
    (he : ∀ b ∈ l, next' b = next b) (h' : Path next' x l') :
    ∃ m', l' = l ++ m' ∧ Path next' m.head? m' := by
  induction l generalizing x l' with
  | nil => exact ⟨l', rfl, h.head ▸ h'⟩
  | cons b l ih =>
    obtain ⟨hb, he⟩ := List.forall_mem_cons.mp he
    obtain ⟨rfl, h⟩ := h
    cases l' with
    | nil => cases h'
    | cons c l' =>
      obtain ⟨hc, h'⟩ := h'
      obtain rfl := Option.some.inj hc
      obtain ⟨m', rfl, hm⟩ := ih h he (hb ▸ h')
      exact ⟨m', rfl, hm⟩

section
variable [DecidableEq α]

/-- the element behind another one is passed over -/
theorem Path.unlink {u w : List α} {b : α} (h : Path next x (u ++ b :: a :: w))
    (hn : (u ++ b :: a :: w).Nodup) : Path (update next b (next a)) x (u ++ b :: w) := by
  induction u generalizing x with
  | nil =>
    refine ⟨h.1, ?_⟩
    rw [update_self]
    refine h.2.2.congr fun c hc => ?_
    have hcb : c ≠ b := fun he => (List.nodup_cons.mp hn).1 (he ▸ List.mem_cons_of_mem a hc)
    exact update_of_ne hcb _ _
  | cons d u ih =>
    obtain ⟨hd, hn⟩ := List.nodup_cons.mp hn
    have hdb : d ≠ b := fun he => hd (he ▸ by simp)
    refine ⟨h.1, ?_⟩
    rw [update_of_ne hdb]
    exact ih h.2 hn

/-- a path goes on to one more element -/
theorem Path.snoc {z : α} (h : Path next x l) (hz : l.getLast? = some z) (hn : l.Nodup)
    (ha : a ∉ l) : Path (update (update next a none) z (some a)) x (l ++ [a]) := by
  induction l generalizing x with
  | nil => cases hz
  | cons b l ih =>
    obtain ⟨hb, hn⟩ := List.nodup_cons.mp hn
    obtain ⟨hab, ha⟩ := not_or.mp (mt List.mem_cons.mpr ha)
    refine ⟨h.1, ?_⟩
    cases l with
    | nil =>
      have hbz : b = z := Option.some.inj hz
      rw [hbz, update_self]
      refine ⟨rfl, ?_⟩
      rw [hbz] at hab
      rw [update_of_ne hab, update_self]
      rfl
    | cons c l =>
      rw [List.getLast?_cons_cons] at hz
      have hbz : b ≠ z := by
        intro he
        exact hb (he ▸ List.mem_of_getLast? hz)
      rw [update_of_ne hbz, update_of_ne (Ne.symm hab)]
      exact ih h.2 hz hn ha

/-! ## the operations -/

/-- a list whose memory is cleared at `a` -/
def Chain.clear (a : α) (c : Chain α) : Chain α := { c with next := update c.next a none }

/-- `a` is put at the end of a list -/
def Chain.add (fuel : Nat) (a : α) (c : Chain α) : Option (Chain α) :=
  let next := update c.next a none
  match c.head with
  | none => some ⟨some a, next⟩
  | some h =>
    match walk next fuel h with
    | none => none
    | some z => some ⟨some h, update next z (some a)⟩

/-- the links without `a`, which is looked for behind `p` -/
def removeAfter (next : α → Option α) (a : α) : Nat → α → Option (α → Option α)
  | 0, _ => none
  | fuel + 1, p =>
    match next p with
    | none => some next
    | some b => if b = a then some (update next p (next a)) else removeAfter next a fuel b

/-- `a` is taken out of a list -/
def Chain.remove (fuel : Nat) (a : α) (c : Chain α) : Option (Chain α) :=
  match c.head with
  | none => some c
  | some h =>
    if h = a then some ⟨c.next a, c.next⟩
    else
      match removeAfter c.next a fuel h with
      | none => none
      | some next => some ⟨some h, next⟩

variable {c : Chain α}

theorem Chain.Holds.clear (h : c.Holds l) (ha : a ∉ l) : (c.clear a).Holds l where
  path := by
    apply h.path.congr
    intro b hb
    have hba : b ≠ a := fun he => ha (he ▸ hb)
    exact update_of_ne hba _ _
  nodup := h.nodup

/-- an element is put in front -/
theorem Chain.Holds.cons (h : c.Holds l) (ha : a ∉ l) :
    (Chain.mk (some a) (update c.next a c.head)).Holds (a :: l) where
  path := by
    refine ⟨rfl, ?_⟩
    show Path (update c.next a c.head) (update c.next a c.head a) l
    rw [update_self]
    refine h.path.congr fun b hb => ?_
    have hba : b ≠ a := fun he => ha (he ▸ hb)
    exact update_of_ne hba _ _
  nodup := List.nodup_cons.mpr ⟨ha, h.nodup⟩

theorem Chain.add_holds {fuel : Nat} (h : c.Holds l) (ha : a ∉ l) (hf : l.length ≤ fuel) :
    ∃ c', c.add fuel a = some c' ∧ c'.Holds (l ++ [a]) := by
  have hnodup : (l ++ [a]).Nodup := by
    rw [List.nodup_append]
    refine ⟨h.nodup, List.nodup_singleton a, ?_⟩
    intro b hb d hd
    rw [List.mem_singleton.mp hd]
    exact fun he => ha (he ▸ hb)
  have hc := h.clear ha
  unfold Chain.add
  cases hh : c.head with
  | none =>
    have hp := h.path
    rw [hh] at hp
    cases l with
    | nil =>
      refine ⟨_, rfl, ⟨⟨rfl, ?_⟩, hnodup⟩⟩
      show update c.next a none a = none
      rw [update_self]
    | cons b l => cases hp.1
  | some b =>
    have hp : Path (update c.next a none) (some b) l := hh ▸ hc.path
    obtain ⟨z, hz, hlast⟩ := hp.walk hf
    dsimp only
    rw [hz]
    have hs := (hh ▸ h.path : Path c.next (some b) l).snoc hlast h.nodup ha
    exact ⟨_, rfl, hs, hnodup⟩

/-- an element that is added leaves the links outside of the list as they are -/
theorem Chain.add_next {c' : Chain α} {b : α} {fuel : Nat} (h : c.Holds l) (ha : a ∉ l)
    (hf : l.length ≤ fuel) (hc : c.add fuel a = some c') (hb : b ∉ l) (hba : b ≠ a) :
    c'.next b = c.next b := by
  unfold Chain.add at hc
  cases hh : c.head with
  | none =>
    rw [hh] at hc
    cases hc
    exact update_of_ne hba _ _
  | some d =>
    rw [hh] at hc
    have hp : Path (update c.next a none) (some d) l := hh ▸ (h.clear ha).path
    obtain ⟨z, hz, hlast⟩ := hp.walk hf
    dsimp only at hc
    rw [hz] at hc
    cases hc
    have hbz : b ≠ z := fun he => hb (he ▸ List.mem_of_getLast? hlast)
    show update (update c.next a none) z (some a) b = c.next b
    rw [update_of_ne hbz, update_of_ne hba]

/-- what comes behind `p` without `a` -/
theorem removeAfter_path {p : α} {fuel : Nat} (h : Path next (next p) l) (hp : p ∉ l)
    (hn : l.Nodup) (hf : l.length < fuel) :
    ∃ next', removeAfter next a fuel p = some next' ∧ Path next' (next' p) (l.erase a) ∧
      ∀ b, b ∉ l → b ≠ p → next' b = next b := by
  induction l generalizing p fuel with
  | nil =>
    cases fuel with
    | zero => exact absurd hf (by simp)
    | succ fuel =>
      unfold removeAfter
      rw [show next p = none from h]
      exact ⟨next, rfl, h, fun _ _ _ => rfl⟩
  | cons b l ih =>
    obtain ⟨hbl, hnl⟩ := List.nodup_cons.mp hn
    obtain ⟨hpb, hpl⟩ := not_or.mp (mt List.mem_cons.mpr hp)
    cases fuel with
    | zero => exact absurd hf (by simp)
    | succ fuel =>
      unfold removeAfter
      rw [h.1]
      dsimp only
      by_cases hba : b = a
      · rw [if_pos hba]
        refine ⟨_, rfl, ?_, fun d _ hd => update_of_ne hd _ _⟩
        rw [hba, List.erase_cons_head, update_self]
        refine Path.congr (hba ▸ h.2) ?_
        intro d hd
        have hdp : d ≠ p := fun he => hpl (he ▸ hd)
        exact update_of_ne hdp _ _
      · rw [if_neg hba, List.erase_cons_tail (by simpa using hba)]
        obtain ⟨next', hr, hpath, hframe⟩ := ih h.2 hbl hnl (Nat.lt_of_succ_lt_succ hf)
        refine ⟨next', hr, ⟨?_, hpath⟩, ?_⟩
        · rw [hframe p hpl hpb, h.1]
        · intro d hd hdp
          obtain ⟨hdb, hdl⟩ := not_or.mp (mt List.mem_cons.mpr hd)
          exact hframe d hdl hdb

theorem Chain.remove_holds {fuel : Nat} (h : c.Holds l) (hf : l.length ≤ fuel) :
    ∃ c', c.remove fuel a = some c' ∧ c'.Holds (l.erase a) := by
  have hnodup := h.nodup.erase a
  have hpath := h.path
  have hn := h.nodup
  unfold Chain.remove
  cases hh : c.head with
  | none =>
    rw [hh] at hpath
    cases l with
    | nil => exact ⟨c, rfl, h⟩
    | cons b l => cases hpath.1
  | some b =>
    rw [hh] at hpath
    cases l with
    | nil => cases hpath
    | cons d l =>
      cases hpath.1
      obtain ⟨hbl, hnl⟩ := List.nodup_cons.mp hn
      dsimp only
      by_cases hba : b = a
      · rw [if_pos hba]
        refine ⟨_, rfl, ?_, hnodup⟩
        rw [hba, List.erase_cons_head]
        exact hba ▸ hpath.2
      · obtain ⟨next', hr, hp, _⟩ := removeAfter_path (a := a) hpath.2 hbl hnl hf
        rw [if_neg hba, hr]
        refine ⟨_, rfl, ?_, hnodup⟩
        rw [List.erase_cons_tail (by simpa using hba)]
        exact ⟨rfl, hp⟩

/-- an element that is taken out leaves the links outside of the list as they are -/
theorem Chain.remove_next {c' : Chain α} {b : α} {fuel : Nat} (h : c.Holds l) (hf : l.length ≤ fuel)
    (hc : c.remove fuel a = some c') (hb : b ∉ l) : c'.next b = c.next b := by
  have hpath := h.path
  unfold Chain.remove at hc
  cases hh : c.head with
  | none =>
    rw [hh] at hc
    cases hc
    rfl
  | some d =>
    rw [hh] at hc hpath
    cases l with
    | nil => cases hpath
    | cons e l =>
      cases hpath.1
      obtain ⟨hdl, hnl⟩ := List.nodup_cons.mp h.nodup
      obtain ⟨hbd, hbl⟩ := not_or.mp (mt List.mem_cons.mpr hb)
      dsimp only at hc
      by_cases hda : d = a
      · rw [if_pos hda] at hc
        cases hc
        rfl
      · obtain ⟨next', hr, _, hframe⟩ := removeAfter_path (a := a) hpath.2 hdl hnl hf
        rw [if_neg hda, hr] at hc
        cases hc
        exact hframe b hbl hbd

end

/-- a walk from an element of a list comes to its end -/
theorem Chain.walk_holds {c : Chain α} {fuel : Nat} (h : c.Holds l) (ha : a ∈ l)
    (hf : l.length ≤ fuel) : ∃ z, walk c.next fuel a = some z := by
  obtain ⟨m, hm, hle⟩ := h.path.suffix ha
  obtain ⟨z, hz, _⟩ := hm.walk (Nat.le_trans hle hf)
  exact ⟨z, hz⟩

end

/-! ## fuel -/

/-- an operation comes to `y` -/
def Ends {β : Type} (f : Nat → Option β) (y : β) : Prop := ∃ n, ∀ fuel, n ≤ fuel → f fuel = some y

/-- more fuel does not change a result -/
def Steady {β : Type} (f : Nat → Option β) : Prop := ∀ fuel y, f fuel = some y → f (fuel + 1) = some y

section
variable {α β : Type} {f : Nat → Option β} {y z : β}

theorem Ends.unique (hy : Ends f y) (hz : Ends f z) : y = z := by
  obtain ⟨n, hn⟩ := hy
  obtain ⟨m, hm⟩ := hz
  exact Option.some.inj ((hn _ (Nat.le_max_left n m)).symm.trans (hm _ (Nat.le_max_right n m)))

theorem Ends.const (y : β) : Ends (fun _ => some y) y := ⟨0, fun _ _ => rfl⟩

theorem Ends.map {γ : Type} (h : Ends f y) (g : β → γ) : Ends (fun fuel => (f fuel).map g) (g y) := by
  obtain ⟨n, hn⟩ := h
  exact ⟨n, fun fuel hf => congrArg (Option.map g) (hn fuel hf)⟩

theorem Ends.bind {γ : Type} {g : Nat → β → Option γ} {w : γ} (h : Ends f y)
    (hg : Ends (fun fuel => g fuel y) w) : Ends (fun fuel => (f fuel).bind (g fuel)) w := by
  obtain ⟨n, hn⟩ := h
  obtain ⟨m, hm⟩ := hg
  refine ⟨max n m, fun fuel hf => ?_⟩
  show (f fuel).bind (g fuel) = some w
  rw [hn fuel (Nat.le_trans (Nat.le_max_left n m) hf)]
  exact hm fuel (Nat.le_trans (Nat.le_max_right n m) hf)

/-- one round more -/
theorem Ends.step {g : Nat → Option β} (h : Ends f y) (hg : ∀ fuel, g (fuel + 1) = f fuel) : Ends g y := by
  obtain ⟨n, hn⟩ := h
  refine ⟨n + 1, fun fuel hf => ?_⟩
  obtain ⟨k, rfl⟩ := Nat.exists_eq_add_of_le' (Nat.le_trans (Nat.le_add_left 1 n) hf)
  rw [hg]
  exact hn k (Nat.le_of_succ_le_succ hf)

theorem Ends.congr {g : Nat → Option β} (h : Ends f y) (hg : ∀ fuel, g fuel = f fuel) : Ends g y := by
  obtain ⟨n, hn⟩ := h
  exact ⟨n, fun fuel hf => (hg fuel).trans (hn fuel hf)⟩

theorem Steady.ends {n : Nat} (h : Steady f) (hn : f n = some y) : Ends f y := by
  refine ⟨n, fun fuel hf => ?_⟩
  obtain ⟨k, rfl⟩ := Nat.exists_eq_add_of_le hf
  induction k with
  | zero => exact hn
  | succ k ih => exact h (n + k) y (ih (Nat.le_add_right n k))

variable {next : α → Option α} {fuel : Nat} {a : α}

theorem walk_succ {z : α} (h : walk next fuel a = some z) : walk next (fuel + 1) a = some z := by
  induction fuel generalizing a with
  | zero => cases h
  | succ fuel ih =>
    unfold walk at h ⊢
    cases hn : next a with
    | none =>
      rw [hn] at h
      exact h
    | some b =>
      rw [hn] at h
      exact ih h

variable [DecidableEq α]

theorem removeAfter_succ {p : α} {next' : α → Option α} (h : removeAfter next a fuel p = some next') :
    removeAfter next a (fuel + 1) p = some next' := by
  induction fuel generalizing p with
  | zero => cases h
  | succ fuel ih =>
    unfold removeAfter at h ⊢
    cases hn : next p with
    | none =>
      rw [hn] at h
      exact h
    | some b =>
      rw [hn] at h
      dsimp only at h ⊢
      split at h
      · next hb => rw [if_pos hb, h]
      · next hb =>
        rw [if_neg hb]
        exact ih h

theorem Chain.add_steady (c : Chain α) (a : α) : Steady fun fuel => c.add fuel a := by
  intro fuel y h
  change c.add (fuel + 1) a = some y
  unfold Chain.add at h ⊢
  cases hh : c.head with
  | none =>
    rw [hh] at h
    exact h
  | some b =>
    rw [hh] at h
    dsimp only at h ⊢
    cases hw : walk (update c.next a none) fuel b with
    | none =>
      rw [hw] at h
      cases h
    | some z =>
      rw [hw] at h
      rw [walk_succ hw]
      exact h

theorem Chain.remove_steady (c : Chain α) (a : α) : Steady fun fuel => c.remove fuel a := by
  intro fuel y h
  change c.remove (fuel + 1) a = some y
  unfold Chain.remove at h ⊢
  cases hh : c.head with
  | none =>
    rw [hh] at h
    exact h
  | some b =>
    rw [hh] at h
    dsimp only at h ⊢
    split at h
    · next hb => rw [if_pos hb, h]
    · next hb =>
      rw [if_neg hb]
      cases hr : removeAfter c.next a fuel b with
      | none =>
        rw [hr] at h
        cases h
      | some next =>
        rw [hr] at h
        rw [removeAfter_succ hr]
        exact h

end

end Intrusive
