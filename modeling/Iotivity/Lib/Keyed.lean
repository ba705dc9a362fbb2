import Mathlib.Data.List.Nodup

/-!
# Lists of records known by a key

A pool of heap objects as a list of records, each with an address: a store through a pointer
(`put`), freeing an object (`remove`), and what is left of the old objects after a few of these.

* `Coherent x l`      every record of `l` with the key of `x` is `x`: a local copy that is up to date;
* `Descends Q R l l'` every record of `l'` comes from one of `l`, related by `R`, or has the property
                      `Q`; it composes, and survives `filter` and coherent stores.
-/

namespace Keyed

variable {α : Type} (key : α → Nat)

/-- the record `x` stored over the one with its key -/
def put (x : α) (l : List α) : List α := l.map fun y => if key y = key x then x else y

/-- the list without the record with key `k` -/
def remove (k : Nat) (l : List α) : List α := l.filter fun y => key y ≠ k

/-- `x` is what the list has under its key -/
def Coherent (x : α) (l : List α) : Prop := ∀ y ∈ l, key y = key x → y = x

/-- keys are distinct and below `n` -/
structure Distinct (n : Nat) (l : List α) : Prop where
  nodup : (l.map key).Nodup
  lt : ∀ y ∈ l, key y < n

variable {key} {x y : α} {l l' : List α} {k n : Nat}

/-! ## stores -/

theorem mem_put (h : y ∈ put key x l) : y = x ∨ y ∈ l ∧ key y ≠ key x := by
  obtain ⟨z, hz, rfl⟩ := List.mem_map.mp h
  by_cases hk : key z = key x
  · exact Or.inl (if_pos hk)
  · rw [if_neg hk]
    exact Or.inr ⟨hz, hk⟩

theorem map_key_put (x : α) (l : List α) : (put key x l).map key = l.map key := by
  unfold put
  rw [List.map_map]
  refine List.map_congr_left fun y _ => ?_
  show key (if key y = key x then x else y) = key y
  split
  · rename_i h; exact h.symm
  · rfl

theorem mem_put_self (h : y ∈ l) (hk : key y = key x) : x ∈ put key x l :=
  List.mem_map.mpr ⟨y, h, if_pos hk⟩

theorem mem_put_other (h : y ∈ l) (hk : key y ≠ key x) : y ∈ put key x l :=
  List.mem_map.mpr ⟨y, h, if_neg hk⟩

theorem mem_remove : y ∈ remove key k l ↔ y ∈ l ∧ key y ≠ k := by
  simp [remove]

/-- a store over the last record -/
theorem put_snoc (h : ∀ y ∈ l, key y ≠ key x) (hy : key y = key x) :
    put key x (l ++ [y]) = l ++ [x] := by
  have hl : put key x l = l :=
    (List.map_congr_left fun z hz => if_neg (h z hz)).trans (List.map_id l)
  unfold put at hl ⊢
  rw [List.map_append, hl, List.map_singleton, if_pos hy]

/-- the last record is taken out -/
theorem remove_snoc (h : ∀ y ∈ l, key y ≠ k) (hx : key x = k) : remove key k (l ++ [x]) = l := by
  unfold remove
  rw [List.filter_append, List.filter_eq_self.mpr fun y hy => decide_eq_true (h y hy)]
  simp [hx]

/-- what lies around a record has other keys -/
theorem ne_of_middle {pre suf : List α} (h : ((pre ++ x :: suf).map key).Nodup) (hy : y ∈ pre ∨ y ∈ suf) :
    key y ≠ key x := by
  rw [List.map_append, List.map_cons] at h
  intro he
  refine (List.nodup_middle.mp h).notMem (he ▸ List.mem_append.mpr ?_)
  exact hy.imp List.mem_map_of_mem List.mem_map_of_mem

/-- a record is taken out from among others -/
theorem remove_middle {pre suf : List α} (h : ((pre ++ x :: suf).map key).Nodup) :
    remove key (key x) (pre ++ x :: suf) = pre ++ suf := by
  unfold remove
  rw [List.filter_append, List.filter_cons_of_neg (by simp),
    List.filter_eq_self.mpr fun y hy => decide_eq_true (ne_of_middle h (Or.inl hy)),
    List.filter_eq_self.mpr fun y hy => decide_eq_true (ne_of_middle h (Or.inr hy))]

/-- a store over a record among others -/
theorem put_middle {pre suf : List α} (h : ((pre ++ x :: suf).map key).Nodup) (hy : key y = key x) :
    put key y (pre ++ x :: suf) = pre ++ y :: suf := by
  have hsame : ∀ l : List α, (∀ z ∈ l, key z ≠ key x) →
      l.map (fun z => if key z = key y then y else z) = l := by
    intro l hl
    refine (List.map_congr_left fun z hz => ?_).trans (List.map_id l)
    rw [hy, if_neg (hl z hz)]
    rfl
  unfold put
  rw [List.map_append, List.map_cons, hsame pre fun z hz => ne_of_middle h (Or.inl hz),
    hsame suf fun z hz => ne_of_middle h (Or.inr hz), if_pos hy.symm]

/-- a record is found under its key -/
theorem find_key (hn : (l.map key).Nodup) (hx : x ∈ l) :
    l.find? (fun y => key y = key x) = some x := by
  have hf : (l.find? (fun y => key y = key x)).isSome = true :=
    List.find?_isSome.mpr ⟨x, hx, decide_eq_true rfl⟩
  obtain ⟨y, hy⟩ := Option.isSome_iff_exists.mp hf
  have hk : key y = key x := by simpa using List.find?_some hy
  rw [hy, List.inj_on_of_nodup_map hn (List.mem_of_find?_eq_some hy) hx hk]

/-! ## local copies -/

theorem coherent_put (x : α) (l : List α) : Coherent key x (put key x l) := by
  intro y hy hk
  rcases mem_put hy with h | h
  · exact h
  · exact absurd hk h.2

theorem Coherent.sub (h : Coherent key x l) (hl : ∀ y ∈ l', y ∈ l) : Coherent key x l' :=
  fun y hy hk => h y (hl y hy) hk

/-! ## distinct keys -/

theorem Distinct.coherent (h : Distinct key n l) (hx : x ∈ l) : Coherent key x l :=
  fun _ hy hk => List.inj_on_of_nodup_map h.nodup hy hx hk

/-- a record in front, and the list without it -/
theorem Distinct.perm_remove (h : Distinct key n l) (hx : x ∈ l) :
    l.Perm (x :: remove key (key x) l) := by
  obtain ⟨a, b, rfl⟩ := List.append_of_mem hx
  rw [remove_middle h.nodup]
  exact List.perm_middle

theorem Distinct.put (h : Distinct key n l) (x : α) : Distinct key n (put key x l) := by
  refine ⟨by rw [map_key_put]; exact h.nodup, fun y hy => ?_⟩
  have hm : key y ∈ (Keyed.put key x l).map key := List.mem_map_of_mem hy
  rw [map_key_put] at hm
  obtain ⟨z, hz, e⟩ := List.mem_map.mp hm
  rw [← e]
  exact h.lt z hz

theorem Distinct.filter (h : Distinct key n l) (p : α → Bool) : Distinct key n (l.filter p) :=
  ⟨h.nodup.sublist (List.filter_sublist.map key), fun y hy => h.lt y (List.mem_of_mem_filter hy)⟩

theorem Distinct.mono (h : Distinct key n l) {m : Nat} (hm : n ≤ m) : Distinct key m l :=
  ⟨h.nodup, fun y hy => Nat.lt_of_lt_of_le (h.lt y hy) hm⟩

theorem Distinct.map (h : Distinct key n l) {f : α → α} (hf : ∀ y, key (f y) = key y) :
    Distinct key n (l.map f) := by
  have hk : (l.map f).map key = l.map key := by
    rw [List.map_map]
    exact List.map_congr_left fun y _ => hf y
  refine ⟨by rw [hk]; exact h.nodup, fun y hy => ?_⟩
  obtain ⟨z, hz, rfl⟩ := List.mem_map.mp hy
  rw [hf]
  exact h.lt z hz

/-- a record with the next key at the end -/
theorem Distinct.snoc (h : Distinct key n l) (hx : key x = n) : Distinct key (n + 1) (l ++ [x]) := by
  constructor
  · rw [List.map_append, List.map_singleton, List.nodup_append_comm, List.singleton_append,
      List.nodup_cons]
    refine ⟨fun hm => ?_, h.nodup⟩
    obtain ⟨y, hy, e⟩ := List.mem_map.mp hm
    have := h.lt y hy
    omega
  · intro y hy
    rcases List.mem_append.mp hy with hy | hy
    · exact Nat.lt_succ_of_lt (h.lt y hy)
    · rw [List.mem_singleton.mp hy, hx]
      exact Nat.lt_succ_self n

/-! ## descent -/

section
variable {Q : α → Prop} {R : α → α → Prop}

/-- every record of `l'` comes from one of `l`, or is of a kind nobody asks about -/
def Descends (Q : α → Prop) (R : α → α → Prop) (l l' : List α) : Prop :=
  ∀ y ∈ l', Q y ∨ ∃ x ∈ l, R x y

theorem Descends.of_subset (hR : ∀ x, R x x) (h : ∀ y ∈ l', y ∈ l) : Descends Q R l l' :=
  fun y hy => Or.inr ⟨y, h y hy, hR y⟩

theorem Descends.refl (hR : ∀ x, R x x) (l : List α) : Descends Q R l l :=
  Descends.of_subset hR fun _ h => h

theorem Descends.trans (hQ : ∀ x y, Q x → R x y → Q y) (hR : ∀ x y z, R x y → R y z → R x z)
    {l₁ l₂ l₃ : List α} (h : Descends Q R l₁ l₂) (h' : Descends Q R l₂ l₃) : Descends Q R l₁ l₃ := by
  intro z hz
  rcases h' z hz with hq | ⟨y, hy, hyz⟩
  · exact Or.inl hq
  · rcases h y hy with hq | ⟨x, hx, hxy⟩
    · exact Or.inl (hQ y z hq hyz)
    · exact Or.inr ⟨x, hx, hR x y z hxy hyz⟩

/-- a store through an up-to-date copy -/
theorem Descends.put (hR : ∀ x, R x x) (hx : Coherent key x l) (hy : key y = key x) (hxy : R x y) :
    Descends Q R l (put key y l) := by
  intro z hz
  obtain ⟨w, hw, rfl⟩ := List.mem_map.mp hz
  by_cases hk : key w = key y
  · rw [if_pos hk]
    refine Or.inr ⟨w, hw, ?_⟩
    rw [hx w hw (hk.trans hy)]
    exact hxy
  · rw [if_neg hk]
    exact Or.inr ⟨w, hw, hR w⟩

theorem Descends.map {f : α → α} (hf : ∀ x, R x (f x)) (l : List α) : Descends Q R l (l.map f) := by
  intro y hy
  obtain ⟨x, hx, rfl⟩ := List.mem_map.mp hy
  exact Or.inr ⟨x, hx, hf x⟩

/-- a new record of the kind nobody asks about -/
theorem Descends.snoc (hR : ∀ x, R x x) (hx : Q x) : Descends Q R l (l ++ [x]) := by
  intro y hy
  rcases List.mem_append.mp hy with hy | hy
  · exact Or.inr ⟨y, hy, hR y⟩
  · rw [List.mem_singleton.mp hy]
    exact Or.inl hx

end

end Keyed
