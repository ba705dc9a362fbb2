import Mathlib.Data.List.Basic
import Mathlib.Data.List.GetD
import Mathlib.Tactic.Linarith

/-!
# Memory as a function: block reads and block writes

A memory gives one cell to every address.  `read m p n` is the block of `n` cells at `p`,
`write m p l` stores the list `l` at `p`.

* `write_append`          storing `a ++ b` is storing `a`, then `b` behind it;
* `read_write_self`       a stored block is read back;
* `read_write_disjoint`   a write outside a block leaves the block alone;
* `read_congr`            a read depends on the cells of its block only.
-/

namespace Memory

variable {α : Type}

/-- the `n` cells from address `p` on -/
def read (m : Nat → α) (p n : Nat) : List α := (List.range n).map fun i => m (p + i)

/-- the memory with the list `l` stored from address `p` on -/
def write (m : Nat → α) (p : Nat) (l : List α) : Nat → α :=
  fun i => if p ≤ i then l.getD (i - p) (m i) else m i

/-! ## reads -/

@[simp] theorem length_read (m : Nat → α) (p n : Nat) : (read m p n).length = n := by
  simp [read]

@[simp] theorem read_zero (m : Nat → α) (p : Nat) : read m p 0 = [] := rfl

theorem getElem?_read (m : Nat → α) (p n i : Nat) (hi : i < n) :
    (read m p n)[i]? = some (m (p + i)) := by
  simp [read, hi]

theorem read_succ (m : Nat → α) (p n : Nat) : read m p (n+1) = m p :: read m (p+1) n := by
  unfold read
  rw [List.range_succ_eq_map, List.map_cons, List.map_map]
  refine congrArg₂ _ rfl (List.map_congr_left fun i _ => ?_)
  show m (p + (i + 1)) = m (p + 1 + i)
  rw [Nat.add_right_comm, Nat.add_assoc]

theorem read_add (m : Nat → α) (p a b : Nat) :
    read m p (a + b) = read m p a ++ read m (p + a) b := by
  induction a generalizing p with
  | zero => simp
  | succ a ih =>
    have e : a + 1 + b = (a + b) + 1 := by omega
    have e' : p + 1 + a = p + (a + 1) := by omega
    rw [e, read_succ, read_succ, ih, List.cons_append, e']

theorem read_congr {m m' : Nat → α} {p n : Nat} (h : ∀ i, p ≤ i → i < p + n → m i = m' i) :
    read m p n = read m' p n := by
  unfold read
  refine List.map_congr_left fun i hi => h _ (Nat.le_add_right _ _) ?_
  have := List.mem_range.mp hi
  omega

theorem read_take (m : Nat → α) (p n k : Nat) (hk : k ≤ n) :
    (read m p n).take k = read m p k := by
  obtain ⟨r, rfl⟩ := Nat.exists_eq_add_of_le hk
  rw [read_add, List.take_left' (length_read m p k)]

theorem read_drop (m : Nat → α) (p n k : Nat) (hk : k ≤ n) :
    (read m p n).drop k = read m (p + k) (n - k) := by
  obtain ⟨r, rfl⟩ := Nat.exists_eq_add_of_le hk
  rw [read_add, List.drop_left' (length_read m p k), Nat.add_sub_cancel_left]

/-- two memories that agree on a block agree on every block inside it -/
theorem read_sub {m m' : Nat → α} {p n q k : Nat} (h : read m p n = read m' p n) (hp : p ≤ q)
    (hq : q + k ≤ p + n) : read m q k = read m' q k := by
  obtain ⟨d, rfl⟩ := Nat.exists_eq_add_of_le hp
  have h1 : ((read m p n).drop d).take k = ((read m' p n).drop d).take k := by rw [h]
  rwa [read_drop m p n d (by omega), read_drop m' p n d (by omega), read_take _ _ _ _ (by omega),
    read_take _ _ _ _ (by omega)] at h1

/-- equal blocks are equal cell by cell -/
theorem cell_eq_of_read_eq {m m' : Nat → α} {p n i : Nat} (h : read m p n = read m' p n)
    (hp : p ≤ i) (hi : i < p + n) : m i = m' i := by
  have h1 := read_sub h hp (show i + 1 ≤ p + n from hi)
  rw [read_succ, read_succ] at h1
  exact (List.cons.inj h1).1

/-- a block read as `a ++ b` holds `a`, then `b` -/
theorem read_eq_append {m : Nat → α} {p : Nat} {a b : List α}
    (h : read m p (a ++ b).length = a ++ b) :
    read m p a.length = a ∧ read m (p + a.length) b.length = b := by
  rw [List.length_append, read_add] at h
  exact List.append_inj h (length_read _ _ _)

/-! ## writes -/

@[simp] theorem write_nil (m : Nat → α) (p : Nat) : write m p [] = m := by
  funext i
  simp [write]

theorem write_apply_lt (m : Nat → α) (p : Nat) (l : List α) (i : Nat) (hi : i < p) :
    write m p l i = m i := by
  unfold write
  rw [if_neg (by omega)]

theorem write_apply_ge (m : Nat → α) (p : Nat) (l : List α) (i : Nat) (hi : p + l.length ≤ i) :
    write m p l i = m i := by
  unfold write
  rw [if_pos (by omega), List.getD_eq_default _ _ (by omega)]

theorem write_apply_mem (m : Nat → α) (p : Nat) (l : List α) (i : Nat) (hi : i < l.length) :
    write m p l (p + i) = l[i] := by
  unfold write
  rw [if_pos (Nat.le_add_right _ _), Nat.add_sub_cancel_left, List.getD_eq_getElem _ _ hi]

theorem write_append (m : Nat → α) (p : Nat) (a b : List α) :
    write m p (a ++ b) = write (write m p a) (p + a.length) b := by
  funext i
  by_cases h1 : i < p
  · rw [write_apply_lt _ _ _ _ h1, write_apply_lt _ _ _ _ (by omega), write_apply_lt _ _ _ _ h1]
  · obtain ⟨k, rfl⟩ := Nat.exists_eq_add_of_le (Nat.le_of_not_lt h1)
    by_cases h2 : k < a.length
    · rw [write_apply_mem _ _ _ _ (by simp; omega), write_apply_lt _ _ _ _ (by omega),
        write_apply_mem _ _ _ _ h2, List.getElem_append_left h2]
    · obtain ⟨j, rfl⟩ := Nat.exists_eq_add_of_le (Nat.le_of_not_lt h2)
      rw [← Nat.add_assoc]
      by_cases h3 : j < b.length
      · rw [write_apply_mem _ _ _ _ h3, Nat.add_assoc, write_apply_mem _ _ _ _ (by simp; omega)]
        simp
      · rw [write_apply_ge _ _ _ _ (by simp; omega), write_apply_ge _ _ _ _ (by omega),
          write_apply_ge _ _ _ _ (by omega)]

@[simp] theorem read_write_self (m : Nat → α) (p : Nat) (l : List α) :
    read (write m p l) p l.length = l := by
  apply List.ext_getElem (length_read _ _ _)
  intro i h1 h2
  have h := getElem?_read (write m p l) p l.length i h2
  rw [List.getElem?_eq_getElem h1, Option.some.injEq] at h
  rw [h, write_apply_mem m p l i h2]

theorem read_write_disjoint (m : Nat → α) (p : Nat) (l : List α) (q n : Nat)
    (h : q + n ≤ p ∨ p + l.length ≤ q) : read (write m p l) q n = read m q n := by
  apply read_congr
  intro i h1 h2
  rcases h with h | h
  · exact write_apply_lt m p l i (by omega)
  · exact write_apply_ge m p l i (by omega)

end Memory
