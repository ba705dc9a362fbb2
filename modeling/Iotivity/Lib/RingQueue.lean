import Mathlib.Data.List.Range
import Mathlib.Data.Nat.ModEq
import Mathlib.Logic.Function.Basic

/-!
# Queues in a ring of cells

A queue of `n` elements whose first one is in cell `f` of a ring of `N`.

* `elements`            the elements in order;
* `elements_push`       one more behind the last;
* `elements_pop`        the first one goes;
* `elements_grow`       a full ring is doubled, with the elements up to the end of the old ring moved to
                        the end of the new one.
-/

namespace RingQueue
open Function

variable {α : Type} {cells cells' : Nat → α} {N f n : Nat}

/-- the elements of the queue -/
def elements (cells : Nat → α) (N f n : Nat) : List α := (List.range n).map fun i => cells ((f + i) % N)

@[simp] theorem length_elements : (elements cells N f n).length = n := by
  rw [elements, List.length_map, List.length_range]

/-- distinct places in the queue are distinct cells -/
theorem cell_inj {i j : Nat} (hi : i < N) (hj : j < N) (h : (f + i) % N = (f + j) % N) : i = j := by
  have hm : i ≡ j [MOD N] := Nat.ModEq.add_left_cancel' f h
  rwa [Nat.ModEq, Nat.mod_eq_of_lt hi, Nat.mod_eq_of_lt hj] at hm

theorem elements_push (hn : n < N) (x : α) :
    elements (update cells ((f + n) % N) x) N f (n + 1) = elements cells N f n ++ [x] := by
  rw [elements, List.range_succ, List.map_append, List.map_singleton, update_self]
  refine congrArg (· ++ [x]) (List.map_congr_left fun i hi => ?_)
  have hi := List.mem_range.mp hi
  have hne : (f + i) % N ≠ (f + n) % N := fun he => absurd (cell_inj (hi.trans hn) hn he) (Nat.ne_of_lt hi)
  rw [update_of_ne hne]

theorem elements_pop :
    elements cells N f (n + 1) = cells (f % N) :: elements cells N ((f + 1) % N) n := by
  rw [elements, List.range_succ_eq_map, List.map_cons, List.map_map, elements]
  refine congrArg₂ _ rfl (List.map_congr_left fun i _ => ?_)
  show cells ((f + (i + 1)) % N) = cells (((f + 1) % N + i) % N)
  rw [Nat.mod_add_mod]
  congr 2
  omega

/-- the cells from the first one on go to the end of the ring, the others stay -/
theorem elements_grow (hf : f < N) (hlow : ∀ k < f, cells' k = cells k)
    (hhigh : ∀ k, f ≤ k → k < N → cells' (N + k) = cells k) :
    elements cells' (2 * N) (N + f) N = elements cells N f N := by
  refine List.map_congr_left fun i hi => ?_
  have hi := List.mem_range.mp hi
  by_cases hw : f + i < N
  · rw [Nat.mod_eq_of_lt hw, Nat.mod_eq_of_lt (by omega), Nat.add_assoc]
    exact hhigh _ (Nat.le_add_right f i) hw
  · have h1 : (f + i) % N = f + i - N := by
      rw [Nat.mod_eq_sub_mod (by omega), Nat.mod_eq_of_lt (by omega)]
    have h2 : (N + f + i) % (2 * N) = f + i - N := by
      rw [Nat.mod_eq_sub_mod (by omega), Nat.mod_eq_of_lt (by omega)]
      omega
    rw [h1, h2]
    exact hlow _ (by omega)

end RingQueue
