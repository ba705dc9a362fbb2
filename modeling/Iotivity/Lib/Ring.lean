import Mathlib.Data.List.Rotate

/-!
# Ring buffers

A list of fixed length, written round and round at a cursor.  Read from the cursor on, it holds what
has been written last, oldest first, behind the padding that it started with.

* `Window pad l i xs`   `l`, with its cursor at `i`, holds the last of the writes `xs`;
* `Window.push`         one more write;
* `Window.mem_iff`      what is in the buffer.
-/

namespace Ring

variable {α : Type} {pad x : α} {l xs : List α} {i : Nat}

structure Window (pad : α) (l : List α) (i : Nat) (xs : List α) : Prop where
  cursor : i < l.length
  content : l.rotate i = (List.replicate l.length pad ++ xs).drop xs.length

theorem Window.empty (pad : α) {n : Nat} (hn : 0 < n) : Window pad (List.replicate n pad) 0 [] := by
  refine ⟨by rw [List.length_replicate]; exact hn, ?_⟩
  rw [List.rotate_zero, List.append_nil, List.length_replicate, List.length_nil, List.drop_zero]

/-- a write at the cursor: the oldest entry goes, the new one is the last -/
theorem rotate_set (h : i < l.length) (x : α) :
    (l.set i x).rotate (i + 1) = (l.rotate i).tail ++ [x] := by
  have hlen : (l.take i ++ [x]).length = i + 1 := by
    rw [List.length_append, List.length_take, Nat.min_eq_left h.le, List.length_singleton]
  have hset : l.set i x = (l.take i ++ [x]) ++ l.drop (i + 1) := by
    rw [List.set_eq_take_append_cons_drop, if_pos h, List.append_assoc, List.singleton_append]
  have hrot := List.rotate_append_length_eq (l.take i ++ [x]) (l.drop (i + 1))
  rw [hlen] at hrot
  rw [hset, hrot, List.rotate_eq_drop_append_take h.le, ← List.append_assoc, List.tail_append_of_ne_nil,
    List.tail_drop]
  intro hnil
  have := List.drop_eq_nil_iff.mp hnil
  omega

theorem Window.push (h : Window pad l i xs) (x : α) :
    Window pad (l.set i x) ((i + 1) % l.length) (xs ++ [x]) := by
  have hpos : 0 < l.length := Nat.lt_of_le_of_lt (Nat.zero_le _) h.cursor
  refine ⟨by rw [List.length_set]; exact Nat.mod_lt _ hpos, ?_⟩
  have hmod := List.rotate_mod (l.set i x) (i + 1)
  rw [List.length_set] at hmod ⊢
  have hlen : xs.length + 1 ≤ (List.replicate l.length pad ++ xs).length := by
    rw [List.length_append, List.length_replicate]
    omega
  rw [hmod, rotate_set h.cursor, h.content, List.tail_drop, ← List.append_assoc, List.length_append,
    List.length_singleton, List.drop_append_of_le_length hlen]

/-- an entry is one of the last writes, or padding that has not been written over yet -/
theorem Window.mem_iff (h : Window pad l i xs) (x : α) :
    x ∈ l ↔ x ∈ xs.drop (xs.length - l.length) ∨ xs.length < l.length ∧ x = pad := by
  rw [← List.mem_rotate (n := i), h.content, List.drop_append, List.length_replicate,
    List.mem_append, List.drop_replicate, List.mem_replicate, or_comm]
  refine or_congr_right (and_congr_left fun _ => ?_)
  omega

end Ring
