import Iotivity.Lib.Memory

/-!
# Blocks one behind the other

A list of blocks of a memory, each with a place and a size, that leaves no gap: a block begins where
the one before it ends.  When a block is taken out, the blocks behind it move down by its size.

* `Placed`               the blocks of a list lie one behind the other, from some place on;
* `memmove`              a block is copied over another one, which may overlap it;
* `Placed.apart`         blocks that are placed do not overlap;
* `Placed.down`          the blocks are placed again, when all of them move down;
* `read_memmove_down`    what is read in a block that has moved.
-/

namespace Memory

section
variable {α : Type} {ptr ptr' : α → Option Nat} {size size' : α → Nat} {l m : List α} {a : α}
  {p : Nat}

/-- the blocks of a list begin at `p`, and each of them ends where the next one begins -/
def Placed (ptr : α → Option Nat) (size : α → Nat) : Nat → List α → Prop
  | _, [] => True
  | p, a :: l => ptr a = some p ∧ Placed ptr size (p + size a) l

/-- the room that the blocks of a list take -/
def room (size : α → Nat) (l : List α) : Nat := (l.map size).sum

@[simp] theorem room_nil (size : α → Nat) : room size [] = 0 := rfl

@[simp] theorem room_cons (size : α → Nat) (a : α) (l : List α) :
    room size (a :: l) = size a + room size l := by
  simp [room]

@[simp] theorem room_append (size : α → Nat) (l m : List α) :
    room size (l ++ m) = room size l + room size m := by
  simp [room]

theorem room_congr (h : ∀ a ∈ l, size' a = size a) : room size' l = room size l := by
  unfold room
  rw [List.map_congr_left h]

theorem Placed.congr (h : Placed ptr size p l) (hp : ∀ a ∈ l, ptr' a = ptr a)
    (hs : ∀ a ∈ l, size' a = size a) : Placed ptr' size' p l := by
  induction l generalizing p with
  | nil => trivial
  | cons a l ih =>
    refine ⟨?_, ?_⟩
    · rw [hp a List.mem_cons_self]
      exact h.1
    · rw [hs a List.mem_cons_self]
      exact ih h.2 (fun b hb => hp b (List.mem_cons_of_mem a hb))
        fun b hb => hs b (List.mem_cons_of_mem a hb)

theorem placed_append :
    Placed ptr size p (l ++ m) ↔ Placed ptr size p l ∧ Placed ptr size (p + room size l) m := by
  induction l generalizing p with
  | nil => simp [Placed]
  | cons a l ih =>
    rw [List.cons_append, Placed, Placed, ih, room_cons, and_assoc, Nat.add_assoc]

/-- a block of the list lies within the room of the list -/
theorem Placed.within (h : Placed ptr size p l) (ha : a ∈ l) :
    ∃ q, ptr a = some q ∧ p ≤ q ∧ q + size a ≤ p + room size l := by
  induction l generalizing p with
  | nil => cases ha
  | cons b l ih =>
    rw [room_cons]
    rcases List.mem_cons.mp ha with rfl | ha
    · exact ⟨p, h.1, Nat.le_refl p, by omega⟩
    · obtain ⟨q, hq, hle, hge⟩ := ih h.2 ha
      exact ⟨q, hq, by omega, by omega⟩

/-- two blocks do not overlap -/
theorem Placed.disjoint {b : α} (h : Placed ptr size p l) (ha : a ∈ l) (hb : b ∈ l) (hab : a ≠ b) :
    ∃ q r, ptr a = some q ∧ ptr b = some r ∧ (q + size a ≤ r ∨ r + size b ≤ q) := by
  induction l generalizing p with
  | nil => cases ha
  | cons c l ih =>
    rcases List.mem_cons.mp ha with hac | ha'
    · subst hac
      have hb' := (List.mem_cons.mp hb).resolve_left (Ne.symm hab)
      obtain ⟨r, hr, hle, _⟩ := h.2.within hb'
      exact ⟨p, r, h.1, hr, Or.inl hle⟩
    · rcases List.mem_cons.mp hb with hbc | hb'
      · subst hbc
        obtain ⟨q, hq, hle, _⟩ := h.2.within ha'
        exact ⟨q, p, hq, h.1, Or.inr hle⟩
      · exact ih h.2 ha' hb'

/-- all blocks move down by the same amount -/
theorem Placed.down {d : Nat} (h : Placed ptr size (p + d) l)
    (hp : ∀ a ∈ l, ptr' a = (ptr a).map (· - d)) : Placed ptr' size p l := by
  induction l generalizing p with
  | nil => trivial
  | cons a l ih =>
    refine ⟨?_, ?_⟩
    · rw [hp a List.mem_cons_self, h.1, Option.map_some, Nat.add_sub_cancel]
    · have hl : Placed ptr size (p + size a + d) l := by
        rw [Nat.add_right_comm]
        exact h.2
      exact ih hl fun b hb => hp b (List.mem_cons_of_mem a hb)

end

/-! ## moving a block -/

section
variable {α : Type} (m : Nat → α) {dst d n q k : Nat}

/-- the `n` cells from `src` on are copied to `dst` -/
def memmove (m : Nat → α) (dst src n : Nat) : Nat → α := write m dst (read m src n)

/-- in front of the place that is written nothing changes -/
theorem read_memmove_before (src : Nat) (h : q + k ≤ dst) :
    read (memmove m dst src n) q k = read m q k :=
  read_write_disjoint m dst _ q k (Or.inl h)

/-- a block that is copied onto itself -/
theorem memmove_self (p n : Nat) : memmove m p p n = m := by
  funext i
  unfold memmove write
  by_cases hi : p ≤ i ∧ i - p < n
  · have hin : i - p < (List.range n).length := by
      rw [List.length_range]
      exact hi.2
    have hsum : p + (i - p) = i := by omega
    rw [if_pos hi.1]
    simp [read, hi.2, hsum]
  · split
    · rw [List.getD_eq_default]
      rw [length_read]
      omega
    · rfl

theorem memmove_apply_mem (src : Nat) {i : Nat} (hi : i < n) :
    memmove m dst src n (dst + i) = m (src + i) := by
  have hl : i < (read m src n).length := by rwa [length_read]
  unfold memmove
  rw [write_apply_mem _ _ _ _ hl]
  simp [read]

/-- what has moved down by `d` is read at its new place -/
theorem read_memmove_down (hq : dst ≤ q) (hk : q + k ≤ dst + n) :
    read (memmove m dst (dst + d) n) q k = read m (q + d) k := by
  unfold read
  refine List.map_congr_left fun i hi => ?_
  have hi' := List.mem_range.mp hi
  obtain ⟨r, rfl⟩ := Nat.exists_eq_add_of_le hq
  rw [Nat.add_assoc, memmove_apply_mem m _ (by omega)]
  exact congrArg m (by omega)

end

end Memory
