import Mathlib.Data.List.Basic

/-!
# Writing into a buffer at an index that counts up

`put` is `buffer[j++] = a` in a language where both a write outside the buffer and an index at its
limit are undefined.

* `foldlM_put`          values that fit: they stand in the buffer, and the rest is as it was;
* `of_foldlM_put`       values that were written did fit.
-/

namespace Output

variable {α : Type} {limit : Nat}

/-- a buffer, and the index of the next cell -/
abbrev Out (α : Type) : Type := List α × Nat

/-- `none`: undefined -/
def put (limit : Nat) (out : Out α) (a : α) : Option (Out α) :=
  if out.2 < out.1.length ∧ out.2 + 1 < limit then some (out.1.set out.2 a, out.2 + 1) else none

theorem put_eq_some {out out' : Out α} {a : α} (h : put limit out a = some out') :
    out' = (out.1.set out.2 a, out.2 + 1) ∧ out.2 < out.1.length ∧ out.2 + 1 < limit := by
  unfold put at h
  split at h
  · rename_i hput
    exact ⟨(Option.some.inj h).symm, hput⟩
  · cases h

/-- the cells from a later index on are not written to -/
theorem put_drop {out out' : Out α} {a : α} (h : put limit out a = some out') {i : Nat} (hi : out.2 ≤ i) :
    out'.1.drop (i + 1) = out.1.drop (i + 1) := by
  obtain ⟨rfl, -, -⟩ := put_eq_some h
  exact List.drop_set_of_lt (Nat.lt_succ_of_le hi)

/-- values that fit -/
theorem foldlM_put (l : List α) (out : Out α) (hl : out.2 + l.length ≤ out.1.length)
    (hlimit : out.2 + l.length < limit) :
    l.foldlM (put limit) out =
      some (out.1.take out.2 ++ (l ++ out.1.drop (out.2 + l.length)), out.2 + l.length) := by
  induction l generalizing out with
  | nil => simp
  | cons a l ih =>
    obtain ⟨buffer, j⟩ := out
    simp only [List.length_cons] at hl hlimit
    have hj : j < buffer.length := by omega
    have hput : put limit (buffer, j) a = some (buffer.set j a, j + 1) := if_pos ⟨hj, by dsimp only; omega⟩
    have hset : (buffer.set j a).take (j + 1) = buffer.take j ++ [a] := by
      rw [List.take_succ_eq_append_getElem (by rwa [List.length_set]), List.getElem_set_self, List.take_set,
        List.set_eq_of_length_le (List.length_take_le _ _)]
    have hindex : j + 1 + l.length = j + (l.length + 1) := by omega
    have hrest := ih (buffer.set j a, j + 1) (by simp only [List.length_set]; omega) (by dsimp only; omega)
    dsimp only at hrest
    rw [hset, hindex, List.drop_set_of_lt (by omega), List.append_assoc] at hrest
    rw [List.foldlM_cons, hput]
    exact hrest

/-- values that were written: the index says how many, and is below its limit -/
theorem of_foldlM_put {l : List α} {out out' : Out α} (h : l.foldlM (put limit) out = some out')
    (hout : out.2 < limit) : out'.2 = out.2 + l.length ∧ out'.2 < limit := by
  induction l generalizing out with
  | nil =>
    obtain rfl := Option.some.inj h
    exact ⟨rfl, hout⟩
  | cons a l ih =>
    rw [List.foldlM_cons] at h
    obtain ⟨out₁, hput, h⟩ := Option.bind_eq_some_iff.mp h
    obtain ⟨rfl, -, hlimit⟩ := put_eq_some hput
    obtain ⟨hlen, hlt⟩ := ih h hlimit
    refine ⟨?_, hlt⟩
    rw [hlen, List.length_cons]
    dsimp only
    omega

end Output
