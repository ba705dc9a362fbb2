import Mathlib.Data.List.Basic

/-!
# Masks written as lists of names

A mask of flags is written as the names of the flags that are set, and read back by joining the flags
that the names stand for.

* `IsFlag`        a word of which a mask has all or nothing;
* `foldl_names`   what is read back is the part of the mask that has names.
-/

namespace Flags

/-- a mask has this word as a whole, or nothing of it -/
def IsFlag (f : UInt32) : Prop := ∀ m : UInt32, m &&& f = 0 ∨ m &&& f = f

/-- the bit at place `k` -/
theorem isFlag_of_twoPow {f : UInt32} (k : Nat) (h : f.toBitVec = BitVec.twoPow 32 k) : IsFlag f := by
  intro m
  have ha : (m &&& f).toBitVec = if m.toBitVec.getLsbD k then BitVec.twoPow 32 k else 0#32 := by
    rw [UInt32.toBitVec_and, h, BitVec.and_twoPow]
  split at ha
  · exact Or.inr (UInt32.toBitVec_inj.mp (ha.trans h.symm))
  · exact Or.inl (UInt32.toBitVec_inj.mp ha)

/-- the flags joined -/
def join (flags : List UInt32) : UInt32 := flags.foldr (· ||| ·) 0

theorem and_or (m a b : UInt32) : m &&& (a ||| b) = m &&& a ||| m &&& b := by
  refine UInt32.toBitVec_inj.mp ?_
  rw [UInt32.toBitVec_and, UInt32.toBitVec_or, UInt32.toBitVec_or, UInt32.toBitVec_and,
    UInt32.toBitVec_and]
  exact BitVec.and_or_distrib_left

section
variable {β : Type} (name : UInt32 → β)

/-- the names of the flags of a mask -/
def names (flags : List UInt32) (m : UInt32) : List β := (flags.filter (m &&& · ≠ 0)).map name

theorem foldl_names {value : β → UInt32} {flags : List UInt32} (hf : ∀ f ∈ flags, IsFlag f)
    (hv : ∀ f ∈ flags, value (name f) = f) (m a : UInt32) :
    (names name flags m).foldl (fun p s => p ||| value s) a = a ||| (m &&& join flags) := by
  induction flags generalizing a with
  | nil =>
    show a = a ||| (m &&& 0)
    rw [UInt32.and_zero, UInt32.or_zero]
  | cons f flags ih =>
    have ih := fun a => ih (fun g hg => hf g (List.mem_cons_of_mem _ hg))
      (fun g hg => hv g (List.mem_cons_of_mem _ hg)) a
    have hj : m &&& join (f :: flags) = m &&& f ||| m &&& join flags := and_or m f (join flags)
    unfold names at ih ⊢
    rw [hj, ← UInt32.or_assoc]
    rcases hf f List.mem_cons_self m with h | h
    · rw [List.filter_cons_of_neg (by simp [h]), ih, h, UInt32.or_zero]
    · by_cases h0 : f = 0
      · subst h0
        rw [List.filter_cons_of_neg (by simp), ih, UInt32.and_zero, UInt32.or_zero]
      · rw [List.filter_cons_of_pos (by simpa [h] using h0), List.map_cons, List.foldl_cons, ih,
          hv f List.mem_cons_self, h]

/-- nothing is written for a mask without any of the flags -/
theorem names_eq_nil_iff (flags : List UInt32) (m : UInt32) :
    names name flags m = [] ↔ ∀ f ∈ flags, m &&& f = 0 := by
  unfold names
  rw [List.map_eq_nil_iff, List.filter_eq_nil_iff]
  exact forall₂_congr fun f _ => by simp

theorem and_join_eq_zero {flags : List UInt32} {m : UInt32} (h : ∀ f ∈ flags, m &&& f = 0) :
    m &&& join flags = 0 := by
  induction flags with
  | nil => exact UInt32.and_zero
  | cons f flags ih =>
    have hj : m &&& join (f :: flags) = m &&& f ||| m &&& join flags := and_or m f (join flags)
    rw [hj, h f List.mem_cons_self, ih fun g hg => h g (List.mem_cons_of_mem _ hg)]
    rfl

end

end Flags
