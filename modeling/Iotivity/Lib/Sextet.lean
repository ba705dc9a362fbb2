import Mathlib.Algebra.Group.Nat.Defs
import Mathlib.Data.List.Basic

/-!
# Three bytes as four sextets

`split` cuts bytes into groups of six bits, `join` puts such groups together again.  What is left over at
the end: `split` fills the last group up with zeros, and `join` drops bits that do not make a byte.

* `join_split`       cutting loses nothing;
* `split_join`       joining loses `spare`.
-/

namespace Sextet

def split : List Nat → List Nat
  | a :: b :: c :: l => a / 4 :: (a % 4 * 16 + b / 16) :: (b % 16 * 4 + c / 64) :: c % 64 :: split l
  | [a, b] => [a / 4, a % 4 * 16 + b / 16, b % 16 * 4]
  | [a] => [a / 4, a % 4 * 16]
  | [] => []

def join : List Nat → List Nat
  | p :: q :: r :: t :: l => (p * 4 + q / 16) :: (q % 16 * 16 + r / 4) :: (r % 4 * 64 + t) :: join l
  | [p, q, r] => [p * 4 + q / 16, q % 16 * 16 + r / 4]
  | [p, q] => [p * 4 + q / 16]
  | [_] => []
  | [] => []

/-- the bits that `join` drops -/
def spare : List Nat → Nat
  | _ :: _ :: _ :: _ :: l => spare l
  | [_, _, r] => r % 4
  | [_, q] => q % 16
  | [p] => p
  | [] => 0

theorem length_split (l : List Nat) : (split l).length = (4 * l.length + 2) / 3 := by
  induction l using split.induct with
  | case1 a b c l ih =>
    unfold split
    simp only [List.length_cons, ih]
    omega
  | case2 a b => simp [split]
  | case3 a => simp [split]
  | case4 => rfl

theorem length_join (l : List Nat) : (join l).length = 3 * l.length / 4 := by
  induction l using join.induct with
  | case1 p q r t l ih =>
    unfold join
    simp only [List.length_cons, ih]
    omega
  | case2 p q r => simp [join]
  | case3 p q => simp [join]
  | case4 p => simp [join]
  | case5 => rfl

theorem split_lt {l : List Nat} (h : ∀ a ∈ l, a < 256) : ∀ v ∈ split l, v < 64 := by
  induction l using split.induct with
  | case1 a b c l ih =>
    simp only [List.forall_mem_cons] at h
    obtain ⟨ha, hb, hc, hl⟩ := h
    simp only [split, List.forall_mem_cons]
    exact ⟨by omega, by omega, by omega, by omega, ih hl⟩
  | case2 a b =>
    simp only [List.forall_mem_cons] at h
    simp only [split, List.forall_mem_cons]
    exact ⟨by omega, by omega, by omega, fun _ hx => nomatch hx⟩
  | case3 a =>
    simp only [List.forall_mem_cons] at h
    simp only [split, List.forall_mem_cons]
    exact ⟨by omega, by omega, fun _ hx => nomatch hx⟩
  | case4 => exact fun _ hx => nomatch hx

theorem join_lt {l : List Nat} (h : ∀ v ∈ l, v < 64) : ∀ a ∈ join l, a < 256 := by
  induction l using join.induct with
  | case1 p q r t l ih =>
    simp only [List.forall_mem_cons] at h
    obtain ⟨hp, hq, hr, ht, hl⟩ := h
    simp only [join, List.forall_mem_cons]
    exact ⟨by omega, by omega, by omega, ih hl⟩
  | case2 p q r =>
    simp only [List.forall_mem_cons] at h
    simp only [join, List.forall_mem_cons]
    exact ⟨by omega, by omega, fun _ hx => nomatch hx⟩
  | case3 p q =>
    simp only [List.forall_mem_cons] at h
    simp only [join, List.forall_mem_cons]
    exact ⟨by omega, fun _ hx => nomatch hx⟩
  | case4 p => exact fun _ hx => nomatch hx
  | case5 => exact fun _ hx => nomatch hx

/-- cutting loses nothing -/
theorem join_split {l : List Nat} (h : ∀ a ∈ l, a < 256) : join (split l) = l := by
  induction l using split.induct with
  | case1 a b c l ih =>
    simp only [List.forall_mem_cons] at h
    obtain ⟨ha, hb, hc, hl⟩ := h
    simp only [split, join, ih hl, List.cons.injEq, and_true]
    omega
  | case2 a b =>
    simp only [List.forall_mem_cons] at h
    simp only [split, join, List.cons.injEq, and_true]
    omega
  | case3 a =>
    simp only [List.forall_mem_cons] at h
    simp only [split, join, List.cons.injEq, and_true]
    omega
  | case4 => rfl

/-- joining loses the spare bits, and nothing else -/
theorem split_join {l : List Nat} (h : ∀ v ∈ l, v < 64) (hl : l.length % 4 ≠ 1) :
    split (join l) = l ↔ spare l = 0 := by
  induction l using join.induct with
  | case1 p q r t l ih =>
    simp only [List.forall_mem_cons] at h
    obtain ⟨hp, hq, hr, ht, h⟩ := h
    simp only [List.length_cons] at hl
    rw [spare, ← ih h (by omega)]
    simp only [join, split, List.cons.injEq]
    constructor
    · exact fun ⟨_, _, _, _, hs⟩ => hs
    · exact fun hs => ⟨by omega, by omega, by omega, by omega, hs⟩
  | case2 p q r =>
    simp only [List.forall_mem_cons] at h
    simp only [join, split, spare, List.cons.injEq, and_true]
    omega
  | case3 p q =>
    simp only [List.forall_mem_cons] at h
    simp only [join, split, spare, List.cons.injEq, and_true]
    omega
  | case4 p => exact absurd rfl hl
  | case5 => exact iff_of_true rfl rfl

/-- the spare bits are the low bits of the last group -/
theorem spare_eq {l : List Nat} (h : l.length % 4 ≠ 1) (d : Nat) :
    spare l = l.getLastD d % 4 ^ ((4 - l.length % 4) % 4) := by
  induction l using spare.induct generalizing d with
  | case1 p q r t l ih =>
    have hmod : (p :: q :: r :: t :: l).length % 4 = l.length % 4 := by
      simp only [List.length_cons]
      omega
    rw [hmod] at h ⊢
    rw [spare, ih h t]
    simp only [List.getLastD_cons]
  | case2 p q r => rfl
  | case3 p q => rfl
  | case4 p => exact absurd rfl h
  | case5 => exact (Nat.mod_one d).symm

end Sextet
