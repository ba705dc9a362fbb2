import Mathlib.Data.List.TakeWhile
import Mathlib.Data.Nat.Digits.Lemmas

/-!
# Numerals in texts

Texts are bytes in ASCII.  `decimal` prints as `%u` does, `strtoul` reads as the function of that name
does to the base 10 and tells how many characters it has taken; a number of 64 bits or more becomes
the largest one.

* `value_decimal`         the digits of a number have its value;
* `strtoul_decimal`       a printed number is read back, whatever follows that is no digit;
* `lookedAt_le`           reading does not go behind a NUL.
-/

namespace Numeral

def isSpace (c : UInt8) : Bool := c = 32 ∨ (9 ≤ c ∧ c ≤ 13)

def isDigit (c : UInt8) : Bool := 48 ≤ c ∧ c ≤ 57

def isSign (c : UInt8) : Bool := c = 43 ∨ c = 45

/-- the number that digits stand for -/
def value (ds : List UInt8) : Nat := ds.foldl (fun n c => 10 * n + (c.toNat - 48)) 0

def digit (d : Nat) : UInt8 := UInt8.ofNat (48 + d)

/-- `%u` -/
def decimal (n : Nat) : List UInt8 :=
  if n = 0 then [48] else ((Nat.digits 10 n).map digit).reverse

/-- the characters of a number at the beginning of a text: blanks, a sign and digits -/
def blanks (s : List UInt8) : Nat := (s.takeWhile isSpace).length

def sign (s : List UInt8) : Nat := if (s.drop (blanks s)).head?.any isSign then 1 else 0

def digits (s : List UInt8) : List UInt8 := (s.drop (blanks s + sign s)).takeWhile isDigit

/-- `strtoul(s, &end, 10)`: the number, and how many characters are in front of `end` -/
def strtoul (s : List UInt8) : Nat × Nat :=
  if digits s = [] then (0, 0)
  else
    (if 2 ^ 64 ≤ value (digits s) then 2 ^ 64 - 1
      else if (s.drop (blanks s)).head? = some 45 then (2 ^ 64 - value (digits s)) % 2 ^ 64
      else value (digits s),
      blanks s + sign s + (digits s).length)

/-- how many characters `strtoul` looks at -/
def lookedAt (s : List UInt8) : Nat := blanks s + sign s + (digits s).length + 1

/-! ## printed numbers -/

theorem digit_toNat {d : Nat} (h : d < 10) : (digit d).toNat = 48 + d := by
  rw [digit, UInt8.toNat_ofNat_of_lt']
  exact Nat.lt_of_lt_of_le (Nat.add_lt_add_left h 48) (by decide)

theorem isDigit_iff {c : UInt8} : isDigit c = true ↔ 48 ≤ c.toNat ∧ c.toNat ≤ 57 := by
  unfold isDigit
  rw [decide_eq_true_iff, UInt8.le_iff_toNat_le, UInt8.le_iff_toNat_le]
  rfl

theorem isDigit_digit {d : Nat} (h : d < 10) : isDigit (digit d) = true := by
  rw [isDigit_iff, digit_toNat h]
  omega

theorem value_decimal (n : Nat) : value (decimal n) = n := by
  unfold decimal
  split
  · next h =>
    rw [h]
    rfl
  · have hd : ∀ d ∈ Nat.digits 10 n, d < 10 := fun d hd => Nat.digits_lt_base (by decide) hd
    have hf : (Nat.digits 10 n).foldr (fun d n => 10 * n + ((digit d).toNat - 48)) 0 =
        (Nat.digits 10 n).foldr (fun d n => d + 10 * n) 0 := by
      refine List.foldr_ext _ _ _ fun d h m => ?_
      rw [digit_toNat (hd d h)]
      omega
    rw [value, List.foldl_reverse, List.foldr_map, hf]
    have ho := Nat.ofDigits_digits 10 n
    rw [Nat.ofDigits_eq_foldr] at ho
    exact ho

theorem decimal_digits (n : Nat) : ∀ c ∈ decimal n, isDigit c = true := by
  unfold decimal
  split
  · simp [isDigit]
  · intro c hc
    obtain ⟨d, hd, rfl⟩ := List.mem_map.mp (List.mem_reverse.mp hc)
    exact isDigit_digit (Nat.digits_lt_base (by decide) hd)

theorem decimal_ne_nil (n : Nat) : decimal n ≠ [] := by
  unfold decimal
  split
  · exact List.cons_ne_nil _ _
  · next h =>
    rw [Ne, List.reverse_eq_nil_iff, List.map_eq_nil_iff]
    exact Nat.digits_ne_nil_iff_ne_zero.mpr h

/-! ## reading -/

theorem isDigit_not_space {c : UInt8} (h : isDigit c = true) : isSpace c = false := by
  have hd := isDigit_iff.mp h
  unfold isSpace
  rw [decide_eq_false_iff_not, UInt8.le_iff_toNat_le, UInt8.le_iff_toNat_le, ← UInt8.toNat_inj]
  show ¬ (c.toNat = 32 ∨ 9 ≤ c.toNat ∧ c.toNat ≤ 13)
  omega

theorem isDigit_not_sign {c : UInt8} (h : isDigit c = true) : isSign c = false := by
  have hd := isDigit_iff.mp h
  unfold isSign
  rw [decide_eq_false_iff_not, ← UInt8.toNat_inj, ← UInt8.toNat_inj]
  show ¬ (c.toNat = 43 ∨ c.toNat = 45)
  omega

section
variable {ds rest : List UInt8} (hd : ∀ c ∈ ds, isDigit c = true) (hn : ds ≠ [])
  (hr : ∀ c, rest.head? = some c → isDigit c = false)
include hd hn

theorem blanks_digits : blanks (ds ++ rest) = 0 := by
  obtain ⟨c, t, rfl⟩ := List.exists_cons_of_ne_nil hn
  rw [blanks, List.cons_append,
    List.takeWhile_cons_of_neg (by rw [isDigit_not_space (hd c List.mem_cons_self)]; exact Bool.false_ne_true)]
  rfl

theorem sign_digits : sign (ds ++ rest) = 0 := by
  obtain ⟨c, t, rfl⟩ := List.exists_cons_of_ne_nil hn
  rw [sign, blanks_digits hd hn, List.drop_zero, List.cons_append, List.head?_cons, Option.any_some,
    isDigit_not_sign (hd c List.mem_cons_self), if_neg Bool.false_ne_true]

include hr

theorem digits_digits : digits (ds ++ rest) = ds := by
  rw [digits, blanks_digits hd hn, sign_digits hd hn, List.drop_zero, List.takeWhile_append_of_pos hd]
  cases rest with
  | nil => rw [List.takeWhile_nil, List.append_nil]
  | cons c t =>
    rw [List.takeWhile_cons_of_neg (by rw [hr c rfl]; exact Bool.false_ne_true), List.append_nil]

theorem strtoul_digits (hv : value ds < 2 ^ 64) : strtoul (ds ++ rest) = (value ds, ds.length) := by
  obtain ⟨c, t, he⟩ := List.exists_cons_of_ne_nil hn
  have hh : ¬ ((ds ++ rest).drop 0).head? = some 45 := by
    rw [he, List.drop_zero, List.cons_append, List.head?_cons]
    intro hc
    have hs := isDigit_not_sign (hd c (he ▸ List.mem_cons_self))
    rw [Option.some.inj hc] at hs
    cases hs
  unfold strtoul
  rw [digits_digits hd hn hr, blanks_digits hd hn, sign_digits hd hn, if_neg hn, if_neg hh,
    if_neg (Nat.not_le_of_lt hv)]
  simp

end

/-- a printed number of at most 64 bits is read back -/
theorem strtoul_decimal {n : Nat} (h : n < 2 ^ 64) {rest : List UInt8}
    (hr : ∀ c, rest.head? = some c → isDigit c = false) :
    strtoul (decimal n ++ rest) = (n, (decimal n).length) := by
  rw [strtoul_digits (decimal_digits n) (decimal_ne_nil n) hr (by rw [value_decimal]; exact h),
    value_decimal]

theorem mem_dropWhile {p : UInt8 → Bool} {c : UInt8} {s : List UInt8} (hp : p c = false) (h : c ∈ s) :
    c ∈ s.dropWhile p := by
  rw [← List.takeWhile_append_dropWhile (p := p) (l := s)] at h
  rcases List.mem_append.mp h with hm | hm
  · rw [List.mem_takeWhile_imp hm] at hp
    cases hp
  · exact hm

theorem drop_takeWhile (p : UInt8 → Bool) (s : List UInt8) :
    s.drop (s.takeWhile p).length = s.dropWhile p := by
  conv => lhs; arg 2; rw [← List.takeWhile_append_dropWhile (p := p) (l := s)]
  rw [List.drop_left]

/-- a NUL ends a number -/
theorem lookedAt_le {s : List UInt8} (h : 0 ∈ s) : lookedAt s ≤ s.length := by
  have hb : 0 ∈ s.drop (blanks s) := by
    rw [blanks, drop_takeWhile]
    exact mem_dropWhile rfl h
  have hs : 0 ∈ s.drop (blanks s + sign s) := by
    rw [← List.drop_drop]
    unfold sign
    split
    · next hc =>
      cases hd : s.drop (blanks s) with
      | nil => rw [hd] at hb; cases hb
      | cons c t =>
        rw [hd] at hb hc
        rcases List.mem_cons.mp hb with rfl | hm
        · cases hc
        · exact hm
    · exact hb
  have hd : (digits s).length < (s.drop (blanks s + sign s)).length := by
    have hm := mem_dropWhile (p := isDigit) rfl hs
    have hl := congrArg List.length (List.takeWhile_append_dropWhile (p := isDigit) (l := s.drop (blanks s + sign s)))
    rw [List.length_append] at hl
    have hpos := List.length_pos_of_mem hm
    unfold digits
    omega
  rw [List.length_drop] at hd
  unfold lookedAt
  omega

end Numeral
