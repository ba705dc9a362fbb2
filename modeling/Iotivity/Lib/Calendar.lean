import Mathlib.Data.List.Range
import Mathlib.Logic.Function.Iterate

/-!
# Days and dates

The Gregorian calendar, from its year 0 on: a date, the date of the next day, and the number of a day.

* `number_next`    the next day has the next number;
* `number_lt_iff`  days are in the order of year, month and day;
* `exists_date`    every number from 1 on is that of a date, which so many steps reach.
-/

namespace Calendar

structure Date where
  year : Nat
  month : Nat
  day : Nat
deriving DecidableEq

def leap (y : Nat) : Bool := y % 4 = 0 ∧ (y % 100 ≠ 0 ∨ y % 400 = 0)

def monthDays (leap : Bool) (m : Nat) : Nat :=
  if m = 2 then if leap then 29 else 28
  else if m = 4 ∨ m = 6 ∨ m = 9 ∨ m = 11 then 30
  else 31

/-- the days of a year before a month -/
def monthStart (leap : Bool) (m : Nat) : Nat :=
  (List.range (m - 1)).foldl (fun n i => n + monthDays leap (i + 1)) 0

/-- the days before a year -/
def yearStart (y : Nat) : Nat := 365 * y + (y + 3) / 4 - (y + 99) / 100 + (y + 399) / 400

namespace Date

structure Valid (d : Date) : Prop where
  month_pos : 1 ≤ d.month
  month_le : d.month ≤ 12
  day_pos : 1 ≤ d.day
  day_le : d.day ≤ monthDays (leap d.year) d.month

/-- the date of the next day -/
def next (d : Date) : Date :=
  if d.day < monthDays (leap d.year) d.month then { d with day := d.day + 1 }
  else if d.month < 12 then ⟨d.year, d.month + 1, 1⟩
  else ⟨d.year + 1, 1, 1⟩

/-- the day in its year -/
def dayOfYear (d : Date) : Nat := monthStart (leap d.year) d.month + d.day

/-- the number of the day; the first day of the year 0 has the number 1 -/
def number (d : Date) : Nat := yearStart d.year + d.dayOfYear

end Date

/-! ## months -/

theorem leap_iff (y : Nat) : leap y = true ↔ y % 4 = 0 ∧ (y % 100 ≠ 0 ∨ y % 400 = 0) :=
  decide_eq_true_iff

theorem monthDays_pos (l : Bool) (m : Nat) : 28 ≤ monthDays l m ∧ monthDays l m ≤ 31 := by
  unfold monthDays
  split
  · split <;> decide
  · split <;> decide

theorem monthStart_succ (l : Bool) {m : Nat} (h : 1 ≤ m) :
    monthStart l (m + 1) = monthStart l m + monthDays l m := by
  obtain ⟨k, rfl⟩ := Nat.exists_eq_add_of_le' h
  show (List.range (k + 1)).foldl _ 0 = _
  rw [List.range_succ, List.foldl_append]
  rfl

theorem monthStart_le (l : Bool) {m m' : Nat} (h : 1 ≤ m) (hm : m ≤ m') :
    monthStart l m ≤ monthStart l m' := by
  induction m', hm using Nat.le_induction with
  | base => exact le_refl _
  | succ k hk ih =>
    rw [monthStart_succ l (by omega)]
    omega

/-- the days of a year before a month, in a table -/
theorem monthStart_eq (l : Bool) {m : Nat} (h : 1 ≤ m) (hm : m ≤ 13) :
    monthStart l m =
      [0, 31, 59, 90, 120, 151, 181, 212, 243, 273, 304, 334, 365].getD (m - 1) 0 +
        if 2 < m ∧ l = true then 1 else 0 := by
  have hall : ∀ l : Bool, ∀ i < 13, monthStart l (i + 1) =
      [0, 31, 59, 90, 120, 151, 181, 212, 243, 273, 304, 334, 365].getD i 0 +
        if 2 < i + 1 ∧ l = true then 1 else 0 := by
    decide
  obtain ⟨k, rfl⟩ := Nat.exists_eq_add_of_le' h
  exact hall l k (by omega)

/-! ## years -/

theorem yearStart_succ (y : Nat) :
    yearStart (y + 1) = yearStart y + if leap y then 366 else 365 := by
  have h4 : (y + 1 + 3) / 4 = (y + 3) / 4 + if y % 4 = 0 then 1 else 0 := by
    split <;> omega
  have h100 : (y + 1 + 99) / 100 = (y + 99) / 100 + if y % 100 = 0 then 1 else 0 := by
    split <;> omega
  have h400 : (y + 1 + 399) / 400 = (y + 399) / 400 + if y % 400 = 0 then 1 else 0 := by
    split <;> omega
  have hle : (y + 99) / 100 ≤ y := by omega
  have hleap : (if leap y then 366 else 365) + (if y % 100 = 0 then 1 else 0) =
      365 + (if y % 4 = 0 then 1 else 0) + if y % 400 = 0 then 1 else 0 := by
    have h1 : y % 400 = 0 → y % 100 = 0 := by omega
    have h2 : y % 100 = 0 → y % 4 = 0 := by omega
    simp only [leap_iff]
    by_cases h4 : y % 4 = 0 <;> by_cases h100 : y % 100 = 0 <;> by_cases h400 : y % 400 = 0 <;>
      simp_all
  unfold yearStart
  rw [h4, h100, h400]
  omega

theorem yearStart_le {y y' : Nat} (h : y ≤ y') : yearStart y ≤ yearStart y' := by
  induction y', h using Nat.le_induction with
  | base => exact le_refl _
  | succ k _ ih =>
    rw [yearStart_succ]
    exact Nat.le_add_right_of_le ih

namespace Date

variable {d d' : Date}

theorem Valid.dayOfYear_pos (h : d.Valid) : 1 ≤ d.dayOfYear := by
  have := h.day_pos
  unfold dayOfYear
  omega

theorem Valid.dayOfYear_le (h : d.Valid) : d.dayOfYear ≤ monthStart (leap d.year) (d.month + 1) := by
  have := h.day_le
  unfold dayOfYear
  rw [monthStart_succ _ h.month_pos]
  omega

theorem Valid.dayOfYear_le_year (h : d.Valid) : d.dayOfYear ≤ if leap d.year then 366 else 365 := by
  have h1 := h.dayOfYear_le
  have h2 := monthStart_le (leap d.year) (show 1 ≤ d.month + 1 by omega)
    (show d.month + 1 ≤ 13 by have := h.month_le; omega)
  have h3 : monthStart (leap d.year) 13 = if leap d.year then 366 else 365 := by
    cases leap d.year <;> decide
  omega

theorem next_valid (h : d.Valid) : d.next.Valid := by
  have hpos : ∀ l m, 1 ≤ monthDays l m := fun l m =>
    Nat.le_trans (by decide) (monthDays_pos l m).1
  unfold next
  split
  · next hd => exact ⟨h.month_pos, h.month_le, Nat.le_add_left 1 _, hd⟩
  · split
    · next hm => exact ⟨Nat.le_add_left 1 _, hm, le_refl 1, hpos _ _⟩
    · exact ⟨le_refl 1, show 1 ≤ 12 by decide, le_refl 1, hpos _ _⟩

theorem number_next (h : d.Valid) : d.next.number = d.number + 1 := by
  have hd := h.day_le
  have hm := h.month_le
  unfold next
  split
  · rfl
  · next hlt =>
    split
    · show yearStart d.year + (monthStart (leap d.year) (d.month + 1) + 1) = yearStart d.year + (_ + d.day) + 1
      rw [monthStart_succ _ h.month_pos]
      omega
    · next hlt' =>
      have he : d.month = 12 := by omega
      show yearStart (d.year + 1) + (0 + 1) = yearStart d.year + (monthStart (leap d.year) d.month + d.day) + 1
      have hs := monthStart_succ (leap d.year) h.month_pos
      have h13 : monthStart (leap d.year) (d.month + 1) = if leap d.year then 366 else 365 := by
        rw [he]
        cases leap d.year <;> decide
      rw [yearStart_succ, ← h13, hs]
      omega

/-- a day in an earlier month of the year -/
theorem Valid.dayOfYear_lt (h : d.Valid) (h' : d'.Valid) (hy : d.year = d'.year)
    (hm : d.month < d'.month) : d.dayOfYear < d'.dayOfYear := by
  have h1 := h.dayOfYear_le
  have h2 := monthStart_le (leap d.year) (show 1 ≤ d.month + 1 by omega) hm
  have h3 : monthStart (leap d.year) d'.month < d'.dayOfYear := by
    have := h'.day_pos
    rw [hy]
    unfold dayOfYear
    omega
  omega

theorem number_lt (h : d.Valid) (h' : d'.Valid) (hl : d.year < d'.year ∨
    d.year = d'.year ∧ (d.month < d'.month ∨ d.month = d'.month ∧ d.day < d'.day)) :
    d.number < d'.number := by
  unfold number
  rcases hl with hy | ⟨hy, hm | ⟨hm, hd⟩⟩
  · have h1 := h.dayOfYear_le_year
    have h2 := h'.dayOfYear_pos
    have h3 := yearStart_le (show d.year + 1 ≤ d'.year from hy)
    rw [yearStart_succ] at h3
    omega
  · have := h.dayOfYear_lt h' hy hm
    rw [hy]
    omega
  · have he : d.dayOfYear < d'.dayOfYear := by
      unfold dayOfYear
      rw [hy, hm]
      omega
    rw [hy]
    omega

theorem number_inj (h : d.Valid) (h' : d'.Valid) (he : d.number = d'.number) : d = d' := by
  rcases Nat.lt_trichotomy d.year d'.year with hy | hy | hy
  · exact absurd he (Nat.ne_of_lt (number_lt h h' (Or.inl hy)))
  · rcases Nat.lt_trichotomy d.month d'.month with hm | hm | hm
    · exact absurd he (Nat.ne_of_lt (number_lt h h' (Or.inr ⟨hy, Or.inl hm⟩)))
    · have hd : d.day = d'.day := by
        unfold number dayOfYear at he
        rw [hy, hm] at he
        omega
      obtain ⟨y, m, k⟩ := d
      obtain ⟨y', m', k'⟩ := d'
      cases hy
      cases hm
      cases hd
      rfl
    · exact absurd he.symm (Nat.ne_of_lt (number_lt h' h (Or.inr ⟨hy.symm, Or.inl hm⟩)))
  · exact absurd he.symm (Nat.ne_of_lt (number_lt h' h (Or.inl hy)))

theorem number_lt_iff (h : d.Valid) (h' : d'.Valid) : d.number < d'.number ↔ d.year < d'.year ∨
    d.year = d'.year ∧ (d.month < d'.month ∨ d.month = d'.month ∧ d.day < d'.day) := by
  refine ⟨fun hlt => ?_, number_lt h h'⟩
  by_contra hc
  rcases Nat.lt_or_ge d'.number d.number with hgt | hge
  · omega
  · have hne : d ≠ d' := fun he => Nat.lt_irrefl _ (he ▸ hlt)
    have hback : d'.year < d.year ∨
        d'.year = d.year ∧ (d'.month < d.month ∨ d'.month = d.month ∧ d'.day < d.day) := by
      by_contra hb
      refine hne ?_
      obtain ⟨y, m, k⟩ := d
      obtain ⟨y', m', k'⟩ := d'
      dsimp only at hc hb
      rw [mk.injEq]
      omega
    have := number_lt h' h hback
    omega

end Date

/-! ## every day -/

/-- the first day of the year 0 -/
def first : Date := ⟨0, 1, 1⟩

theorem iterate_next (n : Nat) : (Date.next^[n] first).Valid ∧ (Date.next^[n] first).number = n + 1 := by
  induction n with
  | zero => exact ⟨⟨by decide, by decide, by decide, by decide⟩, by decide⟩
  | succ n ih =>
    rw [Function.iterate_succ_apply']
    exact ⟨Date.next_valid ih.1, by rw [Date.number_next ih.1, ih.2]⟩

theorem exists_date {n : Nat} (h : 1 ≤ n) : ∃ d : Date, d.Valid ∧ d.number = n ∧ d = Date.next^[n - 1] first :=
  ⟨_, (iterate_next (n - 1)).1, by rw [(iterate_next (n - 1)).2]; omega, rfl⟩

end Calendar
