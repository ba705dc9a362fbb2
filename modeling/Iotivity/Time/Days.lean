import Iotivity.Time.Timestamp

/-!
# The algorithm for days

`rdn_to_ymd` counts years and days from March on; that the dates are those of the calendar is
arithmetic with the divisions of one year, of one century and of one month.

* `rdnToYmd_number`   the date of a day number is the date with that number;
* `rdn_number`        the formula of `timestamp_parse` is the number of a date.
-/

namespace Time
open Calendar

/-! ## years from March on -/

/-- the days before a year, by the year before it -/
theorem yearStart_closed (y : Nat) :
    yearStart (y + 1) + y / 100 = 365 * y + 366 + y / 4 + y / 400 := by
  unfold yearStart
  have h4 : (y + 1 + 3) / 4 = y / 4 + 1 := by omega
  have h100 : (y + 1 + 99) / 100 = y / 100 + 1 := by omega
  have h400 : (y + 1 + 399) / 400 = y / 400 + 1 := by omega
  have hle : y / 100 ≤ y := Nat.div_le_self y 100
  rw [h4, h100, h400]
  omega

/-- the year that begins in March -/
def marchYear (d : Date) : Nat := if d.month < 3 then d.year - 1 else d.year

/-- the day in it -/
def marchDay (d : Date) : Nat := dayOffset d.month + d.day

variable {d : Date}

/-- the months from March on -/
theorem dayOffset_eq {m : Nat} (h : 1 ≤ m) (hm : m ≤ 12) (l : Bool) :
    dayOffset m + 60 = if m < 3 then monthStart l m + 366 else monthStart l m + if l then 0 else 1 := by
  have hall : ∀ l : Bool, ∀ i < 12, dayOffset (i + 1) + 60 =
      if i + 1 < 3 then monthStart l (i + 1) + 366 else monthStart l (i + 1) + if l then 0 else 1 := by
    decide
  obtain ⟨k, rfl⟩ := Nat.exists_eq_add_of_le' h
  exact hall l k (by omega)

theorem number_march (h : d.Valid) (hy : d.month < 3 → 1 ≤ d.year) :
    d.number + marchYear d / 100 =
      365 * marchYear d + marchYear d / 4 + marchYear d / 400 + marchDay d + 60 := by
  have ho := dayOffset_eq h.month_pos h.month_le (leap d.year)
  unfold Date.number Date.dayOfYear marchYear marchDay
  split
  · next hm =>
    obtain ⟨y, hy⟩ := Nat.exists_eq_add_of_le' (hy hm)
    have hc := yearStart_closed y
    rw [if_pos hm] at ho
    rw [hy] at ho ⊢
    rw [Nat.add_sub_cancel]
    omega
  · next hm =>
    have hc := yearStart_closed d.year
    rw [if_neg hm] at ho
    rw [yearStart_succ] at hc
    split at ho
    · next hl =>
      rw [if_pos hl] at hc
      omega
    · next hl =>
      rw [if_neg hl] at hc
      omega

/-- the months that a day from March on can be in, and its place in it -/
theorem month_of_marchDay {m k : Nat} (h : 1 ≤ m) (hm : m ≤ 12) (h1 : 1 ≤ k)
    (hk : k ≤ Calendar.monthDays true m) :
    (535 * (dayOffset m + k) + 48950) >>> 14 = if m < 3 then m + 12 else m := by
  rw [Nat.shiftRight_eq_div_pow, show 2 ^ 14 = 16384 by decide]
  have hall : ∀ i < 12, ∀ j < Calendar.monthDays true (i + 1),
      (535 * (dayOffset (i + 1) + (j + 1)) + 48950) / 16384 = if i + 1 < 3 then i + 1 + 12 else i + 1 := by
    decide
  obtain ⟨i, rfl⟩ := Nat.exists_eq_add_of_le' h
  obtain ⟨j, rfl⟩ := Nat.exists_eq_add_of_le' h1
  exact hall i (by omega) j (by omega)

theorem monthDays_le_true (l : Bool) (m : Nat) : Calendar.monthDays l m ≤ Calendar.monthDays true m := by
  unfold Calendar.monthDays
  cases l
  · split
    · decide
    · exact le_refl _
  · exact le_refl _

/-- a year from March on has 366 days if a leap year comes behind it -/
theorem marchDay_le (h : d.Valid) (hy : d.month < 3 → 1 ≤ d.year) :
    1 ≤ marchDay d ∧ marchDay d ≤ 365 + if leap (marchYear d + 1) then 1 else 0 := by
  have hd := h.day_le
  have h1 := h.day_pos
  have hall : ∀ l : Bool, ∀ i < 12, dayOffset (i + 1) + Calendar.monthDays l (i + 1) ≤
      if i + 1 = 2 ∧ l = true then 366 else 365 := by
    decide
  obtain ⟨i, hi⟩ := Nat.exists_eq_add_of_le' h.month_pos
  have hle := h.month_le
  have hb := hall (leap d.year) i (by omega)
  rw [← hi] at hb
  unfold marchDay marchYear
  refine ⟨by omega, ?_⟩
  split at hb
  · next hl =>
    have hy1 := hy (by omega)
    rw [if_pos (show d.month < 3 by omega), show d.year - 1 + 1 = d.year by omega, hl.2, if_pos rfl]
    omega
  · exact Nat.le_trans (by omega) (Nat.le_add_right 365 _)

/-! ## the algorithm -/

/-- the century, the year and the day of the algorithm -/
theorem rataDie_march {rdn y c : Nat} (hz : rdn + 306 + y / 100 = 365 * y + y / 4 + y / 400 + c)
    (h1 : 1 ≤ c) (hc : c ≤ 365 + if leap (y + 1) then 1 else 0) : rataDie rdn = (y, c) := by
  have hleap : c = 366 → (y + 1) % 4 = 0 ∧ ((y + 1) % 100 ≠ 0 ∨ (y + 1) % 400 = 0) := by
    intro he
    refine (leap_iff (y + 1)).mp ?_
    by_contra hn
    rw [if_neg hn] at hc
    omega
  have hc366 : c ≤ 366 := by
    split at hc
    · exact hc
    · omega
  have hq : y / 100 / 4 = y / 400 := Nat.div_div_eq_div_mul y 100 4
  -- the century
  have ha : (100 * (rdn + 306) - 25) / 3652425 = y / 100 := by
    obtain ⟨a, w, hw, rfl⟩ : ∃ a w, w < 100 ∧ y = 100 * a + w :=
      ⟨y / 100, y % 100, Nat.mod_lt _ (by decide), (Nat.div_add_mod y 100).symm⟩
    have h100 : (100 * a + w) / 100 = a := by omega
    have h4 : (100 * a + w) / 4 = 25 * a + w / 4 := by omega
    have h400 : (100 * a + w) / 400 = a / 4 := by omega
    have hlast : c = 366 → w / 4 * 4 + 3 = w ∧ (w = 99 → a / 4 * 4 + 3 = a) := by
      intro he
      have := hleap he
      omega
    rw [h100, h4, h400] at hz
    rw [h100]
    refine Nat.div_eq_of_lt_le ?_ ?_
    · rcases Nat.eq_zero_or_pos w with rfl | hw0
      · omega
      · omega
    · by_cases h : c = 366
      · have := hlast h
        omega
      · omega
  have hz' : y / 100 - y / 400 + (rdn + 306) = 365 * y + y / 4 + c := by omega
  -- the year, as if every fourth were a leap year
  have hyear : (100 * (y / 100 - y / 400) + (100 * (rdn + 306) - 25)) / 36525 = y := by
    by_cases h : c = 366
    · have := hleap h
      omega
    · omega
  unfold rataDie
  simp only [Nat.shiftRight_eq_div_pow]
  rw [ha, show (2 : Nat) ^ 2 = 4 from rfl, hq, hyear]
  have hlast : 1461 * y / 4 = 365 * y + y / 4 := by omega
  rw [hz', hlast, Nat.add_sub_cancel_left]

theorem rdnToYmd_number (h : d.Valid) (hy : d.month < 3 → 1 ≤ d.year) {rdn : Nat}
    (hn : rdn + 366 = d.number) : rdnToYmd rdn = d := by
  have hm := number_march h hy
  obtain ⟨h1, hc⟩ := marchDay_le h hy
  have hr : rataDie rdn = (marchYear d, marchDay d) := rataDie_march (by omega) h1 hc
  have hmon := month_of_marchDay h.month_pos h.month_le h.day_pos
    (Nat.le_trans h.day_le (monthDays_le_true _ _))
  have hle := h.month_le
  have hyear : d.month < 3 → d.year - 1 + 1 = d.year := fun hlt => by
    have := hy hlt
    omega
  unfold rdnToYmd
  rw [hr]
  simp only [show (535 * marchDay d + 48950) >>> 14 = _ from hmon]
  unfold marchYear marchDay
  by_cases hlt : d.month < 3
  · rw [if_pos hlt, if_pos hlt, if_pos (show d.month + 12 > 12 by have := h.month_pos; omega),
      Nat.add_sub_cancel, Nat.add_sub_cancel_left, hyear hlt]
  · rw [if_neg hlt, if_neg hlt, if_neg (show ¬ d.month > 12 by omega), Nat.add_sub_cancel_left]

/-- the formula of `timestamp_parse` -/
theorem rdn_number (h : d.Valid) (hy : 1 ≤ d.year) :
    1461 * marchYear d / 4 - marchYear d / 100 + marchYear d / 400 + dayOffset d.month + d.day - 306 + 366 =
      d.number := by
  have hm := number_march h (fun _ => hy)
  have ho : 306 ≤ 365 * marchYear d + dayOffset d.month := by
    have hall : ∀ i < 12, i + 1 < 3 → 306 ≤ dayOffset (i + 1) := by decide
    obtain ⟨i, hi⟩ := Nat.exists_eq_add_of_le' h.month_pos
    have hle := h.month_le
    by_cases hlt : d.month < 3
    · have := hall i (by omega) (by omega)
      rw [← hi] at this
      omega
    · unfold marchYear
      rw [if_neg hlt]
      omega
  unfold marchDay at hm
  omega

end Time
