import Iotivity.Time.Texts

/-!
# Time stamps that are written and read back

* `Stamped`          what `timestamp_format` writes is the text of a stamp in range;
* `parse_of_format`     and `timestamp_parse` reads the time stamp from it again;
* `parse_precision`  with fewer digits, up to the nanoseconds that are cut off;
* `tm_date`          `timestamp_to_tm` gives the same date and time.
-/

namespace Time
open Calendar

/-! ## the parts of a text -/

theorem clockDigits_eq {v base : Nat} (h : v / 10 < base) : clockDigits v base = twoDigits v := by
  unfold clockDigits twoDigits lastDigit
  rw [Nat.mod_eq_of_lt h]

/-- minutes and seconds -/
theorem clockDigits_mod (v : Nat) : clockDigits v 6 = twoDigits (v % 60) := by
  unfold clockDigits twoDigits lastDigit
  rw [show v % 60 / 10 = v / 10 % 6 by omega, show v % 60 % 10 = v % 10 by omega]

theorem dateText_eq {d : Date} (hy : d.year ≤ 9999) (hm : d.month ≤ 12) (hd : d.day ≤ 31) :
    dateText d = fourDigits d.year ++ [45] ++ twoDigits d.month ++ [45] ++ twoDigits d.day := by
  unfold dateText fourDigits twoDigits lastDigit
  rw [show d.year / 10 / 10 / 10 % 10 = d.year / 100 / 10 by omega,
    show d.year / 10 / 10 % 10 = d.year / 100 % 10 by omega,
    show d.year / 10 % 10 = d.year % 100 / 10 by omega, show d.year % 10 = d.year % 100 % 10 by omega,
    show d.month / 10 % 10 = d.month / 10 by omega, show d.day / 10 % 10 = d.day / 10 by omega]
  rfl

theorem timeText_eq {v : Nat} (h : v < 86400) : timeText v =
    twoDigits (v / 3600) ++ [58] ++ twoDigits (v / 60 % 60) ++ [58] ++ twoDigits (v % 60) := by
  unfold timeText
  rw [clockDigits_eq (by omega), clockDigits_mod, clockDigits_mod,
    show v / 10 / 6 / 10 / 6 = v / 3600 by omega, show v / 10 / 6 = v / 60 by omega]

theorem fractionDigits_length (k v : Nat) : (fractionDigits k v).length = k := by
  induction k generalizing v with
  | zero => rfl
  | succ k ih => rw [fractionDigits, List.length_append, ih]; rfl

theorem fractionDigits_digits (k v : Nat) : ∀ c ∈ fractionDigits k v, Numeral.isDigit c = true := by
  induction k generalizing v with
  | zero => exact fun c h => absurd h List.not_mem_nil
  | succ k ih =>
    intro c h
    rcases List.mem_append.mp h with h | h
    · exact ih _ c h
    · rw [List.mem_singleton.mp h]
      exact Numeral.isDigit_digit (Nat.mod_lt _ (by decide))

theorem value_fractionDigits (k v : Nat) : Numeral.value (fractionDigits k v) = v % 10 ^ k := by
  induction k generalizing v with
  | zero => rw [Nat.pow_zero, Nat.mod_one]; rfl
  | succ k ih =>
    have hd : v % 10 < 10 := Nat.mod_lt _ (by decide)
    have h : Numeral.value (fractionDigits k (v / 10) ++ [lastDigit v]) =
        10 * Numeral.value (fractionDigits k (v / 10)) + ((lastDigit v).toNat - 48) := by
      unfold Numeral.value
      rw [List.foldl_append]
      rfl
    rw [fractionDigits, h, ih, lastDigit, Numeral.digit_toNat hd, Nat.add_sub_cancel_left, Nat.pow_succ,
      Nat.mul_comm (10 ^ k) 10, Nat.mod_mul]
    omega

theorem fractionText_eq (nsec : Int) (p : Nat) :
    fractionText nsec p = Stamp.fracText (fractionDigits p (nsec.toNat / 10 ^ (9 - p))) := by
  have hl := fractionDigits_length p (nsec.toNat / 10 ^ (9 - p))
  unfold fractionText Stamp.fracText
  by_cases h : p = 0
  · rw [if_pos h, if_pos (List.eq_nil_of_length_eq_zero (by omega))]
  · rw [if_neg h, if_neg (fun hc => h (by rw [← hl, hc]; rfl))]

/-- the zone of an offset -/
def zoneOf (offset : Int) : Zone :=
  if offset = 0 then .utc 90 else .offset (offset < 0) (offset.natAbs / 60) (offset.natAbs % 60)

theorem offsetText_eq {offset : Int} (h : offset.natAbs ≤ 1439) :
    offsetText offset = (zoneOf offset).text := by
  unfold offsetText zoneOf
  split
  · rfl
  · dsimp only
    rw [clockDigits_eq (by omega), clockDigits_mod, show offset.natAbs / 10 / 6 = offset.natAbs / 60 by omega]
    unfold Zone.text
    simp only [decide_eq_true_eq]

theorem zoneOf_valid {offset : Int} (h : offset.natAbs ≤ 1439) : (zoneOf offset).Valid := by
  unfold zoneOf
  split
  · exact Or.inl rfl
  · exact ⟨by omega, by omega⟩

theorem zoneOf_minutes (offset : Int) : (zoneOf offset).minutes = offset := by
  unfold zoneOf
  split
  · next h => exact h.symm
  · unfold Zone.minutes
    simp only [decide_eq_true_eq]
    split <;> omega

/-! ## the stamp of a time stamp -/

variable {t : Timestamp} {p len : Nat}

theorem valid_iff : timestampValid t = true ↔ minSec ≤ t.sec + t.offset * 60 ∧ t.sec + t.offset * 60 ≤ maxSec ∧
    0 ≤ t.nsec ∧ t.nsec ≤ 999999999 ∧ t.offset.natAbs ≤ 1439 := by
  unfold timestampValid
  simp only [decide_eq_true_eq]
  constructor
  · intro h
    omega
  · intro h
    omega

/-- the seconds since the day before the year 1, in local time or in UTC -/
def daySeconds (t : Timestamp) (isLocal : Bool) : Nat :=
  (t.sec + epoch + if isLocal then t.offset * 60 else 0).toNat

/-- a day from the last one of the year 0 on is a date -/
theorem exists_day (n : Nat) : ∃ d : Date, d.Valid ∧ d.number = n + 366 ∧ rdnToYmd n = d ∧
    (d.month < 3 → 1 ≤ d.year) ∧ (1 ≤ n → 1 ≤ d.year) ∧ (n ≤ 3652059 → d.year ≤ 9999) := by
  obtain ⟨d, hd, hn, -⟩ := exists_date (show 1 ≤ n + 366 by omega)
  have hzero : d.year = 0 → n = 0 ∧ 12 ≤ d.month := by
    intro hy
    have h31 : Date.Valid ⟨0, 12, 31⟩ := ⟨by decide, by decide, by decide, by decide⟩
    have h366 : Date.number ⟨0, 12, 31⟩ = 366 := by decide
    constructor
    · have hle := hd.dayOfYear_le_year
      have hnum : d.number = yearStart 0 + d.dayOfYear := by
        rw [← hy]
        rfl
      rw [hy] at hle
      have h0 : yearStart 0 = 0 := by decide
      have hl : (if leap 0 = true then 366 else 365) = 366 := by decide
      omega
    · by_contra hm
      have := Date.number_lt hd h31 (Or.inr ⟨hy, Or.inl (by show d.month < 12; omega)⟩)
      omega
  have hmonth : d.month < 3 → 1 ≤ d.year := by
    intro hm
    by_contra hy
    have := (hzero (by omega)).2
    omega
  refine ⟨d, hd, hn, rdnToYmd_number hd hmonth (by omega), hmonth, ?_, ?_⟩
  · intro h1
    by_contra hy
    have := (hzero (by omega)).1
    omega
  · intro hle
    by_contra hy
    have hlast : Date.Valid ⟨9999, 12, 31⟩ := ⟨by decide, by decide, by decide, by decide⟩
    have hnum : Date.number ⟨9999, 12, 31⟩ = 3652059 + 366 := by decide
    have := Date.number_lt hlast hd (Or.inl (by show 9999 < d.year; omega))
    omega

/-- the local seconds since the day before the year 1 -/
def localSeconds (t : Timestamp) : Nat := (t.sec + t.offset * 60 + epoch).toNat

theorem localSeconds_eq (hv : timestampValid t = true) :
    (localSeconds t : Int) = t.sec + t.offset * 60 + 62135683200 ∧ 86400 ≤ localSeconds t ∧
      localSeconds t < 3652060 * 86400 := by
  obtain ⟨h1, h2, -⟩ := valid_iff.mp hv
  unfold minSec at h1
  unfold maxSec at h2
  unfold localSeconds epoch
  omega

/-- the stamp that is written, with `p` digits of a fraction -/
def stampOf (t : Timestamp) (p : Nat) : Stamp where
  moment :=
    { date := rdnToYmd (localSeconds t / 86400)
      sep := 84
      hour := localSeconds t % 86400 / 3600
      min := localSeconds t % 86400 / 60 % 60
      sec := localSeconds t % 86400 % 60 }
  frac := fractionDigits p (t.nsec.toNat / 10 ^ (9 - p))
  zone := zoneOf t.offset

theorem stampOf_moment (hv : timestampValid t = true) (p : Nat) : (stampOf t p).moment.Valid ∧
    (stampOf t p).moment.date.number = localSeconds t / 86400 + 366 := by
  obtain ⟨-, h1, h2⟩ := localSeconds_eq hv
  obtain ⟨d, hd, hn, hr, -, hy, hy'⟩ := exists_day (localSeconds t / 86400)
  have hdate : (stampOf t p).moment.date = d := hr
  refine ⟨⟨?_, ?_, ?_, Or.inl rfl, ?_, ?_, ?_⟩, ?_⟩
  · rw [hdate]
    exact hd
  · rw [hdate]
    exact hy (by omega)
  · rw [hdate]
    exact hy' (by omega)
  · show localSeconds t % 86400 / 3600 ≤ 23
    omega
  · show localSeconds t % 86400 / 60 % 60 ≤ 59
    omega
  · show localSeconds t % 86400 % 60 ≤ 59
    omega
  · rw [hdate, hn]

theorem stampOf_valid (hv : timestampValid t = true) (hp : p ≤ 9) : (stampOf t p).Valid where
  moment := (stampOf_moment hv p).1
  digits := fractionDigits_digits _ _
  length := by
    show (fractionDigits _ _).length ≤ 9
    rw [fractionDigits_length]
    exact hp
  zone := zoneOf_valid (valid_iff.mp hv).2.2.2.2

/-- up to the digits that are cut off, the time stamp of the stamp is the one that is written -/
theorem stampOf_timestamp (hv : timestampValid t = true) (hp : p ≤ 9) :
    (stampOf t p).timestamp = { t with nsec := t.nsec - t.nsec % (10 ^ (9 - p) : Nat) } := by
  obtain ⟨hs, -, -⟩ := localSeconds_eq hv
  obtain ⟨-, -, h0, h9, -⟩ := valid_iff.mp hv
  have hnum := (stampOf_moment hv p).2
  have hsod : (stampOf t p).moment.sod = localSeconds t % 86400 := by
    show localSeconds t % 86400 / 3600 * 3600 + localSeconds t % 86400 / 60 % 60 * 60 +
      localSeconds t % 86400 % 60 = _
    omega
  have hmin : (stampOf t p).zone.minutes = t.offset := zoneOf_minutes t.offset
  have hfrac : Numeral.value (stampOf t p).frac * 10 ^ (9 - (stampOf t p).frac.length) =
      t.nsec.toNat - t.nsec.toNat % 10 ^ (9 - p) := by
    show Numeral.value (fractionDigits p _) * 10 ^ (9 - (fractionDigits p _).length) = _
    have hlt : t.nsec.toNat / 10 ^ (9 - p) < 10 ^ p := by
      rw [Nat.div_lt_iff_lt_mul (Nat.pow_pos (by decide)), ← Nat.pow_add, Nat.add_sub_cancel' hp]
      omega
    rw [value_fractionDigits, fractionDigits_length, Nat.mod_eq_of_lt hlt]
    have := Nat.div_add_mod t.nsec.toNat (10 ^ (9 - p))
    rw [Nat.mul_comm] at this
    omega
  unfold Stamp.timestamp
  rw [hnum, hsod, hmin, hfrac]
  have hmod : (((t.nsec.toNat - t.nsec.toNat % 10 ^ (9 - p) : Nat)) : Int) =
      t.nsec - t.nsec % (10 ^ (9 - p) : Nat) := by
    rw [Int.ofNat_sub (Nat.mod_le _ _), Int.natCast_emod, Int.toNat_of_nonneg h0]
  rw [hmod]
  refine Timestamp.mk.injEq .. ▸ ⟨?_, rfl, rfl⟩
  omega

/-! ## writing and reading -/

theorem stampOf_length (t : Timestamp) (p : Nat) :
    (stampOf t p).text.length = formatLength t p := by
  have hf : (Stamp.fracText (stampOf t p).frac).length = if p = 0 then 0 else 1 + p := by
    have hl : (stampOf t p).frac.length = p := fractionDigits_length _ _
    unfold Stamp.fracText
    by_cases h : p = 0
    · rw [if_pos (List.eq_nil_of_length_eq_zero (by omega)), if_pos h]
      rfl
    · rw [if_neg (fun hc => h (by rw [← hl, hc]; rfl)), if_neg h, List.length_cons]
      omega
  have hz : (stampOf t p).zone.text.length = 1 + if t.offset = 0 then 0 else 5 := by
    show (zoneOf t.offset).text.length = _
    unfold zoneOf
    by_cases h : t.offset = 0
    · rw [if_pos h, if_pos h]
      rfl
    · rw [if_neg h, if_neg h]
      rfl
  unfold Stamp.text formatLength
  rw [List.length_append, List.length_append, Moment.length_text, hf, hz]
  omega

/-- what is written is the text of a stamp, and a NUL -/
theorem format_text (hv : timestampValid t = true) (p len : Nat) :
    timestampFormatInternal len t p =
      if formatLength t p ≥ len then none else some ((stampOf t p).text ++ [0]) := by
  obtain ⟨hm, -⟩ := stampOf_moment hv p
  have hoff := (valid_iff.mp hv).2.2.2.2
  have hd : (stampOf t p).moment.date.day ≤ 31 := Nat.le_trans hm.date.day_le (Calendar.monthDays_pos _ _).2
  unfold timestampFormatInternal
  dsimp only
  rw [show (t.sec + t.offset * 60 + epoch).toNat = localSeconds t from rfl,
    dateText_eq (d := rdnToYmd (localSeconds t / 86400)) hm.year_le hm.date.month_le hd,
    timeText_eq (Nat.mod_lt _ (by decide)), fractionText_eq, offsetText_eq hoff]
  have htext : (stampOf t p).text = fourDigits (rdnToYmd (localSeconds t / 86400)).year ++ [45] ++
      twoDigits (rdnToYmd (localSeconds t / 86400)).month ++ [45] ++
      twoDigits (rdnToYmd (localSeconds t / 86400)).day ++ [84] ++
      (twoDigits (localSeconds t % 86400 / 3600) ++ [58] ++ twoDigits (localSeconds t % 86400 / 60 % 60) ++
        [58] ++ twoDigits (localSeconds t % 86400 % 60)) ++
      Stamp.fracText (fractionDigits p (t.nsec.toNat / 10 ^ (9 - p))) ++ (zoneOf t.offset).text := by
    simp only [Stamp.text, Moment.text, stampOf, List.append_assoc]
  rw [htext]

/-- the digits of the precision that is chosen are enough -/
theorem autoPrecision_spec (nsec : Int) :
    autoPrecision nsec ≤ 9 ∧ nsec % (10 ^ (9 - autoPrecision nsec) : Nat) = 0 := by
  unfold autoPrecision
  split
  · next h =>
    rw [h]
    exact ⟨Nat.zero_le _, rfl⟩
  split
  · next h => exact ⟨by decide, h⟩
  split
  · next h => exact ⟨by decide, h⟩
  · exact ⟨le_refl _, Int.emod_one _⟩

/-- a text that has been written is read, whatever follows it -/
theorem parse_stampOf (hv : timestampValid t = true) (hp : p ≤ 9) (more : Bytes) :
    timestampParse ((stampOf t p).text ++ more) (stampOf t p).text.length =
      .ok { t with nsec := t.nsec - t.nsec % (10 ^ (9 - p) : Nat) } := by
  have hlen : (stampOf t p).text.length ≤ ((stampOf t p).text ++ more).length := by
    rw [List.length_append]
    exact Nat.le_add_right _ _
  refine (parse_iff hlen _).mpr ⟨stampOf t p, stampOf_valid hv hp, List.take_left, ?_⟩
  rw [stampOf_timestamp hv hp]

theorem parse_of_format (hv : timestampValid t = true) (hl : formatLength t (autoPrecision t.nsec) < len) :
    ∃ text, timestampFormat len t = some (text ++ [0]) ∧ text.length < len ∧
      ∀ more, timestampParse (text ++ more) text.length = .ok t := by
  obtain ⟨hp, hz⟩ := autoPrecision_spec t.nsec
  refine ⟨(stampOf t (autoPrecision t.nsec)).text, ?_, ?_, fun more => ?_⟩
  · unfold timestampFormat
    rw [if_pos hv, format_text hv, if_neg (Nat.not_le.mpr hl)]
  · rw [stampOf_length]
    exact hl
  · rw [parse_stampOf hv hp, hz, Int.sub_zero]

/-- 2013-12-31T23:59:59.5+01:30 -/
def exampleStamp : Timestamp := ⟨1388528999, 500000000, 90⟩

theorem parse_of_format_example : ∃ text, timestampFormat 36 exampleStamp = some (text ++ [0]) ∧
    text.length < 36 ∧ ∀ more, timestampParse (text ++ more) text.length = .ok exampleStamp :=
  parse_of_format (by decide) (by decide)

theorem formatPrecision_text (hv : timestampValid t = true) (hp : p ≤ 9) (hl : formatLength t p < len) :
    timestampFormatPrecision len t p = some ((stampOf t p).text ++ [0]) := by
  have hneg : ¬ (¬ timestampValid t = true ∨ (p : Int) < 0 ∨ (p : Int) > 9) := by
    rintro (hc | hc | hc)
    · exact hc hv
    · omega
    · omega
  unfold timestampFormatPrecision
  rw [if_neg hneg, Int.toNat_natCast, format_text hv, if_neg (Nat.not_le.mpr hl)]

theorem parse_precision (hv : timestampValid t = true) (hp : p ≤ 9) (hl : formatLength t p < len) :
    ∃ text, timestampFormatPrecision len t p = some (text ++ [0]) ∧ text.length < len ∧
      ∀ more, timestampParse (text ++ more) text.length =
        .ok { t with nsec := t.nsec - t.nsec % (10 ^ (9 - p) : Nat) } := by
  refine ⟨(stampOf t p).text, formatPrecision_text hv hp hl, ?_, fun more => parse_stampOf hv hp more⟩
  rw [stampOf_length]
  exact hl

/-! ## texts that are accepted -/

/-- the days of the years 1 to 9999 -/
theorem number_bounds {d : Date} (h : d.Valid) (h1 : 1 ≤ d.year) (h9 : d.year ≤ 9999) :
    367 ≤ d.number ∧ d.number ≤ 3652059 + 366 := by
  have hy1 := yearStart_le h1
  have hy9 := yearStart_le (show d.year + 1 ≤ 10000 by omega)
  rw [yearStart_succ] at hy9
  have hd := h.dayOfYear_le_year
  have hp := h.dayOfYear_pos
  have e1 : yearStart 1 = 366 := by decide
  have e9 : yearStart 10000 = 3652059 + 366 := by decide
  unfold Date.number
  omega

/-- what is accepted is in range -/
theorem timestamp_valid {s : Stamp} (h : s.Valid) : timestampValid s.timestamp = true := by
  obtain ⟨hm, hd, hl, hz⟩ := h
  obtain ⟨h1, h2⟩ := number_bounds hm.date hm.year_pos hm.year_le
  have hsod : s.moment.sod < 86400 := by
    have := hm.hour
    have := hm.min
    have := hm.sec
    unfold Moment.sod
    omega
  have hn : Numeral.value s.frac * 10 ^ (9 - s.frac.length) < 10 ^ 9 := by
    have hv := valueFrom_lt (v := 0) s.frac hd
    rw [Nat.zero_add, Nat.one_mul] at hv
    have := Nat.mul_lt_mul_of_pos_right hv (Nat.pow_pos (n := 9 - s.frac.length) (show 0 < 10 by decide))
    rwa [← Nat.pow_add, Nat.add_sub_cancel' hl] at this
  have ho : s.zone.minutes.natAbs ≤ 1439 := by
    cases hzone : s.zone with
    | utc c => exact Nat.zero_le _
    | offset minus hour min =>
      rw [hzone] at hz
      obtain ⟨h23, h59⟩ := hz
      unfold Zone.minutes
      cases minus
      · show ((hour * 60 + min : Nat) : Int).natAbs ≤ 1439
        omega
      · show (-((hour * 60 + min : Nat) : Int)).natAbs ≤ 1439
        omega
  refine valid_iff.mpr ⟨?_, ?_, Int.natCast_nonneg _, ?_, ho⟩
  · show minSec ≤ ((s.moment.date.number : Int) - 366 - 719163) * 86400 + s.moment.sod -
      s.zone.minutes * 60 + s.zone.minutes * 60
    unfold minSec
    omega
  · show ((s.moment.date.number : Int) - 366 - 719163) * 86400 + s.moment.sod -
      s.zone.minutes * 60 + s.zone.minutes * 60 ≤ maxSec
    unfold maxSec
    omega
  · show ((Numeral.value s.frac * 10 ^ (9 - s.frac.length) : Nat) : Int) ≤ 999999999
    omega

theorem formatLength_le (t : Timestamp) (hp : p ≤ 9) : formatLength t p ≤ 35 := by
  unfold formatLength
  split <;> split <;> omega

/-- a text that is accepted is written again in one form, which is accepted too -/
theorem parse_normal {str : Bytes} (hlen : len ≤ str.length) (h : timestampParse str len = .ok t) :
    ∃ text, timestampFormat 36 t = some (text ++ [0]) ∧
      ∀ more, timestampParse (text ++ more) text.length = .ok t := by
  obtain ⟨s, hs, -, rfl⟩ := (parse_iff hlen t).mp h
  have hl := formatLength_le s.timestamp (autoPrecision_spec s.timestamp.nsec).1
  obtain ⟨text, hf, -, hp⟩ := parse_of_format (timestamp_valid hs) (Nat.lt_of_le_of_lt hl (show 35 < 36 by decide))
  exact ⟨text, hf, hp⟩

theorem parse_normal_example : ∃ text, timestampFormat 36 exampleStamp = some (text ++ [0]) ∧
    ∀ more, timestampParse (text ++ more) text.length = .ok exampleStamp :=
  parse_normal (show 27 ≤ exampleText.length by decide) (by decide +kernel)

/-! ## `struct tm` -/

/-- the fields of a day -/
theorem structTm_date {d : Date} (h : d.Valid) (hy : d.month < 3 → 1 ≤ d.year) {rdn : Nat}
    (hn : rdn + 366 = d.number) (sod : Nat) :
    rdnToStructTm rdn sod =
      { tmSec := sod % 60
        tmMin := sod / 60 % 60
        tmHour := sod / 60 / 60
        tmMday := d.day
        tmMon := d.month - 1
        tmYear := (d.year : Int) - 1900
        tmWday := rdn % 7
        tmYday := d.dayOfYear - 1 } := by
  have hm := number_march h hy
  obtain ⟨h1, hc⟩ := marchDay_le h hy
  have hr : rataDie rdn = (marchYear d, marchDay d) := rataDie_march (by omega) h1 hc
  have hmon := month_of_marchDay h.month_pos h.month_le h.day_pos
    (Nat.le_trans h.day_le (monthDays_le_true _ _))
  have ho := dayOffset_eq h.month_pos h.month_le (leap d.year)
  have hle := h.month_le
  have hpos := h.month_pos
  have hshift : (535 * marchDay d + 48950) >>> 14 = if d.month < 3 then d.month + 12 else d.month := hmon
  rw [rdnToStructTm, hr]
  show structTmOf rdn sod (marchYear d) (marchDay d) _ = _
  rw [hshift]
  unfold structTmOf
  by_cases hlt : d.month < 3
  · rw [if_pos hlt] at ho
    have hyd : marchDay d - 306 = d.dayOfYear := by
      unfold marchDay Date.dayOfYear
      omega
    have hyear : marchYear d + 1 = d.year := by
      have := hy hlt
      unfold marchYear
      rw [if_pos hlt]
      omega
    rw [if_pos hlt, if_pos (show d.month + 12 > 12 by omega)]
    dsimp only
    rw [hyd, hyear, Nat.add_sub_cancel]
    unfold marchDay
    rw [Nat.add_sub_cancel_left]
  · rw [if_neg hlt] at ho
    have hyear : marchYear d = d.year := if_neg hlt
    have hyd : marchDay d + 59 + (leapYear d.year).toNat = d.dayOfYear := by
      rw [leapYear_eq]
      unfold marchDay Date.dayOfYear
      cases hl : leap d.year with
      | true =>
        rw [hl, if_pos rfl] at ho
        show dayOffset d.month + d.day + 59 + 1 = _
        omega
      | false =>
        rw [hl, if_neg Bool.false_ne_true] at ho
        show dayOffset d.month + d.day + 59 + 0 = _
        omega
    rw [if_neg hlt, if_neg (show ¬ d.month > 12 by omega)]
    dsimp only
    rw [hyear, hyd]
    unfold marchDay
    rw [Nat.add_sub_cancel_left]

theorem tm_date (hv : timestampValid t = true) (isLocal : Bool) :
    ∃ (d : Date) (tm : Tm), timestampToTm t isLocal = some tm ∧ d.Valid ∧
      tm.tmYear + 1900 = d.year ∧ tm.tmMon + 1 = d.month ∧ tm.tmMday = d.day ∧
      tm.tmYday + 1 = d.dayOfYear ∧ (tm.tmWday : Int) = ((d.number : Int) - 366 - 719163 + 4) % 7 ∧
      tm.tmHour < 24 ∧ tm.tmMin < 60 ∧ tm.tmSec < 60 ∧
      ((d.number : Int) - 366 - 719163) * 86400 + tm.tmHour * 3600 + tm.tmMin * 60 + tm.tmSec =
        t.sec + if isLocal then t.offset * 60 else 0 := by
  obtain ⟨h1, h2, -, -, ho⟩ := valid_iff.mp hv
  unfold minSec at h1
  unfold maxSec at h2
  obtain ⟨s, hs⟩ : ∃ s : Nat, (s : Int) = t.sec + epoch + if isLocal then t.offset * 60 else 0 := by
    refine ⟨_, Int.toNat_of_nonneg ?_⟩
    unfold epoch
    split <;> omega
  obtain ⟨d, hd, hn, -, hm, -⟩ := exists_day (s / 86400)
  have hp := hd.month_pos
  have hdp := hd.dayOfYear_pos
  have htm : timestampToTm t isLocal = some (rdnToStructTm (s / 86400) (s % 86400)) := by
    unfold timestampToTm
    rw [if_pos hv, ← hs]
    rfl
  rw [structTm_date hd hm hn.symm] at htm
  -- the fields, one by one
  obtain ⟨tm, htm, hyear, hmon, hday, hyday, hwday, hhour, hmin, hsec⟩ : ∃ tm : Tm,
      timestampToTm t isLocal = some tm ∧ tm.tmYear = (d.year : Int) - 1900 ∧ tm.tmMon = d.month - 1 ∧
      tm.tmMday = d.day ∧ tm.tmYday = d.dayOfYear - 1 ∧ tm.tmWday = s / 86400 % 7 ∧
      tm.tmHour = s % 86400 / 60 / 60 ∧ tm.tmMin = s % 86400 / 60 % 60 ∧ tm.tmSec = s % 86400 % 60 :=
    ⟨_, htm, rfl, rfl, rfl, rfl, rfl, rfl, rfl, rfl⟩
  refine ⟨d, tm, htm, hd, ?_, ?_, hday, ?_, ?_, ?_, ?_, ?_, ?_⟩
  · rw [hyear]
    exact Int.sub_add_cancel _ _
  · rw [hmon]
    exact Nat.sub_add_cancel hp
  · rw [hyday]
    exact Nat.sub_add_cancel hdp
  · rw [hwday]
    omega
  · rw [hhour]
    omega
  · rw [hmin]
    exact Nat.mod_lt _ (by decide)
  · rw [hsec]
    exact Nat.mod_lt _ (by decide)
  · rw [hhour, hmin, hsec]
    unfold epoch at hs
    omega

theorem tm_date_example : ∃ (d : Date) (tm : Tm), timestampToTm exampleStamp true = some tm ∧
    d.Valid ∧ tm.tmYear + 1900 = d.year := by
  obtain ⟨d, tm, h, hd, hy, -⟩ := tm_date (t := exampleStamp) (by decide) true
  exact ⟨d, tm, h, hd, hy⟩

end Time
