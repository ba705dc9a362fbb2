import Iotivity.Time.RoundTrip
import Iotivity.Lib.FixedWidth

/-!
# The order of texts

Texts in UTC and of one precision, compared byte by byte, are in the order of their times.

* `text_order`    the order is that of `timestamp_compare` on the time stamps that are read back.
-/

namespace Time
open Calendar Numeral

/-! ## texts as fields -/

theorem twoDigits_fixed {n : Nat} (h : n < 100) : twoDigits n = fixed 2 n := by
  have h1 : n / 10 % 10 = n / 10 := Nat.mod_eq_of_lt (by omega)
  show [digit (n / 10), digit (n % 10)] = [digit (n / 10 % 10), digit (n % 10)]
  rw [h1]

theorem fourDigits_fixed {n : Nat} (h : n < 10000) : fourDigits n = fixed 4 n := by
  show [digit (n / 100 / 10), digit (n / 100 % 10), digit (n % 100 / 10), digit (n % 100 % 10)] =
    [digit (n / 10 / 10 / 10 % 10), digit (n / 10 / 10 % 10), digit (n / 10 % 10), digit (n % 10)]
  rw [show n / 10 / 10 / 10 % 10 = n / 100 / 10 by omega, show n / 10 / 10 % 10 = n / 100 % 10 by omega,
    show n / 10 % 10 = n % 100 / 10 by omega, show n % 10 = n % 100 % 10 by omega]

theorem fractionDigits_fixed (k v : Nat) : fractionDigits k v = fixed k v := by
  induction k generalizing v with
  | zero => rfl
  | succ k ih => rw [fractionDigits, fixed, ih]; rfl

theorem Moment.fields {m : Moment} (h : m.Valid) (s : Bytes) : m.text ++ s =
    fixed 4 m.date.year ++ 45 :: (fixed 2 m.date.month ++ 45 :: (fixed 2 m.date.day ++ m.sep ::
      (fixed 2 m.hour ++ 58 :: (fixed 2 m.min ++ 58 :: (fixed 2 m.sec ++ s))))) := by
  have hy := h.year_le
  have hm := h.date.month_le
  have hd := Nat.le_trans h.date.day_le (monthDays_pos _ _).2
  have hh := h.hour
  have hn := h.min
  have hs := h.sec
  unfold Moment.text
  rw [fourDigits_fixed (by omega), twoDigits_fixed (by omega), twoDigits_fixed (by omega),
    twoDigits_fixed (by omega), twoDigits_fixed (by omega), twoDigits_fixed (by omega)]
  simp only [List.append_assoc, List.cons_append, List.nil_append]

theorem cons_lt_same (c : UInt8) (s s' : Bytes) : c :: s < c :: s' ↔ s < s' := by
  rw [List.cons_lt_cons_iff]
  exact ⟨fun h => h.elim (fun hc => absurd hc (Nat.lt_irrefl c.toNat)) And.right, fun h => Or.inr ⟨rfl, h⟩⟩

/-- first the day, then the second, then what follows -/
theorem moment_lt_iff {m m' : Moment} (h : m.Valid) (h' : m'.Valid) (hsep : m.sep = m'.sep) (s s' : Bytes) :
    m.text ++ s < m'.text ++ s' ↔ m.date.number < m'.date.number ∨
      m.date.number = m'.date.number ∧ (m.sod < m'.sod ∨ m.sod = m'.sod ∧ s < s') := by
  have hy := h.year_le
  have hm := h.date.month_le
  have hd := Nat.le_trans h.date.day_le (monthDays_pos _ _).2
  have hh := h.hour
  have hn := h.min
  have hs := h.sec
  have hy' := h'.year_le
  have hm' := h'.date.month_le
  have hd' := Nat.le_trans h'.date.day_le (monthDays_pos _ _).2
  have hh' := h'.hour
  have hn' := h'.min
  have hs' := h'.sec
  have heq : m.date.number = m'.date.number ↔ m.date.year = m'.date.year ∧ m.date.month = m'.date.month ∧
      m.date.day = m'.date.day := by
    constructor
    · intro he
      rw [Date.number_inj h.date h'.date he]
      exact ⟨rfl, rfl, rfl⟩
    · rintro ⟨h1, h2, h3⟩
      unfold Date.number Date.dayOfYear
      rw [h1, h2, h3]
  rw [Moment.fields h, Moment.fields h', hsep, Date.number_lt_iff h.date h'.date, heq]
  rw [fixed_append_lt_iff (by omega) (by omega), cons_lt_same, fixed_append_lt_iff (by omega) (by omega),
    cons_lt_same, fixed_append_lt_iff (by omega) (by omega), cons_lt_same,
    fixed_append_lt_iff (by omega) (by omega), cons_lt_same, fixed_append_lt_iff (by omega) (by omega),
    cons_lt_same, fixed_append_lt_iff (by omega) (by omega)]
  unfold Moment.sod
  by_cases hlt : s < s'
  · simp only [hlt, and_true]
    omega
  · simp only [hlt, and_false, or_false]
    omega

/-! ## time stamps -/

theorem compare_lt_iff (t t' : Timestamp) :
    timestampCompare t t' = -1 ↔ t.sec < t'.sec ∨ t.sec = t'.sec ∧ t.nsec < t'.nsec := by
  unfold timestampCompare
  split
  · next h => exact ⟨fun _ => Or.inl h, fun _ => rfl⟩
  split
  · exact ⟨fun h => absurd h (by decide), fun h => by omega⟩
  split
  · exact ⟨fun _ => by omega, fun _ => rfl⟩
  split
  · exact ⟨fun h => absurd h (by decide), fun h => by omega⟩
  · exact ⟨fun h => absurd h (by decide), fun h => by omega⟩

/-- the time stamp with the digits of its fraction that are written -/
def cut (t : Timestamp) (p : Nat) : Timestamp := { t with nsec := t.nsec - t.nsec % (10 ^ (9 - p) : Nat) }

theorem cut_lt_iff {a b : Int} (ha : 0 ≤ a) (hb : 0 ≤ b) {m : Nat} (hm : 0 < m) :
    a - a % m < b - b % m ↔ a.toNat / m < b.toNat / m := by
  obtain ⟨x, rfl⟩ := Int.eq_ofNat_of_zero_le ha
  obtain ⟨y, rfl⟩ := Int.eq_ofNat_of_zero_le hb
  have hx := Nat.div_add_mod x m
  have hy := Nat.div_add_mod y m
  have h1 : (x : Int) - (x : Int) % m = (m * (x / m) : Nat) := by
    rw [← Int.natCast_emod]
    omega
  have h2 : (y : Int) - (y : Int) % m = (m * (y / m) : Nat) := by
    rw [← Int.natCast_emod]
    omega
  rw [h1, h2, Int.toNat_natCast, Int.toNat_natCast, Int.ofNat_lt]
  exact Nat.mul_lt_mul_left hm

variable {t t' : Timestamp} {p : Nat}

theorem stampOf_lt_iff (hv : timestampValid t = true) (hv' : timestampValid t' = true) (ho : t.offset = 0)
    (ho' : t'.offset = 0) (hp : p ≤ 9) :
    (stampOf t p).text < (stampOf t' p).text ↔ timestampCompare (cut t p) (cut t' p) = -1 := by
  obtain ⟨hm, hn⟩ := stampOf_moment hv p
  obtain ⟨hm', hn'⟩ := stampOf_moment hv' p
  obtain ⟨hs, -, -⟩ := localSeconds_eq hv
  obtain ⟨hs', -, -⟩ := localSeconds_eq hv'
  rw [ho] at hs
  rw [ho'] at hs'
  have hz : (stampOf t p).zone.text = [90] := by
    show (zoneOf t.offset).text = _
    rw [ho]
    rfl
  have hz' : (stampOf t' p).zone.text = [90] := by
    show (zoneOf t'.offset).text = _
    rw [ho']
    rfl
  have hsod : (stampOf t p).moment.sod = localSeconds t % 86400 := by
    show localSeconds t % 86400 / 3600 * 3600 + localSeconds t % 86400 / 60 % 60 * 60 +
      localSeconds t % 86400 % 60 = _
    omega
  have hsod' : (stampOf t' p).moment.sod = localSeconds t' % 86400 := by
    show localSeconds t' % 86400 / 3600 * 3600 + localSeconds t' % 86400 / 60 % 60 * 60 +
      localSeconds t' % 86400 % 60 = _
    omega
  obtain ⟨-, -, h0, h9, -⟩ := valid_iff.mp hv
  obtain ⟨-, -, h0', h9', -⟩ := valid_iff.mp hv'
  have hpow : 0 < 10 ^ (9 - p) := Nat.pow_pos (by decide)
  have hb : ∀ {n : Int}, 0 ≤ n → n ≤ 999999999 → n.toNat / 10 ^ (9 - p) < 10 ^ p := by
    intro n h0 h9
    rw [Nat.div_lt_iff_lt_mul hpow, ← Nat.pow_add, Nat.add_sub_cancel' hp]
    omega
  have hfrac : Stamp.fracText (stampOf t p).frac ++ [90] < Stamp.fracText (stampOf t' p).frac ++ [90] ↔
      t.nsec.toNat / 10 ^ (9 - p) < t'.nsec.toNat / 10 ^ (9 - p) := by
    show Stamp.fracText (fractionDigits p _) ++ _ < Stamp.fracText (fractionDigits p _) ++ _ ↔ _
    rw [← fractionText_eq, ← fractionText_eq]
    unfold fractionText
    by_cases hp0 : p = 0
    · have h1 := hb h0 h9
      have h2 := hb h0' h9'
      rw [hp0] at h1 h2
      rw [if_pos hp0, if_pos hp0, hp0]
      exact ⟨fun h => absurd h (by decide), fun h => by omega⟩
    · rw [if_neg hp0, if_neg hp0, List.cons_append, List.cons_append, cons_lt_same, fractionDigits_fixed,
        fractionDigits_fixed, fixed_append_lt_iff (hb h0 h9) (hb h0' h9')]
      exact or_iff_left fun hc => absurd hc.2 (by decide)
  unfold Stamp.text
  rw [hz, hz', List.append_assoc, List.append_assoc, moment_lt_iff hm hm' rfl, hfrac, hn, hn', hsod, hsod',
    compare_lt_iff]
  unfold cut
  dsimp only
  rw [cut_lt_iff h0 h0' hpow]
  omega

theorem text_order (hv : timestampValid t = true) (hv' : timestampValid t' = true) (ho : t.offset = 0)
    (ho' : t'.offset = 0) (hp : p ≤ 9) : ∃ text text',
      timestampFormatPrecision 36 t p = some (text ++ [0]) ∧
      timestampFormatPrecision 36 t' p = some (text' ++ [0]) ∧
      timestampParse text text.length = .ok (cut t p) ∧ timestampParse text' text'.length = .ok (cut t' p) ∧
      (text < text' ↔ timestampCompare (cut t p) (cut t' p) = -1) := by
  have h36 : ∀ t, formatLength t p < 36 := fun t => Nat.lt_succ_of_le (formatLength_le t hp)
  have h := parse_stampOf hv hp []
  have h' := parse_stampOf hv' hp []
  rw [List.append_nil] at h h'
  exact ⟨_, _, formatPrecision_text hv hp (h36 t), formatPrecision_text hv' hp (h36 t'), h, h',
    stampOf_lt_iff hv hv' ho ho' hp⟩

theorem text_order_example : ∃ text text',
    timestampFormatPrecision 36 ⟨1388528999, 500000000, 0⟩ 3 = some (text ++ [0]) ∧
    timestampFormatPrecision 36 ⟨1388529000, 0, 0⟩ 3 = some (text' ++ [0]) ∧ text < text' := by
  obtain ⟨text, text', h, h', -, -, hlt⟩ := text_order (p := 3)
    (show timestampValid ⟨1388528999, 500000000, 0⟩ = true by decide)
    (show timestampValid ⟨1388529000, 0, 0⟩ = true by decide) rfl rfl (by decide)
  exact ⟨text, text', h, h', hlt.mpr (by decide)⟩

end Time
