import Iotivity.Time.Days
import Mathlib.Tactic.IntervalCases

/-!
# The texts that `timestamp_parse` accepts

A `Stamp` is what an RFC 3339 text says: a date, a time, a fraction and a zone.

* `parse_iff`    a text is accepted if and only if it is that of a stamp whose parts are in range, and
                 its time stamp is then read.
-/

namespace Time
open Calendar

/-! ## stamps -/

inductive Zone where
  | utc (c : UInt8)
  | offset (minus : Bool) (hour min : Nat)
deriving DecidableEq

/-- a date and a time, as they stand in a text -/
structure Moment where
  date : Date
  sep : UInt8
  hour : Nat
  min : Nat
  sec : Nat
deriving DecidableEq

structure Stamp where
  moment : Moment
  frac : Bytes
  zone : Zone
deriving DecidableEq

def twoDigits (n : Nat) : Bytes := [Numeral.digit (n / 10), Numeral.digit (n % 10)]

def fourDigits (n : Nat) : Bytes := twoDigits (n / 100) ++ twoDigits (n % 100)

namespace Zone

def text : Zone → Bytes
  | utc c => [c]
  | offset minus hour min => (if minus then 45 else 43) :: (twoDigits hour ++ [58] ++ twoDigits min)

def minutes : Zone → Int
  | utc _ => 0
  | offset minus hour min => if minus then -(hour * 60 + min : Nat) else (hour * 60 + min : Nat)

/-- `Z` in either case, or an offset of less than a day -/
def Valid : Zone → Prop
  | utc c => c = 90 ∨ c = 122
  | offset _ hour min => hour ≤ 23 ∧ min ≤ 59

end Zone

namespace Moment

/-- `YYYY-MM-DDThh:mm:ss` -/
def text (m : Moment) : Bytes :=
  fourDigits m.date.year ++ [45] ++ twoDigits m.date.month ++ [45] ++ twoDigits m.date.day ++ [m.sep] ++
    twoDigits m.hour ++ [58] ++ twoDigits m.min ++ [58] ++ twoDigits m.sec

/-- the second of the day -/
def sod (m : Moment) : Nat := m.hour * 3600 + m.min * 60 + m.sec

/-- the date and the time are in range -/
structure Valid (m : Moment) : Prop where
  date : m.date.Valid
  year_pos : 1 ≤ m.date.year
  year_le : m.date.year ≤ 9999
  sep : m.sep = 84 ∨ m.sep = 32 ∨ m.sep = 116
  hour : m.hour ≤ 23
  min : m.min ≤ 59
  sec : m.sec ≤ 59

end Moment

namespace Stamp

def fracText (frac : Bytes) : Bytes := if frac = [] then [] else 46 :: frac

def text (s : Stamp) : Bytes := s.moment.text ++ fracText s.frac ++ s.zone.text

/-- the time stamp; 719163 is the day 1970-01-01, counted from the year 1 on -/
def timestamp (s : Stamp) : Timestamp where
  sec := ((s.moment.date.number : Int) - 366 - 719163) * 86400 + s.moment.sod - s.zone.minutes * 60
  nsec := (Numeral.value s.frac * 10 ^ (9 - s.frac.length) : Nat)
  offset := s.zone.minutes

structure Valid (s : Stamp) : Prop where
  moment : s.moment.Valid
  digits : ∀ c ∈ s.frac, Numeral.isDigit c = true
  length : s.frac.length ≤ 9
  zone : s.zone.Valid

end Stamp

/-! ## readings -/

theorem bind_ok {α β : Type} {x : Reading α} {f : α → Reading β} {b : β} :
    x >>= f = .ok b ↔ ∃ a, x = .ok a ∧ f a = .ok b := by
  cases x with
  | error e => exact ⟨fun h => (nomatch h), fun ⟨_, h, _⟩ => (nomatch h)⟩
  | ok a => exact ⟨fun h => ⟨a, rfl, h⟩, fun ⟨_, h, hf⟩ => Except.ok.inj h ▸ hf⟩

theorem byte_ok {str : Bytes} {i : Nat} {c : UInt8} : byte str i = .ok c ↔ str[i]? = some c := by
  unfold byte
  cases str[i]? with
  | none => exact ⟨fun h => (nomatch h), fun h => (nomatch h)⟩
  | some x => exact ⟨fun h => Except.ok.inj h ▸ rfl, fun h => Option.some.inj h ▸ rfl⟩

theorem need_ok {p : Bool} {u : Unit} : need p = .ok u ↔ p = true := by
  cases p
  · exact ⟨fun h => (nomatch h), fun h => (nomatch h)⟩
  · exact ⟨fun _ => rfl, fun _ => rfl⟩

theorem pure_ok {α : Type} {a b : α} : (pure a : Reading α) = .ok b ↔ a = b :=
  ⟨fun h => Except.ok.inj h, fun h => h ▸ rfl⟩

theorem within_ok {lo hi n : Nat} {r : Reading Nat} :
    within lo hi r = .ok n ↔ r = .ok n ∧ lo ≤ n ∧ n ≤ hi := by
  unfold within
  simp only [bind_ok, need_ok, pure_ok, decide_eq_true_eq]
  constructor
  · rintro ⟨m, hr, -, hm, rfl⟩
    exact ⟨hr, hm⟩
  · rintro ⟨hr, hn⟩
    exact ⟨n, hr, (), hn, rfl⟩

/-- a digit, from its distance from the character `0` -/
theorem digit_of_sub {c : UInt8} (h : c - 48 ≤ 9) :
    (c - 48).toNat < 10 ∧ c = Numeral.digit (c - 48).toNat := by
  have h9 : (c - 48).toNat ≤ 9 := h
  refine ⟨by omega, ?_⟩
  rw [← UInt8.toNat_inj, Numeral.digit_toNat (by omega)]
  rw [UInt8.toNat_sub] at h9 ⊢
  have hc := c.toNat_lt
  have h48 : (48 : UInt8).toNat = 48 := rfl
  rw [h48] at h9 ⊢
  omega

theorem sub_digit {d : Nat} (h : d < 10) :
    Numeral.digit d - 48 ≤ 9 ∧ (Numeral.digit d - 48).toNat = d := by
  have hd : (Numeral.digit d - 48).toNat = d := by
    rw [UInt8.toNat_sub, Numeral.digit_toNat h, show (48 : UInt8).toNat = 48 from rfl]
    omega
  refine ⟨?_, hd⟩
  rw [UInt8.le_iff_toNat_le, hd]
  exact Nat.le_of_lt_succ h

theorem digitAt_ok {str : Bytes} {i d : Nat} :
    digitAt str i = .ok d ↔ d < 10 ∧ str[i]? = some (Numeral.digit d) := by
  unfold digitAt
  simp only [bind_ok, byte_ok, need_ok, pure_ok, decide_eq_true_eq]
  constructor
  · rintro ⟨c, hc, -, h9, rfl⟩
    obtain ⟨hlt, he⟩ := digit_of_sub h9
    exact ⟨hlt, by rw [hc, ← he]⟩
  · rintro ⟨hd, hs⟩
    exact ⟨_, hs, (), (sub_digit hd).1, (sub_digit hd).2⟩

theorem parse2d_ok {str : Bytes} {i n : Nat} : parse2d str i = .ok n ↔
    n < 100 ∧ str[i]? = some (Numeral.digit (n / 10)) ∧ str[i + 1]? = some (Numeral.digit (n % 10)) := by
  unfold parse2d
  simp only [bind_ok, digitAt_ok, pure_ok]
  constructor
  · rintro ⟨d0, ⟨h0, hs0⟩, d1, ⟨h1, hs1⟩, rfl⟩
    rw [show (d0 * 10 + d1) / 10 = d0 by omega, show (d0 * 10 + d1) % 10 = d1 by omega]
    exact ⟨by omega, hs0, hs1⟩
  · rintro ⟨hn, hs0, hs1⟩
    exact ⟨n / 10, ⟨by omega, hs0⟩, n % 10, ⟨by omega, hs1⟩, by omega⟩

theorem parse4d_ok {str : Bytes} {i n : Nat} : parse4d str i = .ok n ↔ n < 10000 ∧
    str[i]? = some (Numeral.digit (n / 100 / 10)) ∧ str[i + 1]? = some (Numeral.digit (n / 100 % 10)) ∧
      str[i + 2]? = some (Numeral.digit (n % 100 / 10)) ∧
      str[i + 3]? = some (Numeral.digit (n % 100 % 10)) := by
  unfold parse4d
  simp only [bind_ok, digitAt_ok, pure_ok]
  constructor
  · rintro ⟨d0, ⟨h0, hs0⟩, d1, ⟨h1, hs1⟩, d2, ⟨h2, hs2⟩, d3, ⟨h3, hs3⟩, rfl⟩
    rw [show (d0 * 1000 + d1 * 100 + d2 * 10 + d3) / 100 / 10 = d0 by omega,
      show (d0 * 1000 + d1 * 100 + d2 * 10 + d3) / 100 % 10 = d1 by omega,
      show (d0 * 1000 + d1 * 100 + d2 * 10 + d3) % 100 / 10 = d2 by omega,
      show (d0 * 1000 + d1 * 100 + d2 * 10 + d3) % 100 % 10 = d3 by omega]
    exact ⟨by omega, hs0, hs1, hs2, hs3⟩
  · rintro ⟨hn, hs0, hs1, hs2, hs3⟩
    exact ⟨n / 100 / 10, ⟨by omega, hs0⟩, n / 100 % 10, ⟨by omega, hs1⟩, n % 100 / 10, ⟨by omega, hs2⟩,
      n % 100 % 10, ⟨by omega, hs3⟩, by omega⟩

/-! ## the date and the time -/

theorem take_eq_iff {α : Type} (str l : List α) :
    str.take l.length = l ↔ ∀ i < l.length, str[i]? = l[i]? := by
  constructor
  · intro h i hi
    rw [← List.getElem?_take_of_lt hi, h]
  · intro h
    refine List.ext_getElem? fun i => ?_
    by_cases hi : i < l.length
    · rw [List.getElem?_take_of_lt hi, h i hi]
    · rw [List.getElem?_eq_none (by rw [List.length_take]; omega), List.getElem?_eq_none (by omega)]

theorem leapYear_eq (y : Nat) : leapYear y = leap y := by
  have h : y &&& 3 = y % 4 := Nat.and_two_pow_sub_one_eq_mod y 2
  unfold leapYear leap
  rw [h]

theorem monthDays_eq (y : Nat) {m : Nat} (h : 1 ≤ m) (hm : m ≤ 12) :
    monthDays y m = Calendar.monthDays (leap y) m := by
  have hall : ∀ l : Bool, ∀ i < 12, (if i + 1 = 2 ∧ l then
      [0, 31, 29, 31, 30, 31, 30, 31, 31, 30, 31, 30, 31].getD (i + 1) 0
      else [0, 31, 28, 31, 30, 31, 30, 31, 31, 30, 31, 30, 31].getD (i + 1) 0) =
      Calendar.monthDays l (i + 1) := by
    decide
  obtain ⟨k, rfl⟩ := Nat.exists_eq_add_of_le' h
  unfold monthDays
  rw [leapYear_eq]
  exact hall (leap y) k (by omega)

theorem Moment.text_eq (m : Moment) : m.text =
    [Numeral.digit (m.date.year / 100 / 10), Numeral.digit (m.date.year / 100 % 10),
      Numeral.digit (m.date.year % 100 / 10), Numeral.digit (m.date.year % 100 % 10), 45,
      Numeral.digit (m.date.month / 10), Numeral.digit (m.date.month % 10), 45,
      Numeral.digit (m.date.day / 10), Numeral.digit (m.date.day % 10), m.sep,
      Numeral.digit (m.hour / 10), Numeral.digit (m.hour % 10), 58,
      Numeral.digit (m.min / 10), Numeral.digit (m.min % 10), 58,
      Numeral.digit (m.sec / 10), Numeral.digit (m.sec % 10)] := rfl

theorem Moment.length_text (m : Moment) : m.text.length = 19 := rfl

/-- the nineteen bytes of a text -/
structure Shows (str : Bytes) (m : Moment) : Prop where
  y0 : str[0]? = some (Numeral.digit (m.date.year / 100 / 10))
  y1 : str[1]? = some (Numeral.digit (m.date.year / 100 % 10))
  y2 : str[2]? = some (Numeral.digit (m.date.year % 100 / 10))
  y3 : str[3]? = some (Numeral.digit (m.date.year % 100 % 10))
  c4 : str[4]? = some 45
  m0 : str[5]? = some (Numeral.digit (m.date.month / 10))
  m1 : str[6]? = some (Numeral.digit (m.date.month % 10))
  c7 : str[7]? = some 45
  d0 : str[8]? = some (Numeral.digit (m.date.day / 10))
  d1 : str[9]? = some (Numeral.digit (m.date.day % 10))
  sep : str[10]? = some m.sep
  h0 : str[11]? = some (Numeral.digit (m.hour / 10))
  h1 : str[12]? = some (Numeral.digit (m.hour % 10))
  c13 : str[13]? = some 58
  n0 : str[14]? = some (Numeral.digit (m.min / 10))
  n1 : str[15]? = some (Numeral.digit (m.min % 10))
  c16 : str[16]? = some 58
  s0 : str[17]? = some (Numeral.digit (m.sec / 10))
  s1 : str[18]? = some (Numeral.digit (m.sec % 10))

theorem shows_iff (str : Bytes) (m : Moment) : str.take 19 = m.text ↔ Shows str m := by
  rw [← m.length_text, take_eq_iff, m.length_text, m.text_eq]
  constructor
  · intro h
    exact ⟨h 0 (by decide), h 1 (by decide), h 2 (by decide), h 3 (by decide), h 4 (by decide),
      h 5 (by decide), h 6 (by decide), h 7 (by decide), h 8 (by decide), h 9 (by decide),
      h 10 (by decide), h 11 (by decide), h 12 (by decide), h 13 (by decide), h 14 (by decide),
      h 15 (by decide), h 16 (by decide), h 17 (by decide), h 18 (by decide)⟩
  · intro h i hi
    interval_cases i
    exacts [h.y0, h.y1, h.y2, h.y3, h.c4, h.m0, h.m1, h.c7, h.d0, h.d1, h.sep, h.h0, h.h1, h.c13, h.n0,
      h.n1, h.c16, h.s0, h.s1]

theorem parseHead_ok {str : Bytes} {rdn sod : Nat} : parseHead str = .ok (rdn, sod) ↔
    ∃ m : Moment, m.Valid ∧ str.take 19 = m.text ∧ rdn + 366 = m.date.number ∧ sod = m.sod := by
  unfold parseHead
  simp only [bind_ok, byte_ok, need_ok, pure_ok, within_ok, parse2d_ok, parse4d_ok, decide_eq_true_eq,
    Prod.mk.injEq]
  constructor
  · rintro ⟨_, h4, -, rfl, _, h7, -, rfl, _, h13, -, rfl, _, h16, -, rfl, sep, h10, -, hsep, y,
      ⟨hy, y0, y1, y2, y3⟩, -, hy1, mo, ⟨⟨-, m0, m1⟩, hm1, hm12⟩, d, ⟨⟨-, d0, d1⟩, hd1, -⟩, h,
      ⟨⟨-, hh0, hh1⟩, -, hh⟩, mi, ⟨⟨-, mi0, mi1⟩, -, hmi⟩, s, ⟨⟨-, s0, s1⟩, -, hs⟩, -, hd, rfl, rfl⟩
    have hval : Date.Valid ⟨y, mo, d⟩ := by
      refine ⟨hm1, hm12, hd1, ?_⟩
      have hpos := (Calendar.monthDays_pos (leap y) mo).1
      rw [monthDays_eq y hm1 hm12] at hd
      exact hd.elim (fun h => Nat.le_trans h hpos) id
    have hn := rdn_number hval hy1
    unfold marchYear at hn
    refine ⟨⟨⟨y, mo, d⟩, sep, h, mi, s⟩, ⟨hval, hy1, Nat.le_of_lt_succ hy, hsep, hh, hmi, hs⟩, ?_, hn, rfl⟩
    exact (shows_iff str ⟨⟨y, mo, d⟩, sep, h, mi, s⟩).mpr ⟨y0, y1, y2, y3, h4, m0, m1, h7, d0, d1, h10, hh0,
      hh1, h13, mi0, mi1, h16, s0, s1⟩
  · rintro ⟨m, hm, ht, hr, rfl⟩
    have hp := (shows_iff str m).mp ht
    have hd := hm.date.day_le
    have hle := Calendar.monthDays_pos (leap m.date.year) m.date.month
    have h1 := hm.date.month_pos
    have h12 := hm.date.month_le
    rw [← monthDays_eq m.date.year h1 h12] at hd hle
    have hn := rdn_number hm.date hm.year_pos
    have hy := hm.year_le
    have hh := hm.hour
    have hmi := hm.min
    have hs := hm.sec
    refine ⟨_, hp.c4, (), rfl, _, hp.c7, (), rfl, _, hp.c13, (), rfl, _, hp.c16, (), rfl, _, hp.sep, (),
      hm.sep, m.date.year, ⟨by omega, hp.y0, hp.y1, hp.y2, hp.y3⟩, (), hm.year_pos,
      m.date.month, ⟨⟨by omega, hp.m0, hp.m1⟩, h1, h12⟩, m.date.day,
      ⟨⟨by omega, hp.d0, hp.d1⟩, hm.date.day_pos, by omega⟩, m.hour,
      ⟨⟨by omega, hp.h0, hp.h1⟩, Nat.zero_le _, hh⟩, m.min,
      ⟨⟨by omega, hp.n0, hp.n1⟩, Nat.zero_le _, hmi⟩, m.sec,
      ⟨⟨by omega, hp.s0, hp.s1⟩, Nat.zero_le _, hs⟩, (), Or.inr hd, ?_, rfl⟩
    unfold marchYear at hn
    omega

/-! ## the fraction -/

theorem isDigit_sub {c : UInt8} : Numeral.isDigit c = true ↔ c - 48 ≤ 9 := by
  constructor
  · intro h
    obtain ⟨h1, h2⟩ := Numeral.isDigit_iff.mp h
    rw [UInt8.le_iff_toNat_le, UInt8.toNat_sub, show (48 : UInt8).toNat = 48 from rfl]
    show _ ≤ 9
    omega
  · intro h
    rw [(digit_of_sub h).2]
    exact Numeral.isDigit_digit (digit_of_sub h).1

theorem sub_toNat {c : UInt8} (h : Numeral.isDigit c = true) : (c - 48).toNat = c.toNat - 48 := by
  obtain ⟨h1, h2⟩ := Numeral.isDigit_iff.mp h
  rw [UInt8.toNat_sub, show (48 : UInt8).toNat = 48 from rfl]
  omega

/-- the rest of the text -/
def rest (str : Bytes) (fin cur : Nat) : Bytes := (str.take fin).drop cur

section
variable {str : Bytes} {fin cur : Nat}

theorem rest_add (a b : Nat) : rest str fin (a + b) = (rest str fin a).drop b := by
  unfold rest
  rw [List.drop_drop]

theorem rest_length (hf : fin ≤ str.length) : (rest str fin cur).length = fin - cur := by
  unfold rest
  rw [List.length_drop, List.length_take, Nat.min_eq_left hf]

theorem rest_cons (hc : cur < fin) {c : UInt8} (h : str[cur]? = some c) :
    rest str fin cur = c :: rest str fin (cur + 1) := by
  have hg : (str.take fin)[cur]? = some c := by rw [List.getElem?_take_of_lt hc, h]
  obtain ⟨hlen, -⟩ := List.getElem?_eq_some_iff.mp hg
  unfold rest
  rw [List.drop_eq_getElem_cons hlen]
  rw [List.getElem?_eq_getElem hlen] at hg
  rw [Option.some.inj hg]

theorem rest_head {c : UInt8} {l : Bytes} (h : rest str fin cur = c :: l) :
    cur < fin ∧ str[cur]? = some c := by
  have hg : (str.take fin)[cur]? = some c := by
    have h0 : (rest str fin cur)[0]? = some c := by rw [h]; rfl
    unfold rest at h0
    rwa [List.getElem?_drop, Nat.add_zero] at h0
  have hlt := (List.getElem?_eq_some_iff.mp hg).1
  rw [List.length_take] at hlt
  have hc : cur < fin := Nat.lt_of_lt_of_le hlt (Nat.min_le_left _ _)
  exact ⟨hc, by rw [← hg, List.getElem?_take_of_lt hc]⟩

theorem rest_nil (hf : fin ≤ str.length) (hc : fin ≤ cur) : rest str fin cur = [] :=
  List.eq_nil_of_length_eq_zero (by rw [rest_length hf]; omega)

/-- the bytes of the rest -/
theorem rest_eq_iff {l : Bytes} (hl : cur + l.length = fin) :
    rest str fin cur = l ↔ ∀ i < l.length, str[cur + i]? = l[i]? := by
  unfold rest
  rw [List.drop_take, show fin - cur = l.length by omega, take_eq_iff]
  simp only [List.getElem?_drop]

/-- the value of digits behind others -/
def valueFrom (v : Nat) (ds : Bytes) : Nat := ds.foldl (fun n c => 10 * n + (c.toNat - 48)) v

theorem valueFrom_mod (m v : Nat) (ds : Bytes) : valueFrom (v % m) ds % m = valueFrom v ds % m := by
  induction ds generalizing v with
  | nil => exact Nat.mod_mod _ _
  | cons c ds ih =>
    show valueFrom (10 * (v % m) + (c.toNat - 48)) ds % m = valueFrom (10 * v + (c.toNat - 48)) ds % m
    rw [← ih, ← ih (10 * v + _), Nat.add_mod, Nat.mul_mod_mod, ← Nat.add_mod]

theorem digitsLoop_eq (hf : fin ≤ str.length) (n v : Nat) (h : cur + n = fin) (hv : v < 2 ^ 32) :
    digitsLoop str n cur v = .ok (cur + ((rest str fin cur).takeWhile Numeral.isDigit).length,
      valueFrom v ((rest str fin cur).takeWhile Numeral.isDigit) % 2 ^ 32) := by
  induction n generalizing cur v with
  | zero =>
    rw [rest_nil hf (by omega)]
    show Except.ok (cur, v) = .ok (cur, v % 2 ^ 32)
    rw [Nat.mod_eq_of_lt hv]
  | succ n ih =>
    obtain ⟨c, hc⟩ : ∃ c, str[cur]? = some c := ⟨_, List.getElem?_eq_getElem (by omega)⟩
    rw [rest_cons (by omega) hc]
    unfold digitsLoop
    rw [byte_ok.mpr hc]
    show (if c - 48 > 9 then _ else _) = _
    by_cases hd : Numeral.isDigit c = true
    · have h9 := isDigit_sub.mp hd
      rw [if_neg (UInt8.not_lt.mpr h9), List.takeWhile_cons_of_pos hd, List.length_cons, ← Nat.add_assoc,
        Nat.add_right_comm]
      refine (ih ((v * 10 + (c - 48).toNat) % 2 ^ 32) (show cur + 1 + n = fin by omega)
        (Nat.mod_lt _ (by decide))).trans ?_
      rw [valueFrom_mod, sub_toNat hd, Nat.mul_comm v 10]
      rfl
    · have h9 : c - 48 > 9 := UInt8.not_le.mp fun hc => hd (isDigit_sub.mpr hc)
      rw [if_pos h9, List.takeWhile_cons_of_neg hd]
      show Except.ok (cur, v) = .ok (cur, v % 2 ^ 32)
      rw [Nat.mod_eq_of_lt hv]

theorem valueFrom_lt {v : Nat} (ds : Bytes) (h : ∀ c ∈ ds, Numeral.isDigit c = true) :
    valueFrom v ds < (v + 1) * 10 ^ ds.length := by
  induction ds generalizing v with
  | nil =>
    show v < (v + 1) * 10 ^ 0
    omega
  | cons c ds ih =>
    obtain ⟨h1, h2⟩ := Numeral.isDigit_iff.mp (h c List.mem_cons_self)
    have hlt := ih (v := 10 * v + (c.toNat - 48)) fun x hx => h x (List.mem_cons_of_mem _ hx)
    have hle : (10 * v + (c.toNat - 48) + 1) * 10 ^ ds.length ≤ (v + 1) * 10 * 10 ^ ds.length :=
      Nat.mul_le_mul_right _ (by omega)
    rw [List.length_cons, Nat.pow_succ, Nat.mul_comm (10 ^ _) 10, ← Nat.mul_assoc]
    exact Nat.lt_of_lt_of_le hlt hle

/-- digits in front of a byte that is none -/
theorem takeWhile_digits {ds l : Bytes} {c : UInt8} (h : ∀ x ∈ ds, Numeral.isDigit x = true)
    (hc : Numeral.isDigit c = false) : (ds ++ c :: l).takeWhile Numeral.isDigit = ds := by
  rw [List.takeWhile_append_of_pos h, List.takeWhile_cons_of_neg (by rw [hc]; exact Bool.false_ne_true),
    List.append_nil]

theorem parseFraction_ok (h20 : 20 ≤ fin) (hf : fin ≤ str.length) {nsec : Nat} {ch : UInt8} :
    parseFraction str fin = .ok (cur, nsec, ch) ↔ ∃ frac : Bytes, frac.length ≤ 9 ∧
      (∀ c ∈ frac, Numeral.isDigit c = true) ∧ nsec = Numeral.value frac * 10 ^ (9 - frac.length) ∧
      cur ≤ fin ∧ rest str fin 19 = Stamp.fracText frac ++ ch :: rest str fin cur ∧
      if frac = [] then ch ≠ 46 else Numeral.isDigit ch = false := by
  obtain ⟨c, hc⟩ : ∃ c, str[19]? = some c := ⟨_, List.getElem?_eq_getElem (by omega)⟩
  have hr := rest_cons (by omega : 19 < fin) hc
  have hk := digitsLoop_eq hf (fin - 20) 0 (show 20 + (fin - 20) = fin by omega) (by decide)
  unfold parseFraction
  rw [byte_ok.mpr hc, hr]
  show (if c = 46 then _ else _) = Except.ok (cur, nsec, ch) ↔ _
  by_cases h46 : c = 46
  · rw [if_pos h46, hk]
    simp only [bind_ok, need_ok, byte_ok, pure_ok, decide_eq_true_eq, Prod.mk.injEq, Except.ok.injEq]
    have hds : ∀ x ∈ (rest str fin 20).takeWhile Numeral.isDigit, Numeral.isDigit x = true :=
      fun x hx => List.mem_takeWhile_imp hx
    have hsplit := List.takeWhile_append_dropWhile (p := Numeral.isDigit) (l := rest str fin 20)
    have hdrop : (rest str fin 20).dropWhile Numeral.isDigit =
        rest str fin (20 + ((rest str fin 20).takeWhile Numeral.isDigit).length) := by
      rw [← Numeral.drop_takeWhile]
      unfold rest
      rw [List.drop_drop]
    generalize hw : (rest str fin 20).takeWhile Numeral.isDigit = ds at *
    have hlen : (rest str fin 20).length = fin - 20 := rest_length hf
    constructor
    · rintro ⟨_, rfl, -, ⟨h1, h9⟩, -, hne, x, hx, rfl, rfl, rfl⟩
      dsimp only at h1 h9 hne hx ⊢
      rw [Nat.add_sub_cancel_left] at h1 h9 ⊢
      rw [← hsplit, List.length_append] at hlen
      have hcur : 20 + ds.length < fin := by omega
      have hrest := rest_cons hcur hx
      have hne : ds ≠ [] := List.ne_nil_of_length_pos h1
      rw [hdrop, hrest] at hsplit
      refine ⟨ds, h9, hds, ?_, hcur, ?_, ?_⟩
      · have hlt := valueFrom_lt (v := 0) ds hds
        have hp : 10 ^ ds.length ≤ 10 ^ 9 := Nat.pow_le_pow_right (by decide) h9
        rw [Nat.mod_eq_of_lt (by omega)]
        rfl
      · unfold Stamp.fracText
        rw [if_neg hne, h46, ← hsplit]
        rfl
      · rw [if_neg hne, Bool.eq_false_iff]
        intro hd
        rw [← hsplit, List.takeWhile_append_of_pos hds, List.takeWhile_cons_of_pos hd] at hw
        have := congrArg List.length hw
        rw [List.length_append, List.length_cons] at this
        omega
    · rintro ⟨frac, h9, hd, rfl, hle, hrest, hch⟩
      unfold Stamp.fracText at hrest
      split at hrest
      · next hnil =>
        rw [if_pos hnil] at hch
        exact absurd ((List.cons.inj hrest).1.symm.trans h46) hch
      · next hne =>
        rw [if_neg hne] at hch
        have h20r : rest str fin 20 = frac ++ ch :: rest str fin cur := (List.cons.inj hrest).2
        rw [h20r, takeWhile_digits hd hch] at hw
        subst hw
        rw [h20r, List.length_append, List.length_cons, rest_length hf] at hlen
        have hpos := List.length_pos_of_ne_nil hne
        have hcr : rest str fin (20 + frac.length) = ch :: rest str fin cur := by
          rw [← hdrop]
          exact List.append_cancel_left (hsplit.trans h20r)
        obtain ⟨hlt, hx⟩ := rest_head hcr
        refine ⟨_, rfl, (), ?_, (), ?_, ch, hx, ?_, ?_, rfl⟩
        · show 1 ≤ 20 + frac.length - 20 ∧ 20 + frac.length - 20 ≤ 9
          omega
        · exact Nat.ne_of_lt hlt
        · show 20 + frac.length + 1 = cur
          omega
        · have hv := valueFrom_lt (v := 0) frac hd
          have hp : 10 ^ frac.length ≤ 10 ^ 9 := Nat.pow_le_pow_right (by decide) h9
          show valueFrom 0 frac % 2 ^ 32 * 10 ^ (9 - (20 + frac.length - 20)) = _
          rw [Nat.mod_eq_of_lt (by omega), Nat.add_sub_cancel_left]
          rfl
  · rw [if_neg h46]
    simp only [pure_ok, Prod.mk.injEq]
    constructor
    · rintro ⟨rfl, rfl, rfl⟩
      exact ⟨[], Nat.zero_le _, fun _ h => absurd h List.not_mem_nil, rfl, h20, rfl, h46⟩
    · rintro ⟨frac, h9, hd, rfl, hle, hrest, hch⟩
      unfold Stamp.fracText at hrest
      split at hrest
      · next hnil =>
        subst hnil
        have hl := congrArg List.length (List.cons.inj hrest).2
        rw [rest_length hf, rest_length hf] at hl
        exact ⟨by omega, rfl, (List.cons.inj hrest).1⟩
      · exact absurd (List.cons.inj hrest).1 h46

/-! ## the zone -/

theorem parseOffset_ok (hf : fin ≤ str.length) (hle : cur ≤ fin) {ch : UInt8} {offset : Int} :
    parseOffset str fin cur ch = .ok offset ↔
      ∃ z : Zone, z.Valid ∧ ch :: rest str fin cur = z.text ∧ offset = z.minutes := by
  have hlen : (rest str fin cur).length = fin - cur := rest_length hf
  unfold parseOffset
  by_cases hz : ch = 90 ∨ ch = 122
  · rw [if_pos hz]
    simp only [bind_ok, need_ok, pure_ok, decide_eq_true_eq]
    constructor
    · rintro ⟨-, rfl, rfl⟩
      exact ⟨.utc ch, hz, by rw [rest_nil hf (le_refl _)]; rfl, rfl⟩
    · rintro ⟨z, hv, ht, rfl⟩
      cases z with
      | utc c =>
        rw [(List.cons.inj ht).2] at hlen
        exact ⟨(), by rw [List.length_nil] at hlen; omega, rfl⟩
      | offset minus hour min =>
        have hc := (List.cons.inj ht).1
        split at hc
        · rw [hc] at hz
          exact absurd hz (by decide)
        · rw [hc] at hz
          exact absurd hz (by decide)
  · rw [if_neg hz]
    simp only [bind_ok, byte_ok, need_ok, pure_ok, within_ok, parse2d_ok, decide_eq_true_eq]
    constructor
    · rintro ⟨-, -, -, hsign, x, hx, -, rfl, hour, ⟨⟨-, h0, h1⟩, -, hh⟩, min, ⟨⟨-, m0, m1⟩, -, hm⟩, -,
        rfl, rfl⟩
      have hr : rest str (cur + 5) cur = twoDigits hour ++ [58] ++ twoDigits min := by
        have h5 : cur + (twoDigits hour ++ [58] ++ twoDigits min).length = cur + 5 := rfl
        refine (rest_eq_iff h5).mpr fun i hi => ?_
        have hi' : i < 5 := hi
        interval_cases i
        exacts [h0, h1, hx, m0, m1]
      refine ⟨.offset (ch = 45) hour min, ⟨hh, hm⟩, ?_, ?_⟩
      · rw [hr]
        rcases hsign with rfl | rfl
        · rfl
        · rfl
      · unfold Zone.minutes
        simp only [decide_eq_true_eq]
    · rintro ⟨z, hv, ht, rfl⟩
      cases z with
      | utc c => exact absurd hv ((List.cons.inj ht).1 ▸ hz)
      | offset minus hour min =>
        obtain ⟨hc, hr⟩ := List.cons.inj ht
        obtain ⟨hh, hm⟩ := hv
        rw [hr] at hlen
        have hfin : cur + 5 = fin := by
          have h5 : 5 = fin - cur := hlen
          omega
        have hp : ∀ i < 5, str[cur + i]? = (twoDigits hour ++ [58] ++ twoDigits min)[i]? :=
          (rest_eq_iff (l := twoDigits hour ++ [58] ++ twoDigits min) hfin).mp hr
        refine ⟨(), by omega, (), ?_, 58, hp 2 (by decide), (), rfl, hour,
          ⟨⟨by omega, hp 0 (by decide), hp 1 (by decide)⟩, Nat.zero_le _, hh⟩, min,
          ⟨⟨by omega, hp 3 (by decide), hp 4 (by decide)⟩, Nat.zero_le _, hm⟩, (), hfin, ?_⟩
        · rw [hc]
          cases minus
          · exact Or.inl rfl
          · exact Or.inr rfl
        · rw [hc]
          cases minus
          · rfl
          · rfl

end

/-! ## texts -/

/-- the byte that a zone begins with -/
theorem Zone.text_cons (z : Zone) (h : z.Valid) : ∃ c l, z.text = c :: l ∧ c ≠ 46 ∧ Numeral.isDigit c = false := by
  cases z with
  | utc c =>
    rcases h with rfl | rfl
    · exact ⟨_, _, rfl, by decide, by decide⟩
    · exact ⟨_, _, rfl, by decide, by decide⟩
  | offset minus hour min =>
    cases minus
    · exact ⟨43, _, rfl, by decide, by decide⟩
    · exact ⟨45, _, rfl, by decide, by decide⟩

/-- what is read before the zone, which begins with `ch` -/
theorem read_before {str : Bytes} {len : Nat} (hlen : len ≤ str.length) {m : Moment} (hm : m.Valid)
    {frac : Bytes} (h9 : frac.length ≤ 9) (hdig : ∀ c ∈ frac, Numeral.isDigit c = true) {ch : UInt8}
    {l : Bytes} (h46 : ch ≠ 46) (hd : Numeral.isDigit ch = false)
    (ht : str.take len = m.text ++ (Stamp.fracText frac ++ ch :: l)) :
    ∃ cur, 20 ≤ len ∧ cur ≤ len ∧ parseHead str = .ok (m.date.number - 366, m.sod) ∧
      parseFraction str len = .ok (cur, Numeral.value frac * 10 ^ (9 - frac.length), ch) ∧
      rest str len cur = l := by
  have hl := congrArg List.length ht
  rw [List.length_take, Nat.min_eq_left hlen, List.length_append, m.length_text, List.length_append,
    List.length_cons] at hl
  have h19 : str.take 19 = m.text := by
    rw [show 19 = min 19 len by omega, ← List.take_take, ht, ← m.length_text, List.take_left]
  have hrest : rest str len 19 = Stamp.fracText frac ++ ch :: l := by
    unfold rest
    rw [ht, ← m.length_text, List.drop_left]
  have hcur : rest str len (19 + (Stamp.fracText frac).length + 1) = l := by
    rw [Nat.add_assoc, rest_add, hrest, ← List.drop_drop, List.drop_left]
    rfl
  have h366 : 366 ≤ m.date.number := by
    rw [← rdn_number hm.date hm.year_pos]
    exact Nat.le_add_left _ _
  refine ⟨19 + (Stamp.fracText frac).length + 1, by omega, by omega,
    parseHead_ok.mpr ⟨m, hm, h19, Nat.sub_add_cancel h366, rfl⟩,
    (parseFraction_ok (by omega) hlen).mpr
      ⟨frac, h9, hdig, rfl, by omega, by rw [hcur]; exact hrest, ?_⟩, hcur⟩
  split
  · exact h46
  · exact hd

theorem parse_iff {str : Bytes} {len : Nat} (hlen : len ≤ str.length) (t : Timestamp) :
    timestampParse str len = .ok t ↔ ∃ s : Stamp, s.Valid ∧ str.take len = s.text ∧ t = s.timestamp := by
  unfold timestampParse
  simp only [bind_ok, need_ok, pure_ok, decide_eq_true_eq, Prod.exists]
  constructor
  · rintro ⟨-, h20, rdn, sod, hh, cur, nsec, ch, hf, offset, ho, rfl⟩
    obtain ⟨m, hm, ht, hr, rfl⟩ := parseHead_ok.mp hh
    obtain ⟨frac, h9, hd, rfl, hle, hrest, -⟩ := (parseFraction_ok h20 hlen).mp hf
    obtain ⟨z, hz, hzt, rfl⟩ := (parseOffset_ok hlen hle).mp ho
    refine ⟨⟨m, frac, z⟩, ⟨hm, hd, h9, hz⟩, ?_, ?_⟩
    · have hs := List.take_append_drop 19 (str.take len)
      rw [List.take_take, Nat.min_eq_left (by omega), ht] at hs
      rw [← hs]
      show m.text ++ rest str len 19 = m.text ++ Stamp.fracText frac ++ z.text
      rw [hrest, hzt, List.append_assoc]
    · unfold Stamp.timestamp
      rw [← hr]
      simp
  · rintro ⟨s, hs, ht, rfl⟩
    obtain ⟨ch, l, hz, h46, hd⟩ := s.zone.text_cons hs.zone
    have htext : str.take len = s.moment.text ++ (Stamp.fracText s.frac ++ ch :: l) := by
      rw [ht, ← hz, ← List.append_assoc]
      rfl
    obtain ⟨cur, h20, hle, hh, hf, hrest⟩ := read_before hlen hs.moment hs.length hs.digits h46 hd htext
    have h366 : 366 ≤ s.moment.date.number := by
      rw [← rdn_number hs.moment.date hs.moment.year_pos]
      exact Nat.le_add_left _ _
    refine ⟨(), h20, _, _, hh, cur, _, ch, hf, s.zone.minutes,
      (parseOffset_ok hlen hle).mpr ⟨s.zone, hs.zone, by rw [hrest, hz], rfl⟩, ?_⟩
    unfold Stamp.timestamp
    rw [Int.ofNat_sub h366]
    rfl

/-- 2013-12-31T23:59:59.5+01:30 -/
def exampleText : Bytes :=
  [50, 48, 49, 51, 45, 49, 50, 45, 51, 49, 84, 50, 51, 58, 53, 57, 58, 53, 57, 46, 53, 43, 48, 49, 58, 51, 48]

theorem parse_iff_example : ∃ s : Stamp, s.Valid ∧ exampleText.take 27 = s.text ∧
    (⟨1388528999, 500000000, 90⟩ : Timestamp) = s.timestamp :=
  (parse_iff (show 27 ≤ exampleText.length by decide) _).mp (by decide +kernel)

end Time
