import Iotivity.Lib.Calendar
import Iotivity.Lib.Numeral
import Mathlib.Algebra.Group.Nat.Defs

/-!
# Time stamps: `c-timestamp`

A time stamp is a number of seconds since 1970, nanoseconds and an offset from UTC in minutes.  The
texts are those of RFC 3339.  Day numbers count from the first day of the year 1; the values of the
algorithm for them stay below the bounds of their types.

`timestamp_parse` gets a pointer and a length.  A byte behind the memory that it has been given is not
a byte, and reading it is told apart from a text that is not accepted.
-/

namespace Time

abbrev Bytes := List UInt8

/-- `timestamp_t` -/
structure Timestamp where
  sec : Int
  nsec : Int
  offset : Int
deriving DecidableEq

/-- 0001-01-01T00:00:00 and 9999-12-31T23:59:59 -/
def minSec : Int := -62135596800
def maxSec : Int := 253402300799

/-- `timestamp_valid` -/
def timestampValid (t : Timestamp) : Bool :=
  let sec := t.sec + t.offset * 60
  ¬ (sec < minSec ∨ sec > maxSec ∨ t.nsec < 0 ∨ t.nsec > 999999999 ∨ t.offset < -1439 ∨ t.offset > 1439)

/-- `timestamp_compare` -/
def timestampCompare (t₁ t₂ : Timestamp) : Int :=
  if t₁.sec < t₂.sec then -1
  else if t₁.sec > t₂.sec then 1
  else if t₁.nsec < t₂.nsec then -1
  else if t₁.nsec > t₂.nsec then 1
  else 0

/-! ## days -/

/-- `DayOffset`: the days from March on -/
def dayOffset (m : Nat) : Nat := [0, 306, 337, 0, 31, 61, 92, 122, 153, 184, 214, 245, 275].getD m 0

/-- the variables `y`, and `d` or `C`, of the algorithm: a year and a day, both from March on -/
def rataDie (rdn : Nat) : Nat × Nat :=
  let z := rdn + 306
  let h := 100 * z - 25
  let a := h / 3652425
  let b := a - (a >>> 2)
  let y := (100 * b + h) / 36525
  (y, b + z - ((1461 * y) >>> 2))

/-- `rdn_to_ymd` -/
def rdnToYmd (rdn : Nat) : Calendar.Date :=
  let (y, d) := rataDie rdn
  let m := (535 * d + 48950) >>> 14
  if m > 12 then ⟨y + 1, m - 12, d - dayOffset (m - 12)⟩ else ⟨y, m, d - dayOffset m⟩

/-- `struct tm` -/
structure Tm where
  tmSec : Nat
  tmMin : Nat
  tmHour : Nat
  tmMday : Nat
  tmMon : Nat
  tmYear : Int
  tmWday : Nat
  tmYday : Nat
deriving DecidableEq

/-- `leap_year` -/
def leapYear (y : Nat) : Bool := (y &&& 3) = 0 ∧ (y % 100 ≠ 0 ∨ y % 400 = 0)

/-- the fields for a year, a day of it and a month `m`, all counted from March on, and the seconds of the
day, which the caller fills in -/
def structTmOf (rdn sod y c m : Nat) : Tm :=
  let (d, y, m) := if m > 12 then (c - 306, y + 1, m - 12) else (c + 59 + (leapYear y).toNat, y, m)
  { tmSec := sod % 60
    tmMin := sod / 60 % 60
    tmHour := sod / 60 / 60
    tmMday := c - dayOffset m
    tmMon := m - 1
    tmYear := (y : Int) - 1900
    tmWday := rdn % 7
    tmYday := d - 1 }

/-- `rdn_to_struct_tm` -/
def rdnToStructTm (rdn sod : Nat) : Tm :=
  let (y, c) := rataDie rdn
  structTmOf rdn sod y c ((535 * c + 48950) >>> 14)

/-- `RDN_OFFSET` and `EPOCH` -/
def epoch : Int := 62135683200

/-- `timestamp_to_tm` -/
def timestampToTm (t : Timestamp) (isLocal : Bool) : Option Tm :=
  if timestampValid t then
    let sec := (t.sec + epoch + if isLocal then t.offset * 60 else 0).toNat
    some (rdnToStructTm (sec / 86400) (sec % 86400))
  else none

def timestampToTmLocal (t : Timestamp) : Option Tm := timestampToTm t true

def timestampToTmUtc (t : Timestamp) : Option Tm := timestampToTm t false

/-! ## `timestamp_format` -/

/-- `'0' + (v % 10)` -/
def lastDigit (v : Nat) : UInt8 := Numeral.digit (v % 10)

/-- two digits, of which the first is taken modulo `base` -/
def clockDigits (v base : Nat) : Bytes := [Numeral.digit (v / 10 % base), lastDigit v]

/-- `YYYY-MM-DD` -/
def dateText (d : Calendar.Date) : Bytes :=
  [lastDigit (d.year / 10 / 10 / 10), lastDigit (d.year / 10 / 10), lastDigit (d.year / 10),
    lastDigit d.year, 45, lastDigit (d.month / 10), lastDigit d.month, 45, lastDigit (d.day / 10),
    lastDigit d.day]

/-- `hh:mm:ss` -/
def timeText (v : Nat) : Bytes :=
  clockDigits (v / 10 / 6 / 10 / 6) 10 ++ [58] ++ clockDigits (v / 10 / 6) 6 ++ [58] ++ clockDigits v 6

/-- the digits of a fraction, the last one first -/
def fractionDigits : Nat → Nat → Bytes
  | 0, _ => []
  | k + 1, v => fractionDigits k (v / 10) ++ [lastDigit v]

def fractionText (nsec : Int) (precision : Nat) : Bytes :=
  if precision = 0 then [] else 46 :: fractionDigits precision (nsec.toNat / 10 ^ (9 - precision))

/-- `Z`, or a sign and `hh:mm` -/
def offsetText (offset : Int) : Bytes :=
  if offset = 0 then [90]
  else
    let v := offset.natAbs
    (if offset < 0 then 45 else 43) :: (clockDigits (v / 10 / 6) 10 ++ [58] ++ clockDigits v 6)

/-- `dlen` -/
def formatLength (t : Timestamp) (precision : Nat) : Nat :=
  20 + (if t.offset = 0 then 0 else 5) + if precision = 0 then 0 else 1 + precision

/-- `timestamp_format_internal`: what it writes, or nothing; `len` bytes are there -/
def timestampFormatInternal (len : Nat) (t : Timestamp) (precision : Nat) : Option Bytes :=
  if formatLength t precision ≥ len then none
  else
    let sec := (t.sec + t.offset * 60 + epoch).toNat
    some (dateText (rdnToYmd (sec / 86400)) ++ [84] ++ timeText (sec % 86400) ++
      fractionText t.nsec precision ++ offsetText t.offset ++ [0])

/-- the precision that `timestamp_format` chooses -/
def autoPrecision (nsec : Int) : Nat :=
  if nsec = 0 then 0 else if nsec % 1000000 = 0 then 3 else if nsec % 1000 = 0 then 6 else 9

/-- `timestamp_format` -/
def timestampFormat (len : Nat) (t : Timestamp) : Option Bytes :=
  if timestampValid t then timestampFormatInternal len t (autoPrecision t.nsec) else none

/-- `timestamp_format_precision` -/
def timestampFormatPrecision (len : Nat) (t : Timestamp) (precision : Int) : Option Bytes :=
  if ¬ timestampValid t ∨ precision < 0 ∨ precision > 9 then none
  else timestampFormatInternal len t precision.toNat

/-! ## `timestamp_parse` -/

/-- what ends a reading: a byte that is not there, or a text that is not accepted -/
inductive Trouble where
  | outside | bad
deriving DecidableEq

abbrev Reading := Except Trouble

def byte (str : Bytes) (i : Nat) : Reading UInt8 :=
  match str[i]? with
  | some c => .ok c
  | none => .error .outside

def need (p : Bool) : Reading Unit := if p then .ok () else .error .bad

/-- `(d = p[i] - '0') > 9` -/
def digitAt (str : Bytes) (i : Nat) : Reading Nat := do
  let c ← byte str i
  need (c - 48 ≤ 9)
  return (c - 48).toNat

/-- `parse_2d` -/
def parse2d (str : Bytes) (i : Nat) : Reading Nat := do
  let d0 ← digitAt str i
  let d1 ← digitAt str (i + 1)
  return d0 * 10 + d1

/-- `parse_4d` -/
def parse4d (str : Bytes) (i : Nat) : Reading Nat := do
  let d0 ← digitAt str i
  let d1 ← digitAt str (i + 1)
  let d2 ← digitAt str (i + 2)
  let d3 ← digitAt str (i + 3)
  return d0 * 1000 + d1 * 100 + d2 * 10 + d3

/-- `month_days` -/
def monthDays (y m : Nat) : Nat :=
  if m = 2 ∧ leapYear y then [0, 31, 29, 31, 30, 31, 30, 31, 31, 30, 31, 30, 31].getD m 0
  else [0, 31, 28, 31, 30, 31, 30, 31, 31, 30, 31, 30, 31].getD m 0

/-- a number that is read, within bounds -/
def within (lo hi : Nat) (r : Reading Nat) : Reading Nat := do
  let n ← r
  need (lo ≤ n ∧ n ≤ hi)
  return n

/-- the first nineteen bytes: the day number and the second of the day -/
def parseHead (str : Bytes) : Reading (Nat × Nat) := do
  need ((← byte str 4) = 45)
  need ((← byte str 7) = 45)
  need ((← byte str 13) = 58)
  need ((← byte str 16) = 58)
  let ch ← byte str 10
  need (ch = 84 ∨ ch = 32 ∨ ch = 116)
  let year ← parse4d str 0
  need (1 ≤ year)
  let month ← within 1 12 (parse2d str 5)
  let day ← within 1 31 (parse2d str 8)
  let hour ← within 0 23 (parse2d str 11)
  let min ← within 0 59 (parse2d str 14)
  let sec ← within 0 59 (parse2d str 17)
  need (day ≤ 28 ∨ day ≤ monthDays year month)
  let y := if month < 3 then year - 1 else year
  return (1461 * y / 4 - y / 100 + y / 400 + dayOffset month + day - 306, hour * 3600 + min * 60 + sec)

/-- the loop over the digits of a fraction, with `n` bytes left -/
def digitsLoop (str : Bytes) : Nat → Nat → Nat → Reading (Nat × Nat)
  | 0, cur, nsec => .ok (cur, nsec)
  | n + 1, cur, nsec => do
    let c ← byte str cur
    if c - 48 > 9 then return (cur, nsec)
    digitsLoop str n (cur + 1) ((nsec * 10 + (c - 48).toNat) % 2 ^ 32)

/-- the fraction, if there is one, and the byte behind it: where the rest begins, the nanoseconds and
the byte -/
def parseFraction (str : Bytes) (fin : Nat) : Reading (Nat × Nat × UInt8) := do
  let ch ← byte str 19
  if ch = 46 then
    let (cur, nsec) ← digitsLoop str (fin - 20) 20 0
    need (1 ≤ cur - 20 ∧ cur - 20 ≤ 9)
    need (cur ≠ fin)
    let ch ← byte str cur
    return (cur + 1, nsec * 10 ^ (9 - (cur - 20)), ch)
  else return (20, 0, ch)

/-- the offset that follows the byte `ch` -/
def parseOffset (str : Bytes) (fin cur : Nat) (ch : UInt8) : Reading Int := do
  if ch = 90 ∨ ch = 122 then
    need (cur = fin)
    return 0
  need (¬ cur + 5 < fin)
  need (ch = 43 ∨ ch = 45)
  need ((← byte str (cur + 2)) = 58)
  let hour ← within 0 23 (parse2d str cur)
  let min ← within 0 59 (parse2d str (cur + 3))
  need (cur + 5 = fin)
  return if ch = 45 then -(hour * 60 + min : Nat) else (hour * 60 + min : Nat)

/-- `timestamp_parse` -/
def timestampParse (str : Bytes) (len : Nat) : Reading Timestamp := do
  need (20 ≤ len)
  let (rdn, sod) ← parseHead str
  let (cur, nsec, ch) ← parseFraction str len
  let offset ← parseOffset str len cur ch
  return ⟨((rdn : Int) - 719163) * 86400 + sod - offset * 60, nsec, offset⟩

end Time
