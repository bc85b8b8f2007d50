import Mathlib.Data.Nat.Find
import Mathlib.Data.List.DropRight
import Mathlib.Tactic.Ring
import Kavora.Lib.Go

/-!
# Dates and the text of a time

The times of the gateway are in UTC.

* `Time.date`: the year, the month and the day of a day number, which `dayNumber` inverts.
* `Time.dateText`: `Format("2006-01-02")`; the texts of four-digit years are ordered like the days.
* `Time.marshalText`, `Time.unmarshalText`: the RFC 3339 text of a time with nanoseconds, as
  `encoding/json` writes and reads it.
-/

namespace Kavora.Lib.Go.Time

/-! ## The calendar -/

/-- The year is a leap year. -/
def isLeap (year : Int) : Bool := year % 4 = 0 && (year % 100 ≠ 0 || year % 400 = 0)

/-- The days of an era of 400 years before one of its years. -/
def daysBeforeYear (year : Nat) : Nat :=
  365 * year + (year + 3) / 4 - (year + 99) / 100 + (year + 399) / 400

/-- The days of a year before one of its months, counted from zero. -/
def daysBeforeMonth (leap : Bool) (month : Nat) : Nat :=
  [0, 31, 59, 90, 120, 151, 181, 212, 243, 273, 304, 334, 365].getD month 0 +
    if leap && 2 ≤ month then 1 else 0

/-- The day of a time, counted from the first of January of year 0. -/
def day (t : Time) : Int := t / 86400000000000 + 719528

/-- A day of the calendar; months and days count from 1. -/
structure Date where
  year : Int
  month : Nat
  day : Nat
  deriving DecidableEq, Repr

/-- The date of a day, as `day` counts it. -/
def date (day : Int) : Date :=
  let ofEra := (day % 146097).toNat
  let yearOfEra := Nat.findGreatest (fun year => daysBeforeYear year ≤ ofEra) 399
  let year := 400 * (day / 146097) + yearOfEra
  let ofYear := ofEra - daysBeforeYear yearOfEra
  let month := Nat.findGreatest (fun month => daysBeforeMonth (isLeap year) month ≤ ofYear) 11
  { year, month := month + 1, day := ofYear - daysBeforeMonth (isLeap year) month + 1 }

/-- The day of a date, counted the same way. -/
def dayNumber (date : Date) : Int :=
  146097 * (date.year / 400) + daysBeforeYear (date.year % 400).toNat +
    daysBeforeMonth (isLeap date.year) (date.month - 1) + (date.day - 1 : Nat)

/-- `daysIn`. -/
def daysIn (year : Int) (month : Nat) : Nat :=
  daysBeforeMonth (isLeap year) month - daysBeforeMonth (isLeap year) (month - 1)

/-! ## Texts -/

/-- The character of a digit. -/
def digitChar (n : Nat) : Char := Char.ofNat (48 + n)

/-- The last `width` digits of a number. -/
def pad : Nat → Nat → List Char
  | 0, _ => []
  | width + 1, n => digitChar (n / 10 ^ width % 10) :: pad width n

/-- `appendInt` with a width of four. -/
def yearText (year : Int) : List Char :=
  let abs := year.natAbs
  let digits := if abs < 10000 then pad 4 abs else (toString abs).toList
  if year < 0 then '-' :: digits else digits

/-- `Format("2006-01-02")`. -/
def dateText (t : Time) : List Char :=
  let date := date (day t)
  yearText date.year ++ '-' :: (pad 2 date.month ++ '-' :: pad 2 date.day)

/-- The nanoseconds of a second without the zeros at their end. -/
def fractionText (nanos : Nat) : List Char :=
  if nanos = 0 then [] else '.' :: (pad 9 nanos).rdropWhile (· = '0')

/-- `MarshalJSON`, without the quotes; it fails outside of the years 0 to 9999. -/
def marshalText (t : Time) : Option (List Char) :=
  if 0 ≤ day t ∧ day t < 3652425 then
    let nanos := (t % 1000000000).toNat
    let seconds := (t / 1000000000 % 86400).toNat
    some (dateText t ++ 'T' :: (pad 2 (seconds / 3600) ++ ':' :: (pad 2 (seconds / 60 % 60) ++
      ':' :: (pad 2 (seconds % 60) ++ (fractionText nanos ++ ['Z'])))))
  else none

/-- The number of some digits. -/
def ofDigits (digits : List Char) : Nat := digits.foldl (fun n c => 10 * n + (c.toNat - 48)) 0

/-- A number of `width` digits and the text after it. -/
def readDigits (width : Nat) (text : List Char) : Option (Nat × List Char) :=
  if (text.take width).length = width ∧ (text.take width).all Char.isDigit then
    some (ofDigits (text.take width), text.drop width)
  else none

/-- A text that goes on with `c`. -/
def expect (c : Char) : List Char → Option (List Char)
  | c' :: rest => if c' = c then some rest else none
  | [] => none

/-- The nanoseconds after the seconds. -/
def readFraction : List Char → Option (Nat × List Char)
  | '.' :: rest =>
    let digits := rest.takeWhile Char.isDigit
    if digits = [] then none
    else some (ofDigits ((digits ++ List.replicate 9 '0').take 9), rest.dropWhile Char.isDigit)
  | rest => some (0, rest)

/-- The seconds east of UTC. -/
def readOffset : List Char → Option Int
  | ['Z'] => some 0
  | c :: rest => do
    let sign : Int ← if c = '+' then some 1 else if c = '-' then some (-1) else none
    let (hours, rest) ← readDigits 2 rest
    let rest ← expect ':' rest
    let (minutes, rest) ← readDigits 2 rest
    if hours < 24 ∧ minutes < 60 ∧ rest = [] then some (sign * (hours * 3600 + minutes * 60))
    else none
  | [] => none

/-- `UnmarshalJSON`, without the quotes. -/
def unmarshalText (text : List Char) : Option Time := do
  let (year, rest) ← readDigits 4 text
  let rest ← expect '-' rest
  let (month, rest) ← readDigits 2 rest
  let rest ← expect '-' rest
  let (day, rest) ← readDigits 2 rest
  let rest ← expect 'T' rest
  let (hour, rest) ← readDigits 2 rest
  let rest ← expect ':' rest
  let (minute, rest) ← readDigits 2 rest
  let rest ← expect ':' rest
  let (second, rest) ← readDigits 2 rest
  let (nanos, rest) ← readFraction rest
  let offset ← readOffset rest
  if 1 ≤ month ∧ month ≤ 12 ∧ 1 ≤ day ∧ day ≤ daysIn year month ∧ hour < 24 ∧ minute < 60 ∧
      second < 60 then
    some (((dayNumber { year, month, day } - 719528) * 86400 +
      (hour * 3600 + minute * 60 + second - offset)) * 1000000000 + nanos)
  else none

/-! ## A day has one date -/

theorem succ_div (year n : Nat) (hn : 0 < n) :
    (year + 1 + (n - 1)) / n = (year + (n - 1)) / n + if year % n = 0 then 1 else 0 := by
  have heq : year + 1 + (n - 1) = year + (n - 1) + 1 := by omega
  rw [heq, Nat.succ_div]
  have hdvd : n ∣ year + (n - 1) + 1 ↔ year % n = 0 := by
    have hsum : year + (n - 1) + 1 = year + n := by omega
    rw [hsum, Nat.dvd_add_left (Nat.dvd_refl n), Nat.dvd_iff_mod_eq_zero]
  simp only [hdvd]

theorem daysBeforeYear_succ (year : Nat) :
    daysBeforeYear (year + 1) = daysBeforeYear year + if isLeap year then 366 else 365 := by
  have hleap : isLeap year = true ↔ year % 4 = 0 ∧ (year % 100 ≠ 0 ∨ year % 400 = 0) := by
    simp only [isLeap, Bool.and_eq_true, Bool.or_eq_true, decide_eq_true_eq]
    omega
  have h4 := succ_div year 4 (by decide)
  have h100 := succ_div year 100 (by decide)
  have h400 := succ_div year 400 (by decide)
  have hle : (year + 99) / 100 ≤ 365 * year + (year + 3) / 4 := by omega
  have hmod : year % 400 = 0 → year % 100 = 0 := by omega
  have hmod' : year % 100 = 0 → year % 4 = 0 := by omega
  simp only [Nat.reduceSub] at h4 h100 h400
  unfold daysBeforeYear
  rw [h4, h100, h400]
  generalize (year + 3) / 4 = a at *
  generalize (year + 99) / 100 = b at *
  generalize (year + 399) / 400 = c at *
  by_cases hl : isLeap year = true
  · rw [if_pos hl]
    obtain ⟨hfour, hor⟩ := hleap.mp hl
    rw [if_pos hfour]
    rcases hor with hhundred | hfourhundred
    · rw [if_neg hhundred, if_neg fun h => hhundred (hmod h)]
      omega
    · rw [if_pos hfourhundred, if_pos (hmod hfourhundred)]
      omega
  · rw [if_neg hl]
    by_cases hfour : year % 4 = 0
    · have hnot : ¬ (year % 100 ≠ 0 ∨ year % 400 = 0) := fun h => hl (hleap.mpr ⟨hfour, h⟩)
      have hhundred : year % 100 = 0 := by
        by_contra h
        exact hnot (.inl h)
      rw [if_pos hfour, if_pos hhundred, if_neg fun h => hnot (.inr h)]
      omega
    · rw [if_neg hfour, if_neg fun h => hfour (hmod' h), if_neg fun h => hfour (hmod' (hmod h))]
      omega

theorem isLeap_era (era : Int) (year : Nat) : isLeap (400 * era + year) = isLeap year := by
  have hiff : isLeap (400 * era + year) = true ↔ isLeap year = true := by
    simp only [isLeap, Bool.and_eq_true, Bool.or_eq_true, decide_eq_true_eq]
    omega
  exact Bool.eq_iff_iff.mpr hiff

/-- The parts of the date of a day. -/
structure IsDate (day : Int) (year : Nat) (month ofMonth : Nat) : Prop where
  year_lt : year < 400
  month_lt : month < 12
  date_eq : date day =
    { year := 400 * (day / 146097) + year, month := month + 1, day := ofMonth + 1 }
  day_eq : day = 146097 * (day / 146097) + daysBeforeYear year +
    daysBeforeMonth (isLeap year) month + ofMonth
  lt_month : daysBeforeMonth (isLeap year) month + ofMonth < daysBeforeMonth (isLeap year) (month + 1)

theorem isDate_date (day : Int) : ∃ year month ofMonth, IsDate day year month ofMonth := by
  obtain ⟨ofEra, hofEra⟩ : ∃ ofEra : Nat, (day % 146097).toNat = ofEra := ⟨_, rfl⟩
  obtain ⟨year, hyear⟩ : ∃ year, Nat.findGreatest (fun year => daysBeforeYear year ≤ ofEra) 399 = year :=
    ⟨_, rfl⟩
  have hyear_le : year ≤ 399 := hyear ▸ Nat.findGreatest_le 399
  have hyear_days : daysBeforeYear year ≤ ofEra := by
    rw [← hyear]
    exact Nat.findGreatest_spec (P := fun year => daysBeforeYear year ≤ ofEra) (Nat.zero_le 399)
      (Nat.zero_le ofEra)
  have hnext : ofEra < daysBeforeYear (year + 1) := by
    by_cases hlast : year = 399
    · have hera : daysBeforeYear (399 + 1) = 146097 := rfl
      rw [hlast, hera]
      omega
    · have hnot := Nat.findGreatest_is_greatest (P := fun year => daysBeforeYear year ≤ ofEra)
        (n := 399) (k := year + 1) (by omega) (by omega)
      omega
  obtain ⟨ofYear, hofYear⟩ : ∃ ofYear, ofEra - daysBeforeYear year = ofYear := ⟨_, rfl⟩
  obtain ⟨month, hmonth⟩ :
      ∃ month, Nat.findGreatest (fun month => daysBeforeMonth (isLeap year) month ≤ ofYear) 11 = month :=
    ⟨_, rfl⟩
  have hmonth_le : month ≤ 11 := hmonth ▸ Nat.findGreatest_le 11
  have hzero : daysBeforeMonth (isLeap year) 0 = 0 := by
    unfold daysBeforeMonth
    simp
  have hmonth_days : daysBeforeMonth (isLeap year) month ≤ ofYear := by
    rw [← hmonth]
    refine Nat.findGreatest_spec (P := fun month => daysBeforeMonth (isLeap year) month ≤ ofYear)
      (Nat.zero_le 11) ?_
    show daysBeforeMonth (isLeap year) 0 ≤ ofYear
    omega
  have hlt : ofYear < daysBeforeMonth (isLeap year) (month + 1) := by
    by_cases hlast : month = 11
    · have hlength : daysBeforeMonth (isLeap year) (11 + 1) = if isLeap year then 366 else 365 := by
        cases isLeap year <;> rfl
      rw [daysBeforeYear_succ] at hnext
      rw [hlast, hlength]
      omega
    · have hnot := Nat.findGreatest_is_greatest
        (P := fun month => daysBeforeMonth (isLeap year) month ≤ ofYear) (n := 11) (k := month + 1)
        (by omega) (by omega)
      omega
  refine ⟨year, month, ofYear - daysBeforeMonth (isLeap year) month, by omega, by omega, ?_, ?_, ?_⟩
  · simp only [date, hofEra, hyear, hofYear, isLeap_era, hmonth]
  · omega
  · omega

/-- The date of a day determines the day. -/
theorem dayNumber_date (day : Int) : dayNumber (date day) = day := by
  obtain ⟨year, month, ofMonth, h⟩ := isDate_date day
  have hyear := h.year_lt
  have hday := h.day_eq
  have hera : (400 * (day / 146097) + (year : Int)) / 400 = day / 146097 := by omega
  have hof : ((400 * (day / 146097) + (year : Int)) % 400).toNat = year := by omega
  rw [h.date_eq]
  simp only [dayNumber, hera, hof, isLeap_era, Nat.add_sub_cancel]
  omega

/-! ## Digits are read back -/

theorem digitChar_spec {n : Nat} (h : n < 10) :
    (digitChar n).isDigit = true ∧ (digitChar n).toNat = 48 + n := by
  have hall : ∀ n < 10, (digitChar n).isDigit = true ∧ (digitChar n).toNat = 48 + n := by decide
  exact hall n h

theorem pad_length (width n : Nat) : (pad width n).length = width := by
  induction width with
  | zero => rfl
  | succ width ih => rw [pad, List.length_cons, ih]

theorem pad_isDigit (width n : Nat) : ∀ c ∈ pad width n, c.isDigit = true := by
  induction width with
  | zero => nofun
  | succ width ih =>
    exact List.forall_mem_cons.mpr ⟨(digitChar_spec (Nat.mod_lt _ (by decide))).1, ih⟩

theorem foldl_digits_pad (width n start : Nat) :
    (pad width n).foldl (fun n c => 10 * n + (c.toNat - 48)) start =
      start * 10 ^ width + n % 10 ^ width := by
  induction width generalizing start with
  | zero => simp [pad, Nat.mod_one]
  | succ width ih =>
    have hdigit := (digitChar_spec (Nat.mod_lt (n / 10 ^ width) (show 0 < 10 by decide))).2
    have hmod : n % 10 ^ (width + 1) = n % 10 ^ width + 10 ^ width * (n / 10 ^ width % 10) := by
      rw [pow_succ, Nat.mod_mul]
    rw [pad, List.foldl_cons, ih, hdigit, hmod, Nat.add_sub_cancel_left, pow_succ]
    ring

theorem ofDigits_pad (width n : Nat) : ofDigits (pad width n) = n % 10 ^ width := by
  unfold ofDigits
  rw [foldl_digits_pad, Nat.zero_mul, Nat.zero_add]

theorem readDigits_pad {width n : Nat} (h : n < 10 ^ width) (rest : List Char) :
    readDigits width (pad width n ++ rest) = some (n, rest) := by
  have hlength := pad_length width n
  have htake : (pad width n ++ rest).take width = pad width n := by
    rw [List.take_append_of_le_length (by omega), List.take_of_length_le (by omega)]
  have hdrop : (pad width n ++ rest).drop width = rest := by
    rw [List.drop_append, List.drop_of_length_le (by omega), hlength, Nat.sub_self]
    rfl
  have hall : (pad width n).all Char.isDigit = true := List.all_eq_true.mpr (pad_isDigit width n)
  unfold readDigits
  rw [htake, hdrop, if_pos ⟨hlength, hall⟩, ofDigits_pad, Nat.mod_eq_of_lt h]

theorem readFraction_text {nanos : Nat} (h : nanos < 1000000000) :
    readFraction (fractionText nanos ++ ['Z']) = some (nanos, ['Z']) := by
  unfold fractionText
  by_cases hzero : nanos = 0
  · rw [if_pos hzero, hzero]
    rfl
  · rw [if_neg hzero]
    obtain ⟨digits, hdigits⟩ : ∃ digits, (pad 9 nanos).rdropWhile (· = '0') = digits := ⟨_, rfl⟩
    obtain ⟨zeros, hzeros⟩ : ∃ zeros, (pad 9 nanos).rtakeWhile (· = '0') = zeros := ⟨_, rfl⟩
    have hsplit : digits ++ zeros = pad 9 nanos := by
      rw [← hdigits, ← hzeros]
      exact List.rdropWhile_append_rtakeWhile
    have hlength : digits.length + zeros.length = 9 := by
      rw [← List.length_append, hsplit, pad_length]
    have hreplicate : zeros = List.replicate zeros.length '0' := by
      refine List.eq_replicate_of_mem fun c hc => ?_
      rw [← hzeros] at hc
      simpa using List.mem_rtakeWhile_imp hc
    have hdigit : ∀ c ∈ digits, c.isDigit = true := by
      intro c hc
      exact pad_isDigit 9 nanos c (hsplit ▸ List.mem_append_left zeros hc)
    have hvalue : ofDigits (pad 9 nanos) = nanos := by
      rw [ofDigits_pad, Nat.mod_eq_of_lt (show nanos < 10 ^ 9 from h)]
    have hne : digits ≠ [] := by
      rintro rfl
      rw [← hsplit, hreplicate] at hvalue
      have hnine : zeros.length = 9 := by simpa using hlength
      rw [hnine] at hvalue
      exact hzero hvalue.symm
    have htake : (digits ++ ['Z']).takeWhile Char.isDigit = digits := by
      rw [List.takeWhile_append_of_pos hdigit]
      exact List.append_nil digits
    have hdrop : (digits ++ ['Z']).dropWhile Char.isDigit = ['Z'] := by
      rw [List.dropWhile_append_of_pos hdigit]
      rfl
    have hpadded : (digits ++ List.replicate 9 '0').take 9 = pad 9 nanos := by
      have hmin : min (9 - digits.length) 9 = zeros.length := by omega
      rw [List.take_append, List.take_of_length_le (by omega), List.take_replicate, hmin,
        ← hreplicate, hsplit]
    rw [hdigits, List.cons_append, readFraction]
    simp only [htake, hdrop, if_neg hne, hpadded, hvalue]

/-! ## Times are read back -/

theorem expect_cons (c : Char) (rest : List Char) : expect c (c :: rest) = some rest := if_pos rfl

theorem day_bounds {t : Time} (h : 0 ≤ day t ∧ day t < 3652425) :
    ∃ (year : Nat) (month ofMonth : Nat), year < 10000 ∧ month < 12 ∧ ofMonth < 31 ∧
      date (day t) = { year, month := month + 1, day := ofMonth + 1 } ∧
      ofMonth + 1 ≤ daysIn year (month + 1) := by
  obtain ⟨year, month, ofMonth, hdate⟩ := isDate_date (day t)
  have hyear := hdate.year_lt
  have hmonth := hdate.month_lt
  have hlt := hdate.lt_month
  have hyearOf : (400 * (day t / 146097) + (year : Int)) =
      ((400 * (day t / 146097) + year).toNat : Int) := by omega
  have hlength : daysBeforeMonth (isLeap year) (month + 1) ≤
      daysBeforeMonth (isLeap year) month + 31 := by
    have hall : ∀ month < 12, ∀ leap, daysBeforeMonth leap (month + 1) ≤
        daysBeforeMonth leap month + 31 := by decide
    exact hall month hmonth _
  refine ⟨(400 * (day t / 146097) + year).toNat, month, ofMonth, by omega, hmonth, by omega, ?_, ?_⟩
  · rw [hdate.date_eq, ← hyearOf]
  · rw [← hyearOf]
    simp only [daysIn, isLeap_era, Nat.add_sub_cancel]
    omega

/-- **A time is read back.** -/
theorem unmarshalText_marshalText {t : Time} {text : List Char} (h : marshalText t = some text) :
    unmarshalText text = some t := by
  unfold marshalText at h
  split at h
  · rename_i hday
    obtain ⟨year, month, ofMonth, hyear, hmonth, hofMonth, hdate, hdaysIn⟩ := day_bounds hday
    obtain ⟨nanos, hnanos⟩ : ∃ nanos : Nat, (t % 1000000000).toNat = nanos := ⟨_, rfl⟩
    obtain ⟨seconds, hseconds⟩ : ∃ seconds : Nat, (t / 1000000000 % 86400).toNat = seconds :=
      ⟨_, rfl⟩
    have hyearText : yearText year = pad 4 year := by
      unfold yearText
      rw [if_neg (by omega), Int.natAbs_natCast, if_pos hyear]
    have hnumber : dayNumber { year, month := month + 1, day := ofMonth + 1 } = day t := by
      rw [← hdate, dayNumber_date]
    simp only [hnanos, hseconds, dateText, hdate, hyearText, List.append_assoc, List.cons_append,
      Option.some.injEq] at h
    subst h
    have hyear' := readDigits_pad (show year < 10 ^ 4 from hyear)
    have hmonth' := readDigits_pad (show month + 1 < 10 ^ 2 by omega)
    have hofMonth' := readDigits_pad (show ofMonth + 1 < 10 ^ 2 by omega)
    have hhour := readDigits_pad (show seconds / 3600 < 10 ^ 2 by omega)
    have hminute := readDigits_pad (show seconds / 60 % 60 < 10 ^ 2 by omega)
    have hsecond := readDigits_pad (show seconds % 60 < 10 ^ 2 by omega)
    have hfraction := readFraction_text (show nanos < 1000000000 by omega)
    unfold unmarshalText
    refine Option.bind_eq_some_iff.mpr ⟨_, hyear' _, ?_⟩
    refine Option.bind_eq_some_iff.mpr ⟨_, expect_cons _ _, ?_⟩
    refine Option.bind_eq_some_iff.mpr ⟨_, hmonth' _, ?_⟩
    refine Option.bind_eq_some_iff.mpr ⟨_, expect_cons _ _, ?_⟩
    refine Option.bind_eq_some_iff.mpr ⟨_, hofMonth' _, ?_⟩
    refine Option.bind_eq_some_iff.mpr ⟨_, expect_cons _ _, ?_⟩
    refine Option.bind_eq_some_iff.mpr ⟨_, hhour _, ?_⟩
    refine Option.bind_eq_some_iff.mpr ⟨_, expect_cons _ _, ?_⟩
    refine Option.bind_eq_some_iff.mpr ⟨_, hminute _, ?_⟩
    refine Option.bind_eq_some_iff.mpr ⟨_, expect_cons _ _, ?_⟩
    refine Option.bind_eq_some_iff.mpr ⟨_, hsecond _, ?_⟩
    refine Option.bind_eq_some_iff.mpr ⟨_, hfraction, ?_⟩
    refine Option.bind_eq_some_iff.mpr ⟨_, rfl, ?_⟩
    show (if _ then _ else _) = _
    rw [if_pos ⟨by omega, by omega, by omega, hdaysIn, by omega, by omega, by omega⟩, hnumber]
    have ht : ((day t - 719528) * 86400 +
        (((seconds / 3600 : Nat) : Int) * 3600 + ((seconds / 60 % 60 : Nat) : Int) * 60 +
          ((seconds % 60 : Nat) : Int) - 0)) * 1000000000 + nanos = t := by
      unfold day
      omega
    rw [ht]
  · cases h

/-! ## The texts of days are ordered like the days -/

theorem daysBeforeYear_mono {year year' : Nat} (h : year ≤ year') :
    daysBeforeYear year ≤ daysBeforeYear year' := by
  refine monotone_nat_of_le_succ (fun year => ?_) h
  rw [daysBeforeYear_succ]
  exact Nat.le_add_right _ _

theorem daysBeforeMonth_mono (leap : Bool) {month month' : Nat} (h : month ≤ month')
    (hlt : month' < 13) : daysBeforeMonth leap month ≤ daysBeforeMonth leap month' := by
  have hall : ∀ leap, ∀ month' < 13, ∀ month ≤ month',
      daysBeforeMonth leap month ≤ daysBeforeMonth leap month' := by decide
  exact hall leap month' hlt month h

theorem IsDate.lt_year {day : Int} {year month ofMonth : Nat} (h : IsDate day year month ofMonth) :
    day < 146097 * (day / 146097) + daysBeforeYear (year + 1) := by
  have hmonth := h.lt_month
  have hday := h.day_eq
  have hle : month + 1 ≤ 12 := h.month_lt
  have hlast := daysBeforeMonth_mono (isLeap year) hle (by decide)
  have hlength : daysBeforeMonth (isLeap year) 12 = if isLeap year then 366 else 365 := by
    cases isLeap year <;> rfl
  rw [daysBeforeYear_succ, ← hlength]
  push_cast
  omega

/-- A later day has a later date. -/
theorem IsDate.lt {day day' : Int} {year month ofMonth year' month' ofMonth' : Nat}
    (h : IsDate day year month ofMonth) (h' : IsDate day' year' month' ofMonth') (hlt : day < day') :
    400 * (day / 146097) + (year : Int) < 400 * (day' / 146097) + year' ∨
      400 * (day / 146097) + (year : Int) = 400 * (day' / 146097) + year' ∧
        (month < month' ∨ month = month' ∧ ofMonth < ofMonth') := by
  have hday := h.day_eq
  have hday' := h'.day_eq
  have hyear := h.year_lt
  have hyear' := h'.year_lt
  have hnext' := h'.lt_year
  by_cases hera : day / 146097 = day' / 146097
  · rw [hera] at hday ⊢
    by_cases hlow : year < year'
    · exact .inl (by omega)
    · by_cases hhigh : year' < year
      · have hmono := daysBeforeYear_mono (Nat.succ_le_of_lt hhigh)
        exfalso
        simp only [Nat.succ_eq_add_one] at hmono
        omega
      · obtain rfl : year = year' := by omega
        refine .inr ⟨rfl, ?_⟩
        by_cases hmonth : month < month'
        · exact .inl hmonth
        · by_cases hmonth' : month' < month
          · have hmono := daysBeforeMonth_mono (isLeap year) (Nat.succ_le_of_lt hmonth')
              (Nat.lt_succ_of_lt h.month_lt)
            have hlast := h'.lt_month
            exfalso
            simp only [Nat.succ_eq_add_one] at hmono
            omega
          · obtain rfl : month = month' := by omega
            exact .inr ⟨rfl, by omega⟩
  · exact .inl (by omega)

theorem digitChar_lt {n m : Nat} (hm : m < 10) (h : n < m) : digitChar n < digitChar m := by
  have hall : ∀ m < 10, ∀ n < m, digitChar n < digitChar m := by decide
  exact hall m hm n h

theorem pad_lt {width n m : Nat} (h : n % 10 ^ width < m % 10 ^ width) (rest rest' : List Char) :
    pad width n ++ rest < pad width m ++ rest' := by
  induction width with
  | zero =>
    rw [pow_zero, Nat.mod_one, Nat.mod_one] at h
    exact absurd h (Nat.lt_irrefl 0)
  | succ width ih =>
    rw [pow_succ, Nat.mod_mul, Nat.mod_mul] at h
    rw [pad, pad, List.cons_append, List.cons_append, List.cons_lt_cons_iff]
    have hpos : 0 < 10 ^ width := Nat.pow_pos (by decide)
    have hn := Nat.mod_lt n hpos
    have hm := Nat.mod_lt m hpos
    by_cases hdigit : n / 10 ^ width % 10 < m / 10 ^ width % 10
    · exact .inl (digitChar_lt (Nat.mod_lt _ (by decide)) hdigit)
    · have heq : n / 10 ^ width % 10 = m / 10 ^ width % 10 := by
        by_contra hne
        have hlt : m / 10 ^ width % 10 + 1 ≤ n / 10 ^ width % 10 := by omega
        have hmul := Nat.mul_le_mul_left (10 ^ width) hlt
        rw [Nat.mul_add, Nat.mul_one] at hmul
        omega
      rw [heq] at h ⊢
      exact .inr ⟨rfl, ih (by omega)⟩

theorem cons_lt_cons_of_lt (c : Char) {text text' : List Char} (h : text < text') :
    c :: text < c :: text' := List.cons_lt_cons_iff.mpr (.inr ⟨rfl, h⟩)

theorem append_lt_append_of_lt (start : List Char) {text text' : List Char} (h : text < text') :
    start ++ text < start ++ text' := by
  induction start with
  | nil => exact h
  | cons c start ih => exact cons_lt_cons_of_lt c ih

/-- The text of a later day of a year of four digits is greater, whatever follows it. -/
theorem dateText_lt {t t' : Time} (h : 0 ≤ day t) (h' : day t' < 3652425) (hlt : day t < day t')
    (rest rest' : List Char) : dateText t ++ rest < dateText t' ++ rest' := by
  obtain ⟨year, month, ofMonth, hdate⟩ := isDate_date (day t)
  obtain ⟨year', month', ofMonth', hdate'⟩ := isDate_date (day t')
  have hyear := hdate.year_lt
  have hyear' := hdate'.year_lt
  have hmonth := hdate.month_lt
  have hmonth' := hdate'.month_lt
  have hlast := hdate.lt_month
  have hlast' := hdate'.lt_month
  have hmonthLength : ∀ leap, ∀ month < 12, daysBeforeMonth leap (month + 1) ≤
      daysBeforeMonth leap month + 31 := by decide
  have hlength := hmonthLength (isLeap year) month hmonth
  have hlength' := hmonthLength (isLeap year') month' hmonth'
  have horder := hdate.lt hdate' hlt
  obtain ⟨y, hy⟩ : ∃ y : Nat, 400 * (day t / 146097) + (year : Int) = y :=
    ⟨(400 * (day t / 146097) + year).toNat, by omega⟩
  obtain ⟨y', hy'⟩ : ∃ y : Nat, 400 * (day t' / 146097) + (year' : Int) = y :=
    ⟨(400 * (day t' / 146097) + year').toNat, by omega⟩
  have htext : ∀ y : Nat, y < 10000 → yearText y = pad 4 y := by
    intro y hy
    unfold yearText
    rw [if_neg (by omega), Int.natAbs_natCast, if_pos hy]
  have hmod : ∀ {w a b : Nat}, a < b → b < 10 ^ w → a % 10 ^ w < b % 10 ^ w := by
    intro w a b hab hb
    rw [Nat.mod_eq_of_lt (hab.trans hb), Nat.mod_eq_of_lt hb]
    exact hab
  rw [hy, hy'] at horder
  simp only [dateText, hdate.date_eq, hdate'.date_eq, hy, hy', htext y (by omega),
    htext y' (by omega), List.append_assoc, List.cons_append]
  rcases horder with hyears | ⟨hyears, horder⟩
  · exact pad_lt (hmod (by omega) (show y' < 10 ^ 4 by omega)) _ _
  · obtain rfl : y = y' := by omega
    refine append_lt_append_of_lt _ (cons_lt_cons_of_lt _ ?_)
    rcases horder with hmonths | ⟨rfl, hdays⟩
    · exact pad_lt (hmod (by omega) (show month' + 1 < 10 ^ 2 by omega)) _ _
    · refine append_lt_append_of_lt _ (cons_lt_cons_of_lt _ ?_)
      exact pad_lt (hmod (by omega) (show ofMonth' + 1 < 10 ^ 2 by omega)) _ _

end Kavora.Lib.Go.Time
