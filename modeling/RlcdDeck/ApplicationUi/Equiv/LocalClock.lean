import RlcdDeck.ApplicationUi.LocalClock
import RlcdDeck.Calendar.Equiv.Date
import Mathlib.Tactic.IntervalCases
import Mathlib.Tactic.Ring

/-!
# The local clock follows the calendar

`daysFromCivil` counts the days of the calendar, shifted to 1970 (`daysFromCivil_eq`), and
`civilFromDays` finds the date of a day (`civilFromDays_spec`).  So the Sundays of the source are
those of the calendar, and its offsets are those of the rules (`Rule.Daylight`).
-/

namespace RlcdDeck.ApplicationUi

open Calendar

/-! ### Days -/

theorem yearStart_1970 : yearStart 1970 = 719528 := rfl

theorem daysBeforeMonth_eq (year : ℕ) {month : ℕ} (hmonth : 1 ≤ month) (hle : month ≤ 12) :
    daysBeforeMonth year month =
      if month ≤ 2 then 31 * (month - 1)
      else (153 * (month - 3) + 2) / 5 + if isLeap year then 60 else 59 := by
  cases hleap : isLeap year <;> interval_cases month <;> simp [daysBeforeMonth, daysIn, hleap]

/-- The days before a year of an era, from March on. -/
def eraDays (yearOfEra : ℕ) : ℕ := 365 * yearOfEra + yearOfEra / 4 - yearOfEra / 100

/-- The days before a year that begins in March. -/
def marchDays (year : ℕ) : ℕ := 365 * year + year / 4 - year / 100 + year / 400

theorem marchDays_eq (year : ℕ) :
    year / 400 * 146097 + eraDays (year % 400) = marchDays year := by
  obtain ⟨e, n, hn, rfl⟩ : ∃ e n, n < 400 ∧ year = 400 * e + n :=
    ⟨year / 400, year % 400, Nat.mod_lt _ (by decide), (Nat.div_add_mod _ _).symm⟩
  have hera : (400 * e + n) / 400 = e := by omega
  have hyear : (400 * e + n) % 400 = n := by omega
  have hfour : (400 * e + n) / 4 = 100 * e + n / 4 := by omega
  have hcentury : (400 * e + n) / 100 = 4 * e + n / 100 := by omega
  unfold marchDays eraDays
  rw [hera, hyear, hfour, hcentury]
  omega

theorem yearStart_marchDays (year : ℕ) : yearStart (year + 1) = marchDays year + 366 := by
  have hfour : (year + 1 + 3) / 4 = year / 4 + 1 := by omega
  have hcentury : (year + 1 + 99) / 100 = year / 100 + 1 := by omega
  have hera : (year + 1 + 399) / 400 = year / 400 + 1 := by omega
  have hle : year / 100 ≤ year := Nat.div_le_self _ _
  unfold yearStart marchDays
  rw [hfour, hcentury, hera]
  omega

theorem daysFromCivil_march {year : ℤ} {month day march : ℕ}
    (hmarch : (if month ≤ 2 then year - 1 else year) = march) :
    daysFromCivil ⟨year, month, day⟩ = (marchDays march : ℤ) +
      ((153 * (if 2 < month then month - 3 else month + 9) + 2) / 5 + day - 1 : ℕ) - 719468 := by
  have hera : (march : ℤ).tdiv 400 = (march / 400 : ℕ) := by
    rw [Int.tdiv_eq_ediv_of_nonneg (Int.natCast_nonneg march)]
    rfl
  have hyear : ((march : ℤ) - (march / 400 : ℕ) * 400).toNat = march % 400 := by omega
  have hdays : march % 400 * 365 + march % 400 / 4 - march % 400 / 100 = eraDays (march % 400) := by
    unfold eraDays
    omega
  have hsum := marchDays_eq march
  unfold daysFromCivil
  dsimp only
  rw [hmarch, if_pos (Int.natCast_nonneg march), hera, hyear, hdays]
  omega

/-- **Days of dates**: the source counts as the calendar does. -/
theorem daysFromCivil_eq {year month day : ℕ} (hyear : 1 ≤ year) (h : IsDate year month day) :
    daysFromCivil ⟨year, month, day⟩ = (dayOf year month day : ℤ) - 719528 := by
  obtain ⟨hmonth, hmonth', hday, -⟩ := h
  unfold dayOf
  rw [daysBeforeMonth_eq year hmonth hmonth']
  by_cases hearly : month ≤ 2
  · have hstart := yearStart_marchDays (year - 1)
    rw [Nat.sub_add_cancel hyear] at hstart
    rw [@daysFromCivil_march year month day (year - 1) (by rw [if_pos hearly]; omega), if_pos hearly,
      if_neg (by omega), hstart]
    omega
  · have hnext := yearStart_marchDays year
    rw [yearStart_succ, daysInYear] at hnext
    rw [@daysFromCivil_march year month day year (if_neg hearly), if_neg hearly, if_pos (by omega)]
    split_ifs at hnext ⊢
    · omega
    · omega

/-! ### Dates -/

theorem eraDays_eq {c a k : ℕ} (ha : a ≤ 24) (hk : k ≤ 3) :
    eraDays (100 * c + 4 * a + k) = 36524 * c + 1461 * a + 365 * k := by
  unfold eraDays
  omega

/-- The year of a day of an era of 400 years, from March on. -/
theorem yearOfEra_spec {dayOfEra : ℕ} (h : dayOfEra < 146097) :
    let yearOfEra :=
      (dayOfEra - dayOfEra / 1460 + dayOfEra / 36524 - dayOfEra / 146096) / 365
    yearOfEra < 400 ∧ eraDays yearOfEra ≤ dayOfEra ∧
      dayOfEra < eraDays (yearOfEra + 1) + (yearOfEra + 1) / 400 := by
  dsimp only
  rcases Nat.lt_or_ge dayOfEra 146096 with hlt | hge
  · obtain ⟨c, r, hr, rfl⟩ : ∃ c r, r < 36524 ∧ dayOfEra = 36524 * c + r :=
      ⟨dayOfEra / 36524, dayOfEra % 36524, Nat.mod_lt _ (by decide), (Nat.div_add_mod _ _).symm⟩
    obtain ⟨a, s, hs, rfl⟩ : ∃ a s, s < 1461 ∧ r = 1461 * a + s :=
      ⟨r / 1461, r % 1461, Nat.mod_lt _ (by decide), (Nat.div_add_mod _ _).symm⟩
    have hc : c ≤ 3 := by omega
    have ha : a ≤ 24 := by omega
    -- The first quotient is that of the groups of four years, up to the last day of a group.
    obtain ⟨t, ht⟩ : ∃ t, t = (24 * c + a + s) / 1460 := ⟨_, rfl⟩
    have ht_le : t ≤ 1 := by omega
    have ht_last : t = 1 → 1364 ≤ s := by omega
    have ht_full : s = 1460 → t = 1 := by omega
    have hfirst : (36524 * c + (1461 * a + s)) / 1460 = 25 * c + a + t := by omega
    have hsecond : (36524 * c + (1461 * a + s)) / 36524 = c := by omega
    have hthird : (36524 * c + (1461 * a + s)) / 146096 = 0 := by omega
    obtain ⟨k, hk⟩ : ∃ k, k = (s - t) / 365 := ⟨_, rfl⟩
    have hk_le : k ≤ 3 := by omega
    have hyear : (36524 * c + (1461 * a + s) - (36524 * c + (1461 * a + s)) / 1460 +
        (36524 * c + (1461 * a + s)) / 36524 - (36524 * c + (1461 * a + s)) / 146096) / 365 =
          100 * c + 4 * a + k := by
      rw [hfirst, hsecond, hthird]
      omega
    rw [hyear, eraDays_eq ha hk_le]
    refine ⟨by omega, by omega, ?_⟩
    rcases Nat.lt_or_ge k 3 with hk_lt | hk_ge
    · rw [Nat.add_assoc, eraDays_eq ha (by omega)]
      omega
    · obtain rfl := Nat.le_antisymm hk_le hk_ge
      rcases Nat.lt_or_ge a 24 with ha_lt | ha_ge
      · have hnext : eraDays (100 * c + 4 * a + 3 + 1) = 36524 * c + 1461 * (a + 1) + 365 * 0 := by
          rw [← eraDays_eq (by omega) (by omega)]
          congr 1
        rw [hnext]
        omega
      · have hnext : eraDays (100 * c + 4 * a + 3 + 1) = 36524 * (c + 1) + 1461 * 0 + 365 * 0 := by
          rw [← eraDays_eq (by omega) (by omega)]
          congr 1
          omega
        rw [hnext]
        omega
  · obtain rfl : dayOfEra = 146096 := by omega
    decide

theorem marchYear_spec (n : ℕ) :
    let dayOfEra := n % 146097
    let yearOfEra :=
      (dayOfEra - dayOfEra / 1460 + dayOfEra / 36524 - dayOfEra / 146096) / 365
    let march := n / 146097 * 400 + yearOfEra
    n = marchDays march + (dayOfEra - eraDays yearOfEra) ∧
      dayOfEra - eraDays yearOfEra < daysInYear (march + 1) := by
  obtain ⟨hlt, hle, hnext⟩ := yearOfEra_spec (Nat.mod_lt n (by decide : 0 < 146097))
  dsimp only
  generalize (n % 146097 - n % 146097 / 1460 + n % 146097 / 36524 - n % 146097 / 146096) / 365 =
    yearOfEra at hlt hle hnext ⊢
  have hmarch : n / 146097 * 146097 + eraDays yearOfEra =
      marchDays (n / 146097 * 400 + yearOfEra) := by
    rw [← marchDays_eq, show (n / 146097 * 400 + yearOfEra) / 400 = n / 146097 by omega,
      show (n / 146097 * 400 + yearOfEra) % 400 = yearOfEra by omega]
  have hlater : n / 146097 * 146097 + (eraDays (yearOfEra + 1) + (yearOfEra + 1) / 400) =
      marchDays (n / 146097 * 400 + yearOfEra + 1) := by
    rw [← marchDays_eq]
    rcases Nat.lt_or_ge yearOfEra 399 with hyear | hyear
    · rw [show (n / 146097 * 400 + yearOfEra + 1) / 400 = n / 146097 by omega,
        show (n / 146097 * 400 + yearOfEra + 1) % 400 = yearOfEra + 1 by omega]
      omega
    · obtain rfl : yearOfEra = 399 := by omega
      rw [show (n / 146097 * 400 + 399 + 1) / 400 = n / 146097 + 1 by omega,
        show (n / 146097 * 400 + 399 + 1) % 400 = 0 by omega, show eraDays 0 = 0 from rfl,
        show eraDays (399 + 1) = 146096 from rfl]
      omega
  have hsplit := Nat.div_add_mod n 146097
  have hstart := yearStart_marchDays (n / 146097 * 400 + yearOfEra)
  have hend := yearStart_marchDays (n / 146097 * 400 + yearOfEra + 1)
  rw [yearStart_succ, hstart] at hend
  constructor
  · rw [← hmarch]
    omega
  · omega

theorem marchMonth_spec {year dayOfYear : ℕ} (h : dayOfYear < daysInYear (year + 1)) :
    let monthPrime := (5 * dayOfYear + 2) / 153
    let day := dayOfYear - (153 * monthPrime + 2) / 5 + 1
    let month := if monthPrime < 10 then monthPrime + 3 else monthPrime - 9
    IsDate (if month ≤ 2 then year + 1 else year) month day ∧
      (if 2 < month then month - 3 else month + 9) = monthPrime ∧
      (153 * monthPrime + 2) / 5 + day - 1 = dayOfYear := by
  have hlast : dayOfYear ≤ 365 := by
    unfold daysInYear at h
    split_ifs at h <;> omega
  dsimp only
  obtain ⟨m, hm⟩ : ∃ m, m = (5 * dayOfYear + 2) / 153 := ⟨_, rfl⟩
  have hm_le : m ≤ 11 := by omega
  have hfrom : (153 * m + 2) / 5 ≤ dayOfYear := by omega
  have hto : dayOfYear < (153 * (m + 1) + 2) / 5 := by omega
  rw [← hm]
  clear hm
  refine ⟨⟨?_, ?_, Nat.le_add_left 1 _, ?_⟩, ?_, by omega⟩
  · split_ifs <;> omega
  · split_ifs <;> omega
  · unfold daysInYear at h
    interval_cases m <;> simp [daysIn] at * <;> first | omega | (split_ifs at h ⊢ <;> omega)
  · split_ifs <;> omega

theorem toNat_sub_era (n : ℕ) : ((n : ℤ) - (n / 146097 : ℕ) * 146097).toNat = n % 146097 := by
  omega

/-- **Dates of days**: from 1970 on, the source finds the date of the calendar. -/
theorem civilFromDays_spec {days : ℤ} (h : 0 ≤ days) :
    ∃ year month day, civilFromDays days = ⟨(year : ℕ), month, day⟩ ∧ IsDate year month day ∧
      1970 ≤ year ∧ (dayOf year month day : ℤ) = days + 719528 ∧
      daysFromCivil ⟨year, month, day⟩ = days := by
  obtain ⟨n, hn⟩ : ∃ n : ℕ, (n : ℤ) = days + 719468 := ⟨(days + 719468).toNat, by omega⟩
  obtain ⟨hsum, hdays⟩ := marchYear_spec n
  obtain ⟨hdate, hmonth, hday⟩ := marchMonth_spec hdays
  have hera : (n : ℤ).tdiv 146097 = (n / 146097 : ℕ) := by
    rw [Int.tdiv_eq_ediv_of_nonneg (Int.natCast_nonneg n)]
    rfl
  have hrest := toNat_sub_era n
  unfold civilFromDays
  dsimp only
  rw [← hn, if_pos (Int.natCast_nonneg n), hera, hrest]
  unfold eraDays at hsum hdays hdate hmonth hday
  generalize hyear : (n % 146097 - n % 146097 / 1460 + n % 146097 / 36524 - n % 146097 / 146096) /
    365 = yearOfEra at *
  generalize hofYear : n % 146097 - (365 * yearOfEra + yearOfEra / 4 - yearOfEra / 100) =
    dayOfYear at *
  generalize (5 * dayOfYear + 2) / 153 = monthPrime at *
  generalize hmonthOf : (if monthPrime < 10 then monthPrime + 3 else monthPrime - 9) = month at *
  generalize dayOfYear - (153 * monthPrime + 2) / 5 + 1 = day at *
  obtain ⟨march, hmarch⟩ : ∃ march, march = n / 146097 * 400 + yearOfEra := ⟨_, rfl⟩
  rw [← hmarch] at hsum hdays hdate
  obtain ⟨year, hdef⟩ : ∃ year, year = if month ≤ 2 then march + 1 else march := ⟨_, rfl⟩
  rw [← hdef] at hdate
  have hcast : (if month ≤ 2 then (yearOfEra : ℤ) + (n / 146097 : ℕ) * 400 + 1
      else yearOfEra + (n / 146097 : ℕ) * 400) = (year : ℕ) := by
    rw [hdef, hmarch]
    split_ifs <;> push_cast <;> ring
  have hback : daysFromCivil ⟨year, month, day⟩ = days := by
    rw [@daysFromCivil_march year month day march, hmonth]
    · omega
    · rw [hdef]
      split_ifs <;> omega
  have hpos : 1 ≤ year := by
    by_contra hzero
    have hmarch_zero : march = 0 := by
      rw [hdef] at hzero
      split_ifs at hzero <;> omega
    rw [hmarch_zero] at hsum hdays
    have hfirst : marchDays 0 = 0 := rfl
    unfold daysInYear at hdays
    split_ifs at hdays <;> omega
  have hdayOf := daysFromCivil_eq hpos hdate
  refine ⟨year, month, day, by rw [hcast], hdate, ?_, by omega, hback⟩
  by_contra hearly
  have hend := hdate.dayOf_bounds.2
  have hmono : yearStart (year + 1) ≤ yearStart 1970 := monotone_yearStart (by omega)
  rw [yearStart_1970] at hmono
  omega

/-- **Days and dates are inverse** from 1970 on. -/
theorem civilFromDays_daysFromCivil {year month day : ℕ} (hyear : 1970 ≤ year)
    (h : IsDate year month day) :
    civilFromDays (daysFromCivil ⟨year, month, day⟩) = ⟨year, month, day⟩ := by
  have hdays := daysFromCivil_eq (by omega) h
  have hstart := h.dayOf_bounds.1
  have hmono : yearStart 1970 ≤ yearStart year := monotone_yearStart hyear
  rw [yearStart_1970] at hmono
  obtain ⟨year', month', day', hcivil, hdate, -, hdayOf, -⟩ :=
    @civilFromDays_spec (daysFromCivil ⟨year, month, day⟩) (by omega)
  rw [hcivil]
  obtain ⟨rfl, rfl, rfl⟩ := hdate.dayOf_injective h (by omega)
  rfl

/-! ### The rules -/

/-- The day of the week; Sunday is 0. -/
def weekday (day : ℕ) : ℕ := (day + 6) % 7

example : weekday (dayOf 1970 1 1) = 4 := by decide

structure IsNthSunday (n year month day : ℕ) : Prop where
  sunday : weekday (dayOf year month day) = 0
  after : 7 * (n - 1) < day
  le : day ≤ 7 * n

structure IsLastSunday (year month day : ℕ) : Prop where
  sunday : weekday (dayOf year month day) = 0
  le : day ≤ daysIn year month
  last : daysIn year month < day + 7

/-- The second of an hour of a day, where the clocks have an offset of so many minutes. -/
def instant (year month day hour : ℕ) (offset : ℤ) : ℤ :=
  ((dayOf year month day : ℤ) - dayOf 1970 1 1) * 86400 + hour * 3600 - offset * 60

inductive Rule where
  | standard
  | american
  | european
  | sydney

/-- Whether the clocks have daylight saving time: between the transitions of a year, and in Sydney
from one year to the next. -/
def Rule.Daylight (standard utc : ℤ) : Rule → Prop
  | .standard => False
  | .american => ∃ year first last, IsNthSunday 2 year 3 first ∧ IsNthSunday 1 year 11 last ∧
      instant year 3 first 2 standard ≤ utc ∧ utc < instant year 11 last 2 (standard + 60)
  | .european => ∃ year first last, IsLastSunday year 3 first ∧ IsLastSunday year 10 last ∧
      instant year 3 first 1 0 ≤ utc ∧ utc < instant year 10 last 1 0
  | .sydney => ∃ year first last, IsNthSunday 1 year 10 first ∧ IsNthSunday 1 (year + 1) 4 last ∧
      instant year 10 first 2 standard ≤ utc ∧
      utc < instant (year + 1) 4 last 3 (standard + 60)

/-- The time zones, with their standard offsets. -/
def zones : List (String × ℤ × Rule) :=
  [("UTC", 0, .standard), ("Etc/UTC", 0, .standard), ("GMT", 0, .standard),
    ("Asia/Shanghai", 480, .standard), ("Asia/Hong_Kong", 480, .standard),
    ("Asia/Singapore", 480, .standard), ("Asia/Taipei", 480, .standard),
    ("Asia/Tokyo", 540, .standard), ("Asia/Seoul", 540, .standard),
    ("Asia/Kolkata", 330, .standard), ("Asia/Dubai", 240, .standard),
    ("America/Los_Angeles", -480, .american), ("America/New_York", -300, .american),
    ("Europe/London", 0, .european), ("Europe/Berlin", 60, .european),
    ("Europe/Paris", 60, .european), ("Australia/Sydney", 600, .sydney)]

/-! ### Sundays -/

section Sundays

variable {n year month day : ℕ}

theorem dayOf_1970 : dayOf 1970 1 1 = 719528 := rfl

theorem le_dayOf (hyear : 1970 ≤ year) (h : IsDate year month day) :
    719528 ≤ dayOf year month day := by
  have hstart := h.dayOf_bounds.1
  have hmono : yearStart 1970 ≤ yearStart year := monotone_yearStart hyear
  rw [yearStart_1970] at hmono
  omega

theorem weekdayFromDays_eq (hyear : 1970 ≤ year) (h : IsDate year month day) :
    weekdayFromDays (daysFromCivil ⟨year, month, day⟩) = weekday (dayOf year month day) := by
  have hle := le_dayOf hyear h
  rw [daysFromCivil_eq (by omega) h]
  unfold weekdayFromDays weekday
  dsimp only
  rw [Int.tmod_eq_emod_of_nonneg (by omega), if_neg (by omega)]
  omega

theorem twentyEight_le_daysIn (year : ℕ) {month : ℕ} (hmonth : 1 ≤ month) (hle : month ≤ 12) :
    28 ≤ daysIn year month := by
  cases hleap : isLeap year <;> interval_cases month <;> simp [daysIn, hleap]

theorem dayOf_day (year month day : ℕ) :
    dayOf year month day = dayOf year month 1 + (day - 1) := by
  unfold dayOf
  omega

theorem nthSunday_spec (hyear : 1970 ≤ year) (hmonth : 1 ≤ month) (hle : month ≤ 12)
    (hn : 1 ≤ n) (hn' : n ≤ 4) :
    IsDate year month (nthSunday year month n) ∧
      IsNthSunday n year month (nthSunday year month n) := by
  have hfirst : IsDate year month 1 :=
    ⟨hmonth, hle, le_rfl, (by decide : 1 ≤ 28).trans (twentyEight_le_daysIn year hmonth hle)⟩
  have hdays := twentyEight_le_daysIn year hmonth hle
  have hweekday := weekdayFromDays_eq hyear hfirst
  unfold nthSunday
  rw [hweekday]
  have hlt : weekday (dayOf year month 1) < 7 := Nat.mod_lt _ (by decide)
  have hday := dayOf_day year month
    (1 + (7 - weekday (dayOf year month 1)) % 7 + (n - 1) * 7)
  refine ⟨⟨hmonth, hle, by omega, by omega⟩, ⟨?_, by omega, by omega⟩⟩
  rw [hday]
  unfold weekday at hlt ⊢
  omega

theorem exists_nthSunday (n year month : ℕ) (hn : 1 ≤ n) : ∃ day, IsNthSunday n year month day := by
  refine ⟨7 * (n - 1) + 1 + (7 - weekday (dayOf year month (7 * (n - 1) + 1))) % 7, ?_, ?_, ?_⟩
  · have hday := dayOf_day year month
      (7 * (n - 1) + 1 + (7 - weekday (dayOf year month (7 * (n - 1) + 1))) % 7)
    have hfirst := dayOf_day year month (7 * (n - 1) + 1)
    unfold weekday at hday ⊢
    omega
  · omega
  · omega

theorem lastSunday_spec (hyear : 1970 ≤ year) (hmonth : 1 ≤ month) (hle : month ≤ 12)
    (hlength : daysIn year month = 31) :
    IsDate year month (lastSunday year month 31) ∧
      IsLastSunday year month (lastSunday year month 31) := by
  have hlast : IsDate year month 31 := ⟨hmonth, hle, by decide, hlength.ge⟩
  have hweekday := weekdayFromDays_eq hyear hlast
  unfold lastSunday
  rw [hweekday]
  have hlt : weekday (dayOf year month 31) < 7 := Nat.mod_lt _ (by decide)
  have hday := dayOf_day year month (31 - weekday (dayOf year month 31))
  have hend := dayOf_day year month 31
  refine ⟨⟨hmonth, hle, by omega, by omega⟩, ⟨?_, by omega, by omega⟩⟩
  rw [hday]
  unfold weekday at hlt ⊢
  omega

theorem IsNthSunday.isDate (h : IsNthSunday n year month day) (hn : n ≤ 4) (hmonth : 1 ≤ month)
    (hle : month ≤ 12) : IsDate year month day := by
  have hdays := twentyEight_le_daysIn year hmonth hle
  have hafter := h.after
  have hday := h.le
  exact ⟨hmonth, hle, by omega, by omega⟩

theorem IsLastSunday.isDate (h : IsLastSunday year month day) (hmonth : 1 ≤ month)
    (hle : month ≤ 12) : IsDate year month day := by
  have hdays := twentyEight_le_daysIn year hmonth hle
  have hlast := h.last
  exact ⟨hmonth, hle, by omega, h.le⟩

theorem IsNthSunday.unique {day' : ℕ} (h : IsNthSunday n year month day)
    (h' : IsNthSunday n year month day') : day = day' := by
  obtain ⟨hsunday, hafter, hle⟩ := h
  obtain ⟨hsunday', hafter', hle'⟩ := h'
  rw [dayOf_day] at hsunday hsunday'
  unfold weekday at hsunday hsunday'
  omega

theorem IsLastSunday.unique {day' : ℕ} (hlength : 7 ≤ daysIn year month)
    (h : IsLastSunday year month day) (h' : IsLastSunday year month day') : day = day' := by
  obtain ⟨hsunday, hle, hlast⟩ := h
  obtain ⟨hsunday', hle', hlast'⟩ := h'
  rw [dayOf_day] at hsunday hsunday'
  unfold weekday at hsunday hsunday'
  omega

end Sundays

/-! ### Transitions -/

section Transitions

variable {year month day : ℕ} {utc standard : ℤ}

theorem utcSeconds_eq (hyear : 1970 ≤ year) (h : IsDate year month day) (hour : ℕ) :
    utcSeconds year month day hour = instant year month day hour 0 := by
  unfold utcSeconds instant
  rw [daysFromCivil_eq (by omega) h, dayOf_1970]
  push_cast
  ring

/-- The seconds of a year. -/
def InYear (year : ℕ) (utc : ℤ) : Prop :=
  ((yearStart year : ℤ) - 719528) * 86400 ≤ utc ∧
    utc < ((yearStart (year + 1) : ℤ) - 719528) * 86400

theorem exists_year (h : 0 ≤ utc) :
    ∃ year : ℕ, (civilFromDays (utc.tdiv 86400)).year = year ∧ 1970 ≤ year ∧ InYear year utc := by
  have hdays : utc.tdiv 86400 = utc / 86400 := Int.tdiv_eq_ediv_of_nonneg h
  obtain ⟨year, month, day, hcivil, hdate, hyear, hdayOf, -⟩ :=
    @civilFromDays_spec (utc.tdiv 86400) (by omega)
  obtain ⟨hstart, hend⟩ := hdate.dayOf_bounds
  refine ⟨year, by rw [hcivil], hyear, ?_, ?_⟩
  · omega
  · omega

theorem InYear.unique {year' : ℕ} (h : InYear year utc) (h' : InYear year' utc) : year = year' := by
  unfold InYear at h h'
  rcases Nat.lt_trichotomy year year' with hlt | heq | hgt
  · have hmono : yearStart (year + 1) ≤ yearStart year' := monotone_yearStart hlt
    omega
  · exact heq
  · have hmono : yearStart (year' + 1) ≤ yearStart year := monotone_yearStart hgt
    omega

theorem instant_bounds (h : IsDate year month day) (hmonth : 2 ≤ month) {hour : ℕ} {offset : ℤ}
    (hlow : -86400 ≤ hour * 3600 - offset * 60) (hhigh : hour * 3600 - offset * 60 ≤ 86400) :
    ((yearStart year : ℤ) - 719528) * 86400 ≤ instant year month day hour offset ∧
      instant year month day hour offset ≤ ((yearStart (year + 1) : ℤ) - 719528) * 86400 := by
  have hend := h.dayOf_bounds.2
  have hjanuary : daysBeforeMonth year 1 + daysIn year 1 ≤ daysBeforeMonth year month :=
    daysBeforeMonth_le year le_rfl (by omega)
  have hlength : daysIn year 1 = 31 := rfl
  have hstart : yearStart year + daysBeforeMonth year month ≤ dayOf year month day :=
    Nat.le_add_right _ _
  unfold instant
  rw [dayOf_1970]
  constructor
  · omega
  · omega

/-- The offset of a rule. -/
def Follows (rule : Rule) (standard utc offset : ℤ) : Prop :=
  (rule.Daylight standard utc → offset = standard + 60) ∧
    (¬rule.Daylight standard utc → offset = standard)

theorem follows_ite {rule : Rule} {condition : Prop} [Decidable condition]
    (h : condition ↔ rule.Daylight standard utc) :
    Follows rule standard utc (if condition then standard + 60 else standard) := by
  constructor
  · intro hdaylight
    rw [if_pos (h.mpr hdaylight)]
  · intro hstandard
    rw [if_neg fun hcondition => hstandard (h.mp hcondition)]

theorem americanOffset_follows (hutc : 0 ≤ utc) (hle : standard ≤ 0) (hge : -720 ≤ standard)
    (hstart : ((2 - standard.tdiv 60).toNat : ℤ) * 3600 = 2 * 3600 - standard * 60)
    (hstop : ((2 - (standard + 60).tdiv 60).toNat : ℤ) * 3600 = 2 * 3600 - (standard + 60) * 60) :
    Follows .american standard utc (americanOffset standard utc) := by
  obtain ⟨year, hyear, hrange, hin⟩ := exists_year hutc
  obtain ⟨hfirst, hfirstSunday⟩ :=
    nthSunday_spec (n := 2) hrange (by decide : 1 ≤ 3) (by decide) (by decide) (by decide)
  obtain ⟨hlast, hlastSunday⟩ :=
    nthSunday_spec (n := 1) hrange (by decide : 1 ≤ 11) (by decide) (by decide) (by decide)
  unfold americanOffset
  dsimp only
  rw [hyear, utcSeconds_eq hrange hfirst, utcSeconds_eq hrange hlast]
  apply follows_ite
  have hstartInstant : instant year 3 (nthSunday year 3 2) (2 - standard.tdiv 60).toNat 0 =
      instant year 3 (nthSunday year 3 2) 2 standard := by
    unfold instant
    omega
  have hstopInstant : instant year 11 (nthSunday year 11 1) (2 - (standard + 60).tdiv 60).toNat 0 =
      instant year 11 (nthSunday year 11 1) 2 (standard + 60) := by
    unfold instant
    omega
  rw [hstartInstant, hstopInstant]
  constructor
  · rintro ⟨hafter, hbefore⟩
    exact ⟨year, _, _, hfirstSunday, hlastSunday, hafter, hbefore⟩
  · rintro ⟨year', first, last, hfirst', hlast', hafter, hbefore⟩
    have hstart' := @instant_bounds year' 3 first
      (hfirst'.isDate (by decide) (by decide) (by decide)) (by decide) 2 standard (by omega)
      (by omega)
    have hstop' := @instant_bounds year' 11 last
      (hlast'.isDate (by decide) (by decide) (by decide)) (by decide) 2 (standard + 60) (by omega)
      (by omega)
    obtain rfl := hin.unique ⟨hstart'.1.trans hafter, hbefore.trans_le hstop'.2⟩
    rw [hfirstSunday.unique hfirst', hlastSunday.unique hlast']
    exact ⟨hafter, hbefore⟩

theorem europeanOffset_follows (hutc : 0 ≤ utc) :
    Follows .european standard utc (europeanOffset standard utc) := by
  obtain ⟨year, hyear, hrange, hin⟩ := exists_year hutc
  obtain ⟨hfirst, hfirstSunday⟩ :=
    lastSunday_spec hrange (by decide : 1 ≤ 3) (by decide) rfl
  obtain ⟨hlast, hlastSunday⟩ :=
    lastSunday_spec hrange (by decide : 1 ≤ 10) (by decide) rfl
  have hiff : instant year 3 (lastSunday year 3 31) 1 0 ≤ utc ∧
      utc < instant year 10 (lastSunday year 10 31) 1 0 ↔
        Rule.european.Daylight standard utc := by
    constructor
    · rintro ⟨hafter, hbefore⟩
      exact ⟨year, _, _, hfirstSunday, hlastSunday, hafter, hbefore⟩
    · rintro ⟨year', first, last, hfirst', hlast', hafter, hbefore⟩
      have hstart' := @instant_bounds year' 3 first (hfirst'.isDate (by decide) (by decide))
        (by decide) 1 0 (by decide) (by decide)
      have hstop' := @instant_bounds year' 10 last (hlast'.isDate (by decide) (by decide))
        (by decide) 1 0 (by decide) (by decide)
      obtain rfl := hin.unique ⟨hstart'.1.trans hafter, hbefore.trans_le hstop'.2⟩
      have hmarch : 7 ≤ daysIn year 3 := (by decide : 7 ≤ 31)
      have hoctober : 7 ≤ daysIn year 10 := (by decide : 7 ≤ 31)
      rw [hfirstSunday.unique hmarch hfirst', hlastSunday.unique hoctober hlast']
      exact ⟨hafter, hbefore⟩
  have hfollows := follows_ite hiff
  unfold europeanOffset
  dsimp only
  rw [hyear, utcSeconds_eq hrange hfirst, utcSeconds_eq hrange hlast]
  split_ifs at hfollows ⊢ with hdaylight
  · exact hfollows
  · rw [Int.add_zero]
    exact hfollows

theorem sydneyOffset_follows (hutc : 0 ≤ utc) :
    Follows .sydney 600 utc (sydneyOffset utc) := by
  obtain ⟨year, hyear, hrange, hin⟩ := exists_year hutc
  obtain ⟨hfirst, hfirstSunday⟩ :=
    nthSunday_spec (n := 1) hrange (by decide : 1 ≤ 10) (by decide) (by decide) (by decide)
  obtain ⟨hlast, hlastSunday⟩ :=
    nthSunday_spec (n := 1) hrange (by decide : 1 ≤ 4) (by decide) (by decide) (by decide)
  unfold sydneyOffset
  dsimp only
  rw [hyear, utcSeconds_eq hrange hfirst, utcSeconds_eq hrange hlast]
  have hstartInstant : instant year 10 (nthSunday year 10 1) 2 0 - 10 * 3600 =
      instant year 10 (nthSunday year 10 1) 2 600 := by
    unfold instant
    omega
  have hstopInstant : instant year 4 (nthSunday year 4 1) 3 0 - 11 * 3600 =
      instant year 4 (nthSunday year 4 1) 3 (600 + 60) := by
    unfold instant
    omega
  rw [hstartInstant, hstopInstant]
  refine @follows_ite utc 600 .sydney _ _ ⟨?_, ?_⟩
  · -- Summer began in the year before, or it ends in the year after.
    rintro (hbefore | hafter)
    · obtain ⟨y, rfl⟩ : ∃ y, year = y + 1 := ⟨year - 1, by omega⟩
      obtain ⟨first, hfirst'⟩ := exists_nthSunday 1 y 10 le_rfl
      have hstart' := @instant_bounds y 10 first (hfirst'.isDate (by decide) (by decide) (by decide))
        (by decide) 2 600 (by decide) (by decide)
      exact ⟨y, first, _, hfirst', hlastSunday, hstart'.2.trans hin.1, hbefore⟩
    · obtain ⟨last, hlast'⟩ := exists_nthSunday 1 (year + 1) 4 le_rfl
      have hstop' := @instant_bounds (year + 1) 4 last
        (hlast'.isDate (by decide) (by decide) (by decide)) (by decide) 3 (600 + 60) (by decide)
        (by decide)
      exact ⟨year, _, last, hfirstSunday, hlast', hafter, hin.2.trans_le hstop'.1⟩
  · rintro ⟨year', first, last, hfirst', hlast', hafter, hbefore⟩
    have hstart' := @instant_bounds year' 10 first
      (hfirst'.isDate (by decide) (by decide) (by decide)) (by decide) 2 600 (by decide) (by decide)
    have hstop' := @instant_bounds (year' + 1) 4 last
      (hlast'.isDate (by decide) (by decide) (by decide)) (by decide) 3 (600 + 60) (by decide)
      (by decide)
    by_cases hsame : utc < ((yearStart (year' + 1) : ℤ) - 719528) * 86400
    · obtain rfl := hin.unique ⟨hstart'.1.trans hafter, hsame⟩
      rw [hfirstSunday.unique hfirst']
      exact .inr hafter
    · obtain rfl := hin.unique ⟨not_lt.mp hsame, hbefore.trans_le hstop'.2⟩
      rw [hlastSunday.unique hlast']
      exact .inl hbefore

end Transitions

/-! ### The clock -/

/-- What is to be shown of a time zone. -/
def FollowsZone (timezone : String) (utc : ℤ) : Prop :=
  (zones.lookup timezone = none → timezoneOffsetMinutes timezone utc = none) ∧
    ∀ standard rule, zones.lookup timezone = some (standard, rule) →
      ∃ offset, timezoneOffsetMinutes timezone utc = some offset ∧
        Follows rule standard utc offset

theorem followsZone_of {timezone : String} {utc standard offset : ℤ} {rule : Rule}
    (hzone : zones.lookup timezone = some (standard, rule))
    (hoffset : timezoneOffsetMinutes timezone utc = some offset)
    (hfollows : Follows rule standard utc offset) : FollowsZone timezone utc := by
  constructor
  · intro hnone
    exact absurd (hnone.symm.trans hzone) nofun
  · intro standard' rule' hzone'
    obtain ⟨rfl, rfl⟩ := Prod.mk.inj (Option.some.inj (hzone.symm.trans hzone'))
    exact ⟨offset, hoffset, hfollows⟩

theorem follows_standard (standard utc : ℤ) : Follows .standard standard utc standard :=
  ⟨nofun, fun _ => rfl⟩

theorem timezoneOffsetMinutes_spec (timezone : String) {utc : ℤ} (hutc : 0 ≤ utc) :
    FollowsZone timezone utc := by
  by_cases hname : timezone ∈ zones.map Prod.fst
  · simp only [zones, List.map_cons, List.map_nil, List.mem_cons, List.not_mem_nil, or_false]
      at hname
    rcases hname with rfl | rfl | rfl | rfl | rfl | rfl | rfl | rfl | rfl | rfl | rfl | rfl | rfl |
      rfl | rfl | rfl | rfl
    iterate 11 exact followsZone_of rfl rfl (follows_standard _ _)
    · exact followsZone_of rfl rfl
        (americanOffset_follows hutc (by decide) (by decide) (by decide) (by decide))
    · exact followsZone_of rfl rfl
        (americanOffset_follows hutc (by decide) (by decide) (by decide) (by decide))
    · exact followsZone_of rfl rfl (europeanOffset_follows hutc)
    · exact followsZone_of rfl rfl (europeanOffset_follows hutc)
    · exact followsZone_of rfl rfl (europeanOffset_follows hutc)
    · exact followsZone_of rfl rfl (sydneyOffset_follows hutc)
  · constructor
    · intro _
      simp only [zones, List.map_cons, List.map_nil, List.mem_cons, List.not_mem_nil, or_false,
        not_or] at hname
      have hfixed : fixedTimezones.lookup timezone = none := by
        simp [fixedTimezones, List.lookup_eq_none_iff, hname]
      unfold timezoneOffsetMinutes
      rw [hfixed]
      simp [hname]
    · intro standard rule hzone
      have hnone : zones.lookup timezone = none := by
        refine List.lookup_eq_none_iff.mpr fun zone hmem => ?_
        rw [bne_iff_ne]
        rintro rfl
        exact hname (List.mem_map_of_mem hmem)
      exact absurd (hnone.symm.trans hzone) nofun

theorem secondsOfDay_eq (seconds : ℤ) :
    (if seconds.tmod 86400 < 0 then seconds.tmod 86400 + 86400 else seconds.tmod 86400) =
      seconds % 86400 := by
  have hsplit := Int.tmod_add_mul_tdiv seconds 86400
  have hlow := Int.lt_tmod_of_pos seconds (by decide : (0 : ℤ) < 86400)
  have hhigh := Int.tmod_lt_of_pos seconds (by decide : (0 : ℤ) < 86400)
  split_ifs <;> omega

theorem civil_year_lt (utcMs : UInt64) :
    (civilFromDays (((utcMs / 1000).toNat : ℤ).tdiv 86400)).year < 2 ^ 31 := by
  obtain ⟨year, hyear, -, hin, -⟩ := exists_year (Int.natCast_nonneg (utcMs / 1000).toNat)
  have hlt : (utcMs / 1000).toNat < 2 ^ 64 / 1000 + 1 := by
    have hms := utcMs.toNat_lt
    rw [UInt64.toNat_div]
    exact Nat.lt_succ_of_le (Nat.div_le_div_right hms.le)
  have hbounds := yearStart_bounds year
  rw [hyear]
  omega

/-- **The local clock**: the dates are those of the calendar, the offset of a known time zone is
that of its rule, and the hour and the minute are those of the time with the offset. -/
theorem localTime_follows (timezone : String) (utcMs : UInt64) :
    let utc : ℤ := (utcMs / 1000).toNat
    (∀ days : ℤ, 0 ≤ days → daysFromCivil (civilFromDays days) = days) ∧
    (∀ year month day : ℕ, 1970 ≤ year → IsDate year month day →
      civilFromDays (daysFromCivil ⟨year, month, day⟩) = ⟨year, month, day⟩) ∧
    (civilFromDays (utc.tdiv 86400)).year < 2 ^ 31 ∧
    (zones.lookup timezone = none → localTimeFromUtc utcMs timezone = none) ∧
    ∀ standard rule, zones.lookup timezone = some (standard, rule) →
      ∃ offset hour minute, timezoneOffsetMinutes timezone utc = some offset ∧
        Follows rule standard utc offset ∧ localTimeFromUtc utcMs timezone = some (hour, minute) ∧
        (hour.toNat : ℤ) = (utc + offset * 60) % 86400 / 3600 ∧
        (minute.toNat : ℤ) = (utc + offset * 60) % 86400 / 60 % 60 := by
  have hutc : 0 ≤ ((utcMs / 1000).toNat : ℤ) := Int.natCast_nonneg _
  obtain ⟨hunknown, hknown⟩ := timezoneOffsetMinutes_spec timezone hutc
  refine ⟨fun days hdays => ?_, fun _ _ _ hyear hdate => civilFromDays_daysFromCivil hyear hdate,
    civil_year_lt utcMs, fun hnone => ?_, fun standard rule hzone => ?_⟩
  · obtain ⟨year, month, day, hcivil, -, -, -, hback⟩ := civilFromDays_spec hdays
    rw [hcivil, hback]
  · unfold localTimeFromUtc
    dsimp only
    rw [hunknown hnone]
    rfl
  · obtain ⟨offset, hoffset, hfollows⟩ := hknown standard rule hzone
    unfold localTimeFromUtc
    dsimp only
    rw [hoffset, Option.map_some, secondsOfDay_eq]
    refine ⟨offset, _, _, rfl, hfollows, rfl, ?_, ?_⟩
    · rw [UInt8.toNat_ofNat']
      omega
    · rw [UInt8.toNat_ofNat']
      omega

/-- 2024-03-10 10:00 UTC. -/
theorem localTime_follows_losAngeles :
    ∃ offset, timezoneOffsetMinutes "America/Los_Angeles"
        ((1710064800000 : UInt64) / 1000).toNat = some offset ∧
      Follows .american (-480) ((1710064800000 : UInt64) / 1000).toNat offset := by
  obtain ⟨-, -, -, -, hknown⟩ := localTime_follows "America/Los_Angeles" 1710064800000
  obtain ⟨offset, hour, minute, hoffset, hfollows, -⟩ := hknown (-480) .american rfl
  exact ⟨offset, hoffset, hfollows⟩

end RlcdDeck.ApplicationUi
