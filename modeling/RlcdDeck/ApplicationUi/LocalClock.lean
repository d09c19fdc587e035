import Mathlib.Data.UInt

/-!
# The local clock

The model of the clock of `deck_ai_page_view_model.cpp`: dates of days, the offset of a time zone
and the hour and minute of a UTC time there.  The dates of every `uint64_t` of milliseconds are far
inside the range of `int`.
-/

namespace RlcdDeck.ApplicationUi

/-- `CivilDate`. -/
structure CivilDate where
  year : ℤ
  month : ℕ
  day : ℕ

/-- `days_from_civil`. -/
def daysFromCivil (date : CivilDate) : ℤ :=
  let year := if date.month ≤ 2 then date.year - 1 else date.year
  let era := (if 0 ≤ year then year else year - 399).tdiv 400
  let yearOfEra := (year - era * 400).toNat
  let dayOfYear :=
    (153 * (if 2 < date.month then date.month - 3 else date.month + 9) + 2) / 5 + date.day - 1
  let dayOfEra := yearOfEra * 365 + yearOfEra / 4 - yearOfEra / 100 + dayOfYear
  era * 146097 + dayOfEra - 719468

/-- `civil_from_days`. -/
def civilFromDays (days : ℤ) : CivilDate :=
  let days := days + 719468
  let era := (if 0 ≤ days then days else days - 146096).tdiv 146097
  let dayOfEra := (days - era * 146097).toNat
  let yearOfEra :=
    (dayOfEra - dayOfEra / 1460 + dayOfEra / 36524 - dayOfEra / 146096) / 365
  let year := yearOfEra + era * 400
  let dayOfYear := dayOfEra - (365 * yearOfEra + yearOfEra / 4 - yearOfEra / 100)
  let monthPrime := (5 * dayOfYear + 2) / 153
  let day := dayOfYear - (153 * monthPrime + 2) / 5 + 1
  let month := if monthPrime < 10 then monthPrime + 3 else monthPrime - 9
  ⟨if month ≤ 2 then year + 1 else year, month, day⟩

/-- `weekday_from_days`; Sunday is 0. -/
def weekdayFromDays (days : ℤ) : ℕ :=
  let weekday := (days + 4).tmod 7
  (if weekday < 0 then weekday + 7 else weekday).toNat

/-- `nth_sunday`. -/
def nthSunday (year : ℤ) (month occurrence : ℕ) : ℕ :=
  1 + (7 - weekdayFromDays (daysFromCivil ⟨year, month, 1⟩)) % 7 + (occurrence - 1) * 7

/-- `last_sunday`. -/
def lastSunday (year : ℤ) (month lastDay : ℕ) : ℕ :=
  lastDay - weekdayFromDays (daysFromCivil ⟨year, month, lastDay⟩)

/-- `utc_seconds`. -/
def utcSeconds (year : ℤ) (month day hour : ℕ) : ℤ :=
  daysFromCivil ⟨year, month, day⟩ * 86400 + hour * 3600

/-- `kFixed`. -/
def fixedTimezones : List (String × ℤ) :=
  [("UTC", 0), ("Etc/UTC", 0), ("GMT", 0), ("Asia/Shanghai", 480), ("Asia/Hong_Kong", 480),
    ("Asia/Singapore", 480), ("Asia/Taipei", 480), ("Asia/Tokyo", 540), ("Asia/Seoul", 540),
    ("Asia/Kolkata", 330), ("Asia/Dubai", 240)]

/-- The rule of the American time zones. -/
def americanOffset (standardOffset utc : ℤ) : ℤ :=
  let year := (civilFromDays (utc.tdiv 86400)).year
  let daylightOffset := standardOffset + 60
  let start := utcSeconds year 3 (nthSunday year 3 2) (2 - standardOffset.tdiv 60).toNat
  let stop := utcSeconds year 11 (nthSunday year 11 1) (2 - daylightOffset.tdiv 60).toNat
  if start ≤ utc ∧ utc < stop then daylightOffset else standardOffset

/-- The rule of the European time zones. -/
def europeanOffset (standardOffset utc : ℤ) : ℤ :=
  let year := (civilFromDays (utc.tdiv 86400)).year
  let start := utcSeconds year 3 (lastSunday year 3 31) 1
  let stop := utcSeconds year 10 (lastSunday year 10 31) 1
  standardOffset + if start ≤ utc ∧ utc < stop then 60 else 0

/-- The rule of Sydney, where the year ends in summer. -/
def sydneyOffset (utc : ℤ) : ℤ :=
  let year := (civilFromDays (utc.tdiv 86400)).year
  let start := utcSeconds year 10 (nthSunday year 10 1) 2 - 10 * 3600
  let stop := utcSeconds year 4 (nthSunday year 4 1) 3 - 11 * 3600
  if utc < stop ∨ start ≤ utc then 660 else 600

/-- `timezone_offset_minutes`. -/
def timezoneOffsetMinutes (timezone : String) (utc : ℤ) : Option ℤ :=
  match fixedTimezones.lookup timezone with
  | some minutes => some minutes
  | none =>
    if timezone = "America/Los_Angeles" then some (americanOffset (-480) utc)
    else if timezone = "America/New_York" then some (americanOffset (-300) utc)
    else if timezone = "Europe/London" then some (europeanOffset 0 utc)
    else if timezone = "Europe/Berlin" ∨ timezone = "Europe/Paris" then
      some (europeanOffset 60 utc)
    else if timezone = "Australia/Sydney" then some (sydneyOffset utc)
    else none

/-- `deck_ai_page_local_time_from_utc`: the hour and the minute. -/
def localTimeFromUtc (utcMs : UInt64) (timezone : String) : Option (UInt8 × UInt8) :=
  let utc : ℤ := (utcMs / 1000).toNat
  (timezoneOffsetMinutes timezone utc).map fun offsetMinutes =>
    let localSeconds := utc + offsetMinutes * 60
    let secondsOfDay := localSeconds.tmod 86400
    let secondsOfDay := if secondsOfDay < 0 then secondsOfDay + 86400 else secondsOfDay
    (UInt8.ofNat (secondsOfDay / 3600).toNat, UInt8.ofNat (secondsOfDay / 60 % 60).toNat)

end RlcdDeck.ApplicationUi
