import RlcdDeck.AiSnapshot.Decode

/-!
# Instants

A `time.Time` as a number of nanoseconds since the zero time, the first day of the year 1, and its
fields in UTC.  The year 0, which has 366 days, comes before the zero time; no field can be negative,
so that the times before the year 0 have none.
-/

namespace RlcdDeck.AiSnapshot.Companion

/-- The nanoseconds of a day. -/
def dayNanoseconds : ℕ := 86400 * 1000000000

/-- The fields of the time that is `n` nanoseconds after the start of the year 0. -/
def Time.ofNanoseconds (n : ℕ) : Time :=
  let date := Calendar.date (n / dayNanoseconds)
  let seconds := n % dayNanoseconds / 1000000000
  { year := date.1
    month := date.2.1
    day := date.2.2
    hour := seconds / 3600
    minute := seconds / 60 % 60
    second := seconds % 60
    nanosecond := n % 1000000000 }

/-- The nanoseconds from the start of the year 0. -/
def Time.nanoseconds (t : Time) : ℕ :=
  (((Calendar.dayOf t.year t.month t.day * 24 + t.hour) * 60 + t.minute) * 60 + t.second) *
    1000000000 + t.nanosecond

/-- The nanoseconds of the year 0. -/
def zeroYear : ℕ := 366 * dayNanoseconds

/-- The fields of an instant. -/
def Time.ofInstant (instant : ℤ) : Option Time :=
  if 0 ≤ instant + zeroYear then some (Time.ofNanoseconds (instant + zeroYear).toNat) else none

/-- The instant of a time. -/
def Time.instant (t : Time) : ℤ := t.nanoseconds - zeroYear

/-- The text of `Time.MarshalJSON`, without its quotes: the year has four digits. -/
def marshalInstant (instant : ℤ) : Option Json.Bytes :=
  (Time.ofInstant instant).bind fun t => if t.year ≤ 9999 then some t.format else none

/-- `Time.UnmarshalJSON` of a text in the zone `Z`. -/
def unmarshalInstant (text : Json.Bytes) : Option ℤ := (timeParse text).map Time.instant

end RlcdDeck.AiSnapshot.Companion
