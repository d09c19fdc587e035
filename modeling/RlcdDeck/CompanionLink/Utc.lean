import RlcdDeck.AiSnapshot.Validate
import RlcdDeck.Calendar.Date
import RlcdDeck.Json.Print

/-!
# Canonical times

`parse_canonical_utc` of `deck_device_protocol.cpp` and `format_utc` of `deck_companion_link.cpp`.
-/

namespace RlcdDeck.CompanionLink

open Json (Bytes paddedText)

/-- `parse_canonical_utc` of a C string; `deck_ai_snapshot.cpp` has the same function for the strings of
its documents. -/
def parseCanonicalUtc (value : Bytes) : Option ℕ := AiSnapshot.parseUtc value

/-- The first day of 1970, counted from the first day of the year 0. -/
def epochDay : ℕ := 719528

/-- The fraction of a second in milliseconds, without the zeros at its end. -/
def fractionText (milliseconds : ℕ) : Bytes :=
  ((paddedText 3 milliseconds).reverse.dropWhile (· == 0x30)).reverse

/-- `format_utc`: `gmtime_r` gives the date of the day and the time of the day, and `snprintf` says
how many bytes its text has. -/
def formatUtc (unixMs : UInt64) (capacity : ℕ) : Option Bytes :=
  let seconds := unixMs.toNat / 1000
  let date := Calendar.date (epochDay + seconds / 86400)
  let time := seconds % 86400
  let milliseconds := unixMs.toNat % 1000
  let text :=
    paddedText 4 date.1 ++ 0x2d :: (paddedText 2 date.2.1 ++ 0x2d :: (paddedText 2 date.2.2 ++
      0x54 :: (paddedText 2 (time / 3600) ++ 0x3a :: (paddedText 2 (time / 60 % 60) ++
      0x3a :: (paddedText 2 (time % 60) ++
      (if milliseconds = 0 then [] else 0x2e :: fractionText milliseconds) ++ [0x5a])))))
  if text.length < capacity then some text else none

end RlcdDeck.CompanionLink
