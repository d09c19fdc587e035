import RlcdDeck.AiSnapshot.Instant
import RlcdDeck.Calendar.Equiv.Date
import Mathlib.Tactic.Ring

/-!
# The text of a time

What `Format` writes, `time.Parse` reads back (`timeParse_format`).
-/

namespace RlcdDeck.AiSnapshot.Companion

open Json (Bytes isDigit)

/-- A time of the calendar, up to the year 9999. -/
structure Time.Valid (t : Time) : Prop where
  year : t.year ≤ 9999
  month : 1 ≤ t.month ∧ t.month ≤ 12
  day : 1 ≤ t.day ∧ t.day ≤ Calendar.daysIn t.year t.month
  hour : t.hour ≤ 23
  minute : t.minute ≤ 59
  second : t.second ≤ 59
  nanosecond : t.nanosecond < 1000000000

/-! ### Digits -/

/-- The number that digits write. -/
def digitsValue (digits : Bytes) : ℕ :=
  digits.foldl (fun value c => value * 10 + (c.toNat - 0x30)) 0

theorem digitsValue_append (digits : Bytes) (c : UInt8) :
    digitsValue (digits ++ [c]) = digitsValue digits * 10 + (c.toNat - 0x30) := by
  unfold digitsValue
  rw [List.foldl_append, List.foldl_cons, List.foldl_nil]

theorem toNat_digit {n : ℕ} (h : n < 10) : (UInt8.ofNat (0x30 + n)).toNat = 0x30 + n := by
  rw [UInt8.toNat_ofNat']
  omega

theorem isDigit_digit {n : ℕ} (h : n < 10) : isDigit (UInt8.ofNat (0x30 + n)) = true := by
  unfold isDigit
  rw [toNat_digit h, Bool.and_eq_true, decide_eq_true_eq, decide_eq_true_eq]
  omega

theorem length_decimal (width value : ℕ) : (decimal width value).length = width := by
  induction width generalizing value with
  | zero => rfl
  | succ width ih => rw [decimal, List.length_append, ih, List.length_singleton]

theorem isDigit_decimal {width value : ℕ} {c : UInt8} (h : c ∈ decimal width value) :
    isDigit c = true := by
  induction width generalizing value with
  | zero => cases h
  | succ width ih =>
    rcases List.mem_append.mp h with hinit | hlast
    · exact ih hinit
    · rw [List.mem_singleton.mp hlast]
      exact isDigit_digit (Nat.mod_lt _ (by decide))

theorem digitsValue_decimal (width value : ℕ) :
    digitsValue (decimal width value) = value % 10 ^ width := by
  induction width generalizing value with
  | zero => rw [Nat.pow_zero, Nat.mod_one]; rfl
  | succ width ih =>
    rw [decimal, digitsValue_append, ih, toNat_digit (Nat.mod_lt _ (by decide)),
      Nat.pow_succ, Nat.mul_comm (10 ^ width) 10, Nat.mod_mul]
    omega

theorem parseUint_decimal {width value : ℕ} (hwidth : 0 < width) (hvalue : value < 10 ^ width) :
    parseUint (decimal width value) = some value := by
  have hlength := length_decimal width value
  have hne : (decimal width value).isEmpty = false := by
    rw [List.isEmpty_eq_false_iff]
    intro hnil
    rw [hnil, List.length_nil] at hlength
    omega
  have hall : (decimal width value).all isDigit = true :=
    List.all_eq_true.mpr fun c hc => isDigit_decimal hc
  have hdigits := digitsValue_decimal width value
  rw [Nat.mod_eq_of_lt hvalue] at hdigits
  unfold parseUint
  rw [hne, hall, if_neg (by decide)]
  exact congrArg some hdigits

/-! ### The fraction -/

theorem digitsValue_zeros (digits : Bytes) (count : ℕ) :
    digitsValue (digits ++ List.replicate count 0x30) = digitsValue digits * 10 ^ count := by
  induction count with
  | zero => rw [List.replicate_zero, List.append_nil, Nat.pow_zero, Nat.mul_one]
  | succ count ih =>
    have hzero : (0x30 : UInt8).toNat - 0x30 = 0 := rfl
    rw [List.replicate_succ', ← List.append_assoc, digitsValue_append, ih, hzero, Nat.pow_succ]
    ring

/-- Digits without the zeros at their end. -/
def significant (digits : Bytes) : Bytes := (digits.reverse.dropWhile (· == 0x30)).reverse

theorem significant_append (digits : Bytes) :
    ∃ count, digits = significant digits ++ List.replicate count 0x30 := by
  refine ⟨(digits.reverse.takeWhile (· == 0x30)).length, ?_⟩
  have hzeros : digits.reverse.takeWhile (· == 0x30) =
      List.replicate (digits.reverse.takeWhile (· == 0x30)).length 0x30 := by
    apply List.eq_replicate_of_mem
    intro c hc
    simpa using List.mem_takeWhile_imp hc
  calc digits
    _ = digits.reverse.reverse := digits.reverse_reverse.symm
    _ = (digits.reverse.takeWhile (· == 0x30) ++ digits.reverse.dropWhile (· == 0x30)).reverse := by
      rw [List.takeWhile_append_dropWhile]
    _ = significant digits ++ (digits.reverse.takeWhile (· == 0x30)).reverse :=
      List.reverse_append
    _ = significant digits ++
        List.replicate (digits.reverse.takeWhile (· == 0x30)).length 0x30 := by
      rw [hzeros, List.reverse_replicate, List.length_replicate]

theorem parseFraction_significant {digits : Bytes} (hlength : digits.length = 9)
    (hdigits : ∀ c ∈ digits, isDigit c = true) (hvalue : digitsValue digits ≠ 0) :
    parseFraction (0x2e :: (significant digits ++ [0x5a])) = some (digitsValue digits) := by
  obtain ⟨count, hcount⟩ := significant_append digits
  have hsum := congrArg List.length hcount
  rw [hlength, List.length_append, List.length_replicate] at hsum
  have hscaled := congrArg digitsValue hcount
  rw [digitsValue_zeros] at hscaled
  have hdigit : ∀ c ∈ significant digits, isDigit c = true := by
    intro c hc
    apply hdigits
    rw [hcount]
    exact List.mem_append_left _ hc
  have hne : significant digits ≠ [] := by
    intro hnil
    rw [hnil] at hscaled
    exact hvalue (hscaled.trans (Nat.zero_mul _))
  have htake : (significant digits ++ [0x5a]).takeWhile isDigit = significant digits := by
    rw [List.takeWhile_append_of_pos hdigit]
    exact List.append_nil _
  have hdrop : (significant digits ++ [0x5a]).dropWhile isDigit = [0x5a] := by
    rw [List.dropWhile_append_of_pos hdigit]
    rfl
  have hempty : (significant digits).isEmpty = false := List.isEmpty_eq_false_iff.mpr hne
  have hparse : parseUint (significant digits) = some (digitsValue (significant digits)) := by
    unfold parseUint
    rw [hempty, List.all_eq_true.mpr hdigit]
    rfl
  have hcountEq : 9 - (significant digits).length = count := by omega
  unfold parseFraction
  dsimp only
  rw [if_neg (by decide), if_pos (.inl rfl)]
  simp only [htake, hdrop, hempty, hparse, List.take_of_length_le (show (significant digits).length
    ≤ 9 by omega), hcountEq, hscaled]
  rfl

theorem parseFraction_format {nanosecond : ℕ} (h : nanosecond < 1000000000) :
    parseFraction (formatFraction nanosecond ++ [0x5a]) = some nanosecond := by
  have hvalue : digitsValue (decimal 9 nanosecond) = nanosecond :=
    (digitsValue_decimal 9 nanosecond).trans (Nat.mod_eq_of_lt h)
  unfold formatFraction
  by_cases hzero : nanosecond = 0
  · rw [if_pos hzero, hzero]
    rfl
  · rw [if_neg hzero]
    have hparse := parseFraction_significant (length_decimal 9 nanosecond)
      (fun c hc => isDigit_decimal hc) (by rwa [hvalue])
    rw [hvalue] at hparse
    exact hparse

/-! ### Times -/

theorem parseUint_two {value : ℕ} (h : value < 100) :
    parseUint [UInt8.ofNat (0x30 + value / 10 % 10), UInt8.ofNat (0x30 + value % 10)] =
      some value :=
  @parseUint_decimal 2 value (by decide) h

theorem parseUint_four {value : ℕ} (h : value < 10000) :
    parseUint [UInt8.ofNat (0x30 + value / 10 / 10 / 10 % 10),
      UInt8.ofNat (0x30 + value / 10 / 10 % 10), UInt8.ofNat (0x30 + value / 10 % 10),
      UInt8.ofNat (0x30 + value % 10)] = some value :=
  @parseUint_decimal 4 value (by decide) h

/-- **What is written is read back.** -/
theorem timeParse_format {t : Time} (h : t.Valid) : timeParse t.format = some t := by
  have hyear : t.year < 10000 := Nat.lt_succ_of_le h.year
  have hmonth : t.month < 100 := Nat.lt_of_le_of_lt h.month.2 (by decide)
  have hin : Calendar.daysIn t.year t.month ≤ 31 := by
    unfold Calendar.daysIn
    split <;> (try split_ifs) <;> omega
  have hday : t.day < 100 := by
    have hle := h.day.2
    omega
  have hhour : t.hour < 100 := Nat.lt_of_le_of_lt h.hour (by decide)
  have hminute : t.minute < 100 := Nat.lt_of_le_of_lt h.minute (by decide)
  have hsecond : t.second < 100 := Nat.lt_of_le_of_lt h.second (by decide)
  have hfraction := parseFraction_format h.nanosecond
  unfold Time.format
  simp only [decimal, List.nil_append, List.cons_append]
  unfold timeParse
  simp only [parseUint_four hyear, parseUint_two hmonth, parseUint_two hday, parseUint_two hhour,
    parseUint_two hminute, parseUint_two hsecond, hfraction]
  rw [if_neg (by decide)]
  show (if _ then some t else none) = some t
  rw [if_pos]
  simp only [Bool.and_eq_true, decide_eq_true_eq]
  exact ⟨⟨⟨⟨⟨⟨h.month.1, h.month.2⟩, h.day.1⟩, h.day.2⟩, h.hour⟩, h.minute⟩, h.second⟩

/-! ### Instants -/

theorem valid_ofNanoseconds {n : ℕ} (h : (Time.ofNanoseconds n).year ≤ 9999) :
    (Time.ofNanoseconds n).Valid := by
  obtain ⟨hmonth, hmonth', hday, hday', -⟩ := Calendar.date_spec (n / dayNanoseconds)
  have hseconds : n % dayNanoseconds / 1000000000 < 86400 := by
    unfold dayNanoseconds
    omega
  refine ⟨h, ⟨hmonth, hmonth'⟩, ⟨hday, hday'⟩, ?_, ?_, ?_, Nat.mod_lt _ (by decide)⟩
  · show n % dayNanoseconds / 1000000000 / 3600 ≤ 23
    omega
  · show n % dayNanoseconds / 1000000000 / 60 % 60 ≤ 59
    omega
  · show n % dayNanoseconds / 1000000000 % 60 ≤ 59
    omega

theorem nanoseconds_ofNanoseconds (n : ℕ) : (Time.ofNanoseconds n).nanoseconds = n := by
  have hday := Calendar.dayOf_date (n / dayNanoseconds)
  unfold Time.nanoseconds Time.ofNanoseconds
  dsimp only
  rw [hday]
  unfold dayNanoseconds
  omega

/-- **The text of an instant is read as the instant.** -/
theorem unmarshalInstant_marshal {instant : ℤ} {text : Bytes}
    (h : marshalInstant instant = some text) : unmarshalInstant text = some instant := by
  obtain ⟨t, ht, h⟩ := Option.bind_eq_some_iff.mp h
  unfold Time.ofInstant at ht
  split_ifs at ht with hpos
  obtain rfl := Option.some.inj ht
  split_ifs at h with hyear
  obtain rfl := Option.some.inj h
  unfold unmarshalInstant
  rw [timeParse_format (valid_ofNanoseconds hyear), Option.map_some]
  unfold Time.instant
  rw [nanoseconds_ofNanoseconds, Int.toNat_of_nonneg hpos]
  congr 1
  omega

end RlcdDeck.AiSnapshot.Companion
