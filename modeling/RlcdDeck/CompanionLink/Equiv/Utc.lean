import Mathlib.Data.FinEnum
import Mathlib.Data.List.Induction
import Mathlib.Tactic.IntervalCases
import RlcdDeck.AiSnapshot.Equiv.Times
import RlcdDeck.CompanionLink.Utc
import RlcdDeck.Json.Equiv.Decimal

/-!
# Canonical times are the instants of the calendar

`daysFromCivil_eq`: the formula counts the days of the years and the months before a date.
`parseCanonicalUtc_iff`: what is parsed is the text of a time of the calendar from 1970 on, and its
value is the milliseconds since then.  `parseCanonicalUtc_formatUtc`: what is formatted is parsed.
-/

namespace RlcdDeck.CompanionLink

open AiSnapshot (daysFromCivil leapYear monthDays parseDigits parseFraction parseUtc)
open AiSnapshot.Companion (decimal digitsValue digitsValue_append digitsValue_decimal digitsValue_zeros
  isDigit_decimal length_decimal significant significant_append toNat_digit)
open Calendar (daysBeforeMonth daysBeforeYear daysIn dayNumber dayOf isLeap yearOf yearStart)
open Json (Bytes decimalText isDigit paddedText)

/-! ### Days -/

theorem daysBeforeMonth_eq (year : ℕ) {month : ℕ} (h : 1 ≤ month) (h' : month ≤ 12) :
    if month ≤ 2 then daysBeforeMonth year month + 306 = (153 * (month + 9) + 2) / 5
    else daysBeforeMonth year month = (153 * (month - 3) + 2) / 5 + 59 + if isLeap year then 1 else 0 := by
  cases hleap : isLeap year <;> interval_cases month <;> simp [daysBeforeMonth, daysIn, hleap]

theorem yearStart_eq (n : ℕ) : yearStart (1970 + n) = epochDay + daysBeforeYear n := by
  induction n with
  | zero => rfl
  | succ n ih =>
    rw [← Nat.add_assoc, Calendar.yearStart_succ, ih, daysBeforeYear, Nat.add_assoc]

theorem dayOf_eq {year : ℕ} (h : 1970 ≤ year) (month day : ℕ) :
    dayOf year month day = epochDay + dayNumber year month day := by
  have hstart := yearStart_eq (year - 1970)
  rw [Nat.add_sub_cancel' h] at hstart
  unfold dayOf dayNumber
  omega

/-- **The formula is the calendar's.** -/
theorem daysFromCivil_eq {year month day : ℕ} (hyear : 1970 ≤ year) (hmonth : 1 ≤ month)
    (hmonth' : month ≤ 12) (hday : 1 ≤ day) :
    daysFromCivil year month day = (dayNumber year month day : ℤ) := by
  have hdays := daysBeforeMonth_eq year hmonth hmonth'
  have hdayOf := dayOf_eq hyear month day
  unfold dayOf yearStart epochDay at hdayOf
  unfold daysFromCivil
  dsimp only
  by_cases hearly : month ≤ 2
  · -- January and February belong to the year before.
    rw [if_pos hearly] at hdays ⊢
    rw [if_neg (by omega)]
    generalize daysBeforeMonth year month = before at hdays hdayOf
    obtain ⟨previous, rfl⟩ : ∃ previous, year = previous + 1 := ⟨year - 1, by omega⟩
    rw [Nat.add_sub_cancel]
    omega
  · rw [if_neg hearly] at hdays ⊢
    rw [if_pos (by omega)]
    generalize daysBeforeMonth year month = before at hdays hdayOf
    unfold isLeap at hdays
    simp only [Bool.and_eq_true, Bool.or_eq_true, beq_iff_eq, bne_iff_ne] at hdays
    split_ifs at hdays <;> omega

theorem monthDays_eq (year : ℕ) {month : ℕ} (h : 1 ≤ month) (h' : month ≤ 12) :
    monthDays year month = daysIn year month := by
  have hleap : leapYear year = isLeap year := rfl
  unfold monthDays daysIn
  rw [hleap]
  cases isLeap year <;> interval_cases month <;> rfl

/-! ### Digits -/

theorem foldlM_digits (digits : Bytes) (parsed : ℕ) :
    digits.foldlM (fun parsed c => if isDigit c then some (parsed * 10 + (c.toNat - 0x30)) else none)
      parsed =
      if ∀ c ∈ digits, isDigit c = true then
        some (digits.foldl (fun value c => value * 10 + (c.toNat - 0x30)) parsed)
      else none := by
  induction digits generalizing parsed with
  | nil => simp
  | cons c digits ih =>
    rw [List.foldlM_cons]
    by_cases hc : isDigit c = true
    · rw [if_pos hc]
      refine (ih _).trans ?_
      simp [hc]
    · rw [if_neg hc, if_neg fun h => hc (h c List.mem_cons_self)]
      rfl

variable {value : Bytes} {n : ℕ}

theorem parseDigits_eq_some {start count : ℕ} :
    parseDigits value start count = some n ↔
      (∀ c ∈ (value.drop start).take count, isDigit c = true) ∧
        digitsValue ((value.drop start).take count) = n := by
  unfold parseDigits
  rw [foldlM_digits]
  split_ifs with h
  · rw [Option.some.injEq]
    exact (and_iff_right h).symm
  · exact ⟨fun h' => (by cases h'), fun h' => absurd h'.1 h⟩

variable {digits : Bytes}

theorem digitsValue_lt (h : ∀ c ∈ digits, isDigit c = true) :
    digitsValue digits < 10 ^ digits.length := by
  induction digits using List.reverseRecOn with
  | nil => decide
  | append_singleton digits c ih =>
    have hinit := ih fun c hc => h c (List.mem_append_left _ hc)
    have hlast := h c (List.mem_append_right _ (List.mem_singleton_self c))
    unfold isDigit at hlast
    simp only [Bool.and_eq_true, decide_eq_true_eq] at hlast
    rw [digitsValue_append, List.length_append, List.length_singleton, Nat.pow_succ]
    omega

theorem decimal_digitsValue (h : ∀ c ∈ digits, isDigit c = true) :
    decimal digits.length (digitsValue digits) = digits := by
  induction digits using List.reverseRecOn with
  | nil => rfl
  | append_singleton digits c ih =>
    have hlast := h c (List.mem_append_right _ (List.mem_singleton_self c))
    unfold isDigit at hlast
    simp only [Bool.and_eq_true, decide_eq_true_eq] at hlast
    have hquotient : (digitsValue digits * 10 + (c.toNat - 0x30)) / 10 = digitsValue digits := by omega
    have hremainder : 0x30 + (digitsValue digits * 10 + (c.toNat - 0x30)) % 10 = c.toNat := by omega
    rw [digitsValue_append, List.length_append, List.length_singleton, decimal, hquotient, hremainder,
      ih fun c hc => h c (List.mem_append_left _ hc), UInt8.ofNat_toNat]

theorem paddedText_eq {width : ℕ} (hwidth : 0 < width) (h : n < 10 ^ width) :
    paddedText width n = decimal width n := by
  have hlength := Json.length_decimalText_le hwidth h
  have hvalue : digitsValue (paddedText width n) = n := by
    unfold paddedText digitsValue
    rw [List.foldl_append]
    have hzeros : (List.replicate (width - (decimalText n).length) (0x30 : UInt8)).foldl
        (fun value c => value * 10 + (c.toNat - 0x30)) 0 = 0 := by
      have hzero := digitsValue_zeros [] (width - (decimalText n).length)
      rw [List.nil_append] at hzero
      exact hzero.trans (Nat.zero_mul _)
    rw [hzeros]
    exact Json.foldl_decimalText n
  have hdigits : ∀ c ∈ paddedText width n, isDigit c = true := by
    intro c hc
    rcases List.mem_append.mp hc with hc | hc
    · rw [List.eq_of_mem_replicate hc]
      rfl
    · exact Json.isDigit_decimalText hc
  have hwhole : (paddedText width n).length = width := by
    unfold paddedText
    rw [List.length_append, List.length_replicate]
    omega
  have hdecimal := decimal_digitsValue hdigits
  rw [hwhole, hvalue] at hdecimal
  exact hdecimal.symm

/-! ### Times -/

/-- A time of the calendar, with the digits of its fraction of a second. -/
structure Utc where
  year : ℕ
  month : ℕ
  day : ℕ
  hour : ℕ
  minute : ℕ
  second : ℕ
  fraction : Bytes

namespace Utc

/-- At most nine digits, of which the last counts. -/
structure ValidFraction (fraction : Bytes) : Prop where
  length : fraction.length ≤ 9
  digits : ∀ c ∈ fraction, isDigit c = true
  last : ∀ c ∈ fraction.getLast?, c ≠ 0x30

/-- A time from 1970 on that four digits of the year can write. -/
structure Valid (t : Utc) : Prop where
  year : 1970 ≤ t.year ∧ t.year ≤ 9999
  month : 1 ≤ t.month ∧ t.month ≤ 12
  day : 1 ≤ t.day ∧ t.day ≤ daysIn t.year t.month
  hour : t.hour ≤ 23
  minute : t.minute ≤ 59
  second : t.second ≤ 59
  fraction : ValidFraction t.fraction

/-- What follows the seconds. -/
def tail (fraction : Bytes) : Bytes := (if fraction = [] then [] else 0x2e :: fraction) ++ [0x5a]

/-- What stands before the fraction. -/
def head (t : Utc) : Bytes :=
  decimal 4 t.year ++ 0x2d :: (decimal 2 t.month ++ 0x2d :: (decimal 2 t.day ++ 0x54 ::
    (decimal 2 t.hour ++ 0x3a :: (decimal 2 t.minute ++ 0x3a :: decimal 2 t.second))))

/-- The text of a time, as RFC 3339 has it. -/
def text (t : Utc) : Bytes := t.head ++ tail t.fraction

/-- The milliseconds since the beginning of 1970, rounded down. -/
def milliseconds (t : Utc) : ℕ :=
  dayNumber t.year t.month t.day * 86400000 + t.hour * 3600000 + t.minute * 60000 + t.second * 1000 +
    digitsValue t.fraction * 1000 / 10 ^ t.fraction.length

theorem length_head (t : Utc) : t.head.length = 19 := by
  simp [head, length_decimal]

theorem length_tail (fraction : Bytes) :
    (tail fraction).length = if fraction = [] then 1 else fraction.length + 2 := by
  unfold tail
  split_ifs <;> simp

end Utc

/-! ### Fractions -/

theorem getD_append_cons (before : Bytes) (c : UInt8) (after : Bytes) :
    (before ++ c :: after).getD before.length 0 = c := by
  rw [List.getD_eq_getElem?_getD, List.getElem?_append_right (Nat.le_refl _), Nat.sub_self]
  rfl

/-- The fraction is what stands between the point and the `Z`. -/
theorem parseFraction_cons {before fraction : Bytes} {c : UInt8} (hbefore : before.length = 19)
    {nanoseconds : ℕ} :
    parseFraction (before ++ c :: (fraction ++ [0x5a])) = some nanoseconds ↔
      c = 0x2e ∧ fraction ≠ [] ∧ Utc.ValidFraction fraction ∧
        nanoseconds = digitsValue fraction * 10 ^ (9 - fraction.length) := by
  have hsize : (before ++ c :: (fraction ++ [0x5a])).length = 21 + fraction.length := by
    simp [hbefore]
    omega
  have hpoint : (before ++ c :: (fraction ++ [0x5a])).getD 19 0 = c := by
    rw [← hbefore]
    exact getD_append_cons before c _
  have hdigits : ((before ++ c :: (fraction ++ [0x5a])).drop 20).take fraction.length = fraction := by
    have hsplit : before ++ c :: (fraction ++ [0x5a]) = (before ++ [c]) ++ (fraction ++ [0x5a]) := by simp
    rw [hsplit, List.drop_left' (by simp [hbefore]), List.take_left]
  rcases List.eq_nil_or_concat' fraction with rfl | ⟨init, last, rfl⟩
  · unfold parseFraction
    dsimp only
    rw [hsize, if_pos (by decide), if_pos (by simp)]
    exact ⟨fun h => (by cases h), fun h => absurd rfl h.2.1⟩
  · have hlast : (before ++ c :: (init ++ [last] ++ [0x5a])).getD (21 + (init ++ [last]).length - 2) 0 =
        last := by
      have hsplit : before ++ c :: (init ++ [last] ++ [0x5a]) =
          (before ++ c :: init) ++ last :: [0x5a] := by simp
      have hindex : 21 + (init ++ [last]).length - 2 = (before ++ c :: init).length := by
        simp [hbefore]
        omega
      rw [hsplit, hindex]
      exact getD_append_cons _ last _
    have hcount : (init ++ [last]).length ≠ 0 := by simp
    unfold parseFraction
    dsimp only
    rw [hsize, if_pos (by omega), hpoint, hlast, Nat.add_sub_cancel_left]
    constructor
    · intro h
      split_ifs at h with hwrong
      · cases h
      · obtain ⟨value, hvalue, hscaled⟩ := Option.bind_eq_some_iff.mp h
        obtain ⟨hall, hvalue⟩ := parseDigits_eq_some.mp hvalue
        rw [hdigits] at hall hvalue
        simp only [Bool.or_eq_true, bne_iff_ne, beq_iff_eq, decide_eq_true_eq, not_or, not_not] at hwrong
        refine ⟨hwrong.1.1.1, by simp, ⟨by omega, hall, ?_⟩, ?_⟩
        · simpa using hwrong.2
        · rw [hvalue]
          exact (Option.some.inj hscaled).symm
    · rintro ⟨rfl, -, ⟨hlength, hall, hnonzero⟩, rfl⟩
      have hvalue : parseDigits (before ++ 0x2e :: (init ++ [last] ++ [0x5a])) 20 (init ++ [last]).length =
          some (digitsValue (init ++ [last])) := parseDigits_eq_some.mpr (by rw [hdigits]; exact ⟨hall, rfl⟩)
      rw [if_neg, hvalue]
      · rfl
      · simp only [Bool.or_eq_true, bne_iff_ne, beq_iff_eq, decide_eq_true_eq, not_or, not_not]
        exact ⟨⟨⟨trivial, hcount⟩, by omega⟩, hnonzero last (by simp)⟩

theorem parseFraction_append {before after : Bytes} {nanoseconds : ℕ} (hbefore : before.length = 19)
    (hafter : after.getLast? = some 0x5a) :
    parseFraction (before ++ after) = some nanoseconds ↔
      ∃ fraction, Utc.ValidFraction fraction ∧ after = Utc.tail fraction ∧
        nanoseconds = digitsValue fraction * 10 ^ (9 - fraction.length) := by
  obtain ⟨body, rfl⟩ := List.getLast?_eq_some_iff.mp hafter
  cases body with
  | nil =>
    have hzero : parseFraction (before ++ [0x5a]) = some 0 := by
      unfold parseFraction
      dsimp only
      rw [if_neg (by simp [hbefore])]
    rw [List.nil_append, hzero]
    constructor
    · intro h
      obtain rfl := Option.some.inj h
      exact ⟨[], ⟨by decide, by simp, by simp⟩, rfl, rfl⟩
    · rintro ⟨fraction, -, htail, rfl⟩
      have hlength := congrArg List.length htail
      rw [Utc.length_tail, List.length_singleton] at hlength
      split_ifs at hlength with hnil
      · rw [hnil]
        rfl
      · omega
  | cons c fraction =>
    rw [List.cons_append, parseFraction_cons hbefore]
    constructor
    · rintro ⟨rfl, hnonempty, hvalid, hvalue⟩
      refine ⟨fraction, hvalid, ?_, hvalue⟩
      unfold Utc.tail
      rw [if_neg hnonempty]
      rfl
    · rintro ⟨fraction', hvalid, htail, hvalue⟩
      unfold Utc.tail at htail
      split_ifs at htail with hnil
      · simp at htail
      · obtain ⟨rfl, hfraction⟩ := List.cons.inj htail
        obtain rfl := List.append_cancel_right hfraction
        exact ⟨rfl, hnil, hvalid, hvalue⟩

/-! ### Texts -/

theorem drop_eq_cons {i : ℕ} {c : UInt8} (hi : i < value.length) (hc : value.getD i 0 = c) :
    value.drop i = c :: value.drop (i + 1) := by
  rw [List.getD_eq_getElem?_getD, List.getElem?_eq_getElem hi, Option.getD_some] at hc
  rw [List.drop_eq_getElem_cons hi, hc]

theorem drop_eq_append (value : Bytes) (i count : ℕ) :
    value.drop i = (value.drop i).take count ++ value.drop (i + count) := by
  rw [← List.drop_drop, List.take_append_drop]

theorem decimal_of_parseDigits {start count : ℕ} (h : parseDigits value start count = some n)
    (hlength : start + count ≤ value.length) :
    (value.drop start).take count = decimal count n := by
  obtain ⟨hdigits, rfl⟩ := parseDigits_eq_some.mp h
  have hcount : ((value.drop start).take count).length = count := by
    rw [List.length_take, List.length_drop]
    omega
  have hdecimal := decimal_digitsValue hdigits
  rw [hcount] at hdecimal
  exact hdecimal.symm

theorem digitsValue_scaled (h : digits.length ≤ 9) :
    digitsValue digits * 10 ^ (9 - digits.length) / 1000000 =
      digitsValue digits * 1000 / 10 ^ digits.length := by
  have hpositive : 0 < 10 ^ digits.length := Nat.pow_pos (by decide)
  have hpower : 10 ^ (9 - digits.length) * 10 ^ digits.length = 1000 * 1000000 := by
    rw [← Nat.pow_add, Nat.sub_add_cancel h]
  calc digitsValue digits * 10 ^ (9 - digits.length) / 1000000
    _ = digitsValue digits * 10 ^ (9 - digits.length) * 10 ^ digits.length /
        (1000000 * 10 ^ digits.length) := (Nat.mul_div_mul_right _ _ hpositive).symm
    _ = digitsValue digits * 1000 * 1000000 / (10 ^ digits.length * 1000000) := by
      rw [Nat.mul_assoc, hpower, Nat.mul_assoc, Nat.mul_comm 1000000]
    _ = digitsValue digits * 1000 / 10 ^ digits.length := Nat.mul_div_mul_right _ _ (by decide)

variable {ms : ℕ}

/-- What is parsed is the text of a time. -/
theorem utc_of_parseUtc (h : parseUtc value = some ms) :
    ∃ t : Utc, t.Valid ∧ value = t.text ∧ ms = t.milliseconds := by
  unfold parseUtc at h
  dsimp only at h
  split at h
  · cases h
  rename_i hshape
  obtain ⟨year, hyear, h⟩ := Option.bind_eq_some_iff.mp h
  obtain ⟨month, hmonth, h⟩ := Option.bind_eq_some_iff.mp h
  obtain ⟨day, hday, h⟩ := Option.bind_eq_some_iff.mp h
  obtain ⟨hour, hhour, h⟩ := Option.bind_eq_some_iff.mp h
  obtain ⟨minute, hminute, h⟩ := Option.bind_eq_some_iff.mp h
  obtain ⟨second, hsecond, h⟩ := Option.bind_eq_some_iff.mp h
  split at h
  · cases h
  rename_i hrange
  obtain ⟨nanoseconds, hfraction, h⟩ := Option.bind_eq_some_iff.mp h
  split at h
  · cases h
  have hms := Option.some.inj h
  simp only [Bool.or_eq_true, decide_eq_true_eq, bne_iff_ne, beq_iff_eq, not_or, not_not, not_lt]
    at hshape hrange
  obtain ⟨⟨⟨⟨⟨⟨⟨hsmall, hlarge⟩, hyearEnd⟩, hmonthEnd⟩, hdayEnd⟩, hhourEnd⟩, hminuteEnd⟩, hlast⟩ := hshape
  obtain ⟨⟨⟨⟨⟨⟨⟨hepoch, hfirst⟩, htwelve⟩, hdayFirst⟩, hdayLast⟩, hhours⟩, hminutes⟩, hseconds⟩ := hrange
  have hmonth1 : 1 ≤ month := Nat.one_le_iff_ne_zero.mpr hfirst
  have hyears : year ≤ 9999 := by
    obtain ⟨hdigits, rfl⟩ := parseDigits_eq_some.mp hyear
    have hlt := digitsValue_lt hdigits
    have hle : ((value.drop 0).take 4).length ≤ 4 := List.length_take_le 4 _
    have := Nat.pow_le_pow_right (by decide : 0 < 10) hle
    omega
  have hvalue : value = Utc.head ⟨year, month, day, hour, minute, second, []⟩ ++ value.drop 19 := by
    have htext := drop_eq_append value 0 4
    rw [decimal_of_parseDigits hyear (by omega), drop_eq_cons (by omega) hyearEnd, drop_eq_append value 5 2,
      decimal_of_parseDigits hmonth (by omega), drop_eq_cons (by omega) hmonthEnd, drop_eq_append value 8 2,
      decimal_of_parseDigits hday (by omega), drop_eq_cons (by omega) hdayEnd, drop_eq_append value 11 2,
      decimal_of_parseDigits hhour (by omega), drop_eq_cons (by omega) hhourEnd, drop_eq_append value 14 2,
      decimal_of_parseDigits hminute (by omega), drop_eq_cons (by omega) hminuteEnd,
      drop_eq_append value 17 2, decimal_of_parseDigits hsecond (by omega), List.drop_zero] at htext
    simpa [Utc.head] using htext
  have hz : (value.drop 19).getLast? = some 0x5a := by
    rw [List.getLast?_drop, if_neg (by omega), List.getLast?_eq_getElem?]
    rw [List.getD_eq_getElem?_getD, List.getElem?_eq_getElem (by omega), Option.getD_some] at hlast
    rw [List.getElem?_eq_getElem (by omega), hlast]
  rw [hvalue] at hfraction
  obtain ⟨fraction, hvalid, htail, rfl⟩ := (parseFraction_append (Utc.length_head _) hz).mp hfraction
  refine ⟨⟨year, month, day, hour, minute, second, fraction⟩,
    ⟨⟨hepoch, hyears⟩, ⟨hmonth1, htwelve⟩, ⟨Nat.one_le_iff_ne_zero.mpr hdayFirst, ?_⟩, hhours, hminutes,
      hseconds, hvalid⟩, ?_, ?_⟩
  · rw [← monthDays_eq year hmonth1 htwelve]
    exact hdayLast
  · rw [htail] at hvalue
    exact hvalue
  · rw [← hms, daysFromCivil_eq hepoch hmonth1 htwelve (Nat.one_le_iff_ne_zero.mpr hdayFirst),
      Int.toNat_natCast, digitsValue_scaled hvalid.length]
    rfl

/-- The text of a time is parsed. -/
theorem parseUtc_text {t : Utc} (h : t.Valid) : parseUtc t.text = some t.milliseconds := by
  have hlength : t.text.length = 19 + (Utc.tail t.fraction).length := by
    rw [Utc.text, List.length_append, Utc.length_head]
  have htail := Utc.length_tail t.fraction
  have hfractionLength := h.fraction.length
  have hz : (Utc.tail t.fraction).getLast? = some 0x5a := by
    unfold Utc.tail
    rw [List.getLast?_append]
    rfl
  have hlast : t.text.getD (t.text.length - 1) 0 = 0x5a := by
    rw [List.getD_eq_getElem?_getD, ← List.getLast?_eq_getElem?, Utc.text, List.getLast?_append, hz]
    rfl
  have hparse {start count n : ℕ} (hslice : (t.text.drop start).take count = decimal count n)
      (hn : n < 10 ^ count) : parseDigits t.text start count = some n := by
    refine parseDigits_eq_some.mpr ⟨fun c hc => ?_, ?_⟩
    · rw [hslice] at hc
      exact isDigit_decimal hc
    · rw [hslice, digitsValue_decimal, Nat.mod_eq_of_lt hn]
  have hmonth := h.month
  have hday : daysIn t.year t.month ≤ 31 := by
    unfold daysIn
    split <;> (try split_ifs) <;> omega
  have hyear : parseDigits t.text 0 4 = some t.year := hparse rfl (by have := h.year; omega)
  have hmonth' : parseDigits t.text 5 2 = some t.month := hparse rfl (by omega)
  have hday' : parseDigits t.text 8 2 = some t.day := hparse rfl (by have := h.day; omega)
  have hhour : parseDigits t.text 11 2 = some t.hour := hparse rfl (by have := h.hour; omega)
  have hminute : parseDigits t.text 14 2 = some t.minute := hparse rfl (by have := h.minute; omega)
  have hsecond : parseDigits t.text 17 2 = some t.second := hparse rfl (by have := h.second; omega)
  have hfraction : parseFraction t.text =
      some (digitsValue t.fraction * 10 ^ (9 - t.fraction.length)) :=
    (parseFraction_append (Utc.length_head t) hz).mpr ⟨t.fraction, h.fraction, rfl, rfl⟩
  have hseparators : t.text.getD 4 0 = 0x2d ∧ t.text.getD 7 0 = 0x2d ∧ t.text.getD 10 0 = 0x54 ∧
      t.text.getD 13 0 = 0x3a ∧ t.text.getD 16 0 = 0x3a := ⟨rfl, rfl, rfl, rfl, rfl⟩
  obtain ⟨h4, h7, h10, h13, h16⟩ := hseparators
  have hsize : 20 ≤ t.text.length ∧ t.text.length ≤ 30 := by
    rw [hlength, htail]
    split_ifs <;> omega
  have hdays := daysFromCivil_eq h.year.1 h.month.1 h.month.2 h.day.1
  have hdayLast := h.day.2
  rw [← monthDays_eq t.year h.month.1 h.month.2] at hdayLast
  unfold parseUtc
  dsimp only
  rw [if_neg]
  · simp only [hyear, hmonth', hday', hhour, hminute, hsecond, hfraction, Option.bind_eq_bind,
      Option.bind_some]
    rw [if_neg]
    · rw [hdays, if_neg (by omega), digitsValue_scaled hfractionLength, Int.toNat_natCast]
      rfl
    · simp only [Bool.or_eq_true, decide_eq_true_eq, beq_iff_eq, not_or, not_lt]
      have hdayFirst := h.day.1
      exact ⟨⟨⟨⟨⟨⟨⟨h.year.1, by omega⟩, h.month.2⟩, by omega⟩, hdayLast⟩, h.hour⟩, h.minute⟩, h.second⟩
  · simp only [Bool.or_eq_true, decide_eq_true_eq, bne_iff_ne, not_or, not_not, not_lt]
    exact ⟨⟨⟨⟨⟨⟨⟨hsize.1, hsize.2⟩, h4⟩, h7⟩, h10⟩, h13⟩, h16⟩, hlast⟩

/-- **Exactly the texts of times are parsed.** -/
theorem parseCanonicalUtc_iff :
    parseCanonicalUtc value = some ms ↔
      ∃ t : Utc, t.Valid ∧ value = t.text ∧ ms = t.milliseconds := by
  constructor
  · exact utc_of_parseUtc
  · rintro ⟨t, hvalid, rfl, rfl⟩
    exact parseUtc_text hvalid

theorem milliseconds_lt {t : Utc} (h : t.Valid) : t.milliseconds < 2 ^ 64 := by
  have hdays := daysFromCivil_eq h.year.1 h.month.1 h.month.2 h.day.1
  have hlast : daysIn t.year t.month ≤ 31 := by
    unfold daysIn
    split <;> (try split_ifs) <;> omega
  have hnumber : dayNumber t.year t.month t.day ≤ 4000000 := by
    have hyear := h.year.2
    have hmonth := h.month.2
    have hday := h.day.2
    unfold daysFromCivil at hdays
    dsimp only at hdays
    split_ifs at hdays <;> omega
  have hfraction : digitsValue t.fraction * 1000 / 10 ^ t.fraction.length < 1000 := by
    rw [Nat.div_lt_iff_lt_mul (Nat.pow_pos (by decide)), Nat.mul_comm]
    exact Nat.mul_lt_mul_of_pos_left (digitsValue_lt h.fraction.digits) (by decide)
  have hhour := h.hour
  have hminute := h.minute
  have hsecond := h.second
  unfold Utc.milliseconds
  omega

/-! ### Formatted times -/

theorem fractionText_spec {milliseconds : ℕ} (hpositive : milliseconds ≠ 0) (h : milliseconds < 1000) :
    fractionText milliseconds ≠ [] ∧ (fractionText milliseconds).length ≤ 3 ∧
      Utc.ValidFraction (fractionText milliseconds) ∧
        digitsValue (fractionText milliseconds) * 1000 / 10 ^ (fractionText milliseconds).length =
          milliseconds := by
  have hpadded : paddedText 3 milliseconds = decimal 3 milliseconds := paddedText_eq (by decide) h
  have htext : fractionText milliseconds = significant (decimal 3 milliseconds) := by
    unfold fractionText significant
    rw [hpadded]
  have hvalue : digitsValue (decimal 3 milliseconds) = milliseconds :=
    (digitsValue_decimal 3 milliseconds).trans (Nat.mod_eq_of_lt h)
  rw [htext]
  obtain ⟨count, hcount⟩ := significant_append (decimal 3 milliseconds)
  have hlength := congrArg List.length hcount
  rw [length_decimal, List.length_append, List.length_replicate] at hlength
  have hscaled := congrArg digitsValue hcount
  rw [digitsValue_zeros, hvalue] at hscaled
  refine ⟨?_, by omega, ⟨by omega, fun c hc => ?_, fun c hc => ?_⟩, ?_⟩
  · intro hnil
    rw [hnil] at hscaled
    exact hpositive (hscaled.trans (Nat.zero_mul _))
  · refine @isDigit_decimal 3 milliseconds c ?_
    rw [hcount]
    exact List.mem_append_left _ hc
  · -- the zeros at the end are dropped
    unfold significant at hc
    rw [List.getLast?_reverse] at hc
    have hhead := List.head?_dropWhile_not (· == (0x30 : UInt8)) (decimal 3 milliseconds).reverse
    rw [Option.mem_def.mp hc] at hhead
    simpa using hhead
  · have hpower : 10 ^ count * 10 ^ (significant (decimal 3 milliseconds)).length = 1000 := by
      rw [← Nat.pow_add, Nat.add_comm, ← hlength]
    calc digitsValue (significant (decimal 3 milliseconds)) * 1000 /
          10 ^ (significant (decimal 3 milliseconds)).length
      _ = milliseconds * 10 ^ (significant (decimal 3 milliseconds)).length /
          10 ^ (significant (decimal 3 milliseconds)).length := by
        rw [← hpower, ← Nat.mul_assoc, ← hscaled]
      _ = milliseconds := Nat.mul_div_cancel _ (Nat.pow_pos (by decide))

theorem yearOf_mem {day : ℕ} (h : day < 2932897) :
    1970 ≤ yearOf (epochDay + day) ∧ yearOf (epochDay + day) ≤ 9999 := by
  constructor
  · by_contra hlt
    have hspec := (Calendar.yearOf_spec (epochDay + day)).2
    have hle : yearStart (yearOf (epochDay + day) + 1) ≤ yearStart 1970 := by
      unfold yearStart
      omega
    have : yearStart 1970 = epochDay := rfl
    omega
  · have hend : yearStart 10000 = epochDay + 2932897 := rfl
    have : yearOf (epochDay + day) < 10000 := Calendar.yearOf_lt (by omega)
    omega

/-- The time that is formatted. -/
def Utc.ofMilliseconds (ms : ℕ) : Utc :=
  { year := (Calendar.date (epochDay + ms / 1000 / 86400)).1
    month := (Calendar.date (epochDay + ms / 1000 / 86400)).2.1
    day := (Calendar.date (epochDay + ms / 1000 / 86400)).2.2
    hour := ms / 1000 % 86400 / 3600
    minute := ms / 1000 % 86400 / 60 % 60
    second := ms / 1000 % 86400 % 60
    fraction := if ms % 1000 = 0 then [] else fractionText (ms % 1000) }

theorem validFraction_ofMilliseconds (ms : ℕ) :
    Utc.ValidFraction (Utc.ofMilliseconds ms).fraction ∧ (Utc.ofMilliseconds ms).fraction.length ≤ 3 ∧
      digitsValue (Utc.ofMilliseconds ms).fraction * 1000 /
        10 ^ (Utc.ofMilliseconds ms).fraction.length = ms % 1000 := by
  by_cases hzero : ms % 1000 = 0
  · have hfraction : (Utc.ofMilliseconds ms).fraction = [] := if_pos hzero
    rw [hfraction, hzero]
    exact ⟨⟨by decide, by simp, by simp⟩, by decide, rfl⟩
  · have hfraction : (Utc.ofMilliseconds ms).fraction = fractionText (ms % 1000) := if_neg hzero
    obtain ⟨-, hlength, hvalid, hvalue⟩ := fractionText_spec hzero (Nat.mod_lt ms (by decide))
    rw [hfraction]
    exact ⟨hvalid, hlength, hvalue⟩

theorem valid_ofMilliseconds (h : ms ≤ 253402300799999) : (Utc.ofMilliseconds ms).Valid := by
  obtain ⟨hmonth, hmonth', hday, hday', -⟩ := Calendar.date_spec (epochDay + ms / 1000 / 86400)
  refine ⟨yearOf_mem (by omega), ⟨hmonth, hmonth'⟩, ⟨hday, hday'⟩, ?_, ?_, ?_,
    (validFraction_ofMilliseconds ms).1⟩
  · show ms / 1000 % 86400 / 3600 ≤ 23
    omega
  · show ms / 1000 % 86400 / 60 % 60 ≤ 59
    omega
  · show ms / 1000 % 86400 % 60 ≤ 59
    omega

theorem milliseconds_ofMilliseconds (h : ms ≤ 253402300799999) :
    (Utc.ofMilliseconds ms).milliseconds = ms := by
  have hdays := dayOf_eq (valid_ofMilliseconds h).year.1 (Utc.ofMilliseconds ms).month
    (Utc.ofMilliseconds ms).day
  have hdate := Calendar.dayOf_date (epochDay + ms / 1000 / 86400)
  have hnumber : dayNumber (Utc.ofMilliseconds ms).year (Utc.ofMilliseconds ms).month
      (Utc.ofMilliseconds ms).day = ms / 1000 / 86400 := by
    have hsame := hdays.symm.trans hdate
    omega
  unfold Utc.milliseconds
  rw [hnumber, (validFraction_ofMilliseconds ms).2.2]
  show ms / 1000 / 86400 * 86400000 + ms / 1000 % 86400 / 3600 * 3600000 +
    ms / 1000 % 86400 / 60 % 60 * 60000 + ms / 1000 % 86400 % 60 * 1000 + ms % 1000 = ms
  omega

/-- The text of `format_utc` is the text of its time. -/
theorem formatUtc_eq {unixMs : UInt64} (h : unixMs.toNat ≤ 253402300799999) :
    formatUtc unixMs 32 = some (Utc.ofMilliseconds unixMs.toNat).text := by
  generalize hms : unixMs.toNat = ms at h
  have hvalid := valid_ofMilliseconds h
  have hthirty : daysIn (Utc.ofMilliseconds ms).year (Utc.ofMilliseconds ms).month ≤ 31 := by
    unfold daysIn
    split <;> (try split_ifs) <;> omega
  have hlength : (Utc.ofMilliseconds ms).text.length < 32 := by
    have hfraction := (validFraction_ofMilliseconds ms).2.1
    rw [Utc.text, List.length_append, Utc.length_head, Utc.length_tail]
    split_ifs <;> omega
  have htwo {n : ℕ} (hn : n < 100) : paddedText 2 n = decimal 2 n := paddedText_eq (by decide) hn
  have hyear := hvalid.year
  have hmonth := hvalid.month
  have hday := hvalid.day
  have htail : (if ms % 1000 = 0 then [] else 0x2e :: fractionText (ms % 1000)) ++ [0x5a] =
      Utc.tail (Utc.ofMilliseconds ms).fraction := by
    unfold Utc.tail Utc.ofMilliseconds
    dsimp only
    by_cases hzero : ms % 1000 = 0
    · rw [if_pos hzero, if_pos hzero, if_pos rfl]
    · rw [if_neg hzero, if_neg hzero, if_neg (fractionText_spec hzero (Nat.mod_lt ms (by decide))).1]
  have htext : paddedText 4 (Utc.ofMilliseconds ms).year ++ 0x2d ::
      (paddedText 2 (Utc.ofMilliseconds ms).month ++ 0x2d ::
      (paddedText 2 (Utc.ofMilliseconds ms).day ++ 0x54 ::
      (paddedText 2 (Utc.ofMilliseconds ms).hour ++ 0x3a ::
      (paddedText 2 (Utc.ofMilliseconds ms).minute ++ 0x3a ::
      (paddedText 2 (Utc.ofMilliseconds ms).second ++
      (if ms % 1000 = 0 then [] else 0x2e :: fractionText (ms % 1000)) ++ [0x5a]))))) =
      (Utc.ofMilliseconds ms).text := by
    rw [paddedText_eq (by decide) (Nat.lt_succ_of_le hyear.2 : _ < 10 ^ 4),
      htwo (Nat.lt_of_le_of_lt hmonth.2 (by decide)),
      htwo (Nat.lt_of_le_of_lt (hday.2.trans hthirty) (by decide)),
      htwo (Nat.lt_of_le_of_lt hvalid.hour (by decide)), htwo (Nat.lt_of_le_of_lt hvalid.minute (by decide)),
      htwo (Nat.lt_of_le_of_lt hvalid.second (by decide)), List.append_assoc (decimal 2 _), htail]
    simp [Utc.text, Utc.head]
  unfold formatUtc
  rw [hms]
  exact (congrArg (fun text : Bytes => if text.length < 32 then some text else none) htext).trans
    (if_pos hlength)

/-- **What is formatted is parsed.** -/
theorem parseCanonicalUtc_formatUtc {unixMs : UInt64} (h : unixMs.toNat ≤ 253402300799999) :
    ∃ text, formatUtc unixMs 32 = some text ∧ parseCanonicalUtc text = some unixMs.toNat := by
  refine ⟨_, formatUtc_eq h, ?_⟩
  rw [parseCanonicalUtc_iff]
  exact ⟨_, valid_ofMilliseconds h, rfl, (milliseconds_ofMilliseconds h).symm⟩

/-- Exactly the texts of the times of the calendar from 1970 on are parsed, as the milliseconds since
then, and every time that is formatted is read back. -/
theorem canonical_utc_conversion :
    (∀ (value : Bytes) (ms : ℕ), parseCanonicalUtc value = some ms ↔
      ∃ t : Utc, t.Valid ∧ value = t.text ∧ ms = t.milliseconds) ∧
    (∀ year month day : ℕ, 1970 ≤ year → 1 ≤ month → month ≤ 12 → 1 ≤ day → day ≤ daysIn year month →
      daysFromCivil year month day = (dayNumber year month day : ℤ)) ∧
    (∀ unixMs : UInt64, unixMs.toNat ≤ 253402300799999 →
      ∃ text, formatUtc unixMs 32 = some text ∧ parseCanonicalUtc text = some unixMs.toNat) :=
  ⟨fun _ _ => parseCanonicalUtc_iff,
    fun _ _ _ hyear hmonth hmonth' hday _ => daysFromCivil_eq hyear hmonth hmonth' hday,
    fun _ => parseCanonicalUtc_formatUtc⟩

end RlcdDeck.CompanionLink
