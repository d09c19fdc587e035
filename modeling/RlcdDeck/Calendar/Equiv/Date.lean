import RlcdDeck.Calendar.Date
import Mathlib.Order.Monotone.Basic
import Mathlib.Tactic.Common

/-!
# Every day has one date

`date_spec`: the date of a day is one of the calendar.  `dayOf_date`: it is the date of no other
day.  `dayOf_injective`: no other date is that of the day.
-/

namespace RlcdDeck.Calendar

/-! ### Years -/

theorem yearStart_succ (year : ℕ) : yearStart (year + 1) = yearStart year + daysInYear year := by
  -- Each quotient grows by one after a year that its divisor divides.
  have hfour : (year + 1 + 3) / 4 = (year + 3) / 4 + if year % 4 = 0 then 1 else 0 := by
    split_ifs <;> omega
  have hcentury : (year + 1 + 99) / 100 = (year + 99) / 100 + if year % 100 = 0 then 1 else 0 := by
    split_ifs <;> omega
  have hera : (year + 1 + 399) / 400 = (year + 399) / 400 + if year % 400 = 0 then 1 else 0 := by
    split_ifs <;> omega
  have hle : (year + 99) / 100 ≤ 365 * year := by omega
  have hfour_century : year % 100 = 0 → year % 4 = 0 := by omega
  have hcentury_era : year % 400 = 0 → year % 100 = 0 := by omega
  unfold yearStart daysInYear isLeap
  simp only [beq_iff_eq, bne_iff_ne, Bool.and_eq_true, Bool.or_eq_true]
  rw [hfour, hcentury, hera]
  generalize (year + 3) / 4 = four at *
  generalize (year + 99) / 100 = century at *
  generalize (year + 399) / 400 = era at *
  by_cases h : year % 4 = 0 <;> by_cases h' : year % 100 = 0 <;> by_cases h'' : year % 400 = 0 <;>
    simp only [h, h', h'', true_implies, if_true, if_false, and_true, or_true, or_false, not_true,
      ne_eq, and_self, and_false, not_false_eq_true] at * <;>
    omega

theorem yearStart_bounds (year : ℕ) :
    146097 * year ≤ 400 * yearStart year + 396 ∧ 400 * yearStart year ≤ 146097 * year + 699 := by
  unfold yearStart
  omega

theorem yearOf_spec (day : ℕ) : yearStart (yearOf day) ≤ day ∧ day < yearStart (yearOf day + 1) := by
  have hguess := Nat.div_add_mod (day * 400) 146097
  have hlt := Nat.mod_lt (day * 400) (by decide : 0 < 146097)
  unfold yearOf
  dsimp only
  generalize day * 400 / 146097 = guess at hguess ⊢
  have hlower : 146097 * guess ≤ 400 * day := by omega
  have hupper : 400 * day < 146097 * (guess + 1) := by omega
  clear hguess hlt
  split_ifs with hsmall hlarge
  · have hpos : guess ≠ 0 := by
      rintro rfl
      exact absurd hsmall (Nat.not_lt_zero day)
    have hsucc := Nat.sub_add_cancel (Nat.one_le_iff_ne_zero.mpr hpos)
    have hbefore := (yearStart_bounds (guess - 1)).2
    rw [hsucc]
    have hstart : 400 * yearStart (guess - 1) ≤ 400 * day := by
      clear hsmall hupper
      omega
    exact ⟨Nat.le_of_mul_le_mul_left hstart (by decide), hsmall⟩
  · have hnext := (yearStart_bounds (guess + 1 + 1)).1
    refine ⟨hlarge, ?_⟩
    clear hlarge hsmall hlower
    omega
  · exact ⟨not_lt.mp hsmall, not_le.mp hlarge⟩

/-! ### Months -/

theorem daysBeforeMonth_succ (year : ℕ) {month : ℕ} (h : 1 ≤ month) :
    daysBeforeMonth year (month + 1) = daysBeforeMonth year month + daysIn year month := by
  obtain ⟨month, rfl⟩ := Nat.exists_eq_add_of_le' h
  rfl

theorem daysBeforeMonth_year (year : ℕ) :
    daysBeforeMonth year 12 + daysIn year 12 = daysInYear year := by
  unfold daysInYear
  cases hleap : isLeap year <;> simp [daysBeforeMonth, daysIn, hleap]

theorem monthDay_spec {year fuel month rest : ℕ} (hmonth : 1 ≤ month) (hfuel : month + fuel = 12)
    (hrest : daysBeforeMonth year month + rest < daysInYear year) :
    1 ≤ (monthDay year fuel month rest).1 ∧ (monthDay year fuel month rest).1 ≤ 12 ∧
      1 ≤ (monthDay year fuel month rest).2 ∧
      (monthDay year fuel month rest).2 ≤ daysIn year (monthDay year fuel month rest).1 ∧
      daysBeforeMonth year (monthDay year fuel month rest).1 +
        ((monthDay year fuel month rest).2 - 1) = daysBeforeMonth year month + rest := by
  induction fuel generalizing month rest with
  | zero =>
    obtain rfl : month = 12 := hfuel
    have hyear := daysBeforeMonth_year year
    simp only [monthDay]
    omega
  | succ fuel ih =>
    rw [monthDay]
    split_ifs with hin
    · dsimp only
      omega
    · have hsucc := daysBeforeMonth_succ year hmonth
      have hnext := @ih (month + 1) (rest - daysIn year month) (by omega) (by omega) (by omega)
      have hsum : daysBeforeMonth year (month + 1) + (rest - daysIn year month) =
          daysBeforeMonth year month + rest := by omega
      rw [hsum] at hnext
      exact hnext

/-! ### Dates -/

theorem date_spec (day : ℕ) : 1 ≤ (date day).2.1 ∧ (date day).2.1 ≤ 12 ∧ 1 ≤ (date day).2.2 ∧
    (date day).2.2 ≤ daysIn (date day).1 (date day).2.1 ∧
    dayOf (date day).1 (date day).2.1 (date day).2.2 = day := by
  have hyear := yearOf_spec day
  have hsucc := yearStart_succ (yearOf day)
  have hfirst : daysBeforeMonth (yearOf day) 1 = 0 := rfl
  obtain ⟨hmonth, hmonth', hday, hday', hsum⟩ :=
    @monthDay_spec (yearOf day) 11 1 (day - yearStart (yearOf day)) (le_refl 1) rfl (by omega)
  refine ⟨hmonth, hmonth', hday, hday', ?_⟩
  unfold dayOf date
  dsimp only
  omega

/-- **A date determines its day.** -/
theorem dayOf_date (day : ℕ) : dayOf (date day).1 (date day).2.1 (date day).2.2 = day :=
  (date_spec day).2.2.2.2

theorem yearOf_lt {day year : ℕ} (h : day < yearStart year) : yearOf day < year := by
  by_contra hle
  have hspec := yearOf_spec day
  have hmono : Monotone yearStart := monotone_nat_of_le_succ fun n => by
    rw [yearStart_succ]
    exact Nat.le_add_right _ _
  have hstart := hmono (not_lt.mp hle)
  omega

/-! ### Dates in order -/

theorem monotone_yearStart : Monotone yearStart := monotone_nat_of_le_succ fun year => by
  rw [yearStart_succ]
  exact Nat.le_add_right _ _

theorem daysBeforeMonth_le (year : ℕ) {month later : ℕ} (hmonth : 1 ≤ month)
    (h : month < later) : daysBeforeMonth year month + daysIn year month ≤
      daysBeforeMonth year later := by
  induction later, h using Nat.le_induction with
  | base => exact (daysBeforeMonth_succ year hmonth).ge
  | succ later hlater ih =>
    rw [daysBeforeMonth_succ year (hmonth.trans (Nat.le_of_succ_le hlater))]
    exact ih.trans (Nat.le_add_right _ _)

/-- A date of the calendar. -/
structure IsDate (year month day : ℕ) : Prop where
  one_le_month : 1 ≤ month
  month_le : month ≤ 12
  one_le_day : 1 ≤ day
  day_le : day ≤ daysIn year month

theorem IsDate.dayOf_bounds {year month day : ℕ} (h : IsDate year month day) :
    yearStart year ≤ dayOf year month day ∧ dayOf year month day < yearStart (year + 1) := by
  have hyear := daysBeforeMonth_year year
  have hlast : daysBeforeMonth year month + daysIn year month ≤ daysInYear year := by
    rcases Nat.lt_or_ge month 12 with hlt | hge
    · have hbefore := daysBeforeMonth_le year h.one_le_month hlt
      omega
    · obtain rfl := Nat.le_antisymm h.month_le hge
      exact hyear.le
  have hday := h.day_le
  have hpos := h.one_le_day
  rw [yearStart_succ]
  unfold dayOf
  omega

/-- **A day determines its date.** -/
theorem IsDate.dayOf_injective {year month day year' month' day' : ℕ} (h : IsDate year month day)
    (h' : IsDate year' month' day') (hsame : dayOf year month day = dayOf year' month' day') :
    year = year' ∧ month = month' ∧ day = day' := by
  obtain ⟨hstart, hend⟩ := h.dayOf_bounds
  obtain ⟨hstart', hend'⟩ := h'.dayOf_bounds
  have hyear : year = year' := by
    rcases Nat.lt_trichotomy year year' with hlt | heq | hgt
    · have hmono : yearStart (year + 1) ≤ yearStart year' := monotone_yearStart hlt
      omega
    · exact heq
    · have hmono : yearStart (year' + 1) ≤ yearStart year := monotone_yearStart hgt
      omega
  subst hyear
  have hday := h.day_le
  have hday' := h'.day_le
  have hpos := h.one_le_day
  have hpos' := h'.one_le_day
  unfold dayOf at hsame
  have hmonth : month = month' := by
    rcases Nat.lt_trichotomy month month' with hlt | heq | hgt
    · have hbefore := daysBeforeMonth_le year h.one_le_month hlt
      omega
    · exact heq
    · have hbefore := daysBeforeMonth_le year h'.one_le_month hgt
      omega
  subst hmonth
  exact ⟨rfl, rfl, by omega⟩

end RlcdDeck.Calendar
