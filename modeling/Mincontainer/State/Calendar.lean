import Mathlib.Algebra.Order.Ring.Nat
import Mathlib.Tactic.Lemma

set_option relaxedAutoImplicit false
set_option autoImplicit false

/-!
# The Gregorian calendar

Dates of the Gregorian calendar, and the number of days from the first of January of a given year
to a date, counted year by year and month by month. A later date has the larger number.

## Main definitions

* `Calendar.IsLeap`, `Calendar.daysInMonth`, `Calendar.daysInYear` — the lengths of months and years.
* `Calendar.Date` — a year, a month of it and a day of that month.
* `Calendar.Date.dayNumber` — the days from an epoch to a date.
* `Calendar.Date.Before` — the order of dates, by year, month and day.

## Main results

* `Calendar.yearsLength_eq` — the years since the epoch, counted by division.
* `Calendar.Date.before_of_dayNumber_lt` — the smaller number is the earlier date.
-/

namespace Calendar

/-- Every fourth year is a leap year, except for the centuries that no multiple of 400 counts. -/
def IsLeap (y : ℕ) : Prop := y % 4 = 0 ∧ (y % 100 ≠ 0 ∨ y % 400 = 0)

instance : DecidablePred IsLeap := fun _ => inferInstanceAs (Decidable (_ ∧ _))

/-- The length of the month `m` of the year `y`. -/
def daysInMonth (y m : ℕ) : ℕ :=
  if m = 2 then if IsLeap y then 29 else 28
  else if m = 4 ∨ m = 6 ∨ m = 9 ∨ m = 11 then 30
  else 31

/-- The length of the year `y`. -/
def daysInYear (y : ℕ) : ℕ := if IsLeap y then 366 else 365

/-- The length of the first `k` months of the year `y`. -/
def monthsLength (y : ℕ) : ℕ → ℕ
  | 0 => 0
  | k + 1 => monthsLength y k + daysInMonth y (k + 1)

/-- The length of the `k` years that begin with `epoch`. -/
def yearsLength (epoch : ℕ) : ℕ → ℕ
  | 0 => 0
  | k + 1 => yearsLength epoch k + daysInYear (epoch + k)

/-- A date: a year, a month of it and a day of that month. -/
structure Date where
  year : ℕ
  month : ℕ
  day : ℕ
  month_valid : 1 ≤ month ∧ month ≤ 12
  day_valid : 1 ≤ day ∧ day ≤ daysInMonth year month

namespace Date

/-- The days from the first of January of `epoch` to a date. -/
def dayNumber (epoch : ℕ) (t : Date) : ℕ :=
  yearsLength epoch (t.year - epoch) + monthsLength t.year (t.month - 1) + (t.day - 1)

/-- The order of dates, by year, month and day. -/
def Before (t u : Date) : Prop :=
  t.year < u.year ∨ t.year = u.year ∧ (t.month < u.month ∨ t.month = u.month ∧ t.day < u.day)

end Date

/-! ### Lengths -/

/-- Later months add to the length. -/
lemma monthsLength_mono (y : ℕ) {j k : ℕ} (h : j ≤ k) : monthsLength y j ≤ monthsLength y k := by
  induction h with
  | refl => exact le_rfl
  | step _ ih => exact ih.trans (Nat.le_add_right _ _)

lemma yearsLength_mono (epoch : ℕ) {j k : ℕ} (h : j ≤ k) :
    yearsLength epoch j ≤ yearsLength epoch k := by
  induction h with
  | refl => exact le_rfl
  | step _ ih => exact ih.trans (Nat.le_add_right _ _)

/-- The months make up the year. -/
lemma monthsLength_twelve (y : ℕ) : monthsLength y 12 = daysInYear y := by
  by_cases h : IsLeap y <;> simp [monthsLength, daysInMonth, daysInYear, h]

/-- **The years, counted by division.** Each multiple of four is a day, but not those of a hundred,
unless they are multiples of 400.

**Proof sketch.** Induction on the number of years. -/
lemma yearsLength_eq {epoch : ℕ} (hepoch : 0 < epoch) (k : ℕ) :
    yearsLength epoch k + ((epoch - 1) / 4 + (epoch - 1) / 400 + (epoch + k - 1) / 100) =
      365 * k + ((epoch + k - 1) / 4 + (epoch + k - 1) / 400 + (epoch - 1) / 100) := by
  induction k with
  | zero =>
    unfold yearsLength
    omega
  | succ k ih =>
    rw [yearsLength, daysInYear]
    by_cases hleap : IsLeap (epoch + k)
    · rw [if_pos hleap]
      unfold IsLeap at hleap
      omega
    · rw [if_neg hleap]
      unfold IsLeap at hleap
      omega

/-! ### Order -/

namespace Date

/-- A date lies in its month. -/
lemma dayNumber_lt_month (epoch : ℕ) (t : Date) :
    dayNumber epoch t < yearsLength epoch (t.year - epoch) + monthsLength t.year t.month := by
  obtain ⟨k, hk⟩ : ∃ k, t.month = k + 1 := ⟨t.month - 1, by have := t.month_valid; omega⟩
  have hday := t.day_valid
  rw [hk] at hday
  unfold dayNumber
  rw [hk, Nat.add_sub_cancel, monthsLength]
  omega

/-- A date lies in its year. -/
lemma dayNumber_lt_year {epoch : ℕ} {t : Date} (ht : epoch ≤ t.year) :
    dayNumber epoch t < yearsLength epoch (t.year - epoch + 1) := by
  have hmonth := dayNumber_lt_month epoch t
  have hlen := monthsLength_mono t.year t.month_valid.2
  rw [monthsLength_twelve] at hlen
  rw [yearsLength, Nat.add_sub_cancel' ht]
  omega

/-- The earlier date has the smaller number. -/
lemma dayNumber_lt_of_before {epoch : ℕ} {t u : Date} (ht : epoch ≤ t.year) (h : t.Before u) :
    dayNumber epoch t < dayNumber epoch u := by
  rcases h with hyear | ⟨hyear, hmonth | ⟨hmonth, hday⟩⟩
  · calc dayNumber epoch t < yearsLength epoch (t.year - epoch + 1) := dayNumber_lt_year ht
      _ ≤ yearsLength epoch (u.year - epoch) := yearsLength_mono epoch (by omega)
      _ ≤ dayNumber epoch u := by
        unfold dayNumber
        omega
  · have hlt := dayNumber_lt_month epoch t
    have hlen := monthsLength_mono u.year (show t.month ≤ u.month - 1 by omega)
    rw [hyear] at hlt
    unfold dayNumber at *
    omega
  · have hvalid := t.day_valid
    unfold dayNumber
    rw [hyear, hmonth]
    omega

/-- Dates are comparable. -/
lemma before_trichotomy (t u : Date) :
    t.Before u ∨ u.Before t ∨ (t.year = u.year ∧ t.month = u.month ∧ t.day = u.day) := by
  unfold Before
  omega

/-- **Order.** The smaller number is the earlier date.

**Proof sketch.** Dates are comparable, and each of the other cases contradicts the numbers. -/
lemma before_of_dayNumber_lt {epoch : ℕ} {t u : Date} (hu : epoch ≤ u.year)
    (h : dayNumber epoch t < dayNumber epoch u) : t.Before u := by
  rcases before_trichotomy t u with hbefore | hafter | ⟨hyear, hmonth, hday⟩
  · exact hbefore
  · have := dayNumber_lt_of_before hu hafter
    omega
  · unfold dayNumber at h
    rw [hyear, hmonth, hday] at h
    omega

/-- The number determines the date. -/
lemma eq_of_dayNumber_eq {epoch : ℕ} {t u : Date} (ht : epoch ≤ t.year) (hu : epoch ≤ u.year)
    (h : dayNumber epoch t = dayNumber epoch u) :
    t.year = u.year ∧ t.month = u.month ∧ t.day = u.day := by
  rcases before_trichotomy t u with hbefore | hafter | hsame
  · have := dayNumber_lt_of_before ht hbefore
    omega
  · have := dayNumber_lt_of_before hu hafter
    omega
  · exact hsame

end Date

end Calendar
