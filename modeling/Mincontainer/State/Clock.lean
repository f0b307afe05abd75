import Mathlib.Data.Int.Notation
import Mathlib.Order.Monotone.Basic
import Mathlib.Tactic.IntervalCases
import Mincontainer.Bytes.Decimal
import Mincontainer.State.Calendar

set_option relaxedAutoImplicit false
set_option autoImplicit false

/-!
# Timestamps

The end of `state.rs`: the current time as an RFC 3339 UTC timestamp. The civil date is found by
counting in eras of 400 years and in years that begin in March, with divisions that correct for the
leap days. The dates that come out are those of the Gregorian calendar, and the texts are ordered
as the times are, up to the year 10000.

## Main definitions

* `Mincontainer.yearOfEra`, `Mincontainer.civilFromDays` — the civil date of a day.
* `Mincontainer.nowIso` — the timestamp at a time.
* `Mincontainer.isoText` — the timestamp of a date and a time of day.

## Main results

* `Mincontainer.yearOfEra_eq` — the year of an era, for every day of it.
* `Mincontainer.civilFromDays_eq` — the civil date is the one of that day.
* `Mincontainer.nowIso_real_sortable` — timestamps are real and sortable.
-/

namespace Mincontainer

open Bytes Calendar

/-! ### The conversion -/

/-- The year of the era that a day of the era falls into. -/
def yearOfEra (doe : ℤ) : ℤ := (doe - doe / 1460 + doe / 36524 - doe / 146096) / 365

/-- Year, month and day of the civil date `days` days after the first of January 1970. -/
def civilFromDays (days : ℤ) : ℤ × ℤ × ℤ :=
  let z := days + 719468
  let era := z / 146097
  let doe := z % 146097
  let yoe := yearOfEra doe
  let y := yoe + era * 400
  let doy := doe - (365 * yoe + yoe / 4 - yoe / 100)
  let mp := (5 * doy + 2) / 153
  let d := doy - (153 * mp + 2) / 5 + 1
  let m := if mp < 10 then mp + 3 else mp - 9
  let y := if m ≤ 2 then y + 1 else y
  (y, m, d)

/-- Print a number, padded with zeros to a width of at least `k`, the sign included. -/
def zeroPadded (k : ℕ) (n : ℤ) : List Char :=
  if n < 0 then '-' :: padded (k - 1) n.natAbs else padded k n.natAbs

/-- The time `secs` seconds after the epoch as an RFC 3339 UTC timestamp. -/
def nowIso (secs : ℕ) : String :=
  let days := secs / 86400
  let rem := secs % 86400
  let (y, m, d) := civilFromDays days
  String.ofList
    (zeroPadded 4 y ++ '-' :: (zeroPadded 2 m ++ '-' :: (zeroPadded 2 d ++ 'T' ::
      (padded 2 (rem / 3600) ++ ':' :: (padded 2 (rem % 3600 / 60) ++ ':' ::
        (padded 2 (rem % 60) ++ ['Z']))))))

/-! ### What a timestamp says -/

/-- A time of day. -/
structure TimeOfDay where
  hour : ℕ
  minute : ℕ
  second : ℕ
  hour_valid : hour < 24
  minute_valid : minute < 60
  second_valid : second < 60

/-- The seconds since midnight. -/
def TimeOfDay.seconds (c : TimeOfDay) : ℕ := c.hour * 3600 + c.minute * 60 + c.second

/-- The timestamp of a date and a time of day: four digits for the year and two for everything
else. -/
def isoText (t : Date) (c : TimeOfDay) : String :=
  String.ofList
    (decimal 4 t.year ++ '-' :: (decimal 2 t.month ++ '-' :: (decimal 2 t.day ++ 'T' ::
      (decimal 2 c.hour ++ ':' :: (decimal 2 c.minute ++ ':' :: (decimal 2 c.second ++ ['Z']))))))

/-! ### Years of an era -/

/-- The day of the era on which the year `yoe` of the era begins. -/
def yearStart (yoe : ℕ) : ℕ := 365 * yoe + yoe / 4 - yoe / 100 + yoe / 400

/-- Every day of an era falls into one of its years. -/
lemma exists_yearStart (n : ℕ) {doe : ℕ} (h : doe < yearStart n) :
    ∃ yoe < n, yearStart yoe ≤ doe ∧ doe < yearStart (yoe + 1) := by
  induction n with
  | zero => cases h
  | succ n ih =>
    by_cases hn : doe < yearStart n
    · obtain ⟨yoe, hyoe, hrange⟩ := ih hn
      exact ⟨yoe, by omega, hrange⟩
    · exact ⟨n, by omega, by omega, h⟩

/-- A year has at most 366 days. -/
lemma yearStart_succ_le {yoe : ℕ} (hyoe : yoe < 400) :
    yearStart (yoe + 1) ≤ yearStart yoe + 366 := by
  unfold yearStart
  omega

/-- A later day falls into no earlier year.

**Proof sketch.** From one day to the next a quotient that is subtracted grows by at most one, and
where the quotient by 146096 does, the one by 36524 does. -/
lemma yearOfEra_mono {d e : ℕ} (h : d ≤ e) (he : e < 146097) :
    yearOfEra d ≤ yearOfEra e := by
  induction h with
  | refl => exact le_rfl
  | step _ ih =>
    refine (ih (by omega)).trans ?_
    unfold yearOfEra
    omega

/-- **The year of an era.** The divisions find the year that a day of the era falls into.

**Proof sketch.** They are right for the first and the last day of each of the 400 years, and grow
with the day. -/
lemma yearOfEra_eq {yoe doe : ℕ} (hyoe : yoe < 400) (hstart : yearStart yoe ≤ doe)
    (hend : doe < yearStart (yoe + 1)) : yearOfEra doe = yoe := by
  have hends : ∀ yoe < 400, yearOfEra (yearStart yoe : ℕ) = yoe ∧
      yearOfEra ((yearStart (yoe + 1) - 1 : ℕ)) = yoe := by
    decide +kernel
  obtain ⟨hfirst, hlast⟩ := hends yoe hyoe
  have hera : yearStart (yoe + 1) ≤ 146097 := by
    unfold yearStart
    omega
  have hlower := yearOfEra_mono hstart (by omega)
  have hupper := yearOfEra_mono (show doe ≤ yearStart (yoe + 1) - 1 by omega) (by omega)
  omega

/-! ### Months of a year that begins in March -/

/-- The days between the first of January and the first day of a month from March on. -/
lemma monthsLength_march (y : ℕ) {mp : ℕ} (h : mp < 10) :
    monthsLength y (mp + 2) = 59 + (153 * mp + 2) / 5 + if IsLeap y then 1 else 0 := by
  by_cases hleap : IsLeap y <;> interval_cases mp <;>
    simp [monthsLength, daysInMonth, hleap]

/-- What the divisions make of a day of a leap year: a month and a day of it. -/
lemma month_of_day : ∀ doy < 366, (5 * doy + 2) / 153 ≤ 11 ∧
    (153 * ((5 * doy + 2) / 153) + 2) / 5 ≤ doy ∧
    doy - (153 * ((5 * doy + 2) / 153) + 2) / 5 < daysInMonth 0
      (if (5 * doy + 2) / 153 < 10 then (5 * doy + 2) / 153 + 3 else (5 * doy + 2) / 153 - 9) := by
  decide +kernel

/-- The months of a leap year are those of any other, but for February. -/
lemma daysInMonth_zero {y m : ℕ} (h : m ≠ 2) : daysInMonth 0 m = daysInMonth y m := by
  simp [daysInMonth, h]

/-- A day in March or later, by its number in the year that began in March. -/
lemma exists_date_march {era yoe doy mp : ℕ} (hyoe : yoe < 400) (hdoy : doy < 366)
    (hmp : mp = (5 * doy + 2) / 153) (hten : mp < 10)
    (hday : 719468 ≤ 146097 * era + yearStart yoe + doy) :
    ∃ t : Date, 1970 ≤ t.year ∧
      t.dayNumber 1970 + 719468 = 146097 * era + yearStart yoe + doy ∧
      t.year = yoe + era * 400 ∧ t.month = mp + 3 ∧ t.day = doy - (153 * mp + 2) / 5 + 1 := by
  obtain ⟨-, hoff, hlen⟩ := month_of_day doy hdoy
  rw [← hmp] at hoff hlen
  rw [if_pos hten, daysInMonth_zero (y := yoe + era * 400) (by omega)] at hlen
  have hyear : 1970 ≤ yoe + era * 400 := by
    unfold yearStart at hday
    omega
  refine ⟨⟨yoe + era * 400, mp + 3, doy - (153 * mp + 2) / 5 + 1, by omega, by omega⟩, hyear, ?_,
    rfl, rfl, rfl⟩
  have hyears := yearsLength_eq (show 0 < 1970 by omega) (yoe + era * 400 - 1970)
  have hmonths := monthsLength_march (yoe + era * 400) hten
  unfold Date.dayNumber
  dsimp only
  rw [show mp + 3 - 1 = mp + 2 by omega, hmonths]
  rw [show 1970 + (yoe + era * 400 - 1970) = yoe + era * 400 by omega] at hyears
  unfold yearStart
  by_cases hleap : IsLeap (yoe + era * 400)
  · rw [if_pos hleap]
    unfold IsLeap at hleap
    omega
  · rw [if_neg hleap]
    unfold IsLeap at hleap
    omega

/-- A day in January or February, by its number in the year that began in March. -/
lemma exists_date_january {era yoe doy mp : ℕ} (hyoe : yoe < 400)
    (hdoy : yearStart yoe + doy < yearStart (yoe + 1))
    (hmp : mp = (5 * doy + 2) / 153) (hten : ¬ mp < 10)
    (hday : 719468 ≤ 146097 * era + yearStart yoe + doy) :
    ∃ t : Date, 1970 ≤ t.year ∧
      t.dayNumber 1970 + 719468 = 146097 * era + yearStart yoe + doy ∧
      t.year = yoe + era * 400 + 1 ∧ t.month = mp - 9 ∧ t.day = doy - (153 * mp + 2) / 5 + 1 := by
  have hbound : doy < 366 := by
    have := yearStart_succ_le hyoe
    omega
  obtain ⟨heleven, hoff, hlen⟩ := month_of_day doy hbound
  rw [← hmp] at heleven hoff hlen
  rw [if_neg hten] at hlen
  have hyear : 1970 ≤ yoe + era * 400 + 1 := by
    unfold yearStart at hday
    omega
  have hvalid : doy - (153 * mp + 2) / 5 + 1 ≤ daysInMonth (yoe + era * 400 + 1) (mp - 9) := by
    by_cases hjan : mp - 9 = 2
    · rw [hjan] at hlen ⊢
      have hlen' : doy - (153 * mp + 2) / 5 < 29 := hlen
      by_cases hleap : IsLeap (yoe + era * 400 + 1)
      · have hfeb : daysInMonth (yoe + era * 400 + 1) 2 = 29 := if_pos hleap
        omega
      · -- the year ends a day earlier, which is the last day of February
        have hfeb : daysInMonth (yoe + era * 400 + 1) 2 = 28 := if_neg hleap
        unfold IsLeap at hleap
        unfold yearStart at hdoy
        omega
    · rw [daysInMonth_zero (y := yoe + era * 400 + 1) hjan] at hlen
      omega
  refine ⟨⟨yoe + era * 400 + 1, mp - 9, doy - (153 * mp + 2) / 5 + 1, by omega, by omega⟩, hyear,
    ?_, rfl, rfl, rfl⟩
  have hyears := yearsLength_eq (show 0 < 1970 by omega) (yoe + era * 400 + 1 - 1970)
  have hmonths : monthsLength (yoe + era * 400 + 1) (mp - 9 - 1) = (153 * mp + 2) / 5 - 306 := by
    interval_cases mp <;> simp [monthsLength, daysInMonth]
  unfold Date.dayNumber
  dsimp only
  rw [hmonths]
  rw [show 1970 + (yoe + era * 400 + 1 - 1970) = yoe + era * 400 + 1 by omega] at hyears
  unfold yearStart
  omega

/-- **The civil date.** The date that is found for a day from 1970 on is the one whose number is that
day's.

**Proof sketch.** The day lies in an era, in a year of it that begins in March, and in a month of
that year. From March to December the calendar year is that year, and in January and February it is
the next. -/
lemma civilFromDays_eq (days : ℕ) :
    ∃ t : Date, 1970 ≤ t.year ∧ t.dayNumber 1970 = days ∧
      civilFromDays days = ((t.year : ℤ), (t.month : ℤ), (t.day : ℤ)) := by
  obtain ⟨era, doe, hz, hdoe⟩ : ∃ era doe, days + 719468 = 146097 * era + doe ∧ doe < 146097 :=
    ⟨(days + 719468) / 146097, (days + 719468) % 146097, by omega, by omega⟩
  obtain ⟨yoe, hyoe, hstart, hend⟩ := exists_yearStart 400 (show doe < yearStart 400 from hdoe)
  obtain ⟨doy, hdoy⟩ : ∃ doy, doe = yearStart yoe + doy := ⟨doe - yearStart yoe, by omega⟩
  have hera : ((days : ℤ) + 719468) / 146097 = era := by omega
  have hrem : ((days : ℤ) + 719468) % 146097 = doe := by omega
  have hyear := yearOfEra_eq hyoe hstart hend
  have hday : (doe : ℤ) - (365 * yoe + (yoe : ℤ) / 4 - (yoe : ℤ) / 100) = doy := by
    unfold yearStart at hdoy
    omega
  have hbound : doy < 366 := by
    have := yearStart_succ_le hyoe
    omega
  have hfrom : 719468 ≤ 146097 * era + yearStart yoe + doy := by omega
  obtain ⟨mp, hmp⟩ : ∃ mp, mp = (5 * doy + 2) / 153 := ⟨_, rfl⟩
  have hmonth : (5 * (doy : ℤ) + 2) / 153 = mp := by omega
  obtain ⟨heleven, hoff, -⟩ := month_of_day doy hbound
  rw [← hmp] at heleven hoff
  unfold civilFromDays
  dsimp only
  rw [hera, hrem, hyear, hday, hmonth]
  by_cases hten : mp < 10
  · obtain ⟨t, hepoch, hnumber, hy, hm, hd⟩ := exists_date_march hyoe hbound hmp hten hfrom
    refine ⟨t, hepoch, by omega, ?_⟩
    rw [if_pos (by omega : (mp : ℤ) < 10), if_neg (by omega : ¬ (mp : ℤ) + 3 ≤ 2), hy, hm, hd]
    refine Prod.ext ?_ (Prod.ext ?_ ?_) <;> dsimp only <;> omega
  · obtain ⟨t, hepoch, hnumber, hy, hm, hd⟩ :=
      exists_date_january hyoe (by omega) hmp hten hfrom
    refine ⟨t, hepoch, by omega, ?_⟩
    rw [if_neg (by omega : ¬ (mp : ℤ) < 10), if_pos (by omega : (mp : ℤ) - 9 ≤ 2), hy, hm, hd]
    refine Prod.ext ?_ (Prod.ext ?_ ?_) <;> dsimp only <;> omega

/-! ### Timestamps -/

/-- The date of the time lies before the year 10000. -/
def BeforeYear10000 (secs : ℕ) : Prop := secs / 86400 < yearsLength 1970 (10000 - 1970)

/-- A field that fits is printed in exactly its digits. -/
lemma zeroPadded_eq_decimal {k n : ℕ} (hk : 0 < k) (hn : n < 10 ^ k) :
    zeroPadded k n = decimal k n := by
  unfold zeroPadded
  rw [if_neg (by omega), Int.natAbs_natCast, padded_eq_decimal hk hn]

/-- A date whose number lies before that of the year 10000 does so, too. -/
lemma year_lt_of_dayNumber_lt {t : Date} (h : t.dayNumber 1970 < yearsLength 1970 (10000 - 1970)) :
    t.year < 10000 := by
  by_contra hyear
  have hmono := yearsLength_mono 1970 (show 10000 - 1970 ≤ t.year - 1970 by omega)
  unfold Date.dayNumber at h
  omega

/-- **The text of a time** is that of the date of its day and of its time of day. -/
lemma nowIso_eq {secs : ℕ} (hsecs : BeforeYear10000 secs) :
    ∃ (t : Date) (c : TimeOfDay), 1970 ≤ t.year ∧ t.year < 10000 ∧
      t.dayNumber 1970 = secs / 86400 ∧ c.seconds = secs % 86400 ∧ nowIso secs = isoText t c := by
  obtain ⟨t, hepoch, hnumber, hcivil⟩ := civilFromDays_eq (secs / 86400)
  have hyear : t.year < 10000 := year_lt_of_dayNumber_lt (by rw [hnumber]; exact hsecs)
  have hmonth := t.month_valid
  have hday : t.day ≤ 31 := by
    refine t.day_valid.2.trans ?_
    unfold daysInMonth
    split_ifs <;> omega
  refine ⟨t, ⟨secs % 86400 / 3600, secs % 86400 % 3600 / 60, secs % 86400 % 60, by omega, by omega,
    by omega⟩, hepoch, hyear, hnumber, ?_, ?_⟩
  · unfold TimeOfDay.seconds
    dsimp only
    omega
  · unfold nowIso isoText
    dsimp only
    rw [hcivil]
    dsimp only
    rw [zeroPadded_eq_decimal (by omega) (by omega), zeroPadded_eq_decimal (by omega) (by omega),
      zeroPadded_eq_decimal (by omega) (by omega), padded_eq_decimal (by omega) (by omega),
      padded_eq_decimal (by omega) (by omega), padded_eq_decimal (by omega) (by omega)]

/-- A smaller field decides, whatever follows. -/
lemma field_lt {k n n' : ℕ} (hn' : n' < 10 ^ k) (h : n < n') (rest rest' : List Char) :
    decimal k n ++ rest < decimal k n' ++ rest' :=
  append_lt_append rest rest' (by simp) (decimal_lt hn' h)

/-- Behind equal fields the rest decides. -/
lemma field_eq {k n n' : ℕ} {c : Char} {rest rest' : List Char} (hn : n = n') (h : rest < rest') :
    decimal k n ++ c :: rest < decimal k n' ++ c :: rest' := by
  rw [hn]
  exact List.append_left_lt (List.cons_lt_cons_iff.mpr (.inr ⟨rfl, h⟩))

/-- **Order.** A later date, or a later time on the same date, has the larger text.

**Proof sketch.** The fields have fixed widths, so that the first one that differs decides. -/
lemma isoText_lt {t t' : Date} {c c' : TimeOfDay} (hyear : t'.year < 10000)
    (h : t.Before t' ∨
      (t.year = t'.year ∧ t.month = t'.month ∧ t.day = t'.day) ∧ c.seconds < c'.seconds) :
    isoText t c < isoText t' c' := by
  have hmonth := t'.month_valid
  have hday : t'.day ≤ 31 := by
    refine t'.day_valid.2.trans ?_
    unfold daysInMonth
    split_ifs <;> omega
  obtain ⟨hh, hm, hs⟩ := And.intro c'.hour_valid (And.intro c'.minute_valid c'.second_valid)
  have hclock := And.intro c.hour_valid (And.intro c.minute_valid c.second_valid)
  unfold isoText
  change (String.ofList _).toList < (String.ofList _).toList
  rw [String.toList_ofList, String.toList_ofList]
  rcases h with (hy | ⟨hy, hmo | ⟨hmo, hd⟩⟩) | ⟨⟨hy, hmo, hd⟩, hsec⟩
  · exact field_lt (by omega) hy _ _
  · exact field_eq hy (field_lt (by omega) hmo _ _)
  · exact field_eq hy (field_eq hmo (field_lt (by omega) hd _ _))
  · refine field_eq hy (field_eq hmo (field_eq hd ?_))
    unfold TimeOfDay.seconds at hsec
    by_cases hhour : c.hour < c'.hour
    · exact field_lt (by omega) hhour _ _
    refine field_eq (by omega) ?_
    by_cases hminute : c.minute < c'.minute
    · exact field_lt (by omega) hminute _ _
    exact field_eq (by omega) (field_lt (by omega) (by omega) _ _)

/-- **Timestamps are real and sortable.** Up to the year 10000 a timestamp names a date of the
Gregorian calendar and a time of day, which are those of the day and of the second since the epoch;
and a later time has the larger timestamp.

**Proof sketch.** Of two times the later one has the later day, and with it the later date, or the
same day and the later second. -/
theorem nowIso_real_sortable :
    (∀ secs, BeforeYear10000 secs → ∃ (t : Date) (c : TimeOfDay), 1970 ≤ t.year ∧ t.year < 10000 ∧
      t.dayNumber 1970 = secs / 86400 ∧ c.seconds = secs % 86400 ∧ nowIso secs = isoText t c) ∧
      ∀ secs secs', BeforeYear10000 secs' → secs < secs' → nowIso secs < nowIso secs' := by
  refine ⟨fun secs hsecs => nowIso_eq hsecs, fun secs secs' hsecs' hlt => ?_⟩
  have hsecs : BeforeYear10000 secs := by
    unfold BeforeYear10000 at *
    omega
  obtain ⟨t, c, hepoch, -, hnumber, hclock, htext⟩ := nowIso_eq hsecs
  obtain ⟨t', c', hepoch', hyear', hnumber', hclock', htext'⟩ := nowIso_eq hsecs'
  rw [htext, htext']
  refine isoText_lt hyear' ?_
  by_cases hdays : secs / 86400 < secs' / 86400
  · exact .inl (Date.before_of_dayNumber_lt hepoch' (by omega))
  · exact .inr ⟨Date.eq_of_dayNumber_eq hepoch hepoch' (by omega), by omega⟩

/-- A leap day, and the day after. -/
theorem nowIso_real_sortable_demo :
    (∃ (t : Date) (c : TimeOfDay), 1970 ≤ t.year ∧ t.year < 10000 ∧
      t.dayNumber 1970 = 11016 ∧ c.seconds = 0 ∧ nowIso 951782400 = isoText t c) ∧
    (∃ (t : Date) (c : TimeOfDay), 1970 ≤ t.year ∧ t.year < 10000 ∧
      t.dayNumber 1970 = 11017 ∧ c.seconds = 0 ∧ nowIso 951868800 = isoText t c) ∧
    nowIso 951782400 < nowIso 951868800 ∧
    nowIso 951782400 = "2000-02-29T00:00:00Z" ∧ nowIso 951868800 = "2000-03-01T00:00:00Z" := by
  have hbefore : ∀ secs ≤ 951868800, BeforeYear10000 secs := by
    intro secs hsecs
    have hyears := yearsLength_eq (show 0 < 1970 by omega) (10000 - 1970)
    unfold BeforeYear10000
    omega
  refine ⟨nowIso_real_sortable.1 951782400 (hbefore _ (by omega)),
    nowIso_real_sortable.1 951868800 (hbefore _ (by omega)),
    nowIso_real_sortable.2 951782400 951868800 (hbefore _ (by omega)) (by omega), ?_, ?_⟩
  · decide +kernel
  · decide +kernel

example : nowIso 951782399 = "2000-02-28T23:59:59Z" ∧ nowIso 951782400 = "2000-02-29T00:00:00Z" := by
  decide +kernel

end Mincontainer
