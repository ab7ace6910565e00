/-
The calendar of the clock chip and the Gregorian one.

The firmware takes every fourth year for a leap year, which is right from 2024 to 2099.
In 2100 it is wrong from the 29th of February on, so its months agree with the Gregorian
ones until that day.  Between those dates the encoder shows the UTC time in packed
decimals, and the decoder turns what it shows into the Unix time again.
-/
import Recirculador.Common.Gregorian
import Recirculador.Rtc.RoundTrip

namespace Recirculador
namespace Rtc

open Peel

/-- The two decimal digits of a number, a nibble each. -/
def bcd (v : Nat) : BitVec 8 := BitVec.ofNat 4 (v / 10) ++ BitVec.ofNat 4 (v % 10)

theorem convertToReg_bcd {v : Nat} (hv : v < 100) : rtcConvertToRegAux v = bcd v := by
  have h : ∀ w : Fin 100, rtcConvertToRegAux w.val = bcd w.val := by decide
  exact h ⟨v, hv⟩

/-- The fields of a UTC time in the registers of the chip. -/
structure Holds (d : RtcData) (u : Gregorian.Utc) : Prop where
  year_ge : 2024 ≤ u.year
  year_lt : u.year < 2124
  seconds : d.seconds = bcd u.second
  minutes : d.minutes = bcd u.minute
  centHours : d.centHours = bcd u.hour
  date : d.date = bcd u.day
  month : d.month = bcd u.month
  years : d.years = bcd (u.year - 2024)

/-! ## Years and months of both calendars -/

theorem isLeap_offset {y : Nat} (hy : y < 76) :
    Gregorian.isLeap (2024 + y) = true ↔ y % 4 = 0 := by
  simp only [Gregorian.isLeap, Bool.and_eq_true, Bool.or_eq_true, beq_iff_eq, bne_iff_ne]
  omega

/-- The months have the same days until February 2100. -/
theorem monthLen_eq {y m : Nat} (hy : y ≤ 76) (hm : m < 12) (hfeb : y = 76 → m ≠ 1) :
    monthLen y m = Gregorian.monthDays (2024 + y) (m + 1) := by
  have htable : ∀ k : Fin 12, k.val ≠ 1 → dayToMouthVet.getD k.val 31 =
      if k.val + 1 = 4 ∨ k.val + 1 = 6 ∨ k.val + 1 = 9 ∨ k.val + 1 = 11 then 30 else 31 := by
    decide
  rw [monthLen, Gregorian.monthDays]
  by_cases hm1 : m = 1
  · have hleap := isLeap_offset (Nat.lt_of_le_of_ne hy fun h => hfeb h hm1)
    subst hm1
    by_cases hyear : y % 4 = 0
    · simp [hleap.mpr hyear, hyear]
    · have hnot : Gregorian.isLeap (2024 + y) ≠ true := fun h => hyear (hleap.mp h)
      simp [hnot, hyear, dayToMouthVet]
  · have hlen := htable ⟨m, hm⟩ hm1
    simp only at hlen
    rw [hlen, if_neg (show ¬ m + 1 = 2 by omega), if_neg hm1, ite_self]

theorem start_monthLen {y m : Nat} (hy : y ≤ 76) (hm : m < 12) (hfeb : y = 76 → m ≤ 1) :
    start (monthLen y) m = Gregorian.monthStart (2024 + y) (m + 1) :=
  start_congr _ fun k hk =>
    monthLen_eq hy (Nat.lt_trans hk hm) fun h => by have := hfeb h; omega

/-- 2024 begins on the day of the smallest time. -/
theorem start_yearDays_offset {y : Nat} (hy : y ≤ 76) :
    start Gregorian.yearDays (2024 + y) =
      Gregorian.unixEpoch + sysTimestampMin / secDay + start yearLen y := by
  have hcount := Gregorian.start_yearDays (2024 + y)
  rw [Gregorian.unixEpoch_eq, start_yearLen]
  simp only [sysTimestampMin, secDay]
  omega

/-- The first time the calendars name differently is 2100-03-01. -/
theorem Date.before_march_2100 {c : Date} (hdays : c.days < 27818) :
    c.year ≤ 76 ∧ (c.year = 76 → c.month ≤ 1 ∧ (c.month = 1 → c.day < 28)) := by
  have hyear := c.year_le
  refine ⟨by omega, fun hlast => ?_⟩
  rw [days, hlast, start_yearLen] at hdays
  have hmonth : c.month ≤ 1 := by
    refine Nat.le_of_not_lt fun hlt => ?_
    have hfeb : start (monthLen 76) 2 = 60 := rfl
    have hstart := start_mono (monthLen 76) (show 2 ≤ c.month from hlt)
    omega
  refine ⟨hmonth, fun hfeb => ?_⟩
  have hjan : start (monthLen 76) 1 = 31 := rfl
  rw [hfeb, hjan] at hdays
  omega

theorem Date.day_le {c : Date} (hlen : c.day < monthLen c.year c.month) (hdays : c.days < 27818) :
    c.day + 1 ≤ Gregorian.monthDays (2024 + c.year) (c.month + 1) := by
  obtain ⟨hyear, hlast⟩ := before_march_2100 hdays
  have hmonth := c.month_le
  by_cases hfeb : c.year = 76 ∧ c.month = 1
  · have hday := (hlast hfeb.1).2 hfeb.2
    have hdays28 : Gregorian.monthDays (2024 + 76) (1 + 1) = 28 := rfl
    rw [hfeb.1, hfeb.2, hdays28]
    omega
  · rw [← monthLen_eq hyear (by omega) fun h hm => hfeb ⟨h, hm⟩]
    exact hlen

/-- The date of the loops in the Gregorian calendar. -/
def Date.toGregorian (c : Date) (hlen : c.day < monthLen c.year c.month) (hdays : c.days < 27818) :
    Gregorian.Date where
  year := 2024 + c.year
  month := c.month + 1
  day := c.day + 1
  month_pos := Nat.succ_le_succ (Nat.zero_le _)
  month_le := Nat.succ_le_succ c.month_le
  day_pos := Nat.succ_le_succ (Nat.zero_le _)
  day_le := Date.day_le hlen hdays

theorem Date.toGregorian_number {c : Date} (hlen : c.day < monthLen c.year c.month)
    (hdays : c.days < 27818) :
    (c.toGregorian hlen hdays).number =
      Gregorian.unixEpoch + sysTimestampMin / secDay + c.days := by
  obtain ⟨hyear, hlast⟩ := before_march_2100 hdays
  have hmonth := c.month_le
  have hmonths := start_monthLen hyear (show c.month < 12 by omega) fun h => (hlast h).1
  show start Gregorian.yearDays (2024 + c.year) +
    Gregorian.monthStart (2024 + c.year) (c.month + 1) + c.day = _
  rw [start_yearDays_offset hyear, ← hmonths, days]
  omega

/-! ## From a timestamp to the calendar -/

/-- The tests that end the year loop. -/
def YearBreak (s : Nat × Nat) : Prop :=
  s.1 > 3000 ∨ if s.1 % 4 ≠ 0 then s.2 / daysYear = 0 else s.2 / daysYearB = 0

/-- The tests that end the month loop. -/
def MonthBreak (years : Nat) (s : Nat × Nat) : Prop :=
  s.1 > 10 ∨
    if years % 4 ≠ 0 then s.2 / dayToMouthVet.getD s.1 0 = 0
    else if s.1 = 1 then s.2 / 29 = 0
    else s.2 / dayToMouthVet.getD s.1 0 = 0

/-- Both loops of `_RTC_convertTimestampToTime` have come to their break, the passes the
model gives them being enough. -/
def Terminates (timestamp : BitVec 64) : Prop :=
  let daysLeft := (timestamp.toNat - sysTimestampMin) / secDay % 0x100000000
  let yearsLeft := yearLoop (daysLeft + 1) (0, daysLeft)
  YearBreak yearsLeft ∧ MonthBreak yearsLeft.1 (monthLoop yearsLeft.1 12 (0, yearsLeft.2))

theorem yearLoop_break {fuel : Nat} {s : Nat × Nat} (h : s.2 < fuel) :
    YearBreak (yearLoop fuel s) := by
  induction fuel generalizing s with
  | zero => exact absurd h (Nat.not_lt_zero _)
  | succ fuel ih =>
    obtain ⟨years, daysLeft⟩ := s
    have hless : ∀ len, 0 < len → daysLeft / len ≠ 0 → daysLeft - len < fuel := by
      intro len hpos hfits
      have hle : len ≤ daysLeft := Nat.le_of_not_lt fun hlt => hfits (Nat.div_eq_of_lt hlt)
      have hdays : daysLeft < fuel + 1 := h
      omega
    rw [yearLoop]
    split
    · rename_i hlast
      exact Or.inl hlast
    split
    · rename_i hleap
      split
      · rename_i hrest
        exact Or.inr ((if_pos hleap).mpr hrest)
      · rename_i hfits
        exact ih (hless _ (by decide) hfits)
    · rename_i hleap
      split
      · rename_i hrest
        exact Or.inr ((if_neg hleap).mpr hrest)
      · rename_i hfits
        exact ih (hless _ (by decide) hfits)

theorem monthLoop_break (years : Nat) {fuel : Nat} {s : Nat × Nat} (h : 11 ≤ s.1 + fuel) :
    MonthBreak years (monthLoop years fuel s) := by
  induction fuel generalizing s with
  | zero => exact Or.inl (show 10 < s.1 by omega)
  | succ fuel ih =>
    obtain ⟨month, daysLeft⟩ := s
    have hnext : 11 ≤ month + 1 + fuel := by
      have hfuel : 11 ≤ month + (fuel + 1) := h
      omega
    rw [monthLoop]
    split
    · rename_i hlast
      exact Or.inl hlast
    split
    · rename_i hleap
      split
      · rename_i hrest
        exact Or.inr ((if_pos hleap).mpr hrest)
      · exact ih hnext
    · rename_i hleap
      split
      · rename_i hfeb
        split
        · rename_i hrest
          exact Or.inr ((if_neg hleap).mpr ((if_pos hfeb).mpr hrest))
        · exact ih hnext
      · rename_i hfeb
        split
        · rename_i hrest
          exact Or.inr ((if_neg hleap).mpr ((if_neg hfeb).mpr hrest))
        · exact ih hnext

theorem terminates (timestamp : BitVec 64) : Terminates timestamp :=
  ⟨yearLoop_break (Nat.lt_succ_self _), monthLoop_break _ (show 11 ≤ 0 + 12 by decide)⟩

/-- The UTC time of a timestamp whose date the loops found. -/
def Date.toUtc (c : Date) (hlen : c.day < monthLen c.year c.month) (hdays : c.days < 27818)
    (t : Nat) : Gregorian.Utc where
  toDate := c.toGregorian hlen hdays
  hour := t % secDay / secHr
  minute := t % secHr / secMin
  second := t % secMin
  hour_lt := by simp only [secDay, secHr]; omega
  minute_lt := by simp only [secHr, secMin]; omega
  second_lt := by simp only [secMin]; omega

theorem Date.toUtc_unix {c : Date} (hlen : c.day < monthLen c.year c.month)
    (hdays : c.days < 27818) {t : Nat} (hmin : sysTimestampMin ≤ t)
    (hsame : c.days = (t - sysTimestampMin) / secDay) : (c.toUtc hlen hdays t).unix = t := by
  have hnumber := c.toGregorian_number hlen hdays
  have hof : (c.toUtc hlen hdays t).secondOfDay = t % secDay := by
    show 3600 * (t % secDay / secHr) + 60 * (t % secHr / secMin) + t % secMin = t % secDay
    simp only [secDay, secHr, secMin]
    omega
  show (86400 * (((c.toGregorian hlen hdays).number : Int) - Gregorian.unixEpoch) +
    (c.toUtc hlen hdays t).secondOfDay : Int) = t
  rw [hnumber, hof, hsame]
  simp only [sysTimestampMin, secDay] at hmin ⊢
  omega

/-- The fields of the encoder are those of the Gregorian calendar. -/
theorem holds_of_shows {d : RtcData} {t : Nat} {c : Date}
    (hlen : c.day < monthLen c.year c.month) (hdays : c.days < 27818) (h : Shows d t c) :
    Holds d (c.toUtc hlen hdays t) := by
  have hyear := (Date.before_march_2100 hdays).1
  have hmonth := c.month_le
  have hday := c.day_lt
  constructor
  case year_ge => exact Nat.le_add_right _ _
  case year_lt => exact show 2024 + c.year < 2124 by omega
  case seconds => exact h.seconds.trans (convertToReg_bcd (by simp only [secMin]; omega))
  case minutes => exact h.minutes.trans (convertToReg_bcd (by simp only [secHr, secMin]; omega))
  case centHours =>
    exact h.centHours.trans (convertToReg_bcd (by simp only [secDay, secHr]; omega))
  case date => exact h.date.trans (convertToReg_bcd (by omega))
  case month => exact h.month.trans (convertToReg_bcd (by omega))
  case years =>
    have hoffset : 2024 + c.year - 2024 = c.year := by omega
    exact (h.years.trans (convertToReg_bcd (by omega))).trans (congrArg bcd hoffset.symm)

/-- Up to 2100-03-01 the encoder ends and shows the UTC time of the timestamp. -/
theorem convertTimestampToTime_gregorian {timestamp : BitVec 64}
    (hmin : sysTimestampMin ≤ timestamp.toNat) (hmax : timestamp.toNat < 4107542400)
    (stack : RtcData) :
    Terminates timestamp ∧
      ∃ u : Gregorian.Utc, u.unix = timestamp.toNat ∧
        (∀ u' : Gregorian.Utc, u'.unix = timestamp.toNat → u' = u) ∧
          Holds (rtcConvertTimestampToTime timestamp stack) u := by
  refine ⟨terminates timestamp, ?_⟩
  obtain ⟨c, hlen, h⟩ :=
    shows_convertTimestampToTime hmin (Nat.lt_trans hmax (by decide)) stack
  rw [BitVec.ofNat_toNat, BitVec.setWidth_eq] at h
  have hdays : c.days < 27818 := by
    rw [h.days]
    simp only [sysTimestampMin, secDay] at hmin ⊢
    omega
  have hunix := c.toUtc_unix hlen hdays hmin h.days
  exact ⟨c.toUtc hlen hdays timestamp.toNat, hunix,
    fun u' hu' => Gregorian.Utc.unix_injective (hu'.trans hunix.symm),
    holds_of_shows hlen hdays h⟩

/-- The last second the calendars agree on. -/
theorem convertTimestampToTime_february_2100 :
    Terminates 4107542399 ∧
      ∃ u : Gregorian.Utc, u.unix = 4107542399 ∧
        (∀ u' : Gregorian.Utc, u'.unix = 4107542399 → u' = u) ∧
          Holds (rtcConvertTimestampToTime 4107542399 blankRtc) u :=
  @convertTimestampToTime_gregorian 4107542399 (by decide) (by decide) blankRtc

end Rtc
end Recirculador
