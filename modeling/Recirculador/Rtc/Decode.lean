/-
From the calendar to the timestamp.

`_RTC_convertTimeToTimestamp` adds up non-negative terms in an `int`, so its last sum
bounds every value before it, and that sum is the Unix time as long as every fourth
year is a leap year.  A later time therefore has the larger timestamp.
-/
import Recirculador.Rtc.Calendar

namespace Recirculador
namespace Rtc

open Peel

/-! ## The values of one conversion -/

/-- What the month loop adds for month `i`. -/
def monthTerm (behind : Nat → BitVec 8) (year i : Nat) : Nat :=
  if year % 4 ≠ 0 then dayToMouth behind i * secDay
  else if i = 1 then 29 * secDay
  else dayToMouth behind i * secDay

/-- What a pass of the month loop computes: the product, the sum and the next counter. -/
def monthValues (behind : Nat → BitVec 8) (year i : Nat) : List Nat :=
  [monthTerm behind year i, secMonthAux behind year (i + 1), i + 1]

/-- The sums and products of `_RTC_convertTimeToTimestamp`, made in an `int`, before any
wrap. -/
def sumValues (behind : Nat → BitVec 8) (time : RtcData) : List Nat :=
  let sec := rtcConvertToTimeAux time.seconds
  let min := rtcConvertToTimeAux time.minutes
  let hr := rtcConvertToTimeAux time.centHours
  let day := (rtcConvertToTimeAux time.date + 255) % 256
  let month := (rtcConvertToTimeAux time.month + 255) % 256
  let year := rtcConvertToTimeAux time.years
  let months := secMonthAux behind year month
  let bissexto := year / 4 * secDay + if year % 4 ≠ 0 then secDay else 0
  [sec, min, hr, rtcConvertToTimeAux time.date, rtcConvertToTimeAux time.month, year] ++
    (List.range month).flatMap (monthValues behind year) ++
    [year / 4, year / 4 * secDay, bissexto,
      year * secYear,
      year * secYear + months,
      day * secDay,
      year * secYear + months + day * secDay,
      hr * secHr,
      year * secYear + months + day * secDay + hr * secHr,
      min * secMin,
      year * secYear + months + day * secDay + hr * secHr + min * secMin,
      year * secYear + months + day * secDay + hr * secHr + min * secMin + sec,
      year * secYear + months + day * secDay + hr * secHr + min * secMin + sec + bissexto,
      sysTimestampMin +
        (year * secYear + months + day * secDay + hr * secHr + min * secMin + sec + bissexto)]

/-- All values in an `int`: the two differences are made before they become bytes. -/
def intValues (behind : Nat → BitVec 8) (time : RtcData) : List Int :=
  [(rtcConvertToTimeAux time.date : Int) - 1, (rtcConvertToTimeAux time.month : Int) - 1] ++
    (sumValues behind time).map Int.ofNat

theorem secMonthAux_succ (behind : Nat → BitVec 8) (year i : Nat) :
    secMonthAux behind year (i + 1) = secMonthAux behind year i + monthTerm behind year i := by
  simp only [secMonthAux, List.range_succ, List.foldl_append, List.foldl_cons, List.foldl_nil,
    monthTerm]
  split
  · rfl
  · split
    · rfl
    · rfl

theorem secMonthAux_mono (behind : Nat → BitVec 8) (year : Nat) {i month : Nat} (h : i ≤ month) :
    secMonthAux behind year i ≤ secMonthAux behind year month := by
  induction h with
  | refl => exact Nat.le_refl _
  | step _ ih =>
    rw [Nat.succ_eq_add_one, secMonthAux_succ]
    omega

theorem convertToTime_lt (v : BitVec 8) : rtcConvertToTimeAux v < 86 := by
  have hlow : (v &&& 0b1111#8).toNat ≤ 15 := by
    rw [BitVec.toNat_and]
    exact Nat.and_le_right
  have hhigh : ((0b1110000#8 &&& v) >>> 4).toNat ≤ 7 := by
    have hand : (0b1110000#8 &&& v).toNat ≤ 112 := by
      rw [BitVec.toNat_and]
      exact Nat.and_le_left
    rw [BitVec.toNat_ushiftRight, Nat.shiftRight_eq_div_pow]
    omega
  rw [rtcConvertToTimeAux]
  omega

/-- No value is larger than the last sum. -/
theorem sumValues_le (behind : Nat → BitVec 8) (time : RtcData) :
    ∀ v ∈ sumValues behind time, v ≤ timestampAux behind time := by
  have hsec := convertToTime_lt time.seconds
  have hmin := convertToTime_lt time.minutes
  have hhr := convertToTime_lt time.centHours
  have hdate := convertToTime_lt time.date
  have hmonth := convertToTime_lt time.month
  have hyear := convertToTime_lt time.years
  have hmonths : ∀ i, i < (rtcConvertToTimeAux time.month + 255) % 256 →
      ∀ v ∈ monthValues behind (rtcConvertToTimeAux time.years) i,
        v ≤ timestampAux behind time := by
    intro i hi v hv
    have hmono := secMonthAux_mono behind (rtcConvertToTimeAux time.years)
      (show i + 1 ≤ (rtcConvertToTimeAux time.month + 255) % 256 from hi)
    have hterm := secMonthAux_succ behind (rtcConvertToTimeAux time.years) i
    have hall : secMonthAux behind (rtcConvertToTimeAux time.years)
        ((rtcConvertToTimeAux time.month + 255) % 256) + 256 ≤ timestampAux behind time := by
      simp only [timestampAux, sysTimestampMin]
      omega
    simp only [monthValues, List.mem_cons, List.not_mem_nil, or_false] at hv
    omega
  rw [sumValues, List.forall_mem_append, List.forall_mem_append]
  refine ⟨⟨?_, ?_⟩, ?_⟩
  · intro v hv
    simp only [List.mem_cons, List.not_mem_nil, or_false] at hv
    simp only [timestampAux, sysTimestampMin]
    omega
  · intro v hv
    obtain ⟨i, hi, hv⟩ := List.mem_flatMap.mp hv
    exact hmonths i (List.mem_range.mp hi) v hv
  · intro v hv
    simp only [List.mem_cons, List.not_mem_nil, or_false, sysTimestampMin, secYear, secDay,
      secHr, secMin] at hv
    simp only [timestampAux, sysTimestampMin, secYear, secDay, secHr, secMin]
    omega

/-- No value overflows as long as the last sum does not. -/
theorem intValues_range {behind : Nat → BitVec 8} {time : RtcData}
    (h : timestampAux behind time < 0x80000000) :
    ∀ v ∈ intValues behind time, -0x80000000 ≤ v ∧ v < 0x80000000 := by
  have hdate := convertToTime_lt time.date
  have hmonth := convertToTime_lt time.month
  rw [intValues, List.forall_mem_append]
  refine ⟨?_, ?_⟩
  · intro v hv
    simp only [List.mem_cons, List.not_mem_nil, or_false] at hv
    omega
  · intro v hv
    obtain ⟨n, hn, rfl⟩ := List.mem_map.mp hv
    have hle := sumValues_le behind time n hn
    rw [Int.ofNat_eq_natCast]
    omega

/-! ## From the calendar to a timestamp -/

theorem monthDays_le (year month : Nat) : Gregorian.monthDays year month ≤ 31 := by
  rw [Gregorian.monthDays]
  split
  · split
    · decide
    · decide
  · split
    · decide
    · decide

/-- The date in the firmware's count. -/
def dateOf (u : Gregorian.Utc) : Date where
  year := u.year - 2024
  month := u.month - 1
  day := u.day - 1
  month_le := Nat.sub_le_sub_right u.month_le 1
  day_lt := by
    have hpos := u.day_pos
    have hle := Nat.le_trans u.day_le (monthDays_le u.year u.month)
    omega

theorem dateOf_number {u : Gregorian.Utc} (hge : 2024 ≤ u.year) (hle : u.year ≤ 2099) :
    u.number = Gregorian.unixEpoch + sysTimestampMin / secDay + (dateOf u).days := by
  have hyear : 2024 + (u.year - 2024) = u.year := by omega
  have hmonth : u.month - 1 + 1 = u.month := Nat.sub_add_cancel u.month_pos
  have hmonthLt : u.month - 1 < 12 := by
    have hlast := u.month_le
    omega
  have hstart := start_yearDays_offset (show u.year - 2024 ≤ 76 by omega)
  have hmonths := start_monthLen (show u.year - 2024 ≤ 76 by omega) hmonthLt
    fun h => absurd h (by omega)
  rw [hyear] at hstart hmonths
  rw [hmonth] at hmonths
  rw [Gregorian.Date.number, hstart, ← hmonths]
  show _ = _ + (start yearLen (u.year - 2024) +
    start (monthLen (u.year - 2024)) (u.month - 1) + (u.day - 1))
  omega

/-- The Unix time, counted in naturals. -/
def timestampOf (u : Gregorian.Utc) : Nat :=
  sysTimestampMin + (dateOf u).days * secDay + u.secondOfDay

theorem timestampOf_unix {u : Gregorian.Utc} (hge : 2024 ≤ u.year) (hle : u.year ≤ 2099) :
    (timestampOf u : Int) = u.unix := by
  have hnumber := dateOf_number hge hle
  rw [timestampOf, Gregorian.Utc.unix, hnumber]
  simp only [sysTimestampMin, secDay]
  omega

/-- Until the end of 2037 an `int` holds it. -/
theorem timestampOf_lt {u : Gregorian.Utc} (hge : 2024 ≤ u.year) (hle : u.year ≤ 2037) :
    timestampOf u < 0x80000000 := by
  have hnumber := dateOf_number hge (by omega)
  have hyear := u.number_lt_year
  have hof := u.secondOfDay_lt
  have hstart := start_mono Gregorian.yearDays (show u.year + 1 ≤ 2024 + 14 by omega)
  have hlast := start_yearDays_offset (show 14 ≤ 76 by decide)
  have hdays := start_yearLen 14
  rw [timestampOf]
  simp only [sysTimestampMin, secDay] at hnumber hlast ⊢
  omega

theorem shows_of_holds {d : RtcData} {u : Gregorian.Utc} (h : Holds d u) :
    Shows d (timestampOf u) (dateOf u) := by
  have hyear := h.year_lt
  have hmonth := u.month_le
  have hmonthPos := u.month_pos
  have hdayPos := u.day_pos
  have hday := Nat.le_trans u.day_le (monthDays_le u.year u.month)
  have hhour := u.hour_lt
  have hminute := u.minute_lt
  have hsecond := u.second_lt
  have hof := u.secondOfDay_lt
  have hsum : u.secondOfDay = 3600 * u.hour + 60 * u.minute + u.second := rfl
  have hsecs : timestampOf u % secMin = u.second ∧ timestampOf u % secHr / secMin = u.minute ∧
      timestampOf u % secDay / secHr = u.hour ∧
        (timestampOf u - sysTimestampMin) / secDay = (dateOf u).days := by
    rw [timestampOf]
    simp only [sysTimestampMin, secDay, secHr, secMin]
    omega
  constructor
  case seconds => exact h.seconds.trans (by rw [hsecs.1, convertToReg_bcd (by omega)])
  case minutes => exact h.minutes.trans (by rw [hsecs.2.1, convertToReg_bcd (by omega)])
  case centHours => exact h.centHours.trans (by rw [hsecs.2.2.1, convertToReg_bcd (by omega)])
  case date =>
    have hback : u.day - 1 + 1 = u.day := Nat.sub_add_cancel hdayPos
    show d.date = rtcConvertToRegAux (u.day - 1 + 1)
    rw [hback, convertToReg_bcd (by omega), h.date]
  case month =>
    have hback : u.month - 1 + 1 = u.month := Nat.sub_add_cancel hmonthPos
    show d.month = rtcConvertToRegAux (u.month - 1 + 1)
    rw [hback, convertToReg_bcd (by omega), h.month]
  case years => exact h.years.trans (convertToReg_bcd (by omega)).symm
  case days => exact hsecs.2.2.2.symm

/-- Until 2037 the decoder adds up to the Unix time. -/
theorem timestampAux_holds (behind : Nat → BitVec 8) {d : RtcData} {u : Gregorian.Utc}
    (h : Holds d u) (hle : u.year ≤ 2037) : timestampAux behind d = timestampOf u :=
  timestampAux_shows behind (Nat.le_trans (Nat.le_add_right _ _) (Nat.le_add_right _ _))
    (timestampOf_lt h.year_ge hle) (shows_of_holds h)

theorem convertTimeToTimestamp_holds (behind : Nat → BitVec 8) {d : RtcData} {u : Gregorian.Utc}
    (h : Holds d u) (hle : u.year ≤ 2037) :
    ((rtcConvertTimeToTimestamp behind d).toNat : Int) = u.unix := by
  have hsum := timestampAux_holds behind h hle
  have hlt := timestampOf_lt h.year_ge hle
  rw [← hsum] at hlt
  rw [convertTimeToTimestamp_toNat hlt, hsum]
  exact timestampOf_unix h.year_ge (by omega)

/-- Of every date until 2037 the decoder returns the Unix time, overflows nowhere and keeps
the order. -/
theorem convertTimeToTimestamp_exact (behind : Nat → BitVec 8) {d d' : RtcData}
    {u u' : Gregorian.Utc} (h : Holds d u) (hle : u.year ≤ 2037) (h' : Holds d' u')
    (hle' : u'.year ≤ 2037) :
    ((rtcConvertTimeToTimestamp behind d).toNat : Int) = u.unix ∧
      (∀ v ∈ intValues behind d, -0x80000000 ≤ v ∧ v < 0x80000000) ∧
      (u.Before u' → rtcConvertTimeToTimestamp behind d < rtcConvertTimeToTimestamp behind d') := by
  have hunix := convertTimeToTimestamp_holds behind h hle
  have hunix' := convertTimeToTimestamp_holds behind h' hle'
  refine ⟨hunix, intValues_range ?_, ?_⟩
  · rw [timestampAux_holds behind h hle]
    exact timestampOf_lt h.year_ge hle
  · intro hbefore
    have hlt := hbefore.unix_lt
    rw [BitVec.lt_def]
    omega

/-- Noon of the 29th of February 2024. -/
def leapNoon : Gregorian.Utc where
  year := 2024
  month := 2
  day := 29
  month_pos := by decide
  month_le := by decide
  day_pos := by decide
  day_le := by decide
  hour := 12
  minute := 0
  second := 0
  hour_lt := by decide
  minute_lt := by decide
  second_lt := by decide

/-- The last second of 2037. -/
def lastSecond : Gregorian.Utc where
  year := 2037
  month := 12
  day := 31
  month_pos := by decide
  month_le := by decide
  day_pos := by decide
  day_le := by decide
  hour := 23
  minute := 59
  second := 59
  hour_lt := by decide
  minute_lt := by decide
  second_lt := by decide

def leapNoonRtc : RtcData := ⟨0x00, 0x00, 0x12, 0, 0x29, 0x02, 0x00, 0, 0, 0, 0, 0, 0⟩

def lastSecondRtc : RtcData := ⟨0x59, 0x59, 0x23, 0, 0x31, 0x12, 0x13, 0, 0, 0, 0, 0, 0⟩

theorem convertTimeToTimestamp_leapNoon :
    ((rtcConvertTimeToTimestamp (fun _ => 0) leapNoonRtc).toNat : Int) = leapNoon.unix ∧
      (∀ v ∈ intValues (fun _ => 0) leapNoonRtc, -0x80000000 ≤ v ∧ v < 0x80000000) ∧
      rtcConvertTimeToTimestamp (fun _ => 0) leapNoonRtc <
        rtcConvertTimeToTimestamp (fun _ => 0) lastSecondRtc := by
  have hnoon : Holds leapNoonRtc leapNoon := by constructor <;> decide
  have hlast : Holds lastSecondRtc lastSecond := by constructor <;> decide
  obtain ⟨hunix, hrange, hlt⟩ :=
    convertTimeToTimestamp_exact (fun _ => 0) hnoon (by decide) hlast (by decide)
  exact ⟨hunix, hrange, hlt (Or.inl (Or.inl (by decide)))⟩

end Rtc
end Recirculador
