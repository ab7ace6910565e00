/-
Setting the clock chip and reading it back.

Encoder and decoder meet in one equation: the days since the first year are the
days of the whole years, of the whole months and of the day, each peeled off in
turn.  The decoder's sum is therefore the time itself, and what remains is
whether a 32-bit integer holds it.
-/
import Recirculador.Rtc.Clock

namespace Recirculador
namespace Rtc

open Peel

/-! ## Packed decimals -/

theorem convertToTime_convertToReg {v : Nat} (hv : v < 80) :
    rtcConvertToTimeAux (rtcConvertToRegAux v) = v := by
  have h : ∀ w : Fin 80, rtcConvertToTimeAux (rtcConvertToRegAux w.val) = w.val := by decide
  exact h ⟨v, hv⟩

/-- A mask of low bits the digits stay below cuts nothing. -/
theorem convertToReg_and {v k : Nat} (hv : v < 80) (hk : k < 8)
    (hlow : 16 * (v / 10) + v % 10 < 1 <<< k) :
    rtcConvertToRegAux v &&& BitVec.ofNat 8 ((1 <<< k) - 1) = rtcConvertToRegAux v := by
  have hdigits : v / 10 * 16 + v % 10 < 256 := by omega
  have hvalue : (rtcConvertToRegAux v).toNat = 16 * (v / 10) + v % 10 := by
    rw [rtcConvertToRegAux, Nat.shiftLeft_eq, BitVec.toNat_ofNat, Nat.mod_eq_of_lt hdigits,
      Nat.mul_comm]
  have hmask : (1 <<< k) - 1 < 256 := by
    have hle := Nat.pow_lt_pow_right (show 1 < 2 by decide) hk
    rw [Nat.one_shiftLeft]
    omega
  refine BitVec.eq_of_toNat_eq ?_
  rw [BitVec.toNat_and, BitVec.toNat_ofNat, hvalue, Nat.mod_eq_of_lt hmask]
  rw [Nat.one_shiftLeft] at hlow ⊢
  exact Nat.and_two_pow_sub_one_of_lt_two_pow hlow

theorem convertToReg_and_80 {v : Nat} (hv : v < 80) :
    rtcConvertToRegAux v &&& 0b10000000 = 0 := by
  rw [← convertToReg_and (k := 7) hv (by decide) (by omega), BitVec.and_assoc]
  exact BitVec.and_zero

/-! ## Years and months as units -/

def yearLen (years : Nat) : Nat := if years % 4 ≠ 0 then daysYear else daysYearB

def monthLen (years month : Nat) : Nat :=
  if years % 4 ≠ 0 then dayToMouthVet.getD month 31
  else if month = 1 then 29 else dayToMouthVet.getD month 31

theorem start_yearLen (y : Nat) : start yearLen y = 365 * y + (y + 3) / 4 := by
  induction y with
  | zero => rfl
  | succ y ih =>
    rw [start, ih, yearLen]
    split <;> simp <;> omega

theorem yearLen_pos (y : Nat) : 0 < yearLen y := by
  unfold yearLen
  split <;> decide

theorem monthLen_bounds (y m : Nat) : 0 < monthLen y m ∧ monthLen y m ≤ 31 := by
  have htable : 0 < dayToMouthVet.getD m 31 ∧ dayToMouthVet.getD m 31 ≤ 31 := by
    by_cases hm : m < 12
    · have h : ∀ k : Fin 12,
          0 < dayToMouthVet.getD k.val 31 ∧ dayToMouthVet.getD k.val 31 ≤ 31 := by decide
      exact h ⟨m, hm⟩
    · rw [List.getD_eq_getElem?_getD, List.getElem?_eq_none (by simp [dayToMouthVet]; omega)]
      decide
  unfold monthLen
  split
  · exact htable
  · split
    · decide
    · exact htable

theorem monthLen_last (y : Nat) : monthLen y 11 = 31 := by
  by_cases hy : y % 4 = 0 <;> simp [monthLen, dayToMouthVet, hy]

theorem start_monthLen_last (y : Nat) : start (monthLen y) 11 + 31 = yearLen y := by
  by_cases hy : y % 4 = 0 <;> simp [start, monthLen, yearLen, dayToMouthVet, hy]

theorem yearLoop_succ {years : Nat} (hyears : years < 256) (fuel daysLeft : Nat) :
    yearLoop (fuel + 1) (years, daysLeft) =
      if daysLeft < yearLen years then (years, daysLeft)
      else yearLoop fuel ((years + 1) % 256, daysLeft - yearLen years) := by
  have hnot : ¬ years > 3000 := by omega
  rw [yearLoop, if_neg hnot, yearLen]
  by_cases hleap : years % 4 = 0 <;> simp [hleap, Nat.div_eq_zero_iff]

/-- Within the range of a byte the year loop peels years. -/
theorem yearLoop_eq_peel (fuel : Nat) {s : Nat × Nat}
    (hs : start yearLen s.1 + s.2 < start yearLen 256) :
    yearLoop fuel s = peel yearLen 256 fuel s := by
  induction fuel generalizing s with
  | zero => rfl
  | succ fuel ih =>
    obtain ⟨years, daysLeft⟩ := s
    have hcount : start yearLen years + daysLeft < start yearLen 256 := hs
    have hyears : years < 256 := by
      simp only [start_yearLen] at hcount
      omega
    rw [yearLoop_succ hyears, peel]
    by_cases hrest : daysLeft < yearLen years
    · rw [if_pos hrest, if_pos (Or.inr hrest)]
    · have hstart : start yearLen (years + 1) = start yearLen years + yearLen years := rfl
      have hnext : start yearLen (years + 1) + (daysLeft - yearLen years) < start yearLen 256 := by
        omega
      have hbyte : (years + 1) % 256 = years + 1 := by
        simp only [start_yearLen] at hnext
        omega
      rw [if_neg hrest, if_neg (by simp only; omega), hbyte]
      exact ih hnext

theorem monthLoop_succ {month : Nat} (hmonth : month ≤ 10) (years fuel daysLeft : Nat) :
    monthLoop years (fuel + 1) (month, daysLeft) =
      if daysLeft < monthLen years month then (month, daysLeft)
      else monthLoop years fuel (month + 1, daysLeft - monthLen years month) := by
  have hnot : ¬ month > 10 := by omega
  have htable : dayToMouthVet.getD month 0 = dayToMouthVet.getD month 31 ∧
      dayToMouthVet.getD month 31 ≠ 0 := by
    have h : ∀ k : Fin 11, dayToMouthVet.getD k.val 0 = dayToMouthVet.getD k.val 31 ∧
        dayToMouthVet.getD k.val 31 ≠ 0 := by decide
    exact h ⟨month, by omega⟩
  rw [monthLoop, if_neg hnot, monthLen, htable.1]
  generalize dayToMouthVet.getD month 31 = len at htable ⊢
  have hlen := htable.2
  by_cases hleap : years % 4 = 0 <;> by_cases hfeb : month = 1 <;>
    simp [hleap, hfeb, Nat.div_eq_zero_iff, hlen]

theorem monthLoop_eq_peel (years fuel : Nat) {s : Nat × Nat} (hs : s.1 ≤ 11) :
    monthLoop years fuel s = peel (monthLen years) 11 fuel s := by
  induction fuel generalizing s with
  | zero => rfl
  | succ fuel ih =>
    obtain ⟨month, daysLeft⟩ := s
    rw [peel]
    by_cases hmonth : month ≤ 10
    · have hlast : ¬ 11 ≤ month := by omega
      rw [monthLoop_succ hmonth]
      by_cases hrest : daysLeft < monthLen years month
      · rw [if_pos hrest, if_pos (Or.inr hrest)]
      · rw [if_neg hrest, if_neg (by simp only; omega)]
        exact ih (show month + 1 ≤ 11 by omega)
    · rw [monthLoop, if_pos (by omega), if_pos (Or.inl (by simp only; omega))]

/-- The decoder's month sum counts the same units. -/
theorem secMonthAux_eq (behind : Nat → BitVec 8) (year : Nat) {month : Nat} (hm : month ≤ 12) :
    secMonthAux behind year month = start (monthLen year) month * secDay := by
  induction month with
  | zero => simp [secMonthAux, start]
  | succ m ih =>
    have htable : dayToMouth behind m = dayToMouthVet.getD m 31 := by
      have hlen : m < dayToMouthVet.length := by simp [dayToMouthVet]; omega
      simp only [dayToMouth, List.getD_eq_getElem?_getD, List.getElem?_eq_getElem hlen,
        Option.getD_some]
    have hstep : secMonthAux behind year (m + 1) =
        secMonthAux behind year m + monthLen year m * secDay := by
      simp only [secMonthAux, List.range_succ, List.foldl_append, List.foldl_cons, List.foldl_nil,
        htable, monthLen]
      by_cases hleap : year % 4 = 0 <;> by_cases hfeb : m = 1 <;> simp [hleap, hfeb]
    rw [hstep, ih (by omega), start, Nat.add_mul]

/-! ## The calendar -/

/-- Whole years, whole months of the year after them and days of the month. -/
structure Date where
  year : Nat
  month : Nat
  day : Nat
  month_le : month ≤ 11
  day_lt : day < 31

def Date.days (d : Date) : Nat :=
  start yearLen d.year + start (monthLen d.year) d.month + d.day

theorem Date.year_le (d : Date) : 365 * d.year ≤ d.days := by
  have h := start_yearLen d.year
  unfold days
  omega

/-- The two loops split a number of days into a date. -/
theorem loops_date {days : Nat} (hdays : days < 93504) :
    ∃ d : Date, d.day < monthLen d.year d.month ∧ d.days = days ∧
      (yearLoop (days + 1) (0, days)).1 = d.year ∧
        monthLoop d.year 12 (0, (yearLoop (days + 1) (0, days)).2) = (d.month, d.day) := by
  have hrange : start yearLen 0 + days < start yearLen 256 := by
    simp only [start_yearLen]
    omega
  rw [yearLoop_eq_peel _ hrange]
  have hyear := start_peel yearLen 256 (days + 1) (0, days)
  have hyearRest := peel_rest 256 yearLen_pos (s := (0, days))
    (Or.inl (Nat.lt_succ_self days))
  generalize peel yearLen 256 (days + 1) (0, days) = y at hyear hyearRest ⊢
  obtain ⟨y, n⟩ := y
  simp only [start_yearLen] at hyear hyearRest
  have hlen : n < yearLen y := by omega
  have hmonth := start_peel (monthLen y) 11 12 (0, n)
  have hmonthRest := peel_rest 11 (fun m => (monthLen_bounds y m).1) (s := (0, n))
    (Or.inr (by decide : 11 ≤ 0 + 12))
  have hlast := peel_fst_le (monthLen y) 11 12 (s := (0, n)) (by simp)
  generalize hm : peel (monthLen y) 11 12 (0, n) = m at hmonth hmonthRest hlast
  obtain ⟨m, e⟩ := m
  simp only [start, Nat.zero_add] at hmonth hmonthRest hlast
  have hday : e < monthLen y m := by
    rcases hmonthRest with hdec | hwhole
    · obtain rfl : m = 11 := Nat.le_antisymm hlast hdec
      have hyearEnd := start_monthLen_last y
      rw [monthLen_last]
      omega
    · exact hwhole
  refine ⟨⟨y, m, e, hlast, Nat.lt_of_lt_of_le hday (monthLen_bounds y m).2⟩, hday, ?_, rfl, ?_⟩
  · simp only [Date.days, start_yearLen]
    omega
  · rw [monthLoop_eq_peel _ _ (by simp), hm]

/-! ## One time through both conversions -/

/-- The fields that hold the time `t` of the date `c`. -/
structure Shows (d : RtcData) (t : Nat) (c : Date) : Prop where
  seconds : d.seconds = rtcConvertToRegAux (t % secMin)
  minutes : d.minutes = rtcConvertToRegAux (t % secHr / secMin)
  centHours : d.centHours = rtcConvertToRegAux (t % secDay / secHr)
  date : d.date = rtcConvertToRegAux (c.day + 1)
  month : d.month = rtcConvertToRegAux (c.month + 1)
  years : d.years = rtcConvertToRegAux c.year
  days : c.days = (t - sysTimestampMin) / secDay

theorem shows_convertTimestampToTime {t : Nat} (hmin : sysTimestampMin ≤ t)
    (ht : t < 0x100000000) (stack : RtcData) :
    ∃ date, date.day < monthLen date.year date.month ∧
      Shows (rtcConvertTimestampToTime (BitVec.ofNat 64 t) stack) t date := by
  have hnat : (BitVec.ofNat 64 t).toNat = t := by
    rw [BitVec.toNat_ofNat]
    omega
  have hnot : ¬ t < sysTimestampMin := by omega
  have hword : (t - sysTimestampMin) / secDay % 0x100000000 = (t - sysTimestampMin) / secDay := by
    simp
    omega
  obtain ⟨date, hlen, hdays, hyear, hmonth⟩ :=
    loops_date (show (t - sysTimestampMin) / secDay < 93504 by simp at hmin ⊢; omega)
  have hday := date.day_lt
  have hmidnight : (t % secDay / secHr ||| t % secHr / secMin ||| t % secMin) = 0 ↔
      (t - sysTimestampMin) % secDay = 0 := by
    simp only [Nat.or_eq_zero_iff]
    simp at hmin ⊢
    omega
  have hdate : (if (t % secDay / secHr ||| t % secHr / secMin ||| t % secMin) = 0 then
        ((if (t - sysTimestampMin) % secDay ≠ 0 then date.day + 1 else date.day) % 256 + 1) % 256
      else (if (t - sysTimestampMin) % secDay ≠ 0 then date.day + 1 else date.day) % 256) =
      date.day + 1 := by
    simp only [hmidnight]
    split <;> simp_all <;> omega
  refine ⟨date, hlen, ?_⟩
  constructor
  case days => exact hdays
  all_goals simp only [rtcConvertTimestampToTime, hnat, if_neg hnot, hword, hyear, hmonth]
  rw [hdate]

/-- The sum of `_RTC_convertTimeToTimestamp` before it wraps. -/
def timestampAux (behind : Nat → BitVec 8) (time : RtcData) : Nat :=
  let year := rtcConvertToTimeAux time.years
  let month := (rtcConvertToTimeAux time.month + 255) % 256
  let day := (rtcConvertToTimeAux time.date + 255) % 256
  sysTimestampMin + (year * secYear + secMonthAux behind year month + day * secDay +
    rtcConvertToTimeAux time.centHours * secHr + rtcConvertToTimeAux time.minutes * secMin +
      rtcConvertToTimeAux time.seconds +
        (year / 4 * secDay + if year % 4 ≠ 0 then secDay else 0))

theorem rtcConvertTimeToTimestamp_eq (behind : Nat → BitVec 8) (time : RtcData) :
    rtcConvertTimeToTimestamp behind time =
      (BitVec.ofNat 32 (timestampAux behind time)).signExtend 64 := rfl

theorem timestampAux_shows (behind : Nat → BitVec 8) {d : RtcData} {t : Nat} {c : Date}
    (hmin : sysTimestampMin ≤ t) (ht : t < 0x80000000) (h : Shows d t c) :
    timestampAux behind d = t := by
  have hyear := c.year_le
  have hmonth := c.month_le
  have hday := c.day_lt
  have hdays := h.days
  simp only [Date.days, start_yearLen] at hdays hyear
  have hsec : t % secMin < 80 := by simp; omega
  have hminute : t % secHr / secMin < 80 := by simp; omega
  have hhour : t % secDay / secHr < 80 := by simp; omega
  have hyear80 : c.year < 80 := by simp at hdays; omega
  have hdate : (c.day + 1 + 255) % 256 = c.day := by omega
  have hmon : (c.month + 1 + 255) % 256 = c.month := by omega
  simp only [timestampAux, h.seconds, h.minutes, h.centHours, h.date, h.month,
    h.years, convertToTime_convertToReg hsec, convertToTime_convertToReg hminute,
    convertToTime_convertToReg hhour, convertToTime_convertToReg hyear80,
    convertToTime_convertToReg (show c.day + 1 < 80 by omega),
    convertToTime_convertToReg (show c.month + 1 < 80 by omega), hdate, hmon,
    secMonthAux_eq behind c.year (show c.month ≤ 12 by omega)]
  generalize start (monthLen c.year) c.month = months at hdays ⊢
  simp only [secYear, secDay, secHr, secMin, sysTimestampMin] at hmin hdays ⊢
  split <;> omega

/-- Widening changes nothing below the sign bit. -/
theorem signExtend_toNat {v : BitVec 32} (h : v.toNat < 0x80000000) :
    (v.signExtend 64).toNat = v.toNat := by
  rw [BitVec.signExtend_eq_setWidth_of_msb_false, BitVec.toNat_setWidth_of_le (by decide)]
  rw [BitVec.msb_eq_false_iff_two_mul_lt]
  omega

theorem setWidth_signExtend (v : BitVec 32) : (v.signExtend 64).setWidth 32 = v := by
  refine BitVec.eq_of_getLsbD_eq fun i hi => ?_
  rw [BitVec.getLsbD_setWidth, BitVec.getLsbD_signExtend]
  simp only [hi, decide_true, if_true, Bool.true_and, show i < 64 by omega]

/-- A sum that an `int` holds is the result. -/
theorem convertTimeToTimestamp_toNat {behind : Nat → BitVec 8} {d : RtcData}
    (h : timestampAux behind d < 0x80000000) :
    (rtcConvertTimeToTimestamp behind d).toNat = timestampAux behind d := by
  have hword : (BitVec.ofNat 32 (timestampAux behind d)).toNat = timestampAux behind d := by
    rw [BitVec.toNat_ofNat]
    omega
  rw [rtcConvertTimeToTimestamp_eq, signExtend_toNat (hword.symm ▸ h), hword]

theorem convertTimeToTimestamp_shows (behind : Nat → BitVec 8) {d : RtcData} {t : Nat} {c : Date}
    (hmin : sysTimestampMin ≤ t) (ht : t < 0x80000000) (h : Shows d t c) :
    (rtcConvertTimeToTimestamp behind d).toNat = t := by
  have hsum := timestampAux_shows behind hmin ht h
  rw [convertTimeToTimestamp_toNat (hsum ▸ ht), hsum]

/-- The chip keeps the fields: the masks of `RTC_setValue` cut nothing. -/
theorem shows_receive {t : BitVec 32} (hmin : sysTimestampMin ≤ t.toNat)
    (ht : t.toNat < 0x80000000) (stack d : RtcData) :
    ∃ c, Shows (d.receive ((rtcSetValue t stack).drop 1)) t.toNat c := by
  obtain ⟨c, -, h⟩ := shows_convertTimestampToTime hmin (Nat.lt_trans ht (by decide)) stack
  rw [BitVec.ofNat_toNat] at h
  have hmonth := c.month_le
  have hday := c.day_lt
  refine ⟨c, ?_⟩
  constructor
  case days => exact h.days
  case centHours => exact h.centHours
  case years => exact h.years
  case seconds =>
    exact (congrArg (· &&& 0b01111111) h.seconds).trans
      (convertToReg_and (k := 7) (by simp; omega) (by decide) (by simp; omega))
  case minutes =>
    exact (congrArg (· &&& 0b01111111) h.minutes).trans
      (convertToReg_and (k := 7) (by simp; omega) (by decide) (by simp; omega))
  case date =>
    exact (congrArg (· &&& 0b00111111) h.date).trans
      (convertToReg_and (k := 6) (by omega) (by decide) (by omega))
  case month =>
    exact (congrArg (· &&& 0b00011111) h.month).trans
      (convertToReg_and (k := 5) (by omega) (by decide) (by omega))

/-! ## The limit of the decoder -/

theorem convert_min (behind : Nat → BitVec 8) (stack : RtcData) :
    (rtcConvertTimeToTimestamp behind
      (rtcConvertTimestampToTime (BitVec.ofNat 64 sysTimestampMin) stack)).toNat =
      sysTimestampMin := by
  obtain ⟨c, -, h⟩ := shows_convertTimestampToTime (t := sysTimestampMin) (Nat.le_refl _)
    (by decide) stack
  exact convertTimeToTimestamp_shows behind (Nat.le_refl _) (by decide) h

/-- A widened `int` that passes the upper limit was not negative. -/
theorem signExtend_lt {v : BitVec 32} (h : (v.signExtend 64).toNat ≤ 7268702400) :
    (v.signExtend 64).toNat < 0x80000000 := by
  rw [BitVec.toNat_signExtend] at h ⊢
  have hmsb := BitVec.msb_eq_decide v
  have hwidth : (v.setWidth 64).toNat = v.toNat := by
    rw [BitVec.toNat_setWidth]
    omega
  rw [hwidth] at h ⊢
  split at h
  · omega
  · rename_i hpos
    rw [if_neg hpos]
    simp [hmsb] at hpos
    omega

/-- A decoded time that passes the upper limit is below 2^31. -/
theorem convertTimeToTimestamp_lt {behind : Nat → BitVec 8} {d : RtcData}
    (h : (rtcConvertTimeToTimestamp behind d).toNat ≤ 7268702400) :
    (rtcConvertTimeToTimestamp behind d).toNat < 0x80000000 :=
  signExtend_lt h

/-- Whatever the chip answers, the time afterwards is below 2^31. -/
theorem resynchronization_lt (behind : Nat → BitVec 8) (stack : RtcData)
    (received : List (BitVec 8)) (ptrTimestamp : BitVec 32) :
    (rtcResynchronization behind stack received ptrTimestamp).ptrTimestamp.toNat < 0x80000000 := by
  unfold rtcResynchronization
  dsimp only
  split
  · rw [BitVec.toNat_setWidth, convert_min]
    decide
  · rename_i hok
    rw [BitVec.toNat_setWidth]
    have hlt := convertTimeToTimestamp_lt (Nat.le_of_not_gt fun h => hok (Or.inr (Or.inr h)))
    exact Nat.lt_of_le_of_lt (Nat.mod_le _ _) hlt

/-- A plausible answer is accepted and its time taken over. -/
theorem resynchronization_shows {t : Nat} {c : Date} (hmin : sysTimestampMin ≤ t)
    (ht : t < 0x80000000) (behind : Nat → BitVec 8) {stack : RtcData} {received : List (BitVec 8)}
    {ptrTimestamp : BitVec 32}
    (h : Shows ((rtcConvertTimestampToTime (ptrTimestamp.setWidth 64) stack).receive received)
      t c) :
    (rtcResynchronization behind stack received ptrTimestamp).ptrTimestamp.toNat = t := by
  unfold rtcResynchronization
  dsimp only
  generalize (rtcConvertTimestampToTime (ptrTimestamp.setWidth 64) stack).receive received = d
    at h ⊢
  have hback := convertTimeToTimestamp_shows behind hmin ht h
  have hflag : d.minutes &&& 0b10000000 = 0 := by
    rw [h.minutes]
    exact convertToReg_and_80 (by simp; omega)
  rw [if_neg]
  · rw [BitVec.toNat_setWidth, hback]
    omega
  · rw [hflag, hback]
    simp at hmin ⊢
    omega

/-- Setting the chip and resynchronising from it restores the time exactly when
the time is below 2^31. -/
theorem rtc_roundTrip_iff {t : BitVec 32} (hmin : sysTimestampMin ≤ t.toNat)
    (behind : Nat → BitVec 8) (stack stack' : RtcData) (ptrTimestamp : BitVec 32) :
    (rtcResynchronization behind stack' ((rtcSetValue t stack).drop 1) ptrTimestamp).ptrTimestamp =
      t ↔ t.toNat < 0x80000000 := by
  constructor
  · intro h
    rw [← h]
    exact resynchronization_lt behind stack' _ ptrTimestamp
  · intro ht
    obtain ⟨c, h⟩ := shows_receive hmin ht stack _
    exact BitVec.eq_of_toNat_eq (resynchronization_shows hmin ht behind h)

def blankRtc : RtcData := ⟨0, 0, 0, 0, 0, 0, 0, 0, 0, 0, 0, 0, 0⟩

/-- The first time that does not come back: the sum turns negative. -/
theorem rtc_roundTrip_fails :
    ¬ ∀ t : BitVec 32, sysTimestampMin ≤ t.toNat →
      ∀ (behind : Nat → BitVec 8) (stack stack' : RtcData) (ptrTimestamp : BitVec 32),
        (rtcResynchronization behind stack' ((rtcSetValue t stack).drop 1)
          ptrTimestamp).ptrTimestamp = t := by
  intro hall
  have hback := hall 2147483648 (by decide) (fun _ => 0) blankRtc blankRtc 0
  exact absurd hback (by decide +kernel)

/-- A time of 2026 comes back. -/
theorem rtc_roundTrip_2026 :
    (rtcResynchronization (fun _ => 0) blankRtc ((rtcSetValue 1775055600 blankRtc).drop 1)
      0).ptrTimestamp = 1775055600 :=
  (rtc_roundTrip_iff (by decide) _ _ _ _).mpr (by decide)

end Rtc
end Recirculador
