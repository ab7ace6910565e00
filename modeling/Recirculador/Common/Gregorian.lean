/-
The proleptic Gregorian calendar.

A date is counted in days from the first of January of year 0: the years before it, the
months before it and the days of its month.  A later date has the larger count, and with
the time of day a later time has the larger Unix time, so a Unix time names one UTC time.
-/
import Recirculador.Common.Peel

namespace Gregorian

open Peel

def isLeap (year : Nat) : Bool :=
  year % 4 == 0 && (year % 100 != 0 || year % 400 == 0)

def yearDays (year : Nat) : Nat := if isLeap year then 366 else 365

/-- The days of a month, January being 1. -/
def monthDays (year month : Nat) : Nat :=
  if month = 2 then if isLeap year then 29 else 28
  else if month = 4 ∨ month = 6 ∨ month = 9 ∨ month = 11 then 30
  else 31

/-- The days of the months before `month`. -/
def monthStart (year month : Nat) : Nat := start (fun m => monthDays year (m + 1)) (month - 1)

@[ext]
structure Date where
  year : Nat
  month : Nat
  day : Nat
  month_pos : 1 ≤ month
  month_le : month ≤ 12
  day_pos : 1 ≤ day
  day_le : day ≤ monthDays year month

def Date.number (d : Date) : Nat :=
  start yearDays d.year + monthStart d.year d.month + (d.day - 1)

/-- Earlier in year, month and day. -/
def Date.Before (d d' : Date) : Prop :=
  d.year < d'.year ∨ d.year = d'.year ∧
    (d.month < d'.month ∨ d.month = d'.month ∧ d.day < d'.day)

/-- A quotient that is rounded up grows at the multiples. -/
theorem roundUp_succ {n : Nat} (hn : 0 < n) (y : Nat) :
    (y + 1 + (n - 1)) / n = (y + (n - 1)) / n + if y % n = 0 then 1 else 0 := by
  have hsucc : y + 1 + (n - 1) = y + (n - 1) + 1 := by omega
  rw [hsucc, Nat.succ_div]
  congr 1
  have hdvd : n ∣ y + (n - 1) + 1 ↔ y % n = 0 := by
    have hsum : y + (n - 1) + 1 = y + n := by omega
    rw [hsum, Nat.dvd_iff_mod_eq_zero, Nat.add_mod_right]
  simp only [hdvd]

theorem start_yearDays (y : Nat) :
    start yearDays y + (y + 99) / 100 = 365 * y + (y + 3) / 4 + (y + 399) / 400 := by
  induction y with
  | zero => rfl
  | succ y ih =>
    have hleap : yearDays y = if y % 4 = 0 ∧ (y % 100 ≠ 0 ∨ y % 400 = 0) then 366 else 365 := by
      simp only [yearDays, isLeap, Bool.and_eq_true, beq_iff_eq, Bool.or_eq_true, bne_iff_ne]
    have hfour := roundUp_succ (show 0 < 4 by decide) y
    have hcentury := roundUp_succ (show 0 < 100 by decide) y
    have hcycle := roundUp_succ (show 0 < 400 by decide) y
    have hcenturies : y % 400 = 0 → y % 100 = 0 := by omega
    have hfours : y % 100 = 0 → y % 4 = 0 := by omega
    rw [start, hleap]
    grind

theorem monthStart_year (y : Nat) : monthStart y 13 = yearDays y := by
  cases hleap : isLeap y <;> simp [monthStart, start, monthDays, yearDays, hleap]

theorem monthStart_mono (y : Nat) {m m' : Nat} (h : m ≤ m') : monthStart y m ≤ monthStart y m' :=
  start_mono _ (Nat.sub_le_sub_right h 1)

theorem monthStart_succ (y : Nat) {m : Nat} (h : 1 ≤ m) :
    monthStart y (m + 1) = monthStart y m + monthDays y m := by
  obtain ⟨n, rfl⟩ := Nat.exists_eq_add_of_le' h
  rfl

/-- A date lies before the end of its month. -/
theorem Date.number_lt_month (d : Date) :
    d.number < start yearDays d.year + monthStart d.year (d.month + 1) := by
  have hpos := d.day_pos
  have hle := d.day_le
  rw [number, monthStart_succ d.year d.month_pos]
  omega

theorem Date.number_lt_year (d : Date) : d.number < start yearDays (d.year + 1) := by
  have hmonth := monthStart_mono d.year (Nat.succ_le_succ d.month_le)
  rw [monthStart_year] at hmonth
  exact Nat.lt_of_lt_of_le d.number_lt_month (Nat.add_le_add_left hmonth _)

theorem Date.Before.number_lt {d d' : Date} (h : d.Before d') : d.number < d'.number := by
  obtain hyear | ⟨hyear, hmonth | ⟨hmonth, hday⟩⟩ := h
  · have hstart : start yearDays (d.year + 1) ≤ start yearDays d'.year := start_mono _ hyear
    have hlt := d.number_lt_year
    have hle : start yearDays d'.year ≤ d'.number := Nat.le_trans (Nat.le_add_right _ _)
      (Nat.le_add_right _ _)
    omega
  · have hstart := monthStart_mono d'.year (show d.month + 1 ≤ d'.month from hmonth)
    have hlt := d.number_lt_month
    rw [hyear] at hlt
    have hle : start yearDays d'.year + monthStart d'.year d'.month ≤ d'.number :=
      Nat.le_add_right _ _
    omega
  · have hpos := d.day_pos
    rw [number, number, hyear, hmonth]
    omega

theorem Date.before_or (d d' : Date) : d.Before d' ∨ d = d' ∨ d'.Before d := by
  rcases Nat.lt_trichotomy d.year d'.year with hyear | hyear | hyear
  · exact Or.inl (Or.inl hyear)
  · rcases Nat.lt_trichotomy d.month d'.month with hmonth | hmonth | hmonth
    · exact Or.inl (Or.inr ⟨hyear, Or.inl hmonth⟩)
    · rcases Nat.lt_trichotomy d.day d'.day with hday | hday | hday
      · exact Or.inl (Or.inr ⟨hyear, Or.inr ⟨hmonth, hday⟩⟩)
      · exact Or.inr (Or.inl (Date.ext hyear hmonth hday))
      · exact Or.inr (Or.inr (Or.inr ⟨hyear.symm, Or.inr ⟨hmonth.symm, hday⟩⟩))
    · exact Or.inr (Or.inr (Or.inr ⟨hyear.symm, Or.inl hmonth⟩))
  · exact Or.inr (Or.inr (Or.inl hyear))

/-- The count of 1970-01-01, day 0 of the Unix time. -/
def unixEpoch : Nat := start yearDays 1970

theorem unixEpoch_eq : unixEpoch = 719528 := by
  have h := start_yearDays 1970
  rw [unixEpoch]
  omega

/-! ## The time of day -/

@[ext]
structure Utc extends Date where
  hour : Nat
  minute : Nat
  second : Nat
  hour_lt : hour < 24
  minute_lt : minute < 60
  second_lt : second < 60

def Utc.secondOfDay (u : Utc) : Nat := 3600 * u.hour + 60 * u.minute + u.second

def Utc.unix (u : Utc) : Int := 86400 * ((u.number : Int) - unixEpoch) + u.secondOfDay

/-- Earlier in year, month, day, hour, minute and second. -/
def Utc.Before (u u' : Utc) : Prop :=
  u.toDate.Before u'.toDate ∨ u.toDate = u'.toDate ∧
    (u.hour < u'.hour ∨ u.hour = u'.hour ∧
      (u.minute < u'.minute ∨ u.minute = u'.minute ∧ u.second < u'.second))

theorem Utc.secondOfDay_lt (u : Utc) : u.secondOfDay < 86400 := by
  have hhour := u.hour_lt
  have hminute := u.minute_lt
  have hsecond := u.second_lt
  rw [secondOfDay]
  omega

theorem Utc.Before.unix_lt {u u' : Utc} (h : u.Before u') : u.unix < u'.unix := by
  have hday := u.secondOfDay_lt
  have hminute := u.minute_lt
  have hsecond := u.second_lt
  obtain hdate | ⟨hdate, htime⟩ := h
  · have hnumber := hdate.number_lt
    rw [unix, unix]
    omega
  · have hof : u.secondOfDay < u'.secondOfDay := by
      rw [secondOfDay, secondOfDay]
      omega
    rw [unix, unix, hdate]
    omega

theorem Utc.before_or (u u' : Utc) : u.Before u' ∨ u = u' ∨ u'.Before u := by
  rcases u.toDate.before_or u'.toDate with hdate | hdate | hdate
  · exact Or.inl (Or.inl hdate)
  · rcases Nat.lt_trichotomy u.hour u'.hour with hhour | hhour | hhour
    · exact Or.inl (Or.inr ⟨hdate, Or.inl hhour⟩)
    · rcases Nat.lt_trichotomy u.minute u'.minute with hminute | hminute | hminute
      · exact Or.inl (Or.inr ⟨hdate, Or.inr ⟨hhour, Or.inl hminute⟩⟩)
      · rcases Nat.lt_trichotomy u.second u'.second with hsecond | hsecond | hsecond
        · exact Or.inl (Or.inr ⟨hdate, Or.inr ⟨hhour, Or.inr ⟨hminute, hsecond⟩⟩⟩)
        · exact Or.inr (Or.inl (Utc.ext (congrArg Date.year hdate) (congrArg Date.month hdate)
            (congrArg Date.day hdate) hhour hminute hsecond))
        · exact Or.inr (Or.inr
            (Or.inr ⟨hdate.symm, Or.inr ⟨hhour.symm, Or.inr ⟨hminute.symm, hsecond⟩⟩⟩))
      · exact Or.inr (Or.inr (Or.inr ⟨hdate.symm, Or.inr ⟨hhour.symm, Or.inl hminute⟩⟩))
    · exact Or.inr (Or.inr (Or.inr ⟨hdate.symm, Or.inl hhour⟩))
  · exact Or.inr (Or.inr (Or.inl hdate))

/-- A Unix time names one UTC time. -/
theorem Utc.unix_injective {u u' : Utc} (h : u.unix = u'.unix) : u = u' := by
  rcases u.before_or u' with hbefore | heq | hafter
  · exact absurd h (Int.ne_of_lt hbefore.unix_lt)
  · exact heq
  · exact absurd h.symm (Int.ne_of_lt hafter.unix_lt)

end Gregorian
