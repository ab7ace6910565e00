/-
The day of the week, as the schedules and the clock chip see it.

Both count days from the smallest time, a Monday, and both round a time up to the
end of its day unless it is midnight.  Midnight thus still belongs to the day
before.  The register of the chip has a second defect: it is the number of the
day and one more, and on Sundays the eight does not fit into its three bits.
-/
import Recirculador.Rtc.RoundTrip
import Recirculador.Scheduling

namespace Recirculador
namespace Weekday

open Schedule Rtc

def Midnight (t : BitVec 32) : Prop := t.toNat % 86400 = 0

/-- Monday 0 to Sunday 6. -/
def weekIndex (t : BitVec 32) : Nat := (dayOf t - sysTimestampMin / 86400) % 7

instance (t : BitVec 32) : Decidable (Midnight t) := inferInstanceAs (Decidable (_ = _))

/-- Values for two times of one day agree, and of a day and the next follow each
other. -/
structure DayLaw {α : Type} (next : α → α) (t t' : BitVec 32) (v v' : α) : Prop where
  same : dayOf t' = dayOf t → v' = v
  next : dayOf t' = dayOf t + 1 → v' = next v

/-- The same day or the next one. -/
def Neighbours (t t' : BitVec 32) : Prop := dayOf t' = dayOf t ∨ dayOf t' = dayOf t + 1

theorem weekIndex_lt (t : BitVec 32) : weekIndex t < 7 := Nat.mod_lt _ (by decide)

theorem weekIndex_same {t t' : BitVec 32} (h : dayOf t' = dayOf t) :
    weekIndex t' = weekIndex t := by
  rw [weekIndex, weekIndex, h]

theorem weekIndex_next {t t' : BitVec 32} (hmin : sysTimestampMin ≤ t.toNat)
    (h : dayOf t' = dayOf t + 1) : weekIndex t' = (weekIndex t + 1) % 7 := by
  have hfirst : sysTimestampMin / 86400 ≤ dayOf t := Nat.div_le_div_right hmin
  rw [weekIndex, weekIndex, h]
  generalize sysTimestampMin / 86400 = c at *
  omega

theorem dayLaw_same {α : Type} {next : α → α} {t t' : BitVec 32} {v v' : α}
    (h : dayOf t' = dayOf t) : DayLaw next t t' v v' ↔ v' = v :=
  ⟨fun hlaw => hlaw.same h, fun hv => ⟨fun _ => hv, fun hnext => absurd hnext (by omega)⟩⟩

theorem dayLaw_next {α : Type} {next : α → α} {t t' : BitVec 32} {v v' : α}
    (h : dayOf t' = dayOf t + 1) : DayLaw next t t' v v' ↔ v' = next v :=
  ⟨fun hlaw => hlaw.next h, fun hv => ⟨fun hsame => absurd hsame (by omega), fun _ => hv⟩⟩

theorem dayLaw_far {α : Type} {next : α → α} {t t' : BitVec 32} {v v' : α}
    (h : ¬ Neighbours t t') : DayLaw next t t' v v' :=
  ⟨fun hsame => absurd (Or.inl hsame) h, fun hnext => absurd (Or.inr hnext) h⟩

/-- Where a time stands to another one, and the weekday that goes with it. -/
theorem neighbours_cases {t : BitVec 32} (hmin : sysTimestampMin ≤ t.toNat) (t' : BitVec 32) :
    (dayOf t' = dayOf t ∧ weekIndex t' = weekIndex t) ∨
      (dayOf t' = dayOf t + 1 ∧ weekIndex t' = (weekIndex t + 1) % 7) ∨ ¬ Neighbours t t' := by
  by_cases hsame : dayOf t' = dayOf t
  · exact Or.inl ⟨hsame, weekIndex_same hsame⟩
  · by_cases hnext : dayOf t' = dayOf t + 1
    · exact Or.inr (Or.inl ⟨hnext, weekIndex_next hmin hnext⟩)
    · exact Or.inr (Or.inr fun h => h.elim hsame hnext)

/-! ## The day mask of schedules -/

/-- One bit to the right, cyclically within the seven low bits. -/
def nextBit (b : BitVec 8) : BitVec 8 := (b >>> 1) ||| ((b &&& 1) <<< 6)

def weekBit (i : Nat) : BitVec 8 := 0b1000000#8 >>> (i % 7)

theorem weekBit_inj {i j : Nat} : weekBit i = weekBit j ↔ i % 7 = j % 7 := by
  have h : ∀ a b : Fin 7, 0b1000000#8 >>> a.val = 0b1000000#8 >>> b.val ↔ a = b := by decide
  have hij := h ⟨i % 7, Nat.mod_lt _ (by decide)⟩ ⟨j % 7, Nat.mod_lt _ (by decide)⟩
  rw [Fin.mk.injEq] at hij
  exact hij

theorem nextBit_weekBit (i : Nat) : nextBit (weekBit i) = weekBit (i + 1) := by
  have h : ∀ a : Fin 7, nextBit (0b1000000#8 >>> a.val) = 0b1000000#8 >>> ((a.val + 1) % 7) := by
    decide
  have hi := h ⟨i % 7, Nat.mod_lt _ (by decide)⟩
  have hmod : (i % 7 + 1) % 7 = (i + 1) % 7 := by omega
  rw [hmod] at hi
  exact hi

theorem dayBit_eq (d : Nat) : dayBit d = weekBit (d + 1 - sysTimestampMin / 86400) := rfl

/-- Past midnight the bit is one further than at midnight. -/
theorem weekDay_weekBit {t : BitVec 32} (hmin : sysTimestampMin ≤ t.toNat) :
    weekDay t = weekBit (if Midnight t then weekIndex t else weekIndex t + 1) := by
  have hfirst : sysTimestampMin / 86400 ≤ dayOf t := Nat.div_le_div_right hmin
  have hpos : 0 < sysTimestampMin / 86400 := by decide
  rw [weekDay_eq hmin, dayBit_eq, dayBit_eq, weekIndex]
  generalize sysTimestampMin / 86400 = c at *
  by_cases h : Midnight t
  · have hrest : t.toNat % 86400 = 0 := h
    rw [if_pos h, if_pos hrest, weekBit_inj]
    omega
  · have hrest : ¬ t.toNat % 86400 = 0 := h
    rw [if_neg h, if_neg hrest, weekBit_inj]
    omega

/-- The mask follows the calendar for two times of one day, or of a day and the
next, exactly if both or none of them are midnights. -/
theorem weekDay_dayLaw_iff {t t' : BitVec 32} (hmin : sysTimestampMin ≤ t.toNat)
    (hmin' : sysTimestampMin ≤ t'.toNat) :
    DayLaw nextBit t t' (weekDay t) (weekDay t') ↔
      (Neighbours t t' → (Midnight t ↔ Midnight t')) := by
  have hlt := weekIndex_lt t
  rw [weekDay_weekBit hmin, weekDay_weekBit hmin']
  rcases neighbours_cases hmin t' with ⟨hday, hindex⟩ | ⟨hday, hindex⟩ | hfar
  · rw [dayLaw_same hday, weekBit_inj, hindex,
      imp_iff_right (show Neighbours t t' from Or.inl hday)]
    by_cases h : Midnight t <;> by_cases h' : Midnight t' <;> simp [h, h'] <;> omega
  · rw [dayLaw_next hday, nextBit_weekBit, weekBit_inj, hindex,
      imp_iff_right (show Neighbours t t' from Or.inr hday)]
    by_cases h : Midnight t <;> by_cases h' : Midnight t' <;> simp [h, h'] <;> omega
  · exact iff_of_true (dayLaw_far hfar) fun h => absurd h hfar

/-- Half past midnight, on the first day and the next. -/
theorem weekDay_dayLaw_monday :
    DayLaw nextBit 1704069000 1704155400 (weekDay 1704069000) (weekDay 1704155400) :=
  (weekDay_dayLaw_iff (by decide) (by decide)).mpr fun _ => by decide

/-- A midnight and the second after it have different bits. -/
theorem weekDay_midnight : sysTimestampMin ≤ (1704153600 : BitVec 32).toNat ∧
    ¬ DayLaw nextBit 1704153600 1704153601 (weekDay 1704153600) (weekDay 1704153601) :=
  ⟨by decide, fun h => absurd (h.same (by decide)) (by decide)⟩

/-! ## The day register of the clock chip -/

/-- The fourth register, as `RTC_setValue` sends it. -/
def dayField (t : BitVec 32) (stack : RtcData) : Nat := ((rtcSetValue t stack).getD 4 0).toNat

/-- The number of the day, from which `_RTC_convertTimestampToTime` makes a packed
decimal. -/
def dayNumber (timestamp : Nat) : Nat :=
  let weekDay := timestamp % secWeek
  if weekDay % Rtc.secDay ≠ 0 then weekDay / Rtc.secDay + 2 else weekDay / Rtc.secDay + 1

theorem dayField_eq_dayNumber {t : BitVec 32} (hmin : sysTimestampMin ≤ t.toNat)
    (stack : RtcData) : dayField t stack =
      (rtcConvertToRegAux (dayNumber (t.toNat - sysTimestampMin)) &&& 0b00000111).toNat := by
  have hnat : (t.setWidth 64).toNat = t.toNat := BitVec.toNat_setWidth_of_le (by decide)
  have hnot : ¬ t.toNat < sysTimestampMin := Nat.not_lt.mpr hmin
  simp only [dayField, rtcSetValue, RtcData.bytes, rtcConvertTimestampToTime, hnat, if_neg hnot,
    dayNumber, List.getD_cons_succ, List.getD_cons_zero]

theorem packed_low {n : Nat} (hn : n ≤ 8) :
    (rtcConvertToRegAux n &&& 0b00000111).toNat = n % 8 := by
  have h : ∀ i : Fin 9, (rtcConvertToRegAux i.val &&& 0b00000111).toNat = i.val % 8 := by decide
  exact h ⟨n, by omega⟩

theorem dayNumber_eq (n : Nat) : dayNumber n =
    if n % 86400 = 0 then n / 86400 % 7 + 1 else n / 86400 % 7 + 2 := by
  have hday : n % 604800 / 86400 = n / 86400 % 7 := by omega
  have hrest : n % 604800 % 86400 = n % 86400 := by omega
  simp only [dayNumber, secWeek, Rtc.secDay, hday, hrest, ite_not]

theorem dayNumber_sub_min {t : BitVec 32} (hmin : sysTimestampMin ≤ t.toNat) :
    dayNumber (t.toNat - sysTimestampMin) =
      if Midnight t then weekIndex t + 1 else weekIndex t + 2 := by
  have hdays : sysTimestampMin = 86400 * (sysTimestampMin / 86400) := by decide
  rw [dayNumber_eq, weekIndex, dayOf]
  generalize sysTimestampMin / 86400 = c at hdays
  rw [hdays] at hmin ⊢
  rw [Nat.sub_mul_div, Nat.sub_mul_mod hmin]
  rfl

theorem dayField_eq {t : BitVec 32} (hmin : sysTimestampMin ≤ t.toNat) (stack : RtcData) :
    dayField t stack = if Midnight t then weekIndex t + 1 else (weekIndex t + 2) % 8 := by
  have hlt := weekIndex_lt t
  rw [dayField_eq_dayNumber hmin, dayNumber_sub_min hmin]
  by_cases h : Midnight t
  · rw [if_pos h, if_pos h, packed_low (by omega), Nat.mod_eq_of_lt (by omega)]
  · rw [if_neg h, if_neg h, packed_low (by omega)]

/-- Midnights, and the times of all days but Sundays. -/
def FitsField (t : BitVec 32) : Prop := Midnight t ∨ weekIndex t ≠ 6

/-- The next day of the week, 7 followed by 1. -/
def nextDay (n : Nat) : Nat := n % 7 + 1

/-- The register holds a day of the week and follows the calendar exactly if the day
fits, and for a time of the same day or the next if both or none of them are
midnights and the other fits too. -/
theorem dayField_dayLaw_iff {t t' : BitVec 32} (hmin : sysTimestampMin ≤ t.toNat)
    (hmin' : sysTimestampMin ≤ t'.toNat) (stack stack' : RtcData) :
    ((1 ≤ dayField t stack ∧ dayField t stack ≤ 7) ∧
        DayLaw nextDay t t' (dayField t stack) (dayField t' stack')) ↔
      FitsField t ∧ (Neighbours t t' → (Midnight t ↔ Midnight t') ∧ FitsField t') := by
  have hlt := weekIndex_lt t
  rw [dayField_eq hmin, dayField_eq hmin', FitsField, FitsField]
  rcases neighbours_cases hmin t' with ⟨hday, hindex⟩ | ⟨hday, hindex⟩ | hfar
  · rw [dayLaw_same hday, hindex, imp_iff_right (show Neighbours t t' from Or.inl hday)]
    generalize weekIndex t = i at *
    by_cases h : Midnight t <;> by_cases h' : Midnight t' <;> simp [h, h'] <;> omega
  · rw [dayLaw_next hday, nextDay, hindex,
      imp_iff_right (show Neighbours t t' from Or.inr hday)]
    generalize weekIndex t = i at *
    by_cases h : Midnight t <;> by_cases h' : Midnight t' <;> simp [h, h'] <;> omega
  · rw [and_iff_left (dayLaw_far hfar), and_iff_left fun h => absurd h hfar]
    by_cases h : Midnight t <;> simp [h] <;> omega

theorem dayField_dayLaw_monday :
    (1 ≤ dayField 1704069000 blankRtc ∧ dayField 1704069000 blankRtc ≤ 7) ∧
      DayLaw nextDay 1704069000 1704155400 (dayField 1704069000 blankRtc)
        (dayField 1704155400 blankRtc) :=
  (dayField_dayLaw_iff (by decide) (by decide) blankRtc blankRtc).mpr
    ⟨Or.inr (by decide), fun _ => ⟨by decide, Or.inr (by decide)⟩⟩

/-- On the first Sunday, a second after midnight, the register is zero. -/
theorem dayField_sunday : sysTimestampMin ≤ (1704585601 : BitVec 32).toNat ∧
    ¬ ((1 ≤ dayField 1704585601 blankRtc ∧ dayField 1704585601 blankRtc ≤ 7) ∧
      DayLaw nextDay 1704585601 1704585602 (dayField 1704585601 blankRtc)
        (dayField 1704585602 blankRtc)) :=
  ⟨by decide, fun h => absurd h.1.1 (by decide)⟩

end Weekday
end Recirculador
