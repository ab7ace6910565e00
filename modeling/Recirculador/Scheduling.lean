/-
The weekly schedule of `scheduling.c`.

A schedule word holds the days, the start and the end minute and a mode nobody
reads.  A window whose end is before its start runs through midnight.  It belongs to
the day it starts on, and its second part is on the day after; the code asks for the
flag of the current day in both parts.
-/
import Recirculador.Registers.Store

namespace Recirculador

open SysRegMap Registers

def scheduleReturnDay (v : BitVec 32) : BitVec 32 :=
  (v &&& 0b11111110000000000000000000000000#32) >>> 25

def scheduleReturnTimeStart (v : BitVec 32) : BitVec 32 :=
  (v &&& 0b00000001111111111100000000000000#32) >>> 14

def scheduleReturnTimeEnd (v : BitVec 32) : BitVec 32 :=
  (v &&& 0b00000000000000000011111111111000#32) >>> 3

@[simp] abbrev secMin : BitVec 32 := 60
@[simp] abbrev secDay : BitVec 32 := 86400

/-- The day mask of a time, Monday the top bit. -/
def weekDay (timestamp : BitVec 32) : BitVec 8 :=
  let timestamp := timestamp - BitVec.ofNat 32 sysTimestampMin
  let dayAux := timestamp / secDay
  let dayAux := if timestamp % secDay ≠ 0 then dayAux + 1 else dayAux
  let dayAux := dayAux % 7
  0b1000000#8 >>> dayAux

def minute (timestamp : BitVec 32) : BitVec 16 := ((timestamp % secDay) / secMin).setWidth 16

/-- One pass of the loop of `schedulingTest`. -/
def scheduleActive (schedule timestamp : BitVec 32) : Bool :=
  if scheduleReturnDay schedule &&& (weekDay timestamp).setWidth 32 ≠ 0 then
    let timeStart := (scheduleReturnTimeStart schedule).setWidth 16
    let timeEnd := (scheduleReturnTimeEnd schedule).setWidth 16
    let time := minute timestamp
    if timeEnd.slt timeStart then !(timeEnd.sle time && time.slt timeStart)
    else time.slt timeEnd && timeStart.sle time
  else false

def schedulingTest (timestamp : BitVec 32) (r : Registers) : Bool :=
  (List.range sysSchedulersTotal).any fun i =>
    scheduleActive (regReadInt (schedules0 + i) r) timestamp

namespace Registers

theorem schedulingTest_congr {r r' : Registers} (h : ∀ addr, regReadInt addr r' = regReadInt addr r)
    (timestamp : BitVec 32) : schedulingTest timestamp r' = schedulingTest timestamp r := by
  simp only [schedulingTest, h]

end Registers

namespace Schedule

/-! ## Days and minutes -/

/-- Days and minutes of UTC. -/
def dayOf (t : BitVec 32) : Nat := t.toNat / 86400

def minuteOf (t : BitVec 32) : Nat := t.toNat % 86400 / 60

/-- The bit of a day, counted from the smallest time and without a 32-bit end. -/
def dayBit (d : Nat) : BitVec 8 := 0b1000000#8 >>> ((d + 1 - sysTimestampMin / 86400) % 7)

theorem secDay_toNat : secDay.toNat = 86400 := rfl

theorem toNat_sub_min {t : BitVec 32} (hmin : sysTimestampMin ≤ t.toNat) :
    (t - BitVec.ofNat 32 sysTimestampMin).toNat = t.toNat - sysTimestampMin :=
  BitVec.toNat_sub_of_le (show BitVec.ofNat 32 sysTimestampMin ≤ t from hmin)

theorem weekDay_rest_iff {t : BitVec 32} (hmin : sysTimestampMin ≤ t.toNat) :
    (t - BitVec.ofNat 32 sysTimestampMin) % secDay ≠ 0 ↔ ¬ t.toNat % 86400 = 0 := by
  have hrest : ((t - BitVec.ofNat 32 sysTimestampMin) % secDay).toNat = t.toNat % 86400 := by
    rw [BitVec.toNat_umod, toNat_sub_min hmin, secDay_toNat]
    simp only [sysTimestampMin] at hmin ⊢
    omega
  rw [← hrest]
  exact not_congr BitVec.toNat_inj.symm

theorem weekDay_day {t : BitVec 32} (hmin : sysTimestampMin ≤ t.toNat) :
    ((t - BitVec.ofNat 32 sysTimestampMin) / secDay).toNat = dayOf t - sysTimestampMin / 86400 := by
  rw [BitVec.toNat_udiv, toNat_sub_min hmin, secDay_toNat, dayOf]
  simp only [sysTimestampMin] at hmin ⊢
  omega

/-- Midnight still has the bit of the day that ends. -/
theorem weekDay_eq {t : BitVec 32} (hmin : sysTimestampMin ≤ t.toNat) :
    weekDay t = if t.toNat % 86400 = 0 then dayBit (dayOf t - 1) else dayBit (dayOf t) := by
  have hday := weekDay_day hmin
  have hword := t.isLt
  have hfirst : sysTimestampMin / 86400 ≤ dayOf t := Nat.div_le_div_right hmin
  simp only [weekDay, weekDay_rest_iff hmin]
  generalize (t - BitVec.ofNat 32 sysTimestampMin) / secDay = q at hday
  by_cases hrest : t.toNat % 86400 = 0
  · have hshift : (q % 7).toNat = (dayOf t - 1 + 1 - sysTimestampMin / 86400) % 7 := by
      rw [BitVec.toNat_umod, hday]
      simp only [sysTimestampMin] at hfirst ⊢
      rw [Nat.sub_add_cancel (by omega)]
      rfl
    rw [if_pos hrest, if_neg (not_not_intro hrest), BitVec.ushiftRight_eq', hshift, dayBit]
  · have hshift : ((q + 1) % 7).toNat = (dayOf t + 1 - sysTimestampMin / 86400) % 7 := by
      have hsucc : (q + 1).toNat = dayOf t + 1 - sysTimestampMin / 86400 := by
        have hone : (1 : BitVec 32).toNat = 1 := rfl
        rw [BitVec.toNat_add, hday, hone]
        simp only [dayOf, sysTimestampMin] at hfirst ⊢
        omega
      rw [BitVec.toNat_umod, hsucc]
      rfl
    rw [if_neg hrest, if_pos hrest, BitVec.ushiftRight_eq', hshift, dayBit]

theorem weekDay_lastSecond {d : Nat} (hd : sysTimestampMin ≤ 86400 * d)
    (hlast : 86400 * d + 86399 < 0x100000000) :
    weekDay (BitVec.ofNat 32 (86400 * d + 86399)) = dayBit d := by
  have hnat : (BitVec.ofNat 32 (86400 * d + 86399)).toNat = 86400 * d + 86399 := by
    rw [BitVec.toNat_ofNat]
    exact Nat.mod_eq_of_lt hlast
  have hday : (86400 * d + 86399) / 86400 = d := by omega
  have hrest : ¬ (86400 * d + 86399) % 86400 = 0 := by omega
  rw [weekDay_eq (by rw [hnat]; omega), dayOf, hnat, if_neg hrest, hday]

def startOf (w : BitVec 32) : Nat := (scheduleReturnTimeStart w).toNat

def endOf (w : BitVec 32) : Nat := (scheduleReturnTimeEnd w).toNat

def Flagged (w : BitVec 32) (d : Nat) : Prop :=
  scheduleReturnDay w &&& (dayBit d).setWidth 32 ≠ 0

/-- From the start minute of a flagged day to the end minute of the day after. -/
def InWindow (w t : BitVec 32) : Prop :=
  (Flagged w (dayOf t) ∧ startOf w ≤ minuteOf t) ∨
    (Flagged w (dayOf t - 1) ∧ minuteOf t < endOf w)

instance (w : BitVec 32) (d : Nat) : Decidable (Flagged w d) := inferInstanceAs (Decidable (_ ≠ _))
instance (w t : BitVec 32) : Decidable (InWindow w t) := inferInstanceAs (Decidable (_ ∨ _))

end Schedule

end Recirculador
