/-
The clock chip and its conversions, `rtc.c`.

Times are counted from the smallest one accepted, which starts a leap year, so a
year divisible by four is a leap year throughout.  The encoder peels years and
months off the days left; the decoder adds them up again in 32-bit integers and
widens the sum.
-/
import Recirculador.Board
import Recirculador.Common.Peel

namespace Recirculador
namespace Rtc

@[simp] abbrev secMin : Nat := 60
@[simp] abbrev secHr : Nat := 3600
@[simp] abbrev secDay : Nat := 86400
@[simp] abbrev secWeek : Nat := 604800
@[simp] abbrev secYear : Nat := 31536000
@[simp] abbrev daysYear : Nat := 365
@[simp] abbrev daysYearB : Nat := 366

def dayToMouthVet : List Nat := [31, 28, 31, 30, 31, 30, 31, 31, 30, 31, 30, 31]

/-- Reading the table, with the bytes behind it in memory. -/
def dayToMouth (behind : Nat → BitVec 8) (i : Nat) : Nat :=
  dayToMouthVet.getD i (behind (i - 12)).toNat

structure RtcData where
  seconds : BitVec 8
  minutes : BitVec 8
  centHours : BitVec 8
  day : BitVec 8
  date : BitVec 8
  month : BitVec 8
  years : BitVec 8
  calCfg1 : BitVec 8
  tch2 : BitVec 8
  cfg2 : BitVec 8
  sfKey1 : BitVec 8
  sfKey2 : BitVec 8
  sfr : BitVec 8

/-! ## Packed decimals -/

def rtcConvertToRegAux (value : Nat) : BitVec 8 :=
  BitVec.ofNat 8 (((value / 10) <<< 4) + value % 10)

def rtcConvertToTimeAux (value : BitVec 8) : Nat :=
  10 * ((0b1110000#8 &&& value) >>> 4).toNat + (value &&& 0b1111#8).toNat

/-! ## Encoding a time -/

/-- The year loop of `_RTC_convertTimestampToTime` on `years` and `daysLeft`.  It
ends because `daysLeft` falls; the first argument bounds the passes. -/
def yearLoop : Nat → Nat × Nat → Nat × Nat
  | 0, s => s
  | fuel + 1, (years, daysLeft) =>
    if years > 3000 then (years, daysLeft)
    else if years % 4 ≠ 0 then
      if daysLeft / daysYear = 0 then (years, daysLeft)
      else yearLoop fuel ((years + 1) % 256, daysLeft - daysYear)
    else
      if daysLeft / daysYearB = 0 then (years, daysLeft)
      else yearLoop fuel ((years + 1) % 256, daysLeft - daysYearB)

def monthLoop (years : Nat) : Nat → Nat × Nat → Nat × Nat
  | 0, s => s
  | fuel + 1, (month, daysLeft) =>
    if month > 10 then (month, daysLeft)
    else if years % 4 ≠ 0 then
      if daysLeft / dayToMouthVet.getD month 0 = 0 then (month, daysLeft)
      else monthLoop years fuel (month + 1, daysLeft - dayToMouthVet.getD month 0)
    else if month = 1 then
      if daysLeft / 29 = 0 then (month, daysLeft)
      else monthLoop years fuel (month + 1, daysLeft - 29)
    else
      if daysLeft / dayToMouthVet.getD month 0 = 0 then (month, daysLeft)
      else monthLoop years fuel (month + 1, daysLeft - dayToMouthVet.getD month 0)

/-- `_RTC_convertTimestampToTime`.  The fields it does not set keep what the
stack held. -/
def rtcConvertTimestampToTime (timestamp : BitVec 64) (stack : RtcData) : RtcData :=
  let timestamp := if timestamp.toNat < sysTimestampMin then sysTimestampMin else timestamp.toNat
  let seconds := timestamp % secMin
  let minutes := timestamp % secHr / secMin
  let centHours := timestamp % secDay / secHr
  let timestamp := timestamp - sysTimestampMin
  let daysLeft := timestamp / secDay % 0x100000000
  let yearsLeft := yearLoop (daysLeft + 1) (0, daysLeft)
  let monthLeft := monthLoop yearsLeft.1 12 (0, yearsLeft.2)
  let daysLeft := monthLeft.2
  let month := monthLeft.1 + 1
  let date := (if timestamp % secDay ≠ 0 then daysLeft + 1 else daysLeft) % 256
  let date := if centHours ||| minutes ||| seconds = 0 then (date + 1) % 256 else date
  let weekDay := timestamp % secWeek
  let weekDay :=
    if weekDay % secDay ≠ 0 then weekDay / secDay + 2 else weekDay / secDay + 1
  { stack with
    seconds := rtcConvertToRegAux seconds
    minutes := rtcConvertToRegAux minutes
    centHours := rtcConvertToRegAux centHours
    day := rtcConvertToRegAux weekDay
    date := rtcConvertToRegAux date
    month := rtcConvertToRegAux month
    years := rtcConvertToRegAux yearsLeft.1 }

/-! ## Decoding a time -/

def secMonthAux (behind : Nat → BitVec 8) (year month : Nat) : Nat :=
  (List.range month).foldl (fun secMonthAux i =>
    if year % 4 ≠ 0 then secMonthAux + dayToMouth behind i * secDay
    else if i = 1 then secMonthAux + 29 * secDay
    else secMonthAux + dayToMouth behind i * secDay) 0

/-- `_RTC_convertTimeToTimestamp`.  All sums are made in `int` and wrap there; the
result is widened on return. -/
def rtcConvertTimeToTimestamp (behind : Nat → BitVec 8) (time : RtcData) : BitVec 64 :=
  let sec := rtcConvertToTimeAux time.seconds
  let min := rtcConvertToTimeAux time.minutes
  let hr := rtcConvertToTimeAux time.centHours
  let day := (rtcConvertToTimeAux time.date + 255) % 256
  let month := (rtcConvertToTimeAux time.month + 255) % 256
  let year := rtcConvertToTimeAux time.years
  let bissexto := year / 4 * secDay
  let bissexto := bissexto + if year % 4 ≠ 0 then secDay else 0
  let timestampAux := sysTimestampMin +
    (year * secYear + secMonthAux behind year month + day * secDay + hr * secHr + min * secMin +
      sec + bissexto)
  (BitVec.ofNat 32 timestampAux).signExtend 64

/-! ## The chip -/

def RtcData.bytes (d : RtcData) : List (BitVec 8) :=
  [d.seconds, d.minutes, d.centHours, d.day, d.date, d.month, d.years, d.calCfg1, d.tch2, d.cfg2]

/-- The structure after the received bytes were stored over it. -/
def RtcData.receive (bytes : List (BitVec 8)) (d : RtcData) : RtcData :=
  { d with
    seconds := bytes.getD 0 d.seconds
    minutes := bytes.getD 1 d.minutes
    centHours := bytes.getD 2 d.centHours
    day := bytes.getD 3 d.day
    date := bytes.getD 4 d.date
    month := bytes.getD 5 d.month
    years := bytes.getD 6 d.years
    calCfg1 := bytes.getD 7 d.calCfg1
    tch2 := bytes.getD 8 d.tch2
    cfg2 := bytes.getD 9 d.cfg2 }

/-- `RTC_setValue`: the register number and the ten bytes sent to the chip. -/
def rtcSetValue (timestampRef : BitVec 32) (stack : RtcData) : List (BitVec 8) :=
  let timeAux := rtcConvertTimestampToTime (timestampRef.setWidth 64) stack
  0 :: { timeAux with
    seconds := timeAux.seconds &&& 0b01111111
    minutes := timeAux.minutes &&& 0b01111111
    day := timeAux.day &&& 0b00000111
    date := timeAux.date &&& 0b00111111
    month := timeAux.month &&& 0b00011111
    calCfg1 := 0
    tch2 := 0
    cfg2 := 0 : RtcData }.bytes

/-- What `RTC_resynchronization` leaves: the time behind `_ptrTimestamp` and the
messages sent to the chip. -/
structure Resync where
  ptrTimestamp : BitVec 32
  sent : List (List (BitVec 8))

/-- `RTC_resynchronization`, given the bytes the chip answers with. -/
def rtcResynchronization (behind : Nat → BitVec 8) (stack : RtcData) (received : List (BitVec 8))
    (ptrTimestamp : BitVec 32) : Resync :=
  let timeAux := rtcConvertTimestampToTime (ptrTimestamp.setWidth 64) stack
  let timeAux := timeAux.receive received
  let timestampAux := rtcConvertTimeToTimestamp behind timeAux
  if timeAux.minutes &&& 0b10000000 ≠ 0 ∨ timestampAux.toNat < sysTimestampMin ∨
      timestampAux.toNat > 7268702400 then
    let timeAux := rtcConvertTimestampToTime (BitVec.ofNat 64 sysTimestampMin) timeAux
    { ptrTimestamp := (rtcConvertTimeToTimestamp behind timeAux).setWidth 32
      sent := [[0], rtcSetValue (BitVec.ofNat 32 sysTimestampMin) stack] }
  else
    { ptrTimestamp := timestampAux.setWidth 32, sent := [[0]] }

end Rtc
end Recirculador
