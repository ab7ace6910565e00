/-
Scaling of the readings of `adc.c`.

`rec_ref_measure` reads the channel of the 2.5 V reference and takes the quotient as the
new factor of the other channels, with which `rec_get_Temp` turns their readings into
millivolts for `convert_mV_to_celcius`, a `short`.  The smaller the reading of the
reference, the larger the factor.
-/
import Recirculador.Board
import Recirculador.Sensor.Thermistor

namespace Recirculador

open CheckedInt

/-- A channel `adc_Config` has set up. -/
structure AdcT where
  channel : BitVec 8
  measureLength : BitVec 16
  convertToMv : Int
  measures : measureLength ≠ 0

def adcConfig (channel : BitVec 8) (measureLength : BitVec 16) : AdcT where
  channel := channel
  measureLength := if measureLength ≠ 0 then measureLength else 1
  convertToMv := Int.tdiv 3300000 0xFFF
  measures := by
    split
    · assumption
    · decide

def AdcT.setConvertToMv (adc : AdcT) (convertToMv : Int) : AdcT := { adc with convertToMv }

/-- The registers `DAT` at the measures of a reading, one after the other. -/
abbrev Dat : Type := Nat → BitVec 8 → BitVec 32

@[simp] abbrev adcDatResultMask : BitVec 32 := 0xFFF0

@[simp] abbrev adcDatResultShift : Nat := 4

/-- `value` of `adc_Read` after `n` measures. -/
def adcValue (channel : BitVec 8) (dat : Dat) : Nat → BitVec 32
  | 0 => 0
  | n + 1 => adcValue channel dat n + (dat n channel &&& adcDatResultMask) >>> adcDatResultShift

def adcRead (adcOn : Bool) (adc : Option AdcT) (dat : Dat) : Int :=
  if !adcOn then -1
  else
    match adc with
    | none => -2
    | some adc =>
      (adcValue adc.channel dat adc.measureLength.toNat / adc.measureLength.setWidth 32).toInt

def adcConvertToMiliVolts (adc : AdcT) (measure : Int) : Except Fault Int := do
  let value ← div (← mul adc.convertToMv measure) 1000
  div (← mul 972 value) 1000

/-! ## Readings -/

theorem adcValue_le (channel : BitVec 8) (dat : Dat) (n : Nat) (hn : n < 65536) :
    (adcValue channel dat n).toNat ≤ 4095 * n := by
  induction n with
  | zero => exact Nat.le_refl 0
  | succ n ih =>
    have hmask : (dat n channel &&& adcDatResultMask).toNat ≤ 0xFFF0 := by
      rw [BitVec.toNat_and]
      exact Nat.and_le_right
    have hvalue := ih (by omega)
    have hshift : 2 ^ adcDatResultShift = 16 := rfl
    rw [adcValue, BitVec.toNat_add, BitVec.toNat_ushiftRight, Nat.shiftRight_eq_div_pow,
      hshift]
    omega

/-- A reading is an average of 12-bit results. -/
theorem adcRead_range (adc : AdcT) (dat : Dat) :
    0 ≤ adcRead true (some adc) dat ∧ adcRead true (some adc) dat ≤ 4095 := by
  have hlength := adc.measureLength.isLt
  have hvalue := adcValue_le adc.channel dat adc.measureLength.toNat hlength
  have hquotient : (adcValue adc.channel dat adc.measureLength.toNat /
      adc.measureLength.setWidth 32).toNat ≤ 4095 := by
    rw [BitVec.toNat_udiv, BitVec.toNat_setWidth, Nat.mod_eq_of_lt (by omega)]
    exact Nat.div_le_of_le_mul (by rwa [Nat.mul_comm] at hvalue)
  show 0 ≤ BitVec.toInt _ ∧ BitVec.toInt _ ≤ 4095
  rw [BitVec.toInt_eq_toNat_of_lt (by omega)]
  omega

/-- Each of these numbers is read from a register that does not change. -/
theorem adcRead_const (adc : AdcT) {v : Nat} (hv : v ≤ 4095) :
    adcRead true (some adc) (fun _ _ => BitVec.ofNat 32 (16 * v)) = v := by
  have hlength := adc.measureLength.isLt
  have hpos : 0 < adc.measureLength.toNat := Nat.pos_of_ne_zero fun h =>
    adc.measures (BitVec.eq_of_toNat_eq h)
  have hresult : (BitVec.ofNat 32 (16 * v) &&& adcDatResultMask) >>> adcDatResultShift =
      BitVec.ofNat 32 v := by
    have hdiv : (16 * v) >>> 4 = v := by
      rw [Nat.shiftRight_eq_div_pow]
      omega
    have hmask : v &&& (0xFFF0 >>> 4) = v % 2 ^ 12 := Nat.and_two_pow_sub_one_eq_mod v 12
    refine BitVec.eq_of_toNat_eq ?_
    rw [BitVec.toNat_ushiftRight, BitVec.toNat_and, Nat.shiftRight_and_distrib, BitVec.toNat_ofNat,
      BitVec.toNat_ofNat, Nat.mod_eq_of_lt (by omega), Nat.mod_eq_of_lt (by omega)]
    show (16 * v) >>> 4 &&& (0xFFF0 >>> 4) = v
    rw [hdiv, hmask, Nat.mod_eq_of_lt (by omega)]
  have hvalue : ∀ n, n < 65536 → (adcValue adc.channel
      (fun _ _ => BitVec.ofNat 32 (16 * v)) n).toNat = v * n := by
    intro n hn
    induction n with
    | zero => rfl
    | succ n ih =>
      have hprev := ih (by omega)
      have hle : v * n ≤ 4095 * n := Nat.mul_le_mul_right n hv
      rw [adcValue, hresult, BitVec.toNat_add, hprev, BitVec.toNat_ofNat, Nat.mul_succ,
        Nat.mod_eq_of_lt (by omega : v < 2 ^ 32), Nat.mod_eq_of_lt (by omega)]
  have hquotient : (adcValue adc.channel (fun _ _ => BitVec.ofNat 32 (16 * v))
      adc.measureLength.toNat / adc.measureLength.setWidth 32).toNat = v := by
    rw [BitVec.toNat_udiv, BitVec.toNat_setWidth, hvalue _ hlength,
      Nat.mod_eq_of_lt (by omega), Nat.mul_div_cancel v hpos]
  show BitVec.toInt _ = _
  rw [BitVec.toInt_eq_toNat_of_lt (by omega), hquotient]

/-! ## The factor -/

/-- `adc_S1`, `adc_S2`, `adc_Vref` and `adc_Current`. -/
structure Adcs where
  s1 : AdcT
  s2 : AdcT
  vref : AdcT
  current : AdcT

def setupAdcs : Adcs where
  s1 := adcConfig sysAdcTempS1 sysAdcMeasureLenght
  s2 := adcConfig sysAdcTempS2 sysAdcMeasureLenght
  vref := adcConfig sysAdcVRef sysAdcMeasureLenght
  current := adcConfig sysAdcCurrent sysAdcMeasureLenght

def recRefMeasure (adcOn : Bool) (dat : Dat) (adcs : Adcs) : Except Fault Adcs := do
  let measureAux := adcRead adcOn (some adcs.vref) dat
  let measureAux ← div 2500000 measureAux
  return { adcs with
    s1 := adcs.s1.setConvertToMv measureAux
    s2 := adcs.s2.setConvertToMv measureAux
    current := adcs.current.setConvertToMv measureAux }

theorem recRefMeasure_eq_ok_iff {adcOn : Bool} {dat : Dat} {adcs adcs' : Adcs} :
    recRefMeasure adcOn dat adcs = .ok adcs' ↔
      ∃ measureAux, div 2500000 (adcRead adcOn (some adcs.vref) dat) = .ok measureAux ∧
        adcs' = { adcs with
          s1 := adcs.s1.setConvertToMv measureAux
          s2 := adcs.s2.setConvertToMv measureAux
          current := adcs.current.setConvertToMv measureAux } := by
  rw [recRefMeasure, bind_eq_ok_iff]
  refine exists_congr fun measureAux => and_congr_right fun _ => ?_
  exact ⟨fun h => (Except.ok.inj h).symm, fun h => congrArg Except.ok h.symm⟩

/-! ## Scaling -/

/-- The reading is converted, the result is a `short`, and no smaller reading gives more. -/
def Scales (adc : AdcT) (a : Int) : Prop :=
  ∃ mv, adcConvertToMiliVolts adc a = .ok mv ∧ (-0x8000 ≤ mv ∧ mv < 0x8000) ∧
    ∀ a', 0 ≤ a' → a' ≤ a → ∃ mv', adcConvertToMiliVolts adc a' = .ok mv' ∧ mv' ≤ mv

/-- `rec_ref_measure` has a result, and each factor it sets scales the reading. -/
def Scaled (adcOn : Bool) (ref : Dat) (adcs : Adcs) (a : Int) : Prop :=
  ∃ adcs', recRefMeasure adcOn ref adcs = .ok adcs' ∧
    Scales adcs'.s1 a ∧ Scales adcs'.s2 a ∧ Scales adcs'.current a

theorem adcConvertToMiliVolts_eq {adc : AdcT} {a : Int} (hnonneg : 0 ≤ adc.convertToMv * a)
    (hfits : adc.convertToMv * a ≤ 33711999) : adcConvertToMiliVolts adc a =
      .ok (972 * (adc.convertToMv * a / 1000) / 1000) := by
  have hvalue : (adc.convertToMv * a).tdiv 1000 = adc.convertToMv * a / 1000 :=
    Int.tdiv_eq_ediv_of_nonneg hnonneg
  have hresult : (972 * (adc.convertToMv * a / 1000)).tdiv 1000 =
      972 * (adc.convertToMv * a / 1000) / 1000 := Int.tdiv_eq_ediv_of_nonneg (by omega)
  refine bind_eq_ok_iff.mpr ⟨_, mul_eq_ok (by constructor <;> omega), ?_⟩
  refine bind_eq_ok_iff.mpr ⟨_, div_eq_ok_iff.mpr ⟨by decide, ?_, hvalue⟩, ?_⟩
  · rw [hvalue]
    constructor <;> omega
  refine bind_eq_ok_iff.mpr ⟨_, mul_eq_ok (by constructor <;> omega), ?_⟩
  refine div_eq_ok_iff.mpr ⟨by decide, ?_, hresult⟩
  rw [hresult]
  constructor <;> omega

/-- What fits a `short` is far from what fits an `int`. -/
theorem scales_iff {adc : AdcT} {a : Int} (hfactor : 0 ≤ adc.convertToMv) (ha : 0 ≤ a) :
    Scales adc a ↔ adc.convertToMv * a ≤ 33711999 := by
  have hnonneg : 0 ≤ adc.convertToMv * a := Int.mul_nonneg hfactor ha
  constructor
  · rintro ⟨mv, hmv, ⟨_, hshort⟩, _⟩
    simp only [adcConvertToMiliVolts, bind_eq_ok_iff, mul_eq_ok_iff, div_eq_ok_iff] at hmv
    obtain ⟨_, ⟨_, rfl⟩, _, ⟨_, _, rfl⟩, _, ⟨_, rfl⟩, _, _, rfl⟩ := hmv
    rw [Int.tdiv_eq_ediv_of_nonneg hnonneg] at hshort
    rw [Int.tdiv_eq_ediv_of_nonneg (by omega)] at hshort
    omega
  · intro hfits
    refine ⟨_, adcConvertToMiliVolts_eq hnonneg hfits, by omega, fun a' ha' hle => ?_⟩
    have hnonneg' : 0 ≤ adc.convertToMv * a' := Int.mul_nonneg hfactor ha'
    have hproduct : adc.convertToMv * a' ≤ adc.convertToMv * a :=
      Int.mul_le_mul_of_nonneg_left hle hfactor
    exact ⟨_, adcConvertToMiliVolts_eq hnonneg' (by omega), by omega⟩

/-- The largest product is a bound on the reference, without the quotient. -/
theorem factor_mul_le_iff {v a : Int} (hv : 0 < v) (ha : 0 ≤ a) :
    2500000 / v * a ≤ 33711999 ↔ a = 0 ∨ 2500000 < v * (33711999 / a + 1) := by
  rcases Int.lt_or_eq_of_le ha with hpos | rfl
  · have hne : a ≠ 0 := by omega
    rw [← Int.le_ediv_iff_mul_le hpos, ← Int.lt_add_one_iff, Int.ediv_lt_iff_lt_mul hv,
      Int.mul_comm v]
    exact ⟨Or.inr, fun h => h.resolve_left hne⟩
  · rw [Int.mul_zero]
    exact iff_of_true (by decide) (Or.inl rfl)

/-- A reading is scaled just when the reference is not too small for it. -/
theorem scaled_iff {adcOn : Bool} {ref : Dat} {adcs : Adcs} {v a : Int}
    (href : adcRead adcOn (some adcs.vref) ref = v) (hlow : 0 ≤ v) (ha : 0 ≤ a) :
    Scaled adcOn ref adcs a ↔ v ≠ 0 ∧ (a = 0 ∨ 2500000 < v * (33711999 / a + 1)) := by
  have hfactor : (2500000 : Int).tdiv v = 2500000 / v := Int.tdiv_eq_ediv_of_nonneg (by decide)
  have hnonneg : 0 ≤ 2500000 / v := Int.ediv_nonneg (by decide) hlow
  constructor
  · rintro ⟨adcs', hok, hscales, _, _⟩
    obtain ⟨measureAux, hdiv, rfl⟩ := recRefMeasure_eq_ok_iff.mp hok
    rw [href] at hdiv
    obtain ⟨hne, _, rfl⟩ := div_eq_ok_iff.mp hdiv
    rw [hfactor, scales_iff hnonneg ha] at hscales
    exact ⟨hne, (factor_mul_le_iff (by omega) ha).mp hscales⟩
  · rintro ⟨hne, hsafe⟩
    have hfits := (factor_mul_le_iff (by omega) ha).mpr hsafe
    have hdiv : div 2500000 v = .ok (2500000 / v) :=
      div_eq_ok_iff.mpr ⟨hne, inRange_tdiv (by decide) v, hfactor⟩
    rw [← href] at hdiv
    have hscales : ∀ adc : AdcT, Scales (adc.setConvertToMv (2500000 / v)) a := fun _ =>
      (scales_iff hnonneg ha).mpr hfits
    rw [← href] at hscales
    exact ⟨_, recRefMeasure_eq_ok_iff.mpr ⟨_, hdiv, rfl⟩, hscales _, hscales _, hscales _⟩

theorem scaled_halfScale : Scaled true (fun _ _ => BitVec.ofNat 32 (16 * 2048)) setupAdcs 2000 :=
  (scaled_iff (adcRead_const setupAdcs.vref (by decide)) (by decide) (by decide)).mpr (by decide)

/-- With the reference at ground there is no factor at all. -/
theorem not_scaled_ground : ¬ ∀ (ref : Dat) (a : Int), 0 ≤ a → a ≤ 4095 →
    0 ≤ adcRead true (some setupAdcs.vref) ref → adcRead true (some setupAdcs.vref) ref ≤ 4095 →
    Scaled true ref setupAdcs a := by
  intro h
  have hzero : adcRead true (some setupAdcs.vref) (fun _ _ => 0) = 0 := by decide
  obtain ⟨adcs', hok, _⟩ := h (fun _ _ => 0) 0 (by decide) (by decide) (by decide)
    (by decide)
  obtain ⟨_, hdiv, _⟩ := recRefMeasure_eq_ok_iff.mp hok
  rw [hzero] at hdiv
  exact (div_eq_ok_iff.mp hdiv).1 rfl

/-! ## The temperatures -/

/-- The last three measures of a sensor, and the place of the last one. -/
structure RecGetTemp where
  measureAdcVet : Fin 3 → Int
  measureMvVet : Fin 3 → Int
  measureTempVet : Fin 3 → Int
  counter : Fin 3

/-- `rec_get_temp1_var` and `rec_get_temp2_var` at first. -/
def recGetTempVar : RecGetTemp :=
  { measureAdcVet := fun _ => 0, measureMvVet := fun _ => 0, measureTempVet := fun _ => 0,
    counter := 0 }

def setVet (vet : Fin 3 → Int) (i : Fin 3) (value : Int) : Fin 3 → Int :=
  fun j => if j = i then value else vet j

/-- `rec_get_Temp` for one of its sensors. -/
def recGetTempSensor (adcOn : Bool) (adc : AdcT) (temp : NtcThermistor) (dat : Dat)
    (var : RecGetTemp) : Except Fault RecGetTemp := do
  let counter := var.counter + 1
  let measureAdc := adcRead adcOn (some adc) dat
  let measureMv ← adcConvertToMiliVolts adc measureAdc
  let measureTemp ← convertMvToCelcius temp (toShort measureMv)
  return {
    measureAdcVet := setVet var.measureAdcVet counter measureAdc
    measureMvVet := setVet var.measureMvVet counter measureMv
    measureTempVet := setVet var.measureTempVet counter measureTemp
    counter }

def recGetTemp (adcOn : Bool) (adcs : Adcs) (tempS1 tempS2 : NtcThermistor) (dat1 dat2 : Dat)
    (vars : RecGetTemp × RecGetTemp) : Except Fault (RecGetTemp × RecGetTemp) := do
  let var1 ← recGetTempSensor adcOn adcs.s1 tempS1 dat1 vars.1
  let var2 ← recGetTempSensor adcOn adcs.s2 tempS2 dat2 vars.2
  return (var1, var2)

/-- The temperature that is stored is that of the voltage that is stored. -/
def RecGetTemp.Matches (var : RecGetTemp) (temp : NtcThermistor) : Prop :=
  convertMvToCelcius temp (var.measureMvVet var.counter) = .ok (var.measureTempVet var.counter)

theorem recGetTempSensor_matches {adcOn : Bool} {adc : AdcT} {temp : NtcThermistor} {dat : Dat}
    {var var' : RecGetTemp} (hscales : Scales adc (adcRead adcOn (some adc) dat))
    (hok : recGetTempSensor adcOn adc temp dat var = .ok var') : var'.Matches temp := by
  obtain ⟨mv, hmv, ⟨hlow, hhigh⟩, _⟩ := hscales
  obtain ⟨measureMv, hconvert, hrest⟩ := bind_eq_ok_iff.mp hok
  obtain ⟨measureTemp, htemp, hvar⟩ := bind_eq_ok_iff.mp hrest
  rw [hmv, Except.ok.injEq] at hconvert
  rw [← hconvert, NtcThermistor.toShort_eq hlow hhigh] at htemp
  have hvar' := Except.ok.inj hvar
  rw [← hvar', RecGetTemp.Matches]
  simp only [setVet, if_true]
  rw [← hconvert]
  exact htemp

/-- Of readings that scale nothing is lost on the way to the thermistors. -/
theorem recGetTemp_matches {adcOn : Bool} {adcs : Adcs} {tempS1 tempS2 : NtcThermistor}
    {dat1 dat2 : Dat} {vars vars' : RecGetTemp × RecGetTemp}
    (hscales1 : Scales adcs.s1 (adcRead adcOn (some adcs.s1) dat1))
    (hscales2 : Scales adcs.s2 (adcRead adcOn (some adcs.s2) dat2))
    (hok : recGetTemp adcOn adcs tempS1 tempS2 dat1 dat2 vars = .ok vars') :
    vars'.1.Matches tempS1 ∧ vars'.2.Matches tempS2 := by
  obtain ⟨var1, hvar1, hrest⟩ := bind_eq_ok_iff.mp hok
  obtain ⟨var2, hvar2, hvars⟩ := bind_eq_ok_iff.mp hrest
  have hvars' := Except.ok.inj hvars
  rw [← hvars']
  exact ⟨recGetTempSensor_matches hscales1 hvar1, recGetTempSensor_matches hscales2 hvar2⟩

end Recirculador
