/-
How accurate a temperature is.

From the voltage to the temperature every quotient is truncated, and the voltage itself is in
whole millivolts.  The temperature falls with the voltage, so that for the resistances of one
degree of the table the two voltages at its ends decide: between 0 and 100 degrees no reading is
more than half a degree out of its degree.  The registers are means of three readings.
-/
import Mathlib.Tactic.Linarith
import Recirculador.Sensor.Means

namespace Recirculador

open SysRegMap CheckedInt

namespace NtcThermistor

/-! ## The divider -/

/-- The voltage of a divider is `dividend / divisor`. -/
def dividend (t : NtcThermistor) (resistance : Int) : Int :=
  t.voltageRef * (t.parallelResistance * resistance)

def divisor (t : NtcThermistor) (resistance : Int) : Int :=
  t.refResistance * (t.parallelResistance + resistance) + t.parallelResistance * resistance

/-- The voltage with a thermistor of that resistance is no more than 1 mV from `m`. -/
def Reads (t : NtcThermistor) (resistance m : Int) : Prop :=
  (m - 1) * t.divisor resistance ≤ t.dividend resistance ∧
    t.dividend resistance ≤ (m + 1) * t.divisor resistance

variable {m resistance resistance' c c' : Int}

theorem dividend_setup (resistance : Int) :
    setupThermistor.dividend resistance = 25000000 * resistance := by
  show 2500 * (10000 * resistance) = _
  omega

theorem divisor_setup (resistance : Int) :
    setupThermistor.divisor resistance = 33000000 + 13300 * resistance := by
  show 3300 * (10000 + resistance) + 10000 * resistance = _
  omega

/-- The voltage rises with the resistance. -/
theorem Reads.le (h : setupThermistor.Reads resistance m) (hpos : 0 ≤ resistance)
    (hle : resistance ≤ resistance') :
    m ≤ setupThermistor.dividend resistance' / setupThermistor.divisor resistance' + 1 := by
  have hbelow := h.1
  rw [dividend_setup, divisor_setup] at *
  have hquotient : m - 1 ≤ 25000000 * resistance' / (33000000 + 13300 * resistance') := by
    rw [Int.le_ediv_iff_mul_le (by omega)]
    by_cases hm : m - 1 ≤ 0
    · have hnonpos : (m - 1) * (33000000 + 13300 * resistance') ≤ 0 :=
        Int.mul_nonpos_of_nonpos_of_nonneg hm (by omega)
      omega
    · -- What the resistance is multiplied by is not negative.
      have hrate : 0 ≤ 25000000 - 13300 * (m - 1) := by
        by_contra hneg
        have hproduct : resistance * (25000000 - 13300 * (m - 1)) ≤ 0 :=
          Int.mul_nonpos_of_nonneg_of_nonpos hpos (by omega)
        nlinarith
      have hproduct := mul_le_mul_of_nonneg_right hle hrate
      nlinarith
  omega

theorem Reads.ge (h : setupThermistor.Reads resistance' m) (hpos : 0 ≤ resistance)
    (hle : resistance ≤ resistance') :
    setupThermistor.dividend resistance / setupThermistor.divisor resistance - 1 ≤ m := by
  have habove := h.2
  rw [dividend_setup, divisor_setup] at *
  have hm : 0 ≤ m + 1 := by
    by_contra hneg
    have hnegative : (m + 1) * (33000000 + 13300 * resistance') < 0 :=
      Int.mul_neg_of_neg_of_pos (by omega) (by omega)
    omega
  have hquotient : 25000000 * resistance / (33000000 + 13300 * resistance) ≤ m + 1 := by
    refine Int.ediv_le_of_le_mul (by omega) ?_
    by_cases hrate : 25000000 - 13300 * (m + 1) ≤ 0
    · have hproduct : resistance * (25000000 - 13300 * (m + 1)) ≤ 0 :=
        Int.mul_nonpos_of_nonneg_of_nonpos hpos hrate
      nlinarith
    · have hproduct := mul_le_mul_of_nonneg_right hle (Int.le_of_lt (Int.not_le.mp hrate))
      nlinarith
  omega

/-! ## One degree -/

/-- The resistance the quotients lead to. -/
def resistanceAt (m : Int) : Int :=
  let current := (1000 * (2500 - m)).tdiv 3300
  let ratio := (1000 * m).tdiv current
  (ratio * 10000).tdiv (10000 - ratio)

theorem Divides.resistance_at {current ratio : Int}
    (h : setupThermistor.Divides m current ratio resistance) : resistance = resistanceAt m := by
  rw [resistanceAt, h.resistance_eq, h.ratio_eq, h.current_eq]

/-- Up to the voltage of an open circuit there is a temperature, that of the resistance found. -/
theorem convert_resistanceAt (hlow : 0 ≤ m) (hhigh : m ≤ 1879) :
    convertMvToCelcius setupThermistor m =
      .ok (-5500 + Interpolation.place setupThermistor.ntc 180 (resistanceAt m)) := by
  obtain ⟨current, ratio, resistance, h⟩ := exists_divides hlow (by omega) (Or.inl (by omega))
  obtain ⟨hnonneg, -⟩ := h.resistance_le h hlow (Int.le_refl m) hhigh
  refine convertMvToCelcius_eq_ok_iff.mpr ⟨current, ratio, resistance, h, ?_⟩
  rw [findTemp_setup, if_neg (Int.not_lt.mpr hnonneg), h.resistance_at]

theorem resistanceAt_mono {m' : Int} (hlow : 0 ≤ m) (hle : m ≤ m') (hhigh : m' ≤ 1879) :
    resistanceAt m ≤ resistanceAt m' := by
  obtain ⟨_, _, _, h⟩ := exists_divides hlow (by omega) (Or.inl (by omega))
  obtain ⟨_, _, _, h'⟩ := exists_divides (Int.le_trans hlow hle) (by omega) (Or.inl (by omega))
  rw [← h.resistance_at, ← h'.resistance_at]
  exact (h.resistance_le h' hlow hle hhigh).2

/-- The voltages that can be read in the degree from entry `i` of the table to the next. -/
def lowest (i : Nat) : Int :=
  setupThermistor.dividend (setupThermistor.ntc (i + 1)) /
    setupThermistor.divisor (setupThermistor.ntc (i + 1)) - 1

def highest (i : Nat) : Int :=
  setupThermistor.dividend (setupThermistor.ntc i) /
    setupThermistor.divisor (setupThermistor.ntc i) + 1

/-- The resistances found at the ends of the degree after entry `i + 1` are less than half a
degree out of it. -/
structure EndsNear (i : Nat) : Prop where
  low : 0 < lowest (i + 1)
  high : highest (i + 1) ≤ 1879
  warm : setupThermistor.ntc (i + 2) + setupThermistor.ntc (i + 3) ≤ 2 * resistanceAt (lowest (i + 1))
  cold : 2 * resistanceAt (highest (i + 1)) ≤ setupThermistor.ntc i + setupThermistor.ntc (i + 1)

instance (i : Nat) : Decidable (EndsNear i) :=
  decidable_of_iff
    (0 < lowest (i + 1) ∧ highest (i + 1) ≤ 1879 ∧
      setupThermistor.ntc (i + 2) + setupThermistor.ntc (i + 3) ≤ 2 * resistanceAt (lowest (i + 1)) ∧
      2 * resistanceAt (highest (i + 1)) ≤ setupThermistor.ntc i + setupThermistor.ntc (i + 1))
    ⟨fun ⟨low, high, warm, cold⟩ => ⟨low, high, warm, cold⟩,
      fun h => ⟨h.low, h.high, h.warm, h.cold⟩⟩

/-- From 0 to 100 degrees, which is entry 55 to entry 155. -/
theorem ends_near : ∀ k ∈ List.range 100, EndsNear (54 + k) := by
  decide +kernel

/-- Entry `i` of the table is at `i - 55` degrees. -/
def InDegree (i : Nat) (resistance : Int) : Prop :=
  setupThermistor.ntc (i + 1) ≤ resistance ∧ resistance ≤ setupThermistor.ntc i

theorem ntc_nonneg (i : Nat) : 0 ≤ setupThermistor.ntc i := by
  have hall : ∀ x ∈ ntc10k3380Vet, 0 ≤ x := by decide +kernel
  show 0 ≤ ntc10k3380Vet.getD i 0
  rw [List.getD_eq_getElem?_getD]
  cases h : ntc10k3380Vet[i]? with
  | none => exact Int.le_refl 0
  | some x => exact hall x (List.mem_of_getElem? h)

/-- The temperature of a voltage that is read in a degree between 0 and 100 is no more than
half a degree out of it. -/
theorem convert_near {i : Nat} (hlow : 55 ≤ i) (hhigh : i < 155) (hin : InDegree i resistance)
    (hread : setupThermistor.Reads resistance m) :
    (0 < m ∧ m ≤ 1879) ∧ ∃ c, convertMvToCelcius setupThermistor m = .ok c ∧
      100 * ((i : Int) - 55) - 50 ≤ c ∧ c ≤ 100 * ((i : Int) - 54) + 50 := by
  obtain ⟨k, rfl⟩ : ∃ k, i = 54 + k + 1 := ⟨i - 55, by omega⟩
  have hends := ends_near k (List.mem_range.mpr (by omega))
  have hfalls := setupThermistor_tabulated.falls
  have hlowest : lowest (54 + k + 1) ≤ m :=
    hread.ge (ntc_nonneg _) hin.1
  have hhighest : m ≤ highest (54 + k + 1) :=
    hread.le (Int.le_trans (ntc_nonneg _) hin.1) hin.2
  have hpos := Int.lt_of_lt_of_le hends.low hlowest
  have hm := Int.le_trans hhighest hends.high
  have hm0 := Int.le_of_lt hpos
  refine ⟨⟨hpos, hm⟩, _, convert_resistanceAt hm0 hm, ?_, ?_⟩
  · have hcold := resistanceAt_mono hm0 hhighest hends.high
    have hbound := hends.cold
    have hplace := Interpolation.half_le_place hfalls (i := 54 + k) (r := resistanceAt m) (by omega)
      (by omega)
    omega
  · have hwarm := resistanceAt_mono (Int.le_of_lt hends.low) hlowest hm
    have hbound : setupThermistor.ntc (54 + k + 2) + setupThermistor.ntc (54 + k + 2 + 1) ≤ _ :=
      hends.warm
    have hplace := Interpolation.place_le_half hfalls (i := 54 + k + 2) (r := resistanceAt m)
      (by omega) (by omega)
    omega

end NtcThermistor

open NtcThermistor

namespace Sensors

/-! ## The registers -/

/-- If the last three voltages of a sensor were read with thermistors in one degree between 0
and 100, its register is no more than half a degree out of it. -/
def Near (tempAddr : Nat) (samples : List Sample) (r : Registers) : Prop :=
  ∀ i, 55 ≤ i → i < 155 →
    (∀ x ∈ samples.take 3, ∃ resistance, InDegree i resistance ∧
      setupThermistor.Reads resistance x.mv) →
    100 * ((i : Int) - 55) - 50 ≤ (regReadInt tempAddr r).toInt ∧
      (regReadInt tempAddr r).toInt ≤ 100 * ((i : Int) - 54) + 50

theorem told_near {adcAddr mvAddr tempAddr : Nat} {var : RecGetTemp} {samples : List Sample}
    {r : Registers} (hheld : var.Held samples) (hsound : ∀ x ∈ samples, x.Sound)
    (htold : SensorTold adcAddr mvAddr tempAddr samples r) : Near tempAddr samples r := by
  intro i hlow hhigh hread
  have hlast : ∀ x ∈ samples.take 3,
      100 * ((i : Int) - 55) - 50 ≤ x.temp ∧ x.temp ≤ 100 * ((i : Int) - 54) + 50 := by
    intro x hx
    obtain ⟨resistance, hin, hreads⟩ := hread x hx
    obtain ⟨⟨hm0, hm⟩, c, hconvert, hnear⟩ := convert_near hlow hhigh hin hreads
    have htemp := (hsound x (List.mem_of_mem_take hx)).converted (by omega)
    rw [toShort_eq (by omega) (by omega), hconvert] at htemp
    exact Except.ok.inj htemp ▸ hnear
  rw [htold.temp]
  exact Sample.mean_range hheld.temp hlast

/-- Once a call of `rec_measure` is over, both temperature registers are near the temperatures
the last three voltages were read at. -/
theorem run_near {r : Registers} {as : List SensorAction} {s : Sensors}
    {t : List Sample × List Sample} (hrun : as.foldlM step (start r) = .ok s)
    (hidle : s.flow.next = .idle) (ht : s.taken = some t) :
    Near s1Temp t.1 s.flow.registers ∧ Near s2Temp t.2 s.flow.registers := by
  have hkept := run_kept hrun
  obtain ⟨htold1, htold2⟩ := hkept.told hidle ht
  obtain ⟨-, ⟨hheld1, hheld2⟩, hsound1, hsound2⟩ := hkept.call t ht
  exact ⟨told_near hheld1 hsound1 htold1, told_near hheld2 hsound2 htold2⟩

/-- Three samples at 25 degrees, and a call that finds them. -/
def roomCalls : List SensorAction :=
  List.replicate 3 (sampling 1926 1926) ++ measureCall

theorem run_near_room : ∃ s, roomCalls.foldlM step (start ⟨fun _ => 0, 0⟩) = .ok s ∧
    2450 ≤ (regReadInt s1Temp s.flow.registers).toInt ∧
      (regReadInt s1Temp s.flow.registers).toInt ≤ 2650 := by
  refine ⟨_, rfl, ?_⟩
  have h := run_near (show roomCalls.foldlM step (start ⟨fun _ => 0, 0⟩) = .ok _ from rfl) rfl rfl
  refine h.1 80 (by decide) (by decide) fun x hx => ⟨10000, ⟨by decide, by decide⟩, ?_⟩
  have hmv : x.mv ∈ [1506, 1506, 1506] := List.mem_map_of_mem hx
  have hvalue : x.mv = 1506 := by simpa using hmv
  rw [hvalue]
  exact ⟨by decide, by decide⟩

end Sensors

end Recirculador
