/-
The current of the pump.

`rec_current_measure` takes what it measures while the pump is off as the offset of what
it measures while the pump is on.  However often the pump is switched, the references
are measured and the other registers are written, the register of the current is 0 after
a measurement with the pump off, and else the rise over the last such measurement.  The
pump register is read once, so a press of the button within a call counts as one before it
or after it.
-/
import Recirculador.Registers.Scalar
import Recirculador.Sensor.Means

namespace Recirculador

open SysRegMap Registers CheckedInt

/-- `rec_current_measure`, with `rec_current_var.offset`. -/
def recCurrentMeasure (adcOn : Bool) (dat : Dat) (adc : AdcT) (offset : Int) (r : Registers) :
    Except Fault (Int × Registers) := do
  let r := storeInt (BitVec.ofInt 32 (adcRead adcOn (some adc) dat)) currentAdc r
  let mv ← adcConvertToMiliVolts adc (regReadInt currentAdc r).toInt
  let r := storeInt (BitVec.ofInt 32 mv) currentMv r
  let scaled ← mul 1000 (regReadInt currentMv r).toInt
  let vAux ← div scaled (regReadInt currentResistor r).toInt
  if regReadBool pump r then
    let value ← sub vAux offset
    return (offset, storeInt (BitVec.ofInt 32 value) current r)
  else return (vAux, storeInt 0 current r)

/-! ## Readings -/

/-- What one call finds. -/
structure Reading where
  pumpOn : Bool
  adc : Int
  mv : Int
  resistor : Int

namespace Reading

/-- The current through the resistor, rounded towards zero. -/
def value (x : Reading) : Int := (1000 * x.mv).tdiv x.resistor

/-- The value of the last reading with the pump off. -/
def idleValue : List Reading → Int
  | [] => 0
  | x :: xs => if x.pumpOn then idleValue xs else x.value

/-- The registers after a call, with the readings before it. -/
structure Told (x : Reading) (before : List Reading) (r : Registers) : Prop where
  range : 0 ≤ x.adc ∧ x.adc ≤ 4095
  adc : (regReadInt currentAdc r).toInt = x.adc
  mv : (regReadInt currentMv r).toInt = x.mv
  current : (regReadInt current r).toInt = if x.pumpOn then x.value - idleValue before else 0

end Reading

theorem storeInt_eq {k : Nat} (hk : k < 128) (value : BitVec 32) (r : Registers) :
    storeInt value (offsetInt + k) r = r.setInt k value := by
  rw [storeInt, getIndex_int hk]

theorem regReadBool_storeInt {j k : Nat} (hj : j < 128) (hk : k < 128) (value : BitVec 32)
    (r : Registers) :
    regReadBool (offsetBool + j) (storeInt value (offsetInt + k) r) =
      regReadBool (offsetBool + j) r := by
  have hindex : getIndex (offsetBool + j) = some j := getIndex_offset .bool hj
  rw [storeInt_eq hk, regReadBool_eq hindex, regReadBool_eq hindex, setInt_boolBit hj]

theorem toInt_ofInt {x : Int} (h : InRange x) : (BitVec.ofInt 32 x).toInt = x := by
  obtain ⟨hlow, hhigh⟩ := h
  rw [BitVec.toInt_ofInt]
  exact Int.bmod_eq_of_le (by omega) (by omega)

/-- The registers after the two readings are stored. -/
def storeReading (x : Reading) (r : Registers) : Registers :=
  storeInt (BitVec.ofInt 32 x.mv) currentMv (storeInt (BitVec.ofInt 32 x.adc) currentAdc r)

theorem storeReading_adc (x : Reading) (r : Registers) :
    regReadInt currentAdc (storeReading x r) = BitVec.ofInt 32 x.adc := by
  rw [storeReading, Flow.regReadInt_storeInt (by decide) (by decide), if_neg (by decide),
    Flow.regReadInt_storeInt (by decide) (by decide), if_pos rfl]

theorem storeReading_mv (x : Reading) (r : Registers) :
    regReadInt currentMv (storeReading x r) = BitVec.ofInt 32 x.mv := by
  rw [storeReading, Flow.regReadInt_storeInt (by decide) (by decide), if_pos rfl]

theorem storeReading_resistor (x : Reading) (r : Registers) :
    regReadInt currentResistor (storeReading x r) = regReadInt currentResistor r := by
  rw [storeReading, Flow.regReadInt_storeInt (by decide) (by decide), if_neg (by decide),
    Flow.regReadInt_storeInt (by decide) (by decide), if_neg (by decide)]

theorem storeReading_pump (x : Reading) (r : Registers) :
    regReadBool pump (storeReading x r) = regReadBool pump r := by
  rw [storeReading]
  exact (regReadBool_storeInt (j := 0) (by decide) (by decide) _ _).trans
    (regReadBool_storeInt (j := 0) (by decide) (by decide) _ _)

theorem told_storeReading {x : Reading} {before : List Reading} {r : Registers}
    {value : BitVec 32} (hadc : 0 ≤ x.adc ∧ x.adc ≤ 4095)
    (hmv : -2147484 ≤ x.mv ∧ x.mv ≤ 2147484)
    (hvalue : value.toInt = if x.pumpOn then x.value - Reading.idleValue before else 0) :
    x.Told before (storeInt value current (storeReading x r)) := by
  refine ⟨hadc, ?_, ?_, ?_⟩
  · rw [Flow.regReadInt_storeInt (by decide) (by decide), if_neg (by decide), storeReading_adc]
    exact toInt_ofInt (by constructor <;> omega)
  · rw [Flow.regReadInt_storeInt (by decide) (by decide), if_neg (by decide), storeReading_mv]
    exact toInt_ofInt (by constructor <;> omega)
  · rw [Flow.regReadInt_storeInt (by decide) (by decide), if_pos rfl, hvalue]

/-- What a call that has a result finds and leaves. -/
theorem recCurrentMeasure_told {dat : Dat} {adc : AdcT} {before : List Reading} {r r' : Registers}
    {offset' : Int} {x : Reading} (hpump : x.pumpOn = regReadBool pump r)
    (hadc : x.adc = adcRead true (some adc) dat)
    (hmv : adcConvertToMiliVolts adc x.adc = .ok x.mv)
    (hresistor : x.resistor = (regReadInt currentResistor r).toInt)
    (hok : recCurrentMeasure true dat adc (Reading.idleValue before) r = .ok (offset', r')) :
    offset' = Reading.idleValue (x :: before) ∧ x.Told before r' := by
  have hrange := adcRead_range adc dat
  rw [← hadc] at hrange
  have hmvRange := adcConvertToMiliVolts_range hmv
  have hadcInt : (BitVec.ofInt 32 x.adc).toInt = x.adc := toInt_ofInt (by constructor <;> omega)
  have hmvInt : (BitVec.ofInt 32 x.mv).toInt = x.mv := toInt_ofInt (by constructor <;> omega)
  have hstored : (regReadInt currentAdc (storeInt (BitVec.ofInt 32 x.adc) currentAdc r)).toInt =
      x.adc := by
    rw [Flow.regReadInt_storeInt (by decide) (by decide), if_pos rfl, hadcInt]
  obtain ⟨mv, hconvert, hscale⟩ := bind_eq_ok_iff.mp hok
  rw [← hadc, hstored, hmv] at hconvert
  obtain rfl := Except.ok.inj hconvert
  rw [← hadc] at hscale
  obtain ⟨scaled, hscaled, hdivide⟩ := bind_eq_ok_iff.mp hscale
  obtain ⟨vAux, hdiv, hend⟩ := bind_eq_ok_iff.mp hdivide
  change mul 1000 (regReadInt currentMv (storeReading x r)).toInt = .ok scaled at hscaled
  change div scaled (regReadInt currentResistor (storeReading x r)).toInt = .ok vAux at hdiv
  change (if regReadBool pump (storeReading x r) then _ else _) = _ at hend
  have hvalue : x.value = vAux := by
    rw [storeReading_mv, hmvInt] at hscaled
    rw [storeReading_resistor, ← hresistor, ← (mul_eq_ok_iff.mp hscaled).2] at hdiv
    exact (div_eq_ok_iff.mp hdiv).2.2
  rw [storeReading_pump, ← hpump] at hend
  cases hon : x.pumpOn with
  | true =>
    rw [hon, if_pos rfl] at hend
    obtain ⟨value, hsub, hresult⟩ := bind_eq_ok_iff.mp hend
    obtain ⟨hfits, hdifference⟩ := sub_eq_ok_iff.mp hsub
    obtain ⟨rfl, rfl⟩ := Prod.mk.inj (Except.ok.inj hresult)
    refine ⟨by rw [Reading.idleValue, hon, if_pos rfl], told_storeReading hrange hmvRange ?_⟩
    rw [toInt_ofInt (hdifference ▸ hfits), hon, if_pos rfl, hvalue, hdifference]
  | false =>
    rw [hon, if_neg Bool.false_ne_true] at hend
    obtain ⟨rfl, rfl⟩ := Prod.mk.inj (Except.ok.inj hend)
    refine ⟨?_, told_storeReading hrange hmvRange ?_⟩
    · rw [Reading.idleValue, hon, if_neg Bool.false_ne_true, hvalue]
    · rw [hon, if_neg Bool.false_ne_true]
      rfl

/-! ## Runs -/

structure Meter where
  adcs : Adcs
  offset : Int
  registers : Registers
  /-- What the calls have found, the latest first. -/
  readings : List Reading

inductive MeterAction
  | refMeasure (dat : Dat)
  | currentMeasure (dat : Dat)
  /-- Anything else writes registers, that of the pump among them. -/
  | world (r : Registers)

namespace Meter

/-- What a call finds. -/
def reading (dat : Dat) (s : Meter) : Except Fault Reading := do
  let adc := adcRead true (some s.adcs.current) dat
  let mv ← adcConvertToMiliVolts s.adcs.current adc
  return {
    pumpOn := regReadBool pump s.registers
    adc
    mv
    resistor := (regReadInt currentResistor s.registers).toInt }

def step (s : Meter) : MeterAction → Except Fault Meter
  | .refMeasure dat => do
    let adcs ← recRefMeasure true dat s.adcs
    return { s with adcs }
  | .currentMeasure dat => do
    let reading ← s.reading dat
    let result ← recCurrentMeasure true dat s.adcs.current s.offset s.registers
    return { s with
      offset := result.1
      registers := result.2
      readings := reading :: s.readings }
  | .world r => return { s with registers := r }

def start (r : Registers) : Meter :=
  { adcs := setupAdcs, offset := 0, registers := r, readings := [] }

/-- The offset is the value of the last reading with the pump off. -/
def Tared (s : Meter) : Prop := s.offset = Reading.idleValue s.readings

theorem currentMeasure_told {s s' : Meter} {dat : Dat} (h : s.Tared)
    (hstep : s.step (.currentMeasure dat) = .ok s') :
    s'.Tared ∧ ∃ x, s.reading dat = .ok x ∧ s'.readings = x :: s.readings ∧
      x.Told s.readings s'.registers := by
  obtain ⟨x, hreading, hrest⟩ := bind_eq_ok_iff.mp hstep
  obtain ⟨result, hresult, hnext⟩ := bind_eq_ok_iff.mp hrest
  obtain ⟨mv, hmv, hx⟩ := bind_eq_ok_iff.mp hreading
  obtain rfl := Except.ok.inj hnext
  have hfound := Except.ok.inj hx
  rw [h] at hresult
  obtain ⟨hoffset, htold⟩ := recCurrentMeasure_told (x := x) (by rw [← hfound]) (by rw [← hfound])
    (by rw [← hfound]; exact hmv) (by rw [← hfound]) hresult
  exact ⟨hoffset, x, hreading, rfl, htold⟩

theorem Tared.step {s s' : Meter} {a : MeterAction} (h : s.Tared) (hstep : s.step a = .ok s') :
    s'.Tared := by
  cases a with
  | refMeasure dat =>
    obtain ⟨adcs, -, hs'⟩ := bind_eq_ok_iff.mp hstep
    exact Except.ok.inj hs' ▸ h
  | currentMeasure dat => exact (currentMeasure_told h hstep).1
  | world r => exact Except.ok.inj hstep ▸ h

theorem start_tared (r : Registers) : (start r).Tared := rfl

/-- Whatever is switched, measured and written before: after a call of `rec_current_measure`
the register of the current is 0 if the pump register was off, and else what the reading has
risen since the last one with the pump off. -/
theorem run_tared {r : Registers} {as : List MeterAction} {s s' : Meter} {dat : Dat}
    (hrun : as.foldlM step (start r) = .ok s) (hstep : s.step (.currentMeasure dat) = .ok s') :
    ∃ x, s.reading dat = .ok x ∧ s'.readings = x :: s.readings ∧
      x.Told s.readings s'.registers :=
  (currentMeasure_told (Run.foldlM_invariant Tared (fun _ _ _ h hnext => h.step hnext)
    (start_tared r) hrun) hstep).2

/-- A resistor of 34 and nothing else. -/
def resistorOnly : Registers := { regVet := fun a => if a = 412 then 34 else 0, changeFlag := 0 }

/-- A reading with the pump off, and the pump is switched on. -/
def switchedOn : List MeterAction :=
  [.currentMeasure fun _ _ => 0x1000, .world (regWriteBool true pump resistorOnly)]

/-- The next reading, of 17647, is counted from that. -/
theorem run_tared_switchedOn : ∃ s s', switchedOn.foldlM step (start resistorOnly) = .ok s ∧
    s.step (.currentMeasure fun _ _ => 0x3000) = .ok s' ∧
    (Reading.idleValue s.readings = 5882 ∧ (regReadInt current s'.registers).toInt = 11765) ∧
    ∃ x, s.reading (fun _ _ => 0x3000) = .ok x ∧ s'.readings = x :: s.readings ∧
      x.Told s.readings s'.registers := by
  refine ⟨_, _, rfl, rfl, ?_,
    run_tared (show switchedOn.foldlM step (start resistorOnly) = .ok _ from rfl) rfl⟩
  decide +kernel

end Meter

end Recirculador
