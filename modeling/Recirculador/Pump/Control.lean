/-
The pump: its button, its control task and the law tying its register to its pin.

`rec_pump_control` has five ways to end.  `recPumpControl_eq` reads them off once
and the agreement of register and pin is decided from it: every exit that
switches the pump sets both, and the one exit that does not is where the branch
meant to bring them together should have run.
-/
import Recirculador.Gpio
import Recirculador.Scheduling

namespace Recirculador

open SysRegMap Registers

structure IsrBotoeira where
  lastTimeClick : BitVec 64
  pumpOn : Bool
  debouceTime : BitVec 32

def isrBotoeiraVar : IsrBotoeira :=
  { lastTimeClick := 0, pumpOn := false,
    debouceTime := 20 * BitVec.ofNat 32 sysTicksButtonDebounce }

/-- What the pump code reads and writes. -/
structure Plant where
  regs : Registers
  gpio : Gpio
  botoeira : IsrBotoeira

def pumpOn (p : Plant) : Plant :=
  { p with regs := regWriteBool true pump p.regs, gpio := gpioClearPin sysPinPump p.gpio }

def pumpOff (p : Plant) : Plant :=
  { p with regs := regWriteBool false pump p.regs, gpio := gpioSetPin sysPinPump p.gpio }

def Plant.forgetClick (p : Plant) : Plant :=
  { p with botoeira := { p.botoeira with pumpOn := false } }

/-- `rec_isr_Botoeira`, with the time of the interrupt. -/
def recIsrBotoeira (now : BitVec 64) (p : Plant) : Plant :=
  if p.botoeira.lastTimeClick + p.botoeira.debouceTime.setWidth 64 > now then p
  else if gpioReadPin sysPinBotoeira p.gpio then p
  else
    let p := { p with
      botoeira := { p.botoeira with lastTimeClick := now, pumpOn := !p.botoeira.pumpOn } }
    if p.botoeira.pumpOn then pumpOn p else pumpOff p

/-- Sensor 1 is the reference when the selector register is 0. -/
def sensorReg (addr1 addr2 : Nat) (r : Registers) : BitVec 32 :=
  if regReadInt tempRefRecirculation r = 0 then regReadInt addr1 r else regReadInt addr2 r

/-- The part of `rec_pump_control` that ends a recirculation the button asked for. -/
def clickTimeout (now : BitVec 64) (p : Plant) : Plant :=
  if p.botoeira.pumpOn then
    let dtBotoeira := now - p.botoeira.lastTimeClick
    -- The signed register is widened to the unsigned difference.
    if dtBotoeira > (regReadInt timeRecirculation p.regs).signExtend 64 then
      (pumpOff p).forgetClick
    else p
  else p

/-- The part of `rec_pump_control` that follows the schedule. -/
def scheduleControl (tempMeasure tempRefInf tempRefSup : BitVec 32) (p : Plant) : Plant :=
  if schedulingTest (regReadInt timestamp p.regs) p.regs then
    if tempMeasure.slt tempRefInf then pumpOn p
    else if tempRefSup.slt tempMeasure then pumpOff p
    else p
  else p

/-- `rec_pump_control`.  Sums wrap, as they do in the compiled code. -/
def recPumpControl (now : BitVec 64) (p : Plant) : Plant :=
  if regReadInt errors p.regs ≠ 0 then pumpOff p
  else
    let p := if regReadBool pump p.regs && gpioReadPin sysPinPump p.gpio then pumpOn p else p
    let tempMeasure := sensorReg s1Temp s2Temp p.regs
    let tempRefSup := sensorReg s1TempRef s2TempRef p.regs
    let tempRefInf := tempRefSup
    let tempRefSup := tempRefSup + sensorReg s1TempHysteresis s2TempHysteresis p.regs
    if tempRefSup.slt tempMeasure then
      let p := pumpOff p
      if p.botoeira.pumpOn then p.forgetClick else p
    else
      let p := clickTimeout now p
      let tempRefInf := tempRefInf - sensorReg s1TempHysteresis s2TempHysteresis p.regs
      scheduleControl tempMeasure tempRefInf tempRefSup p

/-! ## The branches -/

namespace Plant

def InError (p : Plant) : Prop := regReadInt errors p.regs ≠ 0

def OverTemp (p : Plant) : Prop :=
  (sensorReg s1TempRef s2TempRef p.regs +
    sensorReg s1TempHysteresis s2TempHysteresis p.regs).slt (sensorReg s1Temp s2Temp p.regs) = true

def Cold (p : Plant) : Prop :=
  (sensorReg s1Temp s2Temp p.regs).slt (sensorReg s1TempRef s2TempRef p.regs -
    sensorReg s1TempHysteresis s2TempHysteresis p.regs) = true

def Scheduled (p : Plant) : Prop := schedulingTest (regReadInt timestamp p.regs) p.regs = true

/-- The button asked for the pump longer ago than the recirculation time. -/
def TimedOut (now : BitVec 64) (p : Plant) : Prop :=
  p.botoeira.pumpOn = true ∧
    now - p.botoeira.lastTimeClick > (regReadInt timeRecirculation p.regs).signExtend 64

instance (p : Plant) : Decidable p.InError := inferInstanceAs (Decidable (_ ≠ _))
instance (p : Plant) : Decidable p.OverTemp := inferInstanceAs (Decidable (_ = _))
instance (p : Plant) : Decidable p.Cold := inferInstanceAs (Decidable (_ = _))
instance (p : Plant) : Decidable p.Scheduled := inferInstanceAs (Decidable (_ = _))
instance (now : BitVec 64) (p : Plant) : Decidable (p.TimedOut now) :=
  inferInstanceAs (Decidable (_ ∧ _))

/-- The interrupt passes its tests and switches the pump. -/
def Fires (now : BitVec 64) (p : Plant) : Prop :=
  ¬ p.botoeira.lastTimeClick + p.botoeira.debouceTime.setWidth 64 > now ∧
    ¬ gpioReadPin sysPinBotoeira p.gpio = true

instance (now : BitVec 64) (p : Plant) : Decidable (p.Fires now) :=
  inferInstanceAs (Decidable (_ ∧ _))

def clicked (now : BitVec 64) (p : Plant) : Plant :=
  { p with botoeira := { p.botoeira with lastTimeClick := now, pumpOn := !p.botoeira.pumpOn } }

theorem recIsrBotoeira_eq (now : BitVec 64) (p : Plant) : recIsrBotoeira now p =
    if p.Fires now then
      if p.botoeira.pumpOn then pumpOff (p.clicked now) else pumpOn (p.clicked now)
    else p := by
  unfold recIsrBotoeira
  by_cases hdebounce : p.botoeira.lastTimeClick + p.botoeira.debouceTime.setWidth 64 > now
  · rw [if_pos hdebounce, if_neg fun h => h.1 hdebounce]
  by_cases hreleased : gpioReadPin sysPinBotoeira p.gpio = true
  · rw [if_neg hdebounce, if_pos hreleased, if_neg fun h => h.2 hreleased]
  have hfires : p.Fires now := ⟨hdebounce, hreleased⟩
  rw [if_neg hdebounce, if_neg hreleased, if_pos hfires]
  cases hflag : p.botoeira.pumpOn <;> simp [clicked, hflag]

def Agrees (p : Plant) : Prop :=
  regReadBool pump p.regs = true ↔ p.gpio.DrivenLow sysPinPump

/-- The pump is off, in its register and at its pin. -/
def PumpIsOff (p : Plant) : Prop :=
  regReadBool pump p.regs = false ∧ ¬ p.gpio.DrivenLow sysPinPump

/-! ## Switching the pump -/

theorem getIndex_pump : getIndex pump = some 0 := getIndex_bool (k := 0) (by decide)

theorem regReadBool_pump (value : Bool) (r : Registers) :
    regReadBool pump (regWriteBool value pump r) = value := by
  rw [regReadBool_eq getIndex_pump, regWriteBool_boolBit getIndex_pump, if_pos rfl]

/-- `PUMP_OFF` and `PUMP_ON` leave the int registers, and so everything the
control decides by. -/
theorem regReadInt_pumpOff (addr : Nat) (p : Plant) :
    regReadInt addr (pumpOff p).regs = regReadInt addr p.regs :=
  regReadInt_regWriteBool getIndex_pump (by decide) false addr p.regs

theorem regReadInt_pumpOn (addr : Nat) (p : Plant) :
    regReadInt addr (pumpOn p).regs = regReadInt addr p.regs :=
  regReadInt_regWriteBool getIndex_pump (by decide) true addr p.regs

theorem scheduled_congr {p p' : Plant}
    (h : ∀ addr, regReadInt addr p'.regs = regReadInt addr p.regs) :
    p'.Scheduled ↔ p.Scheduled := by
  simp only [Scheduled, h, schedulingTest_congr h]

theorem clickTimeout_eq (now : BitVec 64) (p : Plant) :
    clickTimeout now p = if p.TimedOut now then (pumpOff p).forgetClick else p := by
  by_cases hon : p.botoeira.pumpOn = true
  · by_cases hdt : now - p.botoeira.lastTimeClick >
        (regReadInt timeRecirculation p.regs).signExtend 64
    · rw [if_pos (show p.TimedOut now from ⟨hon, hdt⟩)]
      exact (if_pos hon).trans (if_pos hdt)
    · rw [if_neg fun h : p.TimedOut now => hdt h.2]
      exact (if_pos hon).trans (if_neg hdt)
  · rw [if_neg fun h : p.TimedOut now => hon h.1]
    exact if_neg hon

theorem regReadInt_clickTimeout (addr : Nat) (now : BitVec 64) (p : Plant) :
    regReadInt addr (clickTimeout now p).regs = regReadInt addr p.regs := by
  rw [clickTimeout_eq]
  split
  · exact regReadInt_pumpOff addr p
  · rfl

theorem forgetClick_eq {p : Plant} (h : ¬ p.botoeira.pumpOn = true) : p.forgetClick = p := by
  have hfalse : p.botoeira.pumpOn = false := by simpa using h
  rw [forgetClick, ← hfalse]

/-- With the pump pin an output, the ways `rec_pump_control` ends. -/
theorem recPumpControl_eq {p : Plant} (hout : p.gpio.IsOutput sysPinPump) (now : BitVec 64) :
    recPumpControl now p =
      if p.InError then pumpOff p
      else if p.OverTemp then (pumpOff p).forgetClick
      else
        let p' := if p.TimedOut now then (pumpOff p).forgetClick else p
        if p.Scheduled ∧ p.Cold then pumpOn p' else p' := by
  have hsync : (regReadBool pump p.regs && gpioReadPin sysPinPump p.gpio) = false := by
    rw [hout.read (by decide), Bool.and_false]
  by_cases herr : p.InError
  · exact (if_pos herr).trans (if_pos herr).symm
  refine (if_neg herr).trans (Eq.trans ?_ (if_neg herr).symm)
  simp only [hsync, Bool.false_eq_true, if_false]
  by_cases hover : p.OverTemp
  · refine (if_pos hover).trans (Eq.trans ?_ (if_pos hover).symm)
    split
    · rfl
    · rename_i hon
      exact (forgetClick_eq hon).symm
  · refine (if_neg hover).trans (Eq.trans ?_ (if_neg hover).symm)
    have hread := fun addr => regReadInt_clickTimeout addr now p
    have hsched := scheduled_congr hread
    have hhyst : sensorReg s1TempHysteresis s2TempHysteresis (clickTimeout now p).regs =
        sensorReg s1TempHysteresis s2TempHysteresis p.regs := by
      simp only [sensorReg, hread]
    rw [hhyst, ← clickTimeout_eq]
    by_cases hs : p.Scheduled
    · refine (if_pos (hsched.mpr hs)).trans ?_
      by_cases hc : p.Cold
      · exact (if_pos hc).trans (if_pos ⟨hs, hc⟩).symm
      · exact ((if_neg hc).trans (if_neg hover)).trans
          (if_neg fun h : p.Scheduled ∧ p.Cold => hc h.2).symm
    · exact (if_neg fun h => hs (hsched.mp h)).trans
        (if_neg fun h : p.Scheduled ∧ p.Cold => hs h.1).symm

/-! ## The register and the pin -/

theorem pumpOff_isOutput {p : Plant} (h : p.gpio.IsOutput sysPinPump) :
    (pumpOff p).gpio.IsOutput sysPinPump :=
  Gpio.isOutput_gpioSetPin h _

theorem pumpOn_isOutput {p : Plant} (h : p.gpio.IsOutput sysPinPump) :
    (pumpOn p).gpio.IsOutput sysPinPump :=
  Gpio.isOutput_gpioClearPin h _

theorem pumpOff_isOff {p : Plant} (h : p.gpio.IsOutput sysPinPump) : (pumpOff p).PumpIsOff := by
  refine ⟨regReadBool_pump false p.regs, fun hlow => ?_⟩
  have hlevel := hlow.2
  simp [pumpOff, h.set (by decide)] at hlevel

theorem PumpIsOff.agrees {p : Plant} (h : p.PumpIsOff) : p.Agrees :=
  iff_of_false (by simp [h.1]) h.2

theorem pumpOn_drivenLow {p : Plant} (h : p.gpio.IsOutput sysPinPump) :
    (pumpOn p).gpio.DrivenLow sysPinPump := by
  refine ⟨(pumpOn_isOutput h).dir, ?_⟩
  simp [pumpOn, h.clear (by decide)]

theorem pumpOn_agrees {p : Plant} (h : p.gpio.IsOutput sysPinPump) : (pumpOn p).Agrees :=
  iff_of_true (regReadBool_pump true p.regs) (pumpOn_drivenLow h)

/-- `rec_pump_control` returns with register and pin agreeing exactly when they
agreed before or one of the switching exits was taken. -/
theorem recPumpControl_agrees_iff {p : Plant} (hout : p.gpio.IsOutput sysPinPump)
    (now : BitVec 64) :
    (recPumpControl now p).Agrees ↔
      p.Agrees ∨ p.InError ∨ p.OverTemp ∨ p.TimedOut now ∨ (p.Scheduled ∧ p.Cold) := by
  have hoff := (pumpOff_isOff hout).agrees
  rw [recPumpControl_eq hout]
  by_cases herr : p.InError
  · rw [if_pos herr]
    exact iff_of_true hoff (Or.inr (Or.inl herr))
  by_cases hover : p.OverTemp
  · rw [if_neg herr, if_pos hover]
    exact iff_of_true hoff (Or.inr (Or.inr (Or.inl hover)))
  rw [if_neg herr, if_neg hover]
  by_cases htime : p.TimedOut now
  · rw [if_pos htime]
    refine iff_of_true ?_ (Or.inr (Or.inr (Or.inr (Or.inl htime))))
    split
    · exact pumpOn_agrees (pumpOff_isOutput hout)
    · exact hoff
  rw [if_neg htime]
  by_cases hstart : p.Scheduled ∧ p.Cold
  · rw [if_pos hstart]
    exact iff_of_true (pumpOn_agrees hout) (Or.inr (Or.inr (Or.inr (Or.inr hstart))))
  · rw [if_neg hstart]
    simp [herr, hover, htime, hstart]

instance (p : Plant) : Decidable p.Agrees :=
  inferInstanceAs (Decidable (_ ↔ _))

/-- The plant after `setup`, with the given first register byte and `Errors` word. -/
def afterSetup (bools error : BitVec 8) : Plant where
  regs := { regVet := fun a => if a = 0 then bools else if a = 324 then error else 0,
            changeFlag := 0 }
  gpio := setupPins { gpioOn := false, inputRefPin := 0, outputRefPin := 0, dir := 0,
                      level := fun _ => false }
  botoeira := isrBotoeiraVar

/-- The register asks for the pump, its pin is high and nothing switches it. -/
theorem recPumpControl_disagrees :
    ¬ ∀ (p : Plant) (now : BitVec 64), p.gpio.IsOutput sysPinPump →
      (recPumpControl now p).Agrees := by
  intro hall
  have hagrees := hall (afterSetup 0b10000000 0) 0 (Gpio.setupPins_pump _)
  exact absurd hagrees (by decide)

/-- In error the same plant ends with register and pin both off. -/
theorem recPumpControl_agrees_inError : (recPumpControl 0 (afterSetup 0b10000000 1)).Agrees :=
  (recPumpControl_agrees_iff (Gpio.setupPins_pump _) 0).mpr (Or.inr (Or.inl (by decide)))

end Plant

end Recirculador
