/-
The error task, and what the button's flag says of the pump.

`isr_botoeira_var.pump_on` is set when the button starts the pump.  The control
clears it where it stops the pump for the temperature or the time, and not where
it stops it for an error: from then on the flag speaks of a pump that is off.
-/
import Recirculador.Pump.Request

namespace Recirculador

open SysRegMap Registers

/-! ## `rec_error_process` -/

/-- The test both sensors make.  Sensor 2 reports with the bits of sensor 1. -/
def recErrorTest (temp desconnect shortCircuit high low : Nat) (r : Registers) : BitVec 32 :=
  let measure := regReadInt temp r
  if (regReadInt desconnect r).slt measure then sysErrorS1OpenCircuit
  else if measure.slt (regReadInt shortCircuit r) then sysErrorS1ShortCircuit
  else if (regReadInt high r).slt measure then sysErrorS1High
  else if measure.slt (regReadInt low r) then sysErrorS1Low
  else sysErrorNo

def recS1ErrorTest (r : Registers) : BitVec 32 :=
  recErrorTest s1Temp s1ErrorDesconnect s1ErrorShortCircuit s1ErrorHigh s1ErrorLow r

def recS2ErrorTest (r : Registers) : BitVec 32 :=
  recErrorTest s2Temp s2ErrorDesconnect s2ErrorShortCircuit s2ErrorHigh s2ErrorLow r

def recCurrentErrorTest : BitVec 32 := sysErrorNo

def recErrorProcess (p : Plant) : Plant :=
  let value := sysErrorNo
  let value := value ||| recS1ErrorTest p.regs
  let value := value ||| recS2ErrorTest p.regs
  let value := value ||| recCurrentErrorTest
  { p with regs := regWriteInt value errors p.regs }

/-! ## Runs of the button, the control and the error task -/

/-- The plant `setup` leaves: its pins, the button's variable and whatever
registers it loads. -/
def setupPlant (regs : Registers) (g : Gpio) : Plant :=
  { regs, gpio := setupPins g, botoeira := isrBotoeiraVar }

inductive ButtonAction
  | botoeira (now : BitVec 64)
  | control (now : BitVec 64)
  | errorProcess
  | world (regs : Registers) (level : Nat → Bool)

/-- The world's registers and levels; only the tasks write `Errors`. -/
def Plant.measure (regs : Registers) (level : Nat → Bool) (p : Plant) : Plant :=
  { p.world regs level with
    regs := (p.world regs level).regs.setInt 13 (regReadInt errors p.regs) }

def buttonStep (p : Plant) : ButtonAction → Plant
  | .botoeira now => recIsrBotoeira now p
  | .control now => recPumpControl now p
  | .errorProcess => recErrorProcess p
  | .world regs level => p.measure regs level

namespace Plant

def PumpIsOn (p : Plant) : Prop :=
  regReadBool pump p.regs = true ∧ p.gpio.DrivenLow sysPinPump

/-- If the flag says so, the pump is on. -/
def Truthful (p : Plant) : Prop := p.botoeira.pumpOn = true → p.PumpIsOn

def FlagTold (p : Plant) : ButtonAction → Prop
  | .control now => (recPumpControl now p).Truthful
  | _ => True

/-- The control finds no error while the flag is set. -/
def FlagSafe (p : Plant) : ButtonAction → Prop
  | .control _ => ¬ (p.InError ∧ p.botoeira.pumpOn = true)
  | _ => True

theorem pumpOn_isOn {p : Plant} (h : p.gpio.IsOutput sysPinPump) : (pumpOn p).PumpIsOn :=
  ⟨regReadBool_pump true p.regs, pumpOn_drivenLow h⟩

theorem PumpIsOff.not_isOn {p : Plant} (h : p.PumpIsOff) : ¬ p.PumpIsOn := fun hon => h.2 hon.2

theorem regReadBool_pump_setInt (r : Registers) (k : Nat) (v : BitVec 32) :
    regReadBool pump (r.setInt k v) = regReadBool pump r := by
  rw [regReadBool_eq getIndex_pump, regReadBool_eq getIndex_pump]
  exact setInt_boolBit (show 0 < 128 by omega) r k v

/-- A write to an int register is not seen by the pump. -/
theorem regReadBool_pump_regWriteInt (value : BitVec 32) (addr : Nat) (r : Registers) :
    regReadBool pump (regWriteInt value addr r) = regReadBool pump r := by
  cases hindex : getIndex addr with
  | none => simp only [regWriteInt, hindex]
  | some k =>
    rw [regWriteInt_eq hindex]
    split
    · rfl
    · exact regReadBool_pump_setInt r k value

/-! ## The flag after each call -/

theorem recPumpControl_isOutput {p : Plant} (h : p.gpio.IsOutput sysPinPump) (now : BitVec 64) :
    (recPumpControl now p).gpio.IsOutput sysPinPump := by
  have hoff := pumpOff_isOutput h
  have hclick : (if p.TimedOut now then (pumpOff p).forgetClick else p).gpio.IsOutput
      sysPinPump := by
    split
    · exact hoff
    · exact h
  rw [recPumpControl_eq h]
  split
  · exact hoff
  split
  · exact hoff
  dsimp only
  split
  · exact pumpOn_isOutput hclick
  · exact hclick

/-- The control keeps the flag truthful exactly when it does not stop the pump
for an error with the flag set. -/
theorem recPumpControl_truthful_iff {p : Plant} (hout : p.gpio.IsOutput sysPinPump)
    (htruth : p.Truthful) (now : BitVec 64) :
    (recPumpControl now p).Truthful ↔ ¬ (p.InError ∧ p.botoeira.pumpOn = true) := by
  have hforgot : ∀ q : Plant, q.forgetClick.Truthful := fun q h => Bool.noConfusion h
  rw [recPumpControl_eq hout]
  by_cases herr : p.InError
  · rw [if_pos herr]
    constructor
    · intro hflag hbad
      exact (pumpOff_isOff hout).not_isOn (hflag hbad.2)
    · intro hok hflag
      exact absurd ⟨herr, hflag⟩ hok
  have hok : ¬ (p.InError ∧ p.botoeira.pumpOn = true) := fun hbad => herr hbad.1
  by_cases hover : p.OverTemp
  · rw [if_neg herr, if_pos hover]
    exact iff_of_true (hforgot (pumpOff p)) hok
  rw [if_neg herr, if_neg hover]
  refine iff_of_true ?_ hok
  by_cases htime : p.TimedOut now
  · rw [if_pos htime]
    dsimp only
    split
    · exact fun _ => pumpOn_isOn (pumpOff_isOutput hout)
    · exact hforgot (pumpOff p)
  · rw [if_neg htime]
    dsimp only
    split
    · exact fun _ => pumpOn_isOn hout
    · exact htruth

theorem recIsrBotoeira_truthful {p : Plant} (hout : p.gpio.IsOutput sysPinPump)
    (htruth : p.Truthful) (now : BitVec 64) :
    (recIsrBotoeira now p).gpio.IsOutput sysPinPump ∧ (recIsrBotoeira now p).Truthful := by
  have hclicked : (p.clicked now).gpio.IsOutput sysPinPump := hout
  rw [recIsrBotoeira_eq]
  split
  · split
    · rename_i hset
      have hclear : (pumpOff (p.clicked now)).botoeira.pumpOn = false := congrArg (!·) hset
      exact ⟨pumpOff_isOutput hclicked, fun h => Bool.noConfusion (hclear.symm.trans h)⟩
    · exact ⟨pumpOn_isOutput hclicked, fun _ => pumpOn_isOn hclicked⟩
  · exact ⟨hout, htruth⟩

theorem recErrorProcess_truthful {p : Plant} (htruth : p.Truthful) :
    (recErrorProcess p).Truthful := by
  intro hflag
  have hon := htruth hflag
  refine ⟨?_, hon.2⟩
  rw [recErrorProcess, regReadBool_pump_regWriteInt]
  exact hon.1

theorem measure_truthful {p : Plant} (htruth : p.Truthful) (regs : Registers)
    (level : Nat → Bool) : (p.measure regs level).Truthful := by
  intro hflag
  have hon := htruth hflag
  refine ⟨?_, (drivenLow_world regs level p).mpr hon.2⟩
  rw [measure, regReadBool_pump_setInt, regReadBool_pump_world]
  exact hon.1

/-- What a run keeps as long as it is safe. -/
structure ButtonInvariant (p : Plant) : Prop where
  output : p.gpio.IsOutput sysPinPump
  truthful : p.Truthful

theorem flagTold_iff_flagSafe (p : Plant) (a : ButtonAction) (h : p.ButtonInvariant) :
    p.FlagTold a ↔ p.FlagSafe a := by
  cases a with
  | control now => exact recPumpControl_truthful_iff h.output h.truthful now
  | botoeira now => exact Iff.rfl
  | errorProcess => exact Iff.rfl
  | world regs level => exact Iff.rfl

theorem ButtonInvariant.step (p : Plant) (a : ButtonAction) (h : p.ButtonInvariant)
    (htold : p.FlagTold a) : (buttonStep p a).ButtonInvariant := by
  cases a with
  | control now => exact ⟨recPumpControl_isOutput h.output now, htold⟩
  | botoeira now =>
    obtain ⟨hout, htruth⟩ := recIsrBotoeira_truthful h.output h.truthful now
    exact ⟨hout, htruth⟩
  | errorProcess => exact ⟨h.output, recErrorProcess_truthful h.truthful⟩
  | world regs level =>
    exact ⟨⟨h.output.input, h.output.output, h.output.dir⟩, measure_truthful h.truthful regs level⟩

/-- In a run from `setup` the flag tells the truth after every call of the control
exactly when no call finds an error with the flag set. -/
theorem run_flagTold_iff (regs : Registers) (g : Gpio) (as : List ButtonAction) :
    Run.Each buttonStep FlagTold (setupPlant regs g) as ↔
      Run.Each buttonStep FlagSafe (setupPlant regs g) as :=
  Run.Each.iff_of_invariant ButtonInvariant ButtonInvariant.step flagTold_iff_flagSafe
    ⟨Gpio.setupPins_pump g, fun hset => Bool.noConfusion hset⟩ as

/-- All registers 0 but the temperature of sensor 1. -/
def warmImage : Registers := { regVet := fun a => if a = 296 then 1 else 0, changeFlag := 0 }

/-- A press, an error and the next control: the pump stops, the flag stays. -/
theorem run_flagLies :
    ¬ ∀ (regs : Registers) (g : Gpio) (as : List ButtonAction),
      Run.Each buttonStep FlagTold (setupPlant regs g) as := by
  intro hall
  have hrun := hall warmImage
    { gpioOn := false, inputRefPin := 0, outputRefPin := 0, dir := 0, level := fun _ => false }
    [.botoeira 200, .errorProcess, .control 300]
  exact absurd (hrun.2.2.1 (by decide)).1 (by decide)

end Plant

end Recirculador
