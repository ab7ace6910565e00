/-
The temperature band of the pump.

Without an error and without a request of the button every change the control makes is
a switching of a relay: on below the reference less the hysteresis, off above the
reference plus the hysteresis.  The schedule decides whether the pump is started and
never where.
-/
import Recirculador.Common.Hysteresis
import Recirculador.Pump.Request

namespace Recirculador

open SysRegMap Registers Hysteresis

/-- A call of `rec_pump_control`: what the world has made of registers and levels when
it starts, and the time. -/
structure ControlCall where
  regs : Registers
  level : Nat → Bool
  now : BitVec 64

/-- The temperature, reference and hysteresis of the sensor selected. -/
def ControlCall.temp (c : ControlCall) : Int := (sensorReg s1Temp s2Temp c.regs).toInt

def ControlCall.ref (c : ControlCall) : Int := (sensorReg s1TempRef s2TempRef c.regs).toInt

def ControlCall.hysteresis (c : ControlCall) : Int :=
  (sensorReg s1TempHysteresis s2TempHysteresis c.regs).toInt

namespace Plant

def enter (p : Plant) (c : ControlCall) : Plant := p.world c.regs c.level

def call (p : Plant) (c : ControlCall) : Plant := recPumpControl c.now (p.enter c)

def pumpReg (p : Plant) : Bool := regReadBool pump p.regs

/-- No error, and the settings of the run. -/
structure Settled (ref hysteresis : Int) (c : ControlCall) : Prop where
  errors : regReadInt errors c.regs = 0
  ref : c.ref = ref
  hysteresis : c.hysteresis = hysteresis

/-- Register and pin agree and no click is pending. -/
structure Idle (p : Plant) : Prop where
  coupled : p.Coupled
  unclicked : p.botoeira.pumpOn = false

/-! ## One call -/

theorem regReadInt_enter (addr : Nat) (p : Plant) (c : ControlCall) :
    regReadInt addr (p.enter c).regs = regReadInt addr c.regs := by
  simp only [regReadInt]
  cases getIndex addr with
  | none => rfl
  | some k =>
    refine ByteMemory.load_congr fun j _ => if_neg ?_
    show 272 + 4 * k + j ≠ 0
    omega

theorem sensorReg_enter (addr1 addr2 : Nat) (p : Plant) (c : ControlCall) :
    sensorReg addr1 addr2 (p.enter c).regs = sensorReg addr1 addr2 c.regs := by
  simp only [sensorReg, regReadInt_enter]

theorem pumpReg_enter (p : Plant) (c : ControlCall) : (p.enter c).pumpReg = p.pumpReg :=
  regReadBool_pump_world c.regs c.level p

variable {ref hysteresis : Int} {p : Plant} {c : ControlCall}

/-- Over temperature is above the band, if the sum fits. -/
theorem overTemp_enter_iff (hc : Settled ref hysteresis c)
    (hlow : -0x80000000 ≤ ref + hysteresis) (hhigh : ref + hysteresis < 0x80000000) :
    (p.enter c).OverTemp ↔ ref + hysteresis < c.temp := by
  have hsum : (sensorReg s1TempRef s2TempRef c.regs +
      sensorReg s1TempHysteresis s2TempHysteresis c.regs).toInt = ref + hysteresis := by
    rw [← hc.ref, ← hc.hysteresis] at hlow hhigh ⊢
    rw [BitVec.toInt_add]
    exact Int.bmod_eq_of_le hlow hhigh
  rw [OverTemp, sensorReg_enter, sensorReg_enter, sensorReg_enter, BitVec.slt_iff_toInt_lt, hsum,
    ControlCall.temp]

theorem cold_enter_iff (hc : Settled ref hysteresis c)
    (hlow : -0x80000000 ≤ ref - hysteresis) (hhigh : ref - hysteresis < 0x80000000) :
    (p.enter c).Cold ↔ c.temp < ref - hysteresis := by
  have hdiff : (sensorReg s1TempRef s2TempRef c.regs -
      sensorReg s1TempHysteresis s2TempHysteresis c.regs).toInt = ref - hysteresis := by
    rw [← hc.ref, ← hc.hysteresis] at hlow hhigh ⊢
    rw [BitVec.toInt_sub]
    exact Int.bmod_eq_of_le hlow hhigh
  rw [Cold, sensorReg_enter, sensorReg_enter, sensorReg_enter, BitVec.slt_iff_toInt_lt, hdiff,
    ControlCall.temp]

/-- The ways a call ends without an error and without a click. -/
theorem call_eq (h : p.Idle) (hc : Settled ref hysteresis c) :
    p.call c =
      if (p.enter c).OverTemp then (pumpOff (p.enter c)).forgetClick
      else if (p.enter c).Scheduled ∧ (p.enter c).Cold then pumpOn (p.enter c)
      else p.enter c := by
  have herr : ¬ (p.enter c).InError := by
    rw [InError, regReadInt_enter]
    exact not_not_intro hc.errors
  have htime : ¬ (p.enter c).TimedOut c.now := fun hout =>
    Bool.noConfusion (h.unclicked.symm.trans hout.1)
  have hout : (p.enter c).gpio.IsOutput sysPinPump := (h.coupled.world c.regs c.level).output
  rw [call, recPumpControl_eq hout, if_neg herr, if_neg htime]

theorem Idle.call (h : p.Idle) (hc : Settled ref hysteresis c) : (p.call c).Idle := by
  refine ⟨(h.coupled.world c.regs c.level).recPumpControl c.now, ?_⟩
  have hflag : (p.enter c).botoeira.pumpOn = false := h.unclicked
  rw [call_eq h hc]
  split
  · rfl
  split
  · exact hflag
  · exact hflag

/-- What a call does to the register. -/
theorem pumpReg_call (h : p.Idle) (hc : Settled ref hysteresis c) :
    (p.call c).pumpReg =
      if (p.enter c).OverTemp then false
      else if (p.enter c).Scheduled ∧ (p.enter c).Cold then true
      else p.pumpReg := by
  rw [call_eq h hc]
  split
  · exact regReadBool_pump false (p.enter c).regs
  split
  · exact regReadBool_pump true (p.enter c).regs
  · exact pumpReg_enter p c

/-- A call turns the pump outside the band or not at all. -/
theorem call_banded (h : p.Idle) (hc : Settled ref hysteresis c) (hpos : 0 ≤ hysteresis)
    (hlow : -0x80000000 ≤ ref - hysteresis) (hhigh : ref + hysteresis < 0x80000000) :
    Banded call pumpReg ControlCall.temp (ref - hysteresis) (ref + hysteresis) p c := by
  have hover := overTemp_enter_iff (p := p) hc (by omega) hhigh
  have hcold := cold_enter_iff (p := p) hc hlow (by omega)
  rw [Banded, pumpReg_call h hc]
  by_cases habove : (p.enter c).OverTemp
  · rw [if_pos habove]
    exact Or.inr (hover.mp habove)
  by_cases hstart : (p.enter c).Scheduled ∧ (p.enter c).Cold
  · rw [if_neg habove, if_pos hstart]
    exact Or.inr (hcold.mp hstart.2)
  · rw [if_neg habove, if_neg hstart]
    exact Or.inl rfl

/-! ## Runs -/

/-- The pump turns on only below the band and off only above it; the switchings
alternate, so the temperature crosses the band between them. -/
theorem run_hysteresis {p : Plant} (hout : p.gpio.IsOutput sysPinPump) (hagrees : p.Agrees)
    (hflag : p.botoeira.pumpOn = false) {ref hysteresis : Int} (hpos : 0 ≤ hysteresis)
    (hlow : -0x80000000 ≤ ref - hysteresis) (hhigh : ref + hysteresis < 0x80000000)
    {cs : List ControlCall} (hcs : ∀ c ∈ cs, Settled ref hysteresis c) :
    Run.Always call Agrees p cs ∧
      (∀ w ∈ switchings call pumpReg ControlCall.temp p cs,
        w.Outside (ref - hysteresis) (ref + hysteresis)) ∧
      (switchings call pumpReg ControlCall.temp p cs).IsChain fun w w' =>
        w'.on ≠ w.on ∧ 2 * hysteresis < ((w.value - w'.value).natAbs : Int) := by
  have hidle : p.Idle := ⟨⟨hout, hagrees⟩, hflag⟩
  have hsettled : Run.Each call (fun _ c => Settled ref hysteresis c) p cs := .of_mem hcs p
  have hstep : ∀ p c, Idle p → Settled ref hysteresis c → Idle (p.call c) := fun _ _ h => h.call
  have hbanded := hsettled.mono_of_invariant Idle hstep
    (fun p c h hc => call_banded h hc hpos hlow hhigh) hidle
  have hband : ref + hysteresis - (ref - hysteresis) = 2 * hysteresis := by omega
  refine ⟨?_, switchings_outside hbanded, ?_⟩
  · exact (Run.Always.of_step hstep hidle hsettled).mono fun p h => h.coupled.agrees
  · rw [← hband]
    exact switchings_isChain hbanded

/-- A registers image with the reference 45 degrees, the hysteresis 2 degrees and a
schedule that is active in the first minutes of the second weekday. -/
def bandImage (temp : BitVec 32) : Registers :=
  ((scheduleImage (BitVec.ofNat 32 sysTimestampMin + 60) temp earlySchedule).setInt 17 4500).setInt
    18 200

def bandCall (temp : BitVec 32) : ControlCall := ⟨bandImage temp, fun _ => true, 0⟩

/-- 42, 46 and 48 degrees: the pump is started, kept and stopped. -/
theorem run_hysteresis_band :
    (switchings call pumpReg ControlCall.temp (afterSetup 0 0)
      [bandCall 4200, bandCall 4600, bandCall 4800]).IsChain fun w w' =>
        w'.on ≠ w.on ∧ 2 * 200 < ((w.value - w'.value).natAbs : Int) := by
  have hsettled : ∀ c ∈ [bandCall 4200, bandCall 4600, bandCall 4800], Settled 4500 200 c := by
    intro c hc
    simp only [List.mem_cons, List.not_mem_nil, or_false] at hc
    rcases hc with rfl | rfl | rfl <;> exact ⟨by decide, by decide, by decide⟩
  exact (run_hysteresis (Gpio.setupPins_pump _) (by decide) rfl (by decide) (by decide) (by decide)
    hsettled).2.2

example : (switchings call pumpReg ControlCall.temp (afterSetup 0 0)
    [bandCall 4200, bandCall 4600, bandCall 4800]).map Switching.value = [4200, 4800] := by
  decide +kernel

end Plant

end Recirculador
