/-
Runs of the pump: who asked for it, and who still does.

Between the button interrupt and the control task the world moves freely: every
register but the pump's, every pin level but the pump's.  Register and pin then
agree in every state of a run, so a call either switches the pump, keeps a
request alive or leaves the pump as it found it; only the last can leave it
running for nobody.
-/
import Recirculador.Common.Run
import Recirculador.Pump.Control

namespace Recirculador

open SysRegMap Registers

inductive PumpAction
  | botoeira (now : BitVec 64)
  | control (now : BitVec 64)
  | world (regs : Registers) (level : Nat → Bool)

/-- The world's registers and levels, with the pump register and pin kept. -/
def Plant.world (regs : Registers) (level : Nat → Bool) (p : Plant) : Plant :=
  { p with
    regs := { regs with
      regVet := fun a =>
        if a = 0 then boolWrite (regReadBool pump p.regs) 0 (regs.regVet 0) else regs.regVet a }
    gpio := { p.gpio with
      level := fun pin => if pin = sysPinPump then p.gpio.level pin else level pin } }

def pumpStep (p : Plant) : PumpAction → Plant
  | .botoeira now => recIsrBotoeira now p
  | .control now => recPumpControl now p
  | .world regs level => p.world regs level

namespace Plant

structure Coupled (p : Plant) : Prop where
  output : p.gpio.IsOutput sysPinPump
  agrees : p.Agrees

theorem pumpOff_coupled {p : Plant} (h : p.gpio.IsOutput sysPinPump) : (pumpOff p).Coupled :=
  ⟨pumpOff_isOutput h, (pumpOff_isOff h).agrees⟩

theorem pumpOn_coupled {p : Plant} (h : p.gpio.IsOutput sysPinPump) : (pumpOn p).Coupled :=
  ⟨pumpOn_isOutput h, pumpOn_agrees h⟩

theorem Coupled.isOff_iff {p : Plant} (h : p.Coupled) :
    p.PumpIsOff ↔ regReadBool pump p.regs = false := by
  refine ⟨fun hoff => hoff.1, fun hreg => ⟨hreg, fun hlow => ?_⟩⟩
  simp [h.agrees.mpr hlow] at hreg

theorem regReadBool_pump_world (regs : Registers) (level : Nat → Bool) (p : Plant) :
    regReadBool pump (p.world regs level).regs = regReadBool pump p.regs := by
  rw [regReadBool_eq getIndex_pump]
  exact getLsbD_boolWrite (regs.regVet 0) _ (p := 0) (q := 0) (by decide) (by decide)

theorem drivenLow_world (regs : Registers) (level : Nat → Bool) (p : Plant) :
    (p.world regs level).gpio.DrivenLow sysPinPump ↔ p.gpio.DrivenLow sysPinPump := by
  simp [Gpio.DrivenLow, Plant.world]

theorem Coupled.world {p : Plant} (h : p.Coupled) (regs : Registers) (level : Nat → Bool) :
    (p.world regs level).Coupled := by
  refine ⟨⟨h.output.input, h.output.output, h.output.dir⟩, ?_⟩
  rw [Agrees, regReadBool_pump_world, drivenLow_world]
  exact h.agrees

theorem Coupled.recIsrBotoeira {p : Plant} (h : p.Coupled) (now : BitVec 64) :
    (recIsrBotoeira now p).Coupled := by
  have hout : (p.clicked now).gpio.IsOutput sysPinPump := h.output
  rw [recIsrBotoeira_eq]
  split
  · split
    · exact pumpOff_coupled hout
    · exact pumpOn_coupled hout
  · exact h

theorem Coupled.recPumpControl {p : Plant} (h : p.Coupled) (now : BitVec 64) :
    (recPumpControl now p).Coupled := by
  have hoff := pumpOff_coupled h.output
  have hforget : (pumpOff p).forgetClick.Coupled := ⟨hoff.output, hoff.agrees⟩
  rw [recPumpControl_eq h.output]
  by_cases herr : p.InError
  · rw [if_pos herr]
    exact hoff
  by_cases hover : p.OverTemp
  · rw [if_neg herr, if_pos hover]
    exact hforget
  rw [if_neg herr, if_neg hover]
  have hclick : (if p.TimedOut now then (pumpOff p).forgetClick else p).Coupled := by
    split
    · exact hforget
    · exact h
  dsimp only
  split
  · exact pumpOn_coupled hclick.output
  · exact hclick

theorem Coupled.step (p : Plant) (a : PumpAction) (h : p.Coupled) : (pumpStep p a).Coupled := by
  cases a with
  | botoeira now => exact h.recIsrBotoeira now
  | control now => exact h.recPumpControl now
  | world regs level => exact h.world regs level

/-! ## Calls that leave the pump running for nobody -/

/-- `rec_pump_control` returned with the pump off unless somebody asks for it. -/
def Requested (p : Plant) : PumpAction → Prop
  | .control now =>
    (recPumpControl now p).botoeira.pumpOn = false →
      ¬ (recPumpControl now p).Scheduled → (recPumpControl now p).PumpIsOff
  | _ => True

/-- No call finds the pump on after its schedule has ended, within the
temperature band, without an error and without a click to time out. -/
def Served (p : Plant) : PumpAction → Prop
  | .control _ =>
    ¬ (regReadBool pump p.regs = true ∧ p.botoeira.pumpOn = false ∧ ¬ p.Scheduled ∧
      ¬ p.InError ∧ ¬ p.OverTemp)
  | _ => True

theorem requested_iff_served (p : Plant) (a : PumpAction) (h : p.Coupled) :
    p.Requested a ↔ p.Served a := by
  cases a with
  | botoeira now => exact Iff.rfl
  | world regs level => exact Iff.rfl
  | control now =>
    have hoff := pumpOff_isOff h.output
    simp only [Requested, Served, recPumpControl_eq h.output]
    by_cases herr : p.InError
    · rw [if_pos herr]
      exact iff_of_true (fun _ _ => hoff) fun hbad => hbad.2.2.2.1 herr
    by_cases hover : p.OverTemp
    · rw [if_neg herr, if_pos hover]
      exact iff_of_true (fun _ _ => hoff) fun hbad => hbad.2.2.2.2 hover
    rw [if_neg herr, if_neg hover]
    by_cases htime : p.TimedOut now
    · rw [if_pos htime]
      refine iff_of_true ?_ fun hbad => Bool.noConfusion (hbad.2.1.symm.trans htime.1)
      by_cases hstart : p.Scheduled ∧ p.Cold
      · rw [if_pos hstart]
        have hread : ∀ addr, regReadInt addr (pumpOn (pumpOff p).forgetClick).regs =
            regReadInt addr p.regs := fun addr =>
          (regReadInt_pumpOn addr (pumpOff p).forgetClick).trans (regReadInt_pumpOff addr p)
        exact fun _ hidle => absurd ((scheduled_congr hread).mpr hstart.1) hidle
      · rw [if_neg hstart]
        exact fun _ _ => hoff
    rw [if_neg htime]
    by_cases hstart : p.Scheduled ∧ p.Cold
    · rw [if_pos hstart]
      have hsched := scheduled_congr fun addr => regReadInt_pumpOn addr p
      exact iff_of_true (fun _ hidle => absurd (hsched.mpr hstart.1) hidle)
        fun hbad => hbad.2.2.1 hstart.1
    · rw [if_neg hstart, h.isOff_iff]
      constructor
      · intro hreq hbad
        simp [hreq hbad.2.1 hbad.2.2.1] at hbad
      · intro hok hflag hidle
        exact Bool.eq_false_iff.mpr fun hon => hok ⟨hon, hflag, hidle, herr, hover⟩

/-- From a pump that is off, no call of a run leaves it running unrequested
exactly when every call is served. -/
theorem run_requested_iff {p : Plant} (hout : p.gpio.IsOutput sysPinPump) (hoff : p.PumpIsOff)
    (as : List PumpAction) :
    Run.Each pumpStep Requested p as ↔ Run.Each pumpStep Served p as :=
  Run.Each.congr Coupled.step requested_iff_served ⟨hout, hoff.agrees⟩ as

/-! ## A schedule that ends -/

/-- A registers image with a time, a first sensor temperature and a first schedule. -/
def scheduleImage (time temp schedule : BitVec 32) : Registers :=
  let r : Registers := { regVet := fun _ => 0, changeFlag := 0 }
  ((r.setInt 0 time).setInt 6 temp).setInt 41 schedule

/-- Minutes 0 to 10 of the second weekday. -/
def earlySchedule : BitVec 32 := 0b0100000#32 <<< 25 ||| 10#32 <<< 3

/-- The schedule starts the pump on a cold measure and ends; the measure is back
at the reference and the pump keeps running. -/
def endedSchedule : List PumpAction :=
  [.world (scheduleImage (BitVec.ofNat 32 sysTimestampMin + 60) (-1) earlySchedule) (fun _ => true),
    .control 0,
    .world (scheduleImage (BitVec.ofNat 32 sysTimestampMin + 3600) 0 earlySchedule) (fun _ => true),
    .control 0]

theorem run_unrequested :
    ¬ ∀ (p : Plant), p.gpio.IsOutput sysPinPump → p.PumpIsOff →
      ∀ as, Run.Each pumpStep Requested p as := by
  intro hall
  have hrun := hall (afterSetup 0 0) (Gpio.setupPins_pump _) ⟨by decide, by decide⟩ endedSchedule
  exact absurd (hrun.2.2.2.1 (by decide) (by decide)).1 (by decide)

/-- A press and the timeout of its request end with the pump off. -/
theorem run_requested_click :
    Run.Each pumpStep Requested (afterSetup 0 0) [.botoeira 200, .control 300] := by
  refine (run_requested_iff (Gpio.setupPins_pump _) ⟨by decide, by decide⟩ _).mpr
    ⟨trivial, ?_, trivial⟩
  intro hbad
  exact absurd hbad.2.1 (by decide)

end Plant

end Recirculador
