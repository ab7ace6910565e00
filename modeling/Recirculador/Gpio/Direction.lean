/-
The driver's record of the directions.

`outputRefPin` is to say of each pin what the direction register says.  The functions for a
pin change one bit of both.  Those for the port replace the whole record, but the register
only below pin 16: a pin above that is an output keeps driving and is off the record.
-/
import Recirculador.Common.Run
import Recirculador.Gpio

namespace Recirculador

inductive DirectionAction
  | pinInput (pin : Fin 31)
  | pinOutput (pin : Fin 31)
  | portInput
  | portOutput

def directionStep (g : Gpio) : DirectionAction → Gpio
  | .pinInput pin => gpioConfigPinInput pin.val g
  | .pinOutput pin => gpioConfigPinOutput pin.val g
  | .portInput => gpioConfigPortInput 0 g
  | .portOutput => gpioConfigPortOutput 0 g

namespace Gpio

/-- The pins after a reset, at whatever levels. -/
def reset (level : Nat → Bool) : Gpio :=
  { gpioOn := false, inputRefPin := 0, outputRefPin := 0, dir := 0, level }

/-- The record is that of the register, and no pin is on both sides of it. -/
structure Mirrored (g : Gpio) : Prop where
  output : ∀ pin, pin < 31 → g.outputRefPin.getLsbD pin = g.dir.getLsbD pin
  apart : ∀ pin, pin < 31 →
    ¬ (g.inputRefPin.getLsbD pin = true ∧ g.outputRefPin.getLsbD pin = true)

/-- No pin above 15 is an output. -/
def HighInputs (g : Gpio) : Prop := ∀ pin, 16 ≤ pin → pin < 31 → g.dir.getLsbD pin = false

def HighInputsAtPort (g : Gpio) : DirectionAction → Prop
  | .portInput => g.HighInputs
  | .portOutput => g.HighInputs
  | .pinInput _ => True
  | .pinOutput _ => True

/-- Until the clock is on, every pin is an input anyway. -/
structure DirectionInvariant (g : Gpio) : Prop where
  mirrored : g.Mirrored
  off : g.gpioOn = false → g.dir = 0

variable {g : Gpio}

theorem enableClock_dir (h : g.gpioOn = false → g.dir = 0) :
    (if g.gpioOn then g else gpioEnableClock g).dir = g.dir := by
  cases hon : g.gpioOn with
  | true => rfl
  | false => exact (h hon).symm

theorem enableClock_refPins (g : Gpio) :
    (if g.gpioOn then g else gpioEnableClock g).inputRefPin = g.inputRefPin ∧
      (if g.gpioOn then g else gpioEnableClock g).outputRefPin = g.outputRefPin := by
  cases g.gpioOn <;> exact ⟨rfl, rfl⟩

theorem getLsbD_pinBit {pin q : Nat} (hpin : pin < 31) :
    (1#32 <<< pin).getLsbD q = decide (q = pin) := by
  have hwidth : pin < 32 := by omega
  rw [← BitVec.twoPow_eq, BitVec.getLsbD_twoPow, decide_eq_true hwidth, Bool.true_and]
  exact decide_eq_decide.mpr eq_comm

theorem getLsbD_setPin (v : BitVec 32) {pin q : Nat} (hpin : pin < 31) :
    (v ||| 1#32 <<< pin).getLsbD q = (v.getLsbD q || decide (q = pin)) := by
  rw [BitVec.getLsbD_or, getLsbD_pinBit hpin]

theorem getLsbD_clearPin (v : BitVec 32) {pin q : Nat} (hpin : pin < 31) (hq : q < 31) :
    (v &&& ~~~(1#32 <<< pin)).getLsbD q = (v.getLsbD q && !decide (q = pin)) := by
  have hwidth : q < 32 := by omega
  rw [BitVec.getLsbD_and, BitVec.getLsbD_not, getLsbD_pinBit hpin, decide_eq_true hwidth,
    Bool.true_and]

/-- `0xFFFF`, the pins the port functions write to the register. -/
theorem getLsbD_lowPins {pin : Nat} (hpin : pin < 31) :
    (0xFFFF#32).getLsbD pin = decide (pin < 16) := by
  have hall : ∀ p : Fin 31, (0xFFFF#32).getLsbD p.val = decide (p.val < 16) := by decide
  exact hall ⟨pin, hpin⟩

theorem pinInput_mirrored (h : g.DirectionInvariant) (pin : Fin 31) :
    (gpioConfigPinInput pin.val g).Mirrored := by
  obtain ⟨hin, hout⟩ := enableClock_refPins g
  constructor
  · intro q hq
    simp only [gpioConfigPinInput, hout, enableClock_dir h.off,
      getLsbD_clearPin _ pin.isLt hq, h.mirrored.output q hq]
  · intro q hq
    simp only [gpioConfigPinInput, hin, hout, getLsbD_setPin _ pin.isLt,
      getLsbD_clearPin _ pin.isLt hq]
    by_cases he : q = pin.val
    · rw [decide_eq_true he, Bool.not_true, Bool.and_false]
      exact fun hboth => Bool.noConfusion hboth.2
    · rw [decide_eq_false he, Bool.not_false, Bool.and_true, Bool.or_false]
      exact h.mirrored.apart q hq

theorem pinOutput_mirrored (h : g.DirectionInvariant) (pin : Fin 31) :
    (gpioConfigPinOutput pin.val g).Mirrored := by
  obtain ⟨hin, hout⟩ := enableClock_refPins g
  constructor
  · intro q hq
    simp only [gpioConfigPinOutput, hout, enableClock_dir h.off, getLsbD_setPin _ pin.isLt,
      h.mirrored.output q hq]
  · intro q hq
    simp only [gpioConfigPinOutput, hin, hout, getLsbD_setPin _ pin.isLt,
      getLsbD_clearPin _ pin.isLt hq]
    by_cases he : q = pin.val
    · rw [decide_eq_true he, Bool.not_true, Bool.and_false]
      exact fun hboth => Bool.noConfusion hboth.1
    · rw [decide_eq_false he, Bool.not_false, Bool.and_true, Bool.or_false]
      exact h.mirrored.apart q hq

/-- What the port functions make of record and register. -/
structure PortWritten (output : Bool) (g g' : Gpio) : Prop where
  input : g'.inputRefPin = if output then 0 else 0xFFFF
  out : g'.outputRefPin = if output then 0xFFFF else 0
  dir : ∀ pin, pin < 31 →
    g'.dir.getLsbD pin = if pin < 16 then output else g.dir.getLsbD pin

theorem portInput_written (h : g.DirectionInvariant) :
    PortWritten false g (gpioConfigPortInput 0 g) := by
  refine ⟨rfl, rfl, fun pin hpin => ?_⟩
  simp only [gpioConfigPortInput, if_true, BitVec.getLsbD_and, BitVec.getLsbD_not,
    enableClock_dir h.off, getLsbD_lowPins hpin]
  have hwidth : pin < 32 := by omega
  by_cases hlow : pin < 16
  · simp [hlow]
  · simp [hlow, hwidth]

theorem portOutput_written (h : g.DirectionInvariant) :
    PortWritten true g (gpioConfigPortOutput 0 g) := by
  refine ⟨rfl, rfl, fun pin hpin => ?_⟩
  simp only [gpioConfigPortOutput, if_true, BitVec.getLsbD_or, enableClock_dir h.off,
    getLsbD_lowPins hpin]
  by_cases hlow : pin < 16
  · simp [hlow]
  · simp [hlow]

/-- A port function leaves the record right exactly if no pin above 15 is an output. -/
theorem PortWritten.mirrored_iff {output : Bool} {g' : Gpio} (h : PortWritten output g g') :
    g'.Mirrored ↔ g.HighInputs := by
  have hrecord : ∀ pin, pin < 31 → g'.outputRefPin.getLsbD pin = (output && decide (pin < 16)) := by
    intro pin hpin
    rw [h.out]
    cases output with
    | true => exact getLsbD_lowPins hpin
    | false => exact BitVec.getLsbD_zero
  constructor
  · intro hmirror pin hlow hpin
    have hsame := hmirror.output pin hpin
    rw [hrecord pin hpin, h.dir pin hpin, if_neg (by omega), decide_eq_false (by omega),
      Bool.and_false] at hsame
    exact hsame.symm
  · intro hhigh
    constructor
    · intro pin hpin
      rw [hrecord pin hpin, h.dir pin hpin]
      by_cases hlow : pin < 16
      · rw [if_pos hlow, decide_eq_true hlow, Bool.and_true]
      · rw [if_neg hlow, decide_eq_false hlow, Bool.and_false, hhigh pin (by omega) hpin]
    · intro pin hpin
      rw [h.input, h.out]
      cases output with
      | true => exact fun hboth => Bool.noConfusion (BitVec.getLsbD_zero.symm.trans hboth.1)
      | false => exact fun hboth => Bool.noConfusion (BitVec.getLsbD_zero.symm.trans hboth.2)

theorem directionStep_on (g : Gpio) (a : DirectionAction) : (directionStep g a).gpioOn = true := by
  cases a <;> rfl

theorem directionStep_mirrored_iff (h : g.DirectionInvariant) (a : DirectionAction) :
    (directionStep g a).Mirrored ↔ g.HighInputsAtPort a := by
  cases a with
  | pinInput pin => exact iff_of_true (pinInput_mirrored h pin) trivial
  | pinOutput pin => exact iff_of_true (pinOutput_mirrored h pin) trivial
  | portInput => exact (portInput_written h).mirrored_iff
  | portOutput => exact (portOutput_written h).mirrored_iff

/-- From a reset the record stays right exactly as long as no port function is called with
an output above pin 15. -/
theorem run_mirrored_iff (level : Nat → Bool) (as : List DirectionAction) :
    Run.Always directionStep Mirrored (reset level) as ↔
      Run.Each directionStep HighInputsAtPort (reset level) as := by
  refine Run.always_iff_each DirectionInvariant HighInputsAtPort (fun _ h => h.mirrored) ?_ ?_ ?_ as
  · intro g a h hok
    refine ⟨(directionStep_mirrored_iff h a).mpr hok, fun hoff => ?_⟩
    exact Bool.noConfusion ((directionStep_on g a).symm.trans hoff)
  · intro g a h hbad hmirror
    exact hbad ((directionStep_mirrored_iff h a).mp hmirror)
  · refine ⟨⟨fun _ _ => rfl, fun pin _ hboth => ?_⟩, fun _ => rfl⟩
    exact Bool.noConfusion (BitVec.getLsbD_zero.symm.trans hboth.1)

/-- The pump's pin is made an output, then the port an input: the pin still drives and the
record says it does not. -/
theorem run_pumpUnrecorded :
    ¬ ∀ (level : Nat → Bool) (as : List DirectionAction),
      Run.Always directionStep Mirrored (reset level) as := by
  intro hall
  have hrun := hall (fun _ => false) [.pinOutput ⟨sysPinPump, by decide⟩, .portInput]
  exact absurd (hrun.last.output sysPinPump (by decide)) (by decide)

end Gpio

end Recirculador
