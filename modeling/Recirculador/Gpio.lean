/-
The pins of `gpio.c`.

`level` is what `GPIO->B[0]` shows of each pin.  The driver keeps its own record
of which pins are inputs and which are outputs and consults it before it touches
a pin, so reading an output is always false and writing an input does nothing.
-/
import Recirculador.Board

namespace Recirculador

structure Gpio where
  gpioOn : Bool
  inputRefPin : BitVec 32
  outputRefPin : BitVec 32
  /-- `GPIO->DIR[0]`, one bit a pin, set for an output. -/
  dir : BitVec 32
  level : Nat → Bool

namespace Gpio

/-- The driver and the port agree that a pin is an output. -/
structure IsOutput (g : Gpio) (pin : Nat) : Prop where
  input : g.inputRefPin.getLsbD pin = false
  output : g.outputRefPin.getLsbD pin = true
  dir : g.dir.getLsbD pin = true

/-- The port drives a pin low. -/
def DrivenLow (g : Gpio) (pin : Nat) : Prop := g.dir.getLsbD pin = true ∧ g.level pin = false

instance (g : Gpio) (pin : Nat) : Decidable (g.DrivenLow pin) :=
  inferInstanceAs (Decidable (_ ∧ _))

end Gpio

/-- Resetting the port turns every pin into an input. -/
def gpioEnableClock (g : Gpio) : Gpio := { g with gpioOn := true, dir := 0 }

def gpioConfigPinInput (pin : Nat) (g : Gpio) : Gpio :=
  let g := if g.gpioOn then g else gpioEnableClock g
  { g with
    inputRefPin := g.inputRefPin ||| (1#32 <<< pin)
    outputRefPin := g.outputRefPin &&& ~~~(1#32 <<< pin)
    dir := g.dir &&& ~~~(1#32 <<< pin)
    gpioOn := true }

def gpioConfigPinOutput (pin : Nat) (g : Gpio) : Gpio :=
  let g := if g.gpioOn then g else gpioEnableClock g
  { g with
    inputRefPin := g.inputRefPin &&& ~~~(1#32 <<< pin)
    outputRefPin := g.outputRefPin ||| (1#32 <<< pin)
    dir := g.dir ||| (1#32 <<< pin)
    gpioOn := true }

/-- `dir` is the register of port 0. -/
def gpioConfigPortInput (port : Nat) (g : Gpio) : Gpio :=
  let g := if g.gpioOn then g else gpioEnableClock g
  { g with
    inputRefPin := 0xFFFF
    outputRefPin := 0
    dir := if port = 0 then g.dir &&& ~~~0xFFFF#32 else g.dir
    gpioOn := true }

def gpioConfigPortOutput (port : Nat) (g : Gpio) : Gpio :=
  let g := if g.gpioOn then g else gpioEnableClock g
  { g with
    inputRefPin := 0
    outputRefPin := 0xFFFF
    dir := if port = 0 then g.dir ||| 0xFFFF#32 else g.dir
    gpioOn := true }

def gpioReadPin (pin : Nat) (g : Gpio) : Bool :=
  if (1#32 <<< pin) &&& g.inputRefPin ≠ 0 then g.level pin else false

def gpioSetPin (pin : Nat) (g : Gpio) : Gpio :=
  if (1#32 <<< pin) &&& g.outputRefPin ≠ 0 then
    { g with level := fun p => if p = pin then true else g.level p }
  else g

def gpioClearPin (pin : Nat) (g : Gpio) : Gpio :=
  if (1#32 <<< pin) &&& g.outputRefPin ≠ 0 then
    { g with level := fun p => if p = pin then false else g.level p }
  else g

/-- The pins as `setup` leaves them. -/
def setupPins (g : Gpio) : Gpio :=
  let g := gpioConfigPinOutput sysPinNReload g
  let g := gpioClearPin sysPinNReload g
  let g := gpioConfigPinOutput sysPinReset g
  let g := gpioClearPin sysPinReset g
  let g := gpioConfigPinInput sysPinNReady g
  let g := gpioConfigPinInput sysPinNLink g
  let g := gpioConfigPinOutput sysPinPump g
  let g := gpioSetPin sysPinPump g
  let g := gpioConfigPinInput sysPinBotoeira g
  gpioConfigPinInput sysPinSensorDeFluxo g

namespace Gpio

variable {g : Gpio} {pin q : Nat}

theorem testPin_iff (v : BitVec 32) (hpin : pin < 32) :
    (1#32 <<< pin) &&& v ≠ 0 ↔ v.getLsbD pin = true := by
  rw [← BitVec.twoPow_eq, BitVec.twoPow_and]
  cases v.getLsbD pin
  · simp
  · have hne : BitVec.twoPow 32 pin ≠ 0#32 := by
      intro he
      have hbit := congrArg (fun v => v.getLsbD pin) he
      simp [hpin] at hbit
    simpa using hne

/-- An output always reads as low, whatever its level. -/
theorem IsOutput.read (h : g.IsOutput pin) (hpin : pin < 32) : gpioReadPin pin g = false :=
  if_neg fun hin => by simpa [h.input] using (testPin_iff _ hpin).mp hin

theorem IsOutput.set (h : g.IsOutput pin) (hpin : pin < 32) :
    gpioSetPin pin g = { g with level := fun p => if p = pin then true else g.level p } :=
  if_pos ((testPin_iff _ hpin).mpr h.output)

theorem IsOutput.clear (h : g.IsOutput pin) (hpin : pin < 32) :
    gpioClearPin pin g = { g with level := fun p => if p = pin then false else g.level p } :=
  if_pos ((testPin_iff _ hpin).mpr h.output)

theorem isOutput_gpioSetPin (h : g.IsOutput q) (pin : Nat) : (gpioSetPin pin g).IsOutput q := by
  unfold gpioSetPin
  split
  · exact ⟨h.input, h.output, h.dir⟩
  · exact h

theorem isOutput_gpioClearPin (h : g.IsOutput q) (pin : Nat) :
    (gpioClearPin pin g).IsOutput q := by
  unfold gpioClearPin
  split
  · exact ⟨h.input, h.output, h.dir⟩
  · exact h

theorem gpioConfigPinOutput_isOutput (hpin : pin < 32) (g : Gpio) :
    (gpioConfigPinOutput pin g).IsOutput pin := by
  constructor <;> simp [gpioConfigPinOutput, hpin]

theorem isOutput_gpioConfigPinInput (h : g.IsOutput q) (hon : g.gpioOn = true) (hq : q < 32)
    (hne : q ≠ pin) : (gpioConfigPinInput pin g).IsOutput q := by
  constructor <;> simp [gpioConfigPinInput, hon, h.input, h.output, h.dir] <;> omega

theorem gpioOn_gpioSetPin (pin : Nat) (g : Gpio) : (gpioSetPin pin g).gpioOn = g.gpioOn := by
  unfold gpioSetPin
  split <;> rfl

theorem configPump_isOutput (g : Gpio) :
    (gpioConfigPinInput sysPinSensorDeFluxo (gpioConfigPinInput sysPinBotoeira
      (gpioSetPin sysPinPump (gpioConfigPinOutput sysPinPump g)))).IsOutput sysPinPump := by
  have hpump := gpioConfigPinOutput_isOutput (show sysPinPump < 32 by simp) g
  have hset := isOutput_gpioSetPin hpump sysPinPump
  have hon : (gpioSetPin sysPinPump (gpioConfigPinOutput sysPinPump g)).gpioOn = true := by
    rw [gpioOn_gpioSetPin]
    rfl
  have hbotoeira := isOutput_gpioConfigPinInput hset hon (by decide)
    (show sysPinPump ≠ sysPinBotoeira by simp)
  exact isOutput_gpioConfigPinInput hbotoeira rfl (by decide) (by decide)

theorem setupPins_pump (g : Gpio) : (setupPins g).IsOutput sysPinPump :=
  configPump_isOutput _

end Gpio

end Recirculador
