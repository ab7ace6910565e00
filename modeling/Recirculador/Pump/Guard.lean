/-
What guards the pump.

The error task looks at the sensors once a second, the control stops the pump for what it
found, and in between only the button can start it again.  The button itself is filtered: of
the edges its pin shows, the interrupt takes those that find the pin low and come a hundred
milliseconds after the one it took last.
-/
import Recirculador.Pump.Attribution

namespace Recirculador

open SysRegMap Registers

/-- `rec_system`. -/
def recSystem (now : BitVec 64) (p : Plant) : Plant :=
  recPumpControl now
    { p with regs := regWriteBool (!gpioReadPin sysPinBotoeira p.gpio) button p.regs }

instance (temp desconnect shortCircuit high low : Nat) (r : Registers) :
    Decidable (OutsideLimits temp desconnect shortCircuit high low r) :=
  inferInstanceAs (Decidable (_ ∨ _ ∨ _ ∨ _))

instance (r : Registers) : Decidable r.S1Outside := inferInstanceAs (Decidable (OutsideLimits ..))

instance (r : Registers) : Decidable r.S2Outside := inferInstanceAs (Decidable (OutsideLimits ..))

/-! ## The error -/

namespace Plant

/-- After the error task there is an error exactly if a sensor is outside its limits. -/
theorem inError_recErrorProcess (p : Plant) :
    (recErrorProcess p).InError ↔ p.regs.S1Outside ∨ p.regs.S2Outside := by
  have hs1 : recS1ErrorTest p.regs = 0 ↔ ¬ p.regs.S1Outside := recErrorTest_zero_iff ..
  have hs2 : recS2ErrorTest p.regs = 0 ↔ ¬ p.regs.S2Outside := recErrorTest_zero_iff ..
  have hnone : recS1ErrorTest p.regs ||| recS2ErrorTest p.regs = 0 ↔
      ¬ (p.regs.S1Outside ∨ p.regs.S2Outside) :=
    BitVec.or_eq_zero_iff.trans ((and_congr hs1 hs2).trans not_or.symm)
  rw [InError, regReadInt_recErrorProcess, ne_eq, hnone, Decidable.not_not]

theorem regReadInt_button (value : Bool) (addr : Nat) (p : Plant) :
    regReadInt addr (regWriteBool value button p.regs) = regReadInt addr p.regs :=
  regReadInt_regWriteBool (getIndex_bool (k := 1) (by decide)) (by decide) value addr p.regs

theorem inError_congr {p p' : Plant}
    (h : regReadInt errors p'.regs = regReadInt errors p.regs) : p'.InError ↔ p.InError := by
  rw [InError, InError, h]

theorem inError_recPumpControl {p : Plant} (hout : p.gpio.IsOutput sysPinPump) (now : BitVec 64) :
    (recPumpControl now p).InError ↔ p.InError := by
  have hoff : (pumpOff p).InError ↔ p.InError := inError_congr (regReadInt_pumpOff errors p)
  rw [recPumpControl_eq hout]
  split
  · exact hoff
  split
  · exact hoff
  dsimp only
  have hclick : (if p.TimedOut now then (pumpOff p).forgetClick else p).InError ↔ p.InError := by
    split
    · exact hoff
    · exact Iff.rfl
  split
  · exact (inError_congr (regReadInt_pumpOn errors _)).trans hclick
  · exact hclick

theorem inError_recIsrBotoeira (now : BitVec 64) (p : Plant) :
    (recIsrBotoeira now p).InError ↔ p.InError := by
  rw [recIsrBotoeira_eq]
  split
  · split
    · exact inError_congr (regReadInt_pumpOff errors (p.clicked now))
    · exact inError_congr (regReadInt_pumpOn errors (p.clicked now))
  · exact Iff.rfl

/-- The world keeps `Errors`. -/
theorem inError_measure (regs : Registers) (level : Nat → Bool) (p : Plant) :
    (p.measure regs level).InError ↔ p.InError :=
  inError_congr (by
    have hindex : getIndex errors = some 13 := getIndex_int (k := 13) (by decide)
    rw [regReadInt, hindex, measure]
    exact (setInt_intRegVet _ 13 13 _).trans (if_pos rfl))

end Plant

/-! ## Runs -/

structure Guard where
  plant : Plant
  /-- The error task has last found a sensor outside its limits. -/
  outside : Bool
  /-- The control has run since, and the button has not. -/
  stopped : Bool
  /-- The presses the interrupt has taken, the latest first, and the start of the clock. -/
  presses : List Nat

namespace Guard

def start (regs : Registers) (g : Gpio) : Guard where
  plant := setupPlant regs g
  outside := decide (setupPlant regs g).InError
  stopped := false
  presses := [0]

def step (s : Guard) : ButtonAction → Guard
  | .botoeira now =>
    { s with
      plant := recIsrBotoeira now s.plant
      stopped := s.stopped && !decide (s.plant.Fires now)
      presses := if s.plant.Fires now then now.toNat :: s.presses else s.presses }
  | .control now => { s with plant := recSystem now s.plant, stopped := s.outside }
  | .errorProcess =>
    let outside := decide (s.plant.regs.S1Outside ∨ s.plant.regs.S2Outside)
    { s with plant := recErrorProcess s.plant, outside, stopped := s.stopped && outside }
  | .world regs level => { s with plant := s.plant.measure regs level }

/-! ### The error stops the pump -/

/-- The register tells what the error task has found, and a pump that is stopped is off. -/
structure Watched (s : Guard) : Prop where
  output : s.plant.gpio.IsOutput sysPinPump
  told : s.outside = true ↔ s.plant.InError
  off : s.stopped = true → s.plant.PumpIsOff

theorem start_watched (regs : Registers) (g : Gpio) : (start regs g).Watched where
  output := Gpio.setupPins_pump g
  told := decide_eq_true_iff
  off := fun h => Bool.noConfusion h

variable {s : Guard}

theorem Watched.botoeira (h : s.Watched) (now : BitVec 64) :
    (s.step (.botoeira now)).Watched := by
  have hclicked : (s.plant.clicked now).gpio.IsOutput sysPinPump := h.output
  refine ⟨?_, h.told.trans (Plant.inError_recIsrBotoeira now s.plant).symm, fun hstopped => ?_⟩
  · show (recIsrBotoeira now s.plant).gpio.IsOutput sysPinPump
    rw [Plant.recIsrBotoeira_eq]
    split
    · split
      · exact Plant.pumpOff_isOutput hclicked
      · exact Plant.pumpOn_isOutput hclicked
    · exact h.output
  · obtain ⟨hbefore, hnone⟩ := Bool.and_eq_true_iff.mp hstopped
    have hfires : ¬ s.plant.Fires now := by simpa using hnone
    show (recIsrBotoeira now s.plant).PumpIsOff
    rw [Plant.recIsrBotoeira_eq, if_neg hfires]
    exact h.off hbefore

theorem Watched.control (h : s.Watched) (now : BitVec 64) : (s.step (.control now)).Watched := by
  let read : Plant := { s.plant with
    regs := regWriteBool (!gpioReadPin sysPinBotoeira s.plant.gpio) button s.plant.regs }
  have hout : read.gpio.IsOutput sysPinPump := h.output
  have hread : read.InError ↔ s.plant.InError :=
    Plant.inError_congr (Plant.regReadInt_button _ errors s.plant)
  have herror : (recPumpControl now read).InError ↔ s.plant.InError :=
    (Plant.inError_recPumpControl hout now).trans hread
  refine ⟨Plant.recPumpControl_isOutput hout now, h.told.trans herror.symm, fun hstopped => ?_⟩
  show (recPumpControl now read).PumpIsOff
  rw [Plant.recPumpControl_eq hout, if_pos (hread.mpr (h.told.mp hstopped))]
  exact Plant.pumpOff_isOff hout

theorem Watched.errorProcess (h : s.Watched) : (s.step .errorProcess).Watched := by
  refine ⟨h.output, decide_eq_true_iff.trans (Plant.inError_recErrorProcess s.plant).symm,
    fun hstopped => ?_⟩
  have hoff := h.off (Bool.and_eq_true_iff.mp hstopped).1
  refine ⟨?_, hoff.2⟩
  show regReadBool pump (regWriteInt _ errors s.plant.regs) = false
  rw [Plant.regReadBool_pump_regWriteInt]
  exact hoff.1

theorem Watched.world (h : s.Watched) (regs : Registers) (level : Nat → Bool) :
    (s.step (.world regs level)).Watched := by
  refine ⟨⟨h.output.input, h.output.output, h.output.dir⟩,
    h.told.trans (Plant.inError_measure regs level s.plant).symm, fun hstopped => ?_⟩
  have hoff := h.off hstopped
  refine ⟨?_, mt (Plant.drivenLow_world regs level s.plant).mp hoff.2⟩
  show regReadBool pump (s.plant.measure regs level).regs = false
  rw [Plant.measure, Plant.regReadBool_pump_setInt, Plant.regReadBool_pump_world]
  exact hoff.1

theorem Watched.step (s : Guard) (a : ButtonAction) (h : s.Watched) : (s.step a).Watched := by
  cases a with
  | botoeira now => exact h.botoeira now
  | control now => exact h.control now
  | errorProcess => exact h.errorProcess
  | world regs level => exact h.world regs level

/-- Once the control has run after the error task found a sensor outside its limits, the pump
is off, until the error task finds both inside again or the button is pressed. -/
theorem run_stopped (regs : Registers) (g : Gpio) (as : List ButtonAction) :
    Run.Always step (fun s => s.stopped = true → s.plant.PumpIsOff) (start regs g) as :=
  (Run.Always.of_invariant Watched.step (start_watched regs g) as).mono fun _ h => h.off

/-! ### The button is debounced -/

/-- The clock is below the end of its range. -/
def Timely : ButtonAction → Prop
  | .botoeira now => now.toNat + 100 < 0x10000000000000000
  | .control _ | .errorProcess | .world .. => True

/-- The presses taken are a hundred milliseconds apart, and the next edge is taken if it comes
as much later and finds the pin low. -/
structure Debounced (s : Guard) : Prop where
  apart : s.presses.Pairwise fun later earlier => earlier + 100 ≤ later
  takes : ∀ now, s.plant.Fires now ↔
    (∀ press ∈ s.presses, press + 100 ≤ now.toNat) ∧
      gpioReadPin sysPinBotoeira s.plant.gpio = false

/-- The button's variable knows of the latest press. -/
structure Filtered (s : Guard) : Prop where
  watched : s.Watched
  latest : ∃ rest, s.presses = s.plant.botoeira.lastTimeClick.toNat :: rest
  apart : s.presses.Pairwise fun later earlier => earlier + 100 ≤ later
  time : s.plant.botoeira.lastTimeClick.toNat + 100 < 0x10000000000000000
  debouce : s.plant.botoeira.debouceTime = isrBotoeiraVar.debouceTime

theorem start_filtered (regs : Registers) (g : Gpio) : (start regs g).Filtered where
  watched := start_watched regs g
  latest := ⟨[], rfl⟩
  apart := List.pairwise_singleton _ 0
  time := show 0 + 100 < 0x10000000000000000 by decide
  debouce := rfl

theorem Filtered.fires_iff (h : s.Filtered) (now : BitVec 64) : s.plant.Fires now ↔
    (∀ press ∈ s.presses, press + 100 ≤ now.toNat) ∧
      gpioReadPin sysPinBotoeira s.plant.gpio = false := by
  have htime := h.time
  have hhundred : (isrBotoeiraVar.debouceTime.setWidth 64).toNat = 100 := rfl
  have hsum : (s.plant.botoeira.lastTimeClick +
      s.plant.botoeira.debouceTime.setWidth 64).toNat =
        s.plant.botoeira.lastTimeClick.toNat + 100 := by
    rw [h.debouce, BitVec.toNat_add, hhundred]
    omega
  obtain ⟨rest, hpresses⟩ := h.latest
  have hapart := h.apart
  rw [hpresses, List.pairwise_cons] at hapart
  rw [Plant.Fires, gt_iff_lt, BitVec.not_lt, BitVec.le_def, hsum, Bool.not_eq_true, hpresses]
  refine and_congr_left fun _ => ⟨fun hlate press hpress => ?_, fun hall =>
    hall _ List.mem_cons_self⟩
  rcases List.mem_cons.mp hpress with rfl | hrest
  · exact hlate
  · exact Nat.le_trans (hapart.1 press hrest) (Nat.le_trans (Nat.le_add_right _ 100) hlate)

theorem Filtered.botoeira (h : s.Filtered) {now : BitVec 64}
    (hok : Timely (.botoeira now)) : (s.step (.botoeira now)).Filtered := by
  by_cases hfires : s.plant.Fires now
  · have hpresses : (s.step (.botoeira now)).presses = now.toNat :: s.presses := if_pos hfires
    have hbotoeira : (s.step (.botoeira now)).plant.botoeira = (s.plant.clicked now).botoeira := by
      show (recIsrBotoeira now s.plant).botoeira = _
      rw [Plant.recIsrBotoeira_eq, if_pos hfires]
      split
      · rfl
      · rfl
    constructor
    · exact h.watched.botoeira now
    · rw [hpresses, hbotoeira]
      exact ⟨s.presses, rfl⟩
    · rw [hpresses, List.pairwise_cons]
      exact ⟨((h.fires_iff now).mp hfires).1, h.apart⟩
    · rw [hbotoeira]
      exact hok
    · rw [hbotoeira]
      exact h.debouce
  · have hpresses : (s.step (.botoeira now)).presses = s.presses := if_neg hfires
    have hplant : (s.step (.botoeira now)).plant = s.plant := by
      show recIsrBotoeira now s.plant = s.plant
      rw [Plant.recIsrBotoeira_eq, if_neg hfires]
    constructor
    · exact h.watched.botoeira now
    · rw [hpresses, hplant]
      exact h.latest
    · rw [hpresses]
      exact h.apart
    · rw [hplant]
      exact h.time
    · rw [hplant]
      exact h.debouce

/-- The control clears the flag and leaves the rest of the button's variable. -/
theorem botoeira_recPumpControl {p : Plant} (hout : p.gpio.IsOutput sysPinPump)
    (now : BitVec 64) :
    (recPumpControl now p).botoeira.lastTimeClick = p.botoeira.lastTimeClick ∧
      (recPumpControl now p).botoeira.debouceTime = p.botoeira.debouceTime := by
  rw [Plant.recPumpControl_eq hout]
  split
  · exact ⟨rfl, rfl⟩
  split
  · exact ⟨rfl, rfl⟩
  dsimp only
  split
  · split
    · exact ⟨rfl, rfl⟩
    · exact ⟨rfl, rfl⟩
  · split
    · exact ⟨rfl, rfl⟩
    · exact ⟨rfl, rfl⟩

theorem Filtered.control (h : s.Filtered) (now : BitVec 64) :
    (s.step (.control now)).Filtered := by
  have hkept : (s.step (.control now)).plant.botoeira.lastTimeClick =
        s.plant.botoeira.lastTimeClick ∧
      (s.step (.control now)).plant.botoeira.debouceTime = s.plant.botoeira.debouceTime :=
    botoeira_recPumpControl (p := { s.plant with
      regs := regWriteBool (!gpioReadPin sysPinBotoeira s.plant.gpio) button s.plant.regs })
      h.watched.output now
  constructor
  · exact h.watched.control now
  · rw [hkept.1]
    exact h.latest
  · exact h.apart
  · rw [hkept.1]
    exact h.time
  · rw [hkept.2]
    exact h.debouce

theorem Filtered.step (s : Guard) (a : ButtonAction) (h : s.Filtered) (hok : Timely a) :
    (s.step a).Filtered := by
  cases a with
  | botoeira now => exact h.botoeira hok
  | control now => exact h.control now
  | errorProcess => exact ⟨h.watched.errorProcess, h.latest, h.apart, h.time, h.debouce⟩
  | world regs level => exact ⟨h.watched.world regs level, h.latest, h.apart, h.time, h.debouce⟩

/-- However the pin bounces, the presses taken are a hundred milliseconds apart, the first as
much later than the start of the clock, and no press is missed that comes as much later than
all those and finds the pin low. -/
theorem run_debounced (regs : Registers) (g : Gpio) {as : List ButtonAction}
    (hok : ∀ a ∈ as, Timely a) : Run.Always step Debounced (start regs g) as :=
  (Run.Always.of_step Filtered.step (start_filtered regs g)
    (Run.Each.of_mem hok _)).mono fun _ h => ⟨h.apart, h.fires_iff⟩

instance : DecidablePred Timely
  | .botoeira now => inferInstanceAs (Decidable (now.toNat + 100 < 0x10000000000000000))
  | .control _ | .errorProcess | .world .. => isTrue trivial

/-- A press, its bounces and the next press. -/
def bouncingPress : List ButtonAction :=
  [.botoeira 150, .botoeira 151, .botoeira 153, .control 200, .botoeira 300]

theorem run_debounced_bouncingPress :
    Run.Always step Debounced (start ⟨fun _ => 0, 0⟩
      { gpioOn := false, inputRefPin := 0, outputRefPin := 0, dir := 0, level := fun _ => false })
      bouncingPress :=
  run_debounced _ _ (by decide)

end Guard

end Recirculador
