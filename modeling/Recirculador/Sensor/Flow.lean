/-
The measures of `rec_measure` and the pulses of the flow sensor.

The interrupt of the sensor counts pulses and may come between any two statements of
`rec_measure`, which reads the counter in one statement and clears it in the next.  A pulse
between the two is counted and cleared away unread.  Where an `int` of the source would
overflow, the model wraps.
-/
import Recirculador.Common.Run
import Recirculador.Registers.Store
import Recirculador.Sensor.Adc

namespace Recirculador

open SysRegMap Registers

/-- `rec_average` of the three measures. -/
def recAverage (vet : Fin 3 → Int) : BitVec 32 :=
  BitVec.ofInt 32 ((Fin.foldl 3 (fun aux i => aux + vet i) 0).tdiv 3)

/-- A store through `reg_ptr_int`, which leaves the change flag as it is. -/
def storeInt (value : BitVec 32) (addr : Nat) (r : Registers) : Registers :=
  match getIndex addr with
  | none => r
  | some index => r.setInt index value

namespace Flow

/-- The statement of `rec_measure` to come. -/
inductive Statement
  | idle
  | s1TempAux
  | s1Adc
  | s1Mv
  | s1Temp
  | s2TempAux
  | s2Adc
  | s2Mv
  | s2Temp
  | fluxCounter
  | clearCounter
  | valueAux
  | fluxTotalLiters
  | fluxLiters
  deriving DecidableEq

structure State where
  registers : Registers
  /-- `isr_flow_var.counter`. -/
  counter : BitVec 32
  vars : RecGetTemp × RecGetTemp
  next : Statement
  tempAux : BitVec 32
  valueAux : BitVec 32
  /-- The pulses so far. -/
  pulses : Nat
  /-- The sum of the values stored in `Flux_Counter`. -/
  stored : Int

inductive Action
  /-- `rec_measure` is called; the measures are those of the time. -/
  | call (vars : RecGetTemp × RecGetTemp)
  | statement
  | pulse

def State.store (s : State) (value : BitVec 32) (addr : Nat) (next : Statement) : State :=
  { s with registers := storeInt value addr s.registers, next }

def recMeasure (s : State) : State :=
  match s.next with
  | .idle => s
  | .s1TempAux => { s with tempAux := recAverage s.vars.1.measureTempVet, next := .s1Adc }
  | .s1Adc => s.store (recAverage s.vars.1.measureAdcVet) s1Adc .s1Mv
  | .s1Mv => s.store (recAverage s.vars.1.measureMvVet) s1Mv .s1Temp
  | .s1Temp => s.store s.tempAux s1Temp .s2TempAux
  | .s2TempAux => { s with tempAux := recAverage s.vars.2.measureTempVet, next := .s2Adc }
  | .s2Adc => s.store (recAverage s.vars.2.measureAdcVet) s2Adc .s2Mv
  | .s2Mv => s.store (recAverage s.vars.2.measureMvVet) s2Mv .s2Temp
  | .s2Temp => s.store s.tempAux s2Temp .fluxCounter
  | .fluxCounter =>
    { s with
      registers := storeInt s.counter fluxCounter s.registers
      next := .clearCounter
      stored := s.stored + s.counter.toInt }
  | .clearCounter => { s with counter := 0, next := .valueAux }
  | .valueAux =>
    { s with
      valueAux := regReadInt fluxCalib s.registers * regReadInt fluxCounter s.registers
      next := .fluxTotalLiters }
  | .fluxTotalLiters =>
    s.store (regReadInt fluxTotalLiters s.registers + s.valueAux) fluxTotalLiters .fluxLiters
  | .fluxLiters => s.store (60 * s.valueAux) fluxLiters .idle

def recIsrFlow (s : State) : State := { s with counter := s.counter + 1, pulses := s.pulses + 1 }

def step (s : State) : Action → State
  | .call vars => if s.next = .idle then { s with vars, next := .s1TempAux } else s
  | .statement => recMeasure s
  | .pulse => recIsrFlow s

/-- Before the first call, with no pulse counted. -/
def start (r : Registers) (vars : RecGetTemp × RecGetTemp) : State :=
  { registers := r, counter := 0, vars, next := .idle, tempAux := 0, valueAux := 0, pulses := 0,
    stored := 0 }

/-! ## The pulses -/

/-- A pulse is not between the read and the clear, and does not overflow the counter. -/
def Counted (s : State) : Action → Prop
  | .pulse => s.next ≠ .clearCounter ∧ s.counter ≠ BitVec.intMax 32
  | .call _ => True
  | .statement => True

/-- What an action takes from the count. -/
def loss (s : State) : Action → Nat
  | .pulse =>
    if s.next = .clearCounter then 1 else if s.counter = BitVec.intMax 32 then 0x100000000 else 0
  | .call _ => 0
  | .statement => 0

theorem loss_eq_zero_iff (s : State) (a : Action) : loss s a = 0 ↔ Counted s a := by
  cases a with
  | call vars => exact iff_of_true rfl trivial
  | statement => exact iff_of_true rfl trivial
  | pulse =>
    simp only [loss, Counted]
    split
    · rename_i h
      exact iff_of_false (by decide) fun hc => hc.1 h
    · rename_i h
      split
      · rename_i hmax
        exact iff_of_false (by decide) fun hc => hc.2 hmax
      · rename_i hmax
        exact iff_of_true rfl ⟨h, hmax⟩

/-- What is on the counter and not yet in the sum. -/
def unread (s : State) : Int := if s.next = .clearCounter then 0 else s.counter.toInt

/-- The pulses are in the sum, on the counter or lost. -/
def Account (s : State) (n : Nat) : Prop := (s.pulses : Int) = s.stored + unread s + n

theorem toInt_add_one {c : BitVec 32} (h : c ≠ BitVec.intMax 32) :
    (c + 1).toInt = c.toInt + 1 := by
  have hne : c.toInt ≠ 0x7FFFFFFF := fun he => h (BitVec.eq_of_toInt_eq he)
  have hlow := BitVec.le_toInt c
  have hhigh := BitVec.toInt_lt (x := c)
  have hone : (1 : BitVec 32).toInt = 1 := rfl
  rw [BitVec.toInt_add, hone, Int.bmod_eq_of_le (by omega) (by omega)]

/-- The statements move the count from the counter to the sum. -/
theorem recMeasure_sum (s : State) : (recMeasure s).pulses = s.pulses ∧
    (recMeasure s).stored + unread (recMeasure s) = s.stored + unread s := by
  cases hnext : s.next with
  | idle | s1TempAux | s1Adc | s1Mv | s1Temp | s2TempAux | s2Adc | s2Mv | s2Temp | valueAux
  | fluxTotalLiters | fluxLiters => simp [recMeasure, unread, State.store, hnext]
  | fluxCounter => simp [recMeasure, unread, hnext]
  | clearCounter => simp [recMeasure, unread, hnext]

theorem Account.step (s : State) (a : Action) (n : Nat) (h : Account s n) :
    Account (step s a) (n + loss s a) := by
  cases a with
  | call vars =>
    show Account (if s.next = .idle then _ else s) (n + 0)
    split
    · rename_i hidle
      rw [Account, unread, hidle] at h
      exact h
    · exact h
  | statement =>
    obtain ⟨hpulses, hsum⟩ := recMeasure_sum s
    rw [Account, Flow.step, hpulses, hsum]
    exact h
  | pulse =>
    rw [Account] at h
    rw [Account, Flow.step, recIsrFlow]
    show ((s.pulses + 1 : Nat) : Int) = _
    by_cases hwindow : s.next = .clearCounter
    · rw [unread, if_pos hwindow] at h
      rw [unread, if_pos hwindow, loss, if_pos hwindow]
      show ((s.pulses + 1 : Nat) : Int) = s.stored + 0 + ((n + 1 : Nat) : Int)
      omega
    · rw [unread, if_neg hwindow] at h
      rw [unread, if_neg hwindow, loss, if_neg hwindow]
      show ((s.pulses + 1 : Nat) : Int) = s.stored + (s.counter + 1).toInt + _
      by_cases hmax : s.counter = BitVec.intMax 32
      · have hbefore : s.counter.toInt = 0x7FFFFFFF := by rw [hmax]; rfl
        have hafter : (s.counter + 1).toInt = -0x80000000 := by rw [hmax]; rfl
        rw [if_pos hmax]
        omega
      · rw [if_neg hmax, toInt_add_one hmax]
        omega

/-! ## The total -/

theorem regReadInt_storeInt {j k : Nat} (hj : j < 128) (hk : k < 128) (value : BitVec 32)
    (r : Registers) : regReadInt (offsetInt + j) (storeInt value (offsetInt + k) r) =
      if j = k then value else regReadInt (offsetInt + j) r := by
  rw [storeInt, regReadInt, regReadInt, getIndex_int hj, getIndex_int hk]
  exact setInt_intRegVet r k j value

/-- What the statements to come add to the total. -/
def toAdd (calib : BitVec 32) (s : State) : BitVec 32 :=
  match s.next with
  | .clearCounter => calib * regReadInt fluxCounter s.registers
  | .valueAux => calib * regReadInt fluxCounter s.registers
  | .fluxTotalLiters => s.valueAux
  | _ => 0#32

structure Totalled (calib : BitVec 32) (s : State) : Prop where
  kept : regReadInt fluxCalib s.registers = calib
  total : regReadInt fluxTotalLiters s.registers + toAdd calib s =
    calib * BitVec.ofInt 32 s.stored

variable {calib : BitVec 32} {s : State}

theorem toAdd_eq_zero (hnext : s.next ∉ [.clearCounter, .valueAux, .fluxTotalLiters]) :
    toAdd calib s = 0#32 := by
  rw [toAdd]
  split <;> first | rfl | (rename_i he; rw [he] at hnext; exact absurd (by decide) hnext)

/-- A store in no register that counts, with nothing to add before or after it. -/
theorem Totalled.store (h : Totalled calib s) {k : Nat} (hk : k < 128)
    (hother : 3 ≠ k ∧ 14 ≠ k) {next : Statement} (hnone : toAdd calib s = 0#32)
    (hnext : next ∉ [.clearCounter, .valueAux, .fluxTotalLiters]) (value : BitVec 32) :
    Totalled calib (s.store value (offsetInt + k) next) := by
  have htotal := h.total
  rw [hnone] at htotal
  refine ⟨?_, ?_⟩
  · show regReadInt (offsetInt + 14) (storeInt value (offsetInt + k) s.registers) = calib
    rw [regReadInt_storeInt (by decide) hk, if_neg hother.2]
    exact h.kept
  · rw [toAdd_eq_zero hnext]
    show regReadInt (offsetInt + 3) (storeInt value (offsetInt + k) s.registers) + 0#32 = _
    rw [regReadInt_storeInt (by decide) hk, if_neg hother.1]
    exact htotal

/-- A statement that stores nothing, and changes nothing of what is to be added. -/
theorem Totalled.local (h : Totalled calib s) {s' : State} (hregisters : s'.registers = s.registers)
    (hstored : s'.stored = s.stored) (hadd : toAdd calib s' = toAdd calib s) :
    Totalled calib s' := by
  refine ⟨hregisters ▸ h.kept, ?_⟩
  rw [hregisters, hstored, hadd]
  exact h.total

/-- The new value of `Flux_Counter` is to be added. -/
theorem Totalled.read (h : Totalled calib s) (hnone : toAdd calib s = 0#32) :
    Totalled calib { s with
      registers := storeInt s.counter fluxCounter s.registers
      next := .clearCounter
      stored := s.stored + s.counter.toInt } := by
  have htotal := h.total
  rw [hnone, BitVec.add_zero] at htotal
  refine ⟨?_, ?_⟩
  · show regReadInt (offsetInt + 14) (storeInt s.counter (offsetInt + 1) s.registers) = calib
    rw [regReadInt_storeInt (by decide) (by decide)]
    exact h.kept
  · show regReadInt (offsetInt + 3) (storeInt s.counter (offsetInt + 1) s.registers) +
      calib * regReadInt (offsetInt + 1) (storeInt s.counter (offsetInt + 1) s.registers) = _
    rw [regReadInt_storeInt (by decide) (by decide), regReadInt_storeInt (by decide) (by decide),
      BitVec.ofInt_add, BitVec.ofInt_toInt, BitVec.mul_add, ← htotal]
    rfl

/-- The value is added. -/
theorem Totalled.add (h : Totalled calib s) (hadd : toAdd calib s = s.valueAux) :
    Totalled calib (s.store (regReadInt fluxTotalLiters s.registers + s.valueAux) fluxTotalLiters
      .fluxLiters) := by
  have htotal := h.total
  rw [hadd] at htotal
  refine ⟨?_, ?_⟩
  · show regReadInt (offsetInt + 14) (storeInt _ (offsetInt + 3) s.registers) = calib
    rw [regReadInt_storeInt (by decide) (by decide)]
    exact h.kept
  · show regReadInt (offsetInt + 3) (storeInt _ (offsetInt + 3) s.registers) + 0#32 = _
    rw [regReadInt_storeInt (by decide) (by decide), if_pos rfl, htotal, BitVec.add_zero]
    rfl

theorem Totalled.recMeasure (h : Totalled calib s) : Totalled calib (recMeasure s) := by
  have hnone : s.next ∉ [.clearCounter, .valueAux, .fluxTotalLiters] → toAdd calib s = 0#32 :=
    toAdd_eq_zero
  rw [Flow.recMeasure]
  cases hnext : s.next with
  | idle => exact h
  | s1TempAux | s2TempAux | clearCounter => exact h.local rfl rfl (by rw [toAdd, toAdd, hnext])
  | s1Adc | s1Mv | s1Temp | s2Adc | s2Mv | s2Temp | fluxLiters =>
    exact h.store (by decide) (by decide) (hnone (by rw [hnext]; decide)) (by decide) _
  | fluxCounter => exact h.read (hnone (by rw [hnext]; decide))
  | valueAux =>
    refine h.local rfl rfl ?_
    rw [toAdd, toAdd, hnext]
    show regReadInt fluxCalib s.registers * _ = calib * _
    rw [h.kept]
  | fluxTotalLiters => exact h.add (by rw [toAdd, hnext])

theorem Totalled.step (h : Totalled calib s) (a : Action) : Totalled calib (step s a) := by
  cases a with
  | call vars =>
    show Totalled calib (if s.next = .idle then _ else s)
    split
    · rename_i hidle
      exact h.local rfl rfl (by rw [toAdd, toAdd, hidle])
    · exact h
  | statement => exact h.recMeasure
  | pulse => exact h.local rfl rfl rfl

/-! ## Runs -/

/-- The pulses so far are the values that were stored and the count since. -/
def Conserves (s : State) : Prop := (s.pulses : Int) = s.stored + s.counter.toInt

instance (s : State) : Decidable (Conserves s) := inferInstanceAs (Decidable (_ = _))

/-- The total is so much for each of the pulses stored, unless it is yet to be added or does
not fit. -/
def Totals (calib : BitVec 32) (s : State) : Prop :=
  s.next ≠ .valueAux → s.next ≠ .fluxTotalLiters →
    CheckedInt.InRange (calib.toInt * s.stored) →
    (regReadInt fluxTotalLiters s.registers).toInt = calib.toInt * s.stored

theorem Totalled.totals (h : Totalled calib s) (hread : s.next ≠ .clearCounter) :
    Totals calib s := by
  intro hvalue htotal hrange
  obtain ⟨hlow, hhigh⟩ := hrange
  have hsum := h.total
  have hnone : toAdd calib s = 0#32 := toAdd_eq_zero (by simp [hread, hvalue, htotal])
  rw [hnone, BitVec.add_zero] at hsum
  have hproduct : calib * BitVec.ofInt 32 s.stored = BitVec.ofInt 32 (calib.toInt * s.stored) := by
    rw [BitVec.ofInt_mul, BitVec.ofInt_toInt]
  rw [hsum, hproduct, BitVec.toInt_ofInt]
  exact Int.bmod_eq_of_le (by omega) (by omega)

/-- No pulse is missing, at the end of any run that is not between the read and the clear,
just as long as none of them came there or on a full counter. -/
theorem run_conserves_iff {r : Registers} {calib : BitVec 32} (vars : RecGetTemp × RecGetTemp)
    (hcalib : regReadInt fluxCalib r = calib) (htotal : regReadInt fluxTotalLiters r = 0)
    (as : List Action) (hread : (Run.final step (start r vars) as).next ≠ .clearCounter) :
    (Conserves (Run.final step (start r vars) as) ∧
      Totals calib (Run.final step (start r vars) as)) ↔
      Run.Each step Counted (start r vars) as := by
  have hstart : Account (start r vars) 0 := rfl
  have haccount := Run.total_of_step Account Account.step hstart as
  have hkept : Totalled calib (start r vars) := by
    refine ⟨hcalib, ?_⟩
    show regReadInt fluxTotalLiters r + 0#32 = calib * BitVec.ofInt 32 0
    rw [htotal]
    simp
  have htotals := (Run.final_of_invariant (Totalled calib) (fun s a h => h.step a) hkept as).totals
    hread
  have hcounted : Run.total step loss (start r vars) as = 0 ↔
      Run.Each step Counted (start r vars) as := by
    rw [Run.total_eq_zero_iff]
    exact Run.Each.iff_of_invariant (fun _ => True) (fun _ _ _ _ => trivial)
      (fun s a _ => loss_eq_zero_iff s a) trivial as
  rw [Account, unread, if_neg hread] at haccount
  rw [← hcounted, Conserves]
  constructor
  · rintro ⟨hconserves, _⟩
    omega
  · intro hnone
    exact ⟨by omega, htotals⟩

theorem run_conserves_call :
    Conserves (Run.final step (start (storeInt 5 fluxCalib ⟨fun _ => 0, 0⟩)
      (recGetTempVar, recGetTempVar)) (.pulse :: .call (recGetTempVar, recGetTempVar) ::
        List.replicate 13 .statement)) ∧
      Totals 5 (Run.final step (start (storeInt 5 fluxCalib ⟨fun _ => 0, 0⟩)
        (recGetTempVar, recGetTempVar)) (.pulse :: .call (recGetTempVar, recGetTempVar) ::
          List.replicate 13 .statement)) :=
  (run_conserves_iff (recGetTempVar, recGetTempVar) (by decide) (by decide)
    (.pulse :: .call (recGetTempVar, recGetTempVar) :: List.replicate 13 .statement)
    (by decide)).mpr ⟨⟨by decide, by decide⟩, by simp [Run.Each, Counted, List.replicate]⟩

/-- The pulse that comes after the read is on no account. -/
theorem not_conserves_pulse : ¬ ∀ as : List Action,
    (Run.final step (start ⟨fun _ => 0, 0⟩ (recGetTempVar, recGetTempVar)) as).next ≠
      .clearCounter →
    Conserves (Run.final step (start ⟨fun _ => 0, 0⟩ (recGetTempVar, recGetTempVar)) as) := by
  intro h
  have hsum := h (.call (recGetTempVar, recGetTempVar) ::
    (List.replicate 9 .statement ++ [.pulse, .statement])) (by decide)
  revert hsum
  decide

end Flow

end Recirculador
