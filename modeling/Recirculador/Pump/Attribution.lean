/-
Whose error it is.

`Errors` has a group of bits for each sensor.  The two tests are copies of each other, and
the one of sensor 2 still answers with the bits of sensor 1: its own group is never
written.
-/
import Recirculador.Pump.Errors
import Recirculador.Registers.Scalar

namespace Recirculador

open SysRegMap Registers

/-- A sensor's measure is beyond one of its four thresholds. -/
def OutsideLimits (temp desconnect shortCircuit high low : Nat) (r : Registers) : Prop :=
  let measure := regReadInt temp r
  (regReadInt desconnect r).toInt < measure.toInt ∨
    measure.toInt < (regReadInt shortCircuit r).toInt ∨
    (regReadInt high r).toInt < measure.toInt ∨
    measure.toInt < (regReadInt low r).toInt

/-- The registers one sensor's test reads. -/
def s1Inputs : List Nat := [s1Temp, s1ErrorDesconnect, s1ErrorShortCircuit, s1ErrorHigh, s1ErrorLow]

def s2Inputs : List Nat := [s2Temp, s2ErrorDesconnect, s2ErrorShortCircuit, s2ErrorHigh, s2ErrorLow]

namespace Registers

def S1Outside (r : Registers) : Prop :=
  OutsideLimits s1Temp s1ErrorDesconnect s1ErrorShortCircuit s1ErrorHigh s1ErrorLow r

def S2Outside (r : Registers) : Prop :=
  OutsideLimits s2Temp s2ErrorDesconnect s2ErrorShortCircuit s2ErrorHigh s2ErrorLow r

/-- Two contents agree on some registers. -/
def SameOn (addrs : List Nat) (r r' : Registers) : Prop :=
  ∀ addr ∈ addrs, regReadInt addr r = regReadInt addr r'

end Registers

def s1ErrorBits : BitVec 32 :=
  sysErrorS1High ||| sysErrorS1Low ||| sysErrorS1ShortCircuit ||| sysErrorS1OpenCircuit

def s2ErrorBits : BitVec 32 :=
  sysErrorS2High ||| sysErrorS2Low ||| sysErrorS2ShortCircuit ||| sysErrorS2OpenCircuit

namespace Plant

/-- The bits of `Errors` in `mask` after a run of the error task. -/
def errorBits (mask : BitVec 32) (p : Plant) : BitVec 32 :=
  regReadInt errors (recErrorProcess p).regs &&& mask

/-- A sensor has a bit set exactly when it is outside its own limits. -/
structure Diagnosed (p : Plant) : Prop where
  s1 : p.errorBits s1ErrorBits ≠ 0 ↔ p.regs.S1Outside
  s2 : p.errorBits s2ErrorBits ≠ 0 ↔ p.regs.S2Outside

/-- In both states the bits tell of the limits, and they tell the two states apart only by
what the sensor they belong to reads. -/
structure Attributed (p q : Plant) : Prop where
  left : p.Diagnosed
  right : q.Diagnosed
  s1 : SameOn s1Inputs p.regs q.regs → p.errorBits s1ErrorBits = q.errorBits s1ErrorBits
  s2 : SameOn s2Inputs p.regs q.regs → p.errorBits s2ErrorBits = q.errorBits s2ErrorBits

/-! ## The two tests -/

theorem recErrorTest_zero_iff (temp desconnect shortCircuit high low : Nat) (r : Registers) :
    recErrorTest temp desconnect shortCircuit high low r = 0 ↔
      ¬ OutsideLimits temp desconnect shortCircuit high low r := by
  simp only [recErrorTest, OutsideLimits, BitVec.slt_iff_toInt_lt]
  split
  · rename_i hopen
    exact iff_of_false (by decide) fun h => h (Or.inl hopen)
  split
  · rename_i hshort
    exact iff_of_false (by decide) fun h => h (Or.inr (Or.inl hshort))
  split
  · rename_i hhigh
    exact iff_of_false (by decide) fun h => h (Or.inr (Or.inr (Or.inl hhigh)))
  split
  · rename_i hlow
    exact iff_of_false (by decide) fun h => h (Or.inr (Or.inr (Or.inr hlow)))
  · rename_i hopen hshort hhigh hlow
    refine iff_of_true rfl ?_
    rintro (h | h | h | h)
    · exact hopen h
    · exact hshort h
    · exact hhigh h
    · exact hlow h

/-- Whatever the thresholds, a test answers with bits of sensor 1. -/
theorem recErrorTest_bits (temp desconnect shortCircuit high low : Nat) (r : Registers) :
    let value := recErrorTest temp desconnect shortCircuit high low r
    value &&& s1ErrorBits = value ∧ value &&& s2ErrorBits = 0 := by
  dsimp only [recErrorTest]
  split
  · decide
  split
  · decide
  split
  · decide
  split
  · decide
  · decide

theorem recErrorTest_congr {temp desconnect shortCircuit high low : Nat} {r r' : Registers}
    (h : SameOn [temp, desconnect, shortCircuit, high, low] r r') :
    recErrorTest temp desconnect shortCircuit high low r =
      recErrorTest temp desconnect shortCircuit high low r' := by
  simp only [SameOn, List.forall_mem_cons] at h
  obtain ⟨htemp, hdesconnect, hshort, hhigh, hlow, -⟩ := h
  simp only [recErrorTest, htemp, hdesconnect, hshort, hhigh, hlow]

/-! ## The register -/

theorem regReadInt_recErrorProcess (p : Plant) : regReadInt errors (recErrorProcess p).regs =
    recS1ErrorTest p.regs ||| recS2ErrorTest p.regs := by
  have hread := regWriteScalar_same .int (show 13 < 128 by omega)
    (sysErrorNo ||| recS1ErrorTest p.regs ||| recS2ErrorTest p.regs ||| recCurrentErrorTest) p.regs
  rw [← regReadScalar_eq .int (show 13 < 128 by omega)] at hread
  refine Eq.trans hread ?_
  show 0#32 ||| recS1ErrorTest p.regs ||| recS2ErrorTest p.regs ||| 0#32 = _
  rw [BitVec.or_zero, BitVec.zero_or]

theorem errorBits_s1 (p : Plant) :
    p.errorBits s1ErrorBits = recS1ErrorTest p.regs ||| recS2ErrorTest p.regs := by
  rw [errorBits, regReadInt_recErrorProcess, BitVec.and_or_distrib_right, recS1ErrorTest,
    recS2ErrorTest, (recErrorTest_bits _ _ _ _ _ p.regs).1, (recErrorTest_bits _ _ _ _ _ p.regs).1]

/-- The bits of sensor 2 are never set. -/
theorem errorBits_s2 (p : Plant) : p.errorBits s2ErrorBits = 0 := by
  rw [errorBits, regReadInt_recErrorProcess, BitVec.and_or_distrib_right, recS1ErrorTest,
    recS2ErrorTest, (recErrorTest_bits _ _ _ _ _ p.regs).2, (recErrorTest_bits _ _ _ _ _ p.regs).2]
  rfl

theorem errorBits_s1_inside {p : Plant} (h : ¬ p.regs.S2Outside) :
    p.errorBits s1ErrorBits = recS1ErrorTest p.regs := by
  have hnone : recS2ErrorTest p.regs = 0 := (recErrorTest_zero_iff _ _ _ _ _ p.regs).mpr h
  rw [errorBits_s1, hnone]
  exact BitVec.or_zero

/-- A single state is told right exactly as long as sensor 2 has nothing to tell. -/
theorem diagnosed_iff (p : Plant) : p.Diagnosed ↔ ¬ p.regs.S2Outside := by
  constructor
  · intro h houtside
    exact h.s2.mpr houtside (errorBits_s2 p)
  · intro h
    constructor
    · rw [errorBits_s1_inside h, Ne, recS1ErrorTest, recErrorTest_zero_iff]
      exact Classical.not_not
    · exact iff_of_false (not_not_intro (errorBits_s2 p)) h

theorem attributed_iff (p q : Plant) :
    Attributed p q ↔ ¬ p.regs.S2Outside ∧ ¬ q.regs.S2Outside := by
  constructor
  · intro h
    exact ⟨(diagnosed_iff p).mp h.left, (diagnosed_iff q).mp h.right⟩
  · rintro ⟨hp, hq⟩
    refine ⟨(diagnosed_iff p).mpr hp, (diagnosed_iff q).mpr hq, fun hsame => ?_, fun _ => ?_⟩
    · rw [errorBits_s1_inside hp, errorBits_s1_inside hq]
      exact recErrorTest_congr hsame
    · rw [errorBits_s2, errorBits_s2]

/-- Sensor 2 too hot, all else 0: the open circuit of sensor 1 is reported. -/
theorem notAttributed_s2 : ¬ ∀ p q : Plant, Attributed p q := by
  intro hall
  let hot := setupPlant { regVet := fun a => if a = 308 then 1 else 0, changeFlag := 0 }
    { gpioOn := false, inputRefPin := 0, outputRefPin := 0, dir := 0, level := fun _ => false }
  have houtside : hot.regs.S2Outside := Or.inl (by decide)
  exact (hall hot hot).left.s2.mpr houtside (errorBits_s2 hot)

end Plant

end Recirculador
