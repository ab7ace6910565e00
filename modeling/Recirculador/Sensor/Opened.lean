/-
A sensor that is missing.

Without its sensor a divider stays above the voltage of an open circuit, where the resistance
comes out negative and, up to 2460 mV, the temperature as -0.56.  No temperature is above that
of the table's last entry, so the error task never finds an open circuit with the limits of
the factory, and calls the missing sensor a short circuit.
-/
import Recirculador.Pump.Errors
import Recirculador.Sensor.Means

namespace Recirculador

open SysRegMap Registers

namespace Sensors

/-- The last three samples are those of a divider without its sensor.  About 2500 mV the
products of the source do not fit an `int`, and what is read there is not defined. -/
def Opened (samples : List Sample) : Prop :=
  ∀ x ∈ samples.take 3, 1880 ≤ x.mv ∧ x.mv ≤ 2460

/-- The limit of an open circuit is not below the table, and that of a short circuit is above
what an open circuit reads. -/
structure Limits (desconnect shortCircuit : Nat) (r : Registers) : Prop where
  desconnect : 12500 ≤ (regReadInt desconnect r).toInt
  shortCircuit : -56 < (regReadInt shortCircuit r).toInt

theorem mean_opened {vet : Fin 3 → Int} {place : Fin 3} {samples : List Sample}
    (h : Window.Holds vet place (samples.map Sample.temp)) (hsound : ∀ x ∈ samples, x.Sound)
    (hopen : Opened samples) : Sample.mean Sample.temp samples = -56 := by
  obtain ⟨a, b, c, habc⟩ := Sample.exists_three h
  have htemp : ∀ x ∈ samples.take 3, x.temp = -56 := by
    intro x hx
    obtain ⟨hlow, hhigh⟩ := hopen x hx
    exact (hsound x (List.mem_of_mem_take hx)).opened hlow (by omega)
  rw [habc] at htemp
  rw [Sample.mean, habc]
  simp only [List.map_cons, List.map_nil, htemp a (by simp), htemp b (by simp), htemp c (by simp)]
  rfl

variable {adcAddr mvAddr tempAddr desconnect shortCircuit : Nat} {samples : List Sample}
  {r : Registers}

theorem told_not_open (h : SensorTold adcAddr mvAddr tempAddr samples r)
    (hlimits : Limits desconnect shortCircuit r) (high low : Nat) :
    recErrorTest tempAddr desconnect shortCircuit high low r ≠ sysErrorS1OpenCircuit := by
  have hdesconnect := hlimits.desconnect
  have htemp := h.range.2
  unfold recErrorTest
  dsimp only
  rw [if_neg (by rw [BitVec.slt_iff_toInt_lt]; omega)]
  split
  · decide
  split
  · decide
  split
  · decide
  · decide

theorem told_short (h : SensorTold adcAddr mvAddr tempAddr samples r)
    (hlimits : Limits desconnect shortCircuit r)
    (hmean : Sample.mean Sample.temp samples = -56) (high low : Nat) :
    recErrorTest tempAddr desconnect shortCircuit high low r = sysErrorS1ShortCircuit := by
  have hdesconnect := hlimits.desconnect
  have hshort := hlimits.shortCircuit
  have htemp := h.temp
  rw [hmean] at htemp
  unfold recErrorTest
  dsimp only
  rw [if_neg (by rw [BitVec.slt_iff_toInt_lt]; omega), if_pos]
  rw [BitVec.slt_iff_toInt_lt]
  omega

/-- With limits such as those of the factory no sensor is ever reported open: one that is
missing while three samples are taken is reported as a short circuit. -/
theorem run_opened {r : Registers} {as : List SensorAction} {s : Sensors}
    {t : List Sample × List Sample} (hrun : as.foldlM step (start r) = .ok s)
    (hidle : s.flow.next = .idle) (ht : s.taken = some t)
    (hlimits1 : Limits s1ErrorDesconnect s1ErrorShortCircuit s.flow.registers)
    (hlimits2 : Limits s2ErrorDesconnect s2ErrorShortCircuit s.flow.registers) :
    (recS1ErrorTest s.flow.registers ≠ sysErrorS1OpenCircuit ∧
      (Opened t.1 → recS1ErrorTest s.flow.registers = sysErrorS1ShortCircuit)) ∧
    recS2ErrorTest s.flow.registers ≠ sysErrorS1OpenCircuit ∧
      (Opened t.2 → recS2ErrorTest s.flow.registers = sysErrorS1ShortCircuit) := by
  have hkept := run_kept hrun
  obtain ⟨htold1, htold2⟩ := hkept.told hidle ht
  obtain ⟨-, ⟨hheld1, hheld2⟩, hsound1, hsound2⟩ := hkept.call t ht
  exact ⟨⟨told_not_open htold1 hlimits1 _ _, fun hopen =>
      told_short htold1 hlimits1 (mean_opened hheld1.temp hsound1 hopen) _ _⟩,
    told_not_open htold2 hlimits2 _ _, fun hopen =>
      told_short htold2 hlimits2 (mean_opened hheld2.temp hsound2 hopen) _ _⟩

/-- The registers with the limits of the factory. -/
def factoryLimits : Registers :=
  storeInt 20000 s1ErrorDesconnect (storeInt 20000 s2ErrorDesconnect ⟨fun _ => 0, 0⟩)

/-- Three readings without the first sensor, and a call. -/
def openCalls : List SensorAction :=
  [sampling 2500 1870, sampling 2800 1850, sampling 3000 1840] ++ measureCall

theorem run_opened_openCalls : ∃ s, openCalls.foldlM step (start factoryLimits) = .ok s ∧
    recS1ErrorTest s.flow.registers = sysErrorS1ShortCircuit ∧
    recS2ErrorTest s.flow.registers ≠ sysErrorS1OpenCircuit := by
  refine ⟨_, rfl, ?_⟩
  have h := run_opened (show openCalls.foldlM step (start factoryLimits) = .ok _ from rfl) rfl rfl
    ⟨by decide, by decide⟩ ⟨by decide, by decide⟩
  have hopened : Opened ([⟨3000, 2347, -56⟩, ⟨2800, 2190, -56⟩, ⟨2500, 1955, -56⟩] ++
      List.replicate 3 ⟨0, 0, 0⟩) := by
    unfold Opened
    decide
  exact ⟨h.1.2 hopened, h.2.1⟩

end Sensors

end Recirculador
