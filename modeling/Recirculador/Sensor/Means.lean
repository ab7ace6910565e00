/-
What the temperature registers tell.

`rec_get_Temp` keeps the last three samples of each sensor and `rec_measure` stores their mean,
one register a statement.  Whatever the converter delivers, once a call is over the registers
are the means of the samples it found, and a temperature is one of the table's.
-/
import Mathlib.Algebra.BigOperators.Fin
import Mathlib.Algebra.Group.Fin.Basic
import Mathlib.Algebra.Group.Units.Equiv
import Recirculador.Sensor.Celsius
import Recirculador.Sensor.Flow

/-! ## The last values written into a ring

Each value is written over the oldest, one place after the one before.  Read backwards from that
place the ring holds the values in the order they came, and their sum needs no place at all. -/

namespace Window

universe u

variable {α : Type u} {n : Nat}

/-- Backwards from `place` the ring holds the last values, the latest first. -/
def Holds (ring : Fin n → α) (place : Fin n) (last : List α) : Prop :=
  ∀ i : Fin n, last[i.val]? = some (ring (place - i))

variable {ring : Fin n → α} {place : Fin n} {last : List α}

theorem Holds.take (h : Holds ring place last) :
    last.take n = List.ofFn fun i => ring (place - i) := by
  apply List.ext_getElem?
  intro i
  rw [List.getElem?_take, List.getElem?_ofFn]
  split
  · rename_i hi
    exact h ⟨i, hi⟩
  · rfl

variable [NeZero n]

theorem Holds.push (h : Holds ring place last) (value : α) :
    Holds (fun i => if i = place + 1 then value else ring i) (place + 1) (value :: last) := by
  rintro ⟨i, hi⟩
  cases i with
  | zero =>
    have hzero : (⟨0, hi⟩ : Fin n) = 0 := Fin.ext rfl
    rw [hzero, sub_zero]
    show some value = some (if place + 1 = place + 1 then value else ring (place + 1))
    rw [if_pos rfl]
  | succ i =>
    have hsucc : (⟨i + 1, hi⟩ : Fin n) = ⟨i, Nat.lt_of_succ_lt hi⟩ + 1 := by
      apply Fin.ext
      rw [Fin.val_add, Fin.val_one', Nat.add_mod_mod, Nat.mod_eq_of_lt hi]
    have hother : place + 1 - ⟨i + 1, hi⟩ ≠ place + 1 := by
      rw [ne_eq, sub_eq_self, Fin.ext_iff, Fin.val_zero]
      exact Nat.succ_ne_zero i
    show last[i]? = some (if place + 1 - ⟨i + 1, hi⟩ = place + 1 then value
      else ring (place + 1 - ⟨i + 1, hi⟩))
    rw [if_neg hother, hsucc, add_sub_add_right_eq_sub]
    exact h ⟨i, Nat.lt_of_succ_lt hi⟩

/-- The order does not matter to the sum. -/
theorem Holds.sum [AddCommMonoid α] (h : Holds ring place last) :
    ∑ i, ring i = (last.take n).sum := by
  rw [h.take, List.sum_ofFn]
  exact ((Equiv.subLeft place).sum_comp ring).symm

end Window

namespace Recirculador

open SysRegMap Registers CheckedInt

/-! ## The average -/

theorem foldl_three (vet : Fin 3 → Int) :
    Fin.foldl 3 (fun aux i => aux + vet i) 0 = ∑ i, vet i := by
  simp [Fin.foldl_succ, Fin.sum_univ_three]

/-- One reading of a sensor. -/
structure Sample where
  adc : Int
  mv : Int
  temp : Int

namespace Sample

/-- What a reading that is converted at all is known to be. -/
structure Sound (x : Sample) : Prop where
  adc : 0 ≤ x.adc ∧ x.adc ≤ 4095
  mv : -2147484 ≤ x.mv ∧ x.mv ≤ 2147484
  temp : -5500 ≤ x.temp ∧ x.temp ≤ 12500
  /-- The vectors are zero before they are filled. -/
  converted : x.mv ≠ 0 → convertMvToCelcius setupThermistor (toShort x.mv) = .ok x.temp

/-- The mean of the last three samples, rounded towards zero. -/
def mean (f : Sample → Int) (samples : List Sample) : Int := ((samples.take 3).map f).sum.tdiv 3

end Sample

/-- The sample `rec_get_Temp` has stored last. -/
def RecGetTemp.latest (var : RecGetTemp) : Sample where
  adc := var.measureAdcVet var.counter
  mv := var.measureMvVet var.counter
  temp := var.measureTempVet var.counter

/-- The vectors hold the last three samples. -/
structure RecGetTemp.Held (var : RecGetTemp) (samples : List Sample) : Prop where
  adc : Window.Holds var.measureAdcVet var.counter (samples.map Sample.adc)
  mv : Window.Holds var.measureMvVet var.counter (samples.map Sample.mv)
  temp : Window.Holds var.measureTempVet var.counter (samples.map Sample.temp)

namespace Sample

variable {f : Sample → Int} {samples : List Sample} {vet : Fin 3 → Int} {place : Fin 3}

theorem exists_three (h : Window.Holds vet place (samples.map f)) :
    ∃ a b c, samples.take 3 = [a, b, c] := by
  refine List.length_eq_three.mp ?_
  have htake := congrArg List.length h.take
  rwa [← List.map_take, List.length_map, List.length_ofFn] at htake

theorem mean_range (h : Window.Holds vet place (samples.map f)) {low high : Int}
    (hall : ∀ x ∈ samples.take 3, low ≤ f x ∧ f x ≤ high) :
    low ≤ mean f samples ∧ mean f samples ≤ high := by
  obtain ⟨a, b, c, habc⟩ := exists_three h
  rw [habc] at hall
  have ha := hall a (by simp)
  have hb := hall b (by simp)
  have hc := hall c (by simp)
  have hsum : ((samples.take 3).map f).sum = f a + f b + f c := by
    rw [habc]
    simp [add_assoc]
  have hlow : (3 * low).tdiv 3 ≤ (f a + f b + f c).tdiv 3 :=
    Int.tdiv_le_tdiv (by decide) (by omega)
  have hhigh : (f a + f b + f c).tdiv 3 ≤ (3 * high).tdiv 3 :=
    Int.tdiv_le_tdiv (by decide) (by omega)
  rw [Int.mul_tdiv_cancel_left _ (by decide)] at hlow hhigh
  rw [mean, hsum]
  exact ⟨hlow, hhigh⟩

/-- The average of a vector is the mean of the samples it holds. -/
theorem recAverage_toInt (h : Window.Holds vet place (samples.map f)) {low high : Int}
    (hlow : -0x80000000 ≤ low) (hhigh : high < 0x80000000)
    (hall : ∀ x ∈ samples, low ≤ f x ∧ f x ≤ high) :
    (recAverage vet).toInt = mean f samples := by
  have hrange := mean_range h fun x hx => hall x (List.mem_of_mem_take hx)
  have hmean : recAverage vet = BitVec.ofInt 32 (mean f samples) := by
    rw [recAverage, foldl_three, h.sum, mean, List.map_take]
  rw [hmean, BitVec.toInt_ofInt]
  exact Int.bmod_eq_of_le (by omega) (by omega)

end Sample

/-! ## Samples -/

variable {adcs : Adcs} {adc : AdcT} {dat : Dat} {var var' : RecGetTemp} {samples : List Sample}

theorem adcConvertToMiliVolts_range {a mv : Int} (h : adcConvertToMiliVolts adc a = .ok mv) :
    -2147484 ≤ mv ∧ mv ≤ 2147484 := by
  obtain ⟨_, -, hscale⟩ := bind_eq_ok_iff.mp h
  obtain ⟨value, -, hrest⟩ := bind_eq_ok_iff.mp hscale
  obtain ⟨product, hmul, hdiv⟩ := bind_eq_ok_iff.mp hrest
  obtain ⟨hrange, rfl⟩ := mul_eq_ok_iff.mp hmul
  obtain ⟨-, -, rfl⟩ := div_eq_ok_iff.mp hdiv
  obtain ⟨hlow, hhigh⟩ := hrange
  have hbelow : (-2147484000 : Int).tdiv 1000 ≤ (972 * value).tdiv 1000 :=
    Int.tdiv_le_tdiv (by decide) (by omega)
  have habove : (972 * value).tdiv 1000 ≤ (2147484000 : Int).tdiv 1000 :=
    Int.tdiv_le_tdiv (by decide) (by omega)
  exact ⟨hbelow, habove⟩

/-- A temperature is one of the table's, or the one reported for a negative resistance. -/
theorem convertMvToCelcius_range {m c : Int}
    (h : convertMvToCelcius setupThermistor m = .ok c) : -5500 ≤ c ∧ c ≤ 12500 := by
  obtain ⟨_, _, resistance, -, hfind⟩ := NtcThermistor.convertMvToCelcius_eq_ok_iff.mp h
  have hplace := NtcThermistor.setupThermistor_tabulated.range resistance
  rw [NtcThermistor.findTemp_setup, Except.ok.injEq] at hfind
  split at hfind
  · omega
  · have hoffset : setupThermistor.offset = -55 := rfl
    have hmax : setupThermistor.max = 125 := rfl
    rw [hoffset, hmax] at hplace
    omega

/-- From the voltage of an open circuit up to the reference the temperature, where there is
one, is -0.56. -/
theorem convertMvToCelcius_open {m c : Int} (hlow : 1880 ≤ m) (hhigh : m ≤ 2499)
    (h : convertMvToCelcius setupThermistor (toShort m) = .ok c) : c = -56 := by
  rw [NtcThermistor.toShort_eq (by omega) (by omega)] at h
  obtain ⟨_, _, resistance, hdivides, hfind⟩ := NtcThermistor.convertMvToCelcius_eq_ok_iff.mp h
  rw [NtcThermistor.findTemp_setup, if_pos (hdivides.resistance_neg hlow hhigh)] at hfind
  exact (Except.ok.inj hfind).symm

/-- A sample between these voltages that was converted at all. -/
theorem Sample.Sound.opened {x : Sample} (h : x.Sound) (hlow : 1880 ≤ x.mv) (hhigh : x.mv ≤ 2499) :
    x.temp = -56 :=
  convertMvToCelcius_open hlow hhigh (h.converted (by omega))

/-- A reading is stored one place further, over the oldest. -/
theorem recGetTempSensor_held
    (hok : recGetTempSensor true adc setupThermistor dat var = .ok var')
    (h : var.Held samples) : var'.latest.Sound ∧ var'.Held (var'.latest :: samples) := by
  obtain ⟨measureMv, hconvert, hrest⟩ := bind_eq_ok_iff.mp hok
  obtain ⟨measureTemp, htemp, hvar⟩ := bind_eq_ok_iff.mp hrest
  obtain rfl := Except.ok.inj hvar
  have hlatest : ∀ (vet : Fin 3 → Int) (value : Int),
      setVet vet (var.counter + 1) value (var.counter + 1) = value := fun _ _ => if_pos rfl
  constructor
  · constructor
    · simp only [RecGetTemp.latest, hlatest]
      exact adcRead_range adc dat
    · simp only [RecGetTemp.latest, hlatest]
      exact adcConvertToMiliVolts_range hconvert
    · simp only [RecGetTemp.latest, hlatest]
      exact convertMvToCelcius_range htemp
    · simp only [RecGetTemp.latest, hlatest]
      exact fun _ => htemp
  · constructor
    · simp only [RecGetTemp.latest, List.map_cons, hlatest]
      exact h.adc.push _
    · simp only [RecGetTemp.latest, List.map_cons, hlatest]
      exact h.mv.push _
    · simp only [RecGetTemp.latest, List.map_cons, hlatest]
      exact h.temp.push _

/-! ## Runs of the measuring tasks -/

structure Sensors where
  adcs : Adcs
  vars : RecGetTemp × RecGetTemp
  /-- `rec_measure`, statement by statement. -/
  flow : Flow.State
  /-- The samples of either sensor, the latest first. -/
  samples : List Sample × List Sample
  /-- Those the last call of `rec_measure` has found. -/
  taken : Option (List Sample × List Sample)

inductive SensorAction
  | refMeasure (dat : Dat)
  | getTemp (dat1 dat2 : Dat)
  | measure
  | statement
  | pulse
  /-- Anything else writes registers. -/
  | world (r : Registers)

/-- The registers only `rec_measure` writes. -/
def measuredAddrs : List Nat := [s1Adc, s1Mv, s1Temp, s2Adc, s2Mv, s2Temp]

namespace Sensors

/-- The vectors are zero at first. -/
def start (r : Registers) : Sensors where
  adcs := setupAdcs
  vars := (recGetTempVar, recGetTempVar)
  flow := Flow.start r (recGetTempVar, recGetTempVar)
  samples := (List.replicate 3 ⟨0, 0, 0⟩, List.replicate 3 ⟨0, 0, 0⟩)
  taken := none

/-- The tasks run one after the other, so none runs within a call of `rec_measure`. -/
def step (s : Sensors) : SensorAction → Except Fault Sensors
  | .refMeasure dat =>
    if s.flow.next = .idle then do
      let adcs ← recRefMeasure true dat s.adcs
      return { s with adcs }
    else return s
  | .getTemp dat1 dat2 =>
    if s.flow.next = .idle then do
      let vars ← recGetTemp true s.adcs setupThermistor setupThermistor dat1 dat2 s.vars
      return { s with
        vars
        samples := (vars.1.latest :: s.samples.1, vars.2.latest :: s.samples.2) }
    else return s
  | .measure =>
    if s.flow.next = .idle then
      return { s with flow := Flow.step s.flow (.call s.vars), taken := some s.samples }
    else return s
  | .statement => return { s with flow := Flow.step s.flow .statement }
  | .pulse => return { s with flow := Flow.step s.flow .pulse }
  | .world r =>
    return { s with
      flow := { s.flow with
        registers := measuredAddrs.foldl
          (fun r' addr => storeInt (regReadInt addr s.flow.registers) addr r') r } }

end Sensors

/-! ## One call of `rec_measure` -/

namespace Flow

/-- What the register at one of the addresses is to hold. -/
def average (vars : RecGetTemp × RecGetTemp) (addr : Nat) : BitVec 32 :=
  if addr = s1Adc then recAverage vars.1.measureAdcVet
  else if addr = s1Mv then recAverage vars.1.measureMvVet
  else if addr = s1Temp then recAverage vars.1.measureTempVet
  else if addr = s2Adc then recAverage vars.2.measureAdcVet
  else if addr = s2Mv then recAverage vars.2.measureMvVet
  else recAverage vars.2.measureTempVet

/-- How many of the registers a call has stored before the statement. -/
def Statement.stores : Statement → Nat
  | .s1TempAux | .s1Adc => 0
  | .s1Mv => 1
  | .s1Temp => 2
  | .s2TempAux | .s2Adc => 3
  | .s2Mv => 4
  | .s2Temp => 5
  | .fluxCounter | .clearCounter | .valueAux | .fluxTotalLiters | .fluxLiters | .idle => 6

/-- The average that waits to be stored behind its sensor's other two. -/
def Statement.waiting (vars : RecGetTemp × RecGetTemp) : Statement → Option (BitVec 32)
  | .s1Adc | .s1Mv | .s1Temp => some (recAverage vars.1.measureTempVet)
  | .s2Adc | .s2Mv | .s2Temp => some (recAverage vars.2.measureTempVet)
  | _ => none

/-- The registers stored so far and the one that waits are averages. -/
structure Averaged (s : State) : Prop where
  stored : ∀ addr ∈ measuredAddrs.take s.next.stores,
    regReadInt addr s.registers = average s.vars addr
  waits : ∀ value, s.next.waiting s.vars = some value → s.tempAux = value

theorem regReadInt_storeInt_other {a b : Nat} (ha : offsetInt ≤ a ∧ a < offsetInt + 128)
    (hb : offsetInt ≤ b ∧ b < offsetInt + 128) (hne : a ≠ b) (value : BitVec 32) (r : Registers) :
    regReadInt a (storeInt value b r) = regReadInt a r := by
  obtain ⟨j, rfl⟩ := Nat.exists_eq_add_of_le ha.1
  obtain ⟨k, rfl⟩ := Nat.exists_eq_add_of_le hb.1
  rw [regReadInt_storeInt (by omega) (by omega), if_neg (by omega)]

theorem regReadInt_storeInt_same {a : Nat} (ha : offsetInt ≤ a ∧ a < offsetInt + 128)
    (value : BitVec 32) (r : Registers) : regReadInt a (storeInt value a r) = value := by
  obtain ⟨j, rfl⟩ := Nat.exists_eq_add_of_le ha.1
  rw [regReadInt_storeInt (by omega) (by omega), if_pos rfl]

theorem measuredAddrs_range : ∀ addr ∈ measuredAddrs,
    offsetInt ≤ addr ∧ addr < offsetInt + 128 := by decide

variable {s : State}

/-- The next register is stored, and those before it are left alone. -/
theorem Averaged.store (h : Averaged s) {addr : Nat} {value : BitVec 32} {next : Statement}
    (haddr : measuredAddrs[s.next.stores]? = some addr) (hvalue : value = average s.vars addr)
    (hstores : next.stores = s.next.stores + 1)
    (hwaits : ∀ value, next.waiting s.vars = some value →
      s.next.waiting s.vars = some value) : Averaged (s.store value addr next) := by
  refine ⟨fun a ha => ?_, fun value hnext => h.waits value (hwaits value hnext)⟩
  have hrange := measuredAddrs_range addr (List.mem_of_getElem? haddr)
  have hsplit : a ∈ measuredAddrs.take (s.next.stores + 1) := hstores ▸ ha
  rw [List.take_add_one, haddr] at hsplit
  show regReadInt a (storeInt value addr s.registers) = average s.vars a
  by_cases hsame : a = addr
  · rw [hsame, regReadInt_storeInt_same hrange, hvalue]
  · have hbefore : a ∈ measuredAddrs.take s.next.stores := by simpa [hsame] using hsplit
    rw [regReadInt_storeInt_other (measuredAddrs_range a (List.mem_of_mem_take hbefore)) hrange
      hsame]
    exact h.stored a hbefore

/-- The registers of the flow are others. -/
theorem Averaged.other (h : Averaged s) {s' : State} (addr : Nat) (value : BitVec 32)
    (haddr : offsetInt ≤ addr ∧ addr < offsetInt + 128) (hother : addr ∉ measuredAddrs)
    (hregisters : s'.registers = storeInt value addr s.registers) (hvars : s'.vars = s.vars)
    (hstores : s'.next.stores = s.next.stores) (hwaits : s'.next.waiting s'.vars = none) :
    Averaged s' := by
  refine ⟨fun a ha => ?_, fun value hnext => nomatch hwaits.symm.trans hnext⟩
  rw [hstores] at ha
  have hmem := List.mem_of_mem_take ha
  rw [hregisters, hvars, regReadInt_storeInt_other (measuredAddrs_range a hmem) haddr
    fun hsame => hother (hsame ▸ hmem)]
  exact h.stored a ha

/-- Nothing is stored. -/
theorem Averaged.local (h : Averaged s) {s' : State} (hregisters : s'.registers = s.registers)
    (hvars : s'.vars = s.vars) (hstores : s'.next.stores = s.next.stores)
    (hwaits : ∀ value, s'.next.waiting s.vars = some value → s'.tempAux = value) :
    Averaged s' := by
  refine ⟨fun a ha => ?_, fun value hnext => hwaits value (hvars ▸ hnext)⟩
  rw [hregisters, hvars]
  exact h.stored a (hstores ▸ ha)

theorem Averaged.recMeasure (h : Averaged s) : Averaged (Flow.recMeasure s) := by
  have hwaits := h.waits
  rw [Flow.recMeasure]
  cases hnext : s.next with
  | idle => exact h
  | s1TempAux | s2TempAux =>
    exact h.local rfl rfl (by rw [hnext]; rfl) fun _ hvalue => Option.some.inj hvalue
  | s1Adc | s1Mv | s2Adc | s2Mv =>
    exact h.store (by rw [hnext]; rfl) rfl (by rw [hnext]; rfl)
      fun _ hvalue => by rw [hnext]; exact hvalue
  | s1Temp | s2Temp =>
    exact h.store (by rw [hnext]; rfl) (hwaits _ (by rw [hnext]; rfl)) (by rw [hnext]; rfl)
      fun _ hvalue => by cases hvalue
  | fluxCounter =>
    exact h.other fluxCounter s.counter (by decide) (by decide) rfl rfl (by rw [hnext]; rfl) rfl
  | fluxTotalLiters =>
    exact h.other fluxTotalLiters _ (by decide) (by decide) rfl rfl (by rw [hnext]; rfl) rfl
  | fluxLiters =>
    exact h.other fluxLiters _ (by decide) (by decide) rfl rfl (by rw [hnext]; rfl) rfl
  | clearCounter | valueAux =>
    exact h.local rfl rfl (by rw [hnext]; rfl) fun _ hvalue => by cases hvalue

theorem Averaged.step (h : Averaged s) (a : Action) (hcall : ∀ vars, a ≠ .call vars) :
    Averaged (Flow.step s a) := by
  cases a with
  | call vars => exact absurd rfl (hcall vars)
  | statement => exact h.recMeasure
  | pulse => exact h.local rfl rfl rfl h.waits

end Flow

/-! ## What the registers tell -/

/-- The temperatures of one sensor as its registers have them. -/
structure SensorTold (adcAddr mvAddr tempAddr : Nat) (samples : List Sample) (r : Registers) :
    Prop where
  adc : (regReadInt adcAddr r).toInt = Sample.mean Sample.adc samples
  mv : (regReadInt mvAddr r).toInt = Sample.mean Sample.mv samples
  temp : (regReadInt tempAddr r).toInt = Sample.mean Sample.temp samples
  range : -5500 ≤ (regReadInt tempAddr r).toInt ∧ (regReadInt tempAddr r).toInt ≤ 12500

namespace Sensors

/-- The vectors hold what was sampled, and the call what its sensors held. -/
structure Kept (s : Sensors) : Prop where
  held1 : s.vars.1.Held s.samples.1
  held2 : s.vars.2.Held s.samples.2
  sound1 : ∀ x ∈ s.samples.1, x.Sound
  sound2 : ∀ x ∈ s.samples.2, x.Sound
  call : ∀ t, s.taken = some t → Flow.Averaged s.flow ∧
    (s.flow.vars.1.Held t.1 ∧ s.flow.vars.2.Held t.2) ∧
    (∀ x ∈ t.1, x.Sound) ∧ ∀ x ∈ t.2, x.Sound

theorem recGetTempVar_held : recGetTempVar.Held (List.replicate 3 ⟨0, 0, 0⟩) := by
  constructor <;> intro i <;> revert i <;> decide

theorem replicate_sound : ∀ x ∈ List.replicate 3 (⟨0, 0, 0⟩ : Sample), x.Sound := by
  intro x hx
  rw [List.eq_of_mem_replicate hx]
  exact ⟨by decide, by decide, by decide, fun hfilled => absurd rfl hfilled⟩

theorem start_kept (r : Registers) : (start r).Kept where
  held1 := recGetTempVar_held
  held2 := recGetTempVar_held
  sound1 := replicate_sound
  sound2 := replicate_sound
  call := fun _ ht => nomatch ht

/-- What other code writes leaves the measured registers as they were. -/
theorem regReadInt_world (r r' : Registers) : ∀ addr ∈ measuredAddrs,
    regReadInt addr (measuredAddrs.foldl
      (fun r'' a => storeInt (regReadInt a r) a r'') r') = regReadInt addr r := by
  have hfold : ∀ (addrs : List Nat) (r' : Registers), (∀ a ∈ addrs, a ∈ measuredAddrs) →
      ∀ addr ∈ measuredAddrs, addr ∈ addrs ∨ regReadInt addr r' = regReadInt addr r →
      regReadInt addr (addrs.foldl (fun r'' a => storeInt (regReadInt a r) a r'') r') =
        regReadInt addr r := by
    intro addrs
    induction addrs with
    | nil => exact fun r' _ addr _ h => h.resolve_left (List.not_mem_nil)
    | cons a addrs ih =>
      intro r' hall addr haddr h
      refine ih _ (fun b hb => hall b (List.mem_cons_of_mem a hb)) addr haddr ?_
      have ha := Flow.measuredAddrs_range a (hall a List.mem_cons_self)
      by_cases hsame : addr = a
      · rw [hsame]
        exact Or.inr (Flow.regReadInt_storeInt_same ha _ _)
      · rw [Flow.regReadInt_storeInt_other (Flow.measuredAddrs_range addr haddr) ha hsame]
        exact h.imp_left fun hmem => (List.mem_cons.mp hmem).resolve_left hsame
  exact fun addr haddr => hfold measuredAddrs r' (fun _ h => h) addr haddr (Or.inl haddr)

theorem forall_sound_cons {x : Sample} {samples : List Sample} (hx : x.Sound)
    (h : ∀ y ∈ samples, y.Sound) : ∀ y ∈ x :: samples, y.Sound := by
  intro y hy
  rcases List.mem_cons.mp hy with rfl | hmem
  · exact hx
  · exact h y hmem

/-- A call finds the samples of the time. -/
theorem Kept.measure {s : Sensors} (h : s.Kept) (hidle : s.flow.next = .idle) :
    Kept { s with flow := Flow.step s.flow (.call s.vars), taken := some s.samples } := by
  refine ⟨h.held1, h.held2, h.sound1, h.sound2, fun t ht => ?_⟩
  obtain rfl := Option.some.inj ht
  have hcall : Flow.step s.flow (.call s.vars) =
      { s.flow with vars := s.vars, next := .s1TempAux } := if_pos hidle
  rw [hcall]
  exact ⟨⟨fun a ha => absurd ha List.not_mem_nil, fun _ hvalue => nomatch hvalue⟩,
    ⟨h.held1, h.held2⟩, h.sound1, h.sound2⟩

/-- The call goes on with the measures it found. -/
theorem Kept.flow {s : Sensors} (h : s.Kept) {flow : Flow.State} (hvars : flow.vars = s.flow.vars)
    (haveraged : Flow.Averaged s.flow → Flow.Averaged flow) : Kept { s with flow } := by
  refine ⟨h.held1, h.held2, h.sound1, h.sound2, fun t ht => ?_⟩
  obtain ⟨hflow, hheld, hsound⟩ := h.call t ht
  exact ⟨haveraged hflow, hvars ▸ hheld, hsound⟩

theorem vars_recMeasure (f : Flow.State) : (Flow.recMeasure f).vars = f.vars := by
  rw [Flow.recMeasure]
  split <;> rfl

theorem Kept.step {s s' : Sensors} {a : SensorAction} (h : s.Kept) (hstep : s.step a = .ok s') :
    s'.Kept := by
  cases a with
  | refMeasure dat =>
    rw [Sensors.step] at hstep
    split at hstep
    · obtain ⟨adcs, -, hs'⟩ := bind_eq_ok_iff.mp hstep
      obtain rfl := Except.ok.inj hs'
      exact ⟨h.held1, h.held2, h.sound1, h.sound2, h.call⟩
    · exact Except.ok.inj hstep ▸ h
  | getTemp dat1 dat2 =>
    rw [Sensors.step] at hstep
    split at hstep
    · obtain ⟨vars, hvars, hs'⟩ := bind_eq_ok_iff.mp hstep
      obtain ⟨var1, hvar1, hrest⟩ := bind_eq_ok_iff.mp hvars
      obtain ⟨var2, hvar2, hpair⟩ := bind_eq_ok_iff.mp hrest
      obtain rfl := Except.ok.inj hpair
      obtain rfl := Except.ok.inj hs'
      obtain ⟨hsound1, hheld1⟩ := recGetTempSensor_held hvar1 h.held1
      obtain ⟨hsound2, hheld2⟩ := recGetTempSensor_held hvar2 h.held2
      exact ⟨hheld1, hheld2, forall_sound_cons hsound1 h.sound1,
        forall_sound_cons hsound2 h.sound2, h.call⟩
    · exact Except.ok.inj hstep ▸ h
  | measure =>
    rw [Sensors.step] at hstep
    split at hstep
    · rename_i hidle
      exact Except.ok.inj hstep ▸ h.measure hidle
    · exact Except.ok.inj hstep ▸ h
  | statement =>
    exact Except.ok.inj hstep ▸ h.flow (vars_recMeasure s.flow) fun hflow => hflow.recMeasure
  | pulse =>
    exact Except.ok.inj hstep ▸ h.flow rfl fun hflow => hflow.local rfl rfl rfl hflow.waits
  | world r =>
    refine Except.ok.inj hstep ▸ h.flow rfl fun hflow => ⟨fun addr haddr => ?_, hflow.waits⟩
    show regReadInt addr (measuredAddrs.foldl _ r) = _
    rw [regReadInt_world s.flow.registers r addr (List.mem_of_mem_take haddr)]
    exact hflow.stored addr haddr

/-- What a sensor's three registers hold after a call. -/
theorem sensorTold {adcAddr mvAddr tempAddr : Nat} {var : RecGetTemp} {samples : List Sample}
    {r : Registers} (hheld : var.Held samples) (hsound : ∀ x ∈ samples, x.Sound)
    (hadc : regReadInt adcAddr r = recAverage var.measureAdcVet)
    (hmv : regReadInt mvAddr r = recAverage var.measureMvVet)
    (htemp : regReadInt tempAddr r = recAverage var.measureTempVet) :
    SensorTold adcAddr mvAddr tempAddr samples r := by
  have htold := Sample.recAverage_toInt hheld.temp (by decide) (by decide)
    fun x hx => (hsound x hx).temp
  constructor
  · rw [hadc]
    exact Sample.recAverage_toInt hheld.adc (by decide) (by decide) fun x hx => (hsound x hx).adc
  · rw [hmv]
    exact Sample.recAverage_toInt hheld.mv (by decide) (by decide) fun x hx => (hsound x hx).mv
  · rw [htemp, htold]
  · rw [htemp, htold]
    exact Sample.mean_range hheld.temp fun x hx => (hsound x (List.mem_of_mem_take hx)).temp

/-- What a call that is over has found, and what it has stored. -/
theorem Kept.told {s : Sensors} (h : s.Kept) (hidle : s.flow.next = .idle)
    {t : List Sample × List Sample} (ht : s.taken = some t) :
    SensorTold s1Adc s1Mv s1Temp t.1 s.flow.registers ∧
      SensorTold s2Adc s2Mv s2Temp t.2 s.flow.registers := by
  obtain ⟨haveraged, ⟨hheld1, hheld2⟩, hsound1, hsound2⟩ := h.call t ht
  have hstored : ∀ addr ∈ measuredAddrs,
      regReadInt addr s.flow.registers = Flow.average s.flow.vars addr := by
    have hall := haveraged.stored
    rw [hidle] at hall
    exact hall
  exact ⟨sensorTold hheld1 hsound1 (hstored s1Adc (by decide)) (hstored s1Mv (by decide))
      (hstored s1Temp (by decide)),
    sensorTold hheld2 hsound2 (hstored s2Adc (by decide)) (hstored s2Mv (by decide))
      (hstored s2Temp (by decide))⟩

theorem run_kept {r : Registers} {as : List SensorAction} {s : Sensors}
    (hrun : as.foldlM step (start r) = .ok s) : s.Kept :=
  Run.foldlM_invariant Kept (fun _ _ _ h hstep => h.step hstep) (start_kept r) hrun

/-- Whatever is measured, counted and written in between, once a call of `rec_measure` is over
the registers of both sensors are the means of the last three samples it found, and the
temperatures are within the table. -/
theorem run_told {r : Registers} {as : List SensorAction} {s : Sensors}
    {t : List Sample × List Sample} (hrun : as.foldlM step (start r) = .ok s)
    (hidle : s.flow.next = .idle) (ht : s.taken = some t) :
    SensorTold s1Adc s1Mv s1Temp t.1 s.flow.registers ∧
      SensorTold s2Adc s2Mv s2Temp t.2 s.flow.registers :=
  (run_kept hrun).told hidle ht

/-- A call with all its statements. -/
def measureCall : List SensorAction := .measure :: List.replicate 13 .statement

/-- A sample of either sensor. -/
def sampling (adc1 adc2 : BitVec 32) : SensorAction :=
  .getTemp (fun _ _ => 16 * adc1) fun _ _ => 16 * adc2

/-- Three samples of a sensor that cools and of one that warms up, and a call. -/
def sampledCalls : List SensorAction :=
  [sampling 1900 1870, sampling 1926 1850, sampling 1950 1840] ++ measureCall

theorem run_told_sampledCalls : ∃ (s : Sensors) (t : List Sample × List Sample),
    sampledCalls.foldlM step (start ⟨fun _ => 0, 0⟩) = .ok s ∧
    (t.1.map Sample.temp = [2322, 2497, 2672, 0, 0, 0] ∧
      t.2.map Sample.temp = [3063, 3003, 2872, 0, 0, 0]) ∧
    SensorTold s1Adc s1Mv s1Temp t.1 s.flow.registers ∧
    SensorTold s2Adc s2Mv s2Temp t.2 s.flow.registers := by
  refine ⟨_, _, rfl, ?_,
    run_told (show sampledCalls.foldlM step (start ⟨fun _ => 0, 0⟩) = .ok _ from rfl) rfl rfl⟩
  decide +kernel

end Sensors

end Recirculador
