/-
The thermistors as `setup` configures them, with the table of `NTC_10K_3380.h`.

Without a sensor the divider gives 2500 mV * 10000 / 13300, which is between 1879 mV and
1880 mV.  Up to there the quotients rise with the voltage, and the temperature falls; above,
the resistance comes out negative.  Near 2500 mV the current is so small that the product
with the parallel resistance does not fit, or the current is 0.
-/
import Recirculador.Sensor.Thermistor

namespace Recirculador

open CheckedInt

def ntc10k3380Vet : List Int :=
  [486088, 456961, 429745, 404308, 380522, 358274, 337457, 317970, 299723, 282630,
   266612, 251597, 237516, 224306, 211910, 200272, 189343, 179075, 169425, 160353,
   151820, 143793, 136238, 129125, 122426, 116115, 110166, 104558, 99269, 94279,
   89570, 85123, 80925, 76958, 73209, 69665, 66314, 63144, 60144, 57304,
   54615, 52069, 49656, 47369, 45201, 43144, 41194, 39343, 37586, 35917,
   34333, 32827, 31396, 30036, 28743, 27513, 26342, 25228, 24167, 23158,
   22196, 21279, 20406, 19573, 18779, 18016, 17299, 16610, 15952, 15323,
   14723, 14150, 13602, 13079, 12578, 12099, 11642, 11204, 10785, 10384,
   10000, 9632, 9280, 8942, 8619, 8309, 8012, 7727, 7453, 7191,
   6940, 6698, 6467, 6244, 6030, 5825, 5628, 5438, 5256, 5081,
   4829, 4751, 4595, 4445, 4301, 4168, 4029, 3900, 3776, 3657,
   3542, 3431, 3324, 3222, 3122, 3027, 2934, 2845, 2760, 2677,
   2597, 2520, 2445, 2373, 2304, 2237, 2172, 2109, 2049, 1990,
   1934, 1879, 1826, 1775, 1725, 1678, 1631, 1586, 1543, 1501,
   1461, 1421, 1383, 1346, 1310, 1276, 1242, 1210, 1178, 1147,
   1118, 1089, 1061, 1034, 1008, 983, 958, 934, 911, 888,
   866, 845, 824, 804, 785, 766, 747, 729, 712, 695,
   679, 663, 647, 632, 618, 603, 589, 576, 563, 550,
   538]

def setupThermistor : NtcThermistor :=
  thermistorNew 10000 3300 2500 (-55) 125 fun i => ntc10k3380Vet.getD i 0

namespace NtcThermistor

theorem vet_pairs : ∀ p ∈ ntc10k3380Vet.zip ntc10k3380Vet.tail,
    p.2 < p.1 ∧ p.1 - p.2 ≤ 2147483 := by
  decide +kernel

theorem vet_steps (i : Nat) (hi : i < 180) :
    ntc10k3380Vet.getD (i + 1) 0 < ntc10k3380Vet.getD i 0 ∧
      ntc10k3380Vet.getD i 0 - ntc10k3380Vet.getD (i + 1) 0 ≤ 2147483 := by
  have hlength : ntc10k3380Vet.length = 181 := rfl
  have hpair : (ntc10k3380Vet.zip ntc10k3380Vet.tail)[i]? =
      some (ntc10k3380Vet.getD i 0, ntc10k3380Vet.getD (i + 1) 0) := by
    rw [List.getElem?_zip_eq_some, List.getElem?_tail, List.getD_eq_getElem?_getD,
      List.getD_eq_getElem?_getD, List.getElem?_eq_getElem (by omega),
      List.getElem?_eq_getElem (by omega)]
    exact ⟨rfl, rfl⟩
  exact vet_pairs _ (List.mem_of_getElem? hpair)

theorem setupThermistor_tabulated : setupThermistor.Tabulated 180 where
  max := by decide
  offset := by decide
  limit := by decide
  falls := fun i hi => (vet_steps i hi).1
  gap := fun i hi => (vet_steps i hi).2

/-! ## The quotients -/

variable {m current ratio resistance c : Int}

theorem Divides.current_eq (h : setupThermistor.Divides m current ratio resistance) :
    current = (1000 * (2500 - m)).tdiv 3300 := (div_eq_ok_iff.mp h.divided).2.2.symm

theorem Divides.ratio_eq (h : setupThermistor.Divides m current ratio resistance) :
    ratio = (1000 * m).tdiv current := (div_eq_ok_iff.mp h.related).2.2.symm

theorem Divides.resistance_eq (h : setupThermistor.Divides m current ratio resistance) :
    resistance = (ratio * 10000).tdiv (10000 - ratio) := (div_eq_ok_iff.mp h.found).2.2.symm

/-- The size of the current, on either side of 2500 mV. -/
theorem current_natAbs (m : Int) :
    ((1000 * (2500 - m)).tdiv 3300).natAbs = (1000 * (2500 - m)).natAbs / 3300 :=
  Int.natAbs_tdiv (1000 * (2500 - m)) 3300

theorem ratio_natAbs (m current : Int) :
    ((1000 * m).tdiv current).natAbs = (1000 * m).natAbs / current.natAbs :=
  Int.natAbs_tdiv (1000 * m) current

/-- The quotients exist if the current is not 0 and the ratio leaves room for the product. -/
theorem divides_of_ratio (hlow : 0 ≤ m) (hhigh : m ≤ 3300) (hcurrent : current ≠ 0)
    (hc : (1000 * (2500 - m)).tdiv 3300 = current) (hr : (1000 * m).tdiv current = ratio)
    (hfit : ratio.natAbs ≤ 214748) (hrest : ratio ≠ 10000) :
    setupThermistor.Divides m current ratio ((ratio * 10000).tdiv (10000 - ratio)) := by
  have hvoltage : InRange (2500 - m) := by constructor <;> omega
  have hnanovolts : InRange (1000 * (2500 - m)) := by constructor <;> omega
  have hmeasured : InRange (1000 * m) := by constructor <;> omega
  have hproduct : InRange (ratio * 10000) := by constructor <;> omega
  have hremainder : InRange (10000 - ratio) := by constructor <;> omega
  have hdivisor : 10000 - ratio ≠ 0 := by omega
  have hdivided : InRange ((1000 * (2500 - m)).tdiv 3300) := inRange_tdiv (by omega) _
  have hrelated : InRange ((1000 * m).tdiv current) := inRange_tdiv (by omega) _
  have hfound : InRange ((ratio * 10000).tdiv (10000 - ratio)) := inRange_tdiv (by omega) _
  exact ⟨hvoltage, hnanovolts, div_eq_ok_iff.mpr ⟨by decide, hdivided, hc⟩, hmeasured,
    div_eq_ok_iff.mpr ⟨hcurrent, hrelated, hr⟩, hproduct, hremainder,
    div_eq_ok_iff.mpr ⟨hdivisor, hfound, rfl⟩⟩

/-! A bound of the voltage bounds each quotient. -/

theorem Divides.le_current (h : setupThermistor.Divides m current ratio resistance) {v : Int}
    (hv : v ≤ 2500 - m) : (1000 * v).tdiv 3300 ≤ current := by
  rw [h.current_eq]
  exact Int.tdiv_le_tdiv (by decide) (by omega)

theorem Divides.current_le (h : setupThermistor.Divides m current ratio resistance) {v : Int}
    (hv : 2500 - m ≤ v) : current ≤ (1000 * v).tdiv 3300 := by
  rw [h.current_eq]
  exact Int.tdiv_le_tdiv (by decide) (by omega)

theorem Divides.le_ratio (h : setupThermistor.Divides m current ratio resistance) {v k : Int}
    (hv : 0 ≤ v) (hm : v ≤ m) (hpos : 0 < current) (hk : current ≤ k) :
    (1000 * v).tdiv k ≤ ratio := by
  rw [h.ratio_eq]
  exact tdiv_le_tdiv (by omega) (by omega) hpos hk

theorem Divides.ratio_le (h : setupThermistor.Divides m current ratio resistance) {v k : Int}
    (hlow : 0 ≤ m) (hm : m ≤ v) (hpos : 0 < k) (hk : k ≤ current) :
    ratio ≤ (1000 * v).tdiv k := by
  rw [h.ratio_eq]
  exact tdiv_le_tdiv (by omega) (by omega) hpos hk

/-- Below the voltage of an open circuit the ratio stays below 10000. -/
theorem Divides.warm (h : setupThermistor.Divides m current ratio resistance) (hlow : 0 ≤ m)
    (hm : m ≤ 1879) : 188 ≤ current ∧ 0 ≤ ratio ∧ ratio ≤ 9994 := by
  have hcurrent : 188 ≤ current := h.le_current (v := 621) (by omega)
  have hnonneg : 0 ≤ ratio := by
    rw [h.ratio_eq]
    exact Int.tdiv_nonneg (by omega) (by omega)
  exact ⟨hcurrent, hnonneg, h.ratio_le (v := 1879) hlow hm (by decide) hcurrent⟩

/-- Above it the ratio is over 10000, and the resistance negative. -/
theorem Divides.resistance_neg (h : setupThermistor.Divides m current ratio resistance)
    (hlow : 1880 ≤ m) (hhigh : m ≤ 2499) : resistance < 0 := by
  have hne : current ≠ 0 := (div_eq_ok_iff.mp h.related).1
  have hnonneg : 0 ≤ current := h.le_current (v := 0) (by omega)
  have hcurrent : current ≤ 187 := h.current_le (v := 620) (by omega)
  have hratio : 10053 ≤ ratio := h.le_ratio (v := 1880) (by decide) hlow (by omega) hcurrent
  have hone : 1 ≤ (ratio * 10000).tdiv (ratio - 10000) := by
    rw [← Int.tdiv_self (a := ratio - 10000) (by omega)]
    exact tdiv_le_tdiv (by omega) (by omega) (by omega) (Int.le_refl _)
  rw [h.resistance_eq, ← Int.neg_sub ratio 10000, Int.tdiv_neg]
  omega

/-- Between them each quotient follows the one before. -/
theorem Divides.resistance_le {m' current' ratio' resistance' : Int}
    (h : setupThermistor.Divides m current ratio resistance)
    (h' : setupThermistor.Divides m' current' ratio' resistance')
    (hlow : 0 ≤ m) (hle : m ≤ m') (hhigh : m' ≤ 1879) :
    0 ≤ resistance ∧ resistance ≤ resistance' := by
  obtain ⟨hcurrent, hnonneg, hratio⟩ := h.warm hlow (by omega)
  obtain ⟨hcurrent', _, hratio'⟩ := h'.warm (by omega) hhigh
  have hcurrents : current' ≤ current := by
    rw [h.current_eq]
    exact h'.current_le (by omega)
  have hratios : ratio ≤ ratio' := by
    rw [h'.ratio_eq]
    exact h.ratio_le hlow hle (by omega) hcurrents
  rw [h.resistance_eq, h'.resistance_eq]
  exact ⟨Int.tdiv_nonneg (by omega) (by omega),
    tdiv_le_tdiv (by omega) (by omega) (by omega) (by omega)⟩

/-- In the bands about 2500 mV either the current is 0 or the product does not fit. -/
theorem Divides.outside (h : setupThermistor.Divides m current ratio resistance) :
    m ≤ 2460 ∨ 2540 ≤ m := by
  refine Decidable.byContradiction fun hband => ?_
  have hcurrent : current ≠ 0 := (div_eq_ok_iff.mp h.related).1
  have hproduct : InRange (ratio * 10000) := h.product
  have hc := current_natAbs m
  have hr := ratio_natAbs m current
  rw [← h.current_eq] at hc
  rw [← h.ratio_eq] at hr
  have hsmall : current.natAbs ≤ 11 := by omega
  have hlarge : 223727 ≤ ratio.natAbs := by
    rw [hr, Nat.le_div_iff_mul_le (by omega)]
    omega
  obtain ⟨_, _⟩ := hproduct
  omega

/-- Outside them all the quotients exist. -/
theorem exists_divides (hlow : 0 ≤ m) (hhigh : m ≤ 3300) (hout : m ≤ 2460 ∨ 2540 ≤ m) :
    ∃ current ratio resistance, setupThermistor.Divides m current ratio resistance := by
  obtain ⟨current, hcurrent⟩ : ∃ c, (1000 * (2500 - m)).tdiv 3300 = c := ⟨_, rfl⟩
  obtain ⟨ratio, hratio⟩ : ∃ r, (1000 * m).tdiv current = r := ⟨_, rfl⟩
  have hc := current_natAbs m
  have hr := ratio_natAbs m current
  rw [hcurrent] at hc
  rw [hratio] at hr
  have hlarge : 12 ≤ current.natAbs := by omega
  have hpos : 0 < current.natAbs := by omega
  have hfit : ratio.natAbs < 214749 := by
    rw [hr, Nat.div_lt_iff_lt_mul hpos]
    omega
  -- The ratio passes 10000 between 1879 mV and 1880 mV without being equal to it.
  have hrest : ratio.natAbs < 10000 ∨ 10001 ≤ ratio.natAbs := by
    rw [hr, Nat.div_lt_iff_lt_mul hpos, Nat.le_div_iff_mul_le hpos]
    by_cases hm : m ≤ 1879
    · have hwarm : 188 ≤ current.natAbs := by omega
      exact Or.inl (by omega)
    · have hopen : current.natAbs ≤ 187 ∨ 2540 ≤ m ∧ current.natAbs ≤ 242 := by omega
      exact Or.inr (by omega)
  exact ⟨current, ratio, _, divides_of_ratio hlow hhigh (by omega) hcurrent hratio (by omega)
    (by omega)⟩

theorem findTemp_setup (resistance : Int) : findTemp setupThermistor resistance = .ok
    (if resistance < 0 then -56
      else -5500 + Interpolation.place setupThermistor.ntc 180 resistance) := by
  by_cases hr : resistance < 0
  · rw [findTemp_of_neg setupThermistor_tabulated.offset (by decide) hr, if_pos hr]
    rfl
  · rw [findTemp_of_nonneg setupThermistor_tabulated (Int.not_lt.mp hr), if_neg hr]
    rfl

/-- The divisors are not zero and the products fit, but for the bands on either side of the
reference voltage. -/
theorem defined_iff (hlow : 0 ≤ m) (hhigh : m ≤ 3300) :
    (∃ c, convertMvToCelcius setupThermistor m = .ok c) ↔ m ≤ 2460 ∨ 2540 ≤ m := by
  constructor
  · rintro ⟨c, hc⟩
    obtain ⟨_, _, _, h, _⟩ := convertMvToCelcius_eq_ok_iff.mp hc
    exact h.outside
  · intro hout
    obtain ⟨current, ratio, resistance, h⟩ := exists_divides hlow hhigh hout
    exact ⟨_, convertMvToCelcius_eq_ok_iff.mpr
      ⟨current, ratio, resistance, h, findTemp_setup resistance⟩⟩

theorem defined_openCircuit : ∃ c, convertMvToCelcius setupThermistor 2460 = .ok c :=
  (defined_iff (by decide) (by decide)).mpr (Or.inl (by decide))

theorem undefined_reference : ¬ ∀ m : Int, 0 ≤ m → m ≤ 3300 →
    ∃ c, convertMvToCelcius setupThermistor m = .ok c := by
  intro h
  obtain ⟨c, hc⟩ := h 2500 (by decide) (by decide)
  have hfault : convertMvToCelcius setupThermistor 2500 = .error .zeroDivisor := rfl
  rw [hfault] at hc
  exact nomatch hc

/-! ## The temperature falls with the voltage -/

/-- The voltage is that of no thermistor at all, or of one with at least the resistance of
the first entry. -/
def OpenOrCold (t : NtcThermistor) (m : Int) : Prop :=
  (t.voltageRef - m) * (t.parallelResistance * t.ntc 0) ≤
    m * t.refResistance * (t.parallelResistance + t.ntc 0)

theorem OpenOrCold.le (h : OpenOrCold setupThermistor m) : 1871 ≤ m := by
  have hcold : (2500 - m) * (10000 * 486088) ≤ m * 3300 * (10000 + 486088) := h
  omega

theorem openOrCold_of_le (hm : 1871 ≤ m) : OpenOrCold setupThermistor m := by
  show (2500 - m) * (10000 * 486088) ≤ m * 3300 * (10000 + 486088)
  omega

/-- From 1871 mV on, up to an open circuit, the search stops at the first entry. -/
theorem Divides.cold (h : setupThermistor.Divides m current ratio resistance) (hlow : 1871 ≤ m)
    (hhigh : m ≤ 1879) : 486088 ≤ resistance := by
  obtain ⟨hpos, _, hratio⟩ := h.warm (by omega) hhigh
  have hcurrent : current ≤ 190 := h.current_le (v := 629) (by omega)
  have hcold : 9847 ≤ ratio := h.le_ratio (v := 1871) (by decide) hlow (by omega) hcurrent
  rw [h.resistance_eq]
  calc 486088 ≤ (9847 * 10000 : Int).tdiv (10000 - 9847) := by decide
    _ ≤ _ := tdiv_le_tdiv (by decide) (by omega) (by omega) (by omega)

/-- The temperature does not rise, and a sensor that is missing or too cold is not above the
first entry, just as long as the voltage is not above that of an open circuit. -/
theorem colder_iff {m₁ m₂ c₁ c₂ : Int} (hlow : 0 ≤ m₁) (hle : m₁ ≤ m₂) (hhigh : m₂ ≤ 2499)
    (h₁ : convertMvToCelcius setupThermistor m₁ = .ok c₁)
    (h₂ : convertMvToCelcius setupThermistor m₂ = .ok c₂) :
    (c₂ ≤ c₁ ∧ (OpenOrCold setupThermistor m₂ → c₂ ≤ -5500)) ↔ m₂ ≤ 1879 := by
  obtain ⟨current₁, ratio₁, resistance₁, hd₁, hc₁⟩ := convertMvToCelcius_eq_ok_iff.mp h₁
  obtain ⟨current₂, ratio₂, resistance₂, hd₂, hc₂⟩ := convertMvToCelcius_eq_ok_iff.mp h₂
  rw [findTemp_setup, Except.ok.injEq] at hc₁ hc₂
  constructor
  · rintro ⟨_, hcold⟩
    refine Int.not_lt.mp fun hopen => ?_
    rw [if_pos (hd₂.resistance_neg hopen hhigh)] at hc₂
    have hreported := hcold (openOrCold_of_le (by omega))
    omega
  · intro hm
    obtain ⟨hnonneg, hresistance⟩ := hd₁.resistance_le hd₂ hlow hle hm
    have hplace := Interpolation.place_antitone setupThermistor.ntc 180 hresistance
    rw [if_neg (by omega)] at hc₁ hc₂
    refine ⟨by omega, fun hcold => ?_⟩
    have hfirst : Interpolation.place setupThermistor.ntc 180 resistance₂ = 0 :=
      Interpolation.place_first (by decide) (hd₂.cold hcold.le hm)
    omega

theorem colder_warm : (-5500 : Int) ≤ -4934 ∧
    (OpenOrCold setupThermistor 1879 → (-5500 : Int) ≤ -5500) :=
  (colder_iff (by decide : (0 : Int) ≤ 1866) (by decide : (1866 : Int) ≤ 1879) (by decide) rfl
    rfl).mpr (by decide)

/-- One millivolt more, and an open circuit reads -0.56. -/
theorem not_colder_open : ¬ ∀ m₁ m₂ c₁ c₂ : Int, 0 ≤ m₁ → m₁ ≤ m₂ → m₂ ≤ 2499 →
    convertMvToCelcius setupThermistor m₁ = .ok c₁ →
    convertMvToCelcius setupThermistor m₂ = .ok c₂ →
    c₂ ≤ c₁ ∧ (OpenOrCold setupThermistor m₂ → c₂ ≤ -5500) := fun h =>
  absurd (h 1879 1880 (-5500) (-56) (by decide) (by decide) (by decide) rfl rfl).1 (by decide)

end NtcThermistor

end Recirculador
