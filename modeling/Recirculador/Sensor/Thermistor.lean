/-
The thermistor of `ntc_thermistor.c`.

`convert_mV_to_celcius` works its way from the voltage over the current and the ratio to
the resistance, one truncating division after the other, and `_findTemp` looks the
resistance up in a table.  The arithmetic is that of `int`, with no result where it is
undefined; temperatures are in hundredths of a degree.
-/
import Recirculador.Common.CheckedInt
import Recirculador.Common.Interpolation

namespace Recirculador

open CheckedInt

structure NtcThermistor where
  parallelResistance : Int
  refResistance : Int
  voltageRef : Int
  ntc : Nat → Int
  offset : Int
  max : Int

def thermistorNew (parallelResistance refResistance voltageRef offset max : Int)
    (ntc : Nat → Int) : NtcThermistor :=
  { parallelResistance, refResistance, voltageRef, ntc, offset, max }

/-- The conversion of a result to `short`. -/
def toShort (x : Int) : Int := x.bmod 0x10000

/-- The loop of `_findTemp` over the indices to come. -/
def findTempLoop (t : NtcThermistor) (resistance : Int) : List Nat → Except Fault Int
  | [] => do return toShort (← mul t.max 100)
  | i :: is =>
    if t.ntc i = resistance then do
      return toShort (← mul (← add i t.offset) 100)
    else if t.ntc i < resistance then
      if i = 0 then do return toShort (← mul t.offset 100)
      else do
        let delta ← sub (t.ntc (i - 1)) (t.ntc i)
        let delta ← div (← div (← mul (← sub resistance (t.ntc i)) 1000) delta) 10
        return toShort (← sub (← mul 100 (← add i t.offset)) delta)
    else findTempLoop t resistance is

/-- A negative resistance gives `_offset - 1`, which is not in hundredths. -/
def findTemp (t : NtcThermistor) (resistance : Int) : Except Fault Int :=
  if resistance < 0 then do return toShort (← sub t.offset 1)
  else do
    let size ← sub t.max t.offset
    findTempLoop t resistance (List.range size.toNat)

def convertMvToCelcius (t : NtcThermistor) (measuredValue : Int) : Except Fault Int := do
  let mvToNv := 1000
  let voltageValue ← mul mvToNv (← sub t.voltageRef measuredValue)
  let longAux ← div voltageValue t.refResistance
  let longAux ← div (← mul mvToNv measuredValue) longAux
  let longAux ← div (← mul longAux t.parallelResistance) (← sub t.parallelResistance longAux)
  findTemp t longAux

namespace NtcThermistor

/-! ## Before the conversion to `short` -/

/-- The loop without the conversion of its result. -/
def findTempLoopInt (t : NtcThermistor) (resistance : Int) : List Nat → Except Fault Int
  | [] => mul t.max 100
  | i :: is =>
    if t.ntc i = resistance then do mul (← add i t.offset) 100
    else if t.ntc i < resistance then
      if i = 0 then mul t.offset 100
      else do
        let delta ← sub (t.ntc (i - 1)) (t.ntc i)
        let delta ← div (← div (← mul (← sub resistance (t.ntc i)) 1000) delta) 10
        sub (← mul 100 (← add i t.offset)) delta
    else findTempLoopInt t resistance is

/-- `_findTemp` without the conversion of its result. -/
def findTempInt (t : NtcThermistor) (resistance : Int) : Except Fault Int :=
  if resistance < 0 then sub t.offset 1
  else do
    let size ← sub t.max t.offset
    findTempLoopInt t resistance (List.range size.toNat)

theorem findTempLoop_eq (t : NtcThermistor) (resistance : Int) (is : List Nat) :
    findTempLoop t resistance is = toShort <$> findTempLoopInt t resistance is := by
  induction is with
  | nil => simp only [findTempLoop, findTempLoopInt, bind_pure_comp]
  | cons i is ih =>
    simp only [findTempLoop, findTempLoopInt, bind_pure_comp]
    split
    · rw [map_bind]
    split
    · split
      · rfl
      · simp only [map_bind]
    · exact ih

theorem findTemp_eq (t : NtcThermistor) (resistance : Int) :
    findTemp t resistance = toShort <$> findTempInt t resistance := by
  simp only [findTemp, findTempInt, bind_pure_comp]
  split
  · rfl
  · rw [map_bind]
    exact congrArg _ (funext fun size => findTempLoop_eq t resistance _)

/-! ## The table -/

/-- What `_findTemp` relies on: the table falls, its steps and its temperatures are not too
large. -/
structure Tabulated (t : NtcThermistor) (size : Nat) : Prop where
  max : t.max = t.offset + size
  offset : -327 ≤ t.offset
  limit : t.max ≤ 327
  falls : ∀ i, i < size → t.ntc (i + 1) < t.ntc i
  gap : ∀ i, i < size → t.ntc i - t.ntc (i + 1) ≤ 2147483

variable {t : NtcThermistor} {size : Nat} {r : Int}

theorem toShort_eq {x : Int} (hlow : -0x8000 ≤ x) (hhigh : x < 0x8000) : toShort x = x :=
  Int.bmod_eq_of_le hlow hhigh

/-- Up to an entry it would stop at the loop just goes on. -/
theorem findTempLoopInt_skip (is js : List Nat) (h : ∀ i ∈ is, r < t.ntc i) :
    findTempLoopInt t r (is ++ js) = findTempLoopInt t r js := by
  induction is with
  | nil => rfl
  | cons i is ih =>
    obtain ⟨hi, his⟩ := List.forall_mem_cons.mp h
    have hne : ¬ t.ntc i = r := by omega
    have hge : ¬ t.ntc i < r := by omega
    rw [List.cons_append, findTempLoopInt, if_neg hne, if_neg hge, ih his]

/-- The end of the loop. -/
theorem findTempLoopInt_none (h : t.Tabulated size) (hr : ∀ i, i < size → r < t.ntc i) :
    findTempLoopInt t r (List.range size) =
      .ok (100 * t.offset + Interpolation.place t.ntc size r) := by
  have hskip := findTempLoopInt_skip (List.range size) [] fun i hi => hr i (List.mem_range.mp hi)
  have hmax := h.max
  have hoffset := h.offset
  have hlimit := h.limit
  have hrange : InRange (t.max * 100) := by constructor <;> omega
  rw [List.append_nil] at hskip
  rw [hskip, findTempLoopInt, mul_eq_ok hrange, Interpolation.place_none hr]
  congr 1
  omega

/-- At an entry, the temperature of its index. -/
theorem findTempLoopInt_entry {i : Nat} (is : List Nat) (he : t.ntc i = r)
    (hlow : -327 ≤ (i : Int) + t.offset) (hhigh : (i : Int) + t.offset ≤ 327) :
    findTempLoopInt t r (i :: is) = .ok (100 * ((i : Int) + t.offset)) := by
  have hindex : InRange ((i : Int) + t.offset) := by constructor <;> omega
  have htemp : InRange (((i : Int) + t.offset) * 100) := by constructor <;> omega
  rw [findTempLoopInt, if_pos he, add_eq_ok hindex]
  show mul ((i : Int) + t.offset) 100 = _
  rw [mul_eq_ok htemp, Int.mul_comm]

/-- Above the first entry, the temperature of the first index. -/
theorem findTempLoopInt_first (is : List Nat) (hlt : t.ntc 0 < r) (hlow : -327 ≤ t.offset)
    (hhigh : t.offset ≤ 327) : findTempLoopInt t r (0 :: is) = .ok (100 * t.offset) := by
  have hne : ¬ t.ntc 0 = r := by omega
  have htemp : InRange (t.offset * 100) := by constructor <;> omega
  rw [findTempLoopInt, if_neg hne, if_pos hlt, if_pos rfl, mul_eq_ok htemp, Int.mul_comm]

/-- Between two entries, so many hundredths before the second. -/
theorem findTempLoopInt_between {k : Nat} (is : List Nat) (hbelow : t.ntc (k + 1) < r)
    (habove : r < t.ntc k) (hgap : t.ntc k - t.ntc (k + 1) ≤ 2147483)
    (hlow : -326 ≤ (k : Int) + 1 + t.offset) (hhigh : (k : Int) + 1 + t.offset ≤ 327) :
    findTempLoopInt t r ((k + 1) :: is) = .ok (100 * ((k : Int) + 1 + t.offset) -
      Interpolation.hundredths (t.ntc k) (t.ntc (k + 1)) r) := by
  have hne : ¬ t.ntc (k + 1) = r := by omega
  have hsucc : ¬ k + 1 = 0 := Nat.succ_ne_zero k
  obtain ⟨hnonneg, hle⟩ := Interpolation.hundredths_bounds (Int.le_of_lt hbelow) habove
  have hsteps : t.ntc k - t.ntc (k + 1) ≠ 0 := by omega
  have hdelta : InRange (t.ntc k - t.ntc (k + 1)) := by constructor <;> omega
  have hrest : InRange (r - t.ntc (k + 1)) := by constructor <;> omega
  have hproduct : InRange ((r - t.ntc (k + 1)) * 1000) := by constructor <;> omega
  have hquotient := inRange_tdiv (a := (r - t.ntc (k + 1)) * 1000) (by omega)
    (t.ntc k - t.ntc (k + 1))
  have hten := Interpolation.hundredths_tdiv (Int.le_of_lt hbelow) habove
  have hhundredths : InRange (Interpolation.hundredths (t.ntc k) (t.ntc (k + 1)) r) := by
    constructor <;> omega
  have hindex : InRange ((k : Int) + 1 + t.offset) := by constructor <;> omega
  have htemp : InRange (100 * ((k : Int) + 1 + t.offset)) := by constructor <;> omega
  have hresult : InRange (100 * ((k : Int) + 1 + t.offset) -
      Interpolation.hundredths (t.ntc k) (t.ntc (k + 1)) r) := by constructor <;> omega
  rw [findTempLoopInt, if_neg hne, if_pos hbelow, if_neg hsucc]
  refine bind_eq_ok_iff.mpr ⟨_, sub_eq_ok hdelta, ?_⟩
  refine bind_eq_ok_iff.mpr ⟨_, sub_eq_ok hrest, ?_⟩
  refine bind_eq_ok_iff.mpr ⟨_, mul_eq_ok hproduct, ?_⟩
  refine bind_eq_ok_iff.mpr ⟨_, div_eq_ok hsteps hquotient, ?_⟩
  refine bind_eq_ok_iff.mpr ⟨_, div_eq_ok_iff.mpr ⟨by decide, hten ▸ hhundredths, hten⟩, ?_⟩
  refine bind_eq_ok_iff.mpr ⟨_, add_eq_ok hindex, ?_⟩
  refine bind_eq_ok_iff.mpr ⟨_, mul_eq_ok htemp, ?_⟩
  exact sub_eq_ok hresult

theorem findTempLoopInt_found (h : t.Tabulated size) {i : Nat}
    (hfound : Interpolation.Found t.ntc size r i) : findTempLoopInt t r (List.range size) =
      .ok (100 * t.offset + Interpolation.place t.ntc size r) := by
  have hbelow := hfound.below
  have hbound := hfound.bound
  have hmax := h.max
  have hoffset := h.offset
  have hlimit := h.limit
  obtain ⟨rest, hrange⟩ : ∃ rest, List.range size = List.range i ++ i :: rest := by
    obtain ⟨k, rfl⟩ : ∃ k, size = i + (k + 1) := ⟨size - i - 1, by omega⟩
    exact ⟨_, by rw [List.range_add, List.range_succ_eq_map, List.map_cons, Nat.add_zero]⟩
  rw [hrange, findTempLoopInt_skip _ _ fun j hj => hfound.above j (List.mem_range.mp hj)]
  by_cases he : t.ntc i = r
  · have hplace : Interpolation.place t.ntc size r = 100 * i := by
      rw [← he]
      exact Interpolation.place_entry h.falls (Nat.le_of_lt hbound)
    rw [findTempLoopInt_entry rest he (by omega) (by omega), hplace]
    congr 1
    omega
  · cases i with
    | zero =>
      rw [findTempLoopInt_first rest (by omega) hoffset (by omega),
        Interpolation.place_zero hfound, Int.add_zero]
    | succ k =>
      rw [findTempLoopInt_between rest (by omega) (hfound.above k (Nat.lt_succ_self k))
        (h.gap k (by omega)) (by omega) (by omega), Interpolation.place_succ hfound]
      congr 1
      omega

/-! ## The search and the conversion -/

theorem findTempInt_of_nonneg (h : t.Tabulated size) (hr : 0 ≤ r) :
    findTempInt t r = .ok (100 * t.offset + Interpolation.place t.ntc size r) := by
  have hmax := h.max
  have hoffset := h.offset
  have hlimit := h.limit
  have hrange : InRange (t.max - t.offset) := by constructor <;> omega
  have hsize : (t.max - t.offset).toNat = size := by omega
  have hnonneg : ¬ r < 0 := by omega
  rw [findTempInt, if_neg hnonneg, sub_eq_ok hrange]
  show findTempLoopInt t r (List.range (t.max - t.offset).toNat) = _
  rw [hsize]
  cases hsearch : Interpolation.search t.ntc size r with
  | none => exact findTempLoopInt_none h (Interpolation.search_eq_none_iff.mp hsearch)
  | some i => exact findTempLoopInt_found h (Interpolation.search_eq_some_iff.mp hsearch)

/-- The temperature is one of the table, whatever the resistance. -/
theorem Tabulated.range (h : t.Tabulated size) (r : Int) :
    100 * t.offset ≤ 100 * t.offset + Interpolation.place t.ntc size r ∧
      100 * t.offset + Interpolation.place t.ntc size r ≤ 100 * t.max := by
  have hmax := h.max
  have hlow := Interpolation.place_nonneg t.ntc size r
  have hhigh := Interpolation.place_le t.ntc size r
  omega

theorem findTemp_of_nonneg (h : t.Tabulated size) (hr : 0 ≤ r) :
    findTemp t r = .ok (100 * t.offset + Interpolation.place t.ntc size r) := by
  have hoffset := h.offset
  have hlimit := h.limit
  obtain ⟨hlow, hhigh⟩ := h.range r
  rw [findTemp_eq, findTempInt_of_nonneg h hr]
  exact congrArg Except.ok (toShort_eq (by omega) (by omega))

theorem findTemp_of_neg (hlow : -327 ≤ t.offset) (hhigh : t.offset ≤ 327) (hr : r < 0) :
    findTemp t r = .ok (t.offset - 1) := by
  have hrange : InRange (t.offset - 1) := by constructor <;> omega
  rw [findTemp, if_pos hr, sub_eq_ok hrange]
  exact congrArg Except.ok (toShort_eq (by omega) (by omega))

/-- Larger resistances are no warmer, an entry has the temperature of its index, what lies
between two entries one of the degree between theirs, and the result of `_findTemp`, a
temperature of the table, fits the `short` it is converted to. -/
structure Interpolates (t : NtcThermistor) (size : Nat) : Prop where
  antitone : ∀ r₁ r₂, 0 ≤ r₁ → r₁ ≤ r₂ →
    ∃ c₁ c₂, findTemp t r₁ = .ok c₁ ∧ findTemp t r₂ = .ok c₂ ∧ c₂ ≤ c₁
  entry : ∀ i : Nat, i ≤ size → findTemp t (t.ntc i) = .ok (100 * ((i : Int) + t.offset))
  between : ∀ (i : Nat) (r : Int), i + 1 < size → t.ntc (i + 1) < r → r < t.ntc i →
    ∃ c, findTemp t r = .ok c ∧
      100 * ((i : Int) + t.offset) < c ∧ c ≤ 100 * ((i : Int) + 1 + t.offset)
  range : ∀ r, 0 ≤ r → ∃ c, findTempInt t r = .ok c ∧ (-0x8000 ≤ c ∧ c < 0x8000) ∧
    findTemp t r = .ok c ∧ 100 * t.offset ≤ c ∧ c ≤ 100 * t.max

theorem findTemp_antitone (h : t.Tabulated size) {r₁ r₂ : Int} (hr : 0 ≤ r₁) (hle : r₁ ≤ r₂) :
    ∃ c₁ c₂, findTemp t r₁ = .ok c₁ ∧ findTemp t r₂ = .ok c₂ ∧ c₂ ≤ c₁ := by
  have hplace := Interpolation.place_antitone t.ntc size hle
  exact ⟨_, _, findTemp_of_nonneg h hr, findTemp_of_nonneg h (Int.le_trans hr hle), by omega⟩

theorem findTemp_entry (h : t.Tabulated size) {i : Nat} (hi : i ≤ size) (hr : 0 < t.ntc i) :
    findTemp t (t.ntc i) = .ok (100 * ((i : Int) + t.offset)) := by
  rw [findTemp_of_nonneg h (Int.le_of_lt hr), Interpolation.place_entry h.falls hi]
  congr 1
  omega

theorem findTemp_between (h : t.Tabulated size) {i : Nat} (hi : i + 1 < size)
    (hr : 0 < t.ntc (i + 1)) (hbelow : t.ntc (i + 1) < r) (habove : r < t.ntc i) :
    ∃ c, findTemp t r = .ok c ∧
      100 * ((i : Int) + t.offset) < c ∧ c ≤ 100 * ((i : Int) + 1 + t.offset) := by
  have hfound := Interpolation.found_between h.falls hi hbelow habove
  obtain ⟨hlow, hhigh⟩ := hfound.place_bounds
  exact ⟨_, findTemp_of_nonneg h (by omega), by omega, by omega⟩

theorem findTemp_range (h : t.Tabulated size) (hr : 0 ≤ r) :
    ∃ c, findTempInt t r = .ok c ∧ (-0x8000 ≤ c ∧ c < 0x8000) ∧
      findTemp t r = .ok c ∧ 100 * t.offset ≤ c ∧ c ≤ 100 * t.max := by
  have hoffset := h.offset
  have hlimit := h.limit
  obtain ⟨hlow, hhigh⟩ := h.range r
  exact ⟨_, findTempInt_of_nonneg h hr, by omega, findTemp_of_nonneg h hr, hlow, hhigh⟩

/-- In any falling table of resistances that is small enough. -/
theorem findTemp_interpolates (h : t.Tabulated size) (hpositive : ∀ i, i ≤ size → 0 < t.ntc i) :
    t.Interpolates size where
  antitone := fun _ _ hr hle => findTemp_antitone h hr hle
  entry := fun i hi => findTemp_entry h hi (hpositive i hi)
  between := fun i _ hi hbelow habove =>
    findTemp_between h hi (hpositive (i + 1) (Nat.le_of_lt hi)) hbelow habove
  range := fun _ hr => findTemp_range h hr

theorem findTemp_interpolates_four : Interpolates
    (thermistorNew 10000 3300 2500 (-1) 2 fun i => 4000 - 1000 * (i : Int)) 3 := by
  refine findTemp_interpolates ⟨by decide, by decide, by decide, fun i _ => ?_, fun i _ => ?_⟩
    fun i hi => ?_
  · show (4000 : Int) - 1000 * ((i + 1 : Nat) : Int) < 4000 - 1000 * (i : Int)
    omega
  · show (4000 : Int) - 1000 * (i : Int) - (4000 - 1000 * ((i + 1 : Nat) : Int)) ≤ 2147483
    omega
  · show (0 : Int) < 4000 - 1000 * (i : Int)
    omega

/-- The values on the way from the voltage to the resistance, all of them defined. -/
structure Divides (t : NtcThermistor) (measuredValue current ratio resistance : Int) : Prop where
  voltage : InRange (t.voltageRef - measuredValue)
  nanovolts : InRange (1000 * (t.voltageRef - measuredValue))
  divided : div (1000 * (t.voltageRef - measuredValue)) t.refResistance = .ok current
  measured : InRange (1000 * measuredValue)
  related : div (1000 * measuredValue) current = .ok ratio
  product : InRange (ratio * t.parallelResistance)
  remainder : InRange (t.parallelResistance - ratio)
  found : div (ratio * t.parallelResistance) (t.parallelResistance - ratio) = .ok resistance

theorem convertMvToCelcius_eq_ok_iff {m c : Int} : convertMvToCelcius t m = .ok c ↔
    ∃ current ratio resistance, t.Divides m current ratio resistance ∧
      findTemp t resistance = .ok c := by
  simp only [convertMvToCelcius, bind_eq_ok_iff, mul_eq_ok_iff, sub_eq_ok_iff]
  constructor
  · rintro ⟨_, ⟨hvoltage, rfl⟩, _, ⟨hnano, rfl⟩, current, hcurrent, _, ⟨hmeasured, rfl⟩, ratio,
      hratio, _, ⟨hproduct, rfl⟩, _, ⟨hrest, rfl⟩, resistance, hresistance, htemp⟩
    exact ⟨current, ratio, resistance, ⟨hvoltage, hnano, hcurrent, hmeasured, hratio, hproduct,
      hrest, hresistance⟩, htemp⟩
  · rintro ⟨current, ratio, resistance, h, htemp⟩
    exact ⟨_, ⟨h.voltage, rfl⟩, _, ⟨h.nanovolts, rfl⟩, current, h.divided, _, ⟨h.measured, rfl⟩,
      ratio, h.related, _, ⟨h.product, rfl⟩, _, ⟨h.remainder, rfl⟩, resistance, h.found, htemp⟩

end NtcThermistor

end Recirculador
