/-
Linear search and interpolation in a table.

A value is looked for in a table of falling entries: the search stops at the first entry
that is not above it, and between that entry and the one before the place is found by
linear interpolation, in hundredths of an index.  Whatever the table, a larger value is
never placed later.
-/

namespace Interpolation

/-- The search of `n` entries stops at `i`. -/
structure Found (table : Nat → Int) (n : Nat) (r : Int) (i : Nat) : Prop where
  bound : i < n
  below : table i ≤ r
  above : ∀ j, j < i → r < table j

def search (table : Nat → Int) (n : Nat) (r : Int) : Option Nat :=
  (List.range n).find? fun i => decide (table i ≤ r)

/-- How far a value is from an entry, in hundredths of the way to the one before. -/
def hundredths (before entry r : Int) : Int := (r - entry) * 1000 / (before - entry) / 10

/-- The place of a value.  Before the first entry there is none to go back to, and past the
last one searched the search has run to its end. -/
def place (table : Nat → Int) (n : Nat) (r : Int) : Int :=
  match search table n r with
  | none => 100 * n
  | some 0 => 0
  | some (i + 1) => 100 * ((i : Int) + 1) - hundredths (table i) (table (i + 1)) r

variable {table : Nat → Int} {n i : Nat} {r r₁ r₂ : Int}

/-! ## The search -/

theorem search_eq_some_iff : search table n r = some i ↔ Found table n r i := by
  rw [search, List.find?_range_eq_some, List.mem_range, decide_eq_true_iff]
  constructor
  · rintro ⟨hbelow, hi, habove⟩
    exact ⟨hi, hbelow, fun j hj => by simpa using habove j hj⟩
  · intro h
    exact ⟨h.below, h.bound, fun j hj => by simpa using h.above j hj⟩

theorem search_eq_none_iff : search table n r = none ↔ ∀ i, i < n → r < table i := by
  rw [search, List.find?_range_eq_none]
  simp only [Bool.not_eq_true', decide_eq_false_iff_not, Int.not_le]

/-- A larger value stops the search no later. -/
theorem Found.le {j : Nat} (h : Found table n r₁ i) (h' : Found table n r₂ j) (hr : r₁ ≤ r₂) :
    j ≤ i := by
  refine Nat.not_lt.mp fun hlt => ?_
  have habove := h'.above i hlt
  have hbelow := h.below
  omega

/-! ## The place -/

theorem place_zero (h : Found table n r 0) : place table n r = 0 := by
  rw [place, search_eq_some_iff.mpr h]

theorem place_succ (h : Found table n r (i + 1)) : place table n r =
    100 * ((i : Int) + 1) - hundredths (table i) (table (i + 1)) r := by
  rw [place, search_eq_some_iff.mpr h]

theorem place_none (h : ∀ i, i < n → r < table i) : place table n r = 100 * n := by
  rw [place, search_eq_none_iff.mpr h]

theorem hundredths_bounds {before entry : Int} (hentry : entry ≤ r) (hbefore : r < before) :
    0 ≤ hundredths before entry r ∧ hundredths before entry r ≤ 99 := by
  have hgap : 0 < before - entry := by omega
  have hnonneg : 0 ≤ (r - entry) * 1000 / (before - entry) := by
    refine Int.ediv_nonneg ?_ (by omega)
    omega
  have hlt : (r - entry) * 1000 / (before - entry) < 1000 :=
    Int.ediv_lt_of_lt_mul hgap (by omega)
  rw [hundredths]
  omega

/-- Divisions that truncate toward zero give the same. -/
theorem hundredths_tdiv {before entry : Int} (hentry : entry ≤ r) (hbefore : r < before) :
    (((r - entry) * 1000).tdiv (before - entry)).tdiv 10 = hundredths before entry r := by
  have hnonneg : 0 ≤ (r - entry) * 1000 := by omega
  have hquotient : 0 ≤ (r - entry) * 1000 / (before - entry) := Int.ediv_nonneg hnonneg (by omega)
  rw [Int.tdiv_eq_ediv_of_nonneg hnonneg, Int.tdiv_eq_ediv_of_nonneg hquotient, hundredths]

theorem hundredths_mono (before entry : Int) (hgap : entry < before) (hr : r₁ ≤ r₂) :
    hundredths before entry r₁ ≤ hundredths before entry r₂ := by
  have hquotient : (r₁ - entry) * 1000 / (before - entry) ≤
      (r₂ - entry) * 1000 / (before - entry) :=
    Int.ediv_le_ediv (by omega) (by omega)
  exact Int.ediv_le_ediv (by decide) hquotient

/-- The place of a value is in the last step before the entry it stops at. -/
theorem Found.place_bounds (h : Found table n r i) :
    100 * (i : Int) - 99 ≤ place table n r ∧ place table n r ≤ 100 * i := by
  cases i with
  | zero =>
    rw [place_zero h]
    exact ⟨by decide, by decide⟩
  | succ k =>
    obtain ⟨hlow, hhigh⟩ := hundredths_bounds h.below (h.above k (Nat.lt_succ_self k))
    rw [place_succ h]
    omega

theorem place_nonneg (table : Nat → Int) (n : Nat) (r : Int) : 0 ≤ place table n r := by
  cases hsearch : search table n r with
  | none =>
    rw [place_none (search_eq_none_iff.mp hsearch)]
    omega
  | some i =>
    have hfound := search_eq_some_iff.mp hsearch
    cases i with
    | zero => exact Int.le_of_eq (place_zero hfound).symm
    | succ k =>
      have hlow := hfound.place_bounds.1
      omega

theorem place_le (table : Nat → Int) (n : Nat) (r : Int) : place table n r ≤ 100 * n := by
  cases hsearch : search table n r with
  | none => exact Int.le_of_eq (place_none (search_eq_none_iff.mp hsearch))
  | some i =>
    have hfound := search_eq_some_iff.mp hsearch
    have hhigh := hfound.place_bounds.2
    have hbound := hfound.bound
    omega

/-- A larger value is placed no later. -/
theorem place_antitone (table : Nat → Int) (n : Nat) (hr : r₁ ≤ r₂) :
    place table n r₂ ≤ place table n r₁ := by
  cases hsearch : search table n r₁ with
  | none =>
    rw [place_none (search_eq_none_iff.mp hsearch)]
    exact place_le table n r₂
  | some i =>
    have hfound₁ := search_eq_some_iff.mp hsearch
    cases hsearch₂ : search table n r₂ with
    | none =>
      have habove := search_eq_none_iff.mp hsearch₂ i hfound₁.bound
      have hbelow := hfound₁.below
      omega
    | some j =>
      have hfound₂ := search_eq_some_iff.mp hsearch₂
      have hle := hfound₁.le hfound₂ hr
      by_cases hlt : j < i
      · have hlow := hfound₁.place_bounds.1
        have hhigh := hfound₂.place_bounds.2
        omega
      · -- Both stop at the same entry.
        have hsame : j = i := by omega
        subst hsame
        cases j with
        | zero => exact Int.le_of_eq ((place_zero hfound₂).trans (place_zero hfound₁).symm)
        | succ k =>
          have habove := hfound₁.above k (Nat.lt_succ_self k)
          have hbelow := hfound₁.below
          have hmono := hundredths_mono (table k) (table (k + 1)) (by omega) hr
          rw [place_succ hfound₁, place_succ hfound₂]
          omega

/-- At or above the first entry there is nothing to interpolate. -/
theorem place_first (hn : 0 < n) (hr : table 0 ≤ r) : place table n r = 0 :=
  place_zero ⟨hn, hr, fun j hj => absurd hj (Nat.not_lt_zero j)⟩

/-! ## The entries -/

theorem falls_lt (hfalls : ∀ i, i < n → table (i + 1) < table i) {j : Nat} (hij : i < j)
    (hj : j ≤ n) : table j < table i := by
  induction j with
  | zero => exact absurd hij (Nat.not_lt_zero i)
  | succ j ih =>
    have hstep := hfalls j hj
    rcases Nat.lt_or_ge i j with hlt | hge
    · have hrest := ih hlt (by omega)
      omega
    · have hsame : i = j := by omega
      rw [hsame]
      exact hstep

theorem found_entry (hfalls : ∀ i, i < n → table (i + 1) < table i) (hi : i < n) :
    Found table n (table i) i :=
  ⟨hi, Int.le_refl _, fun _ hj => falls_lt hfalls hj (by omega)⟩

/-- Between two entries the search stops at the second. -/
theorem found_between (hfalls : ∀ i, i < n → table (i + 1) < table i) (hi : i + 1 < n)
    (hbelow : table (i + 1) < r) (habove : r < table i) : Found table n r (i + 1) := by
  refine ⟨hi, Int.le_of_lt hbelow, fun j hj => ?_⟩
  rcases Nat.lt_or_ge j i with hlt | hge
  · have hentry := falls_lt hfalls hlt (by omega)
    omega
  · have hsame : j = i := by omega
    rw [hsame]
    exact habove

/-- An entry is placed at its index, the last one too, which is not searched. -/
theorem place_entry (hfalls : ∀ i, i < n → table (i + 1) < table i) (hi : i ≤ n) :
    place table n (table i) = 100 * i := by
  rcases Nat.lt_or_ge i n with hlt | hge
  · cases i with
    | zero => exact place_zero (found_entry hfalls hlt)
    | succ k =>
      rw [place_succ (found_entry hfalls hlt), hundredths, Int.sub_self]
      simp only [Int.zero_mul, Int.zero_ediv]
      omega
  · have hlast : i = n := by omega
    rw [hlast]
    exact place_none fun j hj => falls_lt hfalls hj (Nat.le_refl n)

/-! ## Half the way between two entries -/

theorem hundredths_le_half {before entry : Int} (hgap : entry < before)
    (h : 2 * r ≤ before + entry) : hundredths before entry r ≤ 50 := by
  have hquotient : (r - entry) * 1000 / (before - entry) ≤ 500 :=
    Int.ediv_le_of_le_mul (by omega) (by omega)
  rw [hundredths]
  omega

theorem half_le_hundredths {before entry : Int} (hgap : entry < before)
    (h : before + entry ≤ 2 * r) : 50 ≤ hundredths before entry r := by
  have hquotient : 500 ≤ (r - entry) * 1000 / (before - entry) :=
    (Int.le_ediv_iff_mul_le (by omega)).mpr (by omega)
  rw [hundredths]
  omega

/-- On the near side of the middle no value is placed before the middle. -/
theorem half_le_place (hfalls : ∀ i, i < n → table (i + 1) < table i) (hi : i + 1 < n)
    (h : 2 * r ≤ table i + table (i + 1)) : 100 * ((i : Int) + 1) - 50 ≤ place table n r := by
  have hgap := hfalls i (by omega)
  by_cases hentry : r ≤ table (i + 1)
  · have hplace := place_antitone table n hentry
    rw [place_entry hfalls (Nat.le_of_lt hi)] at hplace
    omega
  · have hhalf := hundredths_le_half hgap h
    rw [place_succ (found_between hfalls hi (by omega) (by omega))]
    omega

/-- Nor on the far side behind it. -/
theorem place_le_half (hfalls : ∀ i, i < n → table (i + 1) < table i) (hi : i + 1 < n)
    (h : table i + table (i + 1) ≤ 2 * r) : place table n r ≤ 100 * ((i : Int) + 1) - 50 := by
  have hgap := hfalls i (by omega)
  by_cases hentry : table i ≤ r
  · have hplace := place_antitone table n hentry
    rw [place_entry hfalls (by omega)] at hplace
    omega
  · have hhalf := half_le_hundredths hgap h
    rw [place_succ (found_between hfalls hi (by omega) (by omega))]
    omega

end Interpolation
