/-
Peeling units of varying length off a count.

`peel` takes unit `k`, `k + 1`, ... off a count while a whole one fits and unit
`last` is not reached.  Position and rest together always name the same count,
which is what makes the peeled form invertible.
-/

namespace Peel

variable (len : Nat → Nat)

/-- The length of the first `k` units. -/
def start : Nat → Nat
  | 0 => 0
  | k + 1 => start k + len k

theorem start_mono {a b : Nat} (h : a ≤ b) : start len a ≤ start len b := by
  induction h with
  | refl => exact Nat.le_refl _
  | step _ ih => exact Nat.le_trans ih (Nat.le_add_right _ _)

/-- Only the lengths of the units passed count. -/
theorem start_congr {len' : Nat → Nat} {n : Nat} (h : ∀ k, k < n → len k = len' k) :
    start len n = start len' n := by
  induction n with
  | zero => rfl
  | succ n ih =>
    rw [start, start, ih fun k hk => h k (Nat.lt_succ_of_lt hk), h n (Nat.lt_succ_self n)]

def peel (last : Nat) : Nat → Nat × Nat → Nat × Nat
  | 0, s => s
  | fuel + 1, s =>
    if last ≤ s.1 ∨ s.2 < len s.1 then s else peel last fuel (s.1 + 1, s.2 - len s.1)

variable (last : Nat)

/-- The count is the units passed and the rest. -/
theorem start_peel (fuel : Nat) (s : Nat × Nat) :
    start len (peel len last fuel s).1 + (peel len last fuel s).2 = start len s.1 + s.2 := by
  induction fuel generalizing s with
  | zero => rfl
  | succ fuel ih =>
    rw [peel]
    split
    · rfl
    · rename_i hfits
      rw [ih, start]
      omega

variable {len} in
/-- Nothing whole is left, given fuel for the count or for the units. -/
theorem peel_rest (hpos : ∀ k, 0 < len k) {fuel : Nat} {s : Nat × Nat}
    (hfuel : s.2 < fuel ∨ last ≤ s.1 + fuel) :
    last ≤ (peel len last fuel s).1 ∨
      (peel len last fuel s).2 < len (peel len last fuel s).1 := by
  induction fuel generalizing s with
  | zero => exact Or.inl (show last ≤ s.1 by omega)
  | succ fuel ih =>
    rw [peel]
    split
    · rename_i hstop
      exact hstop
    · have hlen := hpos s.1
      exact ih (show s.2 - len s.1 < fuel ∨ last ≤ s.1 + 1 + fuel by omega)

theorem peel_fst_le (fuel : Nat) {s : Nat × Nat} (hs : s.1 ≤ last) :
    (peel len last fuel s).1 ≤ last := by
  induction fuel generalizing s with
  | zero => exact hs
  | succ fuel ih =>
    rw [peel]
    split
    · exact hs
    · exact ih (show s.1 + 1 ≤ last by omega)

end Peel
