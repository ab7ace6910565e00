/-
Arithmetic of 32-bit signed integers that stops where it is undefined.

An operation has a result if its mathematical value fits, and a division besides needs a
divisor other than 0.  Division truncates toward zero.
-/

namespace CheckedInt

universe u v w

inductive Fault
  | zeroDivisor
  | overflow
  deriving DecidableEq

def InRange (x : Int) : Prop := -0x80000000 ≤ x ∧ x < 0x80000000

instance (x : Int) : Decidable (InRange x) := inferInstanceAs (Decidable (_ ∧ _))

def fit (x : Int) : Except Fault Int := if InRange x then .ok x else .error .overflow

def add (a b : Int) : Except Fault Int := fit (a + b)

def sub (a b : Int) : Except Fault Int := fit (a - b)

def mul (a b : Int) : Except Fault Int := fit (a * b)

def div (a b : Int) : Except Fault Int :=
  if b = 0 then .error .zeroDivisor else fit (a.tdiv b)

variable {a b c x : Int}

/-! ## When there is a result -/

theorem fit_eq_ok (h : InRange x) : fit x = .ok x := if_pos h

theorem fit_eq_ok_iff : fit x = .ok c ↔ InRange x ∧ x = c := by
  rw [fit]
  split
  · rename_i h
    rw [Except.ok.injEq]
    exact ⟨fun he => ⟨h, he⟩, fun he => he.2⟩
  · rename_i h
    exact iff_of_false (fun he => nomatch he) fun he => h he.1

theorem sub_eq_ok_iff : sub a b = .ok c ↔ InRange (a - b) ∧ a - b = c := fit_eq_ok_iff

theorem mul_eq_ok_iff : mul a b = .ok c ↔ InRange (a * b) ∧ a * b = c := fit_eq_ok_iff

theorem div_eq_ok_iff : div a b = .ok c ↔ b ≠ 0 ∧ InRange (a.tdiv b) ∧ a.tdiv b = c := by
  rw [div]
  split
  · rename_i h
    exact iff_of_false (fun he => nomatch he) fun he => he.1 h
  · rename_i h
    rw [fit_eq_ok_iff]
    exact ⟨fun he => ⟨h, he⟩, fun he => he.2⟩

theorem add_eq_ok (h : InRange (a + b)) : add a b = .ok (a + b) := fit_eq_ok h

theorem sub_eq_ok (h : InRange (a - b)) : sub a b = .ok (a - b) := fit_eq_ok h

theorem mul_eq_ok (h : InRange (a * b)) : mul a b = .ok (a * b) := fit_eq_ok h

theorem div_eq_ok (hb : b ≠ 0) (h : InRange (a.tdiv b)) : div a b = .ok (a.tdiv b) :=
  (if_neg hb).trans (fit_eq_ok h)

/-- A sequence has a result if its steps have, one after the other. -/
theorem bind_eq_ok_iff {ε : Type u} {α β : Type v} {m : Except ε α} {f : α → Except ε β} {r : β} :
    (m >>= f) = .ok r ↔ ∃ v, m = .ok v ∧ f v = .ok r := by
  cases m with
  | ok v =>
    constructor
    · intro h
      exact ⟨v, rfl, h⟩
    · rintro ⟨w, hw, hr⟩
      rw [Except.ok.injEq] at hw
      rw [hw]
      exact hr
  | error e => exact iff_of_false (fun h => nomatch h) fun ⟨v, hv, _⟩ => nomatch hv

/-! ## Quotients -/

/-- Only the quotient of the smallest number by -1 does not fit. -/
theorem inRange_tdiv (ha : a.natAbs < 0x80000000) (b : Int) : InRange (a.tdiv b) := by
  have hle := Int.natAbs_tdiv_le_natAbs a b
  constructor <;> omega

/-- A quotient grows with the number divided and falls with the divisor. -/
theorem tdiv_le_tdiv {a' b' : Int} (ha : 0 ≤ a) (hle : a ≤ a') (hpos : 0 < b') (hb : b' ≤ b) :
    a.tdiv b ≤ a'.tdiv b' := by
  have hnonneg : 0 ≤ a / b := Int.ediv_nonneg ha (by omega)
  have hmul : a / b * b' ≤ a' := by
    calc a / b * b' ≤ a / b * b := Int.mul_le_mul_of_nonneg_left hb hnonneg
      _ ≤ a := Int.ediv_mul_le a (by omega)
      _ ≤ a' := hle
  rw [Int.tdiv_eq_ediv_of_nonneg ha, Int.tdiv_eq_ediv_of_nonneg (Int.le_trans ha hle)]
  exact Int.le_ediv_of_mul_le hpos hmul

end CheckedInt
