/-
A circular list of cells.

Cells are numbered `0` to `n - 1` and reached from a head cell by their distance.
A program that keeps only links reaches them by walking; over links that form the
circle, `k` steps of a walk are distance `k`.
-/

namespace Ring

variable {n : Nat}

/-- The cell at distance `i` from `head`. -/
def slot (head : Fin n) (i : Nat) : Fin n :=
  ⟨(head.val + i) % n, Nat.mod_lt _ (Nat.lt_of_le_of_lt (Nat.zero_le _) head.isLt)⟩

/-- The distance from one cell forward to another. -/
def distance (head cell : Fin n) : Nat := (cell.val + n - head.val) % n

def walk (next : Fin n → Fin n) (cell : Fin n) : Nat → Fin n
  | 0 => cell
  | k + 1 => walk next (next cell) k

theorem mod_of_lt_add {a : Nat} (ha : a < n + n) : a % n = if a < n then a else a - n := by
  split
  · rename_i hlt
    exact Nat.mod_eq_of_lt hlt
  · rw [Nat.mod_eq_sub_mod (by omega), Nat.mod_eq_of_lt (by omega)]

theorem slot_zero (head : Fin n) : slot head 0 = head := by
  apply Fin.ext
  exact Nat.mod_eq_of_lt head.isLt

theorem slot_slot (head : Fin n) (i j : Nat) : slot (slot head i) j = slot head (i + j) := by
  apply Fin.ext
  simp only [slot, Nat.mod_add_mod, Nat.add_assoc]

theorem slot_inj {head : Fin n} {i j : Nat} (hi : i < n) (hj : j < n) :
    slot head i = slot head j ↔ i = j := by
  constructor
  · intro h
    have hval : (head.val + i) % n = (head.val + j) % n := congrArg Fin.val h
    have hhead := head.isLt
    rw [mod_of_lt_add (by omega), mod_of_lt_add (by omega)] at hval
    split at hval <;> split at hval <;> omega
  · rintro rfl
    rfl

theorem distance_slot (head : Fin n) {i : Nat} (hi : i < n) :
    distance head (slot head i) = i := by
  have hhead := head.isLt
  have hslot : (slot head i).val = if head.val + i < n then head.val + i else head.val + i - n :=
    mod_of_lt_add (by omega)
  rw [distance, hslot]
  split
  · have hsum : head.val + i + n - head.val = i + n := by omega
    rw [hsum, Nat.add_mod_right, Nat.mod_eq_of_lt hi]
  · have hsum : head.val + i - n + n - head.val = i := by omega
    rw [hsum, Nat.mod_eq_of_lt hi]

theorem walk_eq_slot {next : Fin n → Fin n} (hnext : ∀ cell, next cell = slot cell 1)
    (cell : Fin n) (k : Nat) : walk next cell k = slot cell k := by
  induction k generalizing cell with
  | zero => exact (slot_zero cell).symm
  | succ k ih => rw [walk, ih, hnext, slot_slot, Nat.add_comm]

end Ring
