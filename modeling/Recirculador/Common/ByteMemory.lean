/-
Byte-addressed memory with little-endian cells.

A memory is a function from addresses to bytes.  `load` and `store` move a cell
of `n` bytes, least significant byte first, and `copy` moves a block.  The rules
a program proof needs are the read-back of a cell just written and the frame of
every cell the write does not meet, both proved one bit at a time.
-/

abbrev ByteMemory := Nat → BitVec 8

namespace ByteMemory

/-- The `n` bytes from `off` on, as one little-endian number. -/
def load : (n : Nat) → ByteMemory → Nat → BitVec (8 * n)
  | 0, _, _ => 0#0
  | n + 1, m, off => load n m (off + 1) ++ m off

/-- Replace the `n` bytes from `off` on by the little-endian bytes of `v`. -/
def store (n : Nat) (m : ByteMemory) (off : Nat) (v : BitVec (8 * n)) : ByteMemory :=
  fun a => if off ≤ a ∧ a < off + n then v.extractLsb' (8 * (a - off)) 8 else m a

/-- Replace the `len` bytes from `off` on by the first `len` bytes of `src`. -/
def copy (m : ByteMemory) (off len : Nat) (src : ByteMemory) : ByteMemory :=
  fun a => if off ≤ a ∧ a < off + len then src (a - off) else m a

theorem getLsbD_load (n : Nat) (m : ByteMemory) (off i : Nat) :
    (load n m off).getLsbD i = (decide (i < 8 * n) && (m (off + i / 8)).getLsbD (i % 8)) := by
  induction n generalizing off i with
  | zero => simp [load]
  | succ n ih =>
    rw [load, BitVec.getLsbD_append, ih]
    by_cases hi : i < 8
    · have h8 : i < 8 * (n + 1) := by omega
      have hdiv : i / 8 = 0 := by omega
      have hmod : i % 8 = i := by omega
      simp [hi, h8, hdiv, hmod]
    · have hlt : (i - 8 < 8 * n) = (i < 8 * (n + 1)) := by
        apply propext; omega
      have hdiv : off + 1 + (i - 8) / 8 = off + i / 8 := by omega
      have hmod : (i - 8) % 8 = i % 8 := by omega
      simp [hi, hlt, hdiv, hmod]

theorem load_congr {n : Nat} {m m' : ByteMemory} {off off' : Nat}
    (h : ∀ j, j < n → m (off + j) = m' (off' + j)) : load n m off = load n m' off' := by
  apply BitVec.eq_of_getLsbD_eq
  intro i hi
  rw [getLsbD_load, getLsbD_load, h (i / 8) (by omega)]

theorem store_inside (n : Nat) {m : ByteMemory} {off : Nat} (v : BitVec (8 * n)) {j : Nat}
    (hj : j < n) : store n m off v (off + j) = v.extractLsb' (8 * j) 8 := by
  have h : off ≤ off + j ∧ off + j < off + n := by omega
  simp [store, h]

theorem store_outside (n : Nat) {m : ByteMemory} {off a : Nat} (v : BitVec (8 * n))
    (h : a < off ∨ off + n ≤ a) : store n m off v a = m a := by
  have h' : ¬ (off ≤ a ∧ a < off + n) := by omega
  simp only [store, h', if_false]

theorem copy_inside {m src : ByteMemory} {off len j : Nat} (hj : j < len) :
    copy m off len src (off + j) = src j := by
  have h : off ≤ off + j ∧ off + j < off + len := by omega
  simp [copy, h]

theorem copy_outside {m src : ByteMemory} {off len a : Nat} (h : a < off ∨ off + len ≤ a) :
    copy m off len src a = m a := by
  have h' : ¬ (off ≤ a ∧ a < off + len) := by omega
  simp only [copy, h', if_false]

theorem load_store (n : Nat) (m : ByteMemory) (off : Nat) (v : BitVec (8 * n)) :
    load n (store n m off v) off = v := by
  apply BitVec.eq_of_getLsbD_eq
  intro i hi
  have hsplit : 8 * (i / 8) + i % 8 = i := by omega
  rw [getLsbD_load, store_inside n v (by omega : i / 8 < n), BitVec.getLsbD_extractLsb', hsplit]
  simp [hi, Nat.mod_lt]

theorem load_store_of_disjoint (n n' : Nat) {m : ByteMemory} {off off' : Nat}
    (v : BitVec (8 * n)) (h : off' + n' ≤ off ∨ off + n ≤ off') :
    load n' (store n m off v) off' = load n' m off' :=
  load_congr fun j hj => store_outside n v (by omega)

theorem load_copy_inside {n : Nat} {m src : ByteMemory} {off len j : Nat} (h : j + n ≤ len) :
    load n (copy m off len src) (off + j) = load n src j :=
  load_congr fun i hi => by
    rw [Nat.add_assoc, copy_inside (by omega)]

theorem load_copy_of_disjoint {n : Nat} {m src : ByteMemory} {off len off' : Nat}
    (h : off' + n ≤ off ∨ off + len ≤ off') :
    load n (copy m off len src) off' = load n m off' :=
  load_congr fun j hj => copy_outside (by omega)

end ByteMemory
