/-
Checksums by shifts of a register.

A register of `w` bits takes the next bit at its low end and is shifted down; if a
one falls out, `poly` is added.  A shift is linear, and one to one if `poly` has
its top bit.  Over a stream of bits the register is therefore the sum of what each
part of the stream contributes, and a pattern that fits into the register is never
lost.
-/
import Recirculador.Common.TableCrc

namespace BitCrc

variable {w : Nat} (poly : BitVec w)

def shift (crc : BitVec w) : BitVec w :=
  (crc >>> 1) ^^^ (if crc.getLsbD 0 then poly else 0#w)

def shifts : Nat → BitVec w → BitVec w
  | 0, crc => crc
  | m + 1, crc => shift poly (shifts m crc)

/-! ## Shifts -/

theorem shift_xor (a b : BitVec w) : shift poly (a ^^^ b) = shift poly a ^^^ shift poly b := by
  have hpoly : poly ^^^ poly = 0#w := BitVec.xor_self
  simp only [shift, BitVec.getLsbD_xor, BitVec.ushiftRight_xor_distrib]
  cases a.getLsbD 0 <;> cases b.getLsbD 0 <;>
    simp only [Bool.xor_false, Bool.false_xor, Bool.xor_self, Bool.false_eq_true, if_true,
      if_false, BitVec.xor_zero]
  · exact (BitVec.xor_assoc _ _ _)
  · rw [BitVec.xor_assoc, BitVec.xor_assoc, BitVec.xor_comm poly]
  · rw [BitVec.xor_assoc (a >>> 1), BitVec.xor_comm poly, BitVec.xor_assoc (b >>> 1), hpoly,
      BitVec.xor_zero]

theorem shifts_xor (m : Nat) (a b : BitVec w) :
    shifts poly m (a ^^^ b) = shifts poly m a ^^^ shifts poly m b := by
  induction m with
  | zero => rfl
  | succ m ih => rw [shifts, ih, shift_xor, shifts, shifts]

theorem shifts_zero (m : Nat) : shifts poly m 0#w = 0#w := by
  have h := shifts_xor poly m 0#w 0#w
  rw [BitVec.xor_self, BitVec.xor_self] at h
  exact h

/-- Low bits that are zero fall out and leave nothing. -/
theorem shifts_low {m : Nat} {crc : BitVec w} (h : ∀ i < m, crc.getLsbD i = false) :
    shifts poly m crc = crc >>> m := by
  induction m with
  | zero => rw [shifts, BitVec.ushiftRight_zero]
  | succ m ih =>
    have hbit : (crc >>> m).getLsbD 0 = false := by
      rw [BitVec.getLsbD_ushiftRight]
      exact h m (Nat.lt_succ_self m)
    rw [shifts, ih fun i hi => h i (Nat.lt_succ_of_lt hi), shift, hbit, if_neg Bool.false_ne_true,
      BitVec.xor_zero, ← BitVec.shiftRight_add]

variable {poly}

theorem shift_eq_zero (hpoly : poly.msb = true) {crc : BitVec w} (h : shift poly crc = 0#w) :
    crc = 0#w := by
  have hw : 0 < w := Nat.pos_of_ne_zero fun hw => by
    subst hw
    exact absurd hpoly (by rw [BitVec.eq_nil poly]; decide)
  cases hbit : crc.getLsbD 0 with
  | true =>
    -- the one that fell out set the top bit
    have htop := congrArg BitVec.msb h
    rw [shift, hbit, if_pos rfl, BitVec.msb_xor, hpoly, BitVec.msb_ushiftRight] at htop
    simp at htop
  | false =>
    rw [shift, hbit, if_neg Bool.false_ne_true, BitVec.xor_zero] at h
    apply BitVec.eq_of_getLsbD_eq
    intro i hi
    cases i with
    | zero => rw [hbit, BitVec.getLsbD_zero]
    | succ i =>
      have hi := congrArg (fun v => v.getLsbD i) h
      rw [BitVec.getLsbD_ushiftRight, BitVec.getLsbD_zero, Nat.add_comm] at hi
      rw [hi, BitVec.getLsbD_zero]

theorem shifts_eq_zero (hpoly : poly.msb = true) {m : Nat} {crc : BitVec w}
    (h : shifts poly m crc = 0#w) : crc = 0#w := by
  induction m with
  | zero => exact h
  | succ m ih => exact ih (shift_eq_zero hpoly h)

/-! ## Streams of bits -/

variable (poly)

def feed (crc : BitVec w) (bit : Bool) : BitVec w :=
  shift poly (crc ^^^ (BitVec.ofBool bit).setWidth w)

/-- The register after the first `n` bits. -/
def run (crc : BitVec w) (bits : Nat → Bool) : Nat → BitVec w
  | 0 => crc
  | n + 1 => feed poly (run crc bits n) (bits n)

theorem run_add (crc : BitVec w) (bits : Nat → Bool) (m n : Nat) :
    run poly crc bits (m + n) = run poly (run poly crc bits m) (fun k => bits (m + k)) n := by
  induction n with
  | zero => rfl
  | succ n ih => rw [← Nat.add_assoc, run, ih, run]

theorem setWidth_ofBool_xor (a b : Bool) : (BitVec.ofBool (a ^^ b)).setWidth w =
    (BitVec.ofBool a).setWidth w ^^^ (BitVec.ofBool b).setWidth w := by
  rw [← BitVec.setWidth_xor]
  cases a <;> cases b <;> rfl

/-- The register is linear in its start and the stream together. -/
theorem run_xor (a b : BitVec w) (f g : Nat → Bool) (n : Nat) :
    run poly (a ^^^ b) (fun k => f k ^^ g k) n = run poly a f n ^^^ run poly b g n := by
  induction n with
  | zero => rfl
  | succ n ih =>
    have hsum : run poly a f n ^^^ run poly b g n ^^^ ((BitVec.ofBool (f n)).setWidth w ^^^
          (BitVec.ofBool (g n)).setWidth w) =
        (run poly a f n ^^^ (BitVec.ofBool (f n)).setWidth w) ^^^
          (run poly b g n ^^^ (BitVec.ofBool (g n)).setWidth w) := by
      ac_rfl
    rw [run, ih, feed, setWidth_ofBool_xor, hsum, shift_xor]
    rfl

theorem run_false (crc : BitVec w) {bits : Nat → Bool} {n : Nat}
    (h : ∀ k < n, bits k = false) : run poly crc bits n = shifts poly n crc := by
  induction n with
  | zero => rfl
  | succ n ih =>
    have hzero : (BitVec.ofBool false).setWidth w = 0#w := by simp
    rw [run, ih fun k hk => h k (Nat.lt_succ_of_lt hk), h n (Nat.lt_succ_self n), feed, hzero,
      BitVec.xor_zero, shifts]

/-- The first `m` bits as a word. -/
def window (bits : Nat → Bool) : Nat → BitVec w
  | 0 => 0#w
  | m + 1 => window bits m ^^^ (BitVec.ofBool (bits m)).setWidth w <<< m

theorem getLsbD_bit (b : Bool) {m i : Nat} (hi : i < w) :
    ((BitVec.ofBool b).setWidth w <<< m).getLsbD i = (decide (i = m) && b) := by
  rw [BitVec.getLsbD_shiftLeft, BitVec.getLsbD_setWidth, BitVec.getLsbD_ofBool]
  by_cases him : i < m
  · have hne : i ≠ m := by omega
    simp [him, hne]
  · by_cases he : i = m
    · subst he
      simp [hi]
      intro _
      omega
    · have hsub : i - m ≠ 0 := by omega
      simp [he, hsub]

theorem getLsbD_window (bits : Nat → Bool) (m : Nat) {i : Nat} (hi : i < w) :
    (window bits m : BitVec w).getLsbD i = (decide (i < m) && bits i) := by
  induction m with
  | zero => simp [window]
  | succ m ih =>
    rw [window, BitVec.getLsbD_xor, ih, getLsbD_bit _ hi]
    rcases Nat.lt_trichotomy i m with h | h | h
    · have hne : i ≠ m := by omega
      simp [h, hne, Nat.lt_succ_of_lt h]
    · subst h
      simp
    · have hlt : ¬ i < m := by omega
      have hlt' : ¬ i < m + 1 := by omega
      have hne : i ≠ m := by omega
      simp [hlt, hlt', hne]

/-- Up to `w` bits enter the register before the first of them leaves it. -/
theorem run_window (crc : BitVec w) (bits : Nat → Bool) {m : Nat} (hm : m ≤ w) :
    run poly crc bits m = shifts poly m (crc ^^^ window bits m) := by
  induction m with
  | zero => rw [run, window, BitVec.xor_zero, shifts]
  | succ m ih =>
    -- a bit that enters after `m` shifts is one that stood `m` places higher before them
    have hbit : shifts poly m ((BitVec.ofBool (bits m)).setWidth w <<< m) =
        (BitVec.ofBool (bits m)).setWidth w := by
      rw [shifts_low poly fun i hi => by
        rw [getLsbD_bit _ (by omega), decide_eq_false (by omega), Bool.false_and]]
      apply BitVec.eq_of_getLsbD_eq
      intro i hi
      rw [BitVec.getLsbD_ushiftRight]
      by_cases hlt : m + i < w
      · have hle : ¬ m + i < m := by omega
        have hsub : m + i - m = i := by omega
        rw [BitVec.getLsbD_shiftLeft, decide_eq_true hlt, decide_eq_false hle, hsub]
        simp
      · have hi : i ≠ 0 := by omega
        rw [BitVec.getLsbD_of_ge _ _ (by omega), BitVec.getLsbD_setWidth, BitVec.getLsbD_ofBool]
        simp [hi]
    rw [run, ih (by omega), feed, shifts, window, ← BitVec.xor_assoc, shifts_xor poly m _
      ((BitVec.ofBool (bits m)).setWidth w <<< m), hbit]

/-! ## Bursts -/

variable {poly}

/-- A pattern whose ones lie within `w` places leaves a register that is not zero,
however many zeros follow. -/
theorem run_burst (hpoly : poly.msb = true) {e : Nat → Bool} {p n k : Nat}
    (hburst : ∀ k < n, e k = true → p ≤ k ∧ k < p + w) (hk : k < n) (he : e k = true) :
    run poly 0#w e n ≠ 0#w := by
  have hkp := hburst k hk he
  have hbefore : run poly 0#w e p = 0#w := by
    rw [run_false, shifts_zero]
    intro i hi
    rw [Bool.eq_false_iff]
    intro hi'
    have := hburst i (by omega) hi'
    omega
  have hin : ∀ m ≤ w, k < p + m → run poly 0#w e (p + m) ≠ 0#w := by
    intro m hm hkm hzero
    rw [run_add, hbefore, run_window poly _ _ hm, BitVec.zero_xor] at hzero
    have hbit := congrArg (fun v => v.getLsbD (k - p)) (shifts_eq_zero hpoly hzero)
    have hplace : p + (k - p) = k := by omega
    rw [getLsbD_window _ _ (by omega), hplace, he, decide_eq_true (by omega),
      BitVec.getLsbD_zero] at hbit
    exact absurd hbit (by decide)
  rcases Nat.le_total n (p + w) with hle | hle
  · have hsplit : n = p + (n - p) := by omega
    rw [hsplit]
    exact hin (n - p) (by omega) (by omega)
  · have hsplit : n = p + w + (n - (p + w)) := by omega
    intro hzero
    rw [hsplit, run_add, run_false] at hzero
    · exact hin w (Nat.le_refl w) hkp.2 (shifts_eq_zero hpoly hzero)
    · intro i hi
      rw [Bool.eq_false_iff]
      intro hi'
      have := hburst (p + w + i) (by omega) hi'
      omega

/-- A stream that leaves a zero register no longer does so after a burst. -/
theorem run_xor_burst (hpoly : poly.msb = true) {crc : BitVec w} {bits e : Nat → Bool} {p n k : Nat}
    (hzero : run poly crc bits n = 0#w)
    (hburst : ∀ k < n, e k = true → p ≤ k ∧ k < p + w) (hk : k < n) (he : e k = true) :
    run poly crc (fun k => bits k ^^ e k) n ≠ 0#w := by
  have hsum := run_xor poly crc 0#w bits e n
  rw [BitVec.xor_zero, hzero, BitVec.zero_xor] at hsum
  rw [hsum]
  exact run_burst hpoly hburst hk he

/-! ## Bytes -/

variable (poly)

/-- A byte at a time: it is added to the low end and shifted through. -/
def byteStep (crc : BitVec w) (byte : BitVec 8) : BitVec w :=
  shifts poly 8 (crc ^^^ byte.setWidth w)

/-- The bits of a string of bytes, the least significant of each byte first. -/
def bitStream (buf : Nat → BitVec 8) (k : Nat) : Bool := (buf (k / 8)).getLsbD (k % 8)

theorem window_bitStream (buf : Nat → BitVec 8) (len : Nat) :
    (window (fun k => bitStream buf (8 * len + k)) 8 : BitVec w) = (buf len).setWidth w := by
  apply BitVec.eq_of_getLsbD_eq
  intro i hi
  rw [getLsbD_window _ _ hi, BitVec.getLsbD_setWidth, decide_eq_true hi, Bool.true_and]
  by_cases hi8 : i < 8
  · have hbyte : (8 * len + i) / 8 = len := by omega
    have hplace : (8 * len + i) % 8 = i := by omega
    rw [bitStream, hbyte, hplace, decide_eq_true hi8, Bool.true_and]
  · rw [decide_eq_false hi8, BitVec.getLsbD_of_ge _ _ (by omega), Bool.false_and]

theorem run_bitStream (hw : 8 ≤ w) (crc : BitVec w) (buf : Nat → BitVec 8) (len : Nat) :
    run poly crc (bitStream buf) (8 * len) =
      (List.range len).foldl (fun crc i => byteStep poly crc (buf i)) crc := by
  induction len with
  | zero => rfl
  | succ len ih =>
    rw [Nat.mul_succ, run_add, ih, run_window poly _ _ hw, window_bitStream, List.range_succ,
      List.foldl_append]
    rfl

end BitCrc

namespace TableCrc

variable {table : BitVec 8 → BitVec 16} {poly : BitVec 16}

/-- With eight shifts of each index in its table, a table step is eight shifts:
the low byte is looked up, and the rest only moves down. -/
theorem step_eq_byteStep
    (htable : ∀ x, table x = BitCrc.shifts poly 8 (x.setWidth 16)) (crc : BitVec 16)
    (byte : BitVec 8) : step table crc byte = BitCrc.byteStep poly crc byte := by
  have hsplit : crc ^^^ byte.setWidth 16 =
      ((crc >>> 8) <<< 8) ^^^ (crc.setWidth 8 ^^^ byte).setWidth 16 := by
    apply BitVec.eq_of_getLsbD_eq
    intro i hi
    simp only [BitVec.getLsbD_xor, BitVec.getLsbD_setWidth, BitVec.getLsbD_shiftLeft,
      BitVec.getLsbD_ushiftRight, decide_eq_true hi, Bool.true_and]
    by_cases hi8 : i < 8
    · simp [hi8]
    · have hadd : 8 + (i - 8) = i := by omega
      simp [hi8, hadd]
  have hhigh : BitCrc.shifts poly 8 ((crc >>> 8) <<< 8) = crc >>> 8 := by
    rw [BitCrc.shifts_low poly fun i hi => by
      rw [BitVec.getLsbD_shiftLeft, decide_eq_true hi]
      simp]
    apply BitVec.eq_of_getLsbD_eq
    intro i hi
    simp only [BitVec.getLsbD_shiftLeft, BitVec.getLsbD_ushiftRight]
    by_cases hlt : 8 + i < 16
    · simp [hlt]
    · have hout := BitVec.getLsbD_of_ge crc (8 + i) (by omega)
      simp [hlt, hout]
  rw [step, htable, BitCrc.byteStep, hsplit, BitCrc.shifts_xor, hhigh]

end TableCrc
