/-
The distance of a checksum by shifts.

If `poly` has an odd number of ones, a shift keeps the parity of the register, so an odd
number of ones in a stream is never lost.  Two ones are lost exactly if their distance is a
period of the register that holds a one at its low end.
-/
import Mathlib.Dynamics.PeriodicPts.Defs
import Recirculador.Common.BitCrc

namespace BitCrc

/-! ## Weights -/

/-- The ones among the first `n` bits. -/
def weight (bits : Nat → Bool) (n : Nat) : Nat := (List.range n).countP bits

theorem weight_succ (bits : Nat → Bool) (n : Nat) :
    weight bits (n + 1) = weight bits n + (bits n).toNat := by
  rw [weight, List.range_succ, List.countP_append, List.countP_singleton, weight]
  cases bits n <;> rfl

theorem weight_succ_left (bits : Nat → Bool) (n : Nat) :
    weight bits (n + 1) = (bits 0).toNat + weight (fun k => bits (k + 1)) n := by
  induction n with
  | zero => rw [weight_succ, Nat.add_comm]; rfl
  | succ n ih => rw [weight_succ, ih, weight_succ (fun k => bits (k + 1)), Nat.add_assoc]

theorem weight_eq_zero {bits : Nat → Bool} {n : Nat} (h : weight bits n = 0) :
    ∀ k < n, bits k = false := by
  intro k hk
  have hnone := List.countP_eq_zero.mp h k (List.mem_range.mpr hk)
  simpa using hnone

theorem exists_one {bits : Nat → Bool} {n : Nat} (h : weight bits n = 1) :
    ∃ p < n, ∀ k < n, bits k = true ↔ k = p := by
  induction n with
  | zero => exact nomatch h
  | succ n ih =>
    rw [weight_succ] at h
    cases hlast : bits n with
    | true =>
      rw [hlast] at h
      have hnone := weight_eq_zero (Nat.succ.inj h)
      refine ⟨n, Nat.lt_succ_self n, fun k hk => ?_⟩
      rcases Nat.lt_succ_iff_lt_or_eq.mp hk with hlt | rfl
      · exact iff_of_false (by rw [hnone k hlt]; decide) (Nat.ne_of_lt hlt)
      · exact iff_of_true hlast rfl
    | false =>
      rw [hlast] at h
      obtain ⟨p, hp, hone⟩ := ih h
      refine ⟨p, Nat.lt_succ_of_lt hp, fun k hk => ?_⟩
      rcases Nat.lt_succ_iff_lt_or_eq.mp hk with hlt | rfl
      · exact hone k hlt
      · exact iff_of_false (by rw [hlast]; decide) (Nat.ne_of_gt hp)

theorem exists_two {bits : Nat → Bool} {n : Nat} (h : weight bits n = 2) :
    ∃ p q, p < q ∧ q < n ∧ ∀ k < n, bits k = true ↔ k = p ∨ k = q := by
  induction n with
  | zero => exact nomatch h
  | succ n ih =>
    rw [weight_succ] at h
    cases hlast : bits n with
    | true =>
      rw [hlast] at h
      obtain ⟨p, hp, hone⟩ := exists_one (Nat.succ.inj h)
      refine ⟨p, n, hp, Nat.lt_succ_self n, fun k hk => ?_⟩
      rcases Nat.lt_succ_iff_lt_or_eq.mp hk with hlt | rfl
      · rw [hone k hlt, or_iff_left (Nat.ne_of_lt hlt)]
      · exact iff_of_true hlast (Or.inr rfl)
    | false =>
      rw [hlast] at h
      obtain ⟨p, q, hpq, hq, htwo⟩ := ih h
      refine ⟨p, q, hpq, Nat.lt_succ_of_lt hq, fun k hk => ?_⟩
      rcases Nat.lt_succ_iff_lt_or_eq.mp hk with hlt | rfl
      · exact htwo k hlt
      · refine iff_of_false (by rw [hlast]; decide) fun hor => ?_
        rcases hor with rfl | rfl
        · exact Nat.lt_asymm hpq hq
        · exact Nat.lt_irrefl _ hq

/-! ## Odd patterns -/

variable {w : Nat}

/-- The register has an odd number of ones. -/
def Odd (crc : BitVec w) : Prop := weight crc.getLsbD w % 2 = 1

variable {poly : BitVec w}

theorem weight_xor (a b : Nat → Bool) (n : Nat) :
    weight (fun k => a k ^^ b k) n % 2 = (weight a n + weight b n) % 2 := by
  induction n with
  | zero => rfl
  | succ n ih =>
    rw [weight_succ, weight_succ, weight_succ]
    cases a n <;> cases b n <;> simp <;> omega

theorem weight_getLsbD_xor (a b : BitVec w) :
    weight (a ^^^ b).getLsbD w % 2 = (weight a.getLsbD w + weight b.getLsbD w) % 2 := by
  have hbits : (a ^^^ b).getLsbD = fun k => a.getLsbD k ^^ b.getLsbD k := by
    funext k
    rw [BitVec.getLsbD_xor]
  rw [hbits, weight_xor]

theorem weight_zero (n : Nat) : weight (0#w).getLsbD n = 0 := by
  refine List.countP_eq_zero.mpr fun k _ => ?_
  rw [BitVec.getLsbD_zero]
  exact Bool.false_ne_true

/-- Only the bit that falls out is lost. -/
theorem weight_ushiftRight (crc : BitVec w) :
    (crc.getLsbD 0).toNat + weight (crc >>> 1).getLsbD w = weight crc.getLsbD w := by
  have hbits : (crc >>> 1).getLsbD = fun k => crc.getLsbD (k + 1) := by
    funext k
    rw [BitVec.getLsbD_ushiftRight, Nat.add_comm]
  rw [hbits, ← weight_succ_left, weight_succ, BitVec.getLsbD_of_ge crc w (Nat.le_refl w)]
  rfl

/-- The polynomial makes up for the bit that falls out. -/
theorem weight_shift (hpoly : Odd poly) (crc : BitVec w) :
    weight (shift poly crc).getLsbD w % 2 = weight crc.getLsbD w % 2 := by
  have hdown := weight_ushiftRight crc
  have hodd : weight poly.getLsbD w % 2 = 1 := hpoly
  rw [shift, weight_getLsbD_xor]
  cases hbit : crc.getLsbD 0 with
  | true =>
    rw [hbit, Bool.toNat_true] at hdown
    rw [if_pos rfl]
    omega
  | false =>
    rw [hbit, Bool.toNat_false] at hdown
    rw [if_neg Bool.false_ne_true, weight_zero]
    omega

theorem weight_bit (hw : 0 < w) (b : Bool) :
    weight ((BitVec.ofBool b).setWidth w).getLsbD w = b.toNat := by
  obtain ⟨n, rfl⟩ : ∃ n, w = n + 1 := ⟨w - 1, by omega⟩
  have hrest : weight (fun k => ((BitVec.ofBool b).setWidth (n + 1)).getLsbD (k + 1)) n = 0 := by
    refine List.countP_eq_zero.mpr fun k _ => ?_
    rw [BitVec.getLsbD_setWidth, BitVec.getLsbD_ofBool]
    simp
  rw [weight_succ_left, hrest, BitVec.getLsbD_setWidth, BitVec.getLsbD_ofBool]
  cases b <;> rfl

/-- The parity of the register counts the ones of the stream. -/
theorem weight_run (hw : 0 < w) (hpoly : Odd poly) (crc : BitVec w) (bits : Nat → Bool) (n : Nat) :
    weight (run poly crc bits n).getLsbD w % 2 = (weight crc.getLsbD w + weight bits n) % 2 := by
  induction n with
  | zero => rfl
  | succ n ih =>
    rw [run, feed, weight_shift hpoly, weight_getLsbD_xor, weight_bit hw, weight_succ]
    omega

/-- An odd number of ones leaves a register that is not zero. -/
theorem run_odd (hw : 0 < w) (hpoly : Odd poly) {e : Nat → Bool} {n : Nat}
    (he : weight e n % 2 = 1) : run poly 0#w e n ≠ 0#w := by
  intro hzero
  have hparity := weight_run hw hpoly 0#w e n
  rw [hzero, weight_zero] at hparity
  omega

/-! ## Two ones -/

theorem shifts_eq_iterate (m : Nat) (crc : BitVec w) : shifts poly m crc = (shift poly)^[m] crc := by
  induction m with
  | zero => rfl
  | succ m ih => rw [shifts, ih, Function.iterate_succ_apply']

theorem shifts_add (m n : Nat) (crc : BitVec w) :
    shifts poly (m + n) crc = shifts poly n (shifts poly m crc) := by
  rw [shifts_eq_iterate, shifts_eq_iterate, shifts_eq_iterate, Nat.add_comm,
    Function.iterate_add_apply]

/-- Two ones leave the register at zero exactly if their distance is a period. -/
theorem run_two (hw : 0 < w) (hpoly : poly.msb = true) {e : Nat → Bool} {p q n : Nat} (hpq : p < q)
    (hq : q < n) (he : ∀ k < n, e k = true ↔ k = p ∨ k = q) :
    run poly 0#w e n = 0#w ↔ shifts poly (q - p) 1#w = 1#w := by
  have hoff : ∀ k < n, k ≠ p → k ≠ q → e k = false := fun k hk hp hq' =>
    Bool.eq_false_iff.mpr fun hone => ((he k hk).mp hone).elim hp hq'
  have hone : (BitVec.ofBool true).setWidth w = 1#w := by
    apply BitVec.eq_of_getLsbD_eq
    intro i hi
    rw [BitVec.getLsbD_setWidth, BitVec.getLsbD_ofBool, BitVec.getLsbD_one]
    simp [hi, hw]
  have hbefore : run poly 0#w e p = 0#w := by
    rw [run_false poly _ fun k hk => hoff k (by omega) (by omega) (by omega), shifts_zero]
  have hfirst : run poly 0#w e (p + 1) = shifts poly 1 1#w := by
    rw [run, hbefore, (he p (by omega)).mpr (Or.inl rfl), feed, hone, BitVec.zero_xor]
    rfl
  have hbetween : run poly 0#w e q = shifts poly (q - p) 1#w := by
    have hsplit : q = p + 1 + (q - (p + 1)) := by omega
    have hcount : q - p = 1 + (q - (p + 1)) := by omega
    rw [hsplit, run_add, hfirst, run_false poly _ fun k hk =>
      hoff (p + 1 + k) (by omega) (by omega) (by omega), ← hsplit, hcount, shifts_add]
  have hsecond : run poly 0#w e (q + 1) = shift poly (shifts poly (q - p) 1#w ^^^ 1#w) := by
    rw [run, hbetween, (he q hq).mpr (Or.inr rfl), feed, hone]
  have hsplit : n = q + 1 + (n - (q + 1)) := by omega
  rw [hsplit, run_add, run_false poly _ fun k hk =>
    hoff (q + 1 + k) (by omega) (by omega) (by omega), hsecond]
  constructor
  · intro hzero
    exact BitVec.xor_eq_zero_iff.mp (shift_eq_zero hpoly (shifts_eq_zero hpoly hzero))
  · intro hperiod
    rw [hperiod, BitVec.xor_self]
    exact (congrArg (shifts poly _) (shifts_zero poly 1)).trans (shifts_zero poly _)

/-- A period and a distance that is one have a common divisor that is one. -/
theorem shifts_gcd {m n : Nat} {crc : BitVec w} (hm : shifts poly m crc = crc)
    (hn : shifts poly n crc = crc) : shifts poly (m.gcd n) crc = crc := by
  rw [shifts_eq_iterate] at hm hn ⊢
  have hmp : Function.IsPeriodicPt (shift poly) m crc := hm
  exact hmp.gcd hn

theorem shifts_dvd {m n : Nat} {crc : BitVec w} (hm : shifts poly m crc = crc) (h : m ∣ n) :
    shifts poly n crc = crc := by
  rw [shifts_eq_iterate] at hm ⊢
  have hmp : Function.IsPeriodicPt (shift poly) m crc := hm
  exact hmp.trans_dvd h

/-! A period is evaluated on numbers, by nested turns. -/

/-- `n` turns of `f`, with the argument evaluated before each. -/
def turns (f : Nat → Nat) : Nat → Nat → Nat
  | 0, x => x
  | n + 1, 0 => turns f n (f 0)
  | n + 1, x + 1 => turns f n (f (x + 1))

theorem turns_eq_iterate (f : Nat → Nat) (n : Nat) : turns f n = f^[n] := by
  induction n with
  | zero => rfl
  | succ n ih =>
    funext x
    rw [Function.iterate_succ_apply, ← ih]
    cases x with
    | zero => rfl
    | succ x => rfl

def shiftNat (poly x : Nat) : Nat := (x >>> 1) ^^^ (if x % 2 = 1 then poly else 0)

theorem toNat_shift (crc : BitVec w) : (shift poly crc).toNat = shiftNat poly.toNat crc.toNat := by
  have hbit : crc.getLsbD 0 = true ↔ crc.toNat % 2 = 1 := by
    rw [BitVec.getLsbD, Nat.testBit_zero, decide_eq_true_iff]
  rw [shift, shiftNat, BitVec.toNat_xor, BitVec.toNat_ushiftRight]
  by_cases hone : crc.toNat % 2 = 1
  · rw [if_pos (hbit.mpr hone), if_pos hone]
  · rw [if_neg (mt hbit.mp hone), if_neg hone, BitVec.toNat_ofNat, Nat.zero_mod]

theorem toNat_shifts (m : Nat) (crc : BitVec w) :
    (shifts poly m crc).toNat = (shiftNat poly.toNat)^[m] crc.toNat := by
  induction m with
  | zero => rfl
  | succ m ih => rw [shifts, toNat_shift, ih, Function.iterate_succ_apply']

end BitCrc
