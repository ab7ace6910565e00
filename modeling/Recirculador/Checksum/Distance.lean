/-
The distance of the checksum of Modbus.

The polynomial is (x + 1) (x^15 + x + 1).  The first factor notices every odd number of flipped
bits; the second is primitive, so that two flipped bits are noticed unless they are a multiple
of 2^15 - 1 places apart, which takes a frame of 4096 bytes.
-/
import Mathlib.Data.Nat.Prime.Basic
import Mathlib.Tactic.NormNum.Prime
import Recirculador.Checksum.Bitwise
import Recirculador.Common.CrcDistance

namespace Recirculador

open BitCrc

theorem modbusPoly_odd : BitCrc.Odd modbusPoly := by
  unfold BitCrc.Odd
  decide

/-! ## The period -/

theorem shifts_modbusPoly (m : Nat) :
    shifts modbusPoly m 1#16 = 1#16 ↔ (shiftNat 0xA001)^[m] 1 = 1 := by
  rw [← BitVec.toNat_inj, toNat_shifts]
  rfl

theorem turns_shiftNat : turns (turns (turns (shiftNat 0xA001) 151) 31) 7 1 = 1 := by
  decide +kernel

theorem shifts_period : shifts modbusPoly 32767 1#16 = 1#16 := by
  have hturns := turns_shiftNat
  rw [turns_eq_iterate, turns_eq_iterate, turns_eq_iterate, ← Function.iterate_mul,
    ← Function.iterate_mul] at hturns
  exact (shifts_modbusPoly 32767).mpr hturns

/-- The period without one of its prime factors is none. -/
theorem shifts_no_period : shifts modbusPoly 4681 1#16 ≠ 1#16 ∧
    shifts modbusPoly 1057 1#16 ≠ 1#16 ∧ shifts modbusPoly 217 1#16 ≠ 1#16 := by
  have h7 : turns (turns (shiftNat 0xA001) 151) 31 1 ≠ 1 := by decide +kernel
  have h31 : turns (turns (shiftNat 0xA001) 151) 7 1 ≠ 1 := by decide +kernel
  have h151 : turns (turns (shiftNat 0xA001) 31) 7 1 ≠ 1 := by decide +kernel
  rw [turns_eq_iterate, turns_eq_iterate, ← Function.iterate_mul] at h7 h31 h151
  exact ⟨mt (shifts_modbusPoly 4681).mp h7, mt (shifts_modbusPoly 1057).mp h31,
    mt (shifts_modbusPoly 217).mp h151⟩

/-- The periods are the multiples of 32767. -/
theorem shifts_eq_one_iff (k : Nat) : shifts modbusPoly k 1#16 = 1#16 ↔ 32767 ∣ k := by
  refine ⟨fun hperiod => ?_, shifts_dvd shifts_period⟩
  have hgcd := shifts_gcd hperiod shifts_period
  obtain ⟨h, hh⟩ := Nat.gcd_dvd_right k 32767
  refine Decidable.byContradiction fun hdvd => ?_
  have hne : h ≠ 1 := by
    rintro rfl
    rw [Nat.mul_one] at hh
    exact hdvd (hh ▸ Nat.gcd_dvd_left k 32767)
  -- The common divisor leaves out one of the primes.
  obtain ⟨p, hp, c, rfl⟩ := Nat.exists_prime_and_dvd hne
  rw [Nat.mul_left_comm] at hh
  have hfactors : p ∣ 7 * (31 * 151) := ⟨k.gcd 32767 * c, hh⟩
  have hprime : p = 7 ∨ p = 31 ∨ p = 151 := by
    rcases (Nat.Prime.dvd_mul hp).mp hfactors with h7 | hrest
    · exact Or.inl ((Nat.prime_dvd_prime_iff_eq hp (by norm_num)).mp h7)
    rcases (Nat.Prime.dvd_mul hp).mp hrest with h31 | h151
    · exact Or.inr (Or.inl ((Nat.prime_dvd_prime_iff_eq hp (by norm_num)).mp h31))
    · exact Or.inr (Or.inr ((Nat.prime_dvd_prime_iff_eq hp (by norm_num)).mp h151))
  rcases hprime with rfl | rfl | rfl
  · exact shifts_no_period.1 (shifts_dvd hgcd ⟨c, by omega⟩)
  · exact shifts_no_period.2.1 (shifts_dvd hgcd ⟨c, by omega⟩)
  · exact shifts_no_period.2.2 (shifts_dvd hgcd ⟨c, by omega⟩)

/-! ## Flipped bits -/

/-- The bits of a string of `len` bytes that the ones of `e` flip. -/
def flips (e : Nat → BitVec 8) (len : Nat) : Nat := weight (bitStream e) (8 * len)

/-- Flipped bits are lost if they alone leave the register at zero. -/
theorem checkCrc16_flipped_iff {buf e : Nat → BitVec 8} {len : BitVec 32} (hlen : 2 ≤ len.toNat)
    (haccept : checkCrc16 buf len = true) :
    checkCrc16 (fun i => buf i ^^^ e i) len = true ↔
      run modbusPoly 0#16 (bitStream e) (8 * len.toNat) = 0#16 := by
  have hsum := run_xor modbusPoly 0xFFFF 0#16 (bitStream buf) (bitStream e) (8 * len.toNat)
  rw [checkCrc16_eq_run hlen] at haccept ⊢
  rw [BitVec.xor_zero, haccept, BitVec.zero_xor] at hsum
  rw [funext (bitStream_xor buf e), hsum]

/-- Any odd number of flipped bits is noticed in a frame of any length, and two flipped bits
anywhere in a frame of up to 4095 bytes. -/
theorem checkCrc16_distance {buf e : Nat → BitVec 8} {len : BitVec 32} (hlen : 2 ≤ len.toNat)
    (haccept : checkCrc16 buf len = true)
    (hflips : flips e len.toNat % 2 = 1 ∨ flips e len.toNat = 2 ∧ len.toNat ≤ 4095) :
    checkCrc16 (fun i => buf i ^^^ e i) len = false := by
  rw [Bool.eq_false_iff, ne_eq, checkCrc16_flipped_iff hlen haccept]
  rcases hflips with hodd | ⟨htwo, hshort⟩
  · exact run_odd (by decide) modbusPoly_odd hodd
  · obtain ⟨p, q, hpq, hq, hones⟩ := exists_two htwo
    rw [run_two (by decide) modbusPoly_msb hpq hq hones, shifts_eq_one_iff]
    exact Nat.not_dvd_of_pos_of_lt (by omega) (by omega)

/-- The first bit of the payload and the last of the checksum. -/
theorem checkCrc16_distance_two :
    checkCrc16 (fun i => [0x01, 0x7E, 0x80].getD i 0 ^^^ [0x01, 0x00, 0x80].getD i 0) 3 = false :=
  checkCrc16_distance (by decide) (by decide) (Or.inr ⟨by decide, by decide⟩)

/-- Two flipped bits 32767 places apart are lost. -/
theorem checkCrc16_lost {buf e : Nat → BitVec 8} {len : BitVec 32} {p : Nat}
    (hlen : p + 32767 < 8 * len.toNat) (haccept : checkCrc16 buf len = true)
    (hones : ∀ k < 8 * len.toNat, bitStream e k = true ↔ k = p ∨ k = p + 32767) :
    checkCrc16 (fun i => buf i ^^^ e i) len = true := by
  rw [checkCrc16_flipped_iff (by omega) haccept,
    run_two (by decide) modbusPoly_msb (by omega) hlen hones, Nat.add_sub_cancel_left]
  exact shifts_period

end Recirculador
