/-
The table of `checksum.c` against the bitwise checksum of Modbus.

Each entry is eight shifts of its index, so the table loop computes the bitwise
checksum of every string.  A string together with its own checksum leaves the
register at zero, which is what `CHECK_CRC16` accepts, and no burst of up to
sixteen bits can bring a register back to zero.
-/
import Recirculador.Checksum
import Recirculador.Common.BitCrc

namespace Recirculador

/-- The polynomial of Modbus, reflected. -/
def modbusPoly : BitVec 16 := 0xA001

/-- The checksum of Modbus, bit by bit: each byte is added to the low end of the
register and shifted through, the polynomial added for each one that falls out. -/
def bitwiseCrc16 (l : List (BitVec 8)) : BitVec 16 :=
  l.foldl (BitCrc.byteStep modbusPoly) 0xFFFF

theorem modbusPoly_msb : modbusPoly.msb = true := rfl

theorem crcTable_eq : crcTable =
    (List.range 256).map fun x => BitCrc.shifts modbusPoly 8 (BitVec.ofNat 16 x) := by
  decide +kernel

theorem crcEntry_eq_shifts (x : BitVec 8) :
    crcEntry x = BitCrc.shifts modbusPoly 8 (x.setWidth 16) := by
  have hx : x.toNat < 256 := x.isLt
  have hword : BitVec.ofNat 16 x.toNat = x.setWidth 16 := by bv_omega
  rw [crcEntry, crcTable_eq, List.getD_eq_getElem?_getD, List.getElem?_map,
    List.getElem?_range hx, Option.map_some, Option.getD_some, hword]

theorem crcStep_eq_byteStep (crc : BitVec 16) (byte : BitVec 8) :
    crcStep crc byte = BitCrc.byteStep modbusPoly crc byte :=
  TableCrc.step_eq_byteStep crcEntry_eq_shifts crc byte

theorem foldl_crcStep (buf : Nat → BitVec 8) (len : Nat) (crc : BitVec 16) :
    (List.range len).foldl (fun crc i => crcStep crc (buf i)) crc =
      (List.range len).foldl (fun crc i => BitCrc.byteStep modbusPoly crc (buf i)) crc := by
  simp only [crcStep_eq_byteStep]

/-- The table loop computes the bitwise checksum. -/
theorem modbusCrc16_bitwise (buf : Nat → BitVec 8) (len : Nat) :
    modbusCrc16 buf len = bitwiseCrc16 ((List.range len).map buf) := by
  rw [modbusCrc16, foldl_crcStep, bitwiseCrc16, List.foldl_map]

/-- The register after the bits of a string is the checksum of its bytes. -/
theorem modbusCrc16_run (buf : Nat → BitVec 8) (len : Nat) :
    modbusCrc16 buf len = BitCrc.run modbusPoly 0xFFFF (BitCrc.bitStream buf) (8 * len) := by
  rw [modbusCrc16, foldl_crcStep, BitCrc.run_bitStream modbusPoly (by decide)]

/-! ## Accepted strings -/

/-- Two bytes in the order in which a checksum is received. -/
theorem window_bitStream_two (buf : Nat → BitVec 8) (len : Nat) :
    (BitCrc.window (fun k => BitCrc.bitStream buf (8 * len + k)) 16 : BitVec 16) =
      ((buf (len + 1)).setWidth 16 <<< 8) + (buf len).setWidth 16 := by
  have hadd : ((buf (len + 1)).setWidth 16 <<< 8) + (buf len).setWidth 16 =
      ((buf (len + 1)).setWidth 16 <<< 8) ||| (buf len).setWidth 16 := by
    apply BitVec.add_eq_or_of_and_eq_zero
    apply BitVec.eq_of_getLsbD_eq
    intro i hi
    rw [BitVec.getLsbD_and, BitVec.getLsbD_shiftLeft, BitVec.getLsbD_zero]
    by_cases hi8 : i < 8
    · simp [hi8]
    · rw [BitVec.getLsbD_setWidth 16 (buf len), BitVec.getLsbD_of_ge (buf len) i (by omega),
        Bool.and_false, Bool.and_false]
  rw [hadd]
  apply BitVec.eq_of_getLsbD_eq
  intro i hi
  rw [BitCrc.getLsbD_window _ _ hi, BitVec.getLsbD_or, BitVec.getLsbD_shiftLeft,
    BitVec.getLsbD_setWidth, BitVec.getLsbD_setWidth, BitCrc.bitStream]
  by_cases hi8 : i < 8
  · have hbyte : (8 * len + i) / 8 = len := by omega
    have hplace : (8 * len + i) % 8 = i := by omega
    rw [hbyte, hplace]
    simp [hi, hi8]
  · have hbyte : (8 * len + i) / 8 = len + 1 := by omega
    have hplace : (8 * len + i) % 8 = i - 8 := by omega
    have hout := BitVec.getLsbD_of_ge (buf len) i (by omega)
    have hsub : i - 8 < 16 := by omega
    rw [hbyte, hplace, hout]
    simp [hi, hi8, hsub]

/-- `CHECK_CRC16` accepts what leaves the register at zero. -/
theorem checkCrc16_eq_run {buf : Nat → BitVec 8} {len : BitVec 32} (hlen : 2 ≤ len.toNat) :
    checkCrc16 buf len = true ↔
      BitCrc.run modbusPoly 0xFFFF (BitCrc.bitStream buf) (8 * len.toNat) = 0#16 := by
  obtain ⟨n, hn⟩ := Nat.exists_eq_add_of_le hlen
  have hhigh : (len - 1).toNat = n + 1 := by bv_omega
  have hlow : (len - 2).toNat = n := by bv_omega
  have hbits : 8 * len.toNat = 8 * n + 16 := by omega
  rw [checkCrc16, hhigh, hlow, modbusCrc16_run, ← window_bitStream_two, hbits, BitCrc.run_add,
    BitCrc.run_window _ _ _ (Nat.le_refl 16), beq_iff_eq]
  constructor
  · intro h
    rw [← h, BitVec.xor_self, BitCrc.shifts_zero]
  · intro h
    exact (BitVec.xor_eq_zero_iff.mp (BitCrc.shifts_eq_zero modbusPoly_msb h)).symm

theorem bitStream_xor (buf e : Nat → BitVec 8) (k : Nat) :
    BitCrc.bitStream (fun i => buf i ^^^ e i) k =
      (BitCrc.bitStream buf k ^^ BitCrc.bitStream e k) := by
  rw [BitCrc.bitStream, BitVec.getLsbD_xor]
  rfl

theorem exists_getLsbD {byte : BitVec 8} (h : byte ≠ 0) : ∃ j < 8, byte.getLsbD j = true := by
  apply Classical.byContradiction
  intro hall
  apply h
  apply BitVec.eq_of_getLsbD_eq
  intro j hj
  rw [Bool.eq_false_iff.mpr fun hbit => hall ⟨j, hj, hbit⟩]
  exact BitVec.getLsbD_zero.symm

/-- The ones of `e` in a string of `len` bytes lie within 16 places from `p` on. -/
def BurstAt (e : Nat → BitVec 8) (len p : Nat) : Prop :=
  ∀ i < len, ∀ j < 8, (e i).getLsbD j = true → p ≤ 8 * i + j ∧ 8 * i + j < p + 16

theorem BurstAt.bits {e : Nat → BitVec 8} {len p : Nat} (h : BurstAt e len p) :
    ∀ k < 8 * len, BitCrc.bitStream e k = true → p ≤ k ∧ k < p + 16 := by
  intro k hk hbit
  have hplace := h (k / 8) (by omega) (k % 8) (by omega) hbit
  omega

/-- A burst of up to sixteen bits, across the checksum's own bytes or not, is
noticed. -/
theorem checkCrc16_burst {buf e : Nat → BitVec 8} {len : BitVec 32} {p : Nat}
    (hlen : 3 ≤ len.toNat) (haccept : checkCrc16 buf len = true)
    (hburst : BurstAt e len.toNat p) (he : ∃ i < len.toNat, e i ≠ 0) :
    checkCrc16 (fun i => buf i ^^^ e i) len = false := by
  obtain ⟨i, hi, hne⟩ := he
  obtain ⟨j, hj, hbit⟩ := exists_getLsbD hne
  have hbyte : (8 * i + j) / 8 = i := by omega
  have hplace : (8 * i + j) % 8 = j := by omega
  have hek : BitCrc.bitStream e (8 * i + j) = true := by
    rw [BitCrc.bitStream, hbyte, hplace, hbit]
  rw [Bool.eq_false_iff]
  intro haccept'
  rw [checkCrc16_eq_run (by omega)] at haccept haccept'
  rw [funext (bitStream_xor buf e)] at haccept'
  exact BitCrc.run_xor_burst modbusPoly_msb haccept hburst.bits (by omega) hek haccept'

/-- The last bit of the payload and the first of the checksum together. -/
theorem checkCrc16_burst_straddling :
    checkCrc16 (fun i => [0x01, 0x7E, 0x80].getD i 0) 3 = true ∧
      checkCrc16 (fun i => [0x01, 0x7E, 0x80].getD i 0 ^^^ [0x80, 0x01].getD i 0) 3 = false :=
  ⟨by decide, checkCrc16_burst (p := 7) (by decide) (by decide) (by unfold BurstAt; decide)
    ⟨0, by decide, by decide⟩⟩

end Recirculador
