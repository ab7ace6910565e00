/-
The write functions of the emulated EEPROM.

Each tests the end of its range in 32 bits.  Where the end runs past the last address it
comes out small, and the call goes through: `eeprom_WriteVet` then writes next to the
vector, and the other two leave out the bytes `eeprom_WriteChar` refuses.
-/
import Mathlib.Data.List.Basic
import Recirculador.Common.ByteMemory
import Recirculador.Flash.Eeprom

namespace Recirculador
namespace Eeprom

/-- `eeprom_flash_Vet[index] = value`, also where the index is beyond the vector. -/
def put (index : BitVec 32) (value : BitVec 8) (s : Eeprom) : Eeprom :=
  { s with vet := fun i => if i = index.toNat then value else s.vet i }

def writeVet (vet : Nat → BitVec 8) (size : BitVec 16) (addrInit : BitVec 32) (s : Eeprom) :
    FlashStatus × Eeprom :=
  if eepromFlashSize < (addrInit + size.setWidth 32).toNat then (.flashFail, s)
  else (.flashOK, (List.range size.toNat).foldl
    (fun s i => s.put (BitVec.ofNat 32 i + addrInit) (vet i)) s)

def writeChar (value : BitVec 8) (addr : BitVec 32) (s : Eeprom) : FlashStatus × Eeprom :=
  if addr.toNat < eepromFlashSize then (.flashOK, s.put addr value) else (.flashFail, s)

/-- The loop of `eeprom_WriteShort` and `eeprom_WriteInt`, which looks at no result. -/
def writeChars (bytes : Nat → BitVec 8) (addr : BitVec 32) (n : Nat) (s : Eeprom) : Eeprom :=
  (List.range n).foldl (fun s i => (s.writeChar (bytes i) (addr + BitVec.ofNat 32 i)).2) s

def writeShort (value : BitVec 16) (addr : BitVec 32) (s : Eeprom) : FlashStatus × Eeprom :=
  if (addr + 1).toNat < eepromFlashSize then
    (.flashOK, s.writeChars (fun i => (value >>> (8 * i)).setWidth 8) addr 2)
  else (.flashFail, s)

def writeInt (value : BitVec 32) (addr : BitVec 32) (s : Eeprom) : FlashStatus × Eeprom :=
  if (addr + 3).toNat < eepromFlashSize then
    (.flashOK, s.writeChars (fun i => (value >>> (8 * i)).setWidth 8) addr 4)
  else (.flashFail, s)

/-- The `n` bytes from `addr` on lie in the vector. -/
def Within (addr : BitVec 32) (n : Nat) : Prop := addr.toNat + n ≤ eepromFlashSize

/-- A call that is to make `vet` of the vector does so and reports it, if its range lies in
the vector, and else does nothing and reports that. -/
structure Staged (addr : BitVec 32) (n : Nat) (vet : ByteMemory) (s : Eeprom)
    (result : FlashStatus × Eeprom) : Prop where
  ok : result.1 = .flashOK ↔ Within addr n
  written : Within addr n → result.2 = { s with vet }
  refused : ¬ Within addr n → result = (.flashFail, s)

variable {s : Eeprom} {addr : BitVec 32} {n : Nat} {vet : ByteMemory}

theorem staged_written (h : Within addr n) : Staged addr n vet s (.flashOK, { s with vet }) :=
  ⟨iff_of_true rfl h, fun _ => rfl, fun hout => absurd h hout⟩

theorem staged_refused (h : ¬ Within addr n) : Staged addr n vet s (.flashFail, s) :=
  ⟨iff_of_false (fun hok => nomatch hok) h, fun hin => absurd hin h, fun _ => rfl⟩

/-! ## The loops -/

/-- Up to the last address the bytes lie one after the other. -/
theorem foldl_put (bytes : Nat → BitVec 8) (s : Eeprom) (h : addr.toNat + n ≤ 0x100000000) :
    (List.range n).foldl (fun s i => s.put (BitVec.ofNat 32 i + addr) (bytes i)) s =
      { s with vet := ByteMemory.copy s.vet addr.toNat n bytes } := by
  induction n with
  | zero =>
    have hnone : ByteMemory.copy s.vet addr.toNat 0 bytes = s.vet := by
      funext k
      exact ByteMemory.copy_outside (by omega)
    rw [hnone]
    rfl
  | succ n ih =>
    have hindex : (BitVec.ofNat 32 n + addr).toNat = addr.toNat + n := by
      rw [BitVec.toNat_add, BitVec.toNat_ofNat]
      omega
    rw [List.range_succ, List.foldl_append, ih (by omega)]
    show put _ _ _ = _
    rw [put, hindex]
    congr 1
    funext k
    dsimp only [ByteMemory.copy]
    by_cases hk : k = addr.toNat + n
    · have hin : addr.toNat ≤ k ∧ k < addr.toNat + (n + 1) := by omega
      have hoffset : k - addr.toNat = n := by omega
      rw [if_pos hk, if_pos hin, hoffset]
    · have hsame : (addr.toNat ≤ k ∧ k < addr.toNat + (n + 1)) ↔
          addr.toNat ≤ k ∧ k < addr.toNat + n := by omega
      simp only [if_neg hk, hsame]

/-- Inside the vector no byte is refused. -/
theorem writeChars_within (bytes : Nat → BitVec 8) (s : Eeprom) (h : Within addr n) :
    s.writeChars bytes addr n = { s with vet := ByteMemory.copy s.vet addr.toNat n bytes } := by
  have h : addr.toNat + n ≤ 896 := h
  rw [← foldl_put bytes s (by omega), writeChars]
  refine List.foldl_ext _ _ _ fun t i hi => ?_
  have hi := List.mem_range.mp hi
  have hindex : (addr + BitVec.ofNat 32 i).toNat = addr.toNat + i := by
    rw [BitVec.toNat_add, BitVec.toNat_ofNat]
    omega
  have hfits : (addr + BitVec.ofNat 32 i).toNat < eepromFlashSize := by
    rw [hindex]
    show addr.toNat + i < 896
    omega
  rw [writeChar, if_pos hfits, BitVec.add_comm]

/-- The little-endian bytes of a value. -/
theorem copy_bytes {w : Nat} (value : BitVec (8 * w)) (m : ByteMemory) (off : Nat) :
    ByteMemory.copy m off w (fun i => (value >>> (8 * i)).setWidth 8) =
      ByteMemory.store w m off value := by
  funext k
  rw [ByteMemory.copy, ByteMemory.store]
  split
  · apply BitVec.eq_of_getLsbD_eq
    intro i hi
    simp [hi]
  · rfl

/-! ## The three functions -/

theorem writeVet_staged_iff (src : ByteMemory) (size : BitVec 16) (addr : BitVec 32)
    (s : Eeprom) :
    Staged addr size.toNat (ByteMemory.copy s.vet addr.toNat size.toNat src) s
        (s.writeVet src size addr) ↔
      ¬ (0x100000000 ≤ addr.toNat + size.toNat ∧
        addr.toNat + size.toNat ≤ 0x100000000 + eepromFlashSize) := by
  have hsize := size.isLt
  have haddr := addr.isLt
  have hsum : (addr + size.setWidth 32).toNat = (addr.toNat + size.toNat) % 0x100000000 := by
    rw [BitVec.toNat_add, BitVec.toNat_setWidth]
    omega
  rw [writeVet, hsum]
  by_cases hwrap : 0x100000000 ≤ addr.toNat + size.toNat ∧
      addr.toNat + size.toNat ≤ 0x100000000 + eepromFlashSize
  · -- The sum comes out small.
    have haccepted : ¬ eepromFlashSize < (addr.toNat + size.toNat) % 0x100000000 := by
      simp only [eepromFlashSize] at hwrap ⊢
      omega
    rw [if_neg haccepted]
    refine iff_of_false (fun h => ?_) (not_not_intro hwrap)
    have hin : addr.toNat + size.toNat ≤ 896 := h.ok.mp rfl
    omega
  · refine iff_of_true ?_ hwrap
    by_cases hin : addr.toNat + size.toNat ≤ eepromFlashSize
    · have haccepted : ¬ eepromFlashSize < (addr.toNat + size.toNat) % 0x100000000 := by
        simp only [eepromFlashSize] at hin ⊢
        omega
      rw [if_neg haccepted, foldl_put src s (by simp only [eepromFlashSize] at hin; omega)]
      exact staged_written hin
    · have hrefused : eepromFlashSize < (addr.toNat + size.toNat) % 0x100000000 := by
        simp only [eepromFlashSize] at hwrap hin ⊢
        omega
      rw [if_pos hrefused]
      exact staged_refused hin

/-- A test of the last byte, as the two scalar functions make it. -/
theorem writeChars_staged_iff {last : Nat} (hlast : last < 4) (bytes : Nat → BitVec 8)
    (addr : BitVec 32) (s : Eeprom) :
    Staged addr (last + 1) (ByteMemory.copy s.vet addr.toNat (last + 1) bytes) s
        (if (addr + BitVec.ofNat 32 last).toNat < eepromFlashSize then
          (.flashOK, s.writeChars bytes addr (last + 1)) else (.flashFail, s)) ↔
      addr.toNat + last < 0x100000000 := by
  have haddr := addr.isLt
  have hsum : (addr + BitVec.ofNat 32 last).toNat = (addr.toNat + last) % 0x100000000 := by
    rw [BitVec.toNat_add, BitVec.toNat_ofNat]
    omega
  rw [hsum]
  by_cases hwrap : addr.toNat + last < 0x100000000
  · refine iff_of_true ?_ hwrap
    rw [Nat.mod_eq_of_lt hwrap]
    by_cases hin : addr.toNat + last < eepromFlashSize
    · have hwithin : Within addr (last + 1) := hin
      rw [if_pos hin, writeChars_within bytes s hwithin]
      exact staged_written hwithin
    · rw [if_neg hin]
      exact staged_refused hin
  · have haccepted : (addr.toNat + last) % 0x100000000 < eepromFlashSize := by
      simp only [eepromFlashSize]
      omega
    rw [if_pos haccepted]
    refine iff_of_false (fun h => ?_) hwrap
    have hin : addr.toNat + (last + 1) ≤ 896 := h.ok.mp rfl
    omega

theorem writeShort_staged_iff (value : BitVec 16) (addr : BitVec 32) (s : Eeprom) :
    Staged addr 2 (ByteMemory.store 2 s.vet addr.toNat value) s (s.writeShort value addr) ↔
      addr.toNat + 1 < 0x100000000 := by
  rw [← copy_bytes (w := 2) value]
  exact writeChars_staged_iff (show 1 < 4 by decide) _ addr s

theorem writeInt_staged_iff (value : BitVec 32) (addr : BitVec 32) (s : Eeprom) :
    Staged addr 4 (ByteMemory.store 4 s.vet addr.toNat value) s (s.writeInt value addr) ↔
      addr.toNat + 3 < 0x100000000 := by
  rw [← copy_bytes (w := 4) value]
  exact writeChars_staged_iff (show 3 < 4 by decide) _ addr s

/-- Every write is all or nothing exactly if the end its test computes does not wrap to an
address inside the vector. -/
theorem writes_staged_iff (s : Eeprom) (addr : BitVec 32) :
    (∀ (src : ByteMemory) (size : BitVec 16),
      Staged addr size.toNat (ByteMemory.copy s.vet addr.toNat size.toNat src) s
          (s.writeVet src size addr) ↔
        ¬ (0x100000000 ≤ addr.toNat + size.toNat ∧
          addr.toNat + size.toNat ≤ 0x100000000 + eepromFlashSize)) ∧
      (∀ value : BitVec 16,
        Staged addr 2 (ByteMemory.store 2 s.vet addr.toNat value) s (s.writeShort value addr) ↔
          addr.toNat + 1 < 0x100000000) ∧
      ∀ value : BitVec 32,
        Staged addr 4 (ByteMemory.store 4 s.vet addr.toNat value) s (s.writeInt value addr) ↔
          addr.toNat + 3 < 0x100000000 :=
  ⟨fun src size => writeVet_staged_iff src size addr s,
    fun value => writeShort_staged_iff value addr s, fun value => writeInt_staged_iff value addr s⟩

/-- The integer at the last address: three of its bytes are written at the start of the
vector, and the call reports success. -/
theorem writeInt_wrapped :
    ¬ ∀ (s : Eeprom) (addr value : BitVec 32),
      Staged addr 4 (ByteMemory.store 4 s.vet addr.toNat value) s (s.writeInt value addr) := by
  intro hall
  have hok := (hall (powerUp (fun _ => 0xFF) fun _ => 0xFF) 0xFFFFFFFF 0x11223344).ok.mp (by decide)
  exact absurd hok (by show ¬ 4294967295 + 4 ≤ 896; omega)

end Eeprom

end Recirculador
