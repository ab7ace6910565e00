/-
The registers at power up, `reg_Begin`, and the factory values of `flash_map.c`.

Three copies of the registers meet here: the register file, the staging vector of the
EEPROM and the flash.  A first boot loads the factory values into the register file
and then resets the EEPROM, whose vector never receives them.
-/
import Recirculador.Flash.Eeprom
import Recirculador.Registers.Store

namespace Recirculador

open SysRegMap Registers

/-! ## The factory values -/

/-- `nv_payload_t`; what a list leaves out is 0. -/
structure NvPayload where
  bools : List (BitVec 8)
  shorts : List (BitVec 16)
  ints : List (BitVec 32)

def NvPayload.bytes (p : NvPayload) : ByteMemory := fun a =>
  if a < shortBase then p.bools.getD a 0
  else if a < intBase then
    (p.shorts.getD ((a - shortBase) / 2) 0).extractLsb' (8 * ((a - shortBase) % 2)) 8
  else (p.ints.getD ((a - intBase) / 4) 0).extractLsb' (8 * ((a - intBase) % 4)) 8

/-- `nv_defaults.data`. -/
def nvDefaults : NvPayload where
  bools := [0b00000000]
  shorts :=
    [sysEquipCode, sysFirmwareVersionMajor, sysFirmwareVersionMinor, sysFirmwareVersionPatch,
      -- The address of the network interface, then the name and the password of the network.
      0xFF, 0xFF, 0xFF] ++ List.replicate 16 0 ++ List.replicate 16 0 ++
    -- Which registers are kept in the EEPROM: bools, shorts, ints, floats.
    List.replicate 8 0 ++
    [0b0000111111111111, 0xFFFF, 0xFFFF, 0xFFFF, 0xFFFF, 0xFFFF, 0b1111111000000000, 0] ++
    [0b0111111111101111, 0b1000111111111000, 0b1111111110001111, 0b1110000000000000, 0, 0, 0, 0] ++
    List.replicate 8 0 ++
    -- Which registers are announced at once: bools, shorts, ints.
    [0b1100000000000000, 0, 0, 0, 0, 0, 0, 0] ++ List.replicate 8 0 ++
    [0b1111111111111110, 0b0111110000000111, 0b0000111000000000, 0, 0, 0, 0, 0] ++
    [0x03]
  ints :=
    [BitVec.ofNat 32 sysTimestampMin,
      -- Flow, both sensors, current and errors.
      0, 0, 0, 0, 0, 0, 0, 0, 0, 0, 0, 0, 0,
      2, 100000, 0,
      4500, 200, 1, 1, 1, 5000, 0, 20000, 0,
      4000, 200, 1, 1, 1, 5000, 0, 20000, 0,
      34, 10000, 0, 4000,
      30000, 0] ++ List.replicate sysSchedulersTotal sysSchedulersDefault

/-! ## The boot -/

/-- The memory `reg_Begin` works on. -/
structure Boot where
  regs : Registers
  eeprom : Eeprom
  eepromOn : Bool

@[simp] abbrev regMemSize : Nat := intBase + 4 * nregIntTot

namespace Boot

def eepromBegin (b : Boot) : Boot :=
  if b.eepromOn then b
  else
    { b with
      eeprom := { b.eeprom with
        vet := fun i => if i < eepromFlashSize then b.eeprom.readChar i else b.eeprom.vet i }
      eepromOn := true }

/-- `eeprom_ReadVet` into the register file. -/
def eepromReadVet (size addrInit : Nat) (b : Boot) : Boot :=
  { b with regs := { b.regs with
      regVet := b.regs.regVet.copy 0 size fun i => b.eeprom.readChar (addrInit + i) } }

/-- The part of `reg_Begin` in front of its test. -/
def load (b : Boot) : Boot := b.eepromBegin.eepromReadVet regMemSize 0

/-- The test of `reg_Begin`: has the EEPROM ever been set up? -/
def Initialised (b : Boot) : Prop := b.regs.shortRegVet 0 = sysEquipCode

instance (b : Boot) : Decidable b.Initialised := inferInstanceAs (Decidable (_ = _))

/-- `reg_Begin`, as compiled with the EEPROM. -/
def regBegin (rom : Rom) (b : Boot) : Boot :=
  let b := b.load
  if b.Initialised then b
  else
    let b := { b with regs := { b.regs with
      regVet := b.regs.regVet.copy 0 regMemSize nvDefaults.bytes } }
    let b := { b with eeprom := (b.eeprom.reset rom).2 }
    { b with eeprom := (b.eeprom.commit rom).2 }

/-- The memory after power up: flash is kept, RAM holds anything. -/
def powerUp (ram : Registers) (vet : Nat → BitVec 8) (flash : ByteMemory) : Boot where
  regs := ram
  eeprom := Eeprom.powerUp flash vet
  eepromOn := false

def reboot (ram : Registers) (vet : Nat → BitVec 8) (b : Boot) : Boot :=
  powerUp ram vet b.eeprom.flash.bytes

/-- What a first boot is for: the flash holds the factory values and the next boot
finds them there. -/
structure Persists (rom : Rom) (ram : Registers) (vet : Nat → BitVec 8) (b : Boot) : Prop where
  image : ∀ i, i < regMemSize → (b.regBegin rom).eeprom.readChar i = nvDefaults.bytes i
  same : ∀ i, i < regMemSize →
    (b.regBegin rom).eeprom.readChar i = (b.regBegin rom).regs.regVet i
  initialised : ((b.regBegin rom).reboot ram vet).load.Initialised
  registers : ∀ i, i < regMemSize →
    (((b.regBegin rom).reboot ram vet).regBegin rom).regs.regVet i =
      (b.regBegin rom).regs.regVet i

/-- `eeprom_Commit` does its work, whatever ROM it calls. -/
def Commits (rom : Rom) : Prop := ∀ s : Eeprom, s.Persistent (s.commit rom).2

variable {rom : Rom} {b : Boot}

/-! ## Loading -/

theorem load_eeprom_flash (b : Boot) : b.load.eeprom.flash = b.eeprom.flash := by
  show b.eepromBegin.eeprom.flash = b.eeprom.flash
  unfold eepromBegin
  split <;> rfl

theorem load_regVet (b : Boot) {i : Nat} (hi : i < regMemSize) :
    b.load.regs.regVet i = b.eeprom.readChar i := by
  have hin : 0 ≤ i ∧ i < 0 + regMemSize := ⟨Nat.zero_le i, by omega⟩
  have hread : b.eepromBegin.eeprom.readChar i = b.eeprom.readChar i :=
    congrArg (fun f : Flash => f.bytes (i + eepromFlashFirstAddr)) b.load_eeprom_flash
  refine (if_pos hin).trans ?_
  rw [Nat.sub_zero, Nat.zero_add, hread]

/-- The test looks at the model register in the flash. -/
theorem load_initialised_iff (b : Boot) : b.load.Initialised ↔
    ByteMemory.load 2 b.eeprom.flash.bytes (eepromFlashFirstAddr + shortBase) = sysEquipCode := by
  have hmodel : b.load.regs.shortRegVet 0 =
      ByteMemory.load 2 b.eeprom.flash.bytes (eepromFlashFirstAddr + shortBase) := by
    refine ByteMemory.load_congr fun j hj => ?_
    rw [load_regVet b (by simp only [regMemSize, shortBase, intBase, nregIntTot]; omega)]
    show b.eeprom.flash.bytes (16 + 2 * 0 + j + 30720) = b.eeprom.flash.bytes (30720 + 16 + j)
    congr 1
    omega
  rw [Initialised, hmodel]

/-! ## The first boot -/

/-- The registers after the copy of the factory values. -/
def factory (b : Boot) : Registers where
  regVet := b.load.regs.regVet.copy 0 regMemSize nvDefaults.bytes
  changeFlag := b.load.regs.changeFlag

theorem regBegin_first (h : ¬ b.load.Initialised) : b.regBegin rom =
    { regs := b.factory
      eeprom := ((b.load.eeprom.reset rom).2.commit rom).2
      eepromOn := b.load.eepromOn } := by
  rw [regBegin]
  dsimp only
  rw [if_neg h, factory]

theorem factory_regVet (b : Boot) {i : Nat} (hi : i < regMemSize) :
    b.factory.regVet i = nvDefaults.bytes i := by
  have hcopy : b.load.regs.regVet.copy 0 regMemSize nvDefaults.bytes (0 + i) =
      nvDefaults.bytes i := ByteMemory.copy_inside hi
  rw [Nat.zero_add] at hcopy
  exact hcopy

theorem commit_vet (s : Eeprom) : (s.commit rom).2.vet = s.vet := by
  unfold Eeprom.commit
  split <;> rfl

theorem reset_vet (s : Eeprom) {i : Nat} (hi : i < eepromFlashSize) :
    (s.reset rom).2.vet i = 0xFF := by
  rw [Eeprom.reset]
  dsimp only
  rw [commit_vet]
  exact if_pos hi

/-- The vector committed is that of the reset. -/
theorem regBegin_erased (hrom : Commits rom) (h : ¬ b.load.Initialised) {i : Nat}
    (hi : i < eepromFlashSize) : (b.regBegin rom).eeprom.readChar i = 0xFF := by
  have hstored := (hrom (b.load.eeprom.reset rom).2).stored i hi
  rw [reset_vet _ hi] at hstored
  rw [regBegin_first h, Eeprom.readChar, Nat.add_comm]
  dsimp only
  exact hstored

/-- The next boot finds an erased EEPROM and starts from the factory values again. -/
theorem regBegin_again (hrom : Commits rom) (h : ¬ b.load.Initialised) (ram : Registers)
    (vet : Nat → BitVec 8) : ¬ ((b.regBegin rom).reboot ram vet).load.Initialised := by
  rw [load_initialised_iff]
  intro hmodel
  have herased : ByteMemory.load 2 (b.regBegin rom).eeprom.flash.bytes
      (eepromFlashFirstAddr + shortBase) = ByteMemory.load 2 (fun _ => 0xFF) 0 := by
    refine ByteMemory.load_congr fun j hj => ?_
    have hbyte := regBegin_erased hrom h (show 16 + j < eepromFlashSize by
      simp only [eepromFlashSize]
      omega)
    rw [Eeprom.readChar, Nat.add_comm, ← Nat.add_assoc] at hbyte
    exact hbyte
  have hcode : ByteMemory.load 2 (fun _ => 0xFF) 0 = sysEquipCode := herased.symm.trans hmodel
  exact absurd hcode (by decide)

/-- The values set since the first boot are lost: every boot yields the factory values. -/
theorem regBegin_forgets (hrom : Commits rom) (h : ¬ b.load.Initialised) (ram : Registers)
    (vet : Nat → BitVec 8) {i : Nat} (hi : i < regMemSize) :
    (((b.regBegin rom).reboot ram vet).regBegin rom).regs.regVet i = nvDefaults.bytes i := by
  rw [regBegin_first (regBegin_again hrom h ram vet)]
  exact factory_regVet _ hi

/-! ## The ROM as documented

Here the reset does not even erase: no call of `eeprom_Commit` is accepted. -/

theorem commit_flash (hrom : rom.Documented) {s : Eeprom} (hs : s.Unprepared) :
    (s.commit rom).2.flash = s.flash := by
  rw [Eeprom.commit_eq hrom hs]

theorem reset_flash (hrom : rom.Documented) {s : Eeprom} (hs : s.Unprepared) :
    (s.reset rom).2.flash = s.flash := by
  rw [Eeprom.reset]
  dsimp only
  exact commit_flash hrom fun k => hs k

theorem regBegin_flash (hrom : rom.Documented) (h : ¬ b.load.Initialised)
    (hb : b.eeprom.Unprepared) : (b.regBegin rom).eeprom.flash = b.eeprom.flash := by
  have hload : b.load.eeprom.Unprepared := by
    intro k
    rw [load_eeprom_flash]
    exact hb k
  have hreset := reset_flash hrom hload
  have hunprepared : (b.load.eeprom.reset rom).2.Unprepared := by
    intro k
    rw [hreset]
    exact hload k
  rw [regBegin_first h]
  dsimp only
  rw [commit_flash hrom hunprepared, hreset, load_eeprom_flash]

/-- Without the equipment's code in the flash the boot is a first one. -/
theorem powerUp_first {flash : ByteMemory}
    (hmodel : ByteMemory.load 2 flash (eepromFlashFirstAddr + shortBase) ≠ sysEquipCode)
    (ram : Registers) (vet : Nat → BitVec 8) : ¬ (powerUp ram vet flash).load.Initialised := by
  rw [load_initialised_iff]
  exact hmodel

/-- The flash stays as it was and the next boot is a first one as well. -/
theorem regBegin_documented (hrom : rom.Documented) {flash : ByteMemory}
    (hmodel : ByteMemory.load 2 flash (eepromFlashFirstAddr + shortBase) ≠ sysEquipCode)
    (ram ram' : Registers) (vet vet' : Nat → BitVec 8) :
    ¬ Persists rom ram' vet' (powerUp ram vet flash) := by
  intro hpersists
  have hfirst := powerUp_first hmodel ram vet
  have hagain := hpersists.initialised
  rw [load_initialised_iff, reboot] at hagain
  rw [regBegin_flash hrom hfirst fun _ => rfl] at hagain
  exact hmodel hagain

/-! ## A ROM for which `eeprom_Commit` works -/

/-- It programs whatever it is told to, without a sector prepared or a page erased. -/
def obligingRom : Rom
  | .copyRamToFlash dstAddr src numOfBytes, f =>
    (.success, { f with bytes := f.bytes.copy dstAddr.toNat numOfBytes.toNat src })
  | _, f => (.success, f)

theorem commitPages_obligingRom (vet : Nat → BitVec 8) (f : Flash) {n : Nat}
    (hn : n ≤ eepromFlashPageNum) (a : Nat) :
    ((List.range n).foldl (Eeprom.commitPage obligingRom eepromFlashEndSector vet) f).bytes a =
      if 30720 ≤ a ∧ a < 30720 + 64 * n then vet (a - 30720) else f.bytes a := by
  have hpages : n ≤ 14 := hn
  induction n with
  | zero => exact (if_neg (by omega)).symm
  | succ n ih =>
    have hdst : (BitVec.ofNat 32 (30720 + 64 * n)).toNat = 30720 + 64 * n := by
      rw [BitVec.toNat_ofNat]
      omega
    rw [List.range_succ, List.foldl_append]
    generalize (List.range n).foldl (Eeprom.commitPage obligingRom eepromFlashEndSector vet) f =
      f' at ih
    have hpage : (Eeprom.commitPage obligingRom eepromFlashEndSector vet f' n).bytes a =
        if 30720 + 64 * n ≤ a ∧ a < 30720 + 64 * n + 64 then vet (64 * n + (a - (30720 + 64 * n)))
        else f'.bytes a := by
      rw [← hdst]
      rfl
    refine hpage.trans ?_
    rw [ih (by omega) (by omega)]
    by_cases hin : 30720 + 64 * n ≤ a ∧ a < 30720 + 64 * n + 64
    · have hoffset : 64 * n + (a - (30720 + 64 * n)) = a - 30720 := by omega
      rw [if_pos hin, if_pos (by omega), hoffset]
    · have hsame : (30720 ≤ a ∧ a < 30720 + 64 * (n + 1)) ↔ 30720 ≤ a ∧ a < 30720 + 64 * n := by
        omega
      rw [if_neg hin]
      simp only [hsame]

theorem obligingRom_commits : Commits obligingRom := by
  intro s
  by_cases h : s.unchanged = true
  · have hcommit : (s.commit obligingRom).2 = s := by
      rw [Eeprom.commit, if_pos h]
    rw [hcommit]
    refine ⟨fun i hi => ?_, fun a _ => rfl⟩
    have hbyte := List.all_eq_true.mp h i (List.mem_range.mpr hi)
    rw [Nat.add_comm]
    exact (eq_of_beq hbyte).symm
  · have hcommit : (s.commit obligingRom).2.flash =
        Eeprom.program obligingRom eepromFlashEndSector eepromFlashEndPage s.vet s.flash := by
      rw [Eeprom.commit, if_neg h]
    have hbytes := commitPages_obligingRom s.vet s.flash (Nat.le_refl eepromFlashPageNum)
    constructor
    · intro i hi
      have hlt : i < 896 := hi
      rw [hcommit]
      refine (hbytes (30720 + i)).trans ?_
      rw [if_pos (by simp only [eepromFlashPageNum, eepromFlashSize, flashPageSizeBytes]; omega),
        Nat.add_sub_cancel_left]
    · intro a ha
      have hout : a < 30720 ∨ 30720 + 896 ≤ a := ha
      rw [hcommit]
      refine (hbytes a).trans ?_
      rw [if_neg (by simp only [eepromFlashPageNum, eepromFlashSize, flashPageSizeBytes]; omega)]

/-! ## The first boot and the one after it -/

/-- Whatever the flash held, a first boot does not leave the factory values there. -/
theorem regBegin_not_persists (hrom : Commits rom) {flash : ByteMemory}
    (hmodel : ByteMemory.load 2 flash (eepromFlashFirstAddr + shortBase) ≠ sysEquipCode)
    (ram ram' : Registers) (vet vet' : Nat → BitVec 8) :
    ¬ Persists rom ram' vet' (powerUp ram vet flash) := by
  intro hpersists
  exact regBegin_again hrom (powerUp_first hmodel ram vet) ram' vet' hpersists.initialised

def erasedFlash : ByteMemory := fun _ => 0xFF

def clearRam : Registers := { regVet := fun _ => 0, changeFlag := 0 }

theorem erasedFlash_model : ByteMemory.load 2 erasedFlash (eepromFlashFirstAddr + shortBase) ≠
    sysEquipCode := by decide

/-- A device fresh from the factory: its flash is erased, and stays so. -/
theorem regBegin_loses_factory :
    ¬ ∀ (rom : Rom) (flash : ByteMemory) (ram ram' : Registers) (vet vet' : Nat → BitVec 8),
      Commits rom →
      ByteMemory.load 2 flash (eepromFlashFirstAddr + shortBase) ≠ sysEquipCode →
      Persists rom ram' vet' (powerUp ram vet flash) := by
  intro hall
  have hpersists := hall obligingRom erasedFlash clearRam clearRam (fun _ => 0) (fun _ => 0)
    obligingRom_commits erasedFlash_model
  have hfirst : ¬ (powerUp clearRam (fun _ => 0) erasedFlash).load.Initialised := by
    rw [load_initialised_iff]
    exact erasedFlash_model
  have herased := regBegin_erased obligingRom_commits hfirst (show 0 < eepromFlashSize by decide)
  have himage := hpersists.image 0 (by decide)
  rw [herased] at himage
  exact absurd himage (by decide)

theorem regBegin_not_persists_erased :
    ¬ Persists obligingRom clearRam (fun _ => 0) (powerUp clearRam (fun _ => 0) erasedFlash) :=
  regBegin_not_persists obligingRom_commits erasedFlash_model clearRam clearRam (fun _ => 0)
    (fun _ => 0)

end Boot

end Recirculador
