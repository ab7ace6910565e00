/-
The settings over the life of a device.

Between two power cycles the program may write any register, stage anything in the EEPROM's
vector and commit or reset it as often as it likes.  The ROM accepts none of the calls that
`eeprom_Commit` makes, so the flash keeps what it left the factory with, and every boot finds
the same registers.
-/
import Recirculador.Flash.Begin
import Recirculador.Flash.Staging

namespace Recirculador

open SysRegMap Registers

/-- `reg_eeprom_test_var`. -/
structure RegEepromTest where
  counter : BitVec 32
  flag : BitVec 32

def regEepromTestVar : RegEepromTest := { counter := 0, flag := 0 }

structure Device where
  boot : Boot
  test : RegEepromTest

/-- `rec_eeprom_test`, which stages the registers and commits nothing. -/
def recEepromTest (d : Device) : Device :=
  let test := { d.test with counter := (d.test.counter + 1).srem 10 }
  if test.counter = 0 ∨ test.flag = 0 then { d with test }
  else
    let size := BitVec.ofNat 16 regMemSize
    { boot := { d.boot with eeprom := (d.boot.eeprom.writeVet d.boot.regs.regVet size 0).2 }, test }

inductive LifeAction
  | registers (regs : Registers)
  | writeVet (src : Nat → BitVec 8) (size : BitVec 16) (addrInit : BitVec 32)
  | writeChar (value : BitVec 8) (addr : BitVec 32)
  | writeShort (value : BitVec 16) (addr : BitVec 32)
  | writeInt (value addr : BitVec 32)
  | commit
  | reset
  | eepromTest
  /-- The power goes and comes back; the memory holds anything then. -/
  | powerCycle (ram : Registers) (vet : Nat → BitVec 8)

namespace Device

/-- Fresh memory over a flash, and `reg_Begin`. -/
def boots (rom : Rom) (ram : Registers) (vet : Nat → BitVec 8) (flash : ByteMemory) : Device where
  boot := (Boot.powerUp ram vet flash).regBegin rom
  test := regEepromTestVar

def withEeprom (d : Device) (eeprom : Eeprom) : Device :=
  { d with boot := { d.boot with eeprom } }

def step (rom : Rom) (d : Device) : LifeAction → Device
  | .registers regs => { d with boot := { d.boot with regs } }
  | .writeVet src size addrInit => d.withEeprom (d.boot.eeprom.writeVet src size addrInit).2
  | .writeChar value addr => d.withEeprom (d.boot.eeprom.writeChar value addr).2
  | .writeShort value addr => d.withEeprom (d.boot.eeprom.writeShort value addr).2
  | .writeInt value addr => d.withEeprom (d.boot.eeprom.writeInt value addr).2
  | .commit => d.withEeprom (d.boot.eeprom.commit rom).2
  | .reset => d.withEeprom (d.boot.eeprom.reset rom).2
  | .eepromTest => recEepromTest d
  | .powerCycle ram vet => boots rom ram vet d.boot.eeprom.flash.bytes

/-! ## The flash -/

/-- The flash holds what it held, and no sector is prepared. -/
structure Frozen (flash : ByteMemory) (d : Device) : Prop where
  bytes : d.boot.eeprom.flash.bytes = flash
  unprepared : d.boot.eeprom.Unprepared

variable {rom : Rom} {flash : ByteMemory} {d : Device}

/-! Staging moves bytes in RAM only. -/

theorem flash_foldl_put (bytes : Nat → BitVec 8) (addr : BitVec 32) (is : List Nat) (s : Eeprom) :
    (is.foldl (fun s i => s.put (BitVec.ofNat 32 i + addr) (bytes i)) s).flash = s.flash := by
  induction is generalizing s with
  | nil => rfl
  | cons i is ih => exact ih _

theorem flash_writeVet (src : Nat → BitVec 8) (size : BitVec 16) (addr : BitVec 32) (s : Eeprom) :
    (s.writeVet src size addr).2.flash = s.flash := by
  rw [Eeprom.writeVet]
  split
  · rfl
  · exact flash_foldl_put src addr _ s

theorem flash_writeChar (value : BitVec 8) (addr : BitVec 32) (s : Eeprom) :
    (s.writeChar value addr).2.flash = s.flash := by
  rw [Eeprom.writeChar]
  split
  · rfl
  · rfl

theorem flash_writeChars (bytes : Nat → BitVec 8) (addr : BitVec 32) (n : Nat) (s : Eeprom) :
    (s.writeChars bytes addr n).flash = s.flash := by
  rw [Eeprom.writeChars]
  induction List.range n generalizing s with
  | nil => rfl
  | cons i is ih => exact (ih _).trans (flash_writeChar _ _ s)

theorem flash_writeShort (value : BitVec 16) (addr : BitVec 32) (s : Eeprom) :
    (s.writeShort value addr).2.flash = s.flash := by
  rw [Eeprom.writeShort]
  split
  · exact flash_writeChars _ addr 2 s
  · rfl

theorem flash_writeInt (value addr : BitVec 32) (s : Eeprom) :
    (s.writeInt value addr).2.flash = s.flash := by
  rw [Eeprom.writeInt]
  split
  · exact flash_writeChars _ addr 4 s
  · rfl

theorem Frozen.withEeprom (h : d.Frozen flash) {eeprom : Eeprom}
    (hflash : eeprom.flash = d.boot.eeprom.flash) : (d.withEeprom eeprom).Frozen flash := by
  constructor
  · show eeprom.flash.bytes = flash
    rw [hflash]
    exact h.bytes
  · intro k
    show eeprom.flash.prepared k = false
    rw [hflash]
    exact h.unprepared k

/-- Neither way through `reg_Begin` writes the flash. -/
theorem boots_frozen (hrom : rom.Documented) (ram : Registers) (vet : Nat → BitVec 8)
    (flash : ByteMemory) : (boots rom ram vet flash).Frozen flash := by
  have hflash : ((Boot.powerUp ram vet flash).regBegin rom).eeprom.flash =
      { bytes := flash, prepared := fun _ => false } := by
    by_cases hfirst : (Boot.powerUp ram vet flash).load.Initialised
    · have hkeep : (Boot.powerUp ram vet flash).regBegin rom =
          (Boot.powerUp ram vet flash).load := by
        rw [Boot.regBegin]
        exact if_pos hfirst
      rw [hkeep, Boot.load_eeprom_flash]
      rfl
    · rw [Boot.regBegin_flash hrom hfirst fun _ => rfl]
      rfl
  constructor
  · show ((Boot.powerUp ram vet flash).regBegin rom).eeprom.flash.bytes = flash
    rw [hflash]
  · intro k
    show ((Boot.powerUp ram vet flash).regBegin rom).eeprom.flash.prepared k = false
    rw [hflash]

theorem flash_eepromTest (d : Device) :
    (recEepromTest d).boot.eeprom.flash = d.boot.eeprom.flash := by
  have hwrite : ∀ size : BitVec 16,
      (d.boot.eeprom.writeVet d.boot.regs.regVet size 0).2.flash = d.boot.eeprom.flash :=
    fun size => flash_writeVet _ size 0 _
  unfold recEepromTest
  generalize BitVec.ofNat 16 regMemSize = size
  extract_lets test
  split
  · rfl
  · exact hwrite size

theorem Frozen.eepromTest (h : d.Frozen flash) : (recEepromTest d).Frozen flash := by
  have hflash := flash_eepromTest d
  constructor
  · rw [hflash]
    exact h.bytes
  · intro k
    rw [hflash]
    exact h.unprepared k

theorem Frozen.step (hrom : rom.Documented) (d : Device) (a : LifeAction) (h : d.Frozen flash) :
    (d.step rom a).Frozen flash := by
  cases a with
  | registers regs => exact ⟨h.bytes, h.unprepared⟩
  | writeVet src size addrInit => exact h.withEeprom (flash_writeVet src size addrInit _)
  | writeChar value addr => exact h.withEeprom (flash_writeChar value addr _)
  | writeShort value addr => exact h.withEeprom (flash_writeShort value addr _)
  | writeInt value addr => exact h.withEeprom (flash_writeInt value addr _)
  | commit => exact h.withEeprom (Boot.commit_flash hrom h.unprepared)
  | reset => exact h.withEeprom (Boot.reset_flash hrom h.unprepared)
  | eepromTest => exact h.eepromTest
  | powerCycle ram vet =>
    rw [Device.step, h.bytes]
    exact boots_frozen hrom ram vet flash

/-! ## The boots -/

/-- The registers a boot loads: those of the flash, if it has ever been set up. -/
def image (flash : ByteMemory) (i : Nat) : BitVec 8 :=
  if ByteMemory.load 2 flash (eepromFlashFirstAddr + shortBase) = sysEquipCode then
    flash (i + eepromFlashFirstAddr)
  else nvDefaults.bytes i

theorem boots_image (ram : Registers) (vet : Nat → BitVec 8) (flash : ByteMemory) {i : Nat}
    (hi : i < regMemSize) : (boots rom ram vet flash).boot.regs.regVet i = image flash i := by
  have hiff : (Boot.powerUp ram vet flash).load.Initialised ↔
      ByteMemory.load 2 flash (eepromFlashFirstAddr + shortBase) = sysEquipCode :=
    Boot.load_initialised_iff _
  by_cases hfirst : (Boot.powerUp ram vet flash).load.Initialised
  · have hkeep : (boots rom ram vet flash).boot = (Boot.powerUp ram vet flash).load := by
      rw [boots, Boot.regBegin]
      exact if_pos hfirst
    rw [hkeep, Boot.load_regVet _ hi, image, if_pos (hiff.mp hfirst)]
    rfl
  · rw [boots, Boot.regBegin_first hfirst, image, if_neg (mt hiff.mpr hfirst)]
    exact Boot.factory_regVet _ hi

/-- A boot yields the registers the first one did. -/
def BootsAlike (rom : Rom) (flash : ByteMemory) (d : Device) : LifeAction → Prop
  | .powerCycle ram vet => ∀ i, i < regMemSize →
    (d.step rom (.powerCycle ram vet)).boot.regs.regVet i = image flash i
  | _ => True

theorem Frozen.bootsAlike (h : d.Frozen flash) (a : LifeAction) : BootsAlike rom flash d a := by
  cases a with
  | powerCycle ram vet =>
    intro i hi
    rw [Device.step, h.bytes]
    exact boots_image ram vet flash hi
  | _ => trivial

/-- Whatever is set, staged and committed, the flash never changes, and every power cycle
brings back the registers of the first boot. -/
theorem run_forgets (hrom : rom.Documented) (ram : Registers) (vet : Nat → BitVec 8)
    (flash : ByteMemory) (as : List LifeAction) :
    Run.Always (step rom) (fun d => d.boot.eeprom.flash.bytes = flash) (boots rom ram vet flash)
        as ∧
      Run.Each (step rom) (BootsAlike rom flash) (boots rom ram vet flash) as := by
  have hstart := boots_frozen hrom ram vet flash
  have hstep : ∀ (d : Device) (a : LifeAction), d.Frozen flash → (d.step rom a).Frozen flash :=
    Frozen.step hrom
  refine ⟨(Run.Always.of_invariant hstep hstart as).mono fun _ h => h.bytes, ?_⟩
  have hall : Run.Each (step rom) (fun _ _ => True) (boots rom ram vet flash) as :=
    Run.Each.of_forall (fun _ _ => trivial) _ as
  refine Run.Each.mono_of_invariant (Frozen flash) (fun d a h _ => hstep d a h) ?_ hstart hall
  intro d a h _
  exact h.bootsAlike a

/-- A set point written, staged and committed before the power goes, on an erased part. -/
theorem run_forgets_reference :
    let as := [.registers (regWriteShort 45 (offsetShort + 3) Boot.clearRam), .eepromTest,
      .writeChar 45 3, .commit, .powerCycle Boot.clearRam fun _ => 0]
    Run.Always (step Rom.reference) (fun d => d.boot.eeprom.flash.bytes = Boot.erasedFlash)
        (boots Rom.reference Boot.clearRam (fun _ => 0) Boot.erasedFlash) as ∧
      Run.Each (step Rom.reference) (BootsAlike Rom.reference Boot.erasedFlash)
        (boots Rom.reference Boot.clearRam (fun _ => 0) Boot.erasedFlash) as :=
  run_forgets Rom.reference_documented Boot.clearRam (fun _ => 0) Boot.erasedFlash _

end Device

end Recirculador
