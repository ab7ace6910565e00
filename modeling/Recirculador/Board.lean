/-
The constants of `board_defs.h` the model uses.

Addresses and counts are natural numbers.  The register map keeps the order of
the source's enumeration: each bank starts at its offset and the names follow.
-/

namespace Recirculador

/-! ## Devices, pins and times -/

@[simp] abbrev sysI2cAddrAll : BitVec 8 := 0x00
@[simp] abbrev sysI2cAddrWiFi : BitVec 8 := 0x30
@[simp] abbrev sysI2cAddrRecDisplay : BitVec 8 := 0x40
@[simp] abbrev sysI2cAddrRtcBq32000 : BitVec 8 := 0x68

/-- `SysI2C_ADDR_Slave_Vet`, the slaves a message to everyone is sent to. -/
def sysI2cAddrSlaveVet : List (BitVec 8) := [sysI2cAddrWiFi, sysI2cAddrRecDisplay]

@[simp] abbrev sysPinBotoeira : Nat := 9
@[simp] abbrev sysPinSensorDeFluxo : Nat := 8
@[simp] abbrev sysPinPump : Nat := 17
@[simp] abbrev sysPinNReload : Nat := 12
@[simp] abbrev sysPinReset : Nat := 5
@[simp] abbrev sysPinNReady : Nat := 2
@[simp] abbrev sysPinNLink : Nat := 11

/-- 2024-01-01 00:00:00 UTC, the smallest time the firmware accepts. -/
@[simp] abbrev sysTimestampMin : Nat := 1704067200
@[simp] abbrev sysSchedulersTotal : Nat := 10
@[simp] abbrev sysModbusMessageQueueSize : Nat := 15
@[simp] abbrev sysTicksButtonDebounce : Nat := 5

@[simp] abbrev sysAdcMeasureLenght : BitVec 16 := 5
@[simp] abbrev sysAdcTempS1 : BitVec 8 := 3
@[simp] abbrev sysAdcTempS2 : BitVec 8 := 10
@[simp] abbrev sysAdcVRef : BitVec 8 := 0
@[simp] abbrev sysAdcCurrent : BitVec 8 := 8

@[simp] abbrev sysEquipCode : BitVec 16 := 0x10
@[simp] abbrev sysFirmwareVersionMajor : BitVec 16 := 1
@[simp] abbrev sysFirmwareVersionMinor : BitVec 16 := 0
@[simp] abbrev sysFirmwareVersionPatch : BitVec 16 := 0
@[simp] abbrev sysSchedulersDefault : BitVec 32 := 0b11111110010110100010010110000000

/-! ## Errors -/

@[simp] abbrev sysErrorNo : BitVec 32 := 0
@[simp] abbrev sysErrorS1High : BitVec 32 := 0b0001
@[simp] abbrev sysErrorS1Low : BitVec 32 := 0b0010
@[simp] abbrev sysErrorS1ShortCircuit : BitVec 32 := 0b0100
@[simp] abbrev sysErrorS1OpenCircuit : BitVec 32 := 0b1000
@[simp] abbrev sysErrorS2High : BitVec 32 := 0b0000000100000000
/-- The source writes `000000001000000000` without its `b`, an octal number. -/
@[simp] abbrev sysErrorS2Low : BitVec 32 := 0o000000001000000000
@[simp] abbrev sysErrorS2ShortCircuit : BitVec 32 := 0b0000100000000000
@[simp] abbrev sysErrorS2OpenCircuit : BitVec 32 := 0b0001000000000000

/-! ## Modbus function codes -/

namespace Modbus

@[simp] abbrev getBoolReg : BitVec 8 := 0x01
@[simp] abbrev getDiscreteInput : BitVec 8 := 0x02
@[simp] abbrev getNumReg : BitVec 8 := 0x03
@[simp] abbrev readInputReg : BitVec 8 := 0x04
@[simp] abbrev setBoolReg : BitVec 8 := 0x05
@[simp] abbrev setSingleReg : BitVec 8 := 0x06
@[simp] abbrev readException : BitVec 8 := 0x07
@[simp] abbrev diagnostics : BitVec 8 := 0x08
@[simp] abbrev getEventCounter : BitVec 8 := 0x0B
@[simp] abbrev getEventLog : BitVec 8 := 0x0C
@[simp] abbrev setMultBoolReg : BitVec 8 := 0x0F
@[simp] abbrev setMultNumReg : BitVec 8 := 0x10
@[simp] abbrev reportSlaveId : BitVec 8 := 0x11
@[simp] abbrev readFileRecord : BitVec 8 := 0x14
@[simp] abbrev writeFileRecord : BitVec 8 := 0x15
@[simp] abbrev maskWriteRegister : BitVec 8 := 0x16
@[simp] abbrev rwMultRegisters : BitVec 8 := 0x17
@[simp] abbrev readFifoQueue : BitVec 8 := 0x18
@[simp] abbrev readDeviceId : BitVec 8 := 0x2B

end Modbus

/-! ## The register map -/

namespace SysRegMap

@[simp] abbrev offsetBool : Nat := 0x03E8
@[simp] abbrev offsetShort : Nat := 0x0BB8
@[simp] abbrev offsetInt : Nat := 0x1388
@[simp] abbrev mapEnd : Nat := 0x176F

@[simp] abbrev nregBoolTot : Nat := 128
@[simp] abbrev nregShortTot : Nat := 128
@[simp] abbrev nregIntTot : Nat := 128

/-- `Sys_RegMap_GetIndex`, the index of an address inside its bank.  The `-1` of
an address outside every bank is `none`. -/
def getIndex (addr : Nat) : Option Nat :=
  if offsetBool ≤ addr ∧ addr < offsetShort then some (addr - offsetBool)
  else if offsetShort ≤ addr ∧ addr < offsetInt then some (addr - offsetShort)
  else if offsetInt ≤ addr ∧ addr < mapEnd then some (addr - offsetInt)
  else none

/-- `Sys_RegMap_GetRegBytes`.  The `sizeof` arms make the whole conditional
unsigned, so the `-1` of an address outside the map is the largest word. -/
def getRegBytes (addr : Int) : BitVec 32 :=
  if (offsetBool : Int) ≤ addr ∧ addr < offsetShort then 0#32
  else if (offsetShort : Int) ≤ addr ∧ addr < offsetInt then 2#32
  else if (offsetInt : Int) ≤ addr ∧ addr < mapEnd then 4#32
  else BitVec.allOnes 32

-- Bool registers.
@[simp] abbrev pump : Nat := offsetBool
@[simp] abbrev button : Nat := offsetBool + 1
@[simp] abbrev resetButton : Nat := offsetBool + 2

-- Short registers.
@[simp] abbrev model : Nat := offsetShort
@[simp] abbrev gtm : Nat := offsetShort + 95

-- Int registers: first the measured ones, then the parameters.
@[simp] abbrev timestamp : Nat := offsetInt
@[simp] abbrev fluxCounter : Nat := offsetInt + 1
@[simp] abbrev fluxLiters : Nat := offsetInt + 2
@[simp] abbrev fluxTotalLiters : Nat := offsetInt + 3
@[simp] abbrev s1Adc : Nat := offsetInt + 4
@[simp] abbrev s1Mv : Nat := offsetInt + 5
@[simp] abbrev s1Temp : Nat := offsetInt + 6
@[simp] abbrev s2Adc : Nat := offsetInt + 7
@[simp] abbrev s2Mv : Nat := offsetInt + 8
@[simp] abbrev s2Temp : Nat := offsetInt + 9
@[simp] abbrev currentAdc : Nat := offsetInt + 10
@[simp] abbrev currentMv : Nat := offsetInt + 11
@[simp] abbrev current : Nat := offsetInt + 12
@[simp] abbrev errors : Nat := offsetInt + 13
@[simp] abbrev fluxCalib : Nat := offsetInt + 14
@[simp] abbrev s1TempRef : Nat := offsetInt + 17
@[simp] abbrev s1TempHysteresis : Nat := offsetInt + 18
@[simp] abbrev s1ErrorHigh : Nat := offsetInt + 22
@[simp] abbrev s1ErrorLow : Nat := offsetInt + 23
@[simp] abbrev s1ErrorDesconnect : Nat := offsetInt + 24
@[simp] abbrev s1ErrorShortCircuit : Nat := offsetInt + 25
@[simp] abbrev s2TempRef : Nat := offsetInt + 26
@[simp] abbrev s2TempHysteresis : Nat := offsetInt + 27
@[simp] abbrev s2ErrorHigh : Nat := offsetInt + 31
@[simp] abbrev s2ErrorLow : Nat := offsetInt + 32
@[simp] abbrev s2ErrorDesconnect : Nat := offsetInt + 33
@[simp] abbrev s2ErrorShortCircuit : Nat := offsetInt + 34
@[simp] abbrev currentResistor : Nat := offsetInt + 35
@[simp] abbrev timeRecirculation : Nat := offsetInt + 39
@[simp] abbrev tempRefRecirculation : Nat := offsetInt + 40
@[simp] abbrev schedules0 : Nat := offsetInt + 41
@[simp] abbrev schedules9 : Nat := offsetInt + 50

@[simp] abbrev nregBool : Nat := resetButton + 1 - offsetBool
@[simp] abbrev nregShort : Nat := gtm + 1 - offsetShort
@[simp] abbrev nregIntStatic : Nat := schedules9 - errors

theorem getIndex_bool {k : Nat} (hk : k < 128) : getIndex (offsetBool + k) = some k := by
  have h : offsetBool ≤ offsetBool + k ∧ offsetBool + k < offsetShort := by simp; omega
  rw [getIndex, if_pos h, Nat.add_sub_cancel_left]

theorem getIndex_short {k : Nat} (hk : k < 128) : getIndex (offsetShort + k) = some k := by
  have h₁ : ¬ (offsetBool ≤ offsetShort + k ∧ offsetShort + k < offsetShort) := by simp
  have h₂ : offsetShort ≤ offsetShort + k ∧ offsetShort + k < offsetInt := by simp; omega
  rw [getIndex, if_neg h₁, if_pos h₂, Nat.add_sub_cancel_left]

theorem getIndex_int {k : Nat} (hk : k < 128) : getIndex (offsetInt + k) = some k := by
  have h₁ : ¬ (offsetBool ≤ offsetInt + k ∧ offsetInt + k < offsetShort) := by simp; omega
  have h₂ : ¬ (offsetShort ≤ offsetInt + k ∧ offsetInt + k < offsetInt) := by simp
  have h₃ : offsetInt ≤ offsetInt + k ∧ offsetInt + k < mapEnd := by simp; omega
  rw [getIndex, if_neg h₁, if_neg h₂, if_pos h₃, Nat.add_sub_cancel_left]

end SysRegMap

end Recirculador
