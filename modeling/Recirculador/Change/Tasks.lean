/-
The two tasks that announce registers, from `recirculador.c`.

`rec_change_verify` sends one bank a call: the pending bit of lowest position,
after the refresh of `_rec_change` has had its say.  `rec_create_messages` asks
the slaves for their status and sends the measured values when they moved.
-/
import Recirculador.Message.Reply

namespace Recirculador

open SysRegMap Registers

/-! ## The periodic refresh -/

/-- `_rec_change` at the time `now`, on its own variable and the registers. -/
def recChange (now : BitVec 64) (v : RecChange) (r : Registers) : RecChange × Registers :=
  let v := { v with variation := now - v.lastUpdate }
  let v :=
    if v.variation > 10000 then
      { v with lastUpdate := now, variation := 0, flag := v.flag <<< 1 }
    else v
  if v.flag &&& 0b10 ≠ 0 then
    ({ v with flag := v.flag <<< 1 }, regSetChangeFlag Bank.bool.changeBit r)
  else if v.flag &&& 0b1000 ≠ 0 then
    ({ v with flag := v.flag <<< 1 }, regSetChangeFlag Bank.short.changeBit r)
  else if v.flag &&& 0b100000 ≠ 0 then
    ({ v with flag := 0b1 }, regSetChangeFlag Bank.int.changeBit r)
  else (v, r)

/-- The call of `_rec_change` in `rec_change_verify`. -/
def Firmware.refresh (now : BitVec 64) (f : Firmware) : Firmware :=
  let changed := Recirculador.recChange now f.recChange f.regs
  { f with recChange := changed.1, regs := changed.2 }

/-! ## Announcing a bank -/

/-- The message `rec_change_verify` builds for a bank. -/
def bankMessage (b : Bank) (stack : I2cModbus) (f : Firmware) : I2cModbus :=
  match b with
  | .bool =>
    setMultNumReg offsetBool nregBool (nregBool / 8 + 1) (regPtrBool f) sysI2cAddrAll stack
  | .short =>
    setMultNumReg offsetShort nregShort (nregShort * 2) (regPtrShort 0 f) sysI2cAddrAll stack
  | .int =>
    setMultNumReg fluxCalib (schedules9 - fluxCalib + 1) ((schedules9 - fluxCalib + 1) * 4)
      (regPtrInt fluxCalib f) sysI2cAddrAll stack

/-- Enqueue the message of a bank and clear its bit. -/
def announce (b : Bank) (stack : I2cModbus) (f : Firmware) : Firmware :=
  let f := (f.messageNew (bankMessage b stack f)).2
  { f with regs := regClearChangeFlag b.changeBit f.regs }

/-- `rec_change_verify`, with its uninitialised local message. -/
def recChangeVerify (now : BitVec 64) (stack : I2cModbus) (f : Firmware) : Firmware :=
  let f := f.refresh now
  let flagChange := regReturnChangeFlag f.regs
  if flagChange &&& Bank.bool.changeBit ≠ 0 then announce .bool stack f
  else if flagChange &&& Bank.short.changeBit ≠ 0 then announce .short stack f
  else if flagChange &&& Bank.int.changeBit ≠ 0 then announce .int stack f
  else f

/-! ## Sending the measured values -/

def recVariationTest (ref1 ref2 variation : BitVec 32) : Bool :=
  let value := ref1 - ref2
  if (-variation).slt value && value.slt variation then false else true

def statusMessage (stack : I2cModbus) : I2cModbus :=
  { stack with
    code := Modbus.reportSlaveId
    addr := sysI2cAddrAll
    sizeHead := 1
    sizeMessage := 0 }

def recGetStatus (stack : I2cModbus) (f : Firmware) : Firmware :=
  (f.messageNew (statusMessage stack)).2

/-- The measured values `rec_create_messages` reads. -/
def measured (r : Registers) : RecCreateMessages where
  s1 := regReadInt s1Temp r
  s2 := regReadInt s2Temp r
  flux := regReadInt fluxLiters r
  current := regReadInt current r
  timestamp := regReadInt timestamp r

def messageFlag (now sent : RecCreateMessages) : BitVec 8 :=
  (if recVariationTest now.s1 sent.s1 20 then 0b0001 else 0) |||
  (if recVariationTest now.s2 sent.s2 20 then 0b0010 else 0) |||
  (if recVariationTest now.flux sent.flux 50 then 0b0100 else 0) |||
  (if recVariationTest now.current sent.current 100 then 0b1000 else 0) |||
  (if now.timestamp ≠ sent.timestamp then 0b1000 else 0)

def measuredMessage (stack : I2cModbus) (f : Firmware) : I2cModbus :=
  setMultNumReg offsetInt (errors - timestamp) ((errors - timestamp) * 4) (regPtrInt 0 f)
    sysI2cAddrAll stack

/-- The part of `rec_create_messages` after `rec_get_status`. -/
def sendMeasured (stack : I2cModbus) (f : Firmware) : Firmware :=
  if messageFlag (measured f.regs) f.recCreate = 0 then f
  else
    let f := { f with recCreate := measured f.regs }
    (f.messageNew (measuredMessage stack f)).2

/-- `rec_create_messages`.  Its own local message and that of `rec_get_status` are
uninitialised. -/
def recCreateMessages (statusStack stack : I2cModbus) (f : Firmware) : Firmware :=
  sendMeasured stack (recGetStatus statusStack f)

/-! ## What a task does to the queue -/

theorem announce_enqueues (b : Bank) (stack : I2cModbus) (f : Firmware) :
    Enqueues f (announce b stack f) :=
  ⟨[bankMessage b stack f], rfl⟩

theorem recChangeVerify_enqueues (now : BitVec 64) (stack : I2cModbus) (f : Firmware) :
    Enqueues f (recChangeVerify now stack f) := by
  have hbank : ∀ b, Enqueues f (announce b stack (f.refresh now)) := fun b =>
    (Enqueues.of_eq rfl).trans (announce_enqueues b stack (f.refresh now))
  unfold recChangeVerify
  exact .ite (hbank .bool) (.ite (hbank .short) (.ite (hbank .int) (.of_eq rfl)))

theorem sendMeasured_enqueues (stack : I2cModbus) (f : Firmware) :
    Enqueues f (sendMeasured stack f) := by
  have hsent : Enqueues { f with recCreate := measured f.regs } ({ f with
      recCreate := measured f.regs }.messageNew
        (measuredMessage stack { f with recCreate := measured f.regs })).2 := .messageNew _ _
  unfold sendMeasured
  exact .ite (.refl f) hsent

theorem recCreateMessages_enqueues (statusStack stack : I2cModbus) (f : Firmware) :
    Enqueues f (recCreateMessages statusStack stack f) :=
  Enqueues.trans (.messageNew _ f) (sendMeasured_enqueues stack _)

end Recirculador
