/-
The state the main loop and the tasks share, and what they ask of the bus.

The bus driver is an interface here: the calls made to it are recorded in order
and an `Exchange` holds what it answers.
-/
import Recirculador.Checksum
import Recirculador.Message.Queue
import Recirculador.Registers.Vector
import Recirculador.Rtc.Clock

namespace Recirculador

open SysRegMap Registers

inductive BusOp
  | send (addr : BitVec 8) (message : List (BitVec 8))
  | sendModbus (message : I2cModbus)
  | readLenght (addr : BitVec 8) (len : Int)
  | read (addr : BitVec 8)
  | readClearBuffer (addr : BitVec 8)

structure RecChange where
  lastUpdate : BitVec 64
  variation : BitVec 64
  flag : BitVec 8

def recChangeVar : RecChange := { lastUpdate := 0, variation := 0, flag := 0b1 }

/-- `rec_create_messages_var`, the values last sent. -/
structure RecCreateMessages where
  s1 : BitVec 32
  s2 : BitVec 32
  flux : BitVec 32
  current : BitVec 32
  timestamp : BitVec 32
  deriving DecidableEq

def recCreateMessagesVar : RecCreateMessages :=
  { s1 := 0, s2 := 0, flux := 0, current := 0, timestamp := 0 }

structure Firmware where
  /-- Where the linker put `reg_vet`. -/
  regVetAddr : BitVec 32
  regs : Registers
  queue : Queue
  recChange : RecChange
  recCreate : RecCreateMessages
  pause : Bool
  bus : List BusOp

namespace Firmware

def record (op : BusOp) (f : Firmware) : Firmware := { f with bus := f.bus ++ [op] }

def messageNew (newMessage : I2cModbus) (f : Firmware) : MessageStatus × Firmware :=
  let result := Recirculador.messageNew newMessage f.queue
  (result.1, { f with queue := result.2 })

/-- The byte at a machine address; `memory` is everything but the register file. -/
def deref (memory : Nat → BitVec 8) (f : Firmware) (address : BitVec 32) : BitVec 8 :=
  let offset := (address - f.regVetAddr).toNat
  if offset < intBase + 4 * nregIntTot then f.regs.regVet offset else memory address.toNat

theorem deref_congr {memory : Nat → BitVec 8} {f f' : Firmware} {address : BitVec 32}
    (haddr : f'.regVetAddr = f.regVetAddr)
    (hbyte : f'.regs.regVet (address - f.regVetAddr).toNat =
      f.regs.regVet (address - f.regVetAddr).toNat) :
    f'.deref memory address = f.deref memory address := by
  simp only [deref, haddr, hbyte]

end Firmware

/-! ## Pointers into the register file -/

def regPtrBool (f : Firmware) : BitVec 32 := f.regVetAddr

def regPtrShort (index : Nat) (f : Firmware) : BitVec 32 :=
  if index = 0 then f.regVetAddr + BitVec.ofNat 32 shortBase
  else
    match getIndex index with
    | none => 0
    | some k => f.regVetAddr + BitVec.ofNat 32 (shortBase + 2 * k)

def regPtrInt (index : Nat) (f : Firmware) : BitVec 32 :=
  if index = 0 then f.regVetAddr + BitVec.ofNat 32 intBase
  else
    match getIndex index with
    | none => 0
    | some k => f.regVetAddr + BitVec.ofNat 32 (intBase + 4 * k)

/-- What the bus and the stack hold for one exchange with a slave. -/
structure Exchange where
  /-- The bus was free, so sending got as far as computing the checksum. -/
  idle : Bool
  /-- The result of the send: -1, 0 on a timeout, 1 when complete. -/
  sendStat : Int
  /-- The bytes read, unless the read fails. -/
  reply : Option (Nat → BitVec 8)
  memory : Nat → BitVec 8
  messageStack : I2cModbus
  rtcStack : Rtc.RtcData

/-! ## The task that reads the clock chip

`RTC_loop` is the one task that uses the bus: it sends the chip a register number, reads ten
bytes and, if they are no time, sets the chip anew. -/

namespace Rtc

/-- The static variables of `rtc.c`. -/
structure RtcVar where
  flagBegin : Bool
  lastTimeResynchronization : BitVec 32
  timeResynchronization : BitVec 32

/-- What one call finds: the time when it starts and when it ends, the bytes of the
chip, the stack and the memory behind the table of months. -/
structure RtcCall where
  now : BitVec 64
  later : BitVec 64
  received : List (BitVec 8)
  stack : RtcData
  behind : Nat → BitVec 8

/-- The driver's calls of `RTC_resynchronization` in order. -/
def Resync.calls (resync : Resync) : List BusOp :=
  (resync.sent.take 1).map (.send sysI2cAddrRtcBq32000) ++
    .readLenght sysI2cAddrRtcBq32000 10 ::
      (resync.sent.drop 1).map (.send sysI2cAddrRtcBq32000)

def rtcLoop (call : RtcCall) (v : RtcVar) (f : Firmware) : RtcVar × Firmware :=
  if v.flagBegin = false then (v, f)
  else
    let dt := call.now - v.lastTimeResynchronization.setWidth 64
    if dt < v.timeResynchronization.setWidth 64 then (v, f)
    else
      let resync := rtcResynchronization call.behind call.stack call.received (f.regs.intRegVet 0)
      ({ v with lastTimeResynchronization := call.later.setWidth 32 },
        { f with regs := f.regs.setInt 0 resync.ptrTimestamp, bus := f.bus ++ resync.calls })

end Rtc

/-! ## A firmware and a slave to run things on -/

/-- The static values over registers that hold 0. -/
def bootFirmware : Firmware where
  regVetAddr := 0x10000000
  regs := { regVet := fun _ => 0, changeFlag := 0 }
  queue := bootQueue
  recChange := recChangeVar
  recCreate := recCreateMessagesVar
  pause := false
  bus := []

/-- The message is sent and nobody answers. -/
def noAnswer : Exchange where
  idle := true
  sendStat := 1
  reply := none
  memory := fun _ => 0
  messageStack := messageDefault
  rtcStack := ⟨0, 0, 0, 0, 0, 0, 0, 0, 0, 0, 0, 0, 0⟩

end Recirculador
