/-
The I2C master of `i2c.c`.

Every access the driver makes to the controller is recorded in order.  What the
controller shows is a function of how many accesses came before: `stat n` is the
status and `mstdat n` the received byte an access at that point reads.  All waits
are bounded polls; a wait that gives up ends the transfer.
-/
import Recirculador.Checksum
import Recirculador.Message.Queue

namespace Recirculador

/-! ## The controller -/

inductive MstCtl
  | mstctlContinue
  | mstctlStart
  | mstctlStop
  deriving DecidableEq

/-- An access to `I2C0`: reading `STAT` or `MSTDAT`, writing `MSTDAT` or `MSTCTL`. -/
inductive BusAccess
  | readStat
  | readMstdat
  | mstdat (value : BitVec 32)
  | mstctl (value : MstCtl)
  deriving DecidableEq

/-- The fields of `STAT` the driver looks at: `MSTPENDING` and `MSTSTATE`. -/
structure Stat where
  pending : Bool
  state : BitVec 3

@[simp] abbrev i2cStatMststIdle : BitVec 3 := 0b000
@[simp] abbrev i2cStatMststRxrdy : BitVec 3 := 0b001
@[simp] abbrev i2cStatMststTxrdy : BitVec 3 := 0b010

@[simp] abbrev loopWaitReceive : Nat := 20

inductive I2cStat
  | fail
  | timeOut
  | ok
  deriving DecidableEq

def I2cStat.toInt : I2cStat → Int
  | fail => -1
  | timeOut => 0
  | ok => 1

structure I2c where
  stat : Nat → Stat
  mstdat : Nat → BitVec 8
  trace : List BusAccess
  /-- How many waits gave up; the driver never looks at it. -/
  timeOuts : Nat

namespace I2c

def record (access : BusAccess) (b : I2c) : I2c := { b with trace := b.trace ++ [access] }

def readStat (b : I2c) : Stat × I2c := (b.stat b.trace.length, b.record .readStat)

def readMstdat (b : I2c) : BitVec 8 × I2c := (b.mstdat b.trace.length, b.record .readMstdat)

def writeMstdat (value : BitVec 32) (b : I2c) : I2c := b.record (.mstdat value)

def writeMstctl (value : MstCtl) (b : I2c) : I2c := b.record (.mstctl value)

/-! ## Waiting -/

/-- Read `STAT` until it passes a test, at most so many times. -/
def poll (test : Stat → Bool) : Nat → I2c → Bool × I2c
  | 0, b => (false, b)
  | n + 1, b =>
    let shown := b.readStat
    if test shown.1 then (true, shown.2) else poll test n shown.2

/-- What a wait does when it gives up. -/
def giveUp (b : I2c) : I2c :=
  { (b.writeMstdat 0).writeMstctl .mstctlStop with timeOuts := b.timeOuts + 1 }

/-- `WaitI2cMasterState`.  The first loop gives up when its counter is past the
limit, the second when it reaches it. -/
def waitI2cMasterState (state : BitVec 3) (b : I2c) : I2cStat × I2c :=
  let pending := b.poll (fun s => s.pending) (loopWaitReceive + 2)
  if pending.1 = false then (.timeOut, pending.2.giveUp)
  else
    let reached := pending.2.poll (fun s => s.state == state) (loopWaitReceive + 1)
    if reached.1 = false then (.timeOut, reached.2.giveUp) else (.ok, reached.2)

def waitI2cMasterRxrdy (b : I2c) : I2cStat × I2c :=
  let reached := b.poll (fun s => s.state == i2cStatMststRxrdy) (loopWaitReceive + 2)
  if reached.1 = false then
    let b := { reached.2.writeMstctl .mstctlStop with timeOuts := reached.2.timeOuts + 1 }
    (.timeOut, (b.waitI2cMasterState i2cStatMststIdle).2)
  else (.ok, reached.2)

/-- `if (i2c_stats != i2cStat_OK) return i2c_stats;` and the rest of the function. -/
def ifOk (r : I2cStat × I2c) (k : I2c → I2cStat × I2c) : I2cStat × I2c :=
  if r.1 = .ok then k r.2 else r

/-! ## Sending -/

/-- The address byte and the start of a transfer; `read` is bit 0. -/
def startTransfer (addr : BitVec 8) (read : BitVec 32) (b : I2c) : I2c :=
  (b.writeMstdat ((addr.setWidth 32 <<< 1) ||| read)).writeMstctl .mstctlStart

/-- One of the loops that send a byte a turn. -/
def sendLoop : List (BitVec 8) → I2c → I2cStat × I2c
  | [], b => (.ok, b)
  | byte :: bytes, b =>
    ifOk (b.waitI2cMasterState i2cStatMststTxrdy) fun b =>
      sendLoop bytes ((b.writeMstdat (byte.setWidth 32)).writeMstctl .mstctlContinue)

/-- The end of both send functions.  The results of its waits are dropped. -/
def endSend (b : I2c) : I2c :=
  let b := (b.waitI2cMasterState i2cStatMststTxrdy).2
  let b := (b.writeMstdat 0).writeMstctl .mstctlStop
  (b.waitI2cMasterState i2cStatMststIdle).2

/-- `i2cSend_master`. -/
def sendMaster (addr : BitVec 8) (message : List (BitVec 8)) (b : I2c) : I2cStat × I2c :=
  ifOk (b.waitI2cMasterState i2cStatMststIdle) fun b =>
  ifOk ((b.startTransfer addr 0).waitI2cMasterState i2cStatMststTxrdy) fun b =>
  ifOk (sendLoop message b) fun b =>
    (.ok, b.endSend)

end I2c

/-! ## Sending a message -/

/-- The bytes of the packed structure. -/
def I2cModbus.structBytes (m : I2cModbus) : List (BitVec 8) :=
  [m.code, m.regAddr.setWidth 8, (m.regAddr >>> 8).setWidth 8, m.nReg.setWidth 8,
    (m.nReg >>> 8).setWidth 8, m.bytes, m.ptrMessage.setWidth 8, (m.ptrMessage >>> 8).setWidth 8,
    (m.ptrMessage >>> 16).setWidth 8, (m.ptrMessage >>> 24).setWidth 8, m.crc.setWidth 8,
    (m.crc >>> 8).setWidth 8, m.addr, m.sizeHead.setWidth 8, (m.sizeHead >>> 8).setWidth 8,
    m.sizeMessage.setWidth 8, (m.sizeMessage >>> 8).setWidth 8]

/-- The checksum of a message, `payload` being the bytes behind its pointer. -/
def I2cModbus.frameCrc (payload : Nat → BitVec 8) (m : I2cModbus) : BitVec 16 :=
  modbusStructCrc16 (fun i => m.structBytes.getD i 0) (m.sizeHead.signExtend 32).toNat payload
    (m.sizeMessage.signExtend 32).toNat

def I2cModbus.headBytes (m : I2cModbus) : List (BitVec 8) :=
  (List.range m.sizeHead.toInt.toNat).map fun i => m.structBytes.getD i 0

def I2cModbus.payloadBytes (payload : Nat → BitVec 8) (m : I2cModbus) : List (BitVec 8) :=
  (List.range m.sizeMessage.toInt.toNat).map payload

namespace I2c

/-- The part of `i2cSend_master_modbus` after the checksum is stored. -/
def sendFrame (payload : Nat → BitVec 8) (message : I2cModbus) (b : I2c) : I2cStat × I2c :=
  ifOk ((b.startTransfer message.addr 0).waitI2cMasterState i2cStatMststTxrdy) fun b =>
  ifOk (sendLoop message.headBytes b) fun b =>
  ifOk (sendLoop (message.payloadBytes payload) b) fun b =>
  ifOk (sendLoop (crcBytes message.crc) b) fun b =>
    (.ok, b.endSend)

/-- `i2cSend_master_modbus`, with the message it leaves. -/
def sendMasterModbus (payload : Nat → BitVec 8) (message : I2cModbus) (b : I2c) :
    I2cStat × I2cModbus × I2c :=
  let wait := b.waitI2cMasterState i2cStatMststIdle
  if wait.1 ≠ .ok then (wait.1, message, wait.2)
  else
    let message := { message with crc := message.frameCrc payload }
    let sent := sendFrame payload message wait.2
    (sent.1, message, sent.2)

end I2c

end Recirculador
