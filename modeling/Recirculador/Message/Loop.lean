/-
`message_loop`, the consumer of the queue.

The loop is written from its statements, which the preemption model steps through
one by one.  Whatever a slave answers, one exchange does two things to the queue:
it rewrites checksum and address of the message at the pointer, and it calls
`message_New`.
-/
import Recirculador.Bus.Driver
import Recirculador.Message.Reply

namespace Recirculador

open SysRegMap Registers

namespace Firmware

/-! ## The statements of `_message_loop_aux` -/

def schedulerPause (f : Firmware) : Firmware := { f with pause := true }

def schedulerContinue (f : Firmware) : Firmware := { f with pause := false }

/-- Entering `_message_loop_aux`, whose first statement pauses the scheduler. -/
def beginAux (f : Firmware) : Firmware := { f with queue := f.queue.recordDispatch }.schedulerPause

/-- `i2cSend_master_modbus(&_ptrQueue->message)`: a free bus lets it compute the
checksum, which it stores in the message. -/
def sendMessage (e : Exchange) (f : Firmware) : Int × Firmware :=
  let message := f.queue.head
  let crc := modbusStructCrc16 (fun i => message.structBytes.getD i 0)
    (message.sizeHead.signExtend 32).toNat
    (fun i => f.deref e.memory (message.ptrMessage + BitVec.ofNat 32 i))
    (message.sizeMessage.signExtend 32).toNat
  let message := if e.idle then { message with crc } else message
  (e.sendStat, { f with queue := f.queue.setMessage f.queue.ptrQueue message }.record
    (.sendModbus message))

/-- The exchange holds what the driver answers for the message at the pointer. -/
theorem sendMessage_driver {e : Exchange} {f : Firmware} {b : I2c}
    (hidle : e.idle = ((b.waitI2cMasterState i2cStatMststIdle).1 == .ok))
    (hstat : e.sendStat = (b.sendMasterModbus (fun i =>
      f.deref e.memory (f.queue.head.ptrMessage + BitVec.ofNat 32 i)) f.queue.head).1.toInt) :
    let sent := b.sendMasterModbus (fun i =>
      f.deref e.memory (f.queue.head.ptrMessage + BitVec.ofNat 32 i)) f.queue.head
    sendMessage e f = (sent.1.toInt,
      { f with queue := f.queue.setMessage f.queue.ptrQueue sent.2.1 }.record
        (.sendModbus sent.2.1)) := by
  rw [sendMessage, hstat, hidle, I2c.sendMasterModbus]
  by_cases hok : (b.waitI2cMasterState i2cStatMststIdle).1 = .ok
  · simp only [hok, ne_eq, not_true_eq_false, if_false, beq_self_eq_true, if_true]
    rfl
  · simp only [hok, ne_eq, not_false_eq_true, if_true, beq_eq_false_iff_ne.mpr hok,
      Bool.false_eq_true, if_false]

/-- `i2cReadClearBuffer_master`, called when the exchange failed. -/
def clearBuffer (statusAux : Int) (f : Firmware) : Firmware :=
  if statusAux = replyFail then f.record (.readClearBuffer f.queue.head.addr) else f

def setAddr (addr : BitVec 8) (f : Firmware) : Firmware :=
  { f with queue := f.queue.setMessage f.queue.ptrQueue { f.queue.head with addr } }

end Firmware

open Firmware

def messageLoopAux (e : Exchange) (f : Firmware) : Firmware :=
  let sent := sendMessage e f.beginAux
  -- The delay between the two halves runs with the scheduler on.
  let handled := handleReply e sent.1 sent.2.schedulerContinue.schedulerPause
  (clearBuffer handled.1 handled.2).schedulerContinue

/-- The loop over `SysI2C_ADDR_Slave_Vet`, from slave `i` on. -/
def messageLoopAll (env : Nat → Exchange) : Nat → List (BitVec 8) → Firmware → Firmware
  | _, [], f => f
  | i, addr :: addrs, f =>
    messageLoopAll env (i + 1) addrs (messageLoopAux (env i) (f.setAddr addr))

/-- The part of `message_loop` that hands the message to its slave, or to all of
them; `env i` is the exchange with the `i`-th slave addressed. -/
def serveHead (env : Nat → Exchange) (f : Firmware) : Firmware :=
  if f.queue.head.addr = sysI2cAddrAll then messageLoopAll env 0 sysI2cAddrSlaveVet f
  else messageLoopAux (env 0) f

/-- The part of `message_loop` that goes on to the next message. -/
def Queue.release (q : Queue) : Queue :=
  let q := q.resetSlot
  let q := q.moveHead
  if q.lenght > 0 then q.decrement else q

def messageLoop (env : Nat → Exchange) (f : Firmware) : Firmware :=
  let f := { f with queue := f.queue.recordCall }
  if f.queue.init = false then f
  else if f.queue.lenght = 0 then f
  else
    let f := serveHead env f
    { f with queue := f.queue.release }

end Recirculador
